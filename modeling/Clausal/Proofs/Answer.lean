import Clausal.Proofs.Satisfaction
import Clausal.Solver.Search
import Clausal.Solver.TwoSat

/-!
# Writing answers

Both the search and the method for two-literal clauses write their answer value by value into the
assignment that makes every variable false. Main statements: if all variables have a place, writing
succeeds and updates the valuation entry by entry (`writeAll_eq_ok`); where the entries name each
variable once, the values written are those of the entries (`updateAll_lookup`), and otherwise the
last one counts (`updateAll_of_last`), which is the first one of a list written backwards
(`updateAll_reverse`).
-/

namespace Clausal

/-- Updates a valuation entry by entry. -/
def Valuation.updateAll (σ : Valuation) (es : List (Variable × Bool)) : Valuation :=
  es.foldl (fun τ e => Function.update τ e.1 e.2) σ

/-- A variable that no entry names keeps its value. -/
lemma Valuation.updateAll_of_not_mem {σ : Valuation} {es : List (Variable × Bool)} {v : Variable}
    (h : v ∉ es.map Prod.fst) : Valuation.updateAll σ es v = σ v := by
  induction es generalizing σ with
  | nil => rfl
  | cons e rest ih =>
    simp only [List.map_cons, List.mem_cons, not_or] at h
    simp only [Valuation.updateAll, List.foldl_cons]
    rw [← Valuation.updateAll, ih h.2, Function.update_of_ne h.1]

/-- The last entry for a variable gives its value. -/
lemma Valuation.updateAll_of_last {σ : Valuation} {es fs : List (Variable × Bool)} {v : Variable}
    {b : Bool} (h : v ∉ fs.map Prod.fst) :
    Valuation.updateAll σ (es ++ (v, b) :: fs) v = b := by
  simp only [Valuation.updateAll, List.foldl_append, List.foldl_cons]
  rw [← Valuation.updateAll, ← Valuation.updateAll, Valuation.updateAll_of_not_mem h,
    Function.update_self]

/-- If literals are written from the last one to the first, the first one of a variable counts. -/
lemma Valuation.updateAll_reverse {σ : Valuation} {ls : List Literal} {v : Variable} {l : Literal}
    (h : ls.find? (fun k => k.var = v) = some l) :
    Valuation.updateAll σ (ls.reverse.map fun k => (k.var, k.value)) v = l.value := by
  obtain ⟨hlv, l₁, l₂, hsplit, hfirst⟩ := List.find?_eq_some_iff_append.mp h
  have hlv : l.var = v := by simpa using hlv
  have hnot : v ∉ (l₁.reverse.map fun k => (k.var, k.value)).map Prod.fst := by
    simp only [List.map_map, List.mem_map, List.mem_reverse, Function.comp_apply, not_exists,
      not_and]
    intro k hk
    simpa using hfirst k hk
  rw [hsplit, List.reverse_append, List.reverse_cons, List.append_assoc, List.map_append,
    List.singleton_append, List.map_cons, hlv]
  exact Valuation.updateAll_of_last hnot

/-- Entries that name each variable once give the values that are looked up in them. -/
lemma Valuation.updateAll_lookup {σ : Valuation} {es : List (Variable × Bool)} {v : Variable}
    (h : (es.map Prod.fst).Nodup) :
    Valuation.updateAll σ es v = (OrderedMap.lookup v es).getD (σ v) := by
  induction es generalizing σ with
  | nil => rfl
  | cons e rest ih =>
    obtain ⟨w, b⟩ := e
    obtain ⟨hw, hrest⟩ := List.nodup_cons.mp h
    by_cases hv : w = v
    · subst hv
      have hlast : Valuation.updateAll σ ([] ++ (w, b) :: rest) w = b :=
        Valuation.updateAll_of_last hw
      simpa [OrderedMap.lookup] using hlast
    · have hv' : v ≠ w := fun e => hv e.symm
      simp only [OrderedMap.lookup, hv, ↓reduceIte]
      rw [← Function.update_of_ne hv' b σ, ← ih hrest]
      rfl

/-- Writing at a place that the assignment has succeeds and sets the value there. -/
lemma Assignment.write_place {a : Assignment} {v : Variable} {b : Bool}
    (h : v.place < a.length) : a.write v.place b = .ok (a.set v.place b) := by
  simp [Assignment.write, h]

namespace Solver

/-- Writing entries whose variables have places updates the valuation entry by entry. -/
lemma Search.writeAll_eq_ok {a : Assignment} {es : List (Variable × Bool)}
    (h : ∀ e ∈ es, e.1.place < a.length) :
    ∃ a', writeAll a es = .ok a' ∧ a'.length = a.length ∧
      a'.valuation = Valuation.updateAll a.valuation es := by
  induction es generalizing a with
  | nil => exact ⟨a, rfl, rfl, rfl⟩
  | cons e rest ih =>
    obtain ⟨he, hrest⟩ := List.forall_mem_cons.mp h
    have hrest' : ∀ e' ∈ rest, e'.1.place < (a.set e.1.place e.2).length := by
      simpa only [List.length_set] using hrest
    obtain ⟨a', hok, hlen, hval⟩ := ih hrest'
    refine ⟨a', ?_, ?_, ?_⟩
    · simpa [writeAll, Assignment.write_place he, bind, Except.bind] using hok
    · simpa using hlen
    · rw [hval, Assignment.valuation_set he]
      rfl

/-- Making literals true is writing an entry for each of them. -/
lemma TwoSat.writeLiterals_eq (a : Assignment) (ls : List Literal) :
    writeLiterals a ls = Search.writeAll a (ls.map fun l => (l.var, l.value)) := by
  induction ls generalizing a with
  | nil => rfl
  | cons l rest ih =>
    simp only [writeLiterals, List.map_cons, Search.writeAll, bind, Except.bind]
    cases a.write l.var.place l.value with
    | error e => rfl
    | ok a' => exact ih a'

end Solver

end Clausal
