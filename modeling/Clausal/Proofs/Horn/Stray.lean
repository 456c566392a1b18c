import Clausal.Proofs.Horn.Meaning

/-!
# Propagation with stray entries

The register of a formula may have entries for clauses that are not clauses of the formula, each of
which has a variable that is not one of the formula. Propagation strikes literals out of these
clauses as well. Main statement: it comes to the same end as the propagation without these entries,
or it ends beyond the assignment at a variable that is not one of the formula (`Stray.solve`).
-/

namespace Clausal

namespace Formula

/-- A register without the entries for some clauses has the others registered as before. -/
lemma withNegation_filter {F G : Formula} {p : ClauseRef → Bool}
    (h : G.register = F.register.filter fun e => p e.2) (v : Variable) :
    G.withNegation v = (F.withNegation v).filter p := by
  simp only [withNegation, h, List.filter_map, List.filter_filter, Function.comp_def]
  congr 2
  funext e
  exact Bool.and_comm _ _

/-- A variable comes to the end of the queue unless it waits there. -/
lemma queue_enqueue (F : Formula) (v : Variable) :
    (F.enqueue v).queue = if v ∈ F.queue then F.queue else F.queue ++ [v] := by
  unfold enqueue
  split <;> rfl

end Formula

namespace Solver.Horn

open Workspace

variable {n : Nat} {W W' : Workspace} {v : Variable}

/-! ### Formulas with stray entries -/

/-- Two formulas over `n` variables have the same clauses, but the first one has entries in its
register that lead to other clauses, and variables on its queue that are not variables of the
formulas. -/
structure Stray (n : Nat) (W W' : Workspace) : Prop where
  numVariables_eq : W.formula.numVariables = n
  numVariables_eq' : W'.formula.numVariables = n
  refs_eq : W'.formula.refs = W.formula.refs
  get_eq : ∀ r ∈ W.formula.refs, W'.arena.get r = W.arena.get r
  index_le : ∀ r ∈ W.formula.refs, ∀ l ∈ W.arena.get r, l.var.index ≤ n
  queue_eq : W'.formula.queue = W.formula.queue.filter (·.index ≤ n)
  register_eq : W'.formula.register = W.formula.register.filter fun e => e.2 ∈ W.formula.refs
  exists_foreign : ∀ v r, (v, r) ∈ W.formula.register → r ∉ W.formula.refs →
    ∃ l ∈ W.arena.get r, n < l.var.index

/-- The clauses of both formulas are the same. -/
lemma Stray.clauses_eq (h : Stray n W W') :
    W'.formula.clauses W'.arena = W.formula.clauses W.arena := by
  rw [Formula.clauses, h.refs_eq]
  apply List.map_congr_left
  exact h.get_eq

/-- Without the stray entries, the clauses registered for a variable are those of the formula among
them. -/
lemma Stray.withNegation_eq (h : Stray n W W') (v : Variable) :
    W'.formula.withNegation v = (W.formula.withNegation v).filter (· ∈ W.formula.refs) :=
  Formula.withNegation_filter h.register_eq v

/-- A variable of the formulas that is first on the one queue is first on the other. -/
lemma Stray.queue_eq_cons {rest : List Variable} (h : Stray n W W')
    (hq : W.formula.queue = v :: rest) (hv : v.index ≤ n) :
    W'.formula.queue = v :: rest.filter (·.index ≤ n) := by
  rw [h.queue_eq, hq, List.filter_cons_of_pos (by simpa using hv)]

/-- The formulas stay alike with other queues that differ in foreign variables only. -/
lemma Stray.withQueue {rest : List Variable} (h : Stray n W W') :
    Stray n (W.withQueue rest) (W'.withQueue (rest.filter (·.index ≤ n))) where
  numVariables_eq := h.numVariables_eq
  numVariables_eq' := h.numVariables_eq'
  refs_eq := h.refs_eq
  get_eq := h.get_eq
  index_le := h.index_le
  queue_eq := rfl
  register_eq := h.register_eq
  exists_foreign := h.exists_foreign

/-! ### Striking out -/

/-- What comes to the queue of both formulas comes to the same place among their variables. -/
lemma filter_queue_note {c : Clause} {F G : Formula} (hc : ∀ l ∈ c, l.var.index ≤ n)
    (h : G.queue = F.queue.filter (·.index ≤ n)) :
    (note v c G).queue = (note v c F).queue.filter (·.index ≤ n) := by
  unfold note
  split
  · next w hw =>
    have hle : w.index ≤ n := hc _ (Clause.mem_of_fact? hw)
    split
    · exact h
    · rw [Formula.queue_enqueue, Formula.queue_enqueue, h]
      by_cases hmem : w ∈ F.queue
      · simp [hmem, hle]
      · simp [hmem, hle]
  · exact h

/-- A clause with a variable beyond `n` brings no variable of the formulas to the queue. -/
lemma filter_queue_note_of_lt {c : Clause} {F : Formula} {l : Literal} (hl : l ∈ c)
    (hlt : n < l.var.index) :
    (note v c F).queue.filter (·.index ≤ n) = F.queue.filter (·.index ≤ n) := by
  unfold note
  split
  · next w hw =>
    rw [← Clause.mem_literals, Clause.fact?_eq_some_iff.mp hw, List.mem_singleton] at hl
    have hw : ¬ w.index ≤ n := by
      rw [hl] at hlt
      exact Nat.not_le.mpr hlt
    split
    · rfl
    · rw [Formula.queue_enqueue]
      split
      · rfl
      · simp [hw]
  · rfl

/-- Striking a variable of the formulas out of a clause leaves the literals of other variables. -/
lemma Stray.exists_foreign_strikeOne {r : ClauseRef} (h : Stray n W W') (hv : v.index ≤ n)
    (hr : ⟨v, true⟩ ∈ W.arena.get r) (u : Variable) (s : ClauseRef)
    (hu : (u, s) ∈ W.formula.register) (hs : s ∉ W.formula.refs) :
    ∃ l ∈ (strikeOne v W r).arena.get s, n < l.var.index := by
  obtain ⟨l, hl, hlt⟩ := h.exists_foreign u s hu hs
  refine ⟨l, ?_, hlt⟩
  rw [get_strikeOne (Arena.lt_of_mem_get hr)]
  split
  · rw [Clause.mem_erase]
    refine ⟨hl, ?_⟩
    rintro rfl
    exact absurd hlt (Nat.not_lt.mpr hv)
  · exact hl

/-- Striking out of a clause of both formulas keeps them alike. -/
lemma Stray.strikeOne {r : ClauseRef} (h : Stray n W W') (hv : v.index ≤ n)
    (hr : r ∈ W.formula.refs) (hmem : ⟨v, true⟩ ∈ W.arena.get r) :
    Stray n (strikeOne v W r) (strikeOne v W' r) := by
  have hmem' : ⟨v, true⟩ ∈ W'.arena.get r := h.get_eq r hr ▸ hmem
  have hget : ∀ s, (Horn.strikeOne v W r).arena.get s =
      if s = r then (W.arena.get s).erase ⟨v, true⟩ else W.arena.get s :=
    fun s => get_strikeOne (Arena.lt_of_mem_get hmem)
  have hget' : ∀ s, (Horn.strikeOne v W' r).arena.get s =
      if s = r then (W'.arena.get s).erase ⟨v, true⟩ else W'.arena.get s :=
    fun s => get_strikeOne (Arena.lt_of_mem_get hmem')
  have hrefs : (Horn.strikeOne v W r).formula.refs = W.formula.refs := note_refs _ _ _
  have hregister : (Horn.strikeOne v W r).formula.register = W.formula.register :=
    note_register _ _ _
  exact {
    numVariables_eq := (note_numVariables _ _ _).trans h.numVariables_eq
    numVariables_eq' := (note_numVariables _ _ _).trans h.numVariables_eq'
    refs_eq := (note_refs _ _ _).trans (h.refs_eq.trans hrefs.symm)
    get_eq := by
      rw [hrefs]
      intro s hs
      rw [hget, hget', h.get_eq s hs]
    index_le := by
      rw [hrefs]
      intro s hs l hl
      rw [hget] at hl
      split at hl
      · exact h.index_le s hs l (Clause.mem_erase.mp hl).1
      · exact h.index_le s hs l hl
    queue_eq := by
      simp only [Horn.strikeOne, h.get_eq r hr]
      apply filter_queue_note _ h.queue_eq
      intro l hl
      exact h.index_le r hr l (Clause.mem_erase.mp hl).1
    register_eq := by
      rw [hrefs, hregister]
      exact (note_register _ _ _).trans h.register_eq
    exists_foreign := by
      rw [hrefs, hregister]
      exact h.exists_foreign_strikeOne hv hmem }

/-- Striking out of a clause that only a stray entry leads to keeps the formulas alike. -/
lemma Stray.strikeForeign {r : ClauseRef} (h : Stray n W W') (hv : v.index ≤ n)
    (hu : (v, r) ∈ W.formula.register) (hr : r ∉ W.formula.refs)
    (hmem : ⟨v, true⟩ ∈ W.arena.get r) : Stray n (Horn.strikeOne v W r) W' := by
  have hget : ∀ s ∈ W.formula.refs, (Horn.strikeOne v W r).arena.get s = W.arena.get s := by
    intro s hs
    have hne : s ≠ r := fun e => hr (e ▸ hs)
    rw [get_strikeOne (Arena.lt_of_mem_get hmem), if_neg hne]
  have hrefs : (Horn.strikeOne v W r).formula.refs = W.formula.refs := note_refs _ _ _
  have hregister : (Horn.strikeOne v W r).formula.register = W.formula.register :=
    note_register _ _ _
  exact {
    numVariables_eq := (note_numVariables _ _ _).trans h.numVariables_eq
    numVariables_eq' := h.numVariables_eq'
    refs_eq := h.refs_eq.trans hrefs.symm
    get_eq := by
      rw [hrefs]
      intro s hs
      rw [hget s hs, h.get_eq s hs]
    index_le := by
      rw [hrefs]
      intro s hs
      rw [hget s hs]
      exact h.index_le s hs
    queue_eq := by
      obtain ⟨l, hl, hlt⟩ := h.exists_foreign_strikeOne hv hmem v r hu hr
      rw [get_strikeOne (Arena.lt_of_mem_get hmem), if_pos rfl] at hl
      simp only [Horn.strikeOne, filter_queue_note_of_lt hl hlt]
      exact h.queue_eq
    register_eq := by
      rw [hrefs, hregister]
      exact h.register_eq
    exists_foreign := by
      rw [hrefs, hregister]
      exact h.exists_foreign_strikeOne hv hmem }

/-- A clause that a stray entry leads to has a literal beside the one that is struck. -/
lemma Stray.size_ne_one {r : ClauseRef} (h : Stray n W W') (hv : v.index ≤ n)
    (hu : (v, r) ∈ W.formula.register) (hr : r ∉ W.formula.refs)
    (hmem : ⟨v, true⟩ ∈ W.arena.get r) : (W.arena.get r).size ≠ 1 := by
  intro hs
  obtain ⟨l, hl, hlt⟩ := h.exists_foreign v r hu hr
  rw [← Clause.mem_literals, (Clause.size_eq_one_iff hmem).mp hs, List.mem_singleton] at hl
  rw [hl] at hlt
  exact absurd hlt (Nat.not_lt.mpr hv)

/-- Striking out of all listed clauses and of those that are clauses of the formulas ends the same
way. -/
lemma Stray.strike {rs : List ClauseRef} (h : Stray n W W') (hv : v.index ≤ n)
    (hrs : ∀ r ∈ rs, (v, r) ∈ W.formula.register) (k k' : Nat) :
    (∃ W₁ k₁ W₁' k₁', strike v W k rs = (W₁, .ok k₁) ∧
      strike v W' k' (rs.filter (· ∈ W.formula.refs)) = (W₁', .ok k₁') ∧ Stray n W₁ W₁') ∨
    ∃ W₁ W₁', strike v W k rs = (W₁, .error (.unsatisfiable .horn)) ∧
      strike v W' k' (rs.filter (· ∈ W.formula.refs)) = (W₁', .error (.unsatisfiable .horn)) := by
  induction rs generalizing W W' k k' with
  | nil => exact .inl ⟨W, k, W', k', rfl, rfl, h⟩
  | cons r rest ih =>
    obtain ⟨hr, hrest⟩ := List.forall_mem_cons.mp hrs
    have hregister : (Horn.strikeOne v W r).formula.register = W.formula.register :=
      note_register _ _ _
    have hrefs : (Horn.strikeOne v W r).formula.refs = W.formula.refs := note_refs _ _ _
    rw [strike_cons]
    -- a clause of both formulas is listed for both; any other one is listed for the first only, and
    -- has a literal left after the strike, so that it is no contradiction
    by_cases hmem : ⟨v, true⟩ ∈ W.arena.get r
    · rw [if_neg (not_not_intro hmem)]
      by_cases hown : r ∈ W.formula.refs
      · have hmem' : ⟨v, true⟩ ∈ W'.arena.get r := h.get_eq r hown ▸ hmem
        rw [List.filter_cons_of_pos (by simpa using hown), strike_cons,
          if_neg (not_not_intro hmem'), h.get_eq r hown]
        by_cases hs : (W.arena.get r).size = 1
        · rw [if_pos hs, if_pos hs]
          exact .inr ⟨W, W', rfl, rfl⟩
        · rw [if_neg hs, if_neg hs, ← hrefs]
          exact ih (h.strikeOne hv hown hmem) (hregister ▸ hrest) (k + 1) (k' + 1)
      · rw [if_neg (h.size_ne_one hv hr hown hmem),
          List.filter_cons_of_neg (by simpa using hown), ← hrefs]
        exact ih (h.strikeForeign hv hr hown hmem) (hregister ▸ hrest) (k + 1) k'
    · rw [if_pos hmem]
      by_cases hown : r ∈ W.formula.refs
      · have hmem' : ⟨v, true⟩ ∉ W'.arena.get r := h.get_eq r hown ▸ hmem
        rw [List.filter_cons_of_pos (by simpa using hown), strike_cons, if_pos hmem']
        exact ih h hrest k k'
      · rw [List.filter_cons_of_neg (by simpa using hown)]
        exact ih h hrest k k'

/-- Striking out of all clauses registered for a variable ends the same way in both formulas. -/
lemma Stray.strike_withNegation (h : Stray n W W') (hv : v.index ≤ n) (k k' : Nat) :
    (∃ W₁ k₁ W₁' k₁', Horn.strike v W k (W.formula.withNegation v) = (W₁, .ok k₁) ∧
      Horn.strike v W' k' (W'.formula.withNegation v) = (W₁', .ok k₁') ∧ Stray n W₁ W₁') ∨
    ∃ W₁ W₁', Horn.strike v W k (W.formula.withNegation v) = (W₁, .error (.unsatisfiable .horn)) ∧
      Horn.strike v W' k' (W'.formula.withNegation v) = (W₁', .error (.unsatisfiable .horn)) := by
  rw [h.withNegation_eq]
  apply h.strike hv
  intro r hr
  exact Formula.mem_withNegation.mp hr

/-! ### Propagation -/

variable {a : Assignment} {rest : List Variable}

/-- Propagation ends when the queue is empty. -/
lemma propagate_of_nil (k : Nat) (hq : W.formula.queue = []) :
    propagate W a k = (W, .ok (a, k)) := by
  unfold propagate
  split
  · rfl
  · next hq' =>
    rw [hq] at hq'
    cases hq'

/-- Propagation passes over a variable that is true already. -/
lemma propagate_of_true (k : Nat) (hq : W.formula.queue = v :: rest)
    (ha : a[v.place]? = some true) : propagate W a k = propagate (W.withQueue rest) a k := by
  rw [propagate]
  split
  · next hq' =>
    rw [hq] at hq'
    cases hq'
  · next w rest' hq' =>
    cases hq.symm.trans hq'
    split
    · next ha' => cases ha.symm.trans ha'
    · rfl
    · next ha' => cases ha.symm.trans ha'

/-- Propagation strikes out the negation of a variable that is not true yet, and makes it true. -/
lemma propagate_of_false (k : Nat) (hq : W.formula.queue = v :: rest)
    (ha : a[v.place]? = some false) : propagate W a k =
      match strike v (W.withQueue rest) k ((W.withQueue rest).formula.withNegation v) with
      | (W₁, .error e) => (W₁, .error e)
      | (W₁, .ok k₁) => propagate W₁ (a.set v.place true) k₁ := by
  rw [propagate]
  split
  · next hq' =>
    rw [hq] at hq'
    cases hq'
  · next w rest' hq' =>
    cases hq.symm.trans hq'
    split
    · next ha' => cases ha.symm.trans ha'
    · next ha' => cases ha.symm.trans ha'
    · rfl

/-- How propagation with stray entries and without them may end: with the same assignment, with a
contradiction, or, with them, beyond the assignment. -/
inductive SameEnd (n : Nat) :
    Except Error (Assignment × Nat) → Except Error (Assignment × Nat) → Prop where
  | done {a k k'} :
    SameEnd n (.ok (a, k)) (.ok (a, k'))
  | contradiction :
    SameEnd n (.error (.unsatisfiable .horn)) (.error (.unsatisfiable .horn))
  | beyond {v : Variable} {result} :
    n < v.index →
    SameEnd n (.error (.beyondAssignment v.place n)) result

/-- A variable that has a value is one of the formula. -/
lemma index_le_of_getElem? {b : Bool} (ha : a.length = n) (hv : a[v.place]? = some b) :
    v.index ≤ n := by
  obtain ⟨hlt, -⟩ := List.getElem?_eq_some_iff.mp hv
  have hpos := v.index_pos
  simp only [Variable.place] at hlt
  omega

/-- Stray entries do not change what propagation ends with, unless it ends beyond the assignment. -/
lemma sameEnd_propagate (k : Nat) (ha : a.length = n) :
    ∀ W' k', Stray n W W' → SameEnd n (propagate W a k).2 (propagate W' a k').2 := by
  fun_induction propagate W a k with
  | case1 W a k hq =>
    intro W' k' h
    have hq' : W'.formula.queue = [] := by rw [h.queue_eq, hq, List.filter_nil]
    rw [propagate_of_nil k' hq']
    exact .done
  | case2 W a k v rest hq W₁ hnone =>
    intro W' k' h
    -- only a stray entry brings such a variable to the queue
    rw [List.getElem?_eq_none_iff, ha] at hnone
    have hlt : n < v.index := by
      have hpos := v.index_pos
      simp only [Variable.place] at hnone
      omega
    rw [ha]
    exact .beyond hlt
  | case3 W a k v rest hq W₁ htrue ih =>
    intro W' k' h
    have hv := index_le_of_getElem? ha htrue
    rw [propagate_of_true k' (h.queue_eq_cons hq hv) htrue]
    exact ih ha _ k' h.withQueue
  | case4 W a k v rest hq W₁ hfalse W₂ e hs =>
    intro W' k' h
    have hv := index_le_of_getElem? ha hfalse
    rw [propagate_of_false k' (h.queue_eq_cons hq hv) hfalse]
    rcases h.withQueue.strike_withNegation hv k k' with
      ⟨_, _, _, _, hok, -⟩ | ⟨_, _, herr, herr'⟩
    · cases hs.symm.trans hok
    · cases hs.symm.trans herr
      rw [herr']
      exact .contradiction
  | case5 W a k v rest hq W₁ hfalse W₂ k₂ hs ih =>
    intro W' k' h
    have hv := index_le_of_getElem? ha hfalse
    rw [propagate_of_false k' (h.queue_eq_cons hq hv) hfalse]
    rcases h.withQueue.strike_withNegation hv k k' with
      ⟨_, _, W₂', k₂', hok, hok', hstray⟩ | ⟨_, _, herr, -⟩
    · cases hs.symm.trans hok
      rw [hok']
      exact ih (by rw [List.length_set, ha]) W₂' k₂' hstray
    · cases hs.symm.trans herr

/-- The Horn method gives the same result with stray entries and without them, unless it ends beyond
the assignment with them. -/
lemma Stray.solve (h : Stray n W W') :
    (solve W).2.result = (solve W').2.result ∨
      ∃ v : Variable, n < v.index ∧ (solve W).2.result = .error (.beyondAssignment v.place n) := by
  have hend : SameEnd n (propagate W (Assignment.allFalse n) 0).2
      (propagate W' (Assignment.allFalse n) 0).2 :=
    sameEnd_propagate 0 (by simp [Assignment.allFalse]) W' 0 h
  simp only [Horn.solve, h.clauses_eq, h.numVariables_eq, h.numVariables_eq']
  split
  · exact .inl rfl
  · cases hp : propagate W (Assignment.allFalse n) 0 with
    | mk W₁ r =>
      cases hp' : propagate W' (Assignment.allFalse n) 0 with
      | mk W₁' r' =>
        rw [hp, hp'] at hend
        cases hend with
        | done => exact .inl rfl
        | contradiction => exact .inl rfl
        | @beyond v _ hlt => exact .inr ⟨v, hlt, rfl⟩

end Solver.Horn

end Clausal
