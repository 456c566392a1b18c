import Clausal.Cnf
import Mathlib.Data.List.Nodup
import Mathlib.Tactic.Lemma

/-!
# Assignments as valuations

An assignment lists the values of finitely many variables, a valuation gives every variable a value.
The valuation of an assignment makes the variables beyond its end false. Main statements: a clause
is checked by evaluating it (`Cnf.check_eq_true_iff`, `Cnf.check_eq_false_iff`), a formula that keeps
to its variables is satisfiable exactly if some assignment of these variables passes the check
(`Cnf.satisfiable_iff_exists_check`), and an answer that decides the formula is one that passes it or
the error that none does (`Cnf.Decides.check`).
-/

namespace Clausal

/-- Different variables have different places. -/
lemma Variable.place_injective {v w : Variable} (h : v.place = w.place) : v = w := by
  rw [← Variable.ofPlace_place v, h, Variable.ofPlace_place]

/-- A variable of a formula has its place in every assignment of the formula's variables. -/
lemma Variable.place_lt {v : Variable} {n : Nat} (h : v.index ≤ n) : v.place < n := by
  have := v.index_pos
  simp only [Variable.place]
  omega

/-- The variables from 1 to `n` are listed once each. -/
lemma Variable.nodup_upTo (n : Nat) : (upTo n).Nodup := by
  apply List.Nodup.map
  · intro i j h
    exact congrArg place h
  · exact List.nodup_range

/-- Of a literal and its complement exactly one holds. -/
lemma Literal.holds_complement_iff {σ : Valuation} {l : Literal} :
    l.complement.Holds σ ↔ ¬ l.Holds σ := by
  obtain ⟨v, b⟩ := l
  cases b <;> simp [Literal.Holds, Literal.complement, Literal.value]

namespace Assignment

/-- The valuation that an assignment stands for. -/
def valuation (a : Assignment) : Valuation := fun v => a[v.place]?.getD false

/-- The value at the place of a variable is read, if the assignment has this place. -/
lemma read_place {a : Assignment} {v : Variable} (h : v.place < a.length) :
    a.read v.place = .ok (a.valuation v) := by
  simp [read, valuation, List.getElem?_eq_getElem h]

/-- A variable within the assignment is read as true exactly if the valuation makes it so. -/
lemma read_eq_true_iff {a : Assignment} {v : Variable} (h : v.place < a.length) :
    a.read v.place = .ok true ↔ a.valuation v = true := by
  rw [read_place h, Except.ok.injEq]

/-- All variables are false in the assignment that writing starts with. -/
@[simp]
lemma valuation_allFalse (n : Nat) (v : Variable) : (allFalse n).valuation v = false := by
  simp only [valuation, allFalse, List.getElem?_replicate]
  split <;> rfl

/-- Setting the value at the place of a variable updates the valuation there. -/
lemma valuation_set {a : Assignment} {v : Variable} {b : Bool} (h : v.place < a.length) :
    valuation (a.set v.place b) = Function.update a.valuation v b := by
  funext w
  by_cases hw : w = v
  · subst hw
    simp [valuation, h]
  · have hp : v.place ≠ w.place := fun e => hw (Variable.place_injective e.symm)
    simp [valuation, List.getElem?_set_ne hp, Function.update_of_ne hw]

/-- An assignment is determined by its length and the values of its variables. -/
lemma ext_valuation {a b : Assignment} (hlen : a.length = b.length)
    (h : ∀ v : Variable, v.place < a.length → a.valuation v = b.valuation v) : a = b := by
  apply List.ext_getElem hlen
  intro i ha hb
  simpa [valuation, List.getElem?_eq_getElem, ha, hb] using h (.ofPlace i) ha

end Assignment

/-- The values that a valuation gives to the variables from 1 to `n`. -/
def Valuation.toAssignment (σ : Valuation) (n : Nat) : Assignment := (Variable.upTo n).map σ

/-- A valuation lists as many values as it is asked for. -/
@[simp]
lemma Valuation.length_toAssignment (σ : Valuation) (n : Nat) :
    (Valuation.toAssignment σ n).length = n := by
  simp [Valuation.toAssignment, Variable.upTo]

/-- A valuation gives the variables up to `n` the values that it lists. -/
lemma Valuation.valuation_toAssignment {σ : Valuation} {n : Nat} {v : Variable} (h : v.index ≤ n) :
    (Valuation.toAssignment σ n).valuation v = σ v := by
  have hp := Variable.place_lt h
  simp [Assignment.valuation, Valuation.toAssignment, Variable.upTo, hp]

/-- A clause has the same value under valuations that agree on its variables. -/
lemma Clause.holds_congr {σ τ : Valuation} {c : Clause} (h : ∀ l ∈ c, σ l.var = τ l.var) :
    c.Holds σ ↔ c.Holds τ := by
  constructor
  · rintro ⟨l, hl, hσ⟩
    exact ⟨l, hl, (h l hl).symm.trans hσ⟩
  · rintro ⟨l, hl, hτ⟩
    exact ⟨l, hl, (h l hl).trans hτ⟩

namespace Cnf

/-- A formula that keeps to its variables has the same value under valuations that agree on them. -/
lemma holds_congr {σ τ : Valuation} {f : Cnf} (hf : f.InRange)
    (h : ∀ v : Variable, v.index ≤ f.numVariables → σ v = τ v) : f.Holds σ ↔ f.Holds τ := by
  have hc : ∀ c ∈ f.clauses, (c.Holds σ ↔ c.Holds τ) := fun c hc =>
    Clause.holds_congr fun l hl => h l.var (hf c hc l hl)
  constructor
  · intro hσ c hcf
    exact (hc c hcf).mp (hσ c hcf)
  · intro hτ c hcf
    exact (hc c hcf).mpr (hτ c hcf)

/-- Looking for a true literal among literals within the assignment finds one if there is one. -/
lemma someHolds_eq {a : Assignment} {ls : List Literal} (h : ∀ l ∈ ls, l.var.place < a.length) :
    someHolds a ls = .ok (ls.any fun l => decide (l.Holds a.valuation)) := by
  induction ls with
  | nil => rfl
  | cons l rest ih =>
    have hl := h l (by simp)
    have ih := ih fun l hl => h l (by simp [hl])
    have hv : (a.valuation l.var != l.negated) = decide (l.Holds a.valuation) := by
      obtain ⟨v, b⟩ := l
      cases b <;> simp [Literal.Holds, Literal.value]
    simp only [someHolds, Assignment.read_place hl, bind, Except.bind, hv, ih, List.any_cons]
    split
    · next ht => simp [ht]
    · next ht => simp [ht]

/-- Checking clause after clause finds out whether each of them is true. -/
lemma allHold_eq_ok {a : Assignment} {cs : List Clause}
    (h : ∀ c ∈ cs, ∀ l ∈ c, l.var.place < a.length) :
    ∃ b, allHold a cs = .ok b ∧ (b = true ↔ ∀ c ∈ cs, c.Holds a.valuation) := by
  induction cs with
  | nil => exact ⟨true, rfl, by simp⟩
  | cons c rest ih =>
    obtain ⟨b, hb, hiff⟩ := ih fun d hd => h d (by simp [hd])
    have hc : c.literals.any (fun l => decide (l.Holds a.valuation)) = true ↔
        c.Holds a.valuation := by
      simp [Clause.Holds, Clause.mem_literals]
    simp only [allHold, someHolds_eq (h c (by simp)), bind, Except.bind]
    split
    · next ht =>
      refine ⟨b, hb, ?_⟩
      simp [hiff, hc.mp ht]
    · next ht =>
      have hn : ¬ c.Holds a.valuation := fun e => ht (hc.mpr e)
      exact ⟨false, rfl, by simp [hn]⟩

/-- Checking an assignment of the formula's variables ends with an answer, which is whether the
formula is true. -/
lemma check_eq_ok {f : Cnf} {a : Assignment} (hf : f.InRange) (ha : f.numVariables ≤ a.length) :
    ∃ b, f.check a = .ok b ∧ (b = true ↔ f.Holds a.valuation) := by
  have hp : ∀ c ∈ f.clauses, ∀ l ∈ c, l.var.place < a.length := fun c hc l hl =>
    Nat.lt_of_lt_of_le (Variable.place_lt (hf c hc l hl)) ha
  obtain ⟨b, hb, hiff⟩ := allHold_eq_ok hp
  exact ⟨b, by simp [check, ha, hb], hiff⟩

/-- An assignment passes the check exactly if it makes the formula true. -/
lemma check_eq_true_iff {f : Cnf} {a : Assignment} (hf : f.InRange)
    (ha : f.numVariables ≤ a.length) : f.check a = .ok true ↔ f.Holds a.valuation := by
  obtain ⟨b, hb, hiff⟩ := check_eq_ok hf ha
  rw [hb, Except.ok.injEq]
  exact hiff

/-- An assignment fails the check exactly if it does not make the formula true. -/
lemma check_eq_false_iff {f : Cnf} {a : Assignment} (hf : f.InRange)
    (ha : f.numVariables ≤ a.length) : f.check a = .ok false ↔ ¬ f.Holds a.valuation := by
  obtain ⟨b, hb, hiff⟩ := check_eq_ok hf ha
  rw [hb, Except.ok.injEq, ← hiff, Bool.not_eq_true]

/-- The values of a valuation that makes the formula true pass the check. -/
lemma check_toAssignment {f : Cnf} {σ : Valuation} (hf : f.InRange) (hσ : f.Holds σ) :
    f.check (Valuation.toAssignment σ f.numVariables) = .ok true := by
  -- the formula does not see where the two valuations differ
  rw [check_eq_true_iff hf (by simp), holds_congr hf]
  · exact hσ
  · intro v hv
    exact Valuation.valuation_toAssignment hv

/-- A formula has a solution exactly if some assignment of its variables passes the check. -/
lemma satisfiable_iff_exists_check {f : Cnf} (hf : f.InRange) :
    f.Satisfiable ↔ ∃ a : Assignment, a.length = f.numVariables ∧ f.check a = .ok true := by
  constructor
  · rintro ⟨σ, hσ⟩
    exact ⟨Valuation.toAssignment σ f.numVariables, by simp, check_toAssignment hf hσ⟩
  · rintro ⟨a, ha, hc⟩
    exact ⟨a.valuation, (check_eq_true_iff hf (Nat.le_of_eq ha.symm)).mp hc⟩

/-- A formula has no solution exactly if all assignments of its variables fail the check. -/
lemma not_satisfiable_iff_forall_check {f : Cnf} (hf : f.InRange) :
    ¬ f.Satisfiable ↔
      ∀ a : Assignment, a.length = f.numVariables → f.check a = .ok false := by
  rw [satisfiable_iff_exists_check hf, not_exists]
  constructor
  · intro h a ha
    rw [check_eq_false_iff hf (Nat.le_of_eq ha.symm), ← check_eq_true_iff hf
      (Nat.le_of_eq ha.symm)]
    exact fun hc => h a ⟨ha, hc⟩
  · rintro h a ⟨ha, hc⟩
    rw [h a ha] at hc
    cases hc

/-! ### Deciding a formula -/

/-- An answer decides a formula: it is a solution of the formula, or the error `e` if there is none.
-/
inductive Decides (f : Cnf) (e : Error) : Except Error Assignment → Prop where
  | found {a} :
    a.length = f.numVariables →
    f.Holds a.valuation →
    Decides f e (.ok a)
  | refuted :
    ¬ f.Satisfiable →
    Decides f e (.error e)

/-- An answer that decides a formula is the error exactly if there is no solution. -/
lemma Decides.eq_error_iff {f : Cnf} {e : Error} {r : Except Error Assignment}
    (h : f.Decides e r) : r = .error e ↔ ¬ f.Satisfiable := by
  cases h with
  | @found a _ hσ =>
    constructor
    · intro he
      cases he
    · intro hnone
      exact absurd ⟨a.valuation, hσ⟩ hnone
  | refuted hnone => exact ⟨fun _ => hnone, fun _ => rfl⟩

/-- An answer that decides a formula is an assignment of the variables that passes the check, or the
error, and it is the error exactly if every assignment fails. -/
lemma Decides.check {f : Cnf} {e : Error} {r : Except Error Assignment} (h : f.Decides e r)
    (hf : f.InRange) :
    ((∃ a, r = .ok a ∧ a.length = f.numVariables ∧ f.check a = .ok true) ∨ r = .error e) ∧
    (r = .error e ↔ ∀ a : Assignment, a.length = f.numVariables → f.check a = .ok false) := by
  rw [← not_satisfiable_iff_forall_check hf]
  refine ⟨?_, h.eq_error_iff⟩
  cases h with
  | @found a ha hσ =>
    exact .inl ⟨a, rfl, ha, (check_eq_true_iff hf (Nat.le_of_eq ha.symm)).mpr hσ⟩
  | refuted _ => exact .inr rfl

/-- Two answers have the same verdict: both are solutions, or both say that there is none. -/
inductive SameVerdict : Except Error Assignment → Except Error Assignment → Prop where
  | found {a b} :
    SameVerdict (.ok a) (.ok b)
  | refuted {m m'} :
    SameVerdict (.error (.unsatisfiable m)) (.error (.unsatisfiable m'))

/-- Answers that decide formulas of which both or none is satisfiable have the same verdict. -/
lemma Decides.sameVerdict {f g : Cnf} {m m' : Method} {r r' : Except Error Assignment}
    (h : f.Decides (.unsatisfiable m) r) (h' : g.Decides (.unsatisfiable m') r')
    (hfg : f.Satisfiable ↔ g.Satisfiable) : SameVerdict r r' := by
  cases h with
  | found _ hσ =>
    cases h' with
    | found _ _ => exact .found
    | refuted hnone => exact absurd (hfg.mp ⟨_, hσ⟩) hnone
  | refuted hnone =>
    cases h' with
    | found _ hσ => exact absurd (hfg.mpr ⟨_, hσ⟩) hnone
    | refuted _ => exact .refuted

end Cnf

end Clausal
