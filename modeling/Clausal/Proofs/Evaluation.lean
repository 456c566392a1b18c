import Clausal.Proofs.ClauseRecord
import Clausal.Proofs.Model

/-!
# The value of a clause is exact

The value of a clause under a model says what the valuations that extend the model make of the
clause, and it is not determined only if they differ. A record gives this value, although it does
not look at the literals. Main statements: each of the three values is characterised by the
valuations (`clauseValue?_eq_true_iff_forall`, `clauseValue?_eq_false_iff_forall`,
`clauseValue?_eq_none_iff_exists`), and a record has the value of its clause whatever was done with
it before (`recordValue?_exact`).
-/

namespace Clausal

/-- The valuation that makes as many literals of a clause false as it can: only the variables that
occur negated are true. -/
def Clause.opponent (c : Clause) : Valuation := fun v => decide (⟨v, true⟩ ∈ c)

namespace Model

/-- A model completed to a valuation, with the values of `τ` for the open variables. -/
def complete (m : Model) (τ : Valuation) : Valuation := fun v => (m.find? v).getD (τ v)

/-- A completed model extends the model. -/
lemma extendedBy_complete (m : Model) (τ : Valuation) : m.ExtendedBy (m.complete τ) := by
  intro v b h
  rw [complete, h, Option.getD_some]

/-- An open variable has the value that it is completed with. -/
lemma complete_of_open {m : Model} {v : Variable} (h : m.find? v = none) (τ : Valuation) :
    m.complete τ v = τ v := by
  rw [complete, h, Option.getD_none]

/-! ### Valuations that extend a model -/

/-- A clause that is not true can still be made false. -/
lemma not_holds_complete_opponent {m : Model} {c : Clause} (h : m.clauseValue? c ≠ some true) :
    ¬ c.Holds (m.complete c.opponent) := by
  rw [ne_eq, clauseValue?_eq_true_iff, not_or, not_exists] at h
  obtain ⟨htaut, hnone⟩ := h
  rintro ⟨⟨v, b⟩, hl, hσ⟩
  cases hv : m.literalValue? ⟨v, b⟩ with
  | some x =>
    obtain rfl := ((extendedBy_complete m c.opponent).holds_iff hv).mp hσ
    exact hnone _ ⟨hl, hv⟩
  | none =>
    have hopen : m.find? v = none := literalValue?_eq_none_iff.mp hv
    rw [Literal.Holds, complete_of_open hopen, Clause.opponent] at hσ
    -- an open variable is true only if it occurs negated, so the literal is not the true one
    cases b with
    | true => simp [Literal.value, hl] at hσ
    | false =>
      have hneg : (⟨v, true⟩ : Literal) ∈ c := by simpa [Literal.value] using hσ
      exact htaut (Clause.isTautology_iff.mpr ⟨v, hl, hneg⟩)

/-- A clause that is not false can still be made true. -/
lemma exists_holds {m : Model} {c : Clause} (h : m.clauseValue? c ≠ some false) :
    ∃ σ, m.ExtendedBy σ ∧ c.Holds σ := by
  simp only [ne_eq, clauseValue?_eq_false_iff, not_forall] at h
  obtain ⟨l, hl, hv⟩ := h
  refine ⟨m.complete fun _ => l.value, extendedBy_complete m _, l, hl, ?_⟩
  cases hx : m.literalValue? l with
  | none => exact complete_of_open (literalValue?_eq_none_iff.mp hx) _
  | some x =>
    rw [(extendedBy_complete m _).holds_iff hx]
    cases x with
    | true => rfl
    | false => exact absurd hx hv

/-- A clause is true under a model exactly if every valuation that extends the model makes it
true. -/
lemma clauseValue?_eq_true_iff_forall {m : Model} {c : Clause} :
    m.clauseValue? c = some true ↔ ∀ σ, m.ExtendedBy σ → c.Holds σ := by
  constructor
  · intro h σ hσ
    exact hσ.holds_of_true h
  · intro h
    by_contra hne
    exact not_holds_complete_opponent hne (h _ (extendedBy_complete m _))

/-- A clause is false under a model exactly if no valuation that extends the model makes it true. -/
lemma clauseValue?_eq_false_iff_forall {m : Model} {c : Clause} :
    m.clauseValue? c = some false ↔ ∀ σ, m.ExtendedBy σ → ¬ c.Holds σ := by
  constructor
  · intro h σ hσ
    exact hσ.not_holds_of_false h
  · intro h
    by_contra hne
    obtain ⟨σ, hσ, hc⟩ := exists_holds hne
    exact h σ hσ hc

/-- A clause is undetermined exactly if some valuations that extend the model make it true and others
make it false. -/
lemma clauseValue?_eq_none_iff_exists {m : Model} {c : Clause} :
    m.clauseValue? c = none ↔
      (∃ σ, m.ExtendedBy σ ∧ c.Holds σ) ∧ ∃ σ, m.ExtendedBy σ ∧ ¬ c.Holds σ := by
  constructor
  · intro h
    refine ⟨exists_holds (by simp [h]), m.complete c.opponent, extendedBy_complete m _, ?_⟩
    exact not_holds_complete_opponent (by simp [h])
  · rintro ⟨⟨σ, hσ, hc⟩, τ, hτ, hn⟩
    cases hv : m.clauseValue? c with
    | none => rfl
    | some b =>
      cases b with
      | true => exact absurd (hτ.holds_of_true hv) hn
      | false => exact absurd hc (hσ.not_holds_of_false hv)

/-- Assigning an open variable does not change a value that is determined. -/
lemma clauseValue?_insert {m : Model} {c : Clause} {v : Variable} {x b : Bool}
    (hv : m.find? v = none) (h : m.clauseValue? c = some b) :
    clauseValue? (m.insert v x) c = some b := by
  -- there are only fewer valuations that extend the model
  cases b with
  | true =>
    rw [clauseValue?_eq_true_iff_forall] at h ⊢
    exact fun σ hσ => h σ (hσ.of_insert hv)
  | false =>
    rw [clauseValue?_eq_false_iff_forall] at h ⊢
    exact fun σ hσ => h σ (hσ.of_insert hv)

/-! ### The value that a record gives -/

/-- Looking through variables ends at one with the value wanted, and otherwise tells of the open
ones. -/
lemma seek_eq (m : Model) (b seen : Bool) (vs : List Variable) :
    m.seek b seen vs =
      if ∃ v ∈ vs, m.find? v = some b then none
      else some (seen || decide (∃ v ∈ vs, m.find? v = none)) := by
  induction vs generalizing seen with
  | nil => simp [seek]
  | cons v rest ih =>
    cases hv : m.find? v with
    | none => simp [seek, hv, ih]
    | some x =>
      by_cases hx : x = b
      · simp [seek, hv, hx]
      · simp [seek, hv, hx, ih]

end Model

namespace ClauseRecord

/-- The literals of a clause are those of the variables in the two sets. -/
lemma Exact.exists_mem_iff {r : ClauseRecord} (h : r.Exact) (P : Literal → Prop) :
    (∃ l ∈ r.toClause, P l) ↔
      (∃ v ∈ r.positiveVars, P ⟨v, false⟩) ∨ ∃ v ∈ r.negativeVars, P ⟨v, true⟩ := by
  simp only [h.mem_positiveVars, h.mem_negativeVars]
  constructor
  · rintro ⟨⟨v, b⟩, hl, hv⟩
    cases b with
    | false => exact .inl ⟨v, hl, hv⟩
    | true => exact .inr ⟨v, hl, hv⟩
  · rintro (⟨v, hl, hv⟩ | ⟨v, hl, hv⟩)
    · exact ⟨_, hl, hv⟩
    · exact ⟨_, hl, hv⟩

/-- An exact record gives the value of its clause. -/
lemma Exact.recordValue?_snd {r : ClauseRecord} (h : r.Exact) (m : Model) :
    (m.recordValue? r).2 = m.clauseValue? r.toClause := by
  have htaut := h.askTautology_snd
  have htrue := h.exists_mem_iff fun l => m.find? l.var = some l.value
  have hopen := h.exists_mem_iff fun l => m.find? l.var = none
  simp only [← Model.literalValue?_eq_true_iff] at htrue
  simp only [Model.recordValue?, Model.seek_eq]
  split
  · next he => simp [Model.clauseValue?, he]
  split
  · next r' ht =>
    rw [ht] at htaut
    exact (Model.clauseValue?_eq_true_iff.mpr (.inl htaut.symm)).symm
  next r' ht =>
  rw [ht] at htaut
  by_cases hp : ∃ v ∈ r.positiveVars, m.find? v = some true
  · simp only [hp, ↓reduceIte]
    exact (Model.clauseValue?_eq_true_iff.mpr (.inr (htrue.mpr (.inl hp)))).symm
  by_cases hn : ∃ v ∈ r.negativeVars, m.find? v = some false
  · simp only [hp, hn, ↓reduceIte]
    exact (Model.clauseValue?_eq_true_iff.mpr (.inr (htrue.mpr (.inr hn)))).symm
  -- neither set has a variable with the value asked for, so no literal is true
  have hnone : ∀ l ∈ r.toClause, m.literalValue? l ≠ some true := fun l hl hv =>
    (htrue.mp ⟨l, hl, hv⟩).elim hp hn
  simp only [hp, hn, ↓reduceIte, Bool.false_or, ← Bool.decide_or, ← hopen]
  by_cases ho : ∃ l ∈ r.toClause, m.find? l.var = none
  · simp only [ho, decide_true]
    exact (Model.clauseValue?_eq_none_iff.mpr ⟨htaut.symm, hnone, ho⟩).symm
  · simp only [ho, decide_false]
    refine (Model.clauseValue?_eq_false_iff.mpr ?_).symm
    intro l hl
    cases hv : m.literalValue? l with
    | none => exact absurd ⟨l, hl, Model.literalValue?_eq_none_iff.mp hv⟩ ho
    | some b =>
      cases b with
      | true => exact absurd hv (hnone l hl)
      | false => rfl

/-- Whatever literals a record is made of and whatever calls follow, its value under a model is that
of its clause. It is true exactly if every valuation that extends the model makes the clause true,
false exactly if none does, and undetermined exactly if some do and some do not. So a determined
value stays when an open variable is assigned, and the value is determined if all variables of the
clause are assigned. -/
theorem recordValue?_exact (ls : List Literal) (calls : List Call) (m : Model) :
    let r := ((ofList ls).callAll calls).1
    (m.recordValue? r).2 = m.clauseValue? r.toClause ∧
    ((m.recordValue? r).2 = some true ↔ ∀ σ, m.ExtendedBy σ → r.toClause.Holds σ) ∧
    ((m.recordValue? r).2 = some false ↔ ∀ σ, m.ExtendedBy σ → ¬ r.toClause.Holds σ) ∧
    ((m.recordValue? r).2 = none ↔
      (∃ σ, m.ExtendedBy σ ∧ r.toClause.Holds σ) ∧ ∃ σ, m.ExtendedBy σ ∧ ¬ r.toClause.Holds σ) ∧
    (∀ v x b, m.find? v = none → (m.recordValue? r).2 = some b →
      (Model.recordValue? (m.insert v x) r).2 = some b) ∧
    ((∀ l ∈ r.toClause, m.find? l.var ≠ none) → (m.recordValue? r).2 ≠ none) := by
  intro r
  have hr : r.Exact := ((Exact.ofList ls).callAll calls).1
  simp only [hr.recordValue?_snd]
  refine ⟨trivial, Model.clauseValue?_eq_true_iff_forall, Model.clauseValue?_eq_false_iff_forall,
    Model.clauseValue?_eq_none_iff_exists, ?_, ?_⟩
  · intro v x b hv hb
    exact Model.clauseValue?_insert hv hb
  · intro hall hnone
    obtain ⟨-, -, l, hl, hopen⟩ := Model.clauseValue?_eq_none_iff.mp hnone
    exact hall l hl hopen

/-- A clause that one of its two literals makes true stays true when the other one becomes false, and
is true under all valuations that extend the model. -/
theorem recordValue?_exact_halfAssigned :
    let r := ((ofList [⟨.ofPlace 0, false⟩, ⟨.ofPlace 1, true⟩]).callAll [.askTautology]).1
    let m : Model := OrderedMap.empty.insert (.ofPlace 1) false
    m.find? (.ofPlace 0) = none ∧ (m.recordValue? r).2 = some true ∧
      (Model.recordValue? (m.insert (.ofPlace 0) false) r).2 = some true ∧
      ∀ σ, m.ExtendedBy σ → r.toClause.Holds σ := by
  intro r m
  have hopen : m.find? (.ofPlace 0) = none := rfl
  have htrue : (m.recordValue? r).2 = some true := rfl
  obtain ⟨-, hall, -, -, hstays, -⟩ :=
    recordValue?_exact [⟨.ofPlace 0, false⟩, ⟨.ofPlace 1, true⟩] [.askTautology] m
  exact ⟨hopen, htrue, hstays _ false true hopen htrue, hall.mp htrue⟩

end ClauseRecord

end Clausal
