import Clausal.Proofs.Satisfaction
import Clausal.Model

/-!
# Models and the valuations that extend them

A model stands for all valuations that give its variables the same values. Main statements: when a
clause is true, false or undetermined under a model is said in terms of the values of its literals
(`clauseValue?_eq_true_iff`, `clauseValue?_eq_false_iff`, `clauseValue?_eq_none_iff`), and a value
that is determined is the value under every valuation that extends the model
(`ExtendedBy.holds_of_true`, `ExtendedBy.not_holds_of_false`).
-/

namespace Clausal.Model

/-- A valuation extends a model if it gives the assigned variables the values of the model. -/
def ExtendedBy (m : Model) (σ : Valuation) : Prop := ∀ v b, m.find? v = some b → σ v = b

/-- Every valuation extends the model that assigns nothing. -/
lemma extendedBy_empty (σ : Valuation) : ExtendedBy OrderedMap.empty σ := by
  intro v b h
  cases h

/-- Assigning a variable the value that an extension gives it keeps the extension. -/
lemma ExtendedBy.insert_of_eq {m : Model} {σ : Valuation} {v : Variable} {b : Bool}
    (h : m.ExtendedBy σ) (hv : σ v = b) : ExtendedBy (m.insert v b) σ := by
  intro w b' hw
  rw [OrderedMap.find?_insert] at hw
  split at hw
  · next e => cases hw; exact e ▸ hv
  · exact h w b' hw

/-- Assigning a value and giving it to the valuation keeps the extension. -/
lemma ExtendedBy.insert_update {m : Model} {σ : Valuation} {v : Variable} {b : Bool}
    (h : m.ExtendedBy σ) : ExtendedBy (m.insert v b) (Function.update σ v b) := by
  intro w b' hw
  rw [OrderedMap.find?_insert] at hw
  split at hw
  · next e => cases hw; simp [e]
  · next e =>
    rw [Function.update_of_ne e]
    exact h w b' hw

/-- The value of an open variable may be changed in an extension. -/
lemma ExtendedBy.update {m : Model} {σ : Valuation} {v : Variable} {b : Bool} (h : m.ExtendedBy σ)
    (hv : m.find? v = none) : m.ExtendedBy (Function.update σ v b) := by
  intro w b' hw
  have hne : w ≠ v := by
    rintro rfl
    rw [hv] at hw
    cases hw
  rw [Function.update_of_ne hne]
  exact h w b' hw

/-- What extends a model with one more variable extends the model. -/
lemma ExtendedBy.of_insert {m : Model} {σ : Valuation} {v : Variable} {b : Bool}
    (h : ExtendedBy (m.insert v b) σ) (hv : m.find? v = none) : m.ExtendedBy σ := by
  intro w b' hw
  have hne : w ≠ v := by
    rintro rfl
    rw [hv] at hw
    cases hw
  exact h w b' (by rw [OrderedMap.find?_insert, if_neg hne, hw])

/-- An extension gives a variable the value that was assigned to it. -/
lemma ExtendedBy.eq_of_insert {m : Model} {σ : Valuation} {v : Variable} {b : Bool}
    (h : ExtendedBy (m.insert v b) σ) : σ v = b :=
  h v b (by rw [OrderedMap.find?_insert, if_pos rfl])

/-- A literal has no value exactly if its variable is open. -/
lemma literalValue?_eq_none_iff {m : Model} {l : Literal} :
    m.literalValue? l = none ↔ m.find? l.var = none := by
  simp [literalValue?]

/-- A literal is true exactly if its variable has the value that makes it so. -/
lemma literalValue?_eq_true_iff {m : Model} {l : Literal} :
    m.literalValue? l = some true ↔ m.find? l.var = some l.value := by
  obtain ⟨v, b⟩ := l
  simp only [literalValue?, Literal.value]
  cases m.find? v with
  | none => simp
  | some x => cases x <;> cases b <;> simp

/-- The value of a literal is its value under every valuation that extends the model. -/
lemma ExtendedBy.holds_iff {m : Model} {σ : Valuation} {l : Literal} {b : Bool}
    (h : m.ExtendedBy σ) (hl : m.literalValue? l = some b) : l.Holds σ ↔ b = true := by
  simp only [literalValue?, Option.map_eq_some_iff] at hl
  obtain ⟨x, hx, rfl⟩ := hl
  obtain ⟨v, neg⟩ := l
  have hσ := h v x hx
  cases neg <;> simp [Literal.Holds, Literal.value, hσ]

/-- The two literals of a variable have opposite values. -/
lemma literalValue?_opposite {m : Model} {v : Variable} {b : Bool} :
    m.literalValue? ⟨v, true⟩ = some b ↔ m.literalValue? ⟨v, false⟩ = some !b := by
  simp only [literalValue?]
  cases m.find? v with
  | none => simp
  | some x => cases x <;> cases b <;> simp

/-- A tautology has a true literal as soon as its variables are assigned. -/
lemma exists_true_of_isTautology {m : Model} {c : Clause} (hc : c.isTautology = true)
    (h : ∀ l ∈ c, m.literalValue? l ≠ none) : ∃ l ∈ c, m.literalValue? l = some true := by
  obtain ⟨v, hpos, hneg⟩ := Clause.isTautology_iff.mp hc
  cases hv : m.literalValue? ⟨v, false⟩ with
  | none => exact absurd hv (h _ hpos)
  | some b =>
    cases b with
    | true => exact ⟨_, hpos, hv⟩
    | false => exact ⟨_, hneg, literalValue?_opposite.mpr hv⟩

/-- A clause is true exactly if it is a tautology or some literal is true. -/
lemma clauseValue?_eq_true_iff {m : Model} {c : Clause} :
    m.clauseValue? c = some true ↔
      c.isTautology = true ∨ ∃ l ∈ c, m.literalValue? l = some true := by
  unfold clauseValue?
  split
  · next he =>
    have hn : c.literals = [] := List.isEmpty_iff.mp he
    simp [Clause.isTautology_iff, ← Clause.mem_literals, hn]
  split
  · next ht => simp [ht]
  · next ht =>
    simp only [ht, Bool.false_eq_true, false_or]
    split
    · next ha => simpa [← Clause.mem_literals] using ha
    · next ha =>
      have ha' : ¬ ∃ l ∈ c, m.literalValue? l = some true := by
        simpa [← Clause.mem_literals] using ha
      split <;> simp [ha']

/-- A clause is false exactly if all its literals are false, so that it is no tautology. -/
lemma clauseValue?_eq_false_iff {m : Model} {c : Clause} :
    m.clauseValue? c = some false ↔ ∀ l ∈ c, m.literalValue? l = some false := by
  constructor
  · intro h l hl
    unfold clauseValue? at h
    split at h
    · next he =>
      have hn : c.literals = [] := List.isEmpty_iff.mp he
      rw [← Clause.mem_literals, hn] at hl
      cases hl
    split at h
    · cases h
    split at h
    · cases h
    split at h
    · cases h
    · next ht hopen =>
      cases hv : m.literalValue? l with
      | none => exact absurd (List.any_eq_true.mpr ⟨l, hl, by simp [hv]⟩) hopen
      | some b =>
        cases b with
        | true => exact absurd (List.any_eq_true.mpr ⟨l, hl, by simp [hv]⟩) ht
        | false => rfl
  · intro h
    have hnt : ¬ ∃ l ∈ c, m.literalValue? l = some true := by
      rintro ⟨l, hl, hv⟩
      rw [h l hl] at hv
      cases hv
    have htaut : ¬ c.isTautology = true := fun ht =>
      hnt (exists_true_of_isTautology ht fun l hl => by simp [h l hl])
    have hany : c.literals.any (fun l => m.literalValue? l == some true) = false := by
      simpa [← Clause.mem_literals] using hnt
    have hopen : c.literals.any (fun l => (m.literalValue? l).isNone) = false := by
      rw [List.any_eq_false]
      intro l hl
      simp [h l hl]
    simp [clauseValue?, htaut, hany, hopen]

/-- A clause is undetermined exactly if it is no tautology, no literal is true and some literal is
open. -/
lemma clauseValue?_eq_none_iff {m : Model} {c : Clause} :
    m.clauseValue? c = none ↔ c.isTautology = false ∧ (∀ l ∈ c, m.literalValue? l ≠ some true) ∧
      ∃ l ∈ c, m.find? l.var = none := by
  -- to be undetermined is to be neither true nor false
  have ht := clauseValue?_eq_true_iff (m := m) (c := c)
  have hf := clauseValue?_eq_false_iff (m := m) (c := c)
  constructor
  · intro h
    rw [h] at ht hf
    simp only [reduceCtorEq, false_iff, not_or, not_exists, not_and, Bool.not_eq_true,
      not_forall] at ht hf
    refine ⟨ht.1, ht.2, ?_⟩
    obtain ⟨l, hl, hv⟩ := hf
    refine ⟨l, hl, literalValue?_eq_none_iff.mp ?_⟩
    cases hlv : m.literalValue? l with
    | none => rfl
    | some b =>
      cases b with
      | true => exact absurd hlv (ht.2 l hl)
      | false => exact absurd hlv hv
  · rintro ⟨htaut, htrue, l, hl, hopen⟩
    cases hv : m.clauseValue? c with
    | none => rfl
    | some b =>
      cases b with
      | true =>
        rcases ht.mp hv with h | ⟨l, hl, h⟩
        · rw [htaut] at h
          cases h
        · exact absurd h (htrue l hl)
      | false =>
        have h := hf.mp hv l hl
        rw [literalValue?_eq_none_iff.mpr hopen] at h
        cases h

/-- A clause that is true under a model is true under every valuation that extends it. -/
lemma ExtendedBy.holds_of_true {m : Model} {σ : Valuation} {c : Clause} (h : m.ExtendedBy σ)
    (hc : m.clauseValue? c = some true) : c.Holds σ := by
  rcases clauseValue?_eq_true_iff.mp hc with ht | ⟨l, hl, hv⟩
  · obtain ⟨v, hpos, hneg⟩ := Clause.isTautology_iff.mp ht
    cases hv : σ v with
    | true => exact ⟨_, hpos, hv⟩
    | false => exact ⟨_, hneg, hv⟩
  · exact ⟨l, hl, (h.holds_iff hv).mpr rfl⟩

/-- A clause that is false under a model is true under no valuation that extends it. -/
lemma ExtendedBy.not_holds_of_false {m : Model} {σ : Valuation} {c : Clause} (h : m.ExtendedBy σ)
    (hc : m.clauseValue? c = some false) : ¬ c.Holds σ := by
  rintro ⟨l, hl, hσ⟩
  have hv := clauseValue?_eq_false_iff.mp hc l hl
  exact absurd ((h.holds_iff hv).mp hσ) Bool.false_ne_true

end Clausal.Model
