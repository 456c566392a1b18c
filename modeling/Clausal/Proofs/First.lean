import Mathlib.Tactic.Lemma

/-!
# First elements

The first element of a list with a property, which is what `List.find?` finds.
-/

namespace Clausal

/-- The element is the first one of the list with the property. -/
def IsFirst {α : Type} (p : α → Prop) (l : List α) (a : α) : Prop :=
  ∃ l₁ l₂, l = l₁ ++ a :: l₂ ∧ p a ∧ ∀ b ∈ l₁, ¬ p b

/-- Looking for an element that passes a test finds the first one with the property tested. -/
lemma find?_eq_some_iff_isFirst {α : Type} {p : α → Prop} {test : α → Bool} {l : List α} {a : α}
    (h : ∀ b, test b = true ↔ p b) : l.find? test = some a ↔ IsFirst p l a := by
  simp only [List.find?_eq_some_iff_append, IsFirst, h, Bool.not_eq_true', ← Bool.not_eq_true]
  constructor
  · rintro ⟨ha, l₁, l₂, hl, hnone⟩
    exact ⟨l₁, l₂, hl, ha, hnone⟩
  · rintro ⟨l₁, l₂, hl, ha, hnone⟩
    exact ⟨ha, l₁, l₂, hl, hnone⟩

/-- Looking for an element that passes a test finds none if no element has the property tested. -/
lemma find?_eq_none_iff_forall {α : Type} {p : α → Prop} {test : α → Bool} {l : List α}
    (h : ∀ b, test b = true ↔ p b) : l.find? test = none ↔ ∀ b ∈ l, ¬ p b := by
  simp only [List.find?_eq_none, h]

section

variable {α : Type} {p : α → Prop} {l : List α} {a b : α}

open Classical in
/-- The first element with a property is what is found by looking for one. -/
lemma isFirst_iff : IsFirst p l a ↔ l.find? (fun b => decide (p b)) = some a :=
  (find?_eq_some_iff_isFirst fun _ => decide_eq_true_iff).symm

/-- A list has one first element with a property at most. -/
lemma IsFirst.unique (ha : IsFirst p l a) (hb : IsFirst p l b) : a = b := by
  classical
  rw [isFirst_iff] at ha hb
  exact Option.some.inj (ha.symm.trans hb)

/-- The first element with a property is in the list. -/
lemma IsFirst.mem (h : IsFirst p l a) : a ∈ l := by
  obtain ⟨l₁, l₂, rfl, -⟩ := h
  simp

/-- The first element with a property has the property. -/
lemma IsFirst.prop (h : IsFirst p l a) : p a := by
  obtain ⟨-, -, -, ha, -⟩ := h
  exact ha

/-- Properties that the same elements have, have the same first element. -/
lemma IsFirst.congr {q : α → Prop} (h : IsFirst p l a) (hpq : ∀ b, p b ↔ q b) : IsFirst q l a := by
  have heq : p = q := funext fun b => propext (hpq b)
  exact heq ▸ h

/-- If an element of a list has a property, there is a first one. -/
lemma exists_isFirst (h : ∃ b ∈ l, p b) : ∃ a, IsFirst p l a := by
  classical
  simp only [isFirst_iff, ← Option.isSome_iff_exists, List.find?_isSome, decide_eq_true_iff]
  exact h

/-- With one more element at the end, the first one is the same, or the new one if there was none. -/
lemma isFirst_concat_iff {x : α} :
    IsFirst p (l ++ [x]) a ↔ IsFirst p l a ∨ (a = x ∧ p x ∧ ∀ b ∈ l, ¬ p b) := by
  classical
  have hlast : [x].find? (fun b => decide (p b)) = some a ↔ a = x ∧ p x := by
    by_cases hx : p x
    · simp [hx, eq_comm]
    · simp [hx]
  simp only [isFirst_iff, List.find?_append, Option.or_eq_some_iff, List.find?_eq_none,
    decide_eq_true_iff, hlast]
  exact or_congr_right ⟨fun h => ⟨h.2.1, h.2.2, h.1⟩, fun h => ⟨h.2.2, h.1, h.2.1⟩⟩

end

end Clausal
