import Clausal.Text.Integer
import Mathlib.Algebra.Group.Nat.Defs
import Mathlib.Tactic.Lemma

/-!
# Written integers

The decimal text of an integer consists of digits, with a minus in front of them if the integer is
negative. Main statements: an integer is read from its text, as long as it does not have more digits
than are read (`parseInt?_showInt`), and whatever is read is such an integer
(`natAbs_lt_of_parseInt?`).
-/

namespace Clausal.Text

/-- The digits from zero to nine have their places after the zero as values. -/
lemma digitValue?_of_isDigit {c : Char} (h : c.isDigit = true) :
    digitValue? c = some (c.toNat - '0'.toNat) := by
  obtain ⟨hlo, hhi⟩ := Char.isDigit_iff_toNat.mp h
  have hlt : c.toNat < 58 := Nat.lt_succ_of_le hhi
  have hge : 48 ≤ c.toNat := hlo
  simp [digitValue?, zeros, hge, hlt]

/-- A text of digits is read as their values. -/
lemma digitsFrom_of_isDigit {s : List Char} (h : ∀ c ∈ s, c.isDigit = true) (hs : s ≠ [])
    (afterDigit : Bool) :
    digitsFrom afterDigit s = some (s.map fun c => c.toNat - '0'.toNat) := by
  induction s generalizing afterDigit with
  | nil => exact absurd rfl hs
  | cons c rest ih =>
    obtain ⟨hc, hrest⟩ := List.forall_mem_cons.mp h
    have hne : c ≠ '_' := by
      rintro rfl
      cases hc
    simp only [digitsFrom, if_neg hne, digitValue?_of_isDigit hc]
    cases rest with
    | nil => rfl
    | cons d rest =>
      rw [ih hrest (List.cons_ne_nil d rest)]
      rfl

/-- A natural number is written in digits. -/
lemma isDigit_of_mem_repr {n : Nat} {c : Char} (h : c ∈ (Nat.repr n).toList) :
    c.isDigit = true := by
  rw [Nat.toList_repr] at h
  exact Nat.isDigit_of_mem_toDigits (by decide) (by decide) h

/-- A written number has at least one digit. -/
lemma toList_repr_ne_nil (n : Nat) : (Nat.repr n).toList ≠ [] := by
  rw [Nat.toList_repr]
  exact Nat.toDigits_ne_nil

/-- The digits of a number spell it. -/
lemma ofDigits_repr (n : Nat) :
    ofDigits ((Nat.repr n).toList.map fun c => c.toNat - '0'.toNat) = n := by
  rw [Nat.toList_repr, ofDigits, List.foldl_map]
  exact Nat.ofDigitChars_ten_toDigits

/-- A natural number is read from its text. -/
lemma parseNat?_repr {n : Nat} (h : n < 10 ^ maxDigits) :
    parseNat? (Nat.repr n).toList = some n := by
  have hlen : (Nat.repr n).toList.length ≤ maxDigits := by
    rw [Nat.toList_repr]
    exact (Nat.length_toDigits_le_iff (by decide) (by decide)).mpr h
  have hdigits := digitsFrom_of_isDigit (fun _ => isDigit_of_mem_repr) (toList_repr_ne_nil n) false
  simp only [parseNat?, hdigits, Option.bind_eq_bind, Option.bind_some, List.length_map,
    if_pos hlen, ofDigits_repr]

/-- Read as an integer, the text of a natural number gives this number, too. -/
lemma parseInt?_repr {n : Nat} (h : n < 10 ^ maxDigits) :
    parseInt? (Nat.repr n).toList = some (n : Int) := by
  have hdigit : ∀ c ∈ (Nat.repr n).toList, c.isDigit = true := fun _ => isDigit_of_mem_repr
  unfold parseInt?
  -- the text does not start with a sign
  split
  · next rest hs => exact absurd (hdigit '-' (by simp [hs])) (by decide)
  · next rest hs => exact absurd (hdigit '+' (by simp [hs])) (by decide)
  · rw [parseNat?_repr h]
    rfl

/-- A negative integer is written with a minus before the digits of its absolute value. -/
lemma toList_showInt (i : Int) :
    (showInt i).toList =
      if i < 0 then '-' :: (Nat.repr i.natAbs).toList else (Nat.repr i.natAbs).toList := by
  unfold showInt
  split
  · rw [String.toList_append]
    rfl
  · rfl

/-- An integer is read from its text. -/
theorem parseInt?_showInt {i : Int} (h : i.natAbs < 10 ^ maxDigits) :
    parseInt? (showInt i).toList = some i := by
  rw [toList_showInt]
  split
  · next hneg =>
    have habs : -(i.natAbs : Int) = i := by omega
    simp only [parseInt?, parseNat?_repr h]
    exact congrArg some habs
  · next hpos =>
    have habs : (i.natAbs : Int) = i := by omega
    rw [parseInt?_repr h, habs]

/-- The characters of a natural number lie between the digits zero and nine. -/
lemma toNat_of_mem_repr {n : Nat} {c : Char} (h : c ∈ (Nat.repr n).toList) :
    0x30 ≤ c.toNat ∧ c.toNat ≤ 0x39 :=
  Char.isDigit_iff_toNat.mp (isDigit_of_mem_repr h)

/-- The characters of a written integer lie between the minus and the digit nine. -/
lemma toNat_of_mem_showInt {i : Int} {c : Char} (h : c ∈ (showInt i).toList) :
    0x2D ≤ c.toNat ∧ c.toNat ≤ 0x39 := by
  have hdigit : c ∈ (Nat.repr i.natAbs).toList → 0x2D ≤ c.toNat ∧ c.toNat ≤ 0x39 := by
    intro hc
    obtain ⟨hlo, hhi⟩ := toNat_of_mem_repr hc
    omega
  rw [toList_showInt] at h
  split at h
  · cases h with
    | head => decide
    | tail _ h => exact hdigit h
  · exact hdigit h

/-- A written integer has at least one character. -/
lemma toList_showInt_ne_nil (i : Int) : (showInt i).toList ≠ [] := by
  rw [toList_showInt]
  split
  · exact List.cons_ne_nil _ _
  · exact toList_repr_ne_nil _

/-! ### How large a number can be that is read -/

/-- Digits spell a number below the power of ten with their count. -/
lemma ofDigits_lt {ds : List Nat} (h : ∀ d ∈ ds, d < 10) : ofDigits ds < 10 ^ ds.length := by
  -- for any number that the digits are put after
  suffices hfrom : ∀ n, ds.foldl (fun n d => 10 * n + d) n < (n + 1) * 10 ^ ds.length by
    simpa [ofDigits] using hfrom 0
  induction ds with
  | nil =>
    intro n
    simp
  | cons d rest ih =>
    obtain ⟨hd, hrest⟩ := List.forall_mem_cons.mp h
    intro n
    calc rest.foldl (fun n d => 10 * n + d) (10 * n + d)
        < (10 * n + d + 1) * 10 ^ rest.length := ih hrest (10 * n + d)
      _ ≤ ((n + 1) * 10) * 10 ^ rest.length := Nat.mul_le_mul_right _ (by omega)
      _ = (n + 1) * 10 ^ (d :: rest).length := by
        rw [List.length_cons, Nat.pow_succ', Nat.mul_assoc]

/-- All digits that are read have values below ten. -/
lemma lt_of_mem_digitsFrom {afterDigit : Bool} {s : List Char} {ds : List Nat}
    (h : digitsFrom afterDigit s = some ds) : ∀ d ∈ ds, d < 10 := by
  fun_induction digitsFrom afterDigit s generalizing ds with
  | case1 | case2 | case4 | case6 => simp_all
  | case3 rest ih => exact ih h
  | case5 afterDigit c rest hc d hd ih =>
    obtain ⟨es, hes, rfl⟩ := Option.map_eq_some_iff.mp h
    exact List.forall_mem_cons.mpr ⟨digitValue?_lt hd, ih hes⟩

/-- A natural number that is read has at most as many digits as are read. -/
lemma parseNat?_lt {s : List Char} {n : Nat} (h : parseNat? s = some n) : n < 10 ^ maxDigits := by
  simp only [parseNat?, Option.bind_eq_bind, Option.bind_eq_some_iff] at h
  obtain ⟨ds, hds, hlen⟩ := h
  split at hlen
  · next hle =>
    cases hlen
    exact Nat.lt_of_lt_of_le (ofDigits_lt (lt_of_mem_digitsFrom hds))
      (Nat.pow_le_pow_right (by decide) hle)
  · cases hlen

/-- An integer that is read has at most as many digits as are read. -/
lemma natAbs_lt_of_parseInt? {s : List Char} {i : Int} (h : parseInt? s = some i) :
    i.natAbs < 10 ^ maxDigits := by
  unfold parseInt? at h
  split at h
  all_goals
    simp only [Option.map_eq_map, Option.map_eq_some_iff, Option.bind_eq_bind,
      Option.bind_eq_some_iff, Option.pure_def, Option.some_inj] at h
    obtain ⟨_, ⟨n, hn, rfl⟩, rfl⟩ := h
    simpa using parseNat?_lt hn

end Clausal.Text
