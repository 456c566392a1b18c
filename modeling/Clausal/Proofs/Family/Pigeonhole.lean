import Clausal.Family.Pigeonhole
import Clausal.Proofs.Rebuilding
import Clausal.Proofs.Search.Verdict
import Mathlib.Data.Finset.Card

/-!
# How many pigeons find a hole

A valuation that makes the clauses true seats the pigeons: each of them in some hole, and no two of
them in the same. Main statement: the formula can be built for all numbers of pigeons and of holes,
and reading a solution of it gives every pigeon holes of its own, unless there are more pigeons than
holes; then there is no solution (`placement_decides`).
-/

namespace Clausal.Family.Pigeonhole

variable {pigeons holes : Nat}

/-! ### The variables -/

/-- There is one variable for each pigeon and hole, and no other. -/
lemma seat_index_le {p h : Nat} (hp : p < pigeons) (hh : h < holes) :
    (seat holes p h).index ≤ pigeons * holes := by
  have hmul : (p + 1) * holes ≤ pigeons * holes := Nat.mul_le_mul_right holes hp
  rw [Nat.succ_mul] at hmul
  simp only [seat, Variable.ofPlace]
  omega

/-- The variable tells the pigeon and the hole. -/
lemma div_mod_place_seat {p h : Nat} (hh : h < holes) :
    (seat holes p h).place / holes = p ∧ (seat holes p h).place % holes = h := by
  have hpos : 0 < holes := Nat.zero_lt_of_lt hh
  rw [seat, Variable.place_ofPlace, Nat.add_comm]
  exact ⟨by rw [Nat.add_mul_div_right h p hpos, Nat.div_eq_of_lt hh, Nat.zero_add],
    by rw [Nat.add_mul_mod_self_right, Nat.mod_eq_of_lt hh]⟩

/-! ### The formula -/

/-- The pairs are those of two different numbers below `n`, the smaller one first. -/
lemma mem_pairs {n p q : Nat} : (p, q) ∈ pairs n ↔ p < q ∧ q < n := by
  simp only [pairs, List.mem_flatMap, List.mem_range, List.mem_map, Prod.mk.injEq,
    List.mem_drop_iff_getElem, List.length_range, List.getElem_range]
  constructor
  · rintro ⟨p', hp', q', ⟨i, hi, rfl⟩, rfl, rfl⟩
    omega
  · rintro ⟨hpq, hq⟩
    exact ⟨p, by omega, q, ⟨q - (p + 1), by omega, by omega⟩, rfl, rfl⟩

/-- The clauses are those that seat each pigeon, and those that keep two of them apart. -/
lemma mem_clauses {c : Clause} : c ∈ clauses pigeons holes ↔
    (∃ p < pigeons, c = sits holes p) ∨
      ∃ p q h, p < q ∧ q < pigeons ∧ h < holes ∧ c = apart holes h p q := by
  simp only [clauses, List.mem_append, List.mem_map, List.mem_flatMap, List.mem_range, Prod.exists,
    mem_pairs]
  constructor
  · rintro (⟨p, hp, rfl⟩ | ⟨h, hh, p, q, ⟨hpq, hq⟩, rfl⟩)
    · exact .inl ⟨p, hp, rfl⟩
    · exact .inr ⟨p, q, h, hpq, hq, hh, rfl⟩
  · rintro (⟨p, hp, rfl⟩ | ⟨p, q, h, hpq, hq, hh, rfl⟩)
    · exact .inl ⟨p, hp, rfl⟩
    · exact .inr ⟨h, hh, p, q, ⟨hpq, hq⟩, rfl⟩

/-- A pigeon is seated by the variables for it and any hole. -/
lemma mem_sits {p : Nat} {l : Literal} :
    l ∈ sits holes p ↔ ∃ h < holes, l = ⟨seat holes p h, false⟩ := by
  simp [sits, eq_comm]

/-- Two pigeons are kept apart by negating that they are in the hole. -/
lemma mem_apart {h p q : Nat} {l : Literal} :
    l ∈ apart holes h p q ↔ l = ⟨seat holes p h, true⟩ ∨ l = ⟨seat holes q h, true⟩ := by
  simp [apart]

/-- The formula as a conjunction of clauses. -/
def cnf (pigeons holes : Nat) : Cnf := ⟨pigeons * holes, clauses pigeons holes⟩

/-- The clauses keep to the variables for the pigeons and holes. -/
lemma inRange_cnf (pigeons holes : Nat) : (cnf pigeons holes).InRange := by
  intro c hc l hl
  rcases mem_clauses.mp hc with ⟨p, hp, rfl⟩ | ⟨p, q, h, hpq, hq, hh, rfl⟩
  · obtain ⟨h, hh, rfl⟩ := mem_sits.mp hl
    exact seat_index_le hp hh
  · rcases mem_apart.mp hl with rfl | rfl
    · exact seat_index_le (Nat.lt_trans hpq hq) hh
    · exact seat_index_le hq hh

/-- The formula can be built for all numbers of pigeons and holes. -/
lemma exists_formula (pigeons holes : Nat) :
    ∃ W, formula pigeons holes = .ok W ∧ W.toCnf = cnf pigeons holes := by
  obtain ⟨W, hok, -, hcnf⟩ := Workspace.exists_built (inRange_cnf pigeons holes)
  refine ⟨W, ?_, hcnf⟩
  simpa [formula, cnf] using hok

/-! ### What a solution says -/

/-- A valuation puts every pigeon into some hole, and no two pigeons into the same. -/
structure Seats (σ : Valuation) (pigeons holes : Nat) : Prop where
  exists_hole : ∀ p < pigeons, ∃ h < holes, σ (seat holes p h) = true
  apart : ∀ p q h, p < q → q < pigeons → h < holes →
    σ (seat holes p h) = true → σ (seat holes q h) = true → False

/-- A valuation makes the clauses true exactly if it seats the pigeons. -/
lemma holds_cnf_iff {σ : Valuation} :
    (cnf pigeons holes).Holds σ ↔ Seats σ pigeons holes := by
  constructor
  · intro hσ
    exact {
      exists_hole := by
        intro p hp
        obtain ⟨l, hl, ht⟩ := hσ _ (mem_clauses.mpr (.inl ⟨p, hp, rfl⟩))
        obtain ⟨h, hh, rfl⟩ := mem_sits.mp hl
        exact ⟨h, hh, ht⟩
      apart := by
        intro p q h hpq hq hh hp' hq'
        obtain ⟨l, hl, ht⟩ := hσ _ (mem_clauses.mpr (.inr ⟨p, q, h, hpq, hq, hh, rfl⟩))
        rcases mem_apart.mp hl with rfl | rfl
        · exact absurd (ht.symm.trans hp') Bool.false_ne_true
        · exact absurd (ht.symm.trans hq') Bool.false_ne_true }
  · intro hs c hc
    rcases mem_clauses.mp hc with ⟨p, hp, rfl⟩ | ⟨p, q, h, hpq, hq, hh, rfl⟩
    · obtain ⟨h, hh, ht⟩ := hs.exists_hole p hp
      exact ⟨_, mem_sits.mpr ⟨h, hh, rfl⟩, ht⟩
    · cases hp : σ (seat holes p h) with
      | false => exact ⟨_, mem_apart.mpr (.inl rfl), hp⟩
      | true =>
        cases hq' : σ (seat holes q h) with
        | false => exact ⟨_, mem_apart.mpr (.inr rfl), hq'⟩
        | true => exact (hs.apart p q h hpq hq hh hp hq').elim

/-- A hole is the seat of one pigeon at most. -/
lemma Seats.eq {σ : Valuation} (hs : Seats σ pigeons holes) {p q h : Nat} (hp : p < pigeons)
    (hq : q < pigeons) (hh : h < holes) (hp' : σ (seat holes p h) = true)
    (hq' : σ (seat holes q h) = true) : p = q := by
  rcases Nat.lt_trichotomy p q with hlt | heq | hlt
  · exact (hs.apart p q h hlt hq hh hp' hq').elim
  · exact heq
  · exact (hs.apart q p h hlt hp hh hq' hp').elim

/-- Pigeons in holes of their own are not more than the holes. -/
lemma Seats.le {σ : Valuation} (hs : Seats σ pigeons holes) : pigeons ≤ holes := by
  choose! hole hlt htrue using hs.exists_hole
  have hcard : (Finset.range pigeons).card ≤ (Finset.range holes).card := by
    apply Finset.card_le_card_of_injOn hole
    · intro p hp
      exact Finset.mem_coe.mpr (Finset.mem_range.mpr (hlt p (Finset.mem_range.mp hp)))
    · intro p hp q hq heq
      have hp := Finset.mem_range.mp hp
      have hq := Finset.mem_range.mp hq
      exact hs.eq hp hq (hlt p hp) (htrue p hp) (heq ▸ htrue q hq)
  simpa using hcard

/-- Each pigeon in the hole of its own number. -/
def inOrder (holes : Nat) : Valuation := fun v => decide (v.place / holes = v.place % holes)

/-- In their order, pigeons are in the holes of their own numbers only. -/
lemma inOrder_seat {p h : Nat} (hh : h < holes) :
    inOrder holes (seat holes p h) = true ↔ p = h := by
  obtain ⟨hp, hh'⟩ := div_mod_place_seat (p := p) hh
  rw [inOrder, hp, hh', decide_eq_true_iff]

/-- If there are enough holes, each pigeon can take that of its own number. -/
lemma seats_inOrder (h : pigeons ≤ holes) : Seats (inOrder holes) pigeons holes where
  exists_hole := by
    intro p hp
    have hp' : p < holes := Nat.lt_of_lt_of_le hp h
    exact ⟨p, hp', (inOrder_seat hp').mpr rfl⟩
  apart := by
    intro p q h hpq _ hh hp hq
    rw [inOrder_seat hh] at hp hq
    omega

/-- The formula has a solution exactly if there is a hole for each pigeon. -/
lemma satisfiable_cnf_iff : (cnf pigeons holes).Satisfiable ↔ pigeons ≤ holes := by
  constructor
  · rintro ⟨σ, hσ⟩
    exact (holds_cnf_iff.mp hσ).le
  · intro h
    exact ⟨inOrder holes, holds_cnf_iff.mpr (seats_inOrder h)⟩

/-! ### Reading a solution -/

/-- If each element of a list has a result, the list has the list of the results. -/
lemma mapM_eq_ok {α β : Type} {f : α → Except Error β} {g : α → β} {l : List α}
    (h : ∀ x ∈ l, f x = .ok (g x)) : l.mapM f = .ok (l.map g) := by
  induction l with
  | nil => rfl
  | cons x rest ih =>
    obtain ⟨hx, hrest⟩ := List.forall_mem_cons.mp h
    rw [List.mapM_cons, hx, ih hrest]
    rfl

/-- The holes in which a valuation puts a pigeon. -/
def holesIn (σ : Valuation) (holes p : Nat) : List Nat :=
  (List.range holes).filter fun h => σ (seat holes p h)

/-- The holes listed for a pigeon are those that the valuation puts it into. -/
lemma mem_holesIn {σ : Valuation} {p h : Nat} :
    h ∈ holesIn σ holes p ↔ h < holes ∧ σ (seat holes p h) = true := by
  rw [holesIn, List.mem_filter, List.mem_range]

/-- Reading the holes of a pigeon finds the value of each variable that it asks for. -/
lemma holesOf_eq_ok {a : Assignment} {p : Nat} (ha : a.length = pigeons * holes)
    (hp : p < pigeons) : holesOf a holes p = .ok (holesIn a.valuation holes p) := by
  have hread : ∀ h ∈ List.range holes, (do return (h, ← a.read (p * holes + h)) :
      Except Error (Nat × Bool)) = .ok (h, a.valuation (seat holes p h)) := by
    intro h hh
    have hlt : (seat holes p h).place < a.length := by
      rw [ha]
      exact Variable.place_lt (seat_index_le hp (List.mem_range.mp hh))
    have hok : a.read (p * holes + h) = .ok (a.valuation (seat holes p h)) :=
      Assignment.read_place hlt
    rw [hok]
    rfl
  rw [holesOf, mapM_eq_ok hread]
  simp [bind, Except.bind, pure, Except.pure, holesIn, List.filter_map, Function.comp_def]

/-- The formula can be built for all numbers of pigeons and holes, also if there are none of them.
There is no placement exactly if there are more pigeons than holes, and otherwise the placement lists
for each pigeon some holes, none of which is listed for another pigeon. -/
theorem placement_decides (pigeons holes : Nat) :
    ∃ W, formula pigeons holes = .ok W ∧
      ((placement W.toCnf pigeons holes).result = .ok none ↔ holes < pigeons) ∧
      (¬ holes < pigeons → ∃ seats : List (List Nat),
        (placement W.toCnf pigeons holes).result = .ok (some seats) ∧ seats.length = pigeons ∧
        (∀ hs ∈ seats, hs ≠ [] ∧ ∀ h ∈ hs, h < holes) ∧ seats.Pairwise List.Disjoint) := by
  obtain ⟨W, hok, hcnf⟩ := exists_formula pigeons holes
  refine ⟨W, hok, ?_⟩
  rw [hcnf]
  have hdec := Solver.Search.solve_spec (inRange_cnf pigeons holes)
  simp only [placement, Int.toNat_natCast]
  generalize Solver.Search.solve (cnf pigeons holes) = r at hdec
  obtain ⟨events, result⟩ := r
  simp only at hdec
  cases hdec with
  | refuted hnone =>
    rw [satisfiable_cnf_iff, Nat.not_le] at hnone
    simp [hnone]
  | @found a ha hσ =>
    have hs := holds_cnf_iff.mp hσ
    have hseats : (List.range pigeons).mapM (holesOf a holes) =
        .ok ((List.range pigeons).map (holesIn a.valuation holes)) :=
      mapM_eq_ok fun p hp => holesOf_eq_ok ha (List.mem_range.mp hp)
    have hle : ¬ holes < pigeons := Nat.not_lt.mpr hs.le
    simp only [hseats, hle, not_false_eq_true, forall_const, iff_false]
    refine ⟨nofun, _, rfl, by simp, ?_, ?_⟩
    · intro row hrow
      obtain ⟨p, hp, rfl⟩ := List.mem_map.mp hrow
      obtain ⟨h, hh, ht⟩ := hs.exists_hole p (List.mem_range.mp hp)
      have hmem : h ∈ holesIn a.valuation holes p := mem_holesIn.mpr ⟨hh, ht⟩
      exact ⟨List.ne_nil_of_mem hmem, fun h hh => (mem_holesIn.mp hh).1⟩
    · rw [List.pairwise_map]
      apply List.pairwise_lt_range.imp_of_mem
      intro p q _ hq hpq h hp' hq'
      obtain ⟨hh, hp'⟩ := mem_holesIn.mp hp'
      obtain ⟨-, hq'⟩ := mem_holesIn.mp hq'
      exact hs.apart p q h hpq (List.mem_range.mp hq) hh hp' hq'

end Clausal.Family.Pigeonhole
