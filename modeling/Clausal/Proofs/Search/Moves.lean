import Clausal.Proofs.First
import Clausal.Proofs.Model
import Clausal.Solver.Search

/-!
# Moves of the search

What the search does with a branch, and why it loses no solution by it. The relation `Outcome` says
what is known of a branch for each outcome of a step, and `step_outcome` that it is. A pure move makes
a literal true whose complement occurs in no clause that is not true yet (`isPure_of_pureMove?`), so
that it can be made in every solution (`AllHold.update_of_pureMove?`), and a unit move is made in every
solution already (`eq_of_unitMove?`).
-/

namespace Clausal

namespace Solver.Search

/-- A valuation makes all listed clauses true. -/
def AllHold (σ : Valuation) (clauses : List Clause) : Prop := ∀ c ∈ clauses, c.Holds σ

variable {clauses : List Clause} {vs : List Variable} {m : Model}

/-! ### Pure moves -/

/-- The open clauses are those that are not true under the model. -/
lemma mem_openClauses {c : Clause} :
    c ∈ openClauses clauses m ↔ c ∈ clauses ∧ m.clauseValue? c ≠ some true := by
  simp [openClauses]

/-- A variable occurs without negation if it is a literal of some clause. -/
lemma occursPositively_iff {v : Variable} :
    occursPositively clauses v = true ↔ ∃ c ∈ clauses, (⟨v, false⟩ : Literal) ∈ c := by
  simp [occursPositively, Clause.mem_positives]

/-- A variable occurs negated if its negation is a literal of some clause. -/
lemma occursNegatively_iff {v : Variable} :
    occursNegatively clauses v = true ↔ ∃ c ∈ clauses, (⟨v, true⟩ : Literal) ∈ c := by
  simp [occursNegatively, Clause.mem_negatives]

/-- The literal occurs in a clause that is not true under the model. -/
def OccursOpen (clauses : List Clause) (m : Model) (l : Literal) : Prop :=
  ∃ c ∈ clauses, m.clauseValue? c ≠ some true ∧ l ∈ c

/-- The literal occurs in the clauses that are not true under the model, and its complement does
not. -/
def IsPure (clauses : List Clause) (m : Model) (l : Literal) : Prop :=
  OccursOpen clauses m l ∧ ¬ OccursOpen clauses m l.complement

/-- A variable occurs without negation in the open clauses exactly if it is a literal of one that is
not true. -/
lemma occursPositively_openClauses_iff {v : Variable} :
    occursPositively (openClauses clauses m) v = true ↔ OccursOpen clauses m ⟨v, false⟩ := by
  simp only [occursPositively_iff, mem_openClauses, OccursOpen, and_assoc]

/-- A variable occurs negated in the open clauses exactly if its negation is a literal of one that
is not true. -/
lemma occursNegatively_openClauses_iff {v : Variable} :
    occursNegatively (openClauses clauses m) v = true ↔ OccursOpen clauses m ⟨v, true⟩ := by
  simp only [occursNegatively_iff, mem_openClauses, OccursOpen, and_assoc]

/-- A variable is made true if it occurs without negation only. -/
lemma isPure_positive_iff (v : Variable) :
    (occursPositively (openClauses clauses m) v && !occursNegatively (openClauses clauses m) v) =
      true ↔ IsPure clauses m ⟨v, false⟩ := by
  simp only [Bool.and_eq_true, Bool.not_eq_true', ← Bool.not_eq_true,
    occursPositively_openClauses_iff, occursNegatively_openClauses_iff, IsPure, Literal.complement,
    Bool.not_false]

/-- A variable is made false if it occurs negated only. -/
lemma isPure_negative_iff (v : Variable) :
    (occursNegatively (openClauses clauses m) v && !occursPositively (openClauses clauses m) v) =
      true ↔ IsPure clauses m ⟨v, true⟩ := by
  simp only [Bool.and_eq_true, Bool.not_eq_true', ← Bool.not_eq_true,
    occursPositively_openClauses_iff, occursNegatively_openClauses_iff, IsPure, Literal.complement,
    Bool.not_true]

/-- The pure move makes the first listed variable true that occurs without negation only. -/
lemma pureMove?_eq_true_iff {v : Variable} : pureMove? clauses vs m = some ⟨v, true⟩ ↔
    IsFirst (fun w => IsPure clauses m ⟨w, false⟩) vs v := by
  rw [← find?_eq_some_iff_isFirst isPure_positive_iff]
  simp only [pureMove?]
  split
  · next w hw => simp [hw]
  · next hnone => simp [hnone]

/-- The pure move makes the first listed variable false that occurs negated only, if none occurs
without negation only. -/
lemma pureMove?_eq_false_iff {v : Variable} : pureMove? clauses vs m = some ⟨v, false⟩ ↔
    (∀ w ∈ vs, ¬ IsPure clauses m ⟨w, false⟩) ∧
      IsFirst (fun w => IsPure clauses m ⟨w, true⟩) vs v := by
  rw [← find?_eq_some_iff_isFirst isPure_negative_iff, ← find?_eq_none_iff_forall isPure_positive_iff]
  simp only [pureMove?]
  split
  · next w hw => simp [hw]
  · next hnone => simp [hnone]

/-- There is no pure move exactly if no listed variable occurs with one sign only. -/
lemma pureMove?_eq_none_iff : pureMove? clauses vs m = none ↔
    ∀ w ∈ vs, ¬ IsPure clauses m ⟨w, false⟩ ∧ ¬ IsPure clauses m ⟨w, true⟩ := by
  simp only [forall_and]
  rw [← find?_eq_none_iff_forall isPure_negative_iff, ← find?_eq_none_iff_forall isPure_positive_iff]
  simp only [pureMove?]
  split
  · next w hw => simp [hw]
  · next hnone => simp [hnone]

/-- The literal that a pure move makes true is pure. -/
lemma isPure_of_pureMove? {move : Move} (h : pureMove? clauses vs m = some move) :
    IsPure clauses m ⟨move.var, !move.value⟩ := by
  obtain ⟨v, b⟩ := move
  cases b with
  | true =>
    obtain ⟨_, _, -, hpure, -⟩ := pureMove?_eq_true_iff.mp h
    exact hpure
  | false =>
    obtain ⟨-, _, _, -, hpure, -⟩ := pureMove?_eq_false_iff.mp h
    exact hpure

/-- A solution stays one when a pure move is made in it. -/
lemma AllHold.update_of_pureMove? {move : Move} {σ : Valuation}
    (h : pureMove? clauses vs m = some move) (hv : m.find? move.var = none)
    (hσ : m.ExtendedBy σ) (hall : AllHold σ clauses) :
    AllHold (Function.update σ move.var move.value) clauses := by
  intro c hc
  by_cases hval : m.clauseValue? c = some true
  · exact (hσ.update hv).holds_of_true hval
  · -- the literal that was true in an open clause is not the complement of the pure one
    obtain ⟨l, hl, htrue⟩ := hall c hc
    refine ⟨l, hl, ?_⟩
    by_cases hlv : l.var = move.var
    · obtain ⟨w, neg⟩ := l
      obtain rfl : w = move.var := hlv
      have hneg : neg ≠ !!move.value := by
        rintro rfl
        exact (isPure_of_pureMove? h).2 ⟨c, hc, hval, hl⟩
      simpa [Literal.Holds, Literal.value, Bool.eq_not, eq_comm] using hneg
    · simpa only [Literal.Holds, Function.update_of_ne hlv] using htrue

/-! ### Unit moves -/

/-- The open literals of a clause are those whose variable the model does not assign. -/
lemma mem_openLiterals {c : Clause} {l : Literal} :
    l ∈ openLiterals m c ↔ l ∈ c ∧ m.find? l.var = none := by
  simp [openLiterals, Clause.mem_literals]

/-- An undetermined clause needs a literal if it has no other open one. -/
lemma unitLiteral?_eq_some_iff {c : Clause} {l : Literal} :
    unitLiteral? m c = some l ↔ m.clauseValue? c = none ∧ openLiterals m c = [l] := by
  simp only [unitLiteral?]
  split
  · next hval =>
    obtain ⟨b, hb⟩ := Option.isSome_iff_exists.mp hval
    simp [hb]
  · next hval =>
    have hnone : m.clauseValue? c = none := by simpa using hval
    split
    · next k hk => simp [hnone, hk]
    · next hk => simpa [hnone] using hk l

/-- A unit move comes from an undetermined clause with a single open literal. -/
lemma exists_clause_of_unitMove? {move : Move} (h : unitMove? clauses m = some move) :
    ∃ c ∈ clauses, ∃ l : Literal, m.clauseValue? c = none ∧ openLiterals m c = [l] ∧
      move = ⟨l.var, l.value⟩ := by
  simp only [unitMove?, Option.map_eq_some_iff] at h
  obtain ⟨l, hl, rfl⟩ := h
  obtain ⟨c, hc, hcl⟩ := List.exists_of_findSome?_eq_some hl
  obtain ⟨hnone, hopen⟩ := unitLiteral?_eq_some_iff.mp hcl
  exact ⟨c, hc, l, hnone, hopen, rfl⟩

/-- The variable of a unit move is open and occurs in some clause. -/
lemma exists_literal_of_unitMove? {move : Move} (h : unitMove? clauses m = some move) :
    m.find? move.var = none ∧ ∃ c ∈ clauses, ∃ l ∈ c, l.var = move.var := by
  obtain ⟨c, hc, l, -, hopen, rfl⟩ := exists_clause_of_unitMove? h
  obtain ⟨hl, hv⟩ := mem_openLiterals.mp (hopen ▸ List.mem_singleton.mpr rfl)
  exact ⟨hv, c, hc, l, hl, rfl⟩

/-- Every solution that extends the model makes the unit move. -/
lemma eq_of_unitMove? {move : Move} {σ : Valuation}
    (h : unitMove? clauses m = some move) (hσ : m.ExtendedBy σ) (hall : AllHold σ clauses) :
    σ move.var = move.value := by
  obtain ⟨c, hc, l, hval, hopen, rfl⟩ := exists_clause_of_unitMove? h
  obtain ⟨-, hnt, -⟩ := Model.clauseValue?_eq_none_iff.mp hval
  obtain ⟨l', hl', htrue⟩ := hall c hc
  -- a true literal that is assigned would make the clause true, so it is the open one
  have hl'o : m.find? l'.var = none := by
    rw [← Model.literalValue?_eq_none_iff]
    cases hv : m.literalValue? l' with
    | none => rfl
    | some b =>
      have hb := (hσ.holds_iff hv).mp htrue
      exact absurd (hb ▸ hv) (hnt l' hl')
  have hmem : l' ∈ openLiterals m c := mem_openLiterals.mpr ⟨hl', hl'o⟩
  rw [hopen, List.mem_singleton] at hmem
  subst hmem
  exact htrue

/-! ### The outcomes of a step -/

/-- No clause is false under the model, and some clause is undetermined. -/
structure Undecided (clauses : List Clause) (m : Model) : Prop where
  not_false : ∀ c ∈ clauses, m.clauseValue? c ≠ some false
  exists_none : ∃ c ∈ clauses, m.clauseValue? c = none

/-- What is known of a branch when a step has the given outcome. -/
inductive Outcome (clauses : List Clause) (b : Branch) : Step → Prop where
  | solved :
    (∀ c ∈ clauses, b.model.clauseValue? c = some true) →
    Outcome clauses b .solved
  | failed {c} :
    c ∈ clauses →
    b.model.clauseValue? c = some false →
    Outcome clauses b .failed
  | pure {move} :
    Undecided clauses b.model →
    pureMove? clauses b.vars b.model = some move →
    Outcome clauses b (.forced move)
  | unit {move} :
    Undecided clauses b.model →
    pureMove? clauses b.vars b.model = none →
    unitMove? clauses b.model = some move →
    Outcome clauses b (.forced move)
  | branch {v rest} :
    Undecided clauses b.model →
    pureMove? clauses b.vars b.model = none →
    unitMove? clauses b.model = none →
    b.vars = v :: rest →
    Outcome clauses b (.branch v rest)
  | stuck :
    Undecided clauses b.model →
    b.vars = [] →
    Outcome clauses b .stuck

/-- Clauses that are neither all true nor one of them false are undecided. -/
lemma undecided_of_values
    (htrue : ¬ (clauses.map m.clauseValue?).all (· == some true) = true)
    (hfalse : ¬ (clauses.map m.clauseValue?).any (· == some false) = true) :
    Undecided clauses m := by
  simp only [List.all_map, List.any_map, List.any_eq_true, List.all_eq_true, Function.comp_apply,
    beq_iff_eq, not_forall, not_exists, not_and] at htrue hfalse
  obtain ⟨c, hc, hct⟩ := htrue
  refine ⟨hfalse, c, hc, ?_⟩
  cases hval : m.clauseValue? c with
  | none => rfl
  | some value =>
    cases value with
    | true => exact absurd hval hct
    | false => exact absurd hval (hfalse c hc)

/-- A step has an outcome of which this is known. -/
lemma step_outcome (clauses : List Clause) (b : Branch) :
    Outcome clauses b (step clauses b) := by
  simp only [step]
  split
  · next hall => exact .solved (by simpa using hall)
  · next hall =>
    split
    · next hany =>
      simp only [List.any_map, List.any_eq_true, Function.comp_apply, beq_iff_eq] at hany
      obtain ⟨c, hc, hcf⟩ := hany
      exact .failed hc hcf
    · next hany =>
      have hund := undecided_of_values hall hany
      split
      · next hp => exact .pure hund hp
      · next hp =>
        split
        · next hu => exact .unit hund hp hu
        · next hu =>
          split
          · next hv => exact .stuck hund hv
          · next hv => exact .branch hund hp hu hv

/-- A move is forced because it is the pure move or the unit move. -/
lemma eq_some_of_step_forced {b : Branch} {move : Move} (h : step clauses b = .forced move) :
    pureMove? clauses b.vars b.model = some move ∨ unitMove? clauses b.model = some move := by
  have ho := h ▸ step_outcome clauses b
  cases ho with
  | pure _ hp => exact .inl hp
  | unit _ _ hu => exact .inr hu

/-- The variable that is tried with both values is the first one to decide. -/
lemma vars_eq_of_step_branch {b : Branch} {v : Variable} {rest : List Variable}
    (h : step clauses b = .branch v rest) : b.vars = v :: rest := by
  have ho := h ▸ step_outcome clauses b
  cases ho with
  | branch _ _ _ hvars => exact hvars

end Solver.Search

end Clausal
