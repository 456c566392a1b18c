import Clausal.Proofs.Construction
import Clausal.Proofs.Search.Moves

/-!
# Forced moves

Which move the search follows without an alternative, and why it may. Main statements: the pure move
is made for the first listed variable that occurs with one sign only in the clauses that are not
true, and some solution makes it if there is one (`pureMove?_exact`), and the unit move makes the
last open literal of a clause true, for the first clause that has a last one, and every solution
makes it (`unitMove?_exact`).
-/

namespace Clausal.Solver.Search

/-! ### The pure move -/

/-- A list of variables that the model leaves open is searched for the first that occurs in the
clauses not true under the model without negation only, which is made true. If there is none, the
first that occurs there negated only is made false, and there is no move if there is none of these
either. If some valuation that extends the model satisfies the clauses, then one that makes the move
does. -/
theorem pureMove?_exact (clauses : List Clause) {vs : List Variable} {m : Model}
    (h : ∀ v ∈ vs, m.find? v = none) :
    (∀ v, pureMove? clauses vs m = some ⟨v, true⟩ ↔
      IsFirst (fun w => IsPure clauses m ⟨w, false⟩) vs v) ∧
    (∀ v, pureMove? clauses vs m = some ⟨v, false⟩ ↔
      (∀ w ∈ vs, ¬ IsPure clauses m ⟨w, false⟩) ∧
        IsFirst (fun w => IsPure clauses m ⟨w, true⟩) vs v) ∧
    (pureMove? clauses vs m = none ↔
      ∀ w ∈ vs, ¬ IsPure clauses m ⟨w, false⟩ ∧ ¬ IsPure clauses m ⟨w, true⟩) ∧
    ∀ move, pureMove? clauses vs m = some move →
      (∃ σ, m.ExtendedBy σ ∧ AllHold σ clauses) →
        ∃ σ, m.ExtendedBy σ ∧ σ move.var = move.value ∧ AllHold σ clauses := by
  refine ⟨fun _ => pureMove?_eq_true_iff, fun _ => pureMove?_eq_false_iff, pureMove?_eq_none_iff, ?_⟩
  rintro move hmove ⟨σ, hσ, hall⟩
  have hopen : m.find? move.var = none := h _ (mem_of_pureMove? hmove)
  -- the solution is kept but for the variable of the move
  exact ⟨Function.update σ move.var move.value, hσ.update hopen, Function.update_self _ _ _,
    hall.update_of_pureMove? hmove hopen hσ⟩

/-- Two variables occur in the clauses, the first of them with both signs. -/
def oneSided : List Clause := [.ofInts [-1, 2], .ofInts [1, 3], .ofInts [-2, 4, -4]]

/-- In the example the second variable is made true, because its negation occurs in a tautology only,
although the first one is listed before it and occurs negated only where a clause is not true. -/
theorem pureMove?_exact_oneSided :
    let m : Model := OrderedMap.empty.insert (.ofPlace 2) true
    let vs : List Variable := [.ofPlace 0, .ofPlace 1]
    (∀ v ∈ vs, m.find? v = none) ∧
      pureMove? oneSided vs m = some ⟨.ofPlace 1, true⟩ ∧
      IsFirst (fun w => IsPure oneSided m ⟨w, false⟩) vs (.ofPlace 1) ∧
      ∃ σ, m.ExtendedBy σ ∧ σ (.ofPlace 1) = true ∧ AllHold σ oneSided := by
  intro m vs
  have hopen : ∀ v ∈ vs, m.find? v = none := by decide
  have hmove : pureMove? oneSided vs m = some ⟨.ofPlace 1, true⟩ := by decide
  obtain ⟨htrue, -, -, hsafe⟩ := pureMove?_exact oneSided hopen
  refine ⟨hopen, hmove, (htrue _).mp hmove, hsafe _ hmove ⟨fun _ => true, ?_, ?_⟩⟩
  · exact (Model.extendedBy_empty _).insert_of_eq rfl
  · show ∀ c ∈ oneSided, ∃ l ∈ c.literals, l.Holds fun _ => true
    decide

/-! ### The unit move -/

variable {clauses : List Clause} {m : Model}

/-- The clause is undetermined under the model, and the literal is the only one of it whose variable
is open. -/
def IsUnit (m : Model) (c : Clause) (l : Literal) : Prop :=
  m.clauseValue? c = none ∧ ∀ k, k ∈ c ∧ m.find? k.var = none ↔ k = l

/-- Looks for an open literal in one pass. The mark is the one met before, and meeting another one
ends the pass without a result. -/
def scanOpen (m : Model) (mark : Option Literal) : List Literal → Option Literal
  | [] => mark
  | l :: rest =>
    if (m.find? l.var).isSome then scanOpen m mark rest
    else if mark.isSome then none
    else scanOpen m (some l) rest

/-- A clause has a single open literal exactly if this and no other one is open. -/
lemma openLiterals_eq_singleton_iff {c : Clause} {l : Literal} :
    openLiterals m c = [l] ↔ ∀ k, k ∈ c ∧ m.find? k.var = none ↔ k = l := by
  simp only [← mem_openLiterals]
  constructor
  · intro h k
    rw [h, List.mem_singleton]
  · intro h
    have hperm : (openLiterals m c).Perm [l] := by
      refine (List.perm_ext_iff_of_nodup (c.nodup.filter _) (List.nodup_singleton l)).mpr ?_
      intro k
      rw [List.mem_singleton]
      exact h k
    exact List.perm_singleton.mp hperm

/-- The literal that a clause needs is its only open one. -/
lemma unitLiteral?_eq_some_iff_isUnit {c : Clause} {l : Literal} :
    unitLiteral? m c = some l ↔ IsUnit m c l := by
  rw [unitLiteral?_eq_some_iff, openLiterals_eq_singleton_iff, IsUnit]

/-- A clause needs no literal exactly if it is determined or has not just one open literal. -/
lemma unitLiteral?_eq_none_iff {c : Clause} : unitLiteral? m c = none ↔ ∀ l, ¬ IsUnit m c l := by
  simp only [Option.eq_none_iff_forall_ne_some, ne_eq, unitLiteral?_eq_some_iff_isUnit]

/-- With a literal marked, the pass has it as its result if there are no more open ones. -/
lemma scanOpen_some (k : Literal) (ls : List Literal) :
    scanOpen m (some k) ls =
      if ls.filter (fun l => (m.find? l.var).isNone) = [] then some k else none := by
  induction ls with
  | nil => rfl
  | cons l rest ih =>
    cases hl : m.find? l.var with
    | none => simp [scanOpen, hl]
    | some b => simpa [scanOpen, hl] using ih

/-- One pass finds the open literal of a clause that has one only. -/
lemma scanOpen_eq_some_iff {ls : List Literal} {k : Literal} :
    scanOpen m none ls = some k ↔ ls.filter (fun l => (m.find? l.var).isNone) = [k] := by
  induction ls with
  | nil => simp [scanOpen]
  | cons l rest ih =>
    cases hl : m.find? l.var with
    | none => simp [scanOpen, hl, scanOpen_some, and_comm]
    | some b => simpa [scanOpen, hl] using ih

/-- The literal that a clause needs is found in one pass, unless the clause is determined. -/
lemma unitLiteral?_eq_scanOpen (c : Clause) : unitLiteral? m c =
    if (m.clauseValue? c).isSome then none else scanOpen m none c.literals := by
  ext l
  rw [unitLiteral?_eq_some_iff]
  cases hval : m.clauseValue? c with
  | none => simp [scanOpen_eq_some_iff, openLiterals]
  | some b => simp

/-- There is no unit move exactly if no clause needs a literal. -/
lemma unitMove?_eq_none_iff :
    unitMove? clauses m = none ↔ ∀ c ∈ clauses, ∀ l, ¬ IsUnit m c l := by
  simp only [unitMove?, Option.map_eq_none_iff, List.findSome?_eq_none_iff,
    unitLiteral?_eq_none_iff]

/-- The move makes true what the first clause needs that needs a literal. -/
lemma unitMove?_eq_some_iff {move : Move} : unitMove? clauses m = some move ↔
    ∃ c l, IsFirst (fun d => ∃ k, IsUnit m d k) clauses c ∧ IsUnit m c l ∧
      move = ⟨l.var, l.value⟩ := by
  simp only [unitMove?, Option.map_eq_some_iff, List.findSome?_eq_some_iff,
    unitLiteral?_eq_none_iff, unitLiteral?_eq_some_iff_isUnit, IsFirst, not_exists]
  constructor
  · rintro ⟨l, ⟨l₁, c, l₂, hl, hc, hnone⟩, rfl⟩
    exact ⟨c, l, ⟨l₁, l₂, hl, ⟨l, hc⟩, hnone⟩, hc, rfl⟩
  · rintro ⟨c, l, ⟨l₁, l₂, hl, -, hnone⟩, hc, rfl⟩
    exact ⟨l, ⟨l₁, c, l₂, hl, hc, hnone⟩, rfl⟩

/-- There is a unit move exactly if some undetermined clause has a single open literal, and the move
makes this literal of the first such clause true. The variable of the move is open, and it has the
value of the move in every valuation that extends the model and satisfies the clauses. One pass over
the literals of each undetermined clause is enough to find the move. -/
theorem unitMove?_exact (clauses : List Clause) (m : Model) :
    (unitMove? clauses m = none ↔ ∀ c ∈ clauses, ∀ l, ¬ IsUnit m c l) ∧
    (∀ move, unitMove? clauses m = some move ↔
      ∃ c l, IsFirst (fun d => ∃ k, IsUnit m d k) clauses c ∧ IsUnit m c l ∧
        move = ⟨l.var, l.value⟩) ∧
    (∀ move, unitMove? clauses m = some move → m.find? move.var = none ∧
      ∀ σ, m.ExtendedBy σ → AllHold σ clauses → σ move.var = move.value) ∧
    unitMove? clauses m = (clauses.findSome? fun c =>
      if (m.clauseValue? c).isSome then none else scanOpen m none c.literals).map
        fun l => ⟨l.var, l.value⟩ := by
  refine ⟨unitMove?_eq_none_iff, fun _ => unitMove?_eq_some_iff, ?_, ?_⟩
  · intro move hmove
    exact ⟨(exists_literal_of_unitMove? hmove).1, fun σ hσ hall => eq_of_unitMove? hmove hσ hall⟩
  · simp only [unitMove?, ← unitLiteral?_eq_scanOpen]

/-- Under a model that makes the first variable false, the first clause has two open literals, the
second one is true as a tautology, and the other ones have a single open literal each. -/
def lateUnits : List Clause := [.ofInts [1, 2, 3], .ofInts [2, 1, -2], .ofInts [1, -3], .ofInts [2]]

/-- In the example the unit move is that of the third clause, and all solutions make it. -/
theorem unitMove?_exact_lateUnits :
    let m : Model := OrderedMap.empty.insert (.ofPlace 0) false
    unitMove? lateUnits m = some ⟨.ofPlace 2, false⟩ ∧
      IsUnit m (.ofInts [1, -3]) ⟨.ofPlace 2, true⟩ ∧
      (∃ c l, IsFirst (fun d => ∃ k, IsUnit m d k) lateUnits c ∧ IsUnit m c l ∧
        (⟨.ofPlace 2, false⟩ : Move) = ⟨l.var, l.value⟩) ∧
      ∀ σ, m.ExtendedBy σ → AllHold σ lateUnits → σ (.ofPlace 2) = false := by
  intro m
  have hmove : unitMove? lateUnits m = some ⟨.ofPlace 2, false⟩ := by decide
  have hunit : IsUnit m (.ofInts [1, -3]) ⟨.ofPlace 2, true⟩ :=
    unitLiteral?_eq_some_iff_isUnit.mp (by decide)
  obtain ⟨-, hfirst, hforced, -⟩ := unitMove?_exact lateUnits m
  exact ⟨hmove, hunit, (hfirst _).mp hmove, (hforced _ hmove).2⟩

end Clausal.Solver.Search
