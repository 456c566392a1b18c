import Clausal.Proofs.Search.Forced
import Clausal.Proofs.Search.Recursion

/-!
# The search and the presentation of its clauses

The search does not depend on the order of the literals in the clauses, and clauses that are
tautologies or that were listed before make no difference to it. The relation `Rephrases` holds of
lists of clauses that differ in nothing else. Main statements: a step takes the same course with
both lists (`Alike.step_eq`), hence a whole run does (`run_congr`), and the search gives the same
answer after the same numbers of moves (`solve_rephrased`).
-/

namespace Clausal

namespace Solver.Search

/-- The second list of clauses comes from the first one when the literals of clauses are reordered,
tautologies are put anywhere into the list, and clauses are repeated after their first occurrence,
one after the other and as often as wanted. -/
inductive Rephrases (cs : List Clause) : List Clause → Prop where
  | refl :
    Rephrases cs cs
  | reorder {l₁ l₂ c d} :
    Rephrases cs (l₁ ++ c :: l₂) →
    c.literals.Perm d.literals →
    Rephrases cs (l₁ ++ d :: l₂)
  | tautology {l₁ l₂ c} :
    Rephrases cs (l₁ ++ l₂) →
    c.isTautology = true →
    Rephrases cs (l₁ ++ c :: l₂)
  | again {l₁ l₂ c} :
    Rephrases cs (l₁ ++ l₂) →
    c ∈ l₁ →
    Rephrases cs (l₁ ++ c :: l₂)

/-! ### Reordered literals -/

/-- Whether a clause is a tautology does not depend on the order of its literals. -/
lemma isTautology_congr {c d : Clause} (h : c.literals.Perm d.literals) :
    c.isTautology = d.isTautology := by
  rw [Bool.eq_iff_iff, Clause.isTautology_iff, Clause.isTautology_iff]
  simp only [← Clause.mem_literals, h.mem_iff]

/-- The value of a clause does not depend on the order of its literals. -/
lemma clauseValue?_congr {c d : Clause} (h : c.literals.Perm d.literals) (m : Model) :
    m.clauseValue? c = m.clauseValue? d := by
  ext b
  cases b with
  | true =>
    rw [Model.clauseValue?_eq_true_iff, Model.clauseValue?_eq_true_iff, isTautology_congr h]
    simp only [← Clause.mem_literals, h.mem_iff]
  | false =>
    rw [Model.clauseValue?_eq_false_iff, Model.clauseValue?_eq_false_iff]
    simp only [← Clause.mem_literals, h.mem_iff]

/-- The literal that a clause needs does not depend on the order of its literals. -/
lemma unitLiteral?_congr {c d : Clause} (h : c.literals.Perm d.literals) (m : Model) :
    unitLiteral? m c = unitLiteral? m d := by
  have hopen : (openLiterals m c).Perm (openLiterals m d) := h.filter _
  ext l
  rw [unitLiteral?_eq_some_iff, unitLiteral?_eq_some_iff, clauseValue?_congr h]
  constructor
  · rintro ⟨hval, hl⟩
    exact ⟨hval, List.perm_singleton.mp (hl ▸ hopen.symm)⟩
  · rintro ⟨hval, hl⟩
    exact ⟨hval, List.perm_singleton.mp (hl ▸ hopen)⟩

/-! ### Lists that the search cannot tell apart -/

/-- Every clause of the first list, tautologies apart, has its literals in one of the second. -/
def Covers (cs ds : List Clause) : Prop :=
  ∀ c ∈ cs, c.isTautology = false → ∃ d ∈ ds, c.literals.Perm d.literals

/-- A list of clauses is covered by every list that has them all. -/
lemma Covers.of_subset {cs ds : List Clause} (h : cs ⊆ ds) : Covers cs ds :=
  fun c hc _ => ⟨c, h hc, .refl _⟩

/-- What covers the clauses that cover others covers these. -/
lemma Covers.trans {cs ds es : List Clause} (h : Covers cs ds) (h' : Covers ds es) :
    Covers cs es := by
  intro c hc htaut
  obtain ⟨d, hd, hcd⟩ := h c hc htaut
  obtain ⟨e, he, hde⟩ := h' d hd (isTautology_congr hcd ▸ htaut)
  exact ⟨e, he, hcd.trans hde⟩

/-- A clause that is not true under a model is no tautology. -/
lemma isTautology_eq_false {c : Clause} {m : Model} (h : m.clauseValue? c ≠ some true) :
    c.isTautology = false := by
  rw [← Bool.not_eq_true]
  exact fun htaut => h (Model.clauseValue?_eq_true_iff.mpr (.inl htaut))

/-- If all covering clauses are true, so are those that they cover. -/
lemma Covers.forall_true {cs ds : List Clause} (h : Covers cs ds) {m : Model}
    (hds : ∀ d ∈ ds, m.clauseValue? d = some true) : ∀ c ∈ cs, m.clauseValue? c = some true := by
  intro c hc
  by_contra hval
  obtain ⟨d, hd, hcd⟩ := h c hc (isTautology_eq_false hval)
  exact hval ((clauseValue?_congr hcd m).trans (hds d hd))

/-- If one of the clauses covered is false, so is one that covers it. -/
lemma Covers.exists_false {cs ds : List Clause} (h : Covers cs ds) {m : Model}
    (hcs : ∃ c ∈ cs, m.clauseValue? c = some false) :
    ∃ d ∈ ds, m.clauseValue? d = some false := by
  obtain ⟨c, hc, hval⟩ := hcs
  have hne : m.clauseValue? c ≠ some true := by simp [hval]
  obtain ⟨d, hd, hcd⟩ := h c hc (isTautology_eq_false hne)
  exact ⟨d, hd, (clauseValue?_congr hcd m).symm.trans hval⟩

/-- A literal of a covered clause that is not true is one of a covering clause that is not true. -/
lemma Covers.occursOpen {cs ds : List Clause} (h : Covers cs ds) {m : Model} {l : Literal}
    (hl : OccursOpen cs m l) : OccursOpen ds m l := by
  obtain ⟨c, hc, hval, hlc⟩ := hl
  obtain ⟨d, hd, hcd⟩ := h c hc (isTautology_eq_false hval)
  exact ⟨d, hd, clauseValue?_congr hcd m ▸ hval, hcd.mem_iff.mp hlc⟩

/-- The two lists have the same clauses up to the order of literals, tautologies and repetitions, and
the first clause that needs a literal needs the same one in both. -/
structure Alike (cs ds : List Clause) : Prop where
  covers : Covers cs ds
  covered : Covers ds cs
  findSome?_eq : ∀ m, ds.findSome? (unitLiteral? m) = cs.findSome? (unitLiteral? m)

/-- A list of clauses is alike to itself. -/
lemma Alike.refl (cs : List Clause) : Alike cs cs where
  covers := .of_subset (List.Subset.refl cs)
  covered := .of_subset (List.Subset.refl cs)
  findSome?_eq := fun _ => rfl

/-- Two lists of clauses are alike if there is one between them that is alike to both. -/
lemma Alike.trans {cs ds es : List Clause} (h : Alike cs ds) (h' : Alike ds es) : Alike cs es where
  covers := h.covers.trans h'.covers
  covered := h'.covered.trans h.covered
  findSome?_eq := fun m => (h'.findSome?_eq m).trans (h.findSome?_eq m)

/-- A list with a clause reordered covers the list as it was. -/
lemma covers_reorder {l₁ l₂ : List Clause} {c d : Clause} (h : c.literals.Perm d.literals) :
    Covers (l₁ ++ c :: l₂) (l₁ ++ d :: l₂) := by
  intro e he _
  simp only [List.mem_append, List.mem_cons] at he ⊢
  rcases he with he | rfl | he
  · exact ⟨e, .inl he, .refl _⟩
  · exact ⟨d, .inr (.inl rfl), h⟩
  · exact ⟨e, .inr (.inr he), .refl _⟩

/-- Reordering a clause leaves a list that is alike. -/
lemma alike_reorder {l₁ l₂ : List Clause} {c d : Clause} (h : c.literals.Perm d.literals) :
    Alike (l₁ ++ c :: l₂) (l₁ ++ d :: l₂) where
  covers := covers_reorder h
  covered := covers_reorder h.symm
  findSome?_eq := by
    intro m
    simp only [List.findSome?_append, List.findSome?_cons, unitLiteral?_congr h]

/-- A tautology makes no difference, since it is true under every model. -/
lemma alike_tautology {l₁ l₂ : List Clause} {c : Clause} (h : c.isTautology = true) :
    Alike (l₁ ++ l₂) (l₁ ++ c :: l₂) where
  covers := .of_subset (by simp)
  covered := by
    intro e he htaut
    simp only [List.mem_append, List.mem_cons] at he
    rcases he with he | rfl | he
    · exact ⟨e, List.mem_append_left _ he, .refl _⟩
    · rw [h] at htaut
      cases htaut
    · exact ⟨e, List.mem_append_right _ he, .refl _⟩
  findSome?_eq := by
    intro m
    -- a tautology is true under every model, so that it needs no literal
    have hc : unitLiteral? m c = none := by
      simp [unitLiteral?, Model.clauseValue?_eq_true_iff.mpr (.inl h)]
    simp only [List.findSome?_append, List.findSome?_cons, hc]

/-- A clause that comes again makes no difference, since its first occurrence goes before it. -/
lemma alike_again {l₁ l₂ : List Clause} {c : Clause} (h : c ∈ l₁) :
    Alike (l₁ ++ l₂) (l₁ ++ c :: l₂) where
  covers := .of_subset (by simp)
  covered := .of_subset (by simp [h])
  findSome?_eq := by
    intro m
    rw [List.findSome?_append, List.findSome?_append, List.findSome?_cons]
    cases hl : l₁.findSome? (unitLiteral? m) with
    | some k => rfl
    | none =>
      -- no clause up to here needs a literal, so the one repeated does not
      rw [List.findSome?_eq_none_iff.mp hl c h]

/-- A list of clauses and one that rephrases it are alike. -/
lemma Rephrases.alike {cs ds : List Clause} (h : Rephrases cs ds) : Alike cs ds := by
  induction h with
  | refl => exact .refl cs
  | reorder _ hperm ih => exact ih.trans (alike_reorder hperm)
  | tautology _ htaut ih => exact ih.trans (alike_tautology htaut)
  | again _ hmem ih => exact ih.trans (alike_again hmem)

/-! ### Steps and runs -/

/-- The pure move is the same for lists of clauses that are alike. -/
lemma Alike.pureMove?_eq {cs ds : List Clause} (h : Alike cs ds) (vs : List Variable) (m : Model) :
    pureMove? ds vs m = pureMove? cs vs m := by
  have hocc : ∀ l, OccursOpen ds m l ↔ OccursOpen cs m l := fun l =>
    ⟨h.covered.occursOpen, h.covers.occursOpen⟩
  have hpos : occursPositively (openClauses ds m) = occursPositively (openClauses cs m) := by
    funext v
    rw [Bool.eq_iff_iff, occursPositively_openClauses_iff, occursPositively_openClauses_iff, hocc]
  have hneg : occursNegatively (openClauses ds m) = occursNegatively (openClauses cs m) := by
    funext v
    rw [Bool.eq_iff_iff, occursNegatively_openClauses_iff, occursNegatively_openClauses_iff, hocc]
  simp only [pureMove?, hpos, hneg]

/-- A step of the search is the same for lists of clauses that are alike. -/
lemma Alike.step_eq {cs ds : List Clause} (h : Alike cs ds) (b : Branch) :
    step ds b = step cs b := by
  have htrue : (∀ d ∈ ds, b.model.clauseValue? d = some true) ↔
      ∀ c ∈ cs, b.model.clauseValue? c = some true :=
    ⟨h.covers.forall_true, h.covered.forall_true⟩
  have hfalse : (∃ d ∈ ds, b.model.clauseValue? d = some false) ↔
      ∃ c ∈ cs, b.model.clauseValue? c = some false :=
    ⟨h.covered.exists_false, h.covers.exists_false⟩
  have hmove : move? ds b = move? cs b := by
    simp only [move?, h.pureMove?_eq, unitMove?, h.findSome?_eq]
  rw [Search.step_eq, Search.step_eq]
  simp only [htrue, hfalse, hmove]

/-- With lists of clauses between which no step makes a difference, a run has the same end. -/
lemma run_congr {cs ds : List Clause} (h : ∀ b, step ds b = step cs b) (counts : Counts)
    (work : List Branch) : run ds counts work = run cs counts work := by
  fun_induction run cs counts work with
  | case1 counts => rw [run]
  | case2 counts b work hstep => rw [run_cons, h, hstep]
  | case3 counts b work hstep ih => rw [run_cons, h, hstep]; exact ih
  | case4 counts b work move hstep ih => rw [run_cons, h, hstep]; exact ih
  | case5 counts b work v rest hstep ih => rw [run_cons, h, hstep]; exact ih
  | case6 counts b work hstep => rw [run_cons, h, hstep]

/-- The search does not tell formulas apart that have the same variables and clauses that are alike. -/
lemma solve_eq_of_alike {f g : Cnf} (hn : g.numVariables = f.numVariables)
    (h : Alike f.clauses g.clauses) : solve g = solve f := by
  simp only [solve, Cnf.vars, hn, run_congr h.step_eq]

/-- The search gives the same answer for a formula and for one that rephrases it, with the same
numbers of decisions and of forced moves if a solution is found, and with the same solution. -/
theorem solve_rephrased {n : Nat} {W W' : Workspace} (h : W.Built n) (h' : W'.Built n)
    (hr : Rephrases W.toCnf.clauses W'.toCnf.clauses) :
    (∃ a, ∃ k : Counts, solve W.toCnf = ⟨[.modelFound k.decisions k.forced], .ok a⟩ ∧
      solve W'.toCnf = ⟨[.modelFound k.decisions k.forced], .ok a⟩) ∨
    (solve W.toCnf = .silent (.error (.unsatisfiable .general)) ∧
      solve W'.toCnf = .silent (.error (.unsatisfiable .general))) := by
  have hn : W.toCnf.numVariables = n := h.coherent.numVariables_eq
  have hn' : W'.toCnf.numVariables = n := h'.coherent.numVariables_eq
  have heq : solve W'.toCnf = solve W.toCnf := solve_eq_of_alike (hn'.trans hn.symm) hr.alike
  rcases solve_eq_of_inRange h.coherent.inRange with ⟨a, k, hsolve, -⟩ | ⟨hsolve, -⟩
  · exact .inl ⟨a, k, hsolve, heq.trans hsolve⟩
  · exact .inr ⟨hsolve, heq.trans hsolve⟩

/-- The clauses of `falseFirst` with some of their literals reordered, a clause repeated, and two
tautologies. -/
def falseFirstRephrased : Workspace where
  arena := ⟨#[.ofInts [4, -4], .ofInts [2, -1], .ofInts [-1, -2], .ofInts [1, 3],
    .ofInts [-3, 3, -1], .ofInts [2, 1, -3]]⟩
  formula := {
    numVariables := 4
    refs := [0, 1, 2, 3, 1, 4, 5]
    queue := []
    register := [(.ofPlace 3, 0), (.ofPlace 0, 1), (.ofPlace 0, 2), (.ofPlace 1, 2), (.ofPlace 0, 1),
      (.ofPlace 2, 4), (.ofPlace 0, 4), (.ofPlace 2, 5)] }

/-- The example was built by adding its clauses, one of them twice. -/
lemma built_falseFirstRephrased : falseFirstRephrased.Built 4 := by
  have h := Workspace.Prepared.start (n := 4) falseFirstRephrased.arena
  have h := h.add (r := 0) (by decide) rfl
  have h := h.add (r := 1) (by decide) rfl
  have h := h.add (r := 2) (by decide) rfl
  have h := h.add (r := 3) (by decide) rfl
  have h := h.add (r := 1) (by decide) rfl
  have h := h.add (r := 4) (by decide) rfl
  exact h.add (r := 5) (by decide) rfl

/-- The second formula comes from the first one by reordering, repeating and adding tautologies. -/
lemma rephrases_falseFirst :
    Rephrases falseFirst.toCnf.clauses falseFirstRephrased.toCnf.clauses := by
  have h := @Rephrases.reorder _ [] [.ofInts [-1, -2], .ofInts [1, 3], .ofInts [1, -3, 2]]
    (.ofInts [-1, 2]) (.ofInts [2, -1]) .refl (by decide)
  have h := @Rephrases.reorder _ [.ofInts [2, -1], .ofInts [-1, -2], .ofInts [1, 3]] []
    (.ofInts [1, -3, 2]) (.ofInts [2, 1, -3]) h (by decide)
  have h := @Rephrases.again _ [.ofInts [2, -1], .ofInts [-1, -2], .ofInts [1, 3]]
    [.ofInts [2, 1, -3]] (.ofInts [2, -1]) h (by decide)
  have h := @Rephrases.tautology _ [.ofInts [2, -1], .ofInts [-1, -2], .ofInts [1, 3],
    .ofInts [2, -1]] [.ofInts [2, 1, -3]] (.ofInts [-3, 3, -1]) h (by decide)
  exact @Rephrases.tautology _ [] [.ofInts [2, -1], .ofInts [-1, -2], .ofInts [1, 3],
    .ofInts [2, -1], .ofInts [-3, 3, -1], .ofInts [2, 1, -3]] (.ofInts [4, -4]) h (by decide)

/-- In the example both searches make one decision and three forced moves. -/
theorem solve_rephrased_falseFirst :
    falseFirst.Built 4 ∧ falseFirstRephrased.Built 4 ∧
      Rephrases falseFirst.toCnf.clauses falseFirstRephrased.toCnf.clauses ∧
      solve falseFirstRephrased.toCnf = ⟨[.modelFound 1 3], .ok [false, true, true, false]⟩ := by
  refine ⟨built_falseFirst, built_falseFirstRephrased, rephrases_falseFirst, ?_⟩
  have hsolve : solve falseFirst.toCnf = ⟨[.modelFound 1 3], .ok [false, true, true, false]⟩ := by
    with_unfolding_all rfl
  rcases solve_rephrased built_falseFirst built_falseFirstRephrased rephrases_falseFirst with
    ⟨a, k, hfound, hfound'⟩ | ⟨hnone, -⟩
  · rw [hfound', ← hfound, hsolve]
  · rw [hsolve] at hnone
    cases hnone

end Solver.Search

end Clausal
