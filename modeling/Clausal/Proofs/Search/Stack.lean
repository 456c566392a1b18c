import Clausal.Proofs.Search.Recursion
import Mathlib.Logic.Relation

/-!
# The stack of the search

The search goes on in rounds, each of which takes the top branch from the stack and puts the parts on
it that a step makes of this branch. The relation `Round` is one round, and `Ends` tells with which
result the search ends instead of a further round. Main statements: a round replaces the top branch
by parts of it that exclude each other and taper from what it had to decide (`WellStacked.replace`,
`Round.wellStacked`), so that at the beginning of every round the pending branches are proper,
exclude each other and taper to the top of the stack, which bounds its height, and no branch is stuck
(`rounds_wellStacked`).
-/

namespace Clausal.Solver.Search

/-! ### Rounds -/

/-- Where the search stands at the beginning of a round: the moves made so far, and the pending
branches, the top one first. -/
structure Progress where
  counts : Counts
  work : List Branch

/-- The search of a formula begins with a single branch, in which all variables are to be decided. -/
def Progress.start (f : Cnf) : Progress := ⟨⟨0, 0⟩, [⟨f.vars, OrderedMap.empty⟩]⟩

/-- A round takes the top branch from the stack. It puts nothing back if some clause is false, the
branch after a forced move if there is one, and otherwise the branches in which the first variable is
true and false. -/
inductive Round (clauses : List Clause) : Progress → Progress → Prop where
  | failed {counts b work} :
    step clauses b = .failed →
    Round clauses ⟨counts, b :: work⟩ ⟨counts, work⟩
  | forced {counts b work move} :
    step clauses b = .forced move →
    Round clauses ⟨counts, b :: work⟩ ⟨counts.add ⟨0, 1⟩, b.follow move :: work⟩
  | branch {counts b work v rest} :
    step clauses b = .branch v rest →
    Round clauses ⟨counts, b :: work⟩
      ⟨counts.add ⟨1, 0⟩, ⟨rest, b.model.insert v true⟩ :: ⟨rest, b.model.insert v false⟩ :: work⟩

/-- The search ends with a result instead of a further round. -/
inductive Ends (clauses : List Clause) : Progress → Except Error (Model × Counts) → Prop where
  | exhausted {counts} :
    Ends clauses ⟨counts, []⟩ (.error (.unsatisfiable .general))
  | solved {counts b work} :
    step clauses b = .solved →
    Ends clauses ⟨counts, b :: work⟩ (.ok (b.model, counts))
  | stuck {counts b work} :
    step clauses b = .stuck →
    Ends clauses ⟨counts, b :: work⟩ (.error .noVariableLeft)

/-- Rounds made one after the other, any number of them. -/
abbrev Rounds (clauses : List Clause) : Progress → Progress → Prop :=
  Relation.ReflTransGen (Round clauses)

/-- The search goes on in rounds until it ends with its result. -/
lemma exists_rounds_ends (clauses : List Clause) (counts : Counts) (work : List Branch) :
    ∃ p, Rounds clauses ⟨counts, work⟩ p ∧ Ends clauses p (run clauses counts work) := by
  fun_induction run clauses counts work with
  | case1 counts => exact ⟨_, .refl, .exhausted⟩
  | case2 counts b work h => exact ⟨_, .refl, .solved h⟩
  | case3 counts b work h ih =>
    obtain ⟨p, hp, hend⟩ := ih
    exact ⟨p, .head (.failed h) hp, hend⟩
  | case4 counts b work move h ih =>
    obtain ⟨p, hp, hend⟩ := ih
    exact ⟨p, .head (.forced h) hp, hend⟩
  | case5 counts b work v rest h ih =>
    obtain ⟨p, hp, hend⟩ := ih
    exact ⟨p, .head (.branch h) hp, hend⟩
  | case6 counts b work h => exact ⟨_, .refl, .stuck h⟩

/-! ### Branches that exclude each other -/

/-- No valuation extends the models of both branches. -/
def Branch.Apart (b c : Branch) : Prop :=
  ∀ σ, b.model.ExtendedBy σ → ¬ c.model.ExtendedBy σ

/-- The two values of a variable exclude each other. -/
lemma Branch.apart_follow (b : Branch) (v : Variable) :
    (b.follow ⟨v, true⟩).Apart (b.follow ⟨v, false⟩) := by
  intro σ htrue hfalse
  have ht : σ v = true := htrue.eq_of_insert
  have hf : σ v = false := hfalse.eq_of_insert
  rw [ht] at hf
  cases hf

/-! ### Stacks that taper -/

/-- A branch with `i` branches below it on the stack has at most `n - i` variables to decide. -/
def Tapered (n : Nat) (work : List Branch) : Prop :=
  ∀ i b, work.reverse[i]? = some b → i + b.vars.length ≤ n

/-- An empty stack tapers. -/
lemma tapered_nil (n : Nat) : Tapered n [] := by
  intro i b h
  cases h

/-- A stack tapers exactly if its top branch has no more to decide than is left for its place, and
the stack below it tapers. -/
lemma tapered_cons_iff {n : Nat} {b : Branch} {work : List Branch} :
    Tapered n (b :: work) ↔ work.length + b.vars.length ≤ n ∧ Tapered n work := by
  constructor
  · intro h
    refine ⟨h _ b (by simp), ?_⟩
    intro i c hc
    have hi : i < work.reverse.length := (List.getElem?_eq_some_iff.mp hc).1
    exact h i c (by rw [List.reverse_cons, List.getElem?_append_left hi, hc])
  · rintro ⟨hb, h⟩ i c hc
    rw [List.reverse_cons, List.getElem?_append, List.length_reverse] at hc
    split at hc
    · exact h i c hc
    · obtain ⟨hi, rfl⟩ := List.getElem?_eq_some_iff.mp hc
      rw [List.length_singleton] at hi
      rw [List.getElem_singleton]
      omega

/-- The top branch can be replaced by branches that taper from what it has to decide. -/
lemma Tapered.replace {n : Nat} {b : Branch} {work parts : List Branch}
    (h : Tapered n (b :: work)) (hparts : Tapered b.vars.length parts) :
    Tapered n (parts ++ work) := by
  obtain ⟨hb, hwork⟩ := tapered_cons_iff.mp h
  induction parts with
  | nil => exact hwork
  | cons c parts ih =>
    obtain ⟨hc, hparts⟩ := tapered_cons_iff.mp hparts
    rw [List.cons_append, tapered_cons_iff, List.length_append]
    exact ⟨by omega, ih hparts⟩

/-- A stack that tapers has no more than `n + 1` branches. -/
lemma Tapered.length_le {n : Nat} {work : List Branch} (h : Tapered n work) :
    work.length ≤ n + 1 := by
  cases work with
  | nil => exact Nat.zero_le _
  | cons b work =>
    have hb := (tapered_cons_iff.mp h).1
    rw [List.length_cons]
    omega

/-! ### The invariant of the stack -/

/-- The pending branches are proper, exclude each other and taper to the top of the stack. -/
structure WellStacked (n : Nat) (work : List Branch) : Prop where
  proper : ∀ b ∈ work, b.Proper n
  apart : work.Pairwise Branch.Apart
  tapered : Tapered n work

/-- The one branch that the search starts with is proper and has `n` variables to decide. -/
lemma wellStacked_start (n : Nat) : WellStacked n [⟨Variable.upTo n, OrderedMap.empty⟩] where
  proper := by simpa using Branch.Proper.start n
  apart := List.pairwise_singleton _ _
  tapered := tapered_cons_iff.mpr ⟨by simp [Variable.upTo], tapered_nil n⟩

/-- The parts of a branch are proper and exclude each other, every valuation of a part is one of the
branch, and they taper from what the branch has to decide. -/
structure Branch.SplitsInto (n : Nat) (b : Branch) (parts : List Branch) : Prop where
  proper : ∀ c ∈ parts, c.Proper n
  extendedBy : ∀ c ∈ parts, ∀ σ, c.model.ExtendedBy σ → b.model.ExtendedBy σ
  apart : parts.Pairwise Branch.Apart
  tapered : Tapered b.vars.length parts

/-- The top branch can be replaced by its parts. -/
lemma WellStacked.replace {n : Nat} {b : Branch} {work parts : List Branch}
    (h : WellStacked n (b :: work)) (hb : b.SplitsInto n parts) :
    WellStacked n (parts ++ work) where
  proper := by
    intro c hc
    rcases List.mem_append.mp hc with hc | hc
    · exact hb.proper c hc
    · exact h.proper c (List.mem_cons_of_mem b hc)
  apart := by
    obtain ⟨hapart, hwork⟩ := List.pairwise_cons.mp h.apart
    refine List.pairwise_append.mpr ⟨hb.apart, hwork, ?_⟩
    -- a valuation of a part is one of the branch that it replaces, so of no branch below
    intro c hc d hd σ hσ
    exact hapart d hd σ (hb.extendedBy c hc σ hσ)
  tapered := h.tapered.replace hb.tapered

/-- Nothing is left of a branch that is given up. -/
lemma Branch.splitsInto_nil (n : Nat) (b : Branch) : b.SplitsInto n [] where
  proper := by simp
  extendedBy := by simp
  apart := .nil
  tapered := tapered_nil _

/-- A branch has one part when a variable is given a value. -/
lemma Branch.Proper.splitsInto_follow {n : Nat} {b : Branch} (hb : b.Proper n) {move : Move}
    (hv : move.var ∈ b.vars) : b.SplitsInto n [b.follow move] where
  proper := by
    obtain ⟨hle, -⟩ := hb.mem_vars_iff.mp hv
    simpa using hb.follow hle
  extendedBy := by
    obtain ⟨-, hopen⟩ := hb.mem_vars_iff.mp hv
    intro c hc σ hσ
    obtain rfl := List.mem_singleton.mp hc
    exact hσ.of_insert hopen
  apart := List.pairwise_singleton _ _
  tapered := by
    have hlt := length_without_lt hv
    refine tapered_cons_iff.mpr ⟨?_, tapered_nil _⟩
    simp only [Branch.follow, List.length_nil]
    omega

/-- A branch has two parts when a variable is tried with both values. -/
lemma Branch.Proper.splitsInto_decide {n : Nat} {b : Branch} (hb : b.Proper n) {v : Variable}
    (hv : v ∈ b.vars) : b.SplitsInto n [b.follow ⟨v, true⟩, b.follow ⟨v, false⟩] where
  proper := by
    obtain ⟨hle, -⟩ := hb.mem_vars_iff.mp hv
    have htrue : (b.follow ⟨v, true⟩).Proper n := hb.follow hle
    have hfalse : (b.follow ⟨v, false⟩).Proper n := hb.follow hle
    simpa using ⟨htrue, hfalse⟩
  extendedBy := by
    obtain ⟨-, hopen⟩ := hb.mem_vars_iff.mp hv
    intro c hc σ hσ
    simp only [List.mem_cons, List.not_mem_nil, or_false] at hc
    rcases hc with rfl | rfl <;> exact hσ.of_insert hopen
  apart := by simpa using b.apart_follow v
  tapered := by
    have hlt := length_without_lt hv
    refine tapered_cons_iff.mpr ⟨?_, tapered_cons_iff.mpr ⟨?_, tapered_nil _⟩⟩
    · simp only [Branch.follow, List.length_singleton]
      omega
    · simp only [Branch.follow, List.length_nil]
      omega

/-! ### The search -/

variable {n : Nat} {clauses : List Clause}

/-- A round keeps the invariant. -/
lemma Round.wellStacked {p q : Progress} (h : Round clauses p q)
    (hc : ∀ c ∈ clauses, ∀ l ∈ c, l.var.index ≤ n) (hp : WellStacked n p.work) :
    WellStacked n q.work := by
  cases h with
  | @failed counts b work h => exact hp.replace (b.splitsInto_nil n)
  | @forced counts b work move h =>
    have hb : b.Proper n := hp.proper b List.mem_cons_self
    have hv : move.var ∈ b.vars := hb.mem_vars_iff.mpr (hb.of_forced hc (eq_some_of_step_forced h))
    exact hp.replace (hb.splitsInto_follow hv)
  | @branch counts b work v rest h =>
    have hb : b.Proper n := hp.proper b List.mem_cons_self
    have hvars := vars_eq_of_step_branch h
    have hv : v ∈ b.vars := hvars ▸ List.mem_cons_self
    rw [← hb.follow_eq hvars true, ← hb.follow_eq hvars false]
    exact hp.replace (hb.splitsInto_decide hv)

/-- Any number of rounds keeps the invariant. -/
lemma WellStacked.rounds {p q : Progress} (hp : WellStacked n p.work)
    (hc : ∀ c ∈ clauses, ∀ l ∈ c, l.var.index ≤ n) (h : Rounds clauses p q) :
    WellStacked n q.work := by
  induction h with
  | refl => exact hp
  | tail _ hround ih => exact hround.wellStacked hc ih

/-- The search of a formula over `n` variables goes on in rounds until it ends with its result. At
the beginning of every round the variables of a pending branch are those from 1 to `n`, in increasing
order, that its model leaves open, and the model assigns no others, no valuation extends the models
of two pending branches, and a branch with `i` branches below it has at most `n - i` variables to
decide, so that there are no more than `n + 1` branches. No pending branch is stuck, and the search
never runs out of variables. -/
theorem rounds_wellStacked {n : Nat} {W : Workspace} (h : W.Built n) :
    (∃ p, Rounds W.toCnf.clauses (.start W.toCnf) p ∧
      Ends W.toCnf.clauses p (run W.toCnf.clauses ⟨0, 0⟩ [⟨W.toCnf.vars, OrderedMap.empty⟩])) ∧
    (∀ p, Rounds W.toCnf.clauses (.start W.toCnf) p →
      WellStacked n p.work ∧ p.work.length ≤ n + 1 ∧
        ∀ b ∈ p.work, step W.toCnf.clauses b ≠ .stuck) ∧
    (solve W.toCnf).result ≠ .error .noVariableLeft := by
  have hn : W.toCnf.numVariables = n := h.coherent.numVariables_eq
  have hc : ∀ c ∈ W.toCnf.clauses, ∀ l ∈ c, l.var.index ≤ n := hn ▸ h.coherent.inRange
  have hstart : WellStacked n (Progress.start W.toCnf).work := hn ▸ wellStacked_start _
  refine ⟨exists_rounds_ends _ _ _, ?_, ?_⟩
  · intro p hp
    have hstack := hstart.rounds hc hp
    refine ⟨hstack, hstack.tapered.length_le, ?_⟩
    intro b hb
    exact (hstack.proper b hb).step_ne_stuck hc
  · rcases solve_eq_of_inRange h.coherent.inRange with ⟨a, k, hsolve, -⟩ | ⟨hsolve, -⟩ <;>
      simp [hsolve, Report.silent]

/-- The first variable of `falseFirst` is true and has been followed by a forced move. Below waits the
branch in which it is false. -/
def falseFirstPending : List Branch :=
  [⟨[.ofPlace 2, .ofPlace 3], .ofList [(.ofPlace 0, true), (.ofPlace 1, true)]⟩,
    ⟨[.ofPlace 1, .ofPlace 2, .ofPlace 3], .ofList [(.ofPlace 0, false)]⟩]

/-- In the example these two branches are pending after a decision and a forced move. -/
theorem rounds_wellStacked_falseFirst :
    falseFirst.Built 4 ∧
      Rounds falseFirst.toCnf.clauses (.start falseFirst.toCnf) ⟨⟨1, 1⟩, falseFirstPending⟩ ∧
      WellStacked 4 falseFirstPending ∧ falseFirstPending.length ≤ 4 + 1 ∧
      ∀ b ∈ falseFirstPending, step falseFirst.toCnf.clauses b ≠ .stuck := by
  have hdecide : step falseFirst.toCnf.clauses ⟨Variable.upTo 4, OrderedMap.empty⟩ =
      .branch (.ofPlace 0) [.ofPlace 1, .ofPlace 2, .ofPlace 3] := by
    with_unfolding_all rfl
  have hforced : step falseFirst.toCnf.clauses
      ⟨[.ofPlace 1, .ofPlace 2, .ofPlace 3], OrderedMap.empty.insert (.ofPlace 0) true⟩ =
      .forced ⟨.ofPlace 1, true⟩ := by
    with_unfolding_all rfl
  have hrounds : Rounds falseFirst.toCnf.clauses (.start falseFirst.toCnf)
      ⟨⟨1, 1⟩, falseFirstPending⟩ :=
    .tail (.single (.branch hdecide)) (.forced hforced)
  exact ⟨built_falseFirst, hrounds, (rounds_wellStacked built_falseFirst).2.1 _ hrounds⟩

end Clausal.Solver.Search
