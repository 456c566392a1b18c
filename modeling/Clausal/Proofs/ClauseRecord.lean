import Clausal.ClauseRecord
import Mathlib.Data.List.Nodup
import Mathlib.Tactic.Lemma

/-!
# Clause records stay exact

A record is exact if its two sets are those of the variables that occur in its clause without and
with negation, and if the answer that it remembers is right. Main statements: adding and removing a
literal and asking for a tautology keep a record exact (`Exact.call`), and any such calls give the
answers and leave the literals that an ordered set of literals would (`callAll_exact`).
-/

namespace Clausal

/-- The variables of the literals with one sign are listed once each. -/
lemma Clause.nodup_map_var (c : Clause) (b : Bool) :
    ((c.literals.filter (·.negated = b)).map (·.var)).Nodup := by
  apply List.Nodup.map_on _ (c.nodup.filter _)
  rintro ⟨v, x⟩ hv ⟨w, y⟩ hw rfl
  simp only [List.mem_filter, decide_eq_true_eq] at hv hw
  rw [hv.2, hw.2]

/-- Looking for the complement of each literal in turn tells whether a clause is a tautology. -/
lemma Clause.isTautology_eq_any (c : Clause) :
    c.isTautology = c.literals.any fun l => decide (l.complement ∈ c.literals) := by
  rw [Bool.eq_iff_iff, isTautology_iff]
  simp only [List.any_eq_true, decide_eq_true_eq, mem_literals]
  constructor
  · rintro ⟨v, hpos, hneg⟩
    exact ⟨_, hpos, hneg⟩
  · rintro ⟨⟨v, b⟩, hl, hc⟩
    cases b with
    | false => exact ⟨v, hl, hc⟩
    | true => exact ⟨v, hc, hl⟩

namespace ClauseRecord

/-- The set of the variables that occur with or without negation. -/
def side (r : ClauseRecord) (negated : Bool) : List Variable :=
  if negated then r.negativeVars else r.positiveVars

/-- The sets have the variables of the literals with their sign, each of them once, and the answer
remembered is whether the clause is a tautology. -/
structure Exact (r : ClauseRecord) : Prop where
  nodup_side : ∀ b, (r.side b).Nodup
  mem_side_iff : ∀ b v, v ∈ r.side b ↔ ⟨v, b⟩ ∈ r.toClause
  remembered_eq : ∀ b, r.remembered = some b → r.toClause.isTautology = b

/-- The positive variables of an exact record are those of its literals without negation. -/
lemma Exact.mem_positiveVars {r : ClauseRecord} (h : r.Exact) {v : Variable} :
    v ∈ r.positiveVars ↔ ⟨v, false⟩ ∈ r.toClause := h.mem_side_iff false v

/-- The negative variables of an exact record are those of its negated literals. -/
lemma Exact.mem_negativeVars {r : ClauseRecord} (h : r.Exact) {v : Variable} :
    v ∈ r.negativeVars ↔ ⟨v, true⟩ ∈ r.toClause := h.mem_side_iff true v

/-- The record of the empty clause is exact. -/
lemma Exact.empty : Exact empty where
  nodup_side := by
    intro b
    cases b <;> exact List.nodup_nil
  mem_side_iff := by
    intro b v
    cases b <;> simp [side, ClauseRecord.empty, Clause.empty, ← Clause.mem_literals]
  remembered_eq := by
    intro b h
    cases h

/-! ### One call -/

/-- Adding a literal to a record inserts it into the clause. -/
lemma toClause_add (r : ClauseRecord) (l : Literal) :
    (r.add l).toClause = r.toClause.insert l := by
  unfold add
  split
  · next h => simp [Clause.insert, h]
  · split <;> rfl

/-- Adding a new literal puts its variable into the set of its sign only. -/
lemma side_add {r : ClauseRecord} {l : Literal} (h : l ∉ r.toClause) (b : Bool) :
    (r.add l).side b = if b = l.negated then (r.side b).insert l.var else r.side b := by
  obtain ⟨v, x⟩ := l
  cases x <;> cases b <;> simp [add, h, side]

/-- A new literal makes a record forget the answer. -/
lemma remembered_add {r : ClauseRecord} {l : Literal} (h : l ∉ r.toClause) :
    (r.add l).remembered = none := by
  simp only [add, if_neg h]
  split <;> rfl

/-- Adding a literal keeps a record exact, whether it is new or not. -/
lemma Exact.add {r : ClauseRecord} (h : r.Exact) (l : Literal) : (r.add l).Exact := by
  by_cases hl : l ∈ r.toClause
  · simpa only [ClauseRecord.add, if_pos hl] using h
  exact {
    nodup_side := by
      intro b
      rw [side_add hl]
      split
      · exact (h.nodup_side b).insert
      · exact h.nodup_side b
    mem_side_iff := by
      intro b v
      rw [side_add hl, toClause_add, Clause.mem_insert, ← h.mem_side_iff]
      split
      · next hb =>
        subst hb
        rw [List.mem_insert_iff, or_comm]
        cases l
        simp
      · next hb =>
        have hne : (⟨v, b⟩ : Literal) ≠ l := by
          rintro rfl
          exact hb rfl
        simp [hne]
    remembered_eq := by
      intro b hb
      rw [remembered_add hl] at hb
      cases hb }

/-- Removing a literal from a record erases it from the clause. -/
lemma toClause_remove (r : ClauseRecord) (l : Literal) :
    (r.remove l).1.toClause = r.toClause.erase l := by
  unfold remove
  split
  · next h => exact (Clause.ext_literals (List.erase_of_not_mem h)).symm
  · split <;> rfl

/-- The answer to a removal is whether the literal was there. -/
lemma remove_snd (r : ClauseRecord) (l : Literal) : (r.remove l).2 = decide (l ∈ r.toClause) := by
  unfold remove
  split
  · next h => simp [h]
  · next h => split <;> simp [not_not.mp h]

/-- Removing a literal that is there takes its variable out of the set of its sign only. -/
lemma side_remove {r : ClauseRecord} {l : Literal} (h : l ∈ r.toClause) (b : Bool) :
    (r.remove l).1.side b = if b = l.negated then (r.side b).erase l.var else r.side b := by
  obtain ⟨v, x⟩ := l
  cases x <;> cases b <;> simp [remove, h, side]

/-- Losing a literal makes a record forget the answer. -/
lemma remembered_remove {r : ClauseRecord} {l : Literal} (h : l ∈ r.toClause) :
    (r.remove l).1.remembered = none := by
  simp only [remove, if_neg (not_not_intro h)]
  split <;> rfl

/-- Removing a literal keeps a record exact, whether it is there or not. -/
lemma Exact.remove {r : ClauseRecord} (h : r.Exact) (l : Literal) : (r.remove l).1.Exact := by
  by_cases hl : l ∈ r.toClause
  · exact {
      nodup_side := by
        intro b
        rw [side_remove hl]
        split
        · exact (h.nodup_side b).erase _
        · exact h.nodup_side b
      mem_side_iff := by
        intro b v
        rw [side_remove hl, toClause_remove, Clause.mem_erase, ← h.mem_side_iff]
        split
        · next hb =>
          subst hb
          rw [(h.nodup_side _).mem_erase_iff, and_comm]
          cases l
          simp
        · next hb =>
          have hne : (⟨v, b⟩ : Literal) ≠ l := by
            rintro rfl
            exact hb rfl
          simp [hne]
      remembered_eq := by
        intro b hb
        rw [remembered_remove hl] at hb
        cases hb }
  · simpa only [ClauseRecord.remove, if_pos hl] using h

/-- Asking whether a record is a tautology does not change its clause. -/
lemma toClause_askTautology (r : ClauseRecord) : r.askTautology.1.toClause = r.toClause := by
  unfold askTautology
  split <;> rfl

/-- An exact record answers right, whether it remembers the answer or finds it from its sets. -/
lemma Exact.askTautology_snd {r : ClauseRecord} (h : r.Exact) :
    r.askTautology.2 = r.toClause.isTautology := by
  unfold ClauseRecord.askTautology
  split
  · next b hb => exact (h.remembered_eq b hb).symm
  · rw [Bool.eq_iff_iff, Clause.isTautology_iff]
    simp [h.mem_positiveVars, h.mem_negativeVars]

/-- The answer that a record comes to remember when it is asked is right. -/
lemma Exact.askTautology {r : ClauseRecord} (h : r.Exact) : r.askTautology.1.Exact := by
  have hans := h.askTautology_snd
  unfold ClauseRecord.askTautology at hans ⊢
  split at hans
  · exact h
  · exact {
      nodup_side := h.nodup_side
      mem_side_iff := h.mem_side_iff
      remembered_eq := by
        intro b hb
        rw [← hans]
        exact Option.some.inj hb }

/-- The set of positive variables is as large as there are positive literals. -/
lemma Exact.positiveCount_eq {r : ClauseRecord} (h : r.Exact) :
    r.positiveCount = (r.literals.filter (!·.negated)).length := by
  have hperm : r.positiveVars.Perm ((r.literals.filter (·.negated = false)).map (·.var)) := by
    refine (List.perm_ext_iff_of_nodup (h.nodup_side false) (r.nodup_map_var false)).mpr ?_
    intro v
    rw [side, if_neg Bool.false_ne_true, h.mem_positiveVars, ← Clause.mem_positives]
    simp [Clause.positives]
  rw [positiveCount, hperm.length_eq, List.length_map]
  simp

/-! ### Sequences of calls -/

/-- What a caller does with a record. -/
inductive Call where
  | add (l : Literal)
  | remove (l : Literal)
  | askTautology
  deriving DecidableEq

/-- Performs a call. Adding a literal has no answer. -/
def call (r : ClauseRecord) : Call → ClauseRecord × Option Bool
  | .add l => (r.add l, none)
  | .remove l => ((r.remove l).1, some (r.remove l).2)
  | .askTautology => (r.askTautology.1, some r.askTautology.2)

/-- Performs one call after the other, and lists the answers. -/
def callAll (r : ClauseRecord) : List Call → ClauseRecord × List (Option Bool)
  | [] => (r, [])
  | c :: rest => (((r.call c).1.callAll rest).1, (r.call c).2 :: ((r.call c).1.callAll rest).2)

/-- What a call does to an ordered set of literals, which is nothing but the list of its elements,
and the answer that is right for this list: a new literal comes to the end, a literal removed leaves
the others in their order, and a tautology has some literal together with its complement. -/
def Call.onList (s : List Literal) : Call → List Literal × Option Bool
  | .add l => (if l ∈ s then s else s ++ [l], none)
  | .remove l => (s.filter (· ≠ l), some (decide (l ∈ s)))
  | .askTautology => (s, some (s.any fun l => decide (l.complement ∈ s)))

/-- What calls do to an ordered set of literals, one after the other, and the right answers. -/
def Call.allOnList (s : List Literal) : List Call → List Literal × List (Option Bool)
  | [] => (s, [])
  | c :: rest =>
    ((allOnList (c.onList s).1 rest).1, (c.onList s).2 :: (allOnList (c.onList s).1 rest).2)

/-- A new literal comes to the end of the literals of a record. -/
lemma literals_add (r : ClauseRecord) (l : Literal) :
    (r.add l).literals = if l ∈ r.literals then r.literals else r.literals ++ [l] := by
  rw [toClause_add, Clause.insert]
  simp only [← Clause.mem_literals]
  split <;> rfl

/-- A literal removed leaves the others of a record in their order. -/
lemma literals_remove (r : ClauseRecord) (l : Literal) :
    (r.remove l).1.literals = r.literals.filter (· ≠ l) := by
  rw [toClause_remove]
  show r.literals.erase l = r.literals.filter (· ≠ l)
  rw [List.Nodup.erase_eq_filter r.nodup]
  apply List.filter_congr
  intro m _
  by_cases hm : m = l <;> simp [hm]

/-- A call keeps a record exact, leaves the literals that it leaves of an ordered set, and gets the
right answer. -/
lemma Exact.call {r : ClauseRecord} (h : r.Exact) (c : Call) :
    (r.call c).1.Exact ∧ (r.call c).1.literals = (c.onList r.literals).1 ∧
      (r.call c).2 = (c.onList r.literals).2 := by
  cases c with
  | add l => exact ⟨h.add l, literals_add r l, rfl⟩
  | remove l =>
    refine ⟨h.remove l, literals_remove r l, ?_⟩
    simp only [ClauseRecord.call, Call.onList, remove_snd, Clause.mem_literals]
  | askTautology =>
    refine ⟨h.askTautology, ?_, ?_⟩
    · simp only [ClauseRecord.call, Call.onList, toClause_askTautology]
    · simp only [ClauseRecord.call, Call.onList, h.askTautology_snd, Clause.isTautology_eq_any]

/-- Any calls keep a record exact, leave the literals that they leave of an ordered set, and get the
right answers. -/
lemma Exact.callAll {r : ClauseRecord} (h : r.Exact) (calls : List Call) :
    (r.callAll calls).1.Exact ∧ (r.callAll calls).1.literals = (Call.allOnList r.literals calls).1 ∧
      (r.callAll calls).2 = (Call.allOnList r.literals calls).2 := by
  induction calls generalizing r with
  | nil => exact ⟨h, rfl, rfl⟩
  | cons c rest ih =>
    obtain ⟨hc, hlits, hans⟩ := h.call c
    obtain ⟨hrest, hlits', hans'⟩ := ih hc
    simp only [ClauseRecord.callAll, Call.allOnList, ← hlits, ← hans]
    exact ⟨hrest, hlits', congrArg _ hans'⟩

/-- A record of a list of literals is what adding them to the empty record comes to. -/
lemma ofList_eq (ls : List Literal) : ofList ls = (ClauseRecord.empty.callAll (ls.map .add)).1 := by
  have main : ∀ r, ls.foldl ClauseRecord.add r = (r.callAll (ls.map .add)).1 := by
    induction ls with
    | nil => exact fun _ => rfl
    | cons l rest ih => exact fun r => ih (r.add l)
  exact main ClauseRecord.empty

/-- A record made of any list of literals is exact. -/
lemma Exact.ofList (ls : List Literal) : (ofList ls).Exact := by
  rw [ofList_eq]
  exact (Exact.empty.callAll _).1

/-- Whatever literals a record is made of and whatever calls follow, it has the literals of an
ordered set, the calls got the answers that are right for this set, the two sets of variables and
the count are those of its literals, and the next answer is right as well. A literal that is removed
and added again comes to the end. -/
theorem callAll_exact (ls : List Literal) (calls : List Call) :
    let r := ((ofList ls).callAll calls).1
    let s := Call.allOnList (Call.allOnList [] (ls.map .add)).1 calls
    (r.literals = s.1 ∧ ((ofList ls).callAll calls).2 = s.2) ∧
    (∀ l, ((r.remove l).1.add l).literals = s.1.filter (· ≠ l) ++ [l]) ∧
    (∀ v, (v ∈ r.positiveVars ↔ ⟨v, false⟩ ∈ s.1) ∧ (v ∈ r.negativeVars ↔ ⟨v, true⟩ ∈ s.1)) ∧
    r.positiveCount = (s.1.filter (!·.negated)).length ∧
    (r.askTautology.2 = true ↔ ∃ v, (⟨v, false⟩ : Literal) ∈ s.1 ∧ ⟨v, true⟩ ∈ s.1) := by
  intro r s
  have hstart : (ofList ls).literals = (Call.allOnList [] (ls.map .add)).1 := by
    rw [ofList_eq]
    exact (Exact.empty.callAll _).2.1
  obtain ⟨hr, hlits, hans⟩ := (Exact.ofList ls).callAll calls
  rw [hstart] at hlits hans
  refine ⟨⟨hlits, hans⟩, ?_, ?_, ?_, ?_⟩
  · intro l
    rw [literals_add, literals_remove, ← hlits, if_neg]
    simp
  · intro v
    rw [← hlits]
    exact ⟨hr.mem_positiveVars, hr.mem_negativeVars⟩
  · rw [← hlits]
    exact hr.positiveCount_eq
  · rw [← hlits, hr.askTautology_snd]
    exact Clause.isTautology_iff

/-- An answer is forgotten when the complement comes in, and again when it goes. -/
example : ((ofList [⟨.ofPlace 0, false⟩]).callAll [.askTautology, .add ⟨.ofPlace 0, true⟩,
    .askTautology, .remove ⟨.ofPlace 0, true⟩, .askTautology]).2 =
      [some false, none, some true, some true, some false] := by
  rfl

end ClauseRecord

end Clausal
