import Clausal.Formula
import Clausal.Proofs.Evaluation

/-!
# Checking an assignment and evaluating the clauses

An assignment is checked by going through the literals of each clause. The search evaluates the
clauses under a model instead, and a record finds the value from its two sets and from what it
remembers. Main statement: an assignment passes the check exactly if all clauses are true under its
model, whatever was done with the clauses before, and neither way changes the formula
(`Ledger.check_eq_values`).
-/

namespace Clausal

/-- Inserting values of a function at listed keys gives these keys their values, and leaves the
others as they were. -/
lemma OrderedMap.find?_foldl_insert {α β : Type} [DecidableEq α] (σ : α → β) (ks : List α)
    (m : OrderedMap α β) (k : α) :
    ((ks.map fun k => (k, σ k)).foldl (fun m e => m.insert e.1 e.2) m).find? k =
      if k ∈ ks then some (σ k) else m.find? k := by
  induction ks generalizing m with
  | nil => rfl
  | cons k' rest ih =>
    simp only [List.map_cons, List.foldl_cons, ih, find?_insert, List.mem_cons]
    by_cases hrest : k ∈ rest
    · simp [hrest]
    · by_cases hk : k = k'
      · simp [hk]
      · simp [hrest, hk]

/-- The model that gives each variable from 1 to `n` its value, and no other variable any. -/
def Assignment.model (n : Nat) (a : Assignment) : Model :=
  .ofList ((Variable.upTo n).map fun v => (v, a.valuation v))

/-- The model of an assignment has a value exactly for the variables up to `n`, that of the
assignment. -/
lemma Assignment.find?_model (n : Nat) (a : Assignment) (v : Variable) :
    (a.model n).find? v = if v.index ≤ n then some (a.valuation v) else none := by
  rw [model, OrderedMap.ofList, OrderedMap.find?_foldl_insert]
  simp only [Variable.mem_upTo, OrderedMap.find?_empty]

/-- The valuation of an assignment extends the model of the assignment. -/
lemma Assignment.extendedBy_model (n : Nat) (a : Assignment) :
    (a.model n).ExtendedBy a.valuation := by
  intro v b hv
  rw [find?_model] at hv
  split at hv
  · exact Option.some.inj hv
  · cases hv

/-- Under a model that assigns all its variables, a clause is true exactly if the valuations that
extend the model make it true. -/
lemma Model.ExtendedBy.clauseValue?_eq_true_iff {m : Model} {σ : Valuation} {c : Clause}
    (h : m.ExtendedBy σ) (hall : ∀ l ∈ c, m.find? l.var ≠ none) :
    m.clauseValue? c = some true ↔ c.Holds σ := by
  constructor
  · exact h.holds_of_true
  · intro hc
    cases hv : m.clauseValue? c with
    | none =>
      obtain ⟨-, -, l, hl, hopen⟩ := Model.clauseValue?_eq_none_iff.mp hv
      exact absurd hopen (hall l hl)
    | some b =>
      cases b with
      | true => rfl
      | false => exact absurd hc (h.not_holds_of_false hv)

namespace Cnf

variable {f : Cnf} {a a' : Assignment}

/-- An assignment passes the check exactly if all clauses are true under its model. -/
lemma check_eq_clauseValues (hf : f.InRange) (ha : f.numVariables ≤ a.length) :
    ∃ b, f.check a = .ok b ∧
      (b = true ↔ ∀ c ∈ f.clauses, (a.model f.numVariables).clauseValue? c = some true) := by
  obtain ⟨b, hb, hiff⟩ := check_eq_ok hf ha
  refine ⟨b, hb, hiff.trans (forall₂_congr fun c hc => ?_)⟩
  apply ((a.extendedBy_model _).clauseValue?_eq_true_iff _).symm
  intro l hl
  rw [Assignment.find?_model, if_pos (hf c hc l hl)]
  exact Option.some_ne_none _

/-- The check does not look beyond the variables of the formula. -/
lemma check_congr (hf : f.InRange) (ha : f.numVariables ≤ a.length)
    (ha' : f.numVariables ≤ a'.length) (h : ∀ i < f.numVariables, a'[i]? = a[i]?) :
    f.check a' = f.check a := by
  have hσ : f.Holds a'.valuation ↔ f.Holds a.valuation := by
    apply holds_congr hf
    intro v hv
    rw [Assignment.valuation, Assignment.valuation, h v.place (Variable.place_lt hv)]
  obtain ⟨b, hb, hiff⟩ := check_eq_ok hf ha
  obtain ⟨b', hb', hiff'⟩ := check_eq_ok hf ha'
  rw [hb, hb', Except.ok.injEq, Bool.eq_iff_iff, hiff, hiff', hσ]

end Cnf

/-! ### Records that are evaluated -/

namespace ClauseRecord

/-- What callers come to have who make a record of literals, add and remove literals, ask whether it
is a tautology, and evaluate it. -/
inductive Handled : ClauseRecord → Prop where
  | make (ls) :
    Handled (.ofList ls)
  | call {r} (c) :
    Handled r →
    Handled (r.call c).1
  | value {r} (m : Model) :
    Handled r →
    Handled (m.recordValue? r).1

/-- What callers have after any calls is again a record that they come to have. -/
lemma Handled.callAll {r : ClauseRecord} (h : r.Handled) (calls : List Call) :
    (r.callAll calls).1.Handled := by
  induction calls generalizing r with
  | nil => exact h
  | cons c rest ih => exact ih (h.call c)

/-- Evaluating a record does no more to it than asking whether it is a tautology. -/
lemma recordValue?_fst (m : Model) (r : ClauseRecord) :
    (m.recordValue? r).1 = if r.literals.isEmpty then r else r.askTautology.1 := by
  unfold Model.recordValue?
  split
  · rfl
  split
  · next r' h => rw [h]
  · next r' h =>
    rw [h]
    split
    · rfl
    · split <;> rfl

/-- Evaluating a record does not change its clause. -/
lemma toClause_recordValue? (m : Model) (r : ClauseRecord) :
    (m.recordValue? r).1.toClause = r.toClause := by
  rw [recordValue?_fst]
  split
  · rfl
  · exact toClause_askTautology r

/-- The records that callers come to have are exact, evaluated or not. -/
lemma Handled.exact {r : ClauseRecord} (h : r.Handled) : r.Exact := by
  induction h with
  | make ls => exact .ofList ls
  | call c _ ih => exact (ih.call c).1
  | value m _ ih =>
    rw [recordValue?_fst]
    split
    · exact ih
    · exact ih.askTautology

end ClauseRecord

/-- A formula together with the records of the clauses that it refers to. -/
structure Ledger where
  records : List ClauseRecord
  formula : Formula

namespace Ledger

/-- The record at a reference; where there is none, that of the empty clause. -/
def get (L : Ledger) (r : ClauseRef) : ClauseRecord := L.records[r]?.getD .empty

/-- The formula with its clauses, without what the records keep beside the literals. -/
def workspace (L : Ledger) : Workspace := ⟨⟨(L.records.map (·.toClause)).toArray⟩, L.formula⟩

/-- Evaluates the clause at a reference. The record may remember something new. -/
def value (L : Ledger) (m : Model) (r : ClauseRef) : Ledger × Option Bool :=
  let (record, x) := m.recordValue? (L.get r)
  (⟨L.records.modify r fun _ => record, L.formula⟩, x)

/-- Evaluates clauses one after the other. -/
def valuesAt (L : Ledger) (m : Model) : List ClauseRef → Ledger × List (Option Bool)
  | [] => (L, [])
  | r :: rest =>
    let (L', x) := L.value m r
    let (L'', xs) := L'.valuesAt m rest
    (L'', x :: xs)

/-- Evaluates all clauses of the formula. -/
def values (L : Ledger) (m : Model) : Ledger × List (Option Bool) := L.valuesAt m L.formula.refs

/-- All records are such as callers come to have. -/
def Handled (L : Ledger) : Prop := ∀ record ∈ L.records, record.Handled

variable {L : Ledger} {m : Model}

/-- The clause at a reference is that of the record there. -/
lemma get_workspace (L : Ledger) (r : ClauseRef) : L.workspace.arena.get r = (L.get r).toClause := by
  simp only [workspace, Arena.get, get, List.getElem?_toArray, List.getElem?_map]
  cases L.records[r]? <;> rfl

/-- The record at any reference is one that callers come to have, that of the empty clause
included. -/
lemma Handled.get (h : L.Handled) (r : ClauseRef) : (L.get r).Handled := by
  unfold Ledger.get
  cases hr : L.records[r]? with
  | none => exact .make []
  | some record => exact h record (List.mem_of_getElem? hr)

/-- A record gives the value that the clause itself has under the model. -/
lemma Handled.value_snd (h : L.Handled) (m : Model) (r : ClauseRef) :
    (L.value m r).2 = m.clauseValue? (L.workspace.arena.get r) := by
  rw [get_workspace]
  exact (h.get r).exact.recordValue?_snd m

/-- Evaluating a clause changes neither a clause nor the formula. -/
lemma workspace_value (L : Ledger) (m : Model) (r : ClauseRef) :
    (L.value m r).1.workspace = L.workspace := by
  have hsame := ClauseRecord.toClause_recordValue? m (L.get r)
  simp only [workspace, value, Workspace.mk.injEq, Arena.mk.injEq, and_true]
  apply congrArg List.toArray
  apply List.ext_getElem (by simp)
  intro i hi hi'
  rw [List.length_map] at hi'
  simp only [List.getElem_map, List.getElem_modify]
  split
  · next hr =>
    subst hr
    rw [hsame, get, List.getElem?_eq_getElem hi', Option.getD_some]
  · rfl

/-- Evaluating a clause leaves records that callers come to have. -/
lemma Handled.value (h : L.Handled) (m : Model) (r : ClauseRef) : (L.value m r).1.Handled := by
  intro record hrecord
  obtain ⟨i, hi, rfl⟩ := List.mem_iff_getElem.mp hrecord
  simp only [Ledger.value, List.getElem_modify]
  split
  · exact (h.get r).value m
  · exact h _ (List.getElem_mem _)

/-- Evaluating clauses gives the value of each of them and changes nothing of the formula. -/
lemma Handled.valuesAt (h : L.Handled) (m : Model) (rs : List ClauseRef) :
    (L.valuesAt m rs).1.workspace = L.workspace ∧ (L.valuesAt m rs).1.Handled ∧
      (L.valuesAt m rs).2 = rs.map fun r => m.clauseValue? (L.workspace.arena.get r) := by
  induction rs generalizing L with
  | nil => exact ⟨rfl, h, rfl⟩
  | cons r rest ih =>
    obtain ⟨hsame, hhandled, hvalues⟩ := ih (h.value m r)
    rw [workspace_value] at hsame hvalues
    refine ⟨hsame, hhandled, ?_⟩
    simp only [Ledger.valuesAt, List.map_cons, hvalues, h.value_snd]

/-- For a formula whose clauses keep to its variables, whatever was done with them, and any values
that are enough for them: the check comes to an answer, which is yes exactly if the records make
every clause true under the model of the values. The answer is the same for all values that agree on
the variables of the formula. The values that the records give are those that the search goes by, and
evaluating them changes neither the clauses nor the queue nor the register. -/
theorem check_eq_values {n : Nat} (h : L.Handled) (hn : L.formula.numVariables = n)
    (hf : L.workspace.toCnf.InRange) {a : Assignment} (ha : n ≤ a.length) :
    (∀ v : Variable, (a.model n).find? v = if v.index ≤ n then a[v.place]? else none) ∧
    (∃ b, L.workspace.toCnf.check a = .ok b ∧
      (b = true ↔ ∀ x ∈ (L.values (a.model n)).2, x = some true)) ∧
    (L.values (a.model n)).2 =
      L.workspace.toCnf.clauses.map (a.model n).clauseValue? ∧
    (∀ a' : Assignment, n ≤ a'.length → (∀ i < n, a'[i]? = a[i]?) →
      L.workspace.toCnf.check a' = L.workspace.toCnf.check a) ∧
    (L.values (a.model n)).1.workspace = L.workspace ∧ (L.values (a.model n)).1.Handled := by
  subst hn
  obtain ⟨hsame, hhandled, hvalues⟩ := h.valuesAt (a.model L.formula.numVariables) L.formula.refs
  have hall : (L.values (a.model L.formula.numVariables)).2 =
      L.workspace.toCnf.clauses.map (a.model L.formula.numVariables).clauseValue? := by
    rw [values, hvalues]
    simp [Workspace.toCnf, Formula.toCnf, Formula.clauses, workspace, Function.comp_def]
  refine ⟨?_, ?_, hall, ?_, hsame, hhandled⟩
  · intro v
    rw [Assignment.find?_model]
    split
    · next hv =>
      have hlt := Nat.lt_of_lt_of_le (Variable.place_lt hv) ha
      rw [Assignment.valuation, List.getElem?_eq_getElem hlt, Option.getD_some]
    · rfl
  · obtain ⟨b, hb, hiff⟩ := Cnf.check_eq_clauseValues hf ha
    refine ⟨b, hb, ?_⟩
    rw [hall, hiff, List.forall_mem_map]
    rfl
  · intro a' ha' hagree
    exact Cnf.check_congr hf ha ha' hagree

/-- A clause that was no tautology when it was asked and has become one since, to which the formula
refers twice, and a fact. -/
def reworked : Ledger where
  records := [
    ((ClauseRecord.ofList [⟨.ofPlace 0, false⟩, ⟨.ofPlace 1, true⟩]).callAll
      [.askTautology, .remove ⟨.ofPlace 1, true⟩, .add ⟨.ofPlace 0, true⟩]).1,
    .ofList [⟨.ofPlace 1, false⟩]]
  formula := ⟨2, [0, 1, 0], [.ofPlace 1], []⟩

/-- The records of the example were made and changed by their callers. -/
lemma handled_reworked : reworked.Handled := by
  intro record hrecord
  rcases List.mem_cons.mp hrecord with rfl | hrecord
  · exact (ClauseRecord.Handled.make _).callAll _
  · rw [List.mem_singleton.mp hrecord]
    exact .make _

/-- The clauses of the example keep to its two variables. -/
lemma inRange_reworked : reworked.workspace.toCnf.InRange := by
  have hall : ∀ c ∈ reworked.workspace.toCnf.clauses, ∀ l ∈ c.literals, l.var.index ≤ 2 := by
    decide
  exact hall

/-- In the example the check is passed if the fact is true, whatever comes after its value, and
otherwise the record of the fact is not evaluated as true. -/
theorem check_eq_values_reworked :
    reworked.Handled ∧ reworked.workspace.toCnf.InRange ∧
    reworked.workspace.toCnf.check [false, true, false] = .ok true ∧
    reworked.workspace.toCnf.check [false, true] = .ok true ∧
    ¬ ∀ x ∈ (reworked.values (Assignment.model 2 [true, false])).2, x = some true := by
  obtain ⟨-, ⟨b, hb, hiff⟩, -⟩ :=
    check_eq_values (n := 2) (a := [true, false]) handled_reworked rfl inRange_reworked (by decide)
  obtain ⟨-, -, -, hcongr, -⟩ :=
    check_eq_values (n := 2) (a := [false, true, false]) handled_reworked rfl inRange_reworked
      (by decide)
  have htrue : reworked.workspace.toCnf.check [false, true, false] = .ok true := rfl
  have hfalse : reworked.workspace.toCnf.check [true, false] = .ok false := rfl
  refine ⟨handled_reworked, inRange_reworked, htrue, ?_, ?_⟩
  · rw [hcongr [false, true] (by decide) (by decide), htrue]
  · rw [← hiff, ← Except.ok.inj (hb.symm.trans hfalse).symm]
    exact Bool.false_ne_true

end Ledger

end Clausal
