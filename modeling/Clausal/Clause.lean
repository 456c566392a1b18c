import Clausal.Literal

/-!
# Clauses

A clause is a disjunction of literals, kept as the list of its literals without repetition. The
order of the list is the order in which the literals were added: a literal that is already there is
not added again, and one that was removed and added again moves to the end.
-/

namespace Clausal

/-- A disjunction of literals, each of which occurs once. -/
structure Clause where
  literals : List Literal
  nodup : literals.Nodup
  deriving DecidableEq

namespace Clause

/-- The clause without literals, which no assignment satisfies. -/
def empty : Clause := ⟨[], List.nodup_nil⟩

instance : Inhabited Clause := ⟨empty⟩

instance : Membership Literal Clause := ⟨fun c l => l ∈ c.literals⟩

instance (l : Literal) (c : Clause) : Decidable (l ∈ c) :=
  inferInstanceAs (Decidable (l ∈ c.literals))

/-- A literal that the clause does not have can be added at its end. -/
theorem nodup_concat {c : Clause} {l : Literal} (h : l ∉ c) : (c.literals ++ [l]).Nodup := by
  rw [List.nodup_append]
  refine ⟨c.nodup, by simp, ?_⟩
  intro a ha b hb
  rw [List.mem_singleton] at hb
  rintro rfl
  exact h (hb ▸ ha)

/-- Adds a literal at the end, unless the clause has it. -/
def insert (c : Clause) (l : Literal) : Clause :=
  if h : l ∈ c then c else ⟨c.literals ++ [l], nodup_concat h⟩

/-- Removes a literal, if the clause has it. -/
def erase (c : Clause) (l : Literal) : Clause :=
  ⟨c.literals.erase l, c.nodup.erase l⟩

/-- The clause of a list of literals, each at the place of its first occurrence. -/
def ofList (ls : List Literal) : Clause := ls.foldl insert empty

/-- The number of literals. -/
def size (c : Clause) : Nat := c.literals.length

/-- The variables that occur without negation. -/
def positives (c : Clause) : List Variable := (c.literals.filter (!·.negated)).map (·.var)

/-- The variables that occur negated. -/
def negatives (c : Clause) : List Variable := (c.literals.filter (·.negated)).map (·.var)

/-- All variables of the clause, in the order of the literals. -/
def vars (c : Clause) : List Variable := c.literals.map (·.var)

/-- Some variable occurs with and without negation, so every assignment satisfies the clause. -/
def isTautology (c : Clause) : Bool := c.positives.any (c.negatives.contains ·)

/-- The variable of a clause that is a single literal without negation: a fact, or an implication
with nothing to the left of the arrow. -/
def fact? (c : Clause) : Option Variable :=
  match c.literals with
  | [⟨v, false⟩] => some v
  | _ => none

/-- The signed integers of the literals. -/
def toInts (c : Clause) : List Int := c.literals.map Literal.toInt

/-- The written form of a clause, such as `(x1 | ~x2)`. -/
def render (c : Clause) : String :=
  "(" ++ " | ".intercalate (c.literals.map Literal.render) ++ ")"

/-- A list of integers between brackets. -/
def renderInts (is : List Int) : String :=
  "[" ++ ", ".intercalate (is.map Text.showInt) ++ "]"

/-- The form of a clause that tells how it is built. -/
def describe (c : Clause) : String := "Clause(" ++ renderInts c.toInts ++ ")"

/-- The literals of a clause are its members. -/
theorem mem_literals {c : Clause} {l : Literal} : l ∈ c.literals ↔ l ∈ c := Iff.rfl

/-- A clause is determined by the list of its literals. -/
theorem ext_literals {c d : Clause} (h : c.literals = d.literals) : c = d := by
  cases c; cases d; simp_all

/-- Adding a literal makes it a member and changes no other membership. -/
@[simp]
theorem mem_insert {c : Clause} {l m : Literal} : m ∈ c.insert l ↔ m ∈ c ∨ m = l := by
  unfold insert
  split
  · next h =>
    constructor
    · exact Or.inl
    · rintro (h' | rfl)
      · exact h'
      · exact h
  · simp [← mem_literals]

/-- The clause of a list has the literals of the list. -/
@[simp]
theorem mem_ofList {ls : List Literal} {l : Literal} : l ∈ ofList ls ↔ l ∈ ls := by
  have main : ∀ c : Clause, l ∈ ls.foldl insert c ↔ l ∈ c ∨ l ∈ ls := by
    induction ls with
    | nil => simp
    | cons m rest ih =>
      intro c
      rw [List.foldl_cons, ih, mem_insert, List.mem_cons, or_assoc]
  have hempty : l ∉ empty := List.not_mem_nil
  rw [ofList, main]
  simp [hempty]

/-- Removing a literal ends its membership and changes no other. -/
@[simp]
theorem mem_erase {c : Clause} {l m : Literal} : m ∈ c.erase l ↔ m ∈ c ∧ m ≠ l := by
  rw [← mem_literals, erase, c.nodup.mem_erase_iff, and_comm, mem_literals]

/-- The positive variables are those of the literals without negation. -/
theorem mem_positives {c : Clause} {v : Variable} : v ∈ c.positives ↔ ⟨v, false⟩ ∈ c := by
  simp only [positives, List.mem_map, List.mem_filter, Bool.not_eq_true', ← mem_literals]
  constructor
  · rintro ⟨⟨w, b⟩, ⟨hl, hb⟩, rfl⟩
    cases hb
    exact hl
  · intro h
    exact ⟨_, ⟨h, rfl⟩, rfl⟩

/-- The negative variables are those of the negated literals. -/
theorem mem_negatives {c : Clause} {v : Variable} : v ∈ c.negatives ↔ ⟨v, true⟩ ∈ c := by
  simp only [negatives, List.mem_map, List.mem_filter, ← mem_literals]
  constructor
  · rintro ⟨⟨w, b⟩, ⟨hl, hb⟩, rfl⟩
    cases hb
    exact hl
  · intro h
    exact ⟨_, ⟨h, rfl⟩, rfl⟩

/-- A clause is a tautology exactly if it has some literal together with its complement. -/
theorem isTautology_iff {c : Clause} :
    c.isTautology = true ↔ ∃ v, (⟨v, false⟩ : Literal) ∈ c ∧ (⟨v, true⟩ : Literal) ∈ c := by
  simp [isTautology, mem_positives, mem_negatives]

end Clause

end Clausal
