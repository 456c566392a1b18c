import Clausal.Clause

/-!
# Clause arenas

Formulas do not hold clauses but refer to them. A clause that several formulas or several places of
one formula refer to is one clause: a change to it is seen from all of them. The arena holds the
clauses, and a reference is a position in it.
-/

namespace Clausal

/-- A position in an arena. -/
abbrev ClauseRef := Nat

/-- The clauses that formulas refer to, in the order in which they were made. -/
structure Arena where
  slots : Array Clause
  deriving DecidableEq

namespace Arena

/-- The arena without clauses. -/
def empty : Arena := ⟨#[]⟩

/-- The clause at a reference; where there is none, the empty clause. -/
def get (A : Arena) (r : ClauseRef) : Clause := A.slots[r]?.getD Clause.empty

/-- Makes a new clause and tells its reference. -/
def alloc (A : Arena) (c : Clause) : Arena × ClauseRef := (⟨A.slots.push c⟩, A.slots.size)

/-- Changes the clause at a reference. -/
def modify (A : Arena) (r : ClauseRef) (f : Clause → Clause) : Arena := ⟨A.slots.modify r f⟩

/-- A new clause is found at its reference. -/
@[simp]
theorem get_alloc_self (A : Arena) (c : Clause) : (A.alloc c).1.get (A.alloc c).2 = c := by
  simp [alloc, get]

/-- A new clause leaves the others as they were. -/
theorem get_alloc_of_lt {A : Arena} {c : Clause} {r : ClauseRef} (h : r < A.slots.size) :
    (A.alloc c).1.get r = A.get r := by
  simp [alloc, get, Array.getElem?_push, Nat.ne_of_lt h]

/-- A change is seen at its reference and nowhere else. -/
theorem get_modify {A : Arena} {r s : ClauseRef} {f : Clause → Clause} (h : r < A.slots.size) :
    (A.modify r f).get s = if s = r then f (A.get s) else A.get s := by
  by_cases hs : s = r
  · subst hs
    simp [modify, get, Array.getElem_modify, h]
  · have hs' : ¬ r = s := fun e => hs e.symm
    simp [modify, get, Array.getElem?_modify, hs, hs']

end Arena

end Clausal
