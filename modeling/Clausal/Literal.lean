import Clausal.Text.Integer

/-!
# Variables and literals

A variable is a positive number, and a literal is a variable or its negation. A literal is written
as a signed integer: the sign tells the negation, the absolute value the variable.
-/

namespace Clausal

/-- A propositional variable, identified by a positive number. -/
structure Variable where
  index : Nat
  index_pos : 0 < index
  deriving DecidableEq, Repr

namespace Variable

/-- The variable numbered by the absolute value of an integer; zero numbers none. -/
def ofInt? (i : Int) : Option Variable :=
  if h : i = 0 then none else some ⟨i.natAbs, Int.natAbs_pos.mpr h⟩

/-- The variable that stands at a place of an assignment, the first place being zero. -/
def ofPlace (i : Nat) : Variable := ⟨i + 1, i.succ_pos⟩

/-- The place of a variable in an assignment. -/
def place (v : Variable) : Nat := v.index - 1

/-- The variables from 1 to `n` in increasing order. -/
def upTo (n : Nat) : List Variable := (List.range n).map ofPlace

/-- The written form of a variable, such as `x3`. -/
def render (v : Variable) : String := "x" ++ Nat.repr v.index

/-- The form of a variable that tells how it is built. -/
def describe (v : Variable) : String := "Variable(" ++ Nat.repr v.index ++ ")"

/-- A number below 2^63 that equal variables share: the index itself while it fits, and its
remainder modulo 2^61 - 1 beyond that. -/
def digest (v : Variable) : Nat :=
  if v.index < 1 <<< 63 then v.index else v.index % (1 <<< 61 - 1)

/-- A variable is determined by its number. -/
@[ext]
theorem ext {v w : Variable} (h : v.index = w.index) : v = w := by
  cases v; cases w; simp_all

/-- The variable at a place stands at that place. -/
@[simp]
theorem place_ofPlace (i : Nat) : (ofPlace i).place = i := rfl

/-- At the place of a variable stands that variable. -/
@[simp]
theorem ofPlace_place (v : Variable) : ofPlace v.place = v := by
  ext
  have := v.index_pos
  simp only [ofPlace, place]
  omega

/-- The variables from 1 to `n` are those numbered by at most `n`. -/
theorem mem_upTo {v : Variable} {n : Nat} : v ∈ upTo n ↔ v.index ≤ n := by
  simp only [upTo, List.mem_map, List.mem_range]
  constructor
  · rintro ⟨i, hi, rfl⟩
    exact hi
  · intro h
    refine ⟨v.place, ?_, ofPlace_place v⟩
    have := v.index_pos
    simp only [place]
    omega

end Variable

/-- A variable or its negation. -/
structure Literal where
  var : Variable
  negated : Bool
  deriving DecidableEq, Repr

namespace Literal

/-- The literal written as a signed integer; zero writes none. -/
def ofInt? (i : Int) : Option Literal :=
  (Variable.ofInt? i).map fun v => ⟨v, decide (i < 0)⟩

/-- The signed integer that writes a literal. -/
def toInt (l : Literal) : Int :=
  if l.negated then -(l.var.index : Int) else l.var.index

/-- The opposite literal. -/
def complement (l : Literal) : Literal := ⟨l.var, !l.negated⟩

/-- The value that makes the literal true. -/
def value (l : Literal) : Bool := !l.negated

/-- The written form of a literal, such as `~x3`. -/
def render (l : Literal) : String :=
  if l.negated then "~" ++ l.var.render else l.var.render

/-- The form of a literal that tells how it is built. -/
def describe (l : Literal) : String := "Literal(" ++ Text.showInt l.toInt ++ ")"

/-- The opposite of the opposite is the literal itself. -/
@[simp]
theorem complement_complement (l : Literal) : l.complement.complement = l := by
  cases l; simp [complement]

/-- Reading the signed integer of a literal gives the literal back. -/
theorem ofInt?_toInt (l : Literal) : ofInt? l.toInt = some l := by
  obtain ⟨⟨i, hi⟩, b⟩ := l
  cases b with
  | false =>
    have h : i ≠ 0 := by omega
    simp [ofInt?, toInt, Variable.ofInt?, h]
  | true =>
    have h : ¬ (-(i : Int)) = 0 := by omega
    have h' : -(i : Int) < 0 := by omega
    simp only [ofInt?, toInt, Variable.ofInt?, ↓reduceIte, h, ↓reduceDIte, Option.map_some, h',
      decide_true, Int.natAbs_neg, Int.natAbs_natCast]

/-- Different literals are written differently. -/
theorem toInt_injective {l m : Literal} (h : l.toInt = m.toInt) : l = m :=
  Option.some.inj (by rw [← ofInt?_toInt l, h, ofInt?_toInt])

end Literal

end Clausal
