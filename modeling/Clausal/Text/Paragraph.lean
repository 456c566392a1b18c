import Clausal.Text.Blank
import Clausal.Text.Letter

/-!
# Paragraphs

Setting a text in lines of a given width. The text is first cut into pieces: spacing, dashes between
words, and words, which are themselves cut after some of their hyphens. A line takes as many pieces
as fit; white space at the ends of lines is dropped, and a piece that is longer than a whole line is
cut where the line is full, or after a hyphen if it has one before that. The pieces of a text put
together are the text again, and no line is longer than the width.
-/

namespace Clausal.Text

/-! ### Pieces -/

/-- Spacing: the white space of ASCII without the separator controls. -/
def isSpacing (c : Char) : Bool := c = ' ' || ('\t' ≤ c && c ≤ '\r')

/-- A text with a single space for each run of spacing. `spaced` tells whether the space of a run is
already there. -/
def evenOut (spaced : Bool) : List Char → List Char
  | [] => []
  | c :: rest =>
    if isSpacing c then if spaced then evenOut true rest else ' ' :: evenOut true rest
    else c :: evenOut false rest

/-- The characters that a dash between words can follow directly. -/
def endsWord (c : Char) : Bool :=
  isWordCharacter c || ['!', '"', '\'', '&', '.', ',', '?'].contains c

/-- Whether a dash between words begins: two or more hyphens after the end of a word and before
another word. What comes before is given in reverse. -/
def dashBegins (before rest : List Char) : Bool :=
  before.head?.any endsWord && 2 ≤ (rest.takeWhile (· == '-')).length
    && (rest.dropWhile (· == '-')).head?.any isWordCharacter

/-- Whether a text begins with two letters, or with two letters that a hyphen joins. -/
def startsPart : List Char → Bool
  | a :: '-' :: b :: _ => isLetter a && isLetter b
  | a :: b :: _ => isLetter a && isLetter b
  | _ => false

/-- Whether a word can be cut after the hyphen that ends what comes before. The hyphen follows two
letters, or two letters that another hyphen joins. -/
def cutsAfterHyphen (before rest : List Char) : Bool :=
  startsPart rest && match before with
  | '-' :: b :: '-' :: a :: _ => isLetter b && isLetter a
  | '-' :: b :: a :: _ => isLetter b && isLetter a
  | _ => false

/-- The kinds of pieces. -/
inductive PieceKind where
  | spacing | dash | word
  deriving DecidableEq, Repr

namespace PieceKind

/-- The kind of the piece that begins at a place of a text. -/
def ofPlace (before rest : List Char) : PieceKind :=
  if rest.head?.any isSpacing then .spacing else if dashBegins before rest then .dash else .word

/-- Whether a piece that has some length already goes on at a place of a text. -/
def goesOn (length : Nat) (before rest : List Char) : PieceKind → Bool
  | .spacing => rest.head?.any isSpacing
  | .dash => rest.head? == some '-'
  | .word =>
    !(rest.head?.any isSpacing || dashBegins before rest
      || (2 ≤ length && cutsAfterHyphen before rest))

end PieceKind

/-- The pieces of a text from a place on. The piece that the place is in has a kind and, in reverse,
its characters so far; all characters so far are in `before`. -/
def piecesFrom (kind : PieceKind) (piece before : List Char) : List Char → List (List Char)
  | [] => [piece.reverse]
  | c :: rest =>
    if kind.goesOn piece.length before (c :: rest) then
      piecesFrom kind (c :: piece) (c :: before) rest
    else piece.reverse :: piecesFrom (.ofPlace before (c :: rest)) [c] (c :: before) rest

/-- The pieces of a text. -/
def pieces : List Char → List (List Char)
  | [] => []
  | c :: rest => piecesFrom (.ofPlace [] (c :: rest)) [c] [c] rest

/-- From any place on, the pieces make up the piece begun and the rest of the text. -/
theorem flatten_piecesFrom (kind : PieceKind) (piece before s : List Char) :
    (piecesFrom kind piece before s).flatten = piece.reverse ++ s := by
  induction s generalizing kind piece before with
  | nil => simp [piecesFrom]
  | cons c rest ih =>
    rw [piecesFrom]
    split
    · rw [ih]; simp
    · rw [List.flatten_cons, ih]; simp

/-- The pieces of a text make up the text. -/
theorem flatten_pieces (s : List Char) : (pieces s).flatten = s := by
  cases s with
  | nil => rfl
  | cons c rest => rw [pieces, flatten_piecesFrom]; simp

/-! ### Lines -/

/-- The first pieces that fit in some room, and the others. -/
def takeFitting (room : Nat) : List (List Char) → List (List Char) × List (List Char)
  | [] => ([], [])
  | p :: rest =>
    if p.length ≤ room then
      let (taken, left) := takeFitting (room - p.length) rest
      (p :: taken, left)
    else ([], p :: rest)

/-- Pieces that fit in some room are together not longer than it. -/
theorem length_takeFitting_le (room : Nat) (pieces : List (List Char)) :
    (takeFitting room pieces).1.flatten.length ≤ room := by
  induction pieces generalizing room with
  | nil => simp [takeFitting]
  | cons p rest ih =>
    rw [takeFitting]
    split
    · have := ih (room - p.length)
      simp only [List.flatten_cons, List.length_append]
      omega
    · simp

/-- How much of a piece is put in the room at the end of a line, if the piece is longer than a line:
as much as there is room for, or less if that ends with a hyphen that has something other than
hyphens before it. -/
def cutLength (room : Nat) (piece : List Char) : Nat :=
  let upToHyphen := ((piece.take room).reverse.dropWhile (· != '-')).length
  if (piece.take (upToHyphen - 1)).any (· != '-') then upToHyphen else room

/-- No more of a piece is put in a room than there is room for. -/
theorem cutLength_le (room : Nat) (piece : List Char) : cutLength room piece ≤ room := by
  have h := (List.dropWhile_sublist (l := (piece.take room).reverse) (· != '-')).length_le
  rw [List.length_reverse, List.length_take] at h
  unfold cutLength
  dsimp only
  split <;> omega

/-- The pieces of one line, and the others. -/
def takeLine (width : Nat) (pieces : List (List Char)) : List (List Char) × List (List Char) :=
  match takeFitting width pieces with
  | (taken, []) => (taken, [])
  | (taken, p :: rest) =>
    if width < p.length then
      let n := cutLength (width - taken.flatten.length) p
      (taken ++ [p.take n], p.drop n :: rest)
    else (taken, p :: rest)

/-- The pieces of one line are together not longer than the line. -/
theorem length_takeLine_le (width : Nat) (pieces : List (List Char)) :
    (takeLine width pieces).1.flatten.length ≤ width := by
  have fits := length_takeFitting_le width pieces
  unfold takeLine
  split
  next taken h => simpa [h] using fits
  next taken p rest h =>
    rw [h] at fits
    split
    · have := cutLength_le (width - taken.flatten.length) p
      simp only [List.flatten_append, List.length_append, List.flatten_singleton, List.length_take]
      dsimp only at fits
      omega
    · exact fits

/-- Drops the first piece if it is blank. -/
def dropBlankHead : List (List Char) → List (List Char)
  | [] => []
  | p :: rest => if p.all isBlank then rest else p :: rest

/-- Drops the last piece if it is blank. -/
def dropBlankLast (pieces : List (List Char)) : List (List Char) :=
  if (pieces.getLast?.map (·.all isBlank)).getD false then pieces.dropLast else pieces

/-- What is left when the last piece is dropped is not longer. -/
theorem length_dropBlankLast_le (pieces : List (List Char)) :
    (dropBlankLast pieces).flatten.length ≤ pieces.flatten.length := by
  unfold dropBlankLast
  split
  · rcases List.eq_nil_or_concat pieces with rfl | ⟨others, last, rfl⟩
    · simp
    · simp
  · exact Nat.le_refl _

/-- The lines of pieces. White space at the start of the text is kept: `begun` tells whether there
is a line already. The fuel bounds the number of lines. -/
def linesOf (width : Nat) : Nat → Bool → List (List Char) → List (List Char)
  | 0, _, _ => []
  | _, _, [] => []
  | fuel + 1, begun, pieces =>
    let (taken, left) := takeLine width (if begun then dropBlankHead pieces else pieces)
    match dropBlankLast taken with
    | [] => linesOf width fuel begun left
    | kept => kept.flatten :: linesOf width fuel true left

/-- No line is longer than the width. -/
theorem length_le_of_mem_linesOf {width fuel : Nat} {begun : Bool} {pieces : List (List Char)}
    {line : List Char} (h : line ∈ linesOf width fuel begun pieces) : line.length ≤ width := by
  fun_induction linesOf width fuel begun pieces with
  | case1 => cases h
  | case2 => cases h
  | case3 _ _ _ _ _ _ _ _ ih => exact ih h
  | case4 fuel begun pieces _ taken left hline kept ih =>
    rcases List.mem_cons.mp h with rfl | h
    · have dropped := length_dropBlankLast_le taken
      have fits := length_takeLine_le width (if begun then dropBlankHead pieces else pieces)
      rw [hline] at fits
      exact Nat.le_trans dropped fits
    · exact ih h

/-- The lines of a text with a width of at least one. Each line takes some characters of the text,
so there are no more lines than characters. -/
def paragraph (width : Nat) (s : String) : List String :=
  let text := strip (evenOut false s.toList)
  (linesOf width (text.length + 1) false (pieces text)).map String.ofList

end Clausal.Text
