/-!
# White space

The characters that count as white space in formula files and in typed answers, and the three things
done with them: trimming both ends of a text, telling a blank text from one with content, and
cutting a text into words.
-/

namespace Clausal.Text

/-- White space: the controls from tab to carriage return, the four separator controls, the space,
next line, and every space and line separator outside of ASCII. The zero-width space is none. -/
def isBlank (c : Char) : Bool :=
  let n := c.toNat
  (0x09 ≤ n && n ≤ 0x0D) || (0x1C ≤ n && n ≤ 0x20) || n == 0x85 || n == 0xA0 || n == 0x1680
    || (0x2000 ≤ n && n ≤ 0x200A) || n == 0x2028 || n == 0x2029 || n == 0x202F || n == 0x205F
    || n == 0x3000

/-- Drops white space from the right end. -/
def stripRight (s : List Char) : List Char :=
  (s.reverse.dropWhile isBlank).reverse

/-- Drops white space from both ends. -/
def strip (s : List Char) : List Char :=
  stripRight (s.dropWhile isBlank)

/-- The words of a text whose first characters, in reverse, are already collected in `word`. -/
def wordsFrom (word : List Char) : List Char → List (List Char)
  | [] => if word.isEmpty then [] else [word.reverse]
  | c :: rest =>
    if isBlank c then
      if word.isEmpty then wordsFrom [] rest else word.reverse :: wordsFrom [] rest
    else wordsFrom (c :: word) rest

/-- The maximal runs of characters other than white space, from left to right. -/
def words (s : String) : List String :=
  (wordsFrom [] s.toList).map String.ofList

end Clausal.Text
