/-!
# Lines and fields

Cutting a text into lines, where a line may end in any of the line-breaking characters, and cutting
a line into fields at a separator.
-/

namespace Clausal.Text

/-- Line breaks: line feed to carriage return, the file, group and record separators, next line, and
the line and paragraph separators. The unit separator is white space but breaks no line. -/
def isLineBreak (c : Char) : Bool :=
  let n := c.toNat
  (0x0A ≤ n && n ≤ 0x0D) || (0x1C ≤ n && n ≤ 0x1E) || n == 0x85 || n == 0x2028 || n == 0x2029

/-- The lines of a text whose first line starts with `line`, given in reverse. A carriage return
directly before a line feed forms one break with it. -/
def linesFrom (line : List Char) : List Char → List (List Char)
  | [] => if line.isEmpty then [] else [line.reverse]
  | '\r' :: '\n' :: rest => line.reverse :: linesFrom [] rest
  | c :: rest =>
    if isLineBreak c then line.reverse :: linesFrom [] rest else linesFrom (c :: line) rest

/-- The lines of a text without their breaks. A break at the very end starts no further line, so the
empty text has no lines. -/
def lines (s : List Char) : List (List Char) := linesFrom [] s

/-- The fields of a line between the occurrences of `separator`; there is always at least one. -/
def fields (separator : Char) : List Char → List (List Char)
  | [] => [[]]
  | c :: rest =>
    if c = separator then [] :: fields separator rest
    else match fields separator rest with
      | [] => [[c]]
      | field :: others => (c :: field) :: others

/-- Joins texts with a separator between each two of them. -/
def join (separator : List Char) : List (List Char) → List Char
  | [] => []
  | [field] => field
  | field :: others => field ++ separator ++ join separator others

/-- Line ends as one character: a carriage return, with the line feed after it if there is one, is
read as a line feed. -/
def unifyNewlines : List Char → List Char
  | [] => []
  | '\r' :: '\n' :: rest => '\n' :: unifyNewlines rest
  | c :: rest => (if c = '\r' then '\n' else c) :: unifyNewlines rest

/-- A text has at least one field. -/
theorem fields_ne_nil (separator : Char) (s : List Char) : fields separator s ≠ [] := by
  cases s with
  | nil => simp [fields]
  | cons c rest =>
    simp only [fields]
    split
    · simp
    · split <;> simp

end Clausal.Text
