import Clausal.Datum
import Clausal.Error
import Clausal.Text.Shortest

/-!
# Notices

Errors as callers raise them by hand, with a text of their own. The text of a notice on a formula
file starts with the number of the line, if one is given; a plain notice takes any values for its
text.
-/

namespace Clausal

namespace Datum

mutual

/-- The form of a value that tells its kind. -/
def describe : Datum → String
  | .null => "None"
  | .bool b => if b then "True" else "False"
  | .int i => Text.showInt i
  | .real x => Text.showBinary x
  | .text s => Text.quote s
  | .list items => "[" ++ ", ".intercalate (describeAll items) ++ "]"
  | .record fields => "\x7b" ++ ", ".intercalate (describeFields fields) ++ "\x7d"

/-- The forms of values that tell their kinds. -/
def describeAll : List Datum → List String
  | [] => []
  | d :: rest => d.describe :: describeAll rest

/-- The forms of the fields of a record, each with its key in front. -/
def describeFields : List (String × Datum) → List String
  | [] => []
  | (key, d) :: rest => (Text.quote key ++ ": " ++ d.describe) :: describeFields rest

end

/-- The written form of a value. -/
def render : Datum → String
  | .text s => s
  | d => d.describe

end Datum

namespace Notice

/-- The text of a plain notice: nothing, a single value, or several values between brackets. -/
def plain : List Datum → String
  | [] => ""
  | [d] => d.render
  | ds => "(" ++ ", ".intercalate (Datum.describeAll ds) ++ ")"

/-- The text of a notice that a formula cannot be satisfied, if none is given. -/
def unsatisfiable : String := unsatisfiableMessage ""

/-- The text of a notice on a line of a formula file. -/
def onLine (line text : Datum) : String :=
  match line with
  | .null => text.render
  | _ => "line " ++ line.render ++ ": " ++ text.render

end Notice

end Clausal
