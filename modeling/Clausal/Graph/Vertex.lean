import Clausal.Literal
import Clausal.Text.Quoted

/-!
# Mixed vertices

Vertices for graphs over numbers, texts and literals. A number differs from the text that spells it
and from the literal that it writes.
-/

namespace Clausal

/-- A vertex of a graph with vertices of several kinds. -/
inductive Vertex where
  | number (value : Int)
  | text (value : String)
  | literal (value : Literal)
  deriving DecidableEq

namespace Vertex

/-- The written form of a vertex. -/
def render : Vertex → String
  | .number i => Text.showInt i
  | .text s => s
  | .literal l => l.render

/-- The form of a vertex that tells its kind. -/
def describe : Vertex → String
  | .number i => Text.showInt i
  | .text s => Text.quote s
  | .literal l => l.describe

end Vertex

end Clausal
