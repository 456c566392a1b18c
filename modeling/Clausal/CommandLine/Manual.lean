import Clausal.CommandLine.Invocation
import Clausal.Text.Paragraph

/-!
# The manual

The usage line and the page of help of the program and of each command. Explanations of options are
wrapped to the width of the page.
-/

namespace Clausal.CommandLine

/-- The commands between braces. -/
def commandList : String :=
  "\x7b" ++ ",".intercalate (CommandName.all.map CommandName.word) ++ "\x7d"

/-- The algorithms between braces. -/
def algorithmList : String :=
  "\x7b" ++ ",".intercalate (Algorithm.all.map Algorithm.name) ++ "\x7d"

/-- The name of the program, or of the program with a command. -/
def Page.title : Page → String
  | none => "cnfsat"
  | some c => "cnfsat " ++ c.word

/-- The usage lines of a page. -/
def Page.usage : Page → String
  | none =>
    "usage: cnfsat [-h] [--log-level LOG_LEVEL] [-v]\n              " ++ commandList ++ " ...\n"
  | some .check => "usage: cnfsat check [-h] file [VALUE ...]\n"
  | some .isTwoSat => "usage: cnfsat is-2sat [-h] file\n"
  | some .isHorn => "usage: cnfsat is-horn [-h] file\n"
  | some .solve => "usage: cnfsat solve [-h] [-a " ++ algorithmList ++ "] file\n"
  | some .menu => "usage: cnfsat menu [-h]\n"

/-- An explanation in the column of explanations of a wide page, each line ended. -/
def explanation (s : String) : String :=
  String.join ((Text.paragraph 54 s).map fun line =>
    String.ofList (List.replicate 24 ' ') ++ line ++ "\n")

/-- The page of help. -/
def Page.help (levelName : String) (default : Algorithm) (page : Page) : String :=
  page.usage ++ match page with
  | none =>
    "\nSatisfiability of formulas in conjunctive normal form.\n\npositional arguments:\n  "
      ++ commandList ++ "\n"
      ++ "    check               Check whether an assignment satisfies a formula\n"
      ++ "    is-2sat             Check whether every clause has two literals\n"
      ++ "    is-horn             Check whether every clause is a Horn clause\n"
      ++ "    solve               Find a satisfying assignment\n"
      ++ "    menu                Run the interactive menu\n"
      ++ "\noptions:\n  -h, --help            show this help message and exit\n"
      ++ "  --log-level LOG_LEVEL\n"
      ++ explanation ("logging level (default: " ++ levelName ++ ")")
      ++ "  -v, --verbose         shorthand for --log-level DEBUG\n"
  | some .check =>
    "\npositional arguments:\n  file\n"
      ++ "  VALUE       value of each variable, 1 or true for true\n"
      ++ "\noptions:\n  -h, --help  show this help message and exit\n"
  | some .isTwoSat | some .isHorn =>
    "\npositional arguments:\n  file\n\noptions:\n  -h, --help  show this help message and exit\n"
  | some .solve =>
    "\npositional arguments:\n  file\n\noptions:\n"
      ++ "  -h, --help            show this help message and exit\n"
      ++ "  -a " ++ algorithmList ++ ", --algorithm " ++ algorithmList ++ "\n"
      ++ explanation ("solver to use (default: " ++ default.name ++ ")")
  | some .menu => "\noptions:\n  -h, --help  show this help message and exit\n"

/-- What is written about a misuse. -/
def Page.complaint (page : Page) (m : Misuse) : String :=
  page.usage ++ page.title ++ ": error: " ++ m.message ++ "\n"

end Clausal.CommandLine
