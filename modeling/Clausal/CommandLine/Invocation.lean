import Clausal.CommandLine.Arguments
import Clausal.Settings

/-!
# Invocations

What a list of arguments asks the program to do: a command with its operands, or a page of help. The
options that concern the whole program stand before the command, and those of a command after it.
-/

namespace Clausal.CommandLine

/-- The name of a command. -/
inductive CommandName where
  | check | isTwoSat | isHorn | solve | menu
  deriving DecidableEq, Repr

namespace CommandName

/-- The word for a command. -/
def word : CommandName → String
  | .check => "check"
  | .isTwoSat => "is-2sat"
  | .isHorn => "is-horn"
  | .solve => "solve"
  | .menu => "menu"

/-- All commands, in the order in which they are listed to the user. -/
def all : List CommandName := [.check, .isTwoSat, .isHorn, .solve, .menu]

/-- The command with a given word. -/
def ofWord? (word : String) : Option CommandName := all.find? (·.word == word)

/-- A command is found by its word. -/
@[simp]
theorem ofWord?_word (c : CommandName) : ofWord? c.word = some c := by
  cases c <;> rfl

end CommandName

/-- A command with its operands. -/
inductive Command where
  /-- Check whether values satisfy a formula. -/
  | check (file : String) (values : List String)
  /-- Tell whether a formula has the shape of a method. -/
  | classify (method : Method) (file : String)
  /-- Solve a formula; without an algorithm, the option for it was given no value. -/
  | solve (file : String) (algorithm : Option Algorithm)
  /-- Ask the user what to do. -/
  | menu
  deriving DecidableEq, Repr

/-- The option for help, which every command has. -/
def helpOption : Opt := ⟨.help, ["-h", "--help"], false, none⟩

/-- What the program accepts. -/
def mainSpec : Spec where
  options := [helpOption, ⟨.logLevel, ["--log-level"], true, none⟩,
    ⟨.verbose, ["-v", "--verbose"], false, none⟩]
  slots := [.command]

/-- What a command accepts. -/
def CommandName.spec : CommandName → Spec
  | .check => ⟨[helpOption], [.file, .values]⟩
  | .isTwoSat | .isHorn => ⟨[helpOption], [.file]⟩
  | .solve =>
    ⟨[helpOption, ⟨.algorithm, ["-a", "--algorithm"], true, some (Algorithm.all.map (·.name))⟩],
      [.file]⟩
  | .menu => ⟨[helpOption], []⟩

/-- A page of the manual: that of the program, or that of a command. -/
abbrev Page := Option CommandName

/-- Why arguments lead to no command. -/
inductive Stop where
  /-- Help was asked for. -/
  | help (page : Page)
  /-- The arguments are wrong. -/
  | misuse (page : Page) (misuse : Misuse)
  deriving DecidableEq, Repr

/-- The operands of a command, as far as they are read. -/
structure Operands where
  file : String
  values : List String
  algorithm : Option Algorithm

/-- Reads the items of a command, up to a request for help. -/
def readOperands (name : CommandName) (o : Operands) : List Item → Except Stop Operands
  | [] => .ok o
  | .option .help _ :: _ => .error (.help (some name))
  | .option .algorithm value :: rest =>
    readOperands name { o with algorithm := value.bind Algorithm.ofName? } rest
  | .option _ _ :: rest => readOperands name o rest
  | .slot ⟨.file, args⟩ :: rest => readOperands name { o with file := args.headD "" } rest
  | .slot ⟨.values, args⟩ :: rest => readOperands name { o with values := args } rest
  | .slot ⟨.command, _⟩ :: rest => readOperands name o rest

/-- The command of a name and its operands. -/
def CommandName.command (o : Operands) : CommandName → Command
  | .check => .check o.file o.values
  | .isTwoSat => .classify .twoSat o.file
  | .isHorn => .classify .horn o.file
  | .solve => .solve o.file o.algorithm
  | .menu => .menu

/-- Reads the arguments of a command. Arguments for which it has no place are given back. -/
def CommandName.parse (name : CommandName) (default : Algorithm) (args : List String) :
    Except Stop (Command × List String) := do
  let parsed := name.spec.parse args
  let operands ← readOperands name ⟨"", [], some default⟩ parsed.items
  match parsed.outcome with
  | .error e => .error (.misuse (some name) e)
  | .ok extras => .ok (name.command operands, extras)

/-- What is asked of the program. -/
structure Invocation where
  /-- Without a name, the option for it was given no value. -/
  levelName : Option String
  verbose : Bool
  /-- Without a command, help is shown. -/
  command : Option Command
  deriving DecidableEq, Repr

/-- Reads the items of the program, up to a request for help. -/
def readInvocation (default : Algorithm) (inv : Invocation) (extras : List String) :
    List Item → Except Stop (Invocation × List String)
  | [] => .ok (inv, extras)
  | .option .help _ :: _ => .error (.help none)
  | .option .logLevel value :: rest =>
    readInvocation default { inv with levelName := value } extras rest
  | .option .verbose _ :: rest => readInvocation default { inv with verbose := true } extras rest
  | .option _ _ :: rest => readInvocation default inv extras rest
  | .slot ⟨.command, word :: args⟩ :: rest =>
    match CommandName.ofWord? word with
    | none =>
      .error (.misuse none
        (.invalidChoice Slot.command.title word (CommandName.all.map CommandName.word)))
    | some name => do
      let (command, extras') ← name.parse default args
      readInvocation default { inv with command := some command } (extras ++ extras') rest
  | .slot _ :: rest => readInvocation default inv extras rest

/-- Reads the arguments of the program. -/
def parseArguments (settings : Settings) (default : Algorithm) (args : List String) :
    Except Stop Invocation := do
  let parsed := mainSpec.parse args
  let (inv, extras) ← readInvocation default ⟨some settings.levelName, false, none⟩ [] parsed.items
  match parsed.outcome with
  | .error e => .error (.misuse none e)
  | .ok unplaced =>
    if (unplaced ++ extras).isEmpty then .ok inv
    else .error (.misuse none (.unrecognized (unplaced ++ extras)))

end Clausal.CommandLine
