import Clausal.Text.Digit
import Clausal.Text.Quoted

/-!
# Command line arguments

Reading a list of arguments against the options and the places for other arguments that a command
has. An option may be given by an abbreviation that fits one option only, its value may follow an
equals sign or a one-letter name directly, and one-letter options without values can be run
together, be it directly or after an equals sign. After two dashes nothing is an option. Arguments
for which there is no place are collected.
-/

namespace Clausal.CommandLine

/-- What an option is for. -/
inductive Flag where
  | help | logLevel | verbose | algorithm
  deriving DecidableEq, Repr

/-- An option of a command. -/
structure Opt where
  flag : Flag
  /-- The names of the option, in the order in which they are tried. -/
  names : List String
  takesValue : Bool
  /-- The values that are allowed, if not all are. -/
  choices : Option (List String)

/-- The option as it is named in messages. -/
def Opt.title (o : Opt) : String := "/".intercalate o.names

/-- A place for arguments that are not options. -/
inductive Slot where
  /-- One argument. -/
  | file
  /-- Any number of arguments. -/
  | values
  /-- An argument and everything after it, options included. -/
  | command
  deriving DecidableEq, Repr

/-- The name of a place in messages. -/
def Slot.title : Slot → String
  | .file => "file"
  | .values => "VALUE"
  | .command => "command"

/-- What a command accepts. -/
structure Spec where
  options : List Opt
  slots : List Slot

/-- Something wrong with the arguments. -/
inductive Misuse where
  | ambiguous (argument : String) (names : List String)
  | ignoredValue (option value : String)
  | missingValue (option : String)
  | invalidChoice (argument value : String) (choices : List String)
  | missing (slots : List String)
  | unrecognized (arguments : List String)
  deriving DecidableEq, Repr

/-- Wording of a misuse. -/
def Misuse.message : Misuse → String
  | .ambiguous arg names =>
    "ambiguous option: " ++ arg ++ " could match " ++ ", ".intercalate names
  | .ignoredValue o value => "argument " ++ o ++ ": ignored explicit argument " ++ Text.quote value
  | .missingValue o => "argument " ++ o ++ ": expected one argument"
  | .invalidChoice arg value choices =>
    "argument " ++ arg ++ ": invalid choice: " ++ Text.quote value ++ " (choose from "
      ++ ", ".intercalate (choices.map Text.quote) ++ ")"
  | .missing slots => "the following arguments are required: " ++ ", ".intercalate slots
  | .unrecognized args => "unrecognized arguments: " ++ " ".intercalate args

/-! ### Telling options from other arguments -/

/-- What an argument is. -/
inductive Role where
  /-- Two dashes, after which nothing is an option. -/
  | dashes
  /-- Not an option. -/
  | plain
  /-- An option under one of its names. -/
  | option (opt : Opt) (name : String) (attached : Option String)
  /-- Something that looks like an option, but is none. -/
  | unknown

/-- An argument and what it is. -/
structure Token where
  text : String
  role : Role

/-- Whether an argument is an option or looks like one. -/
def Token.isOption (t : Token) : Bool :=
  match t.role with
  | .option .. | .unknown => true
  | _ => false

/-- All names of options, each with its option. -/
def Spec.names (spec : Spec) : List (String × Opt) :=
  spec.options.flatMap fun o => o.names.map fun name => (name, o)

/-- The option with a given name. -/
def Spec.find? (spec : Spec) (name : String) : Option Opt :=
  (spec.names.find? (·.1 == name)).map (·.2)

/-- A text up to the first equals sign, and what is after it. -/
def splitEquals (s : List Char) : List Char × Option (List Char) :=
  match s.dropWhile (· != '=') with
  | [] => (s, none)
  | _ :: after => (s.takeWhile (· != '='), some after)

/-- The options that an argument may mean without naming one in full. With two dashes it is the
start of a name; with one, a one-letter name and a value directly after it. -/
def Spec.candidates (spec : Spec) (arg : List Char) : List (String × Opt × Option String) :=
  match arg with
  | '-' :: '-' :: _ =>
    let (start, value) := splitEquals arg
    let attached := value.map String.ofList
    (spec.names.filter fun (name, _) => start.isPrefixOf name.toList).map
      fun (name, o) => (name, o, attached)
  | '-' :: letter :: rest =>
    (spec.names.filter fun (name, _) => name.toList == ['-', letter]).map
      fun (name, o) => (name, o, some (String.ofList rest))
  | _ => []

/-- A negative number: a minus and digits, or a minus, any digits, a point and digits. One line feed
may follow. -/
def isNegativeNumber (arg : List Char) : Bool :=
  let isDigit := fun c => (Text.digitValue? c).isSome
  match arg with
  | '-' :: rest =>
    let body := if rest.getLast? = some '\n' then rest.dropLast else rest
    match body.dropWhile isDigit with
    | [] => !body.isEmpty
    | '.' :: decimals => !decimals.isEmpty && decimals.all isDigit
    | _ => false
  | _ => false

/-- What an argument before any two dashes is. -/
def Spec.classify (spec : Spec) (arg : String) : Except Misuse Role :=
  let s := arg.toList
  match s with
  | '-' :: _ =>
    match spec.find? arg with
    | some o => .ok (.option o arg none)
    | none =>
      if s.length = 1 then .ok .plain
      else
        match splitEquals s with
        | (name, some value) =>
          match spec.find? (String.ofList name) with
          | some o => .ok (.option o (String.ofList name) (some (String.ofList value)))
          | none => fromCandidates s
        | (_, none) => fromCandidates s
  | _ => .ok .plain
where
  /-- What an argument is that names no option in full. -/
  fromCandidates (s : List Char) : Except Misuse Role :=
    match spec.candidates s with
    | [(name, o, attached)] => .ok (.option o name attached)
    | [] =>
      if isNegativeNumber s || s.contains ' ' then .ok .plain else .ok .unknown
    | several => .error (.ambiguous arg (several.map (·.1)))

/-- What each argument is. -/
def Spec.tokens (spec : Spec) : List String → Except Misuse (List Token)
  | [] => .ok []
  | arg :: rest =>
    if arg = "--" then .ok (⟨arg, .dashes⟩ :: rest.map fun a => ⟨a, .plain⟩)
    else do
      let role ← spec.classify arg
      let others ← spec.tokens rest
      return ⟨arg, role⟩ :: others

/-! ### Filling the places -/

/-- Whether an argument is the two dashes. -/
def Token.isDashes (t : Token) : Bool :=
  match t.role with
  | .dashes => true
  | _ => false

/-- Takes one argument, together with two dashes before or after it. -/
def takeOne (tokens : List Token) : Option (List Token × List Token) :=
  match tokens.dropWhile Token.isDashes with
  | t :: rest =>
    if t.isOption then none
    else
      some (tokens.takeWhile Token.isDashes ++ t :: rest.takeWhile Token.isDashes,
        rest.dropWhile Token.isDashes)
  | [] => none

/-- Takes the arguments for a place: what is taken and what is left. -/
def Slot.take (tokens : List Token) : Slot → Option (List Token × List Token)
  | .file => takeOne tokens
  | .values => some (tokens.takeWhile fun t => !t.isOption, tokens.dropWhile fun t => !t.isOption)
  | .command => (takeOne tokens).map fun _ => (tokens, [])

/-- A place with the arguments that fill it. -/
structure Filled where
  slot : Slot
  arguments : List String

/-- The arguments of a place without the first two dashes among them; a command keeps all. -/
def Slot.fill (slot : Slot) (taken : List Token) : Filled :=
  let texts := taken.map (·.text)
  ⟨slot, if slot = .command then texts else texts.erase "--"⟩

/-- Fills as many places as possible, from left to right. -/
def fillSlots (tokens : List Token) : List Slot → List Filled × List Slot × List Token
  | [] => ([], [], tokens)
  | slot :: slots =>
    match slot.take tokens with
    | none => ([], slot :: slots, tokens)
    | some (taken, rest) =>
      let (filled, left, rest') := fillSlots rest slots
      (slot.fill taken :: filled, left, rest')

/-! ### Taking options -/

/-- The options that one argument names: options without a value that are run together, and the last
option with the value attached to it. -/
structure Cluster where
  flags : List Opt
  last : Opt
  value : Option String

/-- The options that an argument names when a text is attached to the option `o`. An option that has
a value takes the text for it. After a one-letter option without a value the text begins with the
letter of another one; if no option has that letter, the whole text is refused. -/
def Spec.cluster (spec : Spec) (o : Opt) (name : String) : List Char → Except Misuse Cluster
  | [] => if o.takesValue then .ok ⟨[], o, some ""⟩ else .error (.ignoredValue o.title "")
  | letter :: rest =>
    let text := String.ofList (letter :: rest)
    if o.takesValue then .ok ⟨[], o, some text⟩
    else if name.toList.take 2 == ['-', '-'] then .error (.ignoredValue o.title text)
    else
      let name' := String.ofList ['-', letter]
      match spec.find? name', rest with
      | none, _ => .error (.ignoredValue o.title text)
      | some o', [] => .ok ⟨[o], o', none⟩
      | some o', _ => do
        let c ← spec.cluster o' name' rest
        return { c with flags := o :: c.flags }

/-- Something that the arguments ask for. An option that takes a value can lack it. -/
inductive Item where
  | option (flag : Flag) (value : Option String)
  | slot (filled : Filled)

/-- An option with a value, if the value is allowed. Two dashes stand for no value at all, which
always is. -/
def Opt.withValue (o : Opt) (value : String) : Except Misuse Item :=
  if value = "--" then .ok (.option o.flag none)
  else match o.choices with
    | none => .ok (.option o.flag (some value))
    | some choices =>
      if choices.contains value then .ok (.option o.flag (some value))
      else .error (.invalidChoice o.title value choices)

/-- The items of an arguments list, in order, up to the first misuse. Without a misuse, the
arguments for which there was no place are given. -/
structure Parsed where
  items : List Item
  outcome : Except Misuse (List String)

/-- Puts items in front. -/
def Parsed.after (items : List Item) (p : Parsed) : Parsed := ⟨items ++ p.items, p.outcome⟩

/-- Ends with an option that has a value, if the value is allowed, and goes on with the rest. -/
def Parsed.valued (flags : List Item) (o : Opt) (value : String) (rest : Parsed) : Parsed :=
  match o.withValue value with
  | .ok item => rest.after (flags ++ [item])
  | .error e => ⟨flags, .error e⟩

/-- Reads classified arguments: places are filled between the options as far as possible, and what
remains before an option has no place. -/
def Spec.consume (spec : Spec) (slots : List Slot) (extras : List String) (tokens : List Token) :
    Parsed :=
  match tokens with
  | [] => finish (fillSlots [] slots) extras
  | t :: rest =>
    match t.role with
    | .unknown => spec.consume slots (extras ++ [t.text]) rest
    | .option o name attached =>
      let cluster : Except Misuse Cluster := match attached with
        | none => .ok ⟨[], o, none⟩
        | some text => spec.cluster o name text.toList
      match cluster with
      | .error e => ⟨[], .error e⟩
      | .ok ⟨run, last, value⟩ =>
        let flags := run.map fun o => Item.option o.flag none
        match value with
        | some value => (spec.consume slots extras rest).valued flags last value
        | none =>
          if last.takesValue then
            match rest with
            | ⟨value, .plain⟩ :: rest' => (spec.consume slots extras rest').valued flags last value
            | _ => ⟨[], .error (.missingValue last.title)⟩
          else (spec.consume slots extras rest).after (flags ++ [.option last.flag none])
    | _ =>
      let (filled, left, remaining) := fillSlots (t :: rest) slots
      if !rest.any Token.isOption then finish (filled, left, remaining) extras
      else if _h : remaining.length < (t :: rest).length then
        (spec.consume left extras remaining).after (filled.map .slot)
      else
        let skipped := t.text :: (rest.takeWhile fun t => !t.isOption).map (·.text)
        (spec.consume left (extras ++ skipped) (rest.dropWhile fun t => !t.isOption)).after
          (filled.map .slot)
termination_by tokens.length
decreasing_by
  all_goals simp only [List.length_cons] at *
  all_goals try omega
  have := (List.dropWhile_sublist (l := rest) fun t => !t.isOption).length_le
  omega
where
  /-- Ends when no option follows: every place has to be filled, except that of a command. -/
  finish : List Filled × List Slot × List Token → List String → Parsed
  | (filled, left, remaining), extras =>
    let missing := left.filter (· ≠ .command)
    ⟨filled.map .slot,
      if missing.isEmpty then .ok (extras ++ remaining.map (·.text))
      else .error (.missing (missing.map Slot.title))⟩

/-- Reads arguments. -/
def Spec.parse (spec : Spec) (args : List String) : Parsed :=
  match spec.tokens args with
  | .error e => ⟨[], .error e⟩
  | .ok tokens => spec.consume spec.slots [] tokens

end Clausal.CommandLine
