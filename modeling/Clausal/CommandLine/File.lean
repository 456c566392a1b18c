import Clausal.Format
import Clausal.Text.Quoted

/-!
# Files

Paths, the reasons why a file cannot be opened, and loading a formula from a file. A small tree of
files in memory tells what there is at a path.
-/

namespace Clausal.CommandLine

/-- A path without empty components and without those that stand for the directory itself. -/
structure Path where
  /-- The slashes at the start of a path that does not start at the current directory. -/
  root : String
  components : List String
  deriving DecidableEq, Repr

namespace Path

/-- The path that a text writes. Two slashes at the start are kept, and more count as one. -/
def ofString (s : String) : Path :=
  let cs := s.toList
  let slashes := (cs.takeWhile (· = '/')).length
  ⟨if slashes = 0 then "" else if slashes = 2 then "//" else "/",
    ((Text.fields '/' cs).filter fun c => !(c.isEmpty || c == ['.'])).map String.ofList⟩

/-- The text of a path; the current directory is a single dot. -/
def render (p : Path) : String :=
  if p.root.isEmpty && p.components.isEmpty then "." else p.root ++ "/".intercalate p.components

end Path

/-- Why a file cannot be opened. -/
inductive OpenFault where
  | missing
  | notADirectory
  | isADirectory
  | nameTooLong
  | other (number : Nat) (text : String)
  deriving DecidableEq, Repr

/-- The number and the name of a fault. -/
def OpenFault.describe : OpenFault → Nat × String
  | .missing => (2, "No such file or directory")
  | .notADirectory => (20, "Not a directory")
  | .isADirectory => (21, "Is a directory")
  | .nameTooLong => (36, "File name too long")
  | .other number text => (number, text)

/-- The fault with a number; of one that has no name here, the text is given. -/
def OpenFault.ofNumber (number : Nat) (text : String) : OpenFault :=
  match [missing, notADirectory, isADirectory, nameTooLong].find? (·.describe.1 == number) with
  | some fault => fault
  | none => .other number text

/-- Wording of a fault at a path. -/
def OpenFault.message (fault : OpenFault) (p : Path) : String :=
  let (number, text) := fault.describe
  "[Errno " ++ Nat.repr number ++ "] " ++ text ++ ": " ++ Text.quote p.render

/-- The content of a file, or why there is none. -/
abbrev Content := Except OpenFault (List UInt8)

/-! ### Files in memory -/

/-- Files and directories by where they are: by the components that lead to them from the current
directory, or from the root of all directories after a single slash. Two dots at the start lead out
of the current directory. -/
structure FileTree where
  files : List (List String × List UInt8)
  directories : List (List String)

namespace FileTree

/-- Where the root of all directories is. -/
def root : List String := ["/"]

/-- What every system has: the standard directories, and the device that is always empty. -/
def standard : FileTree where
  files := [(root ++ ["dev", "null"], [])]
  directories := ["bin", "boot", "dev", "etc", "home", "lib", "media", "mnt", "opt", "proc", "root",
    "run", "sbin", "srv", "sys", "tmp", "usr", "var"].map fun name => root ++ [name]

/-- Where a path starts. -/
def start (p : Path) : List String := if p.root.isEmpty then [] else root

/-- Where two dots lead. The root is its own parent. -/
def parent (here : List String) : List String :=
  if here = root then root else if here.all (· == "..") then here ++ [".."] else here.dropLast

/-- Where a component leads. -/
def step (here : List String) (component : String) : List String :=
  if component = ".." then parent here else here ++ [component]

/-- The places that a path passes, its start left out. -/
def passed (here : List String) : List String → List (List String)
  | [] => []
  | c :: rest => step here c :: passed (step here c) rest

/-- The tree with a directory, and with those on the way to it. -/
def addDirectory (t : FileTree) (p : Path) : FileTree :=
  { t with directories := t.directories ++ passed (start p) p.components }

/-- The tree with a file, and with the directories on the way to it. -/
def addFile (t : FileTree) (p : Path) (bytes : List UInt8) : FileTree :=
  let places := passed (start p) p.components
  ⟨(places.getLastD (start p), bytes) :: t.files, t.directories ++ places.dropLast⟩

/-- Whether there is a directory at a place. The current directory and those above it always exist.
-/
def isDirectory (t : FileTree) (here : List String) : Bool :=
  here.all (· == "..") || here == root || t.directories.contains here

/-- Looks up components one after the other, from where `here` leads. -/
def walk (t : FileTree) (here : List String) : List String → Content
  | [] =>
    if t.isDirectory here then .error .isADirectory
    else match t.files.lookup here with
      | some bytes => .ok bytes
      | none => .error .missing
  | c :: rest =>
    if !t.isDirectory here then
      if (t.files.lookup here).isSome then .error .notADirectory else .error .missing
    else if 255 < c.utf8ByteSize then .error .nameTooLong
    else t.walk (step here c) rest

/-- What there is at a path. A path of 4096 bytes or more leads nowhere. -/
def content (t : FileTree) (p : Path) : Content :=
  if 4096 ≤ p.render.utf8ByteSize then .error .nameTooLong
  else t.walk (start p) p.components

end FileTree

/-! ### Loading -/

/-- What came of loading a formula. -/
inductive Loaded where
  | formula (W : Workspace)
  /-- The file could not be read as a formula. -/
  | unreadable (reason : String)

/-- Reads a formula from the content of the file at a path. A file that cannot be opened or is
malformed is unreadable; one that is not text at all is an error. -/
def load (p : Path) (content : Content) : Report Loaded :=
  match content with
  | .error fault => .silent (.ok (.unreadable (fault.message p)))
  | .ok bytes =>
    match Text.Utf8.decode bytes with
    | .error fault => .silent (.error (.undecodable fault))
    | .ok cs =>
      let r := Format.parse (Text.unifyNewlines cs)
      match r.result with
      | .ok W => ⟨r.events, .ok (.formula W)⟩
      | .error e => ⟨r.events, .ok (.unreadable e.message)⟩

end Clausal.CommandLine
