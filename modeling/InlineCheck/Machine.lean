import InlineCheck.FileTree
import InlineCheck.Script
import InlineCheck.Text.Utf8

/-!
# A machine in memory

A `Machine` is a `FileTree` with all that surrounds a program that runs there.

* `Machine.launch` starts a program from the tree.  It may be a script, which is run by the
  interpreter it names; that may be a script again, but only so many times.
* `Machine.host` answers all questions of a `Host`.
-/

namespace InlineCheck

/-- A machine: its files, the directory a program works in, and what surrounds a program. -/
structure Machine where
  tree : FileTree
  directory : List String
  environment : List (String × String)
  accountHome : Path
  input : List UInt8

namespace Machine

/-- What a path leads to. -/
def find (machine : Machine) (p : Path) : Except FileTree.Refusal FileTree.Entry :=
  machine.tree.find machine.directory p

/-- Whether an entry may be executed. -/
def executable : FileTree.Entry → Bool
  | .file _ executable => executable
  | .program .. => true
  | _ => false

/-- Whether an entry is a regular file. -/
def regular : FileTree.Entry → Bool
  | .file .. => true
  | .program .. => true
  | _ => false

/-! ## Starting programs -/

/-- How many interpreters the operating system asks for one launch. -/
def maxInterpreters : Nat := 5

/-- How many bytes an argument may have, or a variable of the environment with its name. -/
def maxArgument : Nat := 0x1FFFF

/-- The search path of a program that has none in its environment. -/
def usualSearchPath : String := "/bin:/usr/bin"

/-- The launch of an interpreter: the path of the script comes before the arguments of the
script. -/
def interpreting (l : Launch) (i : Script.Interpreter) : Launch :=
  { l with
    program := ⟨Text.decodeName i.program⟩
    arguments := (i.argument?.map Text.decodeLossy).toList ++ l.program.text :: l.arguments }

/-- What the path of a program leads to from a directory, if that may be executed. -/
def executableAt (machine : Machine) (directory : List String) (program : Path) :
    Except FileTree.Refusal FileTree.Entry := do
  let entry ← machine.tree.find directory program
  if executable entry then return entry else throw .denied

/-- Runs what was found for a launch, when so many interpreters may still be asked.  An
interpreter without a name is the directory itself, which may not be executed. -/
def runEntry (machine : Machine) (directory : List String) (interpreters : Nat) (l : Launch)
    (entry : FileTree.Entry) : Except FileTree.Refusal Exit := do
  match entry with
  | .program asked run =>
    if asked ≤ interpreters then return run { l with directory := FileTree.pathOf directory }
    else throw .tooManyLinks
  | .file bytes _ =>
    match Script.interpreter? bytes with
    | none => throw .notExecutable
    | some i =>
      if i.program.isEmpty then throw .denied
      let next := interpreting l i
      let entry ← machine.executableAt directory next.program
      match interpreters with
      | 0 => throw .tooManyLinks
      | interpreters + 1 => machine.runEntry directory interpreters next entry
  | _ => throw .denied

/-- Whether all arguments and the environment can be handed over to a program. -/
def acceptable (machine : Machine) (l : Launch) : Bool :=
  let settings := machine.environment.map fun (name, value) => name ++ "=" ++ value
  (l.arguments ++ settings).all fun text => text.utf8ByteSize ≤ maxArgument

/-- Starts the program that a path leads to from a directory. -/
def execute (machine : Machine) (directory : List String) (l : Launch) :
    Except FileTree.Refusal Exit := do
  let entry ← machine.executableAt directory l.program
  if !machine.acceptable l then throw .argumentsTooLong
  machine.runEntry directory maxInterpreters l entry

/-- Starts the first of some programs that is there.  Those that are not are passed over, and
the last refusal counts; but a program that was there and may not be executed counts more. -/
def executeFirst (machine : Machine) (directory : List String) (l : Launch)
    (refusal : FileTree.Refusal) : List Path → Except FileTree.Refusal Exit
  | [] => .error refusal
  | program :: rest =>
    match machine.execute directory { l with program := program } with
    | .ok exit => .ok exit
    | .error next =>
      if !next.passedOver then .error next
      else machine.executeFirst directory l (if refusal = .denied then refusal else next) rest

/-- Whether no part of the launch holds the character that ends a text in the operating
system. -/
def passable (l : Launch) : Bool :=
  (l.program.text :: l.directory.text :: l.arguments).all fun text => !text.toList.contains '\x00'

/-- The search path that programs are started from. -/
def searchPath (machine : Machine) : List Path :=
  let text? := machine.environment.lookup SearchPath.pathVariable
  SearchPath.entriesOf (text?.getD usualSearchPath)

/-- Starts a program in the directory it shall work in. -/
def launch (machine : Machine) (l : Launch) : Except FileTree.Refusal Exit := do
  if !passable l then throw .nulByte
  let names ← machine.tree.locate machine.directory l.directory
  match machine.tree.entry? names with
  | some .directory =>
    if l.program.text.toList.contains '/' then machine.execute names l
    else if l.program.text.isEmpty then throw .notFound
    else
      machine.executeFirst names l .nothingTried
        (SearchPath.attempts l.program machine.searchPath)
  | _ => throw .notDirectory

/-! ## All questions -/

/-- The host that a machine is. -/
def host (machine : Machine) : Host Id where
  currentDir := .ok (FileTree.pathOf machine.directory)
  isFile p := (machine.find p).toOption.any regular
  isProgram p := (machine.find p).toOption.any executable
  canonical? p :=
    ((machine.tree.resolve machine.directory p).map FileTree.pathOf).toOption
  readText? p :=
    match machine.find p with
    | .ok (.file bytes _) => (Text.decodeStrict bytes).toOption
    | _ => none
  environment? name := machine.environment.lookup name
  accountHome? := some machine.accountHome
  launch l := (machine.launch l).mapError FileTree.Refusal.message
  endOrder count := List.range count
  input := machine.input
  watch p :=
    match machine.find p with
    | .ok _ => .ok ()
    | .error .notFound => .error (watchMissing p)
    | .error refusal => .error (watchRefused refusal.message p)

end Machine

end InlineCheck
