import InlineCheck.Format
import InlineCheck.Summary

/-!
# Command-line arguments

An argument is an option with a value, a switch, or a file.

* The value of an option stands behind `=` or is the next argument, unless that looks like an
  option itself; a lone `-` does not.
* Behind `--`, every argument is a file.
* No option may be given twice, and a switch takes no value.

An option that waits for its value, or has just got it from the next argument, is only settled
when a further argument that is known is met, or at the end.  An argument that is not known
comes before anything that is wrong with such an option.
-/

namespace InlineCheck

/-- What the command line asks for. -/
structure Arguments where
  files : List String
  workspace : String
  output : Format
  threshold : Threshold
  /-- The text of the one file comes from the standard input. -/
  stdin : Bool
  watch : Bool
  /-- The screen is not cleared while watching. -/
  preserveWatchOutput : Bool
  failOnWarnings : Bool
  flowBin? : Option String
  /-- Only the version of the checker is asked for. -/
  flowVersion : Bool
deriving DecidableEq, Repr

namespace Arguments

/-- Why a command line yields no arguments. -/
inductive Stop
  | unknownArgument
  | invalidValue
  | argumentConflict
  | tooManyValues
  /-- The help was asked for, in full or as an overview. -/
  | help (full : Bool)
  | version
deriving DecidableEq, Repr

/-- An option with a value. -/
inductive Setting
  | workspace
  | output
  | threshold
  | flowBin
deriving DecidableEq, Repr

/-- An option without a value. -/
inductive Switch
  | stdin
  | watch
  | preserveWatchOutput
  | failOnWarnings
  | flowVersion
deriving DecidableEq, Repr

/-- What an option with two dashes stands for. -/
inductive Known
  | setting (s : Setting)
  | switch (s : Switch)
  | stop (s : Stop)

/-- The meaning of the name of an option with two dashes. -/
def known? (name : String) : Option Known :=
  match name with
  | "workspace" => some (.setting .workspace)
  | "output" => some (.setting .output)
  | "threshold" => some (.setting .threshold)
  | "flow-bin" => some (.setting .flowBin)
  | "stdin" => some (.switch .stdin)
  | "watch" => some (.switch .watch)
  | "preserveWatchOutput" => some (.switch .preserveWatchOutput)
  | "fail-on-warnings" => some (.switch .failOnWarnings)
  | "flow-version" => some (.switch .flowVersion)
  | "help" => some (.stop (.help true))
  | "version" => some (.stop .version)
  | _ => none

/-- The meaning of a letter behind one dash. -/
def letter? (c : Char) : Option Stop :=
  match c with
  | 'h' => some (.help false)
  | 'V' => some .version
  | _ => none

/-- The output format of the given name. -/
def format? (name : String) : Option Format :=
  match name with
  | "human" => some .human
  | "human-verbose" => some .humanVerbose
  | "json" => some .json
  | "machine" => some .machine
  | _ => none

/-- The threshold of the given name. -/
def threshold? (name : String) : Option Threshold :=
  match name with
  | "error" => some .error
  | "warning" => some .warning
  | _ => none

/-- What was given so far. -/
structure Given where
  files : List String
  workspace? : Option String
  output? : Option Format
  threshold? : Option Threshold
  flowBin? : Option String
  switches : List Switch
  /-- The option that is not settled yet, with its value if it has one. -/
  pending? : Option (Setting × Option String)
  /-- Whether the next argument may be the value of the pending option. -/
  awaits : Bool
  /-- Whether `--` was met. -/
  filesOnly : Bool

namespace Given

/-- Nothing given yet. -/
def nothing : Given := ⟨[], .none, .none, .none, .none, [], .none, false, false⟩

/-- Gives an option its value. -/
def set (g : Given) (setting : Setting) (value : String) : Except Stop Given :=
  match setting with
  | .workspace =>
    if g.workspace?.isSome then .error .argumentConflict
    else .ok { g with workspace? := some value }
  | .flowBin =>
    if g.flowBin?.isSome then .error .argumentConflict
    else .ok { g with flowBin? := some value }
  | .output =>
    if g.output?.isSome then .error .argumentConflict
    else match format? value with
      | some format => .ok { g with output? := some format }
      | .none => .error .invalidValue
  | .threshold =>
    if g.threshold?.isSome then .error .argumentConflict
    else match Arguments.threshold? value with
      | some threshold => .ok { g with threshold? := some threshold }
      | .none => .error .invalidValue

/-- Settles the pending option. -/
def settle (g : Given) : Except Stop Given :=
  match g.pending? with
  | .none => .ok g
  | some (_, .none) => .error .invalidValue
  | some (setting, some value) => { g with pending? := .none, awaits := false }.set setting value

/-- Takes an option with two dashes, with the value behind its `=` if there is one. -/
def takeOption (g : Given) (name : String) (value? : Option String) : Except Stop Given :=
  match known? name, value? with
  | .none, _ => .error .unknownArgument
  | some (.setting setting), some value => do (← g.settle).set setting value
  | some (.setting setting), .none => do
    return { ← g.settle with pending? := some (setting, .none), awaits := true }
  | some (.switch _), some _ => .error .tooManyValues
  | some (.stop _), some _ => .error .tooManyValues
  | some (.switch s), .none => do
    let g ← g.settle
    if g.switches.contains s then throw .argumentConflict
    return { g with switches := s :: g.switches }
  | some (.stop s), .none => do
    let _ ← g.settle
    throw s

/-- Takes letters behind one dash; the first of them decides. -/
def takeLetters (g : Given) (letters : List Char) : Except Stop Given :=
  match letters.head?.bind letter? with
  | some s => do
    let _ ← g.settle
    throw s
  | .none => .error .unknownArgument

/-- Takes the value of the pending option, or a file. -/
def takePlain (g : Given) (text : String) : Except Stop Given :=
  match g.awaits && !g.filesOnly, g.pending? with
  | true, some (setting, _) =>
    .ok { g with pending? := some (setting, some text), awaits := false }
  | _, _ => do
    let g ← g.settle
    return { g with files := g.files ++ [text] }

/-- Takes one argument. -/
def take (g : Given) (text : String) : Except Stop Given :=
  if g.filesOnly then g.takePlain text
  else
    match text.toList with
    | ['-', '-'] => .ok { g with filesOnly := true }
    | '-' :: '-' :: rest =>
      let name := rest.takeWhile (· ≠ '=')
      let value? := if name.length < rest.length
        then some (String.ofList (rest.drop (name.length + 1))) else .none
      g.takeOption (String.ofList name) value?
    | '-' :: c :: rest => g.takeLetters (c :: rest)
    | _ => g.takePlain text

/-- The arguments at the end of the command line. -/
def close (g : Given) : Except Stop Arguments := do
  let g ← g.settle
  if g.switches.contains .stdin && g.switches.contains .watch then throw .argumentConflict
  return {
    files := g.files
    workspace := g.workspace?.getD "."
    output := g.output?.getD .human
    threshold := g.threshold?.getD .warning
    stdin := g.switches.contains .stdin
    watch := g.switches.contains .watch
    preserveWatchOutput := g.switches.contains .preserveWatchOutput
    failOnWarnings := g.switches.contains .failOnWarnings
    flowBin? := g.flowBin?
    flowVersion := g.switches.contains .flowVersion }

end Given

/-- The arguments of a command line, without the name of the program. -/
def parse (texts : List String) : Except Stop Arguments := do
  (← texts.foldlM Given.take Given.nothing).close

end Arguments

end InlineCheck
