import InlineCheck.Program

/-!
# The command line

Runs the program on the machine it is started on.  `CommandLine.host` answers from the real
files, environment and standard input.  It starts no other program: it refuses every launch,
and the run reports that refusal like any other.
-/

namespace InlineCheck.CommandLine

/-- The answer of an action, or the text of its error. -/
def attempt {α : Type} (action : IO α) : IO (Except String α) := do
  try return .ok (← action)
  catch e => return .error (toString e)

/-- The bytes of a file, if it can be read. -/
def bytes? (p : Path) : IO (Option (List UInt8)) := do
  return (← attempt (IO.FS.readBinFile p.text)).toOption.map fun bytes => bytes.toList

/-- The absolute path without links to what the path leads to, if that exists. -/
def canonical? (p : Path) : IO (Option Path) := do
  return (← attempt (IO.FS.realPath p.text)).toOption.map fun found => ⟨toString found⟩

/-- The machine the program is started on.  A file is what can be read. -/
def host : Host IO where
  currentDir := attempt do return ⟨toString (← IO.currentDir)⟩
  isFile p := return (← bytes? p).isSome
  isProgram p := return (← bytes? p).isSome
  canonical? p := canonical? p
  readText? p := return (← bytes? p).bind fun bytes => (Text.decodeStrict bytes).toOption
  environment? name := IO.getEnv name
  accountHome? := return none
  launch _ := return .error "Operation not permitted (os error 1)"
  endOrder count := return List.range count
  input := return (← (← IO.getStdin).readBinToEnd).toList
  watch p := return if (← canonical? p).isSome then .ok () else .error (watchMissing p)

end InlineCheck.CommandLine

/-- Runs the program with a command line and prints what it says. -/
def main (args : List String) : IO UInt32 := do
  let finished ← InlineCheck.Program.start InlineCheck.CommandLine.host args
  IO.print finished.screen.out
  IO.eprint finished.screen.err
  return finished.code.toUInt32
