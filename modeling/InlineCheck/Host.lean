import InlineCheck.Path
import InlineCheck.Text.Quoted

/-!
# The machine a program runs on

`Host` is all that the library asks of the machine: questions about files and the
environment, the standard input, and starting another program.  Its answers come in a monad,
so the same program runs on a real machine and on one that is held in memory
(`InlineCheck.Machine`), where they are plain values.
-/

namespace InlineCheck

/-- A program to start. -/
structure Launch where
  /-- The program, seen from the directory it works in.  A name without a slash is looked up on
  the search path, whose relative entries are seen from there too. -/
  program : Path
  arguments : List String
  /-- The directory it works in. -/
  directory : Path
  /-- What it can read from its standard input. -/
  input : List UInt8
deriving DecidableEq, Repr

/-- How a program ended and what it wrote. -/
structure Exit where
  /-- The exit code; none if a signal ended the program. -/
  code : Option Nat
  out : List UInt8
  err : List UInt8
deriving DecidableEq, Repr

/-- What the library asks of the machine, answered in the monad `m`. -/
structure Host (m : Type → Type) where
  /-- The directory that relative paths start from, or why there is none. -/
  currentDir : m (Except String Path)
  /-- Whether the path leads to a regular file. -/
  isFile : Path → m Bool
  /-- Whether the path leads to a regular file that may be executed. -/
  isProgram : Path → m Bool
  /-- The absolute path without links to what the path leads to, if that exists. -/
  canonical? : Path → m (Option Path)
  /-- The text of a file, if it can be read and is UTF-8. -/
  readText? : Path → m (Option String)
  /-- The value of an environment variable. -/
  environment? : String → m (Option String)
  /-- The home directory of the account that the program runs for, if that is known. -/
  accountHome? : m (Option Path)
  /-- Starts a program and waits for its end, or tells why it could not be started. -/
  launch : Launch → m (Except String Exit)
  /-- The order in which so many checks end that run at the same time, by their numbers
  from 0. -/
  endOrder : Nat → m (List Nat)
  /-- All bytes of the standard input. -/
  input : m (List UInt8)
  /-- Starts watching a directory, or tells why it cannot be watched. -/
  watch : Path → m (Except String Unit)

/-- Why a directory cannot be watched. -/
def watchRefused (reason : String) (directory : Path) : String :=
  reason ++ " about [" ++ Text.quoted directory.text ++ "]"

/-- Why a directory that does not exist cannot be watched. -/
def watchMissing (directory : Path) : String :=
  watchRefused "No path was found." directory

/-- The path with its links resolved, or as it is if it leads nowhere. -/
def Host.normalize {m : Type → Type} [Monad m] (host : Host m) (p : Path) : m Path := do
  return (← host.canonical? p).getD p

/-- Whether a path that was reported as changed is a file that a run checks.  The reported path
may go through links; the file's does not. -/
def Host.sameFile {m : Type → Type} [Monad m] (host : Host m) (reported file : Path) :
    m Bool := do
  if reported.same file then return true
  match ← host.canonical? reported with
  | some p => return p.same file
  | none => return false

end InlineCheck
