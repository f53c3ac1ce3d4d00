import InlineCheck.CheckError
import InlineCheck.Host

/-!
# The project of a file

A project is a directory with a marker file.  The project of a file is the nearest directory
above it that has one; only so many directories are looked at.
-/

namespace InlineCheck.ProjectRoot

variable {m : Type → Type} [Monad m]

/-- The file that marks a project. -/
def marker : Path := ⟨".flowconfig"⟩

/-- How many directories are looked at. -/
def maxAscent : Nat := 100

/-- The first directory with a marker, from the given one upwards, of at most `most`
directories. -/
def ascend (host : Host m) : Nat → Option Path → m (Option Path)
  | 0, _ => return none
  | _, none => return none
  | most + 1, some dir => do
    if ← host.isFile (dir.join marker) then return some dir
    ascend host most dir.parent?

/-- The path seen from the directory a program works in. -/
def absolute? (host : Host m) (file : Path) : m (Option Path) := do
  if file.isAbsolute then return some file
  match ← host.currentDir with
  | .ok dir => return some (dir.join file)
  | .error _ => return none

/-- The project of a file, if it is among the first `most` directories above it. -/
def locateWithin (host : Host m) (most : Nat) (file : Path) : m (Except CheckError Path) := do
  let start := (← absolute? host file).bind Path.parent?
  match ← ascend host most start with
  | some root => return .ok root
  | none => return .error (.rootNotFound file)

/-- The project of a file. -/
def locate (host : Host m) (file : Path) : m (Except CheckError Path) :=
  locateWithin host maxAscent file

end InlineCheck.ProjectRoot
