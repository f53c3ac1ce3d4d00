import InlineCheck.Host

/-!
# The search path

The search path is a text in the environment, and its entries stand between colons
(`SearchPath.entriesOf`).  There are two ways to read them:

* whoever looks for the place of a program takes an entry for a directory
  (`SearchPath.directoryOf`).  An entry below `~` is seen from the home directory, and what is
  still relative then is seen from the directory the looker works in;
* whoever starts a program by its name tries one path for each entry, as it is written
  (`SearchPath.attempts`).
-/

namespace InlineCheck.SearchPath

/-- The environment variable that holds the search path. -/
def pathVariable : String := "PATH"

/-- The environment variable that holds the home directory. -/
def homeVariable : String := "HOME"

/-- The entries between the colons of a text; there is always one. -/
def entriesOf (text : String) : List Path :=
  (text.toList.splitOn ':').map fun entry => ⟨String.ofList entry⟩

/-! ## Looking for a program -/

/-- A path below `~` as it is seen from the home directory. -/
def fromHome (home? : Option Path) (p : Path) : Path :=
  match p.components, home? with
  | .name "~" :: below, some home => home.extend below
  | _, _ => p

/-- A relative path as it is seen from a directory.  What is below `~` even now stays as it
is. -/
def fromCurrent (current? : Option Path) (p : Path) : Path :=
  match p.components, current? with
  | .root :: _, _ => p
  | .name "~" :: _, _ => p
  | components, some dir => dir.extend (components.dropWhile (· = .here))
  | _, none => p

/-- The directory that an entry stands for. -/
def directoryOf (home? current? : Option Path) (entry : Path) : Path :=
  fromCurrent current? (fromHome home? entry)

variable {m : Type → Type} [Monad m]

/-- The home directory: the one that the environment names, or else that of the account. -/
def home? (host : Host m) : m (Option Path) := do
  match (← host.environment? homeVariable).filter fun home => !home.isEmpty with
  | some home => return some ⟨home⟩
  | none => host.accountHome?

/-- The directories of the search path; without a search path there are none. -/
def directories (host : Host m) : m (List Path) := do
  match ← host.environment? pathVariable with
  | none => return []
  | some text =>
    let home? ← home? host
    let current? := (← host.currentDir).toOption
    return (entriesOf text).map (directoryOf home? current?)

/-! ## Starting a program -/

/-- How many bytes a path may have that is handed to the operating system in one piece. -/
def maxLength : Nat := 4095

/-- The path that is tried for an entry.  The empty entry stands for the directory that the
program works in. -/
def attempt (entry name : Path) : Path :=
  if entry.text.isEmpty then name else ⟨entry.text ++ "/" ++ name.text⟩

/-- The paths that are tried for a name, in order.  An entry that alone is too long counts as
the empty entry, and not at all if it is the last one. -/
def attempts (name : Path) : List Path → List Path
  | [] => []
  | entry :: rest =>
    if entry.text.utf8ByteSize ≤ maxLength then attempt entry name :: attempts name rest
    else if rest.isEmpty then []
    else name :: attempts name rest

end InlineCheck.SearchPath
