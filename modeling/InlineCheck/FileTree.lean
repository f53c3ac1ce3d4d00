import InlineCheck.SearchPath

/-!
# Files in memory

A `FileTree` holds directories, files, links and programs under the names that lead to them
from the root.  `FileTree.walk` follows a path: `..` leads to the directory above the one
reached so far, so it is not the same as dropping a name from the path when links are
involved, and only a directory can have something below it.  At most 40 links are followed.

* `FileTree.locate` gives the names of what a path leads to.  The path is handed to the
  operating system in one piece, which must not be too long.
* `FileTree.resolve` does the same step by step: the path may be of any length, but every
  directory on the way needs a path of its own that is not too long.
* `FileTree.add` puts an entry into a tree, with the directories above it.

The texts of refusals are those of the operating system.
-/

namespace InlineCheck

/-- What a name in a directory stands for. -/
inductive FileTree.Entry
  | directory
  | file (bytes : List UInt8) (executable : Bool)
  | link (target : String)
  /-- A program, as what it does when it is started, and how many interpreters the operating
  system asks for it. -/
  | program (interpreters : Nat) (run : Launch → Exit)

/-- Files by the names that lead to them from the root. -/
structure FileTree where
  entries : List (List String × FileTree.Entry)

namespace FileTree

/-- Why the operating system refuses a request. -/
inductive Refusal
  | notFound
  | denied
  | notDirectory
  | tooManyLinks
  | nameTooLong
  | argumentsTooLong
  | notExecutable
  | nothingTried
  | nulByte
deriving DecidableEq, Repr

/-- The operating system's wording. -/
def Refusal.message : Refusal → String
  | notFound => "No such file or directory (os error 2)"
  | denied => "Permission denied (os error 13)"
  | notDirectory => "Not a directory (os error 20)"
  | tooManyLinks => "Too many levels of symbolic links (os error 40)"
  | nameTooLong => "File name too long (os error 36)"
  | argumentsTooLong => "Argument list too long (os error 7)"
  | notExecutable => "Exec format error (os error 8)"
  | nothingTried => "No child processes (os error 10)"
  | nulByte => "nul byte found in provided data"

/-- Whether the search for a program goes on after the refusal. -/
def Refusal.passedOver : Refusal → Bool
  | notFound => true
  | denied => true
  | notDirectory => true
  | _ => false

/-- The tree of an empty root directory. -/
def empty : FileTree := ⟨[]⟩

/-- What the names lead to, no links followed. -/
def entry? (tree : FileTree) (names : List String) : Option Entry :=
  if names.isEmpty then some .directory else tree.entries.lookup names

/-! ## Following paths -/

/-- How many links are followed on one way. -/
def maxLinks : Nat := 40

/-- How many bytes a name may have. -/
def maxName : Nat := 255

/-- The absolute path of names. -/
def pathOf (names : List String) : Path :=
  ⟨"/" ++ String.intercalate "/" names⟩

/-- Whether a path may be handed to the operating system in one piece. -/
def fits (p : Path) : Bool :=
  p.text.utf8ByteSize ≤ SearchPath.maxLength

/-- The parts of a path between its slashes. -/
def steps (p : Path) : List String :=
  let (first, rest) := Path.parts p.text.toList
  (first :: rest).map String.ofList

/-- The names of what the steps lead to from a directory, if `may` lets all names on the way
pass.  Where a step is a link, `follow` goes on. -/
def along (tree : FileTree) (may : List String → Bool)
    (follow : List String → List String → Except Refusal (List String)) :
    List String → List String → Except Refusal (List String)
  | dir, [] => .ok dir
  | dir, step :: rest =>
    if step = "" ∨ step = "." then tree.along may follow dir rest
    else if step = ".." then tree.along may follow dir.dropLast rest
    else if maxName < step.utf8ByteSize ∨ !may (dir ++ [step]) then .error .nameTooLong
    else
      match tree.entry? (dir ++ [step]) with
      | none => .error .notFound
      | some .directory => tree.along may follow (dir ++ [step]) rest
      | some (.link target) =>
        follow (if (Path.mk target).isAbsolute then [] else dir) (steps ⟨target⟩ ++ rest)
      | some _ => if rest.isEmpty then .ok (dir ++ [step]) else .error .notDirectory

/-- The names of what the steps lead to from a directory, when so many links may be
followed. -/
def walk (tree : FileTree) (may : List String → Bool) :
    Nat → List String → List String → Except Refusal (List String)
  | 0 => tree.along may fun _ _ => .error .tooManyLinks
  | links + 1 => tree.along may (tree.walk may links)

/-- The names of what a path leads to from a directory, if `may` lets all names on the way
pass. -/
def follow (tree : FileTree) (may : List String → Bool) (dir : List String) (p : Path) :
    Except Refusal (List String) :=
  if p.text.isEmpty then .error .notFound
  else tree.walk may maxLinks (if p.isAbsolute then [] else dir) (steps p)

/-- The names of what a path leads to from a directory, found step by step. -/
def resolve (tree : FileTree) (dir : List String) (p : Path) : Except Refusal (List String) :=
  tree.follow (fun names => fits (pathOf names)) dir p

/-- The names of what a path leads to from a directory, if the path is not too long. -/
def locate (tree : FileTree) (dir : List String) (p : Path) : Except Refusal (List String) :=
  if fits p then tree.follow (fun _ => true) dir p else .error .nameTooLong

/-- What a path leads to from a directory, if the path is not too long. -/
def find (tree : FileTree) (dir : List String) (p : Path) : Except Refusal Entry := do
  match tree.entry? (← tree.locate dir p) with
  | some entry => .ok entry
  | none => .error .notFound

/-! ## Building trees -/

/-- The tree with an entry under the names, in place of the one there was. -/
def put (tree : FileTree) (names : List String) (entry : Entry) : FileTree :=
  ⟨(names, entry) :: tree.entries.filter fun e => e.1 ≠ names⟩

/-- The names of what the steps lead to from a directory. -/
def reach (tree : FileTree) (dir steps : List String) : Except Refusal (List String) :=
  tree.walk (fun _ => true) maxLinks dir steps

/-- The steps of a path that lead somewhere else. -/
def realSteps (p : Path) : List String :=
  (steps p).filter fun step => step ≠ "" ∧ step ≠ "."

/-- Goes one step down from a directory, and makes the directory it leads to if there is
nothing. -/
def enter (place : FileTree × List String) (step : String) : FileTree × List String :=
  let (tree, dir) := place
  match tree.reach dir [step] with
  | .ok names => (tree, names)
  | .error _ => (tree.put (dir ++ [step]) .directory, dir ++ [step])

/-- The names under which a file is written that has a name in a directory: where links lead
to, be it there or not, when so many links may be followed. -/
def written (tree : FileTree) : Nat → List String → String → List String
  | 0, dir, name => dir ++ [name]
  | links + 1, dir, name =>
    match tree.entry? (dir ++ [name]) with
    | some (.link target) =>
      let parts := realSteps ⟨target⟩
      match tree.reach (if (Path.mk target).isAbsolute then [] else dir) parts.dropLast,
        parts.getLast? with
      | .ok above, some last => tree.written links above last
      | _, _ => dir ++ [name]
    | _ => dir ++ [name]

/-- The tree with an entry at a path from a directory, and with the directories above it. -/
def add (tree : FileTree) (dir : List String) (p : Path) (entry : Entry) : FileTree :=
  let parts := realSteps p
  match parts.getLast? with
  | none => tree
  | some name =>
    let (tree, above) := parts.dropLast.foldl enter (tree, if p.isAbsolute then [] else dir)
    match entry with
    | .directory => (enter (tree, above) name).1
    | .link _ => tree.put (above ++ [name]) entry
    | _ => tree.put (tree.written maxLinks above name) entry

end FileTree

end InlineCheck
