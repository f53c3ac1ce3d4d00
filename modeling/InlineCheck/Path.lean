/-!
# Paths

A path is kept as it was written, and compared by its components.  Repeated slashes, a
trailing slash and a `.` that does not come first add no component, so they matter neither
for equality (`Path.same`) nor for order; `..` is a component like any other.

* `Path.components` is the view by which paths are compared, by `Path.same` for equality and
  by `Path.order` for their order.
* `Path.parent?`, `Path.join` and `Path.extension?` take paths apart and put them together
  and leave the rest of the text as it was written.

Components are ordered with the root first, then `.`, `..`, and names by their code points.
-/

namespace InlineCheck

/-- A path as it was written. -/
structure Path where
  text : String
deriving DecidableEq, Repr, Inhabited

/-- A part of a path that matters for comparison. -/
inductive Component
  | root
  | here
  | up
  | name (text : String)
deriving DecidableEq, Repr

namespace Component

/-- The place of the component among the kinds of components. -/
def kind : Component → Nat
  | root => 0
  | here => 1
  | up => 2
  | name _ => 3

/-- The text of a name; other components have none. -/
def label : Component → String
  | name text => text
  | _ => ""

instance : Ord Component :=
  ⟨compareLex (compareOn kind) (compareOn label)⟩

instance : Std.TransOrd Component :=
  inferInstanceAs (Std.TransCmp (compareLex (compareOn kind) (compareOn label)))

instance : Std.LawfulEqOrd Component where
  eq_of_compare {a b} h := by
    have h' : ((compare a.kind b.kind).then (compare a.label b.label)) = .eq := h
    rw [Ordering.then_eq_eq, Std.LawfulEqOrd.compare_eq_iff_eq,
      Std.LawfulEqOrd.compare_eq_iff_eq] at h'
    cases a <;> cases b <;> simp_all [kind, label]

/-- The text of a component. -/
def text : Component → String
  | root => "/"
  | here => "."
  | up => ".."
  | name text => text

/-- The component that a part between slashes stands for, if it is not the first part. -/
def ofPart? : List Char → Option Component
  | [] => none
  | ['.'] => none
  | ['.', '.'] => some up
  | part => some (name (String.ofList part))

/-- The component that the first part stands for; `alone` says that no slash comes after
it. -/
def ofFirst? (alone : Bool) : List Char → Option Component
  | [] => if alone then none else some root
  | ['.'] => some here
  | part => ofPart? part

end Component

namespace Path

/-! ## Components -/

/-- The parts between the slashes of a text; there is always a first one. -/
def parts : List Char → List Char × List (List Char)
  | [] => ([], [])
  | c :: cs =>
    let (first, rest) := parts cs
    if c = '/' then ([], first :: rest) else (c :: first, rest)

/-- The components of a text. -/
def componentsOf (cs : List Char) : List Component :=
  let (first, rest) := parts cs
  (Component.ofFirst? rest.isEmpty first).toList ++ rest.filterMap Component.ofPart?

/-- The components of the path, in order. -/
def components (p : Path) : List Component :=
  componentsOf p.text.toList

/-- Whether two paths have the same components. -/
def same (p q : Path) : Bool :=
  p.components == q.components

/-- Compares the components of two paths. -/
def order : Path → Path → Ordering :=
  compareOn components

instance : Std.TransCmp order :=
  inferInstanceAs (Std.TransCmp (compareOn components))

theorem order_eq_iff {p q : Path} : order p q = .eq ↔ p.components = q.components := by
  simp [order, compareOn]

/-- Whether the path starts at the root. -/
def isAbsolute (p : Path) : Bool :=
  p.text.toList.head? == some '/'

/-! ## Taking apart and putting together -/

/-- Whether a part that is not the first adds no component. -/
def isSilent (part : List Char) : Bool :=
  (Component.ofPart? part).isNone

/-- The parts without the silent ones at their end. -/
def dropSilentEnd (ps : List (List Char)) : List (List Char) :=
  (ps.reverse.dropWhile isSilent).reverse

/-- The text of which these are the parts. -/
def joinParts (first : List Char) (rest : List (List Char)) : List Char :=
  first ++ rest.flatMap ('/' :: ·)

/-- The path without its last component, the rest as it was written.  The root and the empty
path have no parent. -/
def parent? (p : Path) : Option Path :=
  let (first, rest) := parts p.text.toList
  match dropSilentEnd rest with
  | [] => if first.isEmpty then none else some ⟨""⟩
  | part :: body =>
    match dropSilentEnd (part :: body).dropLast with
    | [] => some ⟨if first.isEmpty then "/" else String.ofList first⟩
    | kept => some ⟨String.ofList (joinParts first kept)⟩

/-- The path `q` seen from `p`: an absolute path stays as it is. -/
def join (p q : Path) : Path :=
  if q.isAbsolute then q
  else
    let left := p.text.toList
    if left.isEmpty || left.getLast? == some '/' then ⟨p.text ++ q.text⟩
    else ⟨p.text ++ "/" ++ q.text⟩

/-- The path with components put below it, one by one. -/
def extend (p : Path) (below : List Component) : Path :=
  below.foldl (fun above c => above.join ⟨c.text⟩) p

/-- The last component, if it is a name. -/
def fileName? (p : Path) : Option String :=
  match p.components.getLast? with
  | some (.name text) => some text
  | _ => none

/-- What follows the last dot of the last name.  A name without a dot, or whose only dot comes
first, has no extension. -/
def extension? (p : Path) : Option String := do
  let name ← p.fileName?
  let ending := name.toList.reverse.takeWhile (· ≠ '.')
  if ending.length + 1 < name.toList.length then some (String.ofList ending.reverse) else none

/-! ## Checkable files -/

/-- The extensions of the files that are checked. -/
def checkableExtensions : List String := ["js", "jsx", "mjs", "cjs"]

/-- Whether the file is one that is checked; the case of ASCII letters does not matter. -/
def isCheckable (p : Path) : Bool :=
  match p.extension? with
  | some ending => checkableExtensions.contains (ending.map Char.toLower)
  | none => false

end Path

end InlineCheck
