import InlineCheck.Index

/-!
# The store of an open document

A store holds the index that is current for one open document, and what is known about it.

* The index is *stale* if the document may have changed since the check behind it began.  A
  new store was never checked, so it is stale.
* The index is *visible* unless it was hidden, as it is while the document is being edited.
* The epoch counts how often the document was marked as changed; it is a 64-bit word and
  starts again from zero after the greatest one.

An index is never changed in place: `replace` and `apply` put a new one in.
-/

namespace InlineCheck

/-- How often a document was marked as changed. -/
abbrev Epoch := UInt64

/-- The current index of a document. -/
structure Store where
  index : Index
  stale : Bool
  epoch : Epoch
  visible : Bool
deriving Inhabited

namespace Store

/-- The store of a document that was never checked. -/
def new : Store := ⟨.empty, true, 0, true⟩

/-- Notes that the document changed. -/
def markStale (s : Store) : Store :=
  { s with stale := true, epoch := s.epoch + 1 }

/-- Hides the diagnostics until the next index is put in. -/
def clearVisible (s : Store) : Store :=
  { s with visible := false }

/-- Puts in an index that is up to date. -/
def replace (s : Store) (index : Index) : Store :=
  { s with index := index, stale := false, visible := true }

/-- Whether the document was not marked as changed since the epoch. -/
def unchangedSince (s : Store) (epoch : Epoch) : Bool :=
  s.epoch == epoch

/-- Puts in the index of a check that began in the given epoch, and says whether it is up to
date.  An outdated index is put in too, but it leaves the store stale and shows nothing that
was hidden. -/
def apply (s : Store) (index : Index) (began : Epoch) : Store × Bool :=
  let fresh := s.unchangedSince began
  ({ s with index := index, stale := !fresh, visible := s.visible || fresh }, fresh)

/-- The diagnostics that are shown for a file, with their lines. -/
def currentFor (s : Store) (path : Path) : List (Nat × Diagnostic) :=
  if s.visible then s.index.forPath path else []

end Store

end InlineCheck
