import InlineCheck.Proofs.Index.Answers

/-!
# What insertion makes of an index

Diagnostics are put into an index one after the other.  `Index.Holds` says what the index then
answers to every question that can be asked of it, in terms of the sequence alone: the first
diagnostic of a line stays there, and the maps of an index, their order and the count do not
occur in it.

* `Index.insertFirst_snd_iff`, `Index.get?_ofList_eq_some_iff` and `Index.get?_ofList_append`
  are about one line: when it is taken, by which diagnostic, and that it is kept.
* `Index.before_iff`, `Index.mem_entries_iff` and `Index.forPath_eq` are about the order in
  which the diagnostics stand.
* `holds_ofList` puts them together.
-/

namespace InlineCheck

/-- The diagnostic is about the line of the file. -/
def Diagnostic.IsAt (d : Diagnostic) (path : Path) (line : Nat) : Prop :=
  d.path.same path = true ∧ d.line = line

theorem Diagnostic.isAt_iff {d : Diagnostic} {path : Path} {line : Nat} :
    d.IsAt path line ↔ d.site = (path.components, line) := by
  simp [IsAt, Path.same, site]

namespace Index

/-- The index holds the diagnostics that were put in one after the other. -/
structure Holds (ix : Index) (ds : List Diagnostic) : Prop where
  /-- A further diagnostic is taken in unless one of them is about its line. -/
  inserted_iff : ∀ d, (ix.insertFirst d).2 = true ↔ ∀ e ∈ ds, ¬ e.IsAt d.path d.line
  /-- What then comes of the index is what comes of the longer sequence. -/
  insert_eq : ∀ d, (ix.insertFirst d).1 = ofList (ds ++ [d])
  /-- A line has the first diagnostic that is about it. -/
  some_iff : ∀ path line d, ix.get? path line = some d ↔
    ∃ before after, ds = before ++ d :: after ∧ d.IsAt path line ∧
      ∀ e ∈ before, ¬ e.IsAt path line
  none_iff : ∀ path line, ix.get? path line = none ↔ ∀ d ∈ ds, ¬ d.IsAt path line
  /-- Whatever is put in later, a line keeps its diagnostic. -/
  kept : ∀ more path line d, ix.get? path line = some d →
    (ofList (ds ++ more)).get? path line = some d
  /-- All diagnostics of lines are listed, and no others. -/
  mem_iff : ∀ d, d ∈ ix.entries ↔ ∃ path line, ix.get? path line = some d
  /-- They are listed in strictly ascending order, so each of them once. -/
  ascending : ix.entries.Pairwise fun d e =>
    d.path.order e.path = .lt ∨ d.path.same e.path = true ∧ d.line < e.line
  nodup : ix.entries.Nodup
  /-- The diagnostics of a file are those of the list that are about it. -/
  forPath_eq : ∀ path, ix.forPath path =
    (ix.entries.filter fun d => d.path.same path).map fun d => (d.line, d)
  forPath_ascending : ∀ path, (ix.forPath path).Pairwise fun x y => x.1 < y.1
  size_eq : ix.size = ix.entries.length
  isEmpty_iff : ix.isEmpty = true ↔ ix.entries = []

/-! ## One line -/

theorem insertFirst_snd_iff (ix : Index) (d : Diagnostic) :
    (ix.insertFirst d).2 = true ↔ ix.get? d.path d.line = none := by
  cases hget : ix.get? d.path d.line with
  | none => simp [(insertFirst_of_none hget).2.2]
  | some e => simp [insertFirst_of_some hget]

theorem get?_ofList_eq_none_iff (ds : List Diagnostic) (path : Path) (line : Nat) :
    (ofList ds).get? path line = none ↔ ∀ d ∈ ds, ¬ d.IsAt path line := by
  simp [get?_ofList, Diagnostic.isAt_iff]

theorem get?_ofList_eq_some_iff (ds : List Diagnostic) (path : Path) (line : Nat)
    (d : Diagnostic) :
    (ofList ds).get? path line = some d ↔
      ∃ before after, ds = before ++ d :: after ∧ d.IsAt path line ∧
        ∀ e ∈ before, ¬ e.IsAt path line := by
  rw [get?_ofList, List.find?_eq_some_iff_append]
  simp only [beq_iff_eq, Bool.not_eq_true', beq_eq_false_iff_ne, ne_eq, Diagnostic.isAt_iff]
  constructor
  · intro ⟨hsite, before, after, hds, hbefore⟩
    exact ⟨before, after, hds, hsite, hbefore⟩
  · intro ⟨before, after, hds, hsite, hbefore⟩
    exact ⟨hsite, before, after, hds, hbefore⟩

theorem ofList_append (ds more : List Diagnostic) :
    ofList (ds ++ more) = more.foldl (fun ix d => (ix.insertFirst d).1) (ofList ds) := by
  rw [ofList, List.foldl_append, ofList]

/-- A line that is taken keeps its diagnostic. -/
theorem get?_ofList_append {ds : List Diagnostic} {path : Path} {line : Nat} {d : Diagnostic}
    (h : (ofList ds).get? path line = some d) (more : List Diagnostic) :
    (ofList (ds ++ more)).get? path line = some d := by
  rw [ofList_append, get?_foldl, h, Option.some_or]

/-! ## The order of the diagnostics -/

theorem before_iff {d e : Diagnostic} :
    d.Before e ↔ d.path.order e.path = .lt ∨ d.path.same e.path = true ∧ d.line < e.line := by
  have horder : d.order e = (d.path.order e.path).then (compare d.line e.line) := rfl
  rw [Diagnostic.Before, horder, Ordering.then_eq_lt, Path.order_eq_iff, Nat.compare_eq_lt]
  simp [Path.same]

theorem mem_entries_iff (ix : Index) (d : Diagnostic) :
    d ∈ ix.entries ↔ ∃ path line, ix.get? path line = some d := by
  constructor
  · intro hd
    exact ⟨d.path, d.line, (ix.get?_eq_some_iff _ _ d).2 ⟨hd, rfl⟩⟩
  · intro ⟨path, line, hget⟩
    exact ((ix.get?_eq_some_iff path line d).1 hget).1

/-- The diagnostics of a file stand in the order in which they stand among all others. -/
theorem forPath_eq (ix : Index) (path : Path) :
    ix.forPath path = (ix.entries.filter fun d => d.path.same path).map fun d => (d.line, d) := by
  apply forPath_eq_of_mem_iff
  · refine List.pairwise_map.2 ((ix.sorted.filter _).imp_of_mem fun {d e} hd he hbefore => ?_)
    have hd : d.path.components = path.components := by
      simpa [Path.same] using (List.mem_filter.1 hd).2
    have he : e.path.components = path.components := by
      simpa [Path.same] using (List.mem_filter.1 he).2
    -- Two diagnostics of one file cannot be told apart by their paths, so their lines decide.
    apply (before_iff.1 hbefore).elim
    · intro hlt
      simp [Path.order_eq_iff.2 (hd.trans he.symm)] at hlt
    · exact And.right
  · intro line d
    rw [ix.get?_eq_some_iff, ← Diagnostic.isAt_iff, Diagnostic.IsAt]
    simp only [List.mem_map, List.mem_filter, Prod.mk.injEq]
    constructor
    · intro ⟨e, ⟨he, hpath⟩, hline, heq⟩
      subst heq
      exact ⟨he, hpath, hline⟩
    · intro ⟨hd, hpath, hline⟩
      exact ⟨d, ⟨hd, hpath⟩, hline, rfl⟩

theorem isEmpty_iff (ix : Index) : ix.isEmpty = true ↔ ix.entries = [] := by
  have hsize : ix.size = ix.entries.length := ix.size_eq
  rw [isEmpty, beq_iff_eq, hsize, List.length_eq_zero_iff]

end Index

/-- However many diagnostics were put into a new index, one after the other, the index answers
as their sequence says. -/
theorem holds_ofList (ds : List Diagnostic) : (Index.ofList ds).Holds ds where
  inserted_iff d := by rw [Index.insertFirst_snd_iff, Index.get?_ofList_eq_none_iff]
  insert_eq d := (Index.ofList_append ds [d]).symm
  some_iff := Index.get?_ofList_eq_some_iff ds
  none_iff := Index.get?_ofList_eq_none_iff ds
  kept more _ _ _ h := Index.get?_ofList_append h more
  mem_iff := (Index.ofList ds).mem_entries_iff
  ascending := (Index.ofList ds).sorted.imp Index.before_iff.1
  nodup := (Index.ofList ds).filed.nodup_entries
  forPath_eq := (Index.ofList ds).forPath_eq
  forPath_ascending := (Index.ofList ds).pairwise_forPath
  size_eq := (Index.ofList ds).size_eq
  isEmpty_iff := (Index.ofList ds).isEmpty_iff

end InlineCheck
