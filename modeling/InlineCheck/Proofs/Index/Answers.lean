import InlineCheck.Index
import Mathlib.Data.Finset.Card
import Mathlib.Data.List.Sort

/-!
# What an index answers

An index is asked about one line, about one file or for its size.  The lemmas say how the
answers hang together, and what they are when diagnostics were put in one after the other.

* `mem_forPath_iff` and `forPath_eq_of_mem_iff`: the diagnostics of a file are those of its
  lines, in ascending order.
* `get?_ofList`: each line of each file has the first diagnostic that is about it.
* `size_ofList`: the size is the number of lines that the diagnostics are about.
-/

namespace InlineCheck.Index

/-! ## One line and one file -/

/-- No two entries of an index are about one line. -/
theorem nodup_sites (ix : Index) : (ix.entries.map Diagnostic.site).Nodup := by
  refine List.pairwise_map.2 (ix.sorted.imp fun hbefore heq => ?_)
  exact site_ne_of_before hbefore heq.symm

theorem get?_eq_some_iff (ix : Index) (path : Path) (line : Nat) (d : Diagnostic) :
    ix.get? path line = some d ↔ d ∈ ix.entries ∧ d.site = (path.components, line) := by
  rw [entries, ix.filed.mem_entries_iff]
  constructor
  · intro h
    have hsite := ix.filed.site_eq path line d h
    rw [ix.get?_congr hsite] at h
    exact ⟨h, hsite⟩
  · intro ⟨h, hsite⟩
    rw [ix.get?_congr hsite]
    exact h

/-- The diagnostics of a file are those of its lines. -/
theorem mem_forPath_iff (ix : Index) (path : Path) (line : Nat) (d : Diagnostic) :
    (line, d) ∈ ix.forPath path ↔ ix.get? path line = some d := by
  unfold forPath get? FileMap.lookup
  cases ix.files[path]? with
  | none => simp
  | some lines => exact Std.TreeMap.mem_toList_iff_getElem?_eq_some

/-- The diagnostics of a file stand in ascending order of their lines. -/
theorem pairwise_forPath (ix : Index) (path : Path) :
    (ix.forPath path).Pairwise fun x y => x.1 < y.1 := by
  unfold forPath
  split
  · exact Std.TreeMap.ordered_keys_toList.imp fun h => Nat.compare_eq_lt.1 h
  · exact .nil

/-- The diagnostics of a file are the only list that has those of its lines in ascending
order. -/
theorem forPath_eq_of_mem_iff {ix : Index} {path : Path} {pairs : List (Nat × Diagnostic)}
    (hpairs : pairs.Pairwise fun x y => x.1 < y.1)
    (hmem : ∀ line d, (line, d) ∈ pairs ↔ ix.get? path line = some d) :
    ix.forPath path = pairs := by
  have hasymm : Std.Asymm fun x y : Nat × Diagnostic => x.1 < y.1 := ⟨fun _ _ => Nat.lt_asymm⟩
  refine (ix.pairwise_forPath path).eq_of_mem_iff hpairs fun ⟨line, d⟩ => ?_
  rw [mem_forPath_iff, hmem]

/-- Indexes with the same diagnostics for the lines of a file show the same for the file. -/
theorem forPath_congr {ix iy : Index} {path : Path}
    (h : ∀ line, ix.get? path line = iy.get? path line) : ix.forPath path = iy.forPath path := by
  apply forPath_eq_of_mem_iff (iy.pairwise_forPath path)
  intro line d
  rw [mem_forPath_iff, h]

/-! ## Diagnostics put in one after the other -/

theorem get?_foldl (ds : List Diagnostic) (ix : Index) (path : Path) (line : Nat) :
    (ds.foldl (fun ix d => (ix.insertFirst d).1) ix).get? path line =
      (ix.get? path line).or (ds.find? fun d => d.site == (path.components, line)) := by
  induction ds generalizing ix with
  | nil => simp
  | cons d rest ih =>
    rw [List.foldl_cons, ih, get?_insertFirst]
    by_cases hd : d.site = (path.components, line)
    · rw [List.find?_cons_of_pos (by simpa using hd), if_pos hd, Option.or_assoc, Option.some_or]
    · rw [List.find?_cons_of_neg (by simpa using hd), if_neg hd, Option.or_none]

/-- The first diagnostic about a line is found there. -/
theorem get?_ofList (ds : List Diagnostic) (path : Path) (line : Nat) :
    (ofList ds).get? path line = ds.find? fun d => d.site == (path.components, line) := by
  rw [ofList, get?_foldl, get?_empty, Option.none_or]

/-! ## Size -/

theorem mem_sites_ofList (ds : List Diagnostic) (site : List Component × Nat) :
    site ∈ (ofList ds).entries.map Diagnostic.site ↔ site ∈ ds.map Diagnostic.site := by
  simp only [List.mem_map]
  constructor
  · rintro ⟨d, hd, rfl⟩
    have hget : (ofList ds).get? d.path d.line = some d :=
      (get?_eq_some_iff ..).2 ⟨hd, rfl⟩
    rw [get?_ofList] at hget
    exact ⟨d, List.mem_of_find?_eq_some hget, rfl⟩
  · rintro ⟨d, hd, rfl⟩
    have hfound : (ds.find? fun e => e.site == d.site).isSome :=
      List.find?_isSome.2 ⟨d, hd, by simp⟩
    obtain ⟨e, he⟩ := Option.isSome_iff_exists.1 hfound
    have hget : (ofList ds).get? d.path d.line = some e := by
      rw [get?_ofList]
      exact he
    exact ⟨e, (get?_eq_some_iff ..).1 hget⟩

/-- An index has as many entries as there are lines that the diagnostics are about. -/
theorem size_ofList (ds : List Diagnostic) :
    (ofList ds).size = (ds.map Diagnostic.site).toFinset.card := by
  have hsame : (ds.map Diagnostic.site).toFinset =
      ((ofList ds).entries.map Diagnostic.site).toFinset := by
    ext site
    rw [List.mem_toFinset, List.mem_toFinset, mem_sites_ofList]
  rw [hsame, List.toFinset_card_of_nodup (nodup_sites _), List.length_map]
  exact (ofList ds).size_eq

end InlineCheck.Index
