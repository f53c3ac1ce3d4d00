import InlineCheck.Diagnostic
import Std.Data.TreeMap

/-!
# The index of diagnostics

An index holds at most one diagnostic for each line of a file: the first one that was put in.
The same line of another file is another line.

The diagnostics are filed by file and then by line, in two layers of ordered maps
(`FileMap`), and they are counted as they are put in.  A file is the same however its path is
spelled, and it stays under the spelling that came first.  That every diagnostic stands where
it belongs, that no file is kept without a diagnostic (`FileMap.Filed`) and that the count is
right is part of the type.

* `Index.insertFirst` puts a diagnostic in unless its line is taken.
* `Index.get?`, `Index.forPath` and `Index.entries` look at one line, one file and all of
  them.
* `Index.same` compares two indexes map by map.

The lemmas say what each operation does to the answers: `FileMap.lookup_put` for the maps and
`Index.get?_insertFirst` for an index.
-/

namespace InlineCheck

/-- Whether a diagnostic comes before another one in an index. -/
def Diagnostic.Before (d e : Diagnostic) : Prop :=
  d.order e = .lt

/-- A diagnostic that comes before another one takes another line. -/
theorem site_ne_of_before {d e : Diagnostic} (h : d.Before e) : e.site ≠ d.site := by
  intro heq
  have : d.order e = .eq := Diagnostic.order_eq_iff.2 heq.symm
  simp [Diagnostic.Before, this] at h

/-- The diagnostics of one file by line. -/
abbrev LineMap := Std.TreeMap Nat Diagnostic

/-- The diagnostics of all files, by file and then by line. -/
abbrev FileMap := Std.TreeMap Path LineMap Path.order

namespace FileMap

/-- All diagnostics, ordered by file and then by line. -/
def entries (files : FileMap) : List Diagnostic :=
  files.toList.flatMap fun file => file.2.toList.map Prod.snd

/-- The diagnostic that stands under a line of a file. -/
def lookup (files : FileMap) (path : Path) (line : Nat) : Option Diagnostic :=
  files[path]?.bind fun lines => lines[line]?

/-- Puts a diagnostic under its line of its file.  A file that is there already keeps its
spelling. -/
def put (files : FileMap) (d : Diagnostic) : FileMap :=
  files.insert (files.getKeyD d.path d.path) ((files.getD d.path ∅).insert d.line d)

/-- Whether two maps hold equal diagnostics under equal lines of equal files. -/
def same (files others : FileMap) : Bool :=
  files.toList.isEqv others.toList fun f g =>
    f.1.same g.1 && f.2.toList.isEqv g.2.toList fun x y => x.1 == y.1 && x.2.same y.2

/-- Every diagnostic stands under its own line of its own file, and there is one for every
file. -/
structure Filed (files : FileMap) : Prop where
  site_eq : ∀ path line d, files.lookup path line = some d → d.site = (path.components, line)
  nonempty : ∀ (path : Path) (lines : LineMap), files[path]? = some lines → lines.isEmpty = false

variable {files : FileMap}

theorem lookup_congr {p q : Path} (h : p.components = q.components) (line : Nat) :
    files.lookup p line = files.lookup q line := by
  rw [lookup, lookup, Std.TreeMap.getElem?_congr (Path.order_eq_iff.2 h)]

/-- The spelling that a file stands under has the components of its path. -/
theorem components_of_getKey? {path file : Path} (h : files.getKey? path = some file) :
    file.components = path.components := by
  have hself := files.compare_getKey?_self (k := path)
  rw [h] at hself
  exact Path.order_eq_iff.1 (by simpa using hself)

theorem components_getKeyD (files : FileMap) (path : Path) :
    (files.getKeyD path path).components = path.components := by
  rw [Std.TreeMap.getKeyD_eq_getD_getKey?]
  cases hkey : files.getKey? path with
  | none => rfl
  | some key => exact components_of_getKey? hkey

theorem getElem?_put (files : FileMap) (d : Diagnostic) (path : Path) :
    (files.put d)[path]? =
      if d.path.components = path.components then
        some ((files.getD d.path ∅).insert d.line d)
      else files[path]? := by
  simp only [put, Std.TreeMap.getElem?_insert, Path.order_eq_iff, components_getKeyD]

theorem lookup_put (files : FileMap) (d : Diagnostic) (path : Path) (line : Nat) :
    (files.put d).lookup path line =
      if d.site = (path.components, line) then some d else files.lookup path line := by
  rw [lookup, getElem?_put]
  by_cases hpath : d.path.components = path.components
  · have hlines : ((files.getD d.path ∅)[line]? : Option Diagnostic) =
        files.lookup path line := by
      rw [Std.TreeMap.getD_eq_getD_getElem?, ← lookup_congr hpath line, lookup]
      cases files[d.path]? <;> simp
    simp [hpath, Std.TreeMap.getElem?_insert, hlines, Diagnostic.site]
  · simp [hpath, lookup, Diagnostic.site]

theorem getElem?_of_mem_toList {file : Path × LineMap} (hfile : file ∈ files.toList) :
    files[file.1]? = some file.2 :=
  (Std.TreeMap.mem_toList_iff_getKey?_eq_some_and_getElem?_eq_some.1 hfile).2

theorem filed_empty : Filed ∅ where
  site_eq := by simp [lookup]
  nonempty := by simp

theorem Filed.put (hfiles : files.Filed) (d : Diagnostic) : (files.put d).Filed where
  site_eq path line e h := by
    rw [lookup_put] at h
    split at h
    next hsite =>
      cases h
      exact hsite
    next => exact hfiles.site_eq path line e h
  nonempty path lines h := by
    rw [getElem?_put] at h
    split at h
    · cases h
      exact Std.TreeMap.isEmpty_insert
    · exact hfiles.nonempty path lines h

theorem Filed.site_eq_of_mem (hfiles : files.Filed) {file : Path × LineMap}
    (hfile : file ∈ files.toList) {x : Nat × Diagnostic} (hx : x ∈ file.2.toList) :
    x.2.site = (file.1.components, x.1) := by
  apply hfiles.site_eq
  rw [lookup, getElem?_of_mem_toList hfile]
  exact Std.TreeMap.mem_toList_iff_getElem?_eq_some.1 hx

theorem Filed.mem_entries_iff (hfiles : files.Filed) (d : Diagnostic) :
    d ∈ files.entries ↔ files.lookup d.path d.line = some d := by
  simp only [entries, List.mem_flatMap, List.mem_map]
  constructor
  · intro ⟨file, hfile, x, hx, hd⟩
    subst hd
    obtain ⟨hpath, hline⟩ := Prod.mk.inj (hfiles.site_eq_of_mem hfile hx)
    rw [lookup_congr hpath, lookup, getElem?_of_mem_toList hfile, hline]
    exact Std.TreeMap.mem_toList_iff_getElem?_eq_some.1 hx
  · intro h
    obtain ⟨lines, hlines, hline⟩ := Option.bind_eq_some_iff.1 h
    obtain ⟨key, -, hfile⟩ :=
      Std.TreeMap.getElem?_eq_some_iff_exists_compare_eq_eq_and_mem_toList.1 hlines
    exact ⟨(key, lines), hfile, (d.line, d), Std.TreeMap.mem_toList_iff_getElem?_eq_some.2 hline,
      rfl⟩

theorem Filed.pairwise_entries (hfiles : files.Filed) :
    files.entries.Pairwise Diagnostic.Before := by
  refine List.pairwise_flatMap.2 ⟨fun file hfile => ?_, ?_⟩
  · -- Within a file, the lines decide.
    refine List.pairwise_map.2 (Std.TreeMap.ordered_keys_toList.imp_of_mem fun {x y} hx hy h => ?_)
    have hx := hfiles.site_eq_of_mem hfile hx
    have hy := hfiles.site_eq_of_mem hfile hy
    simp only [Diagnostic.site, Prod.mk.injEq] at hx hy
    simp [Diagnostic.Before, Diagnostic.order, compareLex, compareOn, hx, hy, h]
  · -- Between files, the components of their paths decide.
    refine Std.TreeMap.ordered_keys_toList.imp_of_mem fun {f g} hf hg h => ?_
    intro d hd e he
    obtain ⟨x, hx, rfl⟩ := List.mem_map.1 hd
    obtain ⟨y, hy, rfl⟩ := List.mem_map.1 he
    have hx := hfiles.site_eq_of_mem hf hx
    have hy := hfiles.site_eq_of_mem hg hy
    simp only [Diagnostic.site, Prod.mk.injEq] at hx hy
    simp only [Path.order, compareOn] at h
    simp [Diagnostic.Before, Diagnostic.order, compareLex, compareOn, hx, hy, h]

theorem Filed.nodup_entries (hfiles : files.Filed) : files.entries.Nodup := by
  refine hfiles.pairwise_entries.imp fun h heq => ?_
  exact site_ne_of_before h (congrArg Diagnostic.site heq.symm)

/-- A diagnostic that is put where there was none is one more. -/
theorem Filed.length_entries_put (hfiles : files.Filed) {d : Diagnostic}
    (hfree : files.lookup d.path d.line = none) :
    (files.put d).entries.length = files.entries.length + 1 := by
  have hnew : d ∉ files.entries := by
    rw [hfiles.mem_entries_iff, hfree]
    simp
  have hmem : ∀ e, e ∈ (files.put d).entries ↔ e ∈ d :: files.entries := by
    intro e
    rw [(hfiles.put d).mem_entries_iff, lookup_put, List.mem_cons, hfiles.mem_entries_iff]
    by_cases hsite : d.site = (e.path.components, e.line)
    · obtain ⟨hpath, hline⟩ := Prod.mk.inj hsite
      rw [if_pos hsite, ← lookup_congr hpath, ← hline, hfree]
      simp [eq_comm]
    · have hne : e ≠ d := by
        intro heq
        subst heq
        exact hsite rfl
      simp [hsite, hne]
  have hperm : (files.put d).entries.Perm (d :: files.entries) :=
    (List.perm_ext_iff_of_nodup (hfiles.put d).nodup_entries
      (List.nodup_cons.2 ⟨hnew, hfiles.nodup_entries⟩)).2 hmem
  exact hperm.length_eq

end FileMap

/-- The first diagnostic found for each line of each file. -/
structure Index where
  files : FileMap
  /-- How many lines have a diagnostic, over all files. -/
  size : Nat
  filed : files.Filed
  size_eq : size = files.entries.length

namespace Index

/-- The index without any diagnostic. -/
def empty : Index := ⟨∅, 0, FileMap.filed_empty, rfl⟩

instance : Inhabited Index := ⟨empty⟩

/-- The diagnostics in ascending order of file and line. -/
def entries (ix : Index) : List Diagnostic :=
  ix.files.entries

/-- The diagnostic of a line of a file. -/
def get? (ix : Index) (path : Path) (line : Nat) : Option Diagnostic :=
  ix.files.lookup path line

/-- Puts a diagnostic in unless its line is taken, and says whether it was put in. -/
def insertFirst (ix : Index) (d : Diagnostic) : Index × Bool :=
  match hfree : ix.get? d.path d.line with
  | some _ => (ix, false)
  | none =>
    (⟨ix.files.put d, ix.size + 1, ix.filed.put d, by
      rw [ix.filed.length_entries_put hfree, ix.size_eq]⟩, true)

/-- The index of diagnostics put in one after the other. -/
def ofList (ds : List Diagnostic) : Index :=
  ds.foldl (fun ix d => (ix.insertFirst d).1) empty

theorem sorted (ix : Index) : ix.entries.Pairwise Diagnostic.Before :=
  ix.filed.pairwise_entries

theorem get?_congr (ix : Index) {d : Diagnostic} {path : Path} {line : Nat}
    (h : d.site = (path.components, line)) : ix.get? path line = ix.get? d.path d.line := by
  obtain ⟨hpath, hline⟩ := Prod.mk.inj h
  rw [get?, get?, FileMap.lookup_congr hpath, hline]

theorem get?_empty (path : Path) (line : Nat) : empty.get? path line = none := by
  simp [get?, empty, FileMap.lookup]

theorem insertFirst_of_some {ix : Index} {d e : Diagnostic}
    (h : ix.get? d.path d.line = some e) : ix.insertFirst d = (ix, false) := by
  unfold insertFirst
  split
  · rfl
  · next hfree => simp [hfree] at h

theorem insertFirst_of_none {ix : Index} {d : Diagnostic} (h : ix.get? d.path d.line = none) :
    (ix.insertFirst d).1.files = ix.files.put d ∧ (ix.insertFirst d).1.size = ix.size + 1 ∧
      (ix.insertFirst d).2 = true := by
  unfold insertFirst
  split
  · next htaken => simp [htaken] at h
  · exact ⟨rfl, rfl, rfl⟩

/-- A line keeps its diagnostic, and a line without one gets the new diagnostic if that is
about it. -/
theorem get?_insertFirst (ix : Index) (d : Diagnostic) (path : Path) (line : Nat) :
    (ix.insertFirst d).1.get? path line =
      (ix.get? path line).or (if d.site = (path.components, line) then some d else none) := by
  cases hget : ix.get? d.path d.line with
  | some e =>
    rw [insertFirst_of_some hget]
    by_cases hsite : d.site = (path.components, line)
    · simp [ix.get?_congr hsite, hget]
    · simp [hsite]
  | none =>
    rw [get?, (insertFirst_of_none hget).1, FileMap.lookup_put]
    by_cases hsite : d.site = (path.components, line)
    · simp [ix.get?_congr hsite, hget, hsite]
    · simp [hsite, get?]

/-- The diagnostics of a file with their lines, in ascending order of lines. -/
def forPath (ix : Index) (path : Path) : List (Nat × Diagnostic) :=
  match ix.files[path]? with
  | some lines => lines.toList
  | none => []

/-- Whether no line has a diagnostic. -/
def isEmpty (ix : Index) : Bool :=
  ix.size == 0

/-- Whether two indexes hold equal diagnostics under equal lines of equal files, and equally
many of them. -/
def same (ix iy : Index) : Bool :=
  ix.files.same iy.files && ix.size == iy.size

end Index

end InlineCheck
