import InlineCheck.Proofs.Index.Insertion
import InlineCheck.Proofs.Json.Roundtrip

/-!
# When two indexes are equal

Two indexes are compared map by map, with the paths under which the files stand and the counts.
What can be asked of an index shows none of this.  Still, indexes are equal exactly if they give
equal answers, because every file stands for a diagnostic in it and the count is right.

There are four groups.

* Lists that are compared position by position (`forall₂_of_map_eq`).
* `FileMap.Same` says what it means for maps to be equal.  It gives equal entries, which give
  equal answers, which give it back.
* `Json.Value.same_self` is about the values that equal themselves, as all do that hold no number
  that differs from itself.
* `Rearranged` is the order of insertions that does not matter.
-/

namespace InlineCheck

/-! ## Lists position by position -/

theorem isEqv_iff {α : Type} {eqv : α → α → Bool} {xs ys : List α} :
    xs.isEqv ys eqv = true ↔ List.Forall₂ (fun x y => eqv x y = true) xs ys := by
  induction xs generalizing ys with
  | nil => cases ys <;> simp [List.isEqv]
  | cons x xs ih => cases ys <;> simp [List.isEqv, ih]

/-- Two lists with the same keys agree position by position if they agree key by key. -/
theorem forall₂_of_map_eq {α κ : Type} {key : α → κ} {S : α → α → Prop} {xs ys : List α}
    (hkeys : xs.map key = ys.map key) (h : ∀ x ∈ xs, ∀ y ∈ ys, key x = key y → S x y) :
    List.Forall₂ S xs ys := by
  induction xs generalizing ys with
  | nil =>
    cases ys with
    | nil => exact .nil
    | cons y ys => simp at hkeys
  | cons x xs ih =>
    cases ys with
    | nil => simp at hkeys
    | cons y ys =>
      simp only [List.map_cons, List.cons.injEq] at hkeys
      apply List.Forall₂.cons
      · exact h x (by simp) y (by simp) hkeys.1
      · apply ih hkeys.2
        intro x' hx' y' hy'
        exact h x' (by simp [hx']) y' (by simp [hy'])

theorem exists_of_forall₂_left {α : Type} {S : α → α → Prop} {xs ys : List α}
    (h : List.Forall₂ S xs ys) {x : α} (hx : x ∈ xs) : ∃ y ∈ ys, S x y := by
  induction h with
  | nil => simp at hx
  | cons hhead _ ih =>
    apply (List.mem_cons.1 hx).elim
    · intro heq
      subst heq
      exact ⟨_, by simp, hhead⟩
    · intro hx
      obtain ⟨y, hy, hxy⟩ := ih hx
      exact ⟨y, by simp [hy], hxy⟩

/-! ## Maps -/

namespace Diagnostic

/-- The two diagnostics are equal, however their paths are spelled. -/
def Same (d e : Diagnostic) : Prop :=
  d.same e = true

theorem Same.site_eq {d e : Diagnostic} (h : d.Same e) : d.site = e.site := by
  have h : d.same e = true := h
  simp only [same, Path.same, Bool.and_eq_true, beq_iff_eq] at h
  simp [site, h.1.1.1.1, h.1.1.1.2]

end Diagnostic

namespace LineMap

/-- The two maps hold equal diagnostics under equal lines. -/
def Same (lines others : LineMap) : Prop :=
  List.Forall₂ (fun x y => x.1 = y.1 ∧ x.2.Same y.2) lines.toList others.toList

variable {lines others : LineMap}

/-- Maps that give equal answers are equal. -/
theorem same_of_rel (h : ∀ line : Nat, Option.Rel Diagnostic.Same lines[line]? others[line]?) :
    lines.Same others := by
  have hmem : ∀ line : Nat, line ∈ lines ↔ line ∈ others := by
    intro line
    have hrel := h line
    rw [Std.TreeMap.mem_iff_isSome_getElem?, Std.TreeMap.mem_iff_isSome_getElem?]
    cases hl : lines[line]? <;> cases ho : others[line]? <;> simp_all
  have hkeys : lines.toList.map Prod.fst = others.toList.map Prod.fst := by
    have hasymm : Std.Asymm fun a b : Nat => compare a b = .lt :=
      ⟨fun _ _ h h' => by simp [Nat.compare_eq_lt] at h h'; omega⟩
    rw [Std.TreeMap.map_fst_toList_eq_keys, Std.TreeMap.map_fst_toList_eq_keys]
    apply Std.TreeMap.ordered_keys.eq_of_mem_iff Std.TreeMap.ordered_keys
    intro line
    rw [Std.TreeMap.mem_keys, Std.TreeMap.mem_keys, hmem]
  apply forall₂_of_map_eq hkeys
  intro x hx y hy hline
  have hrel := h x.1
  rw [Std.TreeMap.mem_toList_iff_getElem?_eq_some.1 hx, hline,
    Std.TreeMap.mem_toList_iff_getElem?_eq_some.1 hy] at hrel
  exact ⟨hline, by simpa using hrel⟩

end LineMap

namespace FileMap

/-- The two maps hold equal diagnostics under equal lines of equal files. -/
def Same (files others : FileMap) : Prop :=
  List.Forall₂ (fun f g => f.1.components = g.1.components ∧ f.2.Same g.2)
    files.toList others.toList

variable {files others : FileMap}

theorem same_iff : files.same others = true ↔ files.Same others := by
  simp [same, Same, LineMap.Same, Diagnostic.Same, Path.same, isEqv_iff]

/-- Equal maps have equal entries. -/
theorem Same.entries (h : files.Same others) :
    List.Forall₂ Diagnostic.Same files.entries others.entries := by
  refine List.rel_flatMap h fun f g hfg => ?_
  exact List.rel_map (fun x y hxy => hxy.2) hfg.2

/-- A file that is kept in one of two maps with equal answers is kept in the other one. -/
theorem exists_lines_of_rel (hfiles : files.Filed)
    (h : ∀ path line, (files.lookup path line).isSome = (others.lookup path line).isSome)
    {path : Path} {lines : LineMap} (hlines : files[path]? = some lines) :
    ∃ lines' : LineMap, others[path]? = some lines' := by
  have hne : ∃ line, line ∈ lines := by
    rw [← Std.TreeMap.isEmpty_eq_false_iff_exists_mem]
    exact hfiles.nonempty path lines hlines
  obtain ⟨line, hline⟩ := hne
  have hsome : (files.lookup path line).isSome := by
    simpa [lookup, hlines] using hline
  rw [h path line] at hsome
  obtain ⟨d, hd⟩ := Option.isSome_iff_exists.1 hsome
  obtain ⟨lines', hlines', -⟩ := Option.bind_eq_some_iff.1 hd
  exact ⟨lines', hlines'⟩

theorem mem_components_iff {components : List Component} :
    components ∈ files.toList.map (fun f => f.1.components) ↔
      ∃ (path : Path) (lines : LineMap), path.components = components ∧
        files[path]? = some lines := by
  rw [List.mem_map]
  constructor
  · intro ⟨f, hf, hcomponents⟩
    exact ⟨f.1, f.2, hcomponents, getElem?_of_mem_toList hf⟩
  · intro ⟨path, lines, hcomponents, hlines⟩
    obtain ⟨key, hkey, hmem⟩ :=
      Std.TreeMap.getElem?_eq_some_iff_exists_compare_eq_eq_and_mem_toList.1 hlines
    exact ⟨(key, lines), hmem, (Path.order_eq_iff.1 hkey).symm.trans hcomponents⟩

theorem pairwise_components (files : FileMap) :
    (files.toList.map fun f => f.1.components).Pairwise fun a b => compare a b = .lt := by
  have h := Std.TreeMap.ordered_keys_toList (t := files)
  exact List.pairwise_map.2 h

/-- Maps that give equal answers are equal. -/
theorem same_of_rel (hfiles : files.Filed) (hothers : others.Filed)
    (h : ∀ path line, Option.Rel Diagnostic.Same (files.lookup path line)
      (others.lookup path line)) : files.Same others := by
  have hsome : ∀ path line,
      (files.lookup path line).isSome = (others.lookup path line).isSome := by
    intro path line
    have hrel := h path line
    cases hf : files.lookup path line <;> cases ho : others.lookup path line <;> simp_all
  have hkeys : files.toList.map (fun f => f.1.components) =
      others.toList.map (fun f => f.1.components) := by
    have hasymm : Std.Asymm fun a b : List Component => compare a b = .lt :=
      ⟨fun _ _ h h' => by simp [Std.OrientedCmp.gt_of_lt h] at h'⟩
    apply files.pairwise_components.eq_of_mem_iff others.pairwise_components
    intro components
    rw [mem_components_iff, mem_components_iff]
    constructor
    · intro ⟨path, lines, hcomponents, hlines⟩
      obtain ⟨lines', hlines'⟩ := exists_lines_of_rel hfiles hsome hlines
      exact ⟨path, lines', hcomponents, hlines'⟩
    · intro ⟨path, lines, hcomponents, hlines⟩
      obtain ⟨lines', hlines'⟩ :=
        exists_lines_of_rel hothers (fun path line => (hsome path line).symm) hlines
      exact ⟨path, lines', hcomponents, hlines'⟩
  apply forall₂_of_map_eq hkeys
  intro f hf g hg hcomponents
  refine ⟨hcomponents, LineMap.same_of_rel fun line => ?_⟩
  have hrel := h f.1 line
  rw [lookup, getElem?_of_mem_toList hf, lookup_congr hcomponents, lookup,
    getElem?_of_mem_toList hg] at hrel
  exact hrel

end FileMap

/-! ## Indexes -/

namespace Index

variable {ix iy : Index}

/-- Indexes with equal entries give equal answers. -/
theorem rel_get?_of_entries (h : List.Forall₂ Diagnostic.Same ix.entries iy.entries)
    (path : Path) (line : Nat) :
    Option.Rel Diagnostic.Same (ix.get? path line) (iy.get? path line) := by
  cases hx : ix.get? path line with
  | some d =>
    obtain ⟨hd, hsite⟩ := (ix.get?_eq_some_iff path line d).1 hx
    obtain ⟨e, he, hde⟩ := exists_of_forall₂_left h hd
    have hy : iy.get? path line = some e :=
      (iy.get?_eq_some_iff path line e).2 ⟨he, hde.site_eq.symm.trans hsite⟩
    rw [hy]
    exact .some hde
  | none =>
    cases hy : iy.get? path line with
    | none => exact .none
    | some e =>
      obtain ⟨he, hsite⟩ := (iy.get?_eq_some_iff path line e).1 hy
      obtain ⟨d, hd, hde⟩ := exists_of_forall₂_left h.flip he
      have hd : ix.get? path line = some d :=
        (ix.get?_eq_some_iff path line d).2 ⟨hd, Eq.trans (Diagnostic.Same.site_eq hde) hsite⟩
      rw [hx] at hd
      simp at hd

/-- Indexes with equal maps are equal: they have equally many entries. -/
theorem same_of_files (h : ix.files.Same iy.files) : ix.same iy = true := by
  have hsize : ix.size = iy.size := by
    rw [ix.size_eq, iy.size_eq]
    exact h.entries.length_eq
  simp [same, FileMap.same_iff.2 h, hsize]

theorem entries_of_same (h : ix.same iy = true) :
    List.Forall₂ Diagnostic.Same ix.entries iy.entries := by
  rw [same, Bool.and_eq_true] at h
  exact (FileMap.same_iff.1 h.1).entries

theorem same_of_rel_get?
    (h : ∀ path line, Option.Rel Diagnostic.Same (ix.get? path line) (iy.get? path line)) :
    ix.same iy = true :=
  same_of_files (FileMap.same_of_rel ix.filed iy.filed h)

end Index

/-! ## Values that equal themselves -/

namespace Json.Value

/-- The number that differs from itself. -/
def IsNaN : Value → Prop
  | number (.float x) => x.isNaN = true
  | _ => False

/-- No number in the value differs from itself.  JSON has finite numbers only. -/
def NaNFree (v : Value) : Prop := v.All fun v => ¬ v.IsNaN

theorem unpacked_compare_self {u : Float.Model.UnpackedFloat} (h : u.isNaN = false) :
    u.compare u = some .eq := by
  cases u with
  | notANumber => cases h
  | infinity s => cases s <;> rfl
  | zero s => cases s <;> rfl
  | finite s m e hm =>
    have hparts : (compare e e).then (compare m m) = .eq := by simp
    cases s with
    | positive => exact congrArg some hparts
    | negative => exact congrArg (fun o => some o.swap) hparts

theorem float_beq_self {x : Float} (h : x.isNaN = false) : (x == x) = true := by
  have h : x.toModel.unpack.compare x.toModel.unpack = some .eq := unpacked_compare_self h
  show (x.toModel.unpack.compare x.toModel.unpack == some .eq) = true
  rw [h]
  rfl

mutual

theorem same_self (v : Value) (h : v.NaNFree) : v.same v = true := by
  cases v with
  | null | bool b | string text => simp [same]
  | number n =>
    cases n with
    | whole n => simp [same, BEq.beq, instBEqNumber.beq]
    | float x => exact float_beq_self (Bool.eq_false_iff.2 h)
  | array items => exact sameItems_self items h.2
  | object members => exact sameMembers_self members h.2

theorem sameItems_self (items : List Value) (h : AllItems (fun v => ¬ v.IsNaN) items) :
    sameItems items items = true := by
  cases items with
  | nil => rfl
  | cons v rest => simp [sameItems, same_self v h.1, sameItems_self rest h.2]

theorem sameMembers_self (members : List (String × Value))
    (h : AllMembers (fun v => ¬ v.IsNaN) members) : sameMembers members members = true := by
  match members with
  | [] => rfl
  | (name, v) :: rest => simp [sameMembers, same_self v h.1, sameMembers_self rest h.2]

end

end Json.Value

theorem Diagnostic.same_self {d : Diagnostic} (h : d.payload.NaNFree) : d.Same d := by
  have hpayload : (d.payload == d.payload) = true := Json.Value.same_self d.payload h
  simp [Same, same, Path.same, hpayload]

/-! ## The order of insertions -/

/-- The second list has the diagnostics of the first one in an order in which those about one
line of a file follow each other as they did. -/
structure Rearranged (ds es : List Diagnostic) : Prop where
  perm : es.Perm ds
  filter_eq : ∀ path line, es.filter (fun d => d.path.same path && d.line == line) =
    ds.filter fun d => d.path.same path && d.line == line

/-- Neighbours that are about different lines may change places. -/
theorem Rearranged.swap {d e : Diagnostic} (h : d.site ≠ e.site) (ds more : List Diagnostic) :
    Rearranged (ds ++ d :: e :: more) (ds ++ e :: d :: more) where
  perm := (List.Perm.swap d e more).append_left ds
  filter_eq path line := by
    have hnot : ¬ (d.IsAt path line ∧ e.IsAt path line) := by
      intro ⟨hd, he⟩
      exact h ((Diagnostic.isAt_iff.1 hd).trans (Diagnostic.isAt_iff.1 he).symm)
    simp only [List.filter_append, List.filter_cons, Bool.and_eq_true, beq_iff_eq]
    by_cases hd : d.IsAt path line
    · have he : ¬ e.IsAt path line := fun he => hnot ⟨hd, he⟩
      simp only [Diagnostic.IsAt] at hd he
      simp [hd, he]
    · simp only [Diagnostic.IsAt] at hd
      simp [hd]

/-- What is answered for a line depends on the diagnostics about that line. -/
theorem Index.get?_ofList_eq_head? (ds : List Diagnostic) (path : Path) (line : Nat) :
    (ofList ds).get? path line =
      (ds.filter fun d => d.path.same path && d.line == line).head? := by
  have hsite : (fun d : Diagnostic => d.site == (path.components, line)) =
      fun d => d.path.same path && d.line == line := by
    funext d
    rw [Bool.eq_iff_iff]
    simp [Path.same, Diagnostic.site]
  rw [get?_ofList, List.head?_filter, hsite]

theorem Rearranged.get?_eq {ds es : List Diagnostic} (h : Rearranged ds es) (path : Path)
    (line : Nat) : (Index.ofList es).get? path line = (Index.ofList ds).get? path line := by
  rw [Index.get?_ofList_eq_head?, Index.get?_ofList_eq_head?, h.filter_eq]

theorem Rearranged.same {ds es : List Diagnostic} (h : Rearranged ds es)
    (hnumbers : ∀ d ∈ ds, d.payload.NaNFree) : (Index.ofList ds).same (.ofList es) = true := by
  apply Index.same_of_rel_get?
  intro path line
  rw [h.get?_eq]
  cases hget : (Index.ofList ds).get? path line with
  | none => exact .none
  | some d =>
    rw [Index.get?_ofList] at hget
    exact .some (Diagnostic.same_self (hnumbers d (List.mem_of_find?_eq_some hget)))

/-! ## Equality by answers -/

/-- Indexes are equal exactly if they give equal answers for all lines of all files, and exactly
if they list equal diagnostics.  So the order of diagnostics about different lines does not
matter, whatever spelling of a path comes first. -/
theorem index_equality_by_answers :
    (∀ ix iy : Index,
      (ix.same iy = true ↔ ∀ path line,
        Option.Rel (fun d e => d.same e = true) (ix.get? path line) (iy.get? path line)) ∧
      (ix.same iy = true ↔
        List.Forall₂ (fun d e => d.same e = true) ix.entries iy.entries)) ∧
    ∀ ds es, Rearranged ds es →
      (∀ path line, (Index.ofList es).get? path line = (Index.ofList ds).get? path line) ∧
      ((∀ d ∈ ds, d.payload.NaNFree) → (Index.ofList ds).same (.ofList es) = true) := by
  refine ⟨fun ix iy => ⟨?_, ?_⟩, fun ds es h => ⟨h.get?_eq, h.same⟩⟩
  · constructor
    · intro h
      exact Index.rel_get?_of_entries (Index.entries_of_same h)
    · exact Index.same_of_rel_get?
  · constructor
    · exact Index.entries_of_same
    · intro h
      exact Index.same_of_rel_get? (Index.rel_get?_of_entries h)

/-- The path of a file stays under another spelling if the first two of its diagnostics come in
another order; the index is the same. -/
theorem index_equality_by_answers_of_swap :
    let a : Diagnostic := ⟨⟨"/p/a.js"⟩, 2, .error, "first", .null⟩
    let b : Diagnostic := ⟨⟨"/p//a.js"⟩, 1, .error, "second", .number (.float 0.5)⟩
    let c : Diagnostic := ⟨⟨"/p/./a.js"⟩, 2, .warning, "third", .null⟩
    Rearranged [a, b, c] [b, a, c] ∧ (∀ d ∈ [a, b, c], d.payload.NaNFree) ∧
      (Index.ofList [a, b, c]).same (.ofList [b, a, c]) = true := by
  intro a b c
  have hswap : Rearranged [a, b, c] [b, a, c] := by
    have hsite : a.site ≠ b.site := by simp [Diagnostic.site, a, b]
    exact Rearranged.swap hsite [] [c]
  have hnull : Json.Value.null.NaNFree := fun hnan => hnan
  have hhalf : b.payload.NaNFree := by
    show ¬ (0.5 : Float).isNaN = true
    decide +kernel
  have hnumbers : ∀ d ∈ [a, b, c], d.payload.NaNFree := by
    simp only [List.forall_mem_cons]
    exact ⟨hnull, hhalf, hnull, by simp⟩
  exact ⟨hswap, hnumbers, (index_equality_by_answers.2 [a, b, c] [b, a, c] hswap).2 hnumbers⟩

end InlineCheck
