import InlineCheck.Proofs.Index.Equality
import InlineCheck.Proofs.Path.Respelling
import InlineCheck.Store

/-!
# Spellings of paths in an index

Files stand in an index under their paths as they were written, but they are found by
components.  So it never matters how a path is spelled: neither of a diagnostic that is put in,
nor of a file that is asked about.  Each diagnostic still comes out with its path as it went in.

* `Operation` is what can be done with an index, and `Answer` what comes of it; `Index.run` does
  one operation after the other.
* `Index.Alike` compares the answers of two indexes line by line.  An operation gives alike
  answers and keeps indexes alike (`Alike.perform`), and so do sequences (`Alike.run`).
* `Paired` holds of two diagnostics that stand at the same place of two sequences and differ in
  nothing but spelling.
* `spelling_never_matters` is about two spellings of a path, two paths, and two sequences.
-/

namespace InlineCheck

/-! ## Answers that may be missing -/

section Option

variable {α : Type} {R S : α → α → Prop} {a b c d : Option α}

theorem eq_none_iff_of_rel (h : Option.Rel R a b) : a = none ↔ b = none := by
  cases h <;> simp

theorem rel_imp (h : Option.Rel R a b) (hRS : ∀ x y, R x y → S x y) : Option.Rel S a b := by
  cases h with
  | none => exact .none
  | some h => exact .some (hRS _ _ h)

theorem rel_or (h : Option.Rel R a b) (h' : Option.Rel R c d) :
    Option.Rel R (a.or c) (b.or d) := by
  cases h with
  | none => exact h'
  | some h => exact .some h

end Option

/-! ## Respelled diagnostics -/

/-- The two diagnostics differ in nothing but the spelling of their paths. -/
structure Diagnostic.Respelled (d e : Diagnostic) : Prop where
  path : d.path.Respelled e.path
  rest : { d with path := e.path } = e

namespace Diagnostic.Respelled

variable {d e d' e' : Diagnostic}

theorem line_eq (h : d.Respelled e) : d.line = e.line := by
  rw [← h.rest]

theorem site_eq (h : d.Respelled e) : d.site = e.site := by
  rw [site, site, Path.respelled_iff.1 h.path, h.line_eq]

/-- Whether two diagnostics are equal does not depend on their spellings. -/
theorem same_iff (h : d.Respelled d') (h' : e.Respelled e') : d.Same e ↔ d'.Same e' := by
  rw [← h.rest, ← h'.rest]
  simp only [Same, same, Path.same, Path.respelled_iff.1 h.path, Path.respelled_iff.1 h'.path]

theorem same_of_naNFree (h : d.Respelled e) (hd : d.payload.NaNFree) : d.Same e := by
  have hself : d.Same d := same_self hd
  have hpath : d.path.Respelled d.path := Path.respelled_iff.2 rfl
  exact (same_iff ⟨hpath, rfl⟩ h).1 hself

end Diagnostic.Respelled

/-! ## Indexes that answer alike -/

namespace Index

/-- The two indexes have related diagnostics for the same lines of the same files. -/
def Alike (R : Diagnostic → Diagnostic → Prop) (ix iy : Index) : Prop :=
  ∀ path line, Option.Rel R (ix.get? path line) (iy.get? path line)

/-- The lists have related diagnostics with the same lines. -/
def LinesAlike (R : Diagnostic → Diagnostic → Prop) :
    List (Nat × Diagnostic) → List (Nat × Diagnostic) → Prop :=
  List.Forall₂ fun x y => x.1 = y.1 ∧ R x.2 y.2

/-- Compares the files and lines that diagnostics are about. -/
def siteOrder : List Component × Nat → List Component × Nat → Ordering :=
  compareLex (compareOn Prod.fst) (compareOn Prod.snd)

instance : Std.TransCmp siteOrder :=
  inferInstanceAs (Std.TransCmp (compareLex (compareOn Prod.fst) (compareOn Prod.snd)))

theorem pairwise_sites (ix : Index) :
    (ix.entries.map Diagnostic.site).Pairwise fun a b => siteOrder a b = .lt :=
  List.pairwise_map.2 ix.sorted

theorem mem_sites_iff (ix : Index) (site : List Component × Nat) :
    site ∈ ix.entries.map Diagnostic.site ↔
      ∃ path line, site = (path.components, line) ∧ ix.get? path line ≠ none := by
  rw [List.mem_map]
  constructor
  · intro ⟨d, hd, hsite⟩
    have hget : ix.get? d.path d.line = some d := (ix.get?_eq_some_iff ..).2 ⟨hd, rfl⟩
    exact ⟨d.path, d.line, hsite.symm, by simp [hget]⟩
  · intro ⟨path, line, hsite, hget⟩
    obtain ⟨d, hd⟩ := Option.ne_none_iff_exists'.1 hget
    obtain ⟨hmem, hd⟩ := (ix.get?_eq_some_iff path line d).1 hd
    exact ⟨d, hmem, hd.trans hsite.symm⟩

variable {R : Diagnostic → Diagnostic → Prop} {ix iy jx jy : Index}

theorem alike_empty : empty.Alike R empty := by
  intro path line
  rw [get?_empty]
  exact .none

theorem rel_same_iff {a b a' b' : Option Diagnostic} (h : Option.Rel Diagnostic.Respelled a b)
    (h' : Option.Rel Diagnostic.Respelled a' b') :
    Option.Rel Diagnostic.Same a a' ↔ Option.Rel Diagnostic.Same b b' := by
  cases h with
  | none => cases h' <;> simp
  | some h =>
    cases h' with
    | none => simp
    | some h' => simp [h.same_iff h']

theorem same_iff_rel_get? : ix.same iy = true ↔
    ∀ path line, Option.Rel Diagnostic.Same (ix.get? path line) (iy.get? path line) := by
  constructor
  · intro h
    exact rel_get?_of_entries (entries_of_same h)
  · exact same_of_rel_get?

namespace Alike

/-- Indexes that answer alike list related diagnostics in the same order. -/
theorem entries (h : ix.Alike R iy) : List.Forall₂ R ix.entries iy.entries := by
  have hsites : ix.entries.map Diagnostic.site = iy.entries.map Diagnostic.site := by
    have hasymm : Std.Asymm fun a b => siteOrder a b = .lt :=
      ⟨fun _ _ h h' => by simp [Std.OrientedCmp.gt_of_lt h] at h'⟩
    apply ix.pairwise_sites.eq_of_mem_iff iy.pairwise_sites
    intro site
    simp only [mem_sites_iff, ne_eq, eq_none_iff_of_rel (h _ _)]
  apply forall₂_of_map_eq hsites
  intro d hd e he hsite
  have hx : ix.get? d.path d.line = some d := (ix.get?_eq_some_iff ..).2 ⟨hd, rfl⟩
  have hy : iy.get? d.path d.line = some e := (iy.get?_eq_some_iff ..).2 ⟨he, hsite.symm⟩
  have hrel := h d.path d.line
  rw [hx, hy] at hrel
  exact Option.rel_some_some.1 hrel

theorem size_eq (h : ix.Alike R iy) : ix.size = iy.size := by
  rw [ix.size_eq, iy.size_eq]
  exact h.entries.length_eq

theorem get?_respelled (h : ix.Alike R iy) {p q : Path} (hpq : p.Respelled q) (line : Nat) :
    Option.Rel R (ix.get? p line) (iy.get? q line) := by
  have hq : iy.get? q line = iy.get? p line :=
    FileMap.lookup_congr (Path.respelled_iff.1 hpq).symm line
  rw [hq]
  exact h p line

/-! From here on the relation holds only of diagnostics that differ in nothing but spelling. -/

variable (hR : ∀ d e, R d e → d.Respelled e)
include hR

theorem forPath_respelled (h : ix.Alike R iy) {p q : Path} (hpq : p.Respelled q) :
    LinesAlike R (ix.forPath p) (iy.forPath q) := by
  rw [forPath_eq, forPath_eq]
  refine List.rel_map (fun d e hde => ?_) (List.rel_filter (fun d e hde => ?_) h.entries)
  · exact ⟨congrArg Prod.snd (hR d e hde).site_eq, hde⟩
  · have hpath : d.path.components = e.path.components := congrArg Prod.fst (hR d e hde).site_eq
    simp [Path.same, hpath, Path.respelled_iff.1 hpq]

theorem same_eq (h : ix.Alike R iy) (h' : jx.Alike Diagnostic.Respelled jy) :
    ix.same jx = iy.same jy := by
  rw [Bool.eq_iff_iff, same_iff_rel_get?, same_iff_rel_get?]
  refine forall_congr' fun path => forall_congr' fun line => ?_
  exact rel_same_iff (rel_imp (h path line) hR) (h' path line)

theorem insertFirst (h : ix.Alike R iy) {d e : Diagnostic} (hde : R d e) :
    (ix.insertFirst d).1.Alike R (iy.insertFirst e).1 := by
  intro path line
  rw [get?_insertFirst, get?_insertFirst, ← (hR d e hde).site_eq]
  apply rel_or (h path line)
  split
  · exact .some hde
  · exact .none

theorem insertFirst_snd (h : ix.Alike R iy) {d e : Diagnostic} (hde : R d e) :
    (ix.insertFirst d).2 = (iy.insertFirst e).2 := by
  have hget := h.get?_respelled (hR d e hde).path d.line
  rw [Bool.eq_iff_iff, insertFirst_snd_iff, insertFirst_snd_iff, ← (hR d e hde).line_eq,
    eq_none_iff_of_rel hget]

theorem foldl_insertFirst (h : ix.Alike R iy) {ds es : List Diagnostic}
    (hds : List.Forall₂ R ds es) :
    (ds.foldl (fun ix d => (ix.insertFirst d).1) ix).Alike R
      (es.foldl (fun ix d => (ix.insertFirst d).1) iy) := by
  induction hds generalizing ix iy with
  | nil => exact h
  | cons hde _ ih => exact ih (h.insertFirst hR hde)

theorem ofList {ds es : List Diagnostic} (hds : List.Forall₂ R ds es) :
    (ofList ds).Alike R (.ofList es) :=
  alike_empty.foldl_insertFirst hR hds

end Alike

/-! ## Operations -/

/-- What can be done with an index. -/
inductive Operation
  /-- Puts a diagnostic in unless its line is taken. -/
  | insert (d : Diagnostic)
  /-- Starts again with the diagnostics of a list. -/
  | restart (ds : List Diagnostic)
  /-- Asks for the diagnostic of a line of a file. -/
  | line (path : Path) (line : Nat)
  /-- Asks for the diagnostics of a file. -/
  | file (path : Path)
  /-- Asks for all diagnostics. -/
  | list
  /-- Asks how many lines have a diagnostic. -/
  | count
  /-- Asks whether no line has one. -/
  | isEmpty
  /-- Compares with the index of a list. -/
  | equals (ds : List Diagnostic)

/-- What comes of an operation. -/
inductive Answer
  | done
  | truth (b : Bool)
  | number (n : Nat)
  | diagnostic? (d : Option Diagnostic)
  | diagnostics (ds : List Diagnostic)
  | lines (pairs : List (Nat × Diagnostic))

/-- The index behind an operation, and what came of it. -/
def perform (ix : Index) : Operation → Index × Answer
  | .insert d => ((ix.insertFirst d).1, .truth (ix.insertFirst d).2)
  | .restart ds => (.ofList ds, .done)
  | .line path line => (ix, .diagnostic? (ix.get? path line))
  | .file path => (ix, .lines (ix.forPath path))
  | .list => (ix, .diagnostics ix.entries)
  | .count => (ix, .number ix.size)
  | .isEmpty => (ix, .truth ix.isEmpty)
  | .equals ds => (ix, .truth (ix.same (.ofList ds)))

/-- The index behind operations, one after the other, and what came of each. -/
def run (ix : Index) : List Operation → Index × List Answer
  | [] => (ix, [])
  | op :: rest =>
    let (next, answer) := ix.perform op
    let (last, answers) := next.run rest
    (last, answer :: answers)

namespace Operation

/-- The diagnostics that an operation puts into the index. -/
def put : Operation → List Diagnostic
  | insert d => [d]
  | restart ds => ds
  | _ => []

/-- The two operations are the same but for the spelling of paths, and put in related
diagnostics. -/
inductive Alike (R : Diagnostic → Diagnostic → Prop) : Operation → Operation → Prop
  | insert {d e : Diagnostic} (h : R d e) : Alike R (insert d) (insert e)
  | restart {ds es : List Diagnostic} (h : List.Forall₂ R ds es) :
      Alike R (restart ds) (restart es)
  | line {p q : Path} (h : p.Respelled q) (n : Nat) : Alike R (line p n) (line q n)
  | file {p q : Path} (h : p.Respelled q) : Alike R (file p) (file q)
  | list : Alike R list list
  | count : Alike R count count
  | isEmpty : Alike R isEmpty isEmpty
  | equals {ds es : List Diagnostic} (h : List.Forall₂ Diagnostic.Respelled ds es) :
      Alike R (equals ds) (equals es)

/-- The two operations are the same but for the spelling of paths. -/
abbrev Respelled : Operation → Operation → Prop := Alike Diagnostic.Respelled

end Operation

namespace Answer

/-- The two answers are the same but for related diagnostics in the same places. -/
inductive Alike (R : Diagnostic → Diagnostic → Prop) : Answer → Answer → Prop
  | done : Alike R done done
  | truth (b : Bool) : Alike R (truth b) (truth b)
  | number (n : Nat) : Alike R (number n) (number n)
  | diagnostic? {d e : Option Diagnostic} (h : Option.Rel R d e) :
      Alike R (diagnostic? d) (diagnostic? e)
  | diagnostics {ds es : List Diagnostic} (h : List.Forall₂ R ds es) :
      Alike R (diagnostics ds) (diagnostics es)
  | lines {xs ys : List (Nat × Diagnostic)} (h : LinesAlike R xs ys) :
      Alike R (lines xs) (lines ys)

end Answer

/-- Operations that are alike keep indexes alike, and alike is what comes of them. -/
theorem Alike.perform (hR : ∀ d e, R d e → d.Respelled e) (h : ix.Alike R iy)
    {op op' : Operation} (hop : op.Alike R op') :
    (ix.perform op).1.Alike R (iy.perform op').1 ∧
      (ix.perform op).2.Alike R (iy.perform op').2 := by
  cases hop with
  | @insert d e hde =>
    refine ⟨h.insertFirst hR hde, ?_⟩
    rw [Index.perform, Index.perform, h.insertFirst_snd hR hde]
    exact .truth _
  | restart hds => exact ⟨Alike.ofList hR hds, .done⟩
  | line hpq n => exact ⟨h, .diagnostic? (h.get?_respelled hpq n)⟩
  | file hpq => exact ⟨h, .lines (h.forPath_respelled hR hpq)⟩
  | list => exact ⟨h, .diagnostics h.entries⟩
  | count =>
    refine ⟨h, ?_⟩
    rw [Index.perform, Index.perform, h.size_eq]
    exact .number _
  | isEmpty =>
    refine ⟨h, ?_⟩
    rw [Index.perform, Index.perform, Index.isEmpty, h.size_eq]
    exact .truth _
  | equals hds =>
    refine ⟨h, ?_⟩
    rw [Index.perform, Index.perform, h.same_eq hR (Alike.ofList (fun _ _ => id) hds)]
    exact .truth _

/-- However many operations are alike, so is what comes of them. -/
theorem Alike.run (hR : ∀ d e, R d e → d.Respelled e) (h : ix.Alike R iy)
    {ops ops' : List Operation} (hops : List.Forall₂ (Operation.Alike R) ops ops') :
    (ix.run ops).1.Alike R (iy.run ops').1 ∧
      List.Forall₂ (Answer.Alike R) (ix.run ops).2 (iy.run ops').2 := by
  induction hops generalizing ix iy with
  | nil => exact ⟨h, .nil⟩
  | cons hop _ ih =>
    obtain ⟨hnext, hanswer⟩ := h.perform hR hop
    obtain ⟨hlast, hanswers⟩ := ih hnext
    exact ⟨hlast, .cons hanswer hanswers⟩

/-! ## Diagnostics at the same place -/

/-- All diagnostics that the operations put in, in order. -/
def put (ops : List Operation) : List Diagnostic :=
  ops.flatMap Operation.put

/-- The two diagnostics are put in at the same place of two sequences of operations, and differ
in nothing but the spelling of their paths. -/
def Paired (ops ops' : List Operation) (d e : Diagnostic) : Prop :=
  d.Respelled e ∧ (d, e) ∈ (put ops).zip (put ops')

theorem Operation.Alike.forall₂_put {op op' : Operation} (h : op.Respelled op') :
    List.Forall₂ Diagnostic.Respelled op.put op'.put := by
  cases h with
  | insert h => exact .cons h .nil
  | restart h => exact h
  | line | file | list | count | isEmpty | equals => exact .nil

/-- For operations to be alike, only the diagnostics need to be related that they put in. -/
theorem Operation.Alike.of_zip {op op' : Operation} (h : op.Respelled op')
    (hzip : ∀ d e, (d, e) ∈ op.put.zip op'.put → R d e) : op.Alike R op' := by
  cases h with
  | insert h => exact .insert (hzip _ _ (by simp [Operation.put]))
  | restart h => exact .restart (List.forall₂_iff_zip.2 ⟨h.length_eq, hzip _ _⟩)
  | line h n => exact .line h n
  | file h => exact .file h
  | list => exact .list
  | count => exact .count
  | isEmpty => exact .isEmpty
  | equals h => exact .equals h

theorem forall₂_put {ops ops' : List Operation} (h : List.Forall₂ Operation.Respelled ops ops') :
    List.Forall₂ Diagnostic.Respelled (put ops) (put ops') :=
  List.rel_flatMap h fun _ _ hop => hop.forall₂_put

theorem forall₂_of_zip {ops ops' : List Operation}
    (h : List.Forall₂ Operation.Respelled ops ops')
    (hzip : ∀ d e, (d, e) ∈ (put ops).zip (put ops') → R d e) :
    List.Forall₂ (Operation.Alike R) ops ops' := by
  induction h with
  | nil => exact .nil
  | @cons op op' rest rest' hop _ ih =>
    have hput : (put (op :: rest)).zip (put (op' :: rest')) =
        op.put.zip op'.put ++ (put rest).zip (put rest') := by
      rw [put, put, List.flatMap_cons, List.flatMap_cons,
        List.zip_append hop.forall₂_put.length_eq]
      rfl
    rw [hput] at hzip
    apply List.Forall₂.cons
    · exact hop.of_zip fun d e hde => hzip d e (List.mem_append_left _ hde)
    · exact ih fun d e hde => hzip d e (List.mem_append_right _ hde)

/-- Operations that are the same but for spelling put in paired diagnostics. -/
theorem forall₂_paired {ops ops' : List Operation}
    (h : List.Forall₂ Operation.Respelled ops ops') :
    List.Forall₂ (Operation.Alike (Paired ops ops')) ops ops' := by
  apply forall₂_of_zip h
  intro d e hde
  exact ⟨(List.forall₂_iff_zip.1 (forall₂_put h)).2 hde, hde⟩

/-! ## What spelling changes -/

/-- The two sequences of operations come to the same, but for the spelling of the paths of the
diagnostics that they put in. -/
structure Agree (ops ops' : List Operation) : Prop where
  /-- What comes of each operation is the same, and each diagnostic comes out as it was put in
  by its own sequence. -/
  answers : List.Forall₂ (Answer.Alike (Paired ops ops')) (empty.run ops).2 (empty.run ops').2
  /-- The indexes list the diagnostics in the same order. -/
  entries : List.Forall₂ (Paired ops ops') (empty.run ops).1.entries (empty.run ops').1.entries
  /-- The indexes are equal if no number differs from itself. -/
  same : (∀ d ∈ put ops, d.payload.NaNFree) →
    (empty.run ops).1.same (empty.run ops').1 = true
  /-- A store shows the same of the one index as of the other one, however the file is
  spelled. -/
  currentFor : ∀ (s : Store) (p q : Path), p.Respelled q →
    LinesAlike (Paired ops ops') ({ s with index := (empty.run ops).1 }.currentFor p)
      ({ s with index := (empty.run ops').1 }.currentFor q)

theorem agree_of_respelled {ops ops' : List Operation}
    (h : List.Forall₂ Operation.Respelled ops ops') : Agree ops ops' := by
  have hR : ∀ d e, Paired ops ops' d e → d.Respelled e := fun _ _ hde => hde.1
  obtain ⟨hindex, hanswers⟩ := alike_empty.run hR (forall₂_paired h)
  refine ⟨hanswers, hindex.entries, fun hnumbers => ?_, fun s p q hpq => ?_⟩
  · refine same_iff_rel_get?.2 fun path line => rel_imp (hindex path line) fun d e hde => ?_
    exact hde.1.same_of_naNFree (hnumbers d (List.of_mem_zip hde.2).1)
  · unfold Store.currentFor
    split
    · exact hindex.forPath_respelled hR hpq
    · exact .nil

end Index

namespace Path

/-- The two paths may stand for each other wherever a path is asked about. -/
structure Interchangeable (p q : Path) : Prop where
  components_eq : p.components = q.components
  /-- They have the same place among all paths. -/
  order_eq : ∀ r, p.order r = q.order r ∧ r.order p = r.order q
  isCheckable_eq : p.isCheckable = q.isCheckable
  get?_eq : ∀ (ix : Index) line, ix.get? p line = ix.get? q line
  forPath_eq : ∀ ix : Index, ix.forPath p = ix.forPath q
  currentFor_eq : ∀ s : Store, s.currentFor p = s.currentFor q

/-- The two paths have nothing in common in any index. -/
structure Apart (p q : Path) : Prop where
  components_ne : p.components ≠ q.components
  order_ne : p.order q ≠ .eq
  /-- No file of an index stands for both of them. -/
  file_ne : ∀ (ix : Index) file, ix.files.getKey? p = some file →
    ix.files.getKey? q ≠ some file
  /-- No diagnostic stands under both of them. -/
  entry_ne : ∀ (ix : Index) line line' d, ix.get? p line = some d → ix.get? q line' ≠ some d
  /-- What is put in for one of them changes nothing for the other one. -/
  insertFirst_get?_eq : ∀ (ix : Index) d line, d.path.Respelled p →
    (ix.insertFirst d).1.get? q line = ix.get? q line
  insertFirst_forPath_eq : ∀ (ix : Index) d, d.path.Respelled p →
    (ix.insertFirst d).1.forPath q = ix.forPath q
  insertFirst_snd_eq : ∀ (ix : Index) d e, d.path.Respelled p → e.path.Respelled q →
    ((ix.insertFirst d).1.insertFirst e).2 = (ix.insertFirst e).2

theorem Respelled.interchangeable {p q : Path} (h : p.Respelled q) : p.Interchangeable q := by
  have hcomponents := respelled_iff.1 h
  have hforPath : ∀ ix : Index, ix.forPath p = ix.forPath q := by
    intro ix
    rw [Index.forPath_eq, Index.forPath_eq]
    simp only [same, hcomponents]
  exact {
    components_eq := hcomponents
    order_eq := fun r => by simp only [order, compareOn, hcomponents, and_self]
    isCheckable_eq := by simp only [isCheckable, extension?, fileName?, hcomponents]
    get?_eq := fun ix line => FileMap.lookup_congr hcomponents line
    forPath_eq := hforPath
    currentFor_eq := fun s => by simp only [Store.currentFor, hforPath] }

theorem apart_of_not_respelled {p q : Path} (h : ¬ p.Respelled q) : p.Apart q := by
  have hcomponents : p.components ≠ q.components := fun heq => h (respelled_iff.2 heq)
  have hget : ∀ (ix : Index) (d : Diagnostic) (line : Nat), d.path.Respelled p →
      (ix.insertFirst d).1.get? q line = ix.get? q line := by
    intro ix d line hd
    have hsite : d.site ≠ (q.components, line) := fun heq =>
      hcomponents ((respelled_iff.1 hd).symm.trans (congrArg Prod.fst heq))
    rw [Index.get?_insertFirst, if_neg hsite, Option.or_none]
  exact {
    components_ne := hcomponents
    order_ne := fun heq => hcomponents (order_eq_iff.1 heq)
    file_ne := fun ix file hp hq => by
      have hp := FileMap.components_of_getKey? hp
      have hq := FileMap.components_of_getKey? hq
      exact hcomponents (hp.symm.trans hq)
    entry_ne := fun ix line line' d hp hq => by
      have hp := ((ix.get?_eq_some_iff p line d).1 hp).2
      have hq := ((ix.get?_eq_some_iff q line' d).1 hq).2
      exact hcomponents (congrArg Prod.fst (hp.symm.trans hq))
    insertFirst_get?_eq := hget
    insertFirst_forPath_eq := fun ix d hd => Index.forPath_congr fun line => hget ix d line hd
    insertFirst_snd_eq := fun ix d e hd he => by
      have hsame := he.interchangeable.get?_eq
      rw [Bool.eq_iff_iff, Index.insertFirst_snd_iff, Index.insertFirst_snd_iff, hsame, hsame,
        hget ix d e.line hd] }

end Path

/-- Spelling never matters.  Two spellings of a path may stand for each other, two paths that are
no spellings of each other have nothing in common, and sequences of operations that are the same
but for spelling come to the same. -/
theorem spelling_never_matters :
    (∀ p q : Path, p.Respelled q → p.Interchangeable q) ∧
    (∀ p q : Path, ¬ p.Respelled q → p.Apart q) ∧
    ∀ ops ops', List.Forall₂ Index.Operation.Respelled ops ops' → Index.Agree ops ops' :=
  ⟨fun _ _ => Path.Respelled.interchangeable, fun _ _ => Path.apart_of_not_respelled,
    fun _ _ => Index.agree_of_respelled⟩

/-- The second spelling of a line comes too late in both sequences, and a dot that comes first
makes another file. -/
theorem spelling_never_matters_of_idle_dots :
    let a : Diagnostic := ⟨⟨"/p/a.js"⟩, 2, .error, "first", .null⟩
    let b : Diagnostic := ⟨⟨"/p//a.js/"⟩, 2, .warning, "second", .null⟩
    let c : Diagnostic := ⟨⟨"./a.js"⟩, 2, .error, "third", .number (.float 0.5)⟩
    let a' : Diagnostic := ⟨⟨"//p/./a.js"⟩, 2, .error, "first", .null⟩
    let b' : Diagnostic := ⟨⟨"/p/a.js/."⟩, 2, .warning, "second", .null⟩
    let c' : Diagnostic := ⟨⟨".//a.js"⟩, 2, .error, "third", .number (.float 0.5)⟩
    let ops : List Index.Operation :=
      [.insert a, .insert b, .insert c, .line a.path 2, .file c.path, .list, .equals [a, c]]
    let ops' : List Index.Operation :=
      [.insert a', .insert b', .insert c', .line b.path 2, .file c'.path, .list, .equals [a', c']]
    a.path.Respelled b'.path ∧ a.path.isCheckable = b'.path.isCheckable ∧
      ¬ c.path.Respelled ⟨"a.js"⟩ ∧ c.path.Apart ⟨"a.js"⟩ ∧
      List.Forall₂ Index.Operation.Respelled ops ops' ∧ (∀ d ∈ Index.put ops, d.payload.NaNFree) ∧
      (Index.empty.run ops).1.same (Index.empty.run ops').1 = true := by
  intro a b c a' b' c' ops ops'
  have hab : a.path.Respelled b'.path := by decide
  have hc : ¬ c.path.Respelled ⟨"a.js"⟩ := by decide
  have haa' : a.Respelled a' := ⟨by decide, rfl⟩
  have hbb' : b.Respelled b' := ⟨by decide, rfl⟩
  have hcc' : c.Respelled c' := ⟨by decide, rfl⟩
  have hops : List.Forall₂ Index.Operation.Respelled ops ops' :=
    .cons (.insert haa') <| .cons (.insert hbb') <| .cons (.insert hcc') <|
      .cons (.line (by decide) 2) <| .cons (.file hcc'.path) <| .cons .list <|
      .cons (.equals (.cons haa' (.cons hcc' .nil))) .nil
  have hnull : Json.Value.null.NaNFree := fun hnan => hnan
  have hhalf : c.payload.NaNFree := by
    show ¬ (0.5 : Float).isNaN = true
    decide +kernel
  have hnumbers : ∀ d ∈ Index.put ops, d.payload.NaNFree := by
    have hput : Index.put ops = [a, b, c] := rfl
    rw [hput]
    simp only [List.forall_mem_cons]
    exact ⟨hnull, hnull, hhalf, by simp⟩
  obtain ⟨hsame, hapart, hagree⟩ := spelling_never_matters
  exact ⟨hab, (hsame _ _ hab).isCheckable_eq, hc, hapart _ _ hc, hops, hnumbers,
    (hagree _ _ hops).same hnumbers⟩

end InlineCheck
