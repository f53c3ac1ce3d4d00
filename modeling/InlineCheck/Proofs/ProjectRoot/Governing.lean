import InlineCheck.Machine
import InlineCheck.ProjectRoot
import InlineCheck.Proofs.Path.Components

/-!
# The project that governs a file

The search for the project of a file goes up from the file by dropping the last component of the
path.  This is not the directory above if that component is `..`.  Here is told how far the
project that is found governs the file when there are no links, so that a path can be resolved
without looking at the files.

* `Path.names` is the path with `.` and `..` resolved, and `Governs` says what the nearest
  directory with a marker is, in terms of resolved paths.
* `Component.walk_passes` is the reason why a directory between the file and its project is not
  missed: one comes by it on the way to the file.
* `candidates` are the directories that are looked at, and `components_of_candidates` says that
  these are all the places on the way from the project to the file.
* `locate_governs_iff` is the result.
-/

namespace InlineCheck

/-! ## Where a path leads -/

namespace Component

/-- The names of the directory that a component leads to.  Above the root there is the root. -/
def enter (dir : List String) : Component → List String
  | root => []
  | here => dir
  | up => dir.dropLast
  | name text => dir ++ [text]

/-- Where components lead to from a directory. -/
def walk (dir : List String) (cs : List Component) : List String :=
  cs.foldl enter dir

theorem walk_append (dir : List String) (cs ds : List Component) :
    walk dir (cs ++ ds) = walk (walk dir cs) ds :=
  List.foldl_append

theorem walk_concat (dir : List String) (cs : List Component) (c : Component) :
    walk dir (cs ++ [c]) = enter (walk dir cs) c :=
  walk_append dir cs [c]

end Component

/-- The names that lead from the root to where the path leads, if there are no links. -/
def Path.names (p : Path) : List String :=
  Component.walk [] p.components

theorem Path.names_of_components {p q : Path} {below : List Component}
    (h : p.components = q.components ++ below) : p.names = Component.walk q.names below := by
  rw [names, h, Component.walk_append]
  rfl

/-- The directory is one of those above the place. -/
def Above (dir place : List String) : Prop :=
  dir <+: place ∧ dir ≠ place

instance (dir place : List String) : Decidable (Above dir place) :=
  inferInstanceAs (Decidable (dir <+: place ∧ dir ≠ place))

namespace Above

variable {dir place : List String}

theorem concat_iff {text : String} : Above dir (place ++ [text]) ↔ dir <+: place := by
  rw [Above, List.prefix_concat_iff]
  constructor
  · intro ⟨hinit, hne⟩
    exact hinit.resolve_left hne
  · intro hinit
    refine ⟨.inr hinit, fun heq => ?_⟩
    have hlength := hinit.length_le
    rw [heq, List.length_append, List.length_singleton] at hlength
    omega

theorem asymm (h : Above dir place) : ¬ Above place dir :=
  fun hback => h.2 (h.1.eq_of_length (Nat.le_antisymm h.1.length_le hback.1.length_le))

/-- What lies below a directory is reached from below it or from the directory itself. -/
theorem of_enter {c : Component} (h : Above dir (c.enter place)) :
    Above dir place ∨ place = dir := by
  have hinit : dir <+: place := by
    cases c with
    | root => exact absurd (List.prefix_nil.1 h.1) h.2
    | here => exact h.1
    | up => exact h.1.trans (List.dropLast_prefix place)
    | name text => exact concat_iff.1 h
  by_cases heq : place = dir
  · exact .inr heq
  · exact .inl ⟨hinit, Ne.symm heq⟩

end Above

namespace Component

/-- One comes from a place that is not below a directory to one that is only by the directory. -/
theorem walk_passes {dir place : List String} (cs : List Component)
    (habove : Above dir (walk place cs)) (hplace : ¬ Above dir place) :
    ∃ before after, cs = before ++ after ∧ after ≠ [] ∧ walk place before = dir := by
  induction cs using List.reverseRecOn with
  | nil => exact absurd habove hplace
  | append_singleton cs c ih =>
    rw [walk_concat] at habove
    rcases habove.of_enter with hearlier | hhere
    · obtain ⟨before, after, rfl, _, hdir⟩ := ih hearlier
      exact ⟨before, after ++ [c], List.append_assoc .., by simp, hdir⟩
    · exact ⟨cs, [c], rfl, by simp, hhere⟩

/-- Names lead further down. -/
theorem above_walk {dir : List String} {cs : List Component} (hne : cs ≠ [])
    (hnames : ∀ c ∈ cs, ∃ text, c = name text) : Above dir (walk dir cs) := by
  induction cs using List.reverseRecOn with
  | nil => exact absurd rfl hne
  | append_singleton cs c ih =>
    obtain ⟨text, rfl⟩ := hnames c (by simp)
    rw [walk_concat, enter, Above.concat_iff]
    by_cases hcs : cs = []
    · rw [hcs]
      exact List.prefix_rfl
    · refine (ih hcs fun c hc => ?_).1
      exact hnames c (List.mem_append_left _ hc)

end Component

namespace ProjectRoot

/-! ## The directories that are looked at -/

/-- The directories that are looked at, from the given one upwards. -/
def candidates : Nat → Option Path → List Path
  | 0, _ => []
  | _, none => []
  | most + 1, some dir => dir :: candidates most dir.parent?

theorem candidates_none (most : Nat) : candidates most none = [] := by
  cases most <;> rfl

/-- The search takes the first directory with a marker. -/
theorem ascend_eq (host : Host Id) (most : Nat) (start : Option Path) :
    (ascend host most start).run =
      (candidates most start).find? fun dir => (host.isFile (dir.join marker)).run := by
  induction most generalizing start with
  | zero => rfl
  | succ most ih =>
    cases start with
    | none => rfl
    | some dir =>
      rw [ascend, candidates, List.find?_cons, Id.run_bind]
      cases (host.isFile (dir.join marker)).run with
      | true => rfl
      | false => exact ih dir.parent?

/-- The absolute path of the file: its own, or the one below the directory a program works in. -/
inductive SeenAs (host : Host Id) (file : Path) : Path → Prop
  | absolute (hfile : file.isAbsolute = true) : SeenAs host file file
  | relative {dir : Path} (hfile : file.isAbsolute = false)
      (hdir : host.currentDir.run = .ok dir) (habs : dir.isAbsolute = true) :
      SeenAs host file (dir.join file)

theorem SeenAs.isAbsolute {host : Host Id} {file seen : Path} (h : SeenAs host file seen) :
    seen.isAbsolute = true := by
  cases h with
  | absolute hfile => exact hfile
  | relative hfile hdir habs => exact (Path.components_join habs hfile).1

/-- The search starts at the parent of the absolute path, and takes the first directory with a
marker. -/
theorem locateWithin_of_seenAs {host : Host Id} {file seen : Path} (h : SeenAs host file seen)
    (most : Nat) :
    (locateWithin host most file).run =
      match (candidates most seen.parent?).find? fun dir => (host.isFile (dir.join marker)).run with
      | some root => .ok root
      | none => .error (.rootNotFound file) := by
  have hseen : (absolute? host file).run = some seen := by
    cases h with
    | absolute hfile =>
      rw [absolute?, if_pos hfile]
      rfl
    | relative hfile hdir habs =>
      rw [absolute?, if_neg (by simp [hfile]), Id.run_bind, hdir]
      rfl
  rw [locateWithin, Id.run_bind, hseen, Option.bind_some, Id.run_bind, ascend_eq]
  cases (candidates most seen.parent?).find? fun dir => (host.isFile (dir.join marker)).run <;> rfl

/-- If a directory is looked at, then first the parent, and the others from there. -/
theorem candidates_cases (most : Nat) {p : Path} (hp : p.isAbsolute = true) :
    candidates most p.parent? = [] ∨
      ∃ q c rest, q.isAbsolute = true ∧ p.components = q.components ++ [c] ∧
        candidates most p.parent? = q :: candidates rest q.parent? := by
  rcases Path.parent?_cases hp with ⟨hnone, _⟩ | ⟨q, c, hparent, hq, hcomponents⟩
  · exact .inl (by rw [hnone, candidates_none])
  · cases most with
    | zero => exact .inl rfl
    | succ rest => exact .inr ⟨q, c, rest, hq, hcomponents, by rw [hparent]; rfl⟩

/-- A directory that is looked at is on the way to the path, and so is every place that comes
between them.  Those places have been looked at before. -/
theorem components_of_candidates {most : Nat} {p dir : Path} {earlier later : List Path}
    (hp : p.isAbsolute = true) (hsplit : candidates most p.parent? = earlier ++ dir :: later) :
    ∃ below, below ≠ [] ∧ dir.isAbsolute = true ∧ p.components = dir.components ++ below ∧
      ∀ before after, below = before ++ after → before ≠ [] → after ≠ [] →
        ∃ q ∈ earlier, q.isAbsolute = true ∧ q.components = dir.components ++ before := by
  induction earlier generalizing most p with
  | nil =>
    rcases candidates_cases most hp with hnone | ⟨q, c, rest, hq, hcomponents, hcons⟩
    · simp [hnone] at hsplit
    · obtain ⟨rfl, _⟩ := List.cons.inj (hcons.symm.trans hsplit)
      refine ⟨[c], by simp, hq, hcomponents, fun before after hparts hbefore hafter => ?_⟩
      rcases List.singleton_eq_append_iff.1 hparts with ⟨hnil, _⟩ | ⟨_, hnil⟩
      · exact absurd hnil hbefore
      · exact absurd hnil hafter
  | cons e earlier ih =>
    rcases candidates_cases most hp with hnone | ⟨q, c, rest, hq, hcomponents, hcons⟩
    · simp [hnone] at hsplit
    · obtain ⟨rfl, hrest⟩ := List.cons.inj (hcons.symm.trans hsplit)
      obtain ⟨below, hne, hdir, hbelow, hbetween⟩ := ih hq hrest
      refine ⟨below ++ [c], by simp, hdir, by rw [hcomponents, hbelow, List.append_assoc], ?_⟩
      intro before after hparts hbefore hafter
      obtain ⟨after, d, rfl⟩ := after.eq_nil_or_concat'.resolve_left hafter
      rw [← List.append_assoc] at hparts
      obtain ⟨hparts, _⟩ := List.append_inj' hparts rfl
      by_cases hlast : after = []
      · rw [hlast, List.append_nil] at hparts
        exact ⟨q, List.mem_cons_self, hq, by rw [hbelow, hparts]⟩
      · obtain ⟨q', hq', hplace⟩ := hbetween before after hparts hbefore hlast
        exact ⟨q', List.mem_cons_of_mem _ hq', hplace⟩

/-- The project is the first directory with a marker among those that are looked at. -/
theorem candidates_of_locateWithin {host : Host Id} {most : Nat} {file dir : Path}
    (hfile : file.isAbsolute = true) (hfound : (locateWithin host most file).run = .ok dir) :
    (host.isFile (dir.join marker)).run = true ∧
      ∃ earlier later, candidates most file.parent? = earlier ++ dir :: later ∧
        ∀ q ∈ earlier, (host.isFile (q.join marker)).run = false := by
  have hfind : (candidates most file.parent?).find?
      (fun dir => (host.isFile (dir.join marker)).run) = some dir := by
    rw [locateWithin_of_seenAs (.absolute hfile)] at hfound
    split at hfound
    next root hroot => rw [hroot, Except.ok.inj hfound]
    next => simp at hfound
  obtain ⟨hmarked, earlier, later, hsplit, hearlier⟩ := List.find?_eq_some_iff_append.1 hfind
  exact ⟨hmarked, earlier, later, hsplit, fun q hq => by simpa using hearlier q hq⟩

/-! ## The nearest directory with a marker -/

/-- The directory is the nearest one above the file that has a marker. -/
structure Governs (files : List String → Bool) (dir file : List String) : Prop where
  above : Above dir file
  marked : files (dir ++ [marker.text]) = true
  nearest : ∀ between, Above dir between → Above between file →
    files (between ++ [marker.text]) = false

/-- The way from the directory stays below it. -/
def Descends (dir : List String) (below : List Component) : Prop :=
  ∀ before after, below = before ++ after → before ≠ [] → Above dir (Component.walk dir before)

/-- No place on the way from the directory has a marker, apart from its two ends. -/
def Unmarked (files : List String → Bool) (dir : List String) (below : List Component) : Prop :=
  ∀ before after, below = before ++ after → before ≠ [] → after ≠ [] →
    files (Component.walk dir before ++ [marker.text]) = false

section

variable {files : List String → Bool} {dir : List String} {below : List Component}

/-- A directory between the two is passed on the way. -/
theorem Unmarked.governs (hway : Unmarked files dir below)
    (hmarked : files (dir ++ [marker.text]) = true)
    (habove : Above dir (Component.walk dir below)) :
    Governs files dir (Component.walk dir below) := by
  refine ⟨habove, hmarked, fun between hdir hfile => ?_⟩
  obtain ⟨before, after, hparts, hafter, hplace⟩ := Component.walk_passes below hfile hdir.asymm
  have hbefore : before ≠ [] := by
    intro hnil
    rw [hnil] at hplace
    exact hdir.2 hplace
  rw [← hplace]
  exact hway before after hparts hbefore hafter

/-- A way that leaves the directory does not come back, since the directory has a marker. -/
theorem Unmarked.descends (hway : Unmarked files dir below)
    (hmarked : files (dir ++ [marker.text]) = true)
    (habove : Above dir (Component.walk dir below)) : Descends dir below := by
  intro before after hparts hbefore
  by_contra hleft
  rw [hparts, Component.walk_append] at habove
  obtain ⟨back, rest, hback, hrest, hplace⟩ := Component.walk_passes after habove hleft
  have hfree := hway (before ++ back) rest (by rw [hparts, hback, List.append_assoc])
    (by simp [hbefore]) hrest
  rw [Component.walk_append, hplace, hmarked] at hfree
  cases hfree

end

theorem names_join_marker {dir : Path} (hdir : dir.isAbsolute = true) :
    (dir.join marker).isAbsolute = true ∧
      (dir.join marker).names = dir.names ++ [marker.text] := by
  obtain ⟨habs, hcomponents⟩ := Path.components_join hdir (q := marker) (by decide +kernel)
  have hbelow : Path.below marker.text.toList = [.name marker.text] := by decide +kernel
  refine ⟨habs, ?_⟩
  rw [Path.names_of_components hcomponents, hbelow]
  rfl

/-- The path of a file goes on from that of its project.  The project has a marker, and there is
none on the way to the file.  It is the nearest directory with a marker exactly if the way to the
file stays below it, that is, if it is above the file at all.  This is so if `..` is not on the
way. -/
theorem locate_governs_iff {host : Host Id} {files : List String → Bool}
    (hfiles : ∀ p : Path, p.isAbsolute = true → (host.isFile p).run = files p.names)
    {most : Nat} {file dir : Path} (hfile : file.isAbsolute = true)
    (hfound : (locateWithin host most file).run = .ok dir) :
    ∃ below, file.components = dir.components ++ below ∧
      files (dir.names ++ [marker.text]) = true ∧ Unmarked files dir.names below ∧
      (Governs files dir.names file.names ↔ Descends dir.names below) ∧
      (Above dir.names file.names → Governs files dir.names file.names) ∧
      (.up ∉ below → Governs files dir.names file.names) := by
  obtain ⟨hmarker, earlier, later, hsplit, hearlier⟩ := candidates_of_locateWithin hfile hfound
  obtain ⟨below, hne, hdir, hcomponents, hbetween⟩ := components_of_candidates hfile hsplit
  have hnames : file.names = Component.walk dir.names below :=
    Path.names_of_components hcomponents
  have hmarked : files (dir.names ++ [marker.text]) = true := by
    obtain ⟨habs, hjoin⟩ := names_join_marker hdir
    rw [← hjoin, ← hfiles _ habs]
    exact hmarker
  have hway : Unmarked files dir.names below := by
    intro before after hparts hbefore hafter
    obtain ⟨q, hq, hqabs, hqcomponents⟩ := hbetween before after hparts hbefore hafter
    obtain ⟨habs, hjoin⟩ := names_join_marker hqabs
    rw [← Path.names_of_components hqcomponents, ← hjoin, ← hfiles _ habs]
    exact hearlier q hq
  rw [hnames]
  refine ⟨below, hcomponents, hmarked, hway, ⟨?_, ?_⟩, hway.governs hmarked, ?_⟩
  · intro hgoverns
    exact hway.descends hmarked hgoverns.above
  · intro hdescends
    exact hway.governs hmarked (hdescends below [] (List.append_nil below).symm hne)
  · intro hup
    refine hway.governs hmarked (Component.above_walk hne fun c hc => ?_)
    refine (Path.eq_of_mem_added hfile hdir hcomponents hc).resolve_left ?_
    intro heq
    exact hup (heq ▸ hc)

/-- A machine that has these files and no links. -/
def hostOf (files : List (List String)) : Host Id :=
  { Machine.host ⟨⟨[]⟩, [], [], ⟨"/"⟩, []⟩ with isFile := fun p => files.contains p.names }

theorem isFile_hostOf (files : List (List String)) (p : Path) :
    ((hostOf files).isFile p).run = files.contains p.names :=
  rfl

/-- The project is above the file, although both paths go through `..`. -/
theorem locate_governs_through_up :
    let files := [["a", ".flowconfig"], [".flowconfig"]]
    let file : Path := ⟨"/a/x/../b//c.js"⟩
    let dir : Path := ⟨"/a/x/.."⟩
    (∀ p : Path, p.isAbsolute = true → ((hostOf files).isFile p).run = files.contains p.names) ∧
      file.isAbsolute = true ∧ (locateWithin (hostOf files) 2 file).run = .ok dir ∧
      Governs files.contains dir.names file.names := by
  intro files file dir
  have hfiles : ∀ p : Path, p.isAbsolute = true →
      ((hostOf files).isFile p).run = files.contains p.names :=
    fun p _ => isFile_hostOf files p
  have hfile : file.isAbsolute = true := by decide +kernel
  have hfound : (locateWithin (hostOf files) 2 file).run = .ok dir := by decide +kernel
  have habove : Above dir.names file.names := by decide +kernel
  clear_value files file dir
  obtain ⟨_, _, _, _, _, hgoverns, _⟩ := locate_governs_iff hfiles hfile hfound
  exact ⟨hfiles, hfile, hfound, hgoverns habove⟩

/-- The directory that is found is not above the file, which lies in a directory beside it. -/
theorem locate_misses_through_up :
    let files := [["a", "b", ".flowconfig"], [".flowconfig"]]
    let file : Path := ⟨"/a/b/../c.js"⟩
    let dir : Path := ⟨"/a/b"⟩
    (∀ p : Path, p.isAbsolute = true → ((hostOf files).isFile p).run = files.contains p.names) ∧
      file.isAbsolute = true ∧ (locateWithin (hostOf files) 100 file).run = .ok dir ∧
      file.names = ["a", "c.js"] ∧ dir.names = ["a", "b"] ∧ ¬ Above dir.names file.names := by
  intro files file dir
  refine ⟨fun p _ => isFile_hostOf files p, ?_⟩
  decide +kernel

end ProjectRoot

end InlineCheck
