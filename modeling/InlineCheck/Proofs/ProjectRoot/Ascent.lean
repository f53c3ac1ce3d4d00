import InlineCheck.Proofs.ProjectRoot.Governing

/-!
# How far the search for a project goes

The search looks at a bounded number of directories above a file, and takes the first one that has
a marker.  Here the bound is told apart from the two other ends of the search, the marker and the
root.

* `Path.ancestor?` is the parent of the parent, and so on, and `Path.ancestor?_cases` says which
  components it has.  The text of the path may be spelled in any way.
* `getElem?_candidates` says that the directories that are looked at are these ancestors, one after
  the other, up to the bound or the root.
* `Nearest` is the first ancestor with a marker, and `locateWithin_nearest` the result.
-/

namespace InlineCheck

/-! ## Ancestors -/

namespace Path

/-- The parent, taken so many times. -/
def ancestor? (p : Path) : Nat → Option Path
  | 0 => some p
  | k + 1 => (p.ancestor? k).bind parent?

theorem ancestor?_succ (p : Path) (k : Nat) :
    p.ancestor? (k + 1) = p.parent?.bind fun q => q.ancestor? k := by
  induction k with
  | zero => cases h : p.parent? <;> simp [ancestor?, h]
  | succ k ih =>
    rw [ancestor?, ih, Option.bind_assoc]
    rfl

/-- An absolute path has as many ancestors, itself among them, as it has components.  Each of them
has the first components of the path. -/
theorem ancestor?_cases {p : Path} (hp : p.isAbsolute = true) (k : Nat) :
    (p.components.length ≤ k ∧ p.ancestor? k = none) ∨
      (k < p.components.length ∧ ∃ q, p.ancestor? k = some q ∧ q.isAbsolute = true ∧
        q.components = p.components.take (p.components.length - k)) := by
  induction k with
  | zero =>
    obtain ⟨cs, hcs⟩ := exists_slash hp
    exact .inr ⟨by simp [components_of_slash hcs], p, rfl, hp, by simp⟩
  | succ k ih =>
    rcases ih with ⟨hle, hnone⟩ | ⟨hlt, q, hq, habs, hcomponents⟩
    · exact .inl ⟨by omega, by rw [ancestor?, hnone]; rfl⟩
    have hlength : q.components.length = p.components.length - k := by
      rw [hcomponents, List.length_take]
      omega
    rcases parent?_cases habs with ⟨hnone, hroot⟩ | ⟨r, c, hparent, hr, hlast⟩
    · rw [hroot, List.length_singleton] at hlength
      exact .inl ⟨by omega, by rw [ancestor?, hq, Option.bind_some, hnone]⟩
    · rw [hlast, List.length_append, List.length_singleton] at hlength
      obtain ⟨cs, hcs⟩ := exists_slash hr
      have hpos : 0 < r.components.length := by simp [components_of_slash hcs]
      refine .inr ⟨by omega, r, by rw [ancestor?, hq, Option.bind_some, hparent], hr, ?_⟩
      have htake : r.components = (r.components ++ [c]).take r.components.length := by simp
      rw [htake, ← hlast, hcomponents, List.take_take]
      congr 1
      omega

end Path

/-- Names are entered one after the other. -/
theorem Component.walk_of_names {cs : List Component} (h : ∀ c ∈ cs, ∃ text, c = name text)
    (dir : List String) : walk dir cs = dir ++ cs.map label := by
  induction cs using List.reverseRecOn with
  | nil => simp [walk]
  | append_singleton cs c ih =>
    obtain ⟨text, rfl⟩ := h c (by simp)
    rw [walk_concat, ih fun c hc => h c (List.mem_append_left _ hc)]
    simp [enter, label]

namespace Path

/-- An absolute path without `..` leads along its own names. -/
theorem names_eq_of_up_notMem {p : Path} (hp : p.isAbsolute = true) (hup : .up ∉ p.components) :
    p.names = p.components.tail.map Component.label := by
  obtain ⟨cs, hcs⟩ := exists_slash hp
  rw [names, components_of_slash hcs]
  rw [components_of_slash hcs] at hup
  have hnames : ∀ c ∈ below cs, ∃ text, c = .name text := fun c hc =>
    (eq_of_mem_below hc).resolve_left fun heq => hup (heq ▸ List.mem_cons_of_mem _ hc)
  exact Component.walk_of_names hnames []

/-- An ancestor has the first components of a path.  It is the directory so many levels above the
place that the path leads to, if `..` is not in the path. -/
theorem lt_of_ancestor? {p q : Path} (hp : p.isAbsolute = true) {k : Nat}
    (h : p.ancestor? k = some q) :
    k < p.components.length ∧ q.components = p.components.take (p.components.length - k) ∧
      (.up ∉ p.components → q.names = p.names.take (p.names.length - k)) := by
  rcases ancestor?_cases hp k with ⟨_, hnone⟩ | ⟨hlt, q', hq', hq, hcomponents⟩
  · rw [hnone] at h
    cases h
  obtain rfl : q' = q := Option.some.inj (hq'.symm.trans h)
  refine ⟨hlt, hcomponents, fun hup => ?_⟩
  have hup' : .up ∉ q'.components := by
    rw [hcomponents]
    exact fun hmem => hup (List.mem_of_mem_take hmem)
  rw [names_eq_of_up_notMem hq hup', names_eq_of_up_notMem hp hup, hcomponents]
  simp only [← List.drop_one, List.drop_take, List.map_take, List.length_map, List.length_drop]
  congr 1
  omega

end Path

namespace ProjectRoot

variable {host : Host Id} {file seen dir : Path} {most k : Nat}

/-! ## The directories that are looked at -/

theorem getElem?_candidates (most : Nat) (start : Option Path) (k : Nat) :
    (candidates most start)[k]? = if k < most then start.bind fun p => p.ancestor? k else none := by
  induction most generalizing start k with
  | zero => rfl
  | succ most ih =>
    cases start with
    | none => simp [candidates_none]
    | some dir =>
      cases k with
      | zero => rfl
      | succ k =>
        rw [candidates, List.getElem?_cons_succ, ih, Option.bind_some, Path.ancestor?_succ]
        simp only [Nat.add_lt_add_iff_right]

/-- The directories that are looked at are the ancestors up to the bound. -/
theorem getElem?_candidates_parent? (most : Nat) (p : Path) (k : Nat) :
    (candidates most p.parent?)[k]? = if k < most then p.ancestor? (k + 1) else none := by
  rw [getElem?_candidates, Path.ancestor?_succ]

/-! ## The nearest ancestor with a marker -/

/-- The directory has the marker, as a regular file. -/
def Marked (host : Host Id) (dir : Path) : Prop :=
  (host.isFile (dir.join marker)).run = true

/-- The directory is the first ancestor with a marker, `k` steps above the path. -/
structure Nearest (host : Host Id) (p : Path) (k : Nat) (dir : Path) : Prop where
  pos : 1 ≤ k
  ancestor : p.ancestor? k = some dir
  marked : Marked host dir
  first : ∀ j other, 1 ≤ j → j < k → p.ancestor? j = some other → ¬ Marked host other

theorem mem_candidates_iff {p : Path} :
    dir ∈ candidates most p.parent? ↔ ∃ k, 1 ≤ k ∧ k ≤ most ∧ p.ancestor? k = some dir := by
  simp only [List.mem_iff_getElem?, getElem?_candidates_parent?]
  constructor
  · rintro ⟨k, hk⟩
    split at hk
    · next hlt => exact ⟨k + 1, by omega, hlt, hk⟩
    · cases hk
  · rintro ⟨k, hpos, hle, hdir⟩
    obtain ⟨k, rfl⟩ := Nat.exists_eq_add_of_le' hpos
    exact ⟨k, by rw [if_pos (by omega), hdir]⟩

/-- The first of the directories that are looked at is the nearest one with a marker. -/
theorem find?_candidates_eq_some_iff {p : Path} :
    ((candidates most p.parent?).find? fun dir => (host.isFile (dir.join marker)).run) =
      some dir ↔ ∃ k, k ≤ most ∧ Nearest host p k dir := by
  have hat := getElem?_candidates_parent? most p
  rw [List.find?_eq_some_iff_getElem]
  constructor
  · rintro ⟨hmarked, k, hk, hdir, hfirst⟩
    have hlt : k < most ∧ p.ancestor? (k + 1) = some dir := by
      have hplace := hat k
      rw [List.getElem?_eq_getElem hk, hdir] at hplace
      split at hplace
      · next hlt => exact ⟨hlt, hplace.symm⟩
      · cases hplace
    refine ⟨k + 1, hlt.1, by omega, hlt.2, hmarked, fun j other hpos hj hother => ?_⟩
    obtain ⟨j, rfl⟩ := Nat.exists_eq_add_of_le' hpos
    have hplace := hat j
    rw [if_pos (by omega), hother] at hplace
    obtain ⟨_, rfl⟩ := List.getElem?_eq_some_iff.1 hplace
    simpa [Marked] using hfirst j (by omega)
  · rintro ⟨k, hle, hpos, hancestor, hmarked, hfirst⟩
    obtain ⟨k, rfl⟩ := Nat.exists_eq_add_of_le' hpos
    have hplace := hat k
    rw [if_pos (by omega), hancestor] at hplace
    obtain ⟨hk, hdir⟩ := List.getElem?_eq_some_iff.1 hplace
    refine ⟨hmarked, k, hk, hdir, fun j hj => ?_⟩
    have hearlier := hat j
    rw [if_pos (by omega), List.getElem?_eq_getElem (by omega)] at hearlier
    simpa [Marked] using hfirst (j + 1) _ (by omega) (by omega) hearlier.symm

theorem locateWithin_eq_ok_iff (h : SeenAs host file seen) :
    (locateWithin host most file).run = .ok dir ↔ ∃ k, k ≤ most ∧ Nearest host seen k dir := by
  rw [locateWithin_of_seenAs h, ← find?_candidates_eq_some_iff]
  cases (candidates most seen.parent?).find? fun dir => (host.isFile (dir.join marker)).run <;> simp

theorem locateWithin_eq_error_iff (h : SeenAs host file seen) :
    (locateWithin host most file).run = .error (.rootNotFound file) ↔
      ∀ k dir, 1 ≤ k → k ≤ most → seen.ancestor? k = some dir → ¬ Marked host dir := by
  have hnone : (locateWithin host most file).run = .error (.rootNotFound file) ↔
      ∀ dir ∈ candidates most seen.parent?, ¬ Marked host dir := by
    rw [locateWithin_of_seenAs h]
    simp only [Marked, ← List.find?_eq_none]
    cases (candidates most seen.parent?).find? fun dir => (host.isFile (dir.join marker)).run <;>
      simp
  simp only [hnone, mem_candidates_iff]
  grind

/-- Whatever the spelling of the path, the search finds the nearest ancestor with a marker if that
is within the bound, and otherwise says that the file as it was given has no project.  A greater
bound changes nothing once a directory is found or the root is passed. -/
theorem locateWithin_nearest (h : SeenAs host file seen) (most : Nat) :
    (∀ dir, (locateWithin host most file).run = .ok dir ↔
      ∃ k, k ≤ most ∧ Nearest host seen k dir) ∧
    ((locateWithin host most file).run = .error (.rootNotFound file) ↔
      ∀ k dir, 1 ≤ k → k ≤ most → seen.ancestor? k = some dir → ¬ Marked host dir) ∧
    ((∃ dir, (locateWithin host most file).run = .ok dir) ∨
      (locateWithin host most file).run = .error (.rootNotFound file)) ∧
    (∀ dir more, most ≤ more → (locateWithin host most file).run = .ok dir →
      (locateWithin host more file).run = .ok dir) ∧
    (locateWithin host 0 file).run = .error (.rootNotFound file) ∧
    (∀ more, seen.components.length ≤ most → most ≤ more →
      (locateWithin host more file).run = (locateWithin host most file).run) ∧
    (∀ k, (∃ dir, seen.ancestor? k = some dir) ↔ k < seen.components.length) ∧
    ∀ k dir, seen.ancestor? k = some dir →
      dir.components = seen.components.take (seen.components.length - k) ∧
      (.up ∉ seen.components → dir.names = seen.names.take (seen.names.length - k)) := by
  have hcases : ∀ bound, (∃ dir, (locateWithin host bound file).run = .ok dir) ∨
      (locateWithin host bound file).run = .error (.rootNotFound file) := by
    intro bound
    rw [locateWithin_of_seenAs h]
    cases (candidates bound seen.parent?).find? fun dir => (host.isFile (dir.join marker)).run <;>
      simp
  have hmono : ∀ dir more, most ≤ more → (locateWithin host most file).run = .ok dir →
      (locateWithin host more file).run = .ok dir := by
    intro dir more hle hfound
    obtain ⟨k, hk, hnearest⟩ := (locateWithin_eq_ok_iff h).1 hfound
    exact (locateWithin_eq_ok_iff h).2 ⟨k, hk.trans hle, hnearest⟩
  refine ⟨fun dir => locateWithin_eq_ok_iff h, locateWithin_eq_error_iff h, hcases most, hmono,
    ?_, ?_, ?_, ?_⟩
  · exact (locateWithin_eq_error_iff h).2 fun k dir hpos hle => by omega
  · intro more hbound hle
    rcases hcases most with ⟨dir, hfound⟩ | hnone
    · rw [hfound, hmono dir more hle hfound]
    · rw [hnone, locateWithin_eq_error_iff h]
      intro k dir hpos _ hdir
      have hlt := (Path.lt_of_ancestor? h.isAbsolute hdir).1
      exact (locateWithin_eq_error_iff h).1 hnone k dir hpos (by omega) hdir
  · intro k
    refine ⟨fun ⟨dir, hdir⟩ => (Path.lt_of_ancestor? h.isAbsolute hdir).1, fun hlt => ?_⟩
    rcases Path.ancestor?_cases h.isAbsolute k with ⟨hle, _⟩ | ⟨_, dir, hdir, _⟩
    · omega
    · exact ⟨dir, hdir⟩
  · intro k dir hdir
    exact (Path.lt_of_ancestor? h.isAbsolute hdir).2

/-- A machine with a project, inside which a directory has the name of the marker. -/
def nestedMachine : Machine where
  tree := ⟨[(["w"], .directory), (["w", ".flowconfig"], .file [] false),
    (["w", "app"], .directory), (["w", "app", ".flowconfig"], .directory),
    (["w", "app", "src"], .directory)]⟩
  directory := ["w", "app"]
  environment := []
  accountHome := ⟨"/"⟩
  input := []

/-- The directory with the name of the marker does not count, so the project is one level further
up.  It is found with a bound of three and no less. -/
theorem locateWithin_nearest_of_nested :
    let host := nestedMachine.host
    let file : Path := ⟨"src/.//./a.js"⟩
    let seen : Path := ⟨"/w/app/src/.//./a.js"⟩
    SeenAs host file seen ∧ ¬ Marked host ⟨"/w/app"⟩ ∧
      (∃ k, k ≤ 3 ∧ Nearest host seen k ⟨"/w"⟩) ∧
      (locateWithin host 2 file).run = .error (.rootNotFound file) ∧
      ∀ more, 3 ≤ more → (locateWithin host more file).run = .ok ⟨"/w"⟩ := by
  intro host file seen
  have hfile : file.isAbsolute = false := by decide +kernel
  have habs : (Path.mk "/w/app").isAbsolute = true := by decide +kernel
  have hjoin : (Path.mk "/w/app").join file = seen := by decide +kernel
  have hseen : SeenAs host file seen := hjoin ▸ .relative hfile (by decide +kernel) habs
  have hfound : (locateWithin host 3 file).run = .ok ⟨"/w"⟩ := by decide +kernel
  have hbound : (locateWithin host 2 file).run = .error (.rootNotFound file) := by
    decide +kernel
  have hmarked : ¬ Marked host ⟨"/w/app"⟩ := by
    rw [Marked]
    decide +kernel
  obtain ⟨hok, _, _, hmono, _⟩ := locateWithin_nearest hseen 3
  exact ⟨hseen, hmarked, (hok _).1 hfound, hbound, fun more hmore => hmono _ more hmore hfound⟩

end ProjectRoot

end InlineCheck
