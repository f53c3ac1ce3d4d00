import InlineCheck.Proofs.Since
import InlineCheck.Store
import Mathlib.Data.List.Induction

/-!
# What a store owes to its history

A store that was new at first has been called some number of times.  `Store.Follows` says what
can be seen of it in terms of these calls alone: how many of them were marks, which index was
put in last, and which calls came after which.

* `Since` is how the calls are spoken of: one of them had a property, and none of the later
  ones another one.  `since_concat` says what one more call makes of it.
* `epoch_after` and `fresh_apply_iff` are about the epoch, which starts again from zero after
  the greatest 64-bit word.
* `stale_after_iff` and `visible_after_iff` are about the two flags.  Each of them is an
  induction over the calls.
* `follows_after` puts them together.
-/

namespace InlineCheck.Store

/-- A call that changes the store. -/
inductive Call
  | markStale
  | clearVisible
  | replace (index : Index)
  | apply (index : Index) (began : Epoch)

namespace Call

/-- Whether the call notes a change of the document. -/
def isMark : Call → Bool
  | markStale => true
  | _ => false

/-- The index that the call puts in. -/
def index? : Call → Option Index
  | replace index => some index
  | apply index _ => some index
  | _ => none

end Call

/-- The store behind a call. -/
def perform (s : Store) : Call → Store
  | .markStale => s.markStale
  | .clearVisible => s.clearVisible
  | .replace index => s.replace index
  | .apply index began => (s.apply index began).1

/-- The store behind calls of a new one. -/
def after (calls : List Call) : Store :=
  calls.foldl perform new

/-- The call puts in an index that is up to date, as a replacement is and an application may
be. -/
def Refreshes (s : Store) : Call → Prop
  | .replace _ => True
  | .apply index began => (s.apply index began).2 = true
  | .markStale => False
  | .clearVisible => False

/-- One of the calls has the first property, and none of the later ones has the second one.
Whether a call has a property may depend on the store that it was made of. -/
def Since (p q : Store → Call → Prop) (calls : List Call) : Prop :=
  InlineCheck.Since (fun before => p (after before)) (fun before => q (after before)) calls

/-- The store is as its calls say. -/
structure Follows (s : Store) (calls : List Call) : Prop where
  /-- The epoch counts the marks. -/
  epoch_eq : s.epoch.toNat = calls.countP Call.isMark % UInt64.size
  /-- The index is the one that was put in last. -/
  index_eq : s.index = (calls.filterMap Call.index?).getLast?.getD .empty
  /-- An index is up to date if the marks since its epoch was read are a multiple of the number
  of epochs. -/
  apply_iff : ∀ n index, (s.apply index (after (calls.take n)).epoch).2 = true ↔
    UInt64.size ∣ (calls.drop n).countP Call.isMark
  apply_iff_of_lt : ∀ n index, (calls.drop n).countP Call.isMark < UInt64.size →
    ((s.apply index (after (calls.take n)).epoch).2 = true ↔
      (calls.drop n).countP Call.isMark = 0)
  /-- The store is up to date if that was made so by the last of all calls but those that
  hide. -/
  fresh_iff : s.stale = false ↔ Since Refreshes (fun _ call => call ≠ .clearVisible) calls
  /-- Nothing is shown if the diagnostics were hidden and no index came since then that is up
  to date. -/
  hidden : Since (fun _ call => call = .clearVisible) Refreshes calls →
    ∀ path, s.currentFor path = []
  shown : ¬ Since (fun _ call => call = .clearVisible) Refreshes calls →
    ∀ path, s.currentFor path = s.index.forPath path

variable {p q : Store → Call → Prop} (calls : List Call)

theorem after_concat (call : Call) : after (calls ++ [call]) = (after calls).perform call := by
  simp [after]

/-- With one more call, either that has the first property, or an earlier one has it and the
last one has not the second one. -/
theorem since_concat (call : Call) :
    Since p q (calls ++ [call]) ↔
      p (after calls) call ∨ Since p q calls ∧ ¬ q (after calls) call :=
  InlineCheck.since_concat (p := fun before => p (after before))
    (q := fun before => q (after before)) calls call

/-! ## The epoch -/

theorem epoch_perform (s : Store) (call : Call) :
    (s.perform call).epoch = s.epoch + .ofNat call.isMark.toNat := by
  cases call with
  | markStale => rfl
  | clearVisible | replace | apply => simp [perform, clearVisible, replace, apply, Call.isMark]

theorem epoch_after : (after calls).epoch = .ofNat (calls.countP Call.isMark) := by
  induction calls using List.reverseRecOn with
  | nil => rfl
  | append_singleton calls call ih =>
    rw [after_concat, epoch_perform, ih, List.countP_append, List.countP_singleton,
      UInt64.ofNat_add]
    cases call.isMark <;> rfl

/-- Two counts give one epoch if they are a multiple of the number of epochs apart. -/
theorem ofNat_add_eq_iff (a b : Nat) :
    UInt64.ofNat (a + b) = UInt64.ofNat a ↔ UInt64.size ∣ b := by
  rw [← UInt64.toNat_inj, UInt64.toNat_ofNat', UInt64.toNat_ofNat', UInt64.size]
  omega

/-- An index is up to date by the marks since the epoch was read. -/
theorem fresh_apply_iff (n : Nat) (index : Index) :
    ((after calls).apply index (after (calls.take n)).epoch).2 = true ↔
      UInt64.size ∣ (calls.drop n).countP Call.isMark := by
  have hcount : calls.countP Call.isMark =
      (calls.take n).countP Call.isMark + (calls.drop n).countP Call.isMark := by
    rw [← List.countP_append, List.take_append_drop]
  rw [apply, unchangedSince, beq_iff_eq, epoch_after, epoch_after, hcount, ofNat_add_eq_iff]

/-! ## The index and the flags -/

theorem index_after :
    (after calls).index = (calls.filterMap Call.index?).getLast?.getD .empty := by
  induction calls using List.reverseRecOn with
  | nil => rfl
  | append_singleton calls call ih =>
    rw [after_concat, List.filterMap_append]
    cases call with
    | markStale | clearVisible => simpa [perform, markStale, clearVisible, Call.index?] using ih
    | replace index | apply index began => simp [perform, replace, apply, Call.index?]

theorem stale_after_iff :
    (after calls).stale = false ↔
      Since Refreshes (fun _ call => call ≠ .clearVisible) calls := by
  induction calls using List.reverseRecOn with
  | nil => exact iff_of_false (by decide) not_since_nil
  | append_singleton calls call ih =>
    rw [after_concat, since_concat]
    cases call with
    | markStale => simp [perform, markStale, Refreshes]
    | clearVisible => simpa [perform, clearVisible, Refreshes] using ih
    | replace index => simp [perform, replace, Refreshes]
    | apply index began => simp [perform, apply, Refreshes]

theorem visible_after_iff :
    (after calls).visible = false ↔
      Since (fun _ call => call = .clearVisible) Refreshes calls := by
  induction calls using List.reverseRecOn with
  | nil => exact iff_of_false (by decide) not_since_nil
  | append_singleton calls call ih =>
    rw [after_concat, since_concat]
    cases call with
    | markStale => simpa [perform, markStale, Refreshes] using ih
    | clearVisible => simp [perform, clearVisible]
    | replace index => simp [perform, replace, Refreshes]
    | apply index began => simp [perform, apply, Refreshes, ih]

/-- Whatever was called, in whatever order, the store is as the calls say. -/
theorem follows_after : (after calls).Follows calls where
  epoch_eq := by rw [epoch_after, UInt64.toNat_ofNat', UInt64.size]
  index_eq := index_after calls
  apply_iff := fresh_apply_iff calls
  apply_iff_of_lt n index hlt := by
    rw [fresh_apply_iff]
    constructor
    · intro hdvd
      exact Nat.eq_zero_of_dvd_of_lt hdvd hlt
    · intro hzero
      rw [hzero]
      exact Nat.dvd_zero _
  fresh_iff := stale_after_iff calls
  hidden h path := by simp [currentFor, (visible_after_iff calls).2 h]
  shown h path := by
    have hvisible : (after calls).visible = true := by
      simpa using mt (visible_after_iff calls).1 h
    simp [currentFor, hvisible]

end InlineCheck.Store
