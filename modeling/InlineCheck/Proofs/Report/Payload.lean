import InlineCheck.Proofs.Json.Readable
import InlineCheck.Proofs.Report.FirstMessage

/-!
# The messages that a report keeps

A diagnostic keeps the message that it was made of.  In the output the message stood inside four
containers: the report, its list of errors, one of these errors and the list of its messages.  So
it is sound, and not as deep as a whole document may be.

* `Report.sound_messages` is about the messages of a report, as they are written.
* `sound_payload` is about the entries of an index.
-/

namespace InlineCheck

open Json (Tree)

/-- The messages of an error are read inside four containers. -/
theorem Entry.WrittenIn.sound_messages {e : Entry} {t : Tree} (h : e.WrittenIn t) :
    ∀ message ∈ e.messages, message.Sound 4 := by
  intro message hmessage
  have hread : some message ∈ (t.itemsOf "message" 1).map fun m => m.read 4 .any := by
    rw [← h.messages_eq]
    exact List.mem_map_of_mem hmessage
  obtain ⟨m, _, hm⟩ := List.mem_map.1 hread
  exact m.sound_of_read 4 (by decide) message hm

theorem Report.sound_messages {output : String} {r : Report} (h : read output = .ok r) :
    ∀ x ∈ r.messages, x.2.Sound 4 := by
  obtain ⟨⟨doc, hdoc⟩, hwritten⟩ := writtenIn_of_read h
  have heach : ∀ e ∈ r.entries, ∀ message ∈ e.messages, message.Sound 4 :=
    ((List.forall₂_and_left _ _).1
      ((hwritten doc hdoc).imp fun _ _ he => ⟨he.sound_messages, he⟩)).1
  intro x hx
  obtain ⟨e, he, hx⟩ := List.mem_flatMap.1 hx
  obtain ⟨message, hmessage, rfl⟩ := List.mem_map.1 hx
  exact heach e he message hmessage

/-- An entry of the index of an output tells what one of the messages says, and keeps it. -/
theorem exists_message_of_parse {output : String} {ix : Index} (h : parse output = .ok ix)
    {d : Diagnostic} (hd : d ∈ ix.entries) :
    ∃ r e message, Report.read output = .ok r ∧ (e, message) ∈ r.messages ∧
      About message d.path d.line ∧ Tells d e message := by
  obtain ⟨r, hread, rfl⟩ := parse_eq_ok_iff.1 h
  have hget : r.index.get? d.path d.line = some d := (Index.get?_eq_some_iff ..).2 ⟨hd, rfl⟩
  obtain ⟨before, e, message, after, hmessages, _, habout, _, htells⟩ :=
    (r.get?_index_eq_some_iff d.path d.line d).1 hget
  exact ⟨r, e, message, hread, by simp [hmessages], habout, htells⟩

/-- What an index keeps can be written inside four containers. -/
theorem sound_payload {output : String} {ix : Index} (h : parse output = .ok ix)
    {d : Diagnostic} (hd : d ∈ ix.entries) : d.payload.Sound 4 := by
  obtain ⟨r, e, message, hread, hmessage, _, htells⟩ := exists_message_of_parse h hd
  rw [htells.payload_eq]
  exact Report.sound_messages hread _ hmessage

end InlineCheck
