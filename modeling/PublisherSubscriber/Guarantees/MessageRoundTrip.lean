import PublisherSubscriber.Shared.Message
import PublisherSubscriber.Shared.Numerals
import PublisherSubscriber.Shared.Reader
import PublisherSubscriber.Shared.RoundTrip

/-!
# Messages are read back

The timestamp is written as an unsigned number and read with `stoll`, which
takes no number beyond the signed range.
-/

namespace PublisherSubscriber

namespace Message

theorem readMessage_of_normal {v w : Json} (h : w.normal = v.normal) :
    readMessage w = readMessage v := by
  have htext : ∀ key, w.memberText key = v.memberText key := by
    intro key
    rw [← Json.memberText_normal w, h, Json.memberText_normal]
  rw [readMessage_eq, readMessage_eq, htext, htext, htext]

variable (m : Message)

theorem readMessage_toJson :
    readMessage m.toJson =
      (stoll (to_string (UInt64.ofInt m.messageTimestamp).toNat)).map fun messageTimestamp ↦
        ⟨m.topic, messageTimestamp, m.message⟩ := by
  have htopic : m.toJson.memberText (ascii "topic") = .ok m.topic := by
    rw [toJson, Json.memberText, Json.index_ofMembers, Json.lookup_assign_ne (by decide),
      Json.lookup_assign_ne (by decide), Json.lookup_assign_self]
    rfl
  have htimestamp : m.toJson.memberText (ascii "messageTimestamp") =
      .ok (to_string (UInt64.ofInt m.messageTimestamp).toNat) := by
    rw [toJson, Json.memberText, Json.index_ofMembers, Json.lookup_assign_ne (by decide),
      Json.lookup_assign_self]
    rfl
  have hmessage : m.toJson.memberText (ascii "message") = .ok m.message := by
    rw [toJson, Json.memberText, Json.index_ofMembers, Json.lookup_assign_self]
    rfl
  rw [readMessage_eq, htopic, htimestamp, hmessage]
  simp only [bind, Except.bind, pure, Except.pure]
  cases stoll (to_string (UInt64.ofInt m.messageTimestamp).toNat) <;> rfl

variable {m} {library : JsonLibrary}

theorem deserialize_serialize (hback : library.ReadsValueBack m.toJson) :
    deserialize library (m.serialize library) = (readMessage m.toJson).mapError caught := by
  obtain ⟨w, hparse, hnormal⟩ := hback
  rw [serialize, deserialize_of_parse hparse, readMessage_of_normal hnormal]

end Message

/-- Every message with a timestamp that is not negative is read back, and no
other message is read at all. -/
theorem message_read_back (library : JsonLibrary) (m : Message)
    (hrange : longLongMin ≤ m.messageTimestamp ∧ m.messageTimestamp ≤ longLongMax)
    (hback : library.ReadsValueBack m.toJson) :
    (0 ≤ m.messageTimestamp →
        Message.deserialize library (m.serialize library) = .ok m) ∧
      (m.messageTimestamp < 0 →
        ∃ e, Message.deserialize library (m.serialize library) = .error e) := by
  rw [Message.deserialize_serialize hback, Message.readMessage_toJson]
  constructor
  · intro hpos
    rw [stoll_to_string_uint64 ⟨hpos, hrange.2⟩]
    rfl
  · intro hneg
    rw [stoll_to_string_uint64_of_neg hrange.1 hneg]
    exact ⟨_, rfl⟩

/-- The first timestamp, the last one and one before 1970, with a reader that
gives the first two a signed type. -/
theorem message_read_back_bounds :
    let m (messageTimestamp : ℤ) : Message := ⟨ascii "news", messageTimestamp, []⟩
    let library := JsonLibrary.ofValues [(m 0).toJson.normal, (m longLongMax).toJson.normal,
      (m (-1)).toJson.normal]
    Message.deserialize library ((m 0).serialize library) = .ok (m 0) ∧
      Message.deserialize library ((m longLongMax).serialize library) = .ok (m longLongMax) ∧
      ∃ e, Message.deserialize library ((m (-1)).serialize library) = .error e := by
  intro m library
  have hnodup : ([(m 0).toJson.normal, (m longLongMax).toJson.normal,
      (m (-1)).toJson.normal].map Json.compact).Nodup := by
    decide +kernel
  have hfirst : library.ReadsValueBack (m 0).toJson :=
    JsonLibrary.readsValueBack_ofValues hnodup (w := (m 0).toJson.normal) (by simp)
      (by decide +kernel) rfl
  have hlast : library.ReadsValueBack (m longLongMax).toJson :=
    JsonLibrary.readsValueBack_ofValues hnodup (w := (m longLongMax).toJson.normal) (by simp)
      (by decide +kernel) rfl
  have hbefore : library.ReadsValueBack (m (-1)).toJson :=
    JsonLibrary.readsValueBack_ofValues hnodup (w := (m (-1)).toJson.normal) (by simp)
      (by decide +kernel) rfl
  exact ⟨(message_read_back library (m 0) (by decide) hfirst).1 (by decide),
    (message_read_back library (m longLongMax) (by decide) hlast).1 (by decide),
    (message_read_back library (m (-1)) (by decide) hbefore).2 (by decide)⟩

end PublisherSubscriber
