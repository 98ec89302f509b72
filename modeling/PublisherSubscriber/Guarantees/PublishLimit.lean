import PublisherSubscriber.Client.Requests
import PublisherSubscriber.Shared.Message
import PublisherSubscriber.Shared.Writer
import Mathlib.Data.Nat.Digits.Defs

/-!
# The limit for a publish

A topic name and a message travel in two envelopes, to the server and to the
subscribers, and both are escaped.  What counts against the buffers is not
their number of characters but the number of bytes these are escaped to.
-/

namespace PublisherSubscriber

theorem length_to_string_le {n k : ℕ} (hk : 0 < k) (hn : n < 10 ^ k) :
    (to_string (n : ℤ)).length ≤ k := by
  have hdigits := Nat.toDigits_length 10 n k hk hn
  have hnonneg : ¬ (n : ℤ) < 0 := by omega
  simpa [to_string, hnonneg, decimalDigits] using hdigits

namespace ClientOperation

theorem toJson_publishTopic (topicName message : Text) (port : ℤ) :
    ((publishTopic topicName message).sent port).toJson = .object [
      (ascii "arguments", .object [
        (ascii "message", .string message), (ascii "topicName", .string topicName)]),
      (ascii "command", .int 2)] := rfl

theorem length_publishTopic (topicName message : Text) (port : ℤ) :
    (Json.writeValue ((publishTopic topicName message).sent port).toJson).length =
      width topicName + width message + 55 := by
  have hkeys : width (ascii "arguments") = 9 ∧ width (ascii "message") = 7 ∧
      width (ascii "topicName") = 9 ∧ width (ascii "command") = 7 := by
    decide +kernel
  have hnumber : (Json.writeValue (.int 2)).length = 1 := by decide +kernel
  simp only [toJson_publishTopic, Json.length_writeValue_object, Json.length_writeMembers_cons,
    Json.length_writeMembers_singleton, Json.length_writeValue_string, hkeys, hnumber]
  omega

end ClientOperation

namespace Message

theorem toJson_eq (m : Message) : m.toJson = .object [
    (ascii "message", .string m.message),
    (ascii "messageTimestamp", .uint (UInt64.ofInt m.messageTimestamp).toNat),
    (ascii "topic", .string m.topic)] := rfl

theorem length_writeValue (m : Message) :
    (Json.writeValue m.toJson).length = width m.topic + width m.message +
      (to_string ((UInt64.ofInt m.messageTimestamp).toNat : ℤ)).length + 45 := by
  have hkeys : width (ascii "message") = 7 ∧ width (ascii "messageTimestamp") = 16 ∧
      width (ascii "topic") = 5 := by
    decide +kernel
  simp only [toJson_eq, Json.length_writeValue_object, Json.length_writeMembers_cons,
    Json.length_writeMembers_singleton, Json.length_writeValue_string,
    Json.length_writeValue_uint, hkeys]
  omega

end Message

/-- The request fits the buffer of the server, and each message sent for it, with
its terminating zero, the buffer of a client. -/
structure PublishFits (library : JsonLibrary) (d : Dictionaries) (topicName message : Text) :
    Prop where
  request : ∀ text, ((Client.publishTopicCommand topicName message).run d).1.serialize library =
    .ok text → text.length ≤ bufferSize
  datagram : ∀ timestamp, longLongMin ≤ timestamp → timestamp ≤ longLongMax →
    ((⟨topicName, timestamp, message⟩ : Message).serialize library).length < bufferSize

/-- A publish fits exactly when the widths of the two strings sum up to at most
1982; in valid UTF-8 every character has its own width. -/
theorem publish_fits_iff (parse : Text → Except CppException (Option Json)) {d : Dictionaries}
    (hd : d.Sound) (topicName message : Text) :
    (PublishFits (.jsoncpp parse) d topicName message ↔
      width topicName + width message ≤ 1982) ∧
    ∀ s : List Char, width (utf8 s) = (s.map fun c ↦ characterWidth c.toNat).sum := by
  refine ⟨?_, width_utf8⟩
  have hbuffer : bufferSize = 2048 := rfl
  constructor
  · intro hfits
    have hlength := hfits.datagram (-1) (by decide) (by decide)
    have hdigits : (to_string ((UInt64.ofInt (-1)).toNat : ℤ)).length = 20 := by decide +kernel
    rw [Message.serialize, JsonLibrary.jsoncpp, Message.length_writeValue, hdigits] at hlength
    dsimp only at hlength
    omega
  · intro hwidth
    have hcommand : ((Client.publishTopicCommand topicName message).run d).1 =
        (ClientOperation.publishTopic topicName message).sent 0 :=
      (ClientOperation.publishTopic topicName message).run_command hd 0
    refine ⟨fun text htext ↦ ?_, fun timestamp _ _ ↦ ?_⟩
    · rw [hcommand] at htext
      obtain ⟨-, rfl⟩ := Command.serialize_inv htext
      rw [JsonLibrary.jsoncpp, ClientOperation.length_publishTopic]
      omega
    · have hdigits := length_to_string_le (k := 20) (by decide)
        (Nat.lt_trans (UInt64.ofInt timestamp).toNat_lt (by decide))
      rw [Message.serialize, JsonLibrary.jsoncpp, Message.length_writeValue]
      dsimp only
      omega

/-- A message of 1960 bytes in which nothing is escaped. -/
theorem publish_fits_plain :
    PublishFits (.jsoncpp fun _ ↦ .ok none) .initial (ascii "news") (List.replicate 1960 97) :=
  (publish_fits_iff _ Dictionaries.sound_initial _ _).1.mpr (by decide +kernel)

/-- One topic character and 1699 quotes make a request of 3454 bytes. -/
theorem quotes_exceed_the_buffer :
    let topicName := ascii "t"
    let message := List.replicate 1699 34
    let library := JsonLibrary.jsoncpp fun _ ↦ .ok none
    topicName.length + message.length = 1700 ∧
      (∃ text, ((Client.publishTopicCommand topicName message).run .initial).1.serialize library =
        .ok text ∧ text.length = 3454) ∧
      ¬ PublishFits library .initial topicName message := by
  intro topicName message library
  have hwidth : width topicName + width message = 3399 := by decide +kernel
  refine ⟨by decide +kernel, ⟨_, if_pos (by decide +kernel), ?_⟩, fun hfits ↦ ?_⟩
  · have hlength := ClientOperation.length_publishTopic topicName message 0
    rw [hwidth] at hlength
    exact hlength
  · have hlength := hfits.request _ (if_pos (by decide +kernel))
    have hrequest := ClientOperation.length_publishTopic topicName message 0
    rw [hwidth] at hrequest
    exact absurd (hrequest.symm.trans_le hlength) (by decide)

end PublisherSubscriber
