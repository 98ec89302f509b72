import PublisherSubscriber.Client.Deployment
import PublisherSubscriber.Guarantees.MessageThread
import PublisherSubscriber.Guarantees.Truncation
import PublisherSubscriber.Shared.Closing
import PublisherSubscriber.Shared.Printable
import PublisherSubscriber.Shared.Vendored

/-!
# The vendored reader

`decodeDouble` is what the stream extraction makes of a number that is no
integer; nothing is assumed of it.
-/

namespace PublisherSubscriber

open OurReader

variable {decodeDouble : Text → Option Double}

/-! ## What is read -/

/-- The literal of a string stands for the same string exactly if that is valid UTF-8. -/
theorem string_literal_reads_back (s : Text) :
    decodeString (valueToQuotedStringN s) = some (reread s) ∧ ValidText (reread s) ∧
      (decodeString (valueToQuotedStringN s) = some s ↔ ValidText s) ∧
      (reread s = [] ↔ s = []) ∧ width (reread s) = width s := by
  obtain ⟨content, hliteral, hcontent⟩ := valueToQuotedStringN_stringText s
  have hdecode : decodeString (valueToQuotedStringN s) = some (reread s) := by
    rw [hliteral]
    exact hcontent.decodeString
  refine ⟨hdecode, exists_reread_eq_utf8 s, ?_, reread_eq_nil_iff s, width_reread s⟩
  rw [hdecode, Option.some_inj]
  exact reread_eq_self_iff s

/-! ## What is not read -/

/-- An object is accepted when all of its text has arrived, and not before. -/
theorem object_is_read_whole {members : List (Text × Json)}
    (hv : (Json.object members).Writable decodeDouble)
    (hdepth : (Json.object members).depth < stackLimit) {received : Text}
    (hreceived : received <+: (Json.object members).writeValue) :
    (∃ w, parse decodeDouble received = .ok (some w)) ↔
      received = (Json.object members).writeValue := by
  constructor
  · rintro ⟨w, hw⟩
    by_contra hcut
    have hclosed : ∀ member ∈ members, member.2.Closed := fun member hmember ↦ by
      rw [Json.Writable, Json.writableMembers_iff] at hv
      exact Json.closed_of_writable (hv member hmember).2
    exact Json.parse_cut_object (readsClosedObjects_parse decodeDouble) hclosed hreceived hcut w hw
  · rintro rfl
    exact ⟨_, Json.parse_writeValue hv hdepth⟩

/-- A brace in a string does not close the object. -/
theorem object_is_read_whole_brace :
    let v := Json.object [(ascii "message", .string (ascii "\x7d"))]
    ∀ n, (∃ w, parse (fun _ ↦ none) (v.writeValue.take n) = .ok (some w)) ↔
      v.writeValue.take n = v.writeValue := by
  intro v n
  have hv : v.Writable fun _ ↦ none := by
    simp only [v, Json.Writable, Json.WritableMembers]
    decide +kernel
  exact object_is_read_whole hv (by decide +kernel) (List.take_prefix n _)

/-! ## Texts that are nested too deeply -/

/-- More than 1000 brackets are answered by the server with an internal error, and
nothing changes there; a client that receives them is ended. -/
theorem deep_nesting {ι : Type} {S : Setting ι} (hlibrary : S.library = .vendored decodeDouble)
    {n : ℕ} (hn : stackLimit < n) {rest : Text} (hlength : n + rest.length < bufferSize)
    (p : Process) (ipAddress : Text) (bytesSent : Text → ℤ) (client : ClientProcess) :
    (∃ os, (Process.system S.env S.library S.indeterminate S.topicTimeout).step p
        (.connection ipAddress (some (List.replicate n 91 ++ rest)) bytesSent) =
      .ok ((p.world.os.acquire S.env).1.map fun _ ↦
        (Server.rejection, Server.rejection.serialize S.library S.indeterminate),
          p.withOs os)) ∧
    client.receive S (List.replicate n 91 ++ rest) = { client with
      ending := some (.failure (.exception
        (.jsonRuntimeError "Exceeded stackLimit in readValue()."))) } := by
  have hparse : ∀ s, S.library.parse (List.replicate n 91 ++ s) =
      .error (.jsonRuntimeError "Exceeded stackLimit in readValue().") := fun s ↦ by
    rw [hlibrary]
    exact parse_brackets hn s
  constructor
  · refine Server.step_of_rejected (fun v hv ↦ ?_) _ _ _ _ _
    cases (hparse rest).symm.trans hv
  · have hdeserialize : ∀ s, Message.deserialize S.library (List.replicate n 91 ++ s) =
        .error (.jsonRuntimeError "Exceeded stackLimit in readValue().") := fun s ↦ by
      rw [Message.deserialize, hparse]
      rfl
    -- a zero in what follows can only shorten it
    have hbrackets : ∀ c ∈ List.replicate n (91 : UInt8), decide (c ≠ 0) = true := fun c hc ↦ by
      rw [List.eq_of_mem_replicate hc]
      decide
    have hbuffer : Client.bufferText (List.replicate n 91 ++ rest) =
        some (List.replicate n 91 ++ rest.takeWhile (· ≠ 0)) := by
      have hshort : (List.replicate n 91 ++ rest).length < bufferSize := by simpa using hlength
      simp only [Client.bufferText, List.take_of_length_le hshort.le]
      rw [if_pos (Or.inl hshort), List.takeWhile_append_of_pos hbrackets]
    rw [ClientProcess.receive, hbuffer]
    simp only [Client.receiveMessage_of_escapes (hdeserialize _) (fun what hwhat ↦ by cases hwhat)]

/-- 1001 bytes end the message thread of a client that just started. -/
theorem deep_nesting_brackets :
    (({} : ClientProcess).receive .twoClients (List.replicate 1001 91 ++ [])).ending =
      some (.failure (.exception (.jsonRuntimeError "Exceeded stackLimit in readValue()."))) := by
  have hread : Setting.twoClients.library = .vendored fun _ ↦ none := rfl
  have hlength : 1001 + ([] : Text).length < bufferSize := by decide
  have hstep := (deep_nesting hread (show stackLimit < 1001 by decide) hlength
    (Process.initial 30) (ascii "10.0.0.1") (fun text ↦ text.length) {}).2
  rw [hstep]

end PublisherSubscriber
