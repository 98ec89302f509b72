import PublisherSubscriber.Broker.Replies
import PublisherSubscriber.Client.Requests
import PublisherSubscriber.Shared.Closing
import PublisherSubscriber.Shared.Printable
import PublisherSubscriber.Shared.Vendored

/-!
# Calls with the library of the programs

The server runs an operation with its texts reread.  If the request is longer
than the buffer of the server, what is left of it is no JSON.
-/

namespace PublisherSubscriber

open OurReader

/-- A text that is no JSON asks for nothing. -/
theorem Server.requestOf_of_rejected {library : JsonLibrary} {text : Text}
    (h : ∀ v, library.parse text ≠ .ok (some v)) (ipAddress : Text) :
    ∃ e, requestOf library ipAddress text = .error e := by
  obtain ⟨e, hrun⟩ := Command.run_deserialize_of_rejected h .initial
  obtain ⟨d, hyields, -⟩ := Command.yields_deserialize Dictionaries.sound_initial library text
  have hdecode : Command.decodeText library text = .error e :=
    (Prod.mk.inj (hyields.symm.trans hrun)).1
  exact ⟨e, by rw [requestOf, hdecode]; rfl⟩

namespace ClientOperation

/-- The operation with its texts as they are read back. -/
def reread : ClientOperation → ClientOperation
  | subscribeTopic topicName => .subscribeTopic (OurReader.reread topicName)
  | unsubscribe topicName => .unsubscribe (OurReader.reread topicName)
  | publishTopic topicName message =>
      .publishTopic (OurReader.reread topicName) (OurReader.reread message)
  | listTopics => .listTopics
  | getTopicStatus topicName => .getTopicStatus (OurReader.reread topicName)

/-- The text that is sent if none of the texts is empty. -/
def requestText (op : ClientOperation) (port : ℤ) : Text := Json.writeValue (op.sent port).toJson

variable (op : ClientOperation) (port : ℤ)

theorem sent_reread : (op.sent port).reread = op.reread.sent port := by
  have hport : OurReader.reread (to_string port) = to_string port :=
    reread_of_printable (printable_to_string port)
  cases op <;> simp [Command.reread, sent, reread, hport]

theorem texts_reread : op.reread.texts = op.texts.map OurReader.reread := by
  cases op <;> rfl

/-- Valid texts arrive as they are. -/
theorem reread_eq_self (h : ∀ t ∈ op.texts, ValidText t) : op.reread = op := by
  cases op <;> simp_all [reread, texts, ValidText.reread_eq]

variable {op port} {decodeDouble : Text → Option Double}

theorem serialize_sent (hfilled : ∀ t ∈ op.texts, t ≠ []) :
    (op.sent port).serialize (.vendored decodeDouble) = .ok (op.requestText port) :=
  if_pos (op.isValid_sent hfilled)

theorem requestOf_requestText (hfilled : ∀ t ∈ op.texts, t ≠ []) (hlower : 0 ≤ port)
    (hupper : port ≤ 65535) (ipAddress : Text) :
    Server.requestOf (.vendored decodeDouble) ipAddress (op.requestText port) =
      .ok (some (op.reread.request ipAddress port)) := by
  have hvalid : (op.sent port).isValid = true := op.isValid_sent hfilled
  have hdecode := Command.decodeText_writeString decodeDouble op.wellFormed_sent op.isNamed_sent
    op.available_sent hvalid
  rw [sent_reread] at hdecode
  have hrequest : Server.requestOf (.vendored decodeDouble) ipAddress (op.requestText port) =
      (Except.ok (op.reread.sent port)).bind (Server.dispatch ipAddress) :=
    congrArg (Except.bind · (Server.dispatch ipAddress)) hdecode
  rw [hrequest]
  exact op.reread.dispatch_sent ipAddress hlower hupper

theorem parse_cut {received : Text} (hreceived : received <+: op.requestText port)
    (hcut : received ≠ op.requestText port) (v : Json) :
    (JsonLibrary.vendored decodeDouble).parse received ≠ .ok (some v) :=
  (op.sent port).parse_cut (readsClosedObjects_parse decodeDouble) hreceived hcut v

/-- A request that does not fit a buffer is not accepted. -/
theorem parse_take {n : ℕ} (h : n < (op.requestText port).length) (v : Json) :
    (JsonLibrary.vendored decodeDouble).parse ((op.requestText port).take n) ≠ .ok (some v) := by
  refine parse_cut (List.take_prefix n _) (fun hsame ↦ ?_) v
  have hlength := congrArg List.length hsame
  rw [List.length_take] at hlength
  omega

variable (decodeDouble) in
/-- What comes of the request that the server finds in its buffer. -/
theorem requestOf_received (hfilled : ∀ t ∈ op.texts, t ≠ []) (hlower : 0 ≤ port)
    (hupper : port ≤ 65535) (ipAddress : Text) :
    ((op.requestText port).length ≤ bufferSize ∧
      Server.requestOf (.vendored decodeDouble) ipAddress
          ((op.requestText port).take bufferSize) =
        .ok (some (op.reread.request ipAddress port))) ∨
    (bufferSize < (op.requestText port).length ∧ ∃ e,
      Server.requestOf (.vendored decodeDouble) ipAddress
        ((op.requestText port).take bufferSize) = .error e) := by
  rcases Nat.lt_or_ge bufferSize (op.requestText port).length with hlong | hfits
  · exact Or.inr ⟨hlong, Server.requestOf_of_rejected (parse_take hlong) ipAddress⟩
  · refine Or.inl ⟨hfits, ?_⟩
    rw [List.take_of_length_le hfits]
    exact requestOf_requestText hfilled hlower hupper ipAddress

end ClientOperation

/-! ## Replies -/

namespace Server

/-- The replies to a command: the one of its handler, or a rejection. -/
def ReplyFor (commandIdentifier : CommandIdentifiers) (r : Response) : Prop :=
  r.IsReplyTo commandIdentifier ∨ r = rejection

/-- Every reply can be decoded. -/
theorem deserialize_reply (decodeDouble : Text → Option Double) (indeterminate : ℤ)
    {commandIdentifier : CommandIdentifiers} {r : Response}
    (h : ReplyFor commandIdentifier r) :
    ∃ s, Response.deserialize (.vendored decodeDouble) commandIdentifier
        (r.serialize (.vendored decodeDouble) indeterminate) =
          .ok (Response.ofTexts commandIdentifier s r.reread.shown) ∧
      r.statusCode = some s ∧ s.IsNamed := by
  have hreply : r.WellFormed ∧ ∃ s, r.statusCode = some s ∧ s.IsNamed := by
    rcases h with h | rfl
    · exact ⟨h.wellFormed, h.status⟩
    · exact ⟨⟨List.nodup_nil, rfl⟩, .internalError, rfl, trivial⟩
  obtain ⟨hr, s, hs, hnamed⟩ := hreply
  have hreread : r.reread.WellFormed := ⟨hr.nodup, (List.length_map _).trans hr.length⟩
  refine ⟨s, ?_, hs, hnamed⟩
  have hsame : r.reread.statusCode = some s := hs
  have hread : Response.deserialize (.vendored decodeDouble) commandIdentifier
      (r.serialize (.vendored decodeDouble) indeterminate) =
        .ok (Response.ofTexts commandIdentifier (.ofInt s.toInt) r.reread.shown) :=
    Response.deserialize_eq_ok
      (JsonLibrary.parse_vendored
        (Response.readable_members decodeDouble indeterminate ⟨s, hs, hnamed⟩))
      (by rw [Response.reread_members]; exact Json.namedMembers_ofMembers _)
      (Response.asInt_members hsame hnamed) (fun a _ ↦ Response.textAt_members hreread a)
  rwa [Statuscode.ofInt_toInt hnamed] at hread

theorem printable_reply (library : JsonLibrary) (hlibrary : library.writeString = Json.writeValue)
    (indeterminate : ℤ) {commandIdentifier : CommandIdentifiers} {r : Response}
    (h : ReplyFor commandIdentifier r) : Printable (r.serialize library indeterminate) := by
  have hstatus : ∃ s, r.statusCode = some s ∧ s.IsNamed := by
    rcases h with h | rfl
    · exact h.status
    · exact ⟨.internalError, rfl, trivial⟩
  rw [Response.serialize, hlibrary]
  exact Json.printable_writeValue _
    (Response.readable_members (fun _ ↦ none) indeterminate hstatus).1

end Server

end PublisherSubscriber
