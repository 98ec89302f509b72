import PublisherSubscriber.Broker.Endpoints
import PublisherSubscriber.Client.Calls
import PublisherSubscriber.Client.Deployment
import PublisherSubscriber.Guarantees.Deployment

/-!
# What arrives

Requests, replies and datagrams with the library of the programs.  A text that is
valid arrives as it is, and of any other one the valid text it is reread as.
-/

namespace PublisherSubscriber

open OurReader

variable {decodeDouble : Text → Option Double}

theorem ClientOperation.reread_eq_self_iff (op : ClientOperation) :
    op.reread = op ↔ ∀ t ∈ op.texts, ValidText t := by
  constructor
  · intro hsame t ht
    have htexts := op.texts_reread
    rw [hsame] at htexts
    have hfixed := List.map_eq_map_iff.mp ((List.map_id _).trans htexts)
    exact (OurReader.reread_eq_self_iff t).mp (hfixed t ht).symm
  · exact op.reread_eq_self

/-- A request that arrives whole asks for the operation with its texts reread; what
arrives of a request that is cut off asks for nothing. -/
theorem request_arrives_whole {op : ClientOperation} (hfilled : ∀ t ∈ op.texts, t ≠ [])
    {port : ℤ} (hport : 0 ≤ port ∧ port ≤ 65535) {received : Text}
    (hreceived : received <+: op.requestText port) (ipAddress : Text) (q : Request) :
    (Server.requestOf (.vendored decodeDouble) ipAddress received = .ok (some q) ↔
      received = op.requestText port ∧ q = op.reread.request ipAddress port) ∧
    (op.reread = op ↔ ∀ t ∈ op.texts, ValidText t) := by
  refine ⟨?_, op.reread_eq_self_iff⟩
  have hwhole : Server.requestOf (.vendored decodeDouble) ipAddress (op.requestText port) =
      .ok (some (op.reread.request ipAddress port)) :=
    ClientOperation.requestOf_requestText hfilled hport.1 hport.2 ipAddress
  constructor
  · intro hq
    by_cases hsame : received = op.requestText port
    · rw [hsame] at hq
      exact ⟨hsame, (Option.some.inj (Except.ok.inj (hwhole.symm.trans hq))).symm⟩
    · have hrejected : ∀ v, (JsonLibrary.vendored decodeDouble).parse received ≠ .ok (some v) :=
        ClientOperation.parse_cut hreceived hsame
      obtain ⟨e, he⟩ := Server.requestOf_of_rejected hrejected ipAddress
      cases he.symm.trans hq
  · rintro ⟨rfl, rfl⟩
    exact hwhole

/-- A topic name with an umlaut arrives as it is, one with a stray byte does not. -/
theorem request_arrives_whole_subscribe :
    let umlaut := ClientOperation.subscribeTopic [195, 188]
    let stray := ClientOperation.subscribeTopic [255]
    (∀ q, Server.requestOf (.vendored fun _ ↦ none) (ascii "10.0.0.1")
        (umlaut.requestText 7001) = .ok (some q) ↔
          q = umlaut.reread.request (ascii "10.0.0.1") 7001) ∧
      umlaut.reread = umlaut ∧ stray.reread ≠ stray := by
  intro umlaut stray
  have hfilled : ∀ t ∈ umlaut.texts, t ≠ [] := by decide
  have hport : (0 : ℤ) ≤ 7001 ∧ (7001 : ℤ) ≤ 65535 := by decide
  refine ⟨fun q ↦ ?_, by decide +kernel, by decide +kernel⟩
  rw [(request_arrives_whole hfilled hport List.prefix_rfl (ascii "10.0.0.1") q).1]
  exact and_iff_right rfl

theorem Response.shown_ofTexts {commandIdentifier : CommandIdentifiers} {s : Statuscode}
    {texts : CommunicationParameters → Text} {a : CommunicationParameters}
    (ha : a ∈ responseDictionary commandIdentifier) :
    (ofTexts commandIdentifier s texts).shown a = texts a := by
  rw [shown, if_pos (show a ∈ (ofTexts commandIdentifier s texts).availableResponseArguments
    from ha)]
  show ((responseDictionary commandIdentifier).map texts).getD
    ((responseDictionary commandIdentifier).idxOf a) [] = texts a
  rw [List.getD_eq_getElem?_getD, List.getElem?_map, List.getElem?_idxOf ha]
  rfl

/-- A reply that fits the buffer of the client is decoded with its texts reread, and
one that does not fit has no end there. -/
theorem reply_arrives_reread (decodeDouble : Text → Option Double) (indeterminate : ℤ)
    {commandIdentifier : CommandIdentifiers} {r : Response}
    (h : Server.ReplyFor commandIdentifier r) :
    let library := JsonLibrary.vendored decodeDouble
    let responseJson := r.serialize library indeterminate
    Client.bufferText responseJson =
        (if responseJson.length < bufferSize then some responseJson else none) ∧
      ∃ s decoded, Response.deserialize library commandIdentifier responseJson = .ok decoded ∧
        decoded.statusCode = some s ∧ r.statusCode = some s ∧
        ∀ a ∈ responseDictionary commandIdentifier,
          decoded.shown a = reread (r.shown a) ∧
            (ValidText (r.shown a) → decoded.shown a = r.shown a) := by
  intro library responseJson
  have hprintable := Server.printable_reply library rfl indeterminate h
  obtain ⟨s, hread, hs, -⟩ := Server.deserialize_reply decodeDouble indeterminate h
  refine ⟨Client.bufferText_eq hprintable.zero_notMem, s, _, hread, rfl, hs, fun a ha ↦ ?_⟩
  have hshown : (Response.ofTexts commandIdentifier s r.reread.shown).shown a =
      reread (r.shown a) := by
    rw [Response.shown_ofTexts ha, Response.shown_reread]
  exact ⟨hshown, fun hvalid ↦ hshown.trans hvalid.reread_eq⟩

/-- The list of a topic with an umlaut and of one with a stray byte. -/
theorem reply_arrives_reread_topics :
    let topic (name : Text) : TopicView := ⟨none, name, [], 0, 0, []⟩
    let b : Broker := { topicTimeout := 30, topics := [topic [195, 188], topic [255]] }
    ∃ decoded, Response.deserialize (.vendored fun _ ↦ none) .listTopics
        (b.listTopics.serialize (.vendored fun _ ↦ none) 7) = .ok decoded ∧
      decoded.shown .topics ≠ b.listTopics.shown .topics := by
  intro topic b
  obtain ⟨-, s, decoded, hread, -, -, hshown⟩ := reply_arrives_reread (fun _ ↦ none) 7
    (Or.inl (Broker.isReplyTo_listTopics b))
  refine ⟨decoded, hread, ?_⟩
  rw [(hshown .topics (by decide)).1]
  decide +kernel

/-- A datagram is read back with its texts reread if its time is not before 1970, and
is no message otherwise. -/
theorem datagram_arrives_reread (decodeDouble : Text → Option Double) {m : Message}
    (hrange : longLongMin ≤ m.messageTimestamp ∧ m.messageTimestamp ≤ longLongMax) :
    let library := JsonLibrary.vendored decodeDouble
    Client.bufferText (m.serialize library) =
        (if (m.serialize library).length < bufferSize then some (m.serialize library) else none) ∧
      (0 ≤ m.messageTimestamp →
        Message.deserialize library (m.serialize library) = .ok m.reread) ∧
      (m.messageTimestamp < 0 →
        ∃ e, Message.deserialize library (m.serialize library) = .error e) ∧
      (m.reread = m ↔ ValidText m.topic ∧ ValidText m.message) := by
  intro library
  have hprintable : Printable (m.serialize library) :=
    Json.printable_writeValue _ (Message.readable_toJson decodeDouble m).1
  refine ⟨Client.bufferText_eq hprintable.zero_notMem,
    fun hpos ↦ Message.deserialize_vendored decodeDouble ⟨hpos, hrange.2⟩, fun hneg ↦ ?_, ?_⟩
  · rw [Message.deserialize_written, stoll_to_string_uint64_of_neg hrange.1 hneg]
    exact ⟨_, rfl⟩
  · obtain ⟨topic, messageTimestamp, message⟩ := m
    rw [Message.reread, Message.mk.injEq, OurReader.reread_eq_self_iff,
      OurReader.reread_eq_self_iff]
    exact and_congr_right' (and_iff_right rfl)

/-- The last timestamp that is read, and one before 1970. -/
theorem datagram_arrives_reread_bounds :
    let library := JsonLibrary.vendored fun _ ↦ none
    let m (messageTimestamp : ℤ) : Message := ⟨ascii "news", messageTimestamp, [195, 188]⟩
    Message.deserialize library ((m longLongMax).serialize library) = .ok (m longLongMax).reread ∧
      ∃ e, Message.deserialize library ((m (-1)).serialize library) = .error e := by
  intro library m
  have hlast := datagram_arrives_reread (fun _ ↦ none) (m := m longLongMax) (by decide)
  have hbefore := datagram_arrives_reread (fun _ ↦ none) (m := m (-1)) (by decide)
  exact ⟨hlast.2.1 (by decide), hbefore.2.2.1 (by decide)⟩

end PublisherSubscriber
