import PublisherSubscriber.Broker.Endpoints
import PublisherSubscriber.Broker.Replies
import PublisherSubscriber.Client.Display
import PublisherSubscriber.Client.Requests
import PublisherSubscriber.Shared.Numerals

/-!
# What a client is told of a topic

The timestamp goes through two conversions to text and back, the subscribers
through the list notation.  Both come out as the server holds them.
-/

namespace PublisherSubscriber

open PointerHeap

/-- The clock reads a `time_t` that is not negative. -/
def Environment.NonNegative (env : Environment) : Prop :=
  ∀ n, 0 ≤ env.time n ∧ env.time n ≤ longLongMax

/-- The client reads the timestamp and the subscribers out of the response, and
prints the subscribers with commas and blanks between them. -/
structure TopicStatusShown (formatTimestamp : ℤ → Option Text) (indeterminate : ℤ)
    (senderIp senderPort : Text) (messageTimestamp : ℤ) (subscribers : List Text)
    (response : Response) : Prop where
  timestamp : (response.getResponseArgument .messageTimestamp).bind stoll = .ok messageTimestamp
  vector : (response.getResponseArgument .subscribers).bind arrayStringToVectorString =
    .ok subscribers
  line : ∀ formattedTimestamp, formatTimestamp messageTimestamp = some formattedTimestamp →
    Client.logResponse formatTimestamp indeterminate response senderIp senderPort =
      .ok (.info, ascii "Received response from: " ++ senderIp ++ ascii ":" ++ senderPort ++
        ascii "\n" ++ ascii "Status: " ++ ascii "Success" ++
        (ascii "\nMessage-Timestamp: " ++ formattedTimestamp) ++
        (ascii "\nSubscribers: " ++ List.intercalate (ascii ", ") subscribers))

namespace TopicView

variable {v : TopicView}

/-- Endpoints that differ are shown as texts that differ. -/
theorem nodup_map_toText (hnodup : v.subscribers.Nodup)
    (haddress : ∀ e ∈ v.subscribers, e.HasDottedAddress) :
    (v.subscribers.map Endpoint.toText).Nodup := by
  apply hnodup.map_on
  intro e he f _ hef
  exact (haddress e he).toText_inj hef

theorem read_subscribers (haddress : ∀ e ∈ v.subscribers, e.HasDottedAddress) :
    arrayStringToVectorString (Response.arrayString (v.subscribers.map Endpoint.toText)) =
      .ok (v.subscribers.map Endpoint.toText) := by
  apply (arrayStringToVectorString_eq_ok_iff _).mpr
  constructor
  · intro text htext
    obtain ⟨e, he, rfl⟩ := List.mem_map.mp htext
    exact (haddress e he).plain
  · intro hlast
    obtain ⟨e, -, htext⟩ := List.mem_map.mp (List.mem_of_getLast? hlast)
    exact e.toText_ne_nil htext

theorem topicStatusShown (hnodup : v.subscribers.Nodup)
    (htimestamp : 0 ≤ v.messageTimestamp ∧ v.messageTimestamp ≤ longLongMax)
    (haddress : ∀ e ∈ v.subscribers, e.HasDottedAddress) (formatTimestamp : ℤ → Option Text)
    (indeterminate : ℤ) (senderIp senderPort : Text) :
    TopicStatusShown formatTimestamp indeterminate senderIp senderPort v.messageTimestamp
      (v.subscribers.map Endpoint.toText) (Broker.topicStatus v) := by
  have hread := read_subscribers haddress
  have hstoll : stoll (to_string (Server.toUInt64 v.messageTimestamp)) = .ok v.messageTimestamp :=
    stoll_to_string_uint64 htimestamp
  refine ⟨?_, ?_, fun formattedTimestamp hformat ↦ ?_⟩
  · rw [Broker.getResponseArgument_messageTimestamp]
    exact hstoll
  · rw [Broker.getResponseArgument_topicStatus]
    exact hread
  · have hs : (Broker.topicStatus v).statusCode = some .success := rfl
    have harguments : (Broker.topicStatus v).availableResponseArguments =
        [.messageTimestamp, .subscribers] := (Broker.isReplyTo_topicStatus v).available
    have htime := Client.argumentText_of_timestamp hstoll hformat
    have hlist := Client.argumentText_of_list formatTimestamp
      (nodup_map_toText hnodup haddress) hread
    rw [Client.logResponse_of_success hs, Client.header_of_success hs, harguments,
      Client.logArguments_cons (Broker.getResponseArgument_messageTimestamp v) htime,
      Client.logArguments_cons (Broker.getResponseArgument_topicStatus v) hlist.2]
    rfl

end TopicView

/-- In every reachable state the status of every topic is shown as it is. -/
theorem topic_status_shown (env : Environment) (library : JsonLibrary)
    (indeterminate topicTimeout : ℤ) (hclock : env.NonNegative) {p : Process}
    (hp : (Process.system env library indeterminate topicTimeout).ReachableWhile
      (fun _ o ↦ o.FromInetNtoa) p) {topic : Pointer} (htopic : topic ∈ p.world.topics) :
    ∃ r, (Server.handle env (.getTopicStatus (p.world.topicHeap.deref topic).topicName)).run
        p.world = .ok (r, p.world) ∧
      (library.ReadsBack (.ofMembers (r.members indeterminate)) →
        ∃ s, Response.deserialize library .getTopicStatus (r.serialize library indeterminate) =
            .ok s ∧
          ∀ formatTimestamp senderIp senderPort,
            TopicStatusShown formatTimestamp indeterminate senderIp senderPort
              (p.world.topicHeap.deref topic).messageTimestamp (p.world.subscriberStrings topic)
              s) := by
  have hw := (Process.sound_of_reachable hp).world
  have hv : p.world.viewTopic topic ∈ p.world.view.topics := List.mem_map_of_mem htopic
  have hrun := run_getTopicStatus env hw htopic
  have hvetted := Process.vetted_of_reachableWhile (T := fun t ↦ 0 ≤ t ∧ t ≤ longLongMax) hclock
    (fun _ _ ho ↦ ho.vets) hp _ hv
  refine ⟨_, hrun, fun hback ↦ ⟨_, reply_read_back hw hrun hback, fun format ip port ↦ ?_⟩⟩
  have hshown := TopicView.topicStatusShown (hw.inv.subscribers_nodup _ hv)
    hvetted.messageTimestamp hvetted.subscribers format indeterminate ip port
  rwa [World.map_toText_subscribers] at hshown

/-- Two clients on one host, and a port that no socket has. -/
theorem topic_status_shown_two_subscribers :
    let request port := ((ClientOperation.subscribeTopic (ascii "news")).sent port).toJson
    let subscribers := [ascii "10.0.0.1:7001", ascii "10.0.0.1:-3"]
    let r : Response := ⟨some .success, [.messageTimestamp, .subscribers],
      [ascii "1700000000", Response.arrayString subscribers]⟩
    let library := JsonLibrary.ofValues [.ofMembers (r.members 7), request 7001, request (-3)]
    Response.deserialize library .getTopicStatus (r.serialize library 7) = .ok r ∧
      TopicStatusShown (fun _ ↦ some (ascii "14.11.2023 22:13::20")) 7 (ascii "10.0.0.9")
        (ascii "5000") 1700000000 subscribers r := by
  intro request subscribers r library
  let env : Environment := ⟨fun _ ↦ 1700000000, fun _ ↦ true⟩
  let system := Process.system env library 7 10
  let connection port := Occurrence.connection (inet_ntoa 10 0 0 1) (some (request port).compact)
    fun text ↦ text.length
  let p := system.final [connection 7001, connection (-3)]
  have hclock : env.NonNegative := by
    intro n
    show 0 ≤ 1700000000 ∧ 1700000000 ≤ longLongMax
    decide
  have hp : system.ReachableWhile (fun _ o ↦ o.FromInetNtoa) p := by
    apply Transition.System.reachableWhile_final
    refine ⟨⟨10, 0, 0, 1, rfl⟩, fun _ _ _ ↦ ⟨⟨10, 0, 0, 1, rfl⟩, fun _ _ _ ↦ trivial⟩⟩
  have htopic : some 0 ∈ p.world.topics := by decide +kernel
  have hstatus : (Server.handle env (.getTopicStatus
      (p.world.topicHeap.deref (some 0)).topicName)).run p.world = .ok (r, p.world) := by
    decide +kernel
  have hread : Response.deserialize library .getTopicStatus (r.serialize library 7) = .ok r := by
    decide +kernel
  have htimestamp : (p.world.topicHeap.deref (some 0)).messageTimestamp = 1700000000 := by
    decide +kernel
  have hsubscribers : p.world.subscriberStrings (some 0) = subscribers := by decide +kernel
  obtain ⟨r', hrun, hshown⟩ := topic_status_shown env library 7 10 hclock hp htopic
  obtain rfl : r = r' := (Prod.mk.inj (Except.ok.inj (hstatus.symm.trans hrun))).1
  obtain ⟨s, hs, hfinal⟩ := hshown (JsonLibrary.readsBack_ofValues_head _ _)
  obtain rfl : r = s := Except.ok.inj (hread.symm.trans hs)
  rw [← hsubscribers, ← htimestamp]
  exact ⟨hread, hfinal _ _ _⟩

end PublisherSubscriber
