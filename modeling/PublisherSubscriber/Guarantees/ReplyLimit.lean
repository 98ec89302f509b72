import PublisherSubscriber.Broker.Endpoints
import PublisherSubscriber.Broker.Replies
import PublisherSubscriber.Client.Requests
import PublisherSubscriber.Shared.Writer

/-!
# The limit for a reply

A reply lists all topics, or all subscribers of one topic, and the client has a
buffer of fixed size for it.
-/

namespace PublisherSubscriber

open PointerHeap

namespace Broker

theorem length_listTopics (b : Broker) (indeterminate : ℤ) :
    (Json.writeValue (.ofMembers (b.listTopics.members indeterminate))).length =
      width (Response.arrayString (b.topics.map TopicView.topicName)) + 28 := by
  have hmembers : .ofMembers (b.listTopics.members indeterminate) = Json.object [
      (ascii "statusCode", .int 0),
      (ascii "topics", .string (Response.arrayString (b.topics.map TopicView.topicName)))] := rfl
  have hkeys : width (ascii "statusCode") = 10 ∧ width (ascii "topics") = 6 := by decide +kernel
  have hnumber : (Json.writeValue (.int 0)).length = 1 := by decide +kernel
  simp only [hmembers, Json.length_writeValue_object, Json.length_writeMembers_cons,
    Json.length_writeMembers_singleton, Json.length_writeValue_string, hkeys, hnumber]
  omega

theorem length_topicStatus (v : TopicView) (indeterminate : ℤ) :
    (Json.writeValue (.ofMembers ((topicStatus v).members indeterminate))).length =
      width (to_string (Server.toUInt64 v.messageTimestamp)) +
        width (Response.arrayString (v.subscribers.map Endpoint.toText)) + 55 := by
  have hmembers : .ofMembers ((topicStatus v).members indeterminate) = Json.object [
      (ascii "messageTimestamp", .string (to_string (Server.toUInt64 v.messageTimestamp))),
      (ascii "statusCode", .int 0),
      (ascii "subscribers",
        .string (Response.arrayString (v.subscribers.map Endpoint.toText)))] := rfl
  have hkeys : width (ascii "messageTimestamp") = 16 ∧ width (ascii "statusCode") = 10 ∧
      width (ascii "subscribers") = 11 := by
    decide +kernel
  have hnumber : (Json.writeValue (.int 0)).length = 1 := by decide +kernel
  simp only [hmembers, Json.length_writeValue_object, Json.length_writeMembers_cons,
    Json.length_writeMembers_singleton, Json.length_writeValue_string, hkeys, hnumber]
  omega

end Broker

/-- The digits, the signs and the separators of a list of endpoints need no escape. -/
theorem requiresEscaping_of_endpoint {c : UInt8} (hc : isDigit c ∨ c = 45 ∨ c = 46 ∨ c = 58) :
    requiresEscaping c = false := by
  rcases hc with hdigit | rfl | rfl | rfl
  · simp only [isDigit, Bool.and_eq_true, decide_eq_true_eq, UInt8.le_iff_toNat_le,
      UInt8.reduceToNat] at hdigit
    simp only [requiresEscaping, Bool.or_eq_false_iff, decide_eq_false_iff_not,
      UInt8.lt_iff_toNat_lt, ← UInt8.toNat_inj, UInt8.reduceToNat]
    omega
  · rfl
  · rfl
  · rfl

theorem width_to_string (n : ℤ) : width (to_string n) = (to_string n).length := by
  apply width_of_plain
  intro c hc
  apply requiresEscaping_of_endpoint
  rcases mem_to_string hc with hdigit | hsign
  · exact Or.inl hdigit
  · exact Or.inr (Or.inl hsign)

theorem TopicView.width_subscribers {v : TopicView} (hne : v.subscribers ≠ [])
    (haddress : ∀ e ∈ v.subscribers, e.HasDottedAddress) :
    width (Response.arrayString (v.subscribers.map Endpoint.toText)) =
      ((v.subscribers.map Endpoint.toText).map fun text ↦ text.length + 1).sum + 1 := by
  have hplain : ∀ c ∈ Response.arrayString (v.subscribers.map Endpoint.toText),
      requiresEscaping c = false := by
    intro c hc
    rw [arrayString_eq, List.mem_cons, List.mem_append, List.mem_singleton] at hc
    rcases hc with rfl | hc | rfl
    · rfl
    · rcases Separated.mem_intercalate hc with hc | ⟨text, htext, hc⟩
      · rw [List.mem_singleton.mp hc]
        rfl
      · obtain ⟨e, he, rfl⟩ := List.mem_map.mp htext
        exact requiresEscaping_of_endpoint ((haddress e he).mem_toText hc)
    · rfl
  have hlength : (List.intercalate [comma] (v.subscribers.map Endpoint.toText)).length + 1 =
      ((v.subscribers.map Endpoint.toText).map fun text ↦ text.length + 1).sum :=
    Separated.length_intercalate comma (by simpa using hne)
  rw [width_of_plain hplain, arrayString_eq, List.length_cons, List.length_append,
    List.length_singleton]
  omega

theorem exists_answer_iff {x : Except Fault (Response × World)} {r : Response} {w : World}
    (hx : x = .ok (r, w)) (P : Response → Prop) : (∃ s, x = .ok (s, w) ∧ P s) ↔ P r := by
  constructor
  · rintro ⟨s, hs, hP⟩
    obtain ⟨rfl, -⟩ := Prod.mk.inj (Except.ok.inj (hx.symm.trans hs))
    exact hP
  · exact fun hP ↦ ⟨r, hx, hP⟩

/-- The replies that list something fit the buffer of a client, with their
terminating zero. -/
structure ListRepliesFit (env : Environment) (library : JsonLibrary) (indeterminate : ℤ)
    (w : World) : Prop where
  topics : ∃ r, (Server.handle env .listTopics).run w = .ok (r, w) ∧
    (r.serialize library indeterminate).length < bufferSize
  status : ∀ topic ∈ w.topics, ∃ r,
    (Server.handle env (.getTopicStatus (w.topicHeap.deref topic).topicName)).run w =
      .ok (r, w) ∧ (r.serialize library indeterminate).length < bufferSize

/-- In every reachable state they fit exactly when the list of the names has a
width of at most 2019, and for every topic the digits of the timestamp and the
texts of the subscribers, one more for each, sum up to at most 1991. -/
theorem list_replies_fit_iff (env : Environment)
    (parse : Text → Except CppException (Option Json)) (indeterminate topicTimeout : ℤ)
    {p : Process} (hp : (Process.system env (.jsoncpp parse) indeterminate
      topicTimeout).ReachableWhile (fun _ o ↦ o.FromInetNtoa) p) :
    ListRepliesFit env (.jsoncpp parse) indeterminate p.world ↔
      width (Response.arrayString p.world.topicNames) ≤ 2019 ∧
      ∀ topic ∈ p.world.topics,
        (to_string (Server.toUInt64 (p.world.topicHeap.deref topic).messageTimestamp)).length +
          ((p.world.subscriberStrings topic).map fun text ↦ text.length + 1).sum ≤ 1991 := by
  have hw := (Process.sound_of_reachable hp).world
  have hbuffer : bufferSize = 2048 := rfl
  have htopics : (∃ r, (Server.handle env .listTopics).run p.world = .ok (r, p.world) ∧
      (r.serialize (.jsoncpp parse) indeterminate).length < bufferSize) ↔
        width (Response.arrayString p.world.topicNames) ≤ 2019 := by
    rw [exists_answer_iff (run_listTopics env hw), Response.serialize, JsonLibrary.jsoncpp,
      Broker.length_listTopics, World.map_topicName_view]
    omega
  have hstatus : ∀ topic ∈ p.world.topics, ((∃ r,
      (Server.handle env (.getTopicStatus (p.world.topicHeap.deref topic).topicName)).run p.world =
        .ok (r, p.world) ∧ (r.serialize (.jsoncpp parse) indeterminate).length < bufferSize) ↔
      (to_string (Server.toUInt64 (p.world.topicHeap.deref topic).messageTimestamp)).length +
        ((p.world.subscriberStrings topic).map fun text ↦ text.length + 1).sum ≤ 1991) := by
    intro topic htopic
    have hv : p.world.viewTopic topic ∈ p.world.view.topics := List.mem_map_of_mem htopic
    have hvetted := Process.vetted_of_reachableWhile (T := fun _ ↦ True) (fun _ ↦ trivial)
      (fun _ _ ho ↦ ho.vets) hp _ hv
    have hwidth := TopicView.width_subscribers (hw.inv.subscribers_ne_nil _ hv)
      hvetted.subscribers
    rw [World.map_toText_subscribers] at hwidth
    rw [exists_answer_iff (run_getTopicStatus env hw htopic), Response.serialize,
      JsonLibrary.jsoncpp, Broker.length_topicStatus, World.map_toText_subscribers, hwidth,
      width_to_string]
    have htimestamp : (p.world.viewTopic topic).messageTimestamp =
        (p.world.topicHeap.deref topic).messageTimestamp := rfl
    rw [htimestamp]
    omega
  constructor
  · intro hfit
    exact ⟨htopics.mp hfit.topics, fun topic htopic ↦
      (hstatus topic htopic).mp (hfit.status topic htopic)⟩
  · rintro ⟨hnames, hsubscribers⟩
    exact ⟨htopics.mpr hnames, fun topic htopic ↦
      (hstatus topic htopic).mpr (hsubscribers topic htopic)⟩

/-- Two topics, one of them with two subscribers. -/
theorem list_replies_fit_two_topics :
    let connection name port := Occurrence.connection (inet_ntoa 10 0 0 1)
      (some ((ClientOperation.subscribeTopic name).sent port).toJson.writeValue) fun text ↦
        text.length
    let library := JsonLibrary.jsoncppOf [
      ((ClientOperation.subscribeTopic (ascii "news")).sent 7001).toJson,
      ((ClientOperation.subscribeTopic (ascii "news")).sent 7002).toJson,
      ((ClientOperation.subscribeTopic (ascii "weather")).sent 7001).toJson]
    let p := (Process.system .steady library 7 10).final [connection (ascii "news") 7001,
      connection (ascii "news") 7002, connection (ascii "weather") 7001]
    p.world.topicNames = [ascii "news", ascii "weather"] ∧
      ListRepliesFit .steady library 7 p.world := by
  intro connection library p
  have hnames : p.world.topicNames = [ascii "news", ascii "weather"] := by decide +kernel
  refine ⟨hnames, (list_replies_fit_iff .steady _ 7 10 ?_).mpr ?_⟩
  · apply Transition.System.reachableWhile_final
    have haddress : ∀ name port, (connection name port).FromInetNtoa :=
      fun _ _ ↦ ⟨10, 0, 0, 1, rfl⟩
    exact ⟨haddress _ _, fun _ _ _ ↦ ⟨haddress _ _, fun _ _ _ ↦
      ⟨haddress _ _, fun _ _ _ ↦ trivial⟩⟩⟩
  · decide +kernel

/-- Two names of 1010 letters make a reply of 2051 bytes. -/
theorem two_long_names_exceed_the_buffer :
    let names := [List.replicate 1010 97, List.replicate 1010 98]
    let request name := ((ClientOperation.subscribeTopic name).sent 7001).toJson
    let library := JsonLibrary.jsoncppOf (names.map request)
    let system := Process.system .steady library 7 10
    let p := system.final (names.map fun name ↦ .connection (inet_ntoa 10 0 0 1)
      (some (request name).writeValue) fun text ↦ text.length)
    system.Reachable p ∧ (∀ name ∈ names, (request name).writeValue.length = 1072) ∧
      (∃ r, (Server.handle .steady .listTopics).run p.world = .ok (r, p.world) ∧
        (r.serialize library 7).length = 2051) ∧
      ¬ ListRepliesFit .steady library 7 p.world := by
  intro names request library system p
  have hp : system.Reachable p := Transition.System.reachable_final system _
  have hw := (Process.sound_of_reachable hp).world
  have hnames : p.world.view.topics.map TopicView.topicName = names := by decide +kernel
  have hlength : (p.world.view.listTopics.serialize library 7).length = 2051 := by
    have hwidth : width (Response.arrayString names) = 2023 := by decide +kernel
    rw [← hnames] at hwidth
    exact (Broker.length_listTopics _ 7).trans (congrArg (· + 28) hwidth)
  refine ⟨hp, by decide +kernel, ⟨_, run_listTopics .steady hw, hlength⟩, fun hfit ↦ ?_⟩
  have hfits := (exists_answer_iff (run_listTopics .steady hw) _).mp hfit.topics
  rw [hlength] at hfits
  exact absurd hfits (by decide)

end PublisherSubscriber
