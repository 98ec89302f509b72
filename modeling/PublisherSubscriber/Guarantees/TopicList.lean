import PublisherSubscriber.Broker.Contents
import PublisherSubscriber.Broker.Replies
import PublisherSubscriber.Client.Display
import PublisherSubscriber.Client.Requests

/-!
# What a client is told of the topics

The list notation carries a name unchanged unless it holds a comma or begins or
ends with a space; the names of a server are distinct and not empty.
-/

namespace PublisherSubscriber

/-- The client takes the names out of the response, and prints them one after
the other with commas and blanks between them. -/
structure TopicsShown (formatTimestamp : ℤ → Option Text) (indeterminate : ℤ)
    (senderIp senderPort : Text) (names : List Text) (response : Response) : Prop where
  vector : (response.getResponseArgument .topics).bind arrayStringToVectorString = .ok names
  line : Client.logResponse formatTimestamp indeterminate response senderIp senderPort =
    .ok (.info, ascii "Received response from: " ++ senderIp ++ ascii ":" ++ senderPort ++
      ascii "\n" ++ ascii "Status: " ++ ascii "Success" ++
      (ascii "\nTopics: " ++ List.intercalate (ascii ", ") names))

theorem Broker.topicsShown_iff {b : Broker} (hnodup : (b.topics.map TopicView.topicName).Nodup)
    (hfilled : ∀ v ∈ b.topics, v.topicName ≠ []) (formatTimestamp : ℤ → Option Text)
    (indeterminate : ℤ) (senderIp senderPort : Text) :
    TopicsShown formatTimestamp indeterminate senderIp senderPort
        (b.topics.map TopicView.topicName) b.listTopics ↔
      ∀ name ∈ b.topics.map TopicView.topicName, PlainElement name := by
  have hvector : (b.listTopics.getResponseArgument .topics).bind arrayStringToVectorString =
      .ok (b.topics.map TopicView.topicName) ↔
        ∀ name ∈ b.topics.map TopicView.topicName, PlainElement name := by
    have hlast : (b.topics.map TopicView.topicName).getLast? ≠ some [] := by
      intro hlast
      obtain ⟨v, hv, hname⟩ := List.mem_map.mp (List.mem_of_getLast? hlast)
      exact hfilled v hv hname
    rw [getResponseArgument_listTopics]
    exact (arrayStringToVectorString_eq_ok_iff _).trans (and_iff_left hlast)
  rw [← hvector]
  constructor
  · exact fun h ↦ h.vector
  · intro h
    refine ⟨h, ?_⟩
    have hread : arrayStringToVectorString
        (Response.arrayString (b.topics.map TopicView.topicName)) =
          .ok (b.topics.map TopicView.topicName) := by
      rwa [getResponseArgument_listTopics] at h
    have htext := Client.argumentText_of_list formatTimestamp hnodup hread
    have hs : b.listTopics.statusCode = some .success := rfl
    have hargument : b.listTopics.availableResponseArguments = [.topics] :=
      (isReplyTo_listTopics b).available
    rw [Client.logResponse_of_success hs, Client.header_of_success hs, hargument,
      Client.logArguments_cons (getResponseArgument_listTopics b) htext.1]
    rfl

/-- In every reachable state the client learns the topics exactly when none of
their names holds a comma or has a space at an end. -/
theorem topics_shown_iff (env : Environment) (library : JsonLibrary)
    (indeterminate topicTimeout : ℤ) {p : Process}
    (hp : (Process.system env library indeterminate topicTimeout).Reachable p) :
    ∃ r, (Server.handle env .listTopics).run p.world = .ok (r, p.world) ∧
      (library.ReadsBack (.ofMembers (r.members indeterminate)) →
        ∃ s, Response.deserialize library .listTopics (r.serialize library indeterminate) = .ok s ∧
          ∀ formatTimestamp senderIp senderPort,
            TopicsShown formatTimestamp indeterminate senderIp senderPort p.world.topicNames s ↔
              ∀ name ∈ p.world.topicNames, PlainElement name) := by
  have hw := (Process.sound_of_reachable hp).world
  have hrun : (Server.handle env .listTopics).run p.world =
      .ok (p.world.view.listTopics, p.world) := run_listTopics env hw
  have hfilled := Process.vetted_of_reachableWhile (N := (· ≠ [])) (T := fun _ ↦ True)
    (E := fun _ ↦ True) (fun _ ↦ trivial)
    (fun p o _ ↦ Process.vets_of_address fun _ _ _ _ _ ↦ trivial) hp
  refine ⟨_, hrun, fun hback ↦ ⟨_, reply_read_back hw hrun hback, fun format ip port ↦ ?_⟩⟩
  rw [← World.map_topicName_view]
  exact Broker.topicsShown_iff hw.inv.names_nodup (fun v hv ↦ (hfilled v hv).topicName) format
    indeterminate ip port

/-- Names with blanks and brackets inside are shown as they are. -/
theorem topics_shown_two_names :
    let request name := ((ClientOperation.subscribeTopic name).sent 7001).toJson
    let names := [ascii "weather [EU] today", ascii "news"]
    let r : Response := ⟨some .success, [.topics], [Response.arrayString names]⟩
    let library := JsonLibrary.ofValues (.ofMembers (r.members 7) :: names.map request)
    Response.deserialize library .listTopics (r.serialize library 7) = .ok r ∧
      TopicsShown (fun _ ↦ none) 7 (ascii "10.0.0.9") (ascii "5000") names r := by
  intro request names r library
  let system := Process.system .steady library 7 10
  let p := system.final (names.map fun name ↦ .connection (ascii "10.0.0.1")
    (some (request name).compact) fun text ↦ text.length)
  have hp : system.Reachable p := Transition.System.reachable_final system _
  have hnames : p.world.topicNames = names := by decide +kernel
  have hlist : (Server.handle .steady .listTopics).run p.world = .ok (r, p.world) := by
    decide +kernel
  have hread : Response.deserialize library .listTopics (r.serialize library 7) = .ok r := by
    decide +kernel
  obtain ⟨r', hrun, hshown⟩ := topics_shown_iff .steady library 7 10 hp
  obtain rfl : r = r' := (Prod.mk.inj (Except.ok.inj (hlist.symm.trans hrun))).1
  obtain ⟨s, hs, hiff⟩ := hshown (JsonLibrary.readsBack_ofValues_head _ _)
  obtain rfl : r = s := Except.ok.inj (hread.symm.trans hs)
  rw [← hnames]
  exact ⟨hread, (hiff _ _ _).mpr (by decide +kernel)⟩

/-- One topic with a comma in its name is taken for two topics. -/
theorem comma_splits_a_name :
    let request := ((ClientOperation.subscribeTopic (ascii "a,b")).sent 7001).toJson
    let r : Response := ⟨some .success, [.topics], [ascii "[a,b]"]⟩
    let library := JsonLibrary.ofValues [.ofMembers (r.members 7), request]
    let system := Process.system .steady library 7 10
    let p := system.final [.connection (ascii "10.0.0.1") (some request.compact) fun text ↦
      text.length]
    system.Reachable p ∧ p.world.topicNames = [ascii "a,b"] ∧
      (Server.handle .steady .listTopics).run p.world = .ok (r, p.world) ∧
      library.ReadsBack (.ofMembers (r.members 7)) ∧
      Response.deserialize library .listTopics (r.serialize library 7) = .ok r ∧
      (r.getResponseArgument .topics).bind arrayStringToVectorString =
        .ok [ascii "a", ascii "b"] ∧
      ¬ TopicsShown (fun _ ↦ none) 7 (ascii "10.0.0.9") (ascii "5000") p.world.topicNames r := by
  intro request r library system p
  have hnames : p.world.topicNames = [ascii "a,b"] := by decide +kernel
  have hvector : (r.getResponseArgument .topics).bind arrayStringToVectorString =
      .ok [ascii "a", ascii "b"] := by
    decide +kernel
  refine ⟨Transition.System.reachable_final system _, hnames, by decide +kernel,
    JsonLibrary.readsBack_ofValues_head _ _, by decide +kernel, hvector, fun hshown ↦ ?_⟩
  have hsame := hvector.symm.trans hshown.vector
  rw [hnames] at hsame
  exact absurd hsame (by decide +kernel)

end PublisherSubscriber
