import PublisherSubscriber.Broker.Replies
import PublisherSubscriber.Client.Requests

/-!
# Remote calls

The operation of a client runs the handler it is meant for, once, with the
values it was given, and the client reads the response that the handler built.
-/

namespace PublisherSubscriber

/-- A reply with a status code and without composite arguments is read, and an
argument it does not carry is read as the empty string. -/
def MissingIsEmpty (library : JsonLibrary) : Prop :=
  ∀ commandIdentifier serializedResponse members n,
    library.parse serializedResponse = .ok (some (.ofMembers members)) →
    ((members.lookup (ascii "statusCode")).getD .null).asInt = .ok n →
    (∀ a ∈ responseDictionary commandIdentifier, ∃ t, Json.textAt members
      (CommunicationParameters.communicationParameterToStringDictionary a) = .ok t) →
    ∃ r, Response.deserialize library commandIdentifier serializedResponse = .ok r ∧
      r.statusCode = some (.ofInt n) ∧
      ∀ a ∈ responseDictionary commandIdentifier, members.lookup
        (CommunicationParameters.communicationParameterToStringDictionary a) = none →
          r.getResponseArgument a = .ok []

theorem missingIsEmpty (library : JsonLibrary) : MissingIsEmpty library := by
  intro commandIdentifier serializedResponse members n hparse hint htexts
  choose! texts htexts using htexts
  refine ⟨_, Response.deserialize_eq_ok hparse (Json.namedMembers_ofMembers _) hint htexts, rfl,
    fun a ha hnone ↦ ?_⟩
  rw [Response.getResponseArgument_ofTexts _ _ ha]
  have htext := htexts a ha
  rw [Json.textAt, hnone] at htext
  exact htext.symm

/-- A rejection is read under every command as an internal error with empty arguments. -/
def RejectionReadsEmpty (library : JsonLibrary) (indeterminate : ℤ) : Prop :=
  library.ReadsBack (.ofMembers (Server.rejection.members indeterminate)) →
  ∀ commandIdentifier, ∃ r, Response.deserialize library commandIdentifier
      (Server.rejection.serialize library indeterminate) = .ok r ∧
    r.statusCode = some .internalError ∧
    ∀ a ∈ responseDictionary commandIdentifier, r.getResponseArgument a = .ok []

theorem rejectionReadsEmpty (library : JsonLibrary) (indeterminate : ℤ) :
    RejectionReadsEmpty library indeterminate := by
  intro hback commandIdentifier
  have hrejection : Server.rejection.WellFormed := ⟨List.nodup_nil, rfl⟩
  refine ⟨_, Response.deserialize_serialize hrejection rfl trivial hback, rfl, fun a ha ↦ ?_⟩
  rw [Response.getResponseArgument_ofTexts _ _ ha]
  rfl

theorem remote_call (env : Environment) (library : JsonLibrary) (indeterminate topicTimeout : ℤ)
    {p : Process} (hp : (Process.system env library indeterminate topicTimeout).Reachable p)
    {d : Dictionaries} (hd : d.Sound) (op : ClientOperation) (hfilled : ∀ t ∈ op.texts, t ≠ [])
    {port : ℤ} (hlower : 0 ≤ port) (hupper : port ≤ 65535)
    (hback : library.ReadsBack ((Client.command port op).run d).1.toJson)
    (clientSocket : ℕ) (clientIpAddress : Text) (bytesSent : Text → ℤ) :
    let c := ((Client.command port op).run d).1
    (∃ text d', c.serialize library = .ok text ∧
      (Command.deserialize library text).run.run p.dictionaries = (.ok c, d') ∧
      Server.dispatch clientIpAddress c = .ok (some (op.request clientIpAddress port)) ∧
      ∀ r w', (Server.handle env (op.request clientIpAddress port)).run p.world = .ok (r, w') →
        (Server.handleApproachingClient env library indeterminate clientSocket clientIpAddress
            (some text) bytesSent).run p =
          .ok (some (r, r.serialize library indeterminate),
            (⟨w', d'⟩ : Process).withOs (w'.os.close clientSocket)) ∧
        (library.ReadsBack (.ofMembers (r.members indeterminate)) →
          Response.deserialize library c.commandIdentifier (r.serialize library indeterminate) =
            .ok r)) ∧
    MissingIsEmpty library ∧ RejectionReadsEmpty library indeterminate := by
  intro c
  have hc : c = op.sent port := op.run_command hd port
  have hvalid : c.isValid = true := hc ▸ op.isValid_sent hfilled
  have hsound := Process.sound_of_reachable hp
  have hround : Command.decode c.toJson = .ok c := by
    rw [hc]
    exact Command.decode_toJson op.wellFormed_sent op.isNamed_sent op.available_sent
      (op.isValid_sent hfilled)
  have hdecode : Command.decodeText library (library.writeString c.toJson) = .ok c := by
    rw [Command.decodeText, hback]
    exact hround
  have hdispatch : Server.dispatch clientIpAddress c =
      .ok (some (op.request clientIpAddress port)) :=
    hc ▸ op.dispatch_sent clientIpAddress hlower hupper
  obtain ⟨d', hdeserialize, -, hanswer⟩ := Server.run_answer env library clientIpAddress
    (library.writeString c.toJson) hsound.dictionaries
  rw [hdecode] at hdeserialize
  rw [Server.requestOf, hdecode, Except.bind, hdispatch] at hanswer
  refine ⟨⟨_, d', if_pos hvalid, hdeserialize, hdispatch, fun r w' hhandle ↦ ⟨?_, fun hreply ↦ ?_⟩⟩,
    missingIsEmpty library, rejectionReadsEmpty library indeterminate⟩
  · rw [Server.run_handleApproachingClient, hanswer]
    simp only [hhandle]
    rfl
  · have hidentifier :
        c.commandIdentifier = (op.request clientIpAddress port).commandIdentifier := by
      rw [hc]
      cases op <;> rfl
    rw [hidentifier]
    exact reply_read_back hsound.world hhandle hreply

/-- After one subscription a second client asks for the status of the topic. -/
theorem remote_call_topic_status :
    let subscription := ClientOperation.subscribeTopic (ascii "news")
    let op := ClientOperation.getTopicStatus (ascii "news")
    let r : Response := ⟨some .success, [.messageTimestamp, .subscribers],
      [ascii "0", ascii "[10.0.0.1:7001]"]⟩
    let library := JsonLibrary.ofValues [(subscription.sent 7001).toJson, (op.sent 7002).toJson,
      .ofMembers (r.members 7)]
    let p := (Process.system .steady library 7 10).final [
      .connection (ascii "10.0.0.1") (some (subscription.sent 7001).toJson.compact) fun text ↦
        text.length]
    ∃ text p', (op.sent 7002).serialize library = .ok text ∧
      (Server.handleApproachingClient .steady library 7 5 (ascii "10.0.0.2") (some text)
        fun text ↦ text.length).run p = .ok (some (r, r.serialize library 7), p') ∧
      Response.deserialize library .getTopicStatus (r.serialize library 7) = .ok r := by
  intro subscription op r library p
  have hp : (Process.system .steady library 7 10).Reachable p :=
    Transition.System.reachable_final _ _
  have hrequest : library.ReadsBack (op.sent 7002).toJson := by
    apply JsonLibrary.readsBack_ofValues (by simp)
    simp only [List.forall_mem_cons]
    refine ⟨fun h ↦ absurd h (by decide +kernel), fun _ ↦ trivial,
      fun h ↦ absurd h (by decide +kernel), by simp⟩
  have hreply : library.ReadsBack (.ofMembers (r.members 7)) := by
    apply JsonLibrary.readsBack_ofValues (by simp)
    simp only [List.forall_mem_cons]
    refine ⟨fun h ↦ absurd h (by decide +kernel), fun h ↦ absurd h (by decide +kernel),
      fun _ ↦ trivial, by simp⟩
  have hhandle : (Server.handle .steady (op.request (ascii "10.0.0.2") 7002)).run p.world =
      .ok (r, p.world) := by
    decide +kernel
  obtain ⟨⟨text, d', hserialize, -, -, hcall⟩, -⟩ := remote_call .steady library 7 10 hp
    Dictionaries.sound_initial op (by decide) (show (0 : ℤ) ≤ 7002 by decide) (by decide) hrequest 5
    (ascii "10.0.0.2") fun text ↦ text.length
  obtain ⟨hrun, hread⟩ := hcall r p.world hhandle
  exact ⟨text, _, hserialize, hrun, hread hreply⟩

end PublisherSubscriber
