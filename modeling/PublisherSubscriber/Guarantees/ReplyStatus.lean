import PublisherSubscriber.Broker.Replies

/-!
# The status code of a reply

A handler always sets the code of its response, and so does the catch block.
The default case of the switch does not, and it is reached by a number that
names no command when there are no arguments.
-/

namespace PublisherSubscriber

namespace Command

/-- What is decoded to a command without a name. -/
theorem decode_unnamed_iff (v : Json) :
    (∃ c, decode v = .ok c ∧ ¬ c.commandIdentifier.IsNamed) ↔
      ∃ command n, v.IsRequest command [] ∧ command.asInt = .ok n ∧
        ¬ (CommandIdentifiers.ofInt n).IsNamed := by
  constructor
  · rintro ⟨c, hc, hunnamed⟩
    obtain ⟨command, arguments, n, hrequest, hint, hfills, rfl⟩ := filled_of_decode hc
    rw [commandIdentifier_filled] at hunnamed
    obtain rfl := (fills_unnamed_iff hunnamed arguments).mp hfills
    exact ⟨command, n, hrequest, hint, hunnamed⟩
  · rintro ⟨command, n, hrequest, hint, hunnamed⟩
    have hfills := (fills_unnamed_iff hunnamed []).mpr rfl
    refine ⟨_, decode_of_isRequest hrequest hint hfills, ?_⟩
    rwa [commandIdentifier_filled]

end Command

namespace Server

/-- The default case of the switch, and no exception on the way to it. -/
theorem dispatch_eq_ok_none_iff (clientIpAddress : Text) (c : Command) :
    dispatch clientIpAddress c = .ok none ↔ ¬ c.commandIdentifier.IsNamed := by
  obtain ⟨commandIdentifier, names, values⟩ := c
  cases commandIdentifier with
  | unnamed n => exact iff_of_true rfl id
  | listTopics =>
      apply iff_of_false _ (fun h ↦ h trivial)
      rintro ⟨⟩
  | getTopicStatus =>
      apply iff_of_false _ (fun h ↦ h trivial)
      intro h
      obtain ⟨topicName, -, h⟩ := of_bind_eq_ok h
      cases h
  | publish =>
      apply iff_of_false _ (fun h ↦ h trivial)
      intro h
      obtain ⟨topicName, -, h⟩ := of_bind_eq_ok h
      obtain ⟨message, -, h⟩ := of_bind_eq_ok h
      cases h
  | subscribe | unsubscribe =>
      apply iff_of_false _ (fun h ↦ h trivial)
      intro h
      obtain ⟨text, -, h⟩ := of_bind_eq_ok h
      obtain ⟨clientPort, -, h⟩ := of_bind_eq_ok h
      obtain ⟨topicName, -, h⟩ := of_bind_eq_ok h
      cases h

/-- The text is an object with both members; `arguments` has none, and
`command` converts to a number that is no command's. -/
def NamesNoCommand (library : JsonLibrary) (receivedData : Text) : Prop :=
  ∃ v command n, library.parse receivedData = .ok (some v) ∧ v.IsRequest command [] ∧
    command.asInt = .ok n ∧ ¬ (CommandIdentifiers.ofInt n).IsNamed

theorem requestOf_eq_ok_none_iff (library : JsonLibrary) (clientIpAddress receivedData : Text) :
    requestOf library clientIpAddress receivedData = .ok none ↔
      NamesNoCommand library receivedData := by
  have hdecoded : requestOf library clientIpAddress receivedData = .ok none ↔
      ∃ c, Command.decodeText library receivedData = .ok c ∧ ¬ c.commandIdentifier.IsNamed := by
    constructor
    · intro h
      obtain ⟨c, hc, hdispatch⟩ := of_bind_eq_ok h
      exact ⟨c, hc, (dispatch_eq_ok_none_iff clientIpAddress c).mp hdispatch⟩
    · rintro ⟨c, hc, hunnamed⟩
      rw [requestOf, hc]
      exact (dispatch_eq_ok_none_iff clientIpAddress c).mpr hunnamed
  rw [hdecoded]
  constructor
  · rintro ⟨c, hc, hunnamed⟩
    obtain ⟨v, hparse, hv⟩ := Command.decodeText_inv hc
    obtain ⟨command, n, hcommand⟩ := (Command.decode_unnamed_iff v).mp ⟨c, hv, hunnamed⟩
    exact ⟨v, command, n, hparse, hcommand⟩
  · rintro ⟨v, command, n, hparse, hv⟩
    obtain ⟨c, hc, hunnamed⟩ := (Command.decode_unnamed_iff v).mpr ⟨command, n, hv⟩
    refine ⟨c, ?_, hunnamed⟩
    rw [Command.decodeText, hparse]
    exact hc

/-- The handler that ran in `w` built the response and gave it a code; if none
ran, the code is that of an internal error. -/
def StatusAssigned (env : Environment) (library : JsonLibrary)
    (clientIpAddress receivedData : Text) (w : World) (r : Response) : Prop :=
  match requestOf library clientIpAddress receivedData with
  | .ok (some q) => (∃ w', (handle env q).run w = .ok (r, w')) ∧ ∃ code, r.statusCode = some code
  | .ok none => r.statusCode = some .internalError
  | .error _ => r.statusCode = some .internalError

variable {env : Environment} {library : JsonLibrary} {clientIpAddress receivedData : Text}
  {p p' : Process} {r : Response}

theorem statusAssigned_answer_iff (hp : p.Sound)
    (h : (answer env library clientIpAddress receivedData).run p = .ok (r, p')) :
    StatusAssigned env library clientIpAddress receivedData p.world r ↔
      ¬ NamesNoCommand library receivedData := by
  rw [← requestOf_eq_ok_none_iff library clientIpAddress]
  obtain ⟨d', -, -, hrun⟩ := run_answer env library clientIpAddress receivedData hp.dictionaries
  rw [hrun] at h
  rw [StatusAssigned]
  cases hrequest : requestOf library clientIpAddress receivedData with
  | error e =>
      simp only [hrequest, Except.ok.injEq, Prod.mk.injEq] at h
      obtain ⟨rfl, -⟩ := h
      exact iff_of_true rfl (by simp)
  | ok request =>
      cases request with
      | none =>
          simp only [hrequest, Except.ok.injEq, Prod.mk.injEq] at h
          obtain ⟨rfl, -⟩ := h
          simp [Response.default]
      | some q =>
          simp only [hrequest] at h
          obtain ⟨answered, hhandle, hanswered⟩ := of_map_eq_ok h
          obtain ⟨rfl, -⟩ := Prod.mk.inj hanswered
          have hreply := Broker.isReplyTo_handle (view_handle env hp.world hhandle).1
          obtain ⟨code, hcode, -⟩ := hreply.status
          exact iff_of_true ⟨⟨answered.2, hhandle⟩, code, hcode⟩ (by simp)

end Server

/-- In every reachable state the reply that is sent has the status of the path
taken, unless the text names no command. -/
theorem status_assigned_iff (env : Environment) (library : JsonLibrary)
    (indeterminate topicTimeout : ℤ) {p p' : Process}
    (hp : (Process.system env library indeterminate topicTimeout).Reachable p)
    {clientIpAddress receivedData text : Text} {bytesSent : Text → ℤ} {r : Response}
    (hstep : (Process.system env library indeterminate topicTimeout).step p
      (.connection clientIpAddress (some receivedData) bytesSent) = .ok (some (r, text), p')) :
    text = r.serialize library indeterminate ∧
      (Server.StatusAssigned env library clientIpAddress receivedData
          { p.world with os := (p.world.os.acquire env).2 } r ↔
        ¬ Server.NamesNoCommand library receivedData) := by
  rcases Server.acceptClient_cases hstep with ⟨-, hnone, -⟩ | ⟨clientSocket, -, hhandled⟩
  · cases hnone
  · rcases hhandled with ⟨-, hnone, -⟩ | ⟨data, s, answered, hdata, hanswer, hreply, -⟩
    · cases hnone
    · obtain ⟨rfl, rfl⟩ := Prod.mk.inj (Option.some.inj hreply)
      obtain rfl := Option.some.inj hdata
      refine ⟨rfl, ?_⟩
      exact Server.statusAssigned_answer_iff ((Process.sound_of_reachable hp).withOs _) hanswer

/-- The status of a topic that does not exist is answered by its handler. -/
theorem status_assigned_unknown_topic :
    let v := Json.object [(ascii "arguments",
      .object [(ascii "topicName", .string (ascii "news"))]), (ascii "command", .int 4)]
    let r := (Response.new .getTopicStatus).setStatusCode .invalidParameter
    Server.StatusAssigned .steady (.ofValues [v]) (ascii "10.0.0.1") v.compact
      { Server.initial 10 with os := (({} : Os).acquire .steady).2 } r := by
  intro v r
  let system := Process.system .steady (.ofValues [v]) 7 10
  let connection := Occurrence.connection (ascii "10.0.0.1") (some v.compact) fun text ↦
    text.length
  have hstep : system.step (Process.initial 10) connection =
      .ok (some (r, r.serialize (.ofValues [v]) 7), system.final [connection]) := by
    decide +kernel
  apply (status_assigned_iff .steady (.ofValues [v]) 7 10 .start hstep).2.mpr
  rw [← Server.requestOf_eq_ok_none_iff _ (ascii "10.0.0.1")]
  decide +kernel

/-- The reply to `{"arguments":null,"command":7}` is the response as constructed. -/
theorem command_seven_is_answered_without_status :
    let v := Json.object [(ascii "arguments", .null), (ascii "command", .int 7)]
    let library := JsonLibrary.ofValues [v]
    (∃ p', (Process.system .steady library 99 10).step (Process.initial 10)
      (.connection (ascii "10.0.0.1") (some v.compact) fun text ↦ text.length) =
        .ok (some (Response.default, Json.compact (.object [(ascii "statusCode", .int 99)])), p')) ∧
      Response.default.statusCode = none ∧
      ¬ Server.StatusAssigned .steady library (ascii "10.0.0.1") v.compact
        { Server.initial 10 with os := (({} : Os).acquire .steady).2 } Response.default := by
  intro v library
  have hrequest : Server.requestOf library (ascii "10.0.0.1") v.compact = .ok none := by
    decide +kernel
  refine ⟨⟨(Process.system .steady library 99 10).final [
    .connection (ascii "10.0.0.1") (some v.compact) fun text ↦ text.length], ?_⟩, rfl, ?_⟩
  · decide +kernel
  · rw [Server.StatusAssigned, hrequest]
    decide

end PublisherSubscriber
