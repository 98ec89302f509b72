import PublisherSubscriber.Broker.Service
import PublisherSubscriber.Client.Requests
import PublisherSubscriber.Shared.Truncation

/-!
# Requests and datagrams that are cut off

A part of a text that was sent is not decoded to anything.
-/

namespace PublisherSubscriber

namespace Server

variable {env : Environment} {library : JsonLibrary} {text : Text}

theorem run_answer_of_rejected (h : ∀ v, library.parse text ≠ .ok (some v))
    (clientIpAddress : Text) (p : Process) :
    (answer env library clientIpAddress text).run p = .ok (rejection, p) := by
  obtain ⟨e, hrun⟩ := Command.run_deserialize_of_rejected h p.dictionaries
  exact run_answer_of_decoded env library clientIpAddress text hrun

/-- A text that is not accepted is answered by a rejection, if the connection is. -/
theorem step_of_rejected (h : ∀ v, library.parse text ≠ .ok (some v)) (indeterminate : ℤ)
    (topicTimeout : ℤ) (clientIpAddress : Text) (bytesSent : Text → ℤ) (p : Process) :
    ∃ os, (Process.system env library indeterminate topicTimeout).step p
        (.connection clientIpAddress (some text) bytesSent) =
      .ok ((p.world.os.acquire env).1.map fun _ ↦
        (rejection, rejection.serialize library indeterminate), p.withOs os) := by
  show ∃ os, (acceptClient env library indeterminate clientIpAddress (some text) bytesSent).run p =
    .ok (_, p.withOs os)
  cases haccept : (p.world.os.acquire env).1 with
  | none => exact ⟨_, run_acceptClient_of_none haccept⟩
  | some clientSocket =>
      rw [run_acceptClient_of_some haccept, run_handleApproachingClient,
        run_answer_of_rejected h]
      exact ⟨_, rfl⟩

end Server

/-- A request that is cut off raises an exception, which the server answers with
an internal error and without changing anything; a message that is cut off
raises one. -/
theorem truncation_raises (env : Environment) {parse : Text → Except CppException (Option Json)}
    (hreader : ReadsClosedObjects parse) (indeterminate topicTimeout : ℤ) :
    (∀ (c : Command) (text cut : Text), c.serialize (.jsoncpp parse) = .ok text →
      cut <+: text → cut ≠ text →
        (∀ d, ∃ e d', (Command.deserialize (.jsoncpp parse) cut).run.run d = (.error e, d')) ∧
        ∀ (p : Process) clientIpAddress bytesSent, ∃ os,
          (Process.system env (.jsoncpp parse) indeterminate topicTimeout).step p
              (.connection clientIpAddress (some cut) bytesSent) =
            .ok ((p.world.os.acquire env).1.map fun _ ↦
              (Server.rejection, Server.rejection.serialize (.jsoncpp parse) indeterminate),
              p.withOs os)) ∧
    ∀ (m : Message) (cut : Text), cut <+: m.serialize (.jsoncpp parse) →
      cut ≠ m.serialize (.jsoncpp parse) →
        ∃ e, Message.deserialize (.jsoncpp parse) cut = .error e := by
  constructor
  · intro c text cut hserialize hpre hcut
    have htext : Json.writeValue c.toJson = text := (Command.serialize_inv hserialize).2
    rw [← htext] at hpre hcut
    have hrejected : ∀ v, (JsonLibrary.jsoncpp parse).parse cut ≠ .ok (some v) :=
      c.parse_cut hreader hpre hcut
    refine ⟨fun d ↦ ?_, fun p clientIpAddress bytesSent ↦
      Server.step_of_rejected hrejected indeterminate topicTimeout clientIpAddress bytesSent p⟩
    obtain ⟨e, hrun⟩ := Command.run_deserialize_of_rejected hrejected d
    exact ⟨e, d, hrun⟩
  · intro m cut hpre hcut
    exact Message.deserialize_of_rejected (m.parse_cut hreader hpre hcut)

/-- The topic name ends in a quote and a brace, the message in a backslash. -/
theorem truncation_raises_publish :
    let c := (ClientOperation.publishTopic (ascii "\x7bnews\"\x7d") (ascii "\"\\")).sent 7001
    let m : Message := ⟨ascii "\x7bnews\"\x7d", 1700000000, ascii "\"\\"⟩
    let library := JsonLibrary.jsoncppOf [c.toJson, m.toJson]
    library.ReadsBack c.toJson ∧
      (∀ n < (library.writeString c.toJson).length, ∀ d, ∃ e d',
        (Command.deserialize library ((library.writeString c.toJson).take n)).run.run d =
          (.error e, d')) ∧
      ∀ n < (m.serialize library).length,
        ∃ e, Message.deserialize library ((m.serialize library).take n) = .error e := by
  intro c m library
  have hreader : ReadsClosedObjects library.parse :=
    readsClosedObjects_jsoncppOf (by decide +kernel)
  have htake : ∀ (text : Text) n, n < text.length → text.take n ≠ text := by
    intro text n hn hsame
    have hlength := congrArg List.length hsame
    rw [List.length_take] at hlength
    omega
  obtain ⟨hcommand, hmessage⟩ := truncation_raises .steady hreader 7 10
  refine ⟨JsonLibrary.readsBack_jsoncppOf_head _ _, fun n hn d ↦ ?_, fun n hn ↦ ?_⟩
  · exact (hcommand c _ _ (if_pos rfl) (List.take_prefix n _) (htake _ n hn)).1 d
  · exact hmessage m _ (List.take_prefix n _) (htake _ n hn)

end PublisherSubscriber
