import PublisherSubscriber.Client.Operations
import PublisherSubscriber.Server.Process
import PublisherSubscriber.Shared.Numerals
import PublisherSubscriber.Shared.RoundTrip

/-!
# What the operations ask for

With the tables as started every operation builds one command, and the server
takes that command for the request the operation is meant to be.
-/

namespace PublisherSubscriber

namespace ClientOperation

/-- The texts an operation is given. -/
def texts : ClientOperation → List Text
  | subscribeTopic topicName => [topicName]
  | unsubscribe topicName => [topicName]
  | publishTopic topicName message => [topicName, message]
  | listTopics => []
  | getTopicStatus topicName => [topicName]

/-- The request an operation is meant to be. -/
def request (ipAddress : Text) (port : ℤ) : ClientOperation → Request
  | subscribeTopic topicName => .subscribe ipAddress port topicName
  | unsubscribe topicName => .unsubscribe ipAddress port topicName
  | publishTopic topicName message => .publish topicName message
  | listTopics => .listTopics
  | getTopicStatus topicName => .getTopicStatus topicName

/-- The command an operation sends. -/
def sent (port : ℤ) : ClientOperation → Command
  | subscribeTopic t => ⟨.subscribe, [.topicName, .clientPort], [t, to_string port]⟩
  | unsubscribe t => ⟨.unsubscribe, [.topicName, .clientPort], [t, to_string port]⟩
  | publishTopic t m => ⟨.publish, [.topicName, .message], [t, m]⟩
  | listTopics => ⟨.listTopics, [], []⟩
  | getTopicStatus t => ⟨.getTopicStatus, [.topicName], [t]⟩

section

variable (op : ClientOperation) {port : ℤ}

theorem builds_command {d : Dictionaries} (hd : d.Sound) (port : ℤ) :
    ∃ d', (Client.command port op).run d = (op.sent port, d') ∧ d'.Sound := by
  cases op with
  | subscribeTopic t =>
      obtain ⟨d', hrun, hd'⟩ := Command.run_new hd .subscribe
      refine ⟨d', ?_, hd'⟩
      simp only [Client.command, Client.subscribeTopicCommand, StateT.run_bind, hrun]
      rfl
  | unsubscribe t =>
      obtain ⟨d', hrun, hd'⟩ := Command.run_new hd .unsubscribe
      refine ⟨d', ?_, hd'⟩
      simp only [Client.command, Client.unsubscribeCommand, StateT.run_bind, hrun]
      rfl
  | publishTopic t m =>
      obtain ⟨d', hrun, hd'⟩ := Command.run_new hd .publish
      refine ⟨d', ?_, hd'⟩
      simp only [Client.command, Client.publishTopicCommand, StateT.run_bind, hrun]
      rfl
  | listTopics =>
      obtain ⟨d', hrun, hd'⟩ := Command.run_new hd .listTopics
      refine ⟨d', ?_, hd'⟩
      simp only [Client.command, Client.listTopicsCommand, hrun]
      rfl
  | getTopicStatus t =>
      obtain ⟨d', hrun, hd'⟩ := Command.run_new hd .getTopicStatus
      refine ⟨d', ?_, hd'⟩
      simp only [Client.command, Client.getTopicStatusCommand, StateT.run_bind, hrun]
      rfl

theorem run_command {d : Dictionaries} (hd : d.Sound) (port : ℤ) :
    ((Client.command port op).run d).1 = op.sent port := by
  obtain ⟨d', hrun, -⟩ := op.builds_command hd port
  rw [hrun]

theorem wellFormed_sent : (op.sent port).WellFormed := by
  constructor <;> cases op <;> simp [sent]

theorem isNamed_sent : (op.sent port).commandIdentifier.IsNamed := by
  cases op <;> trivial

theorem available_sent : (op.sent port).availableCommandArguments =
    Command.documentedNames (op.sent port).commandIdentifier := by
  cases op <;> rfl

theorem isValid_sent_iff : (op.sent port).isValid = true ↔ ∀ t ∈ op.texts, t ≠ [] := by
  have hport := to_string_ne_nil port
  cases op <;> simp_all [texts, sent, Command.isValid]

theorem isValid_sent (hfilled : ∀ t ∈ op.texts, t ≠ []) : (op.sent port).isValid = true :=
  op.isValid_sent_iff.mpr hfilled

/-- The switch takes the case of the operation, and reads the port as it was. -/
theorem dispatch_sent (ipAddress : Text) (hlower : 0 ≤ port) (hupper : port ≤ 65535) :
    Server.dispatch ipAddress (op.sent port) = .ok (some (op.request ipAddress port)) := by
  have hmin : intMin ≤ port := by
    simp only [intMin]
    omega
  have hmax : port ≤ intMax := by
    simp only [intMax]
    omega
  have hport := stoi_to_string hmin hmax
  cases op <;> simp [Server.dispatch, sent, Command.getCommandArgument, hport, request, bind,
    Except.bind, pure, Except.pure]

end

end ClientOperation

end PublisherSubscriber
