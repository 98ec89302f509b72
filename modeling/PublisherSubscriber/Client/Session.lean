import PublisherSubscriber.Client.Exchange
import PublisherSubscriber.Client.Network

/-!
# The life of one client

A session is a client with the commands it has handed to `sendMessage`.  What
the system calls of these requests come to is given by a sequence of exchanges.
-/

namespace PublisherSubscriber

/-- The command of the latest request is the last one. -/
structure Session where
  client : ClientState := {}
  requests : List Command := []

namespace Session

section

variable (library : JsonLibrary) (formatTimestamp : ℤ → Option Text) (indeterminate port : ℤ)
  (exchanges : ℕ → Exchange)

/-- A method of the client, which is left early when `sendMessage` fails. -/
def call (s : Session) (op : ClientOperation) : Except Failure Unit × Session :=
  let built := (Client.command port op).run s.client.dictionaries
  let client := { s.client with dictionaries := built.2 }
  let requests := s.requests ++ [built.1]
  match Client.sendMessage library formatTimestamp indeterminate built.1
      (exchanges s.requests.length) with
  | .error f => (.error f, ⟨client, requests⟩)
  | .ok _ => (.ok (), ⟨client.after op, requests⟩)

/-- The loop of `~Client`; `none` if the fuel runs out. -/
def unsubscribeAll : ℕ → Session → Option (Except Failure Unit × Session)
  | 0, _ => none
  | fuel + 1, s =>
      match s.client.subscribedTopics with
      | [] => some (.ok (), s)
      | front :: _ =>
          match s.call library formatTimestamp indeterminate port exchanges
            (.unsubscribe front) with
          | (.error f, s') => some (.error f, s')
          | (.ok (), s') => unsubscribeAll fuel s'

/-- Sessions in which methods are called in any order, whether they return or not. -/
def system : Transition.System Session ClientOperation (Except Failure Unit) Empty where
  start := {}
  step s op := .ok (s.call library formatTimestamp indeterminate port exchanges op)

variable {s : Session}

/-- One call: the command of the operation is sent, and the list of the topics is
updated if `sendMessage` returns. -/
theorem call_spec (hs : s.client.dictionaries.Sound) (op : ClientOperation) :
    ∃ s', s'.client.dictionaries.Sound ∧ s'.requests = s.requests ++ [op.sent port] ∧
      ((∃ line, Client.sendMessage library formatTimestamp indeterminate (op.sent port)
            (exchanges s.requests.length) = .ok line ∧
          s.call library formatTimestamp indeterminate port exchanges op = (.ok (), s') ∧
          s'.client.subscribedTopics = (s.client.after op).subscribedTopics) ∨
        ∃ f, Client.sendMessage library formatTimestamp indeterminate (op.sent port)
            (exchanges s.requests.length) = .error f ∧
          s.call library formatTimestamp indeterminate port exchanges op = (.error f, s') ∧
          s'.client.subscribedTopics = s.client.subscribedTopics) := by
  obtain ⟨d, hrun, hd⟩ := op.builds_command hs port
  cases hsend : Client.sendMessage library formatTimestamp indeterminate (op.sent port)
      (exchanges s.requests.length) with
  | error f =>
      refine ⟨⟨{ s.client with dictionaries := d }, s.requests ++ [op.sent port]⟩, hd, rfl,
        Or.inr ⟨f, rfl, ?_, rfl⟩⟩
      simp only [call, hrun, hsend]
  | ok line =>
      refine ⟨⟨{ s.client with dictionaries := d }.after op, s.requests ++ [op.sent port]⟩, ?_, rfl,
        Or.inl ⟨line, rfl, ?_, ?_⟩⟩
      · rw [ClientState.dictionaries_after]
        exact hd
      · simp only [call, hrun, hsend]
      · cases op <;> rfl

theorem sound_call (hs : s.client.dictionaries.Sound) (op : ClientOperation) :
    (s.call library formatTimestamp indeterminate port exchanges
      op).2.client.dictionaries.Sound := by
  obtain ⟨s', hs', -, ⟨_, -, hcall, -⟩ | ⟨_, -, hcall, -⟩⟩ :=
    call_spec library formatTimestamp indeterminate port exchanges hs op
  · rwa [hcall]
  · rwa [hcall]

variable {library formatTimestamp indeterminate port exchanges}

/-- The tables of a client are those it started with, and default entries besides. -/
theorem sound_of_reachable
    (hs : (system library formatTimestamp indeterminate port exchanges).Reachable s) :
    s.client.dictionaries.Sound := by
  apply hs.invariant Dictionaries.sound_initial
  intro s t op outcome hs _ hstep
  obtain rfl : (s.call library formatTimestamp indeterminate port exchanges op).2 = t :=
    congrArg Prod.snd (Except.ok.inj hstep)
  exact sound_call library formatTimestamp indeterminate port exchanges hs op

end

end Session

end PublisherSubscriber
