import PublisherSubscriber.Client.Operations
import PublisherSubscriber.Client.Settings

/-!
# The command line of the client

`main` goes through the words with one index, which the branches move on past
the words they use.  The command is the first word that is no setting.
-/

namespace PublisherSubscriber

def dash : UInt8 := 45

/-- How `main` ends before a command is executed. -/
inductive Exit
  /-- The usage is printed, and the status is 0. -/
  | help
  /-- The text is logged, and the status is 1. -/
  | failure (message : Text)
  /-- The front and the back of a list that is empty. -/
  | undefined
  deriving DecidableEq, Repr

/-- The local variables of `main`. -/
structure CommandLine where
  port : ℤ := 0
  serverAddress : Text := ascii "127.0.0.1"
  serverPort : ℤ := 8080
  command : Text := []
  arguments : List Text := []
  hasSubscribeCommand : Bool := false
  deriving DecidableEq, Repr

namespace CommandLine

section

/- The second byte of an empty word lies behind its terminator, so it belongs to
whatever follows in memory. -/
variable (beyond : List Text → UInt8)

/-- `argv[i + 1][1]`; the byte behind a single one is the terminator. -/
def secondByte : Text → List Text → UInt8
  | [], following => beyond following
  | [_], _ => 0
  | _ :: c :: _, _ => c

/-- `argv[i + 1][0] != '-' && argv[i + 1][1] != '-'`. -/
def IsTopicName (word : Text) (following : List Text) : Prop :=
  word.headD 0 ≠ dash ∧ secondByte beyond word following ≠ dash

instance (word : Text) (following : List Text) : Decidable (IsTopicName beyond word following) :=
  inferInstanceAs (Decidable (_ ∧ _))

/-- The words that the inner loops take. -/
def topicNames : List Text → List Text
  | [] => []
  | word :: following =>
      if IsTopicName beyond word following then word :: topicNames following else []

/-- The branch for a word that is no setting: a command, or something unknown. -/
def stepCommand (st : CommandLine) (arg : Text) (following : List Text) :
    Except Exit (ℕ × CommandLine) :=
  let command := if st.command = [] then arg else st.command
  let topics := topicNames beyond following
  if arg = ascii "--subscribe" ∧ arg = command ∧ following ≠ [] then
    .ok (topics.length, { st with
      command := command
      arguments := st.arguments ++ topics
      hasSubscribeCommand := st.hasSubscribeCommand || decide (topics ≠ []) })
  -- The command is not compared here.
  else if arg = ascii "--publish" ∧ st.arguments.length = 0 ∧ 2 ≤ following.length then
    .ok (2, { st with command := command, arguments := st.arguments ++ following.take 2 })
  else if arg = ascii "--list-topics" ∧ arg = command then .ok (0, { st with command := command })
  else if arg = ascii "--get-topic-status" ∧ arg = command ∧ following ≠ [] then
    .ok (topics.length, { st with command := command, arguments := st.arguments ++ topics })
  else
    .error (.failure (ascii "Unknown argument, invalid combination of commands or missing " ++
      ascii "values for: " ++ arg))

/-- One pass of the loop: by how many words the index moves on, and the variables after it. -/
def step (st : CommandLine) (arg : Text) (following : List Text) : Except Exit (ℕ × CommandLine) :=
  if arg = ascii "--port" ∧ following ≠ [] then
    let portStr := following.headD []
    if getPortNumber portStr = -1 then
      .error (.failure (ascii "Invalid server port: " ++ portStr))
    else .ok (1, { st with port := getPortNumber portStr })
  else if arg = ascii "--server-address" ∧ following ≠ [] then
    let serverAddress := following.headD []
    if isValidIPv4Address serverAddress = false then
      .error (.failure (ascii "Invalid server address: " ++ serverAddress))
    else .ok (1, { st with serverAddress := serverAddress })
  else if arg = ascii "--server-port" ∧ following ≠ [] then
    let serverPortStr := following.headD []
    if getPortNumber serverPortStr = -1 then
      .error (.failure (ascii "Invalid server port: " ++ serverPortStr))
    else .ok (1, { st with serverPort := getPortNumber serverPortStr })
  else if arg = ascii "--help" then .error .help
  else if arg = ascii "--debug" then .ok (0, st)
  else stepCommand beyond st arg following

/-- The loop over the words, the first of which may already be used. -/
def parse : ℕ → List Text → CommandLine → Except Exit CommandLine
  | _, [], st => .ok st
  | used + 1, _ :: following, st => parse used following st
  | 0, arg :: following, st =>
      (step beyond st arg following).bind fun next ↦ parse next.1 following next.2

end

/-- The methods that are called when the client has been started. -/
def operations (st : CommandLine) : Except Exit (List ClientOperation) :=
  if st.command = ascii "--subscribe" then .ok (st.arguments.map .subscribeTopic)
  else if st.command = ascii "--publish" then
    match st.arguments.head?, st.arguments.getLast? with
    | some topicName, some topicData => .ok [.publishTopic topicName topicData]
    | _, _ => .error .undefined
  else if st.command = ascii "--list-topics" then .ok [.listTopics]
  else if st.command = ascii "--get-topic-status" then .ok (st.arguments.map .getTopicStatus)
  else
    .error (.failure (ascii "No command provided or unknown: \"" ++ st.command ++ ascii "\""))

/-- `main` for a client that starts: the settings and the methods that are called. -/
def main (beyond : List Text → UInt8) (argv : List Text) :
    Except Exit (CommandLine × List ClientOperation) :=
  (parse beyond 0 argv {}).bind fun st ↦ st.operations.map fun ops ↦ (st, ops)

end CommandLine

end PublisherSubscriber
