import PublisherSubscriber.Shared.Command

/-!
# The operations of a client

Each method of the class `Client` builds a command and hands it to
`sendMessage`, which sends it serialized.  The results of the setters are not
looked at.
-/

namespace PublisherSubscriber

inductive ClientOperation
  | subscribeTopic (topicName : Text)
  | unsubscribe (topicName : Text)
  | publishTopic (topicName message : Text)
  | listTopics
  | getTopicStatus (topicName : Text)
  deriving DecidableEq, Repr

namespace Client

def subscribeTopicCommand (port : ℤ) (topicName : Text) : StateM Dictionaries Command := do
  let subscribe ← Command.new .subscribe
  let subscribe := (subscribe.setCommandArgument .topicName topicName).2
  return (subscribe.setCommandArgument .clientPort (to_string port)).2

def unsubscribeCommand (port : ℤ) (topicName : Text) : StateM Dictionaries Command := do
  let unsubscribe ← Command.new .unsubscribe
  let unsubscribe := (unsubscribe.setCommandArgument .topicName topicName).2
  return (unsubscribe.setCommandArgument .clientPort (to_string port)).2

def publishTopicCommand (topicName message : Text) : StateM Dictionaries Command := do
  let publish ← Command.new .publish
  let publish := (publish.setCommandArgument .topicName topicName).2
  return (publish.setCommandArgument .message message).2

def listTopicsCommand : StateM Dictionaries Command := Command.new .listTopics

def getTopicStatusCommand (topicName : Text) : StateM Dictionaries Command := do
  let getTopicStatus ← Command.new .getTopicStatus
  return (getTopicStatus.setCommandArgument .topicName topicName).2

/-- The command of an operation; `port` is the port the message socket is bound to. -/
def command (port : ℤ) : ClientOperation → StateM Dictionaries Command
  | .subscribeTopic topicName => subscribeTopicCommand port topicName
  | .unsubscribe topicName => unsubscribeCommand port topicName
  | .publishTopic topicName message => publishTopicCommand topicName message
  | .listTopics => listTopicsCommand
  | .getTopicStatus topicName => getTopicStatusCommand topicName

end Client

end PublisherSubscriber
