import PublisherSubscriber.Library.Transition
import PublisherSubscriber.Server.Objects
import PublisherSubscriber.Shared.Response

/-!
# The request handlers and the heartbeat

Each handler and each pass of the heartbeat loop holds the mutex from its first
access to the vectors on, and is one step of the server.
-/

namespace PublisherSubscriber

open PointerHeap

namespace Server

/-- The first topic of that name, or the null pointer. -/
def findTopic (topicName : Text) : List Pointer → ServerM Pointer
  | [] => return none
  | topic :: rest => do
      if (← Topic.getTopicName topic) = topicName then return topic
      else findTopic topicName rest

/-- The first connection of that address and port, or the null pointer. -/
def findClientConnection (ipAddress : Text) (port : ℤ) : List Pointer → ServerM Pointer
  | [] => return none
  | clientConnection :: rest => do
      let ownAddress ← ClientConnection.getAddress clientConnection
      let ownPort ← ClientConnection.getPort clientConnection
      if ownAddress = ipAddress ∧ ownPort = port then return clientConnection
      else findClientConnection ipAddress port rest

def pushTopic (topic : Pointer) : ServerM Unit :=
  modify fun w ↦ { w with topics := w.topics ++ [topic] }

def eraseTopic (topic : Pointer) : ServerM Unit :=
  modify fun w ↦ { w with topics := w.topics.filter (· ≠ topic) }

def pushClientConnection (clientConnection : Pointer) : ServerM Unit :=
  modify fun w ↦ { w with clientConnections := w.clientConnections ++ [clientConnection] }

def eraseClientConnection (clientConnection : Pointer) : ServerM Unit :=
  modify fun w ↦ { w with
    clientConnections := w.clientConnections.filter (· ≠ clientConnection) }

def addTopic (env : Environment) (topicName : Text) : ServerM Pointer := do
  let topicPtr ← newTopic (← Topic.construct env topicName)
  pushTopic topicPtr
  record (.created topicPtr topicName)
  return topicPtr

def addClientConnection (ipAddress : Text) (port : ℤ) : ServerM Pointer := do
  let clientConnectionPtr ← newConnection ⟨ipAddress, port⟩
  pushClientConnection clientConnectionPtr
  return clientConnectionPtr

/-- The topic of that name; a new one if there is none. -/
def findOrAddTopic (env : Environment) (topicName : Text) : ServerM Pointer := do
  let topicPtr ← findTopic topicName (← get).topics
  if topicPtr = none then addTopic env topicName else return topicPtr

/-- The connection of that endpoint; a new one if there is none. -/
def findOrAddClientConnection (ipAddress : Text) (port : ℤ) : ServerM Pointer := do
  let clientConnectionPtr ← findClientConnection ipAddress port (← get).clientConnections
  if clientConnectionPtr = none then addClientConnection ipAddress port
  else return clientConnectionPtr

def handleSubscribeRequest (env : Environment) (ipAddress : Text) (port : ℤ)
    (topicName : Text) : ServerM Response := do
  let response := Response.new .subscribe
  let topicPtr ← findOrAddTopic env topicName
  let clientConnectionPtr ← findOrAddClientConnection ipAddress port
  if ← Topic.subscribe topicPtr clientConnectionPtr then
    return response.setStatusCode .success
  else
    return response.setStatusCode .failed

/-- If the topic has no more clients, delete the topic. -/
def deleteEmptyTopic (topicPtr : Pointer) : ServerM Unit := do
  let subscribers ← Topic.getClientConnections topicPtr
  if subscribers.length = 0 then
    eraseTopic topicPtr
    deleteTopic topicPtr
  else pure ()

/-- The pointer is dereferenced once for every topic looked at. -/
def isSubscribedToOtherTopic (clientConnectionPtr : Pointer) : List Pointer → ServerM Bool
  | [] => return false
  | topic :: rest => do
      let address ← ClientConnection.getAddress clientConnectionPtr
      let port ← ClientConnection.getPort clientConnectionPtr
      if ← Topic.hasClient topic address port then return true
      else isSubscribedToOtherTopic clientConnectionPtr rest

/-- Remove the client from the connections unless some topic still has it. -/
def deleteUnusedConnection (clientConnectionPtr : Pointer) : ServerM Unit := do
  if ← isSubscribedToOtherTopic clientConnectionPtr (← get).topics then pure ()
  else
    eraseClientConnection clientConnectionPtr
    deleteConnection clientConnectionPtr

def handleUnsubscribeRequest (ipAddress : Text) (port : ℤ) (topicName : Text) :
    ServerM Response := do
  let clientConnectionPtr ← findClientConnection ipAddress port (← get).clientConnections
  let topicPtr ← findTopic topicName (← get).topics
  let response := Response.new .unsubscribe
  if topicPtr = none then
    return response.setStatusCode .invalidParameter
  else if ← Topic.unsubscribe topicPtr clientConnectionPtr then
    deleteEmptyTopic topicPtr
    deleteUnusedConnection clientConnectionPtr
    return response.setStatusCode .success
  else
    return response.setStatusCode .failed

def handleListTopics : ServerM Response := do
  let topicNames ← (← get).topics.mapM Topic.getTopicName
  let (set, response) := (Response.new .listTopics).setResponseArgumentList .topics topicNames
  return response.setStatusCode (if set then .success else .internalError)

/-- `connection->getAddress() + ":" + to_string(connection->getPort())`. -/
def subscriberString (connection : Pointer) : ServerM Text := do
  let address ← ClientConnection.getAddress connection
  let port ← ClientConnection.getPort connection
  return address ++ ascii ":" ++ to_string port

/-- `static_cast<uint64_t>`. -/
def toUInt64 (n : ℤ) : ℕ := (UInt64.ofInt n).toNat

/-- The two setters are joined by `&&`. -/
def setTopicStatus (messageTimestamp : ℤ) (subscribers : List Text) (response : Response) :
    Bool × Response :=
  let (set, response) := response.setResponseArgumentUInt .messageTimestamp
    (toUInt64 messageTimestamp)
  if set then response.setResponseArgumentList .subscribers subscribers else (false, response)

def handleGetTopicStatus (topicName : Text) : ServerM Response := do
  let response := Response.new .getTopicStatus
  let topicPtr ← findTopic topicName (← get).topics
  if topicPtr = none then
    return response.setStatusCode .invalidParameter
  else
    let messageTimestamp ← Topic.getMessageTimestamp topicPtr
    let connections ← Topic.getClientConnections topicPtr
    let subscribers ← connections.mapM subscriberString
    let (set, response) := setTopicStatus messageTimestamp subscribers response
    return response.setStatusCode (if set then .success else .internalError)

/-- Publishing is done by the heartbeat; the handler only stores the message. -/
def handlePublishRequest (env : Environment) (topicName message : Text) : ServerM Response := do
  let response := Response.new .publish
  let topicPtr ← findTopic topicName (← get).topics
  if topicPtr = none then
    return response.setStatusCode .invalidParameter
  else if ← Topic.setMessage env topicPtr message then
    record (.published topicPtr topicName message (← Topic.getMessageTimestamp topicPtr))
    return response.setStatusCode .success
  else
    return response.setStatusCode .failed

/-- The body of the loop over the topics. -/
def checkTopic (env : Environment) (topic : Pointer) : ServerM Unit := do
  let timeoutTimestamp ← Topic.getTimeoutTimestamp topic
  let now ← time env
  if timeoutTimestamp ≤ now then
    let calls ← Topic.publishMessage env topic
    let reset ← time env
    Topic.setTimeoutTimestamp topic (reset + (← get).topicTimeout)
    record (.checked topic now calls (some reset))
  else
    record (.checked topic now [] none)

/-- One pass of the endless loop, between `lock` and `unlock`. -/
def checkTopicTimeouts (env : Environment) : ServerM Unit := do
  (← get).topics.forM (checkTopic env)

end Server

/-! ## The server as a transition system -/

inductive Request
  | subscribe (ipAddress : Text) (port : ℤ) (topicName : Text)
  | unsubscribe (ipAddress : Text) (port : ℤ) (topicName : Text)
  | publish (topicName message : Text)
  | listTopics
  | getTopicStatus (topicName : Text)
  deriving DecidableEq, Repr

namespace Server

def handle (env : Environment) : Request → ServerM Response
  | .subscribe ipAddress port topicName => handleSubscribeRequest env ipAddress port topicName
  | .unsubscribe ipAddress port topicName => handleUnsubscribeRequest ipAddress port topicName
  | .publish topicName message => handlePublishRequest env topicName message
  | .listTopics => handleListTopics
  | .getTopicStatus topicName => handleGetTopicStatus topicName

end Server

/-- A request that was received, or a tick of the heartbeat. -/
inductive Action
  | request (r : Request)
  | tick
  deriving DecidableEq, Repr

namespace Server

def act (env : Environment) : Action → ServerM (Option Response)
  | .request r => do return some (← handle env r)
  | .tick => do
      checkTopicTimeouts env
      return none

/-- The server as constructed: no topic, no connection, nothing recorded. -/
def initial (topicTimeout : ℤ) : World := { topicTimeout := topicTimeout }

def system (env : Environment) (topicTimeout : ℤ) :
    Transition.System World Action (Option Response) Fault where
  start := initial topicTimeout
  step w a := (act env a).run w

end Server

end PublisherSubscriber
