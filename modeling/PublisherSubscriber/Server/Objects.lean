import PublisherSubscriber.Server.World

/-!
# The methods of `ClientConnection` and `Topic`

Every method takes the pointer it is called on and reads the object through
the heap, so calling it on a null or freed pointer is a fault.
-/

namespace PublisherSubscriber

open PointerHeap

namespace ClientConnection

def getAddress (this : Pointer) : ServerM Text := do
  return (← loadConnection this).address

def getPort (this : Pointer) : ServerM ℤ := do
  return (← loadConnection this).port

/-- The socket is neither closed here nor returned to anyone who could close it. -/
def sendMessage (env : Environment) (this : Pointer) (topicName message : Text)
    (timestamp : ℤ) : ServerM SendMessageCall := do
  let clientConnection ← loadConnection this
  let clientSocket ← socket env
  return ⟨clientConnection.address, clientConnection.port, topicName, message, timestamp,
    clientSocket⟩

end ClientConnection

namespace Topic

/-- The constructor reads the clock once for each of the two timestamps. -/
def construct (env : Environment) (name : Text) : ServerM Topic := do
  let messageTimestamp ← time env
  let timeoutTimestamp ← time env
  return {
    message := []
    topicName := name
    messageTimestamp := messageTimestamp
    subscriberList := []
    timeoutTimestamp := timeoutTimestamp }

def getTopicName (this : Pointer) : ServerM Text := do
  return (← loadTopic this).topicName

def getTimeoutTimestamp (this : Pointer) : ServerM ℤ := do
  return (← loadTopic this).timeoutTimestamp

def setTimeoutTimestamp (this : Pointer) (timestamp : ℤ) : ServerM Unit :=
  modifyTopic this fun t ↦ { t with timeoutTimestamp := timestamp }

def getMessageTimestamp (this : Pointer) : ServerM ℤ := do
  return (← loadTopic this).messageTimestamp

def getClientConnections (this : Pointer) : ServerM (List Pointer) := do
  return (← loadTopic this).subscriberList

def hasClientLoop (address : Text) (port : ℤ) : List Pointer → ServerM Bool
  | [] => return false
  | clientConnection :: rest => do
      let ownAddress ← ClientConnection.getAddress clientConnection
      let ownPort ← ClientConnection.getPort clientConnection
      if ownAddress = address ∧ ownPort = port then return true
      else hasClientLoop address port rest

def hasClient (this : Pointer) (address : Text) (port : ℤ) : ServerM Bool := do
  hasClientLoop address port (← loadTopic this).subscriberList

/-- The calls made, none of them while no message is stored. -/
def publishMessage (env : Environment) (this : Pointer) : ServerM (List SendMessageCall) := do
  let t ← loadTopic this
  if t.message = [] then return []
  else t.subscriberList.mapM fun clientConnection ↦
    ClientConnection.sendMessage env clientConnection t.topicName t.message t.messageTimestamp

def setMessage (env : Environment) (this : Pointer) (message : Text) : ServerM Bool := do
  modifyTopic this fun t ↦ { t with message := message }
  let messageTimestamp ← time env
  modifyTopic this fun t ↦ { t with messageTimestamp := messageTimestamp }
  let timeoutTimestamp ← time env
  modifyTopic this fun t ↦ { t with timeoutTimestamp := timeoutTimestamp }
  return true

def subscribe (this clientConnection : Pointer) : ServerM Bool := do
  let address ← ClientConnection.getAddress clientConnection
  let port ← ClientConnection.getPort clientConnection
  if ← hasClient this address port then return false
  else
    modifyTopic this fun t ↦ { t with subscriberList := t.subscriberList ++ [clientConnection] }
    return true

/-- The loop variable hides the parameter of the same name, so the test compares
a subscriber with itself. -/
def unsubscribeLoop (this : Pointer) : List Pointer → ServerM Bool
  | [] => return false
  | clientConnection :: rest => do
      let address ← ClientConnection.getAddress clientConnection
      let port ← ClientConnection.getPort clientConnection
      if address = address ∧ port = port then
        modifyTopic this fun t ↦
          { t with subscriberList := t.subscriberList.filter (· ≠ clientConnection) }
        return true
      else unsubscribeLoop this rest

def unsubscribe (this _clientConnection : Pointer) : ServerM Bool := do
  unsubscribeLoop this (← loadTopic this).subscriberList

end Topic

end PublisherSubscriber
