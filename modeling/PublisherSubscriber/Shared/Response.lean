import PublisherSubscriber.Shared.Arguments

/-!
# Responses

A response has the argument slots of its command.  Its status code is `none`
until it is assigned: the constructors leave the member uninitialised.
-/

namespace PublisherSubscriber

open CommunicationParameters

def responseDictionary : CommandIdentifiers → List CommunicationParameters
  | .subscribe => []
  | .unsubscribe => []
  | .publish => []
  | .listTopics => [topics]
  | .getTopicStatus => [messageTimestamp, subscribers]
  | .unnamed _ => []

structure Response where
  statusCode : Option Statuscode
  availableResponseArguments : List CommunicationParameters
  responseArguments : List Text
  deriving DecidableEq, Repr

namespace Response

/-- `Response(commandIdentifier)`. -/
def new (commandIdentifier : CommandIdentifiers) : Response where
  statusCode := none
  availableResponseArguments := responseDictionary commandIdentifier
  responseArguments := (responseDictionary commandIdentifier).map fun _ ↦ []

/-- `Response()`. -/
def default : Response := ⟨none, [], []⟩

/-- Returns false, and changes nothing, when the response has no such argument. -/
def setResponseArgument (r : Response) (argumentName : CommunicationParameters)
    (argumentValue : Text) : Bool × Response :=
  if argumentName ∈ r.availableResponseArguments then
    (true, { r with
      responseArguments := r.responseArguments.set
        (r.availableResponseArguments.idxOf argumentName) argumentValue })
  else (false, r)

/-- The list notation `[a,b,c]`. -/
def arrayString (argumentValue : List Text) : Text :=
  ascii "[" ++ List.intercalate (ascii ",") argumentValue ++ ascii "]"

/-- The overload for lists. -/
def setResponseArgumentList (r : Response) (argumentName : CommunicationParameters)
    (argumentValue : List Text) : Bool × Response :=
  r.setResponseArgument argumentName (arrayString argumentValue)

/-- The overload for `uint64_t`. -/
def setResponseArgumentUInt (r : Response) (argumentName : CommunicationParameters)
    (argumentValue : ℕ) : Bool × Response :=
  r.setResponseArgument argumentName (to_string argumentValue)

def getResponseArgument (r : Response) (argumentName : CommunicationParameters) :
    Except CppException Text :=
  if argumentName ∈ r.availableResponseArguments then
    .ok (r.responseArguments.getD (r.availableResponseArguments.idxOf argumentName) [])
  else .error (.runtimeError "Response argument does not exist")

def setStatusCode (r : Response) (statusCode : Statuscode) : Response :=
  { r with statusCode := some statusCode }

/-- The members of the serialized object.  An unassigned status code is whatever
`indeterminate` the memory holds. -/
def members (indeterminate : ℤ) (r : Response) : List (Text × Json) :=
  Json.assignArguments r.availableResponseArguments r.responseArguments
    (Json.assign (ascii "statusCode")
      (.int ((r.statusCode.map Statuscode.toInt).getD indeterminate)) [])

def serialize (library : JsonLibrary) (indeterminate : ℤ) (r : Response) : Text :=
  library.writeString (.ofMembers (r.members indeterminate))

/-- The loop that fills the argument slots from the members of `root`. -/
def readArguments (root : Json) : List CommunicationParameters → Response →
    Except CppException Response
  | [], r => .ok r
  | argument :: rest, r => do
      let value ← root.index (communicationParameterToStringDictionary argument)
      let text ← value.asString
      readArguments root rest (r.setResponseArgument argument text).2

/-- Only an `invalid_argument` is caught, and nothing in the loop throws one. -/
def readResponse (commandIdentifier : CommandIdentifiers) (root : Json) :
    Except CppException Response := do
  let statusCode ← root.index (ascii "statusCode")
  let code ← statusCode.asInt
  let response := (new commandIdentifier).setStatusCode (.ofInt code)
  readArguments root response.availableResponseArguments response

def deserialize (library : JsonLibrary) (commandIdentifier : CommandIdentifiers)
    (serializedResponse : Text) : Except CppException Response := do
  match ← library.parse serializedResponse with
  | none => .error (.runtimeError "Failed to parse JSON")
  | some root =>
      match readResponse commandIdentifier root with
      | .error (.invalidArgument _) => .error (.runtimeError "Invalid or missing arguments.")
      | result => result

/-! ## What the setters do -/

@[simp] theorem statusCode_setStatusCode (r : Response) (s : Statuscode) :
    (r.setStatusCode s).statusCode = some s := rfl

@[simp] theorem availableResponseArguments_setStatusCode (r : Response) (s : Statuscode) :
    (r.setStatusCode s).availableResponseArguments = r.availableResponseArguments := rfl

@[simp] theorem responseArguments_setStatusCode (r : Response) (s : Statuscode) :
    (r.setStatusCode s).responseArguments = r.responseArguments := rfl

theorem setResponseArgument_of_mem {r : Response} {argumentName : CommunicationParameters}
    (h : argumentName ∈ r.availableResponseArguments) (argumentValue : Text) :
    r.setResponseArgument argumentName argumentValue =
      (true, { r with
        responseArguments := r.responseArguments.set
          (r.availableResponseArguments.idxOf argumentName) argumentValue }) :=
  if_pos h

end Response

end PublisherSubscriber
