import PublisherSubscriber.Library.AssociativeMap
import PublisherSubscriber.Shared.Arguments

/-!
# Commands

The two tables of the decoder are maps that live as long as the process and
are read with a subscript, so decoding a text can add entries to them.
-/

namespace PublisherSubscriber

open CommunicationParameters

/-- A value-initialised enumerator. -/
instance : Inhabited CommunicationParameters := ⟨topicName⟩

structure Dictionaries where
  commandDictionary : AssociativeMap CommandIdentifiers (List CommunicationParameters)
  stringToCommunicationParameterDictionary : AssociativeMap Text CommunicationParameters
  deriving DecidableEq, Repr

namespace Dictionaries

/-- The tables of a process that has just started. -/
def initial : Dictionaries where
  commandDictionary := ⟨[
    (.subscribe, [topicName, clientPort]),
    (.unsubscribe, [topicName, clientPort]),
    (.publish, [topicName, message]),
    (.listTopics, []),
    (.getTopicStatus, [topicName])]⟩
  stringToCommunicationParameterDictionary := ⟨[
    (ascii "topicName", topicName),
    (ascii "clientPort", clientPort),
    (ascii "message", message),
    (ascii "topics", topics),
    (ascii "messageTimestamp", messageTimestamp),
    (ascii "subscribers", subscribers)]⟩

/-- The tables as started, and default entries besides. -/
structure Sound (d : Dictionaries) : Prop where
  commandDictionary : d.commandDictionary.Extends initial.commandDictionary
  stringToCommunicationParameterDictionary :
    d.stringToCommunicationParameterDictionary.Extends
      initial.stringToCommunicationParameterDictionary

theorem sound_initial : initial.Sound := ⟨.refl _, .refl _⟩

end Dictionaries

/-- Code that reads the tables and may throw; the entries it adds stay. -/
abbrev DecodeM := ExceptT CppException (StateM Dictionaries)

/-- `commandDictionary[commandIdentifier]`. -/
def argumentNames (commandIdentifier : CommandIdentifiers) :
    StateM Dictionaries (List CommunicationParameters) := fun d ↦
  let found := d.commandDictionary.subscript commandIdentifier
  (found.1, { d with commandDictionary := found.2 })

/-- `stringToCommunicationParameterDictionary[key]`. -/
def parameterOf (key : Text) : StateM Dictionaries CommunicationParameters := fun d ↦
  let found := d.stringToCommunicationParameterDictionary.subscript key
  (found.1, { d with stringToCommunicationParameterDictionary := found.2 })

structure Command where
  commandIdentifier : CommandIdentifiers
  availableCommandArguments : List CommunicationParameters
  commandArguments : List Text
  deriving DecidableEq, Repr

namespace Command

/-- `Command(commandIdentifier)`. -/
def new (commandIdentifier : CommandIdentifiers) : StateM Dictionaries Command := do
  let commandArgumentNames ← argumentNames commandIdentifier
  return ⟨commandIdentifier, commandArgumentNames, commandArgumentNames.map fun _ ↦ []⟩

/-- Returns false, and changes nothing, when the command has no such argument. -/
def setCommandArgument (c : Command) (argumentName : CommunicationParameters)
    (argumentValue : Text) : Bool × Command :=
  if argumentName ∈ c.availableCommandArguments then
    (true, { c with
      commandArguments := c.commandArguments.set
        (c.availableCommandArguments.idxOf argumentName) argumentValue })
  else (false, c)

def getCommandArgument (c : Command) (argumentName : CommunicationParameters) :
    Except CppException Text :=
  if argumentName ∈ c.availableCommandArguments then
    .ok (c.commandArguments.getD (c.availableCommandArguments.idxOf argumentName) [])
  else .error (.runtimeError "Command argument does not exist")

def isValid (c : Command) : Bool := c.commandArguments.all (· ≠ [])

/-- The members of the `arguments` object. -/
def argumentMembers (c : Command) : List (Text × Json) :=
  Json.assignArguments c.availableCommandArguments c.commandArguments []

/-- The value that is written; without arguments its `arguments` member is null. -/
def toJson (c : Command) : Json :=
  .ofMembers (Json.assign (ascii "arguments") (.ofMembers c.argumentMembers)
    (Json.assign (ascii "command") (.int c.commandIdentifier.toInt) []))

def serialize (library : JsonLibrary) (c : Command) : Except CppException Text :=
  if c.isValid then .ok (library.writeString c.toJson)
  else .error (.runtimeError "Not all arguments are set")

/-- The loop over the member names of `arguments`. -/
def setArguments (arguments : Json) : List Text → Command → DecodeM Command
  | [], c => return c
  | key :: keys, c => do
      let argumentName ← parameterOf key
      let argumentValue ← (← (arguments.index key : Except _ _)).asString
      let (set, c) := c.setCommandArgument argumentName argumentValue
      if set then setArguments arguments keys c
      else throw (.runtimeError "Failed to set command argument")

/-- What happens to a text that was parsed. -/
def readCommand (root : Json) : DecodeM Command := do
  let required ← (do
    if ← root.isMember (ascii "command") then root.isMember (ascii "arguments")
    else return false : Except _ _)
  if required then
    let command ← (root.index (ascii "command") : Except _ _)
    let command ← new (.ofInt (← command.asInt))
    let arguments ← (root.index (ascii "arguments") : Except _ _)
    let keys ← arguments.getMemberNames
    let command ← setArguments arguments keys command
    if command.isValid then return command
    else throw (.runtimeError "Command is not valid, there are missing arguments.")
  else throw (.runtimeError "Command does not have all required values")

def deserialize (library : JsonLibrary) (serializedCommand : Text) : DecodeM Command := do
  match ← (library.parse serializedCommand : Except _ _) with
  | none => throw (.runtimeError "Failed to parse JSON command")
  | some root => readCommand root

/-! ## What the setters do -/

/-- Every argument has one value. -/
structure WellFormed (c : Command) : Prop where
  nodup : c.availableCommandArguments.Nodup
  length : c.commandArguments.length = c.availableCommandArguments.length

/-- The value of an argument the command has. -/
def value (c : Command) (argumentName : CommunicationParameters) : Text :=
  Slots.read c.availableCommandArguments c.commandArguments [] argumentName

/-- Overwriting the value of an argument the command has. -/
def put (c : Command) (argumentName : CommunicationParameters) (argumentValue : Text) : Command :=
  { c with commandArguments :=
      Slots.write c.availableCommandArguments c.commandArguments argumentName argumentValue }

@[simp] theorem commandIdentifier_put (c : Command) (a : CommunicationParameters) (t : Text) :
    (c.put a t).commandIdentifier = c.commandIdentifier := rfl

@[simp] theorem availableCommandArguments_put (c : Command) (a : CommunicationParameters)
    (t : Text) : (c.put a t).availableCommandArguments = c.availableCommandArguments := rfl

section

variable {c : Command} {a : CommunicationParameters}

theorem setCommandArgument_of_mem (ha : a ∈ c.availableCommandArguments) (t : Text) :
    c.setCommandArgument a t = (true, c.put a t) := if_pos ha

theorem setCommandArgument_of_notMem (ha : a ∉ c.availableCommandArguments) (t : Text) :
    c.setCommandArgument a t = (false, c) := if_neg ha

theorem getCommandArgument_of_mem (ha : a ∈ c.availableCommandArguments) :
    c.getCommandArgument a = .ok (c.value a) := if_pos ha

theorem getCommandArgument_inv {t : Text} (h : c.getCommandArgument a = .ok t) :
    a ∈ c.availableCommandArguments ∧ c.value a = t := by
  by_cases ha : a ∈ c.availableCommandArguments
  · rw [getCommandArgument_of_mem ha] at h
    exact ⟨ha, Except.ok.inj h⟩
  · simp [getCommandArgument, ha] at h

theorem serialize_inv {library : JsonLibrary} {text : Text}
    (h : c.serialize library = .ok text) :
    c.isValid = true ∧ library.writeString c.toJson = text := by
  unfold serialize at h
  split_ifs at h with hvalid
  exact ⟨hvalid, Except.ok.inj h⟩

theorem WellFormed.put (hc : c.WellFormed) (a : CommunicationParameters) (t : Text) :
    (c.put a t).WellFormed :=
  ⟨hc.nodup, (Slots.length_write _ _ _ _).trans hc.length⟩

theorem value_put_self (hc : c.WellFormed) (ha : a ∈ c.availableCommandArguments) (t : Text) :
    (c.put a t).value a = t :=
  Slots.read_write_self hc.length ha t

theorem value_put_ne (ha : a ∈ c.availableCommandArguments) {b : CommunicationParameters}
    (hne : b ≠ a) (t : Text) : (c.put a t).value b = c.value b :=
  Slots.read_write_ne ha hne t

/-- A command is valid when none of its arguments is empty. -/
theorem isValid_iff (hc : c.WellFormed) :
    c.isValid = true ↔ ∀ a ∈ c.availableCommandArguments, c.value a ≠ [] := by
  have hslots := Slots.forall_mem_values (p := (· ≠ [])) (d := []) hc.nodup hc.length
  simpa [isValid, value] using hslots

theorem WellFormed.ext {c' : Command} (hc : c.WellFormed) (hc' : c'.WellFormed)
    (hidentifier : c.commandIdentifier = c'.commandIdentifier)
    (havailable : c.availableCommandArguments = c'.availableCommandArguments)
    (hvalue : ∀ a ∈ c.availableCommandArguments, c.value a = c'.value a) : c = c' := by
  have hlength : c'.commandArguments.length = c.availableCommandArguments.length := by
    rw [havailable]
    exact hc'.length
  have hvalues : c.commandArguments = c'.commandArguments := by
    apply Slots.values_ext (d := []) hc.nodup hc.length hlength
    intro a ha
    have hsame := hvalue a ha
    rw [value, value, ← havailable] at hsame
    exact hsame
  cases c
  cases c'
  simp_all

end

end Command

end PublisherSubscriber
