import PublisherSubscriber.Shared.Command

/-!
# What the decoder computes

With sound tables a text decodes as it does in a process that has just
started, and the tables stay sound.  `decode` is that history-free decoder.
-/

namespace PublisherSubscriber

open CommunicationParameters

namespace Command

/-- The names a fresh command of that identifier has; none without an entry. -/
def namesOf (commandIdentifier : CommandIdentifiers) : List CommunicationParameters :=
  (Dictionaries.initial.commandDictionary.subscript commandIdentifier).1

/-- The parameter a member name stands for; an unknown name stands for the default. -/
def parameterNamed (key : Text) : CommunicationParameters :=
  (Dictionaries.initial.stringToCommunicationParameterDictionary.subscript key).1

/-- `Command(commandIdentifier)` with the tables as started. -/
def fresh (commandIdentifier : CommandIdentifiers) : Command :=
  ⟨commandIdentifier, namesOf commandIdentifier, (namesOf commandIdentifier).map fun _ ↦ []⟩

def setAll (arguments : Json) : List Text → Command → Except CppException Command
  | [], c => .ok c
  | key :: keys, c =>
      (arguments.index key).bind fun value ↦ value.asString.bind fun argumentValue ↦
        if (c.setCommandArgument (parameterNamed key) argumentValue).1 then
          setAll arguments keys (c.setCommandArgument (parameterNamed key) argumentValue).2
        else .error (.runtimeError "Failed to set command argument")

def decodeArguments (commandIdentifier : CommandIdentifiers) (arguments : Json) :
    Except CppException Command :=
  arguments.getMemberNames.bind fun keys ↦
    (setAll arguments keys (fresh commandIdentifier)).bind fun command ↦
      if command.isValid then .ok command
      else .error (.runtimeError "Command is not valid, there are missing arguments.")

def hasRequired (root : Json) : Except CppException Bool :=
  (root.isMember (ascii "command")).bind fun found ↦
    if found then root.isMember (ascii "arguments") else .ok false

def decode (root : Json) : Except CppException Command :=
  (hasRequired root).bind fun required ↦
    if required then
      (root.index (ascii "command")).bind fun command ↦ command.asInt.bind fun n ↦
        (root.index (ascii "arguments")).bind fun arguments ↦
          decodeArguments (.ofInt n) arguments
    else .error (.runtimeError "Command does not have all required values")

def decodeText (library : JsonLibrary) (serializedCommand : Text) : Except CppException Command :=
  (library.parse serializedCommand).bind fun
    | none => .error (.runtimeError "Failed to parse JSON command")
    | some root => decode root

theorem decodeText_inv {library : JsonLibrary} {serializedCommand : Text} {c : Command}
    (h : decodeText library serializedCommand = .ok c) :
    ∃ v, library.parse serializedCommand = .ok (some v) ∧ decode v = .ok c := by
  obtain ⟨parsed, hparse, h⟩ := of_bind_eq_ok h
  cases parsed with
  | none => cases h
  | some v => exact ⟨v, hparse, h⟩

/-! ## The tables make no difference -/

/-- With these tables the computation answers `result`, and leaves sound tables. -/
def Yields {α : Type} (x : DecodeM α) (d : Dictionaries) (result : Except CppException α) : Prop :=
  ∃ d', x.run.run d = (result, d') ∧ d'.Sound

section

variable {α β : Type} {d : Dictionaries}

theorem Yields.bind {x : DecodeM α} {f : α → DecodeM β} {result : Except CppException α}
    {g : α → Except CppException β} (hx : Yields x d result)
    (hf : ∀ a d', d'.Sound → Yields (f a) d' (g a)) : Yields (x >>= f) d (result.bind g) := by
  obtain ⟨d', hrun, hd'⟩ := hx
  cases result with
  | error e =>
      refine ⟨d', ?_, hd'⟩
      simp only [ExceptT.run_bind, StateT.run_bind, hrun]
      rfl
  | ok a =>
      obtain ⟨d'', hrun', hd''⟩ := hf a d' hd'
      refine ⟨d'', ?_, hd''⟩
      simp only [ExceptT.run_bind, StateT.run_bind, hrun]
      exact hrun'

theorem Yields.lift (hd : d.Sound) (x : Except CppException α) : Yields (liftM x) d x := by
  cases x <;> exact ⟨d, rfl, hd⟩

theorem Yields.ok (hd : d.Sound) (a : α) : Yields (pure a) d (.ok a) := ⟨d, rfl, hd⟩

theorem Yields.throw (hd : d.Sound) (e : CppException) :
    Yields (throw e : DecodeM α) d (.error e) := ⟨d, rfl, hd⟩

theorem yields_parameterOf (hd : d.Sound) (key : Text) :
    Yields (liftM (parameterOf key)) d (.ok (parameterNamed key)) := by
  have hsame := hd.stringToCommunicationParameterDictionary.subscript_fst key
  refine ⟨{ d with stringToCommunicationParameterDictionary :=
    (d.stringToCommunicationParameterDictionary.subscript key).2 }, ?_, hd.commandDictionary,
    hd.stringToCommunicationParameterDictionary.subscript_snd key⟩
  rw [parameterNamed, ← hsame]
  rfl

theorem run_new (hd : d.Sound) (commandIdentifier : CommandIdentifiers) :
    ∃ d', (new commandIdentifier).run d = (fresh commandIdentifier, d') ∧ d'.Sound := by
  have hsame := hd.commandDictionary.subscript_fst commandIdentifier
  refine ⟨{ d with commandDictionary := (d.commandDictionary.subscript commandIdentifier).2 }, ?_,
    hd.commandDictionary.subscript_snd commandIdentifier,
    hd.stringToCommunicationParameterDictionary⟩
  rw [fresh, namesOf, ← hsame]
  rfl

theorem yields_new (hd : d.Sound) (commandIdentifier : CommandIdentifiers) :
    Yields (liftM (new commandIdentifier)) d (.ok (fresh commandIdentifier)) := by
  obtain ⟨d', hrun, hd'⟩ := run_new hd commandIdentifier
  refine ⟨d', ?_, hd'⟩
  have hlift : (liftM (new commandIdentifier) : DecodeM Command).run.run d =
      (.ok ((new commandIdentifier).run d).1, ((new commandIdentifier).run d).2) := rfl
  rw [hlift, hrun]

theorem yields_setArguments (hd : d.Sound) (arguments : Json) (keys : List Text) (c : Command) :
    Yields (setArguments arguments keys c) d (setAll arguments keys c) := by
  induction keys generalizing d c with
  | nil => exact .ok hd c
  | cons key keys ih =>
      refine (yields_parameterOf hd key).bind (g := fun argumentName ↦
        (arguments.index key).bind fun value ↦ value.asString.bind fun argumentValue ↦
          if (c.setCommandArgument argumentName argumentValue).1 then
            setAll arguments keys (c.setCommandArgument argumentName argumentValue).2
          else .error (.runtimeError "Failed to set command argument")) ?_
      intro argumentName d₁ hd₁
      refine (Yields.lift hd₁ _).bind fun value d₂ hd₂ ↦ ?_
      refine (Yields.lift hd₂ _).bind fun argumentValue d₃ hd₃ ↦ ?_
      obtain ⟨set, c'⟩ := c.setCommandArgument argumentName argumentValue
      dsimp only
      split_ifs
      · exact ih hd₃ c'
      · exact .throw hd₃ _

theorem yields_readCommand (hd : d.Sound) (root : Json) :
    Yields (readCommand root) d (decode root) := by
  refine (Yields.lift hd (hasRequired root)).bind fun required d₁ hd₁ ↦ ?_
  split_ifs
  · refine (Yields.lift hd₁ _).bind fun command d₂ hd₂ ↦ ?_
    refine (Yields.lift hd₂ _).bind fun n d₃ hd₃ ↦ ?_
    refine (yields_new hd₃ (.ofInt n)).bind (g := fun c ↦
      (root.index (ascii "arguments")).bind fun arguments ↦
        arguments.getMemberNames.bind fun keys ↦
          (setAll arguments keys c).bind fun command ↦
            if command.isValid then .ok command
            else .error (.runtimeError "Command is not valid, there are missing arguments.")) ?_
    intro c d₄ hd₄
    refine (Yields.lift hd₄ _).bind fun arguments d₅ hd₅ ↦ ?_
    refine (Yields.lift hd₅ _).bind fun keys d₆ hd₆ ↦ ?_
    refine (yields_setArguments hd₆ arguments keys c).bind fun command d₇ hd₇ ↦ ?_
    split_ifs
    · exact .ok hd₇ _
    · exact .throw hd₇ _
  · exact .throw hd₁ _

/-- Decoding a text, with any sound tables. -/
theorem yields_deserialize (hd : d.Sound) (library : JsonLibrary) (serializedCommand : Text) :
    Yields (deserialize library serializedCommand) d (decodeText library serializedCommand) := by
  refine (Yields.lift hd _).bind fun parsed d₁ hd₁ ↦ ?_
  cases parsed with
  | none => exact .throw hd₁ _
  | some root => exact yields_readCommand hd₁ root

end

end Command

end PublisherSubscriber
