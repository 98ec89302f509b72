import PublisherSubscriber.Shared.Format

/-!
# The interface description of a client request

The documented requests are accepted and decoded as they are meant.  The other
values that are accepted differ from a documented one in one of four ways.
-/

namespace PublisherSubscriber

open CommunicationParameters

namespace Command

/-- The argument names in the table of the interface description. -/
def documentedNames : CommandIdentifiers → List CommunicationParameters
  | .subscribe => [topicName, clientPort]
  | .unsubscribe => [topicName, clientPort]
  | .publish => [topicName, message]
  | .listTopics => []
  | .getTopicStatus => [topicName]
  | .unnamed _ => []

/-- A request as documented: the number of a command, and exactly the arguments
of that command, each of them a string with something in it. -/
structure Documented (v : Json) (commandIdentifier : CommandIdentifiers)
    (arguments : List (Text × Json)) : Prop where
  named : commandIdentifier.IsNamed
  request : ∃ command, v.IsRequest command arguments ∧ command.IsInteger commandIdentifier.toInt
  names : ∀ key, key ∈ arguments.map Prod.fst ↔
    ∃ a ∈ documentedNames commandIdentifier, communicationParameterToStringDictionary a = key
  strings : ∀ a ∈ documentedNames commandIdentifier, ∃ t, t ≠ [] ∧
    arguments.lookup (communicationParameterToStringDictionary a) = some (.string t)

/-- Where a value that is accepted is none of the documented ones. -/
inductive Irregular (command : Json) (arguments : List (Text × Json)) : Prop
  /-- The command is null, a boolean or a floating-point number. -/
  | command (h : ∀ n, ¬ command.IsInteger n)
  /-- The number is that of no command. -/
  | number {n : ℤ} (hint : command.asInt = .ok n) (h : ¬ (CommandIdentifiers.ofInt n).IsNamed)
  /-- A member has a name that is no parameter's. -/
  | name {key : Text} (hkey : key ∈ arguments.map Prod.fst)
      (h : ∀ a, communicationParameterToStringDictionary a ≠ key)
  /-- A member is null, a boolean or a number. -/
  | value {key : Text} (hkey : key ∈ arguments.map Prod.fst)
      (h : ∀ t, arguments.lookup key ≠ some (.string t))

/-- The values that are decoded although they are not documented. -/
def Tolerated (v : Json) : Prop :=
  ∃ command arguments n, v.IsRequest command arguments ∧ command.asInt = .ok n ∧
    Fills (.ofInt n) arguments ∧ Irregular command arguments

theorem namesOf_eq_documentedNames (commandIdentifier : CommandIdentifiers) :
    namesOf commandIdentifier = documentedNames commandIdentifier := by
  cases commandIdentifier <;> rfl

theorem parameterNamed_dictionary (a : CommunicationParameters) :
    parameterNamed (communicationParameterToStringDictionary a) = a := by
  cases a <;> decide

section

variable {v command : Json} {commandIdentifier : CommandIdentifiers}
  {arguments : List (Text × Json)}

/-- A documented request has a text for each argument and for nothing else. -/
theorem Documented.fills (h : Documented v commandIdentifier arguments) :
    Fills commandIdentifier arguments := by
  have hstands : ∀ key ∈ arguments.map Prod.fst, ∃ a ∈ documentedNames commandIdentifier,
      communicationParameterToStringDictionary a = key := fun key hkey ↦ (h.names key).mp hkey
  refine ⟨fun key hkey ↦ ?_, fun key hkey ↦ ?_, fun a ha ↦ ?_⟩
  · obtain ⟨a, ha, rfl⟩ := hstands key hkey
    rwa [parameterNamed_dictionary, namesOf_eq_documentedNames]
  · obtain ⟨a, ha, rfl⟩ := hstands key hkey
    obtain ⟨t, -, ht⟩ := h.strings a ha
    exact ⟨t, by rw [Json.textAt, ht]; rfl⟩
  · rw [namesOf_eq_documentedNames] at ha
    obtain ⟨t, hne, ht⟩ := h.strings a ha
    have hmem := (h.names _).mpr ⟨a, ha, rfl⟩
    obtain ⟨key, hlast⟩ := exists_lastKey hmem
    rw [parameterNamed_dictionary] at hlast
    obtain ⟨hkey, hstand⟩ := lastKey_eq_some hlast
    obtain ⟨b, -, rfl⟩ := hstands key hkey
    rw [parameterNamed_dictionary] at hstand
    subst hstand
    exact ⟨_, t, hlast, by rw [Json.textAt, ht]; rfl, hne⟩

theorem Documented.value_filled (h : Documented v commandIdentifier arguments)
    {a : CommunicationParameters} (ha : a ∈ documentedNames commandIdentifier) {t : Text}
    (ht : arguments.lookup (communicationParameterToStringDictionary a) = some (.string t)) :
    (filled commandIdentifier arguments).value a = t := by
  have hnames := h.fills.names
  have ha' : a ∈ namesOf commandIdentifier := by rwa [namesOf_eq_documentedNames]
  obtain ⟨key, -, hlast, -, -⟩ := h.fills.values a ha'
  obtain ⟨hkey, hstand⟩ := lastKey_eq_some hlast
  obtain ⟨b, -, rfl⟩ := (h.names key).mp hkey
  rw [parameterNamed_dictionary] at hstand
  subst hstand
  have htext : Json.textAt arguments (communicationParameterToStringDictionary b) = .ok t := by
    rw [Json.textAt, ht]
    rfl
  rw [Command.value_filled hnames ha', hlast]
  exact storedText_eq htext

/-- Every documented request is decoded as it is meant. -/
theorem Documented.decode (h : Documented v commandIdentifier arguments) :
    decode v = .ok (filled commandIdentifier arguments) := by
  obtain ⟨command, hrequest, hinteger⟩ := h.request
  obtain ⟨hlower, hupper⟩ := CommandIdentifiers.toInt_bounds h.named
  have hint := hinteger.asInt hlower hupper
  have hsame := CommandIdentifiers.ofInt_toInt h.named
  rw [← hsame] at h ⊢
  exact decode_of_isRequest hrequest hint h.fills

theorem Documented.not_irregular (h : Documented v commandIdentifier arguments)
    (hrequest : v.IsRequest command arguments) : ¬ Irregular command arguments := by
  obtain ⟨command', hrequest', hinteger⟩ := h.request
  obtain ⟨rfl, -⟩ := hrequest.unique hrequest'
  intro hirregular
  cases hirregular with
  | command hnone => exact hnone _ hinteger
  | number hint hunnamed =>
      have hn := hinteger.eq_of_asInt hint
      rw [← hn, CommandIdentifiers.ofInt_toInt h.named] at hunnamed
      exact hunnamed h.named
  | name hkey hnone =>
      obtain ⟨a, -, ha⟩ := (h.names _).mp hkey
      exact hnone a ha
  | value hkey hnone =>
      obtain ⟨a, ha, rfl⟩ := (h.names _).mp hkey
      obtain ⟨t, -, ht⟩ := h.strings a ha
      exact hnone t ht

/-- A value that is accepted without irregularity is documented. -/
theorem documented_of_accepted {n : ℤ} (hrequest : v.IsRequest command arguments)
    (hint : command.asInt = .ok n) (hfills : Fills (.ofInt n) arguments)
    (hregular : ¬ Irregular command arguments) : Documented v (.ofInt n) arguments := by
  have hnamed : (CommandIdentifiers.ofInt n).IsNamed := by
    by_contra hunnamed
    exact hregular (.number hint hunnamed)
  have hparameter : ∀ key ∈ arguments.map Prod.fst, ∃ a ∈ documentedNames (.ofInt n),
      communicationParameterToStringDictionary a = key := by
    intro key hkey
    obtain ⟨a, ha⟩ : ∃ a, communicationParameterToStringDictionary a = key := by
      by_contra hnone
      exact hregular (.name hkey fun a ha ↦ hnone ⟨a, ha⟩)
    have hmem := hfills.names key hkey
    rw [← ha, parameterNamed_dictionary, namesOf_eq_documentedNames] at hmem
    exact ⟨a, hmem, ha⟩
  have hlast : ∀ a ∈ documentedNames (.ofInt n), ∃ t,
      communicationParameterToStringDictionary a ∈ arguments.map Prod.fst ∧ t ≠ [] ∧
        Json.textAt arguments (communicationParameterToStringDictionary a) = .ok t := by
    intro a ha
    rw [← namesOf_eq_documentedNames] at ha
    obtain ⟨key, t, hkey, ht, hne⟩ := hfills.values a ha
    obtain ⟨hmem, hstand⟩ := lastKey_eq_some hkey
    obtain ⟨b, -, rfl⟩ := hparameter key hmem
    rw [parameterNamed_dictionary] at hstand
    subst hstand
    exact ⟨t, hmem, hne, ht⟩
  refine ⟨hnamed, ⟨command, hrequest, ?_⟩, fun key ↦ ⟨hparameter key, ?_⟩, fun a ha ↦ ?_⟩
  · obtain ⟨m, hm⟩ : ∃ m, command.IsInteger m := by
      by_contra hnone
      exact hregular (.command fun m hm ↦ hnone ⟨m, hm⟩)
    obtain rfl := hm.eq_of_asInt hint
    rwa [CommandIdentifiers.toInt_ofInt]
  · rintro ⟨a, ha, rfl⟩
    exact (hlast a ha).choose_spec.1
  · obtain ⟨t, hmem, hne, ht⟩ := hlast a ha
    obtain ⟨t', ht'⟩ : ∃ t', arguments.lookup (communicationParameterToStringDictionary a) =
        some (.string t') := by
      by_contra hnone
      exact hregular (.value hmem fun t' ht' ↦ hnone ⟨t', ht'⟩)
    rw [Json.textAt, ht'] at ht
    obtain rfl : t' = t := Except.ok.inj ht
    exact ⟨t', hne, ht'⟩

end

/-- What is accepted is documented or tolerated, and never both. -/
theorem tolerated_iff (v : Json) :
    Tolerated v ↔ Accepts v ∧ ¬ ∃ commandIdentifier arguments,
      Documented v commandIdentifier arguments := by
  constructor
  · rintro ⟨command, arguments, n, hrequest, hint, hfills, hirregular⟩
    refine ⟨⟨command, arguments, n, hrequest, hint, hfills⟩, ?_⟩
    rintro ⟨commandIdentifier, arguments', hdocumented⟩
    obtain ⟨command', hrequest', -⟩ := hdocumented.request
    obtain ⟨-, rfl⟩ := hrequest.unique hrequest'
    exact hdocumented.not_irregular hrequest hirregular
  · rintro ⟨⟨command, arguments, n, hrequest, hint, hfills⟩, hundocumented⟩
    refine ⟨command, arguments, n, hrequest, hint, hfills, ?_⟩
    by_contra hregular
    exact hundocumented ⟨_, _, documented_of_accepted hrequest hint hfills hregular⟩

end Command

end PublisherSubscriber
