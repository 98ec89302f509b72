import PublisherSubscriber.Library.Slots
import PublisherSubscriber.Shared.Json
import PublisherSubscriber.Shared.Identifiers

/-!
# Arguments as members of an object

Commands and responses write their arguments by the same loop.
-/

namespace PublisherSubscriber

open CommunicationParameters

namespace Json

/-- One assignment by name for each argument. -/
def assignArguments (names : List CommunicationParameters) (values : List Text)
    (members : List (Text × Json)) : List (Text × Json) :=
  (names.zip values).foldl
    (fun root argument ↦
      assign (communicationParameterToStringDictionary argument.1) (.string argument.2) root)
    members

theorem assignArguments_cons (name : CommunicationParameters)
    (names : List CommunicationParameters) (value : Text) (values : List Text)
    (members : List (Text × Json)) :
    assignArguments (name :: names) (value :: values) members =
      assignArguments names values
        (assign (communicationParameterToStringDictionary name) (.string value) members) := rfl

variable {names : List CommunicationParameters} {values : List Text}

/-- Members that name none of the arguments are left alone. -/
theorem lookup_assignArguments_of_ne {key : Text}
    (hkey : ∀ name ∈ names, key ≠ communicationParameterToStringDictionary name)
    (members : List (Text × Json)) :
    (assignArguments names values members).lookup key = members.lookup key := by
  induction names generalizing values members with
  | nil => rfl
  | cons name names ih =>
      cases values with
      | nil => rfl
      | cons value values =>
          have hrest := fun other hother ↦ hkey other (List.mem_cons_of_mem name hother)
          rw [assignArguments_cons, ih hrest]
          exact lookup_assign_ne (hkey name (by simp)) _ _

theorem lookup_assignArguments (hnames : names.Nodup) (hlength : values.length = names.length)
    {name : CommunicationParameters} (hname : name ∈ names) (members : List (Text × Json)) :
    (assignArguments names values members).lookup (communicationParameterToStringDictionary name) =
      some (.string (Slots.read names values [] name)) := by
  induction names generalizing values members with
  | nil => exact absurd hname List.not_mem_nil
  | cons first names ih =>
      obtain ⟨hfirst, hnames⟩ := List.nodup_cons.mp hnames
      cases values with
      | nil => simp at hlength
      | cons value values =>
          rw [assignArguments_cons]
          by_cases heq : name = first
          · subst heq
            rw [Slots.read_cons_self, lookup_assignArguments_of_ne, lookup_assign_self]
            intro other hother hsame
            have := communicationParameterToStringDictionary_injective hsame
            exact hfirst (this ▸ hother)
          · rw [Slots.read_cons_ne (Ne.symm heq)]
            apply ih hnames (by simpa using hlength)
            exact (List.mem_cons.mp hname).resolve_left heq

/-- The names of the members are the names there were and those of the arguments. -/
theorem isSome_lookup_assignArguments (hnames : names.Nodup)
    (hlength : values.length = names.length) (members : List (Text × Json)) (key : Text) :
    ((assignArguments names values members).lookup key).isSome ↔
      (∃ name ∈ names, communicationParameterToStringDictionary name = key) ∨
        (members.lookup key).isSome := by
  by_cases hkey : ∃ name ∈ names, communicationParameterToStringDictionary name = key
  · obtain ⟨name, hname, rfl⟩ := hkey
    rw [lookup_assignArguments hnames hlength hname]
    exact iff_of_true rfl (Or.inl ⟨name, hname, rfl⟩)
  · have hne : ∀ name ∈ names, key ≠ communicationParameterToStringDictionary name :=
      fun name hname h ↦ hkey ⟨name, hname, h.symm⟩
    rw [lookup_assignArguments_of_ne hne]
    exact ⟨Or.inr, fun h ↦ h.resolve_left hkey⟩

end Json

end PublisherSubscriber
