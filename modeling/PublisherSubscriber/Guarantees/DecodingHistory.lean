import PublisherSubscriber.Broker.Service

/-!
# Decoding does not depend on what was decoded before

Every text may leave entries in the two tables, also one that is rejected
halfway.  None of these entries changes how a later text is read.
-/

namespace PublisherSubscriber

namespace Command

/-- The tables after these texts have been decoded. -/
def tablesAfter (library : JsonLibrary) (texts : List Text) (d : Dictionaries) : Dictionaries :=
  texts.foldl (fun d text ↦ ((deserialize library text).run.run d).2) d

variable {library : JsonLibrary} {d : Dictionaries}

theorem sound_tablesAfter (hd : d.Sound) (texts : List Text) :
    (tablesAfter library texts d).Sound := by
  induction texts generalizing d with
  | nil => exact hd
  | cons text texts ih =>
      obtain ⟨d', hrun, hd'⟩ := yields_deserialize hd library text
      have htables : tablesAfter library (text :: texts) d = tablesAfter library texts d' := by
        rw [tablesAfter, List.foldl_cons, hrun]
        rfl
      rw [htables]
      exact ih hd'

theorem outcome_of_sound (hd : d.Sound) (text : Text) :
    ((deserialize library text).run.run d).1 =
      ((deserialize library text).run.run Dictionaries.initial).1 := by
  obtain ⟨d', hrun, -⟩ := yields_deserialize hd library text
  obtain ⟨d'', hfresh, -⟩ := yields_deserialize Dictionaries.sound_initial library text
  rw [hrun, hfresh]

end Command

/-- Whatever texts came before, a text is decoded as in a server that has just started. -/
theorem decoding_independent_of_history (library : JsonLibrary) (earlier : List Text)
    (text : Text) :
    ((Command.deserialize library text).run.run
        (Command.tablesAfter library earlier Dictionaries.initial)).1 =
      ((Command.deserialize library text).run.run Dictionaries.initial).1 :=
  Command.outcome_of_sound (Command.sound_tablesAfter Dictionaries.sound_initial earlier) text

/-- The same in every state that the server reaches. -/
theorem Process.decoding_of_reachable {env : Environment} {library : JsonLibrary}
    {indeterminate topicTimeout : ℤ} {p : Process}
    (hp : (Process.system env library indeterminate topicTimeout).Reachable p) (text : Text) :
    ((Command.deserialize library text).run.run p.dictionaries).1 =
      ((Command.deserialize library text).run.run Dictionaries.initial).1 :=
  Command.outcome_of_sound (Process.sound_of_reachable hp).dictionaries text

end PublisherSubscriber
