import PublisherSubscriber.Broker.Service
import PublisherSubscriber.Shared.Interface

/-!
# Which requests the server takes

The server keeps to the interface description except for the values that the
decoder tolerates: the tables invent an entry for an unknown name, the number
of a command is cast without a check, and other types are converted.
-/

namespace PublisherSubscriber

open CommunicationParameters

/-- A documented request is decoded to the values it gives under the very names;
any other value is answered with an internal error and reaches no handler. -/
structure KeepsToInterface (env : Environment) (library : JsonLibrary)
    (clientIpAddress received : Text) (p : Process) (v : Json) : Prop where
  accepted : ∀ commandIdentifier arguments, Command.Documented v commandIdentifier arguments →
    ∃ c d', (Command.deserialize library received).run.run p.dictionaries = (.ok c, d') ∧
      c.commandIdentifier = commandIdentifier ∧
      ∀ a ∈ Command.documentedNames commandIdentifier, ∀ t,
        arguments.lookup (communicationParameterToStringDictionary a) = some (.string t) →
          c.getCommandArgument a = .ok t
  rejected : (¬ ∃ commandIdentifier arguments, Command.Documented v commandIdentifier arguments) →
    ∃ e d', (Command.deserialize library received).run.run p.dictionaries = (.error e, d') ∧
      (Server.answer env library clientIpAddress received).run p =
        .ok (Server.rejection, { p with dictionaries := d' })

/-- In every reachable state the server keeps to the interface for exactly the
values that are not tolerated. -/
theorem keepsToInterface_iff (env : Environment) (library : JsonLibrary)
    (indeterminate topicTimeout : ℤ) {p : Process}
    (hp : (Process.system env library indeterminate topicTimeout).Reachable p)
    {received : Text} {v : Json} (hparse : library.parse received = .ok (some v))
    (clientIpAddress : Text) :
    KeepsToInterface env library clientIpAddress received p v ↔ ¬ Command.Tolerated v := by
  have hsound := Process.sound_of_reachable hp
  obtain ⟨d', hdeserialize, -, hanswer⟩ :=
    Server.run_answer env library clientIpAddress received hsound.dictionaries
  have htext : Command.decodeText library received = Command.decode v := by
    rw [Command.decodeText, hparse]
    rfl
  rw [htext] at hdeserialize
  constructor
  · intro hkeeps htolerated
    obtain ⟨haccepts, hundocumented⟩ := (Command.tolerated_iff v).mp htolerated
    obtain ⟨c, hc⟩ := (Command.decode_eq_ok_iff v).mpr haccepts
    obtain ⟨e, d'', herror, -⟩ := hkeeps.rejected hundocumented
    rw [hdeserialize, hc] at herror
    cases (Prod.mk.inj herror).1
  · intro hnot
    refine ⟨fun commandIdentifier arguments hdocumented ↦ ?_, fun hundocumented ↦ ?_⟩
    · refine ⟨_, d', by rw [hdeserialize, hdocumented.decode],
        Command.commandIdentifier_filled, fun a ha t ht ↦ ?_⟩
      have hmem : a ∈
          (Command.filled commandIdentifier arguments).availableCommandArguments := by
        rwa [Command.availableCommandArguments_filled, Command.namesOf_eq_documentedNames]
      rw [Command.getCommandArgument_of_mem hmem, hdocumented.value_filled ha ht]
    · cases hdecode : Command.decode v with
      | ok c =>
          have haccepts := (Command.decode_eq_ok_iff v).mp ⟨c, hdecode⟩
          exact (hnot ((Command.tolerated_iff v).mpr ⟨haccepts, hundocumented⟩)).elim
      | error e =>
          refine ⟨e, d', by rw [hdeserialize, hdecode], ?_⟩
          rw [hanswer, Server.requestOf, htext, hdecode]
          rfl

/-- A documented request, after one that left an unknown name in the tables. -/
theorem keepsToInterface_after_unknown_name :
    let odd := Json.object [(ascii "arguments", .object [(ascii "foo", .string (ascii "x"))]),
      (ascii "command", .int 4)]
    let named := Json.object [(ascii "topicName", .string (ascii "news"))]
    let v := Json.object [(ascii "arguments", named), (ascii "command", .int 4)]
    let library := JsonLibrary.ofValues [odd, v]
    let p := (Process.system .steady library 7 10).final [
      .connection (ascii "127.0.0.1") (some odd.compact) fun text ↦ text.length]
    p.dictionaries ≠ Dictionaries.initial ∧
      KeepsToInterface .steady library (ascii "127.0.0.1") v.compact p v := by
  intro odd named v library p
  refine ⟨by decide +kernel, ?_⟩
  have hback : library.ReadsBack v :=
    JsonLibrary.readsBack_ofValues_of_nodup (by decide +kernel) (by simp)
  apply (keepsToInterface_iff .steady library 7 10
    (Transition.System.reachable_final _ _) hback (ascii "127.0.0.1")).mpr
  rintro ⟨command, arguments, n, hrequest, hint, -, hirregular⟩
  have hgiven : v.IsRequest (.int 4) [(ascii "topicName", .string (ascii "news"))] :=
    ⟨_, named, rfl, by rfl, by rfl, rfl⟩
  obtain ⟨rfl, rfl⟩ := hrequest.unique hgiven
  cases hirregular with
  | command h => exact h 4 rfl
  | number hint' h =>
      obtain rfl := (show Json.IsInteger 4 (.int 4) from rfl).eq_of_asInt hint'
      exact h trivial
  | name hkey h =>
      obtain rfl := List.mem_singleton.mp hkey
      exact h topicName rfl
  | value hkey h =>
      obtain rfl := List.mem_singleton.mp hkey
      exact h (ascii "news") (by rfl)

/-- The status of the topic `x` is asked for under a name that no parameter has. -/
theorem unknown_name_is_taken_for_topicName :
    let v := Json.object [(ascii "arguments", .object [(ascii "foo", .string (ascii "x"))]),
      (ascii "command", .int 4)]
    ((Command.deserialize (.ofValues [v]) v.compact).run.run Dictionaries.initial).1 =
        .ok ⟨.getTopicStatus, [topicName], [ascii "x"]⟩ ∧
      ¬ KeepsToInterface .steady (.ofValues [v]) (ascii "10.0.0.1") v.compact
        (Process.initial 10) v := by
  intro v
  have hdecoded : ((Command.deserialize (.ofValues [v]) v.compact).run.run
      Dictionaries.initial).1 = .ok ⟨.getTopicStatus, [topicName], [ascii "x"]⟩ := by
    decide +kernel
  refine ⟨hdecoded, fun hkeeps ↦ ?_⟩
  have hundocumented : ¬ ∃ commandIdentifier arguments,
      Command.Documented v commandIdentifier arguments := by
    rintro ⟨commandIdentifier, arguments, hdocumented⟩
    obtain ⟨command, hrequest, -⟩ := hdocumented.request
    have hgiven : v.IsRequest (.int 4) [(ascii "foo", .string (ascii "x"))] :=
      ⟨_, .object [(ascii "foo", .string (ascii "x"))], rfl, by rfl, by rfl, rfl⟩
    obtain ⟨rfl, rfl⟩ := hrequest.unique hgiven
    obtain ⟨a, -, ha⟩ := (hdocumented.names (ascii "foo")).mp (by simp)
    revert ha
    cases a <;> decide
  obtain ⟨e, d', herror, -⟩ := hkeeps.rejected hundocumented
  have hfirst := congrArg Prod.fst herror
  have hsame := hdecoded.symm.trans hfirst
  cases hsame

end PublisherSubscriber
