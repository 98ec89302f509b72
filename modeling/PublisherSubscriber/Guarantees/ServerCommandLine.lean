import PublisherSubscriber.Server.Main
import Mathlib.Data.List.Basic

/-!
# The command lines of the server

Exactly the sequences of valid options start a server, and of several options of
one kind the last one counts.  Any other line fails at its first word that does
not fit.
-/

namespace PublisherSubscriber

/-- A keyword with a value that is accepted. -/
inductive ServerOption
  | port (word : Text) (port : ℤ) (number : stoi word = .ok port)
      (range : 0 ≤ port ∧ port ≤ 65535)
  | topicTimeout (word : Text) (topicTimeout : ℤ) (number : stoi word = .ok topicTimeout)
  | debug

namespace ServerOption

def written : ServerOption → List Text
  | port word _ _ _ => [ascii "--port", word]
  | topicTimeout word _ _ => [ascii "--topic-timeout", word]
  | debug => [ascii "--debug"]

/-- The words of a line that consists of these options. -/
def writtenAll (os : List ServerOption) : List Text := os.flatMap written

def apply (settings : ServerSettings) : ServerOption → ServerSettings
  | port _ n _ _ => { settings with port := n }
  | topicTimeout _ n _ => { settings with topicTimeout := n }
  | debug => { settings with debug := true }

end ServerOption

namespace ServerSettings

open ServerOption

def keywords : List Text :=
  [ascii "--help", ascii "--port", ascii "--topic-timeout", ascii "--debug"]

/-- What is in front of words at which `main` ends, and how it ends there. -/
inductive Stops : List Text → Exit → Prop
  | help (following : List Text) : Stops (ascii "--help" :: following) .help
  | port {following : List Text} (h : nextNumber following = none) :
      Stops (ascii "--port" :: following) (.failure (ascii "--port musst be a number."))
  | range {following : List Text} {port : ℤ} (h : nextNumber following = some port)
      (hrange : port < 0 ∨ port > 65535) :
      Stops (ascii "--port" :: following)
        (.failure (ascii "--port musst be in range 0-65535."))
  | topicTimeout {following : List Text} (h : nextNumber following = none) :
      Stops (ascii "--topic-timeout" :: following)
        (.failure (ascii "--topic-timeout musst be a number."))
  | unknown {arg : Text} (h : arg ∉ keywords) (following : List Text) :
      Stops (arg :: following) (.failure (ascii "Invalid arguments: "))

theorem keywords_ne : ascii "--port" ≠ ascii "--help" ∧ ascii "--topic-timeout" ≠ ascii "--help" ∧
    ascii "--topic-timeout" ≠ ascii "--port" ∧ ascii "--debug" ≠ ascii "--help" ∧
    ascii "--debug" ≠ ascii "--port" ∧ ascii "--debug" ≠ ascii "--topic-timeout" := by
  decide

theorem nextNumber_eq_some {following : List Text} {n : ℤ} (h : nextNumber following = some n) :
    ∃ word rest, following = word :: rest ∧ stoi word = .ok n := by
  cases following with
  | nil => cases h
  | cons word rest =>
      refine ⟨word, rest, rfl, ?_⟩
      rw [nextNumber] at h
      cases hword : stoi word with
      | error e =>
          rw [hword] at h
          cases h
      | ok m =>
          rw [hword] at h
          rw [Option.some.inj h]

theorem parse_written (o : ServerOption) (following : List Text) (settings : ServerSettings) :
    parse 0 (o.written ++ following) settings = parse 0 following (apply settings o) := by
  obtain ⟨hport, htimeout, htimeout', hdebug, hdebug', hdebug''⟩ := keywords_ne
  cases o with
  | port word port number range =>
      have hrange : ¬ (port < 0 ∨ port > 65535) := by omega
      have hnumber : nextNumber (word :: following) = some port := by
        rw [nextNumber, number]
        rfl
      simp only [written, List.cons_append, List.nil_append, parse, step, if_neg hport, if_pos,
        hnumber, if_neg hrange]
      rfl
  | topicTimeout word topicTimeout number =>
      have hnumber : nextNumber (word :: following) = some topicTimeout := by
        rw [nextNumber, number]
        rfl
      simp only [written, List.cons_append, List.nil_append, parse, step, if_neg htimeout,
        if_neg htimeout', if_pos, hnumber]
      rfl
  | debug =>
      simp only [written, List.cons_append, List.nil_append, parse, step, if_neg hdebug,
        if_neg hdebug', if_neg hdebug'', if_pos]
      rfl

theorem parse_writtenAll (os : List ServerOption) (following : List Text)
    (settings : ServerSettings) :
    parse 0 (writtenAll os ++ following) settings =
      parse 0 following (os.foldl apply settings) := by
  induction os generalizing settings with
  | nil => rfl
  | cons o os ih =>
      rw [writtenAll, List.flatMap_cons, List.append_assoc, parse_written]
      exact ih _

theorem Stops.parse {rest : List Text} {e : Exit} (h : Stops rest e) (settings : ServerSettings) :
    ServerSettings.parse 0 rest settings = .error e := by
  obtain ⟨hport, htimeout, htimeout', hdebug, hdebug', hdebug''⟩ := keywords_ne
  cases h with
  | help following => rfl
  | port h =>
      simp only [ServerSettings.parse, step, if_neg hport, if_pos, h]
      rfl
  | range h hrange =>
      simp only [ServerSettings.parse, step, if_neg hport, if_pos, h, if_pos hrange]
      rfl
  | topicTimeout h =>
      simp only [ServerSettings.parse, step, if_neg htimeout, if_neg htimeout', if_pos, h]
      rfl
  | unknown h following =>
      simp only [keywords, List.mem_cons, List.not_mem_nil, or_false, not_or] at h
      obtain ⟨hhelp, hport, htimeout, hdebug⟩ := h
      simp only [ServerSettings.parse, step, if_neg hhelp, if_neg hport, if_neg htimeout,
        if_neg hdebug]
      rfl

/-- Words begin with a valid option, or `main` ends at them. -/
theorem front_cases (arg : Text) (following : List Text) :
    (∃ o rest, arg :: following = written o ++ rest) ∨ ∃ e, Stops (arg :: following) e := by
  by_cases hhelp : arg = ascii "--help"
  · subst hhelp
    exact Or.inr ⟨_, .help following⟩
  by_cases hport : arg = ascii "--port"
  · subst hport
    cases hnumber : nextNumber following with
    | none => exact Or.inr ⟨_, .port hnumber⟩
    | some port =>
        obtain ⟨word, rest, rfl, hword⟩ := nextNumber_eq_some hnumber
        by_cases hrange : port < 0 ∨ port > 65535
        · exact Or.inr ⟨_, .range hnumber hrange⟩
        · exact Or.inl ⟨.port word port hword (by omega), rest, rfl⟩
  by_cases htimeout : arg = ascii "--topic-timeout"
  · subst htimeout
    cases hnumber : nextNumber following with
    | none => exact Or.inr ⟨_, .topicTimeout hnumber⟩
    | some topicTimeout =>
        obtain ⟨word, rest, rfl, hword⟩ := nextNumber_eq_some hnumber
        exact Or.inl ⟨.topicTimeout word topicTimeout hword, rest, rfl⟩
  by_cases hdebug : arg = ascii "--debug"
  · exact Or.inl ⟨.debug, following, by rw [hdebug]; rfl⟩
  · exact Or.inr ⟨_, .unknown (by simp [keywords, hhelp, hport, htimeout, hdebug]) following⟩

/-- Every line is valid options, and then nothing or words at which `main` ends. -/
theorem exists_options (argv : List Text) :
    ∃ os rest, argv = writtenAll os ++ rest ∧ (rest = [] ∨ ∃ e, Stops rest e) := by
  induction hn : argv.length using Nat.strong_induction_on generalizing argv with
  | _ n ih =>
      cases argv with
      | nil => exact ⟨[], [], rfl, Or.inl rfl⟩
      | cons arg following =>
          rcases front_cases arg following with ⟨o, rest, hwritten⟩ | hstops
          · have hshorter : rest.length < n := by
              rw [← hn, hwritten, List.length_append]
              cases o <;> simp [written]
            obtain ⟨os, last, hrest, hlast⟩ := ih rest.length hshorter rest rfl
            refine ⟨o :: os, last, ?_, hlast⟩
            rw [hwritten, hrest, writtenAll, writtenAll, List.flatMap_cons, List.append_assoc]
          · exact ⟨[], arg :: following, rfl, Or.inr hstops⟩

theorem port_foldl (os : List ServerOption) {settings : ServerSettings}
    (h : 0 ≤ settings.port ∧ settings.port ≤ 65535) :
    0 ≤ (os.foldl apply settings).port ∧ (os.foldl apply settings).port ≤ 65535 := by
  induction os generalizing settings with
  | nil => exact h
  | cons o os ih =>
      apply ih
      cases o with
      | port word port number range => exact range
      | topicTimeout word topicTimeout number => exact h
      | debug => exact h

end ServerSettings

section

open ServerSettings ServerOption

/-- A server is started by the sequences of valid options, with the last values of
them, and never with a port that is none; any other line ends `main` where its
first word that does not fit has it end. -/
theorem server_command_line (argv : List Text) :
    (∀ settings, ServerSettings.main argv = .ok settings ↔
      ∃ os, argv = writtenAll os ∧ settings = os.foldl ServerOption.apply {}) ∧
    (∀ e, ServerSettings.main argv = .error e ↔
      ∃ os rest, argv = writtenAll os ++ rest ∧ Stops rest e) ∧
    ∀ settings, ServerSettings.main argv = .ok settings →
      0 ≤ settings.port ∧ settings.port ≤ 65535 := by
  have hstarted : ∀ os, ServerSettings.main (writtenAll os) =
      .ok (os.foldl ServerOption.apply {}) := fun os ↦ by
    rw [ServerSettings.main, ← List.append_nil (writtenAll os), parse_writtenAll]
    rfl
  have hstopped : ∀ os rest e, Stops rest e →
      ServerSettings.main (writtenAll os ++ rest) = .error e := fun os rest e h ↦ by
    rw [ServerSettings.main, parse_writtenAll, h.parse]
  have hok : ∀ settings, ServerSettings.main argv = .ok settings ↔
      ∃ os, argv = writtenAll os ∧ settings = os.foldl ServerOption.apply {} := by
    intro settings
    constructor
    · intro h
      obtain ⟨os, rest, rfl, rfl | ⟨e, hstops⟩⟩ := exists_options argv
      · rw [List.append_nil] at h ⊢
        exact ⟨os, rfl, (Except.ok.inj ((hstarted os).symm.trans h)).symm⟩
      · cases (hstopped os rest e hstops).symm.trans h
    · rintro ⟨os, rfl, rfl⟩
      exact hstarted os
  refine ⟨hok, fun e ↦ ⟨fun h ↦ ?_, ?_⟩, fun settings h ↦ ?_⟩
  · obtain ⟨os, rest, rfl, rfl | ⟨e', hstops⟩⟩ := exists_options argv
    · rw [List.append_nil, hstarted] at h
      cases h
    · obtain rfl := Except.error.inj ((hstopped os rest e' hstops).symm.trans h)
      exact ⟨os, rest, rfl, hstops⟩
  · rintro ⟨os, rest, rfl, hstops⟩
    exact hstopped os rest e hstops
  · obtain ⟨os, -, rfl⟩ := (hok settings).mp h
    exact port_foldl os (by decide)

end

end PublisherSubscriber
