import PublisherSubscriber.Library.Braces
import PublisherSubscriber.Shared.Message
import PublisherSubscriber.Shared.RoundTrip
import PublisherSubscriber.Shared.Writer

/-!
# Texts that are cut off

Strings may hold quotes, braces and backslashes, but the writer escapes what
would end a string literal.  In what is written for an object the first brace
is therefore closed by the last byte, and by no byte before.
-/

namespace PublisherSubscriber

open Braces

/-- The delimiters of JSON; a slash outside a string begins a comment. -/
def jsonDelimiters : Delimiters UInt8 where
  opening := 123
  closing := 125
  quote := 34
  escape := 92
  comment := 47
  nodup := by decide

/-- What is relied on of the reader: a text with an opening brace in front is
accepted only when that brace is closed outside string literals, and the empty
text is not accepted. -/
structure ReadsClosedObjects (parse : Text → Except CppException (Option Json)) : Prop where
  closes : ∀ text v, parse (123 :: text) = .ok (some v) → Closes jsonDelimiters text
  filled : ∀ v, parse [] ≠ .ok (some v)

/-! ## String literals -/

theorem hexDigit_ne {n : ℕ} (hn : n < 16) : hexDigit n ≠ 34 ∧ hexDigit n ≠ 92 := by
  revert n
  decide

theorem literal_appendHex (x : ℕ) : Literal jsonDelimiters (appendHex x) := by
  have hdigits : Literal jsonDelimiters (toHex16Bit x) := by
    apply literal_of_forall
    simp only [toHex16Bit, List.forall_mem_cons, List.not_mem_nil, false_implies, implies_true,
      and_true]
    exact ⟨hexDigit_ne (Nat.mod_lt _ (by decide)), hexDigit_ne (Nat.mod_lt _ (by decide)),
      hexDigit_ne (Nat.mod_lt _ (by decide)), hexDigit_ne (Nat.mod_lt _ (by decide))⟩
  exact hdigits.escape 117

theorem literal_of_namedEscape {c : ℕ} {text : Text} (h : namedEscape c = some text) :
    Literal jsonDelimiters text := by
  have hpair : ∃ b, text = [92, b] := by
    unfold namedEscape at h
    split_ifs at h <;> exact ⟨_, (Option.some.inj h).symm⟩
  obtain ⟨b, rfl⟩ := hpair
  exact literal_nil.escape b

theorem literal_escapedCodepoint {codepoint : ℕ} (h : namedEscape codepoint = none) :
    Literal jsonDelimiters (escapedCodepoint codepoint) := by
  unfold escapedCodepoint
  split_ifs with hcontrol hascii hbmp
  · exact literal_appendHex _
  · have hne : codepoint ≠ 34 ∧ codepoint ≠ 92 := by
      constructor <;> rintro rfl <;> cases h
    apply literal_of_forall
    intro c hc
    obtain rfl := List.mem_singleton.mp hc
    simp only [jsonDelimiters, ne_eq, ← UInt8.toNat_inj, UInt8.toNat_ofNat', UInt8.reduceToNat]
    omega
  · exact literal_appendHex _
  · exact (literal_appendHex _).append (literal_appendHex _)

theorem literal_escapedCharacter (codepoint : ℕ) :
    Literal jsonDelimiters (escapedCharacter codepoint) := by
  cases hnamed : namedEscape codepoint with
  | some text =>
      rw [escapedCharacter, hnamed]
      exact literal_of_namedEscape hnamed
  | none =>
      rw [escapedCharacter, hnamed]
      exact literal_escapedCodepoint hnamed

theorem balanced_valueToQuotedStringN (s : Text) :
    Balanced jsonDelimiters (valueToQuotedStringN s) := by
  rw [valueToQuotedStringN_eq]
  exact (Literal.flatMap fun codepoint _ ↦ literal_escapedCharacter codepoint).balanced

/-! ## Values -/

namespace Json

/-- The value is written with its braces closed. -/
def Closed (v : Json) : Prop := Balanced jsonDelimiters v.writeValue

theorem closed_string (s : Text) : (string s).Closed := by
  rw [Closed, writeValue]
  exact balanced_valueToQuotedStringN s

theorem closed_int (n : ℤ) : (int n).Closed := by
  rw [Closed, writeValue]
  apply balanced_of_forall
  intro c hc
  rcases mem_to_string hc with hdigit | rfl
  · simp only [isDigit, Bool.and_eq_true, decide_eq_true_eq, UInt8.le_iff_toNat_le,
      UInt8.reduceToNat] at hdigit
    simp only [jsonDelimiters, ne_eq, ← UInt8.toNat_inj, UInt8.reduceToNat]
    omega
  · decide

theorem closed_uint (n : ℕ) : (uint n).Closed := by
  have hsame : writeValue (uint n) = writeValue (int n) := by rw [writeValue, writeValue]
  rw [Closed, hsame]
  exact closed_int n

theorem closed_null : null.Closed := by
  rw [Closed, writeValue]
  exact balanced_of_forall (by decide +kernel)

theorem balanced_writeMembers {members : List (Text × Json)}
    (h : ∀ member ∈ members, member.2.Closed) :
    Balanced jsonDelimiters (writeMembers members) := by
  have hcolon : Balanced jsonDelimiters (ascii ":") := balanced_of_forall (by decide +kernel)
  have hcomma : Balanced jsonDelimiters (ascii ",") := balanced_of_forall (by decide +kernel)
  induction members with
  | nil => exact balanced_nil
  | cons member members ih =>
      obtain ⟨key, v⟩ := member
      obtain ⟨hv, hmembers⟩ := List.forall_mem_cons.mp h
      have hfirst := ((balanced_valueToQuotedStringN key).append hcolon).append hv
      cases members with
      | nil =>
          rw [writeMembers]
          exact hfirst
      | cons member members =>
          rw [writeMembers]
          · exact (hfirst.append hcomma).append (ih hmembers)
          · rintro ⟨⟩

theorem closed_object {members : List (Text × Json)} (h : ∀ member ∈ members, member.2.Closed) :
    (object members).Closed := by
  rw [Closed, writeValue]
  exact (balanced_writeMembers h).braces

theorem closed_ofMembers {members : List (Text × Json)}
    (h : ∀ member ∈ members, member.2.Closed) : (ofMembers members).Closed := by
  cases members with
  | nil => exact closed_null
  | cons member members => exact closed_object h

theorem forall_mem_assign {P : Json → Prop} {key : Text} {v : Json}
    {members : List (Text × Json)} (hv : P v) (h : ∀ member ∈ members, P member.2) :
    ∀ member ∈ assign key v members, P member.2 := by
  induction members with
  | nil => simpa [assign] using hv
  | cons member members ih =>
      obtain ⟨k, u⟩ := member
      obtain ⟨hu, hmembers⟩ := List.forall_mem_cons.mp h
      rw [assign]
      split_ifs
      · exact List.forall_mem_cons.mpr ⟨hv, hmembers⟩
      · exact List.forall_mem_cons.mpr ⟨hv, h⟩
      · exact List.forall_mem_cons.mpr ⟨hu, ih hmembers⟩

/-- What is written for an object is not accepted when it is cut off. -/
theorem parse_cut_object {parse : Text → Except CppException (Option Json)}
    (hreader : ReadsClosedObjects parse) {members : List (Text × Json)}
    (h : ∀ member ∈ members, member.2.Closed) {text : Text}
    (hpre : text <+: writeValue (.object members)) (hcut : text ≠ writeValue (.object members))
    (v : Json) : parse text ≠ .ok (some v) := by
  have hwritten : writeValue (.object members) =
      123 :: (writeMembers members ++ [jsonDelimiters.closing]) := by
    rw [writeValue]
    rfl
  rw [hwritten] at hpre hcut
  cases text with
  | nil => exact hreader.filled v
  | cons c text =>
      obtain ⟨rfl, hrest⟩ := List.cons_prefix_cons.mp hpre
      intro hparse
      have hcloses := hreader.closes text v hparse
      refine (balanced_writeMembers h).not_closes_of_cut hrest (fun hwhole ↦ hcut ?_) hcloses
      rw [hwhole]

end Json

theorem readsClosedObjects_jsoncppOf {values : List Json}
    (h : ∀ v ∈ values, v.writeValue ≠ [] ∧ Closes jsonDelimiters v.writeValue.tail) :
    ReadsClosedObjects (JsonLibrary.jsoncppOf values).parse := by
  have hwritten : ∀ text v, (JsonLibrary.jsoncppOf values).parse text = .ok (some v) →
      v ∈ values ∧ v.writeValue = text := by
    intro text v hparse
    have hfound := Except.ok.inj hparse
    exact ⟨List.mem_of_find?_eq_some hfound, by simpa using List.find?_some hfound⟩
  constructor
  · intro text v hparse
    obtain ⟨hv, htext⟩ := hwritten _ v hparse
    have hcloses := (h v hv).2
    rwa [htext] at hcloses
  · intro v hparse
    obtain ⟨hv, htext⟩ := hwritten _ v hparse
    exact (h v hv).1 htext

/-! ## Commands and messages -/

theorem Json.closed_assignArguments (names : List CommunicationParameters) (values : List Text)
    {members : List (Text × Json)} (h : ∀ member ∈ members, member.2.Closed) :
    ∀ member ∈ assignArguments names values members, member.2.Closed := by
  rw [assignArguments]
  induction names.zip values generalizing members with
  | nil => exact h
  | cons argument arguments ih => exact ih (forall_mem_assign (closed_string argument.2) h)

namespace Command

variable {parse : Text → Except CppException (Option Json)}

theorem parse_cut (hreader : ReadsClosedObjects parse) (c : Command) {text : Text}
    (hpre : text <+: Json.writeValue c.toJson) (hcut : text ≠ Json.writeValue c.toJson)
    (v : Json) : parse text ≠ .ok (some v) := by
  have harguments : (Json.ofMembers c.argumentMembers).Closed :=
    Json.closed_ofMembers (Json.closed_assignArguments _ _ (by simp))
  rw [toJson, Json.ofMembers_assign] at hpre hcut
  refine Json.parse_cut_object hreader (Json.forall_mem_assign harguments ?_) hpre hcut v
  exact Json.forall_mem_assign (Json.closed_int _) (by simp)

/-- A text that is not accepted is answered by an exception before a table is touched. -/
theorem run_deserialize_of_rejected {library : JsonLibrary} {text : Text}
    (h : ∀ v, library.parse text ≠ .ok (some v)) (d : Dictionaries) :
    ∃ e, (deserialize library text).run.run d = (.error e, d) := by
  cases hparse : library.parse text with
  | error e =>
      refine ⟨e, ?_⟩
      rw [deserialize, hparse]
      rfl
  | ok parsed =>
      cases parsed with
      | some v => exact absurd hparse (h v)
      | none =>
          refine ⟨.runtimeError "Failed to parse JSON command", ?_⟩
          rw [deserialize, hparse]
          rfl

end Command

namespace Message

theorem parse_cut {parse : Text → Except CppException (Option Json)}
    (hreader : ReadsClosedObjects parse) (m : Message) {text : Text}
    (hpre : text <+: Json.writeValue m.toJson) (hcut : text ≠ Json.writeValue m.toJson)
    (v : Json) : parse text ≠ .ok (some v) := by
  rw [toJson, Json.ofMembers_assign] at hpre hcut
  refine Json.parse_cut_object hreader ?_ hpre hcut v
  apply Json.forall_mem_assign (Json.closed_string _)
  apply Json.forall_mem_assign (Json.closed_uint _)
  apply Json.forall_mem_assign (Json.closed_string _)
  simp

theorem deserialize_of_rejected {library : JsonLibrary} {text : Text}
    (h : ∀ v, library.parse text ≠ .ok (some v)) : ∃ e, deserialize library text = .error e := by
  cases hparse : library.parse text with
  | error e =>
      refine ⟨e, ?_⟩
      rw [deserialize, hparse]
      rfl
  | ok parsed =>
      cases parsed with
      | some v => exact absurd hparse (h v)
      | none =>
          refine ⟨.runtimeError "Failed to parse message JSON", ?_⟩
          rw [deserialize, hparse]
          rfl

end Message

end PublisherSubscriber
