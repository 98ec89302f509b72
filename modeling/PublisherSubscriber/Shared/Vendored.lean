import PublisherSubscriber.Shared.Canonical
import PublisherSubscriber.Shared.Message
import PublisherSubscriber.Shared.RoundTrip

/-!
# The library of the programs

With the vendored reader and writer nothing has to be assumed about what is
read back.  A command, a response and a message come back with their texts
reread, and no name of a member is changed by that.
-/

namespace PublisherSubscriber

open OurReader CommunicationParameters

/-- `CharReaderBuilder` and `StreamWriterBuilder` with their defaults, apart
from the indentation.  How the digits of a double are read is left open. -/
def JsonLibrary.vendored (decodeDouble : Text → Option Double) : JsonLibrary :=
  .jsoncpp (OurReader.parse decodeDouble)

theorem ValidText.reread_eq {s : Text} (h : ValidText s) : reread s = s :=
  (reread_eq_self_iff s).mpr h

namespace OurReader

theorem codePointToUTF8_ne_nil {cp : ℕ} (h : ∃ c : Char, c.toNat = cp) :
    codePointToUTF8 cp ≠ [] := by
  obtain ⟨c, rfl⟩ := h
  rw [codePointToUTF8_toNat]
  exact String.utf8EncodeChar_ne_nil

/-- A text that is not empty is not read back as empty. -/
theorem reread_eq_nil_iff (s : Text) : reread s = [] ↔ s = [] := by
  constructor
  · intro h
    cases s with
    | nil => rfl
    | cons c s =>
        rw [reread, codepointsFrom, List.flatMap_cons, List.append_eq_nil_iff] at h
        exact absurd h.1 (codePointToUTF8_ne_nil
          (exists_char_of_scalar (utf8ToCodepoint_scalar c.toNat_lt s)))
  · rintro rfl
    rfl

end OurReader

/-- A name that comes back as it is. -/
structure PlainName (key : Text) : Prop where
  reread : reread key = key
  length : key.length < 2 ^ 30

theorem plainName_parameter (a : CommunicationParameters) :
    PlainName (communicationParameterToStringDictionary a) := by
  cases a <;> exact ⟨by decide +kernel, by decide +kernel⟩

namespace Json

/-! ## Objects with plain names -/

/-- The members are in order and their names are plain. -/
structure Named (members : List (Text × Json)) : Prop where
  sorted : Sorted members
  names : ∀ m ∈ members, PlainName m.1

def rereadValues (members : List (Text × Json)) : List (Text × Json) :=
  members.map fun m ↦ (m.1, m.2.reread)

theorem named_nil : Named [] := ⟨List.Pairwise.nil, by simp⟩

theorem Named.assign {key : Text} {members : List (Text × Json)} (h : Named members)
    (hkey : PlainName key) (v : Json) : Named (assign key v members) := by
  refine ⟨sorted_assign h.sorted, fun m hm ↦ ?_⟩
  rcases mem_assign hm with rfl | hm
  · exact hkey
  · exact h.names m hm

theorem Named.assignArguments {names : List CommunicationParameters} {values : List Text}
    {members : List (Text × Json)} (h : Named members) :
    Named (assignArguments names values members) := by
  induction names generalizing values members with
  | nil => exact h
  | cons name names ih =>
      cases values with
      | nil => exact h
      | cons value values =>
          rw [assignArguments_cons]
          exact ih (h.assign (plainName_parameter name) _)

theorem rereadMembers_of_plainName {members : List (Text × Json)}
    (h : ∀ m ∈ members, PlainName m.1) : rereadMembers members = rereadValues members := by
  induction members with
  | nil => rw [rereadMembers, rereadValues, List.map_nil]
  | cons member members ih =>
      obtain ⟨key, v⟩ := member
      obtain ⟨hkey, hrest⟩ := List.forall_mem_cons.mp h
      rw [rereadMembers, ih hrest, hkey.reread]
      rfl

theorem sorted_rereadValues {members : List (Text × Json)} (h : Sorted members) :
    Sorted (rereadValues members) :=
  List.pairwise_map.mpr h

/-- Such an object keeps its members; only their values are reread. -/
theorem reread_ofMembers {members : List (Text × Json)} (h : Named members) :
    (ofMembers members).reread = ofMembers (rereadValues members) := by
  cases members with
  | nil => rw [ofMembers, reread, rereadValues, List.map_nil, ofMembers]
  | cons member members =>
      have hsorted : (rereadValues (member :: members)).foldl
          (fun ms m ↦ Json.assign m.1 m.2 ms) [] = rereadValues (member :: members) :=
        foldl_assign_of_sorted (by exact sorted_rereadValues h.sorted)
      rw [ofMembers, reread, rereadMembers_of_plainName h.names, hsorted]
      rfl

theorem rereadValues_assign (key : Text) (v : Json) (members : List (Text × Json)) :
    rereadValues (assign key v members) = assign key v.reread (rereadValues members) := by
  induction members with
  | nil => rfl
  | cons member members ih =>
      obtain ⟨k, u⟩ := member
      have hfirst : rereadValues ((k, u) :: members) = (k, u.reread) :: rereadValues members := rfl
      rw [assign, hfirst, assign]
      split_ifs
      · rfl
      · rfl
      · exact congrArg _ ih

theorem rereadValues_assignArguments (names : List CommunicationParameters)
    (values : List Text) (members : List (Text × Json)) :
    rereadValues (assignArguments names values members) =
      assignArguments names (values.map OurReader.reread) (rereadValues members) := by
  induction names generalizing values members with
  | nil => rfl
  | cons name names ih =>
      cases values with
      | nil => rfl
      | cons value values =>
          rw [assignArguments_cons, ih, rereadValues_assign, reread, List.map_cons,
            assignArguments_cons]

/-! ## What can be written and read -/

section

variable (decodeDouble : Text → Option Double)

/-- The value can be written and read, with so many others around it. -/
def Readable (nodes : ℕ) (v : Json) : Prop :=
  v.Writable decodeDouble ∧ nodes + v.depth < stackLimit

/-- The members of an object that can be written and read. -/
structure ReadableMembers (nodes : ℕ) (members : List (Text × Json)) : Prop
    extends Named members where
  values : ∀ m ∈ members, Readable decodeDouble (nodes + 1) m.2

variable {decodeDouble} {nodes : ℕ} {members : List (Text × Json)}

theorem readable_string (hnodes : nodes < stackLimit) (s : Text) :
    Readable decodeDouble nodes (string s) :=
  ⟨by rw [Writable]; trivial, by rwa [depth]⟩

theorem readable_int (hnodes : nodes < stackLimit) {n : ℤ} (hlower : intMin ≤ n)
    (hupper : n ≤ intMax) : Readable decodeDouble nodes (int n) := by
  refine ⟨?_, by rwa [depth]⟩
  rw [Writable]
  simp only [intMin, intMax] at hlower hupper
  simp only [longLongMin, longLongMax]
  omega

theorem readable_uint (hnodes : nodes < stackLimit) (n : UInt64) :
    Readable decodeDouble nodes (uint n.toNat) :=
  ⟨by rw [Writable]; exact n.toNat_lt, by rwa [depth]⟩

theorem writableMembers_iff : WritableMembers decodeDouble members ↔
    ∀ m ∈ members, (OurReader.reread m.1).length < 2 ^ 30 ∧ m.2.Writable decodeDouble := by
  induction members with
  | nil => simp [WritableMembers]
  | cons member members ih =>
      obtain ⟨key, v⟩ := member
      rw [WritableMembers, ih, List.forall_mem_cons, and_assoc]

theorem ReadableMembers.readable (hnodes : nodes < stackLimit)
    (h : ReadableMembers decodeDouble nodes members) :
    Readable decodeDouble nodes (ofMembers members) := by
  cases members with
  | nil => exact ⟨by rw [ofMembers, Writable]; trivial, by rwa [ofMembers, depth]⟩
  | cons member members =>
      constructor
      · rw [ofMembers, Writable, writableMembers_iff]
        intro m hm
        have hname := h.names m hm
        exact ⟨hname.reread.symm ▸ hname.length, (h.values m hm).1⟩
      · have hdepth : depthOfMembers (member :: members) ≤ stackLimit - nodes - 1 :=
          depthOfMembers_le_iff.mpr fun m hm ↦ by
            have hm := (h.values m hm).2
            omega
        rw [ofMembers, depth]
        omega

theorem readableMembers_nil : ReadableMembers decodeDouble nodes [] := ⟨named_nil, by simp⟩

theorem ReadableMembers.assign (h : ReadableMembers decodeDouble nodes members) {key : Text}
    (hkey : PlainName key) {v : Json} (hv : Readable decodeDouble (nodes + 1) v) :
    ReadableMembers decodeDouble nodes (assign key v members) := by
  refine ⟨h.toNamed.assign hkey v, fun m hm ↦ ?_⟩
  rcases mem_assign hm with rfl | hm
  · exact hv
  · exact h.values m hm

theorem ReadableMembers.assignArguments (h : ReadableMembers decodeDouble nodes members)
    (hnodes : nodes + 1 < stackLimit) {names : List CommunicationParameters}
    {values : List Text} :
    ReadableMembers decodeDouble nodes (assignArguments names values members) := by
  induction names generalizing values members with
  | nil => exact h
  | cons name names ih =>
      cases values with
      | nil => exact h
      | cons value values =>
          rw [assignArguments_cons]
          exact ih (h.assign (plainName_parameter name) (readable_string hnodes value))

end

end Json

theorem JsonLibrary.parse_vendored {decodeDouble : Text → Option Double} {v : Json}
    (h : v.Readable decodeDouble 0) :
    (vendored decodeDouble).parse ((vendored decodeDouble).writeString v) = .ok (some v.reread) :=
  Json.parse_writeValue h.1 (by simpa using h.2)

/-! ## Commands -/

namespace Command

/-- The command with its arguments as they are read back. -/
def reread (c : Command) : Command :=
  { c with commandArguments := c.commandArguments.map OurReader.reread }

@[simp] theorem commandIdentifier_reread (c : Command) :
    c.reread.commandIdentifier = c.commandIdentifier := rfl

@[simp] theorem isValid_reread (c : Command) : c.reread.isValid = c.isValid := by
  rw [isValid, isValid, reread, List.all_map]
  congr 1
  funext s
  simp only [Function.comp_apply, ne_eq, reread_eq_nil_iff]

theorem WellFormed.reread {c : Command} (hc : c.WellFormed) : c.reread.WellFormed :=
  ⟨hc.nodup, (List.length_map _).trans hc.length⟩

theorem plainName_command : PlainName (ascii "command") := ⟨by decide +kernel, by decide +kernel⟩

theorem plainName_arguments : PlainName (ascii "arguments") :=
  ⟨by decide +kernel, by decide +kernel⟩

theorem toJson_reread (c : Command) : c.toJson.reread = c.reread.toJson := by
  have hinner : Json.Named c.argumentMembers := Json.named_nil.assignArguments
  rw [toJson, Json.reread_ofMembers
      ((Json.named_nil.assign plainName_command _).assign plainName_arguments _),
    Json.rereadValues_assign, Json.rereadValues_assign, Json.reread_ofMembers hinner,
    argumentMembers, Json.rereadValues_assignArguments, Json.reread]
  rfl

theorem readable_toJson (decodeDouble : Text → Option Double) {c : Command}
    (hlower : intMin ≤ c.commandIdentifier.toInt) (hupper : c.commandIdentifier.toInt ≤ intMax) :
    c.toJson.Readable decodeDouble 0 := by
  have hinner : (Json.ofMembers c.argumentMembers).Readable decodeDouble 1 :=
    (Json.readableMembers_nil.assignArguments (by decide)).readable (by decide)
  exact ((Json.readableMembers_nil.assign plainName_command
    (Json.readable_int (by decide) hlower hupper)).assign plainName_arguments hinner).readable
      (by decide)

/-- A command is decoded from its text as the command with its arguments reread. -/
theorem decodeText_writeString (decodeDouble : Text → Option Double) {c : Command}
    (hc : c.WellFormed) (hnamed : c.commandIdentifier.IsNamed)
    (havailable : c.availableCommandArguments = documentedNames c.commandIdentifier)
    (hvalid : c.isValid = true) :
    decodeText (.vendored decodeDouble)
      ((JsonLibrary.vendored decodeDouble).writeString c.toJson) = .ok c.reread := by
  obtain ⟨hlower, hupper⟩ := CommandIdentifiers.toInt_bounds hnamed
  rw [decodeText, JsonLibrary.parse_vendored (readable_toJson decodeDouble hlower hupper),
    toJson_reread]
  exact decode_toJson hc.reread hnamed havailable (by rwa [isValid_reread])

end Command

/-! ## Responses -/

namespace Response

/-- The response with its arguments as they are read back. -/
def reread (r : Response) : Response :=
  { r with responseArguments := r.responseArguments.map OurReader.reread }

theorem IsReplyTo.reread {commandIdentifier : CommandIdentifiers} {r : Response}
    (h : r.IsReplyTo commandIdentifier) : r.reread.IsReplyTo commandIdentifier :=
  ⟨h.available, (List.length_map _).trans h.length, h.status⟩

theorem plainName_statusCode : PlainName (ascii "statusCode") :=
  ⟨by decide +kernel, by decide +kernel⟩

theorem reread_members (indeterminate : ℤ) (r : Response) :
    (Json.ofMembers (r.members indeterminate)).reread =
      Json.ofMembers (r.reread.members indeterminate) := by
  rw [members, Json.reread_ofMembers
      (Json.named_nil.assign plainName_statusCode _).assignArguments,
    Json.rereadValues_assignArguments, Json.rereadValues_assign, Json.reread]
  rfl

theorem readable_members (decodeDouble : Text → Option Double) (indeterminate : ℤ) {r : Response}
    (hstatus : ∃ s, r.statusCode = some s ∧ s.IsNamed) :
    (Json.ofMembers (r.members indeterminate)).Readable decodeDouble 0 := by
  obtain ⟨s, hs, hnamed⟩ := hstatus
  obtain ⟨hlower, hupper⟩ := Statuscode.toInt_bounds hnamed
  rw [members, hs, Option.map_some, Option.getD_some]
  exact ((Json.readableMembers_nil.assign plainName_statusCode
    (Json.readable_int (by decide) hlower hupper)).assignArguments (by decide)).readable (by decide)

end Response

/-! ## Messages -/

namespace Message

/-- The message with its texts as they are read back. -/
def reread (m : Message) : Message :=
  ⟨OurReader.reread m.topic, m.messageTimestamp, OurReader.reread m.message⟩

theorem plainName_message : PlainName (ascii "message") := ⟨by decide +kernel, by decide +kernel⟩

theorem plainName_messageTimestamp : PlainName (ascii "messageTimestamp") :=
  ⟨by decide +kernel, by decide +kernel⟩

theorem plainName_topic : PlainName (ascii "topic") := ⟨by decide +kernel, by decide +kernel⟩

theorem toJson_reread (m : Message) : m.toJson.reread = m.reread.toJson.normal := by
  rw [toJson, Json.reread_ofMembers (((Json.named_nil.assign plainName_topic _).assign
      plainName_messageTimestamp _).assign plainName_message _),
    Json.rereadValues_assign, Json.rereadValues_assign, Json.rereadValues_assign,
    Json.reread, Json.reread, Json.reread]
  rfl

theorem readable_toJson (decodeDouble : Text → Option Double) (m : Message) :
    m.toJson.Readable decodeDouble 0 :=
  (((Json.readableMembers_nil.assign plainName_topic (Json.readable_string (by decide) _)).assign
    plainName_messageTimestamp (Json.readable_uint (by decide) _)).assign plainName_message
      (Json.readable_string (by decide) _)).readable (by decide)

end Message

end PublisherSubscriber
