import PublisherSubscriber.Guarantees.Truncation
import PublisherSubscriber.Shared.Closing
import PublisherSubscriber.Shared.Vendored

/-!
# Requests in several segments

TCP keeps the bytes of a request and their order, but not the limits of what
one `recv` delivers.
-/

namespace PublisherSubscriber

namespace Command

/-- A command as its constructor and its setters leave it; the constructor is
given an `int` that was cast. -/
structure Built (c : Command) : Prop where
  wellFormed : c.WellFormed
  identifier : ∃ n, intMin ≤ n ∧ n ≤ intMax ∧ c.commandIdentifier = .ofInt n
  available : c.availableCommandArguments = namesOf c.commandIdentifier

/-- A valid command decodes to itself, with a name or without. -/
theorem Built.decode_toJson {c : Command} (hc : c.Built) (hvalid : c.isValid = true) :
    decode c.toJson = .ok c := by
  by_cases hnamed : c.commandIdentifier.IsNamed
  · have havailable := hc.available.trans (namesOf_eq_documentedNames _)
    exact Command.decode_toJson hc.wellFormed hnamed havailable hvalid
  · obtain ⟨n, hlower, hupper, hidentifier⟩ := hc.identifier
    have hnone : c.availableCommandArguments = [] := hc.available.trans (namesOf_eq_nil hnamed)
    have hmembers : c.argumentMembers = [] := by
      rw [argumentMembers, hnone]
      rfl
    have hint : (Json.int c.commandIdentifier.toInt).asInt = .ok n := by
      rw [hidentifier, CommandIdentifiers.toInt_ofInt]
      exact if_pos ⟨hlower, hupper⟩
    rw [hidentifier] at hnamed
    have hfills := (fills_unnamed_iff hnamed c.argumentMembers).mpr hmembers
    rw [decode_of_isRequest c.isRequest_toJson hint hfills]
    have hnames : (filled (.ofInt n) c.argumentMembers).availableCommandArguments = [] :=
      availableCommandArguments_filled.trans (namesOf_eq_nil hnamed)
    congr 1
    apply wellFormed_filled.ext hc.wellFormed (commandIdentifier_filled.trans hidentifier.symm)
      (hnames.trans hnone.symm)
    rw [hnames]
    simp

theorem Built.reread {c : Command} (hc : c.Built) : c.reread.Built :=
  ⟨hc.wellFormed.reread, hc.identifier, hc.available⟩

/-- The vendored reader takes the text of every valid command. -/
theorem Built.decodeText_vendored {c : Command} (hc : c.Built) (hvalid : c.isValid = true)
    (decodeDouble : Text → Option Double) :
    decodeText (.vendored decodeDouble) (Json.writeValue c.toJson) = .ok c.reread := by
  obtain ⟨n, hlower, hupper, hidentifier⟩ := hc.identifier
  have hread := JsonLibrary.parse_vendored (readable_toJson decodeDouble (c := c)
    (by rwa [hidentifier, CommandIdentifiers.toInt_ofInt])
    (by rwa [hidentifier, CommandIdentifiers.toInt_ofInt]))
  have hparse : (JsonLibrary.vendored decodeDouble).parse (Json.writeValue c.toJson) =
      .ok (some c.reread.toJson) := by
    rw [← toJson_reread]
    exact hread
  rw [decodeText, hparse]
  exact hc.reread.decode_toJson ((isValid_reread c).trans hvalid)

end Command

theorem ClientOperation.built_sent (op : ClientOperation) (port : ℤ) : (op.sent port).Built where
  wellFormed := op.wellFormed_sent
  identifier := by
    have hnamed : (op.sent port).commandIdentifier.IsNamed := op.isNamed_sent
    obtain ⟨hlower, hupper⟩ := CommandIdentifiers.toInt_bounds hnamed
    exact ⟨_, hlower, hupper, (CommandIdentifiers.ofInt_toInt hnamed).symm⟩
  available := op.available_sent.trans (Command.namesOf_eq_documentedNames _).symm

section

variable (env : Environment) (library : JsonLibrary) (indeterminate topicTimeout : ℤ)

/-- With the text in these segments the server decodes, does and answers what it
does when the first `recv` delivers the whole text. -/
structure SegmentsInvisible (p : Process) (clientIpAddress : Text) (bytesSent : Text → ℤ)
    (text : Text) (segments : List Text) : Prop where
  decoded : (Server.recv segments).map (fun receivedData ↦
      ((Command.deserialize library receivedData).run.run p.dictionaries).1) =
    some ((Command.deserialize library text).run.run p.dictionaries).1
  answered : (Process.system env library indeterminate topicTimeout).step p
      (.connection clientIpAddress (Server.recv segments) bytesSent) =
    (Process.system env library indeterminate topicTimeout).step p
      (.connection clientIpAddress (some text) bytesSent)

end

theorem Server.recv_singleton {text : Text} (hlength : text.length ≤ bufferSize) :
    recv [text] = some text := by
  rw [recv, List.take_of_length_le hlength]

/-- Of several segments the first delivers only a part of the text. -/
theorem Server.recv_cut {first : Text} {segments : List Text} (hne : segments ≠ [])
    (hfilled : ∀ segment ∈ segments, segment ≠ []) :
    ∃ cut, recv (first :: segments) = some cut ∧ cut <+: first ++ segments.flatten ∧
      cut ≠ first ++ segments.flatten := by
  refine ⟨_, rfl, (List.take_prefix _ _).trans (List.prefix_append _ _), fun hwhole ↦ ?_⟩
  have hrest : segments.flatten ≠ [] := by
    obtain ⟨segment, hsegment⟩ := List.exists_mem_of_ne_nil _ hne
    intro hnil
    exact hfilled segment hsegment (List.flatten_eq_nil_iff.mp hnil segment hsegment)
  have hpositive := List.length_pos_of_ne_nil hrest
  have hlength := congrArg List.length hwhole
  rw [List.length_take, List.length_append] at hlength
  omega

/-- A valid command that fits the buffer is served as if it had arrived at once
exactly when it does arrive in one segment. -/
theorem segments_invisible_iff (env : Environment)
    {parse : Text → Except CppException (Option Json)} (hreader : ReadsClosedObjects parse)
    (indeterminate topicTimeout : ℤ) {p : Process}
    (hp : (Process.system env (.jsoncpp parse) indeterminate topicTimeout).Reachable p)
    {c decoded : Command} {text : Text} (hserialize : c.serialize (.jsoncpp parse) = .ok text)
    (hdecode : Command.decodeText (.jsoncpp parse) text = .ok decoded)
    (hlength : text.length ≤ bufferSize)
    {segments : List Text} (hsegments : segments.flatten = text)
    (hfilled : ∀ segment ∈ segments, segment ≠ []) (clientIpAddress : Text)
    (bytesSent : Text → ℤ) :
    SegmentsInvisible env (.jsoncpp parse) indeterminate topicTimeout p clientIpAddress bytesSent
        text segments ↔
      segments.length = 1 := by
  obtain ⟨-, rfl⟩ : c.isValid = true ∧ Json.writeValue c.toJson = text :=
    Command.serialize_inv hserialize
  constructor
  · intro hinvisible
    cases segments with
    | nil => cases hinvisible.decoded
    | cons first segments =>
        by_contra hseveral
        have hne : segments ≠ [] := by
          rintro rfl
          exact hseveral rfl
        obtain ⟨cut, hrecv, hpre, hcut⟩ := @Server.recv_cut first segments hne
          fun segment hsegment ↦ hfilled segment (List.mem_cons_of_mem _ hsegment)
        rw [List.flatten_cons] at hsegments
        rw [hsegments] at hpre hcut
        have hrejected : ∀ v, (JsonLibrary.jsoncpp parse).parse cut ≠ .ok (some v) :=
          c.parse_cut hreader hpre hcut
        obtain ⟨e, hpart⟩ := Command.run_deserialize_of_rejected hrejected p.dictionaries
        obtain ⟨d', hwhole, -⟩ := Command.yields_deserialize
          (Process.sound_of_reachable hp).dictionaries (.jsoncpp parse) c.toJson.writeValue
        rw [hdecode] at hwhole
        have hsame := hinvisible.decoded
        rw [hrecv, Option.map_some, hpart, hwhole] at hsame
        cases hsame
  · intro hone
    obtain ⟨segment, rfl⟩ := List.length_eq_one_iff.mp hone
    obtain rfl : segment = Json.writeValue c.toJson := by simpa using hsegments
    have hrecv := Server.recv_singleton hlength
    exact ⟨by rw [hrecv, Option.map_some], by rw [hrecv]⟩

/-- A subscription that arrives at once, with a byte that is not UTF-8 in its topic. -/
theorem segments_invisible_subscribe :
    let c := (ClientOperation.subscribeTopic (110 :: 255 :: ascii "ews")).sent 7001
    SegmentsInvisible .steady (.vendored fun _ ↦ none) 7 10 (Process.initial 10)
      (ascii "127.0.0.1") (fun text ↦ text.length) c.toJson.writeValue [c.toJson.writeValue] := by
  intro c
  have hvalid : c.isValid = true := by decide +kernel
  have hserialize : c.serialize (.vendored fun _ ↦ none) = .ok c.toJson.writeValue := if_pos hvalid
  have hdecode := (ClientOperation.built_sent _ _ : c.Built).decodeText_vendored hvalid
    fun _ ↦ none
  apply (segments_invisible_iff .steady (OurReader.readsClosedObjects_parse fun _ ↦ none) 7 10
    .start hserialize hdecode (by decide +kernel) (by simp) (by decide +kernel) _ _).mpr
  rfl

/-- Of a subscription in two segments the server reads 20 bytes, and rejects them. -/
theorem second_segment_is_not_read :
    let c := (ClientOperation.subscribeTopic (ascii "news")).sent 7001
    let text := c.toJson.writeValue
    let segments := [text.take 20, text.drop 20]
    let library := JsonLibrary.jsoncppOf [c.toJson]
    let system := Process.system .steady library 7 10
    let served received := system.final [
      .connection (ascii "10.0.0.1") received fun text ↦ text.length]
    c.serialize library = .ok text ∧ text.length ≤ bufferSize ∧ segments.flatten = text ∧
      (∀ segment ∈ segments, segment ≠ []) ∧
      system.step (Process.initial 10) (.connection (ascii "10.0.0.1") (Server.recv segments)
          fun text ↦ text.length) =
        .ok (some (Server.rejection, Server.rejection.serialize library 7),
          served (Server.recv segments)) ∧
      (served (Server.recv segments)).world.topics = [] ∧
      (served (some text)).world.topics = [some 0] ∧
      ¬ SegmentsInvisible .steady library 7 10 (Process.initial 10) (ascii "10.0.0.1")
        (fun text ↦ text.length) text segments := by
  intro c text segments library system served
  have hpart : (served (Server.recv segments)).world.topics = [] := by decide +kernel
  have hwhole : (served (some text)).world.topics = [some 0] := by decide +kernel
  have hstep : system.step (Process.initial 10) (.connection (ascii "10.0.0.1")
      (Server.recv segments) fun text ↦ text.length) = .ok (some (Server.rejection,
        Server.rejection.serialize library 7), served (Server.recv segments)) := by
    decide +kernel
  refine ⟨if_pos (by decide +kernel), by decide +kernel, by decide +kernel, by decide +kernel,
    hstep, hpart, hwhole, fun hinvisible ↦ ?_⟩
  have hstepWhole : ∃ reply, system.step (Process.initial 10) (.connection (ascii "10.0.0.1")
      (some text) fun text ↦ text.length) = .ok (some reply, served (some text)) :=
    ⟨((Response.new .subscribe).setStatusCode .success, ascii "\x7b\"statusCode\":0\x7d"),
      by decide +kernel⟩
  obtain ⟨reply, hstepWhole⟩ := hstepWhole
  have hsame := hstep.symm.trans (hinvisible.answered.trans hstepWhole)
  rw [(Prod.mk.inj (Except.ok.inj hsame)).2, hwhole] at hpart
  cases hpart

end PublisherSubscriber
