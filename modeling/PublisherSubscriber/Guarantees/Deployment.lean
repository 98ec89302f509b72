import PublisherSubscriber.Broker.Provenance
import PublisherSubscriber.Client.Calls
import PublisherSubscriber.Client.Deployment
import PublisherSubscriber.Guarantees.Departure
import PublisherSubscriber.Guarantees.Destinations
import PublisherSubscriber.Guarantees.MessageRoundTrip
import PublisherSubscriber.Guarantees.PublishLimit
import PublisherSubscriber.Guarantees.ReplyHandling
import PublisherSubscriber.Guarantees.MessageThread

/-!
# What the message threads show

Between the `publishTopic` of one client and the line that another one logs lie
two texts, two buffers, the state of the server and a network that repeats,
reorders and loses datagrams.
-/

namespace PublisherSubscriber

open PointerHeap OurReader

/-! ## Replies that are shown -/

namespace Response

theorem value_reread (r : Response) (a : CommunicationParameters) :
    r.reread.value a = OurReader.reread (r.value a) := by
  show (r.responseArguments.map OurReader.reread).getD
      (r.availableResponseArguments.idxOf a) [] =
    OurReader.reread (r.responseArguments.getD (r.availableResponseArguments.idxOf a) [])
  rw [List.getD_eq_getElem?_getD, List.getD_eq_getElem?_getD, List.getElem?_map]
  cases r.responseArguments[r.availableResponseArguments.idxOf a]? <;> rfl

theorem shown_reread (r : Response) (a : CommunicationParameters) :
    r.reread.shown a = OurReader.reread (r.shown a) := by
  have havailable : r.reread.availableResponseArguments = r.availableResponseArguments := rfl
  rw [shown, shown, havailable, value_reread]
  split_ifs <;> rfl

end Response

/-- Every reading of the clock is a number of at most ten digits and has a date. -/
structure Environment.Dated (env : Environment) (formatTimestamp : ℤ → Option Text) : Prop where
  nonneg : ∀ n, 0 ≤ env.time n
  digits : ∀ n, env.time n < 10 ^ 10
  date : ∀ n, formatTimestamp (env.time n) ≠ none

section

variable {env : Environment} {formatTimestamp : ℤ → Option Text}

theorem Environment.Dated.range (h : env.Dated formatTimestamp) (n : ℕ) :
    0 ≤ env.time n ∧ env.time n ≤ longLongMax := by
  have hdigits := h.digits n
  simp only [longLongMax]
  exact ⟨h.nonneg n, by omega⟩

theorem Environment.Dated.toNat_ofInt (h : env.Dated formatTimestamp) (n : ℕ) :
    ((UInt64.ofInt (env.time n)).toNat : ℤ) = env.time n := by
  have hdigits := h.digits n
  have hnonneg := h.nonneg n
  rw [toNat_ofInt_uint64]
  omega

/-- What is listed is in brackets, and the timestamp of a topic has a date. -/
theorem Broker.showable_handle (henv : env.Dated formatTimestamp) {b c : Broker}
    (hb : ∀ v ∈ b.topics, ∃ n, v.messageTimestamp = env.time n) {q : Request} {r : Response}
    (h : b.handle env q = .ok (r, c)) (hsuccess : r.statusCode = some .success) :
    ∀ a ∈ responseDictionary q.commandIdentifier,
      Showable formatTimestamp a (OurReader.reread (r.shown a)) := by
  have hlist : ∀ elements : List Text,
      OurReader.reread (Response.arrayString elements) ≠ [] := fun elements hnil ↦ by
    rw [reread_eq_nil_iff] at hnil
    cases hnil
  cases q with
  | subscribe => rintro a ⟨⟩
  | unsubscribe => rintro a ⟨⟩
  | publish => rintro a ⟨⟩
  | listTopics =>
      obtain ⟨rfl, -⟩ := Prod.mk.inj (Except.ok.inj h)
      intro a ha
      obtain rfl := List.mem_singleton.mp ha
      exact hlist _
  | getTopicStatus topicName =>
      obtain ⟨rfl, -⟩ := Prod.mk.inj (Except.ok.inj h)
      unfold Broker.getTopicStatus at hsuccess ⊢
      cases hfind : b.find topicName with
      | none =>
          rw [hfind] at hsuccess
          cases hsuccess
      | some v =>
          obtain ⟨n, hn⟩ := hb v (find_eq_some hfind).1
          intro a ha
          rcases List.mem_cons.mp ha with rfl | ha
          · have hshown : (Broker.topicStatus v).shown .messageTimestamp =
                to_string (env.time n) := by
              show to_string (Server.toUInt64 v.messageTimestamp) = _
              rw [hn, Server.toUInt64, henv.toNat_ofInt]
            show Showable formatTimestamp .messageTimestamp
              (OurReader.reread ((Broker.topicStatus v).shown .messageTimestamp))
            rw [hshown, reread_of_printable (printable_to_string _)]
            obtain ⟨hlower, hupper⟩ := henv.range n
            refine ⟨env.time n, strtol_to_string _, ⟨?_, hupper⟩, henv.date n⟩
            simp only [longLongMin]
            omega
          · obtain rfl := List.mem_singleton.mp ha
            exact hlist _

end

/-- A response is shown if it is no success, or if its arguments can be. -/
theorem Client.exists_logResponse {formatTimestamp : ℤ → Option Text}
    (commandIdentifier : CommandIdentifiers) (indeterminate : ℤ) (senderIp senderPort : Text)
    {s : Statuscode} (texts : CommunicationParameters → Text)
    (h : s = .success → ∀ a ∈ responseDictionary commandIdentifier,
      Showable formatTimestamp a (texts a)) :
    ∃ line, logResponse formatTimestamp indeterminate
      (Response.ofTexts commandIdentifier s texts) senderIp senderPort = .ok line := by
  by_cases hs : s = .success
  · have hstatus : (Response.ofTexts commandIdentifier s texts).statusCode = some .success :=
      congrArg some hs
    have hvalues : ∀ a ∈ responseDictionary commandIdentifier,
        (Response.ofTexts commandIdentifier s texts).getResponseArgument a = .ok (texts a) :=
      fun a ha ↦ Response.getResponseArgument_ofTexts _ _ ha
    obtain ⟨text, htext⟩ := logArguments_of_showable hvalues (h hs)
      (header indeterminate (Response.ofTexts commandIdentifier s texts) senderIp senderPort)
    refine ⟨(.info, text), ?_⟩
    rw [logResponse_of_success hstatus]
    exact congrArg _ htext
  · exact ⟨_, if_pos hs⟩

/-! ## Messages that are received -/

/-- The first number with more than `k` digits is `10 ^ k`. -/
theorem length_to_string_eq {n k : ℕ} (hk : 0 < k) (hlower : 10 ^ k ≤ n)
    (hupper : n < 10 ^ (k + 1)) : (to_string (n : ℤ)).length = k + 1 := by
  have hatMost := length_to_string_le (Nat.succ_pos k) hupper
  have hnonneg : ¬ (n : ℤ) < 0 := by omega
  have hmore : ¬ (Nat.toDigits 10 n).length ≤ k := by
    rw [Nat.length_toDigits_le_iff (by decide) hk]
    omega
  simp only [to_string, hnonneg, if_false, Int.natAbs_natCast, decimalDigits, List.length_map]
    at hatMost ⊢
  omega

/-- What is left to the decoder is the timestamp. -/
theorem Message.deserialize_written (decodeDouble : Text → Option Double) (m : Message) :
    deserialize (.vendored decodeDouble) (m.serialize (.vendored decodeDouble)) =
      ((stoll (to_string (UInt64.ofInt m.messageTimestamp).toNat)).map fun messageTimestamp ↦
        ⟨m.reread.topic, messageTimestamp, m.reread.message⟩).mapError caught := by
  have hparse : (JsonLibrary.vendored decodeDouble).parse (m.serialize (.vendored decodeDouble)) =
      .ok (some m.toJson.reread) := JsonLibrary.parse_vendored (m.readable_toJson decodeDouble)
  have hread : readMessage m.toJson.reread = readMessage m.reread.toJson := by
    simp only [toJson_reread, readMessage_eq, Json.memberText_normal]
  rw [deserialize_of_parse hparse, hread, readMessage_toJson]
  rfl

theorem Message.deserialize_vendored (decodeDouble : Text → Option Double) {m : Message}
    (hrange : 0 ≤ m.messageTimestamp ∧ m.messageTimestamp ≤ longLongMax) :
    deserialize (.vendored decodeDouble) (m.serialize (.vendored decodeDouble)) =
      .ok m.reread := by
  rw [deserialize_written, stoll_to_string_uint64 hrange]
  rfl

theorem Message.printable_serialize {ι : Type} {S : Setting ι}
    {decodeDouble : Text → Option Double} (hlibrary : S.library = .vendored decodeDouble)
    (m : Message) : Printable (m.serialize S.library) := by
  rw [hlibrary]
  exact Json.printable_writeValue _ (readable_toJson decodeDouble m).1

/-- The line that `printMessage` logs. -/
def Client.messageLine (topicName date message : Text) : Client.Logged :=
  (.info, ascii "Topic: " ++ topicName ++ ascii " | Message-Timestamp: " ++ date ++
    ascii " | Message: " ++ message)

section

variable {ι : Type} {S : Setting ι} {decodeDouble : Text → Option Double}

/-- A datagram that leaves room for a zero is shown. -/
theorem ClientProcess.receive_of_fits (hlibrary : S.library = .vendored decodeDouble)
    (client : ClientProcess) {topicName message date : Text} {timestamp : ℤ}
    (hrange : 0 ≤ timestamp ∧ timestamp ≤ longLongMax)
    (hdate : S.formatTimestamp timestamp = some date)
    (hlength : ((⟨topicName, timestamp, message⟩ : Message).serialize S.library).length <
      bufferSize) :
    client.receive S ((⟨topicName, timestamp, message⟩ : Message).serialize S.library) =
      { client with received := client.received ++
          [Client.messageLine (reread topicName) date (reread message)] } := by
  have hprintable := Message.printable_serialize (S := S) hlibrary ⟨topicName, timestamp, message⟩
  have hread : Message.deserialize S.library
      ((⟨topicName, timestamp, message⟩ : Message).serialize S.library) =
        .ok (⟨reread topicName, timestamp, reread message⟩ : Message) := by
    rw [hlibrary]
    exact Message.deserialize_vendored decodeDouble hrange
  have hline : Client.receiveMessage S.library S.formatTimestamp
      ((⟨topicName, timestamp, message⟩ : Message).serialize S.library) =
        .ok (Client.messageLine (reread topicName) date (reread message)) := by
    rw [Client.receiveMessage_of_ok hread, Client.printMessage, hdate]
    rfl
  simp only [receive, Client.bufferText_eq hprintable.zero_notMem, if_pos hlength, hline]

end

/-! ## Calls that are answered -/

theorem Hosts.port_le {ι : Type} (H : Hosts ι) (i : ι) : ((H.port i).toNat : ℤ) ≤ 65535 := by
  have := (H.port i).toNat_lt
  omega

/-- A connection is dropped, or answered by a rejection or by the handler of its request. -/
theorem Process.step_reply {env : Environment} {library : JsonLibrary}
    {indeterminate topicTimeout : ℤ} {p p' : Process} (hp : p.Sound) {ipAddress text : Text}
    {bytesSent : Text → ℤ} {reply : Option (Response × Text)}
    (hstep : (system env library indeterminate topicTimeout).step p
      (.connection ipAddress (some text) bytesSent) = .ok (reply, p')) :
    reply = none ∨ ∃ r, reply = some (r, r.serialize library indeterminate) ∧
      ((∃ e, Server.requestOf library ipAddress text = .error e) → r = Server.rejection) ∧
      ∀ q, Server.requestOf library ipAddress text = .ok (some q) → ∃ b c : Broker,
        b.handle env q = .ok (r, c) ∧ b.topics = p.world.view.topics := by
  rcases Server.acceptClient_inv hstep with
    ⟨os, hreply, -⟩ | ⟨os, os', receivedData, r, answered, hdata, hanswer, hreply, -⟩
  · exact Or.inl hreply
  · obtain rfl := Option.some.inj hdata
    refine Or.inr ⟨r, hreply, fun ⟨e, he⟩ ↦ (Server.answer_of_rejected (hp.withOs os) he hanswer).1,
      fun q hq ↦ ?_⟩
    have hhandle := Server.answer_of_request (hp.withOs os) hq hanswer
    exact ⟨_, _, (Server.view_handle env (hp.withOs os).world hhandle).1, rfl⟩

section

variable {ι : Type} {S : Setting ι} {decodeDouble : Text → Option Double}

/-- No reply, or one for this command that the client can show. -/
def Setting.Replied (S : Setting ι) (commandIdentifier : CommandIdentifiers)
    (reply : Option (Response × Text)) : Prop :=
  reply = none ∨ ∃ r, reply = some (r, r.serialize S.library S.indeterminate) ∧
    Server.ReplyFor commandIdentifier r ∧ (r.statusCode = some .success →
      ∀ a ∈ responseDictionary commandIdentifier,
        Showable S.formatTimestamp a (OurReader.reread (r.shown a)))

/-- A decoded reply ends the method with its line, unless its text is too long. -/
theorem ClientProcess.finish_of_decoded (client : ClientProcess) (op : ClientOperation)
    {command : Command} {message responseJson : Text} {decoded : Response} {line : Client.Logged}
    (hserialize : command.serialize S.library = .ok message) (hzero : 0 ∉ responseJson)
    (hdecoded : Response.deserialize S.library command.commandIdentifier responseJson =
      .ok decoded)
    (hline : Client.logResponse S.formatTimestamp S.indeterminate decoded S.serverIp S.serverPort =
      .ok line) :
    client.finish S op command (some responseJson) =
      if responseJson.length < bufferSize then
        { client with state := client.state.after op, shown := client.shown ++ [line] }
      else { client with ending := some .overrun } := by
  simp only [finish, Client.bufferText_eq hzero]
  by_cases hlength : responseJson.length < bufferSize
  · rw [if_pos hlength, if_pos hlength]
    simp only [Client.sendMessage, Client.receiveResponse, Client.catchRuntimeError, hserialize,
      hdecoded, Except.mapError, Except.bind, hline, afterSending]
  · rw [if_neg hlength, if_neg hlength]

/-- The method goes on without a reply. -/
theorem ClientProcess.finish_none (hlibrary : S.library = .vendored decodeDouble)
    (client : ClientProcess) {op : ClientOperation} {port : ℤ}
    (hfilled : ∀ t ∈ op.texts, t ≠ []) :
    client.finish S op (op.sent port) none = { client with
      state := client.state.after op
      shown := client.shown ++
        [(.error, ascii "No response from the server within 30 seconds.")] } := by
  have hserialize : (op.sent port).serialize S.library = .ok (op.requestText port) := by
    rw [hlibrary]
    exact ClientOperation.serialize_sent hfilled
  simp only [finish, Client.sendMessage, hserialize]
  rfl

/-- A reply that the client can show is decoded and shown, unless it is too long. -/
theorem ClientProcess.finish_reply (hlibrary : S.library = .vendored decodeDouble)
    (client : ClientProcess) {op : ClientOperation} {port : ℤ} (hfilled : ∀ t ∈ op.texts, t ≠ [])
    {r : Response} (hreply : Server.ReplyFor (op.sent port).commandIdentifier r)
    (hshowable : r.statusCode = some .success →
      ∀ a ∈ responseDictionary (op.sent port).commandIdentifier,
        Showable S.formatTimestamp a (OurReader.reread (r.shown a))) :
    ∃ s line, r.statusCode = some s ∧
      Client.logResponse S.formatTimestamp S.indeterminate
        (Response.ofTexts (op.sent port).commandIdentifier s r.reread.shown) S.serverIp
          S.serverPort = .ok line ∧
      client.finish S op (op.sent port) (some (r.serialize S.library S.indeterminate)) =
        if (r.serialize S.library S.indeterminate).length < bufferSize then
          { client with state := client.state.after op, shown := client.shown ++ [line] }
        else { client with ending := some .overrun } := by
  have hserialize : (op.sent port).serialize S.library = .ok (op.requestText port) := by
    rw [hlibrary]
    exact ClientOperation.serialize_sent hfilled
  have hprintable := Server.printable_reply S.library (by rw [hlibrary]; rfl) S.indeterminate
    hreply
  obtain ⟨s, hread, hs, -⟩ := Server.deserialize_reply decodeDouble S.indeterminate hreply
  rw [← hlibrary] at hread
  obtain ⟨line, hline⟩ := Client.exists_logResponse (op.sent port).commandIdentifier
    S.indeterminate S.serverIp S.serverPort r.reread.shown fun hsuccess a ha ↦ by
      rw [Response.shown_reread]
      exact hshowable (hs.trans (congrArg some hsuccess)) a ha
  exact ⟨s, line, hs, hline,
    client.finish_of_decoded op hserialize hprintable.zero_notMem hread hline⟩

/-- A reply ends the method with a line, or the client. -/
theorem ClientProcess.finish_cases (hlibrary : S.library = .vendored decodeDouble)
    (client : ClientProcess) {op : ClientOperation} {port : ℤ} (hfilled : ∀ t ∈ op.texts, t ≠ [])
    {reply : Option (Response × Text)}
    (hreplied : S.Replied (op.sent port).commandIdentifier reply) :
    client.finish S op (op.sent port) (reply.map Prod.snd) =
        { client with ending := some .overrun } ∨
      ∃ line, client.finish S op (op.sent port) (reply.map Prod.snd) =
        { client with state := client.state.after op, shown := client.shown ++ [line] } := by
  rcases hreplied with rfl | ⟨r, rfl, hreply, hshowable⟩
  · exact Or.inr ⟨_, client.finish_none hlibrary hfilled⟩
  · obtain ⟨_, line, -, -, hfinish⟩ := client.finish_reply hlibrary hfilled hreply hshowable
    rw [Option.map_some, hfinish]
    by_cases hlength : (r.serialize S.library S.indeterminate).length < bufferSize
    · exact Or.inr ⟨line, if_pos hlength⟩
    · exact Or.inl (if_neg hlength)

end

/-- The end of a method that logs this line. -/
def ClientProcess.logged (client : ClientProcess) (op : ClientOperation) (d : Dictionaries)
    (line : Client.Logged) : ClientProcess :=
  { client with
    state := ({ client.state with dictionaries := d } : ClientState).after op
    shown := client.shown ++ [line] }

/-- The end of a method whose request does not leave. -/
def ClientProcess.unsent (client : ClientProcess) (op : ClientOperation) (d : Dictionaries) :
    SendingCall → ClientProcess
  | .socket => { client with
      state := { client.state with dictionaries := d }
      ending := some .socketFailed }
  | .connect => client.logged op d (.error, ascii "Error connecting to server")
  | .send => client.logged op d (.error, ascii "Error sending data to server")

/-! ## Runs -/

namespace Deployment

section

variable {ι : Type} (S : Setting ι)

/-- A client was told to publish this message, in a request with room for a zero behind it. -/
def Published (past : List (Happening ι)) (topicName message : Text) (timestamp : ℤ) : Prop :=
  ∃ j t m n, .move (.call j (.publishTopic t m)) ∈ past ∧ topicName = reread t ∧
    message = reread m ∧ timestamp = S.env.time n ∧ width t + width m + 55 < bufferSize

/-- A client with this endpoint was told to subscribe to the topic. -/
def SubscribedTo (past : List (Happening ι)) (e : Endpoint) (topicName : Text) : Prop :=
  ∃ i t, .move (.call i (.subscribeTopic t)) ∈ past ∧ e = S.hosts.endpoint i ∧
    topicName = reread t

/-- The line shows a message that was published, to a client that subscribed. -/
def Shown (past : List (Happening ι)) (i : ι) (line : Client.Logged) : Prop :=
  ∃ topicName message timestamp date, Published S past topicName message timestamp ∧
    SubscribedTo S past (S.hosts.endpoint i) topicName ∧
    S.formatTimestamp timestamp = some date ∧ line = Client.messageLine topicName date message

/-- The texts are not empty.  No request for a publish takes all of the buffer of the
server. -/
structure OrdinaryCall (op : ClientOperation) : Prop where
  filled : ∀ t ∈ op.texts, t ≠ []
  room : ∀ t m, op = .publishTopic t m → width t + width m + 55 ≠ bufferSize

/-- Nobody but the clients sends anything to the server. -/
def OrdinaryMove : Move ι → Prop
  | .call _ op => OrdinaryCall op
  | .other .tick => True
  | .other (.connection _ received _) => received = none
  | .terminate _ => True
  | .unsubscribeFront _ _ => True

def Ordinary : Happening ι → Prop
  | .move m => OrdinaryMove m
  | .unsent m _ => OrdinaryMove m
  | .late _ _ => True
  | .arrival _ _ => True
  | .join _ => True

/-- The call of a method, or a pass of the loop in the destructor. -/
def Asked (past : List (Happening ι)) (i : ι) (op : ClientOperation) : Prop :=
  .move (.call i op) ∈ past ∨ ∃ t, op = .unsubscribe t

/-- What the message thread logs is a message, and the client may have been ended by a
reply that is too long or for want of a socket. -/
structure ClientInv (past : List (Happening ι)) (i : ι) (client : ClientProcess) : Prop where
  dictionaries : client.state.dictionaries.Sound
  filled : ∀ t ∈ client.state.subscribedTopics, t ≠ []
  ending : client.ending = none ∨ client.ending = some .overrun ∨
    client.ending = some .socketFailed
  received : ∀ line ∈ client.received, Shown S past i line

/-- What holds after the happenings of `past`, the newest of which is its first. -/
structure Inv (past : List (Happening ι)) (n : Deployment ι) : Prop where
  server : n.server.Sound
  traced : n.server.world.view.Traced S.env (Published S past) (SubscribedTo S past)
  clients : ∀ i, ClientInv S past i (n.clients i)
  backlog : ∀ i message, (i, message) ∈ n.backlog → ∃ op, Asked past i op ∧ OrdinaryCall op ∧
    message = op.requestText (S.hosts.port i).toNat

variable {S} {past past' : List (Happening ι)}

theorem Published.mono (hsub : past ⊆ past') {t m : Text} {timestamp : ℤ}
    (hp : Published S past t m timestamp) : Published S past' t m timestamp := by
  obtain ⟨j, t', m', n, hmem, hrest⟩ := hp
  exact ⟨j, t', m', n, hsub hmem, hrest⟩

theorem SubscribedTo.mono (hsub : past ⊆ past') {e : Endpoint} {t : Text}
    (hs : SubscribedTo S past e t) : SubscribedTo S past' e t := by
  obtain ⟨i, t', hmem, hrest⟩ := hs
  exact ⟨i, t', hsub hmem, hrest⟩

theorem Shown.mono (hsub : past ⊆ past') {i : ι} {line : Client.Logged}
    (hline : Shown S past i line) : Shown S past' i line := by
  obtain ⟨t, m, timestamp, date, hp, hs, hrest⟩ := hline
  exact ⟨t, m, timestamp, date, hp.mono hsub, hs.mono hsub, hrest⟩

theorem Asked.mono (hsub : past ⊆ past') {i : ι} {op : ClientOperation}
    (hasked : Asked past i op) : Asked past' i op :=
  hasked.imp_left fun hmem ↦ hsub hmem

theorem Inv.mono (hsub : past ⊆ past') {n : Deployment ι} (hn : Inv S past n) :
    Inv S past' n where
  server := hn.server
  traced := hn.traced.mono (fun _ _ _ ↦ Published.mono hsub) fun _ _ ↦ SubscribedTo.mono hsub
  clients i :=
    let hclient := hn.clients i
    ⟨hclient.dictionaries, hclient.filled, hclient.ending,
      fun line hline ↦ (hclient.received line hline).mono hsub⟩
  backlog i message hmem := by
    obtain ⟨op, hasked, hop⟩ := hn.backlog i message hmem
    exact ⟨op, hasked.mono hsub, hop⟩

theorem inv_start [DecidableEq ι] : Inv S [] (system S).start where
  server := Process.sound_initial _
  traced := ⟨fun v hv ↦ absurd hv List.not_mem_nil, fun e he ↦ absurd he List.not_mem_nil⟩
  clients _ := ⟨Dictionaries.sound_initial, by rintro t ⟨⟩, Or.inl rfl, by rintro line ⟨⟩⟩
  backlog _ _ hmem := absurd hmem List.not_mem_nil

/-- A request that fits adds only what a client was told to ask for. -/
theorem complies_of_asked {i : ι} {op : ClientOperation} (hasked : Asked past i op)
    (hfits : (op.requestText (S.hosts.port i).toNat).length ≤ bufferSize)
    (hroom : ∀ t m, op = .publishTopic t m → width t + width m + 55 ≠ bufferSize) :
    (op.reread.request (S.hosts.address i) (S.hosts.port i).toNat).Complies S.env
      (Published S past) (SubscribedTo S past) := by
  rcases hasked with hmem | ⟨t, rfl⟩
  · cases op with
    | subscribeTopic t => exact ⟨i, t, hmem, rfl, rfl⟩
    | publishTopic t m =>
        have hlength := ClientOperation.length_publishTopic t m (S.hosts.port i).toNat
        have hne := hroom t m rfl
        have hlt : width t + width m + 55 < bufferSize := by
          rw [ClientOperation.requestText] at hfits
          omega
        exact fun n ↦ ⟨i, t, m, n, hmem, rfl, rfl, rfl, hlt⟩
    | unsubscribe t => trivial
    | listTopics => trivial
    | getTopicStatus t => trivial
  · trivial

theorem filled_after (client : ClientState) (hclient : ∀ t ∈ client.subscribedTopics, t ≠ [])
    {op : ClientOperation} (hfilled : ∀ t ∈ op.texts, t ≠ []) :
    ∀ t ∈ (client.after op).subscribedTopics, t ≠ [] := by
  cases op with
  | subscribeTopic topicName =>
      intro t ht
      rcases List.mem_append.mp ht with ht | ht
      · exact hclient t ht
      · exact hfilled t ht
  | unsubscribe topicName => exact fun t ht ↦ hclient t (List.mem_of_mem_filter ht)
  | publishTopic topicName message => exact hclient
  | listTopics => exact hclient
  | getTopicStatus topicName => exact hclient

theorem ClientInv.logged {i : ι} {client : ClientProcess} (hclient : ClientInv S past i client)
    {op : ClientOperation} {d : Dictionaries} (hd : d.Sound) (hfilled : ∀ t ∈ op.texts, t ≠ [])
    (line : Client.Logged) : ClientInv S past i (client.logged op d line) := by
  have hafter := filled_after { client.state with dictionaries := d } hclient.filled hfilled
  refine ⟨?_, hafter, hclient.ending, hclient.received⟩
  show ((({ client.state with dictionaries := d } : ClientState).after op).dictionaries).Sound
  rw [ClientState.dictionaries_after]
  exact hd

variable {decodeDouble : Text → Option Double}

/-- Whatever `SendMessage` was called with is shown where it arrives. -/
theorem Inv.receive_call (hlibrary : S.library = .vendored decodeDouble)
    (henv : S.env.Dated S.formatTimestamp) {n : Deployment ι} (hn : Inv S past n) {event : Event}
    (hevent : event ∈ n.server.world.history) {call : SendMessageCall}
    (hcall : call ∈ event.calls) :
    ∃ date, S.formatTimestamp call.timestamp = some date ∧ ∀ client : ClientProcess,
      client.receive S ((⟨call.topicName, call.timestamp, call.message⟩ : Message).serialize
          S.library) =
        { client with received := client.received ++
            [Client.messageLine (reread call.topicName) date (reread call.message)] } := by
  obtain ⟨j, t, m, k, -, htopicName, hmessage, htimestamp, hlength⟩ :=
    (hn.traced.calls _ hevent call hcall).published
  obtain ⟨date, hdate⟩ := Option.ne_none_iff_exists'.mp (henv.date k)
  rw [← htimestamp] at hdate
  refine ⟨date, hdate, fun client ↦
    ClientProcess.receive_of_fits hlibrary client (htimestamp ▸ henv.range k) hdate ?_⟩
  have hwritten := Message.length_writeValue ⟨call.topicName, call.timestamp, call.message⟩
  have hdigits : (to_string ((UInt64.ofInt call.timestamp).toNat : ℤ)).length ≤ 10 := by
    apply length_to_string_le (by decide)
    have hcast := henv.toNat_ofInt k
    have hbound := henv.digits k
    rw [← htimestamp] at hcast hbound
    omega
  rw [Message.serialize, hlibrary]
  show (Json.writeValue _).length < bufferSize
  simp only [htopicName, hmessage, width_reread] at hwritten ⊢
  omega

/-- A datagram for the message socket of a client is a message it is shown. -/
theorem Inv.receive (hlibrary : S.library = .vendored decodeDouble)
    (henv : S.env.Dated S.formatTimestamp) {n : Deployment ι} (hn : Inv S past n) {i : ι}
    {d : Datagram} (hd : d ∈ n.server.world.datagrams S.library)
    (haddress : d.address = S.hosts.address i) (hport : d.port = S.hosts.port i) :
    ∃ line, Shown S past i line ∧ (n.clients i).receive S d.payload =
      { n.clients i with received := (n.clients i).received ++ [line] } := by
  obtain ⟨topic, now, calls, reset, call, hevent, hcall, hsent⟩ := World.exists_call hd
  obtain ⟨hpublished, hsubscribed⟩ := hn.traced.calls _ hevent call hcall
  obtain ⟨date, hdate, hreceive⟩ := hn.receive_call hlibrary henv hevent hcall
  obtain ⟨descriptor, -, rfl⟩ := Option.map_eq_some_iff.mp hsent
  obtain ⟨j, t, m, k, hmem, htopicName, hmessage, htimestamp, hlength⟩ := hpublished
  obtain ⟨i', t', hmem', hendpoint, hname⟩ := hsubscribed
  obtain ⟨hcallAddress, hcallPort⟩ := Endpoint.mk.inj hendpoint
  have hsame : i' = i := by
    apply S.hosts.injective i' i (hcallAddress.symm.trans haddress)
    rw [← hport]
    show S.hosts.port i' = UInt16.ofInt call.port
    rw [hcallPort, ← UInt16.toNat_inj]
    have := (S.hosts.port i').toNat_lt
    have hback := toNat_ofInt_of_port (Int.natCast_nonneg (S.hosts.port i').toNat) (by omega)
    omega
  refine ⟨Client.messageLine (reread call.topicName) date (reread call.message), ?_, hreceive _⟩
  refine ⟨reread call.topicName, reread call.message, call.timestamp, date, ?_, ?_, hdate, rfl⟩
  · exact ⟨j, t, m, k, hmem, by rw [htopicName, reread_reread], by rw [hmessage, reread_reread],
      htimestamp, hlength⟩
  · exact ⟨i, t', hsame ▸ hmem', rfl, by rw [hname, reread_reread]⟩

/-- What is known of the method that a move runs. -/
theorem Inv.asked_of_operation {n : Deployment ι} (hn : Inv S past n) {m : Move ι}
    (hm : OrdinaryMove m) {i : ι} {op : ClientOperation}
    (h : n.network.operation m = some (i, op)) :
    Asked (.move m :: past) i op ∧ OrdinaryCall op := by
  cases m with
  | call j op' =>
      rw [Network.operation] at h
      split_ifs at h
      obtain ⟨rfl, rfl⟩ := Prod.mk.inj (Option.some.inj h)
      exact ⟨Or.inl List.mem_cons_self, hm⟩
  | unsubscribeFront j t =>
      rw [Network.operation] at h
      split_ifs at h with hfront
      obtain ⟨rfl, rfl⟩ := Prod.mk.inj (Option.some.inj h)
      refine ⟨Or.inr ⟨t, rfl⟩, fun s hs ↦ ?_, by rintro _ _ ⟨⟩⟩
      rw [List.mem_singleton.mp hs]
      exact (hn.clients j).filled t (List.mem_of_mem_head? hfront.2)
  | terminate j => cases h
  | other o => cases h

/-- What the server replies to the request of a method. -/
theorem Inv.replied (hlibrary : S.library = .vendored decodeDouble)
    (henv : S.env.Dated S.formatTimestamp) {n : Deployment ι} (hn : Inv S past n) {i : ι}
    {op : ClientOperation} (hfilled : ∀ t ∈ op.texts, t ≠ []) {reply : Option (Response × Text)}
    {p : Process}
    (hstep : (Process.system S.env S.library S.indeterminate S.topicTimeout).step n.server
      (.connection (S.hosts.address i) (Server.recv [op.requestText (S.hosts.port i).toNat])
        fun text ↦ text.length) = .ok (reply, p)) :
    S.Replied (op.sent (S.hosts.port i).toNat).commandIdentifier reply := by
  have hrequest := ClientOperation.requestOf_received decodeDouble hfilled
    (Int.natCast_nonneg (S.hosts.port i).toNat) (S.hosts.port_le i) (S.hosts.address i)
  rw [← hlibrary] at hrequest
  rcases Process.step_reply hn.server hstep with rfl | ⟨r, rfl, hrejected, hhandled⟩
  · exact Or.inl rfl
  · refine Or.inr ⟨r, rfl, ?_⟩
    rcases hrequest with ⟨-, hread⟩ | ⟨-, he⟩
    · obtain ⟨b, c, hhandle, htopics⟩ := hhandled _ hread
      have hcommand : (op.reread.request (S.hosts.address i)
          (S.hosts.port i).toNat).commandIdentifier =
            (op.sent (S.hosts.port i).toNat).commandIdentifier := by
        cases op <;> rfl
      rw [← hcommand]
      exact ⟨Or.inl (Broker.isReplyTo_handle hhandle), Broker.showable_handle henv
        (fun v hv ↦ (hn.traced.topics v (htopics ▸ hv)).stamped) hhandle⟩
    · rw [hrejected he]
      exact ⟨Or.inr rfl, by rintro ⟨⟩⟩

variable [DecidableEq ι]

theorem Inv.withClient {n : Deployment ι} (hn : Inv S past n) {i : ι} {client : ClientProcess}
    (hclient : ClientInv S past i client) : Inv S past (n.withClient i client) where
  server := hn.server
  traced := hn.traced
  backlog := hn.backlog
  clients j := by
    by_cases hji : j = i
    · subst hji
      rwa [clients_withClient_self]
    · rw [clients_withClient_ne n hji]
      exact hn.clients j

omit [DecidableEq ι] in
/-- A request that was asked for, or as much of it as the server gets. -/
theorem Inv.served (hlibrary : S.library = .vendored decodeDouble) {n : Deployment ι}
    (hn : Inv S past n) {i : ι} {op : ClientOperation} (hasked : Asked past i op)
    (hop : OrdinaryCall op) {reply : Option (Response × Text)} {p : Process}
    (hstep : (Process.system S.env S.library S.indeterminate S.topicTimeout).step n.server
      (.connection (S.hosts.address i) (Server.recv [op.requestText (S.hosts.port i).toNat])
        fun text ↦ text.length) = .ok (reply, p)) {backlog : List (ι × Text)}
    (hbacklog : ∀ j message, (j, message) ∈ backlog → (j, message) ∈ n.backlog ∨
      (j = i ∧ message = op.requestText (S.hosts.port i).toNat)) :
    Inv S past { n with server := p, backlog := backlog } := by
  have hrequest := ClientOperation.requestOf_received decodeDouble hop.filled
    (Int.natCast_nonneg (S.hosts.port i).toNat) (S.hosts.port_le i) (S.hosts.address i)
  rw [← hlibrary] at hrequest
  have hcomplies : (Occurrence.connection (S.hosts.address i)
      (Server.recv [op.requestText (S.hosts.port i).toNat]) fun text ↦ text.length).Complies S.env
        (Published S past) (SubscribedTo S past) S.library := by
    intro q hq
    rcases hrequest with ⟨hfits, hread⟩ | ⟨-, e, he⟩
    · obtain rfl := Option.some.inj (Except.ok.inj (hread.symm.trans hq))
      exact complies_of_asked hasked hfits hop.room
    · cases he.symm.trans hq
  refine ⟨hn.server.step hstep, Process.traced_step hn.server hn.traced hcomplies hstep,
    hn.clients, fun j message hmem ↦ ?_⟩
  rcases hbacklog j message hmem with hmem | ⟨rfl, rfl⟩
  · exact hn.backlog j message hmem
  · exact ⟨op, hasked, hop, rfl⟩

theorem Inv.request (hlibrary : S.library = .vendored decodeDouble)
    (henv : S.env.Dated S.formatTimestamp) {n n' : Deployment ι} (hn : Inv S past n) {i : ι}
    {op : ClientOperation} (hasked : Asked past i op) (hop : OrdinaryCall op)
    (h : n.request S i op = .ok n') : Inv S past n' := by
  have hclient := hn.clients i
  have hfilled := hop.filled
  obtain ⟨d, hbuilt, hd⟩ := op.builds_command hclient.dictionaries (S.hosts.port i).toNat
  have hserialize : (op.sent (S.hosts.port i).toNat).serialize S.library =
      .ok (op.requestText (S.hosts.port i).toNat) := by
    rw [hlibrary]
    exact ClientOperation.serialize_sent hfilled
  simp only [Deployment.request, hbuilt, hserialize] at h
  obtain ⟨served, hserve, rfl⟩ := of_map_eq_ok h
  obtain ⟨⟨reply, p⟩, hstep, rfl⟩ := of_map_eq_ok hserve
  have hserver := hn.served hlibrary hasked hop hstep (n.mem_backlogAfter i _ (reply.map Prod.snd))
  refine hserver.withClient ?_
  rcases ClientProcess.finish_cases hlibrary
    { n.clients i with state := { (n.clients i).state with dictionaries := d } } hfilled
      (hn.replied hlibrary henv hfilled hstep) with hfinish | ⟨line, hfinish⟩
  · rw [hfinish]
    exact ⟨hd, hclient.filled, Or.inr (Or.inl rfl), hclient.received⟩
  · rw [hfinish]
    exact hclient.logged hd hfilled line

theorem Inv.requestUnsent_eq (hlibrary : S.library = .vendored decodeDouble)
    {n : Deployment ι} (hn : Inv S past n) (i : ι) {op : ClientOperation}
    (hfilled : ∀ t ∈ op.texts, t ≠ []) (call : SendingCall) :
    ∃ d : Dictionaries, d.Sound ∧
      n.requestUnsent S i op call = n.withClient i ((n.clients i).unsent op d call) := by
  obtain ⟨d, hbuilt, hd⟩ :=
    op.builds_command (hn.clients i).dictionaries (S.hosts.port i).toNat
  have hserialize : (op.sent (S.hosts.port i).toNat).serialize S.library =
      .ok (op.requestText (S.hosts.port i).toNat) := by
    rw [hlibrary]
    exact ClientOperation.serialize_sent hfilled
  refine ⟨d, hd, ?_⟩
  unfold Deployment.requestUnsent
  dsimp only
  rw [hbuilt]
  cases call with
  | socket => rfl
  | connect =>
      simp only [SendingCall.failed, Client.sendMessage, hserialize]
      rfl
  | send =>
      simp only [SendingCall.failed, Client.sendMessage, hserialize]
      rfl

/-- A request that does not leave ends the client, or one line is logged. -/
theorem Inv.requestUnsent (hlibrary : S.library = .vendored decodeDouble) {n : Deployment ι}
    (hn : Inv S past n) {i : ι} {op : ClientOperation} (hop : OrdinaryCall op)
    (call : SendingCall) : Inv S past (n.requestUnsent S i op call) := by
  have hclient := hn.clients i
  obtain ⟨d, hd, hunsent⟩ := hn.requestUnsent_eq hlibrary i hop.filled call
  rw [hunsent]
  refine hn.withClient ?_
  cases call with
  | socket => exact ⟨hd, hclient.filled, Or.inr (Or.inr rfl), hclient.received⟩
  | connect | send => exact hclient.logged hd hop.filled _

/-- A connection of the backlog is served like any other. -/
theorem Inv.serveLate (hlibrary : S.library = .vendored decodeDouble) {n n' : Deployment ι}
    (hn : Inv S past n) {i : ι} {message : Text} (hmem : (i, message) ∈ n.backlog)
    (h : n.serveLate S i message = .ok n') : Inv S past n' := by
  obtain ⟨op, hasked, hop, rfl⟩ := hn.backlog i message hmem
  obtain ⟨served, hserve, rfl⟩ := of_map_eq_ok h
  obtain ⟨⟨reply, p⟩, hstep, rfl⟩ := of_map_eq_ok hserve
  refine hn.served hlibrary hasked hop hstep fun j m hm ↦ Or.inl ?_
  split_ifs at hm
  · exact hm
  · exact List.mem_of_mem_erase hm

/-- One step keeps the invariant. -/
theorem Inv.happen (hlibrary : S.library = .vendored decodeDouble)
    (henv : S.env.Dated S.formatTimestamp) {n n' : Deployment ι} (hn : Inv S past n)
    {h : Happening ι} (hh : Ordinary h) (hstep : n.happen S h = .ok n') :
    Inv S (h :: past) n' := by
  have hold : Inv S (h :: past) n := hn.mono (List.subset_cons_self h past)
  cases h with
  | arrival i d =>
      rcases happen_arrival_cases hstep with ⟨⟨-, hd, haddress, hport⟩, rfl⟩ | rfl
      · obtain ⟨line, hline, hreceive⟩ := hold.receive hlibrary henv hd haddress hport
        rw [hreceive]
        have hclient := hold.clients i
        refine hold.withClient ⟨hclient.dictionaries, hclient.filled, hclient.ending, ?_⟩
        intro shown hshown
        rcases List.mem_append.mp hshown with hshown | hshown
        · exact hclient.received shown hshown
        · rwa [List.mem_singleton.mp hshown]
      · exact hold
  | join i =>
      rcases happen_join_cases hstep with ⟨-, rfl⟩ | rfl
      · have hclient := hold.clients i
        exact hold.withClient
          ⟨hclient.dictionaries, hclient.filled, hclient.ending, hclient.received⟩
      · exact hold
  | late i message =>
      rcases happen_late_cases hstep with ⟨hmem, hserved⟩ | rfl
      · exact hold.serveLate hlibrary hmem hserved
      · exact hold
  | unsent m call =>
      rcases happen_unsent_cases hstep with ⟨i, op, -, hoperation, rfl⟩ | rfl
      · exact hold.requestUnsent hlibrary (hn.asked_of_operation hh hoperation).2 call
      · exact hold
  | move m =>
      rcases happen_move_cases hstep with
        ⟨i, op, -, hoperation, hrequest⟩ | ⟨i, -, rfl⟩ | ⟨o, reply, p, rfl, hserved, rfl⟩ | rfl
      · obtain ⟨hasked, hop⟩ := hn.asked_of_operation hh hoperation
        exact hold.request hlibrary henv hasked hop hrequest
      · have hclient := hold.clients i
        exact hold.withClient
          ⟨hclient.dictionaries, hclient.filled, hclient.ending, hclient.received⟩
      · have hcomplies : o.Complies S.env (Published S (.move (.other o) :: past))
            (SubscribedTo S (.move (.other o) :: past)) S.library := by
          cases o with
          | tick => trivial
          | connection ipAddress received bytesSent =>
              obtain rfl : received = none := hh
              trivial
        exact ⟨hold.server.step hserved,
          Process.traced_step hold.server hold.traced hcomplies hserved, hold.clients,
          hold.backlog⟩
      · exact hold

end

end Deployment

theorem Setting.dated_twoClients : twoClients.env.Dated twoClients.formatTimestamp :=
  ⟨fun _ ↦ (by decide : (0 : ℤ) ≤ 1700000000),
    fun _ ↦ (by decide : (1700000000 : ℤ) < 10 ^ 10), fun _ ↦ Option.some_ne_none _⟩

def Datagram.hello : Datagram where
  address := Client.messageAddress
  port := 7002
  payload := (⟨ascii "news", 1700000000, ascii "\"Hello\""⟩ : Message).serialize
    Setting.twoClients.library

/-- A datagram arrives twice. -/
def Happening.oneTopic : List (Happening Bool) := [
  .move (.call true (.subscribeTopic (ascii "news"))),
  .move (.call false (.publishTopic (ascii "news") (ascii "\"Hello\""))),
  .move (.other .tick), .arrival true .hello, .arrival true .hello]

theorem Happening.ordinary_oneTopic : ∀ h ∈ oneTopic, Deployment.Ordinary h := by
  have hwidth : width (ascii "news") + width (ascii "\"Hello\"") + 55 ≠ bufferSize := by
    decide +kernel
  simp only [oneTopic, List.forall_mem_cons, Deployment.Ordinary, Deployment.OrdinaryMove, true_and]
  refine ⟨⟨by decide +kernel, ?_⟩, ⟨by decide +kernel, ?_⟩, List.forall_mem_nil _⟩
  · rintro t m ⟨⟩
  · rintro t m ⟨⟩
    exact hwidth

section

variable {ι : Type} [DecidableEq ι] {S : Setting ι} {decodeDouble : Text → Option Double}

end

section

variable {ι : Type} {S : Setting ι} {decodeDouble : Text → Option Double}

/-- Of the publish requests that the server accepts, the messages of those that
take all of its buffer run past the buffer of a client; every other one is shown. -/
theorem datagram_overruns_iff (hlibrary : S.library = .vendored decodeDouble)
    {topicName message : Text} (hfilled : topicName ≠ [] ∧ message ≠ []) {timestamp : ℤ}
    (hdigits : 10 ^ 9 ≤ timestamp ∧ timestamp < 10 ^ 10)
    (hdate : S.formatTimestamp timestamp ≠ none) {port : ℤ} (hport : 0 ≤ port ∧ port ≤ 65535)
    (haccepted : ((ClientOperation.publishTopic topicName message).requestText port).length ≤
      bufferSize) (ipAddress : Text) (client : ClientProcess) (hrunning : client.ending = none) :
    Server.requestOf S.library ipAddress
        ((ClientOperation.publishTopic topicName message).requestText port) =
          .ok (some (.publish (reread topicName) (reread message))) ∧
      ((client.receive S ((⟨reread topicName, timestamp, reread message⟩ : Message).serialize
          S.library)).ending = some .overrun ↔
        ((ClientOperation.publishTopic topicName message).requestText port).length =
          bufferSize) ∧
      (((ClientOperation.publishTopic topicName message).requestText port).length < bufferSize →
        ∃ date, S.formatTimestamp timestamp = some date ∧
          client.receive S ((⟨reread topicName, timestamp, reread message⟩ : Message).serialize
              S.library) =
            { client with received := client.received ++
                [Client.messageLine (reread topicName) date (reread message)] }) := by
  constructor
  · have htexts : ∀ t ∈ (ClientOperation.publishTopic topicName message).texts, t ≠ [] := by
      simp [ClientOperation.texts, hfilled]
    rw [hlibrary]
    exact ClientOperation.requestOf_requestText htexts hport.1 hport.2 ipAddress
  have hrequest := ClientOperation.length_publishTopic topicName message port
  rw [ClientOperation.requestText] at haccepted ⊢
  have hrange : 0 ≤ timestamp ∧ timestamp ≤ longLongMax := by
    simp only [longLongMax]
    omega
  have hwritten : ((⟨reread topicName, timestamp, reread message⟩ : Message).serialize
      S.library).length = width topicName + width message + 55 := by
    have hlength := Message.length_writeValue ⟨reread topicName, timestamp, reread message⟩
    have hcast : ((UInt64.ofInt timestamp).toNat : ℤ) = timestamp := by
      rw [toNat_ofInt_uint64]
      omega
    have hdecimal : (to_string ((UInt64.ofInt timestamp).toNat : ℤ)).length = 10 :=
      length_to_string_eq (k := 9) (by decide) (by omega) (by omega)
    simp only [width_reread, hdecimal] at hlength
    rw [Message.serialize, hlibrary]
    exact hlength
  obtain ⟨date, hformat⟩ := Option.ne_none_iff_exists'.mp hdate
  have hshown : width topicName + width message + 55 < bufferSize →
      client.receive S ((⟨reread topicName, timestamp, reread message⟩ : Message).serialize
          S.library) =
        { client with received := client.received ++
            [Client.messageLine (reread topicName) date (reread message)] } := fun hshort ↦ by
    rw [ClientProcess.receive_of_fits hlibrary client hrange hformat (hwritten.trans_lt hshort),
      reread_reread, reread_reread]
  refine ⟨⟨?_, ?_⟩, fun hshort ↦ ⟨date, hformat, hshown (hrequest ▸ hshort)⟩⟩
  · intro hending
    by_contra hne
    rw [hshown (by omega)] at hending
    exact absurd (hrunning.symm.trans hending) (by decide)
  · intro hfull
    have hprintable := Message.printable_serialize (S := S) hlibrary
      ⟨reread topicName, timestamp, reread message⟩
    have hlong : ¬ ((⟨reread topicName, timestamp, reread message⟩ : Message).serialize
        S.library).length < bufferSize := by
      omega
    rw [ClientProcess.receive, Client.bufferText_eq hprintable.zero_notMem, if_neg hlong]

/-- 1989 bytes of message and 4 of a topic name take all of the buffer. -/
theorem full_request_overruns :
    let S := Setting.twoClients
    let message := List.replicate 1989 97
    (({} : ClientProcess).receive S ((⟨reread (ascii "news"), 1700000000, reread message⟩ :
      Message).serialize S.library)).ending = some .overrun := by
  intro S message
  have hwidth : width (ascii "news") + width message + 55 = bufferSize := by decide +kernel
  have hlength := (ClientOperation.length_publishTopic (ascii "news") message 7001).trans hwidth
  have hfilled : ascii "news" ≠ [] ∧ message ≠ [] := by decide +kernel
  have hread : S.library = .vendored fun _ ↦ none := rfl
  exact (datagram_overruns_iff hread hfilled ⟨by decide, by decide⟩ (Option.some_ne_none _)
    ⟨by decide, by decide⟩ hlength.le (ascii "127.0.0.1") {} rfl).2.1.mpr hlength

end

end PublisherSubscriber
