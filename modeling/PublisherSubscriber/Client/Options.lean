import PublisherSubscriber.Client.Main

/-!
# Command lines as options

An option is a keyword with the words that belong to it.  A sequence of options
is written in one way and read in one way, and the loop over the words accepts
exactly the sequences whose options fit together.
-/

namespace PublisherSubscriber

/-- `--help` is left out, because no command is executed with it. -/
inductive Keyword
  | port
  | serverAddress
  | serverPort
  | debug
  | subscribe
  | publish
  | listTopics
  | getTopicStatus
  deriving DecidableEq, Repr

namespace Keyword

def text : Keyword → Text
  | port => ascii "--port"
  | serverAddress => ascii "--server-address"
  | serverPort => ascii "--server-port"
  | debug => ascii "--debug"
  | subscribe => ascii "--subscribe"
  | publish => ascii "--publish"
  | listTopics => ascii "--list-topics"
  | getTopicStatus => ascii "--get-topic-status"

/-- The others are settings. -/
def isCommand : Keyword → Bool
  | port => false
  | serverAddress => false
  | serverPort => false
  | debug => false
  | subscribe => true
  | publish => true
  | listTopics => true
  | getTopicStatus => true

/-- How many words belong to a keyword; `none` for a list of topic names. -/
def operandCount : Keyword → Option ℕ
  | port => some 1
  | serverAddress => some 1
  | serverPort => some 1
  | debug => some 0
  | subscribe => none
  | publish => some 2
  | listTopics => some 0
  | getTopicStatus => none

/-- The methods that a command calls for its words. -/
def operations : Keyword → List Text → List ClientOperation
  | subscribe, words => words.map .subscribeTopic
  | publish, [topicName, topicData] => [.publishTopic topicName topicData]
  | listTopics, _ => [.listTopics]
  | getTopicStatus, words => words.map .getTopicStatus
  | _, _ => []

theorem text_injective : Function.Injective text := by
  intro k l h
  revert h
  cases k <;> cases l <;> decide

end Keyword

/-- Two dashes in front. -/
def IsKeywordLike (word : Text) : Prop := [dash, dash] <+: word

theorem Keyword.isKeywordLike_text (k : Keyword) : IsKeywordLike k.text := by
  cases k <;> exact ⟨_, rfl⟩

/-- A list of topic names ends where a keyword may stand. -/
def Keyword.Takes (k : Keyword) (words : List Text) : Prop :=
  match k.operandCount with
  | some count => words.length = count
  | none => ∀ word ∈ words, ¬ IsKeywordLike word

@[ext] structure CommandLineOption where
  keyword : Keyword
  operands : List Text
  takes : keyword.Takes operands

namespace CommandLineOption

def written (o : CommandLineOption) : List Text := o.keyword.text :: o.operands

/-- The words of a line that consists of these options. -/
def writtenAll (os : List CommandLineOption) : List Text := os.flatMap written

@[simp] theorem writtenAll_nil : writtenAll [] = [] := rfl

@[simp] theorem writtenAll_cons (o : CommandLineOption) (os : List CommandLineOption) :
    writtenAll (o :: os) = o.keyword.text :: (o.operands ++ writtenAll os) := rfl

/-! ## A line is read in one way -/

/-- What follows an option begins with a keyword, if anything follows. -/
def Bounded (following : List Text) : Prop :=
  ∀ word, following.head? = some word → IsKeywordLike word

theorem bounded_writtenAll (os : List CommandLineOption) : Bounded (writtenAll os) := by
  cases os with
  | nil => rintro word ⟨⟩
  | cons o os =>
      intro word hword
      obtain rfl : o.keyword.text = word := Option.some.inj hword
      exact o.keyword.isKeywordLike_text

theorem append_inj_of_bounded {words words' following following' : List Text}
    (hwords : ∀ word ∈ words, ¬ IsKeywordLike word)
    (hwords' : ∀ word ∈ words', ¬ IsKeywordLike word) (hfollowing : Bounded following)
    (hfollowing' : Bounded following') (h : words ++ following = words' ++ following') :
    words = words' ∧ following = following' := by
  induction words generalizing words' with
  | nil =>
      cases words' with
      | nil => exact ⟨rfl, h⟩
      | cons word words' =>
          have hkeyword := hfollowing word (by rw [List.nil_append] at h; rw [h]; rfl)
          exact (hwords' word List.mem_cons_self hkeyword).elim
  | cons word words ih =>
      cases words' with
      | nil =>
          have hkeyword := hfollowing' word (by rw [List.nil_append] at h; rw [← h]; rfl)
          exact (hwords word List.mem_cons_self hkeyword).elim
      | cons word' words' =>
          obtain ⟨rfl, hrest⟩ := List.cons.inj h
          obtain ⟨rfl, hsame⟩ := ih (List.forall_mem_cons.mp hwords).2
            (List.forall_mem_cons.mp hwords').2 hrest
          exact ⟨rfl, hsame⟩

theorem operands_inj {k : Keyword} {words words' following following' : List Text}
    (hwords : k.Takes words) (hwords' : k.Takes words') (hfollowing : Bounded following)
    (hfollowing' : Bounded following') (h : words ++ following = words' ++ following') :
    words = words' ∧ following = following' := by
  unfold Keyword.Takes at hwords hwords'
  cases hcount : k.operandCount with
  | some count =>
      rw [hcount] at hwords hwords'
      exact List.append_inj h (hwords.trans hwords'.symm)
  | none =>
      rw [hcount] at hwords hwords'
      exact append_inj_of_bounded hwords hwords' hfollowing hfollowing' h

theorem writtenAll_injective : Function.Injective writtenAll := by
  intro os
  induction os with
  | nil =>
      intro os' h
      cases os' with
      | nil => rfl
      | cons o' os' => cases h
  | cons o os ih =>
      intro os' h
      cases os' with
      | nil => cases h
      | cons o' os' =>
          obtain ⟨keyword, operands, htakes⟩ := o
          obtain ⟨keyword', operands', htakes'⟩ := o'
          obtain ⟨hkeyword, hrest⟩ := List.cons.inj h
          obtain rfl := Keyword.text_injective hkeyword
          obtain ⟨rfl, hos⟩ := operands_inj htakes htakes' (bounded_writtenAll os)
            (bounded_writtenAll os') hrest
          rw [ih hos]

end CommandLineOption

namespace CommandLine

open CommandLineOption

/-- Words that the inner loops take one after the other. -/
def AreTopicNames (beyond : List Text → UInt8) : List Text → List Text → Prop
  | [], _ => True
  | word :: words, following =>
      IsTopicName beyond word (words ++ following) ∧ AreTopicNames beyond words following

/-- What an option must be like in itself, in front of these words. -/
def Admissible (beyond : List Text → UInt8) (o : CommandLineOption) (following : List Text) :
    Prop :=
  match o.keyword with
  | .port => getPortNumber (o.operands.headD []) ≠ -1
  | .serverAddress => isValidIPv4Address (o.operands.headD []) = true
  | .serverPort => getPortNumber (o.operands.headD []) ≠ -1
  | .subscribe => AreTopicNames beyond o.operands following ∧ o.operands ++ following ≠ []
  | .getTopicStatus => AreTopicNames beyond o.operands following ∧ o.operands ++ following ≠ []
  | _ => True

/-- What an option requires of those before it. -/
def Allows (st : CommandLine) : Keyword → Prop
  | .publish => st.arguments = []
  | .subscribe => st.command = [] ∨ st.command = Keyword.subscribe.text
  | .listTopics => st.command = [] ∨ st.command = Keyword.listTopics.text
  | .getTopicStatus => st.command = [] ∨ st.command = Keyword.getTopicStatus.text
  | _ => True

/-- The variables after an option. -/
def apply (st : CommandLine) (o : CommandLineOption) : CommandLine :=
  let command := if st.command = [] then o.keyword.text else st.command
  let arguments := st.arguments ++ o.operands
  match o.keyword with
  | .port => { st with port := getPortNumber (o.operands.headD []) }
  | .serverAddress => { st with serverAddress := o.operands.headD [] }
  | .serverPort => { st with serverPort := getPortNumber (o.operands.headD []) }
  | .debug => st
  | .subscribe => { st with
      command := command
      arguments := arguments
      hasSubscribeCommand := st.hasSubscribeCommand || decide (o.operands ≠ []) }
  | _ => { st with command := command, arguments := arguments }

section

variable {beyond : List Text → UInt8} {st : CommandLine}

theorem apply_of_setting {o : CommandLineOption} (h : o.keyword.isCommand = false) :
    (st.apply o).command = st.command ∧ (st.apply o).arguments = st.arguments := by
  obtain ⟨keyword, operands, htakes⟩ := o
  cases keyword with
  | port | serverAddress | serverPort | debug => exact ⟨rfl, rfl⟩
  | _ => cases h

theorem apply_of_command {o : CommandLineOption} (h : o.keyword.isCommand = true) :
    (st.apply o).command = (if st.command = [] then o.keyword.text else st.command) ∧
      (st.apply o).arguments = st.arguments ++ o.operands := by
  obtain ⟨keyword, operands, htakes⟩ := o
  cases keyword with
  | port | serverAddress | serverPort | debug => cases h
  | _ => exact ⟨rfl, rfl⟩

theorem allows_of_setting {k : Keyword} (h : k.isCommand = false) : st.Allows k := by
  cases k with
  | port | serverAddress | serverPort | debug => trivial
  | _ => cases h

theorem allows_of_command {k : Keyword} (h : k.isCommand = true) :
    st.Allows k ↔ if k = .publish then st.arguments = []
      else st.command = [] ∨ st.command = k.text := by
  cases k with
  | port | serverAddress | serverPort | debug => cases h
  | _ => simp [Allows]

theorem admissible_iff_of_operandCount {o : CommandLineOption}
    (h : o.keyword.operandCount = none) {following : List Text} :
    Admissible beyond o following ↔
      AreTopicNames beyond o.operands following ∧ o.operands ++ following ≠ [] := by
  obtain ⟨keyword, operands, htakes⟩ := o
  cases keyword with
  | subscribe | getTopicStatus => rfl
  | _ => cases h

theorem not_isTopicName_of_isKeywordLike {word : Text} (h : IsKeywordLike word)
    (following : List Text) : ¬ IsTopicName beyond word following := by
  obtain ⟨rest, rfl⟩ := h
  exact fun hname ↦ hname.1 rfl

theorem topicNames_of_bounded {following : List Text} (h : Bounded following) :
    topicNames beyond following = [] := by
  cases following with
  | nil => rfl
  | cons word following =>
      exact if_neg (not_isTopicName_of_isKeywordLike (h word rfl) following)

theorem topicNames_append {words following : List Text}
    (hwords : AreTopicNames beyond words following) (hfollowing : Bounded following) :
    topicNames beyond (words ++ following) = words := by
  induction words with
  | nil => exact topicNames_of_bounded hfollowing
  | cons word words ih =>
      rw [List.cons_append, topicNames, if_pos hwords.1, ih hwords.2]

theorem command_eq {keyword : Text} (h : st.command = [] ∨ st.command = keyword) :
    (if st.command = [] then keyword else st.command) = keyword := by
  rcases h with h | h
  · exact if_pos h
  · split_ifs
    · rfl
    · exact h

/-- An option that fits is taken, with all its words. -/
theorem step_written {o : CommandLineOption} {following : List Text}
    (hadmissible : Admissible beyond o following) (hallows : st.Allows o.keyword)
    (hfollowing : Bounded following) :
    step beyond st o.keyword.text (o.operands ++ following) =
      .ok (o.operands.length, st.apply o) := by
  obtain ⟨keyword, operands, htakes⟩ := o
  cases keyword with
  | port | serverPort =>
      obtain ⟨value, rfl⟩ := List.length_eq_one_iff.mp htakes
      have hvalue : getPortNumber value ≠ -1 := hadmissible
      simp +decide [step, Keyword.text, hvalue, apply]
  | serverAddress =>
      obtain ⟨value, rfl⟩ := List.length_eq_one_iff.mp htakes
      have hvalue : isValidIPv4Address value = true := hadmissible
      simp +decide [step, Keyword.text, hvalue, apply]
  | debug =>
      obtain rfl := List.length_eq_zero_iff.mp htakes
      simp +decide [step, Keyword.text, apply]
  | subscribe | getTopicStatus =>
      have hnames := topicNames_append hadmissible.1 hfollowing
      have hcommand := command_eq hallows
      simp only [Keyword.text] at hcommand
      simp +decide [step, stepCommand, Keyword.text, apply, hnames, hadmissible.2, hcommand]
  | listTopics =>
      obtain rfl := List.length_eq_zero_iff.mp htakes
      have hcommand := command_eq hallows
      simp only [Keyword.text] at hcommand
      simp +decide [step, stepCommand, Keyword.text, apply, hcommand]
  | publish =>
      obtain ⟨topicName, topicData, rfl⟩ := List.length_eq_two.mp htakes
      have harguments : st.arguments = [] := hallows
      simp +decide [step, stepCommand, Keyword.text, apply, harguments]

theorem exists_topicNames (beyond : List Text → UInt8) (following : List Text) :
    ∃ rest, following = topicNames beyond following ++ rest ∧
      AreTopicNames beyond (topicNames beyond following) rest := by
  induction following with
  | nil => exact ⟨[], rfl, trivial⟩
  | cons word following ih =>
      obtain ⟨rest, hrest, hnames⟩ := ih
      by_cases hword : IsTopicName beyond word following
      · rw [topicNames, if_pos hword]
        refine ⟨rest, by rw [List.cons_append, ← hrest], ?_, hnames⟩
        rwa [← hrest]
      · rw [topicNames, if_neg hword]
        exact ⟨word :: following, rfl, trivial⟩

theorem AreTopicNames.not_isKeywordLike {words following : List Text}
    (h : AreTopicNames beyond words following) : ∀ word ∈ words, ¬ IsKeywordLike word := by
  induction words with
  | nil => simp
  | cons word words ih =>
      refine List.forall_mem_cons.mpr ⟨fun hword ↦ ?_, ih h.2⟩
      exact not_isTopicName_of_isKeywordLike hword _ h.1

/-- What one pass of the loop takes from the front of a line. -/
structure Taken (beyond : List Text → UInt8) (st : CommandLine) (arg : Text)
    (following : List Text) (next : ℕ × CommandLine) (o : CommandLineOption) (rest : List Text) :
    Prop where
  arg : arg = o.keyword.text
  following : following = o.operands ++ rest
  admissible : Admissible beyond o rest
  allows : st.Allows o.keyword
  next : next = (o.operands.length, st.apply o)

variable {arg : Text} {following : List Text} {next : ℕ × CommandLine}

theorem eq_command {keyword : Text}
    (h : keyword = if st.command = [] then keyword else st.command) :
    st.command = [] ∨ st.command = keyword := by
  by_cases hfirst : st.command = []
  · exact Or.inl hfirst
  · rw [if_neg hfirst] at h
    exact Or.inr h.symm

theorem taken_of_topicNames {k : Keyword} (hcount : k.operandCount = none)
    (hcommand : k.text = if st.command = [] then k.text else st.command) (hmore : following ≠ [])
    (hnext : ∀ htakes, next = ((topicNames beyond following).length,
      st.apply ⟨k, topicNames beyond following, htakes⟩)) :
    ∃ o rest, Taken beyond st k.text following next o rest := by
  obtain ⟨rest, hrest, hnames⟩ := exists_topicNames beyond following
  have htakes : k.Takes (topicNames beyond following) := by
    rw [Keyword.Takes, hcount]
    exact hnames.not_isKeywordLike
  have hallows : st.Allows k := by
    cases k with
    | subscribe | getTopicStatus => exact eq_command hcommand
    | _ => cases hcount
  refine ⟨⟨k, topicNames beyond following, htakes⟩, rest, rfl, hrest, ?_, hallows, hnext htakes⟩
  rw [admissible_iff_of_operandCount hcount]
  exact ⟨hnames, hrest ▸ hmore⟩

theorem taken_of_stepCommand (h : stepCommand beyond st arg following = .ok next) :
    ∃ o rest, Taken beyond st arg following next o rest := by
  simp only [stepCommand] at h
  by_cases hsubscribe : arg = ascii "--subscribe" ∧
      (arg = if st.command = [] then arg else st.command) ∧ following ≠ []
  · rw [if_pos hsubscribe] at h
    obtain ⟨rfl, hcommand, hmore⟩ := hsubscribe
    exact taken_of_topicNames (k := .subscribe) rfl hcommand hmore fun _ ↦ (Except.ok.inj h).symm
  rw [if_neg hsubscribe] at h
  by_cases hpublish : arg = ascii "--publish" ∧ st.arguments.length = 0 ∧ 2 ≤ following.length
  · rw [if_pos hpublish] at h
    obtain ⟨rfl, harguments, hmore⟩ := hpublish
    have hwords : (following.take 2).length = 2 := by
      rw [List.length_take]
      omega
    refine ⟨⟨.publish, following.take 2, hwords⟩, following.drop 2, rfl,
      (List.take_append_drop 2 following).symm, trivial, List.length_eq_zero_iff.mp harguments, ?_⟩
    rw [← Except.ok.inj h, hwords]
    rfl
  rw [if_neg hpublish] at h
  by_cases hlist : arg = ascii "--list-topics" ∧
      arg = if st.command = [] then arg else st.command
  · rw [if_pos hlist] at h
    obtain ⟨rfl, hcommand⟩ := hlist
    refine ⟨⟨.listTopics, [], rfl⟩, following, rfl, rfl, trivial, eq_command hcommand, ?_⟩
    rw [← Except.ok.inj h]
    simp only [apply, List.append_nil, List.length_nil]
    rfl
  rw [if_neg hlist] at h
  by_cases hstatus : arg = ascii "--get-topic-status" ∧
      (arg = if st.command = [] then arg else st.command) ∧ following ≠ []
  · rw [if_pos hstatus] at h
    obtain ⟨rfl, hcommand, hmore⟩ := hstatus
    exact taken_of_topicNames (k := .getTopicStatus) rfl hcommand hmore fun _ ↦
      (Except.ok.inj h).symm
  rw [if_neg hstatus] at h
  cases h

/-- A setting has one value, and is taken unless the validator rejects that value. -/
theorem taken_of_setting {k : Keyword} {value : Text} {rest : List Text}
    {rejected : Prop} [Decidable rejected] {e : Exit} (htakes : k.Takes [value])
    (hsetting : k.isCommand = false)
    (hadmissible : ¬ rejected → Admissible beyond ⟨k, [value], htakes⟩ rest)
    (h : (if rejected then Except.error e else .ok (1, st.apply ⟨k, [value], htakes⟩)) =
      .ok next) :
    ∃ o rest', Taken beyond st k.text (value :: rest) next o rest' := by
  by_cases hrejected : rejected
  · rw [if_pos hrejected] at h
    cases h
  · rw [if_neg hrejected] at h
    exact ⟨⟨k, [value], htakes⟩, rest, rfl, rfl, hadmissible hrejected,
      allows_of_setting hsetting, (Except.ok.inj h).symm⟩

theorem taken_of_step (h : step beyond st arg following = .ok next) :
    ∃ o rest, Taken beyond st arg following next o rest := by
  rw [step] at h
  by_cases hport : arg = ascii "--port" ∧ following ≠ []
  · rw [if_pos hport] at h
    obtain ⟨rfl, hmore⟩ := hport
    obtain ⟨value, rest, rfl⟩ := List.exists_cons_of_ne_nil hmore
    exact taken_of_setting (k := .port) rfl rfl id h
  rw [if_neg hport] at h
  by_cases haddress : arg = ascii "--server-address" ∧ following ≠ []
  · rw [if_pos haddress] at h
    obtain ⟨rfl, hmore⟩ := haddress
    obtain ⟨value, rest, rfl⟩ := List.exists_cons_of_ne_nil hmore
    exact taken_of_setting (k := .serverAddress) rfl rfl eq_true_of_ne_false h
  rw [if_neg haddress] at h
  by_cases hserver : arg = ascii "--server-port" ∧ following ≠ []
  · rw [if_pos hserver] at h
    obtain ⟨rfl, hmore⟩ := hserver
    obtain ⟨value, rest, rfl⟩ := List.exists_cons_of_ne_nil hmore
    exact taken_of_setting (k := .serverPort) rfl rfl id h
  rw [if_neg hserver] at h
  by_cases hhelp : arg = ascii "--help"
  · rw [if_pos hhelp] at h
    cases h
  rw [if_neg hhelp] at h
  by_cases hdebug : arg = ascii "--debug"
  · rw [if_pos hdebug] at h
    exact ⟨⟨.debug, [], rfl⟩, following, hdebug, rfl, trivial, trivial, (Except.ok.inj h).symm⟩
  rw [if_neg hdebug] at h
  exact taken_of_stepCommand h

/-! ## The loop over the words -/

/-- Each option fits those before it and the words behind it. -/
def Accepts (beyond : List Text → UInt8) : CommandLine → List CommandLineOption → Prop
  | _, [] => True
  | st, o :: os =>
      Admissible beyond o (writtenAll os) ∧ st.Allows o.keyword ∧ Accepts beyond (st.apply o) os

theorem parse_append (words following : List Text) :
    parse beyond words.length (words ++ following) st = parse beyond 0 following st := by
  induction words with
  | nil => rfl
  | cons word words ih => exact ih

theorem parse_of_accepts {os : List CommandLineOption} (h : Accepts beyond st os) :
    parse beyond 0 (writtenAll os) st = .ok (os.foldl apply st) := by
  induction os generalizing st with
  | nil => rfl
  | cons o os ih =>
      obtain ⟨hadmissible, hallows, hos⟩ := h
      have hstep := step_written hadmissible hallows (bounded_writtenAll os)
      rw [writtenAll_cons, parse, hstep, List.foldl_cons, ← ih hos]
      exact parse_append o.operands (writtenAll os)

theorem accepts_of_parse {argv : List Text} {st' : CommandLine}
    (h : parse beyond 0 argv st = .ok st') :
    ∃ os, argv = writtenAll os ∧ Accepts beyond st os ∧ st' = os.foldl apply st := by
  induction hlength : argv.length using Nat.strong_induction_on generalizing argv st with
  | h length ih =>
      cases argv with
      | nil => exact ⟨[], rfl, trivial, (Except.ok.inj h).symm⟩
      | cons arg following =>
          rw [parse] at h
          obtain ⟨next, hstep, hparse⟩ := of_bind_eq_ok h
          obtain ⟨o, rest, htaken⟩ := taken_of_step hstep
          obtain rfl := htaken.next
          have hfollowing := htaken.following
          subst hfollowing
          dsimp only at hparse
          rw [parse_append] at hparse
          have hshorter : rest.length < length := by
            rw [← hlength, List.length_cons, List.length_append]
            omega
          obtain ⟨os, rfl, haccepts, hst'⟩ := ih rest.length hshorter hparse rfl
          refine ⟨o :: os, ?_, ⟨htaken.admissible, htaken.allows, haccepts⟩, hst'⟩
          rw [writtenAll_cons, htaken.arg]

/-- The loop goes through exactly the lines of options that it accepts. -/
theorem parse_eq_ok_iff {argv : List Text} {st' : CommandLine} :
    parse beyond 0 argv st = .ok st' ↔
      ∃ os, argv = writtenAll os ∧ Accepts beyond st os ∧ st' = os.foldl apply st := by
  refine ⟨accepts_of_parse, ?_⟩
  rintro ⟨os, rfl, haccepts, rfl⟩
  exact parse_of_accepts haccepts

end

end CommandLine

end PublisherSubscriber
