import PublisherSubscriber.Client.Options

/-!
# Which command lines are executed as they are written

The branch of `--publish` looks at the arguments and not at the command, so a
publication is taken after another command that has no words.  And a topic name
is refused for a dash in one of its first two places, where a keyword has both.
-/

namespace PublisherSubscriber

open CommandLineOption

namespace CommandLine

def commands (os : List CommandLineOption) : List CommandLineOption :=
  os.filter fun o ↦ o.keyword.isCommand

/-- The words that followed the occurrences of a keyword. -/
def given (c : Keyword) (os : List CommandLineOption) : List Text :=
  (os.filter fun o ↦ o.keyword = c).flatMap operands

/-- Whatever is executed is one command of the line with the words given to it,
and no words are given to another command. -/
def ExecutesWhatIsGiven (beyond : List Text → UInt8) (argv : List Text) : Prop :=
  ∀ st ops, main beyond argv = .ok (st, ops) →
    ∃ os c, argv = writtenAll os ∧ (∃ o ∈ commands os, o.keyword = c) ∧
      (∀ o ∈ commands os, o.keyword ≠ c → o.operands = []) ∧ ops = c.operations (given c os)

/-- The validators accept a setting. -/
def ValidSetting (o : CommandLineOption) : Prop :=
  match o.keyword with
  | .port => getPortNumber (o.operands.headD []) ≠ -1
  | .serverAddress => isValidIPv4Address (o.operands.headD []) = true
  | .serverPort => getPortNumber (o.operands.headD []) ≠ -1
  | _ => True

/-- Valid settings in any order, and one command; topic names are one or more, and
not empty. -/
def Documented (argv : List Text) (c : Keyword) (words : List Text) : Prop :=
  ∃ os o, argv = writtenAll os ∧ (∀ o ∈ os, ValidSetting o) ∧ commands os = [o] ∧
    o.keyword = c ∧ o.operands = words ∧
    (c.operandCount = none → words ≠ [] ∧ ∀ word ∈ words, word ≠ [])

def ExecutesDocumented (beyond : List Text → UInt8) (argv : List Text) : Prop :=
  ∀ c words, Documented argv c words → ∃ st, main beyond argv = .ok (st, c.operations words)

/-- Every option could stand in a line of its own command. -/
def AdmissibleAll (beyond : List Text → UInt8) : List CommandLineOption → Prop
  | [] => True
  | o :: os => Admissible beyond o (writtenAll os) ∧ AdmissibleAll beyond os

/-- A publication among the occurrences of a command, which have no words up to there. -/
def Mixes (c : Keyword) (os : List CommandLineOption) : Prop :=
  ∃ before o after, os = before ++ o :: after ∧ o.keyword = .publish ∧
    (∀ x ∈ before, x.keyword = c ∧ x.operands = []) ∧ ∀ x ∈ after, x.keyword = c

/-- The line begins with another command than the publication in it. -/
def MixesPublication (beyond : List Text → UInt8) (argv : List Text) : Prop :=
  ∃ os c first rest, argv = writtenAll os ∧ AdmissibleAll beyond os ∧
    commands os = first :: rest ∧ first.keyword = c ∧ c ≠ .publish ∧ Mixes c (first :: rest)

/-- The line is documented, and a topic name in it has a dash in one of its first two places. -/
def HasDashedName (argv : List Text) : Prop :=
  ∃ c words, Documented argv c words ∧ c.operandCount = none ∧
    ∃ word ∈ words, word[0]? = some dash ∨ word[1]? = some dash

/-! ## How commands combine -/

/-- What the loop requires of the commands of a line. -/
def Combine : Text → List Text → List CommandLineOption → Prop
  | _, _, [] => True
  | command, arguments, o :: os =>
      (if o.keyword = .publish then arguments = []
        else command = [] ∨ command = o.keyword.text) ∧
      Combine (if command = [] then o.keyword.text else command) (arguments ++ o.operands) os

theorem text_ne_nil (k : Keyword) : k.text ≠ [] := by
  cases k <;> decide

theorem operands_ne_nil_of_publish {o : CommandLineOption} (h : o.keyword = .publish) :
    o.operands ≠ [] := by
  have htakes := o.takes
  rw [h] at htakes
  intro hnil
  rw [hnil] at htakes
  cases htakes

theorem combine_cons_of_text {k : Keyword} {arguments : List Text} {o : CommandLineOption}
    {os : List CommandLineOption} :
    Combine k.text arguments (o :: os) ↔
      (if o.keyword = .publish then arguments = [] else k = o.keyword) ∧
        Combine k.text (arguments ++ o.operands) os := by
  have htext : k.text = [] ∨ k.text = o.keyword.text ↔ k = o.keyword := by
    constructor
    · rintro (h | h)
      · exact (text_ne_nil k h).elim
      · exact Keyword.text_injective h
    · rintro rfl
      exact Or.inr rfl
  simp only [Combine, htext, if_neg (text_ne_nil k)]

theorem combine_publish_iff {arguments : List Text} (harguments : arguments ≠ [])
    (os : List CommandLineOption) : Combine Keyword.publish.text arguments os ↔ os = [] := by
  cases os with
  | nil => exact iff_of_true trivial rfl
  | cons o os =>
      rw [combine_cons_of_text]
      apply iff_of_false _ (List.cons_ne_nil o os)
      rintro ⟨h, -⟩
      split_ifs at h with hpublish
      · exact harguments h
      · exact hpublish h.symm

theorem mixes_cons_iff {c : Keyword} (o : CommandLineOption) (os : List CommandLineOption) :
    Mixes c (o :: os) ↔ (o.keyword = .publish ∧ ∀ x ∈ os, x.keyword = c) ∨
      (o.keyword = c ∧ o.operands = [] ∧ Mixes c os) := by
  constructor
  · rintro ⟨before, p, after, hos, hp, hbefore, hafter⟩
    cases before with
    | nil =>
        obtain ⟨rfl, rfl⟩ := List.cons.inj hos
        exact Or.inl ⟨hp, hafter⟩
    | cons x before =>
        obtain ⟨rfl, rfl⟩ := List.cons.inj hos
        obtain ⟨⟨hkeyword, hempty⟩, hbefore⟩ := List.forall_mem_cons.mp hbefore
        exact Or.inr ⟨hkeyword, hempty, before, p, after, rfl, hp, hbefore, hafter⟩
  · rintro (⟨hp, hafter⟩ | ⟨hkeyword, hempty, before, p, after, rfl, hp, hbefore, hafter⟩)
    · exact ⟨[], o, os, rfl, hp, by simp, hafter⟩
    · exact ⟨o :: before, p, after, rfl, hp,
        List.forall_mem_cons.mpr ⟨⟨hkeyword, hempty⟩, hbefore⟩, hafter⟩

/-- Behind another command only that command is taken, and one publication as long
as there are no words. -/
theorem combine_other_iff {c : Keyword} (hc : c ≠ .publish) (arguments : List Text)
    (os : List CommandLineOption) :
    Combine c.text arguments os ↔
      (∀ o ∈ os, o.keyword = c) ∨ (arguments = [] ∧ Mixes c os) := by
  induction os generalizing arguments with
  | nil => exact iff_of_true trivial (Or.inl (by simp))
  | cons o os ih =>
      rw [combine_cons_of_text, ih, mixes_cons_iff, List.forall_mem_cons]
      by_cases hpublish : o.keyword = .publish
      · have hne := operands_ne_nil_of_publish hpublish
        simp [hpublish, hne, hc.symm]
      · rw [if_neg hpublish, List.append_eq_nil_iff]
        constructor
        · rintro ⟨rfl, hall | ⟨⟨rfl, hempty⟩, hmixes⟩⟩
          · exact Or.inl ⟨rfl, hall⟩
          · exact Or.inr ⟨rfl, Or.inr ⟨rfl, hempty, hmixes⟩⟩
        · rintro (⟨rfl, hall⟩ | ⟨rfl, ⟨h, -⟩ | ⟨rfl, hempty, hmixes⟩⟩)
          · exact ⟨rfl, Or.inl hall⟩
          · exact (hpublish h).elim
          · exact ⟨rfl, Or.inr ⟨⟨rfl, hempty⟩, hmixes⟩⟩

/-- The commands of a line: none, one publication, one kind of another command, or a
publication mixed into one. -/
theorem combine_iff (os : List CommandLineOption) :
    Combine [] [] os ↔ ∀ o rest, os = o :: rest →
      if o.keyword = .publish then rest = []
      else (∀ x ∈ os, x.keyword = o.keyword) ∨ Mixes o.keyword os := by
  cases os with
  | nil => exact iff_of_true trivial (by rintro o rest ⟨⟩)
  | cons o rest =>
      have hfirst : Combine [] [] (o :: rest) ↔ Combine o.keyword.text o.operands rest := by
        simp [Combine]
      rw [hfirst]
      by_cases hpublish : o.keyword = .publish
      · rw [hpublish, combine_publish_iff (operands_ne_nil_of_publish hpublish)]
        constructor
        · rintro rfl p rest ⟨⟩
          rw [if_pos hpublish]
        · intro h
          simpa [hpublish] using h o rest rfl
      · have hmixes : Mixes o.keyword (o :: rest) ↔ o.operands = [] ∧ Mixes o.keyword rest := by
          simp [mixes_cons_iff, hpublish]
        rw [combine_other_iff hpublish]
        constructor
        · rintro h p rest ⟨⟩
          rw [if_neg hpublish, hmixes, List.forall_mem_cons]
          exact h.imp_left fun hall ↦ ⟨rfl, hall⟩
        · intro h
          have hrest := h o rest rfl
          rw [if_neg hpublish, hmixes, List.forall_mem_cons] at hrest
          exact hrest.imp_left And.right

/-! ## What a line is parsed to -/

section

variable {beyond : List Text → UInt8} {st : CommandLine} {os : List CommandLineOption}

theorem commands_cons_of_command {o : CommandLineOption} (h : o.keyword.isCommand = true) :
    commands (o :: os) = o :: commands os :=
  List.filter_cons_of_pos h

theorem commands_cons_of_setting {o : CommandLineOption} (h : o.keyword.isCommand = false) :
    commands (o :: os) = commands os :=
  List.filter_cons_of_neg (by simp [h])

/-- Whether a line is accepted depends on its options one by one, and on its commands. -/
theorem accepts_iff :
    Accepts beyond st os ↔
      AdmissibleAll beyond os ∧ Combine st.command st.arguments (commands os) := by
  induction os generalizing st with
  | nil => exact iff_of_true trivial ⟨trivial, trivial⟩
  | cons o os ih =>
      rw [Accepts, AdmissibleAll, ih]
      cases hcommand : o.keyword.isCommand with
      | false =>
          have happly : (st.apply o).command = st.command ∧
              (st.apply o).arguments = st.arguments := apply_of_setting hcommand
          rw [happly.1, happly.2, commands_cons_of_setting hcommand]
          simp only [allows_of_setting hcommand, true_and, and_assoc]
      | true =>
          have happly : (st.apply o).command =
                (if st.command = [] then o.keyword.text else st.command) ∧
              (st.apply o).arguments = st.arguments ++ o.operands := apply_of_command hcommand
          rw [happly.1, happly.2, commands_cons_of_command hcommand, allows_of_command hcommand,
            Combine]
          constructor
          · rintro ⟨hadmissible, hallows, hos, hrest⟩
            exact ⟨⟨hadmissible, hos⟩, hallows, hrest⟩
          · rintro ⟨⟨hadmissible, hos⟩, hallows, hrest⟩
            exact ⟨hadmissible, hallows, hos, hrest⟩

theorem arguments_foldl (os : List CommandLineOption) (st : CommandLine) :
    (os.foldl apply st).arguments = st.arguments ++ (commands os).flatMap operands := by
  induction os generalizing st with
  | nil => simp [commands]
  | cons o os ih =>
      rw [List.foldl_cons, ih]
      cases hcommand : o.keyword.isCommand with
      | false => rw [(apply_of_setting hcommand).2, commands_cons_of_setting hcommand]
      | true =>
          rw [(apply_of_command hcommand).2, commands_cons_of_command hcommand, List.flatMap_cons,
            List.append_assoc]

theorem command_foldl_of_ne_nil (os : List CommandLineOption) (h : st.command ≠ []) :
    (os.foldl apply st).command = st.command := by
  induction os generalizing st with
  | nil => rfl
  | cons o os ih =>
      have hsame : (st.apply o).command = st.command := by
        cases hcommand : o.keyword.isCommand with
        | false => exact (apply_of_setting hcommand).1
        | true => rw [(apply_of_command hcommand).1, if_neg h]
      rw [List.foldl_cons, ih (hsame ▸ h), hsame]

theorem command_foldl_of_nil (os : List CommandLineOption) (h : st.command = []) :
    (os.foldl apply st).command =
      match commands os with
      | [] => []
      | first :: _ => first.keyword.text := by
  induction os generalizing st with
  | nil => exact h
  | cons o os ih =>
      rw [List.foldl_cons]
      cases hcommand : o.keyword.isCommand with
      | false =>
          rw [commands_cons_of_setting hcommand]
          exact ih ((apply_of_setting hcommand).1.trans h)
      | true =>
          have hc : (st.apply o).command = o.keyword.text := by
            rw [(apply_of_command hcommand).1, if_pos h]
          rw [command_foldl_of_ne_nil os (hc ▸ text_ne_nil _), hc,
            commands_cons_of_command hcommand]

theorem operations_of_command {c : Keyword} (hc : c.isCommand = true) (h : st.command = c.text)
    (hpublish : c = .publish → st.arguments.length = 2) :
    st.operations = .ok (c.operations st.arguments) := by
  cases c with
  | port | serverAddress | serverPort | debug => cases hc
  | publish =>
      obtain ⟨topicName, topicData, harguments⟩ := List.length_eq_two.mp (hpublish rfl)
      simp +decide [operations, h, Keyword.text, harguments, Keyword.operations]
  | _ => simp +decide [operations, h, Keyword.text, Keyword.operations]

theorem operations_of_nil (h : st.command = []) : ∃ e, st.operations = .error e :=
  ⟨_, by simp +decide [operations, h]; rfl⟩

theorem isCommand_of_commands {o : CommandLineOption} (h : o ∈ commands os) :
    o.keyword.isCommand = true :=
  (List.mem_filter.mp h).2

theorem main_of_accepts (haccepts : Accepts beyond {} os) {first : CommandLineOption}
    {rest : List CommandLineOption} (hcommands : commands os = first :: rest) :
    main beyond (writtenAll os) = .ok (os.foldl apply {},
      first.keyword.operations ((commands os).flatMap operands)) := by
  have hmem : first ∈ commands os := by simp [hcommands]
  have hfirst := isCommand_of_commands hmem
  have hcommand : (os.foldl apply ({} : CommandLine)).command = first.keyword.text := by
    rw [command_foldl_of_nil os rfl, hcommands]
  have harguments : (os.foldl apply ({} : CommandLine)).arguments =
      (commands os).flatMap operands := arguments_foldl os {}
  have hpublish : first.keyword = .publish →
      (os.foldl apply ({} : CommandLine)).arguments.length = 2 := by
    intro h
    have hcombine := (combine_iff _).mp (accepts_iff.mp haccepts).2 first rest hcommands
    rw [if_pos h] at hcombine
    have htakes := first.takes
    rw [h] at htakes
    rw [harguments, hcommands, hcombine]
    simpa [Keyword.Takes, Keyword.operandCount] using htakes
  rw [main, parse_of_accepts haccepts, Except.bind,
    operations_of_command hfirst hcommand hpublish, harguments]
  rfl

theorem accepts_of_main {argv : List Text} {ops : List ClientOperation}
    (h : main beyond argv = .ok (st, ops)) :
    ∃ os first rest, argv = writtenAll os ∧ Accepts beyond {} os ∧ commands os = first :: rest ∧
      ops = first.keyword.operations ((commands os).flatMap operands) := by
  obtain ⟨parsed, hparse, hops⟩ := of_bind_eq_ok h
  obtain ⟨os, rfl, haccepts, rfl⟩ := accepts_of_parse hparse
  cases hcommands : commands os with
  | nil =>
      have hcommand : (os.foldl apply ({} : CommandLine)).command = [] := by
        rw [command_foldl_of_nil os rfl, hcommands]
      obtain ⟨e, he⟩ := operations_of_nil hcommand
      rw [he] at hops
      cases hops
  | cons first rest =>
      have hmain := main_of_accepts haccepts hcommands
      rw [h] at hmain
      exact ⟨os, first, rest, rfl, haccepts, hcommands,
        hcommands ▸ (Prod.mk.inj (Except.ok.inj hmain)).2⟩

/-! ## Soundness -/

theorem given_of_forall {c : Keyword} (hc : c.isCommand = true)
    (h : ∀ o ∈ commands os, o.keyword = c) : given c os = (commands os).flatMap operands := by
  rw [given, commands]
  congr 1
  apply List.filter_congr
  intro o ho
  cases hcommand : o.keyword.isCommand with
  | false =>
      have hne : o.keyword ≠ c := by
        rintro rfl
        rw [hc] at hcommand
        cases hcommand
      exact decide_eq_false hne
  | true => exact decide_eq_true (h o (List.mem_filter.mpr ⟨ho, hcommand⟩))

theorem operations_ne_publish {c : Keyword} (hc : c.isCommand = true) (hne : c ≠ .publish)
    {arguments : List Text} (harguments : arguments ≠ []) (words : List Text) :
    c.operations arguments ≠ Keyword.publish.operations words := by
  obtain ⟨a, arguments, rfl⟩ := List.exists_cons_of_ne_nil harguments
  have hpublish : Keyword.publish.operations words = [] ∨
      ∃ topicName topicData, Keyword.publish.operations words =
        [.publishTopic topicName topicData] := by
    match words with
    | [] => exact Or.inl rfl
    | [_] => exact Or.inl rfl
    | [topicName, topicData] => exact Or.inr ⟨topicName, topicData, rfl⟩
    | _ :: _ :: _ :: _ => exact Or.inl rfl
  intro h
  cases c with
  | port | serverAddress | serverPort | debug => cases hc
  | publish => exact hne rfl
  | _ =>
      rcases hpublish with hnil | ⟨topicName, topicData, hsome⟩
      · rw [hnil] at h
        cases h
      · rw [hsome] at h
        cases h

/-- The words of a publication that is mixed in are not executed as one. -/
theorem not_executesWhatIsGiven_of_mixes {first : CommandLineOption}
    {rest : List CommandLineOption} (hadmissible : AdmissibleAll beyond os)
    (hcommands : commands os = first :: rest) (hother : first.keyword ≠ .publish)
    (hmixes : Mixes first.keyword (first :: rest)) :
    ¬ ExecutesWhatIsGiven beyond (writtenAll os) := by
  intro hsound
  have hcombine : Combine [] [] (commands os) := by
    rw [combine_iff, hcommands]
    rintro o rest ⟨⟩
    rw [if_neg hother]
    exact Or.inr hmixes
  have hmain := main_of_accepts (accepts_iff.mpr ⟨hadmissible, hcombine⟩) hcommands
  obtain ⟨os', c, hwritten, -, hothers, hops⟩ := hsound _ _ hmain
  obtain rfl := writtenAll_injective hwritten
  obtain ⟨before, o, after, hos, hpublish, -⟩ := hmixes
  have ho : o ∈ commands os := by
    rw [hcommands, hos]
    simp
  have hwords := operands_ne_nil_of_publish hpublish
  obtain rfl : .publish = c := by
    by_contra hc
    exact hwords (hothers o ho (hpublish ▸ hc))
  have hexecuted : (commands os).flatMap operands ≠ [] := fun hnil ↦
    hwords (List.flatMap_eq_nil_iff.mp hnil o ho)
  have hfirst : first ∈ commands os := by simp [hcommands]
  exact operations_ne_publish (isCommand_of_commands hfirst) hother hexecuted _ hops

theorem keyword_eq_of_combine {first : CommandLineOption} {rest : List CommandLineOption}
    (hcombine : Combine [] [] (first :: rest))
    (hmixed : first.keyword ≠ .publish → ¬ Mixes first.keyword (first :: rest)) :
    ∀ o ∈ first :: rest, o.keyword = first.keyword := by
  have hcases := (combine_iff _).mp hcombine first rest rfl
  split_ifs at hcases with hpublish
  · rw [hcases]
    simp
  · exact hcases.resolve_right (hmixed hpublish)

theorem executesWhatIsGiven_iff (beyond : List Text → UInt8) (argv : List Text) :
    ExecutesWhatIsGiven beyond argv ↔ ¬ MixesPublication beyond argv := by
  constructor
  · rintro hsound ⟨os, c, first, rest, rfl, hadmissible, hcommands, rfl, hother, hmixes⟩
    exact not_executesWhatIsGiven_of_mixes hadmissible hcommands hother hmixes hsound
  · intro hmixed st ops h
    obtain ⟨os, first, rest, rfl, haccepts, hcommands, rfl⟩ := accepts_of_main h
    obtain ⟨hadmissible, hcombine⟩ := accepts_iff.mp haccepts
    have hfirst : first ∈ commands os := by simp [hcommands]
    have hall : ∀ o ∈ commands os, o.keyword = first.keyword := by
      rw [hcommands]
      refine keyword_eq_of_combine (hcommands ▸ hcombine) fun hother hmixes ↦ ?_
      exact hmixed ⟨os, _, first, rest, rfl, hadmissible, hcommands, rfl, hother, hmixes⟩
    refine ⟨os, first.keyword, rfl, ⟨first, hfirst, rfl⟩, fun o ho hne ↦ ?_, ?_⟩
    · exact (hne (hall o ho)).elim
    · rw [given_of_forall (isCommand_of_commands hfirst) hall]

/-! ## Completeness -/

theorem admissible_of_mem (h : AdmissibleAll beyond os) {o : CommandLineOption} (ho : o ∈ os) :
    ∃ following, Admissible beyond o following := by
  induction os with
  | nil => exact absurd ho List.not_mem_nil
  | cons first os ih =>
      rcases List.mem_cons.mp ho with rfl | ho
      · exact ⟨_, h.1⟩
      · exact ih h.2 ho

theorem admissibleAll_of_forall
    (h : ∀ o ∈ os, ∀ following, Admissible beyond o following) : AdmissibleAll beyond os := by
  induction os with
  | nil => trivial
  | cons o os ih =>
      obtain ⟨ho, hos⟩ := List.forall_mem_cons.mp h
      exact ⟨ho _, ih hos⟩

/-- A name that is not empty, without a dash in its first two places, is taken
whatever follows. -/
theorem isTopicName_of_ne_nil {word : Text} (hne : word ≠ []) (hfirst : word[0]? ≠ some dash)
    (hsecond : word[1]? ≠ some dash) (following : List Text) :
    IsTopicName beyond word following := by
  match word with
  | [] => exact (hne rfl).elim
  | [c] =>
      have hterminator : (0 : UInt8) ≠ dash := by decide
      exact ⟨by simpa using hfirst, hterminator⟩
  | c :: d :: rest => exact ⟨by simpa using hfirst, by simpa [secondByte] using hsecond⟩

theorem areTopicNames_of_forall {words : List Text}
    (h : ∀ word ∈ words, ∀ following, IsTopicName beyond word following) (following : List Text) :
    AreTopicNames beyond words following := by
  induction words with
  | nil => trivial
  | cons word words ih =>
      obtain ⟨hword, hwords⟩ := List.forall_mem_cons.mp h
      exact ⟨hword _, ih hwords⟩

theorem AreTopicNames.isTopicName {words following : List Text}
    (h : AreTopicNames beyond words following) {word : Text} (hword : word ∈ words) :
    ∃ rest, IsTopicName beyond word rest := by
  induction words with
  | nil => exact absurd hword List.not_mem_nil
  | cons first words ih =>
      rcases List.mem_cons.mp hword with rfl | hword
      · exact ⟨_, h.1⟩
      · exact ih h.2 hword

theorem not_isTopicName_of_dash {word : Text} (h : word[0]? = some dash ∨ word[1]? = some dash)
    (following : List Text) : ¬ IsTopicName beyond word following := by
  rintro ⟨hfirst, hsecond⟩
  match word with
  | [] => simp at h
  | [c] =>
      obtain rfl : c = dash := by simpa using h
      exact hfirst rfl
  | c :: d :: rest =>
      rcases h with h | h
      · obtain rfl : c = dash := by simpa using h
        exact hfirst rfl
      · obtain rfl : d = dash := by simpa using h
        exact hsecond rfl

theorem admissible_of_documented {o : CommandLineOption} (hvalid : ValidSetting o)
    (hnames : o.keyword.operandCount = none →
      o.operands ≠ [] ∧ ∀ word ∈ o.operands, ∀ following, IsTopicName beyond word following)
    (following : List Text) : Admissible beyond o following := by
  obtain ⟨keyword, operands, htakes⟩ := o
  cases keyword with
  | port | serverAddress | serverPort => exact hvalid
  | debug | publish | listTopics => trivial
  | subscribe | getTopicStatus =>
      obtain ⟨hne, hnames⟩ := hnames rfl
      exact ⟨areTopicNames_of_forall hnames following, by simp [hne]⟩

theorem isCommand_of_operandCount {k : Keyword} (h : k.operandCount = none) :
    k.isCommand = true := by
  cases k with
  | subscribe | getTopicStatus => rfl
  | _ => cases h

theorem not_executesDocumented_of_dash {argv words : List Text} {c : Keyword}
    (hdocumented : Documented argv c words) (hnames : c.operandCount = none) {word : Text}
    (hword : word ∈ words) (hdash : word[0]? = some dash ∨ word[1]? = some dash) :
    ¬ ExecutesDocumented beyond argv := by
  intro hcomplete
  obtain ⟨st, hmain⟩ := hcomplete c words hdocumented
  obtain ⟨os, o, rfl, -, hcommands, rfl, rfl, -⟩ := hdocumented
  obtain ⟨os', _, _, hwritten, haccepts, -⟩ := accepts_of_main hmain
  obtain rfl := writtenAll_injective hwritten
  have ho : o ∈ os := List.mem_of_mem_filter (by
    rw [← commands, hcommands]
    exact List.mem_singleton_self o)
  obtain ⟨following, hadmissible⟩ := admissible_of_mem (accepts_iff.mp haccepts).1 ho
  have htopics := ((admissible_iff_of_operandCount hnames).mp hadmissible).1
  obtain ⟨rest, hname⟩ := htopics.isTopicName hword
  exact not_isTopicName_of_dash hdash rest hname

theorem combine_singleton (o : CommandLineOption) : Combine [] [] [o] := by
  rw [combine_iff]
  rintro x rest ⟨⟩
  split_ifs
  · rfl
  · exact Or.inl (by simp)

theorem executesDocumented_iff (beyond : List Text → UInt8) (argv : List Text) :
    ExecutesDocumented beyond argv ↔ ¬ HasDashedName argv := by
  constructor
  · rintro hcomplete ⟨c, words, hdocumented, hnames, word, hword, hdash⟩
    exact not_executesDocumented_of_dash hdocumented hnames hword hdash hcomplete
  · intro hdashed c words hdocumented
    obtain ⟨os, o, rfl, hvalid, hcommands, rfl, rfl, hwords⟩ := id hdocumented
    have hadmissible : AdmissibleAll beyond os := by
      refine admissibleAll_of_forall fun x hx ↦ admissible_of_documented (hvalid x hx) ?_
      intro hnames
      have hx : x ∈ commands os := List.mem_filter.mpr ⟨hx, isCommand_of_operandCount hnames⟩
      obtain rfl := List.mem_singleton.mp (hcommands ▸ hx)
      obtain ⟨hne, hfilled⟩ := hwords hnames
      refine ⟨hne, fun word hword following ↦ ?_⟩
      have hplain : ¬ (word[0]? = some dash ∨ word[1]? = some dash) := fun hdash ↦
        hdashed ⟨_, _, hdocumented, hnames, word, hword, hdash⟩
      obtain ⟨hfirst, hsecond⟩ := not_or.mp hplain
      exact isTopicName_of_ne_nil (hfilled word hword) hfirst hsecond following
    have haccepts : Accepts beyond {} os :=
      accepts_iff.mpr ⟨hadmissible, hcommands ▸ combine_singleton o⟩
    have hmain := main_of_accepts haccepts hcommands
    rw [hcommands, List.flatMap_singleton] at hmain
    exact ⟨_, hmain⟩

end

end CommandLine

/-- A line is executed as it is written, and if it is documented, exactly when no
publication is mixed into another command and no topic name has one of these dashes. -/
theorem commandLine_sound_and_complete_iff (beyond : List Text → UInt8) (argv : List Text) :
    CommandLine.ExecutesWhatIsGiven beyond argv ∧ CommandLine.ExecutesDocumented beyond argv ↔
      ¬ CommandLine.MixesPublication beyond argv ∧ ¬ CommandLine.HasDashedName argv :=
  and_congr (CommandLine.executesWhatIsGiven_iff beyond argv)
    (CommandLine.executesDocumented_iff beyond argv)

/-- The topic and the message of a publication are subscribed to, and a topic with a
dash in its second place is refused. -/
theorem commandLine_publication_is_subscribed_to :
    let beyond : List Text → UInt8 := fun _ ↦ 0
    let mixed := ["--subscribe", "--publish", "news", "hello"].map ascii
    let dashed := ["--subscribe", "a-b"].map ascii
    ((CommandLine.main beyond mixed).map Prod.snd =
        .ok [.subscribeTopic (ascii "news"), .subscribeTopic (ascii "hello")] ∧
      ¬ (CommandLine.ExecutesWhatIsGiven beyond mixed ∧
        CommandLine.ExecutesDocumented beyond mixed)) ∧
    (CommandLine.main beyond dashed = .error (.failure (ascii ("Unknown argument, invalid " ++
        "combination of commands or missing values for: a-b"))) ∧
      ¬ (CommandLine.ExecutesWhatIsGiven beyond dashed ∧
        CommandLine.ExecutesDocumented beyond dashed)) := by
  intro beyond mixed dashed
  have hname : Keyword.subscribe.Takes [ascii "a-b"] := by
    refine List.forall_mem_singleton.mpr ?_
    rintro ⟨rest, hrest⟩
    cases hrest
  let subscribe : CommandLineOption := ⟨.subscribe, [], by simp [Keyword.Takes,
    Keyword.operandCount]⟩
  let publish : CommandLineOption := ⟨.publish, [ascii "news", ascii "hello"], rfl⟩
  refine ⟨⟨by decide +kernel, fun h ↦ ?_⟩, by decide +kernel, fun h ↦ ?_⟩
  · apply (CommandLine.executesWhatIsGiven_iff beyond mixed).mp h.1
    refine ⟨[subscribe, publish], .subscribe, subscribe, [publish], rfl, ?_, rfl, rfl, by decide,
      [subscribe], publish, [], rfl, rfl, ?_, ?_⟩
    · exact ⟨⟨trivial, by simp⟩, trivial, trivial⟩
    · exact List.forall_mem_singleton.mpr ⟨rfl, rfl⟩
    · simp
  · apply (CommandLine.executesDocumented_iff beyond dashed).mp h.2
    refine ⟨.subscribe, [ascii "a-b"], ⟨[⟨.subscribe, [ascii "a-b"], hname⟩],
      ⟨.subscribe, [ascii "a-b"], hname⟩, rfl, ?_, rfl, rfl, rfl, fun _ ↦ ?_⟩, rfl, ascii "a-b",
      List.mem_singleton_self _, Or.inr (by decide)⟩
    · exact List.forall_mem_singleton.mpr trivial
    · exact ⟨by simp, List.forall_mem_singleton.mpr (by decide)⟩

end PublisherSubscriber
