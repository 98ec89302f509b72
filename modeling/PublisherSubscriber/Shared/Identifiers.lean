import PublisherSubscriber.Shared.Text

/-!
# The enumerations of the protocol

Numbers received for an enumeration are cast without a check, so each of the
two enumerations that is read from a text has values without a name.
-/

namespace PublisherSubscriber

inductive CommandIdentifiers
  | subscribe
  | unsubscribe
  | publish
  | listTopics
  | getTopicStatus
  | unnamed (value : ℤ)
  deriving DecidableEq, Repr

namespace CommandIdentifiers

/-- `static_cast<int>`. -/
def toInt : CommandIdentifiers → ℤ
  | subscribe => 0
  | unsubscribe => 1
  | publish => 2
  | listTopics => 3
  | getTopicStatus => 4
  | unnamed n => n

/-- `static_cast<CommandIdentifiers>`. -/
def ofInt (n : ℤ) : CommandIdentifiers :=
  if n = 0 then subscribe
  else if n = 1 then unsubscribe
  else if n = 2 then publish
  else if n = 3 then listTopics
  else if n = 4 then getTopicStatus
  else unnamed n

def IsNamed : CommandIdentifiers → Prop
  | unnamed _ => False
  | _ => True

instance : DecidablePred IsNamed := fun c ↦ by
  cases c <;> unfold IsNamed <;> infer_instance

theorem ofInt_toInt {c : CommandIdentifiers} (hc : c.IsNamed) : ofInt c.toInt = c := by
  cases c <;> first | rfl | exact hc.elim

theorem toInt_ofInt (n : ℤ) : (ofInt n).toInt = n := by
  unfold ofInt
  split_ifs <;> simp_all [toInt]

theorem toInt_bounds {c : CommandIdentifiers} (hc : c.IsNamed) :
    intMin ≤ c.toInt ∧ c.toInt ≤ intMax := by
  cases c <;> first | exact hc.elim | decide

end CommandIdentifiers

inductive CommunicationParameters
  | topicName
  | clientPort
  | message
  | topics
  | messageTimestamp
  | subscribers
  deriving DecidableEq, Repr

namespace CommunicationParameters

def communicationParameterToStringDictionary : CommunicationParameters → Text
  | topicName => ascii "topicName"
  | clientPort => ascii "clientPort"
  | message => ascii "message"
  | topics => ascii "topics"
  | messageTimestamp => ascii "messageTimestamp"
  | subscribers => ascii "subscribers"

theorem communicationParameterToStringDictionary_injective :
    Function.Injective communicationParameterToStringDictionary := by
  intro a b h
  revert h
  cases a <;> cases b <;> decide

end CommunicationParameters

inductive Statuscode
  | success
  | failed
  | invalidParameter
  | internalError
  | unnamed (value : ℤ)
  deriving DecidableEq, Repr

namespace Statuscode

/-- `static_cast<int>`. -/
def toInt : Statuscode → ℤ
  | success => 0
  | failed => 1
  | invalidParameter => 2
  | internalError => 3
  | unnamed n => n

/-- `static_cast<Statuscode>`. -/
def ofInt (n : ℤ) : Statuscode :=
  if n = 0 then success
  else if n = 1 then failed
  else if n = 2 then invalidParameter
  else if n = 3 then internalError
  else unnamed n

def IsNamed : Statuscode → Prop
  | unnamed _ => False
  | _ => True

theorem ofInt_toInt {s : Statuscode} (hs : s.IsNamed) : ofInt s.toInt = s := by
  cases s <;> first | rfl | exact hs.elim

theorem ofInt_eq_success_iff (n : ℤ) : ofInt n = success ↔ n = 0 := by
  unfold ofInt
  split_ifs <;> simp_all

theorem toInt_bounds {s : Statuscode} (hs : s.IsNamed) :
    intMin ≤ s.toInt ∧ s.toInt ≤ intMax := by
  cases s <;> first | exact hs.elim | decide

end Statuscode

end PublisherSubscriber
