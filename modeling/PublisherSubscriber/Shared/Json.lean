import PublisherSubscriber.Shared.Text
import Mathlib.Data.List.Nodup

/-!
# JSON values

The part of `Json::Value` that the programs use.  The reader and the writer of
the library are parameters; the conversions applied to a parsed value are
embedded, because what the decoders accept depends on them.
-/

namespace PublisherSubscriber

/-- A double is seen through two conversions only: `asInt`, which truncates it
when it is in the range of `int`, and `asString`. -/
structure Double where
  truncated : Option ℤ
  decimal : Text
  deriving DecidableEq, Repr

/-- The members of an object are listed in the order of its `std::map`.  A value has no
comments: the programs give it none, and never write one they have read. -/
inductive Json
  | null
  | int (value : ℤ)
  | uint (value : ℕ)
  | real (value : Double)
  | string (value : Text)
  | bool (value : Bool)
  | array (elements : List Json)
  | object (members : List (Text × Json))

namespace Json

def asString : Json → Except CppException Text
  | null => .ok []
  | string s => .ok s
  | bool b => .ok (ascii (if b then "true" else "false"))
  | int n => .ok (to_string n)
  | uint n => .ok (to_string n)
  | real r => .ok r.decimal
  | array _ => .error (.jsonLogicError "Type is not convertible to string")
  | object _ => .error (.jsonLogicError "Type is not convertible to string")

def asInt : Json → Except CppException ℤ
  | int n =>
      if intMin ≤ n ∧ n ≤ intMax then .ok n
      else .error (.jsonLogicError "LargestInt out of Int range")
  | uint n =>
      if (n : ℤ) ≤ intMax then .ok n
      else .error (.jsonLogicError "LargestUInt out of Int range")
  | real r =>
      match r.truncated with
      | some n => .ok n
      | none => .error (.jsonLogicError "double out of Int range")
  | null => .ok 0
  | bool b => .ok (if b then 1 else 0)
  | string _ => .error (.jsonLogicError "Value is not convertible to Int.")
  | array _ => .error (.jsonLogicError "Value is not convertible to Int.")
  | object _ => .error (.jsonLogicError "Value is not convertible to Int.")

def isMember (v : Json) (key : Text) : Except CppException Bool :=
  match v with
  | null => .ok false
  | object members => .ok (members.lookup key).isSome
  | _ => .error (.jsonLogicError
      "in Json::Value::find(begin, end): requires objectValue or nullValue")

def getMemberNames : Json → Except CppException (List Text)
  | null => .ok []
  | object members => .ok (members.map Prod.fst)
  | _ => .error (.jsonLogicError
      "in Json::Value::getMemberNames(), value must be objectValue")

/-- `operator[]` of a name reads an absent member as null. -/
def index (v : Json) (key : Text) : Except CppException Json :=
  match v with
  | null => .ok null
  | object members => .ok ((members.lookup key).getD null)
  | _ => .error (.jsonLogicError
      "in Json::Value::resolveReference(key, end): requires objectValue")

/-- `root[key].asString()`. -/
def memberText (v : Json) (key : Text) : Except CppException Text := v.index key >>= asString

/-- `root[key] = value` keeps the members sorted by the bytes of their names. -/
def assign (key : Text) (value : Json) : List (Text × Json) → List (Text × Json)
  | [] => [(key, value)]
  | (k, v) :: members =>
      if key = k then (k, value) :: members
      else if key < k then (key, value) :: (k, v) :: members
      else (k, v) :: assign key value members

/-- A default-constructed value that was only assigned to by name. -/
def ofMembers : List (Text × Json) → Json
  | [] => null
  | member :: members => object (member :: members)

mutual

/-- The text of a value without indentation, as long as no string needs an escape. -/
def compact : Json → Text
  | null => ascii "null"
  | int n => to_string n
  | uint n => to_string n
  | real r => r.decimal
  | string s => ascii "\"" ++ s ++ ascii "\""
  | bool b => ascii (if b then "true" else "false")
  | array elements => ascii "[" ++ compactElements elements ++ ascii "]"
  | object members => ascii "\x7b" ++ compactMembers members ++ ascii "\x7d"

def compactElements : List Json → Text
  | [] => []
  | [v] => compact v
  | v :: elements => compact v ++ ascii "," ++ compactElements elements

def compactMembers : List (Text × Json) → Text
  | [] => []
  | [(key, v)] => ascii "\"" ++ key ++ ascii "\":" ++ compact v
  | (key, v) :: members =>
      ascii "\"" ++ key ++ ascii "\":" ++ compact v ++ ascii "," ++ compactMembers members

end

theorem asInt_eq_error {v : Json} {e : CppException} (h : v.asInt = .error e) :
    ∃ what, e = .jsonLogicError what := by
  unfold asInt at h
  cases v with
  | null => cases h
  | bool b => cases h
  | int n =>
      dsimp only at h
      split_ifs at h
      exact ⟨_, (Except.error.inj h).symm⟩
  | uint n =>
      dsimp only at h
      split_ifs at h
      exact ⟨_, (Except.error.inj h).symm⟩
  | real r =>
      dsimp only at h
      cases hr : r.truncated <;> rw [hr] at h
      · exact ⟨_, (Except.error.inj h).symm⟩
      · cases h
  | string s => exact ⟨_, (Except.error.inj h).symm⟩
  | array elements => exact ⟨_, (Except.error.inj h).symm⟩
  | object members => exact ⟨_, (Except.error.inj h).symm⟩

@[simp] theorem lookup_assign_self (key : Text) (value : Json) (members : List (Text × Json)) :
    (assign key value members).lookup key = some value := by
  induction members with
  | nil => simp [assign]
  | cons member members ih =>
      obtain ⟨k, v⟩ := member
      by_cases hk : key = k
      · simp [assign, hk]
      · by_cases hlt : key < k
        · simp [assign, hk, hlt]
        · have hbeq : (key == k) = false := beq_false_of_ne hk
          simp [assign, hk, hlt, List.lookup_cons, hbeq, ih]

theorem lookup_assign_ne {key other : Text} (hne : other ≠ key) (value : Json)
    (members : List (Text × Json)) :
    (assign key value members).lookup other = members.lookup other := by
  have hbeq : (other == key) = false := beq_false_of_ne hne
  induction members with
  | nil => simp [assign, hne]
  | cons member members ih =>
      obtain ⟨k, v⟩ := member
      by_cases hk : key = k
      · subst hk
        simp [assign, List.lookup_cons, hbeq]
      · by_cases hlt : key < k
        · simp [assign, hk, hlt, List.lookup_cons, hbeq]
        · simp [assign, hk, hlt, List.lookup_cons, ih]

end Json

/-- The reader answers `none` where `reader->parse` returns false; it can also
throw, past its nesting limit. -/
structure JsonLibrary where
  parse : Text → Except CppException (Option Json)
  writeString : Json → Text

/-- The library reads back the value it wrote. -/
def JsonLibrary.ReadsBack (library : JsonLibrary) (v : Json) : Prop :=
  library.parse (library.writeString v) = .ok (some v)

/-- A library that knows the texts of these values, and takes no other text for JSON. -/
def JsonLibrary.ofValues (values : List Json) : JsonLibrary where
  parse text := .ok (values.find? fun v ↦ v.compact = text)
  writeString := Json.compact

theorem JsonLibrary.readsBack_ofValues {values : List Json} {v : Json} (hv : v ∈ values)
    (hdistinct : ∀ u ∈ values, u.compact = v.compact → u = v) : (ofValues values).ReadsBack v := by
  have hfound : (values.find? fun u ↦ u.compact = v.compact).isSome := by
    rw [List.find?_isSome]
    exact ⟨v, hv, by simp⟩
  obtain ⟨u, hu⟩ := Option.isSome_iff_exists.mp hfound
  have hsame : u = v := by
    apply hdistinct u (List.mem_of_find?_eq_some hu)
    simpa using List.find?_some hu
  simp only [ReadsBack, ofValues, hu, hsame]

theorem JsonLibrary.readsBack_ofValues_of_nodup {values : List Json}
    (hnodup : (values.map Json.compact).Nodup) {v : Json} (hv : v ∈ values) :
    (ofValues values).ReadsBack v :=
  readsBack_ofValues hv fun _ hu hsame ↦ List.inj_on_of_nodup_map hnodup hu hv hsame

theorem JsonLibrary.readsBack_ofValues_head (v : Json) (values : List Json) :
    (ofValues (v :: values)).ReadsBack v := by
  simp [ReadsBack, ofValues]

end PublisherSubscriber
