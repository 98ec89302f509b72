import PublisherSubscriber.Library.Separated
import PublisherSubscriber.Shared.Response

/-!
# The list notation

A response carries a list as one string, in brackets and with commas.  The
client takes the string apart without the code that put it together.
-/

namespace PublisherSubscriber

def comma : UInt8 := 44

def space : UInt8 := 32

/-- Brackets are not looked for: the first byte goes, and the last one. -/
def arrayStringToVectorString (stringToConvert : Text) : Except CppException (List Text) :=
  match stringToConvert with
  | [] => .error (.outOfRange "basic_string::substr")
  | _ :: str =>
      .ok ((Separated.getlines comma (str.take (stringToConvert.length - 2))).map
        (Separated.trim space))

theorem arrayString_eq (elements : List Text) :
    Response.arrayString elements = 91 :: (List.intercalate [comma] elements ++ [93]) := rfl

theorem arrayStringToVectorString_arrayString (elements : List Text) :
    arrayStringToVectorString (Response.arrayString elements) =
      .ok ((Separated.getlines comma (List.intercalate [comma] elements)).map
        (Separated.trim space)) := by
  have hlength : (91 :: (List.intercalate [comma] elements ++ [93])).length - 2 =
      (List.intercalate [comma] elements).length := by
    simp
  simp only [arrayString_eq, arrayStringToVectorString, hlength, List.take_left']

/-- What an element must be like to be read back. -/
def PlainElement (element : Text) : Prop :=
  comma ∉ element ∧ element.head? ≠ some space ∧ element.getLast? ≠ some space

instance : DecidablePred PlainElement := fun element ↦
  inferInstanceAs (Decidable (comma ∉ element ∧ element.head? ≠ some space ∧
    element.getLast? ≠ some space))

theorem arrayStringToVectorString_eq_ok_iff (elements : List Text) :
    arrayStringToVectorString (Response.arrayString elements) = .ok elements ↔
      (∀ element ∈ elements, PlainElement element) ∧ elements.getLast? ≠ some [] := by
  rw [arrayStringToVectorString_arrayString, Except.ok.injEq,
    Separated.map_trim_getlines_eq_iff]
  simp only [Separated.trim_eq_self_iff, PlainElement]

end PublisherSubscriber
