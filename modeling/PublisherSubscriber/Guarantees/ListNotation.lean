import PublisherSubscriber.Shared.ArrayString
import PublisherSubscriber.Shared.RoundTrip

/-!
# What the list notation carries

A list that is set as an argument of a response is read back from the text of
that argument, unless an element is cut at a comma, loses a blank or vanishes
at the end.
-/

namespace PublisherSubscriber

namespace Response

theorem getResponseArgument_setResponseArgumentList {r : Response} (hr : r.WellFormed)
    {argumentName : CommunicationParameters} (ha : argumentName ∈ r.availableResponseArguments)
    (elements : List Text) :
    (r.setResponseArgumentList argumentName elements).2.getResponseArgument argumentName =
      .ok (arrayString elements) := by
  have hset := congrArg Prod.snd (setResponseArgument_of_mem ha (arrayString elements))
  have hmem : argumentName ∈
      (r.setResponseArgumentList argumentName elements).2.availableResponseArguments := by
    rwa [setResponseArgumentList, availableResponseArguments_setResponseArgument]
  rw [getResponseArgument_of_mem hmem, setResponseArgumentList, hset]
  exact congrArg Except.ok (Slots.read_write_self hr.length ha (arrayString elements))

end Response

/-- A list comes back exactly when no element has a comma or a blank at an end,
and the last element, if there is one, is not empty. -/
theorem list_read_back_iff {r : Response} (hr : r.WellFormed)
    {argumentName : CommunicationParameters} (ha : argumentName ∈ r.availableResponseArguments)
    (elements : List Text) :
    ((r.setResponseArgumentList argumentName elements).2.getResponseArgument argumentName).bind
        arrayStringToVectorString = .ok elements ↔
      (∀ element ∈ elements, comma ∉ element) ∧
        (∀ element ∈ elements, element.head? ≠ some space ∧ element.getLast? ≠ some space) ∧
        (elements = [] ∨ ∃ last, elements.getLast? = some last ∧ last ≠ []) := by
  have hlast : elements.getLast? ≠ some [] ↔
      elements = [] ∨ ∃ last, elements.getLast? = some last ∧ last ≠ [] := by
    rcases List.eq_nil_or_concat' elements with rfl | ⟨init, last, rfl⟩
    · simp
    · simp
  rw [Response.getResponseArgument_setResponseArgumentList hr ha]
  refine (arrayStringToVectorString_eq_ok_iff elements).trans ?_
  rw [hlast]
  simp only [PlainElement, forall_and, and_assoc]

/-- Brackets, inner blanks and an empty element in front are carried. -/
theorem list_read_back_brackets :
    let elements := [[], ascii "[a b]", ascii "]"]
    (((Response.new .listTopics).setResponseArgumentList .topics elements).2.getResponseArgument
      .topics).bind arrayStringToVectorString = .ok elements := by
  intro elements
  have hr : (Response.new .listTopics).WellFormed := ⟨by decide, rfl⟩
  have ha : .topics ∈ (Response.new .listTopics).availableResponseArguments := by decide
  apply (list_read_back_iff hr ha elements).mpr
  exact ⟨by decide, by decide, Or.inr ⟨ascii "]", rfl, by decide⟩⟩

end PublisherSubscriber
