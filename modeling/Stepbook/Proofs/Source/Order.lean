import Mathlib.Data.List.Infix
import Stepbook.Source.Extraction

/-! # The order of findings

The definitions of a script stand in it one behind another, each as the source of its registration,
and are found in this order.

* `Definition.IsWritten`: a definition in its source.
* `Appear`: definitions that stand in a text in a row.
* `appear_extract`: those that are extracted from a script.
-/

namespace Stepbook.Source
set_option autoImplicit false

/-- The snippet of a definition is a text that starts with the keyword of its kind. -/
def IsWritten (text : List Char) (definition : Definition) : Prop :=
  definition.snippet.toList = text ∧
    ∃ keyword, keyword <+: text ∧ StepType.ofName? keyword = some definition.type

/-- Each definition is written in the text behind those before it. -/
inductive Appear : List Char → List Definition → Prop where
  | nil (text : List Char) : Appear text []
  | cons (gap : List Char) {call rest : List Char} {definition : Definition}
      {others : List Definition} (written : IsWritten call definition)
      (later : Appear rest others) : Appear (gap ++ (call ++ rest)) (definition :: others)

namespace Appear

theorem prepend {text : List Char} {definitions : List Definition} (h : Appear text definitions)
    (before : List Char) : Appear (before ++ text) definitions := by
  cases h with
  | nil => exact .nil _
  | cons gap written later =>
    rw [← List.append_assoc]
    exact .cons (before ++ gap) written later

/-- At most one definition, which is the whole text, in front of others. -/
theorem append {text rest : List Char} {first others : List Definition}
    (hfirst : first = [] ∨ ∃ definition, first = [definition] ∧ IsWritten text definition)
    (h : Appear rest others) : Appear (text ++ rest) (first ++ others) := by
  rcases hfirst with rfl | ⟨definition, rfl, hwritten⟩
  · exact h.prepend text
  · exact .cons [] hwritten h

end Appear

namespace Place

/-- A definition is the text of its call, which is as long as what the search passes over. -/
theorem definition?_call (place : Place) (type : StepType) (length : Nat) :
    (place.call type length).1.definition? = none ∨
      ∃ definition, (place.call type length).1.definition? = some definition ∧
        definition.type = type ∧ length ≤ (place.call type length).2 ∧
        definition.snippet.toList = place.rest.take (place.call type length).2 := by
  unfold call
  dsimp only
  split
  · exact .inl rfl
  · split
    · exact .inr ⟨_, rfl, rfl, Nat.le_add_right _ _, String.toList_ofList⟩
    · exact .inl rfl

theorem definitions_step (place : Place) :
    place.step.1.filterMap Finding.definition? = [] ∨
      ∃ definition, place.step.1.filterMap Finding.definition? = [definition] ∧
        IsWritten (place.rest.take place.step.2) definition := by
  unfold step
  dsimp only
  split
  · split
    · exact .inl rfl
    · next type htype =>
      split
      · obtain hnone | ⟨definition, hsome, rfl, hle, hsnippet⟩ :=
          definition?_call place type (place.lexeme.2 +
            triviaLength (place.rest.drop place.lexeme.2))
        · refine .inl ?_
          rw [List.filterMap_cons, hnone]
          rfl
        · refine .inr ⟨definition, ?_, hsnippet, _, ?_, htype⟩
          · rw [List.filterMap_cons, hsome]
            rfl
          · exact List.take_isPrefix_take.2 (.inl (by omega))
      · exact .inl rfl
  · exact .inl rfl

theorem appear_findings (place : Place) :
    Appear place.rest (place.findings.filterMap Finding.definition?) := by
  fun_induction findings place with
  | case1 place hend => exact .nil _
  | case2 place hrest ih =>
    rw [rest_advance] at ih
    have hstep := Appear.append (definitions_step place) ih
    rwa [List.take_append_drop, ← List.filterMap_append] at hstep

end Place

/-- The definitions of a script come in the order in which they are written. -/
theorem appear_extract (source : String) : Appear source.toList (extract source).definitions :=
  Place.appear_findings (Place.start source.toList)

end Stepbook.Source
