import Stepbook.Proofs.Source.Head

/-! # Finding what was written

A script that is written from registrations is found to hold exactly their definitions, whatever
their tails hold.

* `Registration.head`: how a registration starts.
* `step_call`: a registration is found as a whole.
* `findings_text`: all registrations of a script.
* `extract_text`: what is extracted from a script.
-/

namespace Stepbook.Source
set_option autoImplicit false

open Place

/-! ## Calls -/

theorem ofName?_keyword (call : Registration) : StepType.ofName? call.keyword = some call.type := by
  rw [StepType.ofName?, call.keyword_eq]
  cases call.type <;> decide

def Registration.head (call : Registration) : Head :=
  ⟨call.type, call.keyword, ofName?_keyword call, call.before⟩

theorem text_head (call : Registration) (rest : List Char) :
    call.text ++ rest = call.head.text ++ (call.arguments ++ rest) :=
  List.append_assoc ..

theorem call_text (call : Registration) (before rest : List Char) :
    Place.call ⟨before, call.text ++ rest⟩ call.type call.head.text.length =
      (.definition call.definition, call.text.length) := by
  have hlength : call.head.text.length + call.arguments.length = call.text.length :=
    List.length_append.symm
  have hclosing : (advance ⟨before, call.text ++ rest⟩ call.head.text.length).closing =
      some call.arguments.length := by
    rw [text_head, advance_append, closing_arguments]
  have hinside : (call.text ++ rest).drop (call.head.text.length + 1) =
      call.inside.flatMap Gap.text ++
        (call.literal.text ++ (call.tail.flatMap Item.text ++ [')'] ++ rest)) := by
    rw [text_head, ← List.drop_drop, List.drop_left]
    simp [Registration.arguments]
  have htrivia : triviaLength (call.inside.flatMap Gap.text ++
      (call.literal.text ++ (call.tail.flatMap Item.text ++ [')'] ++ rest))) =
        (call.inside.flatMap Gap.text).length := by
    rw [triviaLength_append, triviaLength_literal, Nat.add_zero]
  unfold Place.call
  simp only [hclosing, hinside, htrivia, List.drop_left, literalPattern_text, hlength,
    List.take_left]
  rfl

/-- A registration is found as a whole; what its tail holds is not looked at. -/
theorem step_call (call : Registration) (before rest : List Char) :
    step ⟨before, call.text ++ rest⟩ = ([.definition call.definition], call.text.length) := by
  have hcall := call_text call before rest
  have hhead := step_head call.head before (call.inside.flatMap Gap.text ++ call.literal.text ++
    call.tail.flatMap Item.text ++ [')'] ++ rest)
  have hbracket : '(' :: (call.inside.flatMap Gap.text ++ call.literal.text ++
      call.tail.flatMap Item.text ++ [')'] ++ rest) = call.arguments ++ rest := rfl
  rw [hbracket, ← text_head] at hhead
  rw [hhead]
  exact congrArg (fun found : Finding × Nat => ([found.1], found.2)) hcall

/-! ## Scripts -/

theorem step_separator {c : Char} (h : isSeparator c = true) (before rest : List Char) :
    step ⟨before, c :: rest⟩ = ([], 1) := by
  have hlexeme : lexeme ⟨before, c :: rest⟩ = (.other, 1) := by
    rw [lexeme]
    dsimp only
    simp only [isSeparator, Text.isAsciiBlank, Bool.or_eq_true, beq_iff_eq] at h
    rcases h with ((((rfl | rfl) | rfl) | rfl) | rfl) | rfl <;>
      exact lexemeFrom_other rfl (by decide) _ _
  unfold step
  simp only [hlexeme]

/-- All registrations of a script are found, and nothing else. -/
theorem findings_text (script : Script) (before : List Char) :
    findings ⟨before, script.text⟩ =
      script.calls.map fun call => .definition call.definition := by
  induction script generalizing before with
  | nil =>
    rw [findings]
    rfl
  | separator c isSeparator script ih =>
    have hstep : step ⟨before, [c] ++ script.text⟩ = ([], [c].length) :=
      step_separator isSeparator before script.text
    exact (findings_append (by simp) hstep).trans (ih _)
  | call first script ih =>
    have hne : first.text ≠ [] := by
      simp [Registration.text, Registration.arguments]
    have hfound := findings_append hne (step_call first before script.text)
    rw [ih] at hfound
    exact hfound

/-- What is extracted from a script: the definitions of its registrations in their order, each with
the whole text of its registration, and no call that is skipped. -/
theorem extract_text (script : Script) :
    (extract (String.ofList script.text)).definitions = script.calls.map Registration.definition ∧
      (extract (String.ofList script.text)).skipped = [] := by
  have hfindings : (extract (String.ofList script.text)).findings =
      script.calls.map fun call => .definition call.definition := by
    rw [extract, String.toList_ofList]
    exact findings_text script []
  rw [Extraction.definitions, Extraction.skipped, hfindings]
  refine ⟨?_, ?_⟩
  · rw [List.filterMap_map]
    have hsome : (Finding.definition? ∘ fun call => .definition (Registration.definition call)) =
        some ∘ Registration.definition := rfl
    rw [hsome, List.filterMap_eq_map]
  · rw [List.filterMap_map]
    exact List.filterMap_eq_nil_iff.2 fun call _ => rfl

end Stepbook.Source
