import Stepbook.Matcher
import Stepbook.Proofs.Expression.Rendering

/-! # Captured texts without a value

A whole number that does not fit in 64 bits is the only captured text that has no value. Of several
in one text, the leftmost is reported.

* `AllCoerce`, `FirstFault`: the values of captured texts, or the first of them that has none.
* `Regex.Language`: the texts that a regular expression matches from their start to their end.
* `ParameterType.language_iff`: those of the pattern of a placeholder are the ones that it admits.
* `coerce_eq`: the value of such a text, if it has one.
* `range_faults`: matching ends with an error only at a whole number out of range.
-/

namespace Stepbook
set_option autoImplicit false

namespace Expression

/-! ## Captures from left to right -/

/-- Each captured text has its value. -/
def AllCoerce (captures : List (List Char × ParameterType)) (values : List Value) : Prop :=
  List.Forall₂ (fun capture value => capture.2.coerce capture.1 = .ok value) captures values

/-- The first captured text that has no value. -/
def FirstFault (captures : List (List Char × ParameterType)) (error : CoercionError) : Prop :=
  ∃ before capture after, captures = before ++ capture :: after ∧
    (∀ earlier ∈ before, ∃ value, earlier.2.coerce earlier.1 = .ok value) ∧
    capture.2.coerce capture.1 = .error error

theorem coerceAll_eq_ok_iff {captures : List (List Char × ParameterType)} {values : List Value} :
    Compiled.coerceAll captures = .ok values ↔ AllCoerce captures values := by
  induction captures generalizing values with
  | nil =>
    constructor
    · intro h
      cases h
      exact .nil
    · intro h
      cases h
      rfl
  | cons capture captures ih =>
    rw [Compiled.coerceAll, bind_eq_ok]
    constructor
    · rintro ⟨value, hvalue, hrest⟩
      obtain ⟨others, hothers, heq⟩ := bind_eq_ok.1 hrest
      cases heq
      exact .cons hvalue (ih.1 hothers)
    · intro h
      cases h with
      | cons hvalue hothers => exact ⟨_, hvalue, bind_eq_ok.2 ⟨_, ih.2 hothers, rfl⟩⟩

theorem firstFault_cons {first : List Char × ParameterType}
    {captures : List (List Char × ParameterType)} {error : CoercionError} :
    FirstFault (first :: captures) error ↔ first.2.coerce first.1 = .error error ∨
      (∃ value, first.2.coerce first.1 = .ok value) ∧ FirstFault captures error := by
  constructor
  · rintro ⟨before, capture, after, heq, hbefore, hcapture⟩
    cases before with
    | nil =>
      obtain ⟨rfl, -⟩ := List.cons.inj heq
      exact .inl hcapture
    | cons earlier before =>
      obtain ⟨rfl, rfl⟩ := List.cons.inj heq
      obtain ⟨hfirst, hbefore⟩ := List.forall_mem_cons.1 hbefore
      exact .inr ⟨hfirst, before, capture, after, rfl, hbefore, hcapture⟩
  · rintro (hfirst | ⟨hfirst, before, capture, after, rfl, hbefore, hcapture⟩)
    · exact ⟨[], first, captures, rfl, fun _ hearlier => absurd hearlier List.not_mem_nil, hfirst⟩
    · exact ⟨first :: before, capture, after, rfl, List.forall_mem_cons.2 ⟨hfirst, hbefore⟩,
        hcapture⟩

theorem coerceAll_eq_error_iff {captures : List (List Char × ParameterType)}
    {error : CoercionError} :
    Compiled.coerceAll captures = .error error ↔ FirstFault captures error := by
  induction captures with
  | nil =>
    constructor
    · intro h
      cases h
    · rintro ⟨before, capture, after, heq, -⟩
      cases before <;> cases heq
  | cons first captures ih =>
    rw [firstFault_cons, ← ih, Compiled.coerceAll]
    cases first.2.coerce first.1 with
    | error fault => simp [bind, Except.bind]
    | ok value => cases Compiled.coerceAll captures <;> simp [bind, Except.bind, pure, Except.pure]

namespace Compiled
variable {compiled : Compiled} {text : List Char}

theorem match?_eq_none_iff : compiled.match? text = .ok none ↔ compiled.captures? text = none := by
  rw [match?]
  cases compiled.captures? text with
  | none => simp
  | some texts =>
    dsimp only
    cases coerceAll (texts.zip compiled.parameters) <;> simp [Except.map]

theorem match?_eq_some_iff {values : List Value} : compiled.match? text = .ok (some values) ↔
    ∃ texts, compiled.captures? text = some texts ∧
      AllCoerce (texts.zip compiled.parameters) values := by
  rw [match?]
  cases compiled.captures? text with
  | none => simp
  | some texts =>
    simp only [Option.some.injEq, exists_eq_left', ← coerceAll_eq_ok_iff]
    cases coerceAll (texts.zip compiled.parameters) <;> simp [Except.map]

theorem match?_eq_error_iff {error : CoercionError} : compiled.match? text = .error error ↔
    ∃ texts, compiled.captures? text = some texts ∧
      FirstFault (texts.zip compiled.parameters) error := by
  rw [match?]
  cases compiled.captures? text with
  | none => simp
  | some texts =>
    simp only [Option.some.injEq, exists_eq_left', ← coerceAll_eq_error_iff]
    cases coerceAll (texts.zip compiled.parameters) <;> simp [Except.map]

end Compiled

/-- What is captured are pieces of the placeholders, one for each. -/
theorem admits_of_captures? {expression : List Char} {compiled : Compiled}
    (h : compile expression = .ok compiled) {text : List Char} {texts : List (List Char)}
    (htexts : compiled.captures? text = some texts) :
    texts.length = compiled.parameters.length ∧
      ∀ capture ∈ texts.zip compiled.parameters, capture.2.admits capture.1 = true := by
  obtain ⟨read, made, hread, hmade, rfl⟩ := compile_eq_ok h
  have hsolid := solid_of_mem_tokens hread
  rw [Compiled.captures?, captures?_regex hsolid hmade, Option.map_eq_some_iff] at htexts
  obtain ⟨split, hsplit, rfl⟩ := htexts
  have hmem := List.mem_of_mem_head? hsplit
  rw [← types_of_mem_splits hsolid hmade hmem, List.zip_map', List.length_map, List.length_map]
  refine ⟨rfl, ?_⟩
  rw [List.map_id']
  exact admits_of_mem_captures (mem_splits_iff.1 hmem).admits

end Expression

/-! ## Texts of placeholders -/

namespace Regex

/-- The texts that match from their start to their end. -/
def Language (regex : Regex) (text : List Char) : Prop :=
  ∃ cursor ∈ regex.ends (.start text), cursor.place.rest = []

theorem Takes.language_iff {regex : Regex} {accepts : List Char → Bool}
    (h : regex.Takes fun text => (Expression.prefixes text).filter accepts) (text : List Char) :
    regex.Language text ↔ accepts text = true := by
  have hends : ∀ cursor, cursor ∈ regex.ends (.start text) ↔
      ∃ piece ∈ (Expression.prefixes text).filter accepts, (Cursor.start text).after piece = cursor := by
    intro cursor
    rw [h, List.mem_map]
    rfl
  constructor
  · rintro ⟨cursor, hcursor, hrest⟩
    obtain ⟨piece, hpiece, rfl⟩ := (hends cursor).1 hcursor
    obtain ⟨hfront, haccepts⟩ := List.mem_filter.1 hpiece
    obtain ⟨rest, rfl⟩ := Expression.mem_prefixes.1 hfront
    have hdrop : (piece ++ rest).drop piece.length = [] := hrest
    rw [List.drop_left] at hdrop
    subst hdrop
    rwa [List.append_nil]
  · intro haccepts
    refine ⟨(Cursor.start text).after text, (hends _).2 ⟨text, ?_, rfl⟩, List.drop_length⟩
    exact List.mem_filter.2 ⟨Expression.mem_prefixes.2 ⟨[], List.append_nil text⟩, haccepts⟩

end Regex

namespace ParameterType

theorem read_pattern (type : ParameterType) :
    Regex.read? type.pattern.toList = some type.regex := by
  cases type <;> rfl

theorem language_iff (type : ParameterType) (text : List Char) :
    type.regex.Language text ↔ type.admits text = true :=
  type.takes.language_iff text

/-! ## Whole numbers out of range -/

/-- A text of a placeholder has no value exactly if it is a whole number out of range. -/
theorem coerce_eq_error_iff {type : ParameterType} {text : List Char}
    (hadmits : type.admits text = true) {error : CoercionError} :
    type.coerce text = .error error ↔
      type = .int ∧ ¬ Decimal.IsInt64 (Decimal.signedValue text) ∧ error = outOfRange text := by
  constructor
  · intro herror
    have hfits : ¬ type.Fits text := by
      intro hfits
      rw [coerce_of_admits hadmits hfits] at herror
      cases herror
    obtain ⟨rfl, hrange⟩ := Classical.not_imp.1 hfits
    rw [coerce_int hadmits, if_neg hrange] at herror
    exact ⟨rfl, hrange, (Except.error.inj herror).symm⟩
  · rintro ⟨rfl, hrange, rfl⟩
    rw [coerce_int hadmits, if_neg hrange]

theorem exists_coerce_iff {type : ParameterType} {text : List Char}
    (hadmits : type.admits text = true) :
    (∃ value, type.coerce text = .ok value) ↔ type.Fits text := by
  constructor
  · rintro ⟨value, hvalue⟩ rfl
    by_contra hrange
    rw [coerce_int hadmits, if_neg hrange] at hvalue
    cases hvalue
  · intro hfits
    exact ⟨type.meaning text, coerce_of_admits hadmits hfits⟩

end ParameterType

namespace Expression

/-- The leftmost captured whole number out of range, and its error. -/
def RangeFault (captures : List (List Char × ParameterType)) (error : CoercionError) : Prop :=
  ∃ before text after, captures = before ++ (text, .int) :: after ∧
    (∀ earlier ∈ before, earlier.2.Fits earlier.1) ∧
    ¬ Decimal.IsInt64 (Decimal.signedValue text) ∧ error = ParameterType.outOfRange text

theorem firstFault_iff {captures : List (List Char × ParameterType)}
    (hadmits : ∀ capture ∈ captures, capture.2.admits capture.1 = true) {error : CoercionError} :
    FirstFault captures error ↔ RangeFault captures error := by
  have hbefore : ∀ {before after : List (List Char × ParameterType)},
      captures = before ++ after → ((∀ earlier ∈ before, ∃ value,
        earlier.2.coerce earlier.1 = .ok value) ↔ ∀ earlier ∈ before, earlier.2.Fits earlier.1) := by
    rintro before after rfl
    refine forall₂_congr fun earlier hearlier => ?_
    exact ParameterType.exists_coerce_iff (hadmits earlier (List.mem_append_left _ hearlier))
  constructor
  · rintro ⟨before, ⟨text, type⟩, after, heq, hvalues, herror⟩
    have hcapture := hadmits (text, type) (heq ▸ List.mem_append_right _ List.mem_cons_self)
    obtain ⟨rfl, hrange, rfl⟩ := (ParameterType.coerce_eq_error_iff hcapture).1 herror
    exact ⟨before, text, after, heq, (hbefore heq).1 hvalues, hrange, rfl⟩
  · rintro ⟨before, text, after, heq, hfits, hrange, rfl⟩
    have hcapture := hadmits (text, .int) (heq ▸ List.mem_append_right _ List.mem_cons_self)
    exact ⟨before, (text, .int), after, heq, (hbefore heq).2 hfits,
      (ParameterType.coerce_eq_error_iff hcapture).2 ⟨rfl, hrange, rfl⟩⟩

theorem value_test_eq_none {matcher : Matcher} {compiled : Compiled}
    (h : matcher.compiled = .expression compiled) {text : String} {error : CoercionError}
    (herror : compiled.match? text.toList = .error error) : (matcher.test text).value = none := by
  have harguments : matcher.arguments text = .error error := by
    rw [Matcher.arguments, h]
    exact herror
  rw [Matcher.test, harguments]

/-- A text that the pattern of a placeholder matches has a value, unless it is a whole number out of
range. Matching ends with an error exactly if such a number is captured, for the leftmost of them, and
a matcher then takes the text for one that does not match. -/
theorem range_faults :
    (∀ type : ParameterType, ∃ regex, Regex.read? type.pattern.toList = some regex ∧
      ∀ text, regex.Language text →
        (∀ error, type.coerce text = .error error ↔ type = .int ∧
          ¬ Decimal.IsInt64 (Decimal.signedValue text) ∧ error = ParameterType.outOfRange text) ∧
        (type.Fits text → type.coerce text = .ok (type.meaning text))) ∧
      ∀ (expression : List Char) (compiled : Compiled), compile expression = .ok compiled →
        ∀ (text : String) (error : CoercionError),
          (compiled.match? text.toList = .error error ↔
            ∃ texts, compiled.captures? text.toList = some texts ∧
              RangeFault (texts.zip compiled.parameters) error) ∧
          (compiled.match? text.toList = .error error → ∀ matcher : Matcher,
            matcher.compiled = .expression compiled → (matcher.test text).value = none) := by
  refine ⟨fun type => ⟨type.regex, type.read_pattern, fun text htext => ?_⟩,
    fun expression compiled hcompile text error => ⟨?_, ?_⟩⟩
  · have hadmits := (type.language_iff text).1 htext
    exact ⟨fun error => ParameterType.coerce_eq_error_iff hadmits,
      ParameterType.coerce_of_admits hadmits⟩
  · rw [Compiled.match?_eq_error_iff]
    refine exists_congr fun texts => and_congr_right fun htexts => ?_
    exact firstFault_iff (admits_of_captures? hcompile htexts).2
  · exact fun herror matcher hmatcher => value_test_eq_none hmatcher herror

/-- The least whole number in range, and the first one above it. -/
def leastBoxes : String :=
  "-009223372036854775808"

def tooManyBoxes : String :=
  "9223372036854775808"

theorem range_faults_boxes :
    ParameterType.int.coerce leastBoxes.toList = .ok (.int (-9223372036854775808)) ∧
      ∃ compiled, compile "{int}".toList = .ok compiled ∧
        compiled.match? tooManyBoxes.toList = .error ⟨.int, tooManyBoxes, .int .tooLarge⟩ ∧
        ∀ matcher : Matcher, matcher.compiled = .expression compiled →
          (matcher.test tooManyBoxes).value = none := by
  constructor
  · obtain ⟨regex, hread, hcoerce⟩ := range_faults.1 .int
    obtain rfl : ParameterType.int.regex = regex :=
      Option.some.inj ((ParameterType.read_pattern .int).symm.trans hread)
    have hlanguage := (ParameterType.language_iff .int leastBoxes.toList).2 (by decide)
    exact (hcoerce _ hlanguage).2 (by decide)
  · obtain ⟨compiled, hcompile⟩ : ∃ compiled, compile "{int}".toList = .ok compiled := ⟨_, rfl⟩
    obtain ⟨read, made, hread, hmade, rfl⟩ := compile_eq_ok hcompile
    have hcaptures := captures?_regex (solid_of_mem_tokens hread) hmade tooManyBoxes.toList
    cases hread
    cases hmade
    have hrange := range_faults.2 _ _ hcompile tooManyBoxes ⟨.int, tooManyBoxes, .int .tooLarge⟩
    have hnone : ∀ earlier ∈ ([] : List (List Char × ParameterType)),
        earlier.2.Fits earlier.1 := fun _ hearlier => absurd hearlier List.not_mem_nil
    have herror := hrange.1.2 ⟨_, hcaptures, [], tooManyBoxes.toList, [], rfl, hnone, by decide, rfl⟩
    exact ⟨_, hcompile, herror, hrange.2 herror⟩

end Expression

end Stepbook
