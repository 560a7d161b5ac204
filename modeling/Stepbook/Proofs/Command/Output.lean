import Stepbook.Proofs.Decimal.Layout
import Stepbook.Proofs.Json.Document

/-! # What commands print

The report of a command is a number of lines, or one JSON document. Either way it tells all that has
been found.

* `Prints`: lines one after another.
* `Value.Shows`, `Value.Entry`: an argument in the two formats.
* `Match.WrittenAs`, `Report.WrittenAs`: what is written of a match, and of the outcomes of a run.
* `writtenAs_writeMatch`, `writtenAs_writeReport`, `prints_writeExtractions`: the commands print
  that.
-/

namespace Stepbook
set_option autoImplicit false

open Json (Tree)

/-! ## Lines -/

/-- Each line has an end of its own. -/
inductive Prints : List String → String → Prop
  | nil : Prints [] ""
  | cons {lines : List String} {output : String} (line : String) (rest : Prints lines output) :
    Prints (line :: lines) (line ++ "\n" ++ output)

theorem unlines_cons (line : String) (lines : List String) :
    unlines (line :: lines) = line ++ "\n" ++ unlines lines := by
  rw [unlines, List.map_cons, String.join_cons]
  rfl

theorem prints_iff {lines : List String} {output : String} :
    Prints lines output ↔ output = unlines lines := by
  constructor
  · intro h
    induction h with
    | nil => rfl
    | cons line rest ih => rw [unlines_cons, ih]
  · rintro rfl
    induction lines with
    | nil => exact .nil
    | cons line lines ih =>
      rw [unlines_cons]
      exact .cons line ih

/-- What is written item by item is written of all items. -/
theorem forall₂_iff_eq_map {α β : Type} {Written : α → β → Prop} {write : α → β}
    (h : ∀ item written, Written item written ↔ written = write item) {items : List α}
    {all : List β} : List.Forall₂ Written items all ↔ all = items.map write := by
  have hwritten : Written = fun item written => write item = written := by
    funext item written
    exact propext ((h item written).trans eq_comm)
  rw [hwritten, ← @List.forall₂_map_left_iff _ _ _ Eq, List.forall₂_eq_eq_eq, eq_comm]

theorem joinWith_eq (between : String) (texts : List String) :
    Text.joinWith between texts = between.intercalate texts := by
  induction texts with
  | nil => rfl
  | cons first rest ih =>
    cases rest with
    | nil => rfl
    | cons second rest =>
      rw [Text.joinWith, ih, String.intercalate_cons_cons]
      exact List.cons_ne_nil _ _

/-! ## Quoted texts -/

namespace Text

/-- How a character is written between quotes. -/
inductive Escapes : Char → List Char → Prop
  | quote : Escapes '"' ['\\', '"']
  | backslash : Escapes '\\' ['\\', '\\']
  | tab : Escapes '\t' ['\\', 't']
  | carriageReturn : Escapes '\r' ['\\', 'r']
  | newline : Escapes '\n' ['\\', 'n']
  | null : Escapes '\x00' ['\\', '0']
  | plain {c : Char} (special : c ∉ ['"', '\\', '\t', '\r', '\n', '\x00'])
    (visible : isPlain c = true) : Escapes c [c]
  | code {c : Char} (special : c ∉ ['"', '\\', '\t', '\r', '\n', '\x00'])
    (hidden : isPlain c = false) :
    Escapes c ('\\' :: 'u' :: '{' :: Nat.toDigits 16 c.toNat ++ ['}'])

inductive Quotes : List Char → List Char → Prop
  | nil : Quotes [] []
  | cons {c : Char} {text written rest : List Char} (first : Escapes c written)
    (others : Quotes text rest) : Quotes (c :: text) (written ++ rest)

theorem escapeChar_of_not_mem {c : Char} (h : c ∉ ['"', '\\', '\t', '\r', '\n', '\x00']) :
    escapeChar c =
      if isPlain c then [c] else '\\' :: 'u' :: '{' :: Nat.toDigits 16 c.toNat ++ ['}'] := by
  unfold escapeChar
  split
  iterate 6 exact absurd (by decide) h
  rfl

theorem escapes_iff {c : Char} {written : List Char} :
    Escapes c written ↔ written = escapeChar c := by
  constructor
  · intro h
    cases h with
    | plain special visible => rw [escapeChar_of_not_mem special, if_pos visible]
    | code special hidden => rw [escapeChar_of_not_mem special, hidden, if_neg Bool.false_ne_true]
    | _ => rfl
  · rintro rfl
    by_cases hspecial : c ∈ ['"', '\\', '\t', '\r', '\n', '\x00']
    · simp only [List.mem_cons, List.not_mem_nil, or_false] at hspecial
      rcases hspecial with rfl | rfl | rfl | rfl | rfl | rfl
      · exact .quote
      · exact .backslash
      · exact .tab
      · exact .carriageReturn
      · exact .newline
      · exact .null
    · rw [escapeChar_of_not_mem hspecial]
      cases hvisible : isPlain c with
      | true => exact .plain hspecial hvisible
      | false => exact .code hspecial hvisible

theorem quotes_iff {text written : List Char} :
    Quotes text written ↔ written = text.flatMap escapeChar := by
  constructor
  · intro h
    induction h with
    | nil => rfl
    | cons first others ih => rw [List.flatMap_cons, ih, escapes_iff.1 first]
  · rintro rfl
    induction text with
    | nil => exact .nil
    | cons c text ih =>
      rw [List.flatMap_cons]
      exact .cons (escapes_iff.2 rfl) ih

theorem quote_eq (text : String) :
    quote text = "\"" ++ String.ofList (text.toList.flatMap escapeChar) ++ "\"" := by
  apply String.toList_injective
  simp [quote, quoteChars]

end Text

/-! ## Arguments -/

namespace Value

/-- An argument on a line: a float is the shortest decimal for it, as `Layout.write_spec` says. -/
inductive Shows : Value → String → Prop
  | int (value : Int) : Shows (.int value) (toString value)
  | float (value : Float) : Shows (.float value) (Decimal.plain.write value)
  | text {value : String} {written : List Char} (quotes : Text.Quotes value.toList written) :
    Shows (.text value) ("\"" ++ String.ofList written ++ "\"")

theorem shows_iff (value : Value) (shown : String) :
    value.Shows shown ↔ shown = value.display := by
  constructor
  · intro h
    cases h with
    | int value => rfl
    | float value => rfl
    | text quotes => rw [Text.quotes_iff.1 quotes, display, Text.quote_eq]
  · rintro rfl
    cases value with
    | int value => exact .int value
    | float value => exact .float value
    | text value =>
      rw [display, Text.quote_eq]
      exact .text (Text.quotes_iff.2 rfl)

/-- An argument in a JSON document, which has no numbers for what is not finite. -/
inductive Entry : Value → Tree → Prop
  | int (value : Int) : Entry (.int value) (.number (toString value))
  | float {value : Float} (finite : value.isFinite = true) :
    Entry (.float value) (.number (Decimal.json.write value))
  | nonFinite {value : Float} (infinite : value.isFinite = false) : Entry (.float value) .null
  | text (value : String) : Entry (.text value) (.string value)

theorem entry_iff (value : Value) (tree : Tree) : value.Entry tree ↔ tree = value.toJson := by
  constructor
  · intro h
    cases h with
    | int value => rfl
    | float finite => rw [toJson, if_pos finite]
    | nonFinite infinite => rw [toJson, infinite, if_neg Bool.false_ne_true]
    | text value => rfl
  · rintro rfl
    cases value with
    | int value => exact .int value
    | float value =>
      rw [toJson]
      cases hfinite : value.isFinite with
      | true => exact .float hfinite
      | false => exact .nonFinite hfinite
    | text value => exact .text value

theorem isNumber_toString_int (value : Int) : Json.isNumber (toString value).toList = true := by
  cases value with
  | ofNat n => exact Json.isNumber_toString n
  | negSucc n =>
    have hnumber := Json.isNumber_append (.inr rfl) (Json.isInteger_toDigits (n + 1)) .none .none
    rw [List.append_nil, List.append_nil] at hnumber
    have htext : (toString (Int.negSucc n)).toList = ['-'] ++ Nat.toDigits 10 (n + 1) := by
      show ("-" ++ Nat.repr (n + 1)).toList = _
      rw [String.toList_append, Nat.toList_repr]
      rfl
    rwa [htext]

theorem proper_toJson (value : Value) : value.toJson.Proper := by
  cases value with
  | int value => exact .number (isNumber_toString_int value)
  | float value =>
    rw [toJson]
    split
    · next hfinite => exact .number (Decimal.json.isNumber_write hfinite)
    · exact .null
  | text value => exact .string value

end Value

/-! ## Definitions and errors -/

/-- The name of a kind of step in messages and documents. -/
def StepType.keyword : StepType → String
  | .context => "given"
  | .action => "when"
  | .outcome => "then"

theorem StepType.name_eq (type : StepType) : type.name = type.keyword := by
  cases type <;> rfl

namespace Definition

/-- A definition on a line. -/
def caption (definition : Definition) : String :=
  (match definition.type with
    | .context => "Given "
    | .action => "When "
    | .outcome => "Then ") ++
  (match definition.variant with
    | .regex => "regex '"
    | .expression => "expression '") ++ definition.pattern ++ "'"

theorem line_eq (definition : Definition) : definition.line = definition.caption := by
  obtain ⟨type, pattern, variant, snippet⟩ := definition
  cases type <;> cases variant <;> rfl

/-- A definition in a JSON document. -/
def entry (definition : Definition) : Tree :=
  .object [
    ("type", .string definition.type.keyword),
    ("pattern", .string definition.pattern),
    ("variant", .string (match definition.variant with
      | .regex => "regex"
      | .expression => "expression")),
    ("source", .string definition.snippet)]

theorem toJson_eq (definition : Definition) : definition.toJson = definition.entry := by
  rw [toJson, entry, definition.type.name_eq]
  cases definition.variant <;> rfl

end Definition

/-- The message of an error. -/
inductive StepError.HasMessage : StepError → String → Prop
  | noMatchingStep (type : Option StepType) (text : String) :
    HasMessage (.noMatchingStep type text) ("no step definition matches \"" ++ text ++ "\"")
  | failed (message : String) : HasMessage (.failed message) message
  | panicked (message : String) : HasMessage (.panicked message) ("panicked: " ++ message)

theorem StepError.hasMessage_iff {error : StepError} {message : String} :
    error.HasMessage message ↔ message = error.message := by
  constructor
  · intro h
    cases h <;> rfl
  · rintro rfl
    cases error with
    | noMatchingStep type text => exact .noMatchingStep type text
    | failed message => exact .failed message
    | panicked message => exact .panicked message

/-! ## Matches -/

namespace Match

/-- What is written of a text and its match: the definition with the arguments, or that there is
none. -/
inductive WrittenAs (text : String) : Match → Format → String → Prop
  | foundText {definition : Definition} {arguments : List Value} {lines : List String}
    {output : String} (shown : List.Forall₂ Value.Shows arguments lines)
    (printed : Prints (definition.caption :: lines.map ("  " ++ ·)) output) :
    WrittenAs text (.ok (definition, arguments)) .text output
  | missingText {error : StepError} {message output : String} (hmessage : error.HasMessage message)
    (printed : Prints [message] output) : WrittenAs text (.error error) .text output
  | foundJson {definition : Definition} {arguments : List Value} {items : List Tree}
    {output : String} (entries : List.Forall₂ Value.Entry arguments items)
    (read : Json.read? output = some (.object [
      ("text", .string text),
      ("matched", .boolean true),
      ("definition", definition.entry),
      ("arguments", .array items)])) :
    WrittenAs text (.ok (definition, arguments)) .json output
  | missingJson {error : StepError} {output : String}
    (read : Json.read? output = some (.object [
      ("text", .string text),
      ("matched", .boolean false),
      ("definition", .null),
      ("arguments", .array [])])) :
    WrittenAs text (.error error) .json output

theorem proper_toJson (text : String) (found : Match) : (toJson text found).Proper := by
  have harguments := proper_array Value.proper_toJson (arguments found)
  have hdefinition : (Tree.ofOption ((definition? found).map Definition.toJson)).Proper := by
    cases found with
    | ok pair => exact pair.1.proper_toJson
    | error error => exact .null
  refine .object ?_
  simp only [List.forall_mem_cons]
  exact ⟨.string _, .boolean _, hdefinition, harguments, nofun⟩

theorem writtenAs_writeMatch (format : Format) (text : String) (found : Match) :
    WrittenAs text found format (writeMatch format text found) := by
  cases format with
  | text =>
    have hprinted : Prints (lines found) (writeMatch .text text found) := prints_iff.2 rfl
    cases found with
    | error error => exact .missingText (StepError.hasMessage_iff.2 rfl) hprinted
    | ok pair =>
      obtain ⟨definition, arguments⟩ := pair
      rw [lines, definition.line_eq] at hprinted
      refine .foundText ((forall₂_iff_eq_map Value.shows_iff).2 rfl) ?_
      rw [List.map_map]
      exact hprinted
  | json =>
    have hread : Json.read? (writeMatch .json text found) = some (toJson text found) :=
      read?_writeDocument (proper_toJson text found)
    cases found with
    | error error => exact .missingJson hread
    | ok pair =>
      obtain ⟨definition, arguments⟩ := pair
      refine .foundJson ((forall₂_iff_eq_map Value.entry_iff).2 rfl) ?_
      rw [hread, ← definition.toJson_eq]
      rfl

/-- There is one text for a match. -/
theorem WrittenAs.eq_writeMatch {text output : String} {found : Match}
    (h : WrittenAs text found .text output) : output = writeMatch .text text found := by
  cases h with
  | foundText shown printed =>
    rw [prints_iff.1 printed, (forall₂_iff_eq_map Value.shows_iff).1 shown, List.map_map,
      ← Definition.line_eq]
    rfl
  | missingText hmessage printed =>
    rw [prints_iff.1 printed, StepError.hasMessage_iff.1 hmessage]
    rfl

end Match

/-! ## Outcomes -/

namespace Outcome

/-- An outcome on a line: its place, and what has gone wrong. -/
inductive Line : Outcome → String → Prop
  | passed (path : List String) (name : String) :
    Line ⟨path, name, .passed⟩ ("ok   " ++ " > ".intercalate (path ++ [name]))
  | failed (path : List String) (name : String) {error : StepError} {message : String}
    (hmessage : error.HasMessage message) :
    Line ⟨path, name, .failed error⟩
      ("FAIL " ++ " > ".intercalate (path ++ [name]) ++ " - " ++ message)

theorem line_iff (outcome : Outcome) (line : String) :
    outcome.Line line ↔ line = outcome.line := by
  constructor
  · intro h
    cases h with
    | passed path name => rw [Outcome.line, place, joinWith_eq]
    | failed path name hmessage =>
      rw [Outcome.line, place, joinWith_eq, StepError.hasMessage_iff.1 hmessage]
  · rintro rfl
    obtain ⟨path, name, status⟩ := outcome
    cases status with
    | passed =>
      rw [Outcome.line, place, joinWith_eq]
      exact .passed path name
    | failed error =>
      rw [Outcome.line, place, joinWith_eq]
      exact .failed path name (StepError.hasMessage_iff.2 rfl)

/-- An outcome in a JSON document. -/
inductive Entry : Outcome → Tree → Prop
  | passed (path : List String) (name : String) :
    Entry ⟨path, name, .passed⟩ (.object [
      ("path", .array (path.map .string)),
      ("name", .string name),
      ("passed", .boolean true),
      ("error", .null)])
  | failed (path : List String) (name : String) {error : StepError} {message : String}
    (hmessage : error.HasMessage message) :
    Entry ⟨path, name, .failed error⟩ (.object [
      ("path", .array (path.map .string)),
      ("name", .string name),
      ("passed", .boolean false),
      ("error", .string message)])

theorem entry_iff (outcome : Outcome) (tree : Tree) :
    outcome.Entry tree ↔ tree = outcome.toJson := by
  constructor
  · intro h
    cases h with
    | passed path name => rfl
    | failed path name hmessage =>
      rw [StepError.hasMessage_iff.1 hmessage]
      rfl
  · rintro rfl
    obtain ⟨path, name, status⟩ := outcome
    cases status with
    | passed => exact .passed path name
    | failed error => exact .failed path name (StepError.hasMessage_iff.2 rfl)

theorem proper_toJson (outcome : Outcome) : outcome.toJson.Proper := by
  have hpath : (Tree.array (outcome.path.map .string)).Proper := proper_array .string _
  have herror : (Tree.ofOption (outcome.status.error?.map fun error =>
      .string error.message)).Proper := by
    cases outcome.status with
    | passed => exact .null
    | failed error => exact .string error.message
  refine .object ?_
  simp only [List.forall_mem_cons]
  exact ⟨hpath, .string _, .boolean _, herror, nofun⟩

end Outcome

namespace Report

/-- What is written of the outcomes of a run: each of them in order, and how many have passed and
failed. -/
inductive WrittenAs (report : Report) : Format → String → Prop
  | text {lines : List String} {output : String}
    (outcomes : List.Forall₂ Outcome.Line report.outcomes lines)
    (printed : Prints (lines ++
      [toString (report.outcomes.countP (·.status = .passed)) ++ " passed, " ++
        toString (report.outcomes.countP (·.status ≠ .passed)) ++ " failed"]) output) :
    WrittenAs report .text output
  | json {items : List Tree} {output : String}
    (outcomes : List.Forall₂ Outcome.Entry report.outcomes items)
    (read : Json.read? output = some (.object [
      ("passed", .number (toString (report.outcomes.countP (·.status = .passed)))),
      ("failed", .number (toString (report.outcomes.countP (·.status ≠ .passed)))),
      ("outcomes", .array items)])) :
    WrittenAs report .json output

theorem passed_eq (report : Report) :
    report.passed = report.outcomes.countP (·.status = .passed) := by
  rw [passed, List.countP_eq_length_filter]
  rfl

theorem failed_eq (report : Report) :
    report.failed = report.outcomes.countP (·.status ≠ .passed) := by
  have hlength : report.outcomes.length = _ :=
    List.length_eq_countP_add_countP fun outcome => decide (outcome.status = .passed)
  simp only [decide_eq_true_eq] at hlength
  rw [failed, passed_eq, hlength, Nat.add_sub_cancel_left]

theorem proper_toJson (report : Report) : report.toJson.Proper := by
  refine .object ?_
  simp only [List.forall_mem_cons]
  exact ⟨.number (Json.isNumber_toString _), .number (Json.isNumber_toString _),
    proper_array Outcome.proper_toJson _, nofun⟩

theorem writtenAs_writeReport (format : Format) (report : Report) :
    report.WrittenAs format (writeReport format report) := by
  cases format with
  | text =>
    refine .text ((forall₂_iff_eq_map Outcome.line_iff).2 rfl) (prints_iff.2 ?_)
    rw [← passed_eq, ← failed_eq]
    rfl
  | json =>
    refine .json ((forall₂_iff_eq_map Outcome.entry_iff).2 rfl) ?_
    rw [← passed_eq, ← failed_eq]
    exact read?_writeDocument report.proper_toJson

/-- There is one text for a report. -/
theorem WrittenAs.eq_writeReport {report : Report} {output : String}
    (h : report.WrittenAs .text output) : output = writeReport .text report := by
  cases h with
  | text outcomes printed =>
    rw [prints_iff.1 printed, (forall₂_iff_eq_map Outcome.line_iff).1 outcomes, ← passed_eq,
      ← failed_eq]
    rfl

end Report

/-! ## Definitions in files -/

/-- Why a call is skipped. -/
def Source.SkippedCall.reason (call : SkippedCall) : String :=
  call.type.keyword ++ match call.fault with
    | .ambiguousPattern => " registration pattern is neither a regex nor a string literal"
    | .unterminatedPattern => " registration pattern literal is not terminated"
    | .unterminatedCall => " registration call is not closed"

theorem Source.SkippedCall.message_eq (call : SkippedCall) : call.message = call.reason := by
  obtain ⟨type, fault, offset, line, snippet⟩ := call
  cases fault <;> exact congrArg (· ++ _) type.name_eq

namespace Extracted

/-- The definitions of a file come first, and then the calls that are skipped. -/
def captions (extracted : Extracted) : List String :=
  (extracted.extraction.definitions.map fun definition =>
      definition.caption ++ " (" ++ extracted.file ++ ")") ++
    extracted.extraction.skipped.map fun call =>
      "skipped " ++ extracted.file ++ ":" ++ toString call.line ++ " - " ++ call.reason

theorem lines_eq (extracted : Extracted) : extracted.lines = extracted.captions := by
  simp only [lines, captions, Definition.line_eq, Source.SkippedCall.message_eq]

end Extracted

theorem prints_writeExtractions (files : List Extracted) :
    Prints (files.flatMap Extracted.captions) (writeExtractions .text files) := by
  have hprinted : Prints (files.flatMap Extracted.lines) (writeExtractions .text files) :=
    prints_iff.2 rfl
  rwa [funext Extracted.lines_eq] at hprinted

end Stepbook
