import Stepbook.Proofs.Expression.Coercion

/-! # Groups and placeholders

The pattern of an expression has one capture group for each placeholder, in the same order, and no
others, whatever else is written in the expression; each of them captures in every match.

* `Token.name?`: the names of placeholders.
* `Regex.groups`: all capture groups of a regular expression, from left to right.
* `groups_regex`: those of the pattern of an expression.
* `Aligned`: they stand for the placeholders.
* `pattern_aligned`: the pattern of an expression, and the texts that it captures.
-/

namespace Stepbook
set_option autoImplicit false

namespace Regex

/-! ## Groups -/

/-- The numbers of the capture groups with what they enclose, from left to right. -/
def groups : Regex → List (Nat × Regex)
  | .empty | .chars _ | .anchor _ => []
  | .cat left right | .alt left right => left.groups ++ right.groups
  | .iterate body _ _ _ => body.groups
  | .group number body => (number, body) :: body.groups

theorem groups_concat (regexes : List Regex) : (concat regexes).groups = regexes.flatMap groups := by
  induction regexes with
  | nil => rfl
  | cons regex regexes ih =>
    cases regexes with
    | nil => exact (List.append_nil _).symm
    | cons other regexes => exact congrArg (regex.groups ++ ·) ih

theorem groups_oneOf (regexes : List Regex) : (oneOf regexes).groups = regexes.flatMap groups := by
  induction regexes with
  | nil => rfl
  | cons regex regexes ih =>
    cases regexes with
    | nil => exact (List.append_nil _).symm
    | cons other regexes => exact congrArg (regex.groups ++ ·) ih

theorem groups_literals (written : List Char) : (written.map literal).flatMap groups = [] := by
  rw [List.flatMap_map]
  exact List.flatMap_eq_nil_iff.2 fun _ _ => rfl

end Regex

namespace Expression

open Regex

/-! ## Groups of parts -/

theorem groups_piece (piece : Piece) : piece.regexes.flatMap groups = [] := by
  cases piece with
  | text written => exact groups_literals written
  | «optional» start written =>
    have hbody := groups_concat (written.map literal)
    rw [groups_literals] at hbody
    exact congrArg (· ++ []) hbody

theorem groups_branch (branch : Branch) : (branch.flatMap Piece.regexes).flatMap groups = [] := by
  rw [List.flatMap_assoc]
  exact List.flatMap_eq_nil_iff.2 fun piece _ => groups_piece piece

theorem groups_segment (segment : Segment) : segment.regexes.flatMap groups = [] := by
  unfold Segment.regexes
  split
  · exact groups_branch segment.last
  · have hchoice : (oneOf (segment.branches.map branchRegex)).groups = [] := by
      rw [groups_oneOf, List.flatMap_map]
      refine List.flatMap_eq_nil_iff.2 fun branch _ => ?_
      rw [branchRegex, groups_concat, groups_branch]
    exact congrArg (· ++ []) hchoice

theorem groups_parameter (type : ParameterType) : type.regex.groups = [] := by
  cases type <;> rfl

/-- `number` groups stand before the parts. -/
theorem groups_regexes (number : Nat) (parts : List Part) :
    (Part.regexes number parts).flatMap groups =
      (Part.parameters parts).mapIdx fun index type => (number + index + 1, type.regex) := by
  induction parts generalizing number with
  | nil => rfl
  | cons part parts ih =>
    cases part with
    | blank written =>
      rw [Part.regexes, List.flatMap_append, groups_literals, List.nil_append]
      exact ih number
    | segment choice =>
      rw [Part.regexes, List.flatMap_append, groups_segment, List.nil_append]
      exact ih number
    | parameter type =>
      have hparameters : Part.parameters (.parameter type :: parts) =
          type :: Part.parameters parts := rfl
      have hshift : ∀ index, number + (index + 1) + 1 = number + 1 + index + 1 := by omega
      rw [Part.regexes, List.flatMap_cons, groups, groups_parameter, ih, hparameters,
        List.mapIdx_cons]
      simp only [hshift]
      rfl

theorem groups_regex (parts : List Part) :
    (Part.regex parts).groups =
      (Part.parameters parts).mapIdx fun index type => (index + 1, type.regex) := by
  have hparts := groups_regexes 0 parts
  simp only [Nat.zero_add] at hparts
  rw [Part.regex, groups_concat, List.flatMap_append, List.flatMap_cons, hparts]
  exact List.append_nil _

/-! ## Placeholders -/

def Token.name? : Token → Option (List Char)
  | .parameter _ name => some name
  | _ => none

/-- The placeholders among parts are those among the tokens that make them up. -/
theorem parameters_of_partsAfter {segment : Segment} {tokens : List Token} {parts : List Part}
    (h : partsAfter segment tokens = .ok parts) :
    (tokens.filterMap Token.name?).map ParameterType.ofName? =
      (Part.parameters parts).map some := by
  induction tokens generalizing segment parts with
  | nil =>
    simp only [partsAfter, bind_eq_ok] at h
    obtain ⟨_, -, heq⟩ := h
    cases heq
    rfl
  | cons token tokens ih =>
    cases hbound : token.isBound with
    | false =>
      cases token with
      | text written => exact ih h
      | blank written => cases hbound
      | «optional» start written => exact ih h
      | parameter start name => cases hbound
      | separator offset => exact ih h
    | true =>
      obtain ⟨part, rest, hrest, rfl, hproper, htype, -⟩ := partsAfter_bound hbound h
      have hparameters : Part.parameters (.segment segment :: part :: rest) =
          token.type?.toList ++ Part.parameters rest := by
        have hsegment : (Part.segment segment).parameter? = none := rfl
        rw [Part.parameters, List.filterMap_cons_none hsegment, List.filterMap_cons, htype]
        cases token.type? <;> rfl
      rw [hparameters, List.map_append, ← ih hrest]
      cases token with
      | blank written => rfl
      | parameter start name =>
        obtain ⟨type, hname⟩ := Option.isSome_iff_exists.1 hproper
        rw [Token.type?, hname, List.filterMap_cons, Token.name?, List.map_cons, hname]
        rfl
      | _ => cases hbound

/-! ## Patterns of expressions -/

/-- The groups of a regular expression stand for placeholders with these names and types. -/
structure Aligned (names : List (List Char)) (types : List ParameterType) (regex : Regex) :
    Prop where
  names : names.map ParameterType.ofName? = types.map some
  groups : regex.groups = types.mapIdx fun index type => (index + 1, type.regex)
  patterns : ∀ type : ParameterType, Regex.read? type.pattern.toList = some type.regex
  /-- Each group has captured at the end of every match. -/
  captured : ∀ text, ∀ cursor ∈ regex.ends (.start text), ∀ index < types.length,
    (cursor.captured? (index + 1)).isSome
  search : ∀ text cursor, regex.search text = some cursor → cursor ∈ regex.ends (.start text)

section
variable {tokens : List Token} {parts : List Part}

theorem aligned_regex (hsolid : ∀ token ∈ tokens, token.Solid)
    (h : Expression.parts tokens = .ok parts) :
    Aligned (tokens.filterMap Token.name?) (Part.parameters parts) (Part.regex parts) where
  names := parameters_of_partsAfter h
  groups := groups_regex parts
  patterns := ParameterType.read_pattern
  captured := by
    intro text cursor hcursor index hindex
    rw [ends_regex_start hsolid h] at hcursor
    obtain ⟨split, hsplit, rfl⟩ := List.mem_map.1 hcursor
    have hgroup : ((Cursor.start text).through 0 split).captured? (index + 1) ∈
        split.captures.map fun capture => some capture.1 := by
      rw [← map_captured?_search hsolid h hsplit]
      exact List.mem_map.2 ⟨index, List.mem_range.2 hindex, rfl⟩
    obtain ⟨capture, -, heq⟩ := List.mem_map.1 hgroup
    rw [← heq]
    rfl
  search := by
    intro text cursor hsearch
    rw [search_regex hsolid h, Option.map_eq_some_iff] at hsearch
    obtain ⟨split, hsplit, rfl⟩ := hsearch
    rw [ends_regex_start hsolid h]
    exact List.mem_map_of_mem (List.mem_of_mem_head? hsplit)

end

theorem compile_of_pattern {expression : List Char} {pattern : Pattern}
    (h : Pattern.ofExpression expression = .ok pattern) :
    ∃ read made, tokens expression = .ok read ∧ parts read = .ok made ∧
      pattern = ⟨anchored made, Part.parameters made⟩ ∧
      compile expression = .ok ⟨anchored made, Part.regex made, Part.parameters made⟩ := by
  obtain ⟨read, hread, hrest⟩ := bind_eq_ok.1 h
  obtain ⟨made, hmade, heq⟩ := bind_eq_ok.1 hrest
  cases heq
  refine ⟨read, made, hread, hmade, rfl, ?_⟩
  rw [compile, h]
  dsimp only
  rw [read_anchored]

/-- The pattern of an expression is well formed, and its groups stand for the placeholders of the
expression. It captures as many texts as there are placeholders, and the values of a text are those of
these texts from left to right. -/
theorem pattern_aligned {expression : List Char} {pattern : Pattern}
    (h : Pattern.ofExpression expression = .ok pattern) :
    ∃ read compiled, tokens expression = .ok read ∧ compile expression = .ok compiled ∧
      compiled.source = pattern.source ∧ compiled.parameters = pattern.parameters ∧
      Regex.read? pattern.source = some compiled.regex ∧
      Aligned (read.filterMap Token.name?) pattern.parameters compiled.regex ∧
      ∀ text,
        (compiled.regex.captures? text = none ↔ compiled.match? text = .ok none) ∧
        ∀ texts, compiled.regex.captures? text = some texts →
          texts.length = pattern.parameters.length ∧
          (∀ values, compiled.match? text = .ok (some values) ↔
            AllCoerce (texts.zip pattern.parameters) values) ∧
          ∀ error, compiled.match? text = .error error ↔
            FirstFault (texts.zip pattern.parameters) error := by
  obtain ⟨read, made, hread, hmade, rfl, hcompile⟩ := compile_of_pattern h
  refine ⟨read, _, hread, hcompile, rfl, rfl, read_anchored made,
    aligned_regex (solid_of_mem_tokens hread) hmade, fun text => ⟨?_, fun texts htexts => ?_⟩⟩
  · rw [Compiled.match?_eq_none_iff, Compiled.captures?]
  · rw [← Compiled.captures?] at htexts
    refine ⟨(admits_of_captures? hcompile htexts).1, fun values => ?_, fun error => ?_⟩
    · rw [Compiled.match?_eq_some_iff, htexts]
      simp only [Option.some.injEq, exists_eq_left']
    · rw [Compiled.match?_eq_error_iff, htexts]
      simp only [Option.some.injEq, exists_eq_left']

/-- Placeholders among characters that stand for more in patterns. -/
def bracketed : List Char :=
  "\\({int}\\) [x|y](?)/.* {word}".toList

theorem pattern_aligned_bracketed :
    ∃ pattern compiled, Pattern.ofExpression bracketed = .ok pattern ∧
      compile bracketed = .ok compiled ∧ Regex.read? pattern.source = some compiled.regex ∧
      compiled.regex.groups = [(1, ParameterType.int.regex), (2, ParameterType.word.regex)] := by
  obtain ⟨pattern, hpattern⟩ : ∃ pattern, Pattern.ofExpression bracketed = .ok pattern := ⟨_, rfl⟩
  obtain ⟨read, compiled, -, hcompile, -, -, hread, haligned, -⟩ := pattern_aligned hpattern
  have hparameters : pattern.parameters = [.int, .word] := by
    cases hpattern
    rfl
  refine ⟨pattern, compiled, hpattern, hcompile, hread, ?_⟩
  rw [haligned.groups, hparameters]
  rfl

end Expression

end Stepbook
