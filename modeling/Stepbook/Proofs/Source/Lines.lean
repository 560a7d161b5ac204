import Stepbook.Proofs.Source.Context
import Stepbook.Proofs.Source.RoundTrip
import Stepbook.Proofs.Text.Utf8

/-! # Malformed lines

A line in which nothing is registered does not affect what is found behind it, whatever literals
and brackets it leaves open: the search resumes at the end of the line at the latest.

* `IsQuiet`: a line in which nothing is registered, and which opens nothing that may go on.
* `lexemeFrom_quiet`: no lexeme of a line reaches over its end.
* `findings_lines`: the search arrives behind the lines without finding anything.
* `extract_lines`: what is found behind lines.
-/

namespace Stepbook.Source
set_option autoImplicit false

open Place

/-! ## Quiet lines -/

/-- Quotes, slashes and brackets may be open at its end. -/
structure IsQuiet (line : List Char) : Prop where
  no_break : '\n' ∉ line
  no_template : '`' ∉ line
  no_escape : '\\' ∉ line
  no_block : ¬ ['/', '*'] <:+: line
  no_keyword : ∀ type : StepType, ¬ type.name.toList <:+: Text.lower line

instance (line : List Char) : Decidable (IsQuiet line) :=
  decidable_of_iff
    ('\n' ∉ line ∧ '`' ∉ line ∧ '\\' ∉ line ∧ ¬ ['/', '*'] <:+: line ∧
      ∀ type ∈ StepType.all, ¬ type.name.toList <:+: Text.lower line)
    ⟨fun ⟨no_break, no_template, no_escape, no_block, no_keyword⟩ =>
      ⟨no_break, no_template, no_escape, no_block, fun type => no_keyword type type.mem_all⟩,
    fun h => ⟨h.no_break, h.no_template, h.no_escape, h.no_block, fun type _ => h.no_keyword type⟩⟩

theorem IsQuiet.of_suffix {line rest : List Char} (h : IsQuiet line) (hsuffix : rest <:+ line) :
    IsQuiet rest where
  no_break hmem := h.no_break (hsuffix.subset hmem)
  no_template hmem := h.no_template (hsuffix.subset hmem)
  no_escape hmem := h.no_escape (hsuffix.subset hmem)
  no_block hblock := h.no_block (hblock.trans hsuffix.isInfix)
  no_keyword type hname := h.no_keyword type (hname.trans (hsuffix.map Char.toLower).isInfix)

/-! ## Literals and comments in a line -/

theorem closedString_le {quote : Char} {line : List Char} (hquote : isQuote quote = true)
    (htemplate : quote ≠ '`') (hbreak : '\n' ∉ line) (hescape : '\\' ∉ line)
    {rest : List Char} {length : Nat}
    (h : closedString quote (line ++ '\n' :: rest) = some length) : length ≤ line.length := by
  induction line generalizing length with
  | nil =>
    rw [List.nil_append, closedString_cons (by decide)] at h
    have hne : '\n' ≠ quote := by
      rintro rfl
      cases hquote
    rw [if_neg hne, if_pos ⟨rfl, htemplate⟩] at h
    cases h
  | cons c line ih =>
    simp only [List.mem_cons, not_or] at hbreak hescape
    rw [List.cons_append, closedString_cons (Ne.symm hescape.1)] at h
    have hline : ¬ (c = '\n' ∧ quote ≠ '`') := fun both => hbreak.1 both.1.symm
    by_cases heq : c = quote
    · rw [if_pos heq] at h
      cases h
      simp
    · rw [if_neg heq, if_neg hline, Option.map_eq_some_iff] at h
      obtain ⟨count, hcount, rfl⟩ := h
      have := ih hbreak.2 hescape.2 hcount
      simpa using this

theorem closedRegex_le {inClass : Bool} {line : List Char} (hbreak : '\n' ∉ line)
    (hescape : '\\' ∉ line) {rest : List Char} {length : Nat}
    (h : closedRegex inClass (line ++ '\n' :: rest) = some length) : length ≤ line.length := by
  induction line generalizing inClass length with
  | nil =>
    rw [List.nil_append, closedRegex_cons (by decide), if_pos rfl] at h
    cases h
  | cons c line ih =>
    simp only [List.mem_cons, not_or] at hbreak hescape
    have hlater : ∀ {inside : Bool},
        (closedRegex inside (line ++ '\n' :: rest)).map (· + 1) = some length →
          length ≤ (c :: line).length := by
      intro inside hmap
      rw [Option.map_eq_some_iff] at hmap
      obtain ⟨count, hcount, rfl⟩ := hmap
      have := ih hbreak.2 hescape.2 hcount
      simpa using this
    rw [List.cons_append, closedRegex_cons (Ne.symm hescape.1)] at h
    split at h
    · cases h
    · split at h
      · exact hlater h
      · split at h
        · exact hlater h
        · split at h
          · cases h
            simp
          · exact hlater h

/-- Only a line comment can begin in the line. -/
theorem commentLength?_le {line : List Char} (hbreak : '\n' ∉ line)
    (hblock : ¬ ['/', '*'] <:+: line) {rest : List Char} {length : Nat}
    (h : commentLength? (line ++ '\n' :: rest) = some length) : length ≤ line.length := by
  match line with
  | [] => cases h
  | [c] =>
    unfold commentLength? at h
    split at h <;> simp_all
  | c :: d :: more =>
    have hmore : '\n' ∉ more := fun hmem => hbreak (by simp [hmem])
    unfold commentLength? at h
    split at h
    · next tail heq =>
      simp only [List.cons_append, List.cons.injEq] at heq
      obtain ⟨rfl, rfl, rfl⟩ := heq
      rw [lineLength_append hmore] at h
      cases h
      simp
    · next tail heq =>
      simp only [List.cons_append, List.cons.injEq] at heq
      obtain ⟨rfl, rfl, rfl⟩ := heq
      exact absurd ⟨[], more, rfl⟩ hblock
    · cases h

/-! ## Lexemes in a line -/

section
variable {c : Char} {line : List Char}

theorem takeWhile_line (rest : List Char) :
    (line ++ '\n' :: rest).takeWhile isWordPart = line.takeWhile isWordPart := by
  rw [List.takeWhile_append]
  split
  · have hstop : ('\n' :: rest).takeWhile isWordPart = [] := rfl
    next hall => rw [hstop, List.append_nil, (List.takeWhile_prefix _).eq_of_length hall]
  · rfl

theorem unclosedLength_line (hbreak : '\n' ∉ line) (htemplate : c ≠ '`') (rest : List Char) :
    unclosedLength c (line ++ '\n' :: rest) = line.length + 1 := by
  rw [unclosedLength, if_neg htemplate, lineLength_append hbreak]

/-- No lexeme of the line reaches over its end. -/
theorem lexemeFrom_quiet (h : IsQuiet (c :: line)) (regexAllowed : Bool) (rest : List Char) :
    (lexemeFrom regexAllowed c (line ++ '\n' :: rest)).2 ≤ (c :: line).length := by
  have hbreak : '\n' ∉ line := fun hmem => h.no_break (List.mem_cons_of_mem c hmem)
  have hescape : '\\' ∉ line := fun hmem => h.no_escape (List.mem_cons_of_mem c hmem)
  have htemplate : c ≠ '`' := fun heq => h.no_template (heq ▸ List.mem_cons_self ..)
  have hunclosed := unclosedLength_line hbreak htemplate rest
  have hword := (List.takeWhile_prefix isWordPart (l := line)).length_le
  unfold lexemeFrom
  split
  · next length hlength => exact commentLength?_le h.no_break h.no_block hlength
  · split
    · next hquote =>
      split
      · next length hlength =>
        exact Nat.succ_le_succ (closedString_le hquote htemplate hbreak hescape hlength)
      · exact hunclosed.le
    · split
      · split
        · next length hlength => exact Nat.succ_le_succ (closedRegex_le hbreak hescape hlength)
        · exact hunclosed.le
      · repeat' split
        all_goals simp only [List.length_cons, takeWhile_line]
        all_goals omega

/-- No part of the line is a keyword. -/
theorem IsQuiet.ofName?_eq_none (h : IsQuiet line) {text : List Char} (htext : text <+: line) :
    StepType.ofName? text = none := by
  unfold StepType.ofName?
  rw [List.find?_eq_none]
  intro type _ hname
  rw [beq_iff_eq] at hname
  apply h.no_keyword type
  rw [hname]
  exact (htext.map Char.toLower).isInfix

/-! ## The search -/

/-- The first lexeme of the line is passed over. -/
theorem step_quiet (h : IsQuiet (c :: line)) (before rest : List Char) :
    ∃ text more, c :: line = text ++ more ∧ text ≠ [] ∧
      step ⟨before, text ++ (more ++ '\n' :: rest)⟩ = ([], text.length) := by
  have hbound : (lexeme ⟨before, c :: (line ++ '\n' :: rest)⟩).2 ≤ (c :: line).length :=
    lexemeFrom_quiet h _ rest
  have hpos : 0 < (lexeme ⟨before, c :: (line ++ '\n' :: rest)⟩).2 := lexeme_pos nofun
  obtain ⟨count, hcount⟩ :
      ∃ count, (lexeme ⟨before, c :: (line ++ '\n' :: rest)⟩).2 = count := ⟨_, rfl⟩
  rw [hcount] at hbound hpos
  have hlength : ((c :: line).take count).length = count := List.length_take_of_le hbound
  have htext : (c :: line).take count ++ ((c :: line).drop count ++ '\n' :: rest) =
      c :: (line ++ '\n' :: rest) := by
    rw [← List.append_assoc, List.take_append_drop, List.cons_append]
  have hword : StepType.ofName? ((c :: (line ++ '\n' :: rest)).take count) = none := by
    rw [← List.cons_append, List.take_append_of_le_length hbound]
    exact h.ofName?_eq_none (List.take_prefix ..)
  refine ⟨(c :: line).take count, (c :: line).drop count, (List.take_append_drop ..).symm, ?_, ?_⟩
  · intro hnil
    rw [hnil, List.length_nil] at hlength
    omega
  · rw [htext, hlength]
    unfold step
    simp only [hcount, hword]
    split <;> rfl

end

theorem findings_line {line : List Char} (h : IsQuiet line) (before rest : List Char) :
    findings ⟨before, line ++ '\n' :: rest⟩ =
      findings ⟨(line ++ ['\n']).reverse ++ before, rest⟩ := by
  match line with
  | [] =>
    have hbreak : step ⟨before, ['\n'] ++ rest⟩ = ([], ['\n'].length) :=
      step_separator rfl before rest
    exact findings_append (by simp) hbreak
  | c :: line =>
    obtain ⟨text, more, hline, hne, hstep⟩ := step_quiet h before rest
    have hshorter : more.length < (c :: line).length := by
      have := List.length_pos_iff.2 hne
      rw [hline, List.length_append]
      omega
    have hmore : IsQuiet more := h.of_suffix (hline ▸ List.suffix_append ..)
    rw [hline, List.append_assoc, findings_append hne hstep, List.nil_append,
      findings_line hmore]
    simp only [List.reverse_append, List.append_assoc]
termination_by line.length
decreasing_by exact hshorter

/-- The search goes through the lines without finding anything. -/
theorem findings_lines {lines : List (List Char)} (h : ∀ line ∈ lines, IsQuiet line)
    (before rest : List Char) :
    findings ⟨before, lines.flatMap (· ++ ['\n']) ++ rest⟩ =
      findings ⟨(lines.flatMap (· ++ ['\n'])).reverse ++ before, rest⟩ := by
  induction lines generalizing before with
  | nil => rfl
  | cons line lines ih =>
    have hline := h line (List.mem_cons_self ..)
    have hlines := ih fun other hother => h other (List.mem_cons_of_mem _ hother)
    have htext : (line :: lines).flatMap (· ++ ['\n']) ++ rest =
        line ++ '\n' :: (lines.flatMap (· ++ ['\n']) ++ rest) := by
      simp
    rw [htext, findings_line hline, hlines]
    simp

theorem count_lines {lines : List (List Char)} (h : ∀ line ∈ lines, IsQuiet line) :
    (lines.flatMap (· ++ ['\n'])).count '\n' = lines.length := by
  induction lines with
  | nil => rfl
  | cons line lines ih =>
    have hline := (h line (List.mem_cons_self ..)).no_break
    have hlines := ih fun other hother => h other (List.mem_cons_of_mem _ hother)
    rw [List.flatMap_cons, List.count_append, List.count_append, hlines,
      List.count_eq_zero.2 hline, List.length_cons]
    simp [Nat.add_comm]

/-- Lines as a text, each with its line break. -/
def joinLines (lines : List String) : String :=
  String.join (lines.map (· ++ "\n"))

theorem toList_joinLines (lines : List String) :
    (joinLines lines).toList = (lines.map String.toList).flatMap (· ++ ['\n']) := by
  rw [joinLines, String.toList_join, List.flatMap_map, List.flatMap_map]
  simp only [String.toList_append]
  rfl

/-- Behind lines in which nothing is registered the same is found as without them, at offsets that
count the bytes of the lines and on lines that count them. The first character of the script other
than a blank must not be a slash, which would be read as a division behind some lines only. -/
theorem extract_lines (lines : List String) (source : String)
    (hlines : ∀ line ∈ lines, IsQuiet line.toList)
    (hsource : source.toList.find? (!Text.isAsciiBlank ·) ≠ some '/') :
    (extract (joinLines lines ++ source)).definitions = (extract source).definitions ∧
      (extract (joinLines lines ++ source)).skipped =
        (extract source).skipped.map
          (SkippedCall.shift (joinLines lines).utf8ByteSize lines.length) := by
  have hquiet : ∀ line ∈ lines.map String.toList, IsQuiet line := by
    intro line hline
    obtain ⟨written, hwritten, rfl⟩ := List.mem_map.1 hline
    exact hlines written hwritten
  have hcount : (joinLines lines).toList.reverse.count '\n' = lines.length := by
    rw [List.count_reverse, toList_joinLines, count_lines hquiet, List.length_map]
  have hsize : Text.byteLength (joinLines lines).toList.reverse =
      (joinLines lines).utf8ByteSize := by
    rw [← Text.byteLength_toList, Text.byteLength_reverse]
  have hanchored : (start source.toList).Anchored := .inr hsource
  have hbehind := findings_behind (joinLines lines).toList.reverse hanchored
  rw [hcount, hsize] at hbehind
  have hfindings : (extract (joinLines lines ++ source)).findings =
      (extract source).findings.map
        (Finding.shift (joinLines lines).utf8ByteSize lines.length) := by
    have hpassed := findings_lines hquiet [] source.toList
    rw [← toList_joinLines, List.append_nil] at hpassed
    rw [extract, String.toList_append]
    exact hpassed.trans hbehind
  rw [Extraction.definitions, Extraction.skipped, hfindings, filterMap_definition?_shift,
    filterMap_skipped?_shift]
  exact ⟨rfl, rfl⟩

/-- Open quotes, an open regular expression, and brackets that match nothing. -/
def openLines : List String :=
  ["const x = \"é", "it's a / b) // \x7b", "y = /[("]

theorem extract_lines_open :
    (∀ line ∈ openLines, IsQuiet line.toList) ∧
      (extract (joinLines openLines ++ "When('a', f)\nThen(x)")).definitions =
        [⟨.action, "a", .expression, "When('a', f)"⟩] ∧
      (extract (joinLines openLines ++ "When('a', f)\nThen(x)")).skipped =
        [⟨.outcome, .ambiguousPattern, 52, 5, "Then(x)"⟩] := by
  have hquiet : ∀ line ∈ openLines, IsQuiet line.toList := by decide
  have hlines := extract_lines openLines "When('a', f)\nThen(x)" hquiet (by decide)
  have hdefinitions : (extract "When('a', f)\nThen(x)").definitions =
      [⟨.action, "a", .expression, "When('a', f)"⟩] := by decide +kernel
  have hskipped : (extract "When('a', f)\nThen(x)").skipped =
      [⟨.outcome, .ambiguousPattern, 13, 2, "Then(x)"⟩] := by decide +kernel
  have hsize : (joinLines openLines).utf8ByteSize = 39 := by decide +kernel
  rw [hdefinitions, hskipped, hsize] at hlines
  exact ⟨hquiet, hlines⟩

end Stepbook.Source
