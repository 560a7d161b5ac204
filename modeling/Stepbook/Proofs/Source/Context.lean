import Stepbook.Proofs.Source.Order

/-! # Text before a script

What is found in a script depends on the text before it only through the first slash of the script,
which may start a regular expression or not. Apart from that, offsets and lines shift.

* `Place.behind`: a place with further text before it.
* `Place.Anchored`: a place where the text before it does not matter.
* `SkippedCall.shift`, `Finding.shift`: a finding with further text before it.
* `findings_behind`: what is found behind further text.
-/

namespace Stepbook.Source
set_option autoImplicit false

/-! ## Shifted findings -/

def SkippedCall.shift (bytes lines : Nat) (call : SkippedCall) : SkippedCall :=
  { call with offset := call.offset + bytes, line := call.line + lines }

/-- Definitions hold no offset. -/
def Finding.shift (bytes lines : Nat) : Finding → Finding
  | .definition found => .definition found
  | .skipped call => .skipped (call.shift bytes lines)

section
variable (bytes lines : Nat) (findings : List Finding)

theorem filterMap_definition?_shift :
    (findings.map (Finding.shift bytes lines)).filterMap Finding.definition? =
      findings.filterMap Finding.definition? := by
  rw [List.filterMap_map]
  apply List.filterMap_congr
  intro finding _
  cases finding <;> rfl

theorem filterMap_skipped?_shift :
    (findings.map (Finding.shift bytes lines)).filterMap Finding.skipped? =
      (findings.filterMap Finding.skipped?).map (SkippedCall.shift bytes lines) := by
  rw [List.filterMap_map, List.map_filterMap]
  apply List.filterMap_congr
  intro finding _
  cases finding <;> rfl

end

/-! ## Kinds of findings -/

theorem Finding.definition?_eq_some_iff {finding : Finding} {found : Definition} :
    finding.definition? = some found ↔ finding = .definition found := by
  cases finding <;> simp [Finding.definition?]

theorem Finding.skipped?_eq_some_iff {finding : Finding} {call : SkippedCall} :
    finding.skipped? = some call ↔ finding = .skipped call := by
  cases finding <;> simp [Finding.skipped?]

theorem mem_definitions {extraction : Extraction} {found : Definition} :
    found ∈ extraction.definitions ↔ .definition found ∈ extraction.findings := by
  simp [Extraction.definitions, List.mem_filterMap, Finding.definition?_eq_some_iff]

theorem mem_skipped {extraction : Extraction} {call : SkippedCall} :
    call ∈ extraction.skipped ↔ .skipped call ∈ extraction.findings := by
  simp [Extraction.skipped, List.mem_filterMap, Finding.skipped?_eq_some_iff]

namespace Place

/-! ## Further text -/

/-- The same place, with further text before the script. -/
def behind (place : Place) (earlier : List Char) : Place :=
  ⟨place.before ++ earlier, place.rest⟩

/-- A slash that follows is not the first character of the script but for blanks. -/
def Anchored (place : Place) : Prop :=
  (∃ c ∈ place.before, Text.isAsciiBlank c = false) ∨
    place.rest.find? (!Text.isAsciiBlank ·) ≠ some '/'

section
variable {place : Place} (earlier : List Char)

@[simp] theorem rest_behind : (place.behind earlier).rest = place.rest := rfl

theorem offset_behind : (place.behind earlier).offset = place.offset + Text.byteLength earlier :=
  Text.byteLength_append ..

theorem line_behind : (place.behind earlier).line = place.line + earlier.count '\n' := by
  simp only [line, behind, List.count_append]
  omega

theorem advance_behind (count : Nat) :
    (place.behind earlier).advance count = (place.advance count).behind earlier := by
  fun_induction advance place count with
  | case1 place => rfl
  | case2 before count => rfl
  | case3 before c rest count ih => exact ih

theorem anchored_advance (h : place.Anchored) (count : Nat) : (place.advance count).Anchored := by
  fun_induction advance place count with
  | case1 place => exact h
  | case2 before count => exact h
  | case3 before c rest count ih =>
    apply ih
    by_cases hblank : Text.isAsciiBlank c = true
    · rcases h with ⟨d, hd, hother⟩ | hfirst
      · exact .inl ⟨d, List.mem_cons_of_mem c hd, hother⟩
      · refine .inr ?_
        simpa [hblank] using hfirst
    · rw [Bool.not_eq_true] at hblank
      exact .inl ⟨c, List.mem_cons_self .., hblank⟩

/-! ## Lexemes and brackets -/

theorem regexAllowed_behind (h : ∃ c ∈ place.before, Text.isAsciiBlank c = false) :
    (place.behind earlier).regexAllowed = place.regexAllowed := by
  obtain ⟨c, hc, hblank⟩ := h
  have hsome : (place.before.find? (!Text.isAsciiBlank ·)).isSome := by
    rw [List.find?_isSome]
    exact ⟨c, hc, by simp [hblank]⟩
  obtain ⟨d, hd⟩ := Option.isSome_iff_exists.1 hsome
  have hsame : (place.behind earlier).before.find? (!Text.isAsciiBlank ·) = some d := by
    show (place.before ++ earlier).find? (!Text.isAsciiBlank ·) = some d
    rw [List.find?_append, hd]
    rfl
  rw [regexAllowed, regexAllowed, hd, hsame]

theorem lexeme_behind (h : place.Anchored) : (place.behind earlier).lexeme = place.lexeme := by
  obtain ⟨before, rest⟩ := place
  cases rest with
  | nil => rfl
  | cons c tail =>
    by_cases hslash : c = '/'
    · subst hslash
      have hanchor : ∃ c ∈ (⟨before, '/' :: tail⟩ : Place).before,
          Text.isAsciiBlank c = false := by
        rcases h with hanchor | hfirst
        · exact hanchor
        · exact absurd rfl hfirst
      have hallowed := regexAllowed_behind earlier hanchor
      show lexemeFrom ('/' == '/' && _) '/' tail = lexemeFrom ('/' == '/' && _) '/' tail
      rw [hallowed]
    · have hfalse : (c == '/') = false := beq_false_of_ne hslash
      show lexemeFrom (c == '/' && _) c tail = lexemeFrom (c == '/' && _) c tail
      rw [hfalse, Bool.false_and, Bool.false_and]

theorem closingFrom_behind (depth : Nat) (h : place.Anchored) :
    closingFrom depth (place.behind earlier) = closingFrom depth place := by
  have hlexeme : ∀ {other : Place}, other.Anchored →
      (other.behind earlier).lexeme = other.lexeme := lexeme_behind earlier
  induction depth, place using closingFrom.induct with
  | case1 depth place hend =>
    unfold closingFrom
    rw [dif_pos (show (place.behind earlier).rest = [] from hend), dif_pos hend]
  | case2 depth place hrest hkind =>
    unfold closingFrom
    simp only [rest_behind, hlexeme h, hkind, hrest, dite_false]
  | case3 depth place hrest length hkind ih =>
    unfold closingFrom
    simp only [rest_behind, hlexeme h, hkind, hrest, dite_false, advance_behind]
    rw [ih (anchored_advance h _)]
  | case4 place hrest hkind =>
    unfold closingFrom
    simp only [rest_behind, hlexeme h, hkind, hrest, dite_false]
  | case5 place hrest hkind =>
    unfold closingFrom
    simp only [rest_behind, hlexeme h, hkind, hrest, dite_false]
  | case6 place hrest length hkind depth ih =>
    unfold closingFrom
    simp only [rest_behind, hlexeme h, hkind, hrest, dite_false, advance_behind]
    rw [ih (anchored_advance h _)]
  | case7 depth place hrest length hunclosed hopening hclosing ih =>
    have hlater := ih (anchored_advance h _)
    unfold closingFrom
    simp only [rest_behind, hlexeme h, hrest, dite_false, advance_behind]
    exact congrArg (Option.map _) hlater

/-! ## Findings -/

theorem call_behind (h : place.Anchored) (type : StepType) (length : Nat) :
    (place.behind earlier).call type length =
      ((place.call type length).1.shift (Text.byteLength earlier) (earlier.count '\n'),
        (place.call type length).2) := by
  have hclosing : ((place.behind earlier).advance length).closing =
      (place.advance length).closing := by
    rw [advance_behind]
    exact closingFrom_behind earlier 0 (anchored_advance h length)
  unfold call
  simp only [hclosing, rest_behind, offset_behind, line_behind]
  repeat' split
  all_goals rfl

theorem step_behind (h : place.Anchored) :
    (place.behind earlier).step =
      (place.step.1.map (Finding.shift (Text.byteLength earlier) (earlier.count '\n')),
        place.step.2) := by
  unfold step
  simp only [lexeme_behind earlier h, rest_behind, call_behind earlier h]
  repeat' split
  all_goals rfl

/-- Further text shifts what is found, and changes nothing else. -/
theorem findings_behind (h : place.Anchored) :
    (place.behind earlier).findings =
      place.findings.map (Finding.shift (Text.byteLength earlier) (earlier.count '\n')) := by
  fun_induction findings place with
  | case1 place hend =>
    rw [findings, dif_pos (show (place.behind earlier).rest = [] from hend), List.map_nil]
  | case2 place hrest ih =>
    rw [findings, dif_neg (show (place.behind earlier).rest ≠ [] from hrest), step_behind earlier h,
      advance_behind, ih (anchored_advance h _), List.map_append]

end

end Place

end Stepbook.Source
