import Stepbook.Proofs.Source.Closing

/-! # How calls start

A call starts with a keyword and a gap, which may be empty, before its bracket. The search looks at
nothing else before it takes a word for a call.

* `Head`: a keyword with the gap behind it.
* `lexeme_head`, `step_head`: a head is taken for the start of a call.
* `exists_head`: nothing else is.
-/

namespace Stepbook.Source
set_option autoImplicit false

open Place

/-! ## Keywords -/

theorem isAlpha_of_isAlpha_toLower {c : Char} (h : c.toLower.isAlpha = true) :
    c.isAlpha = true := by
  by_cases hupper : c.isUpper = true
  · show (c.isUpper || c.isLower) = true
    rw [hupper, Bool.true_or]
  · have hrange : ¬ (c.val ≥ 'A'.val ∧ c.val ≤ 'Z'.val) :=
      fun hrange => hupper (decide_eq_true hrange)
    have hsame : c.toLower = c := by
      unfold Char.toLower
      rw [dif_neg hrange]
    rwa [hsame] at h

/-- What stands before the bracket of a call. -/
structure Head where
  type : StepType
  /-- In any letter case. -/
  keyword : List Char
  ofName?_keyword : StepType.ofName? keyword = some type
  gaps : List Gap

namespace Head

def text (head : Head) : List Char :=
  head.keyword ++ head.gaps.flatMap Gap.text

section
variable (head : Head)

theorem lower_keyword : Text.lower head.keyword = head.type.name.toList := by
  have hname := List.find?_some head.ofName?_keyword
  exact (beq_iff_eq.1 hname).symm

theorem isWordStart_of_mem : ∀ c ∈ head.keyword, isWordStart c = true := by
  intro c hc
  have hlower : c.toLower ∈ head.type.name.toList := by
    rw [← head.lower_keyword]
    exact List.mem_map_of_mem hc
  have hall : head.type.name.toList.all Char.isAlpha = true := by
    cases head.type <;> rfl
  have halpha := List.all_eq_true.1 hall c.toLower hlower
  rw [isWordStart, isAlpha_of_isAlpha_toLower halpha, Bool.true_or, Bool.true_or]

theorem isWordPart_of_mem : ∀ c ∈ head.keyword, isWordPart c = true :=
  fun c hc => isWordStart_of_isWordPart (head.isWordStart_of_mem c hc)

theorem keyword_ne_nil : head.keyword ≠ [] := by
  intro hnil
  have hname := head.lower_keyword
  rw [hnil] at hname
  cases htype : head.type <;> rw [htype] at hname <;> cases hname

end

end Head

/-! ## Gaps behind keywords -/

theorem isWordPart_of_isAsciiBlank {c : Char} (h : Text.isAsciiBlank c = true) :
    isWordPart c = false := by
  simp only [Text.isAsciiBlank, Bool.or_eq_true, beq_iff_eq] at h
  rcases h with (((rfl | rfl) | rfl) | rfl) | rfl <;> rfl

section
variable (gaps : List Gap) (rest : List Char)

/-- Neither a gap nor an opening bracket continues a word. -/
theorem takeWhile_gaps :
    (gaps.flatMap Gap.text ++ '(' :: rest).takeWhile isWordPart = [] := by
  cases gaps with
  | nil => rfl
  | cons gap gaps =>
    rw [List.flatMap_cons]
    cases gap with
    | blank c isBlank =>
      rw [Gap.text, List.append_assoc, List.singleton_append, List.takeWhile_cons,
        isWordPart_of_isAsciiBlank isBlank]
      rfl
    | comment written => cases written <;> rfl

theorem triviaLength_bracket : triviaLength ('(' :: rest) = 0 :=
  triviaLength_of_other rfl (commentLength?_of_ne_slash (by decide) _)

theorem triviaLength_gaps :
    triviaLength (gaps.flatMap Gap.text ++ '(' :: rest) = (gaps.flatMap Gap.text).length := by
  rw [triviaLength_append, triviaLength_bracket, Nat.add_zero]

end

/-! ## The start of a call -/

section
variable (head : Head) (before rest : List Char)

theorem lexeme_head :
    lexeme ⟨before, head.text ++ '(' :: rest⟩ = (.word, head.keyword.length) := by
  obtain ⟨c, word, hkeyword⟩ := List.exists_cons_of_ne_nil head.keyword_ne_nil
  have hstart := head.isWordStart_of_mem c (hkeyword ▸ List.mem_cons_self ..)
  obtain ⟨hquote, hne⟩ := ne_of_isWordPart (isWordStart_of_isWordPart hstart)
  have hslash : c ≠ '/' := fun heq => hne (heq ▸ List.mem_cons_self ..)
  have hword : (word ++ (head.gaps.flatMap Gap.text ++ '(' :: rest)).takeWhile isWordPart =
      word := by
    rw [List.takeWhile_append_of_pos, takeWhile_gaps, List.append_nil]
    exact fun d hd => head.isWordPart_of_mem d (hkeyword ▸ List.mem_cons_of_mem _ hd)
  have htext : head.text ++ '(' :: rest =
      c :: (word ++ (head.gaps.flatMap Gap.text ++ '(' :: rest)) := by
    simp [Head.text, hkeyword]
  rw [htext, lexeme]
  dsimp only
  rw [lexemeFrom_other hquote hslash, if_pos hstart, hword, hkeyword]
  rfl

/-- What a head starts is read as a call. -/
theorem step_head :
    step ⟨before, head.text ++ '(' :: rest⟩ =
      ([(call ⟨before, head.text ++ '(' :: rest⟩ head.type head.text.length).1],
        (call ⟨before, head.text ++ '(' :: rest⟩ head.type head.text.length).2) := by
  have htext : head.text ++ '(' :: rest =
      head.keyword ++ (head.gaps.flatMap Gap.text ++ '(' :: rest) := List.append_assoc ..
  have htake : (head.text ++ '(' :: rest).take head.keyword.length = head.keyword := by
    rw [htext, List.take_left]
  have hdrop : (head.text ++ '(' :: rest).drop head.keyword.length =
      head.gaps.flatMap Gap.text ++ '(' :: rest := by
    rw [htext, List.drop_left]
  have htrivia : head.keyword.length +
      triviaLength ((head.text ++ '(' :: rest).drop head.keyword.length) = head.text.length := by
    rw [hdrop, triviaLength_gaps, Head.text, List.length_append]
  have hbracket : (head.text ++ '(' :: rest).drop head.text.length = '(' :: rest := List.drop_left
  unfold step
  simp only [lexeme_head, htake, head.ofName?_keyword, htrivia, hbracket]

end

/-- What is found starts with a head. -/
theorem exists_head {place : Place} (h : place.step.1 ≠ []) :
    ∃ (head : Head) (rest : List Char), place.rest = head.text ++ '(' :: rest := by
  unfold step at h
  dsimp only at h
  split at h
  · split at h
    · exact absurd rfl h
    · next type htype =>
      split at h
      · next rest hbracket =>
        rw [← List.drop_drop] at hbracket
        obtain ⟨-, -, gaps, hgaps⟩ := exists_gaps hbracket
        refine ⟨⟨type, _, htype, gaps⟩, rest, ?_⟩
        rw [Head.text, List.append_assoc, ← hgaps, List.take_append_drop]
      · exact absurd rfl h
  · exact absurd rfl h

end Stepbook.Source
