import Stepbook.Proofs.Source.Balance

/-! # The extent of a lexeme

A lexeme is told by its own characters and the one behind it, whatever follows further on.

* `closedString_take`, `closedRegex_take`: literals.
* `commentLength?_change`: comments.
* `lexemeFrom_change`: all lexemes but those that nothing closes.
* `exists_starts`: the lexeme at a place ends within the script.
* `Place.Starts.change`: the same lexeme before another text.
-/

namespace Stepbook.Source
set_option autoImplicit false

open Place

/-! ## Literals -/

/-- A character that is read neither as a lone backslash nor as an escape. -/
theorem ne_escape {c : Char} {text : List Char} (hlone : c = '\\' → text = [] → False)
    (hescape : ∀ (d : Char) (rest : List Char), c = '\\' → text = d :: rest → False) :
    c ≠ '\\' := by
  intro hc
  cases text with
  | nil => exact hlone hc rfl
  | cons d rest => exact hescape d rest hc rfl

/-- Where a string is closed does not depend on what follows. -/
theorem closedString_take {quote : Char} {text : List Char} {length : Nat}
    (h : closedString quote text = some length) :
    length ≤ text.length ∧ ∀ rest, closedString quote (text.take length ++ rest) = some length := by
  fun_induction closedString quote text generalizing length with
  | case1 => cases h
  | case2 => cases h
  | case3 c text ih =>
    obtain ⟨count, hcount, rfl⟩ := Option.map_eq_some_iff.1 h
    obtain ⟨hle, hlocal⟩ := ih hcount
    refine ⟨Nat.add_le_add_right hle 2, fun rest => ?_⟩
    rw [List.take_succ_cons, List.take_succ_cons, List.cons_append, List.cons_append, closedString,
      hlocal]
    rfl
  | case4 text hlone hescape =>
    cases h
    refine ⟨Nat.succ_le_succ (Nat.zero_le _), fun rest => ?_⟩
    rw [List.take_succ_cons, List.cons_append, closedString_cons (ne_escape hlone hescape),
      if_pos rfl]
  | case5 c text hlone hescape hne hline => cases h
  | case6 c text hlone hescape hne hline ih =>
    obtain ⟨count, hcount, rfl⟩ := Option.map_eq_some_iff.1 h
    obtain ⟨hle, hlocal⟩ := ih hcount
    refine ⟨Nat.succ_le_succ hle, fun rest => ?_⟩
    rw [List.take_succ_cons, List.cons_append, closedString_cons (ne_escape hlone hescape),
      if_neg hne, if_neg hline, hlocal]
    rfl

/-- Where a regular expression is closed does not depend on what follows. -/
theorem closedRegex_take {inClass : Bool} {text : List Char} {length : Nat}
    (h : closedRegex inClass text = some length) :
    length ≤ text.length ∧
      ∀ rest, closedRegex inClass (text.take length ++ rest) = some length := by
  fun_induction closedRegex inClass text generalizing length with
  | case1 => cases h
  | case2 => cases h
  | case3 inClass c text ih =>
    obtain ⟨count, hcount, rfl⟩ := Option.map_eq_some_iff.1 h
    obtain ⟨hle, hlocal⟩ := ih hcount
    refine ⟨Nat.add_le_add_right hle 2, fun rest => ?_⟩
    rw [List.take_succ_cons, List.take_succ_cons, List.cons_append, List.cons_append, closedRegex,
      hlocal]
    rfl
  | case4 inClass text hlone hescape => cases h
  | case5 inClass text hlone hescape hline ih =>
    obtain ⟨count, hcount, rfl⟩ := Option.map_eq_some_iff.1 h
    obtain ⟨hle, hlocal⟩ := ih hcount
    refine ⟨Nat.succ_le_succ hle, fun rest => ?_⟩
    rw [List.take_succ_cons, List.cons_append, closedRegex_cons (by decide), if_neg hline,
      if_pos rfl, hlocal]
    rfl
  | case6 inClass text hlone hescape hline hopening ih =>
    obtain ⟨count, hcount, rfl⟩ := Option.map_eq_some_iff.1 h
    obtain ⟨hle, hlocal⟩ := ih hcount
    refine ⟨Nat.succ_le_succ hle, fun rest => ?_⟩
    rw [List.take_succ_cons, List.cons_append, closedRegex_cons (by decide), if_neg hline,
      if_neg hopening, if_pos rfl, hlocal]
    rfl
  | case7 inClass c text hlone hescape hline hopening hclosing hend =>
    cases h
    refine ⟨Nat.succ_le_succ (Nat.zero_le _), fun rest => ?_⟩
    rw [List.take_succ_cons, List.cons_append, closedRegex_cons (ne_escape hlone hescape),
      if_neg hline, if_neg hopening, if_neg hclosing, if_pos hend]
  | case8 inClass c text hlone hescape hline hopening hclosing hend ih =>
    obtain ⟨count, hcount, rfl⟩ := Option.map_eq_some_iff.1 h
    obtain ⟨hle, hlocal⟩ := ih hcount
    refine ⟨Nat.succ_le_succ hle, fun rest => ?_⟩
    rw [List.take_succ_cons, List.cons_append, closedRegex_cons (ne_escape hlone hescape),
      if_neg hline, if_neg hopening, if_neg hclosing, if_neg hend, hlocal]
    rfl

/-- A literal that is closed ends with its quote. -/
theorem exists_closedString {quote : Char} {text : List Char} {length : Nat}
    (h : closedString quote text = some length) :
    ∃ body rest, text = body ++ quote :: rest ∧ length = body.length + 1 := by
  fun_induction closedString quote text generalizing length with
  | case1 => cases h
  | case2 => cases h
  | case3 c text ih =>
    obtain ⟨count, hcount, rfl⟩ := Option.map_eq_some_iff.1 h
    obtain ⟨body, rest, rfl, rfl⟩ := ih hcount
    exact ⟨'\\' :: c :: body, rest, rfl, rfl⟩
  | case4 text hlone hescape =>
    cases h
    exact ⟨[], text, rfl, rfl⟩
  | case5 c text hlone hescape hne hline => cases h
  | case6 c text hlone hescape hne hline ih =>
    obtain ⟨count, hcount, rfl⟩ := Option.map_eq_some_iff.1 h
    obtain ⟨body, rest, rfl, rfl⟩ := ih hcount
    exact ⟨c :: body, rest, rfl, rfl⟩

/-- A regular expression that is closed ends with a slash. -/
theorem exists_closedRegex {inClass : Bool} {text : List Char} {length : Nat}
    (h : closedRegex inClass text = some length) :
    ∃ body rest, text = body ++ '/' :: rest ∧ length = body.length + 1 := by
  fun_induction closedRegex inClass text generalizing length with
  | case1 => cases h
  | case2 => cases h
  | case3 inClass c text ih =>
    obtain ⟨count, hcount, rfl⟩ := Option.map_eq_some_iff.1 h
    obtain ⟨body, rest, rfl, rfl⟩ := ih hcount
    exact ⟨'\\' :: c :: body, rest, rfl, rfl⟩
  | case4 inClass text hlone hescape => cases h
  | case5 inClass text hlone hescape hline ih =>
    obtain ⟨count, hcount, rfl⟩ := Option.map_eq_some_iff.1 h
    obtain ⟨body, rest, rfl, rfl⟩ := ih hcount
    exact ⟨'[' :: body, rest, rfl, rfl⟩
  | case6 inClass text hlone hescape hline hopening ih =>
    obtain ⟨count, hcount, rfl⟩ := Option.map_eq_some_iff.1 h
    obtain ⟨body, rest, rfl, rfl⟩ := ih hcount
    exact ⟨']' :: body, rest, rfl, rfl⟩
  | case7 inClass c text hlone hescape hline hopening hclosing hend =>
    cases h
    exact ⟨[], text, by rw [hend.1]; rfl, rfl⟩
  | case8 inClass c text hlone hescape hline hopening hclosing hend ih =>
    obtain ⟨count, hcount, rfl⟩ := Option.map_eq_some_iff.1 h
    obtain ⟨body, rest, rfl, rfl⟩ := ih hcount
    exact ⟨c :: body, rest, rfl, rfl⟩

/-! ## Comments -/

/-- The line at the front of a text, and what its end leaves. -/
theorem exists_line (text : List Char) :
    ∃ line after, text = line ++ after ∧ '\n' ∉ line ∧ lineLength text = line.length ∧
      (after = [] ∨ ∃ more, after = '\n' :: more) := by
  induction text with
  | nil => exact ⟨[], [], rfl, List.not_mem_nil, rfl, .inl rfl⟩
  | cons c text ih =>
    by_cases hc : c = '\n'
    · subst hc
      exact ⟨[], '\n' :: text, rfl, List.not_mem_nil, rfl, .inr ⟨text, rfl⟩⟩
    · obtain ⟨line, after, rfl, hline, hlength, hafter⟩ := ih
      refine ⟨c :: line, after, rfl, ?_, ?_, hafter⟩
      · rw [List.mem_cons, not_or]
        exact ⟨Ne.symm hc, hline⟩
      · have hne : (c != '\n') = true := bne_iff_ne.2 hc
        rw [lineLength, List.takeWhile_cons, if_pos hne, List.length_cons, List.length_cons]
        exact congrArg (· + 1) hlength

theorem blockLength_cons {c : Char} {text : List Char} (h : ¬ (c = '*' ∧ text.head? = some '/')) :
    blockLength (c :: text) = blockLength text + 1 := by
  rw [blockLength]
  rintro rest rfl rfl
  exact h ⟨rfl, rfl⟩

theorem blockLength_pos (c : Char) (text : List Char) : 0 < blockLength (c :: text) := by
  by_cases h : c = '*' ∧ text.head? = some '/'
  · obtain ⟨rfl, hhead⟩ := h
    obtain ⟨rest, rfl⟩ := List.head?_eq_some_iff.1 hhead
    exact Nat.zero_lt_two
  · rw [blockLength_cons h]
    exact Nat.succ_pos _

section
variable {d : Char} {rest : List Char}

theorem lineLength_change {body : List Char} (h : lineLength (body ++ d :: rest) = body.length)
    (other : List Char) : lineLength (body ++ d :: other) = body.length := by
  induction body with
  | nil =>
    cases hd : d != '\n' with
    | true => simp [lineLength, hd] at h
    | false => simp [lineLength, hd]
  | cons c body ih =>
    cases hc : c != '\n' with
    | true =>
      simp only [lineLength, List.cons_append, List.takeWhile_cons, hc, if_true, List.length_cons,
        Nat.add_right_cancel_iff] at h ih ⊢
      exact ih h
    | false => simp [lineLength, hc] at h

theorem blockLength_change {body : List Char} (h : blockLength (body ++ d :: rest) = body.length)
    (other : List Char) : blockLength (body ++ d :: other) = body.length := by
  induction body with
  | nil =>
    have hpos := blockLength_pos d rest
    rw [List.nil_append, List.length_nil] at h
    omega
  | cons c body ih =>
    rw [List.cons_append] at h ⊢
    cases body with
    | nil =>
      -- one character ends no block, as the one behind it would count, too
      have hpos := blockLength_pos d rest
      by_cases hend : c = '*' ∧ (d :: rest).head? = some '/'
      · obtain ⟨rfl, hd⟩ := hend
        cases hd
        cases h
      · rw [List.nil_append, blockLength_cons hend] at h
        simp only [List.length_cons, List.length_nil] at h
        omega
    | cons e body =>
      by_cases hend : c = '*' ∧ e = '/'
      · obtain ⟨rfl, rfl⟩ := hend
        exact h
      · have hfirst : ∀ more : List Char, ¬ (c = '*' ∧ (e :: body ++ more).head? = some '/') := by
          rintro more ⟨hc, hhead⟩
          cases hhead
          exact hend ⟨hc, rfl⟩
        rw [blockLength_cons (hfirst _), List.length_cons] at h ⊢
        rw [ih (Nat.succ.inj h)]

/-- A comment that something follows ends there before any other text, too. -/
theorem commentLength?_change {text : List Char}
    (h : commentLength? (text ++ d :: rest) = some text.length) (other : List Char) :
    commentLength? (text ++ d :: other) = some text.length := by
  match text with
  | [] => exact absurd (two_le_of_commentLength? h).1 (by simp)
  | [_] => exact absurd (two_le_of_commentLength? h).1 (by simp)
  | c :: e :: body =>
    unfold commentLength? at h
    split at h
    · next tail heq =>
      simp only [List.cons_append, List.cons.injEq] at heq
      obtain ⟨rfl, rfl, rfl⟩ := heq
      have hbody := lineLength_change (Nat.add_right_cancel (Option.some.inj h)) other
      rw [List.cons_append, List.cons_append, commentLength?, hbody]
      rfl
    · next tail heq =>
      simp only [List.cons_append, List.cons.injEq] at heq
      obtain ⟨rfl, rfl, rfl⟩ := heq
      have hbody := blockLength_change (Nat.add_right_cancel (Option.some.inj h)) other
      rw [List.cons_append, List.cons_append, commentLength?, hbody]
      rfl
    · cases h

end

/-- Whether a comment starts is told by two characters. -/
theorem commentLength?_eq_none_iff {text : List Char} :
    commentLength? text = none ↔ text.take 2 ≠ ['/', '/'] ∧ text.take 2 ≠ ['/', '*'] := by
  unfold commentLength?
  split
  · simp
  · simp
  · next hline hblock =>
    refine ⟨fun _ => ⟨fun heq => ?_, fun heq => ?_⟩, fun _ => rfl⟩
    · exact hline (text.drop 2) (by rw [← List.take_append_drop 2 text, heq]; rfl)
    · exact hblock (text.drop 2) (by rw [← List.take_append_drop 2 text, heq]; rfl)

theorem commentLength?_slash {rest : List Char} (hline : rest.head? ≠ some '/')
    (hblock : rest.head? ≠ some '*') : commentLength? ('/' :: rest) = none := by
  unfold commentLength?
  split
  · next heq =>
    obtain ⟨-, rfl⟩ := List.cons.inj heq
    exact absurd rfl hline
  · next heq =>
    obtain ⟨-, rfl⟩ := List.cons.inj heq
    exact absurd rfl hblock
  · rfl

theorem commentLength?_eq_none_change {c d : Char} {body rest : List Char}
    (h : commentLength? (c :: body ++ d :: rest) = none) (other : List Char) :
    commentLength? (c :: body ++ d :: other) = none := by
  rw [commentLength?_eq_none_iff] at h ⊢
  have htake : (c :: body ++ d :: other).take 2 = (c :: body ++ d :: rest).take 2 := by
    cases body <;> rfl
  rwa [htake]

/-! ## Lexemes -/

theorem unclosedLength_le (c : Char) (tail : List Char) :
    unclosedLength c tail ≤ tail.length + 1 := by
  have := lineLength_le tail
  unfold unclosedLength
  split <;> omega

theorem lexemeFrom_le (regexAllowed : Bool) (c : Char) (tail : List Char) :
    (lexemeFrom regexAllowed c tail).2 ≤ tail.length + 1 := by
  have hunclosed := unclosedLength_le c tail
  have hword := (List.takeWhile_prefix isWordPart (l := tail)).length_le
  unfold lexemeFrom
  split
  · next length hlength => exact commentLength?_le_length hlength
  · split
    · split
      · next length hlength => exact Nat.succ_le_succ (closedString_take hlength).1
      · exact hunclosed
    · split
      · split
        · next length hlength => exact Nat.succ_le_succ (closedRegex_take hlength).1
        · exact hunclosed
      · repeat' split
        all_goals dsimp only
        all_goals omega

theorem takeWhile_change {p : Char → Bool} {d : Char} {body rest : List Char}
    (h : ((body ++ d :: rest).takeWhile p).length = body.length) (other : List Char) :
    ((body ++ d :: other).takeWhile p).length = body.length := by
  induction body with
  | nil =>
    cases hd : p d with
    | true => simp [hd] at h
    | false => simp [hd]
  | cons c body ih =>
    cases hc : p c with
    | true =>
      simp only [List.cons_append, List.takeWhile_cons, hc, if_true, List.length_cons,
        Nat.add_right_cancel_iff] at h ih ⊢
      exact ih h
    | false => simp [hc] at h

/-- A lexeme that is closed is the same before any other text, if it ends before the same
character. -/
theorem lexemeFrom_change {regexAllowed : Bool} {c d : Char} {body rest : List Char}
    {kind : Lexeme} (h : lexemeFrom regexAllowed c (body ++ d :: rest) = (kind, body.length + 1))
    (hkind : kind ≠ .unclosed) (other : List Char) :
    lexemeFrom regexAllowed c (body ++ d :: other) = (kind, body.length + 1) := by
  have htake : (body ++ d :: rest).take body.length = body := List.take_left
  cases hcomment : commentLength? (c :: body ++ d :: rest) with
  | some length =>
    unfold lexemeFrom at h ⊢
    rw [← List.cons_append, hcomment] at h
    cases h
    rw [← List.cons_append, commentLength?_change hcomment other]
    rfl
  | none =>
    have hother := commentLength?_eq_none_change hcomment other
    unfold lexemeFrom at h ⊢
    rw [← List.cons_append, hcomment] at h
    rw [← List.cons_append, hother]
    dsimp only at h ⊢
    split at h
    · next hquote =>
      rw [if_pos hquote]
      split at h
      · next length hlength =>
        cases h
        have hlocal := (closedString_take hlength).2 (d :: other)
        rw [htake] at hlocal
        rw [hlocal]
      · exact absurd (Prod.mk.inj h).1.symm hkind
    · next hquote =>
      rw [if_neg hquote]
      split at h
      · next hslash =>
        rw [if_pos hslash]
        split at h
        · next length hlength =>
          cases h
          have hlocal := (closedRegex_take hlength).2 (d :: other)
          rw [htake] at hlocal
          rw [hlocal]
        · exact absurd (Prod.mk.inj h).1.symm hkind
      · next hslash =>
        rw [if_neg hslash]
        split at h
        · next hstart =>
          rw [if_pos hstart]
          obtain ⟨rfl, hlength⟩ := Prod.mk.inj h
          rw [takeWhile_change (Nat.add_right_cancel hlength) other]
        · next hstart =>
          rw [if_neg hstart]
          exact h

/-- What closes a bracket is one character. -/
theorem eq_of_lexemeFrom_closing {regexAllowed : Bool} {c : Char} {tail : List Char} {length : Nat}
    (h : lexemeFrom regexAllowed c tail = (.closing, length)) :
    (c = ')' ∨ c = ']' ∨ c = '}') ∧ length = 1 := by
  unfold lexemeFrom at h
  split at h
  · cases h
  · split at h
    · split at h <;> cases h
    · split at h
      · split at h <;> cases h
      · split at h
        · cases h
        · split at h
          · cases h
          · split at h
            · next hclosing => exact ⟨hclosing, (Prod.mk.inj h).2.symm⟩
            · cases h

/-! ## Lexemes in a script -/

/-- A lexeme ends within the script. -/
theorem exists_starts (before : List Char) {rest : List Char} (hrest : rest ≠ []) :
    ∃ text more, rest = text ++ more ∧
      Starts before text more (lexeme ⟨before, rest⟩).1 ∧
      text.length = (lexeme ⟨before, rest⟩).2 := by
  have hpos : 0 < (lexeme ⟨before, rest⟩).2 := lexeme_pos hrest
  have hle : (lexeme ⟨before, rest⟩).2 ≤ rest.length := by
    cases rest with
    | nil => exact absurd rfl hrest
    | cons c tail => exact lexemeFrom_le _ c tail
  obtain ⟨length, hlength⟩ : ∃ length, (lexeme ⟨before, rest⟩).2 = length := ⟨_, rfl⟩
  rw [hlength] at hpos hle ⊢
  have htake : (rest.take length).length = length := List.length_take_of_le hle
  refine ⟨rest.take length, rest.drop length, (List.take_append_drop ..).symm, ⟨?_, ?_⟩, htake⟩
  · rw [← List.length_pos_iff, htake]
    exact hpos
  · rw [List.take_append_drop, htake, ← hlength]

section
variable {before text rest : List Char} {kind : Lexeme}

theorem Place.Starts.change {d : Char} (h : Starts before text (d :: rest) kind)
    (hkind : kind ≠ .unclosed) (other : List Char) : Starts before text (d :: other) kind := by
  obtain ⟨hne, hlexeme⟩ := h
  refine ⟨hne, ?_⟩
  obtain ⟨c, body, rfl⟩ := List.exists_cons_of_ne_nil hne
  exact lexemeFrom_change hlexeme hkind other

theorem Place.Starts.eq_of_closing (h : Starts before text rest .closing) :
    text = [')'] ∨ text = [']'] ∨ text = ['}'] := by
  obtain ⟨hne, hlexeme⟩ := h
  obtain ⟨c, body, rfl⟩ := List.exists_cons_of_ne_nil hne
  obtain ⟨hc, hlength⟩ := eq_of_lexemeFrom_closing hlexeme
  rw [List.length_cons, Nat.add_eq_right, List.length_eq_zero_iff] at hlength
  rw [hlength]
  simpa using hc

end

/-- A bracket that closes one needs nothing around it. -/
theorem starts_closing {c : Char} (hc : c = ')' ∨ c = ']' ∨ c = '}') (before rest : List Char) :
    Starts before [c] rest .closing := by
  rcases hc with rfl | rfl | rfl <;> exact ⟨by simp, rfl⟩

end Stepbook.Source
