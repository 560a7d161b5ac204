import Stepbook.Proofs.Source.Extent

/-! # The way to a closing bracket

The search for a closing bracket reads lexemes one by one. All of them end before that bracket, so
that what follows it does not matter.

* `Lexeme.depthAfter?`: how deep brackets are nested behind a lexeme.
* `Closes`: a text that leads to the bracket that closes the outermost.
* `Closes.closingFrom_eq`, `exists_closes`: what the search finds is the end of such a text.
* `Closes.change`: it is found before any other text, too.
* `exists_gaps`, `closingFrom_trivia`: blanks and comments on the way.
-/

namespace Stepbook.Source
set_option autoImplicit false

open Place

/-! ## Lexemes on the way -/

/-- How deep brackets are nested behind a lexeme within `depth` of them; none where the search does
not go on. -/
def Lexeme.depthAfter? (depth : Nat) : Lexeme → Option Nat
  | .unclosed => none
  | .opening => some (depth + 1)
  | .closing =>
    match depth with
    | 0 | 1 => none
    | depth + 2 => some (depth + 1)
  | .comment | .literal | .word | .other => some depth

/-- A text that leads from within `depth` brackets to behind the one that closes the outermost, read
between `before` and `rest`. -/
inductive Closes : (depth : Nat) → (before text rest : List Char) → Prop where
  | last {before text rest : List Char} (starts : Starts before text rest .closing) :
      Closes 1 before text rest
  | more {depth next : Nat} {before text later rest : List Char} {kind : Lexeme}
      (starts : Starts before text (later ++ rest) kind)
      (goes_on : kind.depthAfter? depth = some next)
      (others : Closes next (text.reverse ++ before) later rest) :
      Closes depth before (text ++ later) rest

theorem closingFrom_more {depth next : Nat} {before text rest : List Char} {kind : Lexeme}
    (hstarts : Starts before text rest kind) (hnext : kind.depthAfter? depth = some next) :
    closingFrom depth ⟨before, text ++ rest⟩ =
      (closingFrom next ⟨text.reverse ++ before, rest⟩).map (· + text.length) := by
  cases kind with
  | unclosed => cases hnext
  | opening =>
    cases hnext
    exact closingFrom_opening hstarts
  | closing =>
    match depth, hnext with
    | depth + 2, rfl => exact closingFrom_closing hstarts
  | comment | literal | word | other =>
    cases hnext
    exact closingFrom_skip hstarts (by simp)

/-- Where the search does not go on, it ends with the outermost bracket or without any. -/
theorem closingFrom_stop {depth : Nat} {before text rest : List Char} {kind : Lexeme}
    (hstarts : Starts before text rest kind) (hnext : kind.depthAfter? depth = none) :
    closingFrom depth ⟨before, text ++ rest⟩ =
      if kind = .closing ∧ depth = 1 then some text.length else none := by
  have hne : (⟨before, text ++ rest⟩ : Place).rest ≠ [] := by
    simp [hstarts.1]
  rw [closingFrom, dif_neg hne, hstarts.2]
  cases kind with
  | unclosed => rfl
  | closing =>
    rcases depth with _ | _ | depth
    · rfl
    · rfl
    · cases hnext
  | opening | comment | literal | word | other => cases hnext

theorem closingFrom_nil (depth : Nat) (before : List Char) :
    closingFrom depth ⟨before, []⟩ = none := by
  rw [closingFrom, dif_pos rfl]

theorem Closes.closingFrom_eq {depth : Nat} {before text rest : List Char}
    (h : Closes depth before text rest) :
    closingFrom depth ⟨before, text ++ rest⟩ = some text.length := by
  induction h with
  | last starts => exact closingFrom_last starts
  | more starts goes_on others ih =>
    rw [List.append_assoc, closingFrom_more starts goes_on, ih, Option.map_some,
      List.length_append, Nat.add_comm]

theorem exists_closes {depth length : Nat} {before rest : List Char}
    (h : closingFrom depth ⟨before, rest⟩ = some length) :
    ∃ text more, rest = text ++ more ∧ text.length = length ∧ Closes depth before text more := by
  have hrest : rest ≠ [] := by
    rintro rfl
    rw [closingFrom_nil] at h
    cases h
  obtain ⟨first, later, rfl, hstarts, -⟩ := exists_starts before hrest
  cases hnext : (lexeme ⟨before, first ++ later⟩).1.depthAfter? depth with
  | none =>
    rw [closingFrom_stop hstarts hnext] at h
    split at h
    · next hlast =>
      obtain ⟨hkind, rfl⟩ := hlast
      rw [hkind] at hstarts
      exact ⟨first, later, rfl, Option.some.inj h, .last hstarts⟩
    · cases h
  | some next =>
    rw [closingFrom_more hstarts hnext, Option.map_eq_some_iff] at h
    obtain ⟨count, hcount, rfl⟩ := h
    have hshorter : later.length < (first ++ later).length := by
      have := List.length_pos_iff.2 hstarts.1
      rw [List.length_append]
      omega
    obtain ⟨text, more, rfl, rfl, hcloses⟩ := exists_closes hcount
    refine ⟨first ++ text, more, (List.append_assoc ..).symm, ?_, .more hstarts hnext hcloses⟩
    rw [List.length_append, Nat.add_comm]
termination_by rest.length

/-! ## What follows the bracket -/

namespace Closes

section
variable {depth : Nat} {before text rest : List Char}

/-- The text ends with the bracket. -/
theorem exists_last (h : Closes depth before text rest) :
    ∃ inside last, text = inside ++ [last] ∧ (last = ')' ∨ last = ']' ∨ last = '}') := by
  induction h with
  | last starts =>
    rcases starts.eq_of_closing with rfl | rfl | rfl
    · exact ⟨[], ')', rfl, .inl rfl⟩
    · exact ⟨[], ']', rfl, .inr (.inl rfl)⟩
    · exact ⟨[], '}', rfl, .inr (.inr rfl)⟩
  | @more _ _ _ first _ _ _ _ _ _ ih =>
    obtain ⟨inside, last, rfl, hlast⟩ := ih
    exact ⟨first ++ inside, last, (List.append_assoc ..).symm, hlast⟩

theorem ne_nil (h : Closes depth before text rest) : text ≠ [] := by
  obtain ⟨inside, last, rfl, -⟩ := h.exists_last
  simp

/-- The bracket is found before any other text, too. -/
theorem change (h : Closes depth before text rest) (other : List Char) :
    Closes depth before text other := by
  induction h with
  | last starts =>
    rcases starts.eq_of_closing with rfl | rfl | rfl
    · exact .last (starts_closing (.inl rfl) _ _)
    · exact .last (starts_closing (.inr (.inl rfl)) _ _)
    · exact .last (starts_closing (.inr (.inr rfl)) _ _)
  | @more _ _ _ _ _ _ kind starts goes_on others ih =>
    refine .more ?_ goes_on ih
    have hkind : kind ≠ .unclosed := by
      rintro rfl
      cases goes_on
    obtain ⟨d, later, rfl⟩ := List.exists_cons_of_ne_nil others.ne_nil
    exact starts.change hkind _

end

end Closes

/-! ## Blanks and comments -/

theorem commentLength?_starts {before rest : List Char} {length : Nat}
    (h : commentLength? rest = some length) :
    Starts before (rest.take length) (rest.drop length) .comment := by
  have hbound := two_le_of_commentLength? h
  have hlength : (rest.take length).length = length :=
    List.length_take_of_le (commentLength?_le_length h)
  obtain ⟨c, tail, rfl⟩ := List.exists_cons_of_ne_nil hbound.2
  refine ⟨?_, ?_⟩
  · rw [← List.length_pos_iff, hlength]
    omega
  · rw [List.take_append_drop, hlength, lexeme]
    dsimp only
    rw [lexemeFrom, h]

/-- The search goes through all blanks and comments that follow, even if they reach to the end. -/
theorem closingFrom_trivia (depth : Nat) (before rest : List Char) :
    closingFrom (depth + 1) ⟨before, rest⟩ =
      (closingFrom (depth + 1) ⟨(rest.take (triviaLength rest)).reverse ++ before,
        rest.drop (triviaLength rest)⟩).map (· + triviaLength rest) := by
  fun_induction triviaLength rest generalizing before with
  | case1 rest length hcomment ih =>
    have hlength : (rest.take length).length = length :=
      List.length_take_of_le (commentLength?_le_length hcomment)
    have hskip : closingFrom (depth + 1) ⟨before, rest.take length ++ rest.drop length⟩ = _ :=
      closingFrom_skip (commentLength?_starts hcomment) (.inl rfl)
    rw [List.take_append_drop, hlength, ih, map_add_add] at hskip
    rw [hskip, List.drop_drop, List.take_add, List.reverse_append, List.append_assoc]
  | case2 hcomment => exact (map_add_zero _).symm
  | case3 c tail hcomment hblank ih =>
    have hblanks : closingFrom (depth + 1) ⟨before, [c] ++ tail⟩ = _ :=
      crosses_blank hblank depth before tail
    rw [ih, map_add_add] at hblanks
    rw [Nat.add_comm 1 (triviaLength tail), List.take_succ_cons, List.drop_succ_cons,
      List.reverse_cons, List.append_assoc, Nat.add_comm (triviaLength tail)]
    exact hblanks
  | case4 c tail hcomment hblank => exact (map_add_zero _).symm

/-! ## Gaps -/

theorem exists_block {text : List Char} (h : text.drop (blockLength text) ≠ []) :
    ∃ body more, text = body ++ '*' :: '/' :: more ∧ ¬ ['*', '/'] <:+: body := by
  fun_induction blockLength text with
  | case1 => exact absurd rfl h
  | case2 more => exact ⟨[], more, rfl, by simp⟩
  | case3 c text hend ih =>
    obtain ⟨body, more, rfl, hbody⟩ := ih h
    refine ⟨c :: body, more, rfl, ?_⟩
    rw [List.infix_cons_iff, not_or]
    refine ⟨fun hleft => ?_, hbody⟩
    obtain ⟨hc, hbody⟩ := List.cons_prefix_cons.1 hleft
    cases body with
    | nil => simp at hbody
    | cons d body =>
      obtain ⟨hd, -⟩ := List.cons_prefix_cons.1 hbody
      exact hend (body ++ '*' :: '/' :: more) hc.symm (by rw [← hd]; rfl)

/-- A comment that something follows is written to its end. -/
theorem exists_comment {rest : List Char} {length : Nat} (h : commentLength? rest = some length)
    (hmore : rest.drop length ≠ []) :
    ∃ (comment : Comment) (after : List Char), rest = comment.text ++ after := by
  unfold commentLength? at h
  split at h
  · next tail =>
    cases h
    obtain ⟨line, after, rfl, hline, hlength, hafter⟩ := exists_line tail
    rw [hlength, List.drop_succ_cons, List.drop_succ_cons, List.drop_left] at hmore
    rcases hafter with rfl | ⟨more, rfl⟩
    · exact absurd rfl hmore
    · exact ⟨.line line hline, more, by simp [Comment.text]⟩
  · next tail =>
    cases h
    have hend : tail.drop (blockLength tail) ≠ [] := hmore
    obtain ⟨body, after, rfl, hbody⟩ := exists_block hend
    exact ⟨.block body hbody, after, by simp [Comment.text]⟩
  · cases h

/-- What a text starts with up to something that is no gap. -/
theorem exists_gaps {rest : List Char} {c : Char} {more : List Char}
    (h : rest.drop (triviaLength rest) = c :: more) :
    Text.isAsciiBlank c = false ∧ commentLength? (c :: more) = none ∧
      ∃ gaps : List Gap, rest = gaps.flatMap Gap.text ++ c :: more := by
  cases hcomment : commentLength? rest with
  | some length =>
    have hmore : rest.drop length ≠ [] := by
      intro hnil
      rw [triviaLength_of_comment hcomment, ← List.drop_drop, hnil, List.drop_nil] at h
      cases h
    obtain ⟨comment, after, rfl⟩ := exists_comment hcomment hmore
    have hshorter : after.length < (comment.text ++ after).length := by
      cases comment <;> simp [Comment.text] <;> omega
    have hlength := triviaLength_gap (.comment comment) after
    rw [Gap.text] at hlength
    rw [hlength, ← List.drop_drop, List.drop_left] at h
    obtain ⟨hblank, hnone, gaps, hgaps⟩ := exists_gaps h
    refine ⟨hblank, hnone, .comment comment :: gaps, ?_⟩
    rw [List.flatMap_cons, List.append_assoc, ← hgaps]
    rfl
  | none =>
    cases rest with
    | nil => simp at h
    | cons d rest =>
      cases hblank : Text.isAsciiBlank d with
      | true =>
        rw [triviaLength_of_blank hblank, Nat.add_comm, List.drop_succ_cons] at h
        obtain ⟨hother, hnone, gaps, hgaps⟩ := exists_gaps h
        exact ⟨hother, hnone, .blank d hblank :: gaps, by rw [hgaps]; rfl⟩
      | false =>
        rw [triviaLength_of_other hblank hcomment] at h
        cases h
        exact ⟨hblank, hcomment, [], rfl⟩
termination_by rest.length

theorem of_triviaLength_eq_zero {c : Char} {tail : List Char} (h : triviaLength (c :: tail) = 0) :
    Text.isAsciiBlank c = false ∧ commentLength? (c :: tail) = none := by
  have hfirst : (c :: tail).drop (triviaLength (c :: tail)) = c :: tail := by
    rw [h, List.drop_zero]
  obtain ⟨hblank, hcomment, -⟩ := exists_gaps hfirst
  exact ⟨hblank, hcomment⟩

end Stepbook.Source
