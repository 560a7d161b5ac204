import Stepbook.Proofs.Expression.Print

/-! # The tokens of an expression are canonical

Reading adds to the tokens at their end only: it extends the last one, or begins the next one at
the character that it reads. So the tokens stay canonical, and their offsets are those of the
characters that opened them.

* `Token.mark?`, `StandsAt`: the character that opens a token, and where it stands.
* `Mode.current`: what is being read, as a token.
* `Grows`: what one character does to the last token.
* `Progress`, `Progress.grow`: what holds of the tokens of the characters read so far.
* `tokens_canonical`: printing and reading undo each other.
-/

namespace Stepbook.Expression
set_option autoImplicit false

/-! ## Offsets -/

/-- The offset of a token, with the character that stands there. -/
def Token.mark? : Token → Option (Nat × Char)
  | .parameter start _ => some (start, '{')
  | .optional start _ => some (start, '(')
  | .separator offset => some (offset, '/')
  | _ => none

def marks (tokens : List Token) : List (Nat × Char) :=
  tokens.filterMap Token.mark?

/-- The character stands in the text at the offset in bytes. -/
def StandsAt (text : List Char) (mark : Nat × Char) : Prop :=
  ∃ before after, text = before ++ mark.2 :: after ∧ Text.byteLength before = mark.1

namespace StandsAt

variable {text : List Char} {mark : Nat × Char}

theorem append (h : StandsAt text mark) (more : List Char) : StandsAt (text ++ more) mark := by
  obtain ⟨before, after, rfl, hoffset⟩ := h
  exact ⟨before, after ++ more, by simp, hoffset⟩

theorem last (text : List Char) (c : Char) :
    StandsAt (text ++ [c]) (Text.byteLength text, c) :=
  ⟨text, [], rfl, rfl⟩

theorem lt (h : StandsAt text mark) : mark.1 < Text.byteLength text := by
  obtain ⟨before, after, rfl, hoffset⟩ := h
  have hsize := mark.2.utf8Size_pos
  rw [Text.byteLength_append, Text.byteLength_cons]
  omega

end StandsAt

/-! ## The last token -/

/-- What is being read, as far as it is known; a lone backslash stands for itself. -/
def Mode.current : Mode → List Token
  | .between => []
  | .text chars => [.text chars]
  | .blank chars => [.blank chars]
  | .escape chars => [.text (chars ++ ['\\'])]
  | .parameter start name => [.parameter start name]
  | .optional start chars => [.optional start chars]
  | .optionalEscape start chars => [.optional start (chars ++ ['\\'])]

/-- A literal text holds something, and the name of a placeholder no brace. -/
def Token.Clean : Token → Prop
  | .text chars => chars ≠ []
  | .parameter _ name => '{' ∉ name ∧ '}' ∉ name
  | _ => True

/-- A token with an offset is told apart from any other. -/
theorem Token.separate_of_mark {first second : Token}
    (h : first.mark? ≠ none ∨ second.mark? ≠ none) : first.Separate second := by
  cases first <;> cases second <;> simp_all [Token.mark?, Token.Separate]

/-- The character extends the last token, or the next one begins with it. -/
inductive Grows (offset : Nat) (c : Char) : List Token → List Token → Prop where
  | more {token longer : Token} (mark : longer.mark? = token.mark?)
      (separate : ∀ other : Token, other.Separate token → other.Separate longer)
      (clean : token.Clean → longer.Clean) : Grows offset c [token] [longer]
  | next {current : List Token} {token : Token} (mark : ∀ mark ∈ token.mark?, mark = (offset, c))
      (separate : ∀ last ∈ current, last.Separate token) (clean : token.Clean) :
      Grows offset c current (current ++ [token])

namespace Grows

variable {offset : Nat} {c : Char}

theorem same (token : Token) : Grows offset c [token] [token] :=
  .more rfl (fun _ => id) id

theorem text (chars : List Char) {longer : List Char} (hne : longer ≠ []) :
    Grows offset c [.text chars] [.text longer] := by
  refine .more rfl (fun other hother => ?_) fun _ => hne
  cases other <;> exact hother

theorem optional (start : Nat) (chars longer : List Char) :
    Grows offset c [.optional start chars] [.optional start longer] := by
  refine .more rfl (fun other _ => ?_) fun _ => trivial
  cases other <;> exact trivial

/-- A placeholder, an optional text or a separator begins. -/
theorem opened {current : List Token} {token : Token} (mark : token.mark? = some (offset, c))
    (clean : token.Clean) : Grows offset c current (current ++ [token]) := by
  refine .next (fun other hother => ?_) (fun last _ => ?_) clean
  · rw [mark] at hother
    exact (Option.mem_some.1 hother).symm
  · exact Token.separate_of_mark (.inr (by simp [mark]))

end Grows

section
variable {mode next : Mode} {offset : Nat} {c : Char} {complete : List Token}

theorem current_eq_pending (h : mode.IsOutside) : mode.current = mode.pending := by
  cases mode <;> first | rfl | exact absurd h id

/-- A literal character, or the backslash before it. -/
theorem grows_literal (h : mode.IsOutside) {chars : List Char} (hne : chars ≠ []) :
    Grows offset c mode.current (mode.beforeLiteral ++ [.text chars]) := by
  cases mode with
  | between => exact .next nofun nofun hne
  | text done => exact .text done hne
  | blank done =>
    have hseparate : ∀ last ∈ [Token.blank done], last.Separate (.text chars) := by
      simp [Token.Separate]
    exact .next nofun hseparate hne
  | _ => exact absurd h id

theorem grows_blank (h : mode.IsOutside) (hblank : Text.isBlank c = true)
    (hstep : mode.stepOutside offset c = .ok (complete, next)) :
    Grows offset c mode.current (complete ++ next.current) := by
  rw [stepOutside_blank hblank] at hstep
  cases mode with
  | between =>
    cases hstep
    exact .next nofun nofun trivial
  | text done =>
    cases hstep
    have hseparate : ∀ last ∈ [Token.text done], last.Separate (.blank [c]) := by
      simp [Token.Separate]
    exact .next nofun hseparate trivial
  | blank done =>
    cases hstep
    refine .more rfl (fun other hother => ?_) fun _ => trivial
    cases other <;> exact hother
  | _ => exact absurd h id

theorem grows_stepOutside (h : mode.IsOutside)
    (hstep : mode.stepOutside offset c = .ok (complete, next)) :
    Grows offset c mode.current (complete ++ next.current) := by
  by_cases hblank : Text.isBlank c = true
  · exact grows_blank h hblank hstep
  · unfold Mode.stepOutside at hstep
    split at hstep
    · cases hstep
      exact grows_literal h (by simp)
    · cases hstep
      rw [current_eq_pending h]
      exact .opened rfl ⟨nofun, nofun⟩
    · cases hstep
      rw [current_eq_pending h]
      exact .opened rfl trivial
    · cases hstep
      rw [current_eq_pending h, Mode.current, List.append_nil]
      exact .opened rfl trivial
    · cases hstep
    · cases hstep
    · rw [if_neg hblank] at hstep
      cases hstep
      exact grows_literal h (by simp)

/-- What one character does to the tokens: those before the last one stay as they are. -/
theorem grows_step (hstep : mode.step offset c = .ok (complete, next)) :
    Grows offset c mode.current (complete ++ next.current) := by
  cases mode with
  | between => exact grows_stepOutside trivial hstep
  | text chars => exact grows_stepOutside trivial hstep
  | blank chars => exact grows_stepOutside trivial hstep
  | escape chars =>
    cases hstep
    exact .text _ (by simp)
  | parameter start name =>
    unfold Mode.step at hstep
    dsimp only at hstep
    split at hstep
    · cases hstep
      exact .same _
    · cases hstep
    · next hclosing hopening =>
      cases hstep
      refine .more rfl (fun other _ => ?_) fun hclean => ?_
      · cases other <;> exact trivial
      · have hname : '{' ∉ name ∧ '}' ∉ name := hclean
        show '{' ∉ name ++ [c] ∧ '}' ∉ name ++ [c]
        simp only [List.mem_append, List.mem_singleton, not_or]
        exact ⟨⟨hname.1, fun heq => hopening heq.symm⟩, hname.2, fun heq => hclosing heq.symm⟩
  | «optional» start chars =>
    unfold Mode.step at hstep
    dsimp only at hstep
    split at hstep
    · cases hstep
      exact .optional ..
    · split at hstep
      · cases hstep
      · cases hstep
        exact .same _
    · cases hstep
    · cases hstep
    · cases hstep
      exact .optional ..
  | optionalEscape start chars =>
    cases hstep
    exact .optional ..

/-- Where nothing is being read, a token with an offset has just been completed. -/
theorem exists_mark_of_step (hstep : mode.step offset c = .ok (complete, next))
    (hnext : next.current = []) : ∃ last ∈ complete.getLast?, last.mark? ≠ none := by
  have hbetween : next = .between := by
    cases next <;> first | rfl | cases hnext
  subst hbetween
  have houtside : mode.stepOutside offset c = .ok (complete, .between) →
      complete = mode.pending ++ [.separator offset] := by
    intro h
    unfold Mode.stepOutside at h
    repeat' split at h
    all_goals cases h
    rfl
  have hseparator : mode.stepOutside offset c = .ok (complete, .between) →
      ∃ last ∈ complete.getLast?, last.mark? ≠ none := by
    intro h
    rw [houtside h, List.getLast?_append]
    exact ⟨.separator offset, rfl, nofun⟩
  cases mode with
  | between => exact hseparator hstep
  | text chars => exact hseparator hstep
  | blank chars => exact hseparator hstep
  | escape chars => cases hstep
  | parameter start name =>
    unfold Mode.step at hstep
    dsimp only at hstep
    split at hstep
    · cases hstep
      exact ⟨.parameter start name, rfl, nofun⟩
    · cases hstep
    · cases hstep
  | «optional» start chars =>
    unfold Mode.step at hstep
    dsimp only at hstep
    repeat' split at hstep
    all_goals cases hstep
    exact ⟨.optional start chars, rfl, nofun⟩
  | optionalEscape start chars => cases hstep

theorem current_of_finish {last : List Token} (h : mode.finish = .ok last) :
    last = mode.current := by
  cases mode <;> cases h <;> rfl

end

/-! ## All tokens -/

/-- What holds of the tokens of the characters that have been read. -/
structure Progress (past : List Char) (read : List Token) : Prop where
  clean : ∀ token ∈ read, token.Clean
  separate : read.IsChain Token.Separate
  ordered : (marks read).Pairwise (·.1 < ·.1)
  placed : ∀ mark ∈ marks read, StandsAt past mark

theorem marks_append (first second : List Token) :
    marks (first ++ second) = marks first ++ marks second :=
  List.filterMap_append

namespace Progress

variable {past : List Char} {done current grown : List Token} {c : Char}

theorem more {token longer : Token} (h : Progress past (done ++ [token]))
    (mark : longer.mark? = token.mark?)
    (separate : ∀ other : Token, other.Separate token → other.Separate longer)
    (clean : token.Clean → longer.Clean) : Progress (past ++ [c]) (done ++ [longer]) := by
  have hmarks : marks (done ++ [longer]) = marks (done ++ [token]) := by
    rw [marks_append, marks_append]
    simp only [marks, List.filterMap_cons, mark]
  refine ⟨?_, ?_, ?_, ?_⟩
  · intro other hother
    rcases List.mem_append.1 hother with hother | hother
    · exact h.clean other (List.mem_append_left _ hother)
    · rw [List.mem_singleton.1 hother]
      exact clean (h.clean token (by simp))
  · have hchain := h.separate
    rw [List.isChain_append] at hchain ⊢
    refine ⟨hchain.1, List.isChain_singleton _, fun last hlast first hfirst => ?_⟩
    obtain rfl : longer = first := by simpa using hfirst
    exact separate last (hchain.2.2 last hlast token (by simp))
  · rw [hmarks]
    exact h.ordered
  · rw [hmarks]
    exact fun other hother => (h.placed other hother).append [c]

theorem next {token : Token} (h : Progress past done)
    (mark : ∀ mark ∈ token.mark?, mark = (Text.byteLength past, c))
    (separate : ∀ last ∈ done.getLast?, last.Separate token) (clean : token.Clean) :
    Progress (past ++ [c]) (done ++ [token]) := by
  have hmark : ∀ other ∈ marks [token], other = (Text.byteLength past, c) := by
    intro other hother
    apply mark
    simpa [marks] using hother
  refine ⟨?_, ?_, ?_, ?_⟩
  · intro other hother
    rcases List.mem_append.1 hother with hother | hother
    · exact h.clean other hother
    · rwa [List.mem_singleton.1 hother]
  · rw [List.isChain_append]
    refine ⟨h.separate, List.isChain_singleton _, fun last hlast first hfirst => ?_⟩
    obtain rfl : token = first := by simpa using hfirst
    exact separate last hlast
  · rw [marks_append, List.pairwise_append]
    refine ⟨h.ordered, ?_, fun earlier hearlier other hother => ?_⟩
    · unfold marks
      cases hsingle : token.mark? <;> simp [hsingle]
    · rw [hmark other hother]
      exact (h.placed earlier hearlier).lt
  · intro other hother
    rw [marks_append] at hother
    rcases List.mem_append.1 hother with hother | hother
    · exact (h.placed other hother).append [c]
    · rw [hmark other hother]
      exact StandsAt.last past c

theorem grow (h : Progress past (done ++ current))
    (hclosed : current = [] → ∀ last ∈ done.getLast?, last.mark? ≠ none)
    (hgrows : Grows (Text.byteLength past) c current grown) :
    Progress (past ++ [c]) (done ++ grown) := by
  cases hgrows with
  | more mark separate clean => exact h.more mark separate clean
  | next mark separate clean =>
    rw [← List.append_assoc]
    refine h.next mark (fun last hlast => ?_) clean
    by_cases hcurrent : current = []
    · rw [hcurrent, List.append_nil] at hlast
      exact Token.separate_of_mark (.inl (hclosed hcurrent last hlast))
    · rw [List.getLast?_append_of_ne_nil _ hcurrent] at hlast
      exact separate last (List.mem_of_getLast? hlast)

theorem run {mode : Mode} {rest : List Char} {tokens : List Token}
    (h : Progress past (done ++ mode.current))
    (hclosed : mode.current = [] → ∀ last ∈ done.getLast?, last.mark? ≠ none)
    (hrun : mode.run (Text.byteLength past) rest = .ok tokens) :
    Progress (past ++ rest) (done ++ tokens) := by
  induction rest generalizing past done mode tokens with
  | nil =>
    rw [List.append_nil, current_of_finish hrun]
    exact h
  | cons c rest ih =>
    unfold Mode.run at hrun
    split at hrun
    · cases hrun
    · next complete next hstep =>
      split at hrun
      · cases hrun
      · next others hothers =>
        cases hrun
        have hgrown := h.grow hclosed (grows_step hstep)
        rw [← List.append_assoc] at hgrown
        have hlength : Text.byteLength past + c.utf8Size = Text.byteLength (past ++ [c]) := by
          simp
        rw [hlength] at hothers
        have hlater : next.current = [] →
            ∀ last ∈ (done ++ complete).getLast?, last.mark? ≠ none := by
          intro hnext last hlast
          obtain ⟨other, hother, hmark⟩ := exists_mark_of_step hstep hnext
          rw [List.getLast?_append, Option.mem_def.1 hother] at hlast
          obtain rfl : other = last := by simpa using hlast
          exact hmark
        have hall := ih hgrown hlater hothers
        rwa [List.append_assoc, List.singleton_append, List.append_assoc] at hall

end Progress

theorem progress_tokens {expression : List Char} {read : List Token}
    (h : tokens expression = .ok read) : Progress expression read := by
  have hstart : Progress [] ([] ++ Mode.between.current) :=
    ⟨nofun, List.isChain_nil, List.Pairwise.nil, nofun⟩
  exact hstart.run nofun h

theorem canonical_tokens {expression : List Char} {read : List Token}
    (h : tokens expression = .ok read) : Canonical read := by
  have hprogress := progress_tokens h
  refine ⟨fun token htoken => ?_, hprogress.separate⟩
  have hregular := regular_of_mem_tokens h token htoken
  have hclean := hprogress.clean token htoken
  cases token with
  | text chars => exact hclean
  | blank chars => exact hregular.spaced
  | parameter start name => exact hclean
  | «optional» start chars => exact hregular.solid
  | separator offset => exact trivial

/-- Reading the print of canonical tokens gives them back, each at the offset at which it is
printed. Conversely, the tokens of any expression are canonical, each offset is that of the
character which opens the token, the offsets increase, and reading the print of the tokens gives
the same tokens at the offsets of the print. -/
theorem tokens_canonical :
    (∀ written : List Token, Canonical written →
      tokens (print written) = .ok (located 0 written) ∧
        (located 0 written).map (Token.move 0) = written.map (Token.move 0) ∧
        ∀ mark ∈ marks (located 0 written), StandsAt (print written) mark) ∧
      ∀ (expression : List Char) (read : List Token), tokens expression = .ok read →
        Canonical read ∧ (marks read).Pairwise (·.1 < ·.1) ∧
          (∀ mark ∈ marks read, StandsAt expression mark) ∧
          tokens (print read) = .ok (located 0 read) := by
  refine ⟨fun written hwritten => ?_, fun expression read hread => ?_⟩
  · have hprint := tokens_print hwritten
    exact ⟨hprint, map_move_located written 0 0, (progress_tokens hprint).placed⟩
  · have hprogress := progress_tokens hread
    have hcanonical := canonical_tokens hread
    exact ⟨hcanonical, hprogress.ordered, hprogress.placed, tokens_print hcanonical⟩

/-- The tokens of `é\ a(s\)) {int}/`: a blank and a parenthesis that stand for themselves. -/
def escapedTokens : List Token :=
  [.text ['é', ' ', 'a'], .optional 5 ['s', ')'], .blank [' '], .parameter 11 ['i', 'n', 't'],
    .separator 16]

theorem tokens_canonical_escaped :
    Canonical escapedTokens ∧
      tokens (print escapedTokens) = .ok (located 0 escapedTokens) ∧
      tokens "é\\ a(s\\)) {int}/".toList = .ok escapedTokens ∧
      ∀ mark ∈ marks escapedTokens, StandsAt "é\\ a(s\\)) {int}/".toList mark := by
  have hread : tokens "é\\ a(s\\)) {int}/".toList = .ok escapedTokens := by decide
  have hcanonical : Canonical escapedTokens := by
    refine ⟨?_, ?_⟩
    · simp [escapedTokens, Token.Canonical, AreBlanks]
      decide
    · simp [escapedTokens, Token.Separate]
  exact ⟨hcanonical, (tokens_canonical.1 _ hcanonical).1, hread,
    (tokens_canonical.2 _ _ hread).2.2.1⟩

end Stepbook.Expression
