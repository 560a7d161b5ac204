import Mathlib.Data.List.TakeWhile
import Stepbook.Proofs.Expression.Canonical
import Stepbook.Proofs.Expression.Rendering

/-! # Whole texts

An expression without choices matches whole texts only: where it ends in a literal text, no text
that it matches begins another one, and where it begins with a literal text and quotes nothing, no
text that it matches ends another one.

* `Compiled.Accepts`, `accepts_iff`: the texts that an expression matches, whatever their values.
* `Straight`: tokens without optional texts and separators.
* `rest_eq_nil`: two rows of pieces from the start of a text end at the same place.
* `countP_isBlank_eq`: texts of the same tokens hold as many blanks.
* `not_accepts_part`: no text that is matched begins or ends another one.
-/

namespace Stepbook.Expression
set_option autoImplicit false

/-! ## Matched texts -/

/-- The text is matched; a number in it may still be out of range. -/
def Compiled.Accepts (compiled : Compiled) (text : List Char) : Prop :=
  compiled.match? text ≠ .ok none

theorem accepts_iff {expression : List Char} {compiled : Compiled} {read : List Token}
    (h : compile expression = .ok compiled) (hread : tokens expression = .ok read)
    {text : List Char} : compiled.Accepts text ↔ ∃ split, IsSplit read text split :=
  match?_ne_none_iff h hread

/-! ## Tokens without choices -/

/-- A token that leaves a choice to the text. -/
def Token.isChoice : Token → Bool
  | .optional _ _ | .separator _ => true
  | _ => false

def Straight (tokens : List Token) : Prop :=
  ∀ token ∈ tokens, token.isChoice = false

instance (tokens : List Token) : Decidable (Straight tokens) :=
  inferInstanceAs (Decidable (∀ token ∈ tokens, _))

theorem branchesOf_straight {run : List Token} (h : Straight run) : branchesOf run = [run] := by
  induction run with
  | nil => rfl
  | cons token run ih =>
    obtain ⟨htoken, hrun⟩ := List.forall_mem_cons.1 h
    cases token with
    | separator offset => cases htoken
    | _ =>
      simp only [branchesOf, ih hrun]
      rfl

theorem selects_straight {tokens selected : List Token} (h : Selects tokens selected)
    (hstraight : Straight tokens) : selected = tokens := by
  induction h with
  | last plain chosen =>
    rw [branchesOf_straight hstraight] at chosen
    exact List.mem_singleton.1 chosen
  | bound plain chosen bounds others ih =>
    obtain ⟨hrun, hrest⟩ := List.forall_mem_append.1 hstraight
    rw [branchesOf_straight hrun] at chosen
    rw [List.mem_singleton.1 chosen, ih (List.forall_mem_cons.1 hrest).2]

/-- A split of the text has all tokens, in a row. -/
theorem isRow_of_isSplit {tokens : List Token} {text : List Char} {split : Split}
    (hstraight : Straight tokens) (h : IsSplit tokens text split) : IsRow tokens text split [] := by
  refine ⟨selects_straight h.selects hstraight, h.admits, ?_⟩
  rw [List.append_nil]
  exact h.text_eq

theorem isRow_cons {token : Token} {tokens : List Token} {text rest : List Char} {split : Split}
    (h : IsRow (token :: tokens) text split rest) :
    ∃ piece later others, split = (token, piece) :: later ∧ token.admits piece = true ∧
      text = piece ++ others ∧ IsRow tokens others later rest := by
  obtain ⟨htokens, hadmits, htext⟩ := h
  obtain ⟨⟨_, piece⟩, later, rfl, rfl, rfl⟩ := List.map_eq_cons_iff.1 htokens
  obtain ⟨hpiece, hlater⟩ := List.forall_mem_cons.1 hadmits
  refine ⟨piece, later, _, rfl, hpiece, ?_, rfl, hlater, rfl⟩
  rw [← htext, List.map_cons, List.flatten_cons, List.append_assoc]

/-- A literal text or blanks stand for themselves. -/
theorem eq_of_admits {chars piece : List Char} {token : Token}
    (htoken : token = .text chars ∨ token = .blank chars) (h : token.admits piece = true) :
    piece = chars := by
  rcases htoken with rfl | rfl <;> simpa [Token.admits] using h

/-! ## Beginnings -/

/-- What follows a placeholder that is not the last token starts with a blank. -/
theorem blankFirst_of_isRow {start : Nat} {name : List Char} {tokens : List Token}
    (hlast : ∀ last ∈ (Token.parameter start name :: tokens).getLast?, last.isParameter = false)
    (hisolated : Isolated (.parameter start name :: tokens))
    (hspaced : ∀ token ∈ tokens, token.Spaced) {text rest : List Char} {split : Split}
    (h : IsRow tokens text split rest) : BlankFirst text := by
  cases tokens with
  | nil => cases hlast _ rfl
  | cons next tokens =>
    obtain ⟨chars, rfl⟩ := exists_blank ((List.isChain_cons_cons.1 hisolated).1.1 rfl)
    obtain ⟨piece, later, others, -, hpiece, rfl, -⟩ := isRow_cons h
    obtain rfl := eq_of_admits (.inr rfl) hpiece
    have hblanks : AreBlanks piece := hspaced (.blank piece) (List.mem_cons_self ..)
    exact hblanks.blankFirst others

/-- From the start of a text each piece is determined by the text, so that two rows of pieces end at
the same place. -/
theorem rest_eq_nil {tokens : List Token} (hstraight : Straight tokens)
    (hisolated : Isolated tokens) (hspaced : ∀ token ∈ tokens, token.Spaced)
    (hlast : ∀ last ∈ tokens.getLast?, last.isParameter = false) {text rest : List Char}
    {first second : Split} (hfirst : IsRow tokens text first [])
    (hsecond : IsRow tokens text second rest) : rest = [] := by
  induction tokens generalizing text first second with
  | nil =>
    obtain ⟨hnone, -, rfl⟩ := hfirst
    obtain ⟨hother, -, hrest⟩ := hsecond
    obtain rfl := List.map_eq_nil_iff.1 hnone
    obtain rfl := List.map_eq_nil_iff.1 hother
    exact hrest
  | cons token tokens ih =>
    obtain ⟨piece, later, others, -, hpiece, rfl, hlater⟩ := isRow_cons hfirst
    obtain ⟨otherPiece, otherLater, otherOthers, -, hotherPiece, htext, hotherLater⟩ :=
      isRow_cons hsecond
    have hspacedLater := (List.forall_mem_cons.1 hspaced).2
    have hsame : piece = otherPiece := by
      cases token with
      | text chars => rw [eq_of_admits (.inl rfl) hpiece, eq_of_admits (.inl rfl) hotherPiece]
      | blank chars => rw [eq_of_admits (.inr rfl) hpiece, eq_of_admits (.inr rfl) hotherPiece]
      | parameter start name =>
        obtain ⟨type, htype, hadmits⟩ := exists_type_of_admits hpiece
        obtain ⟨_, hother, hotherAdmits⟩ := exists_type_of_admits hotherPiece
        obtain rfl := Option.some.inj (htype.symm.trans hother)
        exact piece_unique hadmits hotherAdmits
          (blankFirst_of_isRow hlast hisolated hspacedLater hlater)
          (blankFirst_of_isRow hlast hisolated hspacedLater hotherLater) htext
      | «optional» start chars => cases hstraight _ (List.mem_cons_self ..)
      | separator offset => cases hstraight _ (List.mem_cons_self ..)
    subst hsame
    obtain rfl := List.append_cancel_left htext
    have hlastLater : ∀ last ∈ tokens.getLast?, last.isParameter = false := fun last hmem =>
      hlast last (by rw [List.getLast?_cons, Option.mem_def.1 hmem]; rfl)
    exact ih (List.forall_mem_cons.1 hstraight).2 hisolated.tail hspacedLater hlastLater hlater
      hotherLater

/-! ## Ends -/

theorem countP_eq_zero_of_noBlank {text : List Char} (h : NoBlank text) :
    text.countP Text.isBlank = 0 :=
  List.countP_eq_zero.2 fun c hc => by rw [h c hc]; exact Bool.false_ne_true

/-- Without quoted texts all blanks are written in the expression. -/
theorem countP_isBlank_eq {tokens : List Token} (hstraight : Straight tokens)
    (hunquoted : ∀ token ∈ tokens, token.type? ≠ some .string) {text other : List Char}
    {first second : Split} (hfirst : IsRow tokens text first [])
    (hsecond : IsRow tokens other second []) :
    text.countP Text.isBlank = other.countP Text.isBlank := by
  induction tokens generalizing text other first second with
  | nil =>
    obtain ⟨hnone, -, rfl⟩ := hfirst
    obtain ⟨hother, -, rfl⟩ := hsecond
    rw [List.map_eq_nil_iff.1 hnone, List.map_eq_nil_iff.1 hother]
  | cons token tokens ih =>
    obtain ⟨piece, later, others, -, hpiece, rfl, hlater⟩ := isRow_cons hfirst
    obtain ⟨otherPiece, otherLater, otherOthers, -, hotherPiece, rfl, hotherLater⟩ :=
      isRow_cons hsecond
    have hsame : piece.countP Text.isBlank = otherPiece.countP Text.isBlank := by
      cases token with
      | text chars => rw [eq_of_admits (.inl rfl) hpiece, eq_of_admits (.inl rfl) hotherPiece]
      | blank chars => rw [eq_of_admits (.inr rfl) hpiece, eq_of_admits (.inr rfl) hotherPiece]
      | parameter start name =>
        have hnone : ∀ {piece : List Char}, (Token.parameter start name).admits piece = true →
            piece.countP Text.isBlank = 0 := by
          intro piece hpiece
          obtain ⟨type, htype, hadmits⟩ := exists_type_of_admits hpiece
          have hword : type ≠ .string := by
            rintro rfl
            exact hunquoted _ (List.mem_cons_self ..) htype
          exact countP_eq_zero_of_noBlank (noBlank_of_admits hword hadmits)
        rw [hnone hpiece, hnone hotherPiece]
      | «optional» start chars => cases hstraight _ (List.mem_cons_self ..)
      | separator offset => cases hstraight _ (List.mem_cons_self ..)
    rw [List.countP_append, List.countP_append, hsame, ih (List.forall_mem_cons.1 hstraight).2
      (List.forall_mem_cons.1 hunquoted).2 hlater hotherLater]

/-- The characters up to the first blank of a text do not depend on what follows that blank. -/
theorem takeWhile_noBlank_append {front : List Char} (h : ¬ NoBlank front) (rest : List Char) :
    (front ++ rest).takeWhile (!Text.isBlank ·) = front.takeWhile (!Text.isBlank ·) := by
  rw [List.takeWhile_append, if_neg]
  intro hlength
  have hall := (List.takeWhile_prefix _).eq_of_length hlength
  exact h fun c hc => by simpa using List.takeWhile_eq_self_iff.1 hall c hc

/-- A text does not stand again behind other characters where its first blank keeps its place. -/
theorem eq_nil_of_append_eq {before front rest other : List Char} (hbefore : NoBlank before)
    (hfront : ¬ NoBlank front) (h : before ++ (front ++ rest) = front ++ other) : before = [] := by
  have hplain : ∀ c ∈ before, (!Text.isBlank c) = true := fun c hc => by rw [hbefore c hc]; rfl
  -- read the characters up to the first blank off both sides
  have hfirst := congrArg (List.takeWhile (!Text.isBlank ·)) h
  rw [List.takeWhile_append_of_pos hplain, takeWhile_noBlank_append hfront,
    takeWhile_noBlank_append hfront] at hfirst
  exact List.append_left_eq_self.1 hfirst

theorem not_noBlank_append {blanks : List Char} (h : AreBlanks blanks) (chars : List Char) :
    ¬ NoBlank (chars ++ blanks) := by
  intro hnone
  obtain ⟨c, hc⟩ := List.exists_mem_of_ne_nil _ h.1
  have hplain := hnone c (List.mem_append_right _ hc)
  rw [h.2 c hc] at hplain
  cases hplain

/-- Behind a literal text at the front there is a blank, or nothing. -/
theorem exists_front {chars : List Char} {tokens : List Token}
    (hcanonical : Canonical (.text chars :: tokens)) (hstraight : Straight tokens)
    (hisolated : Isolated (.text chars :: tokens)) :
    tokens = [] ∨ ∃ blanks others, AreBlanks blanks ∧ tokens = .blank blanks :: others := by
  cases tokens with
  | nil => exact .inl rfl
  | cons next others =>
    refine .inr ?_
    have hseparate := (List.isChain_cons_cons.1 hcanonical.separate).1
    have hapart := (List.isChain_cons_cons.1 hisolated).1
    cases next with
    | blank blanks => exact ⟨blanks, others, hcanonical.each (.blank blanks) (by simp), rfl⟩
    | text more => exact absurd hseparate id
    | parameter start name => cases hapart.2 rfl
    | «optional» start more => cases hstraight _ (List.mem_cons_self ..)
    | separator offset => cases hstraight _ (List.mem_cons_self ..)

/-- All texts of the tokens have their first blank at the same place, and as many of them; so
nothing stands before a text that ends another one. -/
theorem before_eq_nil {chars : List Char} {tokens : List Token}
    (hcanonical : Canonical (.text chars :: tokens)) (hstraight : Straight (.text chars :: tokens))
    (hisolated : Isolated (.text chars :: tokens))
    (hunquoted : ∀ token ∈ Token.text chars :: tokens, token.type? ≠ some .string)
    {before after : List Char} {first second : Split}
    (hfirst : IsRow (.text chars :: tokens) (before ++ after) first [])
    (hsecond : IsRow (.text chars :: tokens) after second []) : before = [] := by
  have hcount := countP_isBlank_eq hstraight hunquoted hfirst hsecond
  rw [List.countP_append] at hcount
  have hbefore : NoBlank before := fun c hc => by
    have hzero : before.countP Text.isBlank = 0 := by omega
    simpa using List.countP_eq_zero.1 hzero c hc
  obtain ⟨_, _, whole, -, hpiece, hwhole, hlater⟩ := isRow_cons hfirst
  obtain ⟨_, _, rest, -, hotherPiece, hrest, hotherLater⟩ := isRow_cons hsecond
  rw [eq_of_admits (.inl rfl) hpiece] at hwhole
  rw [eq_of_admits (.inl rfl) hotherPiece] at hrest
  rcases exists_front hcanonical (List.forall_mem_cons.1 hstraight).2 hisolated with
    rfl | ⟨blanks, others, hblanks, rfl⟩
  · obtain ⟨hnone, -, rfl⟩ := hlater
    obtain ⟨hother, -, rfl⟩ := hotherLater
    rw [List.map_eq_nil_iff.1 hnone] at hwhole
    rw [List.map_eq_nil_iff.1 hother] at hrest
    rw [hrest] at hwhole
    exact List.append_left_eq_self.1 hwhole
  · obtain ⟨_, _, more, -, hblank, rfl, -⟩ := isRow_cons hlater
    obtain ⟨_, _, otherMore, -, hotherBlank, rfl, -⟩ := isRow_cons hotherLater
    rw [eq_of_admits (.inr rfl) hblank, ← List.append_assoc] at hwhole
    rw [eq_of_admits (.inr rfl) hotherBlank, ← List.append_assoc] at hrest
    rw [hrest] at hwhole
    exact eq_nil_of_append_eq hbefore (not_noBlank_append hblanks chars) hwhole

/-! ## Proper parts -/

/-- Where placeholders stand between blanks and nothing is left to choose: if the expression ends in
a literal text, no proper beginning of a text that it matches is matched; if it starts with a
literal text and quotes nothing, no proper end of such a text is matched. -/
theorem not_accepts_part {expression : List Char} {compiled : Compiled} {read : List Token}
    (hcompile : compile expression = .ok compiled) (hread : tokens expression = .ok read)
    (hstraight : Straight read) (hisolated : Isolated read) {text : List Char}
    (htext : compiled.Accepts text) :
    (∀ chars, read.getLast? = some (.text chars) →
      ∀ before, before <+: text → before ≠ text → ¬ compiled.Accepts before) ∧
    (∀ chars, read.head? = some (.text chars) →
      (∀ token ∈ read, token.type? ≠ some .string) →
        ∀ after, after <:+ text → after ≠ text → ¬ compiled.Accepts after) := by
  have hcanonical := canonical_tokens hread
  have hspaced : ∀ token ∈ read, token.Spaced := fun token htoken =>
    (regular_of_mem_tokens hread token htoken).spaced
  obtain ⟨split, hsplit⟩ := (accepts_iff hcompile hread).1 htext
  have hwhole := isRow_of_isSplit hstraight hsplit
  refine ⟨fun chars hlast before hbefore hne haccepts => ?_,
    fun chars hhead hunquoted after hafter hne haccepts => ?_⟩
  · obtain ⟨other, hother⟩ := (accepts_iff hcompile hread).1 haccepts
    obtain ⟨rest, rfl⟩ := hbefore
    have hpart : IsRow read (before ++ rest) other rest := by
      obtain ⟨htokens, hadmits, heq⟩ := isRow_of_isSplit hstraight hother
      rw [List.append_nil] at heq
      exact ⟨htokens, hadmits, by rw [heq]⟩
    have hplain : ∀ last ∈ read.getLast?, last.isParameter = false := fun last hmem => by
      rw [hlast] at hmem
      obtain rfl := Option.some.inj hmem
      rfl
    rw [rest_eq_nil hstraight hisolated hspaced hplain hwhole hpart, List.append_nil] at hne
    exact hne rfl
  · obtain ⟨other, hother⟩ := (accepts_iff hcompile hread).1 haccepts
    obtain ⟨before, rfl⟩ := hafter
    obtain ⟨tokens, rfl⟩ := List.head?_eq_some_iff.1 hhead
    have hpart := isRow_of_isSplit hstraight hother
    rw [before_eq_nil hcanonical hstraight hisolated hunquoted hwhole hpart, List.nil_append] at hne
    exact hne rfl

def shelfTokens : List Token :=
  [.text "shelf".toList, .blank [' '], .parameter 6 "word".toList, .blank [' '],
   .text "holds".toList, .blank [' '], .parameter 19 "int".toList, .blank [' '],
   .text "boxes".toList]

def shelf : Split :=
  [(.text "shelf".toList, "shelf".toList), (.blank [' '], [' ']),
   (.parameter 6 "word".toList, ['A']), (.blank [' '], [' ']),
   (.text "holds".toList, "holds".toList), (.blank [' '], [' ']),
   (.parameter 19 "int".toList, "12".toList), (.blank [' '], [' ']),
   (.text "boxes".toList, "boxes".toList)]

/-- Neither the last word without its end nor the text without its first word is matched. -/
theorem not_accepts_part_shelf :
    ∃ compiled, compile "shelf {word} holds {int} boxes".toList = .ok compiled ∧
      compiled.Accepts "shelf A holds 12 boxes".toList ∧
      ¬ compiled.Accepts "shelf A holds 12 box".toList ∧
      ¬ compiled.Accepts "A holds 12 boxes".toList := by
  obtain ⟨compiled, hcompile⟩ :
      ∃ compiled, compile "shelf {word} holds {int} boxes".toList = .ok compiled := ⟨_, rfl⟩
  have hread : tokens "shelf {word} holds {int} boxes".toList = .ok shelfTokens := rfl
  have hsplit : IsSplit shelfTokens "shelf A holds 12 boxes".toList shelf :=
    mem_splits_iff.1 (by decide +kernel)
  have haccepts : compiled.Accepts "shelf A holds 12 boxes".toList :=
    (accepts_iff hcompile hread).2 ⟨shelf, hsplit⟩
  have hpart := not_accepts_part hcompile hread (by decide) (by decide) haccepts
  exact ⟨compiled, hcompile, haccepts, hpart.1 _ rfl _ (by decide) (by decide),
    hpart.2 _ rfl (by decide) _ (by decide) (by decide)⟩

end Stepbook.Expression
