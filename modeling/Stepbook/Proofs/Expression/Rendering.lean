import Stepbook.Proofs.Expression.Meaning
import Stepbook.Proofs.Expression.Spacing

/-! # Texts rendered from expressions

A text that is rendered from an expression gives back what was put in for the placeholders, where
these stand between blanks and other texts hold none.

* `Isolated`, `Token.Unspaced`: placeholders between blanks, and texts without blanks.
* `Cut`: a split at the first token that bounds a run.
* `captures_unique`: all splits of a text have the same captures.
* `match_rendered`: the values of a rendered text.
-/

namespace Stepbook.Expression
set_option autoImplicit false

/-! ## Placeholders between blanks -/

def Token.isBlank : Token → Bool
  | .blank _ => true
  | _ => false

def Token.isParameter : Token → Bool
  | .parameter _ _ => true
  | _ => false

/-- Of two neighbours, one is blank if the other is a placeholder. -/
def Token.Apart (left right : Token) : Prop :=
  (left.isParameter = true → right.isBlank = true) ∧
    (right.isParameter = true → left.isBlank = true)

instance (left right : Token) : Decidable (left.Apart right) :=
  inferInstanceAs (Decidable (_ ∧ _))

/-- On both sides of each placeholder there is a blank, or an end of the tokens. -/
def Isolated (tokens : List Token) : Prop :=
  tokens.IsChain Token.Apart

instance (tokens : List Token) : Decidable (Isolated tokens) :=
  inferInstanceAs (Decidable (tokens.IsChain Token.Apart))

/-- Literal and optional texts hold no blank, though an escaped one may. -/
def Token.Unspaced : Token → Prop
  | .text chars => NoBlank chars
  | .optional _ chars => NoBlank chars
  | _ => True

instance (token : Token) : Decidable token.Unspaced :=
  match token with
  | .text chars | .optional _ chars => inferInstanceAs (Decidable (NoBlank chars))
  | .blank _ | .parameter _ _ | .separator _ => inferInstanceAs (Decidable True)

theorem exists_blank {token : Token} (h : token.isBlank = true) : ∃ chars, token = .blank chars := by
  cases token with
  | blank chars => exact ⟨chars, rfl⟩
  | _ => cases h

theorem isBound_of_isBlank {token : Token} (h : token.isBlank = true) : token.isBound = true := by
  obtain ⟨chars, rfl⟩ := exists_blank h
  rfl

/-- A run next to a placeholder is empty. -/
theorem runs_eq_nil_of_isolated {run next rest : List Token} {bound : Token}
    (hrun : ∀ token ∈ run, token.isBound = false) (hnext : ∀ token ∈ next, token.isBound = false)
    (hbound : bound.isParameter = true) (h : Isolated (run ++ bound :: (next ++ rest))) :
    run = [] ∧ next = [] ∧ ∀ token ∈ rest.head?, token.isBlank = true := by
  obtain ⟨-, hchain, hlast⟩ := List.isChain_append.1 h
  have hempty : next = [] := by
    cases next with
    | nil => rfl
    | cons first next =>
      have hblank := (List.isChain_cons_cons.1 hchain).1.1 hbound
      have hplain := hnext first (List.mem_cons_self ..)
      rw [isBound_of_isBlank hblank] at hplain
      cases hplain
  subst hempty
  refine ⟨?_, rfl, fun token htoken => ?_⟩
  · rw [← List.getLast?_eq_none_iff, Option.eq_none_iff_forall_not_mem]
    intro last hmem
    have hblank := (hlast last hmem bound rfl).2 hbound
    have hplain := hrun last (List.mem_of_mem_getLast? hmem)
    rw [isBound_of_isBlank hblank] at hplain
    cases hplain
  · cases rest with
    | nil => cases htoken
    | cons first rest =>
      obtain rfl : first = token := by simpa using htoken
      exact (List.isChain_cons_cons.1 hchain).1.1 hbound

/-! ## Splits at blanks -/

/-- The text in pieces. -/
def Split.text (split : Split) : List Char :=
  (split.map (·.2)).flatten

@[simp] theorem Split.text_cons (part : Token × List Char) (split : Split) :
    Split.text (part :: split) = part.2 ++ split.text := rfl

@[simp] theorem Split.text_append (split other : Split) :
    Split.text (split ++ other) = split.text ++ other.text := by
  simp [Split.text]

@[simp] theorem Split.captures_append (split other : Split) :
    Split.captures (split ++ other) = split.captures ++ other.captures :=
  List.filterMap_append

theorem Split.captures_cons (part : Token × List Char) (split : Split) :
    Split.captures (part :: split) = Split.captures [part] ++ split.captures :=
  Split.captures_append [part] split

theorem mem_of_mem_branchesOf {run branch : List Token} (h : branch ∈ branchesOf run) :
    ∀ token ∈ branch, token ∈ run := by
  induction run generalizing branch with
  | nil =>
    rw [List.mem_singleton.1 h]
    exact fun _ htoken => htoken
  | cons first run ih =>
    obtain ⟨head, others, hbranches⟩ := List.exists_cons_of_ne_nil (branchesOf_ne_nil run)
    have hhead : ∀ token ∈ head, token ∈ run := ih (by rw [hbranches]; exact List.mem_cons_self ..)
    have hothers : ∀ other ∈ others, ∀ token ∈ other, token ∈ run := fun other hother =>
      ih (by rw [hbranches]; exact List.mem_cons_of_mem _ hother)
    intro token htoken
    cases first with
    | separator offset =>
      rw [branchesOf, List.mem_cons] at h
      rcases h with rfl | h
      · cases htoken
      · exact List.mem_cons_of_mem _ (ih h token htoken)
    | _ =>
      simp only [branchesOf, hbranches, List.modifyHead_cons, List.mem_cons] at h
      rcases h with rfl | h
      · rcases List.mem_cons.1 htoken with rfl | htoken
        · exact List.mem_cons_self ..
        · exact List.mem_cons_of_mem _ (hhead token htoken)
      · exact List.mem_cons_of_mem _ (hothers branch h token htoken)

section
variable {front : Split} (hplain : ∀ part ∈ front, part.1.isBound = false)
include hplain

theorem captures_of_plain : front.captures = [] :=
  List.filterMap_eq_nil_iff.2 fun part hpart => by
    rw [Token.type?_of_not_isBound (hplain part hpart)]
    rfl

theorem noBlank_of_plain (hunspaced : ∀ part ∈ front, part.1.Unspaced)
    (hadmits : ∀ part ∈ front, part.1.admits part.2 = true) : NoBlank front.text := by
  intro c hc
  obtain ⟨piece, hpiece, hmem⟩ := List.mem_flatten.1 hc
  obtain ⟨⟨token, piece⟩, hpart, rfl⟩ := List.mem_map.1 hpiece
  have htoken : token.isBound = false := hplain _ hpart
  have hchars : token.Unspaced := hunspaced _ hpart
  have hpieces : token.admits piece = true := hadmits _ hpart
  cases token with
  | text chars =>
    rw [Token.admits, beq_iff_eq] at hpieces
    exact hchars c (hpieces ▸ hmem)
  | «optional» start chars =>
    rw [Token.admits, Bool.or_eq_true, beq_iff_eq, List.isEmpty_iff] at hpieces
    rcases hpieces with rfl | rfl
    · exact hchars c hmem
    · cases hmem
  | separator offset => cases hpieces
  | blank chars => cases htoken
  | parameter start name => cases htoken

end

/-- A split by a run, a bounding token and what comes after it. -/
structure Cut (run : List Token) (bound : Token) (later : List Token) (split : Split)
    (front : Split) (piece : List Char) (back : Split) : Prop where
  split_eq : split = front ++ (bound, piece) :: back
  branch : front.map (·.1) ∈ branchesOf run
  admits : ∀ part ∈ front, part.1.admits part.2 = true
  bound_admits : bound.admits piece = true
  back : IsSplit later back.text back

theorem IsSplit.cut {run next : List Token} {bound : Token} {others : List (Token × List Token)}
    (hruns : AreRuns run ((bound, next) :: others)) {text : List Char} {split : Split}
    (h : IsSplit (unite run ((bound, next) :: others)) text split) :
    ∃ front piece back, Cut run bound (unite next others) split front piece back := by
  obtain ⟨branch, hbranch, later, hlater, htokens⟩ := (selects_unite hruns).1 h.selects
  obtain ⟨front, others', rfl, rfl, hothers⟩ := List.map_eq_append_iff.1 htokens
  obtain ⟨⟨token, piece⟩, back, rfl, rfl, rfl⟩ := List.map_eq_cons_iff.1 hothers
  have hadmits := List.forall_mem_append.1 h.admits
  have hbound := List.forall_mem_cons.1 hadmits.2
  exact ⟨front, piece, back, rfl, hbranch, hadmits.1, hbound.1, hlater, hbound.2, rfl⟩

/-! ## One way to capture -/

section
variable {run next : List Token} {others : List (Token × List Token)} {bound : Token}

section
variable {later : List Token} {split front back : Split} {piece : List Char}
  (h : Cut run bound later split front piece back)
include h

theorem Cut.mem_run : ∀ part ∈ front, part.1 ∈ run := fun _ hpart =>
  mem_of_mem_branchesOf h.branch _ (List.mem_map_of_mem hpart)

theorem Cut.noBlank_front (hrun : ∀ token ∈ run, token.isBound = false)
    (hunspaced : ∀ token ∈ run, token.Unspaced) : NoBlank front.text :=
  noBlank_of_plain (fun part hpart => hrun _ (h.mem_run part hpart))
    (fun part hpart => hunspaced _ (h.mem_run part hpart)) h.admits

theorem Cut.captures_eq (hrun : ∀ token ∈ run, token.isBound = false) :
    split.captures = Split.captures [(bound, piece)] ++ back.captures := by
  have hfront := captures_of_plain fun part hpart => hrun _ (h.mem_run part hpart)
  rw [h.split_eq, Split.captures_append, hfront, List.nil_append, Split.captures_cons]

end

/-- What follows a placeholder starts with a blank. -/
theorem blankFirst_of_head? (hruns : AreRuns [] others)
    (hspaced : ∀ token ∈ unite [] others, token.Spaced)
    (hhead : ∀ token ∈ (unite [] others).head?, token.isBlank = true) {text : List Char}
    {split : Split} (h : IsSplit (unite [] others) text split) : BlankFirst text := by
  cases others with
  | nil =>
    have hselected := (selects_unite hruns).1 h.selects
    obtain rfl : split = [] := List.map_eq_nil_iff.1 (List.mem_singleton.1 hselected)
    rw [← h.text_eq]
    exact fun c hc => by cases hc
  | cons other others =>
    obtain ⟨bound, next⟩ := other
    obtain ⟨front, piece, back, hcut⟩ := IsSplit.cut hruns h
    obtain ⟨chars, rfl⟩ := exists_blank (hhead bound rfl)
    obtain rfl : front = [] := List.map_eq_nil_iff.1 (List.mem_singleton.1 hcut.branch)
    obtain rfl : piece = chars := by simpa [Token.admits] using hcut.bound_admits
    have hblanks : AreBlanks piece := hspaced (.blank piece) (List.mem_cons_self ..)
    have htext : split.text = text := h.text_eq
    rw [← htext, hcut.split_eq]
    exact hblanks.blankFirst back.text

theorem exists_type_of_admits {start : Nat} {name piece : List Char}
    (h : (Token.parameter start name).admits piece = true) :
    ∃ type, ParameterType.ofName? name = some type ∧ type.admits piece = true := by
  rw [Token.admits] at h
  cases htype : ParameterType.ofName? name with
  | none =>
    rw [htype] at h
    cases h
  | some type =>
    rw [htype] at h
    exact ⟨type, rfl, h⟩

/-- Two splits of one text agree up to the first token that bounds a run. -/
theorem Cut.unique (hruns : AreRuns run ((bound, next) :: others))
    (hisolated : Isolated (run ++ bound :: unite next others))
    (hspaced : ∀ token ∈ bound :: unite next others, token.Spaced)
    (hunspaced : ∀ token ∈ run, token.Unspaced) {first front back : Split} {piece : List Char}
    (hfirst : Cut run bound (unite next others) first front piece back)
    {second otherFront otherBack : Split} {otherPiece : List Char}
    (hsecond : Cut run bound (unite next others) second otherFront otherPiece otherBack)
    (hsame : first.text = second.text) : piece = otherPiece ∧ back.text = otherBack.text := by
  have hbound := hruns.2 (bound, next) (List.mem_cons_self ..)
  have htext : front.text ++ (piece ++ back.text) =
      otherFront.text ++ (otherPiece ++ otherBack.text) := by
    simpa [hfirst.split_eq, hsecond.split_eq] using hsame
  cases bound with
  | blank chars =>
    -- The run holds no blank, so it ends at the first one.
    obtain rfl : piece = chars := by simpa [Token.admits] using hfirst.bound_admits
    obtain rfl : otherPiece = piece := by simpa [Token.admits] using hsecond.bound_admits
    have hblanks : AreBlanks otherPiece := hspaced (.blank _) (List.mem_cons_self ..)
    have hfront := noBlank_unique (hfirst.noBlank_front hruns.1 hunspaced)
      (hsecond.noBlank_front hruns.1 hunspaced) (hblanks.blankFirst _) (hblanks.blankFirst _) htext
    rw [hfront] at htext
    exact ⟨rfl, List.append_cancel_left (List.append_cancel_left htext)⟩
  | parameter start name =>
    -- No run stands next to a placeholder, so its piece starts the text, and a blank ends it.
    have hlater := hruns.later
    have hspacedLater := (List.forall_mem_cons.1 hspaced).2
    obtain ⟨rfl, rfl, hhead⟩ := runs_eq_nil_of_isolated hruns.1 hbound.2 rfl hisolated
    obtain rfl : front = [] := List.map_eq_nil_iff.1 (List.mem_singleton.1 hfirst.branch)
    obtain rfl : otherFront = [] := List.map_eq_nil_iff.1 (List.mem_singleton.1 hsecond.branch)
    obtain ⟨type, htype, hpiece⟩ := exists_type_of_admits hfirst.bound_admits
    obtain ⟨_, hother, hotherPiece⟩ := exists_type_of_admits hsecond.bound_admits
    obtain rfl := Option.some.inj (htype.symm.trans hother)
    have hrest := blankFirst_of_head? hlater hspacedLater hhead hfirst.back
    have hotherRest := blankFirst_of_head? hlater hspacedLater hhead hsecond.back
    obtain rfl := piece_unique hpiece hotherPiece hrest hotherRest htext
    exact ⟨rfl, List.append_cancel_left htext⟩
  | text chars => cases hbound.1
  | «optional» start chars => cases hbound.1
  | separator offset => cases hbound.1

theorem captures_unique_unite (hruns : AreRuns run others)
    (hisolated : Isolated (unite run others)) (hspaced : ∀ token ∈ unite run others, token.Spaced)
    (hunspaced : ∀ token ∈ unite run others, token.Unspaced) {text : List Char}
    {first second : Split} (hfirst : IsSplit (unite run others) text first)
    (hsecond : IsSplit (unite run others) text second) : first.captures = second.captures := by
  induction others generalizing run text first second with
  | nil =>
    have hnone : ∀ {split : Split}, IsSplit (unite run []) text split → split.captures = [] := by
      intro split hsplit
      refine captures_of_plain fun part hpart => hruns.1 _ ?_
      exact mem_of_mem_branchesOf ((selects_unite hruns).1 hsplit.selects) _
        (List.mem_map_of_mem hpart)
    rw [hnone hfirst, hnone hsecond]
  | cons other others ih =>
    -- Both splits are cut at the same spot, and the rest of each starts with the next run.
    obtain ⟨bound, next⟩ := other
    obtain ⟨front, piece, back, hcut⟩ := IsSplit.cut hruns hfirst
    obtain ⟨otherFront, otherPiece, otherBack, hotherCut⟩ := IsSplit.cut hruns hsecond
    have hunite : unite run ((bound, next) :: others) = run ++ bound :: unite next others := by
      simp [unite]
    rw [hunite] at hisolated hspaced hunspaced
    have hspacedBound := (List.forall_mem_append.1 hspaced).2
    obtain ⟨hunspacedRun, hunspacedBound⟩ := List.forall_mem_append.1 hunspaced
    have hsame : first.text = second.text := hfirst.text_eq.trans hsecond.text_eq.symm
    obtain ⟨rfl, hback⟩ := Cut.unique hruns hisolated hspacedBound hunspacedRun hcut hotherCut hsame
    have hotherBack := hotherCut.back
    rw [← hback] at hotherBack
    have hcaptures := ih hruns.later (List.isChain_append.1 hisolated).2.1.tail
      (List.forall_mem_cons.1 hspacedBound).2 (List.forall_mem_cons.1 hunspacedBound).2 hcut.back
      hotherBack
    rw [hcut.captures_eq hruns.1, hotherCut.captures_eq hruns.1, hcaptures]

end

/-- All splits of a text have the same captures. -/
theorem captures_unique {tokens : List Token} (hisolated : Isolated tokens)
    (hspaced : ∀ token ∈ tokens, token.Spaced) (hunspaced : ∀ token ∈ tokens, token.Unspaced)
    {text : List Char} {first second : Split} (hfirst : IsSplit tokens text first)
    (hsecond : IsSplit tokens text second) : first.captures = second.captures := by
  rw [← unite_runs tokens] at hisolated hspaced hunspaced hfirst hsecond
  exact captures_unique_unite (areRuns_runs tokens) hisolated hspaced hunspaced hfirst hsecond

/-! ## The values of rendered texts -/

theorem admits_of_mem_captures {split : Split}
    (hadmits : ∀ part ∈ split, part.1.admits part.2 = true) :
    ∀ capture ∈ split.captures, capture.2.admits capture.1 = true := by
  intro capture hcapture
  obtain ⟨⟨token, piece⟩, hpart, hmap⟩ := List.mem_filterMap.1 hcapture
  obtain ⟨type, htype, rfl⟩ := Option.map_eq_some_iff.1 hmap
  have hpiece := hadmits _ hpart
  cases token with
  | parameter start name =>
    obtain ⟨other, hother, hadmitted⟩ := exists_type_of_admits hpiece
    obtain rfl := Option.some.inj (hother.symm.trans htype)
    exact hadmitted
  | _ => cases htype

theorem coerceAll_eq {captures : List (List Char × ParameterType)}
    (hadmits : ∀ capture ∈ captures, capture.2.admits capture.1 = true)
    (hfits : ∀ capture ∈ captures, capture.2.Fits capture.1) :
    Compiled.coerceAll captures =
      .ok (captures.map fun (piece, type) => type.meaning piece) := by
  induction captures with
  | nil => rfl
  | cons capture captures ih =>
    obtain ⟨hadmitsFirst, hadmitsLater⟩ := List.forall_mem_cons.1 hadmits
    obtain ⟨hfitsFirst, hfitsLater⟩ := List.forall_mem_cons.1 hfits
    rw [Compiled.coerceAll, ParameterType.coerce_of_admits hadmitsFirst hfitsFirst,
      ih hadmitsLater hfitsLater]
    rfl

/-- A text that has a split has the values of one of its splits. -/
theorem exists_match?_eq {expression : List Char} {compiled : Compiled} {read : List Token}
    (h : compile expression = .ok compiled) (hread : tokens expression = .ok read)
    {text : List Char} {split : Split} (hsplit : IsSplit read text split) :
    ∃ preferred, IsSplit read text preferred ∧
      compiled.match? text = (Compiled.coerceAll preferred.captures).map some := by
  obtain ⟨preferred, others, hsplits⟩ :=
    List.exists_cons_of_ne_nil (List.ne_nil_of_mem (mem_splits_iff.2 hsplit))
  have hmem : preferred ∈ splits read text := by
    rw [hsplits]
    exact List.mem_cons_self ..
  refine ⟨preferred, mem_splits_iff.1 hmem, ?_⟩
  rw [match?_eq_head? h hread, hsplits, List.head?_cons, Option.elim_some]

/-- All splits of a text that is rendered have the same captures, so that it does not matter which of
them is preferred. -/
theorem match?_rendered {expression : List Char} {compiled : Compiled} {read : List Token}
    (hcompile : compile expression = .ok compiled) (hread : tokens expression = .ok read)
    (hisolated : Isolated read) (hunspaced : ∀ token ∈ read, token.Unspaced) {text : List Char}
    {split : Split} (hsplit : IsSplit read text split)
    (hfits : ∀ capture ∈ split.captures, capture.2.Fits capture.1) :
    compiled.match? text =
      .ok (some (split.captures.map fun (piece, type) => type.meaning piece)) := by
  have hspaced : ∀ token ∈ read, token.Spaced := fun token htoken =>
    (regular_of_mem_tokens hread token htoken).spaced
  obtain ⟨preferred, hpreferred, hmatch⟩ := exists_match?_eq hcompile hread hsplit
  rw [hmatch, captures_unique hisolated hspaced hunspaced hpreferred hsplit,
    coerceAll_eq (admits_of_mem_captures hsplit.admits) hfits]
  rfl

/-- One character is read as a blank if it is one. -/
theorem tokens_singleton_eq_blank_iff {c : Char} :
    tokens [c] = .ok [.blank [c]] ↔ Text.isBlank c = true := by
  by_cases hspecial : c ∈ ['\\', '{', '(', '/', '}', ')']
  · have hread : Text.isBlank c = false ∧ tokens [c] ≠ .ok [.blank [c]] := by
      simp only [List.mem_cons, List.not_mem_nil, or_false] at hspecial
      rcases hspecial with rfl | rfl | rfl | rfl | rfl | rfl <;> decide
    simp [hread]
  · have hstep : Mode.between.step 0 c =
        if Text.isBlank c then .ok ([], .blank [c]) else .ok ([], .text [c]) := by
      change Mode.between.stepOutside 0 c = _
      unfold Mode.stepOutside
      split
      iterate 6 exact absurd (by decide) hspecial
      rfl
    rw [tokens, Mode.run, hstep]
    cases Text.isBlank c <;> simp [Mode.run, Mode.finish, Mode.pending]

/-- Where placeholders stand between blanks, and other texts hold none, a text that is rendered from
an expression has the values of what was put in for the placeholders. The blanks between tokens are
those of `\s`. -/
theorem match_rendered {expression : List Char} {compiled : Compiled} {read : List Token}
    (hcompile : compile expression = .ok compiled) (hread : tokens expression = .ok read)
    (hisolated : Isolated read) (hunspaced : ∀ token ∈ read, token.Unspaced) {split : Split}
    (hselects : Selects read (split.map (·.1)))
    (hadmits : ∀ part ∈ split, part.1.admits part.2 = true)
    (hfits : ∀ capture ∈ split.captures, capture.2.Fits capture.1) :
    compiled.match? split.text =
        .ok (some (split.captures.map fun (piece, type) => type.meaning piece)) ∧
      (∀ c, tokens [c] = .ok [.blank [c]] ↔ Text.isBlank c = true) ∧
      ∃ set, Regex.read? "\\s".toList = some (.chars set) ∧
        Regex.read? "\\p{White_Space}".toList = some (.chars set) ∧
        ∀ c, set.contains c = Text.isBlank c := by
  have hsplit : IsSplit read split.text split := ⟨hselects, hadmits, rfl⟩
  exact ⟨match?_rendered hcompile hread hisolated hunspaced hsplit hfits,
    fun c => tokens_singleton_eq_blank_iff, _, rfl, rfl, fun c => rfl⟩

def listingTokens : List Token :=
  [.parameter 0 "string".toList, .blank [' '], .text "lists".toList, .blank [' '],
   .parameter 15 "int".toList, .blank [' '], .text "box".toList, .separator 24,
   .text "item".toList, .optional 29 ['s'], .blank [' '], .text "at".toList, .blank [' '],
   .parameter 36 "float".toList]

/-- Quoted text with other quotes in it, a number with leading zeros, the second branch, and a number
with a fraction. -/
def listing : Split :=
  [(.parameter 0 "string".toList, "'two \"words\"'".toList), (.blank [' '], [' ']),
   (.text "lists".toList, "lists".toList), (.blank [' '], [' ']),
   (.parameter 15 "int".toList, "-007".toList), (.blank [' '], [' ']),
   (.text "item".toList, "item".toList), (.optional 29 ['s'], ['s']), (.blank [' '], [' ']),
   (.text "at".toList, "at".toList), (.blank [' '], [' ']),
   (.parameter 36 "float".toList, "-2.50".toList)]

theorem match_rendered_listing :
    ∃ compiled, compile "{string} lists {int} box/item(s) at {float}".toList = .ok compiled ∧
      compiled.match? "'two \"words\"' lists -007 items at -2.50".toList =
        .ok (some [.text "two \"words\"", .int (-7), .float (-2.5)]) := by
  obtain ⟨compiled, hcompiled⟩ :
      ∃ compiled, compile "{string} lists {int} box/item(s) at {float}".toList = .ok compiled :=
    ⟨_, rfl⟩
  have hread : tokens "{string} lists {int} box/item(s) at {float}".toList = .ok listingTokens := rfl
  have hsplit : IsSplit listingTokens listing.text listing := mem_splits_iff.1 (by decide +kernel)
  have hvalue : Decimal.pointedValue "-2.50".toList = -2.5 := by decide +kernel
  have hmatch := match_rendered hcompiled hread (by decide) (by decide) hsplit.selects
    hsplit.admits (by decide)
  refine ⟨compiled, hcompiled, ?_⟩
  rw [← hvalue]
  exact hmatch.1

end Stepbook.Expression
