import Mathlib.Tactic.SplitIfs
import Stepbook.Proofs.Source.Bytes
import Stepbook.Source.Scanner

/-! # Progress of the search

* `Loop.Reaches`: the states of a run.
* `Loop.run_eq`: what no round changes is what a run gives.
* `mainRound_eq`: a round finds what a step among the bytes finds.
* `search_advances`: rounds go forward, and within the script.
-/

namespace Stepbook.Source
set_option autoImplicit false

/-! ## Runs of a loop -/

namespace Loop

variable {σ ρ : Type} (loop : Loop σ ρ)

/-- The states at which rounds start, from a first one on. -/
inductive Reaches (start : σ) : σ → Prop
  | refl : Reaches start start
  | again {state next : σ} (h : Reaches start state) (round : loop.round state = .again next) :
    Reaches start next

variable {loop}

/-- What no round changes is what a run gives. -/
theorem run_eq {γ : Type} {f : σ → γ} {g : ρ → γ}
    (h : ∀ state, f state = (loop.round state).fold f g) (state : σ) :
    g (loop.run state) = f state := by
  refine loop.run_induct (motive := fun state result => g result = f state) ?_ ?_ state
  · intro state next result hround hresult
    rw [h state, hround, hresult]
    rfl
  · intro state result hround
    rw [h state, hround]
    rfl

theorem Reaches.trans {first second third : σ} (h : loop.Reaches first second)
    (hthird : loop.Reaches second third) : loop.Reaches first third := by
  induction hthird with
  | refl => exact h
  | again _ round ih => exact ih.again round

/-- A run ends in a state that it reaches. -/
theorem exists_reaches_done (start : σ) :
    ∃ state, loop.Reaches start state ∧ loop.round state = .done (loop.run start) := by
  refine loop.run_induct (motive := fun start result =>
    ∃ state, loop.Reaches start state ∧ loop.round state = .done result) ?_ ?_ start
  · rintro state next result hround ⟨last, hlast, hdone⟩
    exact ⟨last, (Reaches.refl.again hround).trans hlast, hdone⟩
  · intro state result hround
    exact ⟨state, .refl, hround⟩

end Loop

namespace Scanner

variable {source : String}

/-! ## Bounds -/

section
variable {pos : Nat}

theorem byte?_of_le (h : length source ≤ pos) : byte? source pos = none :=
  List.getElem?_eq_none h

/-- Only an escape at the end of the script reaches beyond it. -/
theorem escape_bounds {next : Nat} (hlow : pos < length source)
    (hnext : next = pos + 1 ∨ byte? source pos = some '\\' ∧ next = pos + 2) :
    pos < next ∧ (next ≤ length source ∨
      next = length source + 1 ∧ byte? source pos = some '\\' ∧ byte? source next = none) := by
  rcases hnext with rfl | ⟨hbyte, rfl⟩
  · exact ⟨Nat.lt_succ_self pos, .inl hlow⟩
  · refine ⟨Nat.lt_add_of_pos_right Nat.two_pos, ?_⟩
    rcases Nat.lt_or_ge (pos + 1) (length source) with hinside | hend
    · exact .inl hinside
    · exact .inr ⟨by omega, hbyte, byte?_of_le (by omega)⟩

theorem stringRound_bounds {quote : Char} {next : Nat}
    (h : stringRound source quote pos = .again next) :
    pos < next ∧ (next ≤ length source ∨ next = length source + 1 ∧ byte? source pos = some '\\' ∧
      stringRound source quote next = .done none) := by
  obtain ⟨hlow, hnext⟩ := stringRound_again source h
  refine (escape_bounds hlow hnext).imp_right (Or.imp_right ?_)
  rintro ⟨hend, hbyte, hnone⟩
  exact ⟨hend, hbyte, by rw [stringRound, hnone]⟩

theorem regexRound_bounds {state next : Bool × Nat} (h : regexRound source state = .again next) :
    state.2 < next.2 ∧ (next.2 ≤ length source ∨
      next.2 = length source + 1 ∧ byte? source state.2 = some '\\' ∧
        regexRound source next = .done none) := by
  obtain ⟨hlow, hnext⟩ := regexRound_again source h
  refine (escape_bounds hlow hnext).imp_right (Or.imp_right ?_)
  rintro ⟨hend, hbyte, hnone⟩
  exact ⟨hend, hbyte, by rw [regexRound, hnone]⟩

end

/-! ## Depth of brackets -/

section
variable {opening : Nat} {c : Char}

/-- From an opening bracket on, every round after the first one starts with a bracket open. -/
theorem depth_pos_of_reaches (hbyte : byte? source opening = some c) (hc : isOpening c = true)
    {state : Nat × Nat} (h : (closeLoop source).Reaches (0, opening) state) :
    state = (0, opening) ∨ 1 ≤ state.1 := by
  induction h with
  | refl => exact .inl rfl
  | @again state next _ hround ih =>
    obtain ⟨-, -, d, hd, ⟨-, hdepth⟩ | ⟨hother, hdepth⟩⟩ := closeRound_again source hround
    · exact .inr (hdepth ▸ Nat.le_add_left 1 _)
    · rcases ih with rfl | hpos
      · rw [hbyte, Option.some.injEq] at hd
        rw [← hd, hc] at hother
        cases hother
      · exact .inr (by omega)

theorem not_isClosing_of_isOpening (h : isOpening c = true) : isClosing c = false := by
  simp only [isOpening, Bool.or_eq_true, beq_iff_eq] at h
  rcases h with (rfl | rfl) | rfl <;> rfl

/-- Whenever a closing bracket is met, one is open. -/
theorem depth_pos_of_isClosing (hbyte : byte? source opening = some c) (hc : isOpening c = true)
    {depth pos : Nat} (h : (closeLoop source).Reaches (0, opening) (depth, pos)) {d : Char}
    (hd : byte? source pos = some d) (hclosing : isClosing d = true) : 1 ≤ depth := by
  rcases depth_pos_of_reaches hbyte hc h with hstart | hdepth
  · cases hstart
    rw [hbyte, Option.some.injEq] at hd
    rw [← hd, not_isClosing_of_isOpening hc] at hclosing
    cases hclosing
  · exact hdepth

theorem isClosing_of_unmatched {depth pos : Nat}
    (h : closeRound source (depth, pos) = .done .unmatched) :
    depth = 0 ∧ ∃ d, byte? source pos = some d ∧ isClosing d = true := by
  unfold closeRound at h
  dsimp only at h
  split at h
  · cases h
  · next d hbyte =>
    repeat' split at h
    all_goals cases h
    exact ⟨rfl, d, hbyte, ‹isClosing d = true›⟩

theorem run_ne_unmatched (hbyte : byte? source opening = some c) (hc : isOpening c = true) :
    (closeLoop source).run (0, opening) ≠ .unmatched := by
  intro hrun
  obtain ⟨⟨depth, pos⟩, hreaches, hdone⟩ := (closeLoop source).exists_reaches_done (0, opening)
  rw [hrun] at hdone
  obtain ⟨rfl, d, hd, hclosing⟩ := isClosing_of_unmatched hdone
  exact Nat.not_lt_zero 0 (depth_pos_of_isClosing hbyte hc hreaches hd hclosing)

/-- Only a search that starts elsewhere can meet a bracket that closes where none is open. -/
example : (closeLoop ")").run (0, 0) = .unmatched := by decide +kernel

end

/-! ## Literals among the bytes -/

theorem drop_of_byte?_none {pos : Nat} (h : byte? source pos = none) :
    (bytes source).drop pos = [] :=
  List.drop_eq_nil_iff.2 (List.getElem?_eq_none_iff.1 h)

theorem drop_drop_one (pos : Nat) :
    ((bytes source).drop (pos + 1)).drop 1 = (bytes source).drop (pos + 2) :=
  List.drop_drop

theorem map_position (reach : Option Nat) (pos count : Nat) :
    (reach.map (· + count)).map (pos + · - 1) = reach.map (pos + count + · - 1) := by
  rw [Option.map_map]
  refine Option.map_congr fun length _ => ?_
  rw [Function.comp_apply]
  omega

/-- The quote that closes a string is the last character of what the search reads. -/
theorem run_stringLoop (quote : Char) (pos : Nat) :
    (stringLoop source quote).run pos =
      (closedString quote ((bytes source).drop pos)).map (pos + · - 1) := by
  refine Loop.run_eq (g := id) (f := fun pos =>
    (closedString quote ((bytes source).drop pos)).map (pos + · - 1)) (fun pos => ?_) pos
  change _ = (stringRound source quote pos).fold _ id
  cases hbyte : byte? source pos with
  | none =>
    rw [stringRound, hbyte, drop_of_byte?_none hbyte]
    rfl
  | some c =>
    simp only [stringRound, hbyte, drop_eq hbyte]
    by_cases hescape : c = '\\'
    · rw [if_pos hescape, hescape, Round.fold, ← drop_drop_one]
      cases (bytes source).drop (pos + 1) with
      | nil => rfl
      | cons d rest => exact map_position _ pos 2
    · rw [if_neg hescape, closedString_cons hescape]
      split_ifs
      · rfl
      · rfl
      · exact map_position _ pos 1

theorem stringEnd?_eq {pos : Nat} {quote : Char} (h : byte? source pos = some quote) :
    stringEnd? source pos =
      (closedString quote ((bytes source).drop (pos + 1))).map (pos + ·) := by
  rw [stringEnd?, h, Option.bind_some, run_stringLoop]
  refine Option.map_congr fun count _ => ?_
  omega

theorem run_regexLoop (inClass : Bool) (pos : Nat) :
    (regexLoop source).run (inClass, pos) =
      (closedRegex inClass ((bytes source).drop pos)).map (pos + · - 1) := by
  refine Loop.run_eq (g := id) (f := fun state : Bool × Nat =>
    (closedRegex state.1 ((bytes source).drop state.2)).map (state.2 + · - 1)) ?_ (inClass, pos)
  rintro ⟨inClass, pos⟩
  change _ = (regexRound source (inClass, pos)).fold _ id
  cases hbyte : byte? source pos with
  | none =>
    simp only [regexRound, hbyte, drop_of_byte?_none hbyte]
    rfl
  | some c =>
    simp only [regexRound, hbyte, drop_eq hbyte]
    by_cases hescape : c = '\\'
    · rw [if_pos hescape, hescape, Round.fold, ← drop_drop_one]
      cases (bytes source).drop (pos + 1) with
      | nil => rfl
      | cons d rest => exact map_position _ pos 2
    · rw [if_neg hescape, closedRegex_cons hescape]
      split_ifs
      · rfl
      · exact map_position _ pos 1
      · exact map_position _ pos 1
      · rfl
      · exact map_position _ pos 1

theorem regexEnd?_eq (pos : Nat) :
    regexEnd? source pos =
      (closedRegex false ((bytes source).drop (pos + 1))).map (pos + ·) := by
  rw [regexEnd?, run_regexLoop]
  refine Option.map_congr fun count _ => ?_
  omega

/-! ## Lines and comments among the bytes -/

/-- The bytes of a character beyond ASCII are no characters of ASCII. -/
theorem exists_split {text : List Char} {pos : Nat} {c : Char} (hc : c.toNat < 128)
    (h : (encode text)[pos]? = some c) :
    ∃ before rest, text = before ++ c :: rest ∧ (encode before).length = pos := by
  induction text generalizing pos with
  | nil => cases h
  | cons d text ih =>
    rw [encode_cons] at h
    by_cases hpos : pos < (encodeChar d).length
    · rw [List.getElem?_append_left hpos] at h
      have hmem := List.mem_of_getElem? h
      rcases encodeChar_cases d with ⟨-, hone⟩ | ⟨-, -, hforeign⟩
      · rw [hone, List.mem_singleton] at hmem
        rw [hone, List.length_singleton, Nat.lt_one_iff] at hpos
        exact ⟨[], text, by rw [hmem]; rfl, hpos.symm⟩
      · exact absurd rfl ((hforeign c hmem).ne hc)
    · rw [List.getElem?_append_right (Nat.le_of_not_lt hpos)] at h
      obtain ⟨before, rest, rfl, hlength⟩ := ih h
      refine ⟨d :: before, rest, rfl, ?_⟩
      rw [encode_cons, List.length_append, hlength]
      omega

section
variable {pos : Nat} {c : Char}

theorem tail?_eq (h : byte? source pos = some c) (hc : c.toNat < 128) :
    tail? source pos = some ((bytes source).drop pos) := by
  rw [byte?, bytes_eq] at h
  obtain ⟨before, rest, hsource, hlength⟩ := exists_split hc h
  have hvalid := isValid_append (String.ofList before) (String.ofList (c :: rest))
  rw [← String.ofList_append, ← hsource, String.ofList_toList, ← byteLength_eq, ← length_encode,
    hlength] at hvalid
  exact if_pos hvalid

theorem lineEnd_eq (h : byte? source pos = some c) (hc : c.toNat < 128) :
    lineEnd source pos = pos + lineLength ((bytes source).drop pos) := by
  rw [lineEnd, tail?_eq h hc]

theorem commentEnd?_eq (pos : Nat) :
    commentEnd? source pos = (commentLength? ((bytes source).drop pos)).map (pos + ·) := by
  by_cases hslash : byte? source pos = some '/'
  · rw [commentEnd?, tail?_eq hslash (by decide), Option.bind_some]
  · have hnone : commentLength? ((bytes source).drop pos) = none := by
      cases hbyte : byte? source pos with
      | none =>
        rw [drop_of_byte?_none hbyte]
        rfl
      | some c =>
        rw [drop_eq hbyte]
        exact commentLength?_of_ne_slash (by rintro rfl; exact hslash hbyte) _
    rw [hnone, commentEnd?, tail?]
    split
    · rw [Option.bind_some, hnone]
    · rfl

theorem skipTrivia_eq (pos : Nat) :
    skipTrivia source pos = pos + triviaLength ((bytes source).drop pos) := by
  refine Loop.run_eq (g := id) (f := fun pos => pos + triviaLength ((bytes source).drop pos))
    (fun pos => ?_) pos
  change _ = (triviaRound source pos).fold _ id
  rw [triviaRound, commentEnd?_eq]
  cases hcomment : commentLength? ((bytes source).drop pos) with
  | some count =>
    rw [triviaLength_of_comment hcomment, List.drop_drop, ← Nat.add_assoc]
    rfl
  | none =>
    cases hbyte : byte? source pos with
    | none =>
      rw [drop_of_byte?_none hbyte, triviaLength]
      rfl
    | some c =>
      rw [drop_eq hbyte] at hcomment ⊢
      dsimp only [Option.map_none]
      by_cases hblank : Text.isAsciiBlank c = true
      · rw [if_pos hblank, triviaLength_of_blank hblank, ← Nat.add_assoc]
        rfl
      · rw [if_neg hblank, triviaLength_of_other (Bool.eq_false_iff.2 hblank) hcomment]
        rfl

end

/-! ## Brackets among the bytes -/

/-- The place among the bytes. -/
def placeAt (source : String) (pos : Nat) : Place :=
  (Place.start (bytes source)).advance pos

theorem placeAt_eq (source : String) (pos : Nat) :
    placeAt source pos = ⟨((bytes source).take pos).reverse, (bytes source).drop pos⟩ := by
  rw [placeAt, Place.start, Place.advance_eq, List.append_nil]

theorem advance_placeAt (source : String) (pos count : Nat) :
    (placeAt source pos).advance count = placeAt source (pos + count) := by
  rw [placeAt_eq, placeAt_eq, Place.advance_eq, List.take_add, List.reverse_append, List.drop_drop]

theorem rest_placeAt (source : String) (pos : Nat) :
    (placeAt source pos).rest = (bytes source).drop pos := by
  rw [placeAt_eq]

theorem lexeme_placeAt {pos : Nat} {c : Char} (h : byte? source pos = some c) :
    (placeAt source pos).lexeme =
      lexemeFrom (c == '/' && regexAllowed source pos) c ((bytes source).drop (pos + 1)) := by
  rw [Place.lexeme, rest_placeAt, drop_eq h]
  rfl

/-- The search for a closing bracket goes on behind a lexeme. -/
theorem closingFrom_of_some {place : Place} (hne : place.rest ≠ []) {kind : Lexeme} {count : Nat}
    (h : place.lexeme = (kind, count)) {depth next : Nat}
    (hnext : kind.depthAfter? depth = some next) :
    place.closingFrom depth = ((place.advance count).closingFrom next).map (· + count) := by
  rw [Place.closingFrom, dif_neg hne, h]
  cases kind with
  | closing =>
    rcases depth with _ | _ | depth
    · cases hnext
    · cases hnext
    · cases hnext
      rfl
  | unclosed => cases hnext
  | _ =>
    cases hnext
    rfl

/-- It ends with the outermost bracket, or without any. -/
theorem closingFrom_of_none {place : Place} (hne : place.rest ≠ []) {kind : Lexeme} {count : Nat}
    (h : place.lexeme = (kind, count)) {depth : Nat} (hnext : kind.depthAfter? depth = none) :
    place.closingFrom depth = if kind = .closing ∧ depth = 1 then some count else none := by
  rw [Place.closingFrom, dif_neg hne, h]
  cases kind with
  | closing =>
    rcases depth with _ | _ | depth
    · rfl
    · rfl
    · cases hnext
  | unclosed => rfl
  | _ => cases hnext

section
variable {pos : Nat} {c : Char}

theorem isOpening_iff : isOpening c = true ↔ c = '(' ∨ c = '[' ∨ c = '{' := by
  simp [isOpening, or_assoc]

theorem isClosing_iff : isClosing c = true ↔ c = ')' ∨ c = ']' ∨ c = '}' := by
  simp [isClosing, or_assoc]

theorem lexemeFrom_quote (h : isQuote c = true) (allowed : Bool) (tail : List Char) :
    lexemeFrom allowed c tail =
      (closedString c tail).elim (.unclosed, unclosedLength c tail)
        (fun count => (.literal, count + 1)) := by
  rw [lexemeFrom, commentLength?_of_ne_slash (ne_slash_of_isQuote h)]
  simp only [h]
  cases closedString c tail <;> rfl

theorem rest_placeAt_ne_nil (h : byte? source pos = some c) : (placeAt source pos).rest ≠ [] := by
  rw [rest_placeAt, drop_eq h]
  exact List.cons_ne_nil _ _

/-- A slash that starts no comment. -/
theorem lexeme_slash (hbyte : byte? source pos = some '/')
    (hcomment : commentEnd? source pos = none) :
    (placeAt source pos).lexeme =
      if regexAllowed source pos then
        (closedRegex false ((bytes source).drop (pos + 1))).elim
          (.unclosed, unclosedLength '/' ((bytes source).drop (pos + 1)))
          (fun count => (.literal, count + 1))
      else (.other, 1) := by
  rw [commentEnd?_eq, Option.map_eq_none_iff, drop_eq hbyte] at hcomment
  have hquote : isQuote '/' = false := rfl
  rw [lexeme_placeAt hbyte, lexemeFrom, hcomment]
  simp only [hquote]
  cases regexAllowed source pos with
  | false => rfl
  | true => cases closedRegex false ((bytes source).drop (pos + 1)) <;> rfl

theorem lexeme_other (hbyte : byte? source pos = some c) (hopening : isOpening c = false)
    (hclosing : isClosing c = false) (hquote : isQuote c = false) (hslash : c ≠ '/')
    (hword : isWordStart c = false) : (placeAt source pos).lexeme = (.other, 1) := by
  rw [← Bool.not_eq_true, isOpening_iff] at hopening
  rw [← Bool.not_eq_true, isClosing_iff] at hclosing
  rw [lexeme_placeAt hbyte, lexemeFrom_other hquote hslash, hword, if_neg hopening,
    if_neg hclosing]
  rfl

/-- A character that is neither a bracket nor the start of a literal or a comment, even in the
middle of a word. -/
theorem closingFrom_other (hbyte : byte? source pos = some c) (hopening : isOpening c = false)
    (hclosing : isClosing c = false) (hquote : isQuote c = false)
    (hslash : c = '/' → regexAllowed source pos = false ∧ commentEnd? source pos = none)
    (depth : Nat) :
    (placeAt source pos).closingFrom depth =
      ((placeAt source (pos + 1)).closingFrom depth).map (· + 1) := by
  by_cases hword : isWordPart c = true
  · have hcrosses := crosses_wordPart hword depth ((bytes source).take pos).reverse
      ((bytes source).drop (pos + 1))
    have hplace : placeAt source pos =
        ⟨((bytes source).take pos).reverse, [c] ++ (bytes source).drop (pos + 1)⟩ := by
      rw [placeAt_eq, drop_eq hbyte]
      rfl
    rw [← advance_placeAt, hplace, hcrosses]
    rfl
  · have hlexeme : (placeAt source pos).lexeme = (.other, 1) := by
      by_cases hc : c = '/'
      · subst hc
        rw [lexeme_slash hbyte (hslash rfl).2, (hslash rfl).1]
        rfl
      · rw [isWordPart, Bool.or_eq_true, not_or, Bool.not_eq_true] at hword
        exact lexeme_other hbyte hopening hclosing hquote hc hword.1
    rw [closingFrom_of_some (rest_placeAt_ne_nil hbyte) hlexeme rfl, advance_placeAt]

/-- The bracket is the last character of what the search reads. -/
theorem run_closeLoop (depth pos : Nat) :
    ((closeLoop source).run (depth, pos)).pos? =
      ((placeAt source pos).closingFrom depth).map (pos + · - 1) := by
  refine Loop.run_eq (g := BracketEnd.pos?) (f := fun state : Nat × Nat =>
    ((placeAt source state.2).closingFrom state.1).map (state.2 + · - 1)) ?_ (depth, pos)
  rintro ⟨depth, pos⟩
  change _ = (closeRound source (depth, pos)).fold _ _
  cases hbyte : byte? source pos with
  | none =>
    have hnil : (placeAt source pos).rest = [] := by
      rw [rest_placeAt, drop_of_byte?_none hbyte]
    simp only [closeRound, hbyte]
    rw [Place.closingFrom, dif_pos hnil]
    rfl
  | some c =>
    have hne := rest_placeAt_ne_nil hbyte
    have hlexeme := lexeme_placeAt hbyte
    simp only [closeRound, hbyte]
    by_cases hopening : isOpening c = true
    · have hkind : (placeAt source pos).lexeme = (.opening, 1) := by
        rw [hlexeme]
        rcases isOpening_iff.1 hopening with rfl | rfl | rfl <;> rfl
      rw [if_pos hopening, closingFrom_of_some hne hkind rfl, advance_placeAt, map_position]
      rfl
    rw [if_neg hopening]
    by_cases hclosing : isClosing c = true
    · have hkind : (placeAt source pos).lexeme = (.closing, 1) := by
        rw [hlexeme]
        rcases isClosing_iff.1 hclosing with rfl | rfl | rfl <;> rfl
      rw [if_pos hclosing]
      rcases depth with _ | _ | depth
      · rw [closingFrom_of_none hne hkind rfl]
        rfl
      · rw [closingFrom_of_none hne hkind rfl]
        rfl
      · rw [closingFrom_of_some hne hkind rfl, advance_placeAt, map_position]
        rfl
    rw [if_neg hclosing]
    by_cases hquote : isQuote c = true
    · rw [if_pos hquote, stringEnd?_eq hbyte]
      rw [lexemeFrom_quote hquote] at hlexeme
      cases hclosed : closedString c ((bytes source).drop (pos + 1)) with
      | none =>
        rw [hclosed] at hlexeme
        rw [closingFrom_of_none hne hlexeme rfl]
        rfl
      | some count =>
        rw [hclosed] at hlexeme
        rw [closingFrom_of_some hne hlexeme rfl, advance_placeAt, map_position]
        rfl
    rw [if_neg hquote]
    rw [Bool.not_eq_true] at hopening hclosing hquote
    by_cases hslash : c = '/'
    · subst hslash
      rw [if_pos rfl]
      cases hcomment : commentEnd? source pos with
      | some stop =>
        obtain ⟨count, hcount, rfl⟩ := exists_commentEnd? hcomment
        have hkind : (placeAt source pos).lexeme = (.comment, count) := by
          rw [drop_eq hbyte] at hcount
          rw [hlexeme, lexemeFrom, hcount]
        rw [closingFrom_of_some hne hkind rfl, advance_placeAt, map_position]
        rfl
      | none =>
        have hkind := lexeme_slash hbyte hcomment
        by_cases hallowed : regexAllowed source pos = true
        · rw [if_pos hallowed] at hkind
          dsimp only
          rw [if_pos hallowed, regexEnd?_eq]
          cases hclosed : closedRegex false ((bytes source).drop (pos + 1)) with
          | none =>
            rw [hclosed] at hkind
            rw [closingFrom_of_none hne hkind rfl]
            rfl
          | some count =>
            rw [hclosed] at hkind
            rw [closingFrom_of_some hne hkind rfl, advance_placeAt, map_position]
            rfl
        · rw [if_neg hallowed] at hkind
          dsimp only
          rw [if_neg hallowed, closingFrom_of_some hne hkind rfl, advance_placeAt, map_position]
          rfl
    · rw [if_neg hslash, closingFrom_other hbyte hopening hclosing hquote
        (fun hc => absurd hc hslash) depth, map_position]
      rfl

theorem matchingClose?_eq (opening : Nat) :
    matchingClose? source opening =
      (placeAt source opening).closing.map (opening + · - 1) :=
  run_closeLoop 0 opening

end

/-! ## Calls among the bytes -/

section
variable {pos : Nat} {c : Char}

theorem length_before_placeAt (h : pos ≤ length source) :
    (placeAt source pos).before.length = pos := by
  rw [placeAt_eq, List.length_reverse, List.length_take]
  exact Nat.min_eq_left h

theorem line_placeAt (source : String) (pos : Nat) :
    (placeAt source pos).line = lineOf source pos := by
  rw [placeAt_eq, Place.line, List.count_reverse]
  rfl

theorem literalPattern_eq (h : pos ≤ length source) :
    literalPattern source pos = Bytes.literalPattern "" source (placeAt source pos) := by
  rw [Bytes.literalPattern, length_before_placeAt h, rest_placeAt]
  cases hbyte : byte? source pos with
  | none =>
    rw [literalPattern, hbyte, drop_of_byte?_none hbyte]
  | some c =>
    simp only [literalPattern, hbyte, drop_eq hbyte]
    by_cases hslash : c = '/'
    · rw [if_pos hslash, if_pos hslash, regexEnd?_eq]
      cases closedRegex false ((bytes source).drop (pos + 1)) <;> rfl
    · rw [if_neg hslash, if_neg hslash]
      by_cases hquote : isQuote c = true
      · rw [if_pos hquote, if_pos hquote, stringEnd?_eq hbyte]
        cases closedString c ((bytes source).drop (pos + 1)) <;> rfl
      · rw [if_neg hquote, if_neg hquote]

/-- A call whose bracket opens `count` bytes behind its keyword. -/
theorem call_eq (hbyte : byte? source pos = some c) (hc : c.toNat < 128) (type : StepType)
    {count : Nat} (hopening : pos + count < length source) :
    call source type pos (pos + count) =
      ((Bytes.call "" source (placeAt source pos) type count).1,
        pos + (Bytes.call "" source (placeAt source pos) type count).2) := by
  have hpos : pos ≤ length source := Nat.le_of_lt (lt_length hbyte)
  have hline : slice source pos (lineEnd source pos) =
      Bytes.slice "" source pos (pos + lineLength (placeAt source pos).rest) := by
    rw [lineEnd_eq hbyte hc, rest_placeAt]
    rfl
  have hpattern : literalPattern source (skipTrivia source (pos + count + 1)) =
      Bytes.literalPattern "" source ((placeAt source (pos + (count + 1))).advance
        (triviaLength (placeAt source (pos + (count + 1))).rest)) := by
    rw [rest_placeAt, advance_placeAt, ← Nat.add_assoc, ← skipTrivia_eq]
    have hend := (skipTrivia_bounds source (pos + count + 1)).2
    exact literalPattern_eq (Nat.le_trans hend (Nat.max_le.2 ⟨hopening, Nat.le_refl _⟩))
  have hclose : matchingClose? source (pos + count) = _ := matchingClose?_eq (pos + count)
  unfold call Bytes.call
  dsimp only
  rw [advance_placeAt, advance_placeAt, length_before_placeAt hpos, line_placeAt, ← hpattern,
    ← hline]
  cases hclosing : (placeAt source (pos + count)).closing with
  | none =>
    rw [hclosing] at hclose
    rw [hclose]
    rfl
  | some closing =>
    rw [hclosing, Option.map_some] at hclose
    have hbounds := (matchingClose?_bounds hclose).1
    have hstop : pos + count + closing - 1 + 1 = pos + count + closing := by omega
    rw [hclose]
    dsimp only
    rw [hstop]
    cases literalPattern source (skipTrivia source (pos + count + 1)) <;> dsimp only <;>
      rw [← Nat.add_assoc] <;> rfl

theorem step_of_lexeme {place : Place} {kind : Lexeme} {count : Nat}
    (h : place.lexeme = (kind, count)) (hkind : kind ≠ .word) :
    Bytes.step "" source place = ([], count) := by
  rw [Bytes.step, h]
  cases kind with
  | word => contradiction
  | _ => rfl

/-- A quote or slash behind whose literal, or line, the search goes on. -/
theorem elim_eq {closed : Option Nat} {unclosed other : Nat} (hother : other = pos + unclosed) :
    (closed.map (pos + ·)).elim other (· + 1) =
      pos + (closed.elim (Lexeme.unclosed, unclosed) fun count => (.literal, count + 1)).2 := by
  cases closed with
  | none => exact hother
  | some count => rfl

theorem kind_ne_word {closed : Option Nat} {unclosed : Nat} :
    (closed.elim (Lexeme.unclosed, unclosed) fun count => (.literal, count + 1)).1 ≠ .word := by
  cases closed <;> exact nofun

theorem lineEnd_unclosed (hbyte : byte? source pos = some c) (hc : c.toNat < 128) (hline : c ≠ '\n')
    (htemplate : c ≠ '`') :
    lineEnd source pos = pos + unclosedLength c ((bytes source).drop (pos + 1)) := by
  rw [lineEnd_eq hbyte hc, drop_eq hbyte, unclosedLength, if_neg htemplate, lineLength,
    List.takeWhile_cons_of_pos (by simpa using hline)]
  rfl

/-- Any other character stands alone. -/
theorem exists_kind (hbyte : byte? source pos = some c) (hcomment : commentEnd? source pos = none)
    (hquote : isQuote c = false) (hregex : ¬ (c = '/' ∧ regexAllowed source pos = true))
    (hword : isWordStart c = false) :
    ∃ kind, (placeAt source pos).lexeme = (kind, 1) ∧ kind ≠ .word := by
  by_cases hslash : c = '/'
  · subst hslash
    refine ⟨.other, ?_, nofun⟩
    rw [lexeme_slash hbyte hcomment, if_neg fun hallowed => hregex ⟨rfl, hallowed⟩]
  · rw [lexeme_placeAt hbyte, lexemeFrom_other hquote hslash, hword, if_neg Bool.false_ne_true]
    by_cases hopening : c = '(' ∨ c = '[' ∨ c = '{'
    · exact ⟨.opening, if_pos hopening, nofun⟩
    · rw [if_neg hopening]
      by_cases hclosing : c = ')' ∨ c = ']' ∨ c = '}'
      · exact ⟨.closing, if_pos hclosing, nofun⟩
      · exact ⟨.other, if_neg hclosing, nofun⟩

theorem passWord_eq (hbyte : byte? source pos = some c) (hquote : isQuote c = false)
    (hword : isWordStart c = true) (found : List Finding) :
    passWord source found pos =
      (found ++ (Bytes.step "" source (placeAt source pos)).1,
        pos + (Bytes.step "" source (placeAt source pos)).2) := by
  have hpos : pos ≤ length source := Nat.le_of_lt (lt_length hbyte)
  have hpart : isWordPart c = true := isWordStart_of_isWordPart hword
  have hascii : c.toNat < 128 := by
    refine Nat.not_le.1 fun hforeign => ?_
    rw [IsForeign.isWordPart hforeign] at hpart
    cases hpart
  have hslash : c ≠ '/' := by
    rintro rfl
    cases hword
  generalize hcount : (((bytes source).drop (pos + 1)).takeWhile isWordPart).length + 1 = count
  have hkind : (placeAt source pos).lexeme = (.word, count) := by
    rw [lexeme_placeAt hbyte, lexemeFrom_other hquote hslash, if_pos hword, hcount]
  have hstop : wordEnd source pos = pos + count := by
    rw [wordEnd, drop_eq hbyte, List.takeWhile_cons_of_pos hpart, List.length_cons, hcount]
  have hslice : slice source pos (pos + count) = Bytes.slice "" source pos (pos + count) := rfl
  rw [passWord, Bytes.step, hkind, length_before_placeAt hpos, rest_placeAt, hstop, registration?,
    skipTrivia_eq, hslice, List.drop_drop]
  dsimp only
  cases StepType.ofName? (Bytes.slice "" source pos (pos + count)).toList with
  | none => exact congrArg (·, pos + count) (List.append_nil found).symm
  | some type =>
    rw [List.drop_drop, ← Nat.add_assoc]
    generalize triviaLength ((bytes source).drop (pos + count)) = gap
    dsimp only [Option.bind_some]
    cases hopening : byte? source (pos + count + gap) with
    | none =>
      rw [drop_of_byte?_none hopening, if_neg (Option.some_ne_none _).symm]
      exact congrArg (·, pos + count) (List.append_nil found).symm
    | some d =>
      rw [drop_eq hopening]
      by_cases hd : d = '('
      · subst hd
        have hlength : pos + (count + gap) < length source := by
          rw [← Nat.add_assoc]
          exact lt_length hopening
        have hcall := call_eq hbyte hascii type hlength
        rw [← Nat.add_assoc] at hcall
        rw [if_pos rfl]
        dsimp only
        rw [hcall]
        rfl
      · rw [if_neg fun heq => hd (Option.some.inj heq)]
        change (found, pos + count) = _
        split
        · next heq => exact absurd (List.cons.inj heq).1 hd
        · exact congrArg (·, pos + count) (List.append_nil found).symm

/-- One round finds what one step of the search finds, and goes on at the same place. -/
theorem mainRound_eq (hbyte : byte? source pos = some c) (found : List Finding) :
    mainRound source (found, pos) =
      .again (found ++ (Bytes.step "" source (placeAt source pos)).1,
        pos + (Bytes.step "" source (placeAt source pos)).2) := by
  have hpos : pos ≤ length source := Nat.le_of_lt (lt_length hbyte)
  have hlexeme := lexeme_placeAt hbyte
  -- nothing is found at a lexeme that is no word
  have hother : ∀ kind count, (placeAt source pos).lexeme = (kind, count) → kind ≠ .word →
      Round.again (found, pos + count) =
        (.again (found ++ (Bytes.step "" source (placeAt source pos)).1,
          pos + (Bytes.step "" source (placeAt source pos)).2) :
            Round (List Finding × Nat) (List Finding)) := by
    intro kind count hkind hword
    rw [step_of_lexeme hkind hword, List.append_nil]
  simp only [mainRound, hbyte]
  cases hcomment : commentEnd? source pos with
  | some stop =>
    obtain ⟨count, hcount, rfl⟩ := exists_commentEnd? hcomment
    rw [drop_eq hbyte] at hcount
    exact hother .comment count (by rw [hlexeme, lexemeFrom, hcount]) nofun
  | none =>
    dsimp only
    by_cases htemplate : c = '`'
    · subst htemplate
      have hend : length source = pos + unclosedLength '`' ((bytes source).drop (pos + 1)) := by
        have hlt := lt_length hbyte
        rw [unclosedLength, if_pos rfl, List.length_drop]
        unfold length at hlt ⊢
        omega
      rw [if_pos rfl, stringEnd?_eq hbyte, elim_eq hend]
      exact hother _ _ (hlexeme.trans (lexemeFrom_quote rfl _ _)) kind_ne_word
    rw [if_neg htemplate]
    by_cases hquote : isQuote c = true
    · have hend : lineEnd source pos = pos + unclosedLength c ((bytes source).drop (pos + 1)) := by
        rcases isQuote_iff.1 hquote with rfl | rfl | rfl <;>
          exact lineEnd_unclosed hbyte (by decide) (by decide) htemplate
      rw [if_pos hquote, stringEnd?_eq hbyte, elim_eq hend]
      exact hother _ _ (hlexeme.trans (lexemeFrom_quote hquote _ _)) kind_ne_word
    rw [if_neg hquote]
    by_cases hregex : c = '/' ∧ regexAllowed source pos = true
    · obtain ⟨rfl, hallowed⟩ := hregex
      have hkind := lexeme_slash hbyte hcomment
      rw [if_pos hallowed] at hkind
      rw [if_pos ⟨rfl, hallowed⟩, regexEnd?_eq,
        elim_eq (lineEnd_unclosed hbyte (by decide) (by decide) (by decide))]
      exact hother _ _ hkind kind_ne_word
    rw [if_neg hregex]
    rw [Bool.not_eq_true] at hquote
    by_cases hword : isWordStart c = true
    · rw [if_pos hword]
      exact congrArg Round.again (passWord_eq hbyte hquote hword found)
    rw [if_neg hword]
    obtain ⟨kind, hkind, hne⟩ := exists_kind hbyte hcomment hquote hregex (by simpa using hword)
    exact hother kind 1 hkind hne

/-- At the end of the script the search is over. -/
theorem mainRound_of_byte?_none (hbyte : byte? source pos = none) (found : List Finding) :
    mainRound source (found, pos) = .done found := by
  rw [mainRound, hbyte]

end

/-- The rounds from a position on find what the search among the bytes finds from there on. -/
theorem run_mainLoop (found : List Finding) (pos : Nat) :
    (mainLoop source).run (found, pos) =
      found ++ Bytes.findings "" source (placeAt source pos) := by
  refine Loop.run_eq (g := id) (f := fun state : List Finding × Nat =>
    state.1 ++ Bytes.findings "" source (placeAt source state.2)) ?_ (found, pos)
  rintro ⟨found, pos⟩
  change _ = (mainRound source (found, pos)).fold _ id
  cases hbyte : byte? source pos with
  | none =>
    have hend : (placeAt source pos).rest = [] := by
      rw [rest_placeAt, drop_of_byte?_none hbyte]
    rw [mainRound_of_byte?_none hbyte, Bytes.findings, dif_pos hend]
    exact List.append_nil found
  | some c =>
    rw [mainRound_eq hbyte, Bytes.findings, dif_neg (rest_placeAt_ne_nil hbyte), advance_placeAt,
      ← List.append_assoc]
    rfl

/-- The search by position finds what the search among the characters finds. -/
theorem findings_eq (source : String) : findings source = (extract source).findings := by
  rw [findings, run_mainLoop, List.nil_append, ← bytes_extract_eq ""]
  rfl

/-! ## Progress -/

/-- The search comes to an end on every script, however it is cut off. Each round of each of its
loops goes on behind the position at which it started. No position lies behind the end of the
script, except that an escape without a character is passed with both of its bytes: then the literal
is not closed. From an opening bracket on, no bracket closes while none is open. -/
theorem search_advances (source : String) :
    (∀ found pos, pos < length source → ∃ later next,
      mainRound source (found, pos) = .again (later, next) ∧ pos < next ∧ next ≤ length source) ∧
    (∀ pos next, triviaRound source pos = .again next → pos < next ∧ next ≤ length source) ∧
    (∀ quote pos next, stringRound source quote pos = .again next → pos < next ∧
      (next ≤ length source ∨ next = length source + 1 ∧ byte? source pos = some '\\' ∧
        stringRound source quote next = .done none)) ∧
    (∀ inClass pos later next, regexRound source (inClass, pos) = .again (later, next) →
      pos < next ∧ (next ≤ length source ∨ next = length source + 1 ∧
        byte? source pos = some '\\' ∧ regexRound source (later, next) = .done none)) ∧
    (∀ depth pos later next, closeRound source (depth, pos) = .again (later, next) →
      pos < next ∧ next ≤ length source) ∧
    (∀ pos stop, commentEnd? source pos = some stop → pos < stop ∧ stop ≤ length source) ∧
    (∀ pos stop, stringEnd? source pos = some stop → pos < stop ∧ stop < length source) ∧
    (∀ pos stop, regexEnd? source pos = some stop → pos < stop ∧ stop < length source) ∧
    (∀ pos stop, matchingClose? source pos = some stop → pos < stop ∧ stop < length source) ∧
    (∀ pos, lineEnd source pos ≤ length source) ∧
    (∀ pos, pos ≤ wordEnd source pos ∧ wordEnd source pos ≤ max pos (length source)) ∧
    (∀ pos, pos ≤ skipTrivia source pos ∧ skipTrivia source pos ≤ max pos (length source)) ∧
    (∀ opening c, byte? source opening = some c → isOpening c = true →
      (∀ depth pos d, (closeLoop source).Reaches (0, opening) (depth, pos) →
        byte? source pos = some d → isClosing d = true → 1 ≤ depth) ∧
      (closeLoop source).run (0, opening) ≠ .unmatched) ∧
    findings source = (extract source).findings := by
  refine ⟨?_, fun pos next h => triviaRound_again source h,
    fun quote pos next h => stringRound_bounds h,
    fun inClass pos later next h => regexRound_bounds h,
    fun depth pos later next h => (closeRound_again source h).imp_right And.left,
    fun pos stop h => commentEnd?_bounds h, fun pos stop h => stringEnd?_bounds h,
    fun pos stop h => regexEnd?_bounds h, fun pos stop h => matchingClose?_bounds h,
    lineEnd_le source, wordEnd_bounds source, skipTrivia_bounds source, ?_, findings_eq source⟩
  · intro found pos hpos
    have hround := mainRound_eq (c := (bytes source)[pos]) (List.getElem?_eq_getElem hpos) found
    exact ⟨_, _, hround, mainRound_again source hround⟩
  · intro opening c hbyte hc
    refine ⟨fun depth pos d hreaches hd hclosing => ?_, run_ne_unmatched hbyte hc⟩
    exact depth_pos_of_isClosing hbyte hc hreaches hd hclosing

/-- A call that is cut off within the escape of a character. -/
def unfinishedCall : String := "Given(\"\\"

theorem search_advances_unfinishedCall :
    (∃ later next, mainRound unfinishedCall ([], 0) = .again (later, next) ∧
      0 < next ∧ next ≤ length unfinishedCall) ∧
    stringRound unfinishedCall '"' 7 = .again (length unfinishedCall + 1) ∧
    stringRound unfinishedCall '"' (length unfinishedCall + 1) = .done none ∧
    (closeLoop unfinishedCall).run (0, 5) ≠ .unmatched ∧
    findings unfinishedCall = (extract unfinishedCall).findings := by
  obtain ⟨hmain, -, hstring, -, -, -, -, -, -, -, -, -, hdepth, hfindings⟩ :=
    search_advances unfinishedCall
  have hescape : stringRound unfinishedCall '"' 7 = .again (length unfinishedCall + 1) := by decide
  refine ⟨hmain [] 0 (by decide), hescape, ?_, (hdepth 5 '(' (by decide) rfl).2, hfindings⟩
  exact ((hstring '"' 7 _ hescape).2.resolve_left (Nat.not_succ_le_self _)).2.2

end Scanner

end Stepbook.Source
