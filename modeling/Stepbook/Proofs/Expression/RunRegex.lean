import Stepbook.Proofs.Expression.Alphabet
import Stepbook.Proofs.Expression.Capture

/-! # Regular expressions of runs

The parts of an expression stand for the same regular expressions as the runs of its tokens, and
these lead a cursor through the splits of a text.

* `Token.regexes`, `runRegexes`, `laterRegexes`: the regular expressions of tokens and of runs.
* `Token.Proper`: a token that may stand in a branch or between runs.
* `follows_runs`: these lead a cursor through the splits by the runs.
* `regexes_of_partsAfter`: the regular expressions of the parts that tokens make up.
-/

namespace Stepbook.Expression
set_option autoImplicit false

open Regex

/-! ## Tokens -/

/-- `number` groups stand before the token. -/
def Token.regexes (number : Nat) : Token → List Regex
  | .text written | .blank written => written.map literal
  | .optional _ written => [.iterate (concat (written.map literal)) 0 (some 1) true]
  | .parameter _ name =>
    (ParameterType.ofName? name).toList.map fun type => .group (number + 1) type.regex
  | .separator _ => []

/-- An optional text is not empty. -/
def Token.Solid : Token → Prop
  | .optional _ written => written ≠ []
  | _ => True

/-- A token that has pieces of its own: a placeholder has a type. -/
def Token.Proper : Token → Prop
  | .parameter _ name => (ParameterType.ofName? name).isSome
  | .separator _ => False
  | token => token.Solid

theorem filter_optional_prefixes {written : List Char} (h : written ≠ []) (text : List Char) :
    (prefixes text).filter (fun piece => piece == written || piece.isEmpty) =
      (prefixes text).filter (· == written) ++ [[]] := by
  have hempty : ([] == written) = false := beq_false_of_ne h.symm
  cases text with
  | nil => simp [prefixes, hempty]
  | cons c text =>
    rw [filter_prefixes_cons, filter_prefixes_cons]
    simp [hempty]

theorem endsAll_token {token : Token} (h : token.Proper) (number : Nat) (cursor : Cursor) :
    endsAll (token.regexes number) cursor =
      (token.pieces cursor.place.rest).map fun piece => cursor.through number [(token, piece)] := by
  cases token with
  | text written => exact endsAll_literals written cursor
  | blank written => exact endsAll_literals written cursor
  | «optional» start written =>
    have hpieces : (Token.optional start written).pieces cursor.place.rest =
        (prefixes cursor.place.rest).filter (· == written) ++ [[]] :=
      filter_optional_prefixes h cursor.place.rest
    rw [hpieces, List.map_append, Token.regexes, endsAll, ends_optional, ends_concat,
      endsAll_literals]
    exact List.flatMap_singleton' _
  | parameter start name =>
    obtain ⟨type, htype⟩ := Option.isSome_iff_exists.1 h
    have hpieces : (Token.parameter start name).pieces cursor.place.rest =
        (prefixes cursor.place.rest).filter type.admits := by
      rw [Token.pieces]
      refine List.filter_congr fun piece _ => ?_
      rw [Token.admits, htype, Option.any_some]
    have hthrough : ∀ piece, cursor.through number [(.parameter start name, piece)] =
        cursor.capture (number + 1) piece :=
      fun piece => Cursor.through_cons_of_some piece number [] cursor htype
    simp only [hpieces, hthrough, Token.regexes, htype, Option.toList_some, List.map_cons,
      List.map_nil, endsAll, ends, type.takes (cursor.enter (number + 1)), List.map_map]
    exact List.flatMap_singleton' _
  | separator offset => cases h

/-! ## Following splits -/

/-- The types of tokens that are placeholders. -/
def typesOf (tokens : List Token) : List ParameterType :=
  tokens.filterMap Token.type?

theorem map_captures (split : Split) : split.captures.map (·.2) = typesOf (split.map (·.1)) := by
  induction split with
  | nil => rfl
  | cons part split ih =>
    obtain ⟨token, piece⟩ := part
    rw [List.map_cons, typesOf, List.filterMap_cons]
    cases htype : token.type? with
    | none => rw [captures_cons_of_none _ _ htype, ih, typesOf]
    | some type => rw [captures_cons_of_some _ _ htype, List.map_cons, ih, typesOf]

/-- The expressions lead through the splits that are found, whose placeholders have the types;
`number` groups stand before them. -/
structure Follows (number : Nat) (types : List ParameterType) (regexes : List Regex)
    (found : List Char → List (Split × List Char)) : Prop where
  ends_eq : ∀ cursor : Cursor, endsAll regexes cursor =
    (found cursor.place.rest).map fun one => cursor.through number one.1
  text_eq : ∀ (text : List Char), ∀ one ∈ found text, (one.1.map (·.2)).flatten ++ one.2 = text
  types_eq : ∀ (text : List Char), ∀ one ∈ found text, one.1.captures.map (·.2) = types

theorem Follows.append {number : Nat} {types others : List ParameterType}
    {regexes later : List Regex} {found next : List Char → List (Split × List Char)}
    (h : Follows number types regexes found)
    (hnext : Follows (number + types.length) others later next) :
    Follows number (types ++ others) (regexes ++ later) fun text =>
      (found text).flatMap fun one => (next one.2).map fun other => (one.1 ++ other.1, other.2) := by
  refine ⟨fun cursor => ?_, ?_, ?_⟩
  · rw [endsAll_append, h.ends_eq, List.flatMap_map, List.map_flatMap]
    refine List.flatMap_congr fun one hone => ?_
    have hrest : (cursor.through number one.1).place.rest = one.2 := by
      rw [Cursor.place_through, Place.after, ← h.text_eq _ one hone, List.drop_left]
    have hcount : one.1.captures.length = types.length := by
      rw [← h.types_eq _ one hone, List.length_map]
    rw [hnext.ends_eq, hrest, List.map_map]
    refine List.map_congr_left fun other _ => ?_
    rw [Function.comp_apply, Cursor.through_append, hcount]
  · intro text both hboth
    obtain ⟨one, hone, hboth⟩ := List.mem_flatMap.1 hboth
    obtain ⟨other, hother, rfl⟩ := List.mem_map.1 hboth
    rw [List.map_append, List.flatten_append, List.append_assoc, hnext.text_eq _ other hother,
      h.text_eq _ one hone]
  · intro text both hboth
    obtain ⟨one, hone, hboth⟩ := List.mem_flatMap.1 hboth
    obtain ⟨other, hother, rfl⟩ := List.mem_map.1 hboth
    rw [Split.captures, List.filterMap_append, List.map_append]
    exact congrArg₂ (· ++ ·) (h.types_eq _ one hone) (hnext.types_eq _ other hother)

/-! ## Rows and runs -/

/-- A token of a branch. -/
def Token.Plain (token : Token) : Prop :=
  token.Proper ∧ token.isBound = false

theorem Token.type?_of_not_isBound {token : Token} (h : token.isBound = false) :
    token.type? = none := by
  cases token <;> first | rfl | cases h

theorem typesOf_of_not_isBound {tokens : List Token}
    (h : ∀ token ∈ tokens, token.isBound = false) : typesOf tokens = [] :=
  List.filterMap_eq_nil_iff.2 fun token htoken => Token.type?_of_not_isBound (h token htoken)

theorem endsAll_row {tokens : List Token} (h : ∀ token ∈ tokens, token.Plain) (number : Nat)
    (cursor : Cursor) :
    endsAll (tokens.flatMap (Token.regexes number)) cursor =
      (rowSplits tokens cursor.place.rest).map fun one => cursor.through number one.1 := by
  induction tokens generalizing cursor with
  | nil => rfl
  | cons token tokens ih =>
    have htoken := h token (List.mem_cons_self ..)
    have htype := Token.type?_of_not_isBound htoken.2
    have htokens := ih fun other hother => h other (List.mem_cons_of_mem _ hother)
    rw [List.flatMap_cons, endsAll_append, endsAll_token htoken.1, rowSplits, List.flatMap_map,
      List.map_flatMap]
    refine List.flatMap_congr fun piece _ => ?_
    rw [Cursor.through_cons_of_none _ _ _ _ htype, htokens, List.map_map]
    refine List.map_congr_left fun one _ => ?_
    exact (Cursor.through_cons_of_none _ _ _ _ htype).symm

/-- A run that no separator divides stands for its tokens in a row. -/
def runRegexes (run : List Token) : List Regex :=
  match branchesOf run with
  | [branch] => branch.flatMap (Token.regexes 0)
  | branches => [oneOf (branches.map fun branch => concat (branch.flatMap (Token.regexes 0)))]

/-- Tokens of a run, separators among them. -/
def AreLoose (run : List Token) : Prop :=
  ∀ token ∈ run, token.Solid ∧ token.isBound = false

theorem branchesOf_ne_nil (run : List Token) : branchesOf run ≠ [] := by
  induction run with
  | nil => simp [branchesOf]
  | cons token run ih => cases token <;> simp [branchesOf, ih]

theorem AreLoose.plain {run : List Token} (h : AreLoose run) :
    ∀ branch ∈ branchesOf run, ∀ token ∈ branch, token.Plain := by
  induction run with
  | nil => simp [branchesOf]
  | cons first run ih =>
    have hrun := ih fun token htoken => h token (List.mem_cons_of_mem _ htoken)
    have hfirst := h first (List.mem_cons_self ..)
    obtain ⟨head, others, hbranches⟩ := List.exists_cons_of_ne_nil (branchesOf_ne_nil run)
    rw [hbranches] at hrun
    have hcons : first.Plain → branchesOf (first :: run) = (first :: head) :: others →
        ∀ branch ∈ branchesOf (first :: run), ∀ token ∈ branch, token.Plain := by
      intro hplain heq branch hbranch token htoken
      rw [heq] at hbranch
      rcases List.mem_cons.1 hbranch with rfl | hbranch
      · rcases List.mem_cons.1 htoken with rfl | htoken
        · exact hplain
        · exact hrun head (List.mem_cons_self ..) token htoken
      · exact hrun branch (List.mem_cons_of_mem _ hbranch) token htoken
    cases first with
    | text written => exact hcons hfirst (congrArg (List.modifyHead _) hbranches)
    | blank written => cases hfirst.2
    | «optional» start written => exact hcons hfirst (congrArg (List.modifyHead _) hbranches)
    | parameter start name => cases hfirst.2
    | separator offset =>
      intro branch hbranch token htoken
      rw [branchesOf, hbranches] at hbranch
      rcases List.mem_cons.1 hbranch with rfl | hbranch
      · cases htoken
      · exact hrun branch hbranch token htoken

theorem regexes_of_not_isBound {token : Token} (h : token.isBound = false) (number : Nat) :
    token.regexes number = token.regexes 0 := by
  cases token <;> first | rfl | cases h

theorem endsAll_run {run : List Token} (h : AreLoose run) (number : Nat) (cursor : Cursor) :
    endsAll (runRegexes run) cursor =
      (runSplits run cursor.place.rest).map fun one => cursor.through number one.1 := by
  have hbranches : endsAll (runRegexes run) cursor = (branchesOf run).flatMap fun branch =>
      endsAll (branch.flatMap (Token.regexes 0)) cursor := by
    rw [runRegexes]
    split
    · next branch hsingle => rw [hsingle, List.flatMap_singleton]
    · rw [endsAll, ends_oneOf (by simp [branchesOf_ne_nil run]), List.flatMap_map]
      simp only [ends_concat]
      exact List.flatMap_singleton' _
  rw [hbranches, runSplits, List.map_flatMap]
  refine List.flatMap_congr fun branch hbranch => ?_
  have hplain := h.plain branch hbranch
  rw [← endsAll_row hplain number cursor]
  refine congrArg (endsAll · cursor) (List.flatMap_congr fun token htoken => ?_)
  exact (regexes_of_not_isBound (hplain token htoken).2 number).symm

theorem follows_run {run : List Token} (h : AreLoose run) (number : Nat) :
    Follows number [] (runRegexes run) (runSplits run) := by
  refine ⟨endsAll_run h number, ?_, ?_⟩
  · intro text one hone
    obtain ⟨branch, hbranch, hrow⟩ := mem_runSplits.1 hone
    exact hrow.2.2
  · intro text one hone
    obtain ⟨branch, hbranch, hrow⟩ := mem_runSplits.1 hone
    rw [map_captures, hrow.1]
    exact typesOf_of_not_isBound fun token htoken => (h.plain branch hbranch token htoken).2

theorem follows_token {token : Token} (h : token.Proper) (number : Nat) :
    Follows number (typesOf [token]) (token.regexes number) (rowSplits [token]) := by
  refine ⟨?_, ?_, ?_⟩
  · intro cursor
    rw [endsAll_token h, rowSplits, List.map_flatMap]
    exact List.map_eq_flatMap
  · intro text one hone
    exact (mem_rowSplits.1 hone).2.2
  · intro text one hone
    rw [map_captures, (mem_rowSplits.1 hone).1]

/-- Each bounding token with the run after it; `number` groups stand before them. -/
def laterRegexes (number : Nat) : List (Token × List Token) → List Regex
  | [] => []
  | (bound, next) :: others =>
    bound.regexes number ++ (runRegexes next ++ laterRegexes (number + (typesOf [bound]).length) others)

/-- The runs are those of proper tokens, with bounding tokens between them. -/
def AreLooseRuns (run : List Token) (others : List (Token × List Token)) : Prop :=
  AreLoose run ∧ ∀ other ∈ others, other.1.Proper ∧ AreLoose other.2

/-- Regular expressions of runs lead through the splits by them. -/
theorem follows_runs {run : List Token} {others : List (Token × List Token)}
    (h : AreLooseRuns run others) (number : Nat) :
    Follows number (typesOf (others.map (·.1))) (runRegexes run ++ laterRegexes number others)
      (runsSplits run others) := by
  induction others generalizing run number with
  | nil =>
    rw [laterRegexes, List.append_nil]
    exact follows_run h.1 number
  | cons other others ih =>
    obtain ⟨bound, next⟩ := other
    have hother := h.2 (bound, next) (List.mem_cons_self ..)
    have hnext := ih ⟨hother.2, fun one hone => h.2 one (List.mem_cons_of_mem _ hone)⟩
      (number + (typesOf [bound]).length)
    have hall := (follows_run h.1 number).append ((follows_token hother.1 number).append hnext)
    have htypes : typesOf (((bound, next) :: others).map (·.1)) =
        [] ++ (typesOf [bound] ++ typesOf (others.map (·.1))) := by
      rw [typesOf, typesOf, typesOf, List.nil_append, ← List.filterMap_append]
      rfl
    have hsplits : runsSplits run ((bound, next) :: others) = fun text =>
        (runSplits run text).flatMap fun one =>
          ((rowSplits [bound] one.2).flatMap fun middle =>
            (runsSplits next others middle.2).map fun later =>
              (middle.1 ++ later.1, later.2)).map fun other => (one.1 ++ other.1, other.2) := by
      funext text
      rw [runsSplits]
      refine List.flatMap_congr fun one _ => ?_
      rw [List.map_flatMap]
      simp only [List.map_map]
      rfl
    rw [htypes, hsplits]
    exact hall

/-! ## From parts to runs -/

theorem bind_eq_ok {ε α β : Type} {first : Except ε α} {next : α → Except ε β} {value : β} :
    first >>= next = .ok value ↔ ∃ middle, first = .ok middle ∧ next middle = .ok value := by
  cases first with
  | error error =>
    constructor
    · intro h
      cases h
    · rintro ⟨_, h, _⟩
      cases h
  | ok middle =>
    constructor
    · exact fun h => ⟨middle, rfl, h⟩
    · rintro ⟨_, heq, h⟩
      cases heq
      exact h

def Token.piece? : Token → Option Piece
  | .text written => some (.text written)
  | .optional start written => some (.optional start written)
  | _ => none

/-- A segment with a further token of its run. -/
def Segment.addToken (segment : Segment) (token : Token) : Segment :=
  match token with
  | .text written => segment.addPiece (.text written)
  | .optional start written => segment.addPiece (.optional start written)
  | .separator offset => segment.separate offset
  | _ => segment

def piecesOf (branch : List Token) : Branch :=
  branch.filterMap Token.piece?

theorem branches_addTokens {run : List Token} (h : ∀ token ∈ run, token.isBound = false)
    (segment : Segment) :
    (run.foldl Segment.addToken segment).branches =
      segment.closed.map (·.1) ++
        ((branchesOf run).map piecesOf).modifyHead (segment.last ++ ·) := by
  induction run generalizing segment with
  | nil => simp [Segment.branches, branchesOf, piecesOf]
  | cons token run ih =>
    have hrun := ih fun other hother => h other (List.mem_cons_of_mem _ hother)
    obtain ⟨head, others, hbranches⟩ := List.exists_cons_of_ne_nil (branchesOf_ne_nil run)
    rw [List.foldl_cons, hrun, hbranches]
    cases token with
    | text written =>
      have hcons : branchesOf (.text written :: run) = (.text written :: head) :: others :=
        congrArg (List.modifyHead _) hbranches
      rw [hcons]
      simp [Segment.addToken, Segment.addPiece, piecesOf, Token.piece?]
    | blank written => cases h _ (List.mem_cons_self ..)
    | «optional» start written =>
      have hcons : branchesOf (.optional start written :: run) =
          (.optional start written :: head) :: others :=
        congrArg (List.modifyHead _) hbranches
      rw [hcons]
      simp [Segment.addToken, Segment.addPiece, piecesOf, Token.piece?]
    | parameter start name => cases h _ (List.mem_cons_self ..)
    | separator offset =>
      rw [branchesOf, hbranches]
      simp [Segment.addToken, Segment.separate, piecesOf]

theorem Segment.regexes_eq (segment : Segment) :
    segment.regexes =
      match segment.branches with
      | [branch] => branch.flatMap Piece.regexes
      | branches => [oneOf (branches.map branchRegex)] := by
  obtain ⟨closed, last⟩ := segment
  cases closed with
  | nil => rfl
  | cons first closed => cases closed <;> rfl

theorem flatMap_piecesOf {branch : List Token} (h : ∀ token ∈ branch, token.Plain) :
    (piecesOf branch).flatMap Piece.regexes = branch.flatMap (Token.regexes 0) := by
  induction branch with
  | nil => rfl
  | cons token branch ih =>
    have hplain := h token (List.mem_cons_self ..)
    have hbranch := ih fun other hother => h other (List.mem_cons_of_mem _ hother)
    cases token with
    | text written => exact congrArg (_ ++ ·) hbranch
    | blank written => cases hplain.2
    | «optional» start written => exact congrArg (_ ++ ·) hbranch
    | parameter start name => cases hplain.2
    | separator offset => cases hplain.1

theorem regexes_addTokens {run : List Token} (h : AreLoose run) :
    (run.foldl Segment.addToken .empty).regexes = runRegexes run := by
  have hbranches : (run.foldl Segment.addToken .empty).branches =
      (branchesOf run).map piecesOf := by
    rw [branches_addTokens (fun token htoken => (h token htoken).2)]
    obtain ⟨head, others, hbranches⟩ := List.exists_cons_of_ne_nil (branchesOf_ne_nil run)
    rw [hbranches]
    rfl
  rw [Segment.regexes_eq, hbranches, runRegexes]
  have hplain := h.plain
  match hcases : branchesOf run with
  | [] => exact absurd hcases (branchesOf_ne_nil run)
  | [branch] =>
    rw [hcases] at hplain
    exact flatMap_piecesOf (hplain branch (List.mem_cons_self ..))
  | first :: second :: others =>
    rw [hcases] at hplain
    refine congrArg (fun regexes => [oneOf regexes]) ?_
    rw [← List.map_cons, List.map_map]
    refine List.map_congr_left fun branch hbranch => ?_
    exact congrArg concat (flatMap_piecesOf (hplain branch hbranch))

/-- A bounding token completes the segment before it, and is a part of its own. -/
theorem partsAfter_bound {segment : Segment} {token : Token} {tokens : List Token}
    {parts : List Part} (hbound : token.isBound = true)
    (h : partsAfter segment (token :: tokens) = .ok parts) :
    ∃ part rest, partsAfter .empty tokens = .ok rest ∧ parts = .segment segment :: part :: rest ∧
      token.Proper ∧ part.parameter? = token.type? ∧
      ∀ number, Part.regexes number (part :: rest) =
        token.regexes number ++ Part.regexes (number + (typesOf [token]).length) rest := by
  cases token with
  | text written => cases hbound
  | «optional» start written => cases hbound
  | separator offset => cases hbound
  | blank written =>
    simp only [partsAfter, bind_eq_ok] at h
    obtain ⟨_, _, rest, hrest, heq⟩ := h
    cases heq
    exact ⟨.blank written, rest, hrest, rfl, trivial, rfl, fun number => rfl⟩
  | parameter start name =>
    simp only [partsAfter, bind_eq_ok] at h
    obtain ⟨_, _, type, htype, rest, hrest, heq⟩ := h
    cases heq
    unfold parameterType at htype
    split at htype
    · next other hname =>
      cases htype
      refine ⟨.parameter type, rest, hrest, rfl, ?_, hname.symm, fun number => ?_⟩
      · exact Option.isSome_iff_exists.2 ⟨type, hname⟩
      · have htypes : typesOf [.parameter start name] = [type] := by
          rw [typesOf, List.filterMap_cons, Token.type?, hname]
          rfl
        rw [htypes, Token.regexes, hname]
        rfl
    · cases htype

/-- The parts that a segment and the tokens after it make up. -/
theorem regexes_of_partsAfter {segment : Segment} {tokens : List Token} {parts : List Part}
    (hloose : ∀ other ∈ (runs tokens).2, AreLoose other.2)
    (h : partsAfter segment tokens = .ok parts) :
    (∀ other ∈ (runs tokens).2, other.1.Proper) ∧
      Part.parameters parts = typesOf ((runs tokens).2.map (·.1)) ∧
      ∀ number, Part.regexes number parts =
        ((runs tokens).1.foldl Segment.addToken segment).regexes ++
          laterRegexes number (runs tokens).2 := by
  induction tokens generalizing segment parts with
  | nil =>
    simp only [partsAfter, bind_eq_ok] at h
    obtain ⟨_, _, heq⟩ := h
    cases heq
    exact ⟨by simp [runs], rfl, fun number => rfl⟩
  | cons token tokens ih =>
    cases hbound : token.isBound with
    | false =>
      cases token with
      | text written => exact ih hloose h
      | blank written => cases hbound
      | «optional» start written => exact ih hloose h
      | parameter start name => cases hbound
      | separator offset => exact ih hloose h
    | true =>
      obtain ⟨part, rest, hrest, rfl, hproper, htype, hpart⟩ := partsAfter_bound hbound h
      have hruns : runs (token :: tokens) = ([], (token, (runs tokens).1) :: (runs tokens).2) := by
        rw [runs, if_pos hbound]
      rw [hruns] at hloose ⊢
      obtain ⟨hothers, hparameters, hregexes⟩ :=
        ih (fun other hother => hloose other (List.mem_cons_of_mem _ hother)) hrest
      refine ⟨?_, ?_, fun number => ?_⟩
      · intro other hother
        rcases List.mem_cons.1 hother with rfl | hother
        · exact hproper
        · exact hothers other hother
      · rw [Part.parameters] at hparameters ⊢
        rw [List.filterMap_cons, List.filterMap_cons, htype, hparameters]
        rfl
      · have hrun := regexes_addTokens (hloose _ (List.mem_cons_self ..))
        rw [Part.regexes, hpart, hregexes, hrun]
        rfl

end Stepbook.Expression
