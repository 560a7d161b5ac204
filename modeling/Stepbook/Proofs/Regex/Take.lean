import Stepbook.Proofs.Expression.Split
import Stepbook.Proofs.Regex.Ends

/-! # Texts that regular expressions take

Where no anchors and no groups are involved, a regular expression just takes a piece from the front
of a text. Which pieces, and in which order, is all there is to say of it.

* `Place.after`, `Cursor.after`: behind a piece of text.
* `Takes`: the pieces that an expression takes, the preferred one first.
* `endsAll`: the ends of expressions in a row.
* `anyOf`, `someOf`: runs of characters of a set, the longest first.
* `takes_star`, `takes_plus`, `endsAll_literals`: what runs of characters and literal texts take.
-/

namespace Stepbook.Regex
set_option autoImplicit false
open Expression (prefixes)

/-! ## Cursors behind a piece -/

def Place.after (place : Place) (piece : List Char) : Place where
  before := piece.getLast?.or place.before
  rest := place.rest.drop piece.length
  offset := place.offset + piece.length

theorem Place.after_append (place : Place) (first second : List Char) :
    place.after (first ++ second) = (place.after first).after second := by
  have hbefore : (first ++ second).getLast?.or place.before =
      second.getLast?.or (first.getLast?.or place.before) := by
    rw [List.getLast?_append, Option.or_assoc]
  have hrest : place.rest.drop (first ++ second).length =
      (place.rest.drop first.length).drop second.length := by
    rw [List.drop_drop, List.length_append]
  have hoffset : place.offset + (first ++ second).length =
      place.offset + first.length + second.length := by
    rw [List.length_append, Nat.add_assoc]
  simp only [Place.after, hbefore, hrest, hoffset]

def Cursor.after (cursor : Cursor) (piece : List Char) : Cursor :=
  { cursor with place := cursor.place.after piece }

@[simp] theorem Place.after_nil (place : Place) : place.after [] = place := rfl

@[simp] theorem Cursor.after_nil (cursor : Cursor) : cursor.after [] = cursor := rfl

@[simp] theorem Cursor.place_after (cursor : Cursor) (piece : List Char) :
    (cursor.after piece).place = cursor.place.after piece := rfl

theorem Cursor.after_append (cursor : Cursor) (first second : List Char) :
    cursor.after (first ++ second) = (cursor.after first).after second := by
  simp only [Cursor.after, Place.after_append]

/-! ## Expressions in a row -/

def endsAll : List Regex → Cursor → List Cursor
  | [], cursor => [cursor]
  | regex :: rest, cursor => (regex.ends cursor).flatMap (endsAll rest)

theorem endsAll_append (regexes others : List Regex) (cursor : Cursor) :
    endsAll (regexes ++ others) cursor = (endsAll regexes cursor).flatMap (endsAll others) := by
  induction regexes generalizing cursor with
  | nil => exact (List.flatMap_singleton _ _).symm
  | cons regex regexes ih =>
    rw [List.cons_append, endsAll, endsAll, List.flatMap_assoc]
    exact congrArg (regex.ends cursor).flatMap (funext ih)

theorem ends_concat (regexes : List Regex) (cursor : Cursor) :
    (concat regexes).ends cursor = endsAll regexes cursor := by
  induction regexes generalizing cursor with
  | nil => rfl
  | cons regex regexes ih =>
    cases regexes with
    | nil => exact (List.flatMap_singleton' _).symm
    | cons other regexes =>
      rw [endsAll, concat, ends]
      · exact congrArg (regex.ends cursor).flatMap (funext ih)
      · simp

theorem ends_oneOf {regexes : List Regex} (h : regexes ≠ []) (cursor : Cursor) :
    (oneOf regexes).ends cursor = regexes.flatMap fun regex => regex.ends cursor := by
  induction regexes with
  | nil => exact absurd rfl h
  | cons regex regexes ih =>
    cases regexes with
    | nil => exact (List.append_nil _).symm
    | cons other regexes =>
      rw [List.flatMap_cons, oneOf, ends]
      · exact congrArg (regex.ends cursor ++ ·) (ih (by simp))
      · simp

/-- A repetition once or not at all. -/
theorem ends_optional (body : Regex) (cursor : Cursor) :
    (Regex.iterate body 0 (some 1) true).ends cursor = body.ends cursor ++ [cursor] := by
  simp [ends, exactly, upTo]

/-! ## Taking pieces -/

/-- The expression leads behind the pieces that stand at the front of a text. -/
def Takes (regex : Regex) (pieces : List Char → List (List Char)) : Prop :=
  ∀ cursor, regex.ends cursor = (pieces cursor.place.rest).map cursor.after

/-- Pieces made of one piece and another one after it. -/
def followed (first second : List Char → List (List Char)) (text : List Char) :
    List (List Char) :=
  (first text).flatMap fun piece => (second (text.drop piece.length)).map (piece ++ ·)

theorem Takes.congr {regex : Regex} {pieces other : List Char → List (List Char)}
    (h : regex.Takes pieces) (heq : ∀ text, pieces text = other text) : regex.Takes other :=
  funext heq ▸ h

theorem Takes.cat {left right : Regex} {first second : List Char → List (List Char)}
    (hleft : left.Takes first) (hright : right.Takes second) :
    (Regex.cat left right).Takes (followed first second) := by
  intro cursor
  rw [ends, hleft cursor, followed, List.map_flatMap, List.flatMap_map]
  apply List.flatMap_congr
  intro piece _
  rw [hright (cursor.after piece), List.map_map]
  exact List.map_congr_left fun later _ => (cursor.after_append piece later).symm

theorem Takes.alt {left right : Regex} {first second : List Char → List (List Char)}
    (hleft : left.Takes first) (hright : right.Takes second) :
    (Regex.alt left right).Takes fun text => first text ++ second text := by
  intro cursor
  rw [ends, hleft cursor, hright cursor, List.map_append]

theorem Takes.optional {body : Regex} {pieces : List Char → List (List Char)}
    (h : body.Takes pieces) :
    (Regex.iterate body 0 (some 1) true).Takes fun text => pieces text ++ [[]] := by
  intro cursor
  rw [ends_optional, h cursor, List.map_append]
  rfl

/-- One character of a set. -/
def oneOfSet (set : CharSet) : List Char → List (List Char)
  | [] => []
  | c :: _ => if set.contains c then [[c]] else []

theorem takes_chars (set : CharSet) : (Regex.chars set).Takes (oneOfSet set) := by
  rintro ⟨⟨before, rest, offset⟩, entered, captured⟩
  cases rest with
  | nil => rfl
  | cons c rest =>
    simp only [ends, Cursor.take?, Place.take?, oneOfSet]
    split <;> rfl

/-! ## Runs of characters -/

theorem filter_prefixes_cons (accepts : List Char → Bool) (c : Char) (rest : List Char) :
    (prefixes (c :: rest)).filter accepts =
      ((prefixes rest).filter fun piece => accepts (c :: piece)).map (c :: ·) ++
        [[]].filter accepts := by
  rw [prefixes, List.filter_append, List.filter_map]
  rfl

/-- Where the empty piece is not accepted. -/
theorem filter_prefixes_cons_of_nil (accepts : List Char → Bool) (h : accepts [] = false) (c : Char)
    (rest : List Char) :
    (prefixes (c :: rest)).filter accepts =
      ((prefixes rest).filter fun piece => accepts (c :: piece)).map (c :: ·) := by
  rw [filter_prefixes_cons, List.filter_singleton, h]
  exact List.append_nil _

/-- Any number of characters of a set, as many as possible first. -/
def anyOf (set : CharSet) (text : List Char) : List (List Char) :=
  (prefixes text).filter (·.all set.contains)

/-- At least one character of a set, as many as possible first. -/
def someOf (set : CharSet) (text : List Char) : List (List Char) :=
  (prefixes text).filter fun piece => !piece.isEmpty && piece.all set.contains

theorem anyOf_cons (set : CharSet) (c : Char) (rest : List Char) :
    anyOf set (c :: rest) =
      (if set.contains c then (anyOf set rest).map (c :: ·) else []) ++ [[]] := by
  rw [anyOf, filter_prefixes_cons]
  cases hset : set.contains c with
  | false =>
    simp only [List.all_cons, hset, Bool.false_and, List.filter_false, List.map_nil]
    rfl
  | true =>
    simp only [List.all_cons, hset, Bool.true_and]
    rfl

theorem someOf_cons (set : CharSet) (c : Char) (rest : List Char) :
    someOf set (c :: rest) =
      if set.contains c then (anyOf set rest).map (c :: ·) else [] := by
  rw [someOf, filter_prefixes_cons]
  cases hset : set.contains c with
  | false =>
    simp only [List.all_cons, hset, Bool.false_and, Bool.and_false, List.filter_false,
      List.map_nil]
    rfl
  | true =>
    simp only [List.all_cons, hset, Bool.true_and, List.isEmpty_cons, Bool.not_false]
    exact List.append_nil _

theorem anyOf_eq (set : CharSet) (text : List Char) :
    anyOf set text = someOf set text ++ [[]] := by
  cases text with
  | nil => rfl
  | cons c rest => rw [anyOf_cons, someOf_cons]

theorem takes_star (set : CharSet) :
    (Regex.iterate (.chars set) 0 none true).Takes (anyOf set) := by
  have hahead : Ahead 1 (Regex.chars set).ends := ahead_ends_of_not_canBeEmpty rfl
  have hstar : ∀ cursor, (Regex.iterate (.chars set) 0 none true).ends cursor =
      anyTimes true (Regex.chars set).ends cursor := by
    intro cursor
    simp [ends, exactly]
  rintro ⟨⟨before, rest, offset⟩, entered, captured⟩
  rw [hstar]
  induction rest generalizing before offset with
  | nil => rfl
  | cons c rest ih =>
    rw [anyTimes_eq hahead, if_pos rfl, takes_chars set, anyOf_cons]
    simp only [oneOfSet]
    cases hset : set.contains c with
    | false => rfl
    | true =>
      rw [if_pos rfl, if_pos rfl, List.map_cons, List.map_nil, List.flatMap_singleton,
        List.map_append, List.map_map]
      refine congrArg₂ (· ++ ·) ((ih (some c) (offset + 1)).trans ?_) rfl
      exact List.map_congr_left fun piece _ =>
        (Cursor.after_append ⟨⟨before, c :: rest, offset⟩, entered, captured⟩ [c] piece).symm

theorem followed_oneOfSet_cons (set : CharSet) (next : List Char → List (List Char)) (c : Char)
    (rest : List Char) :
    followed (oneOfSet set) next (c :: rest) =
      if set.contains c then (next rest).map (c :: ·) else [] := by
  rw [followed, oneOfSet]
  cases set.contains c with
  | false => rfl
  | true => exact List.flatMap_singleton ..

theorem followed_anyOf_cons (set : CharSet) (next : List Char → List (List Char)) (c : Char)
    (rest : List Char) :
    followed (anyOf set) next (c :: rest) =
      (if set.contains c then (followed (anyOf set) next rest).map (c :: ·) else []) ++
        next (c :: rest) := by
  have hnil : followed (fun _ => [[]]) next (c :: rest) = next (c :: rest) := by
    simp [followed]
  rw [followed, anyOf_cons, List.flatMap_append]
  refine congrArg₂ (· ++ ·) ?_ hnil
  cases set.contains c with
  | false => rfl
  | true =>
    rw [if_pos rfl, if_pos rfl, followed, List.flatMap_map, List.map_flatMap]
    simp only [List.map_map]
    rfl

theorem followed_someOf_cons (set : CharSet) (next : List Char → List (List Char)) (c : Char)
    (rest : List Char) :
    followed (someOf set) next (c :: rest) =
      if set.contains c then (followed (anyOf set) next rest).map (c :: ·) else [] := by
  rw [followed, someOf_cons]
  cases set.contains c with
  | false => rfl
  | true =>
    rw [if_pos rfl, if_pos rfl, followed, List.flatMap_map, List.map_flatMap]
    simp only [List.map_map]
    rfl

theorem takes_plus (set : CharSet) :
    (Regex.iterate (.chars set) 1 none true).Takes (someOf set) := by
  have hcat := (takes_chars set).cat (takes_star set)
  have hplus : ∀ cursor, (Regex.iterate (.chars set) 1 none true).ends cursor =
      (Regex.cat (.chars set) (.iterate (.chars set) 0 none true)).ends cursor := by
    intro cursor
    simp [ends, exactly]
  refine Takes.congr (fun cursor => (hplus cursor).trans (hcat cursor)) fun text => ?_
  cases text with
  | nil => rfl
  | cons c rest => rw [followed_oneOfSet_cons, someOf_cons]

/-- Literal characters, one after another. -/
theorem endsAll_literals (chars : List Char) (cursor : Cursor) :
    endsAll (chars.map literal) cursor =
      ((prefixes cursor.place.rest).filter (· == chars)).map cursor.after := by
  obtain ⟨⟨before, rest, offset⟩, entered, captured⟩ := cursor
  induction chars generalizing before rest offset with
  | nil =>
    have hnil : ∀ text : List Char, (prefixes text).filter (· == []) = [[]] := by
      intro text
      cases text with
      | nil => rfl
      | cons c text => simp [filter_prefixes_cons]
    rw [hnil]
    rfl
  | cons c chars ih =>
    rw [List.map_cons, endsAll, literal, takes_chars (.single c)]
    cases rest with
    | nil => simp [oneOfSet, prefixes]
    | cons d rest =>
      rw [filter_prefixes_cons]
      simp only [oneOfSet, CharSet.contains_single]
      cases hsame : c == d with
      | false =>
        rw [beq_eq_false_iff_ne] at hsame
        simp [Ne.symm hsame]
      | true =>
        rw [beq_iff_eq] at hsame
        subst hsame
        have hshort : [[]].filter (· == c :: chars) = ([] : List (List Char)) := rfl
        have hlonger : (fun piece => c :: piece == c :: chars) = (· == chars) := by
          funext piece
          rw [List.cons_beq_cons, beq_self_eq_true, Bool.true_and]
        rw [if_pos rfl, List.map_cons, List.map_nil, List.flatMap_singleton, hshort, hlonger,
          List.append_nil, List.map_map]
        refine (ih (some c) rest (offset + 1)).trans ?_
        exact List.map_congr_left fun piece _ =>
          (Cursor.after_append ⟨⟨before, c :: rest, offset⟩, entered, captured⟩ [c] piece).symm

end Stepbook.Regex
