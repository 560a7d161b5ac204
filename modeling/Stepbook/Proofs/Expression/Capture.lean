import Stepbook.Proofs.Expression.Split
import Stepbook.Proofs.Regex.Take

/-! # Captured pieces

A cursor that follows a split through a text captures the piece of each placeholder in a group of
its own, and nothing else.

* `Cursor.capture`: a cursor behind a piece that a group has captured.
* `Cursor.through`: a cursor behind the pieces of a split.
* `captured?_through_of_le`: the groups before a split stay as they are.
* `map_captured?_through`: the groups of a split hold the pieces of its placeholders.
-/

namespace Stepbook
set_option autoImplicit false

open Expression

section
variable {token : Token} (piece : List Char) (split : Split)

theorem captures_cons_of_none (h : token.type? = none) :
    Split.captures ((token, piece) :: split) = Split.captures split := by
  simp [Split.captures, h]

theorem captures_cons_of_some {type : ParameterType} (h : token.type? = some type) :
    Split.captures ((token, piece) :: split) = (piece, type) :: Split.captures split := by
  simp [Split.captures, h]

end

namespace Regex.Cursor

/-! ## Cursors behind splits -/

def capture (cursor : Cursor) (number : Nat) (piece : List Char) : Cursor :=
  (((cursor.enter number).after piece).leave number)

/-- `number` groups stand before the split. -/
def through (number : Nat) : Split → Cursor → Cursor
  | [], cursor => cursor
  | (token, piece) :: split, cursor =>
    match token.type? with
    | none => through number split (cursor.after piece)
    | some _ => through (number + 1) split (cursor.capture (number + 1) piece)

theorem capture_eq (cursor : Cursor) (number : Nat) (piece : List Char) :
    cursor.capture number piece =
      ⟨cursor.place.after piece, (number, cursor.place) :: cursor.entered,
        (number, cursor.place, cursor.place.after piece) :: cursor.captured⟩ := by
  simp [capture, leave, enter, after]

@[simp] theorem place_capture (cursor : Cursor) (number : Nat) (piece : List Char) :
    (cursor.capture number piece).place = cursor.place.after piece := by
  rw [capture_eq]

theorem place_through (number : Nat) (split : Split) (cursor : Cursor) :
    (cursor.through number split).place = cursor.place.after (split.map (·.2)).flatten := by
  induction split generalizing number cursor with
  | nil => rfl
  | cons part split ih =>
    obtain ⟨token, piece⟩ := part
    rw [through, List.map_cons, List.flatten_cons, Place.after_append]
    split
    · rw [ih, place_after]
    · rw [ih, place_capture]

section
variable {token : Token} (piece : List Char) (number : Nat) (split : Split) (cursor : Cursor)

theorem through_cons_of_none (h : token.type? = none) :
    cursor.through number ((token, piece) :: split) =
      (cursor.after piece).through number split := by
  rw [through, h]

theorem through_cons_of_some {type : ParameterType} (h : token.type? = some type) :
    cursor.through number ((token, piece) :: split) =
      (cursor.capture (number + 1) piece).through (number + 1) split := by
  rw [through, h]

end

theorem through_append (number : Nat) (first second : Split) (cursor : Cursor) :
    cursor.through number (first ++ second) =
      (cursor.through number first).through (number + first.captures.length) second := by
  induction first generalizing number cursor with
  | nil => rfl
  | cons part first ih =>
    obtain ⟨token, piece⟩ := part
    rw [List.cons_append]
    cases htype : token.type? with
    | none =>
      rw [through_cons_of_none _ _ _ _ htype, through_cons_of_none _ _ _ _ htype,
        captures_cons_of_none _ _ htype, ih]
    | some type =>
      have hcount : number + 1 + (Split.captures first).length =
          number + ((Split.captures first).length + 1) := by
        omega
      rw [through_cons_of_some _ _ _ _ htype, through_cons_of_some _ _ _ _ htype,
        captures_cons_of_some _ _ htype, ih, List.length_cons, hcount]

/-! ## Groups -/

theorem captured?_after (cursor : Cursor) (piece : List Char) (number : Nat) :
    (cursor.after piece).captured? number = cursor.captured? number := rfl

theorem captured?_capture_of_ne {number other : Nat} (h : other ≠ number) (cursor : Cursor)
    (piece : List Char) :
    (cursor.capture number piece).captured? other = cursor.captured? other := by
  rw [capture_eq, captured?, captured?, List.lookup_cons, beq_false_of_ne h]

/-- A group that has captured a piece at the front of what was left holds that piece. -/
theorem captured?_capture {cursor : Cursor} {piece rest : List Char}
    (h : cursor.place.rest = piece ++ rest) (number : Nat) :
    (cursor.capture number piece).captured? number = some piece := by
  have htext : cursor.place.textTo (cursor.place.after piece) = piece := by
    unfold Place.textTo Place.after
    rw [Nat.add_sub_cancel_left, h, List.take_left]
  rw [capture_eq, captured?, List.lookup_cons, beq_self_eq_true]
  exact congrArg some htext

theorem captured?_through_of_le {number other : Nat} (h : other ≤ number) (split : Split)
    (cursor : Cursor) : (cursor.through number split).captured? other = cursor.captured? other := by
  induction split generalizing number cursor with
  | nil => rfl
  | cons part split ih =>
    obtain ⟨token, piece⟩ := part
    rw [through]
    split
    · rw [ih h, captured?_after]
    · rw [ih (by omega), captured?_capture_of_ne (by omega)]

/-- The groups of a split that stands at the front of what was left. -/
theorem map_captured?_through (number : Nat) (split : Split) {cursor : Cursor} {rest : List Char}
    (h : cursor.place.rest = (split.map (·.2)).flatten ++ rest) :
    (List.range' (number + 1) split.captures.length).map
        (cursor.through number split).captured? =
      split.captures.map fun capture => some capture.1 := by
  induction split generalizing number cursor with
  | nil => rfl
  | cons part split ih =>
    obtain ⟨token, piece⟩ := part
    rw [List.map_cons, List.flatten_cons, List.append_assoc] at h
    have hafter : (cursor.place.after piece).rest = (split.map (·.2)).flatten ++ rest := by
      rw [Place.after, h, List.drop_left]
    cases htype : token.type? with
    | none =>
      have hcursor : (cursor.after piece).place.rest = (split.map (·.2)).flatten ++ rest := hafter
      rw [through_cons_of_none _ _ _ _ htype, captures_cons_of_none _ _ htype, ih number hcursor]
    | some type =>
      have hcursor : (cursor.capture (number + 1) piece).place.rest =
          (split.map (·.2)).flatten ++ rest := by
        rw [place_capture, hafter]
      rw [through_cons_of_some _ _ _ _ htype, captures_cons_of_some _ _ htype, List.length_cons,
        List.range'_succ, List.map_cons, List.map_cons, ih (number + 1) hcursor,
        captured?_through_of_le (Nat.le_refl _), captured?_capture h]

end Regex.Cursor

end Stepbook
