import Stepbook.Proofs.Expression.PatternRegex
import Stepbook.Proofs.Regex.Ends

/-! # Groups of parts

The regular expression of parts has one group for each placeholder, numbered from left to right, and
only repeats what takes characters.

* `groupCounts`: the highest number of a group in expressions in a row.
* `Flat`: without groups.
* `groupCount_regex`, `productive_regex`: the regular expression of parts.
-/

namespace Stepbook.Expression
set_option autoImplicit false

open Regex

/-! ## Expressions in a row -/

theorem productive_concat {regexes : List Regex} (h : ∀ regex ∈ regexes, regex.Productive) :
    (concat regexes).Productive := by
  induction regexes with
  | nil => trivial
  | cons regex regexes ih =>
    have hregexes := ih fun other hother => h other (List.mem_cons_of_mem _ hother)
    cases regexes with
    | nil => exact h regex (List.mem_cons_self ..)
    | cons other regexes => exact ⟨h regex (List.mem_cons_self ..), hregexes⟩

/-- The highest number of a group. -/
def groupCounts (regexes : List Regex) : Nat :=
  (regexes.map groupCount).foldr max 0

theorem groupCounts_append (regexes others : List Regex) :
    groupCounts (regexes ++ others) = max (groupCounts regexes) (groupCounts others) := by
  induction regexes with
  | nil => exact (Nat.zero_max _).symm
  | cons regex regexes ih =>
    rw [List.cons_append, groupCounts, List.map_cons, List.foldr_cons]
    exact (congrArg (max regex.groupCount) ih).trans (Nat.max_assoc ..).symm

theorem groupCount_concat (regexes : List Regex) :
    (concat regexes).groupCount = groupCounts regexes := by
  induction regexes with
  | nil => rfl
  | cons regex regexes ih =>
    cases regexes with
    | nil => exact (Nat.max_zero _).symm
    | cons other regexes => exact congrArg (max regex.groupCount) ih

/-! ## Expressions without groups -/

/-- Without groups, and without repetitions that take no character. -/
def Flat (regex : Regex) : Prop :=
  regex.Productive ∧ regex.groupCount = 0

theorem groupCounts_eq_zero {regexes : List Regex} (h : ∀ regex ∈ regexes, Flat regex) :
    groupCounts regexes = 0 := by
  induction regexes with
  | nil => rfl
  | cons regex regexes ih =>
    exact Nat.max_eq_zero_iff.2 ⟨(h regex (List.mem_cons_self ..)).2,
      ih fun other hother => h other (List.mem_cons_of_mem _ hother)⟩

theorem flat_concat {regexes : List Regex} (h : ∀ regex ∈ regexes, Flat regex) :
    Flat (concat regexes) := by
  refine ⟨productive_concat fun regex hregex => (h regex hregex).1, ?_⟩
  rw [groupCount_concat, groupCounts_eq_zero h]

theorem flat_oneOf {regexes : List Regex} (h : ∀ regex ∈ regexes, Flat regex) :
    Flat (oneOf regexes) := by
  induction regexes with
  | nil => exact ⟨trivial, rfl⟩
  | cons regex regexes ih =>
    have hregex := h regex (List.mem_cons_self ..)
    have hregexes := ih fun other hother => h other (List.mem_cons_of_mem _ hother)
    cases regexes with
    | nil => exact hregex
    | cons other regexes =>
      exact ⟨⟨hregex.1, hregexes.1⟩, Nat.max_eq_zero_iff.2 ⟨hregex.2, hregexes.2⟩⟩

theorem flat_literals (written : List Char) : ∀ regex ∈ written.map literal, Flat regex := by
  intro regex hregex
  obtain ⟨c, _, rfl⟩ := List.mem_map.1 hregex
  exact ⟨trivial, rfl⟩

theorem flat_piece (piece : Piece) : ∀ regex ∈ piece.regexes, Flat regex := by
  cases piece with
  | text written => exact flat_literals written
  | «optional» start written =>
    intro regex hregex
    rw [List.mem_singleton.1 hregex]
    exact flat_concat (flat_literals written)

theorem flat_segment (segment : Segment) : ∀ regex ∈ segment.regexes, Flat regex := by
  have hbranch : ∀ branch : Branch, ∀ regex ∈ branch.flatMap Piece.regexes, Flat regex := by
    intro branch regex hregex
    obtain ⟨piece, _, hregex⟩ := List.mem_flatMap.1 hregex
    exact flat_piece piece regex hregex
  unfold Segment.regexes
  split
  · exact hbranch segment.last
  · intro regex hregex
    rw [List.mem_singleton.1 hregex]
    refine flat_oneOf fun choice hchoice => ?_
    obtain ⟨branch, _, rfl⟩ := List.mem_map.1 hchoice
    exact flat_concat (hbranch branch)

theorem flat_parameter (type : ParameterType) : Flat type.regex := by
  cases type <;> exact ⟨by simp [ParameterType.regex, Productive, Regex.sign, Regex.digits,
    Regex.quoted, concat, oneOf, literal, canBeEmpty], rfl⟩

/-! ## Parts -/

theorem productive_regexes (parts : List Part) (number : Nat) :
    ∀ regex ∈ Part.regexes number parts, regex.Productive := by
  induction parts generalizing number with
  | nil => simp [Part.regexes]
  | cons part parts ih =>
    intro regex hregex
    cases part with
    | blank written =>
      rcases List.mem_append.1 hregex with hregex | hregex
      · exact (flat_literals written regex hregex).1
      · exact ih number regex hregex
    | parameter type =>
      rcases List.mem_cons.1 hregex with rfl | hregex
      · exact (flat_parameter type).1
      · exact ih (number + 1) regex hregex
    | segment choice =>
      rcases List.mem_append.1 hregex with hregex | hregex
      · exact (flat_segment choice regex hregex).1
      · exact ih number regex hregex

/-- Groups are numbered on, one for each placeholder. -/
theorem max_groupCounts_regexes (parts : List Part) (number : Nat) :
    max number (groupCounts (Part.regexes number parts)) =
      number + (Part.parameters parts).length := by
  induction parts generalizing number with
  | nil => exact Nat.max_zero _
  | cons part parts ih =>
    cases part with
    | blank written =>
      rw [Part.regexes, groupCounts_append, groupCounts_eq_zero (flat_literals written),
        Nat.zero_max]
      exact ih number
    | parameter type =>
      have hgroup : (Regex.group (number + 1) type.regex).groupCount = number + 1 := by
        rw [groupCount, (flat_parameter type).2, Nat.max_zero]
      have hcounts : groupCounts (Part.regexes number (.parameter type :: parts)) =
          max (number + 1) (groupCounts (Part.regexes (number + 1) parts)) := by
        rw [Part.regexes, groupCounts, List.map_cons, List.foldr_cons, hgroup, groupCounts]
      have hlength : (Part.parameters (.parameter type :: parts)).length =
          (Part.parameters parts).length + 1 := rfl
      rw [hcounts, ih (number + 1), hlength]
      omega
    | segment choice =>
      rw [Part.regexes, groupCounts_append, groupCounts_eq_zero (flat_segment choice),
        Nat.zero_max]
      exact ih number

theorem groupCount_regex (parts : List Part) :
    (Part.regex parts).groupCount = (Part.parameters parts).length := by
  have hall := max_groupCounts_regexes parts 0
  rw [Nat.zero_max, Nat.zero_add] at hall
  rw [Part.regex, groupCount_concat, groupCounts_append, ← hall]
  exact (congrArg (max · 0) (Nat.zero_max _)).trans (Nat.max_zero _)

theorem productive_regex (parts : List Part) : (Part.regex parts).Productive := by
  refine productive_concat fun regex hregex => ?_
  rcases List.mem_append.1 hregex with hregex | hregex
  · rcases List.mem_cons.1 hregex with rfl | hregex
    · trivial
    · exact productive_regexes parts 0 regex hregex
  · rw [List.mem_singleton.1 hregex]
    trivial

end Stepbook.Expression
