import Mathlib.Data.Finset.Prod
import Mathlib.Data.Finset.Range
import Stepbook.Regex.Match

/-! # Exploring a program with a memory of visited points

A program is explored best way first, and a point that has been followed is not followed again. Here
that memory is shown to change nothing: the answer is the first cursor that backtracking without
any memory would come to.

* `Dead program spot`: all ways on from a spot end without acceptance.
* `Finds program n ways c`: backtracking through `ways` first accepts at `c`, after `n` steps.
* `Outcome program ways result`: what backtracking through `ways` comes to.
* `Onto program ways later`: `ways` come to what `later` come to.
* `explore_eq`: exploration gives the outcome, if the fuel covers the points that are not visited.
-/

namespace Stepbook.Regex
set_option autoImplicit false

/-! ## Places of one text -/

/-- The place behind the first `offset` characters of a text. -/
def Place.within (text : List Char) (offset : Nat) : Place :=
  ⟨(text.take offset).getLast?, text.drop offset, offset⟩

def Place.IsIn (text : List Char) (place : Place) : Prop :=
  place = .within text place.offset ∧ place.offset ≤ text.length

theorem Place.isIn_start (text : List Char) : (Place.start text).IsIn text := by
  simp [Place.IsIn, Place.start, Place.within]

theorem Place.IsIn.eq_of_offset {text : List Char} {place other : Place} (h : place.IsIn text)
    (hother : other.IsIn text) (hoffset : place.offset = other.offset) : place = other := by
  rw [h.1, hother.1, hoffset]

theorem Place.IsIn.take? {text : List Char} {place next : Place} {set : CharSet}
    (h : place.IsIn text) (hnext : place.take? set = some next) : next.IsIn text := by
  obtain ⟨hplace, hle⟩ := h
  have hrest : place.rest = text.drop place.offset := congrArg Place.rest hplace
  unfold Place.take? at hnext
  split at hnext
  · cases hnext
  · next c rest hc =>
    split at hnext
    · cases hnext
      rw [hc] at hrest
      have hlt : place.offset < text.length := by
        have hlength := congrArg List.length hrest
        simp only [List.length_cons, List.length_drop] at hlength
        omega
      have hget := List.drop_eq_getElem_cons hlt
      rw [← hrest, List.cons.injEq] at hget
      refine ⟨?_, hlt⟩
      have htake : text.take (place.offset + 1) = text.take place.offset ++ [c] := by
        rw [List.take_add_one, List.getElem?_eq_getElem hlt, ← hget.1]
        rfl
      rw [Place.within, htake, List.getLast?_concat, hget.2]
    · cases hnext

/-! ## Spots -/

/-- An address of a program and a place there; what groups have captured is left out. -/
abbrev Spot := Nat × Place

def Way.spot (way : Way) : Spot :=
  (way.address, way.cursor.place)

/-- The ways on from a place, as spots. -/
def Instruction.onward (instruction : Instruction) (place : Place) : List Spot :=
  match instruction with
  | .jump next => [(next, place)]
  | .take set next => (place.take? set).toList.map fun place => (next, place)
  | .check condition next => if place.meets condition then [(next, place)] else []
  | .branch preferred other => [(preferred, place), (other, place)]
  | .enter _ next => [(next, place)]
  | .leave _ next => [(next, place)]
  | .accept => []

@[simp] theorem Cursor.place_leave (cursor : Cursor) (number : Nat) :
    (cursor.leave number).place = cursor.place := by
  unfold Cursor.leave
  split <;> rfl

/-- Where a way may lead does not depend on what has been captured. -/
theorem map_spot_follow (instruction : Instruction) (cursor : Cursor) :
    (instruction.follow cursor).map Way.spot = instruction.onward cursor.place := by
  cases instruction with
  | take set next =>
    simp only [Instruction.follow, Instruction.onward, Cursor.take?]
    cases cursor.place.take? set <;> simp [Way.spot]
  | check condition next =>
    have hmeets : cursor.meets condition = cursor.place.meets condition := rfl
    simp only [Instruction.follow, Instruction.onward, ← hmeets]
    by_cases h : cursor.meets condition = true
    · rw [if_pos h, if_pos h]
      rfl
    · rw [if_neg h, if_neg h]
      rfl
  | _ => simp [Instruction.follow, Instruction.onward, Way.spot, Cursor.enter]

theorem length_follow_le (instruction : Instruction) (cursor : Cursor) :
    (instruction.follow cursor).length ≤ 2 := by
  cases instruction with
  | take set next =>
    simp only [Instruction.follow]
    cases cursor.take? set <;> simp
  | check condition next =>
    simp only [Instruction.follow]
    split <;> simp
  | _ => simp [Instruction.follow]

theorem isIn_of_mem_onward {text : List Char} {instruction : Instruction} {place : Place}
    {spot : Spot} (h : place.IsIn text) (hspot : spot ∈ instruction.onward place) :
    spot.2.IsIn text := by
  cases instruction with
  | take set next =>
    simp only [Instruction.onward, List.mem_map, Option.mem_toList] at hspot
    obtain ⟨later, hlater, rfl⟩ := hspot
    exact h.take? hlater
  | check condition next =>
    simp only [Instruction.onward] at hspot
    split at hspot
    · rw [List.mem_singleton.1 hspot]
      exact h
    · cases hspot
  | branch preferred other =>
    simp only [Instruction.onward, List.mem_cons, List.not_mem_nil, or_false] at hspot
    rcases hspot with rfl | rfl <;> exact h
  | accept => cases hspot
  | _ =>
    simp only [Instruction.onward, List.mem_singleton] at hspot
    rw [hspot]
    exact h

theorem isIn_of_mem_follow {text : List Char} {instruction : Instruction} {cursor : Cursor}
    {way : Way} (h : cursor.place.IsIn text) (hway : way ∈ instruction.follow cursor) :
    way.cursor.place.IsIn text := by
  have hspot : way.spot ∈ instruction.onward cursor.place := by
    rw [← map_spot_follow]
    exact List.mem_map_of_mem hway
  exact isIn_of_mem_onward h hspot

/-! ## Backtracking -/

/-- All ways on from a spot come to an end, and none of them is accepted. -/
inductive Dead (program : Array Instruction) : Spot → Prop where
  | intro (spot : Spot)
      (refused : program[spot.1]? ≠ some .accept)
      (onward : ∀ instruction, program[spot.1]? = some instruction →
        ∀ next ∈ instruction.onward spot.2, Dead program next) :
      Dead program spot

/-- `Finds program n ways c`: the first of `ways` that is not dead leads, by its first way that is
not dead at each of `n` steps, to acceptance at the cursor `c`. -/
inductive Finds (program : Array Instruction) : Nat → List Way → Cursor → Prop where
  | accept {way : Way} {ways : List Way} {cursor : Cursor}
      (here : program[way.address]? = some .accept) (end_eq : way.cursor = cursor) :
      Finds program 0 (way :: ways) cursor
  | skip {n : Nat} {way : Way} {ways : List Way} {cursor : Cursor}
      (dead : Dead program way.spot) (rest : Finds program n ways cursor) :
      Finds program n (way :: ways) cursor
  | step {n : Nat} {way : Way} {ways : List Way} {cursor : Cursor} {instruction : Instruction}
      (here : program[way.address]? = some instruction) (goes : instruction ≠ .accept)
      (onward : Finds program n (instruction.follow way.cursor) cursor) :
      Finds program (n + 1) (way :: ways) cursor

/-- What backtracking through the ways comes to. -/
def Outcome (program : Array Instruction) (ways : List Way) : Option Cursor → Prop
  | some cursor => ∃ n, Finds program n ways cursor
  | none => ∀ way ∈ ways, Dead program way.spot

section
variable {program : Array Instruction}

theorem Finds.exists_not_dead {n : Nat} {ways : List Way} {cursor : Cursor}
    (h : Finds program n ways cursor) : ∃ way ∈ ways, ¬ Dead program way.spot := by
  induction h with
  | accept here _ =>
    refine ⟨_, List.mem_cons_self .., fun hdead => ?_⟩
    cases hdead with
    | intro _ refused _ => exact refused here
  | skip _ _ ih =>
    obtain ⟨way, hway, hlive⟩ := ih
    exact ⟨way, List.mem_cons_of_mem _ hway, hlive⟩
  | step here _ _ ih =>
    obtain ⟨next, hnext, hlive⟩ := ih
    refine ⟨_, List.mem_cons_self .., fun hdead => ?_⟩
    cases hdead with
    | intro _ _ onward =>
      refine hlive (onward _ here _ ?_)
      have hmap := List.mem_map_of_mem (f := Way.spot) hnext
      rwa [map_spot_follow] at hmap

theorem Finds.not_dead {n : Nat} {way : Way} {cursor : Cursor}
    (h : Finds program n [way] cursor) : ¬ Dead program way.spot := by
  obtain ⟨live, hmem, hlive⟩ := h.exists_not_dead
  rwa [List.mem_singleton.1 hmem] at hlive

theorem Finds.append {n : Nat} {ways : List Way} {cursor : Cursor}
    (h : Finds program n ways cursor) (others : List Way) :
    Finds program n (ways ++ others) cursor := by
  induction h with
  | accept here end_eq => exact .accept here end_eq
  | skip dead _ ih => exact .skip dead ih
  | step here goes onward _ => exact .step here goes onward

/-- The number of steps depends on the spots alone. -/
theorem Finds.steps_unique {n m : Nat} {ways others : List Way} {cursor other : Cursor}
    (h : Finds program n ways cursor) (hother : Finds program m others other)
    (hspots : ways.map Way.spot = others.map Way.spot) : n = m := by
  induction h generalizing m others other with
  | accept here end_eq =>
    cases hother with
    | accept _ _ => rfl
    | skip dead _ =>
      simp only [List.map_cons, List.cons.injEq] at hspots
      rw [← hspots.1] at dead
      exact absurd dead (Finds.accept here end_eq).not_dead
    | step here' goes _ =>
      simp only [List.map_cons, List.cons.injEq, Way.spot, Prod.mk.injEq] at hspots
      rw [← hspots.1.1, here, Option.some.injEq] at here'
      exact absurd here'.symm goes
  | skip dead hrest ih =>
    cases hother with
    | accept here' end_eq' =>
      simp only [List.map_cons, List.cons.injEq] at hspots
      rw [hspots.1] at dead
      exact absurd dead (Finds.accept here' end_eq').not_dead
    | skip _ hrest' =>
      simp only [List.map_cons, List.cons.injEq] at hspots
      exact ih hrest' hspots.2
    | step here' goes' onward' =>
      simp only [List.map_cons, List.cons.injEq] at hspots
      rw [hspots.1] at dead
      exact absurd dead (Finds.step here' goes' onward').not_dead
  | step here goes onward ih =>
    cases hother with
    | accept here' _ =>
      simp only [List.map_cons, List.cons.injEq, Way.spot, Prod.mk.injEq] at hspots
      rw [← hspots.1.1, here, Option.some.injEq] at here'
      exact absurd here' goes
    | skip dead' _ =>
      simp only [List.map_cons, List.cons.injEq] at hspots
      rw [← hspots.1] at dead'
      exact absurd dead' (Finds.step here goes onward).not_dead
    | step here' _ onward' =>
      simp only [List.map_cons, List.cons.injEq, Way.spot, Prod.mk.injEq] at hspots
      rw [← hspots.1.1, here, Option.some.injEq] at here'
      subst here'
      have hsame := ih onward' (by rw [map_spot_follow, map_spot_follow, hspots.1.2])
      rw [hsame]

/-! ## Outcomes -/

@[simp] theorem outcome_nil : Outcome program [] none := by
  intro way hway
  cases hway

theorem Outcome.accept (way : Way) (ways : List Way)
    (here : program[way.address]? = some .accept) :
    Outcome program (way :: ways) (some way.cursor) :=
  ⟨0, .accept here rfl⟩

/-- The first ways count; the others do only where the first ones are dead. -/
theorem Outcome.skip {way : Way} {ways : List Way} {result : Option Cursor}
    (hdead : Dead program way.spot) (h : Outcome program ways result) :
    Outcome program (way :: ways) result := by
  cases result with
  | some cursor =>
    obtain ⟨n, hfinds⟩ := h
    exact ⟨n, .skip hdead hfinds⟩
  | none =>
    intro other hother
    rcases List.mem_cons.1 hother with rfl | hother
    · exact hdead
    · exact h other hother

theorem Outcome.skip_all {first second : List Way} {result : Option Cursor}
    (hfirst : Outcome program first none) (h : Outcome program second result) :
    Outcome program (first ++ second) result := by
  induction first with
  | nil => exact h
  | cons way ways ih =>
    have hways := ih fun other hother => hfirst other (List.mem_cons_of_mem _ hother)
    exact hways.skip (hfirst way List.mem_cons_self)

theorem outcome_append {first second : List Way} {result : Option Cursor} :
    Outcome program (first ++ second) result ↔
      (result.isSome ∧ Outcome program first result) ∨
        (Outcome program first none ∧ Outcome program second result) := by
  constructor
  · intro h
    induction first with
    | nil => exact .inr ⟨outcome_nil, h⟩
    | cons way ways ih =>
      have hcons : Dead program way.spot → Outcome program (ways ++ second) result →
          (result.isSome ∧ Outcome program (way :: ways) result) ∨
            (Outcome program (way :: ways) none ∧ Outcome program second result) :=
        fun hdead hrest => (ih hrest).imp (fun h => ⟨h.1, h.2.skip hdead⟩)
          fun h => ⟨h.1.skip hdead, h.2⟩
      cases result with
      | none =>
        exact hcons (h way (List.mem_cons_self ..))
          fun other hother => h other (List.mem_cons_of_mem _ hother)
      | some cursor =>
        obtain ⟨n, hfinds⟩ := h
        cases hfinds with
        | accept here end_eq => exact .inl ⟨rfl, 0, .accept here end_eq⟩
        | skip hdead hrest => exact hcons hdead ⟨n, hrest⟩
        | step here goes onward => exact .inl ⟨rfl, _, .step here goes onward⟩
  · rintro (⟨hsome, hfirst⟩ | ⟨hfirst, hsecond⟩)
    · obtain ⟨cursor, rfl⟩ := Option.isSome_iff_exists.1 hsome
      obtain ⟨n, hfinds⟩ := hfirst
      exact ⟨n, hfinds.append second⟩
    · exact hfirst.skip_all hsecond

/-- Backtracking through the ways comes to what backtracking through the later ones comes to. -/
def Onto (program : Array Instruction) (ways later : List Way) : Prop :=
  ∀ result, Outcome program later result → Outcome program ways result

theorem Onto.refl (ways : List Way) : Onto program ways ways :=
  fun _ h => h

theorem Onto.trans {ways later last : List Way} (h : Onto program ways later)
    (hlater : Onto program later last) : Onto program ways last :=
  fun result hlast => h result (hlater result hlast)

theorem Onto.append {ways later others othersLater : List Way} (h : Onto program ways later)
    (hothers : Onto program others othersLater) :
    Onto program (ways ++ others) (later ++ othersLater) := by
  intro result hresult
  rw [outcome_append] at hresult ⊢
  rcases hresult with ⟨hsome, hlater⟩ | ⟨hlater, hothersLater⟩
  · exact .inl ⟨hsome, h result hlater⟩
  · exact .inr ⟨h none hlater, hothers result hothersLater⟩

/-- A way leads to the ways on from it. -/
theorem Onto.step (way : Way) {instruction : Instruction}
    (here : program[way.address]? = some instruction) (goes : instruction ≠ .accept) :
    Onto program [way] (instruction.follow way.cursor) := by
  intro result h
  cases result with
  | some cursor =>
    obtain ⟨n, hfinds⟩ := h
    exact ⟨n + 1, .step here goes hfinds⟩
  | none =>
    intro other hother
    rw [List.mem_singleton.1 hother]
    refine .intro _ ?_ ?_
    · intro haccept
      rw [Way.spot, here, Option.some.injEq] at haccept
      exact goes haccept
    · intro instruction' here' next hnext
      rw [Way.spot, here, Option.some.injEq] at here'
      subst here'
      rw [Way.spot, ← map_spot_follow] at hnext
      obtain ⟨follower, hfollower, rfl⟩ := List.mem_map.1 hnext
      exact h follower hfollower

/-! ## Visited points -/

/-- Each visited point is dead, or it leads to acceptance in more than `n` steps. -/
def Sound (program : Array Instruction) (text : List Char) (n : Nat)
    (visited : Std.HashSet (Nat × Nat)) : Prop :=
  ∀ way : Way, way.cursor.place.IsIn text →
    visited.contains (way.address, way.cursor.place.offset) = true →
    Dead program way.spot ∨ ∃ m cursor, n < m ∧ Finds program m [way] cursor

theorem way_spot_eq {text : List Char} {way other : Way} (h : way.cursor.place.IsIn text)
    (hother : other.cursor.place.IsIn text)
    (hpoint : (way.address, way.cursor.place.offset) = (other.address, other.cursor.place.offset)) :
    way.spot = other.spot := by
  rw [Prod.mk.injEq] at hpoint
  rw [Way.spot, Way.spot, hpoint.1, h.eq_of_offset hother hpoint.2]

theorem Sound.insert_dead {text : List Char} {n : Nat} {visited : Std.HashSet (Nat × Nat)}
    {way : Way} (h : Sound program text n visited) (hin : way.cursor.place.IsIn text)
    (hdead : Dead program way.spot) :
    Sound program text n (visited.insert (way.address, way.cursor.place.offset)) := by
  intro other hother hvisited
  rw [Std.HashSet.contains_insert, Bool.or_eq_true, beq_iff_eq] at hvisited
  rcases hvisited with hpoint | hvisited
  · left
    rw [← way_spot_eq hin hother hpoint]
    exact hdead
  · exact h other hother hvisited

/-- A way that leads to acceptance in exactly as many steps has not been visited. -/
theorem Sound.not_visited {text : List Char} {n : Nat} {visited : Std.HashSet (Nat × Nat)}
    {way : Way} {cursor : Cursor} (h : Sound program text n visited)
    (hin : way.cursor.place.IsIn text) (hfinds : Finds program n [way] cursor) :
    visited.contains (way.address, way.cursor.place.offset) = false := by
  rw [Bool.eq_false_iff]
  intro hvisited
  rcases h way hin hvisited with hdead | ⟨m, other, hlt, hother⟩
  · exact hfinds.not_dead hdead
  · have hsame := hfinds.steps_unique hother rfl
    omega

theorem finds_of_spot {n : Nat} {way other : Way} {cursor : Cursor}
    (h : Finds program n [way] cursor) (hspot : way.spot = other.spot) :
    ∃ found, Finds program n [other] found := by
  have hlists : ∀ {n : Nat} {ways : List Way} {cursor : Cursor}, Finds program n ways cursor →
      ∀ others : List Way, ways.map Way.spot = others.map Way.spot →
        ∃ found, Finds program n others found := by
    intro n ways cursor h
    induction h with
    | accept here _ =>
      intro others hspots
      cases others with
      | nil => simp at hspots
      | cons other others =>
        simp only [List.map_cons, List.cons.injEq, Way.spot, Prod.mk.injEq] at hspots
        exact ⟨_, .accept (hspots.1.1 ▸ here) rfl⟩
    | skip dead _ ih =>
      intro others hspots
      cases others with
      | nil => simp at hspots
      | cons other others =>
        simp only [List.map_cons, List.cons.injEq] at hspots
        obtain ⟨found, hfound⟩ := ih others hspots.2
        exact ⟨found, .skip (hspots.1 ▸ dead) hfound⟩
    | @step _ _ _ _ instruction here goes _ ih =>
      intro others hspots
      cases others with
      | nil => simp at hspots
      | cons other others =>
        simp only [List.map_cons, List.cons.injEq, Way.spot, Prod.mk.injEq] at hspots
        obtain ⟨found, hfound⟩ := ih (instruction.follow other.cursor)
          (by rw [map_spot_follow, map_spot_follow, hspots.1.2])
        exact ⟨found, .step (hspots.1.1 ▸ here) goes hfound⟩
  exact hlists h [other] (by simp [hspot])

theorem Sound.insert_live {text : List Char} {n : Nat} {visited : Std.HashSet (Nat × Nat)}
    {way : Way} {cursor : Cursor} (h : Sound program text (n + 1) visited)
    (hin : way.cursor.place.IsIn text) (hfinds : Finds program (n + 1) [way] cursor) :
    Sound program text n (visited.insert (way.address, way.cursor.place.offset)) := by
  intro other hother hvisited
  rw [Std.HashSet.contains_insert, Bool.or_eq_true, beq_iff_eq] at hvisited
  rcases hvisited with hpoint | hvisited
  · obtain ⟨found, hfound⟩ := finds_of_spot hfinds (way_spot_eq hin hother hpoint)
    exact .inr ⟨n + 1, found, Nat.lt_succ_self n, hfound⟩
  · rcases h other hother hvisited with hdead | ⟨m, found, hlt, hfound⟩
    · exact .inl hdead
    · exact .inr ⟨m, found, by omega, hfound⟩

end

/-! ## Fuel -/

/-- The points of a program and a text that have not been visited. -/
def unvisited (program : Array Instruction) (text : List Char)
    (visited : Std.HashSet (Nat × Nat)) : Finset (Nat × Nat) :=
  (Finset.range program.size ×ˢ Finset.range (text.length + 1)).filter
    fun point => visited.contains point = false

/-- A point that is followed costs one and may add two ways. -/
def Enough (program : Array Instruction) (text : List Char) (fuel : Nat)
    (visited : Std.HashSet (Nat × Nat)) (ways : List Way) : Prop :=
  2 * (unvisited program text visited).card + ways.length ≤ fuel

theorem card_unvisited_insert {program : Array Instruction} {text : List Char}
    {visited : Std.HashSet (Nat × Nat)} {point : Nat × Nat} (haddress : point.1 < program.size)
    (hoffset : point.2 ≤ text.length) (hnew : visited.contains point = false) :
    (unvisited program text (visited.insert point)).card + 1 ≤
      (unvisited program text visited).card := by
  apply Finset.card_lt_card
  rw [Finset.ssubset_iff_of_subset]
  · refine ⟨point, ?_, ?_⟩
    · simp only [unvisited, Finset.mem_filter, Finset.mem_product, Finset.mem_range]
      exact ⟨⟨haddress, by omega⟩, hnew⟩
    · simp [unvisited]
  · intro other hother
    simp only [unvisited, Finset.mem_filter, Std.HashSet.contains_insert,
      Bool.or_eq_false_iff] at hother ⊢
    exact ⟨hother.1, hother.2.2⟩

theorem card_unvisited_le (program : Array Instruction) (text : List Char)
    (visited : Std.HashSet (Nat × Nat)) :
    (unvisited program text visited).card ≤ program.size * (text.length + 1) := by
  refine (Finset.card_filter_le _ _).trans ?_
  rw [Finset.card_product, Finset.card_range, Finset.card_range]

/-! ## Exploration -/

section
variable {program : Array Instruction} {text : List Char}

theorem explore_nil (fuel : Nat) (visited : Std.HashSet (Nat × Nat)) :
    explore program fuel visited [] = none := by
  cases fuel <;> rfl

theorem lt_size_of_getElem? {address : Nat} {instruction : Instruction}
    (h : program[address]? = some instruction) : address < program.size := by
  rw [Array.getElem?_eq_some_iff] at h
  exact h.1

theorem Enough.exists_succ {fuel : Nat} {visited : Std.HashSet (Nat × Nat)} {way : Way}
    {waiting : List Way} (h : Enough program text fuel visited (way :: waiting)) :
    ∃ less, fuel = less + 1 := by
  refine ⟨fuel - 1, ?_⟩
  simp only [Enough, List.length_cons] at h
  omega

theorem Enough.tail {fuel : Nat} {visited : Std.HashSet (Nat × Nat)} {way : Way}
    {waiting : List Way} (h : Enough program text (fuel + 1) visited (way :: waiting)) :
    Enough program text fuel visited waiting := by
  simp only [Enough, List.length_cons] at h ⊢
  omega

theorem Enough.follow {fuel : Nat} {visited : Std.HashSet (Nat × Nat)} {way : Way}
    {waiting : List Way} {instruction : Instruction}
    (h : Enough program text (fuel + 1) visited (way :: waiting))
    (hin : way.cursor.place.IsIn text) (here : program[way.address]? = some instruction)
    (hnew : visited.contains (way.address, way.cursor.place.offset) = false) :
    Enough program text fuel (visited.insert (way.address, way.cursor.place.offset))
      (instruction.follow way.cursor ++ waiting) := by
  have hcard : (unvisited program text
      (visited.insert (way.address, way.cursor.place.offset))).card + 1 ≤
      (unvisited program text visited).card :=
    card_unvisited_insert (lt_size_of_getElem? here) hin.2 hnew
  have hlength := length_follow_le instruction way.cursor
  simp only [Enough, List.length_cons, List.length_append] at h ⊢
  omega

theorem explore_follow {fuel : Nat} {visited : Std.HashSet (Nat × Nat)} {way : Way}
    {waiting : List Way} {instruction : Instruction}
    (here : program[way.address]? = some instruction) (goes : instruction ≠ .accept)
    (hnew : visited.contains (way.address, way.cursor.place.offset) = false) :
    explore program (fuel + 1) visited (way :: waiting) =
      explore program fuel (visited.insert (way.address, way.cursor.place.offset))
        (instruction.follow way.cursor ++ waiting) := by
  rw [explore]
  simp only [hnew, Bool.false_eq_true, if_false, here]

/-- Ways at the front are explored in vain, and leave only dead points behind. -/
def Passes (program : Array Instruction) (text : List Char) (n : Nat) (ways waiting : List Way) :
    Prop :=
  ∀ (fuel : Nat) (visited : Std.HashSet (Nat × Nat)), Sound program text n visited →
    Enough program text fuel visited (ways ++ waiting) →
    ∃ fuel' visited', Sound program text n visited' ∧ Enough program text fuel' visited' waiting ∧
      explore program fuel visited (ways ++ waiting) = explore program fuel' visited' waiting

theorem Passes.all {n : Nat} {ways : List Way}
    (h : ∀ way ∈ ways, ∀ waiting, Passes program text n [way] waiting) (waiting : List Way) :
    Passes program text n ways waiting := by
  induction ways with
  | nil => exact fun fuel visited hsound henough => ⟨fuel, visited, hsound, henough, rfl⟩
  | cons way ways ih =>
    intro fuel visited hsound henough
    obtain ⟨fuel₁, visited₁, hsound₁, henough₁, heq₁⟩ :=
      h way List.mem_cons_self (ways ++ waiting) fuel visited hsound henough
    obtain ⟨fuel₂, visited₂, hsound₂, henough₂, heq₂⟩ :=
      ih (fun other hother => h other (List.mem_cons_of_mem _ hother)) fuel₁ visited₁ hsound₁
        henough₁
    exact ⟨fuel₂, visited₂, hsound₂, henough₂, heq₁.trans heq₂⟩

theorem explore_dead {n : Nat} {spot : Spot} (hdead : Dead program spot) :
    ∀ way : Way, way.spot = spot → way.cursor.place.IsIn text →
      ∀ waiting, Passes program text n [way] waiting := by
  induction hdead with
  | intro spot refused onward ih =>
    intro way hspot hin waiting fuel visited hsound henough
    rw [List.singleton_append] at henough ⊢
    obtain ⟨fuel, rfl⟩ := henough.exists_succ
    subst hspot
    by_cases hvisited : visited.contains (way.address, way.cursor.place.offset) = true
    · refine ⟨fuel, visited, hsound, henough.tail, ?_⟩
      rw [explore]
      simp only [hvisited, if_true]
    · rw [Bool.not_eq_true] at hvisited
      cases here : program[way.address]? with
      | none =>
        refine ⟨fuel, visited, hsound, henough.tail, ?_⟩
        rw [explore]
        simp only [hvisited, Bool.false_eq_true, if_false, here]
      | some instruction =>
        have goes : instruction ≠ .accept := by
          rintro rfl
          exact refused here
        have hdead : Dead program way.spot := .intro _ refused onward
        -- the ways on are dead too, and are explored one after another
        have hways : Passes program text n (instruction.follow way.cursor) waiting := by
          refine Passes.all (fun next hnext => ?_) waiting
          have hspot : next.spot ∈ instruction.onward way.cursor.place := by
            rw [← map_spot_follow]
            exact List.mem_map_of_mem hnext
          exact ih instruction here next.spot hspot next rfl (isIn_of_mem_follow hin hnext)
        rw [explore_follow here goes hvisited]
        exact hways fuel _ (hsound.insert_dead hin hdead) (henough.follow hin here hvisited)

/-- A way that is not dead is followed to its end, whatever has been visited in vain. -/
theorem explore_finds {n : Nat} {ways : List Way} {cursor : Cursor}
    (hfinds : Finds program n ways cursor) :
    ∀ (waiting : List Way) (fuel : Nat) (visited : Std.HashSet (Nat × Nat)),
      (∀ way ∈ ways, way.cursor.place.IsIn text) → Sound program text n visited →
      Enough program text fuel visited (ways ++ waiting) →
      explore program fuel visited (ways ++ waiting) = some cursor := by
  induction hfinds with
  | @accept way ways cursor here end_eq =>
    intro waiting fuel visited hin hsound henough
    have hnew := hsound.not_visited (hin way (List.mem_cons_self ..)) (.accept here end_eq)
    rw [List.cons_append] at henough ⊢
    obtain ⟨fuel, rfl⟩ := henough.exists_succ
    rw [explore]
    simp only [hnew, Bool.false_eq_true, if_false, here]
    rw [end_eq]
  | @skip n way ways cursor dead _ ih =>
    intro waiting fuel visited hin hsound henough
    obtain ⟨fuel', visited', hsound', henough', heq⟩ :=
      explore_dead dead way rfl (hin way (List.mem_cons_self ..)) (ways ++ waiting) fuel visited
        hsound henough
    rw [List.singleton_append] at heq
    rw [List.cons_append, heq]
    exact ih waiting fuel' visited' (fun way hway => hin way (List.mem_cons_of_mem _ hway)) hsound'
      henough'
  | @step n way ways cursor instruction here goes onward ih =>
    intro waiting fuel visited hin hsound henough
    have hway := hin way (List.mem_cons_self ..)
    have hfinds : Finds program (n + 1) [way] cursor := .step here goes onward
    have hnew := hsound.not_visited hway hfinds
    rw [List.cons_append] at henough ⊢
    obtain ⟨fuel, rfl⟩ := henough.exists_succ
    rw [explore_follow here goes hnew]
    exact ih _ fuel _ (fun next hnext => isIn_of_mem_follow hway hnext)
      (hsound.insert_live hway hfinds) (henough.follow hway here hnew)

theorem explore_eq {ways : List Way} {result : Option Cursor} {fuel : Nat}
    (houtcome : Outcome program ways result) (hin : ∀ way ∈ ways, way.cursor.place.IsIn text)
    (henough : 2 * (program.size * (text.length + 1)) + ways.length ≤ fuel) :
    explore program fuel ∅ ways = result := by
  have hsound : ∀ n, Sound program text n ∅ := by
    intro n way _ hvisited
    simp at hvisited
  have hfuel : Enough program text fuel ∅ (ways ++ []) := by
    have hcard := card_unvisited_le program text ∅
    simp only [Enough, List.append_nil]
    omega
  cases result with
  | some cursor =>
    obtain ⟨n, hfinds⟩ := houtcome
    have h := explore_finds hfinds [] fuel ∅ hin (hsound n) hfuel
    rwa [List.append_nil] at h
  | none =>
    have hpasses : Passes program text 0 ways [] := Passes.all (fun way hway =>
      explore_dead (houtcome way hway) way rfl (hin way hway)) []
    obtain ⟨fuel', visited', -, -, heq⟩ := hpasses fuel ∅ (hsound 0) hfuel
    rw [List.append_nil] at heq
    rw [heq]
    exact explore_nil fuel' visited'

end

end Stepbook.Regex
