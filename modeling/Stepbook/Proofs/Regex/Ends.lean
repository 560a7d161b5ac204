import Stepbook.Proofs.Regex.Exploration

/-! # What a regular expression matches

A regular expression stands for the ordered list of its ends: all cursors that its matches from a
cursor lead to, the preferred one first. The program of an expression finds the first of them.

* `Regex.ends`: the ends of an expression.
* `Regex.Productive`: every unbounded repetition repeats something that takes characters.
* `Fragment.Yields`: instructions that lead to given ends, wherever they stand.
* `fragment_yields`: the instructions of an expression lead to its ends.
* `search_eq`: a search finds the first end from the earliest start.
-/

namespace Stepbook.Regex
set_option autoImplicit false

/-! ## Ends -/

/-- A number of times. -/
def exactly (body : Cursor → List Cursor) : Nat → Cursor → List Cursor
  | 0, cursor => [cursor]
  | count + 1, cursor => (body cursor).flatMap (exactly body count)

/-- At most a number of times; more times before fewer if `greedy`. -/
def upTo (greedy : Bool) (body : Cursor → List Cursor) : Nat → Cursor → List Cursor
  | 0, cursor => [cursor]
  | count + 1, cursor =>
    let more := (body cursor).flatMap (upTo greedy body count)
    if greedy then more ++ [cursor] else cursor :: more

/-- What takes characters is repeated at most once for each character that is left. -/
def anyTimes (greedy : Bool) (body : Cursor → List Cursor) (cursor : Cursor) : List Cursor :=
  upTo greedy body cursor.place.rest.length cursor

def ends : Regex → Cursor → List Cursor
  | .empty, cursor => [cursor]
  | .chars set, cursor => (cursor.take? set).toList
  | .anchor condition, cursor => if cursor.meets condition then [cursor] else []
  | .cat left right, cursor => (left.ends cursor).flatMap right.ends
  | .alt left right, cursor => left.ends cursor ++ right.ends cursor
  | .iterate body least (some most) greedy, cursor =>
    (exactly body.ends least cursor).flatMap (upTo greedy body.ends (most - least))
  | .iterate body least none greedy, cursor =>
    (exactly body.ends least cursor).flatMap (anyTimes greedy body.ends)
  | .group number body, cursor => (body.ends (cursor.enter number)).map (·.leave number)

/-- Every unbounded repetition repeats something that takes characters. -/
def Productive : Regex → Prop
  | .empty | .chars _ | .anchor _ => True
  | .cat left right | .alt left right => left.Productive ∧ right.Productive
  | .iterate body _ (some _) _ | .group _ body => body.Productive
  | .iterate body _ none _ => body.canBeEmpty = false ∧ body.Productive

/-! ## Ends lie ahead -/

/-- All ends are at least `count` characters ahead. -/
def Ahead (count : Nat) (body : Cursor → List Cursor) : Prop :=
  ∀ cursor, ∀ later ∈ body cursor,
    later.place.rest.length + count ≤ cursor.place.rest.length

theorem Ahead.mono {count less : Nat} {body : Cursor → List Cursor} (h : Ahead count body)
    (hle : less ≤ count) : Ahead less body := by
  intro cursor later hlater
  have := h cursor later hlater
  omega

theorem Ahead.flatMap {first second : Nat} {body next : Cursor → List Cursor}
    (hbody : Ahead first body) (hnext : Ahead second next) :
    Ahead (first + second) fun cursor => (body cursor).flatMap next := by
  intro cursor last hlast
  obtain ⟨later, hlater, hlast⟩ := List.mem_flatMap.1 hlast
  have h₁ := hbody cursor later hlater
  have h₂ := hnext later last hlast
  omega

theorem Ahead.exactly {count : Nat} {body : Cursor → List Cursor} (h : Ahead count body) :
    ∀ times, Ahead (times * count) (Regex.exactly body times)
  | 0 => by
    intro cursor later hlater
    rw [Regex.exactly, List.mem_singleton] at hlater
    rw [hlater]
    omega
  | times + 1 => by
    have hnext := h.flatMap (h.exactly times)
    refine Ahead.mono hnext ?_
    rw [Nat.succ_mul]
    omega

theorem Ahead.upTo {body : Cursor → List Cursor} (greedy : Bool) (h : Ahead 0 body) :
    ∀ times, Ahead 0 (Regex.upTo greedy body times)
  | 0 => by
    intro cursor later hlater
    rw [Regex.upTo, List.mem_singleton] at hlater
    rw [hlater]
    omega
  | times + 1 => by
    intro cursor later hlater
    have hmore := h.flatMap (h.upTo greedy times) cursor later
    cases greedy <;>
      simp only [Regex.upTo, if_true, Bool.false_eq_true, if_false, List.mem_append,
        List.mem_cons] at hlater
    · rcases hlater with rfl | hlater
      · omega
      · exact hmore hlater
    · rcases hlater with hlater | hlater
      · exact hmore hlater
      · simp only [List.not_mem_nil, or_false] at hlater
        rw [hlater]
        omega

theorem Ahead.anyTimes {body : Cursor → List Cursor} (greedy : Bool) (h : Ahead 0 body) :
    Ahead 0 (Regex.anyTimes greedy body) :=
  fun cursor => h.upTo greedy cursor.place.rest.length cursor

theorem rest_of_take? {cursor later : Cursor} {set : CharSet} (h : cursor.take? set = some later) :
    later.place.rest.length + 1 = cursor.place.rest.length := by
  obtain ⟨place, hplace, rfl⟩ := Option.map_eq_some_iff.1 h
  unfold Place.take? at hplace
  split at hplace
  · cases hplace
  · next c rest hrest =>
    split at hplace
    · cases hplace
      rw [hrest]
      rfl
    · cases hplace

theorem ahead_ends (regex : Regex) : Ahead 0 regex.ends := by
  induction regex with
  | empty =>
    intro cursor later hlater
    rw [ends, List.mem_singleton] at hlater
    rw [hlater]
    omega
  | chars set =>
    intro cursor later hlater
    rw [ends, Option.mem_toList] at hlater
    have := rest_of_take? hlater
    omega
  | anchor condition =>
    intro cursor later hlater
    rw [ends] at hlater
    split at hlater
    · rw [List.mem_singleton.1 hlater]
      omega
    · cases hlater
  | cat left right ihleft ihright => exact ihleft.flatMap ihright
  | alt left right ihleft ihright =>
    intro cursor later hlater
    rcases List.mem_append.1 hlater with h | h
    · exact ihleft cursor later h
    · exact ihright cursor later h
  | iterate body least most greedy ih =>
    have hleast : Ahead 0 (exactly body.ends least) := (ih.exactly least).mono (Nat.zero_le _)
    cases most with
    | some most => exact hleast.flatMap (ih.upTo greedy (most - least))
    | none => exact hleast.flatMap (ih.anyTimes greedy)
  | group number body ih =>
    intro cursor later hlater
    obtain ⟨last, hlast, rfl⟩ := List.mem_map.1 hlater
    rw [Cursor.place_leave]
    exact ih (cursor.enter number) last hlast

/-- What cannot be empty takes a character. -/
theorem ahead_ends_of_not_canBeEmpty {regex : Regex} (h : regex.canBeEmpty = false) :
    Ahead 1 regex.ends := by
  induction regex with
  | empty => cases h
  | chars set =>
    intro cursor later hlater
    rw [ends, Option.mem_toList] at hlater
    have := rest_of_take? hlater
    omega
  | anchor condition => cases h
  | cat left right ihleft ihright =>
    rw [canBeEmpty, Bool.and_eq_false_iff] at h
    rcases h with h | h
    · exact (ihleft h).flatMap (ahead_ends right)
    · exact Ahead.mono ((ahead_ends left).flatMap (ihright h)) (by omega)
  | alt left right ihleft ihright =>
    rw [canBeEmpty, Bool.or_eq_false_iff] at h
    intro cursor later hlater
    rcases List.mem_append.1 hlater with hmem | hmem
    · exact ihleft h.1 cursor later hmem
    · exact ihright h.2 cursor later hmem
  | iterate body least most greedy ih =>
    rw [canBeEmpty, Bool.or_eq_false_iff, beq_eq_false_iff_ne] at h
    have hleast : Ahead 1 (exactly body.ends least) :=
      ((ih h.2).exactly least).mono (by omega)
    cases most with
    | some most => exact hleast.flatMap ((ahead_ends body).upTo greedy (most - least))
    | none => exact hleast.flatMap ((ahead_ends body).anyTimes greedy)
  | group number body ih =>
    intro cursor later hlater
    obtain ⟨last, hlast, rfl⟩ := List.mem_map.1 hlater
    rw [Cursor.place_leave]
    exact ih h (cursor.enter number) last hlast

theorem exactly_succ (body : Cursor → List Cursor) (count : Nat) (cursor : Cursor) :
    exactly body (count + 1) cursor = (exactly body count cursor).flatMap body := by
  induction count generalizing cursor with
  | zero => simp [exactly]
  | succ count ih =>
    rw [exactly, exactly, List.flatMap_assoc]
    exact congrArg (body cursor).flatMap (funext fun later => ih later)

/-- More times than there are characters do not occur. -/
theorem upTo_of_le {greedy : Bool} {body : Cursor → List Cursor} (h : Ahead 1 body) :
    ∀ (count : Nat) (cursor : Cursor), cursor.place.rest.length ≤ count →
      upTo greedy body count cursor = anyTimes greedy body cursor := by
  suffices hsucc : ∀ (count : Nat) (cursor : Cursor), cursor.place.rest.length ≤ count →
      upTo greedy body (count + 1) cursor = upTo greedy body count cursor by
    intro count cursor hle
    induction count, hle using Nat.le_induction with
    | base => rfl
    | succ count hle ih => rw [hsucc count cursor hle, ih]
  intro count
  induction count with
  | zero =>
    intro cursor hle
    have hnil : body cursor = [] := by
      rw [List.eq_nil_iff_forall_not_mem]
      intro later hlater
      have := h cursor later hlater
      omega
    simp [upTo, hnil]
  | succ count ih =>
    intro cursor hle
    have hmore : (body cursor).flatMap (upTo greedy body (count + 1)) =
        (body cursor).flatMap (upTo greedy body count) := by
      apply List.flatMap_congr
      intro later hlater
      have := h cursor later hlater
      exact ih later (by omega)
    rw [upTo, upTo, hmore]

theorem anyTimes_eq {greedy : Bool} {body : Cursor → List Cursor} (h : Ahead 1 body)
    (cursor : Cursor) :
    anyTimes greedy body cursor =
      if greedy then (body cursor).flatMap (anyTimes greedy body) ++ [cursor]
      else cursor :: (body cursor).flatMap (anyTimes greedy body) := by
  rw [← upTo_of_le h (cursor.place.rest.length + 1) cursor (Nat.le_succ _), upTo]
  have hmore : (body cursor).flatMap (upTo greedy body cursor.place.rest.length) =
      (body cursor).flatMap (anyTimes greedy body) := by
    apply List.flatMap_congr
    intro later hlater
    have := h cursor later hlater
    exact upTo_of_le h _ later (by omega)
  rw [hmore]

/-! ## Instructions in a program -/

/-- The instructions stand in the program from an address on. -/
def Placed (program : Array Instruction) (base : Nat) (code : List Instruction) : Prop :=
  ∀ (index : Nat) (instruction : Instruction), code[index]? = some instruction →
    program[base + index]? = some instruction

section
variable {program : Array Instruction} {base : Nat}

theorem Placed.head {instruction : Instruction} {code : List Instruction}
    (h : Placed program base (instruction :: code)) : program[base]? = some instruction :=
  h 0 instruction rfl

theorem Placed.tail {instruction : Instruction} {code : List Instruction}
    (h : Placed program base (instruction :: code)) : Placed program (base + 1) code := by
  intro index other hother
  rw [Nat.add_assoc, Nat.add_comm 1]
  exact h (index + 1) other hother

theorem Placed.left {first second : List Instruction} (h : Placed program base (first ++ second)) :
    Placed program base first := by
  intro index instruction hinstruction
  refine h index instruction ?_
  rw [List.getElem?_append_left (List.getElem?_eq_some_iff.1 hinstruction).1]
  exact hinstruction

theorem Placed.right {first second : List Instruction} {size : Nat}
    (h : Placed program base (first ++ second)) (hsize : first.length = size) :
    Placed program (base + size) second := by
  intro index instruction hinstruction
  rw [Nat.add_assoc]
  refine h (size + index) instruction ?_
  rw [← hsize, List.getElem?_append_right (Nat.le_add_right _ _), Nat.add_sub_cancel_left]
  exact hinstruction

/-- Each of several pieces of code of one size stands at a multiple of it. -/
theorem Placed.block {code : Nat → List Instruction} (size : Nat) {count : Nat}
    (h : Placed program base ((List.range count).flatMap code))
    (hsize : ∀ index, (code index).length = size) {index : Nat} (hindex : index < count) :
    Placed program (base + index * size) (code index) := by
  induction count with
  | zero => omega
  | succ count ih =>
    rw [List.range_succ, List.flatMap_append] at h
    by_cases hlast : index < count
    · exact ih h.left hlast
    · have hindex : index = count := by omega
      subst hindex
      have hlength : ((List.range index).flatMap code).length = index * size := by
        simp [List.length_flatMap, hsize, List.map_const']
      have hblock := h.right hlength
      rwa [List.flatMap_singleton] at hblock

end

/-! ## Ends of fragments -/

/-- The cursors, all at one address. -/
def waysAt (address : Nat) (cursors : List Cursor) : List Way :=
  cursors.map (Way.mk address)

@[simp] theorem waysAt_append (address : Nat) (first second : List Cursor) :
    waysAt address (first ++ second) = waysAt address first ++ waysAt address second :=
  List.map_append

/-- Ways at one address that each lead to ways at the next one. -/
theorem Onto.flatMap {program : Array Instruction} {address next : Nat}
    {body : Cursor → List Cursor} (cursors : List Cursor)
    (h : ∀ cursor ∈ cursors, Onto program [⟨address, cursor⟩] (waysAt next (body cursor))) :
    Onto program (waysAt address cursors) (waysAt next (cursors.flatMap body)) := by
  induction cursors with
  | nil => exact Onto.refl []
  | cons cursor cursors ih =>
    rw [List.flatMap_cons, waysAt_append]
    exact (h cursor (List.mem_cons_self ..)).append
      (ih fun other hother => h other (List.mem_cons_of_mem _ hother))

namespace Fragment

/-- From its base the fragment leads to the ends at the next address. -/
def Yields (fragment : Fragment) (body : Cursor → List Cursor) : Prop :=
  ∀ (program : Array Instruction) (base next : Nat),
    Placed program base (fragment.code base next) →
    ∀ cursor, Onto program [⟨base, cursor⟩] (waysAt next (body cursor))

theorem Yields.congr {fragment : Fragment} {body other : Cursor → List Cursor}
    (h : fragment.Yields body) (heq : ∀ cursor, body cursor = other cursor) :
    fragment.Yields other :=
  funext heq ▸ h

theorem yields_single {instruction : Nat → Instruction} {body : Cursor → List Cursor}
    (goes : ∀ next, instruction next ≠ .accept)
    (h : ∀ next cursor, (instruction next).follow cursor = waysAt next (body cursor)) :
    (single instruction).Yields body := by
  intro program base next hplaced cursor
  rw [← h next cursor]
  exact Onto.step ⟨base, cursor⟩ hplaced.head (goes next)

theorem Yields.append {first second : Fragment} {body next : Cursor → List Cursor}
    (hfirst : first.Yields body) (hsecond : second.Yields next) :
    (first.append second).Yields fun cursor => (body cursor).flatMap next := by
  intro program base after hplaced cursor
  refine (hfirst program base _ hplaced.left cursor).trans ?_
  have hright := hplaced.right (first.length_code base (base + first.size))
  exact Onto.flatMap _ fun later _ => hsecond program _ after hright later

theorem Yields.orElse {first second : Fragment} {body other : Cursor → List Cursor}
    (hfirst : first.Yields body) (hsecond : second.Yields other) :
    (first.orElse second).Yields fun cursor => body cursor ++ other cursor := by
  intro program base next hplaced cursor
  refine (Onto.step ⟨base, cursor⟩ hplaced.head (by simp)).trans ?_
  have hleft := hplaced.tail.left
  have hright := hplaced.tail.right (first.length_code (base + 1) next)
  rw [waysAt_append]
  exact (hfirst program _ next hleft cursor).append (hsecond program _ next hright cursor)

theorem Yields.enclose {fragment : Fragment} {body : Cursor → List Cursor} (number : Nat)
    (h : fragment.Yields body) :
    (fragment.enclose number).Yields fun cursor =>
      (body (cursor.enter number)).map (·.leave number) := by
  have henter : (single (.enter number)).Yields fun cursor => [cursor.enter number] :=
    yields_single (by simp) fun _ _ => rfl
  have hleave : (single (.leave number)).Yields fun cursor => [cursor.leave number] :=
    yields_single (by simp) fun _ _ => rfl
  refine ((henter.append h).append hleave).congr fun cursor => ?_
  rw [List.flatMap_singleton]
  induction body (cursor.enter number) with
  | nil => rfl
  | cons later others ih => rw [List.flatMap_cons, ih]; rfl

theorem Yields.times {fragment : Fragment} {body : Cursor → List Cursor} (h : fragment.Yields body)
    (count : Nat) : (fragment.times count).Yields (exactly body count) := by
  intro program base next hplaced cursor
  have hblocks : ∀ index < count, Placed program (base + index * fragment.size)
      (fragment.code (base + index * fragment.size) (base + (index + 1) * fragment.size)) :=
    fun index hindex => hplaced.left.block fragment.size (fun _ => fragment.length_code _ _) hindex
  have hend : Placed program (base + count * fragment.size) [.jump next] :=
    hplaced.right (by simp [List.length_flatMap, List.map_const'])
  have hbodies : ∀ done ≤ count, Onto program [⟨base, cursor⟩]
      (waysAt (base + done * fragment.size) (exactly body done cursor)) := by
    intro done
    induction done with
    | zero =>
      intro _
      rw [Nat.zero_mul]
      exact Onto.refl _
    | succ done ih =>
      intro hle
      rw [exactly_succ]
      refine (ih (by omega)).trans (Onto.flatMap _ fun later _ => ?_)
      exact h program _ _ (hblocks done (by omega)) later
  refine (hbodies count (Nat.le_refl _)).trans ?_
  have hjump : Onto program (waysAt (base + count * fragment.size) (exactly body count cursor))
      (waysAt next ((exactly body count cursor).flatMap fun later => [later])) :=
    Onto.flatMap _ fun later _ => Onto.step ⟨_, later⟩ hend.head (by simp)
  rwa [List.flatMap_singleton'] at hjump

/-- Where a loop goes on from. -/
theorem onto_loop {program : Array Instruction} {address again next : Nat} {greedy : Bool}
    (here : program[address]? = some (.loop greedy again next)) (cursor : Cursor)
    {more : List Cursor} (hmore : Onto program [⟨again, cursor⟩] (waysAt next more)) :
    Onto program [⟨address, cursor⟩]
      (waysAt next (if greedy then more ++ [cursor] else cursor :: more)) := by
  cases greedy with
  | true =>
    refine (Onto.step ⟨address, cursor⟩ here (by simp [Instruction.loop])).trans ?_
    rw [if_pos rfl, waysAt_append]
    exact hmore.append (Onto.refl [⟨next, cursor⟩])
  | false =>
    refine (Onto.step ⟨address, cursor⟩ here (by simp [Instruction.loop])).trans ?_
    exact (Onto.refl [⟨next, cursor⟩]).append hmore

theorem Yields.atMost {fragment : Fragment} {body : Cursor → List Cursor} (greedy : Bool)
    (h : fragment.Yields body) (count : Nat) :
    (fragment.atMost greedy count).Yields (upTo greedy body count) := by
  intro program base next hplaced cursor
  have hblocks := fun (index : Nat) (hindex : index < count) =>
    hplaced.left.block (fragment.size + 1) (fun _ => by simp) hindex
  have hend : Placed program (base + count * (fragment.size + 1)) [.jump next] :=
    hplaced.right (by simp [List.length_flatMap, List.map_const'])
  suffices hleft : ∀ (left done : Nat), done + left = count → ∀ cursor,
      Onto program [⟨base + done * (fragment.size + 1), cursor⟩]
        (waysAt next (upTo greedy body left cursor)) by
    have hall := hleft count 0 (by omega) cursor
    rwa [Nat.zero_mul] at hall
  intro left
  induction left with
  | zero =>
    intro done hdone cursor
    obtain rfl : done = count := by omega
    exact Onto.step ⟨_, cursor⟩ hend.head (by simp)
  | succ left ih =>
    intro done hdone cursor
    have hblock := hblocks done (by omega)
    refine onto_loop hblock.head cursor ?_
    refine (h program _ _ hblock.tail cursor).trans (Onto.flatMap _ fun later _ => ?_)
    have hnext := ih (done + 1) (by omega) later
    have haddress : base + (done + 1) * (fragment.size + 1) =
        base + done * (fragment.size + 1) + 1 + fragment.size := by
      rw [Nat.succ_mul]
      omega
    rwa [haddress] at hnext

/-- The loop in front of a body that takes characters. -/
theorem Yields.star {fragment : Fragment} {body : Cursor → List Cursor} (greedy : Bool)
    (h : fragment.Yields body) (hahead : Ahead 1 body) :
    (fragment.star greedy).Yields (anyTimes greedy body) := by
  intro program base next hplaced
  suffices hall : ∀ (length : Nat) (cursor : Cursor), cursor.place.rest.length ≤ length →
      Onto program [⟨base, cursor⟩] (waysAt next (anyTimes greedy body cursor)) from
    fun cursor => hall _ cursor (Nat.le_refl _)
  intro length
  induction length with
  | zero =>
    intro cursor hle
    rw [anyTimes_eq hahead]
    refine onto_loop hplaced.head cursor ((h program _ _ hplaced.tail cursor).trans ?_)
    refine Onto.flatMap _ fun later hlater => ?_
    have := hahead cursor later hlater
    omega
  | succ length ih =>
    intro cursor hle
    rw [anyTimes_eq hahead]
    refine onto_loop hplaced.head cursor ((h program _ _ hplaced.tail cursor).trans ?_)
    refine Onto.flatMap _ fun later hlater => ?_
    have := hahead cursor later hlater
    exact ih later (by omega)

/-- The loop behind a body that takes characters. -/
theorem Yields.plus {fragment : Fragment} {body : Cursor → List Cursor} (greedy : Bool)
    (h : fragment.Yields body) (hahead : Ahead 1 body) :
    (fragment.plus greedy).Yields fun cursor => (body cursor).flatMap (anyTimes greedy body) := by
  intro program base next hplaced cursor
  have hbody := h program base _ hplaced.left
  have hloop := (hplaced.right (fragment.length_code base (base + fragment.size))).head
  suffices hall : ∀ (length : Nat) (cursor : Cursor), cursor.place.rest.length ≤ length →
      Onto program [⟨base + fragment.size, cursor⟩]
        (waysAt next (anyTimes greedy body cursor)) from
    (hbody cursor).trans (Onto.flatMap _ fun later _ => hall _ later (Nat.le_refl _))
  intro length
  induction length with
  | zero =>
    intro cursor hle
    rw [anyTimes_eq hahead]
    refine onto_loop hloop cursor ((hbody cursor).trans (Onto.flatMap _ fun later hlater => ?_))
    have := hahead cursor later hlater
    omega
  | succ length ih =>
    intro cursor hle
    rw [anyTimes_eq hahead]
    refine onto_loop hloop cursor ((hbody cursor).trans (Onto.flatMap _ fun later hlater => ?_))
    have := hahead cursor later hlater
    exact ih later (by omega)

end Fragment

theorem fragment_yields {regex : Regex} (h : regex.Productive) :
    regex.fragment.Yields regex.ends := by
  induction regex with
  | empty => exact Fragment.yields_single (by simp) fun _ _ => rfl
  | chars set =>
    refine Fragment.yields_single (by simp) fun next cursor => ?_
    rw [ends]
    rfl
  | anchor condition =>
    refine Fragment.yields_single (by simp) fun next cursor => ?_
    rw [ends, Instruction.follow]
    split <;> rfl
  | cat left right ihleft ihright => exact (ihleft h.1).append (ihright h.2)
  | alt left right ihleft ihright => exact (ihleft h.1).orElse (ihright h.2)
  | iterate body least most greedy ih =>
    cases most with
    | some most => exact ((ih h).times least).append ((ih h).atMost greedy (most - least))
    | none =>
      have hahead := ahead_ends_of_not_canBeEmpty h.1
      have hbody := ih h.2
      rcases least with _ | _ | least
      · have hstar : (fragment (.iterate body 0 none greedy)).Yields
            (anyTimes greedy body.ends) := by
          rw [fragment, Fragment.atLeast, h.1]
          exact hbody.star greedy hahead
        refine hstar.congr fun cursor => ?_
        simp [ends, exactly]
      · refine Fragment.Yields.congr (hbody.plus greedy hahead) fun cursor => ?_
        simp [ends, exactly]
      · refine Fragment.Yields.congr ((hbody.times (least + 1)).append (hbody.plus greedy hahead))
          fun cursor => ?_
        rw [ends, exactly_succ body.ends (least + 1), List.flatMap_assoc]
  | group number body ih => exact (ih h).enclose number

/-! ## Searching -/

/-- Before any group has captured, behind the first characters of a text. -/
def Cursor.within (text : List Char) (offset : Nat) : Cursor :=
  ⟨.within text offset, [], []⟩

/-- All places where a match may start, from one on. -/
def starts (text : List Char) (offset : Nat) : List Cursor :=
  (List.range' offset (text.length + 1 - offset)).map (Cursor.within text)

theorem starts_of_lt {text : List Char} {offset : Nat} (h : offset < text.length) :
    starts text offset = .within text offset :: starts text (offset + 1) := by
  have hlength : text.length + 1 - offset = text.length + 1 - (offset + 1) + 1 := by omega
  rw [starts, starts, hlength, List.range'_succ]
  rfl

theorem starts_length (text : List Char) :
    starts text text.length = [.within text text.length] := by
  rw [starts, Nat.add_sub_cancel_left]
  rfl

theorem take?_all_within {text : List Char} {offset : Nat} (h : offset < text.length) :
    (Cursor.within text offset).take? .all = some (.within text (offset + 1)) := by
  have hin : (Place.within text offset).IsIn text := ⟨rfl, Nat.le_of_lt h⟩
  have hrest : (Place.within text offset).rest = text[offset] :: text.drop (offset + 1) :=
    List.drop_eq_getElem_cons h
  have htake : (Place.within text offset).take? .all =
      some ⟨some text[offset], text.drop (offset + 1), offset + 1⟩ := by
    unfold Place.take?
    rw [hrest]
    rfl
  rw [Cursor.take?, Cursor.within, htake, Option.map_some, (hin.take? htake).1]
  rfl

theorem take?_all_length (text : List Char) :
    (Cursor.within text text.length).take? .all = none := by
  have hrest : (Place.within text text.length).rest = [] := List.drop_length
  rw [Cursor.take?, Cursor.within]
  unfold Place.take?
  rw [hrest]
  rfl

/-- Ways at the accepting address come to the first of them. -/
theorem outcome_waysAt_accept {program : Array Instruction} {address : Nat}
    (here : program[address]? = some .accept) (cursors : List Cursor) :
    Outcome program (waysAt address cursors) cursors.head? := by
  cases cursors with
  | nil => exact outcome_nil
  | cons cursor cursors => exact Outcome.accept ⟨address, cursor⟩ _ here

theorem placed_program (regex : Regex) :
    Placed regex.program 0 (.branch 2 1 :: .take .all 0 ::
      (regex.fragment.code 2 (2 + regex.fragment.size) ++ [.accept])) := by
  intro index instruction hinstruction
  rw [Nat.zero_add, program, List.getElem?_toArray]
  exact hinstruction

/-- From every offset on, the text is searched start by start. -/
theorem onto_starts {regex : Regex} (h : regex.Productive) (text : List Char) (left offset : Nat)
    (hoffset : offset + left = text.length) :
    Onto regex.program [⟨0, .within text offset⟩]
      (waysAt (2 + regex.fragment.size) ((starts text offset).flatMap regex.ends)) := by
  have hplaced := placed_program regex
  have hbody := fragment_yields h _ _ _ hplaced.tail.tail.left
  induction left generalizing offset with
  | zero =>
    obtain rfl : offset = text.length := by omega
    rw [starts_length, List.flatMap_singleton]
    refine (Onto.step ⟨0, _⟩ hplaced.head (by simp)).trans ?_
    have hdead : Onto regex.program [⟨1, .within text text.length⟩] [] := by
      have hstep := Onto.step ⟨1, .within text text.length⟩ hplaced.tail.head (by simp)
      rwa [Instruction.follow, take?_all_length] at hstep
    have hways := (hbody (.within text text.length)).append hdead
    rwa [List.append_nil] at hways
  | succ left ih =>
    rw [starts_of_lt (by omega), List.flatMap_cons, waysAt_append]
    refine (Onto.step ⟨0, _⟩ hplaced.head (by simp)).trans ?_
    have hnext : Onto regex.program [⟨1, .within text offset⟩]
        [⟨0, .within text (offset + 1)⟩] := by
      have hstep := Onto.step ⟨1, .within text offset⟩ hplaced.tail.head (by simp)
      rwa [Instruction.follow, take?_all_within (by omega)] at hstep
    exact (hbody (.within text offset)).append (hnext.trans (ih (offset + 1) (by omega)))

/-- A search finds the first end from the earliest start that has one. -/
theorem search_eq {regex : Regex} (h : regex.Productive) (text : List Char) :
    regex.search text = ((starts text 0).flatMap regex.ends).head? := by
  have haccept := ((placed_program regex).tail.tail.right (regex.fragment.length_code _ _)).head
  have hstart : Cursor.start text = .within text 0 := by
    simp [Cursor.start, Cursor.within, Place.start, Place.within]
  have houtcome : Outcome regex.program [⟨0, .start text⟩]
      ((starts text 0).flatMap regex.ends).head? := by
    rw [hstart]
    exact onto_starts h text text.length 0 (Nat.zero_add _) _ (outcome_waysAt_accept haccept _)
  have hin : ∀ way ∈ [Way.mk 0 (.start text)], way.cursor.place.IsIn text := by
    intro way hway
    rw [List.mem_singleton.1 hway]
    exact Place.isIn_start text
  refine explore_eq houtcome hin ?_
  simp only [List.length_singleton]
  rw [Nat.mul_assoc]
  omega

end Stepbook.Regex
