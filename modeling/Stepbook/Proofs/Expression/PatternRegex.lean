import Mathlib.Order.Lattice
import Mathlib.Order.Nat
import Stepbook.Expression.Compiled

/-! # What the pattern of an expression writes

The pattern of an expression is well formed: reading it gives back the regular expression that its
parts stand for, piece by piece, with literal characters as they are.

* `Part.regexes`: the regular expressions that parts stand for, in a row.
* `Writes`: a text that is read as regular expressions in a row, whatever stands around it.
* `read_anchored`: the regular expression that the pattern of parts writes.
-/

namespace Stepbook
set_option autoImplicit false

open Regex

/-! ## Regular expressions of parts -/

namespace Regex

def digits : Regex :=
  .iterate (.chars (.range '0' '9')) 1 none true

def sign : Regex :=
  .iterate (.chars (.union (.single '+') (.single '-'))) 0 (some 1) true

/-- A quote, other characters, and the quote again. -/
def quoted (quote : Char) : Regex :=
  concat [literal quote, .iterate (.chars (.compl (.single quote))) 0 none true, literal quote]

end Regex

/-- What the pattern of a placeholder writes. -/
def ParameterType.regex : ParameterType → Regex
  | .int => .cat sign digits
  | .float =>
    .cat sign (oneOf [concat [digits, literal '.', digits], concat [digits, literal '.'],
      concat [literal '.', digits], digits])
  | .word => .iterate (.chars (.compl (.property (.binary .blank)))) 1 none true
  | .string => oneOf [quoted '"', quoted '\'']

namespace Expression

def Piece.regexes : Piece → List Regex
  | .text written => written.map literal
  | .optional _ written => [.iterate (concat (written.map literal)) 0 (some 1) true]

def branchRegex (branch : Branch) : Regex :=
  concat (branch.flatMap Piece.regexes)

def Segment.regexes (segment : Segment) : List Regex :=
  match segment.closed with
  | [] => segment.last.flatMap Piece.regexes
  | _ => [oneOf (segment.branches.map branchRegex)]

/-- `number` groups stand before the parts. -/
def Part.regexes (number : Nat) : List Part → List Regex
  | [] => []
  | .blank written :: rest => written.map literal ++ regexes number rest
  | .parameter type :: rest => .group (number + 1) type.regex :: regexes (number + 1) rest
  | .segment choice :: rest => choice.regexes ++ regexes number rest

end Expression

namespace Regex

/-! ## Reading on -/

/-- From one reading on, a text leads to another one, whatever follows but a question mark. -/
def Reads (reading : Reading) (written : List Char) (next : Reading) : Prop :=
  ∀ (fuel : Nat) (rest : List Char), rest.head? ≠ some '?' → (written ++ rest).length < fuel →
    ∃ less, rest.length < less ∧
      readItems fuel reading (written ++ rest) = readItems less next rest

theorem Reads.refl (reading : Reading) : Reads reading [] reading :=
  fun fuel _ _ hfuel => ⟨fuel, hfuel, rfl⟩

theorem Reads.trans {reading next last : Reading} {first second : List Char}
    (hfirst : Reads reading first next) (hsecond : Reads next second last)
    (hhead : second.head? ≠ some '?') : Reads reading (first ++ second) last := by
  intro fuel rest hrest hfuel
  rw [List.append_assoc] at hfuel ⊢
  have hmiddle : (second ++ rest).head? ≠ some '?' := by
    cases second with
    | nil => exact hrest
    | cons c second => exact hhead
  obtain ⟨less, hless, heq⟩ := hfirst fuel (second ++ rest) hmiddle hfuel
  obtain ⟨least, hleast, heq'⟩ := hsecond less rest hrest hless
  exact ⟨least, hleast, heq.trans heq'⟩

/-- One item, read where blanks count. -/
theorem Reads.item {reading next : Reading} {c : Char} {written : List Char}
    (hflags : reading.flags = .initial)
    (h : ∀ rest : List Char, rest.head? ≠ some '?' →
      readItem reading c (written ++ rest) = some (next, rest)) :
    Reads reading (c :: written) next := by
  intro fuel rest hrest hfuel
  obtain ⟨fuel, rfl⟩ : ∃ less, fuel = less + 1 := ⟨fuel - 1, by omega⟩
  refine ⟨fuel, ?_, ?_⟩
  · simp only [List.cons_append, List.length_cons, List.length_append] at hfuel
    omega
  · rw [List.cons_append, readItems, hflags]
    exact congrArg (·.bind fun read => readItems fuel read.1 read.2) (h rest hrest)

/-- One item that is read in the same way whatever follows. -/
theorem Reads.cons {reading next last : Reading} {c : Char} {written : List Char}
    (hflags : reading.flags = .initial)
    (h : ∀ rest : List Char, readItem reading c rest = some (next, rest))
    (hnext : Reads next written last) : Reads reading (c :: written) last := by
  intro fuel rest hrest hfuel
  obtain ⟨fuel, rfl⟩ : ∃ less, fuel = less + 1 := ⟨fuel - 1, by omega⟩
  simp only [List.cons_append, List.length_cons] at hfuel
  obtain ⟨less, hless, heq⟩ := hnext fuel rest hrest (by omega)
  refine ⟨less, hless, ?_⟩
  rw [List.cons_append, readItems, hflags, ← heq]
  exact congrArg (·.bind fun read => readItems fuel read.1 read.2) (h (written ++ rest))

/-- A number of items that are read in one go. -/
theorem Reads.items {reading next : Reading} {written : List Char} (count : Nat)
    (hcount : count ≤ written.length)
    (h : ∀ (fuel : Nat) (rest : List Char),
      readItems (fuel + count) reading (written ++ rest) = readItems fuel next rest) :
    Reads reading written next := by
  intro fuel rest _ hfuel
  rw [List.length_append] at hfuel
  refine ⟨fuel - count, by omega, ?_⟩
  have heq := h (fuel - count) rest
  rwa [Nat.sub_add_cancel (by omega)] at heq

/-! ## Rows of items -/

def Level.pushAll (level : Level) (items : List (Nested Regex)) : Level :=
  items.foldl Level.push level

theorem Level.pushAll_append (level : Level) (items others : List (Nested Regex)) :
    level.pushAll (items ++ others) = (level.pushAll items).pushAll others :=
  List.foldl_append

theorem Level.items_pushAll (level : Level) (items : List (Nested Regex)) :
    (level.pushAll items).items = items.reverse ++ level.items := by
  induction items generalizing level with
  | nil => rfl
  | cons item items ih =>
    rw [List.reverse_cons, List.append_assoc]
    exact ih (level.push item)

theorem Level.branches_pushAll (level : Level) (items : List (Nested Regex)) :
    (level.pushAll items).branches = level.branches := by
  induction items generalizing level with
  | nil => rfl
  | cons item items ih => exact ih (level.push item)

/-- The items are the expressions, none of them deeper than `depth`. -/
def Holds (depth : Nat) (items : List (Nested Regex)) (regexes : List Regex) : Prop :=
  items.map (·.value) = regexes ∧ ∀ item ∈ items, item.depth ≤ depth

theorem Holds.append {depth : Nat} {items others : List (Nested Regex)}
    {regexes otherRegexes : List Regex} (h : Holds depth items regexes)
    (hothers : Holds depth others otherRegexes) :
    Holds depth (items ++ others) (regexes ++ otherRegexes) := by
  refine ⟨?_, ?_⟩
  · rw [List.map_append, h.1, hothers.1]
  · intro item hitem
    rcases List.mem_append.1 hitem with hitem | hitem
    · exact h.2 item hitem
    · exact hothers.2 item hitem

theorem Holds.single {depth : Nat} {item : Nested Regex} (h : item.depth ≤ depth) :
    Holds depth [item] [item.value] := by
  refine ⟨rfl, ?_⟩
  intro other hother
  rw [List.mem_singleton.1 hother]
  exact h

theorem foldl_max_le {depth : Nat} (depths : List Nat) (start : Nat) (hstart : start ≤ depth)
    (h : ∀ other ∈ depths, other ≤ depth) : depths.foldl max start ≤ depth := by
  induction depths generalizing start with
  | nil => exact hstart
  | cons first rest ih =>
    exact ih (max start first) (max_le hstart (h first (List.mem_cons_self ..)))
      fun other hother => h other (List.mem_cons_of_mem _ hother)

/-- Items side by side are one level deeper at most. -/
theorem Holds.depth_gather_le {depth : Nat} {items : List (Nested Regex)} {regexes : List Regex}
    (join : List Regex → Regex) (h : Holds depth items regexes) :
    (gather join items).depth ≤ depth + 1 := by
  have hdepths : ∀ other ∈ items.map (·.depth), other ≤ depth := by
    intro other hother
    obtain ⟨item, hitem, rfl⟩ := List.mem_map.1 hother
    exact h.2 item hitem
  show rowDepth (items.map (·.depth)) ≤ depth + 1
  unfold rowDepth
  split
  · omega
  · next single hsingle =>
    have := hdepths single (by rw [hsingle]; exact List.mem_singleton_self single)
    omega
  · exact Nat.succ_le_succ (foldl_max_le _ 0 (Nat.zero_le _) hdepths)

theorem Holds.value_gather {depth : Nat} {items : List (Nested Regex)} {regexes : List Regex}
    (join : List Regex → Regex) (h : Holds depth items regexes) :
    (gather join items).value = join regexes := by
  rw [gather, h.1]

/-! ## Texts that write a row -/

/-- In any group, and with any items before, the text is read as the expressions in a row; of the
groups that capture there are `number` before it and `later` after it. -/
def Writes (depth number later : Nat) (written : List Char) (regexes : List Regex) : Prop :=
  written.head? ≠ some '?' ∧
    ∀ (level : Level) (groups : List OpenGroup) (names : List (List Char)),
      ∃ items, Holds depth items regexes ∧
        Reads ⟨level, groups, .initial, number, names⟩ written
          ⟨level.pushAll items, groups, .initial, later, names⟩

theorem Writes.nil (depth number : Nat) : Writes depth number number [] [] := by
  refine ⟨by simp, fun level groups names => ⟨[], ⟨rfl, ?_⟩, Reads.refl _⟩⟩
  intro item hitem
  cases hitem

theorem Writes.append {depth number later last : Nat} {first second : List Char}
    {regexes others : List Regex} (hfirst : Writes depth number later first regexes)
    (hsecond : Writes depth later last second others) :
    Writes depth number last (first ++ second) (regexes ++ others) := by
  refine ⟨?_, fun level groups names => ?_⟩
  · cases first with
    | nil => exact hsecond.1
    | cons c first => exact hfirst.1
  · obtain ⟨items, hitems, hreads⟩ := hfirst.2 level groups names
    obtain ⟨otherItems, hotherItems, hothers⟩ := hsecond.2 (level.pushAll items) groups names
    refine ⟨items ++ otherItems, hitems.append hotherItems, ?_⟩
    rw [Level.pushAll_append]
    exact hreads.trans hothers hsecond.1

theorem Writes.mono {depth more number later : Nat} {written : List Char} {regexes : List Regex}
    (h : Writes depth number later written regexes) (hle : depth ≤ more) :
    Writes more number later written regexes := by
  refine ⟨h.1, fun level groups names => ?_⟩
  obtain ⟨items, ⟨hvalues, hdepths⟩, hreads⟩ := h.2 level groups names
  exact ⟨items, ⟨hvalues, fun item hitem => (hdepths item hitem).trans hle⟩, hreads⟩

/-- One item that is added to a row. -/
theorem Writes.item {depth number later : Nat} {written : List Char} (item : Nested Regex)
    (hhead : written.head? ≠ some '?') (hdepth : item.depth ≤ depth)
    (h : ∀ (level : Level) (groups : List OpenGroup) (names : List (List Char)),
      Reads ⟨level, groups, .initial, number, names⟩ written
        ⟨level.push item, groups, .initial, later, names⟩) :
    Writes depth number later written [item.value] :=
  ⟨hhead, fun level groups names => ⟨[item], Holds.single hdepth, h level groups names⟩⟩

theorem Writes.flatMap {α : Type} {depth number : Nat} {written : α → List Char}
    {regexes : α → List Regex} (parts : List α)
    (h : ∀ part ∈ parts, Writes depth number number (written part) (regexes part)) :
    Writes depth number number (parts.flatMap written) (parts.flatMap regexes) := by
  induction parts with
  | nil => exact Writes.nil depth number
  | cons part parts ih =>
    rw [List.flatMap_cons, List.flatMap_cons]
    exact (h part (List.mem_cons_self ..)).append
      (ih fun other hother => h other (List.mem_cons_of_mem _ hother))

/-! ## Literal characters -/

theorem readItem_literal {reading : Reading} {c : Char} (h : isMeta c = false)
    (rest : List Char) : readItem reading c rest = some (reading.pushLiteral c, rest) := by
  unfold readItem
  dsimp only
  split
  all_goals first | rfl | (exfalso; revert h; decide)

theorem readItem_escaped {reading : Reading} {c : Char} (h : isMeta c = true) (rest : List Char) :
    readItem reading '\\' (c :: rest) = some (reading.pushLiteral c, rest) := by
  have hescape : readEscape reading.flags (c :: rest) = some (.literal c, rest) := by
    have hescapable : isEscapable c = true := by rw [isEscapable, h, Bool.true_or]
    unfold readEscape
    exact if_pos hescapable
  exact congrArg (·.map fun read => (pushEscape reading read.1, read.2)) hescape

theorem writes_escape (number : Nat) (chars : List Char) :
    Writes 0 number number (escape chars) (chars.map literal) := by
  have hone : ∀ c, Writes 0 number number (if isMeta c then ['\\', c] else [c]) [literal c] := by
    intro c
    cases h : isMeta c with
    | false =>
      rw [if_neg Bool.false_ne_true]
      refine Writes.item (.flat (literal c)) ?_ (Nat.le_refl 0) fun level groups names => ?_
      · intro hhead
        rw [List.head?_cons, Option.some.injEq] at hhead
        rw [hhead] at h
        revert h
        decide
      · exact Reads.item rfl fun rest _ => readItem_literal h rest
    | true =>
      rw [if_pos rfl]
      refine Writes.item (.flat (literal c)) (by simp) (Nat.le_refl 0)
        fun level groups names => ?_
      exact Reads.item rfl fun rest _ => readItem_escaped h rest
  have hall := Writes.flatMap chars fun c _ => hone c
  rwa [← List.map_eq_flatMap] at hall

/-! ## Groups -/

def openPlain : List Char :=
  ['(', '?', ':']

theorem reads_openPlain (level : Level) (groups : List OpenGroup) (number : Nat)
    (names : List (List Char)) :
    Reads ⟨level, groups, .initial, number, names⟩ openPlain
      ⟨.initial, ⟨level, none, .initial⟩ :: groups, .initial, number, names⟩ :=
  Reads.item rfl fun _ _ => rfl

theorem reads_close (inner level : Level) (groups : List OpenGroup) (number : Nat)
    (names : List (List Char)) :
    Reads ⟨inner, ⟨level, none, .initial⟩ :: groups, .initial, number, names⟩ [')']
      ⟨level.push ⟨inner.close.value, inner.close.depth + 1⟩, groups, .initial, number, names⟩ :=
  Reads.item rfl fun _ _ => rfl

theorem repeated_optional (body : Regex) :
    body.repeated 0 (some 1) true = .iterate body 0 (some 1) true := by
  unfold repeated
  cases body.takesNothing <;> rfl

/-- The end of a group, and the question mark that belongs to it. -/
theorem reads_closeOptional (inner level : Level) (groups : List OpenGroup) (number : Nat)
    (names : List (List Char)) :
    Reads ⟨inner, ⟨level, none, .initial⟩ :: groups, .initial, number, names⟩ [')', '?']
      ⟨level.push ⟨.iterate inner.close.value 0 (some 1) true, inner.close.depth + 1 + 1⟩, groups,
        .initial, number, names⟩ := by
  have hoptional : Reads
      ⟨level.push ⟨inner.close.value, inner.close.depth + 1⟩, groups, .initial, number, names⟩ ['?']
      ⟨level.push ⟨.iterate inner.close.value 0 (some 1) true, inner.close.depth + 1 + 1⟩, groups,
        .initial, number, names⟩ := by
    refine Reads.item rfl fun rest hrest => ?_
    have hgreedy : readLazy rest = (true, rest) := by
      unfold readLazy
      split
      · exact absurd rfl hrest
      · rfl
    have hitem : ∀ reading : Reading,
        readItem reading '?' rest = readSimpleRepetition reading 0 (some 1) rest := fun _ => rfl
    rw [List.nil_append, hitem, readSimpleRepetition, hgreedy, ← repeated_optional]
    rfl
  exact Reads.cons rfl (fun _ => rfl) hoptional

theorem close_pushAll_initial (items : List (Nested Regex)) :
    (Level.initial.pushAll items).close = gather concat items := by
  rw [Level.close, Level.alternate, Level.items_pushAll, Level.branches_pushAll,
    show Level.initial.items = [] from rfl, show Level.initial.branches = [] from rfl,
    List.append_nil, List.reverse_reverse]
  rfl

/-- A group of one branch that is matched or not. -/
theorem Writes.optional {depth number : Nat} {written : List Char} {regexes : List Regex}
    (h : Writes depth number number written regexes) :
    Writes (depth + 3) number number (openPlain ++ (written ++ [')', '?']))
      [.iterate (concat regexes) 0 (some 1) true] := by
  refine ⟨by simp [openPlain], fun level groups names => ?_⟩
  obtain ⟨items, hitems, hreads⟩ := h.2 .initial (⟨level, none, .initial⟩ :: groups) names
  have hdepth := hitems.depth_gather_le concat
  have hend := reads_closeOptional (Level.initial.pushAll items) level groups number names
  rw [close_pushAll_initial, hitems.value_gather concat] at hend
  refine ⟨[⟨.iterate (concat regexes) 0 (some 1) true, (gather concat items).depth + 1 + 1⟩],
    Holds.single (by simp only; omega), ?_⟩
  refine (reads_openPlain level groups number names).trans (hreads.trans hend (by simp)) ?_
  cases written with
  | nil => simp
  | cons c written => exact h.1

/-! ## Choices -/

/-- Branches with a bar after each but the last. -/
def joinBranches : List (List Char) → List Char
  | [] => []
  | [single] => single
  | first :: rest => first ++ '|' :: joinBranches rest

theorem head?_joinBranches {branches : List (List Char)}
    (h : ∀ branch ∈ branches, branch.head? ≠ some '?') :
    (joinBranches branches).head? ≠ some '?' := by
  cases branches with
  | nil => simp [joinBranches]
  | cons first rest =>
    have hfirst := h first (List.mem_cons_self ..)
    cases rest with
    | nil => exact hfirst
    | cons second rest =>
      cases first with
      | nil => simp [joinBranches]
      | cons c first => exact hfirst

/-- The branches of a choice are read one after another. -/
theorem reads_branches {depth number : Nat} (branches : List (List Char × List Regex))
    (h : ∀ branch ∈ branches, Writes depth number number branch.1 branch.2)
    (hne : branches ≠ []) (groups : List OpenGroup) (names : List (List Char)) :
    ∀ done : List (Nested Regex), ∃ read level,
      Holds (depth + 1) read (branches.map fun branch => concat branch.2) ∧
      level.alternate.branches = read.reverse ++ done ∧
      Reads ⟨⟨done, [], false⟩, groups, .initial, number, names⟩
        (joinBranches (branches.map (·.1))) ⟨level, groups, .initial, number, names⟩ := by
  induction branches with
  | nil => exact absurd rfl hne
  | cons branch branches ih =>
    intro done
    obtain ⟨items, hitems, hreads⟩ := (h branch (List.mem_cons_self ..)).2 ⟨done, [], false⟩ groups
      names
    have hbranch : Holds (depth + 1) [gather concat items] [concat branch.2] := by
      have hsingle := Holds.single (hitems.depth_gather_le concat)
      rwa [hitems.value_gather concat] at hsingle
    have halternate : ((Level.mk done [] false).pushAll items).alternate =
        ⟨gather concat items :: done, [], false⟩ := by
      rw [Level.alternate, Level.items_pushAll, Level.branches_pushAll, List.append_nil,
        List.reverse_reverse]
    cases branches with
    | nil =>
      refine ⟨[gather concat items], _, hbranch, ?_, hreads⟩
      rw [halternate]
      rfl
    | cons other branches =>
      obtain ⟨read, level, hread, hlevel, hrest⟩ := ih
        (fun other hother => h other (List.mem_cons_of_mem _ hother)) (by simp)
        (gather concat items :: done)
      refine ⟨gather concat items :: read, level, hbranch.append hread, ?_, ?_⟩
      · rw [hlevel, List.reverse_cons, List.append_assoc]
        rfl
      · refine hreads.trans (Reads.cons rfl (fun _ => ?_) hrest) (by simp)
        show some (Reading.alternate _, _) = _
        rw [Reading.alternate, halternate]

/-- A group of several branches. -/
theorem Writes.choice {depth number : Nat} (branches : List (List Char × List Regex))
    (h : ∀ branch ∈ branches, Writes depth number number branch.1 branch.2)
    (hne : branches ≠ []) :
    Writes (depth + 3) number number
      (openPlain ++ (joinBranches (branches.map (·.1)) ++ [')']))
      [oneOf (branches.map fun branch => concat branch.2)] := by
  refine ⟨by simp [openPlain], fun level groups names => ?_⟩
  obtain ⟨read, inner, hread, hinner, hreads⟩ :=
    reads_branches branches h hne (⟨level, none, .initial⟩ :: groups) names []
  have hclose : inner.close = gather oneOf read := by
    rw [Level.close, hinner, List.append_nil, List.reverse_reverse]
  have hdepth := hread.depth_gather_le oneOf
  have hend := reads_close inner level groups number names
  rw [hclose, hread.value_gather oneOf] at hend
  refine ⟨[⟨oneOf (branches.map fun branch => concat branch.2), (gather oneOf read).depth + 1⟩],
    Holds.single (by simp only; omega), ?_⟩
  refine (reads_openPlain level groups number names).trans (hreads.trans hend (by simp)) ?_
  have hhead : (joinBranches (branches.map (·.1))).head? ≠ some '?' := by
    refine head?_joinBranches fun written hwritten => ?_
    obtain ⟨branch, hbranch, rfl⟩ := List.mem_map.1 hwritten
    exact (h branch hbranch).1
  cases hjoined : joinBranches (branches.map (·.1)) with
  | nil => simp
  | cons c joined =>
    rw [hjoined] at hhead
    exact hhead

/-! ## Placeholders -/

/-- A placeholder is a group that captures, the next one by number. -/
theorem writes_parameter (type : ParameterType) (number : Nat) :
    Writes 7 number (number + 1) ('(' :: type.pattern.toList ++ [')'])
      [.group (number + 1) type.regex] := by
  refine ⟨by simp, fun level groups names => ?_⟩
  cases type with
  | int =>
    exact ⟨[⟨_, 5⟩], Holds.single (by simp), Reads.items 6 (by decide) fun _ _ => rfl⟩
  | float =>
    exact ⟨[⟨_, 7⟩], Holds.single (by simp), Reads.items 22 (by decide) fun _ _ => rfl⟩
  | word =>
    exact ⟨[⟨_, 3⟩], Holds.single (by simp), Reads.items 4 (by decide) fun _ _ => rfl⟩
  | string =>
    exact ⟨[⟨_, 5⟩], Holds.single (by simp), Reads.items 11 (by decide) fun _ _ => rfl⟩

end Regex

/-! ## Patterns of expressions -/

namespace Expression

theorem writes_piece (number : Nat) (piece : Piece) :
    Writes 3 number number piece.pattern piece.regexes := by
  cases piece with
  | text written => exact (writes_escape number written).mono (by omega)
  | optional start written =>
    rw [Piece.pattern, List.append_assoc]
    exact (writes_escape number written).optional

theorem writes_branch (number : Nat) (branch : Branch) :
    Writes 3 number number (branchPattern branch) (branch.flatMap Piece.regexes) :=
  Writes.flatMap branch fun piece _ => writes_piece number piece

theorem choicePattern_eq (branches : List Branch) :
    choicePattern branches = joinBranches (branches.map branchPattern) := by
  induction branches with
  | nil => rfl
  | cons first rest ih =>
    cases rest with
    | nil => rfl
    | cons second rest =>
      rw [choicePattern, ih]
      · rfl
      · simp

theorem writes_segment (number : Nat) (segment : Segment) :
    Writes 6 number number segment.pattern segment.regexes := by
  cases hclosed : segment.closed with
  | nil =>
    simp only [Segment.pattern, Segment.regexes, hclosed]
    exact (writes_branch number segment.last).mono (by omega)
  | cons first rest =>
    simp only [Segment.pattern, Segment.regexes, hclosed]
    have hchoice := @Writes.choice 3 number
      (segment.branches.map fun branch => (branchPattern branch, branch.flatMap Piece.regexes))
      (by
        intro branch hbranch
        obtain ⟨pieces, _, rfl⟩ := List.mem_map.1 hbranch
        exact writes_branch number pieces)
      (by simp [Segment.branches])
    rw [List.map_map, List.map_map] at hchoice
    rw [choicePattern_eq, List.append_assoc]
    exact hchoice

theorem writes_parts (parts : List Part) (number : Nat) :
    Writes 7 number (number + (Part.parameters parts).length) (parts.flatMap Part.pattern)
      (Part.regexes number parts) := by
  induction parts generalizing number with
  | nil => exact Writes.nil 7 number
  | cons part parts ih =>
    rw [List.flatMap_cons]
    cases part with
    | blank written => exact ((writes_escape number written).mono (by omega)).append (ih number)
    | segment choice => exact ((writes_segment number choice).mono (by omega)).append (ih number)
    | parameter type =>
      have hall := (writes_parameter type number).append (ih (number + 1))
      rwa [Nat.add_assoc, Nat.add_comm 1] at hall

/-- The regular expression that the pattern of parts writes. -/
def Part.regex (parts : List Part) : Regex :=
  concat (.anchor .textStart :: Part.regexes 0 parts ++ [.anchor .textEnd])

/-- The pattern of parts is well formed. -/
theorem read_anchored (parts : List Part) :
    Regex.read? (anchored parts) = some (Part.regex parts) := by
  have hstart : Writes 7 0 0 ['^'] [.anchor .textStart] :=
    Writes.item (.flat (.anchor .textStart)) (by simp) (by simp [Nested.flat])
      fun _ _ _ => Reads.item rfl fun _ _ => rfl
  have hend : ∀ number, Writes 7 number number ['$'] [.anchor .textEnd] := fun number =>
    Writes.item (.flat (.anchor .textEnd)) (by simp) (by simp [Nested.flat])
      fun _ _ _ => Reads.item rfl fun _ _ => rfl
  have hall := (hstart.append (writes_parts parts 0)).append (hend _)
  obtain ⟨items, hitems, hreads⟩ := hall.2 .initial [] []
  obtain ⟨less, hless, hread⟩ := hreads ((anchored parts).length + 1) [] (by simp)
    (by simp [anchored])
  obtain ⟨less, rfl⟩ : ∃ least, less = least + 1 := by
    exact ⟨less - 1, by simp only [List.length_nil] at hless; omega⟩
  have hpattern : anchored parts = ['^'] ++ parts.flatMap Part.pattern ++ ['$'] ++ [] := by
    simp [anchored]
  rw [← hpattern] at hread
  have hfinish : readItems ((anchored parts).length + 1) .initial (anchored parts) =
      some ⟨Level.initial.pushAll items, [], .initial, _, []⟩ := hread
  have hdepth := hitems.depth_gather_le concat
  have hmax : (gather concat items).depth ≤ maxDepth := hdepth.trans (by decide)
  rw [read?, hfinish, Option.bind_some, Reading.finish?, close_pushAll_initial,
    if_pos ⟨rfl, hmax⟩, hitems.value_gather]
  rfl

end Expression

end Stepbook
