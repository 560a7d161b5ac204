import Stepbook.Expression.Part

/-! # Splits of a text

An expression stands for the texts that can be split into one piece for each of its tokens, where
of each run of tokens between blanks and placeholders the pieces are those of one branch.

* `ParameterType.admits`, `Token.admits`: the pieces that a token stands for.
* `branchesOf`, `Selects`: the branches of a run, and the tokens that are left when one branch of
  each run has been chosen.
* `IsSplit`: a text in pieces.
* `splits`: all splits of a text, in the order of preference.
* `mem_splits_iff`: these are the splits.
-/

namespace Stepbook
set_option autoImplicit false

/-! ## Pieces of placeholders -/

/-- A text without the sign at its front. -/
def unsigned : List Char → List Char
  | '+' :: rest => rest
  | '-' :: rest => rest
  | text => text

/-- Between two equal quotes there is no further one. -/
def isQuoted (quote : Char) : List Char → Bool
  | [] => false
  | first :: rest =>
    first == quote && rest.getLast? == some quote && !rest.dropLast.contains quote

/-- The alphabet of a placeholder. -/
def ParameterType.admits (type : ParameterType) (piece : List Char) : Bool :=
  match type with
  | .int => !(unsigned piece).isEmpty && (unsigned piece).all Char.isDigit
  | .float =>
    (unsigned piece).all (fun c => c.isDigit || c == '.') &&
      (unsigned piece).count '.' ≤ 1 && (unsigned piece).any Char.isDigit
  | .word => !piece.isEmpty && piece.all (!Text.isBlank ·)
  | .string => isQuoted '"' piece || isQuoted '\'' piece

namespace Expression

/-! ## Pieces of tokens -/

def Token.type? : Token → Option ParameterType
  | .parameter _ name => ParameterType.ofName? name
  | _ => none

def Token.admits (token : Token) (piece : List Char) : Bool :=
  match token with
  | .text chars | .blank chars => piece == chars
  | .optional _ chars => piece == chars || piece.isEmpty
  | .parameter _ name => (ParameterType.ofName? name).any (·.admits piece)
  | .separator _ => false

/-- Blanks and placeholders bound the runs of other tokens. -/
def Token.isBound : Token → Bool
  | .blank _ | .parameter _ _ => true
  | _ => false

/-- The branches of a run, which separators divide. -/
def branchesOf : List Token → List (List Token)
  | [] => [[]]
  | .separator _ :: rest => [] :: branchesOf rest
  | token :: rest => (branchesOf rest).modifyHead (token :: ·)

/-- The tokens that are left when one branch of each run has been chosen. -/
inductive Selects : List Token → List Token → Prop where
  | last {run branch : List Token} (plain : ∀ token ∈ run, token.isBound = false)
      (chosen : branch ∈ branchesOf run) : Selects run branch
  | bound {run branch rest selected : List Token} {bound : Token}
      (plain : ∀ token ∈ run, token.isBound = false) (chosen : branch ∈ branchesOf run)
      (bounds : bound.isBound = true) (others : Selects rest selected) :
      Selects (run ++ bound :: rest) (branch ++ bound :: selected)

/-! ## Splits -/

/-- Tokens with their pieces. -/
abbrev Split := List (Token × List Char)

structure IsSplit (tokens : List Token) (text : List Char) (split : Split) : Prop where
  selects : Selects tokens (split.map (·.1))
  admits : ∀ part ∈ split, part.1.admits part.2 = true
  text_eq : (split.map (·.2)).flatten = text

/-- The pieces of the placeholders, with their types. -/
def Split.captures (split : Split) : List (List Char × ParameterType) :=
  split.filterMap fun part => part.1.type?.map fun type => (part.2, type)

/-! ## The order of preference

Decisions are taken from left to right: an earlier branch is preferred to a later one, and then a
longer piece of a token to a shorter one. -/

/-- The beginnings of a text, the longest first. -/
def prefixes : List Char → List (List Char)
  | [] => [[]]
  | c :: rest => (prefixes rest).map (c :: ·) ++ [[]]

/-- The pieces of a token at the front of a text. -/
def Token.pieces (token : Token) (text : List Char) : List (List Char) :=
  (prefixes text).filter token.admits

/-- The splits of the front of a text, with what is left of it, by tokens in a row. -/
def rowSplits : List Token → List Char → List (Split × List Char)
  | [], text => [([], text)]
  | token :: tokens, text =>
    (token.pieces text).flatMap fun piece =>
      (rowSplits tokens (text.drop piece.length)).map fun (split, rest) =>
        ((token, piece) :: split, rest)

def runSplits (run : List Token) (text : List Char) : List (Split × List Char) :=
  (branchesOf run).flatMap fun branch => rowSplits branch text

/-- The first run of tokens, and each bounding token with the run after it. -/
def runs : List Token → List Token × List (Token × List Token)
  | [] => ([], [])
  | token :: rest =>
    if token.isBound then ([], (token, (runs rest).1) :: (runs rest).2)
    else (token :: (runs rest).1, (runs rest).2)

/-- The splits by a run and by the bounding tokens and runs after it. -/
def runsSplits (run : List Token) : List (Token × List Token) → List Char →
    List (Split × List Char)
  | [], text => runSplits run text
  | (bound, next) :: others, text =>
    (runSplits run text).flatMap fun (split, rest) =>
      (rowSplits [bound] rest).flatMap fun (middle, rest) =>
        (runsSplits next others rest).map fun (later, rest) => (split ++ (middle ++ later), rest)

/-- All splits of a text, the preferred one first. -/
def splits (tokens : List Token) (text : List Char) : List Split :=
  ((runsSplits (runs tokens).1 (runs tokens).2 text).filter (·.2.isEmpty)).map (·.1)

/-! ## All splits are found -/

theorem mem_prefixes {piece text : List Char} :
    piece ∈ prefixes text ↔ ∃ rest, piece ++ rest = text := by
  induction text generalizing piece with
  | nil => simp [prefixes]
  | cons c text ih =>
    simp only [prefixes, List.mem_append, List.mem_map, List.mem_singleton]
    constructor
    · rintro (⟨later, hlater, rfl⟩ | rfl)
      · obtain ⟨rest, rfl⟩ := ih.1 hlater
        exact ⟨rest, rfl⟩
      · exact ⟨c :: text, rfl⟩
    · rintro ⟨rest, heq⟩
      cases piece with
      | nil => exact .inr rfl
      | cons d piece =>
        rw [List.cons_append, List.cons.injEq] at heq
        exact .inl ⟨piece, ih.2 ⟨rest, heq.2⟩, by rw [heq.1]⟩

/-- The split has the tokens, each with a piece of its own, and `rest` is left of the text. -/
def IsRow (tokens : List Token) (text : List Char) (split : Split) (rest : List Char) : Prop :=
  split.map (·.1) = tokens ∧ (∀ part ∈ split, part.1.admits part.2 = true) ∧
    (split.map (·.2)).flatten ++ rest = text

theorem mem_rowSplits {tokens : List Token} {text rest : List Char} {split : Split} :
    (split, rest) ∈ rowSplits tokens text ↔ IsRow tokens text split rest := by
  induction tokens generalizing text split with
  | nil =>
    simp only [rowSplits, List.mem_singleton, Prod.mk.injEq, IsRow, List.map_eq_nil_iff]
    constructor
    · rintro ⟨rfl, rfl⟩
      exact ⟨rfl, by simp, rfl⟩
    · rintro ⟨rfl, -, h⟩
      exact ⟨rfl, h⟩
  | cons token tokens ih =>
    simp only [rowSplits, Token.pieces, List.mem_flatMap, List.mem_filter, List.mem_map,
      Prod.exists, Prod.mk.injEq, mem_prefixes]
    constructor
    · rintro ⟨piece, ⟨⟨after, rfl⟩, hadmits⟩, later, last, hlater, rfl, rfl⟩
      rw [List.drop_left, ih] at hlater
      obtain ⟨rfl, hadmitsLater, rfl⟩ := hlater
      refine ⟨rfl, ?_, by simp⟩
      intro part hpart
      rcases List.mem_cons.1 hpart with rfl | hpart
      · exact hadmits
      · exact hadmitsLater part hpart
    · rintro ⟨htokens, hadmits, htext⟩
      cases split with
      | nil => simp at htokens
      | cons part later =>
        obtain ⟨first, piece⟩ := part
        rw [List.map_cons, List.cons.injEq] at htokens
        obtain ⟨rfl, htokens⟩ := htokens
        rw [List.map_cons, List.flatten_cons, List.append_assoc] at htext
        refine ⟨piece, ⟨⟨_, htext⟩, hadmits _ (List.mem_cons_self ..)⟩, later, rest, ?_, rfl, rfl⟩
        rw [← htext, List.drop_left, ih]
        exact ⟨htokens, fun other hother => hadmits other (List.mem_cons_of_mem _ hother), rfl⟩

theorem mem_runSplits {run : List Token} {text rest : List Char} {split : Split} :
    (split, rest) ∈ runSplits run text ↔
      ∃ branch ∈ branchesOf run, IsRow branch text split rest := by
  simp only [runSplits, List.mem_flatMap, mem_rowSplits]

/-- The tokens of a first run and of the bounding tokens and runs after it. -/
def unite (run : List Token) (others : List (Token × List Token)) : List Token :=
  run ++ others.flatMap fun (bound, next) => bound :: next

theorem unite_runs (tokens : List Token) : unite (runs tokens).1 (runs tokens).2 = tokens := by
  induction tokens with
  | nil => rfl
  | cons token tokens ih =>
    unfold unite at ih
    rw [runs]
    split
    · simp [unite, ih]
    · simp [unite, ih]

/-- Runs hold no bounding token, and what is between them is one. -/
def AreRuns (run : List Token) (others : List (Token × List Token)) : Prop :=
  (∀ token ∈ run, token.isBound = false) ∧
    ∀ other ∈ others, other.1.isBound = true ∧ ∀ token ∈ other.2, token.isBound = false

theorem AreRuns.later {run next : List Token} {bound : Token} {others : List (Token × List Token)}
    (h : AreRuns run ((bound, next) :: others)) : AreRuns next others :=
  ⟨(h.2 (bound, next) (List.mem_cons_self ..)).2,
    fun other hother => h.2 other (List.mem_cons_of_mem _ hother)⟩

theorem areRuns_runs (tokens : List Token) : AreRuns (runs tokens).1 (runs tokens).2 := by
  induction tokens with
  | nil => exact ⟨by simp [runs], by simp [runs]⟩
  | cons token tokens ih =>
    rw [runs]
    split
    · next hbound =>
      refine ⟨by simp, ?_⟩
      intro other hother
      rcases List.mem_cons.1 hother with rfl | hother
      · exact ⟨hbound, ih.1⟩
      · exact ih.2 other hother
    · next hplain =>
      refine ⟨?_, ih.2⟩
      intro other hother
      rcases List.mem_cons.1 hother with rfl | hother
      · exact Bool.eq_false_iff.2 hplain
      · exact ih.1 other hother

theorem append_bound_inj {run next rest other : List Token} {bound token : Token}
    (hrun : ∀ token ∈ run, token.isBound = false) (hnext : ∀ token ∈ next, token.isBound = false)
    (hbound : bound.isBound = true) (htoken : token.isBound = true)
    (h : run ++ bound :: rest = next ++ token :: other) :
    run = next ∧ bound = token ∧ rest = other := by
  induction run generalizing next with
  | nil =>
    cases next with
    | nil =>
      rw [List.nil_append, List.nil_append, List.cons.injEq] at h
      exact ⟨rfl, h⟩
    | cons first next =>
      rw [List.nil_append, List.cons_append, List.cons.injEq] at h
      rw [h.1, hnext first (List.mem_cons_self ..)] at hbound
      cases hbound
  | cons first run ih =>
    cases next with
    | nil =>
      rw [List.nil_append, List.cons_append, List.cons.injEq] at h
      rw [← h.1, hrun first (List.mem_cons_self ..)] at htoken
      cases htoken
    | cons second next =>
      rw [List.cons_append, List.cons_append, List.cons.injEq] at h
      obtain ⟨hsame, hbounds⟩ := ih (fun token htoken => hrun token (List.mem_cons_of_mem _ htoken))
        (fun token htoken => hnext token (List.mem_cons_of_mem _ htoken)) h.2
      exact ⟨by rw [h.1, hsame], hbounds⟩

/-- A selection from a run alone, or from a run with others after it. -/
theorem selects_unite {run selected : List Token} {others : List (Token × List Token)}
    (hruns : AreRuns run others) :
    Selects (unite run others) selected ↔
      match others with
      | [] => selected ∈ branchesOf run
      | (bound, next) :: others =>
        ∃ branch ∈ branchesOf run, ∃ later, Selects (unite next others) later ∧
          selected = branch ++ bound :: later := by
  cases others with
  | nil =>
    simp only [unite, List.flatMap_nil, List.append_nil]
    constructor
    · intro h
      cases h with
      | last plain chosen => exact chosen
      | bound plain chosen bounds others =>
        have hplain := hruns.1 _ (List.mem_append_right _ (List.mem_cons_self ..))
        rw [bounds] at hplain
        cases hplain
    · exact Selects.last hruns.1
  | cons other others =>
    obtain ⟨bound, next⟩ := other
    have hbound := (hruns.2 (bound, next) (List.mem_cons_self ..)).1
    have hunite : unite run ((bound, next) :: others) = run ++ bound :: unite next others := by
      simp [unite]
    rw [hunite]
    constructor
    · intro h
      generalize htokens : run ++ bound :: unite next others = tokens at h
      cases h with
      | last plain chosen =>
        rw [← htokens] at plain
        have hplain := plain bound (List.mem_append_right _ (List.mem_cons_self ..))
        rw [hbound] at hplain
        cases hplain
      | bound plain chosen bounds later =>
        obtain ⟨rfl, rfl, rfl⟩ := append_bound_inj hruns.1 plain hbound bounds htokens
        exact ⟨_, chosen, _, later, rfl⟩
    · rintro ⟨branch, hbranch, later, hlater, rfl⟩
      exact .bound hruns.1 hbranch hbound hlater

theorem mem_runsSplits {run : List Token} {others : List (Token × List Token)}
    {text rest : List Char} {split : Split} (hruns : AreRuns run others) :
    (split, rest) ∈ runsSplits run others text ↔
      ∃ selected, Selects (unite run others) selected ∧ IsRow selected text split rest := by
  simp only [selects_unite hruns]
  induction others generalizing run text split with
  | nil => exact mem_runSplits
  | cons other others ih =>
    obtain ⟨bound, next⟩ := other
    have hnext := hruns.later
    simp only [runsSplits, List.mem_flatMap, List.mem_map, Prod.exists, Prod.mk.injEq]
    constructor
    · rintro ⟨first, afterFirst, hfirst, middle, afterMiddle, hmiddle, later, last, hlater, rfl,
        rfl⟩
      obtain ⟨branch, hbranch, rfl, hadmits, rfl⟩ := mem_runSplits.1 hfirst
      obtain ⟨hbound, hadmitsMiddle, rfl⟩ := mem_rowSplits.1 hmiddle
      obtain ⟨selected, hselected, rfl, hadmitsLater, rfl⟩ := (ih hnext).1 hlater
      refine ⟨_, ⟨_, hbranch, _, (selects_unite hnext).2 hselected, rfl⟩, ?_, ?_, ?_⟩
      · rw [List.map_append, List.map_append, hbound]
        rfl
      · intro part hpart
        rcases List.mem_append.1 hpart with hpart | hpart
        · exact hadmits part hpart
        · rcases List.mem_append.1 hpart with hpart | hpart
          · exact hadmitsMiddle part hpart
          · exact hadmitsLater part hpart
      · simp [List.append_assoc]
    · rintro ⟨_, ⟨branch, hbranch, later, hlater, rfl⟩, htokens, hadmits, htext⟩
      obtain ⟨first, others', rfl, rfl, hothers⟩ := List.map_eq_append_iff.1 htokens
      obtain ⟨part, laterSplit, rfl, rfl, rfl⟩ := List.map_eq_cons_iff.1 hothers
      refine ⟨first, ([part].map (·.2)).flatten ++ ((laterSplit.map (·.2)).flatten ++ rest), ?_,
        [part], (laterSplit.map (·.2)).flatten ++ rest, ?_, laterSplit, rest, ?_, rfl, rfl⟩
      · refine mem_runSplits.2 ⟨_, hbranch, rfl, ?_, ?_⟩
        · exact fun other hother => hadmits other (List.mem_append_left _ hother)
        · rw [← htext]
          simp [List.append_assoc]
      · refine mem_rowSplits.2 ⟨rfl, ?_, rfl⟩
        intro other hother
        rw [List.mem_singleton.1 hother]
        exact hadmits part (List.mem_append_right _ (List.mem_cons_self ..))
      · refine (ih hnext).2 ⟨_, (selects_unite hnext).1 hlater, rfl, ?_, rfl⟩
        exact fun other hother =>
          hadmits other (List.mem_append_right _ (List.mem_cons_of_mem _ hother))

theorem mem_splits_iff {tokens : List Token} {text : List Char} {split : Split} :
    split ∈ splits tokens text ↔ IsSplit tokens text split := by
  simp only [splits, List.mem_map, List.mem_filter, Prod.exists, List.isEmpty_iff]
  constructor
  · rintro ⟨found, rest, ⟨hfound, rfl⟩, rfl⟩
    obtain ⟨selected, hselects, rfl, hadmits, htext⟩ :=
      (mem_runsSplits (areRuns_runs tokens)).1 hfound
    rw [unite_runs] at hselects
    rw [List.append_nil] at htext
    exact ⟨hselects, hadmits, htext⟩
  · rintro ⟨hselects, hadmits, htext⟩
    refine ⟨split, [], ⟨(mem_runsSplits (areRuns_runs tokens)).2 ⟨_, ?_, rfl, hadmits, ?_⟩, rfl⟩, rfl⟩
    · rwa [unite_runs]
    · rwa [List.append_nil]

end Expression

end Stepbook
