import Stepbook.Source.Bytes

/-! # Scanning by position

The search among the bytes of a script as loops that go from position to position. A round of a loop
looks at one byte and either ends the loop or says where the next round starts.

* `Round`, `Loop`: one round, and a loop whose rounds go forward.
* `stringLoop`, `regexLoop`, `triviaLoop`, `closeLoop`: the loops that look for an end.
* `mainLoop`: the loop that looks for calls.
-/

namespace Stepbook.Source
set_option autoImplicit false

/-! ## Loops -/

inductive Round (σ ρ : Type) where
  | again (state : σ)
  | done (result : ρ)
  deriving DecidableEq, Repr

/-- What a round comes to, by how it ends. -/
def Round.fold {σ ρ γ : Type} (again : σ → γ) (done : ρ → γ) : Round σ ρ → γ
  | .again state => again state
  | .done result => done result

/-- A round that is followed by another starts before the bound, and the other one further on. -/
structure Loop (σ ρ : Type) where
  round : σ → Round σ ρ
  position : σ → Nat
  bound : Nat
  within : ∀ {state next : σ}, round state = .again next → position state < bound
  forward : ∀ {state next : σ}, round state = .again next → position state < position next

namespace Loop

variable {σ ρ : Type} (loop : Loop σ ρ)

def run (state : σ) : ρ :=
  match _ : loop.round state with
  | .again next => run next
  | .done result => result
termination_by loop.bound - loop.position state
decreasing_by
  have hwithin := loop.within ‹loop.round state = .again next›
  have hforward := loop.forward ‹loop.round state = .again next›
  omega

/-- From the last round back to the first one. -/
theorem run_induct {motive : σ → ρ → Prop}
    (again : ∀ state next result,
      loop.round state = .again next → motive next result → motive state result)
    (done : ∀ state result, loop.round state = .done result → motive state result) (state : σ) :
    motive state (loop.run state) := by
  fun_induction loop.run state with
  | case1 state next h ih => exact again state next _ h ih
  | case2 state result h => exact done state result h

/-- What the last round finds at its own position is not in front of the first one. -/
theorem run_bounds {loop : Loop σ (Option Nat)}
    (hdone : ∀ state stop, loop.round state = .done (some stop) →
      stop = loop.position state ∧ stop < loop.bound)
    {state : σ} {stop : Nat} (h : loop.run state = some stop) :
    loop.position state ≤ stop ∧ stop < loop.bound := by
  refine loop.run_induct (motive := fun state result =>
    ∀ stop, result = some stop → loop.position state ≤ stop ∧ stop < loop.bound) ?_ ?_ state stop h
  · intro state next result hround hresult stop hstop
    have hforward := loop.forward hround
    have hbounds := hresult stop hstop
    omega
  · rintro state _ hround stop rfl
    obtain ⟨heq, hlength⟩ := hdone state stop hround
    exact ⟨Nat.le_of_eq heq.symm, hlength⟩

end Loop

namespace Scanner

section
variable (source : String)

/-! ## Bytes -/

def length : Nat :=
  (bytes source).length

def byte? (pos : Nat) : Option Char :=
  (bytes source)[pos]?

/-- The bytes from a position on, if it lies between characters. -/
def tail? (pos : Nat) : Option (List Char) :=
  if String.Pos.Raw.IsValid source ⟨pos⟩ then some ((bytes source).drop pos) else none

def slice (start stop : Nat) : String :=
  Bytes.slice "" source start stop

def lineOf (pos : Nat) : Nat :=
  ((bytes source).take pos).count '\n' + 1

def lineEnd (pos : Nat) : Nat :=
  match tail? source pos with
  | some rest => pos + lineLength rest
  | none => length source

def wordEnd (pos : Nat) : Nat :=
  pos + (((bytes source).drop pos).takeWhile isWordPart).length

def commentEnd? (pos : Nat) : Option Nat :=
  (tail? source pos).bind fun rest => (commentLength? rest).map (pos + ·)

def regexAllowed (pos : Nat) : Bool :=
  ((Place.start (bytes source)).advance pos).regexAllowed

variable {source} {pos stop : Nat} {c : Char}

theorem lt_length (h : byte? source pos = some c) : pos < length source :=
  (List.getElem?_eq_some_iff.1 h).1

theorem drop_eq (h : byte? source pos = some c) :
    (bytes source).drop pos = c :: (bytes source).drop (pos + 1) := by
  obtain ⟨hlt, rfl⟩ := List.getElem?_eq_some_iff.1 h
  exact List.drop_eq_getElem_cons hlt

theorem exists_commentEnd? (h : commentEnd? source pos = some stop) :
    ∃ count, commentLength? ((bytes source).drop pos) = some count ∧ stop = pos + count := by
  obtain ⟨rest, hrest, hstop⟩ := Option.bind_eq_some_iff.1 h
  obtain ⟨count, hcount, rfl⟩ := Option.map_eq_some_iff.1 hstop
  unfold tail? at hrest
  split at hrest
  · cases hrest
    exact ⟨count, hcount, rfl⟩
  · cases hrest

theorem commentEnd?_bounds (h : commentEnd? source pos = some stop) :
    pos < stop ∧ stop ≤ length source := by
  obtain ⟨count, hcount, rfl⟩ := exists_commentEnd? h
  obtain ⟨hlow, hne⟩ := two_le_of_commentLength? hcount
  have hle := commentLength?_le_length hcount
  rw [Ne, List.drop_eq_nil_iff] at hne
  rw [List.length_drop] at hle
  unfold length
  omega

theorem wordEnd_bounds (source : String) (pos : Nat) :
    pos ≤ wordEnd source pos ∧ wordEnd source pos ≤ max pos (length source) := by
  have hle := (List.takeWhile_prefix (l := (bytes source).drop pos) isWordPart).length_le
  rw [List.length_drop] at hle
  unfold wordEnd length
  omega

theorem lt_wordEnd (h : byte? source pos = some c) (hc : isWordStart c = true) :
    pos < wordEnd source pos := by
  have hpart : isWordPart c = true := by rw [isWordPart, hc, Bool.true_or]
  rw [wordEnd, drop_eq h, List.takeWhile_cons_of_pos hpart, List.length_cons]
  omega

theorem lineEnd_le (source : String) (pos : Nat) : lineEnd source pos ≤ length source := by
  unfold lineEnd tail?
  split
  · next rest hrest =>
    split at hrest
    · next hvalid =>
      cases hrest
      have hpos : pos ≤ length source := by
        rw [length, bytes, List.length_map]
        exact hvalid.le_rawEndPos
      have hle := lineLength_le ((bytes source).drop pos)
      rw [List.length_drop] at hle
      unfold length at hpos ⊢
      omega
    · cases hrest
  · exact Nat.le_refl _

theorem lt_lineEnd (h : byte? source pos = some c) (hc : c ≠ '\n') : pos < lineEnd source pos := by
  have hone : lineLength ((bytes source).drop pos) ≠ 0 := by
    rw [drop_eq h, lineLength, List.takeWhile_cons_of_pos (by simpa using hc), List.length_cons]
    exact Nat.succ_ne_zero _
  unfold lineEnd tail?
  split
  · next rest hrest =>
    split at hrest
    · cases hrest
      omega
    · cases hrest
  · exact lt_length h

end

/-! ## Literals -/

section
variable (source : String)

def stringRound (quote : Char) (pos : Nat) : Round Nat (Option Nat) :=
  match byte? source pos with
  | none => .done none
  | some c =>
    if c = '\\' then .again (pos + 2)
    else if c = quote then .done (some pos)
    else if c = '\n' ∧ quote ≠ '`' then .done none
    else .again (pos + 1)

/-- An escape is passed with both of its characters, any other character alone. -/
theorem stringRound_again {quote : Char} {pos next : Nat}
    (h : stringRound source quote pos = .again next) :
    pos < length source ∧
      (next = pos + 1 ∨ byte? source pos = some '\\' ∧ next = pos + 2) := by
  unfold stringRound at h
  split at h
  · cases h
  · next c hbyte =>
    refine ⟨lt_length hbyte, ?_⟩
    repeat' split at h
    all_goals cases h
    · next hescape => exact .inr ⟨hescape ▸ hbyte, rfl⟩
    · exact .inl rfl

def stringLoop (quote : Char) : Loop Nat (Option Nat) where
  round := stringRound source quote
  position pos := pos
  bound := length source
  within h := (stringRound_again source h).1
  forward h := by
    have hnext := (stringRound_again source h).2
    omega

/-- The quote that closes the string which the one at the position opens. -/
def stringEnd? (pos : Nat) : Option Nat :=
  (byte? source pos).bind fun quote => (stringLoop source quote).run (pos + 1)

/-- Whether the position is in a class of characters, and the position. -/
def regexRound : Bool × Nat → Round (Bool × Nat) (Option Nat)
  | (inClass, pos) =>
    match byte? source pos with
    | none => .done none
    | some c =>
      if c = '\\' then .again (inClass, pos + 2)
      else if c = '\n' then .done none
      else if c = '[' then .again (true, pos + 1)
      else if c = ']' then .again (false, pos + 1)
      else if c = '/' ∧ inClass = false then .done (some pos)
      else .again (inClass, pos + 1)

theorem regexRound_again {state next : Bool × Nat} (h : regexRound source state = .again next) :
    state.2 < length source ∧
      (next.2 = state.2 + 1 ∨ byte? source state.2 = some '\\' ∧ next.2 = state.2 + 2) := by
  obtain ⟨inClass, pos⟩ := state
  unfold regexRound at h
  dsimp only at h
  split at h
  · cases h
  · next c hbyte =>
    refine ⟨lt_length hbyte, ?_⟩
    repeat' split at h
    all_goals cases h
    · next hescape => exact .inr ⟨hescape ▸ hbyte, rfl⟩
    all_goals exact .inl rfl

def regexLoop : Loop (Bool × Nat) (Option Nat) where
  round := regexRound source
  position state := state.2
  bound := length source
  within h := (regexRound_again source h).1
  forward h := by
    have hnext := (regexRound_again source h).2
    omega

/-- The slash that closes the regular expression which the one at the position opens. -/
def regexEnd? (pos : Nat) : Option Nat :=
  (regexLoop source).run (false, pos + 1)

variable {source} {pos stop : Nat}

theorem stringEnd?_bounds (h : stringEnd? source pos = some stop) :
    pos < stop ∧ stop < length source := by
  obtain ⟨quote, -, hrun⟩ := Option.bind_eq_some_iff.1 h
  refine Loop.run_bounds ?_ hrun
  intro pos stop hround
  change stringRound source quote pos = _ at hround
  unfold stringRound at hround
  split at hround
  · cases hround
  · next hbyte =>
    repeat' split at hround
    all_goals cases hround
    exact ⟨rfl, lt_length hbyte⟩

theorem regexEnd?_bounds (h : regexEnd? source pos = some stop) :
    pos < stop ∧ stop < length source := by
  refine Loop.run_bounds ?_ h
  rintro ⟨inClass, pos⟩ stop hround
  change regexRound source (inClass, pos) = _ at hround
  unfold regexRound at hround
  dsimp only at hround
  split at hround
  · cases hround
  · next hbyte =>
    repeat' split at hround
    all_goals cases hround
    exact ⟨rfl, lt_length hbyte⟩

end

/-! ## Blanks and comments -/

section
variable (source : String)

def triviaRound (pos : Nat) : Round Nat Nat :=
  match commentEnd? source pos with
  | some stop => .again stop
  | none =>
    match byte? source pos with
    | some c => if Text.isAsciiBlank c then .again (pos + 1) else .done pos
    | none => .done pos

theorem triviaRound_again {pos next : Nat} (h : triviaRound source pos = .again next) :
    pos < next ∧ next ≤ length source := by
  unfold triviaRound at h
  repeat' split at h
  all_goals cases h
  · next hcomment => exact commentEnd?_bounds hcomment
  · next hbyte _ => exact ⟨Nat.lt_succ_self pos, lt_length hbyte⟩

def triviaLoop : Loop Nat Nat where
  round := triviaRound source
  position pos := pos
  bound := length source
  within h := Nat.lt_of_lt_of_le (triviaRound_again source h).1 (triviaRound_again source h).2
  forward h := (triviaRound_again source h).1

def skipTrivia (pos : Nat) : Nat :=
  (triviaLoop source).run pos

theorem skipTrivia_bounds (pos : Nat) :
    pos ≤ skipTrivia source pos ∧ skipTrivia source pos ≤ max pos (length source) := by
  refine (triviaLoop source).run_induct
    (motive := fun pos stop => pos ≤ stop ∧ stop ≤ max pos (length source)) ?_ ?_ pos
  · intro pos next stop hround hstop
    have hnext := triviaRound_again source hround
    omega
  · intro pos stop hround
    change triviaRound source pos = _ at hround
    unfold triviaRound at hround
    repeat' split at hround
    all_goals cases hround
    all_goals exact ⟨Nat.le_refl _, Nat.le_max_left _ _⟩

/-! ## Brackets -/

/-- How the search for a closing bracket ends. -/
inductive BracketEnd where
  | found (pos : Nat)
  /-- A bracket closes where none is open. -/
  | unmatched
  | missing
  deriving DecidableEq, Repr

def BracketEnd.pos? : BracketEnd → Option Nat
  | .found pos => some pos
  | .unmatched | .missing => none

def isOpening (c : Char) : Bool :=
  c == '(' || c == '[' || c == '{'

def isClosing (c : Char) : Bool :=
  c == ')' || c == ']' || c == '}'

/-- The number of open brackets, and the position. -/
def closeRound : Nat × Nat → Round (Nat × Nat) BracketEnd
  | (depth, pos) =>
    match byte? source pos with
    | none => .done .missing
    | some c =>
      if isOpening c then .again (depth + 1, pos + 1)
      else if isClosing c then
        match depth with
        | 0 => .done .unmatched
        | 1 => .done (.found pos)
        | depth + 2 => .again (depth + 1, pos + 1)
      else if isQuote c then
        match stringEnd? source pos with
        | some stop => .again (depth, stop + 1)
        | none => .done .missing
      else if c = '/' then
        match commentEnd? source pos with
        | some stop => .again (depth, stop)
        | none =>
          if regexAllowed source pos then
            match regexEnd? source pos with
            | some stop => .again (depth, stop + 1)
            | none => .done .missing
          else .again (depth, pos + 1)
      else .again (depth, pos + 1)

/-- A bracket opens or closes, or what is passed is no bracket. -/
theorem closeRound_again {state next : Nat × Nat} (h : closeRound source state = .again next) :
    state.2 < next.2 ∧ next.2 ≤ length source ∧ ∃ c, byte? source state.2 = some c ∧
      (isOpening c = true ∧ next.1 = state.1 + 1 ∨
        isOpening c = false ∧ (next.1 = state.1 ∨ next.1 = state.1 - 1 ∧ 2 ≤ state.1)) := by
  obtain ⟨depth, pos⟩ := state
  unfold closeRound at h
  dsimp only at h
  split at h
  · cases h
  · next c hbyte =>
    have hlength : pos + 1 ≤ length source := lt_length hbyte
    by_cases hopening : isOpening c = true
    · rw [if_pos hopening] at h
      cases h
      exact ⟨Nat.lt_succ_self pos, hlength, c, hbyte, .inl ⟨hopening, rfl⟩⟩
    · have hother : isOpening c = false := by simpa using hopening
      rw [if_neg hopening] at h
      repeat' split at h
      all_goals cases h
      · exact ⟨Nat.lt_succ_self pos, hlength, c, hbyte, .inr ⟨hother, .inr ⟨rfl, by omega⟩⟩⟩
      all_goals refine and_assoc.1 ⟨?_, c, hbyte, .inr ⟨hother, .inl rfl⟩⟩
      · next hstop =>
        obtain ⟨hlow, hhigh⟩ := stringEnd?_bounds hstop
        exact ⟨Nat.lt_succ_of_lt hlow, hhigh⟩
      · next hstop => exact commentEnd?_bounds hstop
      · next hstop =>
        obtain ⟨hlow, hhigh⟩ := regexEnd?_bounds hstop
        exact ⟨Nat.lt_succ_of_lt hlow, hhigh⟩
      · exact ⟨Nat.lt_succ_self pos, hlength⟩
      · exact ⟨Nat.lt_succ_self pos, hlength⟩

def closeLoop : Loop (Nat × Nat) BracketEnd where
  round := closeRound source
  position state := state.2
  bound := length source
  within h := Nat.lt_of_lt_of_le (closeRound_again source h).1 (closeRound_again source h).2.1
  forward h := (closeRound_again source h).1

/-- The bracket that closes the one at the position. -/
def matchingClose? (opening : Nat) : Option Nat :=
  ((closeLoop source).run (0, opening)).pos?

variable {source}

theorem matchingClose?_bounds {opening close : Nat}
    (h : matchingClose? source opening = some close) :
    opening < close ∧ close < length source := by
  have hbounds := (closeLoop source).run_induct
    (motive := fun state result => ∀ close, result.pos? = some close →
      state.2 ≤ close ∧ close < length source ∧ (state.1 = 0 → state.2 < close))
    ?_ ?_ (0, opening) close h
  · exact ⟨hbounds.2.2 rfl, hbounds.2.1⟩
  · intro state next result hround hresult close hclose
    have hnext := (closeRound_again source hround).1
    have hbounds := hresult close hclose
    omega
  · rintro ⟨depth, pos⟩ result hround close hclose
    change closeRound source (depth, pos) = _ at hround
    unfold closeRound at hround
    dsimp only at hround
    split at hround
    · cases hround
      cases hclose
    · next hbyte =>
      have hlength := lt_length hbyte
      repeat' split at hround
      all_goals cases hround
      all_goals cases hclose
      exact ⟨Nat.le_refl _, hlength, fun hdepth => absurd hdepth Nat.one_ne_zero⟩

end

/-! ## Calls -/

section
variable (source : String)

/-- The pattern that the literal at the position writes. -/
def literalPattern (pos : Nat) : Except Fault (List Char × Variant) :=
  match byte? source pos with
  | none => .error .ambiguousPattern
  | some c =>
    if c = '/' then
      match regexEnd? source pos with
      | some stop => .ok ((slice source (pos + 1) stop).toList, .regex)
      | none => .error .unterminatedPattern
    else if isQuote c then
      match stringEnd? source pos with
      | some stop =>
        let body := (slice source (pos + 1) stop).toList
        if c = '`' ∧ hasInterpolation body = true then .error .ambiguousPattern
        else .ok (unescape body, .expression)
      | none => .error .unterminatedPattern
    else .error .ambiguousPattern

/-- The call whose keyword starts at one position and whose bracket opens at another, and the
position at which the search goes on. -/
def call (type : StepType) (start opening : Nat) : Finding × Nat :=
  let skipped := fun (fault : Fault) (snippet : String) =>
    Finding.skipped ⟨type, fault, start, lineOf source start, snippet⟩
  match matchingClose? source opening with
  | none => (skipped .unterminatedCall (slice source start (lineEnd source start)), opening + 1)
  | some close =>
    let snippet := slice source start (close + 1)
    match literalPattern source (skipTrivia source (opening + 1)) with
    | .ok (pattern, variant) =>
      (.definition ⟨type, String.ofList pattern, variant, snippet⟩, close + 1)
    | .error fault => (skipped fault snippet, close + 1)

/-- The kind of step that the word between the positions registers, and where the bracket behind it
opens. -/
def registration? (start stop : Nat) : Option (StepType × Nat) :=
  (StepType.ofName? (slice source start stop).toList).bind fun type =>
    if byte? source (skipTrivia source stop) = some '(' then some (type, skipTrivia source stop)
    else none

/-- What has been found up to the end of the word at the position, or of the call that it starts. -/
def passWord (found : List Finding) (pos : Nat) : List Finding × Nat :=
  match registration? source pos (wordEnd source pos) with
  | some (type, opening) =>
    (found ++ [(call source type pos opening).1], (call source type pos opening).2)
  | none => (found, wordEnd source pos)

/-- What has been found, and the position. -/
def mainRound : List Finding × Nat → Round (List Finding × Nat) (List Finding)
  | (found, pos) =>
    match byte? source pos with
    | none => .done found
    | some c =>
      match commentEnd? source pos with
      | some stop => .again (found, stop)
      | none =>
        if c = '`' then .again (found, (stringEnd? source pos).elim (length source) (· + 1))
        else if isQuote c then
          .again (found, (stringEnd? source pos).elim (lineEnd source pos) (· + 1))
        else if c = '/' ∧ regexAllowed source pos = true then
          .again (found, (regexEnd? source pos).elim (lineEnd source pos) (· + 1))
        else if isWordStart c then .again (passWord source found pos)
        else .again (found, pos + 1)

variable {source} {pos : Nat}

theorem le_registration? {start stop opening : Nat} {type : StepType}
    (h : registration? source start stop = some (type, opening)) :
    stop ≤ opening ∧ byte? source opening = some '(' := by
  obtain ⟨found, -, hfound⟩ := Option.bind_eq_some_iff.1 h
  split at hfound
  · next hbyte =>
    cases hfound
    exact ⟨(skipTrivia_bounds source stop).1, hbyte⟩
  · cases hfound

theorem call_bounds (type : StepType) (start : Nat) {opening : Nat} (h : opening < length source) :
    opening < (call source type start opening).2 ∧
      (call source type start opening).2 ≤ length source := by
  unfold call
  dsimp only
  split
  · exact ⟨Nat.lt_succ_self opening, h⟩
  · next close hclose =>
    obtain ⟨hlow, hhigh⟩ := matchingClose?_bounds hclose
    split <;> exact ⟨Nat.lt_succ_of_lt hlow, hhigh⟩

theorem passWord_bounds {c : Char} (h : byte? source pos = some c) (hc : isWordStart c = true)
    (found : List Finding) :
    pos < (passWord source found pos).2 ∧ (passWord source found pos).2 ≤ length source := by
  have hstop := lt_wordEnd h hc
  unfold passWord
  split
  · next type opening hregistration =>
    obtain ⟨hopening, hbyte⟩ := le_registration? hregistration
    have hcall := call_bounds type pos (lt_length hbyte)
    dsimp only
    omega
  · have hlength := lt_length h
    have hbounds := wordEnd_bounds source pos
    exact ⟨hstop, by omega⟩

theorem elim_bounds {stop? : Option Nat} {other : Nat}
    (hstop : ∀ stop, stop? = some stop → pos < stop ∧ stop < length source)
    (hlow : pos < other) (hhigh : other ≤ length source) :
    pos < stop?.elim other (· + 1) ∧ stop?.elim other (· + 1) ≤ length source := by
  cases stop? with
  | none => exact ⟨hlow, hhigh⟩
  | some stop => exact ⟨Nat.lt_succ_of_lt (hstop stop rfl).1, (hstop stop rfl).2⟩

variable (source)

theorem mainRound_again {state next : List Finding × Nat}
    (h : mainRound source state = .again next) :
    state.2 < next.2 ∧ next.2 ≤ length source := by
  obtain ⟨found, pos⟩ := state
  unfold mainRound at h
  dsimp only at h
  split at h
  · cases h
  · next c hbyte =>
    have hlength := lt_length hbyte
    have hline := lineEnd_le source pos
    repeat' split at h
    all_goals cases h
    all_goals dsimp only
    · next hcomment => exact commentEnd?_bounds hcomment
    · exact elim_bounds (fun stop => stringEnd?_bounds) hlength (Nat.le_refl _)
    · next hquote =>
      have hlow := lt_lineEnd hbyte (by rintro rfl; cases hquote)
      exact elim_bounds (fun stop => stringEnd?_bounds) hlow hline
    · next hslash =>
      have hlow := lt_lineEnd hbyte (by rw [hslash.1]; decide)
      exact elim_bounds (fun stop => regexEnd?_bounds) hlow hline
    · next hword => exact passWord_bounds hbyte hword found
    · exact ⟨Nat.lt_succ_self pos, hlength⟩

def mainLoop : Loop (List Finding × Nat) (List Finding) where
  round := mainRound source
  position state := state.2
  bound := length source
  within h := Nat.lt_of_lt_of_le (mainRound_again source h).1 (mainRound_again source h).2
  forward h := (mainRound_again source h).1

def findings : List Finding :=
  (mainLoop source).run ([], 0)

end

end Scanner

end Stepbook.Source
