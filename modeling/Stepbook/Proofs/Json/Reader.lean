import Mathlib.Data.List.TakeDrop
import Mathlib.Data.List.TakeWhile
import Stepbook.Json.Layout
import Stepbook.Json.Reader

/-! # Reading what has been written

* `stringBody?_flatMap`: the text of a string, whatever has to be escaped in it.
* `Tree.Proper`: the numbers of a tree are numbers of JSON.
* `Brackets`: how the items between a pair of brackets are read.
* `run_write`: a tree that is laid out among other text is read as one value.
* `read?_layout`: a tree is read from its layout.
-/

namespace Stepbook.Json
set_option autoImplicit false

/-! ## Tokens -/

section
variable {reading next : Reading} {c : Char}

theorem run_blanks {blanks : List Char} (h : ∀ c ∈ blanks, isBlank c = true) (rest : List Char) :
    reading.run (blanks ++ rest) = reading.run rest := by
  induction blanks with
  | nil => rfl
  | cons c blanks ih =>
    rw [List.cons_append, Reading.run, if_pos (h c (List.mem_cons_self ..))]
    exact ih fun other hother => h other (List.mem_cons_of_mem _ hother)

theorem run_newline (depth : Nat) (rest : List Char) :
    reading.run (newline depth ++ rest) = reading.run rest := by
  refine run_blanks (fun c hc => ?_) rest
  rcases List.mem_cons.1 hc with rfl | hc
  · rfl
  · rw [List.eq_of_mem_replicate hc]
    rfl

theorem run_token {tail : List Char} {token : Token} {length : Nat} (hblank : isBlank c = false)
    (htoken : token? c tail = some (token, length)) (hstep : reading.step token = some next) :
    reading.run (c :: tail) = next.run (tail.drop length) := by
  rw [Reading.run, hblank, htoken]
  simp [hstep]

theorem isMark_cases (h : isMark c = true) :
    c = '[' ∨ c = ']' ∨ c = '{' ∨ c = '}' ∨ c = ',' ∨ c = ':' := by
  simpa [isMark] using h

theorem run_mark (hmark : isMark c = true) (hstep : reading.step (.mark c) = some next)
    (rest : List Char) : reading.run (c :: rest) = next.run rest := by
  have hblank : isBlank c = false := by
    rcases isMark_cases hmark with rfl | rfl | rfl | rfl | rfl | rfl <;> decide
  have htoken : token? c rest = some (.mark c, 0) := if_pos hmark
  exact run_token hblank htoken hstep

/-! ## Strings -/

theorem codeUnit?_control : ∀ n < 32,
    codeUnit? ['0', '0', Nat.digitChar (n / 16), Nat.digitChar (n % 16)] = some n := by
  decide

theorem escaped?_control (h : c.toNat < 32) (rest : List Char) :
    escaped? ('u' :: '0' :: '0' :: Nat.digitChar (c.toNat / 16) :: Nat.digitChar (c.toNat % 16) ::
      rest) = some (c, 5) := by
  have hvalid : c.toNat.isValidChar := .inl (by omega)
  simp [escaped?, codeUnit?_control c.toNat h, hvalid]

/-- A character that is escaped is read back from its escape; any other stands for itself. -/
theorem escapeChar_cases (c : Char) :
    (∃ letters, escapeChar c = '\\' :: letters ∧
      ∀ rest, escaped? (letters ++ rest) = some (c, letters.length)) ∨
    (escapeChar c = [c] ∧ c ≠ '"' ∧ c ≠ '\\' ∧ 32 ≤ c.toNat) := by
  unfold escapeChar
  split
  case h_8 hquote hbackslash _ _ _ _ _ =>
    by_cases hcontrol : c.toNat < 32
    · rw [if_pos hcontrol]
      exact .inl ⟨_, rfl, escaped?_control hcontrol⟩
    · rw [if_neg hcontrol]
      exact .inr ⟨rfl, hquote, hbackslash, Nat.le_of_not_lt hcontrol⟩
  all_goals exact .inl ⟨_, rfl, fun rest => rfl⟩

theorem stringBody?_escapeChar (c : Char) (rest : List Char) :
    stringBody? (escapeChar c ++ rest) =
      (stringBody? rest).map fun read => (c :: read.1, read.2 + (escapeChar c).length) := by
  obtain ⟨letters, hescape, hread⟩ | ⟨hescape, hquote, hbackslash, hcontrol⟩ := escapeChar_cases c
  · rw [hescape, List.cons_append, stringBody?, if_neg (by decide), if_pos rfl, hread]
    dsimp only [Option.bind_eq_bind, Option.bind_some]
    rw [List.drop_left]
    cases stringBody? rest <;> rfl
  · rw [hescape, List.singleton_append, stringBody?, if_neg hquote, if_neg hbackslash,
      if_neg (Nat.not_lt.2 hcontrol)]
    cases stringBody? rest <;> rfl

theorem stringBody?_flatMap (text rest : List Char) :
    stringBody? (text.flatMap escapeChar ++ '"' :: rest) =
      some (text, (text.flatMap escapeChar).length + 1) := by
  induction text with
  | nil => simp [stringBody?]
  | cons c text ih =>
    rw [List.flatMap_cons, List.append_assoc, stringBody?_escapeChar, ih]
    simp only [Option.map_some, List.length_append, Option.some.injEq, Prod.mk.injEq, true_and]
    omega

theorem run_quote {text : List Char}
    (hstep : reading.step (.string (String.ofList text)) = some next) (rest : List Char) :
    reading.run (quote text ++ rest) = next.run rest := by
  have htoken : token? '"' (text.flatMap escapeChar ++ '"' :: rest) =
      some (.string (String.ofList text), (text.flatMap escapeChar).length + 1) := by
    rw [token?, if_neg (by decide), if_pos rfl, stringBody?_flatMap]
    rfl
  have hdrop : (text.flatMap escapeChar ++ '"' :: rest).drop
      ((text.flatMap escapeChar).length + 1) = rest := by
    rw [List.drop_length_add_append]
    rfl
  have hquote : quote text ++ rest = '"' :: (text.flatMap escapeChar ++ '"' :: rest) := by
    simp [quote]
  rw [hquote, run_token (by decide) htoken hstep, hdrop]

/-! ## Numbers -/

theorem isBare_of_isDigit (h : c.isDigit = true) : isBare c = true := by
  simp [isBare, Char.isAlphanum, h]

theorem isBare_of_isDigits {text : List Char} (h : isDigits text = true) :
    ∀ c ∈ text, isBare c = true := by
  rw [isDigits, Bool.and_eq_true, List.all_eq_true] at h
  exact fun c hc => isBare_of_isDigit (h.2 c hc)

theorem isBare_of_unsigned {signs text : List Char} (hsigns : ∀ c ∈ signs, isBare c = true)
    (h : ∀ c ∈ unsigned signs text, isBare c = true) : ∀ c ∈ text, isBare c = true := by
  cases text with
  | nil => exact h
  | cons first rest =>
    rw [unsigned] at h
    split at h
    · next hfirst =>
      rw [List.forall_mem_cons]
      exact ⟨hsigns first (List.contains_iff_mem.1 hfirst), h⟩
    · exact h

/-- A text that is split at the first character of some kind. -/
theorem isBare_of_span {text : List Char} {p : Char → Bool}
    (hp : ∀ c, p c = false → isBare c = true)
    (hbefore : ∀ c ∈ text.takeWhile p, isBare c = true)
    (hbehind : ∀ c ∈ (text.dropWhile p).tail, isBare c = true) : ∀ c ∈ text, isBare c = true := by
  induction text with
  | nil => exact hbefore
  | cons first rest ih =>
    by_cases hfirst : p first = true
    · rw [List.takeWhile_cons_of_pos hfirst, List.forall_mem_cons] at hbefore
      rw [List.dropWhile_cons_of_pos hfirst] at hbehind
      exact List.forall_mem_cons.2 ⟨hbefore.1, ih hbefore.2 hbehind⟩
    · rw [List.dropWhile_cons_of_neg hfirst] at hbehind
      exact List.forall_mem_cons.2 ⟨hp first (by simpa using hfirst), hbehind⟩

/-- A part that may be missing. -/
theorem isBare_of_part {part digits : List Char}
    (h : (part.isEmpty || isDigits digits) = true)
    (hdigits : (∀ c ∈ digits, isBare c = true) → ∀ c ∈ part.tail, isBare c = true) :
    ∀ c ∈ part.tail, isBare c = true := by
  cases part with
  | nil => exact nofun
  | cons first rest => exact hdigits (isBare_of_isDigits (by simpa using h))

theorem isBare_of_isNumber {text : List Char} (h : isNumber text = true) :
    ∀ c ∈ text, isBare c = true := by
  simp only [isNumber, List.span_eq_takeWhile_dropWhile, Bool.and_eq_true, isInteger] at h
  obtain ⟨⟨⟨hinteger, -⟩, hfraction⟩, hexponent⟩ := h
  have hletter : ∀ c, (c != 'e' && c != 'E') = false → isBare c = true := by
    intro c hc
    have hcases : c = 'e' ∨ c = 'E' := by simpa [imp_iff_not_or] using hc
    rcases hcases with rfl | rfl <;> decide
  have hpoint : ∀ c, (c != '.') = false → isBare c = true := by
    intro c hc
    rw [show c = '.' by simpa using hc]
    decide
  have hminus : ∀ c ∈ ['-'], isBare c = true := List.all_eq_true.1 rfl
  have hsign : ∀ c ∈ ['+', '-'], isBare c = true := List.all_eq_true.1 rfl
  refine isBare_of_unsigned hminus (isBare_of_span hletter ?_ ?_)
  · exact isBare_of_span hpoint (isBare_of_isDigits hinteger) (isBare_of_part hfraction id)
  · exact isBare_of_part hexponent (isBare_of_unsigned hsign)

/-- What may stand between the whole digits of a number and its exponent. -/
inductive IsFraction : List Char → Prop
  | none : IsFraction []
  | point {digits : List Char} (h : isDigits digits = true) : IsFraction ('.' :: digits)

/-- What may stand at the end of a number. -/
inductive IsExponent : List Char → Prop
  | none : IsExponent []
  | power {sign digits : List Char} (hsign : sign = [] ∨ sign = ['+'] ∨ sign = ['-'])
    (h : isDigits digits = true) : IsExponent ('e' :: (sign ++ digits))

theorem mem_isDigits {digits : List Char} (h : isDigits digits = true) :
    ∀ c ∈ digits, c.isDigit = true := by
  rw [isDigits, Bool.and_eq_true, List.all_eq_true] at h
  exact h.2

theorem ne_of_isDigit {d : Char} (hc : c.isDigit = true) (hd : d.isDigit = false) : c ≠ d := by
  rintro rfl
  rw [hc] at hd
  cases hd

/-- Without a sign in front of it, a text stays as it is. -/
theorem unsigned_digits {signs digits : List Char} (hsigns : ∀ c ∈ signs, c.isDigit = false)
    (h : isDigits digits = true) (rest : List Char) :
    unsigned signs (digits ++ rest) = digits ++ rest := by
  cases digits with
  | nil => cases h
  | cons first others =>
    have hfirst : ¬ signs.contains first = true := fun hmem => by
      have hdigit := hsigns first (List.contains_iff_mem.1 hmem)
      rw [mem_isDigits h first (List.mem_cons_self ..)] at hdigit
      cases hdigit
    rw [List.cons_append, unsigned, if_neg hfirst]

theorem isNumber_append {sign integer fraction exponent : List Char}
    (hsign : sign = [] ∨ sign = ['-']) (hinteger : isInteger integer = true)
    (hfraction : IsFraction fraction) (hexponent : IsExponent exponent) :
    isNumber (sign ++ (integer ++ (fraction ++ exponent))) = true := by
  have hdigits : isDigits integer = true := by
    rw [isInteger, Bool.and_eq_true] at hinteger
    exact hinteger.1
  have hminus : ∀ c ∈ ['-'], c.isDigit = false := List.forall_mem_singleton.2 rfl
  have hunsigned : unsigned ['-'] (sign ++ (integer ++ (fraction ++ exponent))) =
      integer ++ (fraction ++ exponent) := by
    rcases hsign with rfl | rfl
    · exact unsigned_digits hminus hdigits _
    · rfl
  -- The text is cut before the exponent first, and then before the fraction.
  have hletter : ∀ c ∈ integer ++ fraction, (c != 'e' && c != 'E') = true := by
    have hdigit : ∀ {c : Char}, c.isDigit = true → (c != 'e' && c != 'E') = true := fun hc => by
      simp [ne_of_isDigit hc (d := 'e') rfl, ne_of_isDigit hc (d := 'E') rfl]
    refine List.forall_mem_append.2 ⟨fun c hc => hdigit (mem_isDigits hdigits c hc), ?_⟩
    cases hfraction with
    | none => exact fun c hc => absurd hc List.not_mem_nil
    | point h => exact List.forall_mem_cons.2 ⟨rfl, fun c hc => hdigit (mem_isDigits h c hc)⟩
  have hpoint : ∀ c ∈ integer, (c != '.') = true := fun c hc => by
    simp [ne_of_isDigit (mem_isDigits hdigits c hc) (d := '.') rfl]
  have hcoefficient : (integer ++ (fraction ++ exponent)).span (fun c => c != 'e' && c != 'E') =
      (integer ++ fraction, exponent) := by
    rw [List.span_eq_takeWhile_dropWhile, ← List.append_assoc,
      List.takeWhile_append_of_pos hletter, List.dropWhile_append_of_pos hletter]
    cases hexponent with
    | none => rw [List.takeWhile_nil, List.append_nil, List.dropWhile_nil]
    | power hsign h => simp
  have hparts : (integer ++ fraction).span (· != '.') = (integer, fraction) := by
    rw [List.span_eq_takeWhile_dropWhile, List.takeWhile_append_of_pos hpoint,
      List.dropWhile_append_of_pos hpoint]
    cases hfraction with
    | none => rw [List.takeWhile_nil, List.append_nil, List.dropWhile_nil]
    | point h => simp
  simp only [isNumber, hunsigned, hcoefficient, hparts, hinteger, Bool.true_and, Bool.and_eq_true,
    Bool.or_eq_true, List.isEmpty_iff]
  constructor
  · cases hfraction with
    | none => exact .inl rfl
    | point h => exact .inr h
  · cases hexponent with
    | none => exact .inl rfl
    | @power sign digits hsign h =>
      have hsigns : ∀ c ∈ ['+', '-'], c.isDigit = false := by simp
      have hnone := unsigned_digits hsigns h []
      rw [List.append_nil] at hnone
      refine .inr ?_
      rcases hsign with rfl | rfl | rfl
      · rw [List.tail_cons, List.nil_append, hnone, h]
      · exact h
      · exact h

theorem digitChar_ne_zero : ∀ n < 10, 0 < n → Nat.digitChar n ≠ '0' := by
  decide

theorem head?_toDigits {n : Nat} (h : 0 < n) : (Nat.toDigits 10 n).head? ≠ some '0' := by
  induction n using Nat.strongRecOn with
  | ind n ih =>
    by_cases hn : n < 10
    · rw [Nat.toDigits_of_lt_base hn, List.head?_singleton, ne_eq, Option.some.injEq]
      exact digitChar_ne_zero n hn h
    · have hsome : (Nat.toDigits 10 (n / 10)).head?.isSome = true := by
        simp
      rw [Nat.toDigits_of_base_le (by decide) (Nat.le_of_not_lt hn), List.head?_append,
        Option.or_of_isSome hsome]
      exact ih (n / 10) (by omega) (by omega)

theorem isDigits_toDigits (n : Nat) : isDigits (Nat.toDigits 10 n) = true := by
  have hdigits : (Nat.toDigits 10 n).all Char.isDigit = true :=
    List.all_eq_true.2 fun c hc => Nat.isDigit_of_mem_toDigits (by decide) (by decide) hc
  simp [isDigits, hdigits, Nat.toDigits_ne_nil]

theorem isInteger_toDigits (n : Nat) : isInteger (Nat.toDigits 10 n) = true := by
  by_cases hn : n = 0
  · rw [hn]
    decide
  · simp [isInteger, isDigits_toDigits, head?_toDigits (Nat.pos_of_ne_zero hn)]

theorem isNumber_toString (n : Nat) : isNumber (toString n).toList = true := by
  have htext : (toString n).toList = Nat.toDigits 10 n := Nat.toList_repr
  have hnumber := isNumber_append (.inl rfl) (isInteger_toDigits n) .none .none
  rw [htext]
  rwa [List.append_nil, List.append_nil, List.nil_append] at hnumber

/-! ## Values without quotes and brackets -/

/-- No number or name goes on in the text. -/
def EndsWord (rest : List Char) : Prop :=
  ∀ c ∈ rest.head?, isBare c = false

theorem endsWord_cons (h : isBare c = false) (rest : List Char) : EndsWord (c :: rest) := by
  rintro _ ⟨⟩
  exact h

theorem endsWord_newline (depth : Nat) (rest : List Char) : EndsWord (newline depth ++ rest) :=
  endsWord_cons (by decide) _

theorem plain_of_isBare (h : isBare c = true) : isBlank c = false ∧ isMark c = false ∧ c ≠ '"' := by
  refine ⟨Bool.eq_false_iff.2 fun hblank => ?_, Bool.eq_false_iff.2 fun hmark => ?_, ?_⟩
  · have hcases : ((c = ' ' ∨ c = '\n') ∨ c = '\r') ∨ c = '\t' := by simpa [isBlank] using hblank
    rcases hcases with ((rfl | rfl) | rfl) | rfl <;> exact absurd h (by decide)
  · rcases isMark_cases hmark with rfl | rfl | rfl | rfl | rfl | rfl <;> exact absurd h (by decide)
  · rintro rfl
    exact absurd h (by decide)

theorem takeWhile_isBare {word rest : List Char} (hword : ∀ c ∈ word, isBare c = true)
    (hrest : EndsWord rest) : (word ++ rest).takeWhile isBare = word := by
  have hnone : rest.takeWhile isBare = [] := by
    cases rest with
    | nil => rfl
    | cons c rest => exact List.takeWhile_cons_of_neg (by simp [hrest c rfl])
  rw [List.takeWhile_append_of_pos hword, hnone, List.append_nil]

theorem run_bare {word rest : List Char} {tree : Tree} (hread : bare? word = some tree)
    (hword : ∀ c ∈ word, isBare c = true) (hrest : EndsWord rest)
    (hstep : reading.step (.bare tree) = some next) :
    reading.run (word ++ rest) = next.run rest := by
  cases word with
  | nil =>
    have hnone : bare? [] = none := rfl
    cases hnone.symm.trans hread
  | cons c word =>
    rw [List.forall_mem_cons] at hword
    obtain ⟨hblank, hmark, hquote⟩ := plain_of_isBare hword.1
    have htoken : token? c (word ++ rest) = some (.bare tree, word.length) := by
      simp only [token?, hmark, hquote, takeWhile_isBare hword.2 hrest, hread]
      rfl
    rw [List.cons_append, run_token hblank htoken hstep, List.drop_left]

end

/-- The numbers in a tree are written as JSON has them. -/
inductive Tree.Proper : Tree → Prop
  | null : Proper .null
  | boolean (value : Bool) : Proper (.boolean value)
  | number {literal : String} (h : isNumber literal.toList = true) : Proper (.number literal)
  | string (value : String) : Proper (.string value)
  | array {items : List Tree} (h : ∀ item ∈ items, item.Proper) : Proper (.array items)
  | object {members : List (String × Tree)} (h : ∀ member ∈ members, member.2.Proper) :
    Proper (.object members)

/-! ## Items between brackets -/

theorem writeItems_eq (depth : Nat) (items : List Tree) :
    Tree.writeItems depth items = items.map (Tree.write depth) := by
  induction items with
  | nil => rfl
  | cons item items ih => rw [Tree.writeItems, ih, List.map_cons]

/-- A member of an object on its line. -/
def memberLine (depth : Nat) (member : String × Tree) : List Char :=
  quote member.1.toList ++ ':' :: ' ' :: member.2.write depth

theorem writeMembers_eq (depth : Nat) (members : List (String × Tree)) :
    Tree.writeMembers depth members = members.map (memberLine depth) := by
  induction members with
  | nil => rfl
  | cons member members ih =>
    rw [Tree.writeMembers, ih, List.map_cons]
    rfl

/-- A pair of brackets within the frames, and where reading stands: behind the opening one, before
and behind an item; `read` are the items so far, the last first. -/
structure Brackets (α : Type) (frames : List Frame) where
  opening : Char
  closing : Char
  first : Reading
  before (read : List α) : Reading
  behind (item : α) (read : List α) : Reading
  tree (items : List α) : Tree
  isMark_opening : isMark opening = true
  isMark_closing : isMark closing = true
  step_opening : (Reading.value frames).step (.mark opening) = some first
  step_first : ∀ token, token ≠ .mark closing → first.step token = (before []).step token
  step_empty : first.step (.mark closing) = some (.behind (tree []) frames)
  step_comma : ∀ item read, (behind item read).step (.mark ',') = some (before (item :: read))
  step_closing : ∀ item read,
    (behind item read).step (.mark closing) = some (.behind (tree (item :: read).reverse) frames)

theorem step_firstItem {frames : List Frame} {token : Token} (h : token ≠ .mark ']') :
    (Reading.firstItem frames).step token = (Reading.value (.array [] :: frames)).step token := by
  rw [Reading.step, Reading.step]
  exact h

theorem step_firstMember {frames : List Frame} {token : Token} (h : token ≠ .mark '}') :
    (Reading.firstMember frames).step token = (Reading.key [] frames).step token := by
  cases token with
  | mark c =>
    have hc : c ≠ '}' := fun hc => h (congrArg Token.mark hc)
    simp [Reading.step, hc]
  | string name => rfl
  | bare tree => rfl

def arrayBrackets (frames : List Frame) : Brackets Tree frames where
  opening := '['
  closing := ']'
  first := .firstItem frames
  before read := .value (.array read :: frames)
  behind item read := .behind item (.array read :: frames)
  tree := .array
  isMark_opening := rfl
  isMark_closing := rfl
  step_opening := rfl
  step_first _ h := step_firstItem h
  step_empty := rfl
  step_comma _ _ := rfl
  step_closing _ _ := rfl

def objectBrackets (frames : List Frame) : Brackets (String × Tree) frames where
  opening := '{'
  closing := '}'
  first := .firstMember frames
  before read := .key read frames
  behind member read := .behind member.2 (.object read member.1 :: frames)
  tree := .object
  isMark_opening := rfl
  isMark_closing := rfl
  step_opening := rfl
  step_first _ h := step_firstMember h
  step_empty := rfl
  step_comma _ _ := rfl
  step_closing _ _ := rfl

theorem eq_of_token?_mark {c d : Char} {tail : List Char} {length : Nat}
    (h : token? c tail = some (.mark d, length)) : c = d := by
  unfold token? at h
  split at h
  · simp_all
  · split at h <;> simp at h

theorem separate_cons (depth : Nat) (line : List Char) (lines : List (List Char)) :
    ∃ rest, separate depth (line :: lines) = newline depth ++ (line ++ rest) := by
  cases lines with
  | nil => exact ⟨[], by rw [separate, List.append_nil]⟩
  | cons next lines => exact ⟨_, List.append_assoc ..⟩

namespace Brackets

variable {α : Type} {frames : List Frame} (brackets : Brackets α frames)

/-- The first item is read as any other one is. -/
theorem run_first {c : Char} (hblank : isBlank c = false) (hclosing : c ≠ brackets.closing)
    (tail : List Char) : brackets.first.run (c :: tail) = (brackets.before []).run (c :: tail) := by
  rw [Reading.run, Reading.run, hblank]
  cases htoken : token? c tail with
  | none => rfl
  | some found =>
    obtain ⟨token, length⟩ := found
    have hmark : token ≠ .mark brackets.closing := by
      rintro rfl
      exact hclosing (eq_of_token?_mark htoken)
    simp [brackets.step_first token hmark]

/-- An item is read from its line, whatever follows. -/
def Reads (line : α → List Char) (item : α) : Prop :=
  ∀ (read : List α) (rest : List Char), EndsWord rest →
    (brackets.before read).run (line item ++ rest) = (brackets.behind item read).run rest

variable {line : α → List Char}

theorem run_separate (depth outer : Nat) {items : List α} (hitems : items ≠ [])
    (hline : ∀ item ∈ items, brackets.Reads line item) (read : List α) (rest : List Char) :
    (brackets.before read).run
        (separate depth (items.map line) ++ (newline outer ++ brackets.closing :: rest)) =
      (Reading.behind (brackets.tree (read.reverse ++ items)) frames).run rest := by
  induction items generalizing read with
  | nil => contradiction
  | cons item items ih =>
    rw [List.forall_mem_cons] at hline
    cases items with
    | nil =>
      rw [List.map_singleton, separate, List.append_assoc, run_newline,
        hline.1 read _ (endsWord_newline outer _), run_newline,
        run_mark brackets.isMark_closing (brackets.step_closing item read), List.reverse_cons]
    | cons next items =>
      have hlines : separate depth ((item :: next :: items).map line) =
          newline depth ++ line item ++ ',' :: separate depth ((next :: items).map line) := rfl
      rw [hlines, List.append_assoc, List.append_assoc, run_newline, List.cons_append,
        hline.1 read _ (endsWord_cons (by decide) _),
        run_mark (by decide) (brackets.step_comma item read),
        ih (List.cons_ne_nil _ _) hline.2 (item :: read), List.reverse_cons, List.append_assoc]
      rfl

theorem run_block (depth : Nat) {items : List α}
    (hline : ∀ item ∈ items, brackets.Reads line item)
    (hhead : ∀ item ∈ items, ∃ c tail, line item = c :: tail ∧ isBlank c = false ∧
      c ≠ brackets.closing) (rest : List Char) :
    (Reading.value frames).run
        (block brackets.opening brackets.closing depth (items.map line) ++ rest) =
      (Reading.behind (brackets.tree items) frames).run rest := by
  cases items with
  | nil =>
    rw [List.map_nil, block, List.cons_append, run_mark brackets.isMark_opening
      brackets.step_opening, List.singleton_append, run_mark brackets.isMark_closing
      brackets.step_empty]
  | cons item items =>
    have hread := brackets.run_separate (depth + 1) depth (List.cons_ne_nil _ _) hline [] rest
    obtain ⟨c, tail, hc, hblank, hclosing⟩ := hhead item (List.mem_cons_self ..)
    obtain ⟨more, hmore⟩ := separate_cons (depth + 1) (line item) (items.map line)
    have hblock : block brackets.opening brackets.closing depth ((item :: items).map line) ++ rest =
        brackets.opening :: (separate (depth + 1) ((item :: items).map line) ++
          (newline depth ++ brackets.closing :: rest)) := by
      simp [block]
    rw [hblock, run_mark brackets.isMark_opening brackets.step_opening]
    rw [List.map_cons, hmore, hc, List.append_assoc, run_newline] at hread ⊢
    rw [List.cons_append, List.cons_append] at hread ⊢
    rw [brackets.run_first hblank hclosing, hread]
    rfl

end Brackets

/-! ## Trees -/

theorem bare?_number {literal : String} (h : isNumber literal.toList = true) :
    bare? literal.toList = some (.number literal) := by
  have hother : ∀ {name : List Char}, isNumber name = false → literal.toList ≠ name := by
    rintro name hname hliteral
    rw [← hliteral, h] at hname
    cases hname
  rw [bare?, if_neg (hother (by decide)), if_neg (hother (by decide)),
    if_neg (hother (by decide)), if_pos h, String.ofList_toList]

theorem Tree.Proper.head {tree : Tree} (h : tree.Proper) (depth : Nat) :
    ∃ c tail, tree.write depth = c :: tail ∧ isBlank c = false ∧ c ≠ ']' := by
  cases h with
  | null => exact ⟨_, _, rfl, by decide, by decide⟩
  | boolean value => cases value <;> exact ⟨_, _, rfl, by decide, by decide⟩
  | @number literal hnumber =>
    rw [Tree.write]
    cases hliteral : literal.toList with
    | nil =>
      rw [hliteral] at hnumber
      exact absurd hnumber (by decide)
    | cons c tail =>
      have hbare := isBare_of_isNumber hnumber c (hliteral ▸ List.mem_cons_self ..)
      refine ⟨c, tail, rfl, (plain_of_isBare hbare).1, ?_⟩
      rintro rfl
      exact absurd hbare (by decide)
  | string value => exact ⟨_, _, rfl, by decide, by decide⟩
  | @array items _ =>
    cases items <;> exact ⟨_, _, rfl, by decide, by decide⟩
  | @object members _ =>
    cases members <;> exact ⟨_, _, rfl, by decide, by decide⟩

/-- The induction is on the tree; items and members are read between other text, and within the
frames of all that is open around them. -/
theorem run_write {tree : Tree} (h : tree.Proper) (depth : Nat) (frames : List Frame)
    {rest : List Char} (hrest : EndsWord rest) :
    (Reading.value frames).run (tree.write depth ++ rest) =
      (Reading.behind tree frames).run rest := by
  induction h generalizing depth frames rest with
  | null =>
    have hword : ∀ c ∈ "null".toList, isBare c = true := List.all_eq_true.1 rfl
    exact run_bare rfl hword hrest rfl
  | boolean value =>
    cases value with
    | true =>
      have hword : ∀ c ∈ "true".toList, isBare c = true := List.all_eq_true.1 rfl
      exact run_bare rfl hword hrest rfl
    | false =>
      have hword : ∀ c ∈ "false".toList, isBare c = true := List.all_eq_true.1 rfl
      exact run_bare rfl hword hrest rfl
  | number hnumber =>
    exact run_bare (bare?_number hnumber) (isBare_of_isNumber hnumber) hrest rfl
  | string value => exact run_quote (by rw [String.ofList_toList]; rfl) rest
  | @array items hitems ih =>
    rw [Tree.write, writeItems_eq]
    exact (arrayBrackets frames).run_block depth
      (fun item hitem read rest hrest => ih item hitem (depth + 1) _ hrest)
      (fun item hitem => (hitems item hitem).head (depth + 1)) rest
  | @object members hmembers ih =>
    rw [Tree.write, writeMembers_eq]
    have hquote : '"' ≠ '}' := by decide
    refine (objectBrackets frames).run_block depth ?_
      (fun member _ => ⟨'"', _, rfl, by decide, hquote⟩) rest
    intro member hmember read rest hrest
    have hname : (Reading.key read frames).step (.string (String.ofList member.1.toList)) =
        some (.colon read member.1 frames) := by
      rw [String.ofList_toList]
      rfl
    have hblank : ∀ c ∈ [' '], isBlank c = true := List.all_eq_true.1 rfl
    have hvalue := ih member hmember (depth + 1) (.object read member.1 :: frames) hrest
    have hline : memberLine (depth + 1) member ++ rest =
        quote member.1.toList ++ ':' :: ([' '] ++ (member.2.write (depth + 1) ++ rest)) := by
      simp [memberLine]
    refine (congrArg _ hline).trans ((run_quote hname _).trans ?_)
    exact (run_mark (by decide) rfl _).trans ((run_blanks hblank _).trans hvalue)

theorem endsWord_of_isBlank {blanks : List Char} (h : ∀ c ∈ blanks, isBlank c = true) :
    EndsWord blanks := by
  intro c hc
  by_contra hbare
  rw [Bool.not_eq_false] at hbare
  have hblank := h c (List.mem_of_mem_head? hc)
  rw [(plain_of_isBare hbare).1] at hblank
  cases hblank

/-- A layout with blanks behind it stands for the tree that is laid out. -/
theorem read?_layout {tree : Tree} (h : tree.Proper) {blanks : String}
    (hblanks : ∀ c ∈ blanks.toList, isBlank c = true) :
    read? (tree.layout ++ blanks) = some tree := by
  have hend : (Reading.behind tree []).run (blanks.toList ++ []) =
      (Reading.behind tree []).run [] := run_blanks hblanks []
  rw [List.append_nil] at hend
  rw [read?, String.toList_append, Tree.layout, String.toList_ofList,
    run_write h 0 [] (endsWord_of_isBlank hblanks), hend]
  simp [Reading.run, Reading.tree?]

end Stepbook.Json
