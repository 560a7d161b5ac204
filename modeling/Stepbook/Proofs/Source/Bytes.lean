import Stepbook.Proofs.Source.Closing
import Stepbook.Proofs.Source.Encoding

/-! # The search among bytes

The search among the bytes of a script stops at the same places as the one among its characters and
finds the same. All its slices lie between characters, so that no fallback is ever taken.

* `Place.encoded`: a place among bytes.
* `lexeme_encoded`, `closingFrom_encoded`: what is read there.
* `literalPattern_encoded`, `call_encoded`, `step_encoded`: what is found there.
* `bytes_extract_eq`: what is found in a script.
-/

namespace Stepbook.Source
set_option autoImplicit false

open Place

/-! ## Places -/

/-- The same place among the bytes of the script. -/
def Place.encoded (place : Place) : Place :=
  ⟨(encode place.before.reverse).reverse, encode place.rest⟩

theorem encoded_cons (c : Char) (before rest : List Char) :
    encoded ⟨c :: before, rest⟩ =
      ⟨(encodeChar c).reverse ++ (encode before.reverse).reverse, encode rest⟩ := by
  rw [encoded, List.reverse_cons, encode_append, List.reverse_append]
  rw [encode_cons, encode_nil, List.append_nil]

theorem encoded_append (before text rest : List Char) :
    encoded ⟨text.reverse ++ before, rest⟩ =
      ⟨(encode text).reverse ++ (encode before.reverse).reverse, encode rest⟩ := by
  rw [encoded, List.reverse_append, List.reverse_reverse, encode_append, List.reverse_append]

theorem advance_encoded (before text rest : List Char) :
    (encoded ⟨before, text ++ rest⟩).advance (encode text).length =
      encoded ⟨text.reverse ++ before, rest⟩ := by
  rw [encoded_append, encoded, encode_append, advance_append]

theorem offset_encoded (place : Place) : place.encoded.before.length = place.offset := by
  rw [encoded, List.length_reverse, length_encode, Text.byteLength_reverse]
  rfl

theorem count_encode {d : Char} (hd : d.toNat < 128) (text : List Char) :
    (encode text).count d = text.count d := by
  induction text with
  | nil => rfl
  | cons c text ih =>
    rw [encode_cons, List.count_append, ih, List.count_cons, Nat.add_comm]
    congr 1
    rcases encodeChar_cases c with ⟨-, hone⟩ | ⟨hc, -, hforeign⟩
    · rw [hone, List.count_singleton]
    · have hne : (c == d) = false := beq_false_of_ne (hc.ne hd)
      rw [hne, List.count_eq_zero.2 fun hmem => (hforeign d hmem).ne hd rfl]
      rfl

theorem line_encoded (place : Place) : place.encoded.line = place.line := by
  rw [line, line, encoded, List.count_reverse, count_encode (by decide), List.count_reverse]

/-! ## Lexemes -/

theorem regexAllowed_cons (c : Char) (before rest : List Char) :
    regexAllowed ⟨c :: before, rest⟩ =
      if Text.isAsciiBlank c then regexAllowed ⟨before, rest⟩
      else "(,=:[!&|?\x7b\x7d;+-*%<>~^".toList.contains c := by
  unfold regexAllowed
  rw [List.find?_cons]
  cases Text.isAsciiBlank c <;> rfl

theorem regexAllowed_foreign {c : Char} (h : IsForeign c) (before rest : List Char) :
    regexAllowed ⟨c :: before, rest⟩ = false := by
  have hascii : "(,=:[!&|?\x7b\x7d;+-*%<>~^".toList.all (fun d => d.toNat < 128) = true := rfl
  rw [regexAllowed_cons, h.isAsciiBlank, if_neg Bool.false_ne_true, Bool.eq_false_iff]
  intro hmem
  have hc := List.all_eq_true.1 hascii c (List.contains_iff_mem.1 hmem)
  exact h.ne (of_decide_eq_true hc) rfl

theorem regexAllowed_encoded (place : Place) :
    place.encoded.regexAllowed = place.regexAllowed := by
  obtain ⟨before, rest⟩ := place
  induction before with
  | nil => rfl
  | cons c before ih =>
    rw [encoded_cons]
    rcases encodeChar_cases c with ⟨-, hone⟩ | ⟨hc, hne, hforeign⟩
    · rw [hone, List.reverse_singleton, List.singleton_append, regexAllowed_cons,
        regexAllowed_cons]
      rw [encoded] at ih
      rw [ih]
    · -- the last byte of the character is as foreign as the character
      obtain ⟨last, more, hcons⟩ :=
        List.exists_cons_of_ne_nil (List.reverse_ne_nil_iff.2 hne)
      have hlast : IsForeign last := by
        apply hforeign
        rw [← List.mem_reverse, hcons]
        exact List.mem_cons_self ..
      rw [hcons, List.cons_append, regexAllowed_foreign hlast, regexAllowed_foreign hc]

/-- What starts with an ASCII character is read alike among the bytes. -/
theorem lexemeFrom_encode {c : Char} (hc : c.toNat < 128) (regexAllowed : Bool)
    (tail : List Char) :
    lexemeFrom regexAllowed c (encode tail) =
      ((lexemeFrom regexAllowed c tail).1,
        width (c :: tail) (lexemeFrom regexAllowed c tail).2) := by
  have hwidth : ∀ count, width (c :: tail) (count + 1) = width tail count + 1 := width_ascii hc tail
  have hunclosed : unclosedLength c (encode tail) = width (c :: tail) (unclosedLength c tail) := by
    have hall : width tail tail.length = (encode tail).length := by
      rw [width, List.take_length, length_encode]
    unfold unclosedLength
    split
    · rw [hwidth, hall]
    · rw [hwidth, lineLength_encode]
  have hword : ((encode tail).takeWhile isWordPart).length =
      width tail (tail.takeWhile isWordPart).length :=
    length_takeWhile_encode (fun _ hforeign => hforeign.isWordPart) tail
  unfold lexemeFrom
  rw [← encode_ascii hc, commentLength?_encode]
  cases hcomment : commentLength? (c :: tail) with
  | some length => rfl
  | none =>
    dsimp only [Option.map_none]
    by_cases hquote : isQuote c = true
    · rw [if_pos hquote, if_pos hquote, closedString_encode hc]
      cases closedString c tail with
      | some length => rw [hwidth]; rfl
      | none => rw [hunclosed]; rfl
    · rw [if_neg hquote, if_neg hquote]
      by_cases hslash : c = '/' ∧ regexAllowed = true
      · rw [if_pos hslash, if_pos hslash, closedRegex_encode]
        cases closedRegex false tail with
        | some length => rw [hwidth]; rfl
        | none => rw [hunclosed]; rfl
      · rw [if_neg hslash, if_neg hslash, hword]
        repeat' split
        all_goals rw [hwidth]
        all_goals rfl

theorem lexeme_encoded {place : Place} {c : Char} {tail : List Char} (hc : c.toNat < 128)
    (hrest : place.rest = c :: tail) :
    place.encoded.lexeme = (place.lexeme.1, width place.rest place.lexeme.2) := by
  have hbytes : place.encoded.rest = c :: encode tail := by
    rw [encoded, hrest, encode_ascii hc]
  unfold lexeme
  rw [hbytes, regexAllowed_encoded, hrest]
  exact lexemeFrom_encode hc _ tail

section
variable {before text rest : List Char} {kind : Lexeme}

/-- A lexeme that starts with an ASCII character. -/
theorem starts_encoded (h : Starts before text rest kind)
    (hascii : ∀ c ∈ text.head?, c.toNat < 128) :
    Starts (encode before.reverse).reverse (encode text) (encode rest) kind := by
  obtain ⟨hne, hlexeme⟩ := h
  obtain ⟨c, body, rfl⟩ := List.exists_cons_of_ne_nil hne
  have hc : c.toNat < 128 := hascii c rfl
  have hbytes := @lexeme_encoded ⟨before, c :: body ++ rest⟩ c (body ++ rest) hc rfl
  rw [hlexeme, encoded] at hbytes
  dsimp only at hbytes
  rw [width_append, encode_append] at hbytes
  refine ⟨?_, hbytes⟩
  rw [encode_ascii hc]
  exact List.cons_ne_nil _ _

/-- Other characters are passed one by one. -/
theorem eq_of_starts_foreign {c : Char} {body : List Char} (hc : IsForeign c)
    (h : Starts before (c :: body) rest kind) : kind = .other ∧ body = [] := by
  have hlexeme := h.2
  rw [List.cons_append, lexeme] at hlexeme
  dsimp only at hlexeme
  rw [lexemeFrom_foreign hc, Prod.mk.injEq, List.length_cons] at hlexeme
  refine ⟨hlexeme.1.symm, ?_⟩
  rw [← List.length_eq_zero_iff]
  omega

theorem closingFrom_foreign {bytes : List Char} (h : ∀ d ∈ bytes, IsForeign d) (depth : Nat)
    (before rest : List Char) :
    closingFrom depth ⟨before, bytes ++ rest⟩ =
      (closingFrom depth ⟨bytes.reverse ++ before, rest⟩).map (· + bytes.length) := by
  induction bytes generalizing before with
  | nil => exact (map_add_zero _).symm
  | cons d bytes ih =>
    have hd := h d (List.mem_cons_self ..)
    have hstarts : Starts before [d] (bytes ++ rest) .other :=
      ⟨List.cons_ne_nil _ _, lexemeFrom_foreign hd _ _⟩
    have hone : closingFrom depth ⟨before, [d] ++ (bytes ++ rest)⟩ = _ :=
      closingFrom_more hstarts rfl
    rw [ih fun other hother => h other (List.mem_cons_of_mem _ hother), map_add_add] at hone
    rw [List.reverse_cons, List.append_assoc, List.length_cons, Nat.add_comm]
    exact hone

end

/-! ## Brackets -/

theorem closingFrom_encoded (depth : Nat) (before rest : List Char) :
    closingFrom depth (encoded ⟨before, rest⟩) =
      (closingFrom depth ⟨before, rest⟩).map (width rest) := by
  by_cases hrest : rest = []
  · subst hrest
    rw [closingFrom_nil, encoded, encode_nil, closingFrom_nil]
    rfl
  · obtain ⟨first, later, rfl, hstarts, -⟩ := exists_starts before hrest
    have hshorter : later.length < (first ++ later).length := by
      have := List.length_pos_iff.2 hstarts.1
      rw [List.length_append]
      omega
    have hlater := fun next => closingFrom_encoded next (first.reverse ++ before) later
    have hmap : ∀ length : Option Nat, (length.map (width later)).map (· + (encode first).length) =
        (length.map (· + first.length)).map (width (first ++ later)) := by
      intro length
      rw [Option.map_map, Option.map_map]
      refine Option.map_congr fun count _ => ?_
      rw [Function.comp_apply, Function.comp_apply, Nat.add_comm count, width_add, width_append,
        List.drop_left, Nat.add_comm]
    have hwhole : encoded ⟨before, first ++ later⟩ =
        ⟨(encode before.reverse).reverse, encode first ++ encode later⟩ := by
      rw [encoded, encode_append]
    generalize (lexeme ⟨before, first ++ later⟩).1 = kind at hstarts
    obtain ⟨c, body, rfl⟩ := List.exists_cons_of_ne_nil hstarts.1
    rw [hwhole]
    rcases encodeChar_cases c with ⟨hc, -⟩ | ⟨hc, -, hforeign⟩
    · have hbytes := starts_encoded hstarts fun d hd => by
        rw [List.head?_cons, Option.mem_some_iff] at hd
        exact hd ▸ hc
      cases hnext : kind.depthAfter? depth with
      | none =>
        rw [closingFrom_stop hstarts hnext, closingFrom_stop hbytes hnext]
        split
        · rw [Option.map_some, width_append]
        · rfl
      | some next =>
        rw [closingFrom_more hstarts hnext, closingFrom_more hbytes hnext, ← encoded_append,
          hlater, hmap]
    · obtain ⟨rfl, rfl⟩ := eq_of_starts_foreign hc hstarts
      have hbytes : encode [c] = encodeChar c := List.append_nil _
      rw [closingFrom_more hstarts rfl, ← hmap, ← hlater, encoded_append, hbytes]
      exact closingFrom_foreign hforeign depth _ _
termination_by rest.length

/-! ## Slices -/

section
variable {source : String} {before text rest : List Char}

/-- A slice between two places does not fall back. -/
theorem slice_encoded (h : source.toList = before.reverse ++ (text ++ rest)) (fallback : String) :
    Bytes.slice fallback source (encode before.reverse).length
      ((encode before.reverse).length + (encode text).length) = String.ofList text := by
  rw [Bytes.slice, length_encode, length_encode, slice?_of_toList h]
  rfl

/-- The body of a literal is a slice. -/
theorem slice_body {c d : Char} {body : List Char} (hc : c.toNat < 128) (hd : d.toNat < 128)
    (h : source.toList = before.reverse ++ c :: (body ++ d :: rest)) (fallback : String) :
    Bytes.slice fallback source ((encode before.reverse).length + 1)
      ((encode before.reverse).length + width (body ++ d :: rest) (body.length + 1)) =
        String.ofList body := by
  have hsource : source.toList = (c :: before).reverse ++ (body ++ d :: rest) := by
    rw [h, List.reverse_cons, List.append_assoc]
    rfl
  have hstart : (encode (c :: before).reverse).length = (encode before.reverse).length + 1 := by
    rw [List.reverse_cons, encode_append, encode_ascii hc, List.length_append]
    rfl
  have hbody : width (body ++ d :: rest) (body.length + 1) = 1 + (encode body).length := by
    rw [width_add, width_append, List.drop_left, width_one hd, Nat.add_comm]
  have hslice := slice_encoded hsource fallback
  rw [hstart, Nat.add_assoc, ← hbody] at hslice
  exact hslice

end

/-! ## Calls -/

section
variable {source : String} (fallback : String)

theorem literalPattern_encoded {before rest : List Char}
    (h : source.toList = before.reverse ++ rest) :
    Bytes.literalPattern fallback source (encoded ⟨before, rest⟩) = literalPattern rest := by
  cases rest with
  | nil => rfl
  | cons c tail =>
    rcases encodeChar_cases c with ⟨hc, -⟩ | ⟨hc, hne, hforeign⟩
    · have hbytes : encode (c :: tail) = c :: encode tail := encode_ascii hc tail
      unfold Bytes.literalPattern literalPattern
      rw [encoded]
      simp only [hbytes, List.length_reverse]
      by_cases hslash : c = '/'
      · rw [if_pos hslash, if_pos hslash, closedRegex_encode]
        cases hclosed : closedRegex false tail with
        | none => rfl
        | some length =>
          obtain ⟨body, more, rfl, rfl⟩ := exists_closedRegex hclosed
          dsimp only [Option.map_some]
          rw [slice_body hc (by decide) h, String.toList_ofList, Nat.add_sub_cancel, List.take_left]
      · rw [if_neg hslash, if_neg hslash]
        by_cases hquote : isQuote c = true
        · rw [if_pos hquote, if_pos hquote, closedString_encode hc]
          cases hclosed : closedString c tail with
          | none => rfl
          | some length =>
            obtain ⟨body, more, rfl, rfl⟩ := exists_closedString hclosed
            dsimp only [Option.map_some]
            rw [slice_body hc hc h, String.toList_ofList, Nat.add_sub_cancel, List.take_left]
        · rw [if_neg hquote, if_neg hquote]
    · -- neither the character nor its first byte starts a literal
      obtain ⟨first, later, hcons⟩ := List.exists_cons_of_ne_nil hne
      have hfirst : IsForeign first := hforeign first (hcons ▸ List.mem_cons_self ..)
      unfold Bytes.literalPattern literalPattern
      rw [encoded, encode_cons, hcons]
      have hslash : '/'.toNat < 128 := by decide
      simp only [List.cons_append, hfirst.isQuote, hc.isQuote, if_neg (hfirst.ne hslash),
        if_neg (hc.ne hslash), Bool.false_eq_true, if_false]

theorem width_eq (text : List Char) (count : Nat) :
    width text count = (encode (text.take count)).length :=
  (length_encode _).symm

theorem width_left (text rest : List Char) (count : Nat) :
    (encode text).length + width rest count = width (text ++ rest) (text.length + count) := by
  rw [width_add, width_append, List.drop_left]

/-- The text from a place on is a slice. -/
theorem slice_take {before rest : List Char} (h : source.toList = before.reverse ++ rest)
    (count : Nat) :
    Bytes.slice fallback source (encode before.reverse).length
      ((encode before.reverse).length + width rest count) = String.ofList (rest.take count) := by
  rw [width_eq]
  exact slice_encoded (by rw [List.take_append_drop, h]) fallback

/-- The same call is found among the bytes. -/
theorem call_encoded {before head arguments : List Char}
    (h : source.toList = before.reverse ++ (head ++ '(' :: arguments)) (type : StepType) :
    Bytes.call fallback source (encoded ⟨before, head ++ '(' :: arguments⟩) type
        (encode head).length =
      ((Place.call ⟨before, head ++ '(' :: arguments⟩ type head.length).1,
        width (head ++ '(' :: arguments)
          (Place.call ⟨before, head ++ '(' :: arguments⟩ type head.length).2) := by
  have hstart : (encoded ⟨before, head ++ '(' :: arguments⟩).before.length =
      (encode before.reverse).length := List.length_reverse
  have hoffset : (⟨before, head ++ '(' :: arguments⟩ : Place).offset =
      (encode before.reverse).length := by
    rw [← offset_encoded, hstart]
  have hclosing : ((encoded ⟨before, head ++ '(' :: arguments⟩).advance
      (encode head).length).closing =
        (closing ⟨head.reverse ++ before, '(' :: arguments⟩).map (width ('(' :: arguments)) := by
    rw [advance_encoded]
    exact closingFrom_encoded 0 _ _
  have hline : lineLength (encoded ⟨before, head ++ '(' :: arguments⟩).rest =
      width (head ++ '(' :: arguments) (lineLength (head ++ '(' :: arguments)) :=
    lineLength_encode _
  have hcount : (encode head).length + 1 = width (head ++ '(' :: arguments) (head.length + 1) := by
    rw [← width_left, width_one (by decide)]
  have hinside : (encoded ⟨before, head ++ '(' :: arguments⟩).advance ((encode head).length + 1) =
      encoded ⟨'(' :: head.reverse ++ before, arguments⟩ := by
    have hadvance := advance_encoded before (head ++ ['(']) arguments
    rw [List.append_assoc, encode_append, encode_ascii (by decide), List.length_append,
      List.reverse_append] at hadvance
    exact hadvance
  have htrivia : triviaLength (encoded ⟨'(' :: head.reverse ++ before, arguments⟩).rest =
      width arguments (triviaLength arguments) := triviaLength_encode arguments
  have hpattern : Bytes.literalPattern fallback source
      ((encoded ⟨'(' :: head.reverse ++ before, arguments⟩).advance
        (width arguments (triviaLength arguments))) =
          literalPattern (arguments.drop (triviaLength arguments)) := by
    have hadvance := advance_encoded ('(' :: head.reverse ++ before)
      (arguments.take (triviaLength arguments)) (arguments.drop (triviaLength arguments))
    rw [List.take_append_drop, ← width_eq] at hadvance
    rw [hadvance]
    refine literalPattern_encoded fallback ?_
    rw [h]
    simp
  have hdrop : (head ++ '(' :: arguments).drop (head.length + 1) = arguments := by
    rw [← List.drop_drop, List.drop_left]
    rfl
  unfold Bytes.call Place.call
  rw [hclosing, advance_append]
  dsimp only
  rw [hstart, hoffset, line_encoded, hinside, htrivia, hpattern, hdrop]
  cases closing ⟨head.reverse ++ before, '(' :: arguments⟩ with
  | none =>
    dsimp only [Option.map_none]
    rw [hline, slice_take fallback h, hcount]
  | some count =>
    dsimp only [Option.map_some]
    rw [Nat.add_assoc, width_left, slice_take fallback h]
    cases literalPattern (arguments.drop (triviaLength arguments)) <;> rfl

/-! ## The search -/

/-- What is found at an ASCII character. -/
theorem step_encoded {before tail : List Char} {c : Char} (hc : c.toNat < 128)
    (h : source.toList = before.reverse ++ c :: tail) :
    Bytes.step fallback source (encoded ⟨before, c :: tail⟩) =
      ((step ⟨before, c :: tail⟩).1, width (c :: tail) (step ⟨before, c :: tail⟩).2) := by
  have hlexeme := @lexeme_encoded ⟨before, c :: tail⟩ c tail hc rfl
  have hstart : (encoded ⟨before, c :: tail⟩).before.length = (encode before.reverse).length :=
    List.length_reverse
  have hrest : (encoded ⟨before, c :: tail⟩).rest = encode (c :: tail) := rfl
  unfold Bytes.step step
  rw [hlexeme, hstart, hrest]
  dsimp only
  generalize (lexeme ⟨before, c :: tail⟩).2 = length
  cases (lexeme ⟨before, c :: tail⟩).1 with
  | word =>
    dsimp only
    rw [slice_take fallback h, String.toList_ofList, drop_encode, triviaLength_encode, ← width_add,
      drop_encode]
    cases StepType.ofName? ((c :: tail).take length) with
    | none => rfl
    | some type =>
      dsimp only
      generalize hcount : length + triviaLength ((c :: tail).drop length) = count
      cases hbracket : (c :: tail).drop count with
      | nil => rfl
      | cons d arguments =>
        by_cases hd : d = '('
        · subst hd
          have hsplit : (c :: tail).take count ++ '(' :: arguments = c :: tail := by
            rw [← hbracket, List.take_append_drop]
          have hlength : ((c :: tail).take count).length = count := by
            have hle : count < (c :: tail).length := by
              rw [← Nat.not_le]
              intro hle
              rw [List.drop_of_length_le hle] at hbracket
              cases hbracket
            exact List.length_take_of_le (Nat.le_of_lt hle)
          have hcall := call_encoded fallback (by rw [hsplit]; exact h) type
          rw [hsplit, hlength, ← width_eq] at hcall
          rw [encode_ascii (by decide)]
          exact congrArg (fun found : Finding × Nat => ([found.1], found.2)) hcall
        · have hnone : ∀ more, encode (d :: arguments) ≠ '(' :: more := by
            intro more heq
            have hhead := head?_encode (d := '(') (by decide) (d :: arguments)
            rw [heq, List.head?_cons, List.head?_cons] at hhead
            exact hd (Option.some.inj (hhead.1 rfl))
          split
          · next heq => exact absurd heq (hnone _)
          · split
            · next heq => exact absurd (List.cons.inj heq).1 hd
            · rfl
  | comment | literal | unclosed | opening | closing | other => rfl

/-- Nothing is found at the bytes of other characters. -/
theorem findings_foreign {bytes : List Char} (h : ∀ d ∈ bytes, IsForeign d)
    (before rest : List Char) :
    Bytes.findings fallback source ⟨before, bytes ++ rest⟩ =
      Bytes.findings fallback source ⟨bytes.reverse ++ before, rest⟩ := by
  induction bytes generalizing before with
  | nil => rfl
  | cons d bytes ih =>
    have hlexeme : lexeme ⟨before, d :: (bytes ++ rest)⟩ = (.other, 1) :=
      lexemeFrom_foreign (h d (List.mem_cons_self ..)) _ _
    have hstep : Bytes.step fallback source ⟨before, d :: (bytes ++ rest)⟩ = ([], 1) := by
      unfold Bytes.step
      rw [hlexeme]
    have hadvance : advance ⟨before, d :: (bytes ++ rest)⟩ 1 = ⟨d :: before, bytes ++ rest⟩ := rfl
    rw [List.cons_append, Bytes.findings, dif_neg (List.cons_ne_nil _ _), hstep, hadvance,
      List.nil_append, ih fun other hother => h other (List.mem_cons_of_mem _ hother),
      List.reverse_cons, List.append_assoc]
    rfl

/-- What is found from a place on is the same among the bytes. -/
theorem findings_encoded {before rest : List Char} (h : source.toList = before.reverse ++ rest) :
    Bytes.findings fallback source (encoded ⟨before, rest⟩) = findings ⟨before, rest⟩ := by
  cases hrest : rest with
  | nil =>
    have hend : (encoded ⟨before, []⟩).rest = [] := rfl
    rw [Bytes.findings, dif_pos hend, findings, dif_pos rfl]
  | cons c tail =>
    rw [hrest] at h
    rcases encodeChar_cases c with ⟨hc, hone⟩ | ⟨hc, hne, hforeign⟩
    · have hchars : (⟨before, c :: tail⟩ : Place).rest ≠ [] := List.cons_ne_nil _ _
      have hshorter : tail.length + 1 - (step ⟨before, c :: tail⟩).2 < rest.length := by
        have hpos : 0 < (step ⟨before, c :: tail⟩).2 := step_pos hchars
        rw [hrest, List.length_cons]
        omega
      have hbytes : (encoded ⟨before, c :: tail⟩).rest ≠ [] := by
        rw [encoded, encode_ascii hc]
        exact List.cons_ne_nil _ _
      rw [Bytes.findings, dif_neg hbytes, step_encoded fallback hc h, findings, dif_neg hchars]
      dsimp only
      generalize (step ⟨before, c :: tail⟩).2 = count
      have hadvance := advance_encoded before ((c :: tail).take count) ((c :: tail).drop count)
      rw [List.take_append_drop, ← width_eq] at hadvance
      rw [hadvance, advance_eq]
      have hlater : source.toList = (((c :: tail).take count).reverse ++ before).reverse ++
          (c :: tail).drop count := by
        rw [List.reverse_append, List.reverse_reverse, List.append_assoc, List.take_append_drop, h]
      rw [findings_encoded hlater]
    · have hlexeme : lexeme ⟨before, c :: tail⟩ = (.other, 1) := lexemeFrom_foreign hc _ _
      have hstep : step ⟨before, [c] ++ tail⟩ = ([], [c].length) := by
        unfold step
        rw [List.singleton_append, hlexeme]
        rfl
      have hshorter : tail.length < rest.length := by
        rw [hrest]
        exact Nat.lt_succ_self _
      have hlater : source.toList = (c :: before).reverse ++ tail := by
        rw [List.reverse_cons, List.append_assoc, h]
        rfl
      have hchars : findings ⟨before, c :: tail⟩ = findings ⟨c :: before, tail⟩ :=
        findings_append (List.cons_ne_nil _ _) hstep
      rw [hchars, ← findings_encoded hlater, encoded_cons, encoded, encode_cons]
      exact findings_foreign fallback hforeign _ _
termination_by rest.length

/-- The search among the bytes of a script finds what the search among its characters finds, and
needs no fallback. -/
theorem bytes_extract_eq : Bytes.extract fallback source = extract source := by
  have hstart : encoded (start source.toList) = start (bytes source) := by
    rw [bytes_eq]
    rfl
  rw [Bytes.extract, extract, ← hstart]
  exact congrArg Extraction.mk (findings_encoded fallback rfl)

end

end Stepbook.Source
