import Stepbook.Proofs.Source.Extent
import Stepbook.Proofs.Text.Utf8
import Stepbook.Source.Bytes

/-! # Scripts in UTF-8

Literals, comments and words reach as far among the bytes of a script as among its characters: what
tells their ends is ASCII, and no byte of another character is.

* `IsForeign`: a character beyond ASCII, or a byte of one.
* `encode`: a text byte by byte, each as the character with its code.
* `width`: the number of bytes of the first characters of a text.
* `closedString_encode`, `closedRegex_encode`, `commentLength?_encode`, `triviaLength_encode`,
  `takeWhile_encode`: what reaches how far.
* `slice?_of_toList`: slices between characters.
-/

namespace Stepbook.Source
set_option autoImplicit false

/-! ## Characters beyond ASCII -/

/-- Beyond ASCII. -/
def IsForeign (c : Char) : Prop :=
  128 ≤ c.toNat

section
variable {c : Char} (h : IsForeign c)
include h

theorem IsForeign.ne {d : Char} (hd : d.toNat < 128) : c ≠ d := by
  rintro rfl
  exact Nat.not_lt.2 h hd

theorem IsForeign.isAsciiBlank : Text.isAsciiBlank c = false := by
  simp only [Text.isAsciiBlank, Bool.or_eq_false_iff, beq_eq_false_iff_ne]
  exact ⟨⟨⟨⟨h.ne (by decide), h.ne (by decide)⟩, h.ne (by decide)⟩, h.ne (by decide)⟩,
    h.ne (by decide)⟩

theorem IsForeign.isQuote : isQuote c = false := by
  simp only [Source.isQuote, Bool.or_eq_false_iff, beq_eq_false_iff_ne]
  exact ⟨⟨h.ne (by decide), h.ne (by decide)⟩, h.ne (by decide)⟩

theorem IsForeign.isWordPart : isWordPart c = false := by
  have hbeyond : ∀ {high : Char}, high.toNat < 128 → ¬ c.val ≤ high.val := fun hhigh hle =>
    Nat.not_lt.2 h (Nat.lt_of_le_of_lt hle hhigh)
  have hupper : c.isUpper = false := decide_eq_false fun hrange => hbeyond (by decide) hrange.2
  have hlower : c.isLower = false :=
    Bool.and_eq_false_iff.2 (.inr (decide_eq_false (hbeyond (by decide))))
  have hdigit : c.isDigit = false :=
    Bool.and_eq_false_iff.2 (.inr (decide_eq_false (hbeyond (by decide))))
  simp only [Source.isWordPart, Source.isWordStart, Bool.or_eq_false_iff, beq_eq_false_iff_ne]
  exact ⟨⟨⟨Bool.or_eq_false_iff.2 ⟨hupper, hlower⟩, h.ne (by decide)⟩, h.ne (by decide)⟩, hdigit⟩

theorem lexemeFrom_foreign (regexAllowed : Bool) (tail : List Char) :
    lexemeFrom regexAllowed c tail = (.other, 1) := by
  have hstart : isWordStart c = false := by
    have hpart := h.isWordPart
    rw [isWordPart, Bool.or_eq_false_iff] at hpart
    exact hpart.1
  have hopening : ¬ (c = '(' ∨ c = '[' ∨ c = '{') := by
    rintro (heq | heq | heq) <;> exact h.ne (by decide) heq
  have hclosing : ¬ (c = ')' ∨ c = ']' ∨ c = '}') := by
    rintro (heq | heq | heq) <;> exact h.ne (by decide) heq
  rw [lexemeFrom_other h.isQuote (h.ne (by decide)), hstart, if_neg Bool.false_ne_true,
    if_neg hopening, if_neg hclosing]

end

/-! ## Encoding -/

/-- The bytes of a character, each as the character with its code. -/
def encodeChar (c : Char) : List Char :=
  (String.utf8EncodeChar c).map byteChar

def encode (text : List Char) : List Char :=
  text.flatMap encodeChar

theorem toNat_byteChar (byte : UInt8) : (byteChar byte).toNat = byte.toNat := by
  have hbyte := byte.toNat_lt
  rw [byteChar, Char.ofNat, dif_pos (.inl (by omega))]
  rfl

theorem encodeChar_of_ascii {c : Char} (h : c.toNat < 128) : encodeChar c = [c] := by
  have hsize : c.val.toNat ≤ 0x7f := by
    show c.toNat ≤ 127
    omega
  have hcode : (UInt8.ofNat c.val.toNat).toNat = c.toNat := by
    rw [UInt8.toNat_ofNat']
    exact Nat.mod_eq_of_lt (by show c.toNat < 256; omega)
  rw [encodeChar, String.utf8EncodeChar, if_pos hsize, List.map_singleton, byteChar, hcode,
    Char.ofNat_toNat]

theorem isForeign_of_mem_encodeChar {c d : Char} (h : IsForeign c) (hd : d ∈ encodeChar c) :
    IsForeign d := by
  have hsize : ¬ c.val.toNat ≤ 0x7f := by
    show ¬ c.toNat ≤ 127
    unfold IsForeign at h
    omega
  -- the bytes of a longer code all have their highest bit set
  have hhigh : ∀ byte ∈ String.utf8EncodeChar c, 128 ≤ byte.toNat := by
    intro byte hbyte
    rw [String.utf8EncodeChar, if_neg hsize] at hbyte
    split at hbyte
    · simp only [List.mem_cons, List.not_mem_nil, or_false] at hbyte
      rcases hbyte with rfl | rfl <;> rw [UInt8.toNat_ofNat'] <;> omega
    · split at hbyte
      · simp only [List.mem_cons, List.not_mem_nil, or_false] at hbyte
        rcases hbyte with rfl | rfl | rfl <;> rw [UInt8.toNat_ofNat'] <;> omega
      · simp only [List.mem_cons, List.not_mem_nil, or_false] at hbyte
        rcases hbyte with rfl | rfl | rfl | rfl <;> rw [UInt8.toNat_ofNat'] <;> omega
  obtain ⟨byte, hbyte, rfl⟩ := List.mem_map.1 hd
  rw [IsForeign, toNat_byteChar]
  exact hhigh byte hbyte

/-- A character of ASCII is one byte, all others have only bytes beyond ASCII. -/
theorem encodeChar_cases (c : Char) :
    (c.toNat < 128 ∧ encodeChar c = [c]) ∨
      (IsForeign c ∧ encodeChar c ≠ [] ∧ ∀ d ∈ encodeChar c, IsForeign d) := by
  by_cases h : c.toNat < 128
  · exact .inl ⟨h, encodeChar_of_ascii h⟩
  · refine .inr ⟨Nat.not_lt.1 h, ?_, fun d hd => isForeign_of_mem_encodeChar (Nat.not_lt.1 h) hd⟩
    rw [encodeChar, Ne, List.map_eq_nil_iff]
    exact String.utf8EncodeChar_ne_nil

theorem exists_encodeChar (c : Char) :
    ∃ first later, encodeChar c = first :: later ∧ ∀ d ∈ later, IsForeign d := by
  rcases encodeChar_cases c with ⟨-, hone⟩ | ⟨-, hne, hforeign⟩
  · exact ⟨c, [], hone, by simp⟩
  · obtain ⟨first, later, hcons⟩ := List.exists_cons_of_ne_nil hne
    rw [hcons] at hforeign
    exact ⟨first, later, hcons, fun d hd => hforeign d (List.mem_cons_of_mem _ hd)⟩

theorem length_encodeChar (c : Char) : (encodeChar c).length = c.utf8Size := by
  rw [encodeChar, List.length_map, String.length_utf8EncodeChar]

@[simp] theorem encode_nil : encode [] = [] := rfl

theorem encode_cons (c : Char) (text : List Char) :
    encode (c :: text) = encodeChar c ++ encode text :=
  List.flatMap_cons

theorem encode_ascii {c : Char} (h : c.toNat < 128) (text : List Char) :
    encode (c :: text) = c :: encode text := by
  rw [encode_cons, encodeChar_of_ascii h]
  rfl

theorem encode_append (first second : List Char) :
    encode (first ++ second) = encode first ++ encode second :=
  List.flatMap_append

theorem length_encode (text : List Char) : (encode text).length = Text.byteLength text := by
  induction text with
  | nil => rfl
  | cons c text ih =>
    rw [encode_cons, List.length_append, length_encodeChar, ih, Text.byteLength_cons]

theorem bytes_eq (source : String) : bytes source = encode source.toList := by
  have hdata : source.toByteArray.data.toList = source.toList.flatMap String.utf8EncodeChar := by
    rw [← String.utf8Encode_toList, List.utf8Encode, List.toList_data_toByteArray]
  rw [bytes, hdata, List.map_flatMap]
  rfl

/-! ## Widths -/

/-- The number of bytes of the first `count` characters. -/
def width (text : List Char) (count : Nat) : Nat :=
  Text.byteLength (text.take count)

theorem width_cons (c : Char) (text : List Char) (count : Nat) :
    width (c :: text) (count + 1) = (encodeChar c).length + width text count := by
  rw [width, List.take_succ_cons, Text.byteLength_cons, length_encodeChar]
  rfl

theorem width_ascii {c : Char} (h : c.toNat < 128) (text : List Char) (count : Nat) :
    width (c :: text) (count + 1) = width text count + 1 := by
  rw [width_cons, encodeChar_of_ascii h, List.length_singleton, Nat.add_comm]

theorem width_one {c : Char} (h : c.toNat < 128) (text : List Char) : width (c :: text) 1 = 1 :=
  width_ascii h text 0

theorem width_append (text rest : List Char) :
    width (text ++ rest) text.length = (encode text).length := by
  rw [width, List.take_left, length_encode]

theorem width_add (text : List Char) (first second : Nat) :
    width text (first + second) = width text first + width (text.drop first) second := by
  rw [width, List.take_add, Text.byteLength_append]
  rfl

theorem drop_encode (text : List Char) (count : Nat) :
    (encode text).drop (width text count) = encode (text.drop count) := by
  have hsplit : encode text = encode (text.take count) ++ encode (text.drop count) := by
    rw [← encode_append, List.take_append_drop]
  have hwidth : width text count = (encode (text.take count)).length := (length_encode _).symm
  rw [hwidth, hsplit, List.drop_left]

theorem map_width_cons (c : Char) (text : List Char) (length : Option Nat) :
    (length.map (width text)).map (· + (encodeChar c).length) =
      (length.map (· + 1)).map (width (c :: text)) := by
  rw [Option.map_map, Option.map_map]
  refine Option.map_congr fun count _ => ?_
  rw [Function.comp_apply, Function.comp_apply, width_cons, Nat.add_comm]

/-- A backslash stands before the first byte of the character that it escapes. -/
theorem exists_encode_escape (c : Char) (text : List Char) :
    ∃ first later, encode ('\\' :: c :: text) = '\\' :: first :: (later ++ encode text) ∧
      (∀ d ∈ later, IsForeign d) ∧
      ∀ length : Option Nat, (length.map (width text)).map (· + (2 + later.length)) =
        (length.map (· + 2)).map (width ('\\' :: c :: text)) := by
  have hslash : encodeChar '\\' = ['\\'] := encodeChar_of_ascii (by decide)
  obtain ⟨first, later, hcons, hforeign⟩ := exists_encodeChar c
  refine ⟨first, later, ?_, hforeign, fun length => ?_⟩
  · rw [encode_ascii (by decide), encode_cons, hcons]
    rfl
  · have hmap := map_width_cons '\\' (c :: text) (length.map (· + 1))
    have hcount : ['\\'].length + (first :: later).length = 2 + later.length := by
      simp only [List.length_cons, List.length_nil]
      omega
    rw [← map_width_cons, map_add_add, map_add_add, hcons, hslash, hcount] at hmap
    exact hmap

/-! ## Literals -/

section
variable {quote : Char} (hquote : quote.toNat < 128)
include hquote

theorem closedString_foreign {bytes : List Char} (h : ∀ d ∈ bytes, IsForeign d)
    (rest : List Char) :
    closedString quote (bytes ++ rest) = (closedString quote rest).map (· + bytes.length) := by
  induction bytes with
  | nil => exact (map_add_zero _).symm
  | cons d bytes ih =>
    have hd := h d (List.mem_cons_self ..)
    have hline : ¬ (d = '\n' ∧ quote ≠ '`') := fun both => hd.ne (by decide) both.1
    rw [List.cons_append, closedString_cons (hd.ne (by decide)), if_neg (hd.ne hquote),
      if_neg hline, ih fun other hother => h other (List.mem_cons_of_mem _ hother), map_add_add,
      List.length_cons, Nat.add_comm]

theorem closedString_encode (text : List Char) :
    closedString quote (encode text) = (closedString quote text).map (width text) := by
  fun_induction closedString quote text with
  | case1 => rfl
  | case2 =>
    rw [encode_ascii (by decide)]
    rfl
  | case3 c text ih =>
    -- the search goes on behind the first byte of the character
    obtain ⟨first, later, hbytes, hforeign, hmap⟩ := exists_encode_escape c text
    rw [hbytes, closedString, closedString_foreign hquote hforeign, ih, map_add_add, hmap]
  | case4 text hlone hescape =>
    rw [encode_ascii hquote, closedString_cons (ne_escape hlone hescape), if_pos rfl,
      Option.map_some, width_one hquote]
  | case5 c text hlone hescape hne hline =>
    rw [hline.1, encode_ascii (by decide), closedString_cons (by decide), if_neg (hline.1 ▸ hne),
      if_pos ⟨rfl, hline.2⟩]
    rfl
  | case6 c text hlone hescape hne hline ih =>
    rw [← map_width_cons, ← ih, encode_cons]
    rcases encodeChar_cases c with ⟨-, hone⟩ | ⟨-, -, hforeign⟩
    · rw [hone, List.singleton_append, closedString_cons (ne_escape hlone hescape), if_neg hne,
        if_neg hline]
      rfl
    · exact closedString_foreign hquote hforeign _

end

theorem closedRegex_foreign {inClass : Bool} {bytes : List Char} (h : ∀ d ∈ bytes, IsForeign d)
    (rest : List Char) :
    closedRegex inClass (bytes ++ rest) = (closedRegex inClass rest).map (· + bytes.length) := by
  induction bytes with
  | nil => exact (map_add_zero _).symm
  | cons d bytes ih =>
    have hd := h d (List.mem_cons_self ..)
    have hend : ¬ (d = '/' ∧ inClass = false) := fun both => hd.ne (by decide) both.1
    rw [List.cons_append, closedRegex_cons (hd.ne (by decide)), if_neg (hd.ne (by decide)),
      if_neg (hd.ne (by decide)), if_neg (hd.ne (by decide)), if_neg hend,
      ih fun other hother => h other (List.mem_cons_of_mem _ hother), map_add_add,
      List.length_cons, Nat.add_comm]

theorem closedRegex_encode (inClass : Bool) (text : List Char) :
    closedRegex inClass (encode text) = (closedRegex inClass text).map (width text) := by
  fun_induction closedRegex inClass text with
  | case1 => rfl
  | case2 =>
    rw [encode_ascii (by decide)]
    rfl
  | case3 inClass c text ih =>
    obtain ⟨first, later, hbytes, hforeign, hmap⟩ := exists_encode_escape c text
    rw [hbytes, closedRegex, closedRegex_foreign hforeign, ih, map_add_add, hmap]
  | case4 inClass text hlone hescape =>
    rw [encode_ascii (by decide), closedRegex_cons (by decide), if_pos rfl]
    rfl
  | case5 inClass text hlone hescape hline ih =>
    rw [← map_width_cons, ← ih, encode_ascii (by decide), closedRegex_cons (by decide),
      if_neg hline, if_pos rfl, encodeChar_of_ascii (by decide)]
    rfl
  | case6 inClass text hlone hescape hline hopening ih =>
    rw [← map_width_cons, ← ih, encode_ascii (by decide), closedRegex_cons (by decide),
      if_neg hline, if_neg hopening, if_pos rfl, encodeChar_of_ascii (by decide)]
    rfl
  | case7 inClass c text hlone hescape hline hopening hclosing hend =>
    have hc : c.toNat < 128 := hend.1 ▸ (by decide : '/'.toNat < 128)
    rw [encode_ascii hc, closedRegex_cons (ne_escape hlone hescape), if_neg hline,
      if_neg hopening, if_neg hclosing, if_pos hend, Option.map_some, width_one hc]
  | case8 inClass c text hlone hescape hline hopening hclosing hend ih =>
    rw [← map_width_cons, ← ih, encode_cons]
    rcases encodeChar_cases c with ⟨-, hone⟩ | ⟨-, -, hforeign⟩
    · rw [hone, List.singleton_append, closedRegex_cons (ne_escape hlone hescape), if_neg hline,
        if_neg hopening, if_neg hclosing, if_neg hend]
      rfl
    · exact closedRegex_foreign hforeign _

/-! ## Lines and words -/

/-- Runs of characters of a class that does not tell those beyond ASCII apart. -/
theorem takeWhile_encode {p : Char → Bool} {foreign : Bool}
    (hp : ∀ c, IsForeign c → p c = foreign) (text : List Char) :
    (encode text).takeWhile p = encode (text.takeWhile p) := by
  induction text with
  | nil => rfl
  | cons c text ih =>
    rw [encode_cons, List.takeWhile_cons]
    rcases encodeChar_cases c with ⟨-, hone⟩ | ⟨hc, hne, hforeign⟩
    · rw [hone, List.singleton_append, List.takeWhile_cons, ih]
      split
      · rw [encode_cons, hone]
        rfl
      · rfl
    · rw [hp c hc]
      cases foreign with
      | true =>
        rw [List.takeWhile_append_of_pos fun d hd => hp d (hforeign d hd), ih, if_pos rfl,
          encode_cons]
      | false =>
        obtain ⟨first, later, hcons⟩ := List.exists_cons_of_ne_nil hne
        have hfirst : p first = false := hp first (hforeign first (hcons ▸ List.mem_cons_self ..))
        rw [hcons, List.cons_append, List.takeWhile_cons, hfirst]
        rfl

theorem length_takeWhile_encode {p : Char → Bool} {foreign : Bool}
    (hp : ∀ c, IsForeign c → p c = foreign) (text : List Char) :
    ((encode text).takeWhile p).length = width text (text.takeWhile p).length := by
  have htake : text.take (text.takeWhile p).length = text.takeWhile p :=
    (List.prefix_iff_eq_take.1 (List.takeWhile_prefix p)).symm
  rw [takeWhile_encode hp, length_encode, width, htake]

theorem lineLength_encode (text : List Char) :
    lineLength (encode text) = width text (lineLength text) :=
  length_takeWhile_encode (fun _ hc => bne_iff_ne.2 (hc.ne (by decide))) text

/-! ## Comments -/

theorem blockLength_foreign {bytes : List Char} (h : ∀ d ∈ bytes, IsForeign d)
    (rest : List Char) : blockLength (bytes ++ rest) = bytes.length + blockLength rest := by
  induction bytes with
  | nil => exact (Nat.zero_add _).symm
  | cons d bytes ih =>
    have hd : ¬ (d = '*' ∧ (bytes ++ rest).head? = some '/') := fun both =>
      (h d (List.mem_cons_self ..)).ne (by decide) both.1
    rw [List.cons_append, blockLength_cons hd,
      ih fun other hother => h other (List.mem_cons_of_mem _ hother), List.length_cons]
    omega

/-- The first byte of a text tells whether a given ASCII character comes first. -/
theorem head?_encode {d : Char} (hd : d.toNat < 128) (text : List Char) :
    (encode text).head? = some d ↔ text.head? = some d := by
  cases text with
  | nil => rfl
  | cons c text =>
    rw [encode_cons]
    rcases encodeChar_cases c with ⟨-, hone⟩ | ⟨hc, hne, hforeign⟩
    · rw [hone]
      rfl
    · obtain ⟨first, later, hcons⟩ := List.exists_cons_of_ne_nil hne
      have hfirst : IsForeign first := hforeign first (hcons ▸ List.mem_cons_self ..)
      rw [hcons, List.cons_append, List.head?_cons, List.head?_cons, Option.some.injEq,
        Option.some.injEq]
      exact ⟨fun heq => absurd heq (hfirst.ne hd), fun heq => absurd heq (hc.ne hd)⟩

theorem blockLength_encode (text : List Char) :
    blockLength (encode text) = width text (blockLength text) := by
  fun_induction blockLength text with
  | case1 => rfl
  | case2 text =>
    rw [encode_ascii (by decide), encode_ascii (by decide), width_ascii (by decide),
      width_ascii (by decide)]
    rfl
  | case3 c text hend ih =>
    rw [width_cons, ← ih, encode_cons]
    rcases encodeChar_cases c with ⟨-, hone⟩ | ⟨-, -, hforeign⟩
    · have hlater : ¬ (c = '*' ∧ (encode text).head? = some '/') := by
        rintro ⟨rfl, hhead⟩
        rw [head?_encode (by decide)] at hhead
        obtain ⟨more, rfl⟩ := List.head?_eq_some_iff.1 hhead
        exact hend more rfl rfl
      rw [hone, List.singleton_append, blockLength_cons hlater, List.length_singleton,
        Nat.add_comm]
    · exact blockLength_foreign hforeign _

theorem commentLength?_encode (text : List Char) :
    commentLength? (encode text) = (commentLength? text).map (width text) := by
  fun_cases commentLength? text with
  | case1 rest =>
    rw [encode_ascii (by decide), encode_ascii (by decide), commentLength?, Option.map_some,
      width_ascii (by decide), width_ascii (by decide), lineLength_encode]
  | case2 rest =>
    rw [encode_ascii (by decide), encode_ascii (by decide), commentLength?, Option.map_some,
      width_ascii (by decide), width_ascii (by decide), blockLength_encode]
  | case3 text hline hblock =>
    rw [Option.map_none]
    cases text with
    | nil => rfl
    | cons c rest =>
      by_cases hc : c = '/'
      · subst hc
        have hnext : ∀ d, d.toNat < 128 → rest.head? ≠ some d →
            (encode rest).head? ≠ some d := fun d hd hne heq => hne ((head?_encode hd rest).1 heq)
        have hfirst : rest.head? ≠ some '/' := by
          intro heq
          obtain ⟨more, rfl⟩ := List.head?_eq_some_iff.1 heq
          exact hline more rfl
        have hsecond : rest.head? ≠ some '*' := by
          intro heq
          obtain ⟨more, rfl⟩ := List.head?_eq_some_iff.1 heq
          exact hblock more rfl
        rw [encode_ascii (by decide)]
        exact commentLength?_slash (hnext '/' (by decide) hfirst) (hnext '*' (by decide) hsecond)
      · have hhead : (encode (c :: rest)).head? ≠ some '/' := by
          rw [Ne, head?_encode (by decide), List.head?_cons, Option.some.injEq]
          exact hc
        cases hbytes : encode (c :: rest) with
        | nil => rfl
        | cons first more =>
          rw [hbytes, List.head?_cons, Ne, Option.some.injEq] at hhead
          exact commentLength?_of_ne_slash hhead more

theorem triviaLength_encode (text : List Char) :
    triviaLength (encode text) = width text (triviaLength text) := by
  fun_induction triviaLength text with
  | case1 text length hcomment ih =>
    have hbytes : commentLength? (encode text) = some (width text length) := by
      rw [commentLength?_encode, hcomment]
      rfl
    rw [triviaLength_of_comment hbytes, drop_encode, ih, width_add]
  | case2 hcomment =>
    rw [encode_nil, triviaLength]
    rfl
  | case3 c text hcomment hblank ih =>
    have hc : c.toNat < 128 := by
      refine Nat.not_le.1 fun hforeign => ?_
      rw [IsForeign.isAsciiBlank hforeign] at hblank
      cases hblank
    rw [encode_ascii hc, triviaLength_of_blank hblank, ih, Nat.add_comm 1, Nat.add_comm 1,
      width_ascii hc]
  | case4 c text hcomment hblank =>
    have hnone : commentLength? (encode (c :: text)) = none := by
      rw [commentLength?_encode, hcomment]
      rfl
    have hfirst : ∃ first more, encode (c :: text) = first :: more ∧
        Text.isAsciiBlank first = false := by
      rcases encodeChar_cases c with ⟨-, hone⟩ | ⟨-, hne, hforeign⟩
      · refine ⟨c, encode text, ?_, Bool.eq_false_iff.2 hblank⟩
        rw [encode_cons, hone]
        rfl
      · obtain ⟨first, later, hcons⟩ := List.exists_cons_of_ne_nil hne
        refine ⟨first, later ++ encode text, ?_, ?_⟩
        · rw [encode_cons, hcons]
          rfl
        · exact (hforeign first (hcons ▸ List.mem_cons_self ..)).isAsciiBlank
    obtain ⟨first, more, hcons, hother⟩ := hfirst
    rw [hcons] at hnone ⊢
    exact triviaLength_of_other hother hnone

/-! ## Slices -/

theorem isValid_append (first second : String) :
    String.Pos.Raw.IsValid (first ++ second) ⟨first.utf8ByteSize⟩ :=
  String.Pos.Raw.isValid_iff_exists_append.2 ⟨first, second, rfl, rfl⟩

/-- A text within another is the slice between its offsets. -/
theorem slice?_append (before text rest : String) :
    slice? (before ++ text ++ rest) before.utf8ByteSize (before.utf8ByteSize + text.utf8ByteSize) =
      some text := by
  have hstart : String.Pos.Raw.IsValid (before ++ text ++ rest) ⟨before.utf8ByteSize⟩ := by
    rw [String.append_assoc]
    exact isValid_append before (text ++ rest)
  have hstop : String.Pos.Raw.IsValid (before ++ text ++ rest)
      ⟨before.utf8ByteSize + text.utf8ByteSize⟩ := by
    have hvalid := isValid_append (before ++ text) rest
    rwa [String.utf8ByteSize_append] at hvalid
  rw [slice?, dif_pos ⟨Nat.le_add_right _ _, hstart, hstop⟩]
  congr 1
  apply String.toByteArray_inj.1
  have hsize : before.utf8ByteSize = before.toByteArray.size := String.size_toByteArray.symm
  rw [String.toByteArray_extract, String.offset_pos, String.offset_pos, String.toByteArray_append,
    String.toByteArray_append, ByteArray.append_assoc]
  show (before.toByteArray ++ (text.toByteArray ++ rest.toByteArray)).extract
    (before.utf8ByteSize + 0) (before.utf8ByteSize + text.utf8ByteSize) = text.toByteArray
  rw [ByteArray.extract_append_size_add' hsize]
  exact ByteArray.extract_append_eq_left String.size_toByteArray.symm

theorem byteLength_eq (text : List Char) :
    Text.byteLength text = (String.ofList text).utf8ByteSize := by
  rw [← Text.byteLength_toList, String.toList_ofList]

/-- The characters between two places are the slice between their offsets. -/
theorem slice?_of_toList {source : String} {before text rest : List Char}
    (h : source.toList = before ++ (text ++ rest)) :
    slice? source (Text.byteLength before) (Text.byteLength before + Text.byteLength text) =
      some (String.ofList text) := by
  have hsource : source = String.ofList before ++ String.ofList text ++ String.ofList rest := by
    apply String.toList_inj.1
    rw [h, String.toList_append, String.toList_append, String.toList_ofList, String.toList_ofList,
      String.toList_ofList, List.append_assoc]
  rw [byteLength_eq, byteLength_eq, hsource, slice?_append]

end Stepbook.Source
