import Stepbook.Text.BinaryProperty
import Stepbook.Text.Script

/-! # Classes of characters that decide where a text breaks

By these classes a text is divided into what a reader sees as characters (`GraphemeBreak`), into
words (`WordBreak`) and into sentences (`SentenceBreak`), by the edition that patterns go by. A
character in none of the classes of a kind has `none`.
-/

namespace Stepbook.Text
set_option autoImplicit false

namespace BreakClass

/-- The first class whose condition holds. -/
def firstOf {α : Type} (classes : List (Bool × α)) : Option α :=
  (classes.find? (·.1)).map (·.2)

def category (c : Char) : Category :=
  Category.inEdition .ofPatterns c

private def between (first last : Nat) (c : Char) : Bool :=
  first ≤ c.toNat && c.toNat ≤ last

/-- Combining characters and marks with a width. -/
def isExtending (c : Char) : Bool :=
  isCombining .ofPatterns c || category c == .spacingMark

/-- Format characters that neither join, combine nor stand before others. -/
def isFormat (c : Char) : Bool :=
  category c == .format && !isJoiner c && !isCombining .ofPatterns c &&
    !BinaryProperty.prependedConcatenationMark.holds c

/-- Decimal digits and the signs that embrace digits. -/
def isNumber (c : Char) : Bool :=
  category c == .decimalNumber || c.toNat == 0x66B || c.toNat == 0x19DA ||
    (BinaryProperty.prependedConcatenationMark.holds c && c.toNat != 0x70F)

end BreakClass

open BreakClass

/-! ## Characters as a reader sees them -/

inductive GraphemeBreak where
  | carriageReturn
  | lineFeed
  | control
  | extend
  | joiner
  | regionalIndicator
  | prepend
  | spacingMark
  | leading
  | vowel
  | trailing
  | leadingVowel
  | leadingVowelTrailing
  deriving DecidableEq, Repr

namespace GraphemeBreak

private def consonantPrefixes : CodeRanges := .ofText
   "D4E 111C2-111C3 113D1 1193F 11941 11A84-11A89 11D46 11F02"

/-- Marks with a width that do not attach to the letter before them. -/
private def unattachedMarks : CodeRanges := .ofText
   "102B-102C 1038 1062-1064 1067-106D 1083 1087-108C 108F 109A-109C 1A61 1A63-1A64 AA7B AA7D
    11720-11721"

private def isControl (c : Char) : Bool :=
  match category c with
  | .control | .lineSeparator | .paragraphSeparator => true
  | .format => isFormat c
  | .unassigned => BinaryProperty.defaultIgnorable.holds c
  | _ => false

def ofChar (c : Char) : Option GraphemeBreak :=
  let code := c.toNat
  firstOf
    [(c == '\r', carriageReturn),
     (c == '\n', lineFeed),
     (isCombining .ofPatterns c || BinaryProperty.emojiModifier.holds c, extend),
     (code == 0x200D, joiner),
     (BinaryProperty.regionalIndicator.holds c, regionalIndicator),
     (BinaryProperty.prependedConcatenationMark.holds c || consonantPrefixes.contains code,
       prepend),
     (isControl c, control),
     (code == 0xE33 || code == 0xEB3 ||
       (category c == .spacingMark && !unattachedMarks.contains code), spacingMark),
     (between 0x1100 0x115F c || between 0xA960 0xA97C c, leading),
     (between 0x1160 0x11A7 c || between 0xD7B0 0xD7C6 c || code == 0x16D63 ||
       between 0x16D67 0x16D6A c, vowel),
     (between 0x11A8 0x11FF c || between 0xD7CB 0xD7FB c, trailing),
     (between 0xAC00 0xD7A3 c && (code - 0xAC00) % 28 == 0, leadingVowel),
     (between 0xAC00 0xD7A3 c, leadingVowelTrailing)]

/-- The class that a name in lower case and without separators stands for. -/
def named? (name : List Char) : Option GraphemeBreak :=
  match String.ofList name with
  | "cr" => some carriageReturn
  | "lf" => some lineFeed
  | "cn" | "control" => some control
  | "ex" | "extend" => some extend
  | "zwj" => some joiner
  | "ri" | "regionalindicator" => some regionalIndicator
  | "pp" | "prepend" => some prepend
  | "sm" | "spacingmark" => some spacingMark
  | "l" => some leading
  | "v" => some vowel
  | "t" => some trailing
  | "lv" => some leadingVowel
  | "lvt" => some leadingVowelTrailing
  | _ => none

end GraphemeBreak

/-! ## Words -/

inductive WordBreak where
  | carriageReturn
  | lineFeed
  | newline
  | extend
  | joiner
  | regionalIndicator
  | format
  | katakana
  | hebrewLetter
  | letter
  | singleQuote
  | doubleQuote
  | midNumLet
  | midLetter
  | midNum
  | numeric
  | extendNumLet
  | blank
  deriving DecidableEq, Repr

namespace WordBreak

/-- Signs that count as letters. -/
private def furtherLetters : CodeRanges := .ofText
   "B8 2C2-2C5 2D2-2D7 2DE-2DF 2E5-2EB 2ED 2EF-2FF 55A-55C 55E 58A 5F3 70F A708-A716 A720-A721
    A789-A78A AB5B"

/-- Letters of scripts that write words without blanks between them. -/
private def unspacedLetters : CodeRanges := .ofText
   "E01-E30 E32-E33 E40-E46 E81-E82 E84 E86-E8A E8C-EA3 EA5 EA7-EB0 EB2-EB3 EBD EC0-EC4 EC6
    EDC-EDF 1000-102A 103F 1050-1055 105A-105D 1061 1065-1066 106E-1070 1075-1081 108E 1780-17B3
    17D7 17DC 1950-196D 1970-1974 1980-19AB 19B0-19C9 1A20-1A54 1AA7 A9E0-A9E4 A9E6-A9EF
    A9FA-A9FE AA60-AA76 AA7A AA7E-AAAF AAB1 AAB5-AAB6 AAB9-AABD AAC0 AAC2 AADB-AADD 11700-1171A
    11740-11746"

private def midNumRanges : CodeRanges := .ofText
   "2C 3B 37E 589 60C-60D 66C 7F8 2044 FE50 FE54 FF0C FF1B"

private def midNumLetRanges : CodeRanges := .ofText
   "2E 2018-2019 2024 FE52 FF07 FF0E"

private def midLetterRanges : CodeRanges := .ofText
   "3A B7 387 55F 5F4 2027 FE13 FE55 FF1A"

private def connectors : CodeRanges := .ofText
   "5F 202F 203F-2040 2054 FE33-FE34 FE4D-FE4F FF3F"

private def blanks : CodeRanges := .ofText
   "20 1680 2000-2006 2008-200A 205F 3000"

private def furtherKatakana : CodeRanges := .ofText
   "3031-3035 309B-309C 30A0 30FC FF70"

private def isLetter (c : Char) : Bool :=
  furtherLetters.contains c.toNat ||
    (isAlphabetic .ofPatterns c && !BinaryProperty.ideographic.holds c &&
      Script.ofChar c != ⟨"Hira"⟩ && !unspacedLetters.contains c.toNat)

def ofChar (c : Char) : Option WordBreak :=
  let code := c.toNat
  firstOf
    [(c == '\r', carriageReturn),
     (c == '\n', lineFeed),
     (code == 0xB || code == 0xC || code == 0x85 || code == 0x2028 || code == 0x2029, newline),
     (code == 0x200D, joiner),
     (isExtending c || BinaryProperty.emojiModifier.holds c, extend),
     (BinaryProperty.regionalIndicator.holds c, regionalIndicator),
     (isFormat c && code != 0x200B, format),
     (Script.ofChar c == ⟨"Kana"⟩ || furtherKatakana.contains code, katakana),
     (Script.ofChar c == ⟨"Hebr"⟩ && category c == .otherLetter, hebrewLetter),
     (c == '\'', singleQuote),
     (c == '"', doubleQuote),
     (midNumLetRanges.contains code, midNumLet),
     (midLetterRanges.contains code, midLetter),
     (midNumRanges.contains code, midNum),
     (isNumber c, numeric),
     (connectors.contains code, extendNumLet),
     (blanks.contains code, blank),
     (isLetter c, letter)]

/-- The class that a name in lower case and without separators stands for. -/
def named? (name : List Char) : Option WordBreak :=
  match String.ofList name with
  | "cr" => some carriageReturn
  | "lf" => some lineFeed
  | "nl" | "newline" => some newline
  | "extend" => some extend
  | "zwj" => some joiner
  | "ri" | "regionalindicator" => some regionalIndicator
  | "fo" | "format" => some format
  | "ka" | "katakana" => some katakana
  | "hl" | "hebrewletter" => some hebrewLetter
  | "le" | "aletter" => some letter
  | "sq" | "singlequote" => some singleQuote
  | "dq" | "doublequote" => some doubleQuote
  | "mb" | "midnumlet" => some midNumLet
  | "ml" | "midletter" => some midLetter
  | "mn" | "midnum" => some midNum
  | "nu" | "numeric" => some numeric
  | "ex" | "extendnumlet" => some extendNumLet
  | "wsegspace" => some blank
  | _ => none

end WordBreak

/-! ## Sentences -/

inductive SentenceBreak where
  | carriageReturn
  | lineFeed
  | separator
  | extend
  | format
  | blank
  | lower
  | upper
  | letter
  | numeric
  | fullStop
  | continuation
  | terminator
  | closing
  deriving DecidableEq, Repr

namespace SentenceBreak

private def continuations : CodeRanges := .ofText
   "2C-2D 3A-3B 37E 55D 60C-60D 7F8 1802 1808 2013-2014 3001 FE10-FE11 FE13-FE14 FE31-FE32
    FE50-FE51 FE54-FE55 FE58 FE63 FF0C-FF0D FF1A-FF1B FF64"

/-- Quotation marks that are no brackets. -/
private def furtherClosing : CodeRanges := .ofText
   "22 27 275B-2760 2E00-2E01 2E06-2E08 2E0B 1F676-1F678"

private def isSmallLetter (c : Char) : Bool :=
  isLowercase .ofPatterns c && !between 0x10D0 0x10FA c && !between 0x10FD 0x10FF c

private def isCapitalLetter (c : Char) : Bool :=
  (isUppercase .ofPatterns c || category c == .titlecaseLetter) && !between 0x1C90 0x1CBF c

def ofChar (c : Char) : Option SentenceBreak :=
  let code := c.toNat
  firstOf
    [(c == '\r', carriageReturn),
     (c == '\n', lineFeed),
     (code == 0x85 || code == 0x2028 || code == 0x2029, separator),
     (isExtending c || code == 0x200D, extend),
     (isFormat c || code == 0x70F, format),
     (isBlank c, blank),
     (isSmallLetter c, lower),
     (isCapitalLetter c, upper),
     (isAlphabetic .ofPatterns c || code == 0x5F3, letter),
     (isNumber c || code == 0x66C, numeric),
     (c == '.' || code == 0x2024 || code == 0xFE52 || code == 0xFF0E, fullStop),
     (continuations.contains code, continuation),
     (BinaryProperty.sentenceTerminal.holds c, terminator),
     ([Category.openPunctuation, .closePunctuation, .initialPunctuation,
         .finalPunctuation].contains (category c) || furtherClosing.contains code, closing)]

/-- The class that a name in lower case and without separators stands for. -/
def named? (name : List Char) : Option SentenceBreak :=
  match String.ofList name with
  | "cr" => some carriageReturn
  | "lf" => some lineFeed
  | "se" | "sep" => some separator
  | "ex" | "extend" => some extend
  | "fo" | "format" => some format
  | "sp" => some blank
  | "lo" | "lower" => some lower
  | "up" | "upper" => some upper
  | "le" | "oletter" => some letter
  | "nu" | "numeric" => some numeric
  | "at" | "aterm" => some fullStop
  | "sc" | "scontinue" => some continuation
  | "st" | "sterm" => some terminator
  | "cl" | "close" => some closing
  | _ => none

end SentenceBreak

end Stepbook.Text
