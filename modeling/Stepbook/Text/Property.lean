import Stepbook.Text.BreakClass

/-! # Properties of characters by name

A pattern may name a class of characters by a general category, a script, a property that a
character has or has not, the edition that assigned it, or a class of text division.

* `Property.holds`: whether a character has a property.
* `Property.named?`, `Property.valued?`: the property that a name, or a name with a value, stands
  for. Letter case, blanks, hyphens and underscores in names do not matter, nor does a leading `is`.
-/

namespace Stepbook.Text
set_option autoImplicit false

inductive Property where
  | anything
  | assigned
  | ascii
  | wordChar
  | category (value : Category)
  | major (letter : Char)
  | casedLetter
  | script (value : Script)
  /-- The characters that texts in a script use. -/
  | scriptUse (value : Script)
  | binary (value : BinaryProperty)
  /-- The characters that an edition or one before it assigned. -/
  | assignedBy (edition : Edition)
  | graphemeBreak (value : GraphemeBreak)
  | wordBreak (value : WordBreak)
  | sentenceBreak (value : SentenceBreak)
  deriving DecidableEq, Repr

namespace Property

/-! ## Meaning -/

def holds (property : Property) (c : Char) : Bool :=
  let category := Category.inEdition .ofPatterns c
  match property with
  | .anything => true
  | .assigned => category != .unassigned
  | .ascii => c.toNat < 128
  | .wordChar => isWordChar c
  | .category value => category == value
  | .major letter => category.major == letter
  | .casedLetter =>
    [Category.uppercaseLetter, .lowercaseLetter, .titlecaseLetter].contains category
  | .script value => Script.ofChar c == value
  | .scriptUse value => value.uses c
  | .binary value => value.holds c
  | .assignedBy edition => edition.knows c
  | .graphemeBreak value => GraphemeBreak.ofChar c == some value
  | .wordBreak value => WordBreak.ofChar c == some value
  | .sentenceBreak value => SentenceBreak.ofChar c == some value

/-! ## Names -/

/-- A name as it is compared: lower case, no separators, no leading `is`. -/
def normalize (name : List Char) : List Char :=
  let plain := (name.filter fun c => c.toNat < 128).map Char.toLower
  let stem := if ['i', 's'].isPrefixOf (name.map Char.toLower) then plain.drop 2 else plain
  let kept := stem.filter fun c => c != ' ' && c != '_' && c != '-'
  if kept == ['c'] && kept.length < plain.length && plain.take 2 == ['i', 's'] then "isc".toList
  else kept

/-- Names of categories and of their groups. -/
private def categoryNames : List (String × Property) :=
  [("any", .anything), ("assigned", .assigned), ("ascii", .ascii),
   ("lc", .casedLetter), ("casedletter", .casedLetter),
   ("l", .major 'L'), ("letter", .major 'L'),
   ("m", .major 'M'), ("mark", .major 'M'), ("combiningmark", .major 'M'),
   ("n", .major 'N'), ("number", .major 'N'),
   ("p", .major 'P'), ("punctuation", .major 'P'), ("punct", .major 'P'),
   ("s", .major 'S'), ("symbol", .major 'S'),
   ("z", .major 'Z'), ("separator", .major 'Z'),
   ("c", .major 'C'), ("other", .major 'C'),
   ("lu", .category .uppercaseLetter), ("uppercaseletter", .category .uppercaseLetter),
   ("ll", .category .lowercaseLetter), ("lowercaseletter", .category .lowercaseLetter),
   ("lt", .category .titlecaseLetter), ("titlecaseletter", .category .titlecaseLetter),
   ("lm", .category .modifierLetter), ("modifierletter", .category .modifierLetter),
   ("lo", .category .otherLetter), ("otherletter", .category .otherLetter),
   ("mn", .category .nonspacingMark), ("nonspacingmark", .category .nonspacingMark),
   ("mc", .category .spacingMark), ("spacingmark", .category .spacingMark),
   ("me", .category .enclosingMark), ("enclosingmark", .category .enclosingMark),
   ("nd", .category .decimalNumber), ("decimalnumber", .category .decimalNumber),
   ("digit", .category .decimalNumber),
   ("nl", .category .letterNumber), ("letternumber", .category .letterNumber),
   ("no", .category .otherNumber), ("othernumber", .category .otherNumber),
   ("pc", .category .connectorPunctuation),
   ("connectorpunctuation", .category .connectorPunctuation),
   ("pd", .category .dashPunctuation), ("dashpunctuation", .category .dashPunctuation),
   ("ps", .category .openPunctuation), ("openpunctuation", .category .openPunctuation),
   ("pe", .category .closePunctuation), ("closepunctuation", .category .closePunctuation),
   ("pi", .category .initialPunctuation), ("initialpunctuation", .category .initialPunctuation),
   ("pf", .category .finalPunctuation), ("finalpunctuation", .category .finalPunctuation),
   ("po", .category .otherPunctuation), ("otherpunctuation", .category .otherPunctuation),
   ("sm", .category .mathSymbol), ("mathsymbol", .category .mathSymbol),
   ("sc", .category .currencySymbol), ("currencysymbol", .category .currencySymbol),
   ("sk", .category .modifierSymbol), ("modifiersymbol", .category .modifierSymbol),
   ("so", .category .otherSymbol), ("othersymbol", .category .otherSymbol),
   ("zs", .category .spaceSeparator), ("spaceseparator", .category .spaceSeparator),
   ("zl", .category .lineSeparator), ("lineseparator", .category .lineSeparator),
   ("zp", .category .paragraphSeparator), ("paragraphseparator", .category .paragraphSeparator),
   ("cc", .category .control), ("control", .category .control), ("cntrl", .category .control),
   ("cf", .category .format), ("format", .category .format),
   ("co", .category .privateUse), ("privateuse", .category .privateUse),
   ("cn", .category .unassigned), ("unassigned", .category .unassigned)]

private def categoryNamed? (name : List Char) : Option Property :=
  (categoryNames.find? fun entry => entry.1.toList == name).map (·.2)

/-- An edition that patterns know. -/
private def editionNamed? (name : List Char) : Option Property :=
  ((Edition.named? name).filter (·.atMost .ofPatterns)).map .assignedBy

/-- A binary property, a category or a script. -/
def named? (name : List Char) : Option Property :=
  let plain := normalize name
  (((BinaryProperty.named? plain).map .binary).or (categoryNamed? plain)).or
    ((Script.named? plain).map .script)

/-- A property whose kind is named as well. -/
def valued? (kind value : List Char) : Option Property :=
  let value := normalize value
  match String.ofList (normalize kind) with
  | "gc" | "generalcategory" => categoryNamed? value
  | "sc" | "script" => (Script.named? value).map .script
  | "scx" | "scriptextensions" => (Script.named? value).map .scriptUse
  | "age" => editionNamed? value
  | "gcb" | "graphemeclusterbreak" => (GraphemeBreak.named? value).map .graphemeBreak
  | "wb" | "wordbreak" => (WordBreak.named? value).map .wordBreak
  | "sb" | "sentencebreak" => (SentenceBreak.named? value).map .sentenceBreak
  | _ => none

end Property

end Stepbook.Text
