import Stepbook.Text.CharClass

/-! # Texts as lists of characters

Reading works on lists of characters, so that what is still to be read is a tail of the text.

* `byteLength`: the size of a text in UTF-8; offsets into a text are counted in bytes.
* `trim`, `trimEnd`: a text without the blanks around it, or without those at its end.
* `lower`: ASCII letters in lower case, all else as it is.
* `replaceAll`: a text with each occurrence of a part replaced, from left to right.
* `joinWith`: texts one after another with a text between them.
-/

namespace Stepbook.Text
set_option autoImplicit false

/-! ## Size -/

def byteLength (text : List Char) : Nat :=
  text.foldr (fun c size => c.utf8Size + size) 0

@[simp] theorem byteLength_nil : byteLength [] = 0 := rfl

@[simp] theorem byteLength_cons (c : Char) (text : List Char) :
    byteLength (c :: text) = c.utf8Size + byteLength text := rfl

@[simp] theorem byteLength_append (left right : List Char) :
    byteLength (left ++ right) = byteLength left + byteLength right := by
  induction left with
  | nil => simp
  | cons c left ih => simp [ih, Nat.add_assoc]

/-! ## Blanks around a text -/

def trimEnd (text : List Char) : List Char :=
  (text.reverse.dropWhile isBlank).reverse

def trim (text : List Char) : List Char :=
  trimEnd (text.dropWhile isBlank)

def isBlankText (text : List Char) : Bool :=
  text.all isBlank

/-! ## Case -/

def lower (text : List Char) : List Char :=
  text.map Char.toLower

/-! ## Parts of a text -/

/-- `replaceFrom part value skip text` still has `skip` characters of an occurrence to drop. -/
def replaceFrom (part value : List Char) : Nat → List Char → List Char
  | _, [] => []
  | skip + 1, _ :: rest => replaceFrom part value skip rest
  | 0, c :: rest =>
    if part.isPrefixOf (c :: rest) then value ++ replaceFrom part value (part.length - 1) rest
    else c :: replaceFrom part value 0 rest

/-- `part` is not empty. -/
def replaceAll (part value text : List Char) : List Char :=
  replaceFrom part value 0 text

def joinWith (between : String) : List String → String
  | [] => ""
  | [single] => single
  | first :: rest => first ++ between ++ joinWith between rest

/-! ## Natural numbers in other bases -/

/-- The digits of a number in lower-case hexadecimal. -/
def hexDigits (n : Nat) : List Char :=
  Nat.toDigits 16 n

end Stepbook.Text
