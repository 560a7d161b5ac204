import Stepbook.Text.Basic

/-! # Quoted texts

A quoted text stands between double quotes. A double quote, a backslash and the controls with a
short name are escaped by a backslash; every other character that has no visible form of its own
is written by its code point, `\u{301}`.
-/

namespace Stepbook.Text
set_option autoImplicit false

def escapeChar (c : Char) : List Char :=
  match c with
  | '"' => ['\\', '"']
  | '\\' => ['\\', '\\']
  | '\t' => ['\\', 't']
  | '\r' => ['\\', 'r']
  | '\n' => ['\\', 'n']
  | '\x00' => ['\\', '0']
  | c =>
    if isPlain c then [c] else ['\\', 'u', '{'] ++ hexDigits c.toNat ++ ['}']

def quoteChars (text : List Char) : List Char :=
  '"' :: text.flatMap escapeChar ++ ['"']

def quote (text : String) : String :=
  String.ofList (quoteChars text.toList)

end Stepbook.Text
