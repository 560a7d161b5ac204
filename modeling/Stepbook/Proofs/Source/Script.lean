import Stepbook.Source.Extraction

/-! # Written scripts

A script of registrations, put together from its parts: keywords, gaps, a literal and a tail for
each registration.

* `Gap`: a blank or a comment that ends.
* `Quotable`, `RegexBody`: what may stand between quotes, or between the slashes of a regular
  expression.
* `Literal`: a pattern as it is written.
* `Item`, `levels`: the tail of a registration, and how deep its brackets are nested.
* `Registration`, `Script`: what is written, with `text`.
* `Registration.definition`: the definition that a registration stands for.
-/

namespace Stepbook.Source
set_option autoImplicit false

/-! ## Gaps -/

inductive Comment where
  | line (body : List Char) (oneLine : '\n' ∉ body)
  | block (body : List Char) (unclosed : ¬ ['*', '/'] <:+: body)

def Comment.text : Comment → List Char
  | .line body _ => '/' :: '/' :: body ++ ['\n']
  | .block body _ => '/' :: '*' :: body ++ ['*', '/']

inductive Gap where
  | blank (c : Char) (isBlank : Text.isAsciiBlank c = true)
  | comment (comment : Comment)

namespace Gap

def text : Gap → List Char
  | .blank c _ => [c]
  | .comment written => written.text

def IsBlank : Gap → Prop
  | .blank _ _ => True
  | .comment _ => False

end Gap

/-! ## Literals -/

/-- Every quote is escaped, and outside of templates every end of a line. -/
inductive Quotable (quote : Char) : List Char → Prop where
  | nil : Quotable quote []
  | escaped (c : Char) {body : List Char} (others : Quotable quote body) :
      Quotable quote ('\\' :: c :: body)
  | plain {c : Char} {body : List Char} (unescaped : c ≠ '\\') (unquoted : c ≠ quote)
      (oneLine : c = '\n' → quote = '`') (others : Quotable quote body) : Quotable quote (c :: body)

/-- Every slash is escaped or in a class; `inClass` says where the body starts, and it ends outside
of classes. -/
inductive RegexBody : (inClass : Bool) → List Char → Prop where
  | nil : RegexBody false []
  | escaped {inClass : Bool} {c : Char} {body : List Char} (oneLine : c ≠ '\n')
      (others : RegexBody inClass body) : RegexBody inClass ('\\' :: c :: body)
  | opening {inClass : Bool} {body : List Char} (others : RegexBody true body) :
      RegexBody inClass ('[' :: body)
  | closing {inClass : Bool} {body : List Char} (others : RegexBody false body) :
      RegexBody inClass (']' :: body)
  | slash {body : List Char} (others : RegexBody true body) : RegexBody true ('/' :: body)
  | plain {inClass : Bool} {c : Char} {body : List Char}
      (isPlain : c ∉ ['\\', '\n', '[', ']', '/']) (others : RegexBody inClass body) :
      RegexBody inClass (c :: body)

def escapeChar (quote c : Char) : List Char :=
  if c = '\\' ∨ c = quote then ['\\', c]
  else if c = '\n' then ['\\', 'n']
  else if c = '\r' then ['\\', 'r']
  else if c = '\t' then ['\\', 't']
  else if c = '{' ∧ quote = '`' then ['\\', '{']
  else [c]

/-- The body of a string that stands for a text. -/
def escape (quote : Char) (text : List Char) : List Char :=
  text.flatMap (escapeChar quote)

inductive Literal where
  | quoted (quote : Char) (isQuote : isQuote quote = true) (pattern : List Char)
  | regex (pattern : List Char) (ne_nil : pattern ≠ []) (no_star : pattern.head? ≠ some '*')
      (body : RegexBody false pattern)

namespace Literal

def text : Literal → List Char
  | .quoted quote _ pattern => quote :: escape quote pattern ++ [quote]
  | .regex pattern _ _ _ => '/' :: pattern ++ ['/']

def pattern : Literal → List Char
  | .quoted _ _ pattern => pattern
  | .regex pattern _ _ _ => pattern

def variant : Literal → Variant
  | .quoted _ _ _ => .expression
  | .regex _ _ _ _ => .regex

end Literal

/-! ## Tails -/

/-- What a tail is made of; `other` characters may be brackets, and parts of words. -/
inductive Item where
  | quoted (quote : Char) (isQuote : isQuote quote = true) (body : List Char)
      (quotable : Quotable quote body)
  | comment (comment : Comment)
  | other (c : Char) (unquoted : isQuote c = false) (no_slash : c ≠ '/')

/-- How deep brackets are nested behind a character; none if it closes too much. -/
def bracketLevel? (depth : Nat) (c : Char) : Option Nat :=
  if c = '(' ∨ c = '[' ∨ c = '{' then some (depth + 1)
  else if c = ')' ∨ c = ']' ∨ c = '}' then
    match depth with
    | 0 => none
    | depth + 1 => some depth
  else some depth

namespace Item

def text : Item → List Char
  | .quoted quote _ body _ => quote :: body ++ [quote]
  | .comment written => written.text
  | .other c _ _ => [c]

def level? (depth : Nat) : Item → Option Nat
  | .quoted _ _ _ _ | .comment _ => some depth
  | .other c _ _ => bracketLevel? depth c

/-- How deep brackets are nested behind a tail. -/
def levels? (depth : Nat) : List Item → Option Nat
  | [] => some depth
  | item :: items =>
    match item.level? depth with
    | none => none
    | some depth => levels? depth items

end Item

/-! ## Registrations -/

structure Registration where
  type : StepType
  /-- In any letter case. -/
  keyword : List Char
  keyword_eq : Text.lower keyword = type.name.toList
  before : List Gap
  inside : List Gap
  literal : Literal
  /-- Behind a comment a slash starts no regular expression. -/
  inside_blank : literal.variant = .regex → ∀ gap ∈ inside, gap.IsBlank
  tail : List Item
  balanced : Item.levels? 0 tail = some 0

namespace Registration

/-- From the opening bracket on. -/
def arguments (call : Registration) : List Char :=
  '(' :: call.inside.flatMap Gap.text ++ call.literal.text ++ call.tail.flatMap Item.text ++ [')']

def text (call : Registration) : List Char :=
  call.keyword ++ call.before.flatMap Gap.text ++ call.arguments

def definition (call : Registration) : Definition :=
  ⟨call.type, String.ofList call.literal.pattern, call.literal.variant, String.ofList call.text⟩

end Registration

def isSeparator (c : Char) : Bool :=
  Text.isAsciiBlank c || c == ';'

/-- Registrations with separators around them. -/
inductive Script where
  | nil
  | separator (c : Char) (isSeparator : isSeparator c = true) (script : Script)
  | call (call : Registration) (script : Script)

namespace Script

def text : Script → List Char
  | .nil => []
  | .separator c _ script => c :: script.text
  | .call first script => first.text ++ script.text

def calls : Script → List Registration
  | .nil => []
  | .separator _ _ script => script.calls
  | .call first script => first :: script.calls

end Script

end Stepbook.Source
