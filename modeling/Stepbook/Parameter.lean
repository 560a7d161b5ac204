import Stepbook.Decimal.Layout
import Stepbook.Decimal.Read
import Stepbook.Text.Quoted

/-! # Parameters and the values that they capture

A placeholder `{int}`, `{float}`, `{word}` or `{string}` admits the texts of its pattern and turns
what it captures into a value.

* `ParameterType`: the four types, with `name`, `token` and `pattern`.
* `Value`: a captured value, with its text `Value.display`.
* `ParameterType.coerce`: the value of a captured text.
* `CoercionError`: a captured text that has no value.
-/

namespace Stepbook
set_option autoImplicit false

/-! ## Values -/

inductive Value where
  | int (value : Int)
  | float (value : Float)
  | text (value : String)

namespace Value

def display : Value → String
  | .int value => toString value
  | .float value => Decimal.plain.write value
  | .text value => Text.quote value

/-- The value with its kind. -/
def describe : Value → String
  | .int value => "Int(" ++ toString value ++ ")"
  | .float value => "Float(" ++ Decimal.exact.write value ++ ")"
  | .text value => "Str(" ++ Text.quote value ++ ")"

end Value

/-! ## Types of parameters -/

inductive ParameterType where
  | int
  | float
  | word
  | string
  deriving DecidableEq, Repr

namespace ParameterType

def all : List ParameterType :=
  [.int, .float, .word, .string]

def name : ParameterType → String
  | .int => "int"
  | .float => "float"
  | .word => "word"
  | .string => "string"

/-- The placeholder as it stands in an expression. -/
def token (type : ParameterType) : String :=
  String.ofList ('{' :: type.name.toList ++ ['}'])

def ofName? (name : List Char) : Option ParameterType :=
  all.find? fun type => type.name.toList == name

/-- The regular expression of the texts that a placeholder admits; it holds no capture group. -/
def pattern : ParameterType → String
  | .int => "[+-]?[0-9]+"
  | .float => "[+-]?(?:[0-9]+\\.[0-9]+|[0-9]+\\.|\\.[0-9]+|[0-9]+)"
  | .word => "[^\\s]+"
  | .string => "\"[^\"]*\"|'[^']*'"

end ParameterType

/-! ## From captured texts to values -/

inductive CoercionFault where
  | int (fault : Decimal.IntFault)
  | float (fault : Decimal.FloatFault)
  deriving DecidableEq, Repr

def CoercionFault.message : CoercionFault → String
  | .int fault => fault.message
  | .float fault => fault.message

structure CoercionError where
  parameter : ParameterType
  value : String
  fault : CoercionFault
  deriving DecidableEq, Repr

def CoercionError.message (error : CoercionError) : String :=
  "cannot convert `" ++ error.value ++ "` captured by " ++ error.parameter.token ++
    " parameter: " ++ error.fault.message

/-- The text between two equal quotes, if it stands between two. -/
def unquoted? (quote : Char) (text : List Char) : Option (List Char) :=
  match text with
  | first :: rest =>
    if first = quote ∧ rest.getLast? = some quote then some rest.dropLast else none
  | [] => none

/-- A text without the double or single quotes around it; a text without them as it is. -/
def stripQuotes (text : List Char) : List Char :=
  ((unquoted? '"' text).or (unquoted? '\'' text)).getD text

namespace ParameterType

def coerce (type : ParameterType) (captured : List Char) : Except CoercionError Value :=
  match type with
  | .int =>
    match Decimal.readInt captured with
    | .ok value => .ok (.int value)
    | .error fault => .error ⟨.int, String.ofList captured, .int fault⟩
  | .float =>
    match Decimal.readFloat captured with
    | .ok value => .ok (.float value)
    | .error fault => .error ⟨.float, String.ofList captured, .float fault⟩
  | .word => .ok (.text (String.ofList captured))
  | .string => .ok (.text (String.ofList (stripQuotes captured)))

end ParameterType

end Stepbook
