import Stepbook.Callback
import Stepbook.Matcher

/-! # Registries of steps

A registry keeps the matchers of each kind of step apart, each with a handler and with the number
of its registration. Of the matchers that accept a text, the one that was registered first counts,
within a kind and across kinds.

* `Registry.register`, `Registry.registerPattern`, `Registry.registerDefinition`: adding a matcher,
  or a pattern or a definition that is compiled first.
* `Registry.resolve`, `Registry.resolveTyped`: the step that a text stands for, of any kind or of
  one.
* `Registry.entries`: all entries in the order of their registration.
-/

namespace Stepbook
set_option autoImplicit false

structure Registry.Entry (σ : Type) where
  /-- How many registrations came before. -/
  number : Nat
  matcher : Matcher
  handler : Handler σ

structure Registry (σ : Type) where
  /-- The entries of a kind, first registered first. -/
  ofType : StepType → List (Registry.Entry σ)
  /-- The number of the next registration. -/
  next : Nat

/-- A matcher that accepted a text, with its handler and arguments. -/
structure ResolvedStep (σ : Type) where
  definition : Definition
  handler : Handler σ
  arguments : List Value

namespace ResolvedStep
variable {σ : Type}

def invoke (step : ResolvedStep σ) : Callback σ :=
  step.handler step.arguments

def describe (step : ResolvedStep σ) : String :=
  "ResolvedStep \x7b definition: " ++ step.definition.describe ++ ", arguments: [" ++
    Text.joinWith ", " (step.arguments.map Value.describe) ++ "], .. \x7d"

end ResolvedStep

namespace Registry
variable {σ : Type}

def empty : Registry σ :=
  ⟨fun _ => [], 0⟩

/-! ## Registration -/

/-- Adds an entry for a kind of step; the matcher is taken for one of that kind. -/
def add (registry : Registry σ) (type : StepType) (matcher : Matcher) (handler : Handler σ) :
    Registry σ :=
  let entry := ⟨registry.next, matcher.retag type, handler⟩
  ⟨fun other => if other = type then registry.ofType other ++ [entry] else registry.ofType other,
    registry.next + 1⟩

def register (registry : Registry σ) (type : StepType) (matcher : Matcher)
    (handler : Handler σ) : Logged (Registry σ) :=
  ⟨[⟨.debug, "registered " ++ type.name ++ " step '" ++ matcher.definition.pattern ++ "'"⟩],
    registry.add type matcher handler⟩

/-- The kind of step is given by the keyword of the registration. -/
def registerPattern (registry : Registry σ) (type : StepType) (pattern : StepPattern)
    (handler : Handler σ) : Except DefinitionError (Logged (Registry σ)) :=
  match Matcher.ofPattern type pattern with
  | .ok matcher => .ok (registry.register type matcher handler)
  | .error error => .error error

def registerDefinition (registry : Registry σ) (definition : Definition) (handler : Handler σ) :
    Except DefinitionError (Logged (Registry σ)) :=
  match Matcher.compile definition with
  | .ok matcher => .ok (registry.register definition.type matcher handler)
  | .error error => .error error

/-! ## Contents -/

/-- By the number of registration. -/
def entries (registry : Registry σ) : List (Entry σ) :=
  (StepType.all.flatMap registry.ofType).mergeSort fun left right => left.number ≤ right.number

def definitions (registry : Registry σ) : List Definition :=
  registry.entries.map (·.matcher.definition)

def matchersOf (registry : Registry σ) (type : StepType) : List Matcher :=
  (registry.ofType type).map (·.matcher)

def size (registry : Registry σ) : Nat :=
  (StepType.all.flatMap registry.ofType).length

def isEmpty (registry : Registry σ) : Bool :=
  registry.size == 0

def describe (registry : Registry σ) : String :=
  "StepRegistry \x7b definitions: [" ++
    Text.joinWith ", " (registry.definitions.map Definition.describe) ++ "] \x7d"

/-! ## Resolution -/

/-- The first entry that accepts a text, with its arguments. -/
def firstMatch (text : String) : List (Entry σ) → Logged (Option (Entry σ × List Value))
  | [] => return none
  | entry :: rest => do
    match ← entry.matcher.test text with
    | some arguments => return some (entry, arguments)
    | none => firstMatch text rest

/-- The match that was registered first. -/
def earliest : List (Entry σ × List Value) → Option (Entry σ × List Value)
  | [] => none
  | first :: rest =>
    match earliest rest with
    | some other => if other.1.number < first.1.number then some other else some first
    | none => some first

/-- What a search for a text has led to. -/
def conclude (type : Option StepType) (text : String) :
    Option (Entry σ × List Value) → Logged (Except StepError (ResolvedStep σ))
  | some (entry, arguments) =>
    let definition := entry.matcher.definition
    ⟨[⟨.debug, "resolved step to " ++ definition.type.name ++ " '" ++ definition.pattern ++ "'"⟩],
      .ok ⟨definition, entry.handler, arguments⟩⟩
  | none =>
    ⟨[⟨.debug, "no step definition matches '" ++ text ++ "'"⟩],
      .error (.noMatchingStep type text)⟩

/-- The first matches of several kinds of steps. -/
def firstMatches (registry : Registry σ) (text : String) :
    List StepType → Logged (List (Entry σ × List Value))
  | [] => return []
  | type :: rest => do
    let found ← firstMatch text (registry.ofType type)
    let others ← registry.firstMatches text rest
    return found.toList ++ others

def resolve (registry : Registry σ) (text : String) :
    Logged (Except StepError (ResolvedStep σ)) := do
  conclude none text (earliest (← registry.firstMatches text StepType.all))

def resolveTyped (registry : Registry σ) (type : StepType) (text : String) :
    Logged (Except StepError (ResolvedStep σ)) := do
  conclude (some type) text (← firstMatch text (registry.ofType type))

end Registry

end Stepbook
