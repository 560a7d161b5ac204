import Stepbook.Command.Run
import Stepbook.Proofs.Registry

/-! # Loading step files

Loading files registers what is found in them, file by file in the order of the paths, and within a
file in the order of the script.

* `Commanded.result`: what a command comes to, apart from what it tells.
* `definitionsIn`: the definitions of files, in order.
* `loadRegistry_eq_ok_iff`: when files can be loaded, and the registry that they are loaded into.
* `Definition.arguments?`, `Definition.firstIn`: what a definition matches a text with, and the first
  of several that matches it.
* `value_resolveText`: the registry resolves a text to that definition.
-/

namespace Stepbook
set_option autoImplicit false

/-! ## Results of commands -/

namespace Commanded
variable {α β : Type}

def result (command : Commanded α) : Except CommandError α :=
  command.run.value

@[simp] theorem result_pure (value : α) : result (pure value) = .ok value := rfl

theorem result_throw (cause : CommandError) :
    result (throw cause : Commanded α) = .error cause := rfl

@[simp] theorem result_lift (logged : Logged α) :
    result (ExceptT.lift logged) = .ok logged.value := rfl

theorem result_bind (command : Commanded α) (next : α → Commanded β) :
    result (command >>= next) =
      match result command with
      | .ok value => result (next value)
      | .error cause => .error cause := by
  have hvalue : result (command >>= next) = (ExceptT.bindCont next command.run.value).value := rfl
  rw [hvalue, result]
  cases command.run.value <;> rfl

theorem result_bind_of_ok {command : Commanded α} {value : α} (h : command.result = .ok value)
    (next : α → Commanded β) : result (command >>= next) = (next value).result := by
  rw [result_bind, h]

theorem result_bind_eq_ok {command : Commanded α} {next : α → Commanded β} {last : β} :
    result (command >>= next) = .ok last ↔
      ∃ value, command.result = .ok value ∧ (next value).result = .ok last := by
  rw [result_bind]
  cases command.result <;> simp

end Commanded

open Commanded

/-! ## Definitions of files -/

/-- The definitions that are found in a file; none if it cannot be read. -/
def definitionsOf (files : Files) (path : String) : List Definition :=
  match files path with
  | some source => (Source.extract source).definitions
  | none => []

/-- A path that is given twice counts twice. -/
def definitionsIn (files : Files) (paths : List String) : List Definition :=
  paths.flatMap (definitionsOf files)

def Definition.Compiles (definition : Definition) : Prop :=
  ∃ matcher, Matcher.compile definition = .ok matcher

/-- The registration of a definition that does nothing when it is called. -/
def Definition.silent (definition : Definition) : Registry.Call Unit :=
  .ofDefinition definition fun _ => .nothing

/-! ## Loading -/

theorem result_readSource_eq_ok {files : Files} {path source : String} :
    (readSource files path).result = .ok source ↔ files path = some source := by
  unfold readSource
  cases files path <;> simp [result_throw]

theorem result_extractFile_eq_ok {files : Files} {path : String}
    {extraction : Source.Extraction} :
    (extractFile files path).result = .ok extraction ↔
      ∃ source, files path = some source ∧ Source.extract source = extraction := by
  unfold extractFile
  simp only [result_bind_eq_ok, result_readSource_eq_ok, result_lift, Except.ok.injEq]

theorem result_loadDefinition_eq_ok {path : String} {registry later : Registry Unit}
    {definition : Definition} :
    (loadDefinition path registry definition).result = .ok later ↔
      definition.Compiles ∧ registry.after definition.silent = later := by
  unfold loadDefinition Definition.Compiles Definition.silent Registry.after
  rw [Registry.Call.result, Registry.registerDefinition]
  cases Matcher.compile definition <;> simp [result_throw]

theorem result_loadDefinitions_eq_ok {path : String} {definitions : List Definition}
    {registry later : Registry Unit} :
    Commanded.result (definitions.foldlM (loadDefinition path) registry) = .ok later ↔
      (∀ definition ∈ definitions, definition.Compiles) ∧
        registry.afterAll (definitions.map Definition.silent) = later := by
  induction definitions generalizing registry with
  | nil => simp [Registry.afterAll]
  | cons definition definitions ih =>
    simp only [List.foldlM_cons, result_bind_eq_ok, result_loadDefinition_eq_ok, ih,
      List.forall_mem_cons, List.map_cons]
    constructor
    · rintro ⟨_, ⟨hfirst, rfl⟩, hothers, rfl⟩
      exact ⟨⟨hfirst, hothers⟩, rfl⟩
    · rintro ⟨⟨hfirst, hothers⟩, rfl⟩
      exact ⟨_, ⟨hfirst, rfl⟩, hothers, rfl⟩

theorem result_loadFile_eq_ok {files : Files} {path : String} {registry later : Registry Unit} :
    (loadFile files registry path).result = .ok later ↔
      (files path).isSome ∧ (∀ definition ∈ definitionsOf files path, definition.Compiles) ∧
        registry.afterAll ((definitionsOf files path).map Definition.silent) = later := by
  unfold loadFile
  simp only [result_bind_eq_ok, result_extractFile_eq_ok, result_loadDefinitions_eq_ok,
    definitionsOf]
  cases files path <;> simp

theorem afterAll_append (registry : Registry Unit) (calls others : List (Registry.Call Unit)) :
    registry.afterAll (calls ++ others) = (registry.afterAll calls).afterAll others :=
  List.foldl_append

theorem result_loadFiles_eq_ok {files : Files} {paths : List String}
    {registry later : Registry Unit} :
    Commanded.result (paths.foldlM (loadFile files) registry) = .ok later ↔
      (∀ path ∈ paths, (files path).isSome) ∧
        (∀ definition ∈ definitionsIn files paths, definition.Compiles) ∧
        registry.afterAll ((definitionsIn files paths).map Definition.silent) = later := by
  unfold definitionsIn
  induction paths generalizing registry with
  | nil => simp [Registry.afterAll]
  | cons path paths ih =>
    simp only [List.foldlM_cons, result_bind_eq_ok, result_loadFile_eq_ok, ih,
      List.forall_mem_cons, List.flatMap_cons, List.forall_mem_append, List.map_append,
      afterAll_append]
    constructor
    · rintro ⟨_, ⟨hread, hfirst, rfl⟩, hreads, hothers, rfl⟩
      exact ⟨⟨hread, hreads⟩, ⟨hfirst, hothers⟩, rfl⟩
    · rintro ⟨⟨hread, hreads⟩, ⟨hfirst, hothers⟩, rfl⟩
      exact ⟨_, ⟨hread, hfirst, rfl⟩, hreads, hothers, rfl⟩

/-- Files are loaded if all of them can be read and all of their definitions can be compiled. -/
theorem loadRegistry_eq_ok_iff {files : Files} {paths : List String} {registry : Registry Unit} :
    (loadRegistry files paths).result = .ok registry ↔
      (∀ path ∈ paths, (files path).isSome) ∧
        (∀ definition ∈ definitionsIn files paths, definition.Compiles) ∧
        Registry.empty.afterAll ((definitionsIn files paths).map Definition.silent) = registry :=
  result_loadFiles_eq_ok

/-! ## Resolution -/

namespace Definition

/-- What the matcher of a definition takes from a text. -/
def arguments? (definition : Definition) (text : String) : Option (List Value) :=
  match Matcher.compile definition with
  | .ok matcher => (matcher.test text).value
  | .error _ => none

/-- An expression matches a text with the values of its placeholders. -/
theorem arguments?_of_match? {definition : Definition} {text : String}
    {found : Option (List Value)}
    {compiled : Expression.Compiled} (hvariant : definition.variant = .expression)
    (hcompile : Expression.compile definition.pattern.toList = .ok compiled)
    (hmatch : compiled.match? text.toList = .ok found) : definition.arguments? text = found := by
  have hmatcher : Matcher.compile definition = .ok ⟨definition, .expression compiled⟩ := by
    rw [Matcher.compile, hvariant, CompiledPattern.compile, hcompile]
  simp only [arguments?, hmatcher, Matcher.test, Matcher.arguments, hmatch]

/-- The first of several definitions that matches a text, with its arguments. -/
def firstIn (definitions : List Definition) (text : String) : Option (Definition × List Value) :=
  definitions.findSome? fun definition =>
    (definition.arguments? text).map fun arguments => (definition, arguments)

theorem firstIn_cons (definition : Definition) (definitions : List Definition) (text : String) :
    firstIn (definition :: definitions) text =
      ((definition.arguments? text).map fun arguments => (definition, arguments)).or
        (firstIn definitions text) := by
  rw [firstIn, List.findSome?_cons]
  cases definition.arguments? text <;> rfl

theorem firstIn_eq_some_iff {definitions : List Definition} {text : String}
    {definition : Definition} {arguments : List Value} :
    firstIn definitions text = some (definition, arguments) ↔
      ∃ before after, definitions = before ++ definition :: after ∧
        definition.arguments? text = some arguments ∧
        ∀ other ∈ before, other.arguments? text = none := by
  simp only [firstIn, List.findSome?_eq_some_iff, Option.map_eq_some_iff, Option.map_eq_none_iff,
    Prod.mk.injEq]
  constructor
  · rintro ⟨before, _, after, heq, ⟨_, harguments, rfl, rfl⟩, hbefore⟩
    exact ⟨before, after, heq, harguments, hbefore⟩
  · rintro ⟨before, after, heq, harguments, hbefore⟩
    exact ⟨before, definition, after, heq, ⟨arguments, harguments, rfl, rfl⟩, hbefore⟩

theorem firstIn_eq_none_iff {definitions : List Definition} {text : String} :
    firstIn definitions text = none ↔
      ∀ definition ∈ definitions, definition.arguments? text = none := by
  simp only [firstIn, List.findSome?_eq_none_iff, Option.map_eq_none_iff]

end Definition

theorem Matcher.definition_of_compile {definition : Definition} {matcher : Matcher}
    (h : Matcher.compile definition = .ok matcher) : matcher.definition = definition := by
  unfold Matcher.compile at h
  cases hcompiled : CompiledPattern.compile definition.variant definition.pattern.toList with
  | error cause =>
    rw [hcompiled] at h
    cases h
  | ok compiled =>
    rw [hcompiled] at h
    cases h
    rfl

/-- The steps that definitions are registered as. -/
def Definition.steps (definitions : List Definition) : List (Registered Unit) :=
  (definitions.map Definition.silent).filterMap Registry.Call.step?

/-- The step of a definition is its matcher. -/
theorem step?_silent (definition : Definition) :
    definition.silent.step? =
      (Matcher.compile definition).toOption.map fun matcher => ⟨matcher, fun _ => .nothing⟩ := by
  rw [Definition.silent, Registry.Call.step?]
  cases hcompiled : Matcher.compile definition with
  | error cause => rfl
  | ok matcher =>
    have hretag : matcher.retag definition.type = matcher := by
      rw [← Matcher.definition_of_compile hcompiled]
      rfl
    simp only [Except.toOption, Option.map_some, hretag]

theorem steps_cons (definition : Definition) (definitions : List Definition) :
    Definition.steps (definition :: definitions) =
      definition.silent.step?.toList ++ Definition.steps definitions := by
  rw [Definition.steps, List.map_cons, List.filterMap_cons]
  cases definition.silent.step? <;> rfl

/-- How a definition is resolved to. -/
def ResolvedStep.silent (definition : Definition) (arguments : List Value) : ResolvedStep Unit :=
  ⟨definition, fun _ => .nothing, arguments⟩

theorem findSome?_steps (definitions : List Definition) (text : String) :
    (Definition.steps definitions).findSome? (·.resolve? text) =
      (Definition.firstIn definitions text).map fun (definition, arguments) =>
        .silent definition arguments := by
  induction definitions with
  | nil => rfl
  | cons definition definitions ih =>
    have hfirst : definition.silent.step?.bind (·.resolve? text) =
        (definition.arguments? text).map (ResolvedStep.silent definition) := by
      rw [step?_silent, Definition.arguments?]
      cases hcompiled : Matcher.compile definition with
      | error cause => rfl
      | ok matcher =>
        simp only [Except.toOption, Option.map_some, Option.bind_some, Registered.resolve?,
          Matcher.definition_of_compile hcompiled]
        rfl
    have hlist : definition.silent.step?.toList.findSome? (·.resolve? text) =
        (definition.arguments? text).map (ResolvedStep.silent definition) := by
      rw [← hfirst]
      cases definition.silent.step? <;> simp
    rw [steps_cons, List.findSome?_append, ih, hlist, Definition.firstIn_cons]
    cases definition.arguments? text <;> rfl

theorem ofKind_steps (type : StepType) (definitions : List Definition) :
    Registered.ofKind type (Definition.steps definitions) =
      Definition.steps (definitions.filter (·.type = type)) := by
  induction definitions with
  | nil => rfl
  | cons definition definitions ih =>
    have hfirst : definition.silent.step?.toList.filter (fun step => step.matcher.type = type) =
        if definition.type = type then definition.silent.step?.toList else [] := by
      rw [step?_silent]
      cases hcompiled : Matcher.compile definition with
      | error cause => simp [Except.toOption]
      | ok matcher =>
        have htype : matcher.type = definition.type :=
          congrArg Definition.type (Matcher.definition_of_compile hcompiled)
        by_cases heq : definition.type = type <;> simp [Except.toOption, htype, heq]
    unfold Registered.ofKind at ih ⊢
    rw [steps_cons, List.filter_append, ih, hfirst, List.filter_cons]
    by_cases heq : definition.type = type
    · simp only [heq, if_true, decide_true, steps_cons]
    · simp only [heq, if_false, decide_false, List.nil_append, Bool.false_eq_true]

/-- The definitions of a kind; all of them if no kind is given. -/
def Definition.ofKind (type : Option StepType) (definitions : List Definition) : List Definition :=
  match type with
  | some type => definitions.filter (·.type = type)
  | none => definitions

/-- A registry of definitions resolves a text to the first of them that matches it. -/
theorem value_resolveText (definitions : List Definition) (type : Option StepType)
    (text : String) :
    (Command.resolveText (Registry.empty.afterAll (definitions.map Definition.silent)) type
        text).value =
      match Definition.firstIn (Definition.ofKind type definitions) text with
      | some (definition, arguments) => .ok (.silent definition arguments)
      | none => .error (.noMatchingStep type text) := by
  obtain ⟨entries, hholds, hsteps⟩ :=
    Registry.holds_afterAll (definitions.map Definition.silent)
  have hlists := hholds.lists
  rw [hsteps] at hlists
  have hvalue : (Command.resolveText (Registry.empty.afterAll (definitions.map Definition.silent))
      type text).value =
        Registered.resolveIn type (Definition.steps (Definition.ofKind type definitions)) text := by
    cases type with
    | none => exact hlists.resolve_eq text
    | some type =>
      rw [Definition.ofKind, ← ofKind_steps]
      exact hlists.resolveTyped_eq type text
  rw [hvalue, Registered.resolveIn, findSome?_steps]
  cases Definition.firstIn (Definition.ofKind type definitions) text <;> rfl

end Stepbook
