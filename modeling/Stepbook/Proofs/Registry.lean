import Stepbook.Registry

/-! # Registries as lists of steps

A registry keeps its entries by kind, and yet it answers as one list of steps in the order of their
registration would.

* `Registry.Call`: a registration that is asked for; `Call.step?` is what it adds to the list.
* `Registry.Holds`: the invariant; all entries in a row, numbered from zero.
* `Holds.add`, `holds_afterAll`: what a registration and a run of registrations keep.
* `Registered.resolveIn`: the first step of a list that accepts a text.
* `Registry.Lists`: a registry that answers as a list does.
-/

namespace Stepbook
set_option autoImplicit false

/-! ## Steps in a row -/

/-- A step that has been registered; its kind is that of the matcher. -/
structure Registered (σ : Type) where
  matcher : Matcher
  handler : Handler σ

namespace Registered
variable {σ : Type}

def ofKind (type : StepType) (steps : List (Registered σ)) : List (Registered σ) :=
  steps.filter fun step => step.matcher.type = type

def resolve? (step : Registered σ) (text : String) : Option (ResolvedStep σ) :=
  (step.matcher.test text).value.map fun arguments =>
    ⟨step.matcher.definition, step.handler, arguments⟩

/-- The first step that accepts the text; `type` is only what an error reports. -/
def resolveIn (type : Option StepType) (steps : List (Registered σ)) (text : String) :
    Except StepError (ResolvedStep σ) :=
  match steps.findSome? (·.resolve? text) with
  | some resolved => .ok resolved
  | none => .error (.noMatchingStep type text)

theorem resolve?_eq_none {step : Registered σ} {text : String} :
    step.resolve? text = none ↔ step.matcher.accepts text = false := by
  rw [resolve?, Option.map_eq_none_iff, Matcher.accepts, Option.isSome_eq_false_iff,
    Option.isNone_iff_eq_none]

theorem resolveIn_eq_error {type : Option StepType} {steps : List (Registered σ)} {text : String} :
    resolveIn type steps text = .error (.noMatchingStep type text) ↔
      ∀ step ∈ steps, step.matcher.accepts text = false := by
  have hnone : steps.findSome? (·.resolve? text) = none ↔
      ∀ step ∈ steps, step.matcher.accepts text = false := by
    simp only [List.findSome?_eq_none_iff, resolve?_eq_none]
  rw [← hnone, resolveIn]
  cases steps.findSome? (·.resolve? text) <;> simp

end Registered

/-! ## Calls -/

/-- A registration that is asked for. -/
inductive Registry.Call (σ : Type) where
  | ofPattern (type : StepType) (pattern : StepPattern) (handler : Handler σ)
  | ofMatcher (type : StepType) (matcher : Matcher) (handler : Handler σ)
  | ofDefinition (definition : Definition) (handler : Handler σ)

namespace Registry.Call
variable {σ : Type}

def result (call : Call σ) (registry : Registry σ) :
    Except DefinitionError (Logged (Registry σ)) :=
  match call with
  | .ofPattern type pattern handler => registry.registerPattern type pattern handler
  | .ofMatcher type matcher handler => .ok (registry.register type matcher handler)
  | .ofDefinition definition handler => registry.registerDefinition definition handler

/-- The step that is added, if what is registered can be compiled. -/
def step? (call : Call σ) : Option (Registered σ) :=
  match call with
  | .ofPattern type pattern handler =>
    (Matcher.ofPattern type pattern).toOption.map fun matcher => ⟨matcher.retag type, handler⟩
  | .ofMatcher type matcher handler => some ⟨matcher.retag type, handler⟩
  | .ofDefinition definition handler =>
    (Matcher.compile definition).toOption.map fun matcher =>
      ⟨matcher.retag definition.type, handler⟩

end Registry.Call

namespace Registry
variable {σ : Type}

/-- A registration that fails leaves the registry as it was. -/
def after (registry : Registry σ) (call : Call σ) : Registry σ :=
  match call.result registry with
  | .ok logged => logged.value
  | .error _ => registry

def afterAll (registry : Registry σ) (calls : List (Call σ)) : Registry σ :=
  calls.foldl after registry

/-! ## The invariant -/

def Entry.step (entry : Entry σ) : Registered σ :=
  ⟨entry.matcher, entry.handler⟩

/-- All entries in a row, numbered from zero; each kind keeps its own. -/
structure Holds (registry : Registry σ) (entries : List (Entry σ)) : Prop where
  ofType_eq : ∀ type, registry.ofType type = entries.filter fun entry => entry.matcher.type = type
  numbers_eq : entries.map (·.number) = List.range registry.next

theorem holds_empty : Holds (empty : Registry σ) [] :=
  ⟨fun _ => rfl, rfl⟩

theorem Holds.add {registry : Registry σ} {entries : List (Entry σ)} (h : registry.Holds entries)
    (type : StepType) (matcher : Matcher) (handler : Handler σ) :
    (registry.add type matcher handler).Holds
      (entries ++ [⟨registry.next, matcher.retag type, handler⟩]) := by
  have htype : (matcher.retag type).type = type := rfl
  refine ⟨fun other => ?_, ?_⟩
  · rw [List.filter_append, ← h.ofType_eq]
    by_cases hother : other = type
    · subst hother
      simp [Registry.add, htype]
    · have hne : ¬ type = other := fun heq => hother heq.symm
      simp [Registry.add, htype, hother, hne]
  · rw [List.map_append, h.numbers_eq]
    exact List.range_succ.symm

/-- What a call does to the invariant: it adds its step, if it has one. -/
theorem Holds.after {registry : Registry σ} {entries : List (Entry σ)} (h : registry.Holds entries)
    (call : Call σ) :
    ∃ later, (registry.after call).Holds later ∧
      later.map Entry.step = entries.map Entry.step ++ call.step?.toList := by
  have hadd : ∀ (type : StepType) (matcher : Matcher) (handler : Handler σ),
      ∃ later, (registry.add type matcher handler).Holds later ∧
        later.map Entry.step = entries.map Entry.step ++ [⟨matcher.retag type, handler⟩] :=
    fun type matcher handler => ⟨_, h.add type matcher handler, List.map_append⟩
  have hsame : ∃ later, registry.Holds later ∧
      later.map Entry.step = entries.map Entry.step ++ [] :=
    ⟨entries, h, (List.append_nil _).symm⟩
  cases call with
  | ofPattern type pattern handler =>
    rw [Registry.after, Call.result, Registry.registerPattern, Call.step?]
    cases Matcher.ofPattern type pattern with
    | error error => exact hsame
    | ok matcher => exact hadd type matcher handler
  | ofMatcher type matcher handler => exact hadd type matcher handler
  | ofDefinition definition handler =>
    rw [Registry.after, Call.result, Registry.registerDefinition, Call.step?]
    cases Matcher.compile definition with
    | error error => exact hsame
    | ok matcher => exact hadd definition.type matcher handler

theorem Holds.afterAll {registry : Registry σ} {entries : List (Entry σ)}
    (h : registry.Holds entries) (calls : List (Call σ)) :
    ∃ later, (registry.afterAll calls).Holds later ∧
      later.map Entry.step = entries.map Entry.step ++ calls.filterMap Call.step? := by
  induction calls generalizing registry entries with
  | nil => exact ⟨entries, h, (List.append_nil _).symm⟩
  | cons call calls ih =>
    obtain ⟨next, hnext, hstep⟩ := h.after call
    obtain ⟨later, hlater, hsteps⟩ := ih hnext
    refine ⟨later, hlater, ?_⟩
    rw [hsteps, hstep, List.append_assoc, List.filterMap_cons]
    cases call.step? <;> rfl

theorem holds_afterAll (calls : List (Call σ)) :
    ∃ entries, (empty.afterAll calls).Holds entries ∧
      entries.map Entry.step = calls.filterMap Call.step? :=
  holds_empty.afterAll calls

/-! ## Contents -/

theorem Holds.pairwise {registry : Registry σ} {entries : List (Entry σ)}
    (h : registry.Holds entries) : entries.Pairwise fun left right => left.number < right.number := by
  have hrange := @List.pairwise_lt_range registry.next
  rw [← h.numbers_eq, List.pairwise_map] at hrange
  exact hrange

/-- Entries apart by kind are the entries, in another order. -/
theorem perm_flatMap_filter (entries : List (Entry σ)) :
    (StepType.all.flatMap fun type => entries.filter fun entry => entry.matcher.type = type).Perm
      entries := by
  induction entries with
  | nil => exact List.Perm.refl _
  | cons entry entries ih =>
    simp only [StepType.all, List.flatMap_cons, List.flatMap_nil, List.append_nil] at ih ⊢
    cases htype : entry.matcher.type with
    | context => simpa [htype] using ih
    | action =>
      have hmiddle := List.perm_middle.trans (ih.cons entry)
      simpa [htype] using hmiddle
    | outcome =>
      rw [← List.append_assoc] at ih
      have hmiddle := List.perm_middle.trans (ih.cons entry)
      simpa [htype] using hmiddle

/-- Two entries with one number are the same entry. -/
theorem eq_of_pairwise {entries : List (Entry σ)}
    (h : entries.Pairwise fun left right => left.number < right.number) {left right : Entry σ}
    (hleft : left ∈ entries) (hright : right ∈ entries) (heq : left.number = right.number) :
    left = right := by
  induction entries with
  | nil => cases hleft
  | cons entry entries ih =>
    rw [List.pairwise_cons] at h
    rcases List.mem_cons.1 hleft with rfl | hleft'
    · rcases List.mem_cons.1 hright with rfl | hright'
      · rfl
      · have hlt := h.1 right hright'
        omega
    · rcases List.mem_cons.1 hright with rfl | hright'
      · have hlt := h.1 left hleft'
        omega
      · exact ih h.2 hleft' hright'

theorem Holds.entries_eq {registry : Registry σ} {entries : List (Entry σ)}
    (h : registry.Holds entries) : registry.entries = entries := by
  have hflat : registry.ofType = fun type => entries.filter fun entry => entry.matcher.type = type :=
    funext h.ofType_eq
  have hperm : registry.entries.Perm entries := by
    rw [Registry.entries, hflat]
    exact (List.mergeSort_perm _ _).trans (perm_flatMap_filter entries)
  have hsorted : registry.entries.Pairwise fun left right => left.number ≤ right.number := by
    have htrans : ∀ a b c : Entry σ, decide (a.number ≤ b.number) = true →
        decide (b.number ≤ c.number) = true → decide (a.number ≤ c.number) = true := by
      intro a b c hab hbc
      rw [decide_eq_true_eq] at hab hbc ⊢
      omega
    have htotal : ∀ a b : Entry σ, (decide (a.number ≤ b.number) || decide (b.number ≤ a.number)) =
        true := by
      intro a b
      rw [Bool.or_eq_true, decide_eq_true_eq, decide_eq_true_eq]
      omega
    exact (List.pairwise_mergeSort htrans htotal _).imp fun hle => of_decide_eq_true hle
  have hentries : entries.Pairwise fun left right => left.number ≤ right.number :=
    h.pairwise.imp fun hlt => Nat.le_of_lt hlt
  refine hperm.eq_of_pairwise (fun left right hleft hright hle hge => ?_) hsorted hentries
  exact eq_of_pairwise h.pairwise (hperm.mem_iff.1 hleft) hright (Nat.le_antisymm hle hge)

theorem Holds.size_eq {registry : Registry σ} {entries : List (Entry σ)}
    (h : registry.Holds entries) : registry.size = entries.length := by
  have hflat : registry.ofType = fun type => entries.filter fun entry => entry.matcher.type = type :=
    funext h.ofType_eq
  rw [size, hflat]
  exact (perm_flatMap_filter entries).length_eq

/-! ## Resolution -/

/-- An entry with the arguments that it accepts a text with. -/
def Entry.hit? (text : String) (entry : Entry σ) : Option (Entry σ × List Value) :=
  (entry.matcher.test text).value.map fun arguments => (entry, arguments)

theorem value_firstMatch (text : String) (entries : List (Entry σ)) :
    (firstMatch text entries).value = entries.findSome? (Entry.hit? text) := by
  induction entries with
  | nil => rfl
  | cons entry entries ih =>
    rw [firstMatch, Logged.value_bind, List.findSome?_cons, Entry.hit?]
    cases (entry.matcher.test text).value with
    | none => exact ih
    | some arguments => rfl

theorem value_firstMatches (registry : Registry σ) (text : String) (types : List StepType) :
    (registry.firstMatches text types).value =
      types.flatMap fun type => ((registry.ofType type).findSome? (Entry.hit? text)).toList := by
  induction types with
  | nil => rfl
  | cons type types ih =>
    rw [firstMatches, Logged.value_bind, Logged.value_bind, ih, value_firstMatch]
    rfl

theorem mem_of_earliest_eq_some {found : List (Entry σ × List Value)}
    {first : Entry σ × List Value} (h : earliest found = some first) : first ∈ found := by
  induction found generalizing first with
  | nil => cases h
  | cons head found ih =>
    rw [earliest] at h
    split at h
    · next other hother =>
      split at h
      · cases h
        exact List.mem_cons_of_mem _ (ih hother)
      · cases h
        exact List.mem_cons_self ..
    · cases h
      exact List.mem_cons_self ..

/-- A match that comes before all others is the earliest one. -/
theorem earliest_eq {found : List (Entry σ × List Value)} {first : Entry σ × List Value}
    (hmem : first ∈ found)
    (h : ∀ other ∈ found, other = first ∨ first.1.number < other.1.number) :
    earliest found = some first := by
  induction found with
  | nil => cases hmem
  | cons head found ih =>
    have hfound : ∀ other ∈ found, other = first ∨ first.1.number < other.1.number :=
      fun other hother => h other (List.mem_cons_of_mem _ hother)
    rw [earliest]
    rcases List.mem_cons.1 hmem with rfl | hmem'
    · cases hlater : earliest found with
      | none => rfl
      | some other =>
        have hle : ¬ other.1.number < first.1.number := by
          rcases hfound other (mem_of_earliest_eq_some hlater) with rfl | hlt
          · omega
          · omega
        simp [hle]
    · rw [ih hmem' hfound]
      rcases h head (List.mem_cons_self ..) with rfl | hlt
      · simp
      · simp [hlt]

/-- Of the first matches of all kinds, the earliest one is the first match of all. -/
theorem earliest_hits {entries : List (Entry σ)}
    (h : entries.Pairwise fun left right => left.number < right.number) (text : String) :
    earliest (StepType.all.flatMap fun type =>
        ((entries.filter fun entry => entry.matcher.type = type).findSome?
          (Entry.hit? text)).toList) =
      entries.findSome? (Entry.hit? text) := by
  cases hfirst : entries.findSome? (Entry.hit? text) with
  | none =>
    rw [List.findSome?_eq_none_iff] at hfirst
    have hnone : ∀ type, (entries.filter fun entry => entry.matcher.type = type).findSome?
        (Entry.hit? text) = none := by
      intro type
      rw [List.findSome?_eq_none_iff]
      exact fun entry hentry => hfirst entry (List.mem_filter.1 hentry).1
    simp only [hnone]
    rfl
  | some first =>
    obtain ⟨before, entry, later, rfl, hentry, hbefore⟩ := List.findSome?_eq_some_iff.1 hfirst
    have hfirstEntry : first.1 = entry := by
      obtain ⟨arguments, _, rfl⟩ := Option.map_eq_some_iff.1 hentry
      rfl
    have hlater : ∀ other ∈ later, entry.number < other.number := by
      rw [List.pairwise_append, List.pairwise_cons] at h
      exact h.2.1.1
    refine earliest_eq ?_ ?_
    · refine List.mem_flatMap.2 ⟨entry.matcher.type, StepType.mem_all _, ?_⟩
      have hnone : (before.filter fun other => other.matcher.type = entry.matcher.type).findSome?
          (Entry.hit? text) = none := by
        rw [List.findSome?_eq_none_iff]
        exact fun other hother => hbefore other (List.mem_filter.1 hother).1
      simp [hnone, hentry]
    · intro other hother
      obtain ⟨type, _, hother⟩ := List.mem_flatMap.1 hother
      rw [Option.mem_toList] at hother
      obtain ⟨found, hfound, hhit⟩ := List.exists_of_findSome?_eq_some hother
      obtain ⟨arguments, harguments, rfl⟩ := Option.map_eq_some_iff.1 hhit
      rw [hfirstEntry]
      rcases List.mem_append.1 (List.mem_filter.1 hfound).1 with hmem | hmem
      · rw [hbefore found hmem] at hhit
        cases hhit
      · rcases List.mem_cons.1 hmem with rfl | hmem
        · rw [hentry, Option.some.injEq] at hhit
          exact .inl hhit.symm
        · exact .inr (hlater found hmem)

theorem findSome?_resolve? (text : String) (entries : List (Entry σ)) :
    (entries.map Entry.step).findSome? (·.resolve? text) =
      (entries.findSome? (Entry.hit? text)).map fun found =>
        ⟨found.1.matcher.definition, found.1.handler, found.2⟩ := by
  rw [List.findSome?_map, List.map_findSome?]
  refine congrArg (fun resolve => entries.findSome? resolve) (funext fun entry => ?_)
  rw [Function.comp_apply, Function.comp_apply, Registered.resolve?, Entry.hit?, Option.map_map]
  rfl

theorem value_conclude (type : Option StepType) (text : String) (entries : List (Entry σ)) :
    (conclude type text (entries.findSome? (Entry.hit? text))).value =
      Registered.resolveIn type (entries.map Entry.step) text := by
  rw [Registered.resolveIn, findSome?_resolve?]
  cases entries.findSome? (Entry.hit? text) <;> rfl

/-! ## The list of steps -/

/-- The registry answers as the list of steps does. -/
structure Lists (registry : Registry σ) (steps : List (Registered σ)) : Prop where
  resolve_eq : ∀ text, (registry.resolve text).value = Registered.resolveIn none steps text
  resolveTyped_eq : ∀ type text, (registry.resolveTyped type text).value =
    Registered.resolveIn (some type) (Registered.ofKind type steps) text
  definitions_eq : registry.definitions = steps.map (·.matcher.definition)
  matchersOf_eq : ∀ type, registry.matchersOf type = (Registered.ofKind type steps).map (·.matcher)
  type_of_mem_matchersOf : ∀ type, ∀ matcher ∈ registry.matchersOf type, matcher.type = type
  size_eq : registry.size = steps.length
  isEmpty_eq : registry.isEmpty = steps.isEmpty

theorem Holds.lists {registry : Registry σ} {entries : List (Entry σ)}
    (h : registry.Holds entries) : registry.Lists (entries.map Entry.step) := by
  have hflat : registry.ofType = fun type => entries.filter fun entry => entry.matcher.type = type :=
    funext h.ofType_eq
  have hkind : ∀ type, Registered.ofKind type (entries.map Entry.step) =
      (entries.filter fun entry => entry.matcher.type = type).map Entry.step := by
    intro type
    rw [Registered.ofKind, List.filter_map]
    rfl
  have hmatchers : ∀ type, registry.matchersOf type =
      (Registered.ofKind type (entries.map Entry.step)).map (·.matcher) := by
    intro type
    rw [matchersOf, h.ofType_eq, hkind, List.map_map]
    rfl
  refine ⟨fun text => ?_, fun type text => ?_, ?_, hmatchers, fun type matcher hmatcher => ?_, ?_, ?_⟩
  · rw [resolve, Logged.value_bind, value_firstMatches, hflat, earliest_hits h.pairwise,
      value_conclude]
  · rw [resolveTyped, Logged.value_bind, value_firstMatch, h.ofType_eq, value_conclude, hkind]
  · rw [definitions, h.entries_eq, List.map_map]
    rfl
  · rw [hmatchers, Registered.ofKind] at hmatcher
    obtain ⟨step, hstep, rfl⟩ := List.mem_map.1 hmatcher
    exact of_decide_eq_true (List.mem_filter.1 hstep).2
  · rw [h.size_eq, List.length_map]
  · rw [isEmpty, h.size_eq]
    cases entries <;> rfl

/-! ## Failing registrations -/

theorem result_eq_error_iff (call : Call σ) (registry : Registry σ) :
    (∃ error, call.result registry = .error error) ↔ call.step? = none := by
  cases call with
  | ofPattern type pattern handler =>
    rw [Call.result, registerPattern, Call.step?]
    cases Matcher.ofPattern type pattern <;> simp [Except.toOption]
  | ofMatcher type matcher handler => simp [Call.result, Call.step?]
  | ofDefinition definition handler =>
    rw [Call.result, registerDefinition, Call.step?]
    cases Matcher.compile definition <;> simp [Except.toOption]

theorem after_eq_of_error {call : Call σ} {registry : Registry σ} {error : DefinitionError}
    (h : call.result registry = .error error) : registry.after call = registry := by
  rw [after, h]

/-- A registry answers as the list of the steps whose registrations have succeeded does, in the
order of the calls; it reports that there is no step exactly where none accepts; and a registration
that fails changes nothing. -/
theorem afterAll_lists (calls : List (Call σ)) :
    (empty.afterAll calls).Lists (calls.filterMap Call.step?) ∧
      (∀ text, ((empty.afterAll calls).resolve text).value = .error (.noMatchingStep none text) ↔
        ∀ step ∈ calls.filterMap Call.step?, step.matcher.accepts text = false) ∧
      (∀ type text, ((empty.afterAll calls).resolveTyped type text).value =
          .error (.noMatchingStep (some type) text) ↔
        ∀ step ∈ Registered.ofKind type (calls.filterMap Call.step?),
          step.matcher.accepts text = false) ∧
      ∀ (call : Call σ) (error : DefinitionError),
        call.result (empty.afterAll calls) = .error error →
          call.step? = none ∧ empty.afterAll (calls ++ [call]) = empty.afterAll calls := by
  obtain ⟨entries, hholds, hsteps⟩ := holds_afterAll calls
  have hlists := hholds.lists
  rw [hsteps] at hlists
  refine ⟨hlists, fun text => ?_, fun type text => ?_, fun call error herror => ⟨?_, ?_⟩⟩
  · rw [hlists.resolve_eq, Registered.resolveIn_eq_error]
  · rw [hlists.resolveTyped_eq, Registered.resolveIn_eq_error]
  · exact (result_eq_error_iff call _).1 ⟨error, herror⟩
  · rw [afterAll, List.foldl_append]
    exact after_eq_of_error herror

theorem afterAll_lists_unclosed :
    let calls : List (Call Unit) := [.ofPattern .action (.expression "I wait") fun _ => .nothing]
    let call : Call Unit := .ofPattern .context (.expression "\x7bint") fun _ => .nothing
    (∃ error, call.result (empty.afterAll calls) = .error error) ∧
      empty.afterAll (calls ++ [call]) = empty.afterAll calls := by
  intro calls call
  obtain ⟨error, herror⟩ : ∃ error, call.result (empty.afterAll calls) = .error error := ⟨_, rfl⟩
  exact ⟨⟨error, herror⟩, ((afterAll_lists calls).2.2.2 call error herror).2⟩

end Registry

end Stepbook
