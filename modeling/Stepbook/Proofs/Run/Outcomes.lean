import Stepbook.Proofs.Run.Lifecycle
import Stepbook.Proofs.Run.Lockstep
import Stepbook.Proofs.Run.Unwinding

/-! # The outcomes of a run

A report holds one outcome for each test that is run, in the order in which they are run, and one for
each scope whose `afterAll` hooks fail, behind all that is reported of what stands in the scope.

* `Yields`, `AllYield`: the calls and the outcomes of declarations, group by group.
* `Scopes.KeptAt`: open scopes whose hooks keep their calls, each scope at its place.
* `emits_declare`: what is called and reported for a declaration.
* `complete_outcomes`: whole runs.
-/

namespace Stepbook.Host
set_option autoImplicit false

variable {σ : Type}

/-! ## Calls and outcomes -/

/-- The calls of hooks when a scope is left. -/
def IsCleanup (scope : Place) (calls : List Call) : Prop :=
  ∀ call ∈ calls, call.role = .hook .afterAll ∧ call.scope = scope

/-- The calls for a test: no scope is left, and no other test is called. -/
def CallsTest (place : Place) (calls : List Call) : Prop :=
  ∀ call ∈ calls, call.role ≠ .hook .afterAll ∧ (call.role = .body → call.place = place)

mutual

/-- The calls that are made for a declaration at a place, in the groups of a path, and its outcomes. -/
inductive Yields : List String → Place → Declaration σ → List Call → List Outcome → Prop where
  | group {path : List String} {place : Place} {body : List (Declaration σ)}
      {calls leaving : List Call} {outcomes : List Outcome} (name : String)
      (inside : AllYield (path ++ [name]) place 0 body calls outcomes)
      (cleanup : IsCleanup place leaving) :
      Yields path place (.group name body) (calls ++ leaving)
        (outcomes ++ Outcome.ofCleanup (path ++ [name]) leaving)
  | test {place : Place} {calls : List Call} (path : List String) (name : String)
      (body : Callback σ) (status : Status) (own : CallsTest place calls) :
      Yields path place (.test name body) calls [⟨path, name, status⟩]
  | hook (path : List String) (place : Place) (point : HookPoint) (callback : Callback σ) :
      Yields path place (.hook point callback) [] []
  | stop (path : List String) (place : Place) (error : RunError) :
      Yields path place (.stop error) [] []
  | note (path : List String) (place : Place) (record : Log.Record) :
      Yields path place (.note record) [] []

/-- Those of the declarations of a body, counted from an index on, up to the first that ends with an
error. -/
inductive AllYield :
    List String → Place → Nat → List (Declaration σ) → List Call → List Outcome → Prop where
  | nil (path : List String) (scope : Place) (index : Nat) : AllYield path scope index [] [] []
  | cons {path : List String} {scope : Place} {index : Nat} {declaration : Declaration σ}
      {rest : List (Declaration σ)} {calls more : List Call} {outcomes later : List Outcome}
      (first : Yields path (index :: scope) declaration calls outcomes)
      (succeeds : declaration.result = .ok ())
      (others : AllYield path scope (index + 1) rest more later) :
      AllYield path scope index (declaration :: rest) (calls ++ more) (outcomes ++ later)
  | error {path : List String} {scope : Place} {index : Nat} {declaration : Declaration σ}
      {calls : List Call} {outcomes : List Outcome} {error : RunError}
      (first : Yields path (index :: scope) declaration calls outcomes)
      (fails : declaration.result = .error error) (rest : List (Declaration σ)) :
      AllYield path scope index (declaration :: rest) calls outcomes

end

/-! ## Hooks at their places -/

/-- The hooks of an open scope keep their calls, and stand in it. -/
def Scope.KeptAt (place : Place) (scope : Scope (Traced σ)) : Prop :=
  ∃ layer, scope.Recorded layer ∧ ∀ point, ∀ hook ∈ layer point, hook.tail = place

namespace Scope.KeptAt
variable {place : Place} {scope : Scope (Traced σ)}

theorem empty (place : Place) : (Scope.empty : Scope (Traced σ)).KeptAt place :=
  ⟨fun _ => [], fun _ => .nil, fun _ _ hhook => absurd hhook List.not_mem_nil⟩

theorem attach (h : scope.KeptAt place) {index : Nat} {point : HookPoint}
    {callback : Callback (Traced σ)} (hcallback : Records (index :: place) (.hook point) callback) :
    (scope.attach point callback).KeptAt place := by
  obtain ⟨layer, hlayer, hplace⟩ := h
  exact hlayer.attach_forall hplace hcallback (List.tail_cons ..)

theorem emits_close (h : scope.KeptAt place) (path : List String) (report : Report) :
    Emits (close path scope report) fun after calls => IsCleanup place calls ∧
      after.outcomes = report.outcomes ++ Outcome.ofCleanup path calls := by
  obtain ⟨layer, hlayer, hplace⟩ := h
  refine (hlayer.emits_close path report).mono fun after calls hafter => ⟨?_, hafter.2⟩
  intro call hcall
  obtain ⟨hrole, hhook⟩ := hafter.1 call hcall
  exact ⟨hrole, hplace .afterAll call.place hhook⟩

end Scope.KeptAt

/-- The hooks of each open scope keep their calls, and stand in that scope. -/
inductive Scopes.KeptAt : Place → Scopes (Traced σ) → Prop where
  | root {scope : Scope (Traced σ)} (own : scope.KeptAt []) : Scopes.KeptAt [] (.root scope)
  | group {index : Nat} {place : Place} {name : String} {scope : Scope (Traced σ)}
      {outer : Scopes (Traced σ)} (own : scope.KeptAt (index :: place))
      (others : Scopes.KeptAt place outer) :
      Scopes.KeptAt (index :: place) (.group name scope outer)

namespace Scopes.KeptAt
variable {place : Place} {scopes other : Scopes (Traced σ)}

theorem keepCalls (h : scopes.KeptAt place) : scopes.KeepCalls := by
  induction h with
  | root own =>
    obtain ⟨layer, hlayer, -⟩ := own
    exact ⟨[layer], .root hlayer⟩
  | group own others ih =>
    obtain ⟨layer, hlayer, -⟩ := own
    obtain ⟨layers, hlayers⟩ := ih
    exact ⟨layer :: layers, .group hlayer hlayers⟩

theorem congr (h : scopes.KeptAt place) (hframes : other.frames = scopes.frames) :
    other.KeptAt place := by
  have hown : ∀ {place : Place} {scope changed : Scope (Traced σ)}, scope.KeptAt place →
      changed.hooks = scope.hooks → changed.KeptAt place := by
    rintro place scope changed ⟨layer, hlayer, hplace⟩ hhooks
    refine ⟨layer, ?_, hplace⟩
    rw [Scope.Recorded, hhooks]
    exact hlayer
  induction h generalizing other with
  | root own =>
    cases other with
    | root changed =>
      obtain ⟨hframe, -⟩ := List.cons.inj hframes
      exact .root (hown own (congrArg Frame.hooks hframe))
    | group name changed outer =>
      obtain ⟨hframe, -⟩ := List.cons.inj hframes
      cases hframe
  | group own others ih =>
    cases other with
    | root changed =>
      obtain ⟨hframe, -⟩ := List.cons.inj hframes
      cases hframe
    | group name changed outer =>
      obtain ⟨hframe, houter⟩ := List.cons.inj hframes
      exact .group (hown own (congrArg Frame.hooks hframe)) (ih houter)

theorem attach (h : scopes.KeptAt place) {index : Nat} {point : HookPoint}
    {callback : Callback (Traced σ)} (hcallback : Records (index :: place) (.hook point) callback) :
    (scopes.attach point callback).KeptAt place := by
  cases h with
  | root own => exact .root (own.attach hcallback)
  | group own others => exact .group (own.attach hcallback) others

end Scopes.KeptAt

/-! ## Tests and groups -/

theorem Ensures.and_emits {α : Type} {action : Action (Traced σ) α} {result : α → Prop}
    {post : α → List Call → Prop} (h : Ensures action result) (h' : Emits action post) :
    Emits action fun x calls => post x calls ∧ result x :=
  h'.and_result h

theorem Scopes.KeptAt.emits_runTest {host : Host (Traced σ)} {scope place : Place}
    (h : host.scopes.KeptAt scope) (name : String) {body : Callback (Traced σ)}
    (hbody : Records place .body body) :
    Emits (host.runTest name body) fun next calls => next.scopes.KeptAt scope ∧
      CallsTest place calls ∧ ∃ status, next.report.outcomes =
        host.report.outcomes ++ [⟨host.scopes.path, name, status⟩] := by
  have hscopes : Emits (host.scopes.runTest body) fun _ calls => CallsTest place calls := by
    obtain ⟨layers, hlayers⟩ := h.keepCalls
    refine Emits.bind hlayers.emits_start fun out calls hout => ?_
    obtain ⟨opened, result⟩ := out
    obtain ⟨hopened, hroles⟩ := hout
    have hcalls : CallsTest place calls := fun call hcall => by
      rw [hroles call hcall]
      exact ⟨nofun, nofun⟩
    cases result with
    | ok value =>
      refine Emits.bind (hopened.emits_runBody hbody) fun result more hmore => Emits.pure ?_
      rw [List.append_nil]
      refine List.forall_mem_append.2 ⟨hcalls, fun call hcall => ⟨fun hrole => ?_, ?_⟩⟩
      · have heach := (hmore.1.of_mem call hcall).1
        rw [hrole] at heach
        cases heach
      · exact hmore.1.place_of_body call hcall
    | error error =>
      refine Emits.pure ?_
      rwa [List.append_nil]
  have hcalls : Emits (host.runTest name body) fun _ calls => CallsTest place calls := by
    refine Emits.bind hscopes fun out calls hcalls => ?_
    refine Emits.bind (Emits.log _) fun _ more hmore => Emits.pure ?_
    rwa [hmore, List.append_nil, List.append_nil]
  refine ((ensures_runTest host name body).and_emits hcalls).mono fun next calls hnext => ?_
  obtain ⟨hcalls, hframes, hreport⟩ := hnext
  exact ⟨h.congr hframes, hcalls, hreport⟩

/-- A group that is left reports its failure, with its own path. -/
theorem Contained.emits_leave {host next : Host (Traced σ)} {name : String} {place : Place}
    (h : Contained (host.enter name) next) (hkept : next.scopes.KeptAt place) :
    Emits next.leave fun after calls => after.scopes.KeptAt place.tail ∧ IsCleanup place calls ∧
      after.report.outcomes =
        next.report.outcomes ++ Outcome.ofCleanup (host.scopes.path ++ [name]) calls := by
  obtain ⟨scope, outer, hscopes, hframes⟩ := h.exists_group
  obtain ⟨scopes, report⟩ := next
  obtain rfl : scopes = .group name scope outer := hscopes
  have hpath : (Scopes.group name scope outer).path = host.scopes.path ++ [name] := h.path
  cases hkept with
  | group own others =>
    rw [← hpath]
    refine Emits.bind (own.emits_close _ report) fun after calls hafter => Emits.pure ?_
    rw [List.append_nil]
    exact ⟨others, hafter⟩

/-! ## Declarations -/

mutual

theorem emits_declare (index : Nat) (scope : Place) : (declaration : Declaration σ) →
    (host : Host (Traced σ)) → host.scopes.KeptAt scope →
    Emits (declare host (declaration.traced (index :: scope))) fun out calls =>
      out.1.scopes.KeptAt scope ∧ ∃ outcomes,
        out.1.report.outcomes = host.report.outcomes ++ outcomes ∧
          Yields host.scopes.path (index :: scope) declaration calls outcomes
  | .group name body, host, h => by
    rw [Declaration.traced, declare]
    have hbody := (ensures_declareAll _ (host.enter name)).and_emits
      (emits_declareAll (index :: scope) 0 body (host.enter name) (.group (.empty _) h))
    refine Emits.bind hbody fun out calls hout => ?_
    obtain ⟨⟨hkept, outcomes, hreport, hinside⟩, hcontained⟩ := hout
    refine Emits.bind (hcontained.emits_leave hkept) fun after leaving hafter => Emits.pure ?_
    obtain ⟨hafter, hcleanup, hreport'⟩ := hafter
    refine ⟨hafter, outcomes ++ Outcome.ofCleanup (host.scopes.path ++ [name]) leaving, ?_, ?_⟩
    · rw [hreport', hreport, List.append_assoc]
      rfl
    · rw [List.append_nil]
      exact .group name hinside hcleanup
  | .test name body, host, h => by
    rw [Declaration.traced, declare]
    refine Emits.bind (h.emits_runTest name (records_traced _ .body body)) fun next calls hnext =>
      Emits.pure ?_
    obtain ⟨hkept, hown, status, hreport⟩ := hnext
    rw [List.append_nil]
    exact ⟨hkept, _, hreport, .test _ name body status hown⟩
  | .hook point callback, host, h => by
    rw [Declaration.traced, declare]
    exact Emits.pure ⟨h.attach (records_traced _ (.hook point) callback), [],
      (List.append_nil _).symm, .hook _ _ point callback⟩
  | .stop error, host, h => by
    rw [Declaration.traced, declare]
    exact Emits.pure ⟨h, [], (List.append_nil _).symm, .stop _ _ error⟩
  | .note record, host, h => by
    rw [Declaration.traced, declare]
    refine Emits.bind (Emits.log record) fun _ calls hcalls => Emits.pure ?_
    rw [hcalls]
    exact ⟨h, [], (List.append_nil _).symm, .note _ _ record⟩

theorem emits_declareAll (scope : Place) (index : Nat) : (declarations : List (Declaration σ)) →
    (host : Host (Traced σ)) → host.scopes.KeptAt scope →
    Emits (declareAll host (Declaration.tracedAll scope index declarations)) fun out calls =>
      out.1.scopes.KeptAt scope ∧ ∃ outcomes,
        out.1.report.outcomes = host.report.outcomes ++ outcomes ∧
          AllYield host.scopes.path scope index declarations calls outcomes
  | [], host, h => by
    rw [Declaration.tracedAll, declareAll]
    exact Emits.pure ⟨h, [], (List.append_nil _).symm, .nil _ scope index⟩
  | declaration :: rest, host, h => by
    rw [Declaration.tracedAll, declareAll]
    have hfirst := (ensures_result host _).and_emits
      ((ensures_declare _ host).and_emits (emits_declare index scope declaration host h))
    refine Emits.bind hfirst fun out calls hout => ?_
    obtain ⟨next, result⟩ := out
    obtain ⟨⟨⟨hkept, outcomes, hreport, hreports⟩, hcontained⟩, hresult⟩ := hout
    rw [Declaration.result_traced] at hresult
    cases result with
    | ok value =>
      refine (emits_declareAll scope (index + 1) rest next hkept).mono fun after more hafter => ?_
      obtain ⟨hafter, later, hlater, hothers⟩ := hafter
      rw [hcontained.path] at hothers
      refine ⟨hafter, outcomes ++ later, ?_, .cons hreports hresult.symm hothers⟩
      rw [hlater, hreport, List.append_assoc]
    | error error =>
      refine Emits.pure ⟨hkept, outcomes, hreport, ?_⟩
      rw [List.append_nil]
      exact .error hreports hresult.symm rest

end

/-! ## Whole runs -/

theorem emits_complete (declarations : List (Declaration σ)) :
    Emits (complete (Declaration.tracedAll [] 0 declarations)) fun report calls =>
      ∃ inside leaving outcomes, calls = inside ++ leaving ∧
        AllYield [] [] 0 declarations inside outcomes ∧ IsCleanup [] leaving ∧
        report.outcomes = outcomes ++ Outcome.ofCleanup [] leaving := by
  have hkept : (empty : Host (Traced σ)).scopes.KeptAt [] := .root (.empty [])
  refine Emits.bind (emits_declareAll [] 0 declarations empty hkept) fun out calls hout => ?_
  obtain ⟨⟨scopes, report⟩, result⟩ := out
  obtain ⟨hscopes, outcomes, hreport, hyield⟩ := hout
  obtain rfl : report.outcomes = outcomes := hreport
  cases hscopes with
  | root own =>
    refine (own.emits_close [] report).mono fun after leaving hafter => ?_
    exact ⟨calls, leaving, report.outcomes, rfl, hyield, hafter.1, hafter.2⟩

/-- Groups end as their bodies do and leave the open scopes as they are, and reports only grow at
their end. A whole run is observed through the calls of its callbacks, and its report is made up of
what its declarations yield. -/
theorem complete_outcomes (declarations : List (Declaration σ)) (session : Session σ) :
    (∀ (host : Host σ) (name : String) (body : List (Declaration σ)) (before : Session σ),
      (declare host (.group name body) before).1.2 =
          (declareAll (host.enter name) body before).1.2 ∧
        (declare host (.group name body) before).1.2 = Declaration.resultAll body ∧
        Unwound host (declare host (.group name body) before).1.1) ∧
      (∀ (host : Host σ) (declaration : Declaration σ) (before : Session σ),
        host.report.outcomes <+: (declare host declaration before).1.1.report.outcomes) ∧
      ∃ inside leaving outcomes,
        complete (Declaration.tracedAll [] 0 declarations) (session.keeping []) =
          ((complete declarations session).1,
            (complete declarations session).2.keeping (inside ++ leaving)) ∧
        (∀ call ∈ inside ++ leaving, Started (history declarations session) call.scope) ∧
        AllYield [] [] 0 declarations inside outcomes ∧ IsCleanup [] leaving ∧
        (complete declarations session).1.outcomes = outcomes ++ Outcome.ofCleanup [] leaving := by
  refine ⟨fun host name body before => ⟨?_, ensures_result host (.group name body) before,
      ensures_group host name body before⟩,
    fun host declaration before => (ensures_declare declaration host before).report, ?_⟩
  · rw [declare]
    rfl
  · obtain ⟨hsound, hcomplete⟩ := history_sound declarations session
    obtain ⟨calls, hcalls, inside, leaving, outcomes, rfl, hyield, hcleanup, hreport⟩ :=
      emits_complete declarations (session.keeping [])
    rw [hcomplete] at hcalls hreport
    have hhistory : (history declarations session).flatMap Entry.calls = inside ++ leaving := hcalls
    refine ⟨inside, leaving, outcomes, hhistory ▸ hcomplete, fun call hcall => ?_, hyield, hcleanup,
      hreport⟩
    rw [← hhistory] at hcall
    obtain ⟨entry, hentry, hmem⟩ := List.mem_flatMap.1 hcall
    exact hsound.started_of_call hentry hmem

/-- A group whose inner group stops early, and in both of which the cleanup fails. -/
def stoppedGroup : List (Declaration Nat) :=
  [.group "basket" [
      .hook .afterAll fun session => (.panic none, session),
      .test "first" .nothing,
      .group "inner" [
        .hook .afterAll fun session => (.error (.failed "cleanup"), session),
        .test "second" .nothing,
        .stop (.missingMethod "afterEach"),
        .test "third" .nothing],
      .test "fourth" .nothing],
    .test "fifth" .nothing]

theorem complete_outcomes_stoppedGroup :
    (complete stoppedGroup ⟨0, []⟩).1.outcomes =
        [⟨["basket"], "first", .passed⟩, ⟨["basket", "inner"], "second", .passed⟩,
          ⟨["basket", "inner"], "afterAll hook", .failed (.failed "cleanup")⟩,
          ⟨["basket"], "afterAll hook",
            .failed (.panicked "panicked with a non-string payload")⟩] ∧
      ∃ inside leaving outcomes, AllYield [] [] 0 stoppedGroup inside outcomes ∧
        IsCleanup [] leaving ∧ (complete stoppedGroup ⟨0, []⟩).1.outcomes =
          outcomes ++ Outcome.ofCleanup [] leaving := by
  obtain ⟨-, -, inside, leaving, outcomes, -, -, hyield⟩ := complete_outcomes stoppedGroup ⟨0, []⟩
  exact ⟨by decide, inside, leaving, outcomes, hyield⟩

end Stepbook.Host
