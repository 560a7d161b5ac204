import Stepbook.Proofs.Run.Erasure

/-! # What is called around one test

Where all scopes are set up, a test is its body among the hooks of the scopes around it: those
before it up to a failure, and those after it whatever has failed.

* `Layer`: the places of the hooks of one scope.
* `ScopeByScope`, `TestRun`: the calls of a test, as the hooks around it prescribe them.
* `Status.ofCalls`, `Outcome.ofCleanup`: what is reported is what the first failing call says.
* `Scopes.Recorded`: scopes whose hooks keep their calls, layer by layer.
* `Host.traced`: a host with all its hooks keeping their calls.
* `declare_test_run`: what a host does for a test.
-/

namespace Stepbook
set_option autoImplicit false

variable {σ : Type}

/-! ## Failing calls -/

/-- A panic counts as a failure, with its message if it has one. -/
def Call.failure? (call : Call) : Option StepError :=
  match call.reply with
  | .ok => none
  | .error cause => some cause
  | .panic (some message) => some (.panicked message)
  | .panic none => some (.panicked "panicked with a non-string payload")

/-- The first failure of calls. -/
def firstFailure (calls : List Call) : Except StepError Unit :=
  match calls.findSome? Call.failure? with
  | some error => .error error
  | none => .ok ()

def Status.ofCalls (calls : List Call) : Status :=
  match calls.findSome? Call.failure? with
  | some error => .failed error
  | none => .passed

/-- The outcome of leaving a scope with these calls; there is none unless one of them fails. -/
def Outcome.ofCleanup (path : List String) (calls : List Call) : List Outcome :=
  match firstFailure calls with
  | .ok () => []
  | .error error => [⟨path, "afterAll hook", .failed error⟩]

theorem Status.ofResult_firstFailure (calls : List Call) :
    Status.ofResult (firstFailure calls) = .ofCalls calls := by
  rw [firstFailure, Status.ofCalls]
  cases calls.findSome? Call.failure? <;> rfl

theorem firstFailure_append (calls more : List Call) :
    firstFailure (calls ++ more) = Host.Scopes.firstError (firstFailure calls) (firstFailure more) := by
  simp only [firstFailure, List.findSome?_append]
  cases calls.findSome? Call.failure? <;> rfl

theorem firstFailure_single (place : Place) (role : Role) (reply : Reply) :
    firstFailure [⟨place, role, reply⟩] = reply.result := by
  cases reply with
  | ok => rfl
  | error cause => rfl
  | panic payload => cases payload <;> rfl

theorem firstFailure_cons_ok (place : Place) (role : Role) (calls : List Call) :
    firstFailure (⟨place, role, .ok⟩ :: calls) = firstFailure calls := rfl

namespace InOrder
variable {role : Role} {hooks more : List Place} {calls rest : List Call}
  {result : Except StepError Unit}

theorem result_eq (h : InOrder role hooks calls result) : result = firstFailure calls := by
  induction h with
  | nil => rfl
  | ok place others ih => rw [firstFailure_cons_ok, ih]
  | failure place hooks fails => rw [firstFailure_single, fails]

/-- A failing hook is the last that is called. -/
theorem result_of_failure (h : InOrder role hooks calls result) {call : Call} {error : StepError}
    (hcall : call ∈ calls) (hfails : call.failure? = some error) : result = .error error := by
  induction h with
  | nil => exact absurd hcall List.not_mem_nil
  | ok place others ih =>
    rcases List.mem_cons.1 hcall with rfl | hcall
    · cases hfails
    · exact ih hcall
  | failure place hooks fails =>
    obtain rfl := List.mem_singleton.1 hcall
    rw [← fails, ← firstFailure_single place role, firstFailure, List.findSome?_cons, hfails]

/-- Where no hook has failed, it goes on with others. -/
theorem append (h : InOrder role hooks calls (.ok ())) (h' : InOrder role more rest result) :
    InOrder role (hooks ++ more) (calls ++ rest) result := by
  generalize hok : Except.ok () = success at h
  induction h with
  | nil => exact h'
  | ok place others ih => exact .ok place (ih hok)
  | failure place hooks fails => cases hok

/-- Where a hook has failed, no others are called. -/
theorem append_of_error {error : StepError} (h : InOrder role hooks calls (.error error))
    (more : List Place) : InOrder role (hooks ++ more) calls (.error error) := by
  generalize hfailed : Except.error error = failed at h
  induction h with
  | nil => cases hfailed
  | ok place others ih => exact .ok place (ih hfailed)
  | failure place hooks fails => exact .failure place (hooks ++ more) fails

end InOrder

/-! ## Calls of a test -/

/-- The hooks of a scope, by their points. -/
abbrev Layer := HookPoint → List Place

/-- Within a scope, hooks are called up to the first failure; whatever has failed there, it goes on
with the next scope. -/
inductive ScopeByScope (role : Role) : List (List Place) → List Call → Prop where
  | nil : ScopeByScope role [] []
  | cons {hooks : List Place} {scopes : List (List Place)} {calls more : List Call}
      {result : Except StepError Unit} (own : InOrder role hooks calls result)
      (others : ScopeByScope role scopes more) : ScopeByScope role (hooks :: scopes) (calls ++ more)

/-- The calls of a test in layers, the innermost of which is the first. -/
inductive TestRun (layers : List Layer) (place : Place) : List Call → Prop where
  /-- A hook before the test fails: the test is not run. -/
  | refused {before after : List Call} {error : StepError}
      (setup : InOrder (.hook .beforeEach) (layers.reverse.flatMap fun layer => layer .beforeEach)
        before (.error error))
      (cleanup : ScopeByScope (.hook .afterEach) (layers.map fun layer => layer .afterEach) after) :
      TestRun layers place (before ++ after)
  | run {before after : List Call} (reply : Reply)
      (setup : InOrder (.hook .beforeEach) (layers.reverse.flatMap fun layer => layer .beforeEach)
        before (.ok ()))
      (cleanup : ScopeByScope (.hook .afterEach) (layers.map fun layer => layer .afterEach) after) :
      TestRun layers place (before ++ ⟨place, .body, reply⟩ :: after)

theorem ScopeByScope.of_mem {role : Role} {scopes : List (List Place)} {calls : List Call}
    (h : ScopeByScope role scopes calls) :
    ∀ call ∈ calls, call.role = role ∧ ∃ hooks ∈ scopes, call.place ∈ hooks := by
  induction h with
  | nil => exact fun _ hcall => absurd hcall List.not_mem_nil
  | @cons hooks scopes calls more result own others ih =>
    intro call hcall
    rcases List.mem_append.1 hcall with hcall | hcall
    · obtain ⟨hrole, hplace⟩ := own.role_eq call hcall
      exact ⟨hrole, hooks, List.mem_cons_self, hplace⟩
    · obtain ⟨hrole, others, hothers, hplace⟩ := ih call hcall
      exact ⟨hrole, others, List.mem_cons_of_mem _ hothers, hplace⟩

section
variable {layers : List Layer} {place : Place} {calls : List Call}

/-- The call is of the test, or of one of the hooks around each test. -/
def IsAround (layers : List Layer) (place : Place) (call : Call) : Prop :=
  call.role.isEach = true ∧
    (call.place = place ∨ ∃ layer ∈ layers, ∃ point, call.place ∈ layer point)

theorem InOrder.isAround {result : Except StepError Unit}
    (h : InOrder (.hook .beforeEach) (layers.reverse.flatMap fun layer => layer .beforeEach) calls
      result) : ∀ call ∈ calls, IsAround layers place call := by
  intro call hcall
  obtain ⟨hrole, hplace⟩ := h.role_eq call hcall
  obtain ⟨layer, hlayer, hhook⟩ := List.mem_flatMap.1 hplace
  rw [IsAround, hrole]
  exact ⟨rfl, .inr ⟨layer, List.mem_reverse.1 hlayer, _, hhook⟩⟩

theorem ScopeByScope.isAround
    (h : ScopeByScope (.hook .afterEach) (layers.map fun layer => layer .afterEach) calls) :
    ∀ call ∈ calls, IsAround layers place call := by
  intro call hcall
  obtain ⟨hrole, hooks, hhooks, hplace⟩ := h.of_mem call hcall
  obtain ⟨layer, hlayer, rfl⟩ := List.mem_map.1 hhooks
  rw [IsAround, hrole]
  exact ⟨rfl, .inr ⟨layer, hlayer, _, hplace⟩⟩

theorem TestRun.of_mem (h : TestRun layers place calls) :
    ∀ call ∈ calls, IsAround layers place call := by
  intro call hcall
  cases h with
  | refused setup cleanup =>
    rcases List.mem_append.1 hcall with hcall | hcall
    · exact setup.isAround call hcall
    · exact cleanup.isAround call hcall
  | run reply setup cleanup =>
    rcases List.mem_append.1 hcall with hcall | hcall
    · exact setup.isAround call hcall
    · rcases List.mem_cons.1 hcall with rfl | hcall
      · exact ⟨rfl, .inl rfl⟩
      · exact cleanup.isAround call hcall

/-- The only body that is called for a test is its own. -/
theorem TestRun.place_of_body (h : TestRun layers place calls) :
    ∀ call ∈ calls, call.role = .body → call.place = place := by
  have hsetup : ∀ {hooks : List Place} {before : List Call} {result : Except StepError Unit},
      InOrder (.hook .beforeEach) hooks before result → ∀ call ∈ before, call.role ≠ .body := by
    intro hooks before result hinOrder call hcall hbody
    rw [(hinOrder.role_eq call hcall).1] at hbody
    cases hbody
  have hcleanup : ∀ {scopes : List (List Place)} {after : List Call},
      ScopeByScope (.hook .afterEach) scopes after → ∀ call ∈ after, call.role ≠ .body := by
    intro scopes after hscopes call hcall hbody
    rw [(hscopes.of_mem call hcall).1] at hbody
    cases hbody
  intro call hcall hbody
  cases h with
  | refused setup cleanup =>
    rcases List.mem_append.1 hcall with hcall | hcall
    · exact absurd hbody (hsetup setup call hcall)
    · exact absurd hbody (hcleanup cleanup call hcall)
  | run reply setup cleanup =>
    rcases List.mem_append.1 hcall with hcall | hcall
    · exact absurd hbody (hsetup setup call hcall)
    · rcases List.mem_cons.1 hcall with rfl | hcall
      · rfl
      · exact absurd hbody (hcleanup cleanup call hcall)

end

namespace Host

/-! ## Hooks that keep their calls -/

/-- Each hook of a scope keeps its calls. -/
def Scope.Recorded (layer : Layer) (scope : Scope (Traced σ)) : Prop :=
  ∀ point, List.Forall₂ (fun place hook => Records place (.hook point) hook) (layer point)
    (scope.hooks point)

theorem Scope.Recorded.emits_run {layer : Layer} {scope : Scope (Traced σ)} (h : scope.Recorded layer)
    (point : HookPoint) :
    Emits (scope.run point) fun result calls => InOrder (.hook point) (layer point) calls result :=
  emits_inOrder (h point)

inductive Scopes.Recorded : List Layer → Scopes (Traced σ) → Prop where
  | root {layer : Layer} {scope : Scope (Traced σ)} (own : scope.Recorded layer) :
      Scopes.Recorded [layer] (.root scope)
  | group {layer : Layer} {layers : List Layer} {name : String} {scope : Scope (Traced σ)}
      {outer : Scopes (Traced σ)} (own : scope.Recorded layer) (others : Scopes.Recorded layers outer) :
      Scopes.Recorded (layer :: layers) (.group name scope outer)

namespace Scopes.Recorded
variable {layers : List Layer} {scopes : Scopes (Traced σ)}

theorem emits_beforeEach (h : scopes.Recorded layers) :
    Emits scopes.beforeEach fun result calls => InOrder (.hook .beforeEach)
      (layers.reverse.flatMap fun layer => layer .beforeEach) calls result := by
  induction h with
  | root own =>
    refine (own.emits_run .beforeEach).mono fun result calls hcalls => ?_
    rwa [List.reverse_singleton, List.flatMap_singleton]
  | @group layer layers name scope outer own others ih =>
    rw [List.reverse_cons, List.flatMap_append, List.flatMap_singleton]
    refine Emits.bind ih fun result calls hcalls => ?_
    cases result with
    | ok value => exact (own.emits_run .beforeEach).mono fun _ _ hmore => hcalls.append hmore
    | error error =>
      refine Emits.pure ?_
      rw [List.append_nil]
      exact hcalls.append_of_error _

theorem emits_afterEach (h : scopes.Recorded layers) :
    Emits scopes.afterEach fun result calls =>
      ScopeByScope (.hook .afterEach) (layers.map fun layer => layer .afterEach) calls ∧
        result = firstFailure calls := by
  induction h with
  | root own =>
    refine (own.emits_run .afterEach).mono fun result calls hcalls => ⟨?_, hcalls.result_eq⟩
    rw [← List.append_nil calls]
    exact .cons hcalls .nil
  | group own others ih =>
    refine Emits.bind (own.emits_run .afterEach) fun result calls hcalls => ?_
    refine Emits.bind ih fun rest more hmore => Emits.pure ?_
    rw [List.append_nil, firstFailure_append, ← hcalls.result_eq, ← hmore.2]
    exact ⟨.cons hcalls hmore.1, rfl⟩

/-- Whatever has failed before, the hooks behind the test are called. -/
theorem emits_cleanup (h : scopes.Recorded layers) (calls : List Call) :
    Emits (do
      let after ← scopes.afterEach
      return Scopes.firstError (firstFailure calls) after) fun result more =>
      ScopeByScope (.hook .afterEach) (layers.map fun layer => layer .afterEach) more ∧
        result = firstFailure (calls ++ more) := by
  refine Emits.bind h.emits_afterEach fun result more hmore => Emits.pure ?_
  rw [List.append_nil, firstFailure_append, ← hmore.2]
  exact ⟨hmore.1, rfl⟩

theorem emits_runBody (h : scopes.Recorded layers) {place : Place} {body : Callback (Traced σ)}
    (hbody : Records place .body body) :
    Emits (scopes.runBody body) fun result calls =>
      TestRun layers place calls ∧ result = firstFailure calls := by
  refine Emits.bind h.emits_beforeEach fun result before hbefore => ?_
  cases result with
  | ok value =>
    refine Emits.bind hbody.guarded fun result own hown => ?_
    obtain ⟨reply, rfl, rfl⟩ := hown
    have hresult : reply.result = firstFailure (before ++ [⟨place, .body, reply⟩]) := by
      rw [firstFailure_append, ← hbefore.result_eq, firstFailure_single]
      rfl
    rw [hresult]
    refine (h.emits_cleanup _).mono fun result after hafter => ?_
    rw [← List.append_assoc]
    refine ⟨?_, hafter.2⟩
    rw [List.append_assoc]
    exact .run reply hbefore hafter.1
  | error error =>
    refine Emits.bind (Emits.pure_eq _) fun result own hown => ?_
    obtain ⟨rfl, rfl⟩ := hown
    rw [hbefore.result_eq]
    refine (h.emits_cleanup before).mono fun result after hafter => ?_
    exact ⟨.refused hbefore hafter.1, hafter.2⟩

end Scopes.Recorded

/-! ## Keeping the calls of open scopes -/

/-- The hooks in the order in which they have been attached. -/
def Scope.layer (place : Place) (scope : Scope σ) : Layer :=
  fun point => (scope.hooks point).mapIdx fun index _ => index :: place

def Scope.traced (place : Place) (scope : Scope σ) : Scope (Traced σ) where
  hooks point := (scope.hooks point).mapIdx fun index hook =>
    hook.traced (index :: place) (.hook point)
  setup := scope.setup

theorem forall₂_mapIdx {α β γ : Type} {rel : β → γ → Prop} (xs : List α) {f : Nat → α → β}
    {g : Nat → α → γ} (h : ∀ index x, rel (f index x) (g index x)) :
    List.Forall₂ rel (xs.mapIdx f) (xs.mapIdx g) := by
  induction xs generalizing f g with
  | nil => exact .nil
  | cons x xs ih =>
    rw [List.mapIdx_cons, List.mapIdx_cons]
    exact .cons (h 0 x) (ih fun index x => h (index + 1) x)

theorem Scope.recorded_traced (place : Place) (scope : Scope σ) :
    (scope.traced place).Recorded (scope.layer place) :=
  fun point => forall₂_mapIdx _ fun index hook =>
    records_traced (index :: place) (.hook point) hook

theorem Scope.erases_traced (place : Place) (scope : Scope σ) :
    ErasesScope (scope.traced place) scope where
  setup := rfl
  hooks point := by
    have hsame : (scope.hooks point).mapIdx (fun _ hook => hook) = scope.hooks point := by
      exact List.ext_getElem List.length_mapIdx fun i _ _ => List.getElem_mapIdx
    rw [← hsame]
    exact forall₂_mapIdx _ fun index hook => .traced (index :: place) (.hook point) hook

namespace Scopes

/-- Open scopes without a history are told apart by how deep they are. -/
def place : Scopes σ → Place
  | .root _ => []
  | .group _ _ outer => 0 :: outer.place

def layers : Scopes σ → List Layer
  | .root scope => [scope.layer []]
  | .group _ scope outer => scope.layer (0 :: outer.place) :: outer.layers

def traced : Scopes σ → Scopes (Traced σ)
  | .root scope => .root (scope.traced [])
  | .group name scope outer => .group name (scope.traced (0 :: outer.place)) outer.traced

theorem recorded_traced (scopes : Scopes σ) : scopes.traced.Recorded scopes.layers := by
  induction scopes with
  | root scope => exact .root (scope.recorded_traced [])
  | group name scope outer ih => exact .group (scope.recorded_traced _) ih

theorem erases_traced (scopes : Scopes σ) : ErasesScopes scopes.traced scopes := by
  induction scopes with
  | root scope => exact .root (scope.erases_traced [])
  | group name scope outer ih => exact .group name (scope.erases_traced _) ih

end Scopes

def traced (host : Host σ) : Host (Traced σ) :=
  ⟨host.scopes.traced, host.report⟩

theorem erases_traced (host : Host σ) : ErasesHost host.traced host :=
  ⟨host.scopes.erases_traced, rfl⟩

/-! ## Scopes that are set up -/

namespace Scopes

/-- All scopes have been set up, and no setup has failed. -/
def AllDone : Scopes σ → Prop
  | .root scope => scope.setup = .done
  | .group _ scope outer => scope.setup = .done ∧ outer.AllDone

theorem AllDone.traced {scopes : Scopes σ} (h : scopes.AllDone) : scopes.traced.AllDone := by
  induction scopes with
  | root scope => exact h
  | group name scope outer ih => exact ⟨h.1, ih h.2⟩

/-- Then there is nothing to be set up for a test. -/
theorem AllDone.start_eq {scopes : Scopes σ} (h : scopes.AllDone) :
    scopes.start = pure (scopes, .ok ()) := by
  induction scopes with
  | root scope =>
    have hdone : scope.setup = .done := h
    rw [start, Scope.start.eq_def, hdone]
    simp only [pure_bind, Scope.ready.eq_def, hdone]
  | group name scope outer ih =>
    rw [start, ih h.2, pure_bind]
    dsimp only
    rw [Scope.start.eq_def, h.1]
    simp only [pure_bind, Scope.ready.eq_def, h.1]

end Scopes

/-- The host behind a test, with one outcome more. -/
def reporting (host : Host σ) (name : String) (status : Status) : Host σ :=
  { host with report := host.report.add ⟨host.scopes.path, name, status⟩ }

theorem scopes_runTest {host : Host σ} (h : host.scopes.AllDone) (name : String)
    (body : Callback σ) (session : Session σ) :
    (host.runTest name body session).1.scopes = host.scopes := by
  rw [runTest, Scopes.runTest, h.start_eq, pure_bind]
  rfl

theorem emits_runTest {host : Host (Traced σ)} (hdone : host.scopes.AllDone)
    {layers : List Layer} (h : host.scopes.Recorded layers) (name : String) {place : Place}
    {body : Callback (Traced σ)} (hbody : Records place .body body) :
    Emits (host.runTest name body) fun next calls =>
      TestRun layers place calls ∧ next = host.reporting name (.ofCalls calls) := by
  rw [runTest, Scopes.runTest, hdone.start_eq, pure_bind, bind_assoc]
  refine Emits.bind (h.emits_runBody hbody) fun result calls hcalls => ?_
  rw [pure_bind]
  refine Emits.bind (Emits.log _) fun _ more hmore => Emits.pure ?_
  rw [hmore, List.append_nil, List.append_nil, hcalls.2, Status.ofResult_firstFailure]
  exact ⟨hcalls.1, rfl⟩

theorem traced_reporting (host : Host σ) (name : String) (status : Status) :
    (host.reporting name status).traced = host.traced.reporting name status := by
  rw [traced, traced, reporting, reporting, (erasesScopes_iff.1 host.scopes.erases_traced).path_eq]

/-- A test among scopes that are all set up, whatever their hooks and its body do: but for what they
keep of their calls, it is the same whether they keep them or not. -/
theorem declare_test_run (host : Host σ) (hdone : host.scopes.AllDone) (name : String)
    (body : Callback σ) (session : Session σ) :
    ∃ calls after, TestRun host.scopes.layers (0 :: host.scopes.place) calls ∧
      declare host (.test name body) session =
        ((host.reporting name (.ofCalls calls), .ok ()), after) ∧
      declare host.traced ((Declaration.test name body).traced (0 :: host.scopes.place))
          (session.keeping []) =
        (((host.reporting name (.ofCalls calls)).traced, .ok ()), after.keeping calls) := by
  have hbody := records_traced (0 :: host.scopes.place) .body body
  have htraced : host.traced.scopes.AllDone := hdone.traced
  obtain ⟨calls, hcalls, hrun, hnext⟩ := emits_runTest htraced host.scopes.recorded_traced name hbody
    (session.keeping [])
  obtain ⟨hhost, hsession⟩ := (erases_traced host).runTest name
    (.traced (0 :: host.scopes.place) .body body) (session.keeping [])
  rw [hnext, ← traced_reporting] at hhost
  have hscopes := scopes_runTest hdone name body session
  have hplain : (host.runTest name body session).1 = host.reporting name (.ofCalls calls) :=
    congrArg₂ Host.mk hscopes hhost.report.symm
  have hkept := congrArg₂ Session.keeping hsession hcalls
  rw [Session.keeping_erase] at hkept
  refine ⟨calls, (host.runTest name body session).2, hrun, ?_, ?_⟩
  · rw [declare, ← hplain]
    rfl
  · rw [Declaration.traced, declare, traced_reporting, ← hnext]
    exact Prod.ext rfl hkept

/-- Behind a test, a hook of the inner scope panics and one of the root fails, each before another
hook that is not called. -/
def failingCleanup : Host Nat where
  scopes := .group "inner"
    { hooks := fun
        | .beforeEach => [.nothing]
        | .afterEach => [fun session => (.panic none, session), .nothing]
        | .beforeAll | .afterAll => []
      setup := .done }
    (.root
      { hooks := fun
          | .beforeEach => [.nothing]
          | .afterEach => [fun session => (.error (.failed "cleanup"), session), .nothing]
          | .beforeAll | .afterAll => []
        setup := .done })
  report := .empty

theorem declare_test_run_failingCleanup :
    let status : Status := .failed (.panicked "panicked with a non-string payload")
    failingCleanup.scopes.AllDone ∧
      ∃ calls after, TestRun failingCleanup.scopes.layers [0, 0] calls ∧
        declare failingCleanup (.test "body" .nothing) ⟨0, []⟩ =
          ((failingCleanup.reporting "body" status, .ok ()), after) ∧
        declare failingCleanup.traced ((Declaration.test "body" .nothing).traced [0, 0])
            (Session.keeping ⟨0, []⟩ []) =
          (((failingCleanup.reporting "body" status).traced, .ok ()), after.keeping calls) := by
  intro status
  obtain ⟨calls, after, hrun, hplain, htraced⟩ :=
    declare_test_run failingCleanup ⟨rfl, rfl⟩ "body" .nothing ⟨0, []⟩
  have houtcomes : (declare failingCleanup (.test "body" .nothing) ⟨0, []⟩).1.1.report.outcomes =
      [⟨["inner"], "body", status⟩] := by
    rfl
  have hstatus : Status.ofCalls calls = status := by
    rw [hplain] at houtcomes
    exact congrArg Outcome.status (List.singleton_inj.1 houtcomes)
  rw [hstatus] at hplain htraced
  exact ⟨⟨rfl, rfl⟩, calls, after, hrun, hplain, htraced⟩

end Host

end Stepbook
