import Stepbook.Proofs.Run.Mending
import Stepbook.Proofs.Run.Scene

/-! # Two runs beside each other

Two hosts take turns that differ only in the setup of one scope. As long as that scope is not open
they do the same; while it is open, they may differ in it, and agree on the scopes around it.

* `Together`: what two actions come to, each with its calls.
* `Scene.outside`: what is seen of a scene from outside a scope.
* `Outer`: the open scopes that are outside a scope.
* `Outer.start`, `Outer.emits_runTest`, `Outer.emits_perform`: what is done in the scope.
* `Lockstep`, `Lockstep.perform`: hosts that agree outside the scope.
* `outside_scenes`: so do their runs.
-/

namespace Stepbook
set_option autoImplicit false

variable {σ α β γ δ : Type}

/-! ## Two actions -/

/-- In any two sessions, two actions make calls that fit each other and the results. -/
def Together (post : α → List Call → β → List Call → Prop) (action : Action (Traced σ) α)
    (other : Action (Traced σ) β) : Prop :=
  ∀ session session', ∃ calls calls',
    (action session).2.memory.calls = session.memory.calls ++ calls ∧
    (other session').2.memory.calls = session'.memory.calls ++ calls' ∧
    post (action session).1 calls (other session').1 calls'

namespace Together

theorem of_relates {rel : α → β → Prop} {action : Action (Traced σ) α} {other : Action (Traced σ) β}
    (h : (observing σ).Relates rel action other) :
    Together (fun x calls y calls' => rel x y ∧ calls = calls') action other := by
  intro session session'
  obtain ⟨calls, hcalls, hcalls', hrel⟩ := h session session'
  exact ⟨calls, calls, hcalls, hcalls', hrel, rfl⟩

theorem of_emits {post : α → List Call → Prop} {post' : β → List Call → Prop}
    {action : Action (Traced σ) α} {other : Action (Traced σ) β} (h : Emits action post)
    (h' : Emits other post') :
    Together (fun x calls y calls' => post x calls ∧ post' y calls') action other := by
  intro session session'
  obtain ⟨calls, hcalls, hpost⟩ := h session
  obtain ⟨calls', hcalls', hpost'⟩ := h' session'
  exact ⟨calls, calls', hcalls, hcalls', hpost, hpost'⟩

theorem and_emits {post : α → List Call → β → List Call → Prop} {left : α → List Call → Prop}
    {right : β → List Call → Prop} {action : Action (Traced σ) α} {other : Action (Traced σ) β}
    (h : Together post action other) (hleft : Emits action left) (hright : Emits other right) :
    Together (fun x calls y calls' => post x calls y calls' ∧ left x calls ∧ right y calls') action
      other := by
  intro session session'
  obtain ⟨calls, calls', hcalls, hcalls', hpost⟩ := h session session'
  obtain ⟨same, hsame, hl⟩ := hleft session
  obtain ⟨same', hsame', hr⟩ := hright session'
  obtain rfl := List.append_cancel_left (hcalls.symm.trans hsame)
  obtain rfl := List.append_cancel_left (hcalls'.symm.trans hsame')
  exact ⟨calls, calls', hcalls, hcalls', hpost, hl, hr⟩

theorem mono {post weaker : α → List Call → β → List Call → Prop} {action : Action (Traced σ) α}
    {other : Action (Traced σ) β} (h : Together post action other)
    (hmono : ∀ x calls y calls', post x calls y calls' → weaker x calls y calls') :
    Together weaker action other := by
  intro session session'
  obtain ⟨calls, calls', hcalls, hcalls', hpost⟩ := h session session'
  exact ⟨calls, calls', hcalls, hcalls', hmono _ _ _ _ hpost⟩

theorem bind {middle : α → List Call → β → List Call → Prop}
    {post : γ → List Call → δ → List Call → Prop} {action : Action (Traced σ) α}
    {other : Action (Traced σ) β} {next : α → Action (Traced σ) γ}
    {otherNext : β → Action (Traced σ) δ} (first : Together middle action other)
    (second : ∀ x calls y calls', middle x calls y calls' →
      Together (fun x' more y' more' => post x' (calls ++ more) y' (calls' ++ more')) (next x)
        (otherNext y)) :
    Together post (action >>= next) (other >>= otherNext) := by
  intro session session'
  obtain ⟨calls, calls', hcalls, hcalls', hmiddle⟩ := first session session'
  obtain ⟨more, more', hmore, hmore', hpost⟩ :=
    second _ _ _ _ hmiddle (action session).2 (other session').2
  refine ⟨calls ++ more, calls' ++ more', ?_, ?_, hpost⟩
  · rw [← List.append_assoc, ← hcalls]
    exact hmore
  · rw [← List.append_assoc, ← hcalls']
    exact hmore'

end Together

namespace Host

/-! ## Scenes from outside -/

/-- A call that is not made for the scopes outside a scope to be set up. -/
def Hidden (scope : Place) (call : Call) : Prop :=
  call.role = .hook .beforeAll → scope <:+ call.scope

instance (scope : Place) : DecidablePred (Hidden scope) :=
  fun call => inferInstanceAs (Decidable (call.role = .hook .beforeAll → scope <:+ call.scope))

/-- What is seen of a scene from outside a scope. Of what is done in the scope, it is only which
scopes outside are set up for it. -/
def Scene.outside (scope : Place) (scene : Scene) : Mark × List Call × List Outcome :=
  if scope <:+ scene.entry.place then
    (scene.entry.mark, scene.entry.calls.filter (¬ Hidden scope ·), [])
  else (scene.entry.mark, scene.entry.calls, scene.outcomes)

namespace Scene
variable {scope : Place} {scene other : Scene}

theorem outside_congr (hmark : scene.entry.mark = other.entry.mark)
    (hcalls : scene.entry.calls = other.entry.calls) (houtcomes : scene.outcomes = other.outcomes) :
    scene.outside scope = other.outside scope := by
  have hplace : scene.entry.place = other.entry.place := congrArg Prod.fst hmark
  rw [outside, outside, hmark, hcalls, houtcomes, hplace]

theorem outside_congr_inside (hmark : scene.entry.mark = other.entry.mark)
    (hin : scope <:+ scene.entry.place)
    (hcalls : scene.entry.calls.filter (¬ Hidden scope ·) =
      other.entry.calls.filter (¬ Hidden scope ·)) :
    scene.outside scope = other.outside scope := by
  have hplace : scene.entry.place = other.entry.place := congrArg Prod.fst hmark
  have hin' := hin
  rw [hplace] at hin'
  rw [outside, outside, if_pos hin, if_pos hin', hmark, hcalls]

end Scene

theorem filter_of_hidden {scope : Place} {calls : List Call} (h : ∀ call ∈ calls, Hidden scope call) :
    calls.filter (¬ Hidden scope ·) = [] := by
  refine List.filter_eq_nil_iff.2 fun call hcall hnot => ?_
  exact of_decide_eq_true hnot (h call hcall)

/-! ## Hooks that keep their calls -/

def Scopes.KeepCalls (scopes : Scopes (Traced σ)) : Prop :=
  ∃ layers, scopes.Recorded layers

theorem Scope.Recorded.attach {layer : Layer} {scope : Scope (Traced σ)} (h : scope.Recorded layer)
    {place : Place} {point : HookPoint} {callback : Callback (Traced σ)}
    (hcallback : Records place (.hook point) callback) :
    (scope.attach point callback).Recorded fun other =>
      if other = point then layer other ++ [place] else layer other := by
  intro other
  by_cases heq : other = point
  · subst heq
    simp only [Scope.attach, if_true]
    exact List.rel_append (h other) (.cons hcallback .nil)
  · simp only [Scope.attach, heq, if_false]
    exact h other

/-- A condition on where hooks stand survives attaching a hook that stands so. -/
theorem Scope.Recorded.attach_forall {condition : Place → Prop} {layer : Layer}
    {scope : Scope (Traced σ)} (h : scope.Recorded layer)
    (hlayer : ∀ point, ∀ hook ∈ layer point, condition hook) {place : Place} {point : HookPoint}
    {callback : Callback (Traced σ)} (hcallback : Records place (.hook point) callback)
    (hplace : condition place) : ∃ next, (scope.attach point callback).Recorded next ∧
      ∀ point, ∀ hook ∈ next point, condition hook := by
  refine ⟨_, h.attach hcallback, fun other hook hhook => ?_⟩
  by_cases heq : other = point
  · rw [if_pos heq] at hhook
    rcases List.mem_append.1 hhook with hhook | hhook
    · exact hlayer other hook hhook
    · rwa [List.mem_singleton.1 hhook]
  · rw [if_neg heq] at hhook
    exact hlayer other hook hhook

theorem Scope.Recorded.emits_start {layer : Layer} {scope : Scope (Traced σ)}
    (h : scope.Recorded layer) : Emits scope.start fun next calls => next.Recorded layer ∧
      ∀ call ∈ calls, call.role = .hook .beforeAll ∧ call.place ∈ layer .beforeAll := by
  have hnone : ∀ call ∈ ([] : List Call),
      call.role = .hook .beforeAll ∧ call.place ∈ layer .beforeAll :=
    fun _ hcall => absurd hcall List.not_mem_nil
  rw [Scope.start.eq_def]
  cases scope.setup with
  | pending =>
    refine Emits.bind (h.emits_run .beforeAll) fun result calls hcalls => ?_
    have hroles := hcalls.role_eq
    rw [← List.append_nil calls] at hroles
    cases result with
    | ok value => exact Emits.pure ⟨h, hroles⟩
    | error error => exact Emits.pure ⟨h, hroles⟩
  | done => exact Emits.pure ⟨h, hnone⟩
  | failed error => exact Emits.pure ⟨h, hnone⟩

theorem Scope.Recorded.emits_close {layer : Layer} {scope : Scope (Traced σ)}
    (h : scope.Recorded layer) (path : List String) (report : Report) :
    Emits (close path scope report) fun after calls =>
      (∀ call ∈ calls, call.role = .hook .afterAll ∧ call.place ∈ layer .afterAll) ∧
        after.outcomes = report.outcomes ++ Outcome.ofCleanup path calls := by
  have hrun : Emits (scope.run .afterAll) fun result calls =>
      (∀ call ∈ calls, call.role = .hook .afterAll ∧ call.place ∈ layer .afterAll) ∧
        result = firstFailure calls :=
    (h.emits_run .afterAll).mono fun _ _ hcalls => ⟨hcalls.role_eq, hcalls.result_eq⟩
  have hfinish : Emits scope.finish fun result calls =>
      (∀ call ∈ calls, call.role = .hook .afterAll ∧ call.place ∈ layer .afterAll) ∧
        result = firstFailure calls := by
    rw [Scope.finish.eq_def]
    cases scope.setup with
    | pending => exact Emits.pure ⟨fun _ hcall => absurd hcall List.not_mem_nil, rfl⟩
    | done => exact hrun
    | failed error => exact hrun
  refine Emits.bind hfinish fun result calls hcalls => ?_
  obtain ⟨hcalls, hresult⟩ := hcalls
  cases result with
  | ok value =>
    refine Emits.pure ?_
    rw [List.append_nil, Outcome.ofCleanup, ← hresult]
    exact ⟨hcalls, (List.append_nil _).symm⟩
  | error error =>
    refine Emits.bind (Emits.log _) fun _ more hmore => Emits.pure ?_
    rw [hmore, List.append_nil, List.append_nil, Outcome.ofCleanup, ← hresult]
    exact ⟨hcalls, rfl⟩

theorem Scopes.Recorded.emits_start {layers : List Layer} {scopes : Scopes (Traced σ)}
    (h : scopes.Recorded layers) : Emits scopes.start fun out calls => out.1.Recorded layers ∧
      ∀ call ∈ calls, call.role = .hook .beforeAll := by
  induction h with
  | root own =>
    refine Emits.bind own.emits_start fun next calls hnext => Emits.pure ⟨.root hnext.1, ?_⟩
    rw [List.append_nil]
    exact fun call hcall => (hnext.2 call hcall).1
  | group own others ih =>
    refine Emits.bind ih fun out calls hout => ?_
    obtain ⟨outer, result⟩ := out
    cases result with
    | ok value =>
      refine Emits.bind own.emits_start fun next more hnext => Emits.pure ⟨.group hnext.1 hout.1, ?_⟩
      rw [List.append_nil]
      exact List.forall_mem_append.2 ⟨hout.2, fun call hcall => (hnext.2 call hcall).1⟩
    | error error =>
      refine Emits.pure ⟨.group own hout.1, ?_⟩
      rw [List.append_nil]
      exact hout.2

/-! ## Inside the scope -/

/-- The hooks of an open scope stand in a scope. -/
def Scope.HooksIn (outside : Place) (scope : Scope (Traced σ)) : Prop :=
  ∃ layer, scope.Recorded layer ∧ ∀ point, ∀ hook ∈ layer point, outside <:+ hook.tail

namespace Scope.HooksIn
variable {outside : Place} {scope : Scope (Traced σ)}

theorem empty : (Scope.empty : Scope (Traced σ)).HooksIn outside :=
  ⟨fun _ => [], fun _ => .nil, fun _ _ hhook => absurd hhook List.not_mem_nil⟩

theorem attach (h : scope.HooksIn outside) {place : Place} {point : HookPoint}
    {callback : Callback (Traced σ)} (hcallback : Records place (.hook point) callback)
    (hplace : outside <:+ place.tail) : (scope.attach point callback).HooksIn outside := by
  obtain ⟨layer, hlayer, hin⟩ := h
  exact hlayer.attach_forall hin hcallback hplace

theorem emits_start (h : scope.HooksIn outside) : Emits scope.start fun next calls =>
    next.HooksIn outside ∧ ∀ call ∈ calls, Hidden outside call := by
  obtain ⟨layer, hlayer, hin⟩ := h
  refine hlayer.emits_start.mono fun next calls hnext => ⟨⟨layer, hnext.1, hin⟩, ?_⟩
  exact fun call hcall _ => hin .beforeAll call.place (hnext.2 call hcall).2

theorem emits_close (h : scope.HooksIn outside) (path : List String) (report : Report) :
    Emits (close path scope report) fun _ calls => ∀ call ∈ calls, Hidden outside call := by
  obtain ⟨layer, hlayer, -⟩ := h
  refine (hlayer.emits_close path report).mono fun _ calls hcalls call hcall hrole => ?_
  rw [(hcalls.1 call hcall).1] at hrole
  cases hrole

end Scope.HooksIn

/-- The open scopes that are outside a scope; those in it, it included, have their hooks in it. -/
inductive Outer (scope : Place) : Place → Scopes (Traced σ) → Scopes (Traced σ) → Prop where
  | outside {place : Place} (hplace : ¬ scope <:+ place) (scopes : Scopes (Traced σ)) :
      Outer scope place scopes scopes
  | inside {index : Nat} {place : Place} {name : String} {own : Scope (Traced σ)}
      {scopes outer : Scopes (Traced σ)} (hplace : scope <:+ index :: place)
      (hown : own.HooksIn scope) (others : Outer scope place scopes outer) :
      Outer scope (index :: place) (.group name own scopes) outer

namespace Outer
variable {scope place : Place} {scopes outer : Scopes (Traced σ)}

theorem eq_of_outside (h : Outer scope place scopes outer) (hplace : ¬ scope <:+ place) :
    scopes = outer := by
  cases h with
  | outside => rfl
  | inside hin => exact absurd hin hplace

theorem keepCalls (h : Outer scope place scopes outer) (houter : outer.KeepCalls) :
    scopes.KeepCalls := by
  induction h with
  | outside => exact houter
  | inside hplace hown others ih =>
    obtain ⟨layer, hlayer, -⟩ := hown
    obtain ⟨layers, hlayers⟩ := ih houter
    exact ⟨layer :: layers, .group hlayer hlayers⟩

/-- The scopes outside are set up first. -/
theorem start (h : Outer scope place scopes outer) :
    ∃ next : Scopes (Traced σ) × Except StepError Unit →
        Action (Traced σ) (Scopes (Traced σ) × Except StepError Unit),
      scopes.start = outer.start >>= next ∧
      ∀ out, Emits (next out) fun after calls =>
        Outer scope place after.1 out.1 ∧ ∀ call ∈ calls, Hidden scope call := by
  have hnone : ∀ call ∈ ([] : List Call), Hidden scope call :=
    fun _ hcall => absurd hcall List.not_mem_nil
  induction h with
  | outside hplace scopes =>
    refine ⟨pure, (bind_pure _).symm, fun out => Emits.pure ⟨.outside hplace out.1, hnone⟩⟩
  | @inside index place name own scopes outer hplace hown others ih =>
    obtain ⟨next, hstart, hnext⟩ := ih
    refine ⟨_, by rw [Scopes.start, hstart, bind_assoc], fun out => ?_⟩
    refine Emits.bind (hnext out) fun after calls hafter => ?_
    obtain ⟨opened, result⟩ := after
    obtain ⟨hopened, hcalls⟩ := hafter
    cases result with
    | ok value =>
      refine Emits.bind hown.emits_start fun changed more hchanged => Emits.pure ?_
      rw [List.append_nil]
      refine ⟨.inside hplace hchanged.1 hopened, fun call hcall => ?_⟩
      exact (List.mem_append.1 hcall).elim (hcalls call) (hchanged.2 call)
    | error error =>
      refine Emits.pure ⟨.inside hplace hown hopened, ?_⟩
      rwa [List.append_nil]

end Outer

theorem hidden_of_isEach {scope : Place} {call : Call} (h : call.role.isEach = true) :
    Hidden scope call := by
  intro hrole
  rw [hrole] at h
  cases h

theorem Scopes.KeepCalls.emits_runBody {scopes : Scopes (Traced σ)} (h : scopes.KeepCalls)
    {place : Place} {body : Callback (Traced σ)} (hbody : Records place .body body)
    (scope : Place) : Emits (scopes.runBody body) fun _ calls => ∀ call ∈ calls, Hidden scope call := by
  obtain ⟨layers, hlayers⟩ := h
  refine (hlayers.emits_runBody hbody).mono fun result calls hcalls call hcall => ?_
  exact hidden_of_isEach (hcalls.1.of_mem call hcall).1

theorem Outer.runScopes {scope place bodyPlace : Place} {scopes outer : Scopes (Traced σ)}
    (h : Outer scope place scopes outer) {body : Callback (Traced σ)}
    (hbody : Records bodyPlace .body body) :
    ∃ next : Scopes (Traced σ) × Except StepError Unit →
        Action (Traced σ) (Scopes (Traced σ) × Except StepError Unit),
      scopes.runTest body = outer.start >>= next ∧
      ∀ out, out.1.KeepCalls → Emits (next out) fun after calls =>
        Outer scope place after.1 out.1 ∧ ∀ call ∈ calls, Hidden scope call := by
  obtain ⟨next, hstart, hnext⟩ := h.start
  refine ⟨_, by rw [Scopes.runTest, hstart, bind_assoc], fun out hout => ?_⟩
  refine Emits.bind (hnext out) fun opened calls hopened => ?_
  obtain ⟨scopes, result⟩ := opened
  obtain ⟨hopened, hcalls⟩ := hopened
  cases result with
  | ok value =>
    have hkeep : scopes.KeepCalls := hopened.keepCalls hout
    refine Emits.bind (hkeep.emits_runBody hbody scope) fun result more hmore => Emits.pure ?_
    rw [List.append_nil]
    exact ⟨hopened, fun call hcall => (List.mem_append.1 hcall).elim (hcalls call) (hmore call)⟩
  | error error =>
    refine Emits.pure ⟨hopened, ?_⟩
    rwa [List.append_nil]

/-- A test in the scope: the scopes outside are set up first, and all else is hidden. -/
theorem Outer.runTest {scope place bodyPlace : Place} {host : Host (Traced σ)}
    {outer : Scopes (Traced σ)} (h : Outer scope place host.scopes outer) (name : String)
    {body : Callback (Traced σ)} (hbody : Records bodyPlace .body body) :
    ∃ next : Scopes (Traced σ) × Except StepError Unit → Action (Traced σ) (Host (Traced σ)),
      host.runTest name body = outer.start >>= next ∧
      ∀ out, out.1.KeepCalls → Emits (next out) fun after calls =>
        Outer scope place after.scopes out.1 ∧ ∀ call ∈ calls, Hidden scope call := by
  obtain ⟨next, hrun, hnext⟩ := h.runScopes hbody
  refine ⟨_, by rw [Host.runTest, hrun, bind_assoc], fun out hout => ?_⟩
  refine Emits.bind (hnext out hout) fun after calls hafter => ?_
  refine Emits.bind (Emits.log _) fun _ more hmore => Emits.pure ?_
  rwa [hmore, List.append_nil, List.append_nil]

/-- Other turns in the scope leave the scopes outside as they are. -/
theorem Outer.emits_perform {scope place next : Place} {host : Host (Traced σ)}
    {outer : Scopes (Traced σ)} (h : Outer scope place host.scopes outer)
    (hplace : scope <:+ place) (hne : scope ≠ []) {turn : Turn (Traced σ)}
    (hstands : Stands place turn next) (hrecorded : turn.Recorded)
    (hkind : turn.move.kind ≠ .test) :
    Emits (host.perform turn.move) fun after calls =>
      Outer scope next after.scopes outer ∧ ∀ call ∈ calls, Hidden scope call := by
  have hnone : ∀ call ∈ ([] : List Call), Hidden scope call :=
    fun _ hcall => absurd hcall List.not_mem_nil
  obtain ⟨scopes, report⟩ := host
  cases hstands with
  | enter index _ name =>
    exact Emits.pure ⟨.inside (hplace.trans (List.suffix_cons _ _)) .empty h, hnone⟩
  | test => exact absurd rfl hkind
  | attach index _ point callback =>
    refine Emits.pure ⟨?_, hnone⟩
    cases h with
    | outside hnot => exact absurd hplace hnot
    | inside hin hown others => exact .inside hin (hown.attach hrecorded hplace) others
  | note index _ record =>
    refine Emits.bind (Emits.log record) fun _ calls hcalls => Emits.pure ⟨h, ?_⟩
    rwa [hcalls]
  | leave index =>
    cases h with
    | outside hnot => exact absurd hplace hnot
    | inside hin hown others =>
      refine Emits.bind (hown.emits_close _ report) fun _ calls hcalls => Emits.pure ⟨others, ?_⟩
      rwa [List.append_nil]
  | finish => exact absurd (List.suffix_nil.1 hplace) hne

/-! ## Outside the scope -/

theorem emits_keepCalls {place next : Place} {host : Host (Traced σ)} (h : host.scopes.KeepCalls)
    {turn : Turn (Traced σ)} (hstands : Stands place turn next) (hrecorded : turn.Recorded) :
    Emits (host.perform turn.move) fun after _ => after.scopes.KeepCalls := by
  obtain ⟨layers, hlayers⟩ := h
  obtain ⟨scopes, report⟩ := host
  cases hstands with
  | enter index _ name =>
    have hempty : (Scope.empty : Scope (Traced σ)).Recorded fun _ => [] := fun _ => .nil
    exact Emits.pure ⟨_, .group hempty hlayers⟩
  | test index _ name body =>
    -- All open scopes are outside a place in them.
    have hplace : ¬ (0 :: place) <:+ place := not_cons_suffix (List.suffix_refl _)
    have houter : Outer (0 :: place) place (Host.mk scopes report).scopes scopes :=
      .outside hplace scopes
    obtain ⟨next, hrun, hnext⟩ := houter.runTest name hrecorded
    show Emits (Host.runTest ⟨scopes, report⟩ name body) _
    rw [hrun]
    refine Emits.bind hlayers.emits_start fun out calls hout => ?_
    refine (hnext out ⟨layers, hout.1⟩).mono fun after more hafter => ?_
    rw [hafter.1.eq_of_outside hplace]
    exact ⟨layers, hout.1⟩
  | attach index _ point callback =>
    refine Emits.pure ?_
    cases hlayers with
    | root own => exact ⟨_, .root (own.attach hrecorded)⟩
    | group own others => exact ⟨_, .group (own.attach hrecorded) others⟩
  | note index _ record =>
    exact Emits.bind (Emits.log record) fun _ _ _ => Emits.pure ⟨layers, hlayers⟩
  | leave index =>
    cases hlayers with
    | root own => exact Emits.pure ⟨_, .root own⟩
    | group own others =>
      exact Emits.bind (own.emits_close _ report) fun _ _ _ => Emits.pure ⟨_, others⟩
  | finish =>
    cases hlayers with
    | root own => exact Emits.bind (own.emits_close _ report) fun _ _ _ => Emits.pure ⟨_, .root own⟩
    | group own others =>
      exact Emits.bind (own.emits_close _ report) fun _ _ _ => Emits.pure ⟨_, .group own others⟩

/-! ## In lockstep -/

/-- Scopes that are set up alike, with hooks that reply the same. -/
structure Alike (scopes other : Scopes (Traced σ)) : Prop where
  related : (observing σ).OnScopes scopes other
  keep : scopes.KeepCalls
  keep' : other.KeepCalls

def Lockstep (scope place : Place) (scopes other : Scopes (Traced σ)) : Prop :=
  ∃ outer outer', Outer scope place scopes outer ∧ Outer scope place other outer' ∧
    Alike outer outer'

/-- Two turns that look the same from outside the scope, and what they leave open. -/
def InStep (scope next : Place) (host other : Host (Traced σ)) (turn turn' : Turn (Traced σ))
    (after : Host (Traced σ)) (calls : List Call) (after' : Host (Traced σ)) (calls' : List Call) :
    Prop :=
  (scene host after turn calls).outside scope = (scene other after' turn' calls').outside scope ∧
    Lockstep scope next after.scopes after'.scopes

namespace Lockstep
variable {scope place next : Place} {host other : Host (Traced σ)}
  {turn turn' : Turn (Traced σ)}

theorem enter (h : Lockstep scope place host.scopes other.scopes) (index : Nat) (name : String) :
    Together (InStep scope (index :: place) host other ⟨index :: place, .enter name⟩
        ⟨index :: place, .enter name⟩)
      (host.perform (.enter name)) (other.perform (.enter name)) := by
  obtain ⟨outer, outer', houter, houter', halike⟩ := h
  have hentered : Lockstep scope (index :: place) (host.enter name).scopes
      (other.enter name).scopes := by
    by_cases hin : scope <:+ index :: place
    · exact ⟨outer, outer', .inside hin .empty houter, .inside hin .empty houter', halike⟩
    · have hplace : ¬ scope <:+ place := fun hplace => hin (hplace.trans (List.suffix_cons _ _))
      obtain rfl := houter.eq_of_outside hplace
      obtain rfl := houter'.eq_of_outside hplace
      have hempty : (Scope.empty : Scope (Traced σ)).Recorded fun _ => [] := fun _ => .nil
      obtain ⟨layers, hlayers⟩ := halike.keep
      obtain ⟨layers', hlayers'⟩ := halike.keep'
      exact ⟨_, _, .outside hin _, .outside hin _, .group name .empty halike.related,
        ⟨_, .group hempty hlayers⟩, ⟨_, .group hempty hlayers'⟩⟩
  have houtcomes : ∀ host : Host (Traced σ),
      (host.enter name).report.outcomes.drop host.report.outcomes.length = [] :=
    fun host => List.drop_length
  refine (Together.of_emits (Emits.pure_eq (host.enter name)) (Emits.pure_eq (other.enter name))).mono
    fun after calls after' calls' hboth => ?_
  obtain ⟨⟨rfl, rfl⟩, rfl, rfl⟩ := hboth
  refine ⟨Scene.outside_congr rfl rfl ?_, hentered⟩
  exact (houtcomes host).trans (houtcomes other).symm

theorem test_inside (h : Lockstep scope place host.scopes other.scopes) (hplace : scope <:+ place)
    (index : Nat) (name : String) {body body' : Callback (Traced σ)}
    (hbody : Records (index :: place) .body body) (hbody' : Records (index :: place) .body body') :
    Together (InStep scope place host other ⟨index :: place, .test name body⟩
        ⟨index :: place, .test name body'⟩)
      (host.perform (.test name body)) (other.perform (.test name body')) := by
  obtain ⟨outer, outer', houter, houter', hrelated, ⟨layers, hlayers⟩, ⟨layers', hlayers'⟩⟩ := h
  obtain ⟨rest, hrun, hrest⟩ := houter.runTest name hbody
  obtain ⟨rest', hrun', hrest'⟩ := houter'.runTest name hbody'
  show Together _ (host.runTest name body) (other.runTest name body')
  rw [hrun, hrun']
  have hstart := (Together.of_relates hrelated.start).and_emits hlayers.emits_start
    hlayers'.emits_start
  refine hstart.bind fun out calls out' calls' hout => ?_
  obtain ⟨⟨⟨hopened, -⟩, rfl⟩, ⟨hkeep, -⟩, hkeep', -⟩ := hout
  refine (Together.of_emits (hrest out ⟨layers, hkeep⟩) (hrest' out' ⟨layers', hkeep'⟩)).mono ?_
  intro after more after' more' hboth
  obtain ⟨⟨hafter, hmore⟩, hafter', hmore'⟩ := hboth
  refine ⟨Scene.outside_congr_inside rfl (hplace.trans (List.suffix_cons _ _)) ?_, out.1, out'.1,
    hafter, hafter', hopened, ⟨layers, hkeep⟩, ⟨layers', hkeep'⟩⟩
  show (calls ++ more).filter _ = (calls ++ more').filter _
  rw [List.filter_append, List.filter_append, filter_of_hidden hmore, filter_of_hidden hmore']

theorem perform_inside (h : Lockstep scope place host.scopes other.scopes)
    (hplace : scope <:+ place) (hne : scope ≠ []) (hstands : Stands place turn next)
    (hmended : MendedTurn scope turn turn') (hrecorded : turn.Recorded)
    (hrecorded' : turn'.Recorded) :
    Together (InStep scope next host other turn turn') (host.perform turn.move)
      (other.perform turn'.move) := by
  by_cases hkind : turn.move.kind = .test
  · cases hstands with
    | test index _ name body =>
      cases hmended with
      | same _ hmove =>
        cases hmove with
        | test _ hbody => exact h.test_inside hplace index name hrecorded hrecorded'
    | _ => exact nomatch hkind
  · have hkind' : turn'.move.kind ≠ .test := by
      rwa [← show turn.move.kind = turn'.move.kind from congrArg Prod.snd hmended.mark_eq]
    obtain ⟨outer, outer', houter, houter', halike⟩ := h
    refine (Together.of_emits (houter.emits_perform hplace hne hstands hrecorded hkind)
      (houter'.emits_perform hplace hne (hmended.stands hstands) hrecorded' hkind')).mono ?_
    intro after calls after' calls' hboth
    obtain ⟨⟨hafter, hcalls⟩, hafter', hcalls'⟩ := hboth
    refine ⟨Scene.outside_congr_inside hmended.mark_eq (hplace.trans hstands.suffix_place) ?_,
      outer, outer', hafter, hafter', halike⟩
    exact (filter_of_hidden hcalls).trans (filter_of_hidden hcalls').symm

/-- Turns that do not open a scope, outside. -/
theorem perform_same (h : Lockstep scope place host.scopes other.scopes)
    (hplace : ¬ scope <:+ place) (hnext : ¬ scope <:+ next) (hstands : Stands place turn next)
    (hmended : MendedTurn scope turn turn') (hmove : (observing σ).OnMove turn.move turn'.move)
    (hrecorded : turn.Recorded) (hrecorded' : turn'.Recorded) :
    Together (InStep scope next host other turn turn') (host.perform turn.move)
      (other.perform turn'.move) := by
  obtain ⟨outer, outer', houter, houter', halike⟩ := h
  obtain rfl := houter.eq_of_outside hplace
  obtain rfl := houter'.eq_of_outside hplace
  have hkeep := emits_keepCalls halike.keep hstands hrecorded
  have hkeep' := emits_keepCalls halike.keep' (hmended.stands hstands) hrecorded'
  refine ((Together.of_relates (Relator.perform halike.related hmove)).and_emits hkeep hkeep').mono ?_
  intro after calls after' calls' hall
  obtain ⟨⟨⟨hscopes, outcomes, hreport, hreport'⟩, rfl⟩, hafter, hafter'⟩ := hall
  refine ⟨Scene.outside_congr hmended.mark_eq rfl ?_, _, _, .outside hnext _, .outside hnext _,
    hscopes, hafter, hafter'⟩
  rw [scene, scene, hreport, hreport', List.drop_left, List.drop_left]

theorem perform_outside (h : Lockstep scope place host.scopes other.scopes)
    (hplace : ¬ scope <:+ place) (hstands : Stands place turn next)
    (hmended : MendedTurn scope turn turn') (hrecorded : turn.Recorded)
    (hrecorded' : turn'.Recorded) :
    Together (InStep scope next host other turn turn') (host.perform turn.move)
      (other.perform turn'.move) := by
  cases hmended with
  | setup index =>
    cases hstands with
    | attach => exact absurd (List.suffix_refl _) hplace
  | same _ hmove =>
    by_cases hnext : scope <:+ next
    · cases hstands with
      | enter index _ name =>
        cases hmove with
        | enter => exact h.enter index name
      | test | attach | note | finish => exact absurd hnext hplace
      | leave index => exact absurd (hnext.trans (List.suffix_cons _ _)) hplace
    · exact h.perform_same hplace hnext hstands (.same _ hmove) hmove hrecorded hrecorded'

theorem perform (h : Lockstep scope place host.scopes other.scopes) (hne : scope ≠ [])
    (hstands : Stands place turn next) (hmended : MendedTurn scope turn turn')
    (hrecorded : turn.Recorded) (hrecorded' : turn'.Recorded) :
    Together (InStep scope next host other turn turn') (host.perform turn.move)
      (other.perform turn'.move) := by
  by_cases hplace : scope <:+ place
  · exact h.perform_inside hplace hne hstands hmended hrecorded hrecorded'
  · exact h.perform_outside hplace hstands hmended hrecorded hrecorded'

end Lockstep

/-- Two runs whose turns differ only in the setup of a scope look the same from outside. -/
theorem outside_scenes {scope place last : Place} (hne : scope ≠ [])
    {turns others : List (Turn (Traced σ))} (hwalk : Walk place turns last)
    (hmended : List.Forall₂ (MendedTurn scope) turns others)
    (hrecorded : ∀ turn ∈ turns, turn.Recorded) (hrecorded' : ∀ turn ∈ others, turn.Recorded)
    {host other : Host (Traced σ)} (h : Lockstep scope place host.scopes other.scopes)
    (session session' : Session (Traced σ)) :
    (scenes host session turns).map (Scene.outside scope) =
      (scenes other session' others).map (Scene.outside scope) := by
  induction hwalk generalizing others host other session session' with
  | nil place =>
    cases hmended with
    | nil => rfl
  | @cons place next last turn rest first hrest ih =>
    cases hmended with
    | @cons _ turn' _ rest' hturn hothers =>
      obtain ⟨calls, calls', hcalls, hcalls', hsame, hnext⟩ := h.perform hne first hturn
        (hrecorded turn List.mem_cons_self) (hrecorded' turn' List.mem_cons_self) session session'
      rw [scenes, scenes, List.map_cons, List.map_cons, hcalls, hcalls', List.drop_left,
        List.drop_left, hsame]
      refine congrArg _ (ih hothers ?_ ?_ hnext _ _)
      · exact fun turn hturn => hrecorded turn (List.mem_cons_of_mem _ hturn)
      · exact fun turn hturn => hrecorded' turn (List.mem_cons_of_mem _ hturn)

end Host

end Stepbook
