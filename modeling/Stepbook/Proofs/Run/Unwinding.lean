import Stepbook.Proofs.Run.Root
import Stepbook.Proofs.Run.Scene

/-! # What a declaration leaves of a host

Whatever the hooks in a group do, and wherever its body stops, the group is left as it was entered: it
ends as its body does, and the open scopes hold the names and the hooks that they held before.

* `Frame`, `Scopes.frames`: the open scopes, but for how far they are set up.
* `Contained`: what is declared in a scope leaves the scopes around it as they are.
* `Unwound`: a group that has been left leaves all open scopes as they are.
* `ensures_declare`, `ensures_group`: they do so, and the report only grows at its end.
-/

namespace Stepbook.Host
set_option autoImplicit false

variable {σ : Type}

/-! ## Frames -/

structure Frame (σ : Type) where
  /-- The root has no name. -/
  name? : Option String
  hooks : HookPoint → List (Callback σ)

namespace Scopes

/-- The names and the hooks of the open scopes, the innermost first. -/
def frames : Scopes σ → List (Frame σ)
  | .root scope => [⟨none, scope.hooks⟩]
  | .group name scope outer => ⟨some name, scope.hooks⟩ :: outer.frames

theorem frames_ne_nil (scopes : Scopes σ) : scopes.frames ≠ [] := by
  cases scopes <;> exact List.cons_ne_nil _ _

theorem path_eq_names (scopes : Scopes σ) :
    scopes.path = (scopes.frames.filterMap Frame.name?).reverse := by
  induction scopes with
  | root scope => rfl
  | group name scope outer ih =>
    have hname : (Frame.mk (some name) scope.hooks).name? = some name := rfl
    rw [path, frames, List.filterMap_cons_some hname, List.reverse_cons, ih]

theorem path_congr {scopes other : Scopes σ} (h : scopes.frames = other.frames) :
    scopes.path = other.path := by
  rw [path_eq_names, path_eq_names, h]

theorem path_attach (scopes : Scopes σ) (point : HookPoint) (callback : Callback σ) :
    (scopes.attach point callback).path = scopes.path := by
  cases scopes <;> rfl

theorem tail_frames_attach (scopes : Scopes σ) (point : HookPoint) (callback : Callback σ) :
    (scopes.attach point callback).frames.tail = scopes.frames.tail := by
  cases scopes <;> rfl

end Scopes

/-! ## Tests -/

theorem ensures_startScope (scope : Scope σ) :
    Ensures scope.start fun next => next.hooks = scope.hooks := by
  rw [Scope.start.eq_def]
  cases scope.setup with
  | pending =>
    refine (Ensures.trivial _).bind fun result _ => ?_
    cases result with
    | ok value => exact Ensures.pure rfl
    | error error => exact Ensures.pure rfl
  | done => exact Ensures.pure rfl
  | failed error => exact Ensures.pure rfl

theorem ensures_start (scopes : Scopes σ) :
    Ensures scopes.start fun out => out.1.frames = scopes.frames := by
  induction scopes with
  | root scope =>
    refine (ensures_startScope scope).bind fun next hnext => Ensures.pure ?_
    rw [Scopes.frames, Scopes.frames, hnext]
  | group name scope outer ih =>
    refine ih.bind fun out hout => ?_
    obtain ⟨opened, result⟩ := out
    cases result with
    | ok value =>
      refine (ensures_startScope scope).bind fun next hnext => Ensures.pure ?_
      rw [Scopes.frames, Scopes.frames, hnext, hout]
    | error error =>
      refine Ensures.pure ?_
      rw [Scopes.frames, Scopes.frames, hout]

/-- A test adds one outcome, in the groups that are open. -/
theorem ensures_runTest (host : Host σ) (name : String) (body : Callback σ) :
    Ensures (host.runTest name body) fun next => next.scopes.frames = host.scopes.frames ∧
      ∃ status, next.report.outcomes =
        host.report.outcomes ++ [⟨host.scopes.path, name, status⟩] := by
  have hscopes : Ensures (host.scopes.runTest body) fun out =>
      out.1.frames = host.scopes.frames := by
    refine (ensures_start host.scopes).bind fun out hout => ?_
    obtain ⟨opened, result⟩ := out
    cases result with
    | ok value => exact (Ensures.trivial _).bind fun _ _ => Ensures.pure hout
    | error error => exact Ensures.pure hout
  refine hscopes.bind fun out hout => ?_
  refine (Ensures.trivial _).bind fun _ _ => Ensures.pure ⟨hout, .ofResult out.2, ?_⟩
  rw [← Scopes.path_congr hout]
  rfl

/-! ## Groups -/

structure Contained (host next : Host σ) : Prop where
  path : next.scopes.path = host.scopes.path
  outer : next.scopes.frames.tail = host.scopes.frames.tail
  report : host.report.outcomes <+: next.report.outcomes

structure Unwound (host next : Host σ) : Prop where
  frames : next.scopes.frames = host.scopes.frames
  frames_ne_nil : next.scopes.frames ≠ []
  report : host.report.outcomes <+: next.report.outcomes

theorem Unwound.contained {host next : Host σ} (h : Unwound host next) : Contained host next :=
  ⟨Scopes.path_congr h.frames, by rw [h.frames], h.report⟩

namespace Contained
variable {host middle next : Host σ} {name : String}

theorem refl (host : Host σ) : Contained host host :=
  ⟨rfl, rfl, List.prefix_refl _⟩

theorem trans (h : Contained host middle) (h' : Contained middle next) : Contained host next :=
  ⟨h'.path.trans h.path, h'.outer.trans h.outer, h.report.trans h'.report⟩

/-- A group is still open where its body ends. -/
theorem exists_group (h : Contained (host.enter name) next) :
    ∃ scope outer, next.scopes = .group name scope outer ∧ outer.frames = host.scopes.frames := by
  obtain ⟨scopes, report⟩ := next
  have houter : scopes.frames.tail = host.scopes.frames := h.outer
  have hpath : scopes.path = host.scopes.path ++ [name] := h.path
  cases scopes with
  | root scope => exact absurd houter.symm host.scopes.frames_ne_nil
  | group other scope outer =>
    rw [Scopes.path] at hpath
    obtain ⟨-, hname⟩ := List.append_inj' hpath rfl
    obtain rfl := List.singleton_inj.1 hname
    exact ⟨scope, outer, rfl, houter⟩

theorem ensures_leave (h : Contained (host.enter name) next) : Ensures next.leave (Unwound host) := by
  obtain ⟨scope, outer, hscopes, hframes⟩ := h.exists_group
  obtain ⟨scopes, report⟩ := next
  obtain rfl : scopes = .group name scope outer := hscopes
  have hclose : Ensures (close (Scopes.group name scope outer).path scope report) fun after =>
      report.outcomes <+: after.outcomes := outcomes_close _ scope report
  exact hclose.bind fun after hafter =>
    Ensures.pure ⟨hframes, outer.frames_ne_nil, h.report.trans hafter⟩

end Contained

/-! ## Declarations -/

theorem ensures_result (host : Host σ) (declaration : Declaration σ) :
    Ensures (declare host declaration) fun out => out.2 = declaration.result := by
  rw [declare_eq host [] declaration]
  exact (Ensures.trivial _).bind fun _ _ => Ensures.pure rfl

mutual

theorem ensures_declare : (declaration : Declaration σ) → (host : Host σ) →
    Ensures (declare host declaration) fun out => Contained host out.1
  | .group name body, host => by
    rw [declare]
    refine (ensures_declareAll body (host.enter name)).bind fun out hout => ?_
    exact hout.ensures_leave.bind fun next hnext => Ensures.pure hnext.contained
  | .test name body, host => by
    rw [declare]
    refine (ensures_runTest host name body).bind fun next hnext => Ensures.pure ?_
    obtain ⟨hframes, status, hreport⟩ := hnext
    exact ⟨Scopes.path_congr hframes, congrArg List.tail hframes, hreport ▸ List.prefix_append _ _⟩
  | .hook point callback, host => by
    rw [declare]
    exact Ensures.pure ⟨host.scopes.path_attach point callback,
      host.scopes.tail_frames_attach point callback, List.prefix_refl _⟩
  | .stop error, host => by
    rw [declare]
    exact Ensures.pure (.refl host)
  | .note record, host => by
    rw [declare]
    exact (Ensures.trivial _).bind fun _ _ => Ensures.pure (.refl host)

theorem ensures_declareAll : (declarations : List (Declaration σ)) → (host : Host σ) →
    Ensures (declareAll host declarations) fun out => Contained host out.1
  | [], host => by
    rw [declareAll]
    exact Ensures.pure (.refl host)
  | declaration :: rest, host => by
    rw [declareAll]
    refine (ensures_declare declaration host).bind fun out hout => ?_
    obtain ⟨next, result⟩ := out
    cases result with
    | ok value => exact fun session => hout.trans (ensures_declareAll rest next session)
    | error error => exact Ensures.pure hout

end

theorem ensures_group (host : Host σ) (name : String) (body : List (Declaration σ)) :
    Ensures (declare host (.group name body)) fun out => Unwound host out.1 := by
  rw [declare]
  refine (ensures_declareAll body (host.enter name)).bind fun out hout => ?_
  exact hout.ensures_leave.bind fun next hnext => Ensures.pure hnext

end Stepbook.Host
