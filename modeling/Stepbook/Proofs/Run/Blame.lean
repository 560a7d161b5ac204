import Stepbook.Proofs.Run.Lifecycle

/-! # The failure of a setup

Once a `beforeAll` hook of a scope has failed, the scope stands for that failure as long as it is
open, and every test in it ends with it.

* `Fails`: the failures that a history tells of.
* `Blames`: open scopes whose setups are the failures that the history tells of.
* `Opens.blames`, `Opens.result_eq`: what setting up scopes does to them, and how it ends.
* `upholds_blames`: every turn keeps it, and every test is blamed on the failure around it.
-/

namespace Stepbook.Host
set_option autoImplicit false

variable {σ : Type}

/-! ## Failures in a history -/

def Entry.Fails (entry : Entry) (scope : Place) (error : StepError) : Prop :=
  ∃ call ∈ entry.calls, call.role = .hook .beforeAll ∧ call.scope = scope ∧
    call.failure? = some error

def Fails (past : List Entry) (scope : Place) (error : StepError) : Prop :=
  ∃ entry ∈ past, entry.Fails scope error

theorem fails_concat {past : List Entry} {entry : Entry} {scope : Place} {error : StepError} :
    Fails (past ++ [entry]) scope error ↔ Fails past scope error ∨ entry.Fails scope error := by
  simp only [Fails, List.mem_append, List.mem_singleton, or_and_right, exists_or, exists_eq_left]

/-! ## Open scopes -/

/-- The setup of a scope is the failure that the history tells of, if it tells of one. -/
inductive Blames (past : List Entry) : Place → Scopes (Traced σ) → Prop where
  | root {scope : Scope (Traced σ)} (own : ∀ error, Fails past [] error → scope.setup = .failed error) :
      Blames past [] (.root scope)
  | group {index : Nat} {place : Place} {name : String} {scope : Scope (Traced σ)}
      {outer : Scopes (Traced σ)}
      (own : ∀ error, Fails past (index :: place) error → scope.setup = .failed error)
      (others : Blames past place outer) : Blames past (index :: place) (.group name scope outer)

namespace Blames
variable {past : List Entry} {place : Place} {scopes : Scopes (Traced σ)}

/-- A turn in which no setup fails. -/
theorem frame (h : Blames past place scopes) {entry : Entry}
    (hnone : ∀ scope error, ¬ entry.Fails scope error) : Blames (past ++ [entry]) place scopes := by
  have hpast : ∀ {scope : Place} {error : StepError}, Fails (past ++ [entry]) scope error →
      Fails past scope error := fun hfails =>
    (fails_concat.1 hfails).resolve_right (hnone _ _)
  induction h with
  | root own => exact .root fun error hfails => own error (hpast hfails)
  | group own others ih => exact .group (fun error hfails => own error (hpast hfails)) ih

theorem attach (h : Blames past place scopes) (point : HookPoint) (callback : Callback (Traced σ)) :
    Blames past place (scopes.attach point callback) := by
  cases h with
  | root own => exact .root own
  | group own others => exact .group own others

end Blames

/-! ## Setting up scopes -/

theorem Begins.blames {past : List Entry} {place : Place} {scope next : Scope (Traced σ)}
    {calls : List Call} (h : Begins past place scope next calls)
    (hown : ∀ error, Fails past place error → scope.setup = .failed error) {entry : Entry}
    (hentry : ∀ error, entry.Fails place error → ∃ call ∈ calls, call.failure? = some error)
    (error : StepError) (hfails : Fails (past ++ [entry]) place error) :
    next.setup = .failed error := by
  rcases fails_concat.1 hfails with hbefore | hnow
  · have hsetup := hown error hbefore
    cases h with
    | already started => exact hsetup
    | now pending inOrder =>
      rw [pending] at hsetup
      cases hsetup
  · obtain ⟨call, hcall, hfailure⟩ := hentry error hnow
    cases h with
    | already started => exact absurd hcall List.not_mem_nil
    | now pending inOrder => rw [inOrder.result_of_failure hcall hfailure, Setup.ofResult]

namespace Opens
variable {past : List Entry} {place : Place} {scopes next : Scopes (Traced σ)}
  {result : Except StepError Unit} {calls : List Call}

theorem blames (h : Opens past place scopes next result calls) (hblames : Blames past place scopes)
    {entry : Entry}
    (hentry : ∀ scope error, scope <:+ place → entry.Fails scope error →
      ∃ call ∈ calls, call.scope = scope ∧ call.failure? = some error) :
    Blames (past ++ [entry]) place next := by
  induction h with
  | root begins =>
    cases hblames with
    | root own =>
      refine .root fun error => begins.blames own (fun error hfails => ?_) error
      obtain ⟨call, hcall, -, hfailure⟩ := hentry _ error (List.suffix_refl _) hfails
      exact ⟨call, hcall, hfailure⟩
  | @group index place name scope changed outer opened calls own others begins ih =>
    cases hblames with
    | group hown houter =>
      refine .group (fun error => begins.blames hown (fun error hfails => ?_) error)
        (ih houter fun scope error hscope hfails => ?_)
      · obtain ⟨call, hcall, hscope, hfailure⟩ := hentry _ error (List.suffix_refl _) hfails
        refine ⟨call, (List.mem_append.1 hcall).resolve_left fun hcall => ?_, hfailure⟩
        exact cons_ne_of_suffix (others.scope_of_mem_calls call hcall) hscope.symm
      · obtain ⟨call, hcall, hown, hfailure⟩ :=
          hentry scope error (hscope.trans (List.suffix_cons _ _)) hfails
        refine ⟨call, (List.mem_append.1 hcall).resolve_right fun hcall => ?_, hown, hfailure⟩
        rw [← hown, (begins.of_mem_calls call hcall).2.1] at hscope
        exact not_cons_suffix (List.suffix_refl _) hscope
  | @failed index place name scope outer opened calls error others ih =>
    cases hblames with
    | group hown houter =>
      refine .group (fun error hfails => ?_) (ih houter fun scope error hscope hfails => ?_)
      · refine hown error ((fails_concat.1 hfails).resolve_right fun hnow => ?_)
        obtain ⟨call, hcall, hscope, -⟩ := hentry _ error (List.suffix_refl _) hnow
        exact cons_ne_of_suffix (others.scope_of_mem_calls call hcall) hscope.symm
      · exact hentry scope error (hscope.trans (List.suffix_cons _ _)) hfails

/-- Where setting up scopes ends with an error, one of them is not ready. -/
theorem exists_not_ready (h : Opens past place scopes next result calls) {error : StepError}
    (hresult : result = .error error) {now : List Entry} (hagrees : Agrees now place next) :
    ∃ scope, scope <:+ place ∧ ¬ Ready now scope := by
  have hsetup : ∀ {changed : Scope (Traced σ)}, changed.ready = .error error →
      changed.setup ≠ .done := by
    intro changed hready hdone
    rw [Scope.ready.eq_def, hdone] at hready
    cases hready
  induction h with
  | root begins =>
    cases hagrees with
    | root own => exact ⟨[], List.suffix_refl _, fun h => hsetup hresult (own.ready.2 h)⟩
  | group others begins ih =>
    cases hagrees with
    | group own nested houter =>
      exact ⟨_, List.suffix_refl _, fun h => hsetup hresult (own.ready.2 h)⟩
  | failed others ih =>
    cases hagrees with
    | group own nested houter =>
      obtain ⟨scope, hscope, hnot⟩ := ih hresult houter
      exact ⟨scope, hscope.trans (List.suffix_cons _ _), hnot⟩

/-- It ends with the failure of the one scope that has failed. -/
theorem result_eq (h : Opens past place scopes next result calls) {now : List Entry}
    (hagrees : Agrees now place next) (hblames : Blames now place next)
    (hstarted : ∀ scope error, Fails now scope error → Started now scope) {scope : Place}
    {error : StepError} (hscope : scope <:+ place) (hfails : Fails now scope error) :
    result = .error error := by
  have hready : ∀ {changed : Scope (Traced σ)}, changed.setup = .failed error →
      changed.ready = .error error := by
    intro changed hsetup
    rw [Scope.ready.eq_def, hsetup]
  induction h with
  | root begins =>
    obtain rfl := List.suffix_nil.1 hscope
    cases hblames with
    | root own => exact hready (own error hfails)
  | group others begins ih =>
    cases hblames with
    | group own bouter =>
      cases hagrees with
      | group _ nested houter =>
        rcases List.suffix_cons_iff.1 hscope with rfl | hscope
        · exact hready (own error hfails)
        · cases ih houter bouter hscope
  | failed others ih =>
    cases hblames with
    | group own bouter =>
      cases hagrees with
      | group _ nested houter =>
        rcases List.suffix_cons_iff.1 hscope with rfl | hscope
        · obtain ⟨other, hother, hnot⟩ := others.exists_not_ready rfl houter
          exact absurd (nested (hstarted _ error hfails) other hother) hnot
        · exact ih houter bouter hscope

end Opens

/-! ## Turns -/

theorem Sound.mem_starts_of_fails {past : List Entry} {entry : Entry} (h : Sound past entry)
    {scope : Place} {error : StepError} (hfails : entry.Fails scope error) : scope ∈ entry.starts := by
  obtain ⟨call, hcall, hrole, rfl, -⟩ := hfails
  exact h.beforeAll_only call hcall hrole

theorem Sound.not_fails {past : List Entry} {entry : Entry} (h : Sound past entry)
    (hkind : entry.kind ≠ .test) (scope : Place) (error : StepError) : ¬ entry.Fails scope error :=
  fun hfails => hkind ((h.starts_iff scope).1 (h.mem_starts_of_fails hfails)).1.1

/-- What a host knows of the history, failures included. -/
structure Informed (past : List Entry) (place : Place) (host : Host (Traced σ)) : Prop where
  agrees : Agrees past place host.scopes
  grounded : Grounded past
  started : ∀ scope error, Fails past scope error → Started past scope
  blames : Blames past place host.scopes

/-- A test ends with the failure of a scope around it. -/
def Blamed (past : List Entry) (scene : Scene) : Prop :=
  ∀ scope error, scene.entry.IsTestIn scope → Fails (past ++ [scene.entry]) scope error →
    scene.outcomes.map Outcome.status = [.failed error]

theorem started_of_fails {past : List Entry} {entry : Entry} (hsound : Sound past entry)
    (h : ∀ scope error, Fails past scope error → Started past scope) (scope : Place)
    (error : StepError) (hfails : Fails (past ++ [entry]) scope error) :
    Started (past ++ [entry]) scope := by
  rw [started_concat]
  exact (fails_concat.1 hfails).imp (h scope error) hsound.mem_starts_of_fails

theorem blamed_of_ne_test {past : List Entry} {scene : Scene} (hkind : scene.entry.kind ≠ .test) :
    Blamed past scene :=
  fun _ _ htest _ => absurd htest.1 hkind

namespace Informed
variable {past : List Entry} {place next : Place} {host : Host (Traced σ)}

/-- What is left to be shown of a turn that is sound. -/
theorem perform_of_blames (h : Informed past place host) {turn : Turn (Traced σ)}
    (hkeeps : Keeps past host turn next)
    (hblames : Emits (host.perform turn.move) fun after calls =>
      Sound past (entry host after turn calls) →
      Agrees (past ++ [entry host after turn calls]) next after.scopes →
      Blames (past ++ [entry host after turn calls]) next after.scopes ∧
        Blamed past (scene host after turn calls)) :
    Emits (host.perform turn.move) fun after calls =>
      Blamed past (scene host after turn calls) ∧
        Informed (past ++ [entry host after turn calls]) next after := by
  refine (hkeeps.and hblames).mono fun after calls hboth => ?_
  obtain ⟨⟨hsound, hagrees⟩, hblamed⟩ := hboth
  obtain ⟨hblames, hmeets⟩ := hblamed hsound hagrees
  exact ⟨hmeets, hagrees, h.grounded.concat hsound, started_of_fails hsound h.started, hblames⟩

/-- A turn that is no test, by the scopes that are open after it. -/
theorem perform_of_ne_test (h : Informed past place host) {turn : Turn (Traced σ)}
    (hkeeps : Keeps past host turn next) (hkind : turn.move.kind ≠ .test)
    (hblames : ∀ session, Blames past next (host.perform turn.move session).1.scopes) :
    Emits (host.perform turn.move) fun after calls =>
      Blamed past (scene host after turn calls) ∧
        Informed (past ++ [entry host after turn calls]) next after := by
  have hboth : Emits (host.perform turn.move) fun after calls => _ ∧ Blames past next after.scopes :=
    hkeeps.and_result hblames
  refine h.perform_of_blames hkeeps (hboth.mono fun after calls hboth hsound _ => ?_)
  exact ⟨hboth.2.frame (hsound.not_fails hkind), blamed_of_ne_test hkind⟩

theorem emits_blames (h : Informed past place host) (index : Nat) (name : String) {body : Callback (Traced σ)}
    (hbody : Records (index :: place) .body body) :
    Emits (host.runTest name body) fun after calls =>
      Sound past (entry host after ⟨index :: place, .test name body⟩ calls) →
      Agrees (past ++ [entry host after ⟨index :: place, .test name body⟩ calls]) place after.scopes →
      Blames (past ++ [entry host after ⟨index :: place, .test name body⟩ calls]) place after.scopes ∧
        Blamed past (scene host after ⟨index :: place, .test name body⟩ calls) := by
  refine (h.agrees.emits_runTest hbody).mono fun after calls hcalls hsound hagrees => ?_
  obtain ⟨result, opening, each, rfl, htests, status, hreport, hstatus⟩ := hcalls
  have hblames : Blames (past ++
      [entry host after ⟨index :: place, .test name body⟩ (opening ++ each)]) place after.scopes := by
    refine htests.opens.blames h.blames fun scope error hscope hfails => ?_
    obtain ⟨call, hcall, hrole, hown, hfailure⟩ := hfails
    refine ⟨call, (List.mem_append.1 hcall).resolve_right fun hcall => ?_, hown, hfailure⟩
    exact htests.areEach.ne_beforeAll call hcall hrole
  refine ⟨hblames, fun scope error htest hfails => ?_⟩
  have hscope : scope <:+ place := suffix_cons_and_ne.1 htest.2
  have hresult := htests.opens.result_eq hagrees hblames (started_of_fails hsound h.started) hscope
    hfails
  rw [scene, hreport, Report.add, List.drop_left, hstatus error hresult]
  rfl

end Informed

theorem upholds_blames : Upholds (Informed (σ := σ)) Blamed where
  perform := by
    intro past place next host turn hstands hrecorded hfresh h
    have hkeeps := keeps_perform hstands h.agrees hrecorded hfresh h.grounded
    cases hstands with
    | enter index _ name =>
      refine h.perform_of_ne_test hkeeps nofun fun _ => .group (fun error hfails => ?_) h.blames
      obtain ⟨entry, hentry, hstarts⟩ := h.started _ error hfails
      exact absurd (h.grounded entry hentry _ hstarts) (hfresh rfl entry hentry)
    | test index _ name body =>
      exact h.perform_of_blames hkeeps (h.emits_blames index name hrecorded)
    | attach index _ point callback =>
      exact h.perform_of_ne_test hkeeps nofun fun _ => h.blames.attach point callback
    | note index _ record => exact h.perform_of_ne_test hkeeps nofun fun _ => h.blames
    | leave index =>
      refine h.perform_of_ne_test hkeeps nofun fun session => ?_
      obtain ⟨scopes, report⟩ := host
      have hblames : Blames past (index :: next) scopes := h.blames
      cases hblames with
      | group own others => exact others
    | finish => exact h.perform_of_ne_test hkeeps nofun fun _ => h.blames

/-- Every test of a run is blamed on the failure around it. -/
theorem chronicle_blamed (declarations : List (Declaration σ)) (session : Session σ) :
    AllMeet Blamed [] (chronicle declarations session) := by
  have hnone : ∀ entry ∈ ([] : List Entry), False := fun _ hentry => absurd hentry List.not_mem_nil
  have hempty : ∀ scope error, ¬ Fails [] scope error := by
    rintro scope error ⟨entry, hentry, -⟩
    exact hnone entry hentry
  have hinformed : Informed [] [] (empty : Host (Traced σ)) := by
    refine ⟨agrees_empty, fun entry hentry => (hnone entry hentry).elim, ?_, .root ?_⟩
    · exact fun scope error hfails => absurd hfails (hempty scope error)
    · exact fun error hfails => absurd hfails (hempty [] error)
  exact (upholds_blames.run (Declaration.walk_schedule _) (session.keeping []) hinformed
    (Declaration.recorded_schedule declarations) (Declaration.fresh_schedule _)
    fun _ _ _ entry hentry => (hnone entry hentry).elim).1

end Stepbook.Host
