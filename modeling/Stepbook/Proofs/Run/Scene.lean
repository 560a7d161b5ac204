import Stepbook.Proofs.Run.Step

/-! # Scenes of runs

A scene is an entry of a history together with the outcomes that its turn adds to the report. What
each turn upholds, whatever its callbacks reply, holds of every scene of a run.

* `Scene`, `scenes`: the scenes of turns that a host takes one after another.
* `chronicle`: those of a whole run.
* `report_performAll`: the report of a run is what its scenes add.
* `Upholds`: an invariant of hosts, and what it makes each scene meet.
* `Upholds.run`: it does so over all turns.
-/

namespace Stepbook.Host
set_option autoImplicit false

variable {σ : Type}

/-! ## Scenes -/

structure Scene where
  entry : Entry
  outcomes : List Outcome
  deriving DecidableEq, Repr

def scene (host next : Host σ) (turn : Turn σ) (calls : List Call) : Scene where
  entry := entry host next turn calls
  outcomes := next.report.outcomes.drop host.report.outcomes.length

def scenes (host : Host (Traced σ)) (session : Session (Traced σ)) :
    List (Turn (Traced σ)) → List Scene
  | [] => []
  | turn :: rest =>
    let out := host.perform turn.move session
    scene host out.1 turn (out.2.memory.calls.drop session.memory.calls.length) ::
      scenes out.1 out.2 rest

/-- The scenes of a whole run. -/
def chronicle (declarations : List (Declaration σ)) (session : Session σ) : List Scene :=
  scenes empty (session.keeping [])
    (Declaration.schedule (Declaration.tracedAll [] 0 declarations))

/-! ## Reports -/

theorem outcomes_close (path : List String) (scope : Scope σ) (report : Report)
    (session : Session σ) : report.outcomes <+: (close path scope report session).1.outcomes := by
  simp only [close, bind, StateT.bind]
  obtain ⟨result, after⟩ := scope.finish session
  cases result with
  | ok value => exact List.prefix_refl _
  | error error => exact List.prefix_append _ _

/-- A turn only adds to the report. -/
theorem outcomes_perform (host : Host σ) (move : Move σ) (session : Session σ) :
    host.report.outcomes <+: (host.perform move session).1.report.outcomes := by
  cases move with
  | enter name => exact List.prefix_refl _
  | test name body => exact List.prefix_append _ _
  | attach point callback => exact List.prefix_refl _
  | note record => exact List.prefix_refl _
  | leave =>
    obtain ⟨scopes, report⟩ := host
    cases scopes with
    | root scope => exact List.prefix_refl _
    | group name scope outer => exact outcomes_close _ scope report session
  | finish =>
    obtain ⟨scopes, report⟩ := host
    cases scopes with
    | root scope => exact outcomes_close _ scope report session
    | group name scope outer => exact outcomes_close _ scope report session

/-- The report of a run is what its scenes add. -/
theorem report_performAll (host : Host (Traced σ)) (session : Session (Traced σ))
    (turns : List (Turn (Traced σ))) :
    (host.performAll turns session).1.report.outcomes =
      host.report.outcomes ++ (scenes host session turns).flatMap Scene.outcomes := by
  induction turns generalizing host session with
  | nil => exact (List.append_nil _).symm
  | cons turn rest ih =>
    obtain ⟨outcomes, houtcomes⟩ := outcomes_perform host turn.move session
    rw [performAll_cons_run, ih, scenes, List.flatMap_cons, ← houtcomes, scene, ← houtcomes,
      List.drop_left, List.append_assoc]

/-! ## What turns uphold -/

/-- Over a history, at the place that is open, an invariant is kept by each turn, and makes its scene
meet what it has to. -/
structure Upholds (invariant : List Entry → Place → Host (Traced σ) → Prop)
    (meets : List Entry → Scene → Prop) : Prop where
  perform : ∀ {past : List Entry} {place next : Place} {host : Host (Traced σ)}
    {turn : Turn (Traced σ)}, Stands place turn next → turn.Recorded →
    (turn.move.kind = .enter → ∀ entry ∈ past, ¬ turn.place <:+ entry.place) →
    invariant past place host →
    Emits (host.perform turn.move) fun after calls =>
      meets past (scene host after turn calls) ∧
        invariant (past ++ [entry host after turn calls]) next after

/-- Each scene of a run meets it after the history before that scene. -/
def AllMeet (meets : List Entry → Scene → Prop) (past : List Entry) (run : List Scene) : Prop :=
  ∀ before scene after, run = before ++ scene :: after →
    meets (past ++ before.map Scene.entry) scene

theorem AllMeet.cons {meets : List Entry → Scene → Prop} {past : List Entry} {run : List Scene}
    {scene : Scene} (first : meets past scene) (others : AllMeet meets (past ++ [scene.entry]) run) :
    AllMeet meets past (scene :: run) := by
  intro before later after heq
  cases before with
  | nil =>
    obtain ⟨rfl, -⟩ := List.cons.inj heq
    rwa [List.map_nil, List.append_nil]
  | cons head before =>
    obtain ⟨rfl, hrun⟩ := List.cons.inj heq
    have hmeets := others before later after hrun
    rwa [List.append_assoc] at hmeets

/-- All turns of a run, in new places; the calls of the run are those of its scenes. -/
theorem Upholds.run {invariant : List Entry → Place → Host (Traced σ) → Prop}
    {meets : List Entry → Scene → Prop} (h : Upholds invariant meets) {past : List Entry}
    {place last : Place} {turns : List (Turn (Traced σ))} (hwalk : Walk place turns last)
    {host : Host (Traced σ)} (session : Session (Traced σ)) (hinvariant : invariant past place host)
    (hrecorded : ∀ turn ∈ turns, turn.Recorded) (hfresh : Fresh turns)
    (hnew : ∀ turn ∈ turns, turn.move.kind ≠ .leave →
      ∀ entry ∈ past, ¬ turn.place <:+ entry.place) :
    AllMeet meets past (scenes host session turns) ∧
      (host.performAll turns session).2.memory.calls = session.memory.calls ++
        (scenes host session turns).flatMap fun scene => scene.entry.calls := by
  induction hwalk generalizing past host session with
  | nil place =>
    refine ⟨fun before scene after heq => ?_, (List.append_nil _).symm⟩
    exact absurd heq (List.append_ne_nil_of_right_ne_nil _ (List.cons_ne_nil _ _)).symm
  | @cons place next last turn rest first others ih =>
    obtain ⟨hsingle, hrest⟩ := List.pairwise_cons.1 hfresh
    have hentered : turn.move.kind = .enter → ∀ entry ∈ past, ¬ turn.place <:+ entry.place := by
      intro hkind
      refine hnew turn List.mem_cons_self ?_
      rw [hkind]
      exact nofun
    obtain ⟨calls, hcalls, hmeets, hnext⟩ :=
      h.perform first (hrecorded turn List.mem_cons_self) hentered hinvariant session
    obtain ⟨hall, hall_calls⟩ := ih (host.perform turn.move session).2 hnext
      (fun turn hturn => hrecorded turn (List.mem_cons_of_mem _ hturn)) hrest
      (by
        intro later hlater hkind entry hentry
        rcases List.mem_append.1 hentry with hentry | hentry
        · exact hnew later (List.mem_cons_of_mem _ hlater) hkind entry hentry
        · rw [List.mem_singleton.1 hentry]
          exact hsingle later hlater hkind)
    have hdrop : (host.perform turn.move session).2.memory.calls.drop session.memory.calls.length =
        calls := by
      rw [hcalls, List.drop_left]
    rw [scenes, hdrop]
    refine ⟨.cons hmeets hall, ?_⟩
    rw [performAll_cons_run, hall_calls, hcalls, List.flatMap_cons, ← List.append_assoc]
    rfl

end Stepbook.Host
