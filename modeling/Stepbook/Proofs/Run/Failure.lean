import Mathlib.Tactic.FinCases
import Stepbook.Proofs.Run.Domination
import Stepbook.Proofs.Run.Lockstep

/-! # A failed setup

Once a `beforeAll` hook of a scope has failed, all tests in that scope end with its failure, and for
them nothing is called but the hooks that set up the scopes around; outside the scope, nothing changes.

* `outside_chronicle`: a run, and the one in which the setup succeeds, from outside the scope.
* `setup_failure`: what a failed setup does to a run, and what it does not.
-/

namespace Stepbook.Host
set_option autoImplicit false

variable {σ : Type}

/-! ## From outside -/

theorem Scene.outside_root (scene : Scene) : scene.outside [] = (scene.entry.mark, [], []) := by
  have hhidden : ∀ call ∈ scene.entry.calls, Hidden [] call := fun _ _ _ => List.nil_suffix
  rw [outside, if_pos List.nil_suffix, filter_of_hidden hhidden]

theorem map_mark_scenes (host : Host (Traced σ)) (session : Session (Traced σ))
    (turns : List (Turn (Traced σ))) :
    (scenes host session turns).map (fun scene => scene.entry.mark) = turns.map Turn.mark := by
  rw [← map_mark_entries host session turns, ← map_entry_scenes, List.map_map]
  rfl

theorem map_outside_root (host : Host (Traced σ)) (session : Session (Traced σ))
    (turns : List (Turn (Traced σ))) :
    (scenes host session turns).map (Scene.outside []) =
      (turns.map Turn.mark).map fun mark => (mark, [], []) := by
  rw [← map_mark_scenes host session turns, List.map_map]
  exact List.map_congr_left fun scene _ => scene.outside_root

theorem lockstep_empty {scope : Place} (hne : scope ≠ []) :
    Lockstep scope [] (empty : Host (Traced σ)).scopes (empty : Host (Traced σ)).scopes := by
  have hplace : ¬ scope <:+ [] := fun h => hne (List.suffix_nil.1 h)
  have hkeep : (empty : Host (Traced σ)).scopes.KeepCalls := ⟨[fun _ => []], .root fun _ => .nil⟩
  exact ⟨_, _, .outside hplace _, .outside hplace _, .root .empty, hkeep, hkeep⟩

/-- From outside a scope, a run looks the same as if all hooks that set up that scope succeeded. -/
theorem outside_chronicle (declarations : List (Declaration σ)) (session : Session σ)
    (h : ∀ turn ∈ Declaration.schedule declarations, turn.Memoryless) (scope : Place) :
    (chronicle declarations session).map (Scene.outside scope) =
      (chronicle (Declaration.mendedAll scope [] 0 declarations) session).map
        (Scene.outside scope) := by
  have hmended := Declaration.mended_schedule scope declarations h
  rw [chronicle, chronicle]
  by_cases hne : scope = []
  · subst hne
    have hmarks : ∀ {turns others : List (Turn (Traced σ))},
        List.Forall₂ (MendedTurn []) turns others → turns.map Turn.mark = others.map Turn.mark := by
      intro turns others hturns
      induction hturns with
      | nil => rfl
      | cons first rest ih => rw [List.map_cons, List.map_cons, first.mark_eq, ih]
    rw [map_outside_root, map_outside_root, hmarks hmended]
  · exact outside_scenes hne (Declaration.walk_schedule _) hmended
      (Declaration.recorded_schedule declarations) (Declaration.recorded_schedule _)
      (lockstep_empty hne) _ _

/-! ## Whole runs -/

/-- What a failing setup does to a run, and what it does not. The run is the one that is observed:
where its callbacks keep their calls, it ends as it does otherwise, with the calls and the outcomes of
its scenes. -/
theorem setup_failure (declarations : List (Declaration σ)) (session : Session σ) :
    complete (Declaration.tracedAll [] 0 declarations) (session.keeping []) =
        ((complete declarations session).1, (complete declarations session).2.keeping
          ((chronicle declarations session).flatMap fun scene => scene.entry.calls)) ∧
      (complete declarations session).1.outcomes =
        (chronicle declarations session).flatMap Scene.outcomes ∧
      (∀ past failing rest scope error,
        chronicle declarations session = past ++ failing :: rest →
          failing.entry.Fails scope error → Dominates past failing rest scope error) ∧
      ((∀ turn ∈ Declaration.schedule declarations, turn.Memoryless) → ∀ scope,
        (chronicle declarations session).map (Scene.outside scope) =
          (chronicle (Declaration.mendedAll scope [] 0 declarations) session).map
            (Scene.outside scope)) := by
  obtain ⟨-, hcomplete⟩ := history_sound declarations session
  refine ⟨?_, ?_, fun past failing rest scope error heq hfails => ?_,
    outside_chronicle declarations session⟩
  · rw [hcomplete, ← map_entry_chronicle, List.flatMap_map]
  · have hreport := report_performAll empty (session.keeping [])
      (Declaration.schedule (Declaration.tracedAll [] 0 declarations))
    rw [← chronicle] at hreport
    have hobserved : (complete (Declaration.tracedAll [] 0 declarations)
        (session.keeping [])).1.outcomes = (chronicle declarations session).flatMap Scene.outcomes := by
      rw [complete_eq]
      exact hreport
    rw [← hobserved, hcomplete]
  · exact chronicle_dominates declarations session heq hfails

/-- A group whose setup fails, with a group in it, among tests of the root. -/
def brokenGroup : List (Declaration Nat) :=
  [.hook .beforeEach .nothing,
    .group "broken" [
      .hook .beforeAll fun session => (.error (.failed "setup"), session),
      .hook .afterAll .nothing,
      .group "inner" [.hook .beforeAll .nothing, .test "deep" .nothing],
      .test "second" .nothing],
    .test "apart" .nothing]

instance (entry : Entry) (scope : Place) (error : StepError) : Decidable (entry.Fails scope error) :=
  inferInstanceAs (Decidable (∃ call ∈ entry.calls, _))

theorem setup_failure_brokenGroup :
    ∃ past failing rest, chronicle brokenGroup ⟨0, []⟩ = past ++ failing :: rest ∧
      failing.entry.Fails [1] (.failed "setup") ∧
      Dominates past failing rest [1] (.failed "setup") ∧
      (∀ turn ∈ Declaration.schedule brokenGroup, turn.Memoryless) ∧
      ∀ scope, (chronicle brokenGroup ⟨0, []⟩).map (Scene.outside scope) =
        (chronicle (Declaration.mendedAll scope [] 0 brokenGroup) ⟨0, []⟩).map
          (Scene.outside scope) := by
  have hfailing : ∃ failing ∈ chronicle brokenGroup ⟨0, []⟩,
      failing.entry.Fails [1] (.failed "setup") := by decide
  obtain ⟨failing, hmem, hfails⟩ := hfailing
  obtain ⟨past, rest, heq⟩ := List.append_of_mem hmem
  have hmemoryless : ∀ turn ∈ Declaration.schedule brokenGroup, turn.Memoryless := by
    intro turn hturn
    fin_cases hturn
    all_goals first | trivial | exact ⟨_, fun _ => rfl⟩
  obtain ⟨-, -, hdominates, houtside⟩ := setup_failure brokenGroup ⟨0, []⟩
  exact ⟨past, failing, rest, heq, hfails, hdominates _ _ _ _ _ heq hfails, hmemoryless,
    houtside hmemoryless⟩

end Stepbook.Host
