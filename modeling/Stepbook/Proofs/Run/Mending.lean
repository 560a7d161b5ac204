import Stepbook.Proofs.Run.Relator

/-! # Runs in which a setup succeeds

To say what a failing setup does not change, the run is compared with the one of the same
declarations in which all `beforeAll` hooks of that scope succeed.

* `Callback.Memoryless`: callbacks whose replies are not up to what has been done before.
* `Declaration.mendedAll`: declarations in which the setup of a scope succeeds.
* `observing`: actions that make the same calls, whatever the sessions.
* `MendedTurn`, `Declaration.mended_schedule`: the turns of both runs.
-/

namespace Stepbook
set_option autoImplicit false

variable {σ : Type}

/-! ## Callbacks -/

def Callback.Memoryless (callback : Callback σ) : Prop :=
  ∃ reply, ∀ session, (callback session).1 = reply

def Turn.Memoryless (turn : Turn σ) : Prop :=
  match turn.move with
  | .test _ body => body.Memoryless
  | .attach _ callback => callback.Memoryless
  | .enter _ | .note _ | .leave | .finish => True

/-- The callback that does the same, and succeeds. -/
def Callback.succeeding (callback : Callback σ) : Callback σ :=
  fun session => (.ok, (callback session).2)

/-! ## Declarations -/

namespace Declaration

mutual

/-- A declaration at a place, with the `beforeAll` hooks of a scope succeeding. -/
def mended (scope place : Place) : Declaration σ → Declaration σ
  | .group name body => .group name (mendedAll scope place 0 body)
  | .test name body => .test name body
  | .hook point callback =>
    .hook point (if point = .beforeAll ∧ place.tail = scope then callback.succeeding else callback)
  | .stop error => .stop error
  | .note record => .note record

/-- The declarations of a body, counted from an index on. -/
def mendedAll (scope around : Place) (index : Nat) :
    List (Declaration σ) → List (Declaration σ)
  | [] => []
  | declaration :: rest =>
    declaration.mended scope (index :: around) :: mendedAll scope around (index + 1) rest

end

end Declaration

/-! ## Turns -/

/-- Actions with related results, which make the same calls in any two sessions. -/
def observing (σ : Type) : Relator (Traced σ) (Traced σ) where
  Relates rel action other := ∀ session session', ∃ calls,
    (action session).2.memory.calls = session.memory.calls ++ calls ∧
    (other session').2.memory.calls = session'.memory.calls ++ calls ∧
    rel (action session).1 (other session').1
  pure h session session' := ⟨[], (List.append_nil _).symm, (List.append_nil _).symm, h⟩
  bind {_ _ _ _ _ _ action other next otherNext} first second session session' := by
    obtain ⟨calls, hcalls, hcalls', hrel⟩ := first session session'
    obtain ⟨more, hmore, hmore', hrel'⟩ := second _ _ hrel (action session).2 (other session').2
    refine ⟨calls ++ more, ?_, ?_, hrel'⟩
    · rw [← List.append_assoc, ← hcalls]
      exact hmore
    · rw [← List.append_assoc, ← hcalls']
      exact hmore'
  log _ _ _ := ⟨[], (List.append_nil _).symm, (List.append_nil _).symm, rfl⟩

theorem Callback.Memoryless.observing_traced {callback : Callback σ} (h : callback.Memoryless)
    (place : Place) (role : Role) :
    (observing σ).Same (callback.traced place role) (callback.traced place role) := by
  obtain ⟨reply, hreply⟩ := h
  intro session session'
  refine ⟨[⟨place, role, reply⟩], ?_, ?_, ?_⟩
  · rw [← hreply session.erase]
    rfl
  · rw [← hreply session'.erase]
    rfl
  · show (callback session.erase).1 = (callback session'.erase).1
    rw [hreply, hreply]

/-- Turns of both runs: only hooks that set up the scope may differ. -/
inductive MendedTurn (scope : Place) : Turn (Traced σ) → Turn (Traced σ) → Prop where
  | same (place : Place) {move other : Move (Traced σ)} (h : (observing σ).OnMove move other) :
      MendedTurn scope ⟨place, move⟩ ⟨place, other⟩
  | setup (index : Nat) (callback other : Callback (Traced σ)) :
      MendedTurn scope ⟨index :: scope, .attach .beforeAll callback⟩
        ⟨index :: scope, .attach .beforeAll other⟩

namespace MendedTurn
variable {scope place next : Place} {turn other : Turn (Traced σ)}

theorem mark_eq (h : MendedTurn scope turn other) : turn.mark = other.mark := by
  cases h with
  | same place hmove => cases hmove <;> rfl
  | setup => rfl

theorem stands (h : MendedTurn scope turn other) (hstands : Stands place turn next) :
    Stands place other next := by
  cases h with
  | same _ hmove => cases hmove <;> cases hstands <;> constructor
  | setup index => cases hstands; constructor

end MendedTurn

namespace Declaration

mutual

theorem result_traced (place : Place) : (declaration : Declaration σ) →
    (declaration.traced place).result = declaration.result
  | .group _ body => resultAll_traced place 0 body
  | .test _ _ | .hook _ _ | .stop _ | .note _ => rfl

theorem resultAll_traced (scope : Place) (index : Nat) : (declarations : List (Declaration σ)) →
    resultAll (tracedAll scope index declarations) = resultAll declarations
  | [] => rfl
  | declaration :: rest => by
    rw [tracedAll, resultAll, resultAll, result_traced, resultAll_traced]

end

mutual

theorem result_mended (scope place : Place) : (declaration : Declaration σ) →
    (declaration.mended scope place).result = declaration.result
  | .group _ body => resultAll_mended scope place 0 body
  | .test _ _ | .hook _ _ | .stop _ | .note _ => rfl

theorem resultAll_mended (scope around : Place) (index : Nat) :
    (declarations : List (Declaration σ)) →
    resultAll (mendedAll scope around index declarations) = resultAll declarations
  | [] => rfl
  | declaration :: rest => by
    rw [mendedAll, resultAll, resultAll, result_mended, resultAll_mended]

end

mutual

theorem mended_turns (scope around : Place) (index : Nat) : (declaration : Declaration σ) →
    (∀ turn ∈ declaration.turns (index :: around), turn.Memoryless) →
    List.Forall₂ (MendedTurn scope) ((declaration.traced (index :: around)).turns (index :: around))
      (((declaration.mended scope (index :: around)).traced (index :: around)).turns
        (index :: around))
  | .group name body => by
    intro h
    have hbody := mended_turnsAll scope (index :: around) 0 body fun turn hturn =>
      h turn (by simp [turns, hturn])
    rw [mended, traced, traced, turns, turns, List.cons_append, List.cons_append]
    exact .cons (.same _ (.enter name)) (List.rel_append hbody (.cons (.same _ .leave) .nil))
  | .test name body => by
    intro h
    have hbody : body.Memoryless := h ⟨_, .test name body⟩ (List.mem_singleton.2 rfl)
    exact .cons (.same _ (.test name (hbody.observing_traced _ .body))) .nil
  | .hook point callback => by
    intro h
    have hcallback : callback.Memoryless := h ⟨_, .attach point callback⟩ (List.mem_singleton.2 rfl)
    rw [mended]
    refine .cons ?_ .nil
    by_cases hsetup : point = .beforeAll ∧ around = scope
    · obtain ⟨rfl, rfl⟩ := hsetup
      exact .setup index _ _
    · rw [List.tail_cons, if_neg hsetup]
      exact .same _ (.attach point (hcallback.observing_traced _ (.hook point)))
  | .stop _ => fun _ => .nil
  | .note record => fun _ => .cons (.same _ (.note record)) .nil

theorem mended_turnsAll (scope around : Place) (index : Nat) :
    (declarations : List (Declaration σ)) →
    (∀ turn ∈ turnsAll around index declarations, turn.Memoryless) →
    List.Forall₂ (MendedTurn scope) (turnsAll around index (tracedAll around index declarations))
      (turnsAll around index
        (tracedAll around index (mendedAll scope around index declarations)))
  | [] => fun _ => .nil
  | declaration :: rest => by
    intro h
    rw [turnsAll] at h
    rw [mendedAll, tracedAll, tracedAll, turnsAll, turnsAll, result_traced, result_traced,
      result_mended]
    refine List.rel_append (mended_turns scope around index declaration fun turn hturn =>
      h turn (List.mem_append_left _ hturn)) ?_
    cases hresult : declaration.result with
    | ok value =>
      refine mended_turnsAll scope around (index + 1) rest fun turn hturn => ?_
      rw [hresult] at h
      exact h turn (List.mem_append_right _ hturn)
    | error error => exact .nil

end

theorem mended_schedule (scope : Place) (declarations : List (Declaration σ))
    (h : ∀ turn ∈ schedule declarations, turn.Memoryless) :
    List.Forall₂ (MendedTurn scope) (schedule (tracedAll [] 0 declarations))
      (schedule (tracedAll [] 0 (mendedAll scope [] 0 declarations))) :=
  List.rel_append
    (mended_turnsAll scope [] 0 declarations fun turn hturn => h turn (List.mem_append_left _ hturn))
    (.cons (.same [] .finish) .nil)

end Declaration

end Stepbook
