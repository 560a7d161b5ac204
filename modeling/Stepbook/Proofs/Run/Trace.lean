import Mathlib.Data.List.Forall2
import Mathlib.Data.List.Infix
import Stepbook.Run.Host

/-! # Calls of a run

A run is observed through its callbacks. Each of them gets a place in the tree of declarations, and
every call of it is kept, with its reply, beside the memory that it acts on.

* `Place`, `Call`: what is kept of a call.
* `Declaration.traced`: declarations whose callbacks keep their calls.
* `Emits`: which calls an action makes, and what comes of it.
* `InOrder`: calls of hooks up to the first that does not succeed.
-/

namespace Stepbook
set_option autoImplicit false

/-! ## Places -/

/-- The index in the body around it, then the place of that body's group; the root has none. -/
abbrev Place := List Nat

inductive Role where
  | hook (point : HookPoint)
  | body
  deriving DecidableEq, Repr

/-- What is called around each test, and not around all tests of a scope. -/
def Role.isEach : Role → Bool
  | .hook .beforeAll | .hook .afterAll => false
  | .hook .beforeEach | .hook .afterEach | .body => true

theorem Role.eq_or_isEach (role : Role) :
    role = .hook .beforeAll ∨ role = .hook .afterAll ∨ role.isEach = true := by
  cases role with
  | hook point => cases point <;> simp [isEach]
  | body => exact .inr (.inr rfl)

structure Call where
  place : Place
  role : Role
  reply : Reply
  deriving DecidableEq, Repr

/-- The scope in which the callback was declared. -/
def Call.scope (call : Call) : Place :=
  call.place.tail

/-! ## Keeping calls -/

structure Traced (σ : Type) where
  memory : σ
  calls : List Call

variable {σ α β : Type}

def Session.keeping (session : Session σ) (calls : List Call) : Session (Traced σ) :=
  ⟨⟨session.memory, calls⟩, session.log⟩

def Session.erase (session : Session (Traced σ)) : Session σ :=
  ⟨session.memory.memory, session.log⟩

theorem Session.keeping_erase (session : Session (Traced σ)) :
    session.erase.keeping session.memory.calls = session := rfl

def Callback.traced (place : Place) (role : Role) (callback : Callback σ) :
    Callback (Traced σ) := fun session =>
  let (reply, after) := callback session.erase
  (reply, after.keeping (session.memory.calls ++ [⟨place, role, reply⟩]))

namespace Declaration

mutual

def traced (place : Place) : Declaration σ → Declaration (Traced σ)
  | .group name body => .group name (tracedAll place 0 body)
  | .test name body => .test name (body.traced place .body)
  | .hook point callback => .hook point (callback.traced place (.hook point))
  | .stop error => .stop error
  | .note record => .note record

/-- The declarations of a body, counted from an index on. -/
def tracedAll (scope : Place) (index : Nat) :
    List (Declaration σ) → List (Declaration (Traced σ))
  | [] => []
  | declaration :: rest =>
    declaration.traced (index :: scope) :: tracedAll scope (index + 1) rest

end

end Declaration

/-! ## Calls of an action -/

/-- Whatever the session, an action makes calls that fit its result. -/
def Emits (action : Action (Traced σ) α) (post : α → List Call → Prop) : Prop :=
  ∀ session, ∃ calls,
    (action session).2.memory.calls = session.memory.calls ++ calls ∧ post (action session).1 calls

namespace Emits

theorem pure {x : α} {post : α → List Call → Prop} (h : post x []) :
    Emits (Pure.pure x : Action (Traced σ) α) post := by
  intro session
  exact ⟨[], (List.append_nil _).symm, h⟩

theorem pure_eq (x : α) :
    Emits (Pure.pure x : Action (Traced σ) α) fun y calls => y = x ∧ calls = [] :=
  pure ⟨rfl, rfl⟩

theorem bind {action : Action (Traced σ) α} {next : α → Action (Traced σ) β}
    {middle : α → List Call → Prop} {post : β → List Call → Prop} (first : Emits action middle)
    (second : ∀ x calls, middle x calls → Emits (next x) fun y more => post y (calls ++ more)) :
    Emits (action >>= next) post := by
  intro session
  obtain ⟨calls, hcalls, hmiddle⟩ := first session
  obtain ⟨more, hmore, hpost⟩ := second _ calls hmiddle (action session).2
  refine ⟨calls ++ more, ?_, hpost⟩
  show (next (action session).1 (action session).2).2.memory.calls = _
  rw [hmore, hcalls, List.append_assoc]

theorem mono {action : Action (Traced σ) α} {post weaker : α → List Call → Prop}
    (h : Emits action post) (hmono : ∀ x calls, post x calls → weaker x calls) :
    Emits action weaker := by
  intro session
  obtain ⟨calls, hcalls, hpost⟩ := h session
  exact ⟨calls, hcalls, hmono _ _ hpost⟩

/-- The calls of an action are what it adds to those before. -/
theorem and {action : Action (Traced σ) α} {post post' : α → List Call → Prop}
    (h : Emits action post) (h' : Emits action post') :
    Emits action fun x calls => post x calls ∧ post' x calls := by
  intro session
  obtain ⟨calls, hcalls, hpost⟩ := h session
  obtain ⟨calls', hcalls', hpost'⟩ := h' session
  obtain rfl := List.append_cancel_left (hcalls.symm.trans hcalls')
  exact ⟨calls, hcalls, hpost, hpost'⟩

theorem and_result {action : Action (Traced σ) α} {post : α → List Call → Prop}
    (h : Emits action post) {result : α → Prop} (h' : ∀ session, result (action session).1) :
    Emits action fun x calls => post x calls ∧ result x := by
  intro session
  obtain ⟨calls, hcalls, hpost⟩ := h session
  exact ⟨calls, hcalls, hpost, h' session⟩

theorem log (record : Log.Record) :
    Emits (Action.log record : Action (Traced σ) Unit) fun _ calls => calls = [] := by
  intro session
  exact ⟨[], (List.append_nil _).symm, rfl⟩

end Emits

/-- A callback that keeps each of its calls. -/
def Records (place : Place) (role : Role) (callback : Callback (Traced σ)) : Prop :=
  Emits callback fun reply calls => calls = [⟨place, role, reply⟩]

theorem records_traced (place : Place) (role : Role) (callback : Callback σ) :
    Records place role (callback.traced place role) := by
  intro session
  exact ⟨_, rfl, rfl⟩

theorem Records.guarded {place : Place} {role : Role} {callback : Callback (Traced σ)}
    (h : Records place role callback) :
    Emits (Action.guarded callback) fun result calls =>
      ∃ reply : Reply, reply.result = result ∧ calls = [⟨place, role, reply⟩] := by
  refine Emits.bind h fun reply calls hcalls => Emits.pure ⟨reply, rfl, ?_⟩
  rw [hcalls, List.append_nil]

/-! ## Hooks in order -/

/-- Calls of hooks, with the first failure as their result. -/
inductive InOrder (role : Role) : List Place → List Call → Except StepError Unit → Prop where
  | nil : InOrder role [] [] (.ok ())
  | ok {hooks : List Place} {calls : List Call} {result : Except StepError Unit} (place : Place)
      (others : InOrder role hooks calls result) :
      InOrder role (place :: hooks) (⟨place, role, .ok⟩ :: calls) result
  | failure {reply : Reply} {error : StepError} (place : Place) (hooks : List Place)
      (fails : reply.result = .error error) :
      InOrder role (place :: hooks) [⟨place, role, reply⟩] (.error error)

theorem Reply.eq_ok_of_result {reply : Reply} (h : reply.result = .ok ()) : reply = .ok := by
  cases reply with
  | ok => rfl
  | error cause => cases h
  | panic payload => cases h

namespace InOrder
variable {role : Role} {hooks : List Place} {calls : List Call} {result : Except StepError Unit}

theorem role_eq (h : InOrder role hooks calls result) :
    ∀ call ∈ calls, call.role = role ∧ call.place ∈ hooks := by
  induction h with
  | nil => exact fun _ hcall => absurd hcall List.not_mem_nil
  | ok place others ih =>
    intro call hcall
    rcases List.mem_cons.1 hcall with rfl | hcall
    · exact ⟨rfl, List.mem_cons_self⟩
    · exact ⟨(ih call hcall).1, List.mem_cons_of_mem _ (ih call hcall).2⟩
  | failure place hooks fails =>
    intro call hcall
    rw [List.mem_singleton.1 hcall]
    exact ⟨rfl, List.mem_cons_self⟩

theorem eq_ok_iff (h : InOrder role hooks calls result) :
    result = .ok () ↔ ∀ call ∈ calls, call.reply = .ok := by
  induction h with
  | nil => simp
  | ok place others ih => simp [ih]
  | @failure reply error place hooks fails =>
    have hreply : reply ≠ .ok := by
      rintro rfl
      cases fails
    simp [hreply]

end InOrder

theorem emits_inOrder {role : Role} {places : List Place} {hooks : List (Callback (Traced σ))}
    (h : List.Forall₂ (fun place hook => Records place role hook) places hooks) :
    Emits (Action.inOrder hooks) fun result calls => InOrder role places calls result := by
  induction h with
  | nil => exact Emits.pure .nil
  | cons first others ih =>
    refine Emits.bind first.guarded fun result calls hcalls => ?_
    obtain ⟨reply, hresult, rfl⟩ := hcalls
    cases result with
    | ok value =>
      rw [Reply.eq_ok_of_result hresult]
      exact ih.mono fun _ _ hrest => .ok _ hrest
    | error error => exact Emits.pure (.failure _ _ hresult)

end Stepbook
