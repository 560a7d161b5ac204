import Mathlib.Data.List.Induction
import Stepbook.Run.Host
import Stepbook.Run.Runner

/-! # Calls of a runner

What a runner has called is told by events: the hook of a point, or the handler of a resolved step,
each with its reply. A session is what the callbacks of the events have made of it, one after
another; in between, only records are added to the log.

* `Event`, `Performs`: the events that lead from a session to another.
* `Plays`: which events an action comes to, and with what result.
* `HookRegistry.registered`: the registry that a sequence of registrations leads to.
-/

namespace Stepbook
set_option autoImplicit false

variable {σ α β : Type}

/-! ## Events -/

inductive Event (σ : Type) where
  | hook (point : HookPoint) (reply : Reply)
  | handler (step : ResolvedStep σ) (reply : Reply)

namespace Event

def reply : Event σ → Reply
  | .hook _ reply => reply
  | .handler _ reply => reply

/-- What has been called. -/
def callback (hooks : HookRegistry σ) : Event σ → Callback σ
  | .hook point _ => hooks.callback point
  | .handler step _ => step.invoke

end Event

/-- The callbacks of the events, in order, lead from a session to another and reply as the events
say. -/
inductive Performs (hooks : HookRegistry σ) : List (Event σ) → Session σ → Session σ → Prop where
  | nil (session : Session σ) : Performs hooks [] session session
  | told {events : List (Event σ)} {session last : Session σ} (records : List Log.Record)
      (others : Performs hooks events ⟨session.memory, session.log ++ records⟩ last) :
      Performs hooks events session last
  | call {event : Event σ} {events : List (Event σ)} {session last : Session σ}
      (replies : (event.callback hooks session).1 = event.reply)
      (others : Performs hooks events (event.callback hooks session).2 last) :
      Performs hooks (event :: events) session last

namespace Performs
variable {hooks : HookRegistry σ} {events more : List (Event σ)}
  {session middle last : Session σ}

theorem append (h : Performs hooks events session middle) (h' : Performs hooks more middle last) :
    Performs hooks (events ++ more) session last := by
  induction h with
  | nil session => exact h'
  | told records others ih => exact .told records (ih h')
  | call replies others ih => exact .call replies (ih h')

/-- Without events, the memory stays as it is. -/
theorem memory_eq (h : Performs hooks [] session last) : last.memory = session.memory := by
  generalize hnone : ([] : List (Event σ)) = events at h
  induction h with
  | nil session => rfl
  | told records others ih => exact ih hnone
  | call replies others ih => cases hnone

end Performs

/-! ## Events of an action -/

/-- Whatever the session, an action comes to events that fit its result. -/
def Plays (hooks : HookRegistry σ) (action : Action σ α) (post : α → List (Event σ) → Prop) :
    Prop :=
  ∀ session, ∃ events, Performs hooks events session (action session).2 ∧
    post (action session).1 events

namespace Plays
variable {hooks : HookRegistry σ}

theorem pure {x : α} {post : α → List (Event σ) → Prop} (h : post x []) :
    Plays hooks (Pure.pure x : Action σ α) post :=
  fun session => ⟨[], .nil session, h⟩

theorem bind {action : Action σ α} {next : α → Action σ β} {middle : α → List (Event σ) → Prop}
    {post : β → List (Event σ) → Prop} (first : Plays hooks action middle)
    (second : ∀ x events, middle x events →
      Plays hooks (next x) fun y more => post y (events ++ more)) :
    Plays hooks (action >>= next) post := by
  intro session
  obtain ⟨events, hperforms, hmiddle⟩ := first session
  obtain ⟨more, hmore, hpost⟩ := second _ events hmiddle (action session).2
  exact ⟨events ++ more, hperforms.append hmore, hpost⟩

/-- What is made of a result alone comes to no further events. -/
theorem bind_pure {action : Action σ α} {next : α → β} {middle : α → List (Event σ) → Prop}
    {post : β → List (Event σ) → Prop} (first : Plays hooks action middle)
    (second : ∀ x events, middle x events → post (next x) events) :
    Plays hooks (action >>= fun x => Pure.pure (next x)) post := by
  refine first.bind fun x events hmiddle => .pure ?_
  rw [List.append_nil]
  exact second x events hmiddle

theorem mono {action : Action σ α} {post weaker : α → List (Event σ) → Prop}
    (h : Plays hooks action post) (hmono : ∀ x events, post x events → weaker x events) :
    Plays hooks action weaker := by
  intro session
  obtain ⟨events, hperforms, hpost⟩ := h session
  exact ⟨events, hperforms, hmono _ _ hpost⟩

theorem log_bind {next : Unit → Action σ α} {post : α → List (Event σ) → Prop}
    (record : Log.Record) (h : Plays hooks (next ()) post) :
    Plays hooks (Action.log record >>= next) post := by
  intro session
  obtain ⟨events, hperforms, hpost⟩ := h (Action.log record session).2
  exact ⟨events, .told [record] hperforms, hpost⟩

theorem told (logged : Logged α) :
    Plays hooks (Action.told logged : Action σ α) fun value events =>
      value = logged.value ∧ events = [] :=
  fun _ => ⟨[], .told logged.records (.nil _), rfl, rfl⟩

theorem guarded {callback : Callback σ} {post : Reply → List (Event σ) → Prop}
    (h : Plays hooks callback post) :
    Plays hooks (Action.guarded callback) fun result events =>
      ∃ reply : Reply, reply.result = result ∧ post reply events :=
  h.bind_pure fun reply _ hpost => ⟨reply, rfl, hpost⟩

theorem hook (point : HookPoint) :
    Plays hooks (hooks.callback point) fun reply events => events = [.hook point reply] :=
  fun _ => ⟨_, .call rfl (.nil _), rfl⟩

theorem handler (step : ResolvedStep σ) :
    Plays hooks step.invoke fun reply events => events = [.handler step reply] :=
  fun _ => ⟨_, .call rfl (.nil _), rfl⟩

/-- The one hook of a scope. -/
theorem inOrder_hook (point : HookPoint) :
    Plays hooks (Action.inOrder [hooks.callback point]) fun result events =>
      ∃ reply : Reply, reply.result = result ∧ events = [.hook point reply] := by
  refine (Plays.hook point).guarded.bind fun result events hevents => ?_
  cases result with
  | ok value => exact .pure (by rwa [List.append_nil])
  | error error => exact .pure (by rwa [List.append_nil])

end Plays

/-! ## Registered hooks -/

namespace HookRegistry

/-- The registry that registrations lead to, one after another. -/
def registered (registrations : List (HookPoint × Callback σ)) : HookRegistry σ :=
  registrations.foldl (fun hooks (point, callback) => (hooks.register point callback).value) .empty

/-- The callback that was last registered for a point. -/
def last? (registrations : List (HookPoint × Callback σ)) (point : HookPoint) :
    Option (Callback σ) :=
  (registrations.filter (·.1 = point)).getLast?.map (·.2)

theorem registered_concat (registrations : List (HookPoint × Callback σ)) (point : HookPoint)
    (callback : Callback σ) :
    registered (registrations ++ [(point, callback)]) =
      (registered registrations).set point callback := by
  rw [registered, List.foldl_append]
  rfl

/-- Of several callbacks for a point, the last one counts. -/
theorem callback_registered (registrations : List (HookPoint × Callback σ)) (point : HookPoint) :
    (registered registrations).callback point = (last? registrations point).getD .nothing := by
  induction registrations using List.reverseRecOn with
  | nil => rfl
  | append_singleton registrations registration ih =>
    obtain ⟨other, callback⟩ := registration
    rw [registered_concat, callback_set, last?, List.filter_append]
    by_cases hsame : point = other
    · subst hsame
      simp
    · have hother : ¬ other = point := fun heq => hsame heq.symm
      rw [if_neg hsame, ih, last?]
      simp [hother]

end HookRegistry

end Stepbook
