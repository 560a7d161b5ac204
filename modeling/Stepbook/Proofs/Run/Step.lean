import Stepbook.Proofs.Run.Around
import Stepbook.Proofs.Run.Start

/-! # One turn of a run

What every turn has to do with the history before it, whatever its callbacks reply.

* `Hooked`: what the hooks around a test are.
* `Agrees.emits_runTest`, `ScopeAgrees.emits_close`: the calls of a test, and of leaving a scope.
* `entry`: the entry that a turn adds to the history.
* `Sound`: which scopes a turn sets up, and which calls it makes.
* `Keeps`, `keeps_perform`: every turn of a host is sound, and the open scopes go on holding what the
  history says.
-/

namespace Stepbook.Host
set_option autoImplicit false

variable {σ : Type}

/-! ## Calls of a test -/

inductive Hooked (past : List Entry) : Place → Scopes (Traced σ) → Prop where
  | root {scope : Scope (Traced σ)} (own : HasHooks past [] scope) :
      Hooked past [] (.root scope)
  | group {index : Nat} {place : Place} {name : String} {scope : Scope (Traced σ)}
      {outer : Scopes (Traced σ)} (own : HasHooks past (index :: place) scope)
      (others : Hooked past place outer) : Hooked past (index :: place) (.group name scope outer)

theorem Agrees.hooked {past : List Entry} {place : Place} {scopes : Scopes (Traced σ)}
    (h : Agrees past place scopes) : Hooked past place scopes := by
  induction h with
  | root own => exact .root own.hooks
  | group own nested others ih => exact .group own.hooks ih

theorem Begins.hasHooks {past : List Entry} {place : Place} {scope next : Scope (Traced σ)}
    {calls : List Call} (h : Begins past place scope next calls) (own : HasHooks past place scope) :
    HasHooks past place next := by
  cases h with
  | already started => exact own
  | now pending inOrder => exact own

theorem Opens.hooked {past : List Entry} {place : Place} {scopes next : Scopes (Traced σ)}
    {result : Except StepError Unit} {calls : List Call}
    (h : Opens past place scopes next result calls) (hhooked : Hooked past place scopes) :
    Hooked past place next := by
  induction h with
  | root begins =>
    cases hhooked with
    | root own =>
      exact .root (begins.hasHooks own)
  | group others begins ih =>
    cases hhooked with
    | group own houter =>
      exact .group (begins.hasHooks own) (ih houter)
  | failed others ih =>
    cases hhooked with
    | group own houter => exact .group own (ih houter)

/-- Calls that are made for each test, in the scopes around a place. -/
def AreEach (place : Place) (calls : List Call) : Prop :=
  ∀ call ∈ calls, call.role.isEach = true ∧ call.scope <:+ place

namespace AreEach
variable {place : Place} {calls : List Call}

theorem ne_beforeAll (h : AreEach place calls) :
    ∀ call ∈ calls, call.role ≠ .hook .beforeAll := by
  intro call hcall hrole
  have heach := (h call hcall).1
  rw [hrole] at heach
  cases heach

end AreEach

/-- The hooks of each scope are called in layers. -/
theorem Hooked.recorded {past : List Entry} {place : Place} {scopes : Scopes (Traced σ)}
    (h : Hooked past place scopes) : ∃ layers, scopes.Recorded layers ∧
      ∀ layer ∈ layers, ∀ point, ∀ hook ∈ layer point, hook.tail <:+ place := by
  induction h with
  | root own =>
    refine ⟨[attached past []], .root own, fun layer hlayer point hook hhook => ?_⟩
    rw [List.mem_singleton.1 hlayer] at hhook
    rw [tail_of_mem_attached hhook]
  | @group index place name scope outer own others ih =>
    obtain ⟨layers, hlayers, hwithin⟩ := ih
    refine ⟨attached past (index :: place) :: layers, .group own hlayers, ?_⟩
    intro layer hlayer point hook hhook
    rcases List.mem_cons.1 hlayer with rfl | hlayer
    · rw [tail_of_mem_attached hhook]
    · exact (hwithin layer hlayer point hook hhook).trans (List.suffix_cons _ _)

theorem Hooked.emits_runBody {past : List Entry} {place : Place} {scopes : Scopes (Traced σ)}
    (h : Hooked past place scopes) {index : Nat} {body : Callback (Traced σ)}
    (hbody : Records (index :: place) .body body) :
    Emits (scopes.runBody body) fun _ calls => AreEach place calls := by
  obtain ⟨layers, hlayers, hwithin⟩ := h.recorded
  refine (hlayers.emits_runBody hbody).mono fun result calls hcalls call hcall => ?_
  obtain ⟨hrole, hplace⟩ := hcalls.1.of_mem call hcall
  refine ⟨hrole, ?_⟩
  rcases hplace with hplace | ⟨layer, hlayer, point, hhook⟩
  · rw [Call.scope, hplace, List.tail_cons]
  · exact hwithin layer hlayer point _ hhook

/-- What a test calls: the scopes around it are opened, and only where that succeeds, it is run. -/
structure Tests (past : List Entry) (place : Place) (scopes next : Scopes (Traced σ))
    (result : Except StepError Unit) (opening each : List Call) : Prop where
  opens : Opens past place scopes next result opening
  areEach : AreEach place each
  opened : each ≠ [] → result = .ok ()

/-- The test adds its outcome, which is the failure of a scope around it if there is one. -/
def Adds (host next : Host σ) (name : String) (result : Except StepError Unit) : Prop :=
  ∃ status, next.report = host.report.add ⟨next.scopes.path, name, status⟩ ∧
    ∀ error, result = .error error → status = .failed error

theorem Agrees.emits_runTest {past : List Entry} {place : Place} {host : Host (Traced σ)}
    (h : Agrees past place host.scopes) {index : Nat} {name : String}
    {body : Callback (Traced σ)} (hbody : Records (index :: place) .body body) :
    Emits (host.runTest name body) fun next calls => ∃ result opening each,
      calls = opening ++ each ∧ Tests past place host.scopes next.scopes result opening each ∧
        Adds host next name result := by
  have hscopes : Emits (host.scopes.runTest body) fun out calls => ∃ result opening each,
      calls = opening ++ each ∧ Tests past place host.scopes out.1 result opening each ∧
        ∀ error, result = .error error → out.2 = .error error := by
    refine Emits.bind (opens_start h) fun out calls hopens => ?_
    obtain ⟨next, result⟩ := out
    cases result with
    | ok value =>
      refine Emits.bind ((hopens.hooked h.hooked).emits_runBody hbody) fun result more hmore => ?_
      exact Emits.pure ⟨_, calls, more, by rw [List.append_nil], ⟨hopens, hmore, fun _ => rfl⟩, nofun⟩
    | error error =>
      have hnil : AreEach place [] := fun _ hcall => absurd hcall List.not_mem_nil
      have hnone : ([] : List Call) ≠ [] → Except.error error = .ok () := fun hne => absurd rfl hne
      exact Emits.pure ⟨_, calls, [], rfl, ⟨hopens, hnil, hnone⟩, fun _ heq => heq⟩
  refine Emits.bind hscopes fun out calls hcalls => ?_
  obtain ⟨result, opening, each, heq, htests, hresult⟩ := hcalls
  refine Emits.bind (Emits.log _) fun _ more hmore => Emits.pure ?_
  rw [hmore, List.append_nil, List.append_nil]
  refine ⟨result, opening, each, heq, htests, _, rfl, fun error herror => ?_⟩
  rw [hresult error herror]
  rfl

/-- The hooks that are called when a scope is left. -/
def Leaves (past : List Entry) (place : Place) (calls : List Call) : Prop :=
  (Started past place → ∃ result,
    InOrder (.hook .afterAll) (attached past place .afterAll) calls result) ∧
  (¬ Started past place → calls = [])

theorem ScopeAgrees.emits_close {past : List Entry} {place : Place} {scope : Scope (Traced σ)}
    (h : ScopeAgrees past place scope) (path : List String) (report : Report) :
    Emits (close path scope report) fun _ calls => Leaves past place calls := by
  have hfinish : Emits scope.finish fun _ calls => Leaves past place calls := by
    rw [Scope.finish.eq_def]
    have hstarted := h.started
    have hrun : Emits (scope.run .afterAll) fun result calls =>
        InOrder (.hook .afterAll) (attached past place .afterAll) calls result :=
      emits_inOrder (h.hooks .afterAll)
    cases hsetup : scope.setup with
    | pending =>
      refine Emits.pure ⟨fun hpast => ?_, fun _ => rfl⟩
      exact absurd hsetup (hstarted.2 hpast)
    | done =>
      refine hrun.mono fun result calls hcalls => ⟨fun _ => ⟨result, hcalls⟩, fun hnot => ?_⟩
      exact absurd (hstarted.1 (by simp [hsetup])) hnot
    | failed error =>
      refine hrun.mono fun result calls hcalls => ⟨fun _ => ⟨result, hcalls⟩, fun hnot => ?_⟩
      exact absurd (hstarted.1 (by simp [hsetup])) hnot
  refine Emits.bind hfinish fun result calls hcalls => ?_
  cases result with
  | ok value =>
    refine Emits.pure ?_
    rwa [List.append_nil]
  | error error =>
    refine Emits.bind (Emits.log _) fun _ more hmore => Emits.pure ?_
    rw [hmore, List.append_nil, List.append_nil]
    exact hcalls

/-! ## Entries of turns -/

def entry (host next : Host σ) (turn : Turn σ) (calls : List Call) : Entry where
  place := turn.place
  kind := turn.move.kind
  starts :=
    (next.scopes.started turn.inside).filter (· ∉ host.scopes.started turn.outside)
  calls := calls

theorem mem_starts_entry {host next : Host σ} {turn : Turn σ} {calls : List Call} {scope : Place} :
    scope ∈ (entry host next turn calls).starts ↔
      scope ∈ next.scopes.started turn.inside ∧ scope ∉ host.scopes.started turn.outside := by
  rw [entry, List.mem_filter, decide_eq_true_iff]

/-- What an entry has to do with the history before it. -/
structure Sound (past : List Entry) (entry : Entry) : Prop where
  starts_iff : ∀ scope, scope ∈ entry.starts ↔
    entry.IsTestIn scope ∧ Enclosed (past ++ [entry]) scope ∧ ¬ Started past scope
  beforeAll : ∀ scope ∈ entry.starts, CallsSetup past scope entry.calls
  beforeAll_only : ∀ call ∈ entry.calls, call.role = .hook .beforeAll →
    call.scope ∈ entry.starts
  each : ∀ call ∈ entry.calls, call.role.isEach = true →
    entry.IsTestIn call.scope ∧ Enclosed (past ++ [entry]) entry.place
  afterAll : entry.kind = .leave → Leaves past entry.place entry.calls
  afterAll_only : ∀ call ∈ entry.calls, call.role = .hook .afterAll →
    entry.kind = .leave ∧ call.scope = entry.place

/-- A turn that calls nothing. -/
theorem Sound.quiet {past : List Entry} {entry : Entry} (hkind : entry.kind ≠ .test)
    (hleave : entry.kind ≠ .leave) (hstarts : entry.starts = []) (hcalls : entry.calls = []) :
    Sound past entry := by
  refine ⟨?_, ?_, ?_, ?_, fun h => absurd h hleave, ?_⟩
  · intro scope
    rw [hstarts]
    exact ⟨fun h => absurd h List.not_mem_nil, fun h => absurd h.1.1 hkind⟩
  · rw [hstarts]
    exact fun _ h => absurd h List.not_mem_nil
  all_goals
    rw [hcalls]
    exact fun _ h => absurd h List.not_mem_nil

/-! ## Tests -/

/-- The entry of a test at a place in a scope. -/
structure IsTest (index : Nat) (place : Place) (scopes next : Scopes (Traced σ))
    (calls : List Call) (entry : Entry) : Prop where
  kind : entry.kind = .test
  place_eq : entry.place = index :: place
  calls_eq : entry.calls = calls
  mem_starts : ∀ scope, scope ∈ entry.starts ↔
    scope ∈ next.started place ∧ scope ∉ scopes.started place

theorem IsTest.isTestIn_iff {index : Nat} {place : Place} {scopes next : Scopes (Traced σ)}
    {calls : List Call} {entry : Entry} (h : IsTest index place scopes next calls entry)
    (scope : Place) : entry.IsTestIn scope ↔ scope <:+ place := by
  rw [Entry.IsTestIn, h.place_eq, suffix_cons_and_ne]
  exact and_iff_right h.kind

namespace Tests
variable {past : List Entry} {index : Nat} {place : Place} {scopes next : Scopes (Traced σ)}
  {result : Except StepError Unit} {opening each : List Call} {entry : Entry}

theorem reports (h : Tests past place scopes next result opening each)
    (hentry : IsTest index place scopes next (opening ++ each) entry) :
    Reports place scopes next opening entry := by
  refine ⟨hentry.kind, fun scope _ => hentry.mem_starts scope, fun call hrole _ => ?_⟩
  rw [hentry.calls_eq, List.mem_append]
  exact or_iff_left fun hcall => h.areEach.ne_beforeAll call hcall hrole

theorem starts_iff (h : Tests past place scopes next result opening each)
    (hagrees : Agrees past place scopes)
    (hentry : IsTest index place scopes next (opening ++ each) entry) (scope : Place) :
    scope ∈ entry.starts ↔
      entry.IsTestIn scope ∧ Enclosed (past ++ [entry]) scope ∧ ¬ Started past scope := by
  obtain ⟨hnext, -, hopened⟩ := h.opens.settled hagrees (h.reports hentry)
  rw [hentry.isTestIn_iff, hentry.mem_starts]
  constructor
  · rintro ⟨hstarted, hnot⟩
    have hsuffix := Scopes.suffix_of_mem_started hstarted
    refine ⟨hsuffix, hnext.enclosed hsuffix ((hnext.mem_started_iff hsuffix).1 hstarted), ?_⟩
    rwa [hagrees.mem_started_iff hsuffix] at hnot
  · rintro ⟨hsuffix, henclosed, hnot⟩
    refine ⟨hopened scope hsuffix henclosed, ?_⟩
    rwa [hagrees.mem_started_iff hsuffix]

theorem beforeAll (h : Tests past place scopes next result opening each)
    (hentry : IsTest index place scopes next (opening ++ each) entry) :
    ∀ scope ∈ entry.starts, CallsSetup past scope entry.calls := by
  intro scope hscope
  obtain ⟨hstarted, hnot⟩ := (hentry.mem_starts scope).1 hscope
  rw [hentry.calls_eq]
  refine (h.opens.split hstarted hnot).append fun call hcall hrole => ?_
  exact absurd hrole (h.areEach.ne_beforeAll call hcall)

theorem of_mem_calls (h : Tests past place scopes next result opening each)
    (hentry : IsTest index place scopes next (opening ++ each) entry) {call : Call}
    (hcall : call ∈ entry.calls) :
    call.role = .hook .beforeAll ∧ call.scope ∈ entry.starts ∨
      call.role.isEach = true ∧ call.scope <:+ place ∧ result = .ok () := by
  rw [hentry.calls_eq] at hcall
  rcases List.mem_append.1 hcall with hcall | hcall
  · obtain ⟨hrole, hmem⟩ := h.opens.of_mem_calls call hcall
    exact .inl ⟨hrole, (hentry.mem_starts _).2 hmem⟩
  · obtain ⟨heach, hscope⟩ := h.areEach call hcall
    exact .inr ⟨heach, hscope, h.opened (List.ne_nil_of_mem hcall)⟩

theorem sound (h : Tests past place scopes next result opening each)
    (hagrees : Agrees past place scopes)
    (hentry : IsTest index place scopes next (opening ++ each) entry) :
    Sound past entry ∧ Agrees (past ++ [entry]) place next := by
  obtain ⟨hnext, hready, -⟩ := h.opens.settled hagrees (h.reports hentry)
  refine ⟨⟨h.starts_iff hagrees hentry, h.beforeAll hentry, ?_, ?_, ?_, ?_⟩, hnext⟩
  · intro call hcall hrole
    rcases h.of_mem_calls hentry hcall with ⟨-, hstarts⟩ | ⟨heach, -⟩
    · exact hstarts
    · rw [hrole] at heach
      cases heach
  · intro call hcall heach
    rcases h.of_mem_calls hentry hcall with ⟨hrole, -⟩ | ⟨-, hscope, hresult⟩
    · rw [hrole] at heach
      cases heach
    · refine ⟨(hentry.isTestIn_iff _).2 hscope, ?_⟩
      rw [hentry.place_eq]
      exact enclosed_cons.2 (hready.1 hresult)
  · intro hleave
    rw [hentry.kind] at hleave
    cases hleave
  · intro call hcall hrole
    rcases h.of_mem_calls hentry hcall with ⟨hbefore, -⟩ | ⟨heach, -⟩
    · rw [hbefore] at hrole
      cases hrole
    · rw [hrole] at heach
      cases heach

end Tests

/-! ## Turns -/

/-- A turn that leaves a scope. -/
theorem Sound.leave {past : List Entry} {entry : Entry} (hkind : entry.kind = .leave)
    (hstarts : entry.starts = []) (h : Leaves past entry.place entry.calls) : Sound past entry := by
  have hafterAll : ∀ call ∈ entry.calls, call.role = .hook .afterAll ∧ call.scope = entry.place := by
    intro call hcall
    by_cases hstarted : Started past entry.place
    · obtain ⟨result, hinOrder⟩ := h.1 hstarted
      obtain ⟨hrole, hplace⟩ := hinOrder.role_eq call hcall
      exact ⟨hrole, tail_of_mem_attached hplace⟩
    · rw [h.2 hstarted] at hcall
      exact absurd hcall List.not_mem_nil
  refine ⟨?_, ?_, ?_, ?_, fun _ => h, ?_⟩
  · intro scope
    rw [hstarts]
    refine ⟨fun h => absurd h List.not_mem_nil, fun h => ?_⟩
    have htest := h.1.1
    rw [hkind] at htest
    cases htest
  · rw [hstarts]
    exact fun _ h => absurd h List.not_mem_nil
  · intro call hcall hrole
    rw [(hafterAll call hcall).1] at hrole
    cases hrole
  · intro call hcall hrole
    rw [(hafterAll call hcall).1] at hrole
    cases hrole
  · exact fun call hcall _ => ⟨hkind, (hafterAll call hcall).2⟩

theorem starts_entry_nil {host next : Host σ} {turn : Turn σ} {calls : List Call}
    (h : ∀ scope ∈ next.scopes.started turn.inside, scope ∈ host.scopes.started turn.outside) :
    (entry host next turn calls).starts = [] := by
  rw [List.eq_nil_iff_forall_not_mem]
  intro scope hscope
  rw [mem_starts_entry] at hscope
  exact hscope.2 (h scope hscope.1)

theorem Scopes.started_attach (scopes : Scopes σ) (place : Place) (point : HookPoint)
    (callback : Callback σ) :
    (scopes.attach point callback).started place = scopes.started place := by
  cases scopes <;> rfl

/-- Whatever the callbacks reply, a turn is sound, and the open scopes go on agreeing. -/
def Keeps (past : List Entry) (host : Host (Traced σ)) (turn : Turn (Traced σ)) (next : Place) :
    Prop :=
  Emits (host.perform turn.move) fun after calls =>
    Sound past (entry host after turn calls) ∧
      Agrees (past ++ [entry host after turn calls]) next after.scopes

section
variable {past : List Entry} {place : Place} {host : Host (Traced σ)}

theorem keeps_enter (hagrees : Agrees past place host.scopes) (index : Nat) (name : String)
    (hfresh : ∀ entry ∈ past, ¬ (index :: place) <:+ entry.place)
    (hpast : ∀ entry ∈ past, ∀ scope ∈ entry.starts, scope <:+ entry.place) :
    Keeps past host ⟨index :: place, .enter name⟩ (index :: place) := by
  have hstarts : (entry host (host.enter name) ⟨index :: place, .enter name⟩ []).starts = [] := by
    refine starts_entry_nil fun other hother => ?_
    rcases Scopes.mem_started_group.1 hother with hown | hother
    · exact absurd rfl hown.1
    · exact hother
  refine Emits.pure ⟨.quiet nofun nofun hstarts rfl, ?_⟩
  exact hagrees.enter name rfl hstarts hfresh hpast

theorem keeps_test (hagrees : Agrees past place host.scopes) (index : Nat) (name : String)
    {body : Callback (Traced σ)} (hbody : Records (index :: place) .body body) :
    Keeps past host ⟨index :: place, .test name body⟩ place := by
  refine (hagrees.emits_runTest hbody).mono fun after calls hcalls => ?_
  obtain ⟨result, opening, each, rfl, htests, -⟩ := hcalls
  exact htests.sound hagrees ⟨rfl, rfl, rfl, fun other => mem_starts_entry⟩

theorem keeps_attach (hagrees : Agrees past place host.scopes) (index : Nat) (point : HookPoint)
    {callback : Callback (Traced σ)} (hhook : Records (index :: place) (.hook point) callback) :
    Keeps past host ⟨index :: place, .attach point callback⟩ place := by
  have hstarts : (entry host { host with scopes := host.scopes.attach point callback }
      ⟨index :: place, .attach point callback⟩ []).starts = [] := by
    refine starts_entry_nil fun other hother => ?_
    rwa [Scopes.started_attach] at hother
  refine Emits.pure ⟨.quiet nofun nofun hstarts rfl, ?_⟩
  exact hagrees.attach rfl rfl hstarts hhook

theorem keeps_note (hagrees : Agrees past place host.scopes) (index : Nat)
    (record : Log.Record) : Keeps past host ⟨index :: place, .note record⟩ place := by
  have hstarts : (entry host host ⟨index :: place, .note record⟩ []).starts = [] :=
    starts_entry_nil fun other hother => hother
  refine Emits.bind (Emits.log record) fun _ calls hcalls => Emits.pure ?_
  rw [hcalls]
  refine ⟨.quiet nofun nofun hstarts rfl, hagrees.frame (fun other _ => ?_) nofun⟩
  rw [List.append_nil, hstarts]
  exact List.not_mem_nil

theorem keeps_leave {index : Nat} (hagrees : Agrees past (index :: place) host.scopes) :
    Keeps past host ⟨index :: place, .leave⟩ place := by
  obtain ⟨scopes, report⟩ := host
  cases hagrees with
  | @group _ _ name own outer hown nested houter =>
    refine Emits.bind (hown.emits_close _ report) fun reported calls hcalls => Emits.pure ?_
    rw [List.append_nil]
    have hstarts : (entry ⟨.group name own outer, report⟩ ⟨outer, reported⟩
        ⟨index :: place, .leave⟩ calls).starts = [] :=
      starts_entry_nil fun other hother => Scopes.mem_started_group.2 (.inr hother)
    refine ⟨.leave rfl hstarts hcalls, houter.frame (fun other _ => ?_) nofun⟩
    rw [hstarts]
    exact List.not_mem_nil

theorem keeps_finish (hagrees : Agrees past [] host.scopes) :
    Keeps past host ⟨[], .finish⟩ [] := by
  obtain ⟨scopes, report⟩ := host
  cases hagrees with
  | @root scope hown =>
    refine Emits.bind (hown.emits_close _ report) fun reported calls hcalls => Emits.pure ?_
    rw [List.append_nil]
    have hstarts : (entry ⟨.root scope, report⟩ ⟨.root scope, reported⟩
        ⟨[], .finish⟩ calls).starts = [] :=
      starts_entry_nil fun other hother => hother
    refine ⟨.leave rfl hstarts hcalls, (Agrees.root hown).frame (fun other _ => ?_) nofun⟩
    rw [hstarts]
    exact List.not_mem_nil

end

theorem keeps_perform {past : List Entry} {scope next : Place} {host : Host (Traced σ)}
    {turn : Turn (Traced σ)} (hstands : Stands scope turn next)
    (hagrees : Agrees past scope host.scopes) (hrecorded : turn.Recorded)
    (hfresh : turn.move.kind = .enter → ∀ entry ∈ past, ¬ turn.place <:+ entry.place)
    (hpast : ∀ entry ∈ past, ∀ scope ∈ entry.starts, scope <:+ entry.place) :
    Keeps past host turn next := by
  cases hstands with
  | enter index _ name => exact keeps_enter hagrees index name (hfresh rfl) hpast
  | test index _ name body => exact keeps_test hagrees index name hrecorded
  | attach index _ point callback => exact keeps_attach hagrees index point hrecorded
  | note index _ record => exact keeps_note hagrees index record
  | leave index => exact keeps_leave hagrees
  | finish => exact keeps_finish hagrees

end Stepbook.Host
