import Stepbook.Proofs.Run.History

/-! # Setting up scopes

Before a test, the scopes around it are set up from the outermost on, up to the first whose setup
has failed.

* `Begins`, `Opens`: what setting up one scope, and all open scopes, comes to.
* `opens_start`: what a host does.
* `Opens.settled`: afterwards, the scopes hold what the history with that test says.
* `Opens.split`: the hooks of a scope, after those of the scopes around it.
-/

namespace Stepbook.Host
set_option autoImplicit false

variable {σ : Type}

/-! ## One scope -/

def Setup.ofResult : Except StepError Unit → Setup
  | .ok () => .done
  | .error error => .failed error

inductive Begins (past : List Entry) (place : Place) :
    Scope (Traced σ) → Scope (Traced σ) → List Call → Prop where
  | already {scope : Scope (Traced σ)} (started : scope.setup ≠ .pending) :
      Begins past place scope scope []
  | now {scope : Scope (Traced σ)} {calls : List Call} {result : Except StepError Unit}
      (pending : scope.setup = .pending)
      (inOrder : InOrder (.hook .beforeAll) (attached past place .beforeAll) calls result) :
      Begins past place scope { scope with setup := .ofResult result } calls

theorem begins_start {past : List Entry} {place : Place} {scope : Scope (Traced σ)}
    (h : ScopeAgrees past place scope) :
    Emits scope.start fun next calls => Begins past place scope next calls := by
  rw [Scope.start.eq_def]
  cases hsetup : scope.setup with
  | pending =>
    refine Emits.bind (emits_inOrder (h.hooks .beforeAll)) fun result calls hcalls => ?_
    have hbegins := Begins.now hsetup hcalls
    rw [← List.append_nil calls] at hbegins
    cases result with
    | ok value => exact Emits.pure hbegins
    | error error => exact Emits.pure hbegins
  | done =>
    refine Emits.pure (.already ?_)
    rw [hsetup]
    exact nofun
  | failed error =>
    refine Emits.pure (.already ?_)
    rw [hsetup]
    exact nofun

namespace Begins
variable {past : List Entry} {place : Place} {scope next : Scope (Traced σ)} {calls : List Call}

theorem setup_ne (h : Begins past place scope next calls) : next.setup ≠ .pending := by
  cases h with
  | already started => exact started
  | @now calls result pending inOrder => cases result <;> exact nofun

theorem of_mem_calls (h : Begins past place scope next calls) :
    ∀ call ∈ calls, call.role = .hook .beforeAll ∧ call.scope = place ∧
      scope.setup = .pending := by
  cases h with
  | already started => exact fun _ hcall => absurd hcall List.not_mem_nil
  | now pending inOrder =>
    intro call hcall
    obtain ⟨hrole, hplace⟩ := inOrder.role_eq call hcall
    exact ⟨hrole, tail_of_mem_attached hplace, pending⟩

theorem ready_iff (h : Begins past place scope next calls) :
    next.ready = .ok () ↔ next.setup = .done := by
  have hne := h.setup_ne
  rw [Scope.ready.eq_def]
  cases hsetup : next.setup with
  | pending => exact absurd hsetup hne
  | done => simp
  | failed error => simp

/-- A scope that has been set up in a test, or before it. -/
theorem agrees (h : Begins past place scope next calls) (own : ScopeAgrees past place scope)
    {entry : Entry} (hkind : entry.kind = .test)
    (hstarts : place ∈ entry.starts ↔ scope.setup = .pending)
    (hcalls : ∀ call : Call, call.role = .hook .beforeAll → call.scope = place →
      (call ∈ entry.calls ↔ call ∈ calls)) :
    ScopeAgrees (past ++ [entry]) place next := by
  have hattach : ∀ point, entry.kind = .attach point → entry.place.tail ≠ place := by
    intro point heq
    rw [hkind] at heq
    cases heq
  have hof := h.of_mem_calls
  cases h with
  | already started => exact own.frame (fun hmem => started (hstarts.1 hmem)) hattach
  | @now calls result pending inOrder =>
    have hmem := hstarts.2 pending
    refine ⟨?_, ?_, ?_⟩
    · intro point
      rw [attached_concat_of_ne (hattach point)]
      exact own.hooks point
    · rw [started_concat]
      refine ⟨fun _ => .inr hmem, fun _ => ?_⟩
      cases result <;> exact nofun
    · have hnot : ¬ Ready past place := fun hready =>
        own.pending_iff.1 pending hready.started
      have hdone : Setup.ofResult result = .done ↔ result = .ok () := by
        cases result <;> simp [Setup.ofResult]
      rw [ready_concat, hdone, inOrder.eq_ok_iff]
      constructor
      · intro hok
        refine .inr ⟨hmem, fun call hcall hrole hscope => ?_⟩
        exact hok call ((hcalls call hrole hscope).1 hcall)
      · intro hready call hcall
        obtain ⟨hrole, hscope, -⟩ := hof call hcall
        exact (hready.resolve_left hnot).2 call ((hcalls call hrole hscope).2 hcall) hrole hscope

end Begins

/-! ## All open scopes -/

/-- The places of the open scopes that have been started. -/
def Scopes.started (place : Place) : Scopes σ → List Place
  | .root scope => if scope.setup = .pending then [] else [place]
  | .group _ scope outer =>
    (if scope.setup = .pending then [] else [place]) ++ outer.started place.tail

namespace Scopes

theorem mem_started_root {scope : Scope σ} {place other : Place} :
    other ∈ (Scopes.root scope).started place ↔ scope.setup ≠ .pending ∧ other = place := by
  by_cases h : scope.setup = .pending <;> simp [started, h]

theorem mem_started_group {name : String} {scope : Scope σ} {outer : Scopes σ} {index : Nat}
    {place other : Place} :
    other ∈ (Scopes.group name scope outer).started (index :: place) ↔
      scope.setup ≠ .pending ∧ other = index :: place ∨ other ∈ outer.started place := by
  by_cases h : scope.setup = .pending <;> simp [started, h]

theorem suffix_of_mem_started {scopes : Scopes σ} {place other : Place}
    (h : other ∈ scopes.started place) : other <:+ place := by
  induction scopes generalizing place with
  | root scope =>
    obtain ⟨-, rfl⟩ := mem_started_root.1 h
    exact List.suffix_refl _
  | group name scope outer ih =>
    rw [started, List.mem_append] at h
    rcases h with h | h
    · by_cases hsetup : scope.setup = .pending
      · rw [if_pos hsetup] at h
        exact absurd h List.not_mem_nil
      · rw [if_neg hsetup] at h
        obtain rfl := List.mem_singleton.1 h
        exact List.suffix_refl _
    · exact (ih h).trans (List.tail_suffix place)

theorem mem_started_own {name : String} {scope : Scope σ} {outer : Scopes σ} {index : Nat}
    {place : Place} :
    index :: place ∈ (Scopes.group name scope outer).started (index :: place) ↔
      scope.setup ≠ .pending := by
  rw [mem_started_group]
  constructor
  · rintro (hown | hmem)
    · exact hown.1
    · exact absurd (suffix_of_mem_started hmem) (not_cons_suffix (List.suffix_refl _))
  · exact fun h => .inl ⟨h, rfl⟩

theorem mem_started_group_of_suffix {name : String} {scope : Scope σ} {outer : Scopes σ}
    {index : Nat} {place other : Place} (h : other <:+ place) :
    other ∈ (Scopes.group name scope outer).started (index :: place) ↔
      other ∈ outer.started place := by
  rw [mem_started_group]
  refine or_iff_right fun hown => ?_
  exact cons_ne_of_suffix h hown.2.symm

end Scopes

namespace Agrees
variable {past : List Entry} {place : Place} {scopes : Scopes (Traced σ)}

theorem mem_started_iff (h : Agrees past place scopes) {other : Place} (hother : other <:+ place) :
    other ∈ scopes.started place ↔ Started past other := by
  induction h with
  | root own =>
    rw [Scopes.mem_started_root, own.started]
    obtain rfl := List.suffix_nil.1 hother
    exact and_iff_left rfl
  | group own nested others ih =>
    rcases List.suffix_cons_iff.1 hother with rfl | hother
    · rw [Scopes.mem_started_own, own.started]
    · rw [Scopes.mem_started_group_of_suffix hother]
      exact ih hother

theorem enclosed (h : Agrees past place scopes) {other : Place} (hother : other <:+ place)
    (hstarted : Started past other) : Enclosed past other := by
  induction h with
  | root own =>
    obtain rfl := List.suffix_nil.1 hother
    exact fun scope hscope hne => absurd (List.suffix_nil.1 hscope) hne
  | group own nested others ih =>
    rcases List.suffix_cons_iff.1 hother with rfl | hother
    · exact enclosed_cons.2 (nested hstarted)
    · exact ih hother

end Agrees

inductive Opens (past : List Entry) :
    Place → Scopes (Traced σ) → Scopes (Traced σ) → Except StepError Unit → List Call →
      Prop where
  | root {scope next : Scope (Traced σ)} {calls : List Call}
      (begins : Begins past [] scope next calls) :
      Opens past [] (.root scope) (.root next) next.ready calls
  | group {index : Nat} {place : Place} {name : String} {scope next : Scope (Traced σ)}
      {outer opened : Scopes (Traced σ)} {calls own : List Call}
      (others : Opens past place outer opened (.ok ()) calls)
      (begins : Begins past (index :: place) scope next own) :
      Opens past (index :: place) (.group name scope outer) (.group name next opened) next.ready
        (calls ++ own)
  | failed {index : Nat} {place : Place} {name : String} {scope : Scope (Traced σ)}
      {outer opened : Scopes (Traced σ)} {calls : List Call} {error : StepError}
      (others : Opens past place outer opened (.error error) calls) :
      Opens past (index :: place) (.group name scope outer) (.group name scope opened)
        (.error error) calls

theorem opens_start {past : List Entry} {place : Place} {scopes : Scopes (Traced σ)}
    (h : Agrees past place scopes) :
    Emits scopes.start fun out calls => Opens past place scopes out.1 out.2 calls := by
  induction h with
  | root own =>
    rw [Scopes.start]
    refine Emits.bind (begins_start own) fun next calls hbegins => Emits.pure ?_
    rw [List.append_nil]
    exact .root hbegins
  | @group index place name scope outer own nested others ih =>
    rw [Scopes.start]
    refine Emits.bind ih fun out calls hopens => ?_
    obtain ⟨opened, result⟩ := out
    cases result with
    | ok value =>
      refine Emits.bind (begins_start own) fun next more hbegins => Emits.pure ?_
      rw [List.append_nil]
      exact .group hopens hbegins
    | error error =>
      refine Emits.pure ?_
      rw [List.append_nil]
      exact .failed hopens

/-- The calls that set up a scope come in order, after those for the scopes around it. -/
def CallsSetup (past : List Entry) (scope : Place) (calls : List Call) : Prop :=
  ∃ before own after result, calls = before ++ (own ++ after) ∧
    InOrder (.hook .beforeAll) (attached past scope .beforeAll) own result ∧
    (∀ call ∈ before, call.role = .hook .beforeAll ∧ call.scope <:+ scope ∧ call.scope ≠ scope) ∧
    ∀ call ∈ after, call.role = .hook .beforeAll → ¬ call.scope <:+ scope

theorem CallsSetup.append {past : List Entry} {scope : Place} {calls more : List Call}
    (h : CallsSetup past scope calls)
    (hmore : ∀ call ∈ more, call.role = .hook .beforeAll → ¬ call.scope <:+ scope) :
    CallsSetup past scope (calls ++ more) := by
  obtain ⟨before, own, after, result, rfl, hown, hbefore, hafter⟩ := h
  refine ⟨before, own, after ++ more, result, ?_, hown, hbefore, ?_⟩
  · simp only [List.append_assoc]
  · intro call hcall hrole
    rcases List.mem_append.1 hcall with hcall | hcall
    · exact hafter call hcall hrole
    · exact hmore call hcall hrole

/-- What the entry of a test has to say about the scopes that are set up for it. -/
structure Reports (place : Place) (scopes next : Scopes (Traced σ)) (calls : List Call)
    (entry : Entry) : Prop where
  kind : entry.kind = .test
  starts : ∀ other, other <:+ place →
    (other ∈ entry.starts ↔ other ∈ next.started place ∧ other ∉ scopes.started place)
  calls : ∀ call : Call, call.role = .hook .beforeAll → call.scope <:+ place →
    (call ∈ entry.calls ↔ call ∈ calls)

theorem Reports.outer {index : Nat} {place : Place} {name : String} {scope changed : Scope (Traced σ)}
    {outer opened : Scopes (Traced σ)} {calls own : List Call} {entry : Entry}
    (h : Reports (index :: place) (.group name scope outer) (.group name changed opened)
      (calls ++ own) entry)
    (hown : ∀ call ∈ own, call.scope = index :: place) :
    Reports place outer opened calls entry where
  kind := h.kind
  starts other hother := by
    rw [h.starts other (hother.trans (List.suffix_cons _ _)),
      Scopes.mem_started_group_of_suffix hother, Scopes.mem_started_group_of_suffix hother]
  calls call hrole hscope := by
    rw [h.calls call hrole (hscope.trans (List.suffix_cons _ _)), List.mem_append]
    refine or_iff_left fun hcall => ?_
    exact cons_ne_of_suffix hscope (hown call hcall).symm

/-- After a test, the open scopes hold what the history with that test says; all of them are ready
if nothing has failed, and none is left out whose outer scopes are ready. -/
structure Settled (past : List Entry) (place : Place) (next : Scopes (Traced σ))
    (result : Except StepError Unit) (entry : Entry) : Prop where
  agrees : Agrees (past ++ [entry]) place next
  ready_iff : result = .ok () ↔ ∀ other, other <:+ place → Ready (past ++ [entry]) other
  started : ∀ other, other <:+ place → Enclosed (past ++ [entry]) other →
    other ∈ next.started place

namespace Settled
variable {past : List Entry} {index : Nat} {place : Place} {name : String}
  {scope changed : Scope (Traced σ)} {outer opened : Scopes (Traced σ)}
  {result : Except StepError Unit} {calls own : List Call} {entry : Entry}

theorem root (begins : Begins past [] scope changed calls)
    (hagrees : Agrees past [] (.root scope))
    (hreports : Reports [] (.root scope) (.root changed) calls entry) :
    Settled past [] (.root changed) changed.ready entry := by
  cases hagrees with
  | root hown =>
    have hstarts : [] ∈ entry.starts ↔ scope.setup = .pending := by
      rw [hreports.starts [] (List.suffix_refl _), Scopes.mem_started_root, Scopes.mem_started_root]
      simp [begins.setup_ne]
    have hscope := begins.agrees hown hreports.kind hstarts fun call hrole hscope =>
      hreports.calls call hrole (by rw [hscope])
    refine ⟨.root hscope, ?_, ?_⟩
    · rw [begins.ready_iff, hscope.ready]
      simp only [List.suffix_nil, forall_eq]
    · intro other hother _
      rw [Scopes.mem_started_root]
      exact ⟨begins.setup_ne, List.suffix_nil.1 hother⟩

/-- A scope in others that are all ready. -/
theorem group (h : Settled past place opened (.ok ()) entry)
    (begins : Begins past (index :: place) scope changed own)
    (hown : ScopeAgrees past (index :: place) scope)
    (hreports : Reports (index :: place) (.group name scope outer) (.group name changed opened)
      (calls ++ own) entry)
    (hcalls : ∀ call ∈ calls, call.scope <:+ place) :
    Settled past (index :: place) (.group name changed opened) changed.ready entry := by
  have hall := h.ready_iff.1 rfl
  have hstarts : index :: place ∈ entry.starts ↔ scope.setup = .pending := by
    rw [hreports.starts _ (List.suffix_refl _), Scopes.mem_started_own, Scopes.mem_started_own]
    simp [begins.setup_ne]
  have hscope := begins.agrees hown hreports.kind hstarts fun call hrole hscope => by
    rw [hreports.calls call hrole (by rw [hscope]), List.mem_append]
    refine or_iff_right fun hcall => ?_
    exact cons_ne_of_suffix (hcalls call hcall) hscope.symm
  refine ⟨.group hscope (fun _ => hall) h.agrees, ?_, ?_⟩
  · rw [begins.ready_iff, hscope.ready]
    simp only [List.suffix_cons_iff, forall_eq_or_imp]
    exact (and_iff_left hall).symm
  · intro other hother henclosed
    rcases List.suffix_cons_iff.1 hother with rfl | hother
    · exact Scopes.mem_started_own.2 begins.setup_ne
    · rw [Scopes.mem_started_group_of_suffix hother]
      exact h.started other hother henclosed

/-- A scope in others of which one has failed. -/
theorem failed {error : StepError} (h : Settled past place opened (.error error) entry)
    (hown : ScopeAgrees past (index :: place) scope)
    (nested : Started past (index :: place) → ∀ other, other <:+ place → Ready past other)
    (hreports : Reports (index :: place) (.group name scope outer) (.group name scope opened)
      calls entry) :
    Settled past (index :: place) (.group name scope opened) (.error error) entry := by
  have hnot : ¬ ∀ other, other <:+ place → Ready (past ++ [entry]) other :=
    fun hall => nomatch h.ready_iff.2 hall
  have hstarts : index :: place ∉ entry.starts := by
    rw [hreports.starts _ (List.suffix_refl _), Scopes.mem_started_own, Scopes.mem_started_own]
    exact fun h => h.2 h.1
  have hattach : ∀ point, entry.kind = .attach point → entry.place.tail ≠ index :: place := by
    intro point heq
    rw [hreports.kind] at heq
    cases heq
  refine ⟨.group (hown.frame hstarts hattach) (nested_concat nested hstarts) h.agrees, ?_, ?_⟩
  · refine ⟨nofun, fun hall => absurd (fun other hother => ?_) hnot⟩
    exact hall other (hother.trans (List.suffix_cons _ _))
  · intro other hother henclosed
    rcases List.suffix_cons_iff.1 hother with rfl | hother
    · exact absurd (enclosed_cons.1 henclosed) hnot
    · rw [Scopes.mem_started_group_of_suffix hother]
      exact h.started other hother henclosed

end Settled

namespace Opens
variable {past : List Entry} {place : Place} {scopes next : Scopes (Traced σ)}
  {result : Except StepError Unit} {calls : List Call}

theorem of_mem_calls (h : Opens past place scopes next result calls) :
    ∀ call ∈ calls, call.role = .hook .beforeAll ∧ call.scope ∈ next.started place ∧
      call.scope ∉ scopes.started place := by
  induction h with
  | root begins =>
    intro call hcall
    obtain ⟨hrole, hscope, hpending⟩ := begins.of_mem_calls call hcall
    rw [Scopes.mem_started_root, Scopes.mem_started_root]
    exact ⟨hrole, ⟨begins.setup_ne, hscope⟩, fun h => h.1 hpending⟩
  | group others begins ih =>
    intro call hcall
    rcases List.mem_append.1 hcall with hcall | hcall
    · obtain ⟨hrole, hmem, hnot⟩ := ih call hcall
      have hsuffix := Scopes.suffix_of_mem_started hmem
      rw [Scopes.mem_started_group_of_suffix hsuffix, Scopes.mem_started_group_of_suffix hsuffix]
      exact ⟨hrole, hmem, hnot⟩
    · obtain ⟨hrole, hscope, hpending⟩ := begins.of_mem_calls call hcall
      rw [Scopes.mem_started_group, Scopes.mem_started_group]
      refine ⟨hrole, .inl ⟨begins.setup_ne, hscope⟩, ?_⟩
      rintro (hown | hmem)
      · exact hown.1 hpending
      · rw [hscope] at hmem
        exact not_cons_suffix (List.suffix_refl _) (Scopes.suffix_of_mem_started hmem)
  | failed others ih =>
    intro call hcall
    obtain ⟨hrole, hmem, hnot⟩ := ih call hcall
    have hsuffix := Scopes.suffix_of_mem_started hmem
    rw [Scopes.mem_started_group_of_suffix hsuffix, Scopes.mem_started_group_of_suffix hsuffix]
    exact ⟨hrole, hmem, hnot⟩

theorem scope_of_mem_calls (h : Opens past place scopes next result calls) :
    ∀ call ∈ calls, call.scope <:+ place :=
  fun call hcall => Scopes.suffix_of_mem_started (h.of_mem_calls call hcall).2.1

theorem settled (h : Opens past place scopes next result calls)
    (hagrees : Agrees past place scopes) {entry : Entry}
    (hreports : Reports place scopes next calls entry) : Settled past place next result entry := by
  induction h with
  | root begins => exact .root begins hagrees hreports
  | group others begins ih =>
    cases hagrees with
    | group hown nested houter =>
      have hcalls := fun call hcall => (begins.of_mem_calls call hcall).2.1
      have hscope := others.scope_of_mem_calls
      exact (ih houter (hreports.outer hcalls)).group begins hown hreports hscope
  | @failed index place name scope outer opened calls error others ih =>
    cases hagrees with
    | group hown nested houter =>
      have hnone : ∀ call ∈ ([] : List Call), call.scope = index :: place :=
        fun _ hcall => absurd hcall List.not_mem_nil
      have hopened : Reports place outer opened calls entry := by
        rw [← List.append_nil calls] at hreports
        exact hreports.outer hnone
      exact (ih houter hopened).failed hown nested hreports

theorem split (h : Opens past place scopes next result calls) {other : Place}
    (hstarted : other ∈ next.started place) (hnot : other ∉ scopes.started place) :
    CallsSetup past other calls := by
  induction h with
  | root begins =>
    rw [Scopes.mem_started_root] at hstarted hnot
    obtain ⟨-, rfl⟩ := hstarted
    cases begins with
    | already started => exact absurd ⟨started, rfl⟩ hnot
    | now pending inOrder =>
      refine ⟨[], _, [], _, (List.append_nil _).symm, inOrder, ?_, ?_⟩
      all_goals exact fun _ hcall => absurd hcall List.not_mem_nil
  | @group index place name scope next outer opened calls own others begins ih =>
    rw [Scopes.mem_started_group] at hstarted hnot
    rw [not_or] at hnot
    rcases hstarted with hown | hstarted
    · obtain ⟨-, rfl⟩ := hown
      cases begins with
      | already started => exact absurd ⟨started, rfl⟩ hnot.1
      | now pending inOrder =>
        refine ⟨calls, _, [], _, by rw [List.append_nil], inOrder, ?_, ?_⟩
        · intro call hcall
          have hrole := (others.of_mem_calls call hcall).1
          have hsuffix := others.scope_of_mem_calls call hcall
          exact ⟨hrole, hsuffix.trans (List.suffix_cons _ _),
            (cons_ne_of_suffix hsuffix).symm⟩
        · exact fun _ hcall => absurd hcall List.not_mem_nil
    · have hsuffix := Scopes.suffix_of_mem_started hstarted
      refine (ih hstarted hnot.2).append fun call hcall _ => ?_
      obtain ⟨-, hscope, -⟩ := begins.of_mem_calls call hcall
      rw [hscope]
      exact not_cons_suffix hsuffix
  | failed others ih =>
    rw [Scopes.mem_started_group] at hstarted hnot
    rw [not_or] at hnot
    exact ih (hstarted.resolve_left hnot.1) hnot.2

end Opens

end Stepbook.Host
