import Stepbook.Proofs.Run.Turn

/-! # Histories of runs

A history is what has been done so far, turn by turn, with the scopes that each turn has set up and
the calls that it has made. What a host knows about its open scopes can be read off the history.

* `Entry`: a turn in a history.
* `Started`, `Ready`, `Enclosed`, `attached`: what a history says about a scope.
* `Agrees`: open scopes that hold what the history says.
* `Agrees.enter`, `Agrees.attach`, `Agrees.frame`: turns that set up no scope.
-/

namespace Stepbook.Host
set_option autoImplicit false

variable {σ : Type}

/-! ## Entries -/

structure Entry where
  place : Place
  kind : Move.Kind
  /-- The scopes that have not been set up before. -/
  starts : List Place
  calls : List Call
  deriving DecidableEq, Repr

namespace Entry

def mark (entry : Entry) : Mark :=
  (entry.place, entry.kind)

def IsTestIn (entry : Entry) (scope : Place) : Prop :=
  entry.kind = .test ∧ scope <:+ entry.place ∧ scope ≠ entry.place

/-- The scope is set up, and none of its hooks fails. -/
def SetsUp (entry : Entry) (scope : Place) : Prop :=
  scope ∈ entry.starts ∧
    ∀ call ∈ entry.calls, call.role = .hook .beforeAll → call.scope = scope → call.reply = .ok

end Entry

/-! ## What a history says -/

def Started (past : List Entry) (scope : Place) : Prop :=
  ∃ entry ∈ past, scope ∈ entry.starts

def Ready (past : List Entry) (scope : Place) : Prop :=
  ∃ entry ∈ past, entry.SetsUp scope

/-- All scopes around a place are ready. -/
def Enclosed (past : List Entry) (place : Place) : Prop :=
  ∀ scope, scope <:+ place → scope ≠ place → Ready past scope

/-- The places of the hooks of a scope. -/
def attached (past : List Entry) (scope : Place) (point : HookPoint) : List Place :=
  (past.filter fun entry => entry.kind = .attach point ∧ entry.place.tail = scope).map Entry.place

theorem started_concat {past : List Entry} {entry : Entry} {scope : Place} :
    Started (past ++ [entry]) scope ↔ Started past scope ∨ scope ∈ entry.starts := by
  simp only [Started, List.mem_append, List.mem_singleton, or_and_right, exists_or, exists_eq_left]

theorem ready_concat {past : List Entry} {entry : Entry} {scope : Place} :
    Ready (past ++ [entry]) scope ↔ Ready past scope ∨ entry.SetsUp scope := by
  simp only [Ready, List.mem_append, List.mem_singleton, or_and_right, exists_or, exists_eq_left]

theorem Ready.started {past : List Entry} {scope : Place} (h : Ready past scope) :
    Started past scope := by
  obtain ⟨entry, hentry, hsets⟩ := h
  exact ⟨entry, hentry, hsets.1⟩

theorem enclosed_cons {past : List Entry} {index : Nat} {place : Place} :
    Enclosed past (index :: place) ↔ ∀ scope, scope <:+ place → Ready past scope := by
  constructor
  · intro h scope hscope
    obtain ⟨hsuffix, hne⟩ := suffix_cons_and_ne.2 hscope
    exact h scope hsuffix hne
  · intro h scope hscope hne
    exact h scope (suffix_cons_and_ne.1 ⟨hscope, hne⟩)

theorem attached_append_of_not {past rest : List Entry} {scope : Place} {point : HookPoint}
    (h : ∀ entry ∈ rest, ¬ (entry.kind = .attach point ∧ entry.place.tail = scope)) :
    attached (past ++ rest) scope point = attached past scope point := by
  have hnil : rest.filter (fun entry => entry.kind = .attach point ∧ entry.place.tail = scope) =
      [] := by
    refine List.filter_eq_nil_iff.2 fun entry hentry htrue => ?_
    exact h entry hentry (of_decide_eq_true htrue)
  rw [attached, attached, List.filter_append, hnil, List.append_nil]

theorem attached_concat_of_ne {past : List Entry} {entry : Entry} {scope : Place}
    {point : HookPoint} (h : entry.kind = .attach point → entry.place.tail ≠ scope) :
    attached (past ++ [entry]) scope point = attached past scope point := by
  refine attached_append_of_not fun other hother hboth => ?_
  rw [List.mem_singleton.1 hother] at hboth
  exact h hboth.1 hboth.2

theorem attached_concat {past : List Entry} {entry : Entry} {point : HookPoint}
    (h : entry.kind = .attach point) :
    attached (past ++ [entry]) entry.place.tail point =
      attached past entry.place.tail point ++ [entry.place] := by
  simp [attached, List.filter_append, h]

theorem tail_of_mem_attached {past : List Entry} {scope place : Place} {point : HookPoint}
    (h : place ∈ attached past scope point) : place.tail = scope := by
  obtain ⟨entry, hentry, rfl⟩ := List.mem_map.1 h
  have hfilter := (List.mem_filter.1 hentry).2
  exact (of_decide_eq_true hfilter).2

/-! ## Open scopes -/

/-- The hooks of a scope are those that have been attached to it. -/
def HasHooks (past : List Entry) (place : Place) (scope : Scope (Traced σ)) : Prop :=
  ∀ point, List.Forall₂ (fun hook callback => Records hook (.hook point) callback)
    (attached past place point) (scope.hooks point)

structure ScopeAgrees (past : List Entry) (place : Place) (scope : Scope (Traced σ)) :
    Prop where
  hooks : HasHooks past place scope
  started : scope.setup ≠ .pending ↔ Started past place
  ready : scope.setup = .done ↔ Ready past place

inductive Agrees (past : List Entry) : Place → Scopes (Traced σ) → Prop where
  | root {scope : Scope (Traced σ)} (own : ScopeAgrees past [] scope) : Agrees past [] (.root scope)
  /-- A scope is started only where all scopes around it are ready. -/
  | group {index : Nat} {place : Place} {name : String} {scope : Scope (Traced σ)}
      {outer : Scopes (Traced σ)} (own : ScopeAgrees past (index :: place) scope)
      (nested : Started past (index :: place) → ∀ other, other <:+ place → Ready past other)
      (others : Agrees past place outer) : Agrees past (index :: place) (.group name scope outer)

namespace ScopeAgrees
variable {past : List Entry} {place : Place} {scope : Scope (Traced σ)}

theorem pending_iff (h : ScopeAgrees past place scope) :
    scope.setup = .pending ↔ ¬ Started past place := by
  rw [← h.started, ne_eq, not_not]

theorem frame (h : ScopeAgrees past place scope) {entry : Entry} (hstarts : place ∉ entry.starts)
    (hplace : ∀ point, entry.kind = .attach point → entry.place.tail ≠ place) :
    ScopeAgrees (past ++ [entry]) place scope where
  hooks point := by
    rw [attached_concat_of_ne (hplace point)]
    exact h.hooks point
  started := by
    rw [h.started, started_concat]
    simp only [hstarts, or_false]
  ready := by
    rw [h.ready, ready_concat]
    simp only [Entry.SetsUp, hstarts, false_and, or_false]

theorem empty (hfresh : ∀ entry ∈ past, ¬ place <:+ entry.place)
    (hstarts : ∀ entry ∈ past, ∀ scope ∈ entry.starts, scope <:+ entry.place) :
    ScopeAgrees past place (Scope.empty : Scope (Traced σ)) where
  hooks point := by
    have hnone : attached past place point = [] := by
      rw [attached, List.map_eq_nil_iff, List.filter_eq_nil_iff]
      intro entry hentry hfilter
      have htail := (of_decide_eq_true hfilter).2
      refine hfresh entry hentry ?_
      rw [← htail]
      exact List.tail_suffix _
    rw [hnone]
    exact .nil
  started := by
    refine ⟨fun h => absurd rfl h, ?_⟩
    rintro ⟨entry, hentry, hmem⟩
    exact absurd (hstarts entry hentry place hmem) (hfresh entry hentry)
  ready := by
    refine ⟨fun h => (by cases h), ?_⟩
    rintro ⟨entry, hentry, hmem, -⟩
    exact absurd (hstarts entry hentry place hmem) (hfresh entry hentry)

theorem attach (h : ScopeAgrees past place scope) {entry : Entry} {point : HookPoint}
    {callback : Callback (Traced σ)} (hkind : entry.kind = .attach point)
    (hplace : entry.place.tail = place) (hstarts : entry.starts = [])
    (hrecords : Records entry.place (.hook point) callback) :
    ScopeAgrees (past ++ [entry]) place (scope.attach point callback) where
  hooks other := by
    by_cases heq : other = point
    · subst heq
      have hattached : attached (past ++ [entry]) entry.place.tail other = _ :=
        attached_concat hkind
      rw [hplace] at hattached
      rw [hattached, Scope.attach]
      simp only [if_true]
      exact List.rel_append (h.hooks other) (.cons hrecords .nil)
    · rw [attached_concat_of_ne, Scope.attach]
      · simp only [heq, if_false]
        exact h.hooks other
      · rw [hkind]
        intro h'
        cases h'
        exact absurd rfl heq
  started := by
    rw [started_concat, hstarts]
    simp only [List.not_mem_nil, or_false]
    exact h.started
  ready := by
    rw [ready_concat, Entry.SetsUp, hstarts]
    simp only [List.not_mem_nil, false_and, or_false]
    exact h.ready

end ScopeAgrees

theorem nested_concat {past : List Entry} {place outer : Place} {entry : Entry}
    (nested : Started past place → ∀ other, other <:+ outer → Ready past other)
    (hnot : place ∉ entry.starts) :
    Started (past ++ [entry]) place → ∀ other, other <:+ outer → Ready (past ++ [entry]) other := by
  intro hstarted other hother
  rw [started_concat] at hstarted
  exact ready_concat.2 (.inl (nested (hstarted.resolve_right hnot) other hother))

namespace Agrees
variable {past : List Entry} {place : Place} {scopes : Scopes (Traced σ)}

/-- A turn that neither sets up an open scope nor attaches a hook to it. -/
theorem frame (h : Agrees past place scopes) {entry : Entry}
    (hstarts : ∀ scope, scope <:+ place → scope ∉ entry.starts)
    (hplace : ∀ scope, scope <:+ place → ∀ point, entry.kind = .attach point →
      entry.place.tail ≠ scope) :
    Agrees (past ++ [entry]) place scopes := by
  induction h with
  | root own =>
    exact .root (own.frame (hstarts _ (List.suffix_refl _)) (hplace _ (List.suffix_refl _)))
  | @group index place name scope outer own nested others ih =>
    have hnot := hstarts _ (List.suffix_refl _)
    refine .group (own.frame hnot (hplace _ (List.suffix_refl _))) (nested_concat nested hnot) ?_
    refine ih (fun scope hscope => ?_) fun scope hscope => ?_
    · exact hstarts scope (hscope.trans (List.suffix_cons _ _))
    · exact hplace scope (hscope.trans (List.suffix_cons _ _))

theorem attach (h : Agrees past place scopes) {entry : Entry} {point : HookPoint}
    {callback : Callback (Traced σ)} (hkind : entry.kind = .attach point)
    (hplace : entry.place.tail = place) (hstarts : entry.starts = [])
    (hrecords : Records entry.place (.hook point) callback) :
    Agrees (past ++ [entry]) place (scopes.attach point callback) := by
  have hnone : ∀ scope, scope ∉ entry.starts := by
    intro scope
    rw [hstarts]
    exact List.not_mem_nil
  cases h with
  | root own => exact .root (own.attach hkind hplace hstarts hrecords)
  | @group index place name scope outer own nested others =>
    refine .group (own.attach hkind hplace hstarts hrecords) (nested_concat nested (hnone _)) ?_
    refine others.frame (fun scope _ => hnone scope) fun scope hscope _ _ => ?_
    rw [hplace]
    exact cons_ne_of_suffix hscope

theorem enter (h : Agrees past place scopes) {entry : Entry} {index : Nat} (name : String)
    (hkind : entry.kind = .enter) (hstarts : entry.starts = [])
    (hfresh : ∀ entry ∈ past, ¬ (index :: place) <:+ entry.place)
    (hpast : ∀ entry ∈ past, ∀ scope ∈ entry.starts, scope <:+ entry.place) :
    Agrees (past ++ [entry]) (index :: place) (.group name .empty scopes) := by
  have hnone : ∀ scope, scope ∉ entry.starts := by
    intro scope
    rw [hstarts]
    exact List.not_mem_nil
  have hattach : ∀ (scope : Place) point, entry.kind = .attach point →
      entry.place.tail ≠ scope := by
    intro scope point heq
    rw [hkind] at heq
    cases heq
  have hown := (ScopeAgrees.empty (σ := σ) hfresh hpast).frame (hnone _) (hattach _)
  refine .group hown ?_ (h.frame (fun scope _ => hnone scope) fun scope _ => hattach scope)
  intro hstarted
  exact absurd rfl (hown.started.2 hstarted)

end Agrees

end Stepbook.Host
