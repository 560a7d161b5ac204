import Stepbook.Proofs.Run.Erasure
import Stepbook.Proofs.Run.Scene

/-! # The lifecycle of scopes

Over a whole run, whatever is declared and whatever the callbacks reply, each scope is set up at
most once and taken down exactly if it has been set up.

* `history`: the entries of a run.
* `history_sound`: every entry is sound after those before it.
* `Lifecycle`: when a scope is set up and taken down, and what is called in between.
* `history_lifecycle`: the lifecycle of every scope of a run.
-/

namespace Stepbook.Host
set_option autoImplicit false

variable {σ : Type}

/-! ## Whole runs -/

/-- The entries of turns that a host takes one after another. -/
def entries (host : Host (Traced σ)) (session : Session (Traced σ)) :
    List (Turn (Traced σ)) → List Entry
  | [] => []
  | turn :: rest =>
    let out := host.perform turn.move session
    entry host out.1 turn (out.2.memory.calls.drop session.memory.calls.length) ::
      entries out.1 out.2 rest

def history (declarations : List (Declaration σ)) (session : Session σ) : List Entry :=
  entries empty (session.keeping [])
    (Declaration.schedule (Declaration.tracedAll [] 0 declarations))

theorem map_mark_entries (host : Host (Traced σ)) (session : Session (Traced σ))
    (turns : List (Turn (Traced σ))) :
    (entries host session turns).map Entry.mark = turns.map Turn.mark := by
  induction turns generalizing host session with
  | nil => rfl
  | cons turn rest ih =>
    rw [entries, List.map_cons, List.map_cons, ih]
    rfl

/-- Every entry is sound after those before it. -/
def AllSound (past run : List Entry) : Prop :=
  ∀ before entry after, run = before ++ entry :: after → Sound (past ++ before) entry

theorem map_entry_scenes (host : Host (Traced σ)) (session : Session (Traced σ))
    (turns : List (Turn (Traced σ))) :
    (scenes host session turns).map Scene.entry = entries host session turns := by
  induction turns generalizing host session with
  | nil => rfl
  | cons turn rest ih =>
    rw [scenes, entries, List.map_cons, ih]
    rfl

theorem allSound_of_allMeet {past : List Entry} {run : List Scene}
    (h : AllMeet (fun past scene => Sound past scene.entry) past run) :
    AllSound past (run.map Scene.entry) := by
  intro before entry after heq
  obtain ⟨first, others, rfl, rfl, hothers⟩ := List.map_eq_append_iff.1 heq
  obtain ⟨scene, last, rfl, rfl, rfl⟩ := List.map_eq_cons_iff.1 hothers
  exact h first scene last rfl

/-- Scopes are only set up by turns that stand in them. -/
def Grounded (past : List Entry) : Prop :=
  ∀ entry ∈ past, ∀ scope ∈ entry.starts, scope <:+ entry.place

theorem Grounded.concat {past : List Entry} {entry : Entry} (h : Grounded past)
    (hsound : Sound past entry) : Grounded (past ++ [entry]) := by
  intro other hother scope hscope
  rcases List.mem_append.1 hother with hother | hother
  · exact h other hother scope hscope
  · rw [List.mem_singleton.1 hother] at hscope ⊢
    exact ((hsound.starts_iff scope).1 hscope).1.2.1

theorem upholds_sound : Upholds
    (fun past place (host : Host (Traced σ)) => Agrees past place host.scopes ∧ Grounded past)
    fun past scene => Sound past scene.entry where
  perform hstands hrecorded hfresh h := by
    refine Emits.mono (keeps_perform hstands h.1 hrecorded hfresh h.2) fun after calls hkeeps => ?_
    exact ⟨hkeeps.1, hkeeps.2, h.2.concat hkeeps.1⟩

theorem agrees_empty : Agrees [] [] (empty : Host (Traced σ)).scopes :=
  .root (.empty (fun _ hentry => absurd hentry List.not_mem_nil) fun _ hentry =>
    absurd hentry List.not_mem_nil)

/-- Every entry of a run is sound, and the calls of the run are those of its entries. -/
theorem history_sound (declarations : List (Declaration σ)) (session : Session σ) :
    AllSound [] (history declarations session) ∧
      complete (Declaration.tracedAll [] 0 declarations) (session.keeping []) =
        ((complete declarations session).1, (complete declarations session).2.keeping
          ((history declarations session).flatMap Entry.calls)) := by
  obtain ⟨hsound, hcalls⟩ := upholds_sound.run (Declaration.walk_schedule _) (session.keeping [])
    ⟨agrees_empty, fun _ hentry => absurd hentry List.not_mem_nil⟩
    (Declaration.recorded_schedule declarations) (Declaration.fresh_schedule _)
    fun _ _ _ _ hentry => absurd hentry List.not_mem_nil
  have hsound := allSound_of_allMeet hsound
  rw [← List.flatMap_map, map_entry_scenes] at hcalls
  rw [map_entry_scenes] at hsound
  obtain ⟨hreport, herase⟩ := erases_complete declarations (session.keeping [])
  refine ⟨hsound, Prod.ext hreport ?_⟩
  have hkept : (complete (Declaration.tracedAll [] 0 declarations)
      (session.keeping [])).2.memory.calls =
        (history declarations session).flatMap Entry.calls := by
    rw [complete_eq]
    exact hcalls
  rw [← hkept, ← Session.keeping_erase (complete _ _).2, herase]
  rfl

/-! ## Lifecycles -/

/-- The root, and the groups that are entered. -/
def scopesOf (run : List Entry) : List Place :=
  [] :: (run.filter fun entry => entry.kind = .enter).map Entry.place

/-- When a scope is set up and taken down in a run. -/
structure Lifecycle (run : List Entry) (scope : Place) : Prop where
  /-- It is set up in the first test in it for which all scopes around it are ready. -/
  starts_iff : ∀ past entry rest, run = past ++ entry :: rest →
    (scope ∈ entry.starts ↔ entry.IsTestIn scope ∧ Enclosed (past ++ [entry]) scope ∧
      ∀ before earlier between, past = before ++ earlier :: between →
        earlier.IsTestIn scope → ¬ Enclosed (before ++ [earlier]) scope)
  starts_once : ∀ past entry rest, run = past ++ entry :: rest → scope ∈ entry.starts →
    ∀ other ∈ past ++ rest, scope ∉ other.starts
  beforeAll : ∀ past entry rest, run = past ++ entry :: rest → scope ∈ entry.starts →
    CallsSetup past scope entry.calls
  beforeAll_only : ∀ entry ∈ run, ∀ call ∈ entry.calls, call.role = .hook .beforeAll →
    call.scope = scope → scope ∈ entry.starts
  /-- Nothing else is called for a test in it unless its own hooks have succeeded. -/
  each : ∀ past entry rest, run = past ++ entry :: rest → entry.IsTestIn scope →
    ∀ call ∈ entry.calls, call.role.isEach = true → Ready (past ++ [entry]) scope
  each_only : ∀ entry ∈ run, ∀ call ∈ entry.calls, call.role.isEach = true →
    call.scope = scope → entry.IsTestIn scope
  /-- All that is done in it stands together, and ends with leaving it. -/
  leaves : ∃ before inside last after, run = before ++ (inside ++ last :: after) ∧
    last.mark = (scope, .leave) ∧
    (∀ entry ∈ inside, scope <:+ entry.place ∧ entry.mark ≠ (scope, .leave)) ∧
    (∀ entry ∈ before ++ after, ¬ scope <:+ entry.place) ∧ Leaves run scope last.calls
  hooks_nodup : ∀ point, (attached run scope point).Nodup
  afterAll_only : ∀ entry ∈ run, ∀ call ∈ entry.calls, call.role = .hook .afterAll →
    call.scope = scope → entry.mark = (scope, .leave)
  /-- Nothing that is declared in it is called at all if it is never set up. -/
  unstarted : ¬ Started run scope → ∀ entry ∈ run, ∀ call ∈ entry.calls, call.scope ≠ scope

namespace AllSound
variable {run : List Entry}

theorem at_split (h : AllSound [] run) {past rest : List Entry} {entry : Entry}
    (heq : run = past ++ entry :: rest) : Sound past entry := by
  have hsound := h past entry rest heq
  rwa [List.nil_append] at hsound

theorem exists_split (h : AllSound [] run) {entry : Entry} (hentry : entry ∈ run) :
    ∃ past rest, run = past ++ entry :: rest ∧ Sound past entry := by
  obtain ⟨past, rest, heq⟩ := List.append_of_mem hentry
  exact ⟨past, rest, heq, h.at_split heq⟩

/-- A scope has been started if there has been a test in it with all scopes around it ready. -/
theorem started_iff (h : AllSound [] run) {past rest : List Entry} (heq : run = past ++ rest)
    (scope : Place) :
    Started past scope ↔ ∃ before earlier between, past = before ++ earlier :: between ∧
      earlier.IsTestIn scope ∧ Enclosed (before ++ [earlier]) scope := by
  have hat : ∀ {before between : List Entry} {earlier : Entry},
      past = before ++ earlier :: between → Sound before earlier := by
    intro before between earlier hpast
    have hrun : run = before ++ earlier :: (between ++ rest) := by
      rw [heq, hpast, List.append_assoc, List.cons_append]
    exact h.at_split hrun
  constructor
  · rintro ⟨earlier, hearlier, hscope⟩
    obtain ⟨before, between, hpast⟩ := List.append_of_mem hearlier
    obtain ⟨htest, henclosed, -⟩ := ((hat hpast).starts_iff scope).1 hscope
    exact ⟨before, earlier, between, hpast, htest, henclosed⟩
  · rintro ⟨before, earlier, between, hpast, htest, henclosed⟩
    by_cases hbefore : Started before scope
    · obtain ⟨entry, hentry, hscope⟩ := hbefore
      refine ⟨entry, ?_, hscope⟩
      rw [hpast]
      exact List.mem_append_left _ hentry
    · refine ⟨earlier, ?_, ((hat hpast).starts_iff scope).2 ⟨htest, henclosed, hbefore⟩⟩
      rw [hpast]
      exact List.mem_append_right _ List.mem_cons_self

theorem starts_iff (h : AllSound [] run) {past rest : List Entry} {entry : Entry}
    (heq : run = past ++ entry :: rest) (scope : Place) :
    scope ∈ entry.starts ↔ entry.IsTestIn scope ∧ Enclosed (past ++ [entry]) scope ∧
      ∀ before earlier between, past = before ++ earlier :: between →
        earlier.IsTestIn scope → ¬ Enclosed (before ++ [earlier]) scope := by
  rw [(h.at_split heq).starts_iff, h.started_iff heq]
  refine and_congr_right fun _ => and_congr_right fun _ => ?_
  constructor
  · intro hnone before earlier between hpast htest henclosed
    exact hnone ⟨before, earlier, between, hpast, htest, henclosed⟩
  · rintro hnone ⟨before, earlier, between, hpast, htest, henclosed⟩
    exact hnone before earlier between hpast htest henclosed

theorem starts_once (h : AllSound [] run) {past rest : List Entry} {entry : Entry}
    (heq : run = past ++ entry :: rest) {scope : Place} (hscope : scope ∈ entry.starts) :
    ∀ other ∈ past ++ rest, scope ∉ other.starts := by
  intro other hother hagain
  rcases List.mem_append.1 hother with hother | hother
  · have hnot := (((h.at_split heq).starts_iff scope).1 hscope).2.2
    exact hnot ⟨other, hother, hagain⟩
  · obtain ⟨between, last, rfl⟩ := List.append_of_mem hother
    have hlast : run = (past ++ entry :: between) ++ other :: last := by
      rw [heq, List.append_assoc, List.cons_append]
    have hnot := (((h.at_split hlast).starts_iff scope).1 hagain).2.2
    exact hnot ⟨entry, List.mem_append_right _ List.mem_cons_self, hscope⟩

theorem started_append (h : AllSound [] run) {past rest : List Entry} (heq : run = past ++ rest)
    {scope : Place} (hrest : ∀ entry ∈ rest, ¬ entry.IsTestIn scope) :
    Started run scope ↔ Started past scope := by
  constructor
  · rintro ⟨entry, hentry, hscope⟩
    obtain ⟨before, after, -, hsound⟩ := h.exists_split hentry
    rw [heq] at hentry
    rcases List.mem_append.1 hentry with hentry | hentry
    · exact ⟨entry, hentry, hscope⟩
    · exact absurd ((hsound.starts_iff scope).1 hscope).1 (hrest entry hentry)
  · rintro ⟨entry, hentry, hscope⟩
    refine ⟨entry, ?_, hscope⟩
    rw [heq]
    exact List.mem_append_left _ hentry

theorem leaves (h : AllSound [] run) {scope : Place} (hblock : Block scope (run.map Entry.mark)) :
    ∃ before inside last after, run = before ++ (inside ++ last :: after) ∧
      last.mark = (scope, .leave) ∧
      (∀ entry ∈ inside, scope <:+ entry.place ∧ entry.mark ≠ (scope, .leave)) ∧
      (∀ entry ∈ before ++ after, ¬ scope <:+ entry.place) ∧ Leaves run scope last.calls := by
  obtain ⟨marksBefore, marksInside, marksAfter, heq, hinside, houtside⟩ := hblock
  obtain ⟨before, others, rfl, rfl, hothers⟩ := List.map_eq_append_iff.1 heq
  obtain ⟨inside, ending, rfl, rfl, hending⟩ := List.map_eq_append_iff.1 hothers
  obtain ⟨last, after, rfl, hlast, rfl⟩ := List.map_eq_cons_iff.1 hending
  have houtside : ∀ entry ∈ before ++ after, ¬ scope <:+ entry.place := by
    intro entry hentry
    refine houtside entry.mark ?_
    rw [← List.map_append]
    exact List.mem_map_of_mem hentry
  refine ⟨before, inside, last, after, rfl, hlast, ?_, houtside, ?_⟩
  · exact fun entry hentry => hinside entry.mark (List.mem_map_of_mem hentry)
  · have hplace : last.place = scope := congrArg Prod.fst hlast
    have hkind : last.kind = .leave := congrArg Prod.snd hlast
    have heq : before ++ (inside ++ last :: after) = (before ++ inside) ++ last :: after := by
      rw [List.append_assoc]
    have hleaves := (h.at_split heq).afterAll hkind
    rw [hplace] at hleaves
    have hnot : ∀ entry ∈ last :: after, ¬ entry.IsTestIn scope ∧
        ∀ point, ¬ (entry.kind = .attach point ∧ entry.place.tail = scope) := by
      intro entry hentry
      rcases List.mem_cons.1 hentry with rfl | hentry
      · rw [Entry.IsTestIn, hkind]
        refine ⟨?_, ?_⟩
        · rintro ⟨htest, -⟩
          cases htest
        · rintro point ⟨hattach, -⟩
          cases hattach
      · have hsuffix := houtside entry (List.mem_append_right _ hentry)
        refine ⟨fun htest => hsuffix htest.2.1, fun point hattach => hsuffix ?_⟩
        rw [← hattach.2]
        exact List.tail_suffix _
    rw [Leaves, h.started_append heq fun entry hentry => (hnot entry hentry).1, heq,
      attached_append_of_not fun entry hentry => (hnot entry hentry).2 .afterAll]
    exact hleaves

theorem started_of_call (h : AllSound [] run) {entry : Entry} (hentry : entry ∈ run) {call : Call}
    (hcall : call ∈ entry.calls) : Started run call.scope := by
  obtain ⟨past, rest, heq, hat⟩ := h.exists_split hentry
  have hlater : ∀ {scope : Place}, Started past scope → Started run scope := by
    rintro scope ⟨earlier, hearlier, hscope⟩
    refine ⟨earlier, ?_, hscope⟩
    rw [heq]
    exact List.mem_append_left _ hearlier
  have hnow : call.scope ∈ entry.starts → Started run call.scope := fun hscope =>
    ⟨entry, hentry, hscope⟩
  rcases call.role.eq_or_isEach with hrole | hrole | heach
  · exact hnow (hat.beforeAll_only call hcall hrole)
  · obtain ⟨hkind, hplace⟩ := hat.afterAll_only call hcall hrole
    by_cases hstarted : Started past entry.place
    · rw [hplace]
      exact hlater hstarted
    · rw [(hat.afterAll hkind).2 hstarted] at hcall
      exact absurd hcall List.not_mem_nil
  · obtain ⟨htest, henclosed⟩ := hat.each call hcall heach
    have hready := henclosed call.scope htest.2.1 htest.2.2
    exact (started_concat.1 hready.started).elim hlater hnow

end AllSound

theorem hooks_nodup {run : List Entry} {turns : List (Turn (Traced σ))}
    (heq : run.map Entry.mark = turns.map Turn.mark) (hfresh : Fresh turns) (scope : Place)
    (point : HookPoint) : (attached run scope point).Nodup := by
  have hmarks : (turns.map Turn.mark).Pairwise fun earlier later =>
      later.2 ≠ .leave → ¬ later.1 <:+ earlier.1 := List.pairwise_map.2 hfresh
  rw [← heq, List.pairwise_map] at hmarks
  refine List.pairwise_map.2 ((hmarks.filter _).imp_of_mem ?_)
  intro earlier later _ hlater hnew hsame
  have hkind := (of_decide_eq_true (List.mem_filter.1 hlater).2).1
  refine hnew ?_ ?_
  · show later.kind ≠ .leave
    rw [hkind]
    exact nofun
  · show later.place <:+ earlier.place
    rw [hsame]

theorem AllSound.lifecycle {run : List Entry} (h : AllSound [] run) {scope : Place}
    (hblock : Block scope (run.map Entry.mark))
    (hnodup : ∀ point, (attached run scope point).Nodup) : Lifecycle run scope where
  starts_iff past entry rest heq := h.starts_iff heq scope
  starts_once past entry rest heq hstarts := h.starts_once heq hstarts
  beforeAll past entry rest heq hstarts := (h.at_split heq).beforeAll scope hstarts
  beforeAll_only entry hentry call hcall hrole hown := by
    obtain ⟨past, rest, -, hat⟩ := h.exists_split hentry
    rw [← hown]
    exact hat.beforeAll_only call hcall hrole
  each past entry rest heq htest call hcall hrole :=
    ((h.at_split heq).each call hcall hrole).2 scope htest.2.1 htest.2.2
  each_only entry hentry call hcall hrole hown := by
    obtain ⟨past, rest, -, hat⟩ := h.exists_split hentry
    rw [← hown]
    exact (hat.each call hcall hrole).1
  leaves := h.leaves hblock
  hooks_nodup := hnodup
  afterAll_only entry hentry call hcall hrole hown := by
    obtain ⟨past, rest, -, hat⟩ := h.exists_split hentry
    obtain ⟨hkind, hplace⟩ := hat.afterAll_only call hcall hrole
    rw [← hown, hplace, ← hkind]
    rfl
  unstarted hnot entry hentry call hcall hown := by
    rw [← hown] at hnot
    exact hnot (h.started_of_call hentry hcall)

/-- Over every run, each scope has its lifecycle. The run is the one that is observed: where its
callbacks keep their calls, it ends as it does otherwise, with the calls of its entries. -/
theorem history_lifecycle (declarations : List (Declaration σ)) (session : Session σ) :
    complete (Declaration.tracedAll [] 0 declarations) (session.keeping []) =
        ((complete declarations session).1, (complete declarations session).2.keeping
          ((history declarations session).flatMap Entry.calls)) ∧
      ∀ scope ∈ scopesOf (history declarations session),
        Lifecycle (history declarations session) scope := by
  obtain ⟨hsound, hcalls⟩ := history_sound declarations session
  refine ⟨hcalls, fun scope hscope => ?_⟩
  have hmarks := map_mark_entries (empty : Host (Traced σ)) (session.keeping [])
    (Declaration.schedule (Declaration.tracedAll [] 0 declarations))
  have hentered : scope = [] ∨ (scope, .enter) ∈ (history declarations session).map Entry.mark := by
    refine (List.mem_cons.1 hscope).imp_right fun hgroup => ?_
    obtain ⟨entry, hentry, rfl⟩ := List.mem_map.1 hgroup
    obtain ⟨hentry, hkind⟩ := List.mem_filter.1 hentry
    refine List.mem_map.2 ⟨entry, hentry, ?_⟩
    rw [Entry.mark, of_decide_eq_true hkind]
  have hblock : Block scope ((history declarations session).map Entry.mark) := by
    rw [history, hmarks] at hentered ⊢
    exact Declaration.block_schedule scope _ hentered
  exact hsound.lifecycle hblock (hooks_nodup hmarks (Declaration.fresh_schedule _) scope)

/-- A group whose setup panics and whose body ends with an error, behind one without tests. -/
def panickingGroup : List (Declaration Nat) :=
  [.hook .beforeAll .nothing,
    .group "idle" [.hook .afterAll .nothing],
    .group "busy" [
      .hook .beforeAll fun session => (.panic none, session),
      .hook .afterAll .nothing,
      .test "first" .nothing,
      .stop .missingSteps],
    .test "unreached" .nothing]

theorem history_lifecycle_panickingGroup :
    [2] ∈ scopesOf (history panickingGroup ⟨0, []⟩) ∧
      Lifecycle (history panickingGroup ⟨0, []⟩) [2] :=
  ⟨by decide, (history_lifecycle panickingGroup ⟨0, []⟩).2 [2] (by decide)⟩

end Stepbook.Host
