import Stepbook.Proofs.Run.Blame

/-! # What a failed setup keeps from being called

The setup of a scope that has failed is neither repeated nor passed over: for the tests in that
scope nothing more is called, and nothing in a scope below is called at all.

* `AllSound.ready_around`: a callback is called only where the scopes around its own are ready.
* `Breaks`: the entry of a run in which the setup of a scope fails.
* `Dominates`: all that follows from it in that scope.
* `Breaks.dominates`: it does follow.
-/

namespace Stepbook.Host
set_option autoImplicit false

variable {σ : Type}

/-! ## Calls in a run -/

namespace AllSound
variable {run past rest : List Entry} {entry : Entry}

theorem ready_of_split (heq : run = past ++ entry :: rest) {scope : Place}
    (h : Ready (past ++ [entry]) scope) : Ready run scope := by
  obtain ⟨earlier, hearlier, hsets⟩ := h
  refine ⟨earlier, ?_, hsets⟩
  rw [heq, List.append_cons]
  exact List.mem_append_left _ hearlier

/-- A callback is called only where the scopes around its own are ready. -/
theorem ready_around (h : AllSound [] run) (hentry : entry ∈ run) {call : Call}
    (hcall : call ∈ entry.calls) {outer : Place} (houter : outer <:+ call.scope)
    (hne : outer ≠ call.scope) : Ready run outer := by
  have hstarted : Started run call.scope := h.started_of_call hentry hcall
  obtain ⟨starting, hstarting, hmem⟩ := hstarted
  obtain ⟨past, rest, heq, hsound⟩ := h.exists_split hstarting
  have henclosed := ((hsound.starts_iff call.scope).1 hmem).2.1
  exact ready_of_split heq (henclosed outer houter hne)

/-- No two entries set up the same scope. -/
theorem not_starts_later (h : AllSound [] run) {before after : List Entry}
    (heq : run = before ++ after) {earlier later : Entry} (hearlier : earlier ∈ before)
    (hlater : later ∈ after) {scope : Place} (hscope : scope ∈ earlier.starts) :
    scope ∉ later.starts := by
  obtain ⟨first, second, rfl⟩ := List.append_of_mem hearlier
  have hsplit : run = first ++ earlier :: (second ++ after) := by
    rw [heq, List.append_assoc, List.cons_append]
  refine h.starts_once hsplit hscope later ?_
  exact List.mem_append_right _ (List.mem_append_right _ hlater)

end AllSound

/-! ## A setup that fails -/

/-- In one entry of a run, the setup of a scope fails. -/
structure Breaks (past : List Entry) (failing : Entry) (rest : List Entry) (scope : Place) : Prop where
  sound : AllSound [] (past ++ failing :: rest)
  fails : ∃ error, failing.Fails scope error

namespace Breaks
variable {past rest : List Entry} {failing : Entry} {scope : Place}

theorem at_failing (h : Breaks past failing rest scope) : Sound past failing :=
  h.sound.at_split rfl

theorem mem_starts (h : Breaks past failing rest scope) : scope ∈ failing.starts := by
  obtain ⟨error, hfails⟩ := h.fails
  exact h.at_failing.mem_starts_of_fails hfails

theorem isTestIn (h : Breaks past failing rest scope) : failing.IsTestIn scope :=
  ((h.at_failing.starts_iff scope).1 h.mem_starts).1

theorem not_mem_starts (h : Breaks past failing rest scope) :
    ∀ entry ∈ past ++ rest, scope ∉ entry.starts :=
  h.sound.starts_once rfl h.mem_starts

theorem not_ready (h : Breaks past failing rest scope) : ¬ Ready (past ++ failing :: rest) scope := by
  rintro ⟨entry, hentry, hmem, hok⟩
  have heq : entry = failing := by
    rcases List.mem_append.1 hentry with hbefore | hafter
    · exact absurd hmem (h.not_mem_starts entry (List.mem_append_left _ hbefore))
    · rcases List.mem_cons.1 hafter with heq | hafter
      · exact heq
      · exact absurd hmem (h.not_mem_starts entry (List.mem_append_right _ hafter))
  subst heq
  obtain ⟨error, call, hcall, hrole, hscope, hfailure⟩ := h.fails
  rw [Call.failure?, hok call hcall hrole hscope] at hfailure
  cases hfailure

/-- Nothing in a scope below is called. -/
theorem scope_eq (h : Breaks past failing rest scope) {entry : Entry}
    (hentry : entry ∈ past ++ failing :: rest) {call : Call} (hcall : call ∈ entry.calls)
    (hscope : scope <:+ call.scope) : call.scope = scope := by
  by_contra hne
  exact h.not_ready (h.sound.ready_around hentry hcall hscope fun heq => hne heq.symm)

/-- What is called for a test in the scope is a hook that sets up a scope around. -/
theorem of_test (h : Breaks past failing rest scope) {entry : Entry}
    (hentry : entry ∈ past ++ failing :: rest) (htest : entry.IsTestIn scope) {call : Call}
    (hcall : call ∈ entry.calls) :
    call.role = .hook .beforeAll ∧ call.scope ∈ entry.starts ∧ call.scope <:+ scope := by
  obtain ⟨before, after, heq, hsound⟩ := h.sound.exists_split hentry
  have hrole : call.role = .hook .beforeAll := by
    rcases call.role.eq_or_isEach with hrole | hrole | hrole
    · exact hrole
    · have hleave := (hsound.afterAll_only call hcall hrole).1
      rw [htest.1] at hleave
      cases hleave
    · have hready := (hsound.each call hcall hrole).2 scope htest.2.1 htest.2.2
      exact absurd (AllSound.ready_of_split heq hready) h.not_ready
  have hstarts := hsound.beforeAll_only call hcall hrole
  have hplace := ((hsound.starts_iff _).1 hstarts).1.2.1
  refine ⟨hrole, hstarts, ?_⟩
  rcases List.suffix_or_suffix_of_suffix hplace htest.2.1 with hsuffix | hsuffix
  · exact hsuffix
  · rw [h.scope_eq hentry hcall hsuffix]

/-- For later tests in the scope, nothing is called. -/
theorem calls_eq_nil (h : Breaks past failing rest scope) {entry : Entry} (hentry : entry ∈ rest)
    (htest : entry.IsTestIn scope) : entry.calls = [] := by
  refine List.eq_nil_iff_forall_not_mem.2 fun call hcall => ?_
  have hmem : entry ∈ past ++ failing :: rest :=
    List.mem_append_right _ (List.mem_cons_of_mem _ hentry)
  obtain ⟨-, hstarts, hsuffix⟩ := h.of_test hmem htest hcall
  by_cases heq : call.scope = scope
  · rw [heq] at hstarts
    exact h.not_mem_starts entry (List.mem_append_right _ hentry) hstarts
  · have henclosed := ((h.at_failing.starts_iff scope).1 h.mem_starts).2.1
    obtain ⟨earlier, hearlier, hready⟩ := henclosed call.scope hsuffix heq
    exact h.sound.not_starts_later (List.append_cons past failing rest) hearlier hentry hready.1
      hstarts

/-- Apart from its setup, nothing of the scope itself is called but when it is left. -/
theorem of_own (h : Breaks past failing rest scope) {entry : Entry} (hentry : entry ∈ past ++ rest)
    {call : Call} (hcall : call ∈ entry.calls) (hscope : call.scope = scope) :
    call.role = .hook .afterAll ∧ entry.mark = (scope, .leave) := by
  have hmem : entry ∈ past ++ failing :: rest := by
    rcases List.mem_append.1 hentry with hentry | hentry
    · exact List.mem_append_left _ hentry
    · exact List.mem_append_right _ (List.mem_cons_of_mem _ hentry)
  obtain ⟨before, after, heq, hsound⟩ := h.sound.exists_split hmem
  have hnot : ¬ entry.IsTestIn call.scope := by
    rw [hscope]
    intro htest
    have hstarts := (h.of_test hmem htest hcall).2.1
    rw [hscope] at hstarts
    exact h.not_mem_starts entry hentry hstarts
  rcases call.role.eq_or_isEach with hrole | hrole | hrole
  · exact absurd ((hsound.starts_iff _).1 (hsound.beforeAll_only call hcall hrole)).1 hnot
  · obtain ⟨hkind, hplace⟩ := hsound.afterAll_only call hcall hrole
    refine ⟨hrole, ?_⟩
    rw [← hscope, hplace, ← hkind]
    rfl
  · exact absurd (hsound.each call hcall hrole).1 hnot

/-- The scope is left once, later, and its own hooks are called then. -/
theorem leaves (h : Breaks past failing rest scope)
    (hblock : Block scope ((past ++ failing :: rest).map Entry.mark)) :
    ∃ before last after result, rest = before ++ last :: after ∧ last.mark = (scope, .leave) ∧
      (∀ entry ∈ before ++ after, entry.mark ≠ (scope, .leave)) ∧
      InOrder (.hook .afterAll) (attached (past ++ failing :: rest) scope .afterAll) last.calls
        result := by
  obtain ⟨first, inside, last, after, heq, hlast, hinside, houtside, hleaves⟩ :=
    h.sound.leaves hblock
  obtain ⟨result, hinOrder⟩ := hleaves.1 ⟨failing,
    List.mem_append_right _ List.mem_cons_self, h.mem_starts⟩
  have htest := h.isTestIn
  have hne : failing ≠ last := by
    rintro rfl
    have hkind : failing.kind = .leave := congrArg Prod.snd hlast
    rw [htest.1] at hkind
    cases hkind
  have hbefore : ∀ entry ∈ first ++ inside, entry.mark ≠ (scope, .leave) := by
    intro entry hentry hmark
    rcases List.mem_append.1 hentry with hentry | hentry
    · refine houtside entry (List.mem_append_left _ hentry) ?_
      rw [show entry.place = scope from congrArg Prod.fst hmark]
    · exact (hinside entry hentry).2 hmark
  have hafter : ∀ entry ∈ after, ¬ scope <:+ entry.place := fun entry hentry =>
    houtside entry (List.mem_append_right _ hentry)
  -- The test stands before the end of the scope, since it stands in the scope.
  rw [← List.append_assoc] at heq
  rcases List.append_eq_append_iff.1 heq with ⟨between, hfirst, hrest⟩ | ⟨between, -, hrest⟩
  · cases between with
    | nil => exact absurd (List.cons.inj hrest).1 hne
    | cons head between =>
      obtain ⟨rfl, rfl⟩ := List.cons.inj hrest
      refine ⟨between, last, after, result, rfl, hlast, fun entry hentry => ?_, hinOrder⟩
      rcases List.mem_append.1 hentry with hentry | hentry
      · refine hbefore entry ?_
        rw [hfirst]
        exact List.mem_append_right _ (List.mem_cons_of_mem _ hentry)
      · intro hmark
        refine hafter entry hentry ?_
        rw [show entry.place = scope from congrArg Prod.fst hmark]
  · cases between with
    | nil => exact absurd (List.cons.inj hrest).1.symm hne
    | cons head between =>
      obtain ⟨rfl, rfl⟩ := List.cons.inj hrest
      exact absurd htest.2.1 (hafter failing (List.mem_append_right _ List.mem_cons_self))

end Breaks

/-! ## In a run -/

/-- What follows from a failing setup of a scope: of what has been done so far, the failing test, and
what is done later. -/
structure Dominates (past : List Scene) (failing : Scene) (rest : List Scene) (scope : Place)
    (error : StepError) : Prop where
  isTestIn : failing.entry.IsTestIn scope
  /-- Every test in the scope ends with that failure. -/
  recorded : ∀ scene ∈ failing :: rest, scene.entry.IsTestIn scope →
    scene.outcomes.map Outcome.status = [.failed error]
  /-- For the first of them, scopes are set up as far as the one that fails. -/
  opening : ∀ call ∈ failing.entry.calls, call.role = .hook .beforeAll ∧ call.scope <:+ scope
  /-- For the others, nothing is called. -/
  silent : ∀ scene ∈ rest, scene.entry.IsTestIn scope → scene.entry.calls = []
  /-- Nothing in a scope below is called at all. -/
  below : ∀ scene ∈ past ++ failing :: rest, ∀ call ∈ scene.entry.calls,
    scope <:+ call.scope → call.scope = scope
  /-- Nothing else of the scope is called, but its `afterAll` hooks when it is left. -/
  own : ∀ scene ∈ past ++ rest, ∀ call ∈ scene.entry.calls, call.scope = scope →
    call.role = .hook .afterAll ∧ scene.entry.mark = (scope, .leave)
  leaves : ∃ before last after result, rest = before ++ last :: after ∧
    last.entry.mark = (scope, .leave) ∧
    (∀ scene ∈ before ++ after, scene.entry.mark ≠ (scope, .leave)) ∧
    InOrder (.hook .afterAll)
      (attached ((past ++ failing :: rest).map Scene.entry) scope .afterAll) last.entry.calls result

theorem map_entry_chronicle (declarations : List (Declaration σ)) (session : Session σ) :
    (chronicle declarations session).map Scene.entry = history declarations session :=
  map_entry_scenes _ _ _

/-- What is done in a scope around some entry stands together. -/
theorem block_history (declarations : List (Declaration σ)) (session : Session σ) {entry : Entry}
    (hentry : entry ∈ history declarations session) {scope : Place} (hscope : scope <:+ entry.place)
    (hne : scope ≠ entry.place) : Block scope ((history declarations session).map Entry.mark) := by
  have hmarks := map_mark_entries (empty : Host (Traced σ)) (session.keeping [])
    (Declaration.schedule (Declaration.tracedAll [] 0 declarations))
  have hmark := List.mem_map_of_mem (f := Entry.mark) hentry
  rw [history, hmarks] at hmark ⊢
  obtain ⟨turn, hturn, hsame⟩ := List.mem_map.1 hmark
  have hplace : turn.place = entry.place := congrArg Prod.fst hsame
  rw [← hplace] at hscope hne
  exact Declaration.block_schedule scope _ (Declaration.entered_of_mem hturn hscope hne)

theorem chronicle_dominates (declarations : List (Declaration σ)) (session : Session σ)
    {past rest : List Scene} {failing : Scene}
    (heq : chronicle declarations session = past ++ failing :: rest) {scope : Place}
    {error : StepError} (hfails : failing.entry.Fails scope error) :
    Dominates past failing rest scope error := by
  have hrun : history declarations session =
      past.map Scene.entry ++ failing.entry :: rest.map Scene.entry := by
    rw [← map_entry_chronicle, heq, List.map_append, List.map_cons]
  have hbreaks : Breaks (past.map Scene.entry) failing.entry (rest.map Scene.entry) scope := by
    refine ⟨?_, error, hfails⟩
    rw [← hrun]
    exact (history_sound declarations session).1
  have hmem : ∀ scene ∈ past ++ failing :: rest,
      scene.entry ∈ past.map Scene.entry ++ failing.entry :: rest.map Scene.entry := by
    intro scene hscene
    rw [← List.map_cons, ← List.map_append]
    exact List.mem_map_of_mem hscene
  refine ⟨hbreaks.isTestIn, ?_, ?_, ?_, ?_, ?_, ?_⟩
  · intro scene hscene htest
    obtain ⟨between, after, hsplit⟩ := List.append_of_mem hscene
    have hfirst : failing ∈ between ++ [scene] := by
      cases between with
      | nil => exact List.mem_singleton.2 (List.cons.inj hsplit).1
      | cons head between =>
        rw [(List.cons.inj hsplit).1]
        exact List.mem_cons_self
    rw [hsplit, ← List.append_assoc] at heq
    refine chronicle_blamed declarations session _ scene after heq scope error htest
      ⟨failing.entry, ?_, hfails⟩
    rw [List.nil_append, ← List.map_singleton, ← List.map_append, List.append_assoc]
    exact List.mem_map_of_mem (List.mem_append_right _ hfirst)
  · intro call hcall
    obtain ⟨hrole, -, hscope⟩ := hbreaks.of_test (hmem failing (by simp)) hbreaks.isTestIn hcall
    exact ⟨hrole, hscope⟩
  · exact fun scene hscene htest => hbreaks.calls_eq_nil (List.mem_map_of_mem hscene) htest
  · exact fun scene hscene call hcall => hbreaks.scope_eq (hmem scene hscene) hcall
  · intro scene hscene call hcall
    refine hbreaks.of_own ?_ hcall
    rw [← List.map_append]
    exact List.mem_map_of_mem hscene
  · have hentry : failing.entry ∈ history declarations session := by
      rw [hrun]
      exact List.mem_append_right _ List.mem_cons_self
    have hblock := block_history declarations session hentry hbreaks.isTestIn.2.1
      hbreaks.isTestIn.2.2
    rw [hrun] at hblock
    obtain ⟨before, last, after, result, hrest, hlast, hothers, hinOrder⟩ := hbreaks.leaves hblock
    obtain ⟨first, others, rfl, rfl, hothers'⟩ := List.map_eq_append_iff.1 hrest
    obtain ⟨scene, final, rfl, rfl, rfl⟩ := List.map_eq_cons_iff.1 hothers'
    refine ⟨first, scene, final, result, rfl, hlast, fun other hother => ?_, ?_⟩
    · refine hothers other.entry ?_
      rw [← List.map_append]
      exact List.mem_map_of_mem hother
    · rwa [List.map_append, List.map_cons]

end Stepbook.Host
