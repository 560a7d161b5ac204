import Stepbook.Proofs.Run.Trace

/-! # Runs turn by turn

What a host does for declarations is taken apart: groups are entered and left, and in between tests
are run and hooks are attached, one after another.

* `Turn`, `Host.perform`: one thing that a host does, at a place.
* `Declaration.turns`: what is done for a declaration; nothing behind an error.
* `declareAll_eq`, `complete_eq`: a run is its turns in order.
* `Walk`: each turn stands in the scope that is open.
* `Block`: the turns of a scope stand together, and leaving it is the last of them.
-/

namespace Stepbook
set_option autoImplicit false

variable {σ : Type}

/-! ## Turns -/

inductive Move (σ : Type) where
  | enter (name : String)
  | test (name : String) (body : Callback σ)
  | attach (point : HookPoint) (callback : Callback σ)
  | note (record : Log.Record)
  | leave
  /-- Leaves the root. -/
  | finish

inductive Move.Kind where
  | enter
  | test
  | attach (point : HookPoint)
  | note
  | leave
  deriving DecidableEq, Repr

def Move.kind : Move σ → Move.Kind
  | .enter _ => .enter
  | .test _ _ => .test
  | .attach point _ => .attach point
  | .note _ => .note
  | .leave | .finish => .leave

structure Turn (σ : Type) where
  place : Place
  move : Move σ

namespace Turn

/-- The scope that is open before a turn. -/
def outside (turn : Turn σ) : Place :=
  match turn.move with
  | .leave | .finish => turn.place
  | .enter _ | .test _ _ | .attach _ _ | .note _ => turn.place.tail

/-- The scope that is open after a turn. -/
def inside (turn : Turn σ) : Place :=
  match turn.move with
  | .enter _ => turn.place
  | .test _ _ | .attach _ _ | .note _ | .leave | .finish => turn.place.tail

end Turn

namespace Host

def perform (host : Host σ) : Move σ → Action σ (Host σ)
  | .enter name => return host.enter name
  | .test name body => host.runTest name body
  | .attach point callback => return { host with scopes := host.scopes.attach point callback }
  | .note record => do
    Action.log record
    return host
  | .leave => host.leave
  | .finish => do
    return { host with report := ← host.finish }

def performAll (host : Host σ) : List (Turn σ) → Action σ (Host σ)
  | [] => return host
  | turn :: rest => do
    let host ← host.perform turn.move
    performAll host rest

/-- A whole run: what is declared to a host, and then its end. -/
def complete (declarations : List (Declaration σ)) : Action σ Report := do
  let (host, _) ← declareAll empty declarations
  host.finish

end Host

namespace Declaration

mutual

/-- The error with which a declaration ends. -/
def result : Declaration σ → Except RunError Unit
  | .group _ body => resultAll body
  | .stop error => .error error
  | .test _ _ | .hook _ _ | .note _ => .ok ()

def resultAll : List (Declaration σ) → Except RunError Unit
  | [] => .ok ()
  | declaration :: rest =>
    match result declaration with
    | .ok () => resultAll rest
    | .error error => .error error

end

mutual

def turns (place : Place) : Declaration σ → List (Turn σ)
  | .group name body => ⟨place, .enter name⟩ :: turnsAll place 0 body ++ [⟨place, .leave⟩]
  | .test name body => [⟨place, .test name body⟩]
  | .hook point callback => [⟨place, .attach point callback⟩]
  | .stop _ => []
  | .note record => [⟨place, .note record⟩]

def turnsAll (scope : Place) (index : Nat) : List (Declaration σ) → List (Turn σ)
  | [] => []
  | declaration :: rest =>
    turns (index :: scope) declaration ++
      match result declaration with
      | .ok () => turnsAll scope (index + 1) rest
      | .error _ => []

end

/-- The turns of a whole run. -/
def schedule (declarations : List (Declaration σ)) : List (Turn σ) :=
  turnsAll [] 0 declarations ++ [⟨[], .finish⟩]

end Declaration

/-! ## A run is its turns -/

namespace Host

theorem performAll_append (host : Host σ) (turns more : List (Turn σ)) :
    host.performAll (turns ++ more) =
      host.performAll turns >>= fun next => next.performAll more := by
  induction turns generalizing host with
  | nil => rw [List.nil_append, performAll, pure_bind]
  | cons turn turns ih =>
    rw [List.cons_append, performAll, performAll, bind_assoc]
    apply bind_congr
    intro next
    exact ih next

theorem performAll_cons_run (host : Host σ) (turn : Turn σ) (rest : List (Turn σ))
    (session : Session σ) :
    host.performAll (turn :: rest) session =
      (host.perform turn.move session).1.performAll rest (host.perform turn.move session).2 := rfl

theorem performAll_single (host : Host σ) (turn : Turn σ) :
    host.performAll [turn] = host.perform turn.move := by
  rw [performAll]
  exact bind_pure _

mutual

theorem declare_eq (host : Host σ) (place : Place) : (declaration : Declaration σ) →
    declare host declaration = do
      let host ← host.performAll (declaration.turns place)
      return (host, declaration.result)
  | .group name body => by
    rw [declare, declareAll_eq (host.enter name) place 0 body, Declaration.turns,
      Declaration.result, List.cons_append, performAll, perform, pure_bind, performAll_append]
    simp only [bind_assoc, pure_bind, performAll_single, perform]
  | .test name body => by
    rw [declare, Declaration.turns, Declaration.result, performAll_single, perform]
  | .hook point callback => by
    rw [declare, Declaration.turns, Declaration.result, performAll_single, perform, pure_bind]
  | .stop error => by
    rw [declare, Declaration.turns, Declaration.result, performAll, pure_bind]
  | .note record => by
    rw [declare, Declaration.turns, Declaration.result, performAll_single, perform, bind_assoc]
    simp only [pure_bind]

/-- What is declared to a host is done turn by turn. -/
theorem declareAll_eq (host : Host σ) (scope : Place) (index : Nat) :
    (declarations : List (Declaration σ)) →
    declareAll host declarations = do
      let host ← host.performAll (Declaration.turnsAll scope index declarations)
      return (host, Declaration.resultAll declarations)
  | [] => by
    rw [declareAll, Declaration.turnsAll, Declaration.resultAll, performAll, pure_bind]
  | declaration :: rest => by
    rw [declareAll, declare_eq host (index :: scope) declaration, Declaration.turnsAll,
      Declaration.resultAll, performAll_append]
    simp only [bind_assoc, pure_bind]
    apply bind_congr
    intro next
    cases declaration.result with
    | ok value => exact declareAll_eq next scope (index + 1) rest
    | error error => simp only [performAll, pure_bind]

end

theorem complete_eq (declarations : List (Declaration σ)) :
    complete declarations =
      empty.performAll (Declaration.schedule declarations) >>= fun host => pure host.report := by
  rw [complete, declareAll_eq empty [] 0, Declaration.schedule, performAll_append]
  simp only [bind_assoc, pure_bind, performAll_single, perform, bind_pure]

end Host

namespace Declaration

/-- An error at the end of a body is nothing that a host does: where declaring goes on behind a group
that ends with an error, a host does what it does without that error. -/
theorem turnsAll_concat_stop (scope : Place) (index : Nat) (body : List (Declaration σ))
    (error : RunError) : turnsAll scope index (body ++ [.stop error]) = turnsAll scope index body := by
  induction body generalizing index with
  | nil => rfl
  | cons declaration rest ih =>
    rw [List.cons_append, turnsAll, turnsAll]
    cases declaration.result with
    | ok value => rw [ih]
    | error error => rfl

end Declaration

/-! ## Places of turns -/

theorem cons_suffix_inj {i j : Nat} {scope place : Place} (hi : (i :: scope) <:+ place)
    (hj : (j :: scope) <:+ place) : i = j := by
  have h := (List.suffix_of_suffix_length_le hi hj (Nat.le_refl _)).eq_of_length rfl
  exact (List.cons.inj h).1

theorem not_cons_suffix {i : Nat} {scope place : Place} (h : place <:+ scope) :
    ¬ (i :: scope) <:+ place := by
  intro hcons
  have hlength := (hcons.trans h).length_le
  rw [List.length_cons] at hlength
  omega

theorem cons_ne_of_suffix {i : Nat} {place scope : Place} (h : scope <:+ place) :
    i :: place ≠ scope := by
  rintro rfl
  exact not_cons_suffix (List.suffix_refl _) h

theorem suffix_cons_and_ne {i : Nat} {place scope : Place} :
    scope <:+ i :: place ∧ scope ≠ i :: place ↔ scope <:+ place := by
  constructor
  · rintro ⟨hsuffix, hne⟩
    exact (List.suffix_cons_iff.1 hsuffix).resolve_left hne
  · intro h
    exact ⟨h.trans (List.suffix_cons _ _), (cons_ne_of_suffix h).symm⟩

namespace Declaration

mutual

theorem suffix_of_mem_turns (place : Place) : (declaration : Declaration σ) →
    ∀ turn ∈ declaration.turns place, place <:+ turn.place
  | .group name body => by
    intro turn hturn
    rw [turns, List.cons_append, List.mem_cons, List.mem_append, List.mem_singleton] at hturn
    rcases hturn with rfl | hturn | rfl
    · exact List.suffix_refl _
    · obtain ⟨i, -, hi⟩ := suffix_of_mem_turnsAll place 0 body turn hturn
      exact (List.suffix_cons i place).trans hi
    · exact List.suffix_refl _
  | .test _ _ | .hook _ _ | .note _ => by
    intro turn hturn
    rw [turns, List.mem_singleton] at hturn
    subst hturn
    exact List.suffix_refl _
  | .stop _ => by
    intro turn hturn
    rw [turns] at hturn
    exact absurd hturn List.not_mem_nil

theorem suffix_of_mem_turnsAll (scope : Place) (index : Nat) :
    (declarations : List (Declaration σ)) → ∀ turn ∈ turnsAll scope index declarations,
      ∃ i, index ≤ i ∧ (i :: scope) <:+ turn.place
  | [] => by
    intro turn hturn
    rw [turnsAll] at hturn
    exact absurd hturn List.not_mem_nil
  | declaration :: rest => by
    intro turn hturn
    rw [turnsAll, List.mem_append] at hturn
    rcases hturn with hturn | hturn
    · exact ⟨index, Nat.le_refl _, suffix_of_mem_turns _ declaration turn hturn⟩
    · cases hresult : declaration.result with
      | ok value =>
        rw [hresult] at hturn
        obtain ⟨i, hle, hi⟩ := suffix_of_mem_turnsAll scope (index + 1) rest turn hturn
        exact ⟨i, by omega, hi⟩
      | error error =>
        rw [hresult] at hturn
        exact absurd hturn List.not_mem_nil

end

end Declaration

/-! ## Walks -/

/-- A turn in an open scope, and the scope that is open after it. -/
inductive Stands : Place → Turn σ → Place → Prop where
  | enter (index : Nat) (scope : Place) (name : String) :
      Stands scope ⟨index :: scope, .enter name⟩ (index :: scope)
  | test (index : Nat) (scope : Place) (name : String) (body : Callback σ) :
      Stands scope ⟨index :: scope, .test name body⟩ scope
  | attach (index : Nat) (scope : Place) (point : HookPoint) (callback : Callback σ) :
      Stands scope ⟨index :: scope, .attach point callback⟩ scope
  | note (index : Nat) (scope : Place) (record : Log.Record) :
      Stands scope ⟨index :: scope, .note record⟩ scope
  | leave (index : Nat) (scope : Place) : Stands (index :: scope) ⟨index :: scope, .leave⟩ scope
  | finish : Stands [] ⟨[], .finish⟩ []

inductive Walk : Place → List (Turn σ) → Place → Prop where
  | nil (scope : Place) : Walk scope [] scope
  | cons {scope next last : Place} {turn : Turn σ} {rest : List (Turn σ)}
      (first : Stands scope turn next) (others : Walk next rest last) :
      Walk scope (turn :: rest) last

namespace Walk

theorem single {scope next : Place} {turn : Turn σ} (h : Stands scope turn next) :
    Walk scope [turn] next :=
  .cons h (.nil next)

theorem append {scope middle last : Place} {turns more : List (Turn σ)}
    (h : Walk scope turns middle) (h' : Walk middle more last) :
    Walk scope (turns ++ more) last := by
  induction h with
  | nil scope => exact h'
  | cons first others ih => exact .cons first (ih h')

end Walk

/-- What is open after a turn was open before it, or is entered by it. -/
theorem Stands.suffix_or_enter {scope next other : Place} {turn : Turn σ}
    (h : Stands scope turn next) (hother : other <:+ next) :
    other <:+ scope ∨ (turn.place, turn.move.kind) = (other, .enter) := by
  cases h with
  | enter index _ name =>
    refine (List.suffix_cons_iff.1 hother).symm.imp_right fun heq => ?_
    rw [heq]
    rfl
  | test | attach | note | finish => exact .inl hother
  | leave index => exact .inl (hother.trans (List.suffix_cons _ _))

theorem Stands.suffix_place {scope next : Place} {turn : Turn σ} (h : Stands scope turn next) :
    scope <:+ turn.place := by
  cases h with
  | enter | test | attach | note => exact List.suffix_cons _ _
  | leave | finish => exact List.suffix_refl _

/-- A turn stands in scopes that are open. -/
theorem Stands.suffix_of_ne {scope next other : Place} {turn : Turn σ} (h : Stands scope turn next)
    (hother : other <:+ turn.place) (hne : other ≠ turn.place) : other <:+ scope := by
  cases h with
  | enter | test | attach | note => exact suffix_cons_and_ne.1 ⟨hother, hne⟩
  | leave | finish => exact hother

/-- The scopes around a turn are open from the beginning, or are entered. -/
theorem Walk.suffix_or_enter {scope last other : Place} {turns : List (Turn σ)} {turn : Turn σ}
    (h : Walk scope turns last) (hturn : turn ∈ turns) (hother : other <:+ turn.place)
    (hne : other ≠ turn.place) :
    other <:+ scope ∨ ∃ entering ∈ turns, (entering.place, entering.move.kind) = (other, .enter) := by
  induction h with
  | nil scope => exact absurd hturn List.not_mem_nil
  | @cons scope next last first rest hfirst others ih =>
    rcases List.mem_cons.1 hturn with rfl | hturn
    · exact .inl (hfirst.suffix_of_ne hother hne)
    · rcases ih hturn with hopen | ⟨entering, hentering, hmark⟩
      · refine (hfirst.suffix_or_enter hopen).imp_right fun hmark => ?_
        exact ⟨first, List.mem_cons_self, hmark⟩
      · exact .inr ⟨entering, List.mem_cons_of_mem _ hentering, hmark⟩

namespace Declaration

mutual

theorem walk_turns (index : Nat) (scope : Place) : (declaration : Declaration σ) →
    Walk scope (declaration.turns (index :: scope)) scope
  | .group name body => by
    rw [turns, List.cons_append]
    have hbody := walk_turnsAll (index :: scope) 0 body
    exact .cons (.enter index scope name) (hbody.append (.single (.leave index scope)))
  | .test name body => .single (.test index scope name body)
  | .hook point callback => .single (.attach index scope point callback)
  | .stop _ => .nil scope
  | .note record => .single (.note index scope record)

theorem walk_turnsAll (scope : Place) (index : Nat) : (declarations : List (Declaration σ)) →
    Walk scope (turnsAll scope index declarations) scope
  | [] => .nil scope
  | declaration :: rest => by
    rw [turnsAll]
    refine (walk_turns index scope declaration).append ?_
    cases declaration.result with
    | ok value => exact walk_turnsAll scope (index + 1) rest
    | error error => exact .nil scope

end

theorem walk_schedule (declarations : List (Declaration σ)) :
    Walk [] (schedule declarations) [] :=
  (walk_turnsAll [] 0 declarations).append (.single .finish)

end Declaration

/-! ## New places -/

/-- Nothing is done at a place, or in it, before the first turn there. -/
def Fresh (turns : List (Turn σ)) : Prop :=
  turns.Pairwise fun earlier later =>
    later.move.kind ≠ .leave → ¬ later.place <:+ earlier.place

namespace Declaration

mutual

theorem fresh_turns (place : Place) : (declaration : Declaration σ) →
    Fresh (declaration.turns place)
  | .group name body => by
    rw [turns, List.cons_append]
    refine List.pairwise_cons.2 ⟨?_, List.pairwise_append.2
      ⟨fresh_turnsAll place 0 body, List.pairwise_singleton _ _, ?_⟩⟩
    · intro later hlater hkind
      rcases List.mem_append.1 hlater with hlater | hlater
      · obtain ⟨i, -, hi⟩ := suffix_of_mem_turnsAll place 0 body later hlater
        exact fun h => not_cons_suffix h hi
      · rw [List.mem_singleton.1 hlater] at hkind
        exact absurd rfl hkind
    · intro earlier _ later hlater hkind
      rw [List.mem_singleton.1 hlater] at hkind
      exact absurd rfl hkind
  | .test _ _ | .hook _ _ | .note _ => List.pairwise_singleton _ _
  | .stop _ => List.Pairwise.nil

theorem fresh_turnsAll (scope : Place) (index : Nat) : (declarations : List (Declaration σ)) →
    Fresh (turnsAll scope index declarations)
  | [] => List.Pairwise.nil
  | declaration :: rest => by
    rw [turnsAll]
    have hfirst := fresh_turns (index :: scope) declaration
    cases declaration.result with
    | ok value =>
      refine List.pairwise_append.2 ⟨hfirst, fresh_turnsAll scope (index + 1) rest, ?_⟩
      intro earlier hearlier later hlater _ hsuffix
      have hindex := suffix_of_mem_turns _ declaration earlier hearlier
      obtain ⟨i, hle, hi⟩ := suffix_of_mem_turnsAll scope (index + 1) rest later hlater
      have heq := cons_suffix_inj hindex (hi.trans hsuffix)
      omega
    | error error =>
      dsimp only
      rwa [List.append_nil]

end

theorem fresh_schedule (declarations : List (Declaration σ)) : Fresh (schedule declarations) := by
  refine List.pairwise_append.2
    ⟨fresh_turnsAll [] 0 declarations, List.pairwise_singleton _ _, ?_⟩
  intro earlier _ later hlater hkind
  rw [List.mem_singleton.1 hlater] at hkind
  exact absurd rfl hkind

end Declaration

/-! ## Blocks -/

abbrev Mark := Place × Move.Kind

def Turn.mark (turn : Turn σ) : Mark :=
  (turn.place, turn.move.kind)

/-- What is done in a scope stands together, and is ended by leaving it. -/
def Block (scope : Place) (marks : List Mark) : Prop :=
  ∃ before inside after, marks = before ++ (inside ++ (scope, .leave) :: after) ∧
    (∀ mark ∈ inside, scope <:+ mark.1 ∧ mark ≠ (scope, .leave)) ∧
    ∀ mark ∈ before ++ after, ¬ scope <:+ mark.1

namespace Block
variable {scope : Place} {marks : List Mark}

theorem append (h : Block scope marks) {after : List Mark}
    (hafter : ∀ mark ∈ after, ¬ scope <:+ mark.1) : Block scope (marks ++ after) := by
  obtain ⟨first, inside, last, rfl, hinside, houtside⟩ := h
  refine ⟨first, inside, last ++ after, ?_, hinside, ?_⟩
  · simp only [List.append_assoc, List.cons_append]
  · intro mark hmark
    rw [← List.append_assoc] at hmark
    rcases List.mem_append.1 hmark with hmark | hmark
    · exact houtside mark hmark
    · exact hafter mark hmark

theorem prepend (h : Block scope marks) {before : List Mark}
    (hbefore : ∀ mark ∈ before, ¬ scope <:+ mark.1) : Block scope (before ++ marks) := by
  obtain ⟨first, inside, last, rfl, hinside, houtside⟩ := h
  refine ⟨before ++ first, inside, last, ?_, hinside, ?_⟩
  · rw [List.append_assoc]
  · intro mark hmark
    rw [List.append_assoc] at hmark
    rcases List.mem_append.1 hmark with hmark | hmark
    · exact hbefore mark hmark
    · exact houtside mark hmark

end Block

namespace Declaration

theorem suffix_of_mem_marks {place : Place} {declaration : Declaration σ} :
    ∀ mark ∈ (declaration.turns place).map Turn.mark, place <:+ mark.1 := by
  intro mark hmark
  obtain ⟨turn, hturn, rfl⟩ := List.mem_map.1 hmark
  exact suffix_of_mem_turns place declaration turn hturn

theorem suffix_of_mem_marksAll {scope : Place} {index : Nat}
    {declarations : List (Declaration σ)} :
    ∀ mark ∈ (turnsAll scope index declarations).map Turn.mark,
      ∃ i, index ≤ i ∧ (i :: scope) <:+ mark.1 := by
  intro mark hmark
  obtain ⟨turn, hturn, rfl⟩ := List.mem_map.1 hmark
  exact suffix_of_mem_turnsAll scope index declarations turn hturn

theorem marks_group (place : Place) (name : String) (body : List (Declaration σ)) :
    ((Declaration.group name body).turns place).map Turn.mark =
      [(place, .enter)] ++ (turnsAll place 0 body).map Turn.mark ++ [(place, .leave)] := by
  rw [turns, List.map_append]
  rfl

mutual

theorem block_turns (place scope : Place) : (declaration : Declaration σ) →
    (scope, .enter) ∈ (declaration.turns place).map Turn.mark →
    Block scope ((declaration.turns place).map Turn.mark)
  | .group name body => by
    intro hscope
    rw [marks_group, List.mem_append, List.mem_append, List.mem_singleton,
      List.mem_singleton] at hscope
    rw [marks_group]
    rcases hscope with (heq | hscope) | heq
    · obtain rfl : scope = place := congrArg Prod.fst heq
      refine ⟨[], [(scope, .enter)] ++ (turnsAll scope 0 body).map Turn.mark, [], rfl, ?_, ?_⟩
      · intro mark hmark
        rcases List.mem_cons.1 hmark with rfl | hmark
        · exact ⟨List.suffix_refl _, fun h => by cases h⟩
        · obtain ⟨i, -, hi⟩ := suffix_of_mem_marksAll mark hmark
          refine ⟨(List.suffix_cons i scope).trans hi, ?_⟩
          rintro rfl
          exact not_cons_suffix (List.suffix_refl _) hi
      · exact fun _ hmark => absurd hmark List.not_mem_nil
    · obtain ⟨i, -, hi⟩ := suffix_of_mem_marksAll _ hscope
      have hplace : ¬ scope <:+ place := fun h => not_cons_suffix h hi
      refine ((block_turnsAll place 0 scope body hscope).prepend ?_).append ?_
      all_goals
        intro mark hmark
        rw [List.mem_singleton.1 hmark]
        exact hplace
    · cases heq
  | .test _ _ | .hook _ _ | .note _ => fun hscope => by cases List.mem_singleton.1 hscope
  | .stop _ => fun hscope => absurd hscope List.not_mem_nil

theorem block_turnsAll (place : Place) (index : Nat) (scope : Place) :
    (declarations : List (Declaration σ)) →
    (scope, .enter) ∈ (turnsAll place index declarations).map Turn.mark →
    Block scope ((turnsAll place index declarations).map Turn.mark)
  | [] => fun hscope => absurd hscope List.not_mem_nil
  | declaration :: rest => by
    have hfirst := block_turns (index :: place) scope declaration
    rw [turnsAll]
    cases declaration.result with
    | ok value =>
      have hrest := block_turnsAll place (index + 1) scope rest
      dsimp only
      rw [List.map_append, List.mem_append]
      -- A scope stands either in the first declaration or in a later one.
      have happart : ∀ {p q : Place}, (index :: place) <:+ p →
          (∃ i, index + 1 ≤ i ∧ (i :: place) <:+ q) → p ≠ q := by
        rintro p q hp ⟨i, hle, hi⟩ rfl
        have := cons_suffix_inj hp hi
        omega
      rintro (hscope | hscope)
      · have hindex := suffix_of_mem_marks _ hscope
        refine (hfirst hscope).append fun mark hmark hsuffix => ?_
        exact happart (hindex.trans hsuffix) (suffix_of_mem_marksAll mark hmark) rfl
      · obtain ⟨i, hle, hi⟩ := suffix_of_mem_marksAll _ hscope
        refine (hrest hscope).prepend fun mark hmark hsuffix => ?_
        exact happart (suffix_of_mem_marks mark hmark) ⟨i, hle, hi.trans hsuffix⟩ rfl
    | error error =>
      dsimp only
      rwa [List.append_nil]

end

theorem block_schedule (scope : Place) (declarations : List (Declaration σ))
    (hscope : scope = [] ∨ (scope, .enter) ∈ (schedule declarations).map Turn.mark) :
    Block scope ((schedule declarations).map Turn.mark) := by
  rw [schedule, List.map_append] at hscope ⊢
  have hinner : ∀ mark ∈ (turnsAll [] 0 declarations).map Turn.mark, mark.1 ≠ [] := by
    intro mark hmark hnil
    obtain ⟨i, -, hi⟩ := suffix_of_mem_marksAll mark hmark
    rw [hnil] at hi
    exact not_cons_suffix (List.suffix_refl _) hi
  by_cases hroot : scope = []
  · subst hroot
    refine ⟨[], (turnsAll [] 0 declarations).map Turn.mark, [], rfl, ?_, ?_⟩
    · intro mark hmark
      refine ⟨List.nil_suffix, ?_⟩
      rintro rfl
      exact hinner _ hmark rfl
    · exact fun _ hmark => absurd hmark List.not_mem_nil
  · have henter := hscope.resolve_left hroot
    rcases List.mem_append.1 henter with henter | henter
    · refine (block_turnsAll [] 0 scope declarations henter).append fun mark hmark hsuffix => ?_
      rw [List.mem_singleton.1 hmark] at hsuffix
      exact hroot (List.suffix_nil.1 hsuffix)
    · cases List.mem_singleton.1 henter

/-- A scope around some turn is the root or is entered. -/
theorem entered_of_mem {declarations : List (Declaration σ)} {turn : Turn σ} {scope : Place}
    (hturn : turn ∈ schedule declarations) (hscope : scope <:+ turn.place)
    (hne : scope ≠ turn.place) :
    scope = [] ∨ (scope, .enter) ∈ (schedule declarations).map Turn.mark := by
  refine ((walk_schedule declarations).suffix_or_enter hturn hscope hne).imp List.suffix_nil.1 ?_
  rintro ⟨entering, hentering, hmark⟩
  exact List.mem_map.2 ⟨entering, hentering, hmark⟩

end Declaration

/-! ## Calls of turns -/

/-- What a turn calls is kept. -/
def Turn.Recorded (turn : Turn (Traced σ)) : Prop :=
  match turn.move with
  | .test _ body => Records turn.place .body body
  | .attach point callback => Records turn.place (.hook point) callback
  | .enter _ | .note _ | .leave | .finish => True

namespace Declaration

mutual

theorem recorded_turns (place : Place) : (declaration : Declaration σ) →
    ∀ turn ∈ (declaration.traced place).turns place, turn.Recorded
  | .group name body => by
    intro turn hturn
    rw [traced, turns, List.cons_append, List.mem_cons, List.mem_append,
      List.mem_singleton] at hturn
    rcases hturn with rfl | hturn | rfl
    · trivial
    · exact recorded_turnsAll place 0 body turn hturn
    · trivial
  | .test name body => by
    intro turn hturn
    rw [List.mem_singleton.1 hturn]
    exact records_traced place .body body
  | .hook point callback => by
    intro turn hturn
    rw [List.mem_singleton.1 hturn]
    exact records_traced place (.hook point) callback
  | .stop _ => fun _ hturn => absurd hturn List.not_mem_nil
  | .note _ => by
    intro turn hturn
    rw [List.mem_singleton.1 hturn]
    trivial

theorem recorded_turnsAll (scope : Place) (index : Nat) : (declarations : List (Declaration σ)) →
    ∀ turn ∈ turnsAll scope index (tracedAll scope index declarations), turn.Recorded
  | [] => fun _ hturn => absurd hturn List.not_mem_nil
  | declaration :: rest => by
    intro turn hturn
    rw [tracedAll, turnsAll, List.mem_append] at hturn
    rcases hturn with hturn | hturn
    · exact recorded_turns (index :: scope) declaration turn hturn
    · cases hresult : result (declaration.traced (index :: scope)) with
      | ok value =>
        rw [hresult] at hturn
        exact recorded_turnsAll scope (index + 1) rest turn hturn
      | error error =>
        rw [hresult] at hturn
        exact absurd hturn List.not_mem_nil

end

theorem recorded_schedule (declarations : List (Declaration σ)) :
    ∀ turn ∈ schedule (tracedAll [] 0 declarations), turn.Recorded := by
  intro turn hturn
  rcases List.mem_append.1 hturn with hturn | hturn
  · exact recorded_turnsAll [] 0 declarations turn hturn
  · rw [List.mem_singleton.1 hturn]
    trivial

end Declaration

end Stepbook
