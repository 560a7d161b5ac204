import Stepbook.Proofs.Run.Relator

/-! # Keeping calls changes nothing

A run whose callbacks keep their calls is the run without that: it ends with the same report, and
but for what is kept, with the same session.

* `Erases`: an action that does what a plain one does; `erasing` is that relation.
* `ErasesScope`, `ErasesScopes`, `ErasesHost`: hosts that differ only in what callbacks keep.
* `erases_complete`: whole runs.
-/

namespace Stepbook
set_option autoImplicit false

variable {σ α β γ δ : Type}

/-! ## Actions -/

def Erases (rel : α → β → Prop) (action : Action (Traced σ) α) (plain : Action σ β) : Prop :=
  ∀ session, rel (action session).1 (plain session.erase).1 ∧
    (action session).2.erase = (plain session.erase).2

namespace Erases

theorem pure {rel : α → β → Prop} {x : α} {y : β} (h : rel x y) :
    Erases rel (Pure.pure x : Action (Traced σ) α) (Pure.pure y) :=
  fun _ => ⟨h, rfl⟩

theorem bind {rel : α → β → Prop} {rel' : γ → δ → Prop} {action : Action (Traced σ) α}
    {plain : Action σ β} {next : α → Action (Traced σ) γ} {plainNext : β → Action σ δ}
    (first : Erases rel action plain)
    (second : ∀ x y, rel x y → Erases rel' (next x) (plainNext y)) :
    Erases rel' (action >>= next) (plain >>= plainNext) := by
  intro session
  obtain ⟨hrel, hsession⟩ := first session
  have hsecond := second _ _ hrel (action session).2
  rw [hsession] at hsecond
  exact hsecond

theorem log (record : Log.Record) :
    Erases (· = ·) (Action.log record : Action (Traced σ) Unit) (Action.log record) :=
  fun _ => ⟨rfl, rfl⟩

theorem traced (place : Place) (role : Role) (callback : Callback σ) :
    Erases (· = ·) (callback.traced place role) callback :=
  fun _ => ⟨rfl, rfl⟩

end Erases

def erasing (σ : Type) : Relator (Traced σ) σ where
  Relates := Erases
  pure := .pure
  bind := .bind
  log := .log

namespace Host

/-! ## Scopes -/

structure ErasesScope (scope : Scope (Traced σ)) (plain : Scope σ) : Prop where
  setup : scope.setup = plain.setup
  hooks : ∀ point, List.Forall₂ (Erases (· = ·)) (scope.hooks point) (plain.hooks point)

theorem erasesScope_iff {scope : Scope (Traced σ)} {plain : Scope σ} :
    ErasesScope scope plain ↔ (erasing σ).OnScope scope plain :=
  ⟨fun h => ⟨h.setup, h.hooks⟩, fun h => ⟨h.setup, h.hooks⟩⟩

inductive ErasesScopes : Scopes (Traced σ) → Scopes σ → Prop where
  | root {scope : Scope (Traced σ)} {plain : Scope σ} (own : ErasesScope scope plain) :
      ErasesScopes (.root scope) (.root plain)
  | group (name : String) {scope : Scope (Traced σ)} {plain : Scope σ}
      {outer : Scopes (Traced σ)} {plainOuter : Scopes σ} (own : ErasesScope scope plain)
      (others : ErasesScopes outer plainOuter) :
      ErasesScopes (.group name scope outer) (.group name plain plainOuter)

theorem erasesScopes_iff {scopes : Scopes (Traced σ)} {plain : Scopes σ} :
    ErasesScopes scopes plain ↔ (erasing σ).OnScopes scopes plain := by
  constructor
  · intro h
    induction h with
    | root own => exact .root (erasesScope_iff.1 own)
    | group name own others ih => exact .group name (erasesScope_iff.1 own) ih
  · intro h
    induction h with
    | root own => exact .root (erasesScope_iff.2 own)
    | group name own others ih => exact .group name (erasesScope_iff.2 own) ih

/-! ## Hosts -/

structure ErasesHost (host : Host (Traced σ)) (plain : Host σ) : Prop where
  scopes : ErasesScopes host.scopes plain.scopes
  report : host.report = plain.report

namespace ErasesHost
variable {host : Host (Traced σ)} {plain : Host σ}

theorem empty : ErasesHost (empty : Host (Traced σ)) (empty : Host σ) :=
  ⟨.root ⟨rfl, fun _ => .nil⟩, rfl⟩

theorem enter (h : ErasesHost host plain) (name : String) :
    ErasesHost (host.enter name) (plain.enter name) :=
  ⟨.group name ⟨rfl, fun _ => .nil⟩ h.scopes, h.report⟩

theorem attach (h : ErasesHost host plain) (point : HookPoint) {callback : Callback (Traced σ)}
    {other : Callback σ} (hcallback : Erases (· = ·) callback other) :
    ErasesHost { host with scopes := host.scopes.attach point callback }
      { plain with scopes := plain.scopes.attach point other } :=
  ⟨erasesScopes_iff.2 ((erasesScopes_iff.1 h.scopes).attach point hcallback), h.report⟩

theorem perform (h : ErasesHost host plain) {move : Move (Traced σ)} {plainMove : Move σ}
    (hmove : (erasing σ).OnMove move plainMove) :
    Erases ErasesHost (host.perform move) (plain.perform plainMove) := by
  intro session
  obtain ⟨hnext, hsession⟩ :=
    Relator.perform (R := erasing σ) (erasesScopes_iff.1 h.scopes) hmove session
  exact ⟨⟨erasesScopes_iff.2 hnext.scopes, hnext.report.eq_of_eq h.report⟩, hsession⟩

theorem runTest (h : ErasesHost host plain) (name : String) {body : Callback (Traced σ)}
    {plainBody : Callback σ} (hbody : Erases (· = ·) body plainBody) :
    Erases ErasesHost (host.runTest name body) (plain.runTest name plainBody) :=
  h.perform (.test name hbody)

theorem finish (h : ErasesHost host plain) : Erases (· = ·) host.finish plain.finish := by
  intro session
  obtain ⟨hreport, hsession⟩ :=
    Relator.finish (R := erasing σ) (erasesScopes_iff.1 h.scopes) session
  exact ⟨hreport.eq_of_eq h.report, hsession⟩

end ErasesHost

/-! ## Runs -/

mutual

theorem erases_declare (place : Place) : (declaration : Declaration σ) →
    {host : Host (Traced σ)} → {plain : Host σ} → ErasesHost host plain →
    Erases (fun out other => ErasesHost out.1 other.1 ∧ out.2 = other.2)
      (declare host (declaration.traced place)) (declare plain declaration)
  | .group name body, host, plain, h => by
    rw [Declaration.traced, declare, declare]
    refine (erases_declareAll place 0 body (h.enter name)).bind fun out other hout => ?_
    obtain ⟨next, result⟩ := out
    obtain ⟨plainNext, plainResult⟩ := other
    obtain ⟨hnext, rfl : result = plainResult⟩ := hout
    exact (hnext.perform .leave).bind fun _ _ hleft => .pure ⟨hleft, rfl⟩
  | .test name body, host, plain, h => by
    rw [Declaration.traced, declare, declare]
    exact (h.runTest name (.traced place .body body)).bind fun _ _ hnext => .pure ⟨hnext, rfl⟩
  | .hook point callback, host, plain, h => by
    rw [Declaration.traced, declare, declare]
    exact .pure ⟨h.attach point (.traced place (.hook point) callback), rfl⟩
  | .stop error, host, plain, h => by
    rw [Declaration.traced, declare, declare]
    exact .pure ⟨h, rfl⟩
  | .note record, host, plain, h => by
    rw [Declaration.traced, declare, declare]
    exact (Erases.log record).bind fun _ _ _ => .pure ⟨h, rfl⟩

theorem erases_declareAll (scope : Place) (index : Nat) : (declarations : List (Declaration σ)) →
    {host : Host (Traced σ)} → {plain : Host σ} → ErasesHost host plain →
    Erases (fun out other => ErasesHost out.1 other.1 ∧ out.2 = other.2)
      (declareAll host (Declaration.tracedAll scope index declarations))
      (declareAll plain declarations)
  | [], host, plain, h => by
    rw [Declaration.tracedAll, declareAll, declareAll]
    exact .pure ⟨h, rfl⟩
  | declaration :: rest, host, plain, h => by
    rw [Declaration.tracedAll, declareAll, declareAll]
    refine (erases_declare (index :: scope) declaration h).bind fun out other hout => ?_
    obtain ⟨next, result⟩ := out
    obtain ⟨plainNext, plainResult⟩ := other
    obtain ⟨hnext, rfl : result = plainResult⟩ := hout
    cases result with
    | ok value => exact erases_declareAll scope (index + 1) rest hnext
    | error error => exact .pure ⟨hnext, rfl⟩

end

/-- A run ends with the same report whether calls are kept or not. -/
theorem erases_complete (declarations : List (Declaration σ)) :
    Erases (· = ·) (complete (Declaration.tracedAll [] 0 declarations))
      (complete declarations) := by
  refine (erases_declareAll [] 0 declarations .empty).bind fun out other hout => ?_
  exact hout.1.finish

end Host

end Stepbook
