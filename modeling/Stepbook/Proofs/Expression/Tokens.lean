import Stepbook.Proofs.Expression.RunRegex

/-! # Tokens that are read

Of the tokens of an expression, no optional text is empty, and blanks hold nothing but blanks.

* `AreBlanks`, `Token.Spaced`: the texts of blanks.
* `Token.Regular`: what reading keeps of each token that it completes.
* `regular_of_mem_tokens`: the tokens of an expression are regular.
-/

namespace Stepbook.Expression
set_option autoImplicit false

/-- Blanks, at least one. -/
def AreBlanks (chars : List Char) : Prop :=
  chars ≠ [] ∧ ∀ c ∈ chars, Text.isBlank c = true

def Token.Spaced : Token → Prop
  | .blank chars => AreBlanks chars
  | _ => True

structure Token.Regular (token : Token) : Prop where
  solid : token.Solid
  spaced : token.Spaced

/-- Of what is not complete yet, only blanks are constrained. -/
def Mode.Spaced : Mode → Prop
  | .blank chars => AreBlanks chars
  | _ => True

section
variable {mode next : Mode} {offset : Nat} {c : Char} {complete : List Token}

theorem regular_of_mem_pending (h : mode.Spaced) : ∀ token ∈ mode.pending, token.Regular := by
  cases mode with
  | text chars => exact List.forall_mem_singleton.2 ⟨trivial, trivial⟩
  | blank chars => exact List.forall_mem_singleton.2 ⟨trivial, h⟩
  | _ => exact nofun

theorem regular_of_mem_beforeLiteral (h : mode.Spaced) :
    ∀ token ∈ mode.beforeLiteral, token.Regular := by
  cases mode with
  | blank chars => exact List.forall_mem_singleton.2 ⟨trivial, h⟩
  | _ => exact nofun

theorem regular_stepOutside (hmode : mode.Spaced)
    (h : mode.stepOutside offset c = .ok (complete, next)) :
    (∀ token ∈ complete, token.Regular) ∧ next.Spaced := by
  have hpending := regular_of_mem_pending hmode
  have hbefore := regular_of_mem_beforeLiteral hmode
  unfold Mode.stepOutside at h
  split at h
  · cases h
    exact ⟨hbefore, trivial⟩
  · cases h
    exact ⟨hpending, trivial⟩
  · cases h
    exact ⟨hpending, trivial⟩
  · cases h
    exact ⟨List.forall_mem_append.2 ⟨hpending, List.forall_mem_singleton.2 ⟨trivial, trivial⟩⟩,
      trivial⟩
  · cases h
  · cases h
  · split at h
    · next hblank =>
      split at h
      · next chars =>
        cases h
        refine ⟨nofun, by simp, List.forall_mem_append.2 ⟨hmode.2, ?_⟩⟩
        exact List.forall_mem_singleton.2 hblank
      · cases h
        exact ⟨hpending, by simp, List.forall_mem_singleton.2 hblank⟩
    · cases h
      exact ⟨hbefore, trivial⟩

theorem regular_step (hmode : mode.Spaced) (h : mode.step offset c = .ok (complete, next)) :
    (∀ token ∈ complete, token.Regular) ∧ next.Spaced := by
  unfold Mode.step at h
  split at h
  · cases h
    exact ⟨nofun, trivial⟩
  · split at h
    · cases h
      exact ⟨List.forall_mem_singleton.2 ⟨trivial, trivial⟩, trivial⟩
    · cases h
    · cases h
      exact ⟨nofun, trivial⟩
  · split at h
    · cases h
      exact ⟨nofun, trivial⟩
    · split at h
      · cases h
      · next hchars =>
        cases h
        refine ⟨List.forall_mem_singleton.2 ⟨?_, trivial⟩, trivial⟩
        simpa [Token.Solid] using hchars
    · cases h
    · cases h
    · cases h
      exact ⟨nofun, trivial⟩
  · cases h
    exact ⟨nofun, trivial⟩
  · exact regular_stepOutside hmode h

theorem regular_finish {last : List Token} (hmode : mode.Spaced) (h : mode.finish = .ok last) :
    ∀ token ∈ last, token.Regular := by
  unfold Mode.finish at h
  split at h
  · cases h
    exact List.forall_mem_singleton.2 ⟨trivial, trivial⟩
  · cases h
  · cases h
  · cases h
  · cases h
    exact regular_of_mem_pending hmode

theorem regular_run {rest : List Char} {tokens : List Token} (hmode : mode.Spaced)
    (h : mode.run offset rest = .ok tokens) : ∀ token ∈ tokens, token.Regular := by
  induction rest generalizing mode offset tokens with
  | nil => exact regular_finish hmode h
  | cons c rest ih =>
    unfold Mode.run at h
    split at h
    · cases h
    · next complete next hnext =>
      obtain ⟨hcomplete, hspaced⟩ := regular_step hmode hnext
      split at h
      · cases h
      · next others hothers =>
        cases h
        exact List.forall_mem_append.2 ⟨hcomplete, ih hspaced hothers⟩

end

theorem regular_of_mem_tokens {expression : List Char} {read : List Token}
    (h : tokens expression = .ok read) : ∀ token ∈ read, token.Regular := by
  have hstart : Mode.between.Spaced := trivial
  exact regular_run hstart h

end Stepbook.Expression
