import Mathlib.Data.List.Basic

/-! # Escaped characters

A backslash takes the meaning from the character after it, but in the name of a placeholder it is a
character like any other.

* `Escaping`, `escapingAfter`, `Unescaped`: whether the character after a text is escaped.
* `resolved`, `bare`: an optional text without its escapes, and its characters that are not escaped.
* `IsName`, `IsOptionalText`: what may stand in a placeholder and in an optional text.
* `Spells`: an optional text as it is read.
-/

namespace Stepbook.Expression
set_option autoImplicit false

/-! ## Reading with escapes -/

/-- How the next character is read; in a name a backslash is a character like any other. -/
inductive Escaping where
  | plain
  | escaped
  | name
  deriving DecidableEq, Repr

def Escaping.next : Escaping → Char → Escaping
  | .plain, '\\' => .escaped
  | .plain, '{' => .name
  | .plain, _ => .plain
  | .escaped, _ => .plain
  | .name, '}' => .plain
  | .name, _ => .name

def escapingAfter (text : List Char) : Escaping :=
  text.foldl Escaping.next .plain

/-- A character after the text keeps its meaning. -/
def Unescaped (text : List Char) : Prop :=
  escapingAfter text ≠ .escaped

instance (text : List Char) : Decidable (Unescaped text) :=
  inferInstanceAs (Decidable (_ ≠ _))

theorem escapingAfter_concat (text : List Char) (c : Char) :
    escapingAfter (text ++ [c]) = (escapingAfter text).next c := by
  rw [escapingAfter, List.foldl_append]
  rfl

theorem unescaped_of_plain {text : List Char} (h : escapingAfter text = .plain) :
    Unescaped text := by
  rw [Unescaped, h]
  exact nofun

theorem next_plain {c : Char} (hslash : c ≠ '\\') (hbrace : c ≠ '{') :
    Escaping.plain.next c = .plain := by
  unfold Escaping.next
  split <;> simp_all

/-! ## Names and optional texts -/

def IsName (name : List Char) : Prop :=
  '{' ∉ name ∧ '}' ∉ name

/-- What an optional text stands for; at its end a lone backslash stands for itself. -/
def resolved : List Char → List Char
  | '\\' :: c :: rest => c :: resolved rest
  | c :: rest => c :: resolved rest
  | [] => []

/-- The characters of an optional text that no backslash stands before. -/
def bare : List Char → List Char
  | '\\' :: _ :: rest => bare rest
  | c :: rest => c :: bare rest
  | [] => []

/-- All brackets in an optional text are escaped. -/
def IsOptionalText (raw : List Char) : Prop :=
  ∀ c ∈ bare raw, c ∉ ['(', ')', '{']

/-- In a name only the closing brace matters. -/
theorem foldl_next_name {name : List Char} (h : IsName name) :
    name.foldl Escaping.next .name = .name := by
  induction name with
  | nil => rfl
  | cons c name ih =>
    simp only [IsName, List.mem_cons, not_or] at h
    have hc : Escaping.name.next c = .name := by
      unfold Escaping.next
      split <;> simp_all
    rw [List.foldl_cons, hc]
    exact ih ⟨h.1.2, h.2.2⟩

theorem unescaped_name {before name : List Char} (h : escapingAfter before = .plain)
    (hname : IsName name) : Unescaped (before ++ '{' :: name) := by
  have hescaping : escapingAfter (before ++ '{' :: name) = .name := by
    rw [escapingAfter, List.foldl_append, ← escapingAfter, h]
    exact foldl_next_name hname
  rw [Unescaped, hescaping]
  exact nofun

/-! ## Optional texts as they are read -/

/-- What has been read of an optional text, and the characters that it stands for. -/
inductive Spells : List Char → List Char → Prop where
  | nil : Spells [] []
  | plain {raw chars : List Char} {c : Char} (before : Spells raw chars)
      (plain : c ∉ ['\\', '(', ')', '{']) : Spells (raw ++ [c]) (chars ++ [c])
  | escaped {raw chars : List Char} (before : Spells raw chars) (c : Char) :
      Spells (raw ++ ['\\'] ++ [c]) (chars ++ [c])

theorem resolved_cons {c : Char} (h : c ≠ '\\') (rest : List Char) :
    resolved (c :: rest) = c :: resolved rest := by
  rw [resolved.eq_2]
  exact fun _ _ heq => absurd heq h

theorem bare_cons {c : Char} (h : c ≠ '\\') (rest : List Char) :
    bare (c :: rest) = c :: bare rest := by
  rw [bare.eq_2]
  exact fun _ _ heq => absurd heq h

namespace Spells

variable {raw chars : List Char}

theorem resolved_append (h : Spells raw chars) (more : List Char) :
    resolved (raw ++ more) = chars ++ resolved more := by
  induction h generalizing more with
  | nil => rfl
  | @plain raw chars c before plain ih =>
    have hc : c ≠ '\\' := fun heq => plain (by simp [heq])
    rw [List.append_assoc, ih, List.singleton_append, resolved_cons hc, List.append_assoc]
    rfl
  | escaped before c ih =>
    rw [List.append_assoc, List.append_assoc, ih, List.append_assoc]
    rfl

theorem isOptionalText_append (h : Spells raw chars) {more : List Char}
    (hmore : IsOptionalText more) : IsOptionalText (raw ++ more) := by
  induction h generalizing more with
  | nil => exact hmore
  | @plain raw chars c before plain ih =>
    simp only [List.mem_cons, List.not_mem_nil, or_false, not_or] at plain
    rw [List.append_assoc, List.singleton_append]
    apply ih
    rw [IsOptionalText, bare_cons plain.1]
    refine List.forall_mem_cons.2 ⟨?_, hmore⟩
    simpa using plain.2
  | escaped before c ih =>
    rw [List.append_assoc, List.append_assoc]
    exact ih hmore

theorem resolved_eq (h : Spells raw chars) : resolved raw = chars := by
  have hall := h.resolved_append []
  rwa [List.append_nil, resolved, List.append_nil] at hall

theorem isOptionalText (h : Spells raw chars) : IsOptionalText raw := by
  have hempty : IsOptionalText [] := nofun
  have hall := h.isOptionalText_append hempty
  rwa [List.append_nil] at hall

/-- An optional text holds whole escapes and no name. -/
theorem foldl_next (h : Spells raw chars) : raw.foldl Escaping.next .plain = .plain := by
  induction h with
  | nil => rfl
  | @plain raw chars c before plain ih =>
    simp only [List.mem_cons, List.not_mem_nil, or_false, not_or] at plain
    rw [List.foldl_append, ih]
    exact next_plain plain.1 plain.2.2.2
  | escaped before c ih =>
    rw [List.foldl_append, List.foldl_append, ih]
    rfl

end Spells

theorem escapingAfter_optional {before raw chars : List Char} (h : escapingAfter before = .plain)
    (hraw : Spells raw chars) : escapingAfter (before ++ '(' :: raw) = .plain := by
  rw [escapingAfter, List.foldl_append, ← escapingAfter, h]
  exact hraw.foldl_next

end Stepbook.Expression
