import Mathlib.Data.List.Basic
import Stepbook.Gherkin.Reader

/-! # Steps of Gherkin documents

* `Outline.expandedSteps`, `Document.expandedSteps`: the steps that a document stands for, in the
  order in which they are written.
* `steps_feature`: these are the steps of its feature.
* `read?_eq_none_of_blank`: a text of blanks holds no document.
-/

namespace Stepbook.Gherkin
set_option autoImplicit false

/-! ## Expanded steps -/

/-- The background and the steps of an outline, once for each row of its tables; once as they are
written, if there are no tables. -/
def Outline.expandedSteps (outline : Outline) (background : List Step) : List Step :=
  match outline.tables with
  | [] => background ++ outline.steps
  | tables => tables.flatMap fun table => table.rows.flatMap fun row =>
      (background ++ outline.steps).map (Step.substitute table.header row)

/-- A rule adds its background to that of the document. -/
def Document.expandedSteps (document : Document) : List Step :=
  document.outlines.flatMap (·.expandedSteps document.background) ++
    document.rules.flatMap fun rule =>
      rule.outlines.flatMap (·.expandedSteps (document.background ++ rule.background))

theorem flatMap_mapIdx {α β γ : Type} {make : Nat → α → β} {parts : β → List γ}
    (all : α → List γ) (h : ∀ index item, parts (make index item) = all item) (items : List α) :
    (items.mapIdx make).flatMap parts = items.flatMap all := by
  induction items generalizing make with
  | nil => rfl
  | cons item items ih =>
    have hlater := ih fun index other => h (index + 1) other
    rw [List.mapIdx_cons, List.flatMap_cons, List.flatMap_cons, h, hlater]

theorem steps_expand (outline : Outline) (background : List Step) :
    (outline.expand background).flatMap Scenario.steps = outline.expandedSteps background := by
  rw [Outline.expand, Outline.expandedSteps]
  cases htables : outline.tables with
  | nil => exact List.append_nil _
  | cons table tables =>
    rw [List.isEmpty_cons, if_neg Bool.false_ne_true]
    refine (flatMap_mapIdx (fun row => (background ++ outline.steps).map
      (Step.substitute row.1 row.2)) ?_ outline.examples).trans ?_
    · exact fun _ _ => rfl
    · rw [Outline.examples, htables, List.flatMap_assoc]
      simp only [List.flatMap_map]

/-- The steps of the feature that a document stands for. -/
theorem steps_feature (document : Document) :
    document.feature.scenarios.flatMap Scenario.steps = document.expandedSteps := by
  simp only [Document.feature, List.flatMap_append, List.flatMap_assoc, steps_expand, Rule.expand,
    Document.expandedSteps]

/-! ## Texts of blanks -/

/-- Blanks of any kind, breaks of lines among them. -/
def AllBlank (rest : List Char) : Prop :=
  ∀ c ∈ rest, Text.isBlank c = true

section
variable {rest next : List Char} (h : AllBlank rest)
include h

theorem AllBlank.skipGap : AllBlank (skipGap rest) := fun c hc =>
  h c ((List.dropWhile_suffix _).subset hc)

theorem AllBlank.lineBreak? (hbreak : lineBreak? rest = some next) : AllBlank next := by
  unfold Gherkin.lineBreak? at hbreak
  split at hbreak
  · cases hbreak
    exact fun c hc => h c (List.mem_cons_of_mem _ hc)
  · cases hbreak
    exact fun c hc => h c (List.mem_cons_of_mem _ (List.mem_cons_of_mem _ hc))
  · cases hbreak

theorem AllBlank.gapChar? (hgap : gapChar? rest = some next) : AllBlank next := by
  unfold Gherkin.gapChar? at hgap
  split at hgap
  · split at hgap
    · cases hgap
      exact fun c hc => h c (List.mem_cons_of_mem _ hc)
    · cases hgap
  · cases hgap

theorem AllBlank.commentText?_eq : commentText? rest = none := by
  have hgap := h.skipGap
  unfold commentText?
  split
  · next hrest =>
    rw [hrest] at hgap
    cases hgap '#' (List.mem_cons_self ..)
  · rfl

theorem AllBlank.breakAfterComment?_eq : breakAfterComment? rest = Gherkin.lineBreak? rest := by
  rw [breakAfterComment?, h.commentText?_eq, Option.getD_none]

theorem AllBlank.many {skip : Skipper}
    (hskip : ∀ {rest next : List Char}, AllBlank rest → skip rest = some next → AllBlank next) :
    AllBlank (many skip rest) := by
  have hmany : ∀ (bound rest : List Char), AllBlank rest → AllBlank (manyFrom skip bound rest) := by
    intro bound
    induction bound with
    | nil => exact fun rest hrest => hrest
    | cons c bound ih =>
      intro rest hrest
      unfold manyFrom
      split
      · next hnext => exact ih _ (hskip hrest hnext)
      · exact hrest
  exact hmany rest rest h

theorem AllBlank.skipBreaks : AllBlank (skipBreaks rest) :=
  h.many fun hrest hnext => hrest.lineBreak? (hrest.breakAfterComment?_eq ▸ hnext)

theorem AllBlank.word?_eq {c : Char} (hc : Text.isBlank c = false) (word : List Char) :
    word? (c :: word) rest = none := by
  cases rest with
  | nil => rfl
  | cons d rest =>
    have hne : c ≠ d := by
      rintro rfl
      rw [h c (List.mem_cons_self ..)] at hc
      cases hc
    simp [word?, List.isPrefixOf?, hne]

theorem AllBlank.skipTags : AllBlank (skipTags rest) := by
  have htag : tag? rest = none := by
    unfold tag?
    split
    · cases h '@' (List.mem_cons_self ..)
    · rfl
  rw [Gherkin.skipTags, separated, htag]
  exact h.skipGap.skipBreaks

theorem AllBlank.keyword?_eq : keyword? Keywords.feature rest = none := by
  have hcomment : comment? rest = none := by
    rw [comment?, h.commentText?_eq, Option.bind_none]
  have hmany : Gherkin.many comment? rest = rest := by
    cases rest with
    | nil => rfl
    | cons c rest => rw [Gherkin.many, manyFrom, hcomment]
  rw [keyword?, hmany]
  refine List.findSome?_eq_none_iff.2 fun word hword => ?_
  simp only [Keywords.feature, List.mem_cons, List.not_mem_nil, or_false] at hword
  rcases hword with rfl | rfl | rfl <;> exact h.word?_eq rfl _

theorem AllBlank.language?_eq : language? rest = none := by
  have hblank : ∀ {rest next : List Char}, AllBlank rest →
      (Gherkin.gapChar? rest).or (Gherkin.lineBreak? rest) = some next → AllBlank next := by
    intro rest next hrest hnext
    rcases Option.or_eq_some_iff.1 hnext with hgap | ⟨-, hbreak⟩
    · exact hrest.gapChar? hgap
    · exact hrest.lineBreak? hbreak
  rw [language?, (h.many hblank).word?_eq rfl []]
  rfl

theorem AllBlank.document?_eq : document? rest = none := by
  rw [document?, optionally, h.skipGap.language?_eq]
  dsimp only
  rw [if_neg (by decide), h.skipGap.skipBreaks.skipTags.keyword?_eq]
  rfl

end

/-- A text of blanks holds no document. -/
theorem read?_eq_none_of_blank {text : String} (h : Text.isBlankText text.toList = true) :
    Document.read? text = none := by
  have hblank : AllBlank text.toList := List.all_eq_true.1 h
  rw [Document.read?]
  split
  · exact hblank.document?_eq
  · refine AllBlank.document?_eq (List.forall_mem_append.2 ⟨hblank, ?_⟩)
    simp only [List.mem_singleton, forall_eq]
    rfl

end Stepbook.Gherkin
