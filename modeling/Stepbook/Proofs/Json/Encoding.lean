import Mathlib.Data.List.Forall2
import Mathlib.Data.List.Perm.Basic
import Mathlib.Data.List.TakeWhile
import Stepbook.Json.Document
import Stepbook.Proofs.Text.Keyed

/-! # The forms of a document

A document may be written in more than one form: members of an object in any order and among others,
records as arrays, names of steps in any letter case and between blanks. The readers take all these
forms for the same document, and no other tree for it.

* `Tree.Record`: a tree that writes a record with the given fields.
* `Tree.Distinct`: no object has two members of one name.
* `StepType.Encodes`, `Variant.Encodes`, `Definition.Encodes`, `Step.Encodes`, `Scenario.Encodes`,
  `Feature.Encodes`: the trees that stand for a document; the lemmas beside each of them say that
  these are the ones from which it is read.
-/

namespace Stepbook
set_option autoImplicit false

open Json (Tree)

/-! ## Records -/

namespace Json.Tree

/-- The tree writes a record that has the fields, in this order, and lacks those with the names in
`missing`, which come last. Members of other names do not count. -/
inductive Record : Tree → List (String × Tree) → List String → Prop
  | object {members fields : List (String × Tree)} {missing : List String}
    (known : (members.filter fun member =>
      (fields.map Prod.fst ++ missing).contains member.1).Perm fields) :
    Record (.object members) fields missing
  | array (fields : List (String × Tree)) (missing : List String) :
    Record (.array (fields.map Prod.snd)) fields missing

inductive Distinct : Tree → Prop
  | null : Distinct .null
  | boolean (value : Bool) : Distinct (.boolean value)
  | number (literal : String) : Distinct (.number literal)
  | string (value : String) : Distinct (.string value)
  | array {items : List Tree} (h : ∀ item ∈ items, item.Distinct) : Distinct (.array items)
  | object {members : List (String × Tree)} (names : (members.map Prod.fst).Nodup)
    (h : ∀ member ∈ members, member.2.Distinct) : Distinct (.object members)

section
variable {tree : Tree} {fields : List (String × Tree)} {names missing : List String}
variable (hnames : fields.map Prod.fst ++ missing = names) (hdistinct : names.Nodup)
include hnames hdistinct

theorem Record.record?_eq (h : tree.Record fields missing) :
    tree.record? names =
      some (fields.map (some ·.2) ++ List.replicate missing.length none) := by
  subst hnames
  cases h with
  | @object members _ _ known =>
    have hfields : (fields.map Prod.fst).Nodup := hdistinct.of_append_left
    have hlookup : ∀ name ∈ fields.map Prod.fst ++ missing,
        members.lookup name = fields.lookup name := by
      intro name hname
      rw [lookup_perm hfields known.symm name]
      exact (lookup_filter (List.contains_iff_mem.2 hname) members).symm
    have hpresent : (fields.map Prod.fst).map (fields.lookup ·) = fields.map (some ·.2) := by
      rw [List.map_map]
      exact List.map_congr_left fun field hfield => (lookup_eq_some_iff_mem hfields).2 hfield
    have hmissing : missing.map (fields.lookup ·) = List.replicate missing.length none := by
      refine List.map_eq_replicate_iff.2 fun name hname => ?_
      refine List.lookup_eq_none_iff.2 fun field hfield => bne_iff_ne.2 ?_
      rintro rfl
      exact List.disjoint_of_nodup_append hdistinct (List.mem_map_of_mem hfield) hname
    rw [record?, List.map_congr_left hlookup, List.map_append, hpresent, hmissing]
  | array => simp [record?]

/-- A field of a tree is in a record at most once. -/
theorem Distinct.record (htree : tree.Distinct)
    (h : tree.record? names =
      some (fields.map (some ·.2) ++ List.replicate missing.length none)) :
    tree.Record fields missing := by
  subst hnames
  cases htree with
  | @object members hmembers _ =>
    rw [record?, Option.some.injEq, List.map_append] at h
    obtain ⟨hpresent, hmissing⟩ := List.append_inj h (by simp)
    rw [List.map_map, List.map_inj_left] at hpresent
    rw [List.map_eq_replicate_iff] at hmissing
    have hfields : fields.Nodup := .of_map Prod.fst hdistinct.of_append_left
    have hknown := (List.Nodup.of_map Prod.fst hmembers).filter fun member =>
      (fields.map Prod.fst ++ missing).contains member.1
    refine .object ((List.perm_ext_iff_of_nodup hknown hfields).2 ?_)
    rintro ⟨name, value⟩
    rw [List.mem_filter, List.contains_iff_mem, List.mem_append,
      ← lookup_eq_some_iff_mem hmembers]
    constructor
    · rintro ⟨hvalue, hname | hname⟩
      · obtain ⟨field, hfield, rfl⟩ := List.mem_map.1 hname
        have hsame : value = field.2 := Option.some.inj (hvalue.symm.trans (hpresent field hfield))
        exact hsame ▸ hfield
      · cases (hmissing name hname).symm.trans hvalue
    · intro hfield
      exact ⟨hpresent _ hfield, .inl (List.mem_map_of_mem hfield)⟩
  | @array items _ =>
    rw [record?] at h
    split at h
    · have hitems : items = fields.map Prod.snd := by
        simpa [List.filterMap_append, List.filterMap_map] using
          congrArg (·.filterMap id) (Option.some.inj h)
      exact hitems ▸ .array fields missing
    · cases h
  | null | boolean | number | string => cases h

omit hnames hdistinct in
theorem Distinct.field (htree : tree.Distinct) (h : tree.Record fields missing) :
    ∀ field ∈ fields, field.2.Distinct := by
  intro field hfield
  cases h with
  | object known =>
    cases htree with
    | object _ hmembers => exact hmembers field (List.mem_of_mem_filter (known.mem_iff.2 hfield))
  | array =>
    cases htree with
    | array hitems => exact hitems field.2 (List.mem_map_of_mem hfield)

end

end Json.Tree

/-! ## Kinds of steps -/

namespace StepType

/-- The text is the name of the kind of step, in any letter case and between any blanks. -/
def SpelledBy (type : StepType) (text : String) : Prop :=
  ∃ before word after, text.toList = before ++ word ++ after ∧
    (∀ c ∈ before ++ after, Text.isBlank c = true) ∧ Text.lower word = type.name.toList

theorem ofName?_eq_some_iff {word : List Char} {type : StepType} :
    ofName? word = some type ↔ Text.lower word = type.name.toList := by
  constructor
  · intro h
    exact (beq_iff_eq.1 (List.find?_some h :)).symm
  · intro h
    rw [ofName?, h]
    cases type <;> decide

theorem toLower_of_isBlank {c : Char} (h : Text.isBlank c = true) : c.toLower = c := by
  have hupper : ¬ (c.val ≥ 'A'.val ∧ c.val ≤ 'Z'.val) := by
    have hnat : c.val.toNat = c.toNat := rfl
    have hlow : 'A'.val.toNat = 65 := rfl
    have hhigh : 'Z'.val.toNat = 90 := rfl
    simp only [Text.isBlank, Bool.or_eq_true, Bool.and_eq_true, beq_iff_eq,
      decide_eq_true_eq] at h
    simp only [ge_iff_le, UInt32.le_iff_toNat_le]
    omega
  exact dif_neg hupper

theorem isBlank_of_lower {type : StepType} {word : List Char}
    (h : Text.lower word = type.name.toList) : ∀ c ∈ word, Text.isBlank c = false := by
  intro c hc
  have hname : ∀ d ∈ type.name.toList, ¬ Text.isBlank d = true :=
    List.any_eq_false.1 (by cases type <;> rfl)
  by_contra hblank
  rw [Bool.not_eq_false] at hblank
  have hmem : c ∈ type.name.toList := by
    rw [← h, ← toLower_of_isBlank hblank]
    exact List.mem_map_of_mem hc
  exact hname c hmem hblank

theorem dropWhile_isBlank {blanks word : List Char} (hblanks : ∀ c ∈ blanks, Text.isBlank c = true)
    (hword : ∀ c ∈ word, Text.isBlank c = false) (hne : word ≠ []) (rest : List Char) :
    (blanks ++ (word ++ rest)).dropWhile Text.isBlank = word ++ rest := by
  rw [List.dropWhile_append_of_pos hblanks]
  cases word with
  | nil => exact absurd rfl hne
  | cons c word => exact List.dropWhile_cons_of_neg (by simp [hword c (List.mem_cons_self ..)])

theorem trim_append {before word after : List Char}
    (hblank : ∀ c ∈ before ++ after, Text.isBlank c = true)
    (hword : ∀ c ∈ word, Text.isBlank c = false) (hne : word ≠ []) :
    Text.trim (before ++ word ++ after) = word := by
  have hbefore : ∀ c ∈ before, Text.isBlank c = true := fun c hc =>
    hblank c (List.mem_append_left _ hc)
  have hafter : ∀ c ∈ after.reverse, Text.isBlank c = true := fun c hc =>
    hblank c (List.mem_append_right _ (List.mem_reverse.1 hc))
  have hreverse : ∀ c ∈ word.reverse, Text.isBlank c = false := fun c hc =>
    hword c (List.mem_reverse.1 hc)
  have hend := dropWhile_isBlank hafter hreverse (by simpa using hne) []
  rw [List.append_nil] at hend
  rw [Text.trim, List.append_assoc, dropWhile_isBlank hbefore hword hne, Text.trimEnd,
    List.reverse_append, hend, List.reverse_reverse]

theorem exists_trim (text : List Char) :
    ∃ before after, text = before ++ Text.trim text ++ after ∧
      ∀ c ∈ before ++ after, Text.isBlank c = true := by
  let rest := text.dropWhile Text.isBlank
  refine ⟨text.takeWhile Text.isBlank, (rest.reverse.takeWhile Text.isBlank).reverse, ?_, ?_⟩
  · have hrest : Text.trim text ++ (rest.reverse.takeWhile Text.isBlank).reverse = rest := by
      rw [Text.trim, Text.trimEnd, ← List.reverse_append, List.takeWhile_append_dropWhile,
        List.reverse_reverse]
    rw [List.append_assoc, hrest, List.takeWhile_append_dropWhile]
  · intro c hc
    rw [List.mem_append, List.mem_reverse] at hc
    rcases hc with hc | hc
    · exact List.mem_takeWhile_imp hc
    · exact List.mem_takeWhile_imp hc

theorem read_eq_ok_iff {text : String} {type : StepType} :
    read text = .ok type ↔ type.SpelledBy text := by
  have hread : read text = .ok type ↔ ofName? (Text.trim text.toList) = some type := by
    rw [read]
    split <;> simp_all
  rw [hread, ofName?_eq_some_iff]
  constructor
  · intro h
    obtain ⟨before, after, htext, hblank⟩ := exists_trim text.toList
    exact ⟨before, _, after, htext, hblank, h⟩
  · rintro ⟨before, word, after, htext, hblank, hword⟩
    have hne : word ≠ [] := by
      rintro rfl
      cases type <;> cases hword
    rwa [htext, trim_append hblank (isBlank_of_lower hword) hne]

def Encodes (type : StepType) (tree : Tree) : Prop :=
  ∃ text, tree = .string text ∧ type.SpelledBy text

theorem ofJson?_eq_some_iff {tree : Tree} {type : StepType} :
    ofJson? tree = some type ↔ type.Encodes tree := by
  constructor
  · intro h
    obtain ⟨text, htext, hread⟩ := Option.bind_eq_some_iff.1 h
    cases tree with
    | string value =>
      cases htext
      refine ⟨text, rfl, read_eq_ok_iff.1 ?_⟩
      cases hresult : read text with
      | error error =>
        rw [hresult] at hread
        cases hread
      | ok found =>
        rw [hresult] at hread
        exact congrArg Except.ok (Option.some.inj hread)
    | _ => cases htext
  · rintro ⟨text, rfl, hspelled⟩
    rw [ofJson?, Tree.string?, Option.bind_some, read_eq_ok_iff.2 hspelled]
    rfl

theorem encodes_name (type : StepType) : type.Encodes (.string type.name) := by
  refine ⟨_, rfl, [], type.name.toList, [], by simp, nofun, ?_⟩
  cases type <;> decide

end StepType

/-! ## Definitions -/

namespace Json.Tree

theorem string?_eq_some_iff {tree : Tree} {value : String} :
    tree.string? = some value ↔ tree = .string value := by
  cases tree <;> simp [string?]

end Json.Tree

namespace Variant

theorem ofName?_eq_some_iff {name : String} {variant : Variant} :
    ofName? name = some variant ↔ name = variant.name := by
  constructor
  · intro h
    exact (beq_iff_eq.1 (List.find?_some h :)).symm
  · rintro rfl
    cases variant <;> decide

def Encodes (variant : Variant) (tree : Tree) : Prop :=
  tree = .string variant.name ∨ tree = .object [(variant.name, .null)]

theorem ofJson?_eq_some_iff {tree : Tree} {variant : Variant} :
    ofJson? tree = some variant ↔ variant.Encodes tree := by
  constructor
  · intro h
    unfold ofJson? at h
    split at h
    · exact .inl (congrArg Tree.string (ofName?_eq_some_iff.1 h))
    · exact .inr (by rw [ofName?_eq_some_iff.1 h])
    · cases h
  · rintro (rfl | rfl) <;> exact ofName?_eq_some_iff.2 rfl

end Variant

namespace Definition

theorem nodup_keys : ["type", "pattern", "variant", "source"].Nodup := by
  decide

/-- An empty source may be left out. -/
def Encodes (definition : Definition) (tree : Tree) : Prop :=
  ∃ type variant, definition.type.Encodes type ∧ definition.variant.Encodes variant ∧
    (tree.Record [("type", type), ("pattern", .string definition.pattern), ("variant", variant),
        ("source", .string definition.snippet)] [] ∨
      definition.snippet = "" ∧
        tree.Record [("type", type), ("pattern", .string definition.pattern),
          ("variant", variant)] ["source"])

variable {definition : Definition} {tree : Tree}

theorem Encodes.ofJson?_eq (h : definition.Encodes tree) : ofJson? tree = some definition := by
  obtain ⟨type, variant, htype, hvariant, hrecord | ⟨hsnippet, hrecord⟩⟩ := h
  · have hread : tree.record? ["type", "pattern", "variant", "source"] =
        some [some type, some (.string definition.pattern), some variant,
          some (.string definition.snippet)] :=
      hrecord.record?_eq rfl nodup_keys
    rw [ofJson?, hread]
    simp [StepType.ofJson?_eq_some_iff.2 htype, Variant.ofJson?_eq_some_iff.2 hvariant,
      Tree.string?]
  · have hread : tree.record? ["type", "pattern", "variant", "source"] =
        some [some type, some (.string definition.pattern), some variant, none] :=
      hrecord.record?_eq rfl nodup_keys
    rw [ofJson?, hread]
    simp [StepType.ofJson?_eq_some_iff.2 htype, Variant.ofJson?_eq_some_iff.2 hvariant,
      Tree.string?, ← hsnippet]

theorem encodes_of_ofJson? (htree : tree.Distinct) (h : ofJson? tree = some definition) :
    definition.Encodes tree := by
  unfold ofJson? at h
  split at h
  · next type pattern variant source hrecord =>
    cases source with
    | none =>
      simp only [Option.bind_eq_bind, Option.bind_some, Option.bind_eq_some_iff,
        Option.pure_def, Option.some.injEq, Tree.string?_eq_some_iff] at h
      obtain ⟨_, htype, _, rfl, _, hvariant, rfl⟩ := h
      refine ⟨type, variant, StepType.ofJson?_eq_some_iff.1 htype,
        Variant.ofJson?_eq_some_iff.1 hvariant, .inr ⟨rfl, ?_⟩⟩
      exact htree.record rfl nodup_keys hrecord
    | some source =>
      simp only [Option.bind_eq_bind, Option.bind_eq_some_iff, Option.pure_def,
        Option.some.injEq, Tree.string?_eq_some_iff] at h
      obtain ⟨_, rfl, _, htype, _, rfl, _, hvariant, rfl⟩ := h
      refine ⟨type, variant, StepType.ofJson?_eq_some_iff.1 htype,
        Variant.ofJson?_eq_some_iff.1 hvariant, .inl ?_⟩
      exact htree.record rfl nodup_keys hrecord
  · cases h

theorem encodes_toJson (definition : Definition) : definition.Encodes definition.toJson := by
  refine ⟨_, _, definition.type.encodes_name, .inl rfl, .inl (.object ?_)⟩
  exact List.Perm.refl _

end Definition

/-! ## Lists of documents -/

section
variable {α : Type} {read : Tree → Option α} {encodes : α → Tree → Prop}

theorem mapM_eq_some_iff {items : List Tree} {values : List α} :
    items.mapM read = some values ↔
      List.Forall₂ (fun value item => read item = some value) values items := by
  induction items generalizing values with
  | nil => cases values <;> simp
  | cons item items ih =>
    rw [List.mapM_cons]
    cases values with
    | nil => simp [Option.bind_eq_some_iff]
    | cons value values =>
      simp only [Option.bind_eq_bind, Option.bind_eq_some_iff, Option.pure_def, Option.some.injEq,
        List.forall₂_cons, ih, List.cons.injEq]
      constructor
      · rintro ⟨_, hfirst, _, hrest, rfl, rfl⟩
        exact ⟨hfirst, hrest⟩
      · rintro ⟨hfirst, hrest⟩
        exact ⟨value, hfirst, values, hrest, rfl, rfl⟩

/-- Each item stands for the document at its place. -/
theorem list?_eq_of_encodes {values : List α} {items : List Tree}
    (h : List.Forall₂ encodes values items)
    (hread : ∀ value item, encodes value item → read item = some value) :
    (Tree.array items).list? read = some values :=
  mapM_eq_some_iff.2 (h.imp hread)

theorem encodes_of_list?
    (hread : ∀ value item, item.Distinct → read item = some value → encodes value item)
    {values : List α} {tree : Tree} (htree : tree.Distinct) (h : tree.list? read = some values) :
    ∃ items, tree = .array items ∧ List.Forall₂ encodes values items := by
  cases htree with
  | @array items hitems =>
    have hboth := (List.forall₂_and_left _ _).2 ⟨hitems, (mapM_eq_some_iff.1 h).flip⟩
    exact ⟨items, rfl, hboth.flip.imp fun value item hitem => hread value item hitem.1 hitem.2⟩
  | null | boolean | number | string | object => cases h

end

/-! ## Features -/

namespace Step

theorem nodup_keys : ["type", "step"].Nodup := by
  decide

def Encodes (step : Step) (tree : Tree) : Prop :=
  ∃ type, step.type.Encodes type ∧ tree.Record [("type", type), ("step", .string step.text)] []

variable {step : Step} {tree : Tree}

theorem Encodes.ofJson?_eq (h : step.Encodes tree) : ofJson? tree = some step := by
  obtain ⟨type, htype, hrecord⟩ := h
  have hread : tree.record? ["type", "step"] = some [some type, some (.string step.text)] :=
    hrecord.record?_eq rfl nodup_keys
  rw [ofJson?, hread]
  simp [StepType.ofJson?_eq_some_iff.2 htype, Tree.string?]

theorem encodes_of_ofJson? (htree : tree.Distinct) (h : ofJson? tree = some step) :
    step.Encodes tree := by
  unfold ofJson? at h
  split at h
  · next type text hrecord =>
    simp only [Option.bind_eq_bind, Option.bind_eq_some_iff, Option.pure_def, Option.some.injEq,
      Tree.string?_eq_some_iff] at h
    obtain ⟨_, htype, _, rfl, rfl⟩ := h
    exact ⟨type, StepType.ofJson?_eq_some_iff.1 htype, htree.record rfl nodup_keys hrecord⟩
  · cases h

theorem encodes_toJson (step : Step) : step.Encodes step.toJson :=
  ⟨_, step.type.encodes_name, .object (.refl _)⟩

end Step

section
variable {α : Type} {encodes : α → Tree → Prop} {nameKey listKey name : String} {values : List α}
variable {tree : Tree}

/-- A record of a name and a list of documents. -/
def EncodesGroup (encodes : α → Tree → Prop) (nameKey listKey name : String) (values : List α)
    (tree : Tree) : Prop :=
  ∃ items, List.Forall₂ encodes values items ∧
    tree.Record [(nameKey, .string name), (listKey, .array items)] []

theorem EncodesGroup.record?_eq (h : EncodesGroup encodes nameKey listKey name values tree)
    (hkeys : [nameKey, listKey].Nodup) :
    ∃ items, List.Forall₂ encodes values items ∧
      tree.record? [nameKey, listKey] = some [some (.string name), some (.array items)] := by
  obtain ⟨items, hitems, hrecord⟩ := h
  exact ⟨items, hitems, hrecord.record?_eq rfl hkeys⟩

theorem encodesGroup_of_record? {read : Tree → Option α}
    (hread : ∀ value item, item.Distinct → read item = some value → encodes value item)
    (htree : tree.Distinct) (hkeys : [nameKey, listKey].Nodup) {list : Tree}
    (hrecord : tree.record? [nameKey, listKey] = some [some (.string name), some list])
    (hlist : list.list? read = some values) :
    EncodesGroup encodes nameKey listKey name values tree := by
  have hgroup : tree.Record [(nameKey, .string name), (listKey, list)] [] :=
    htree.record rfl hkeys hrecord
  have hdistinct : list.Distinct := htree.field hgroup (listKey, list) (by simp)
  obtain ⟨items, rfl, hitems⟩ := encodes_of_list? hread hdistinct hlist
  exact ⟨items, hitems, hgroup⟩

theorem encodesGroup_object {written : α → Tree} (h : ∀ value, encodes value (written value)) :
    EncodesGroup encodes nameKey listKey name values
      (.object [(nameKey, .string name), (listKey, .array (values.map written))]) := by
  refine ⟨values.map written, ?_, .object ?_⟩
  · exact List.forall₂_map_right_iff.2 (List.forall₂_same.2 fun value _ => h value)
  · simp

end

namespace Scenario

theorem nodup_keys : ["scenario", "steps"].Nodup := by
  decide

def Encodes (scenario : Scenario) : Tree → Prop :=
  EncodesGroup Step.Encodes "scenario" "steps" scenario.name scenario.steps

variable {scenario : Scenario} {tree : Tree}

theorem Encodes.ofJson?_eq (h : scenario.Encodes tree) : ofJson? tree = some scenario := by
  obtain ⟨steps, hsteps, hread⟩ := h.record?_eq nodup_keys
  rw [ofJson?, hread]
  simp [list?_eq_of_encodes hsteps fun _ _ => Step.Encodes.ofJson?_eq, Tree.string?]

theorem encodes_of_ofJson? (htree : tree.Distinct) (h : ofJson? tree = some scenario) :
    scenario.Encodes tree := by
  unfold ofJson? at h
  split at h
  · next name list hrecord =>
    simp only [Option.bind_eq_bind, Option.bind_eq_some_iff, Option.pure_def, Option.some.injEq,
      Tree.string?_eq_some_iff] at h
    obtain ⟨_, rfl, _, hlist, rfl⟩ := h
    exact encodesGroup_of_record? (fun _ _ => Step.encodes_of_ofJson?) htree nodup_keys hrecord
      hlist
  · cases h

theorem encodes_toJson (scenario : Scenario) : scenario.Encodes scenario.toJson :=
  encodesGroup_object Step.encodes_toJson

end Scenario

namespace Feature

theorem nodup_keys : ["feature", "scenarios"].Nodup := by
  decide

def Encodes (feature : Feature) : Tree → Prop :=
  EncodesGroup Scenario.Encodes "feature" "scenarios" feature.name feature.scenarios

variable {feature : Feature} {tree : Tree}

theorem Encodes.ofJson?_eq (h : feature.Encodes tree) : ofJson? tree = some feature := by
  obtain ⟨scenarios, hscenarios, hread⟩ := h.record?_eq nodup_keys
  rw [ofJson?, hread]
  simp [list?_eq_of_encodes hscenarios fun _ _ => Scenario.Encodes.ofJson?_eq, Tree.string?]

theorem encodes_of_ofJson? (htree : tree.Distinct) (h : ofJson? tree = some feature) :
    feature.Encodes tree := by
  unfold ofJson? at h
  split at h
  · next name list hrecord =>
    simp only [Option.bind_eq_bind, Option.bind_eq_some_iff, Option.pure_def, Option.some.injEq,
      Tree.string?_eq_some_iff] at h
    obtain ⟨_, rfl, _, hlist, rfl⟩ := h
    exact encodesGroup_of_record? (fun _ _ => Scenario.encodes_of_ofJson?) htree nodup_keys hrecord
      hlist
  · cases h

theorem encodes_toJson (feature : Feature) : feature.Encodes feature.toJson :=
  encodesGroup_object Scenario.encodes_toJson

end Feature

end Stepbook
