import Stepbook.Command.Output
import Stepbook.Proofs.Json.Encoding
import Stepbook.Proofs.Json.Reader
import Stepbook.Run.Input

/-! # Documents through JSON

* `FeatureInput.Encodes`: a string is a text of features, an object one feature, and an array
  several, in whatever form each of them is written.
* `Extracted.ReadFrom`: what a report says of a file.
* `read?_writeExtractions`: a report on files is read back file by file.
* `documents_survive_json`: no document is lost or changed on its way through JSON.
-/

namespace Stepbook
set_option autoImplicit false

open Json (Tree)

/-! ## Input -/

namespace FeatureInput

inductive Encodes : FeatureInput → Tree → Prop
  | text (source : String) : Encodes (.text source) (.string source)
  | single {feature : Feature} {members : List (String × Tree)}
    (h : feature.Encodes (.object members)) : Encodes (.single feature) (.object members)
  | many {features : List Feature} {items : List Tree}
    (h : List.Forall₂ Feature.Encodes features items) : Encodes (.many features) (.array items)

theorem Encodes.ofJson_eq {input : FeatureInput} {tree : Tree} (h : input.Encodes tree) :
    ofJson tree = .ok input := by
  cases h with
  | text source => rfl
  | single h => rw [ofJson, h.ofJson?_eq]
  | many h => rw [ofJson, list?_eq_of_encodes h fun _ _ => Feature.Encodes.ofJson?_eq]

theorem encodes_of_ofJson {input : FeatureInput} {tree : Tree} (htree : tree.Distinct)
    (h : ofJson tree = .ok input) : input.Encodes tree := by
  cases tree with
  | string source =>
    cases h
    exact .text source
  | object members =>
    rw [ofJson] at h
    split at h
    · next feature hfeature =>
      cases h
      exact .single (Feature.encodes_of_ofJson? htree hfeature)
    · cases h
  | array items =>
    rw [ofJson] at h
    split at h
    · next features hfeatures =>
      cases h
      obtain ⟨_, hitems, hencodes⟩ :=
        encodes_of_list? (fun _ _ => Feature.encodes_of_ofJson?) htree hfeatures
      cases hitems
      exact .many hencodes
    · cases h
  | null | boolean | number => cases h

theorem encodes_toJson (feature : Feature) : (single feature).Encodes feature.toJson :=
  .single feature.encodes_toJson

theorem encodes_array (features : List Feature) :
    (many features).Encodes (.array (features.map Feature.toJson)) := by
  refine .many (List.forall₂_map_right_iff.2 (List.forall₂_same.2 fun feature _ => ?_))
  exact feature.encodes_toJson

end FeatureInput

/-! ## Written documents -/

theorem proper_array {α : Type} {written : α → Tree} (h : ∀ value, (written value).Proper)
    (values : List α) : (Tree.array (values.map written)).Proper := by
  refine .array fun item hitem => ?_
  obtain ⟨value, -, rfl⟩ := List.mem_map.1 hitem
  exact h value

theorem Definition.proper_toJson (definition : Definition) : definition.toJson.Proper := by
  refine .object ?_
  simp only [List.forall_mem_cons]
  exact ⟨.string _, .string _, .string _, .string _, nofun⟩

theorem Step.proper_toJson (step : Step) : step.toJson.Proper := by
  refine .object ?_
  simp only [List.forall_mem_cons]
  exact ⟨.string _, .string _, nofun⟩

theorem Scenario.proper_toJson (scenario : Scenario) : scenario.toJson.Proper := by
  refine .object ?_
  simp only [List.forall_mem_cons]
  exact ⟨.string _, proper_array Step.proper_toJson _, nofun⟩

theorem Feature.proper_toJson (feature : Feature) : feature.toJson.Proper := by
  refine .object ?_
  simp only [List.forall_mem_cons]
  exact ⟨.string _, proper_array Scenario.proper_toJson _, nofun⟩

theorem read?_toJson {tree : Tree} (h : tree.Proper) : Json.read? tree.layout = some tree := by
  have hread : Json.read? (tree.layout ++ "") = some tree := Json.read?_layout h nofun
  rwa [String.append_empty] at hread

theorem read?_writeDocument {tree : Tree} (h : tree.Proper) :
    Json.read? (writeDocument tree) = some tree := by
  have hblank : ∀ c ∈ "\n".toList, Json.isBlank c = true := List.all_eq_true.1 rfl
  have hdocument : writeDocument tree = tree.layout ++ "\n" := by simp [writeDocument, unlines]
  rw [hdocument, Json.read?_layout h hblank]

/-! ## Reports on files -/

namespace Extracted

theorem proper_skippedToJson (call : Source.SkippedCall) : (skippedToJson call).Proper := by
  refine .object ?_
  simp only [List.forall_mem_cons]
  exact ⟨.number (Json.isNumber_toString _), .number (Json.isNumber_toString _), .string _,
    .string _, nofun⟩

theorem proper_toJson (extracted : Extracted) : extracted.toJson.Proper := by
  refine .object ?_
  simp only [List.forall_mem_cons]
  exact ⟨.string _, proper_array Definition.proper_toJson _, proper_array proper_skippedToJson _,
    nofun⟩

/-- The tree is an object for the file, and the definitions that are read from it are those that
have been extracted, in their order. -/
def ReadFrom (extracted : Extracted) (tree : Tree) : Prop :=
  ∃ members listed, tree = .object members ∧
    members.lookup "file" = some (.string extracted.file) ∧
    members.lookup "definitions" = some listed ∧
    listed.list? Definition.ofJson? = some extracted.extraction.definitions

theorem readFrom_toJson (extracted : Extracted) : extracted.ReadFrom extracted.toJson := by
  have hencodes : List.Forall₂ Definition.Encodes extracted.extraction.definitions
      (extracted.extraction.definitions.map Definition.toJson) :=
    List.forall₂_map_right_iff.2 (List.forall₂_same.2 fun definition _ => definition.encodes_toJson)
  exact ⟨_, _, rfl, rfl, rfl, list?_eq_of_encodes hencodes fun _ _ => Definition.Encodes.ofJson?_eq⟩

end Extracted

theorem read?_writeExtractions (files : List Extracted) :
    Json.read? (writeExtractions .json files) = some (.array (files.map Extracted.toJson)) :=
  read?_writeDocument (proper_array Extracted.proper_toJson files)

/-! ## All documents -/

/-- Definitions, features and lists of features are read from the texts and the trees that they are
written as, and likewise from every other form that stands for them. A report on files holds the
definitions of each of them, whatever characters there are in patterns and sources. -/
theorem documents_survive_json :
    (∀ definition : Definition,
      Json.read? definition.toJson.layout = some definition.toJson ∧
      Definition.ofJson? definition.toJson = some definition) ∧
    (∀ feature : Feature,
      Json.read? feature.toJson.layout = some feature.toJson ∧
      FeatureInput.ofJson feature.toJson = .ok (.single feature) ∧
      (FeatureInput.single feature).features = pure (.ok [feature])) ∧
    (∀ features : List Feature,
      let tree := Tree.array (features.map Feature.toJson)
      Json.read? tree.layout = some tree ∧
      FeatureInput.ofJson tree = .ok (.many features) ∧
      (FeatureInput.many features).features = pure (.ok features)) ∧
    (∀ (definition : Definition) (tree : Tree),
      (definition.Encodes tree → Definition.ofJson? tree = some definition) ∧
      (tree.Distinct → Definition.ofJson? tree = some definition → definition.Encodes tree)) ∧
    (∀ (input : FeatureInput) (tree : Tree),
      (input.Encodes tree → FeatureInput.ofJson tree = .ok input) ∧
      (tree.Distinct → FeatureInput.ofJson tree = .ok input → input.Encodes tree)) ∧
    ∀ files : List Extracted, ∃ items,
      Json.read? (writeExtractions .json files) = some (.array items) ∧
      List.Forall₂ Extracted.ReadFrom files items := by
  refine ⟨fun definition => ?_, fun feature => ?_, fun features => ?_, fun definition tree => ?_,
    fun input tree => ?_, fun files => ?_⟩
  · exact ⟨read?_toJson definition.proper_toJson, definition.encodes_toJson.ofJson?_eq⟩
  · exact ⟨read?_toJson feature.proper_toJson, (FeatureInput.encodes_toJson feature).ofJson_eq, rfl⟩
  · exact ⟨read?_toJson (proper_array Feature.proper_toJson features),
      (FeatureInput.encodes_array features).ofJson_eq, rfl⟩
  · exact ⟨Definition.Encodes.ofJson?_eq, Definition.encodes_of_ofJson?⟩
  · exact ⟨FeatureInput.Encodes.ofJson_eq, FeatureInput.encodes_of_ofJson⟩
  · refine ⟨_, read?_writeExtractions files, ?_⟩
    exact List.forall₂_map_right_iff.2 (List.forall₂_same.2 fun extracted _ =>
      extracted.readFrom_toJson)

/-- A definition as an array without its source, and a feature whose members have changed places
around one that is not known. -/
theorem documents_survive_json_rearranged :
    let definition : Definition := ⟨.action, "I \"go\"", .regex, ""⟩
    let row := Tree.array [.string " When\t", .string "I \"go\"", .string "regex"]
    let feature : Feature := ⟨"F", [⟨"S", [⟨.context, "x"⟩]⟩]⟩
    let steps := Tree.array [.array [.string "GIVEN", .string "x"]]
    let scenarios := Tree.array [.array [.string "S", steps]]
    (Definition.ofJson? row = some definition ∧ definition.Encodes row) ∧
      FeatureInput.ofJson (.object [("scenarios", scenarios), ("tags", .null),
        ("feature", .string "F")]) = .ok (.single feature) ∧
      (FeatureInput.many []).Encodes (.array []) := by
  intro definition row feature steps scenarios
  have hsurvive := documents_survive_json
  have hwhen : StepType.action.Encodes (.string " When\t") :=
    ⟨_, rfl, [' '], "When".toList, ['\t'], rfl, List.all_eq_true.1 rfl, rfl⟩
  have hrow : definition.Encodes row := by
    refine ⟨_, _, hwhen, .inl rfl, .inr ⟨rfl, ?_⟩⟩
    exact .array [("type", _), ("pattern", _), ("variant", _)] ["source"]
  have hdistinct : row.Distinct := by
    refine .array ?_
    simp only [List.forall_mem_cons]
    exact ⟨.string _, .string _, .string _, nofun⟩
  have hread := (hsurvive.2.2.2.1 definition row).1 hrow
  have hgiven : StepType.context.Encodes (.string "GIVEN") :=
    ⟨_, rfl, [], "GIVEN".toList, [], rfl, nofun, rfl⟩
  have hstep : (⟨.context, "x"⟩ : Step).Encodes (.array [.string "GIVEN", .string "x"]) :=
    ⟨_, hgiven, .array [("type", _), ("step", _)] []⟩
  have hscenario : (⟨"S", [⟨.context, "x"⟩]⟩ : Scenario).Encodes
      (.array [.string "S", steps]) :=
    ⟨_, .cons hstep .nil, .array [("scenario", _), ("steps", _)] []⟩
  refine ⟨⟨hread, (hsurvive.2.2.2.1 definition row).2 hdistinct hread⟩,
    (hsurvive.2.2.2.2.1 (.single feature) _).1 (.single ⟨_, .cons hscenario .nil, .object ?_⟩),
    (hsurvive.2.2.2.2.1 (.many []) (.array [])).2 (.array nofun) rfl⟩
  exact .swap _ _ _

end Stepbook
