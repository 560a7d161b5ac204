import Stepbook.Command.Writer
import Stepbook.Proofs.Command.Check

/-! # The first failure of a command

A command ends with the first failure in the order in which it works: step files in the order of
their paths, definitions in the order of each script, then the files of features. Nothing is written
before all of this has gone well.

* `FirstFails`: the first of several items that fails.
* `StepFileFails`, `FeatureFileFails`: how a file can fail.
* `Command.FirstFailure`: the failure that a command ends with.
* `Command.Reports`: what it comes to without a failure.
* `result_run_eq_error_iff`, `exists_reports`: a command fails with its first failure, and otherwise
  has a report.
* `runTo_outcome`: what is written in either case.
-/

namespace Stepbook
set_option autoImplicit false

open Commanded

/-! ## The first of several -/

theorem Commanded.result_bind_eq_error {α β : Type} {command : Commanded α}
    {next : α → Commanded β} {cause : CommandError} :
    result (command >>= next) = .error cause ↔
      command.result = .error cause ∨
        ∃ value, command.result = .ok value ∧ (next value).result = .error cause := by
  rw [result_bind]
  cases command.result <;> simp

theorem Commanded.exists_ok_iff {α : Type} {command : Commanded α} :
    (∃ value, command.result = .ok value) ↔ ∀ cause, command.result ≠ .error cause := by
  cases command.result <;> simp

/-- An item fails, and none before it does. -/
def FirstFails {α : Type} (Fails : α → CommandError → Prop) (items : List α)
    (cause : CommandError) : Prop :=
  ∃ before item after, items = before ++ item :: after ∧
    (∀ earlier ∈ before, ∀ other, ¬ Fails earlier other) ∧ Fails item cause

section
variable {α β : Type} {Fails : α → CommandError → Prop} {items : List α} {cause : CommandError}

theorem not_firstFails_nil : ¬ FirstFails Fails [] cause := by
  rintro ⟨before, item, after, hsplit, -⟩
  exact List.cons_ne_nil _ _ (List.append_eq_nil_iff.1 hsplit.symm).2

theorem firstFails_cons {item : α} :
    FirstFails Fails (item :: items) cause ↔
      Fails item cause ∨ (∀ other, ¬ Fails item other) ∧ FirstFails Fails items cause := by
  constructor
  · rintro ⟨before, failing, after, hsplit, hbefore, hfails⟩
    cases before with
    | nil =>
      cases hsplit
      exact .inl hfails
    | cons first before =>
      cases hsplit
      obtain ⟨hfirst, hothers⟩ := List.forall_mem_cons.1 hbefore
      exact .inr ⟨hfirst, before, failing, after, rfl, hothers, hfails⟩
  · rintro (hfails | ⟨hfirst, before, failing, after, rfl, hbefore, hfails⟩)
    · exact ⟨[], item, items, rfl, nofun, hfails⟩
    · exact ⟨item :: before, failing, after, rfl, List.forall_mem_cons.2 ⟨hfirst, hbefore⟩, hfails⟩

/-- No item fails, or there is a first one that does. -/
theorem exists_firstFails_or (Fails : α → CommandError → Prop) (items : List α) :
    (∃ cause, FirstFails Fails items cause) ∨ ∀ item ∈ items, ∀ cause, ¬ Fails item cause := by
  induction items with
  | nil => exact .inr nofun
  | cons item items ih =>
    by_cases hitem : ∃ cause, Fails item cause
    · obtain ⟨cause, hfails⟩ := hitem
      exact .inl ⟨cause, firstFails_cons.2 (.inl hfails)⟩
    · have hnot := not_exists.1 hitem
      rcases ih with ⟨cause, hfirst⟩ | hnone
      · exact .inl ⟨cause, firstFails_cons.2 (.inr ⟨hnot, hfirst⟩)⟩
      · exact .inr (List.forall_mem_cons.2 ⟨hnot, hnone⟩)

theorem forall_not_firstFails_iff :
    (∀ other, ¬ FirstFails Fails items other) ↔ ∀ item ∈ items, ∀ other, ¬ Fails item other := by
  rw [← not_exists]
  refine ⟨fun hnot => (exists_firstFails_or Fails items).resolve_left hnot, ?_⟩
  rintro hnone ⟨other, before, item, after, rfl, -, hfails⟩
  exact hnone item (by simp) other hfails

/-- What is done fails just as the item does; else it keeps an invariant. -/
structure FailsAs (Fails : α → CommandError → Prop) (Inv : β → Prop)
    (step : β → α → Commanded β) : Prop where
  error_iff : ∀ state, Inv state → ∀ item cause,
    (step state item).result = .error cause ↔ Fails item cause
  keeps : ∀ state, Inv state → ∀ item next, (step state item).result = .ok next → Inv next

/-- One item after another fails as the first of them that fails. -/
theorem FailsAs.foldlM {Inv : β → Prop} {step : β → α → Commanded β}
    (h : FailsAs Fails Inv step) {state : β} (hstate : Inv state) :
    Commanded.result (items.foldlM step state) = .error cause ↔ FirstFails Fails items cause := by
  induction items generalizing state with
  | nil => exact iff_of_false nofun not_firstFails_nil
  | cons item items ih =>
    rw [List.foldlM_cons, result_bind, firstFails_cons]
    cases hitem : (step state item).result with
    | error other =>
      have hfails := (h.error_iff state hstate item other).1 hitem
      have hsame : Fails item cause ↔ other = cause := by
        rw [← h.error_iff state hstate, hitem, Except.error.injEq]
      dsimp only
      rw [Except.error.injEq, hsame]
      exact ⟨.inl, fun hor => hor.resolve_right fun hnot => hnot.1 other hfails⟩
    | ok next =>
      have hnot : ∀ other, ¬ Fails item other := by
        intro other hfails
        rw [← h.error_iff state hstate, hitem] at hfails
        cases hfails
      dsimp only
      rw [ih (h.keeps state hstate item next hitem)]
      exact ⟨fun hfirst => .inr ⟨hnot, hfirst⟩, fun hor => (hor.resolve_left (hnot cause)).2⟩

theorem result_mapM_eq_error {read : α → Commanded β}
    (h : ∀ item cause, (read item).result = .error cause ↔ Fails item cause) :
    Commanded.result (items.mapM read) = .error cause ↔ FirstFails Fails items cause := by
  induction items with
  | nil => exact iff_of_false nofun not_firstFails_nil
  | cons item items ih =>
    rw [List.mapM_cons, firstFails_cons]
    simp only [result_bind_eq_error, h, ih, result_pure, reduceCtorEq, and_false, exists_false,
      or_false]
    rw [exists_and_right, exists_ok_iff]
    simp only [ne_eq, h]

theorem result_mapM_eq_ok {read : α → Commanded β} {values : List β} :
    Commanded.result (items.mapM read) = .ok values ↔
      List.Forall₂ (fun item value => (read item).result = .ok value) items values := by
  induction items generalizing values with
  | nil => simp [eq_comm]
  | cons item items ih =>
    rw [List.mapM_cons]
    simp only [result_bind_eq_ok, ih, result_pure, Except.ok.injEq, List.forall₂_cons_left_iff]
    constructor
    · rintro ⟨first, hfirst, others, hothers, rfl⟩
      exact ⟨first, others, hfirst, hothers, rfl⟩
    · rintro ⟨first, others, hfirst, hothers, rfl⟩
      exact ⟨first, hfirst, others, hothers, rfl⟩

end

/-! ## Step files -/

def Unreadable (files : Files) (path : String) (cause : CommandError) : Prop :=
  files path = none ∧ cause = .unreadable path

/-- A definition of the file cannot be compiled. -/
def Refused (path : String) (definition : Definition) (cause : CommandError) : Prop :=
  ∃ error, Matcher.compile definition = .error error ∧ cause = .pattern path error

/-- A file whose text cannot be read, or which holds definitions that cannot be compiled: the first
of them counts. -/
inductive StepFileFails (files : Files) (path : String) (cause : CommandError) : Prop where
  | unreadable (unread : Unreadable files path cause)
  | refused {source : String} (read : files path = some source)
      (first : FirstFails (Refused path) (Source.extract source).definitions cause)

theorem result_readSource_eq_error {files : Files} {path : String} {cause : CommandError} :
    (readSource files path).result = .error cause ↔ Unreadable files path cause := by
  unfold readSource Unreadable
  cases files path <;> simp [result_throw, eq_comm]

theorem result_extractFile_eq_error {files : Files} {path : String} {cause : CommandError} :
    (extractFile files path).result = .error cause ↔ Unreadable files path cause := by
  unfold extractFile
  simp [result_bind_eq_error, result_readSource_eq_error]

theorem failsAs_loadDefinition (path : String) :
    FailsAs (Refused path) (fun _ => True) (loadDefinition path) where
  error_iff registry _ definition cause := by
    unfold loadDefinition Refused Registry.registerDefinition
    cases Matcher.compile definition <;> simp [result_throw, eq_comm]
  keeps _ _ _ _ _ := trivial

theorem failsAs_loadFile (files : Files) :
    FailsAs (StepFileFails files) (fun _ => True) (loadFile files) where
  error_iff registry _ path cause := by
    unfold loadFile
    rw [result_bind_eq_error, result_extractFile_eq_error]
    simp only [result_extractFile_eq_ok, (failsAs_loadDefinition path).foldlM trivial]
    constructor
    · rintro (hunread | ⟨extraction, ⟨source, hread, rfl⟩, hfirst⟩)
      · exact .unreadable hunread
      · exact .refused hread hfirst
    · rintro (hunread | ⟨hread, hfirst⟩)
      · exact .inl hunread
      · exact .inr ⟨_, ⟨_, hread, rfl⟩, hfirst⟩
  keeps _ _ _ _ _ := trivial

theorem loadRegistry_eq_error_iff {files : Files} {paths : List String} {cause : CommandError} :
    (loadRegistry files paths).result = .error cause ↔
      FirstFails (StepFileFails files) paths cause :=
  (failsAs_loadFile files).foldlM trivial

/-! ## Files of features -/

/-- A file that cannot be read, that is blank, or that is not well formed. -/
inductive FeatureFileFails (files : Files) (path : String) (cause : CommandError) : Prop where
  | unreadable (unread : Unreadable files path cause)
  | blank {source : String} (read : files path = some source)
      (blank : Text.isBlankText source.toList = true) (missing : cause = .run path .missingFeature)
  | malformed {source : String} (read : files path = some source)
      (filled : Text.isBlankText source.toList = false)
      (none : Gherkin.Document.read? source = none)
      (unreadable : cause = .run path .unreadableFeature)

theorem features_text_eq_error_iff {source : String} {error : RunError} :
    (FeatureInput.text source).features.value = .error error ↔
      (Text.isBlankText source.toList = true ∧ error = .missingFeature) ∨
        (Text.isBlankText source.toList = false ∧ Gherkin.Document.read? source = none ∧
          error = .unreadableFeature) := by
  have hvalue : (FeatureInput.text source).features.value =
      if Text.isBlankText source.toList then .error .missingFeature
      else match Gherkin.Document.read? source with
        | some document => .ok [document.feature]
        | none => .error .unreadableFeature := by
    unfold FeatureInput.features readFeature
    dsimp only
    cases Text.isBlankText source.toList with
    | true => rfl
    | false => cases Gherkin.Document.read? source <;> rfl
  rw [hvalue]
  cases Text.isBlankText source.toList with
  | true => simp [eq_comm (a := error)]
  | false =>
    cases Gherkin.Document.read? source with
    | none => simp [eq_comm (a := error)]
    | some document => simp

/-- A file with a text fails as its text does. -/
theorem featureFileFails_iff {files : Files} {path source : String}
    (h : files path = some source) {cause : CommandError} :
    FeatureFileFails files path cause ↔
      ∃ error, (FeatureInput.text source).features.value = .error error ∧
        cause = .run path error := by
  simp only [features_text_eq_error_iff]
  constructor
  · rintro (⟨hread, -⟩ | ⟨hread, hblank, hcause⟩ | ⟨hread, hfilled, hnone, hcause⟩)
    · cases h.symm.trans hread
    · cases h.symm.trans hread
      exact ⟨_, .inl ⟨hblank, rfl⟩, hcause⟩
    · cases h.symm.trans hread
      exact ⟨_, .inr ⟨hfilled, hnone, rfl⟩, hcause⟩
  · rintro ⟨error, ⟨hblank, rfl⟩ | ⟨hfilled, hnone, rfl⟩, hcause⟩
    · exact .blank h hblank hcause
    · exact .malformed h hfilled hnone hcause

namespace Command

/-- A text fails before anything is declared, or is run to its end. -/
theorem result_checkSource (runner : Runner Unit) {host : Host Unit}
    (hroot : Host.AtRoot host.scopes) {files : Files} {path source : String}
    (hsource : files path = some source) :
    match (FeatureInput.text source).features.value with
    | .error error => (checkFile files runner host path).result = .error (.run path error)
    | .ok _ =>
      ∃ next, (checkFile files runner host path).result = .ok next ∧ Host.AtRoot next.scopes := by
  obtain ⟨events, -, hrun⟩ := runner.plays_declarations (.text source) hroot ⟨(), []⟩
  have hvalue : (perform (host.declareAll (runner.declarations (.text source)))).value =
      (host.declareAll (runner.declarations (.text source)) ⟨(), []⟩).1 := rfl
  rw [checkFile, result_bind_of_ok (result_readSource_eq_ok.2 hsource),
    result_bind_of_ok (result_lift _), hvalue]
  generalize (host.declareAll (runner.declarations (.text source)) ⟨(), []⟩).1 = out at hrun ⊢
  cases hfeatures : (FeatureInput.text source).features.value with
  | error error =>
    rw [hfeatures] at hrun
    obtain ⟨rfl, -⟩ := hrun
    rfl
  | ok features =>
    rw [hfeatures] at hrun
    obtain ⟨next, result⟩ := out
    obtain ⟨rfl : result = .ok (), hnext, -⟩ := hrun
    exact ⟨next, rfl, hnext⟩

theorem failsAs_checkFile (files : Files) (runner : Runner Unit) :
    FailsAs (FeatureFileFails files) (fun host => Host.AtRoot host.scopes)
      (checkFile files runner) where
  error_iff host hroot path cause := by
    cases hsource : files path with
    | none =>
      have hresult : (checkFile files runner host path).result = .error (.unreadable path) := by
        rw [checkFile, result_bind, result_readSource_eq_error.2 ⟨hsource, rfl⟩]
      rw [hresult, Except.error.injEq]
      constructor
      · rintro rfl
        exact .unreadable ⟨hsource, rfl⟩
      · rintro (⟨-, rfl⟩ | ⟨hread, -, -⟩ | ⟨hread, -, -, -⟩)
        · rfl
        · cases hsource.symm.trans hread
        · cases hsource.symm.trans hread
    | some source =>
      have hcheck := result_checkSource runner hroot hsource
      rw [featureFileFails_iff hsource]
      cases hfeatures : (FeatureInput.text source).features.value with
      | error error =>
        rw [hfeatures] at hcheck
        have hresult : (checkFile files runner host path).result = .error (.run path error) :=
          hcheck
        simp only [hresult, Except.error.injEq, exists_eq_left', eq_comm]
      | ok features =>
        rw [hfeatures] at hcheck
        obtain ⟨next, hnext, -⟩ := hcheck
        simp only [hnext, reduceCtorEq, false_and, exists_false]
  keeps host hroot path next hnext := by
    obtain ⟨source, hread, -⟩ := result_bind_eq_ok.1 hnext
    have hcheck := result_checkSource runner hroot (result_readSource_eq_ok.1 hread)
    split at hcheck
    · rw [hcheck] at hnext
      cases hnext
    · obtain ⟨other, hother, hat⟩ := hcheck
      rw [hother] at hnext
      cases hnext
      exact hat

end Command

/-! ## Commands -/

/-- All step files are loaded before any feature is read. -/
def Command.FirstFailure (files : Files) : Command → CommandError → Prop
  | .extract paths, cause => FirstFails (Unreadable files) paths cause
  | .resolve steps _ _, cause => FirstFails (StepFileFails files) steps cause
  | .check steps features, cause =>
    FirstFails (StepFileFails files) steps cause ∨
      (∀ path ∈ steps, ∀ other, ¬ StepFileFails files path other) ∧
        FirstFails (FeatureFileFails files) features cause

theorem exists_loaded_iff {files : Files} {steps : List String} :
    (∃ registry, (loadRegistry files steps).result = .ok registry) ↔
      ∀ path ∈ steps, ∀ other, ¬ StepFileFails files path other := by
  rw [exists_ok_iff]
  simp only [ne_eq, loadRegistry_eq_error_iff]
  exact forall_not_firstFails_iff

namespace Command
variable {files : Files} {format : Format}

theorem result_runExtract_eq_error {paths : List String} {cause : CommandError} :
    (runExtract files format paths).result = .error cause ↔
      FirstFails (Unreadable files) paths cause := by
  have hfile : ∀ path cause,
      Commanded.result (do return (⟨path, ← extractFile files path⟩ : Extracted)) =
        .error cause ↔ Unreadable files path cause := by
    intro path cause
    rw [result_bind_eq_error, result_extractFile_eq_error]
    simp only [result_pure, reduceCtorEq, and_false, exists_false, or_false]
  rw [runExtract, result_bind_eq_error, result_mapM_eq_error hfile]
  simp only [result_pure, reduceCtorEq, and_false, exists_false, or_false]

theorem result_runCheck_eq_error {steps features : List String} {cause : CommandError} :
    (runCheck files format steps features).result = .error cause ↔
      FirstFailure files (.check steps features) cause := by
  have hempty : Host.AtRoot (Host.empty : Host Unit).scopes := .mk .empty
  rw [runCheck, result_bind_eq_error, loadRegistry_eq_error_iff, FirstFailure]
  simp only [result_bind_eq_error, (failsAs_checkFile files _).foldlM hempty]
  rw [← exists_loaded_iff]
  simp

/-- A command fails exactly with its first failure. -/
theorem result_run_eq_error_iff {command : Command} {cause : CommandError} :
    (command.run files format).result = .error cause ↔ command.FirstFailure files cause := by
  cases command with
  | extract paths => exact result_runExtract_eq_error
  | resolve steps type text =>
    rw [run, runResolve, result_bind_eq_error, loadRegistry_eq_error_iff, FirstFailure]
    simp only [result_bind_eq_error, result_lift, result_pure, reduceCtorEq, and_false,
      exists_false, or_false]
  | check steps features => exact result_runCheck_eq_error

/-! ## Reports -/

/-- The file with what is found in its text. -/
def Found (files : Files) (path : String) (extracted : Extracted) : Prop :=
  ∃ source, files path = some source ∧ extracted = ⟨path, Source.extract source⟩

/-- What a command comes to without a failure: a report on all files, on the first definition that
matches the text, or on the steps of all features. -/
inductive Reports (files : Files) (format : Format) : Command → CommandResult → Prop where
  | extract {paths : List String} {extracted : List Extracted}
      (found : List.Forall₂ (Found files) paths extracted) :
      Reports files format (.extract paths) ⟨.success, writeExtractions format extracted⟩
  | resolve {steps : List String} {type : Option StepType} {text : String} {found : Match}
      (first : found = matchFound type text
        (Definition.firstIn (Definition.ofKind type (definitionsIn files steps)) text)) :
      Reports files format (.resolve steps type text)
        ⟨.ofBool found.isOk, writeMatch format text found⟩
  | check {steps features : List String} {registry : Registry Unit}
      {documents : List Gherkin.Document} {report : Report}
      (loaded : (loadRegistry files steps).result = .ok registry)
      (parses : List.Forall₂ (Parses files) features documents)
      (outcomes : report.outcomes = documents.flatMap (outcomesOf ⟨registry, .empty⟩)) :
      Reports files format (.check steps features)
        ⟨.ofBool report.isSuccess, writeReport format report⟩

theorem exists_parses {features : List String}
    (h : ∀ path ∈ features, ∀ cause, ¬ FeatureFileFails files path cause) :
    ∃ documents, List.Forall₂ (Parses files) features documents := by
  induction features with
  | nil => exact ⟨[], .nil⟩
  | cons path features ih =>
    obtain ⟨hpath, hothers⟩ := List.forall_mem_cons.1 h
    obtain ⟨documents, hdocuments⟩ := ih hothers
    cases hsource : files path with
    | none => exact absurd (.unreadable ⟨hsource, rfl⟩) (hpath (.unreadable path))
    | some source =>
      cases hblank : Text.isBlankText source.toList with
      | true => exact absurd (.blank hsource hblank rfl) (hpath (.run path .missingFeature))
      | false =>
        cases hread : Gherkin.Document.read? source with
        | none =>
          exact absurd (.malformed hsource hblank hread rfl)
            (hpath (.run path .unreadableFeature))
        | some document => exact ⟨document :: documents, .cons ⟨source, hsource, hread⟩ hdocuments⟩

theorem reports_of_result_eq_ok {command : Command} {result : CommandResult}
    (h : (command.run files format).result = .ok result) : command.Reports files format result := by
  have hnone : ∀ cause, ¬ command.FirstFailure files cause := by
    intro cause hfirst
    rw [← result_run_eq_error_iff, h] at hfirst
    cases hfirst
  cases command with
  | extract paths =>
    rw [run, runExtract, result_bind_eq_ok] at h
    obtain ⟨extracted, hextracted, hresult⟩ := h
    cases hresult
    refine .extract ((result_mapM_eq_ok.1 hextracted).imp fun path one hone => ?_)
    simp only [result_bind_eq_ok, result_extractFile_eq_ok] at hone
    obtain ⟨extraction, ⟨source, hsource, rfl⟩, hone⟩ := hone
    cases hone
    exact ⟨source, hsource, rfl⟩
  | resolve steps type text =>
    obtain ⟨registry, hload, -⟩ := result_bind_eq_ok.1 h
    rw [run, result_runResolve hload] at h
    cases h
    exact .resolve rfl
  | check steps features =>
    obtain ⟨registry, hload, -⟩ := result_bind_eq_ok.1 h
    have hfeatures : ∀ path ∈ features, ∀ cause, ¬ FeatureFileFails files path cause :=
      forall_not_firstFails_iff.1 fun cause hfirst =>
        hnone cause (.inr ⟨exists_loaded_iff.1 ⟨registry, hload⟩, hfirst⟩)
    obtain ⟨documents, hparses⟩ := exists_parses hfeatures
    obtain ⟨report, hresult, houtcomes⟩ := result_runCheck hload hparses format
    rw [run, hresult] at h
    cases h
    exact .check hload hparses houtcomes

/-! ## Writing -/

/-- An error ends what is done, and leaves the writer as it then is. -/
theorem value_bind_reporting {α β : Type} (action : Reporting α) (next : α → Reporting β)
    (writer : Writer) :
    ((action >>= next).run.run writer).value =
      match (action.run.run writer).value with
      | (.ok value, later) => ((next value).run.run later).value
      | (.error error, later) => (.error error, later) := by
  have hvalue : ((action >>= next).run.run writer).value =
      (ExceptT.bindCont next (action.run.run writer).value.1
        (action.run.run writer).value.2).value := rfl
  rw [hvalue]
  rcases (action.run.run writer).value with ⟨_ | _, later⟩ <;> rfl

/-- The report of a command goes to the writer, which an error of the command leaves as it is. -/
theorem value_runTo (command : Command) (files : Files) (format : Format) (writer : Writer) :
    ((command.runTo files format).run.run writer).value =
      match (command.run files format).result with
      | .error cause => (.error (.command cause), writer)
      | .ok result =>
        let (complete, next) := writer.write (utf8 result.output)
        (if complete then .ok result.status else .error .unwritten, next) := by
  have hcommand : ((Reporting.ofCommanded (command.run files format)).run.run writer).value =
      match (command.run files format).result with
      | .error cause => (.error (.command cause), writer)
      | .ok result => (.ok result, writer) := by
    generalize command.run files format = told
    obtain ⟨records, _ | _⟩ := told <;> rfl
  rw [runTo, value_bind_reporting, hcommand]
  cases (command.run files format).result with
  | error cause => rfl
  | ok result =>
    have hwrite : ((Reporting.write result.output).run.run writer).value =
        (if (writer.write (utf8 result.output)).1 then .ok () else .error .unwritten,
          (writer.write (utf8 result.output)).2) := rfl
    dsimp only
    rw [value_bind_reporting, hwrite]
    cases (writer.write (utf8 result.output)).1 <;> rfl

theorem write_of_takes {writer : Writer} {bytes : List UInt8} (h : writer.Takes bytes) :
    (writer.write bytes).1 = true ∧ (writer.write bytes).2.written = writer.written ++ bytes := by
  rw [Writer.write]
  cases hroom : writer.room with
  | none => exact ⟨rfl, rfl⟩
  | some room =>
    have hle := h room hroom
    dsimp only
    exact ⟨decide_eq_true hle, by rw [List.take_of_length_le hle]⟩

end Command

end Stepbook
