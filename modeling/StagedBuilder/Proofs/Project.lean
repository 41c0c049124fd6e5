/-
This file proves that an input that makes no sense spoils itself only. The builders of a
project are those of the inputs that do make sense, in the order of the inputs and of the
roots in each of them, and every other input is listed with the reason. So inputs that make
no sense may come and go without any change to the builders.

Whether an input is skipped or ends the whole is decided by the kind of its fault. All that
can be wrong with a text is of the kind that is skipped, whether the text is no document, an
expression in it denotes no type, or its roots do not fit together. An input of which only
a part makes sense declares nothing.
-/

import StagedBuilder.Project.Basic
import StagedBuilder.Proofs.Inputs
import StagedBuilder.Proofs.Sections

namespace StagedBuilder

namespace Document

/-- Whatever is wrong with a text spoils this input only, and the fault names it. -/
theorem fault_recoverable (path : String) (problem : Problem) :
    (problem.fault path).isRecoverable = true ∧ (problem.fault path).path? = some path := by
  cases problem <;> exact ⟨rfl, rfl⟩

end Document

namespace Project

/-! ### One input -/

/-- The sections that the input at a path declares, if its text is a document that makes sense. -/
def parsedAt (folder : Folder) (path : String) : Option (List Document.Section) := do
  let document ← Document.parse? (← folder.text? path)
  document.sections.toOption

section

variable {folder : Folder} {path : String}

/-- An input makes sense if its text is a document that declares sections. -/
theorem exists_of_parsedAt {sections : List Document.Section}
    (parsed : parsedAt folder path = some sections) :
    ∃ text document, folder.text? path = some text ∧ Document.parse? text = some document ∧
      document.sections = .ok sections := by
  obtain ⟨text, isText, further⟩ := Option.bind_eq_some_iff.1 parsed
  obtain ⟨document, isDocument, declares⟩ := Option.bind_eq_some_iff.1 further
  refine ⟨text, document, isText, isDocument, ?_⟩
  cases found : document.sections with
  | error problem =>
    rw [found] at declares
    cases declares
  | ok others =>
    rw [found] at declares
    cases declares
    rfl

theorem declaredAt_of_parsedAt {sections : List Document.Section}
    (parsed : parsedAt folder path = some sections) : declaredAt folder path = .ok sections := by
  obtain ⟨text, document, isText, isDocument, declares⟩ := exists_of_parsedAt parsed
  rw [declaredAt, isText]
  dsimp only
  rw [declaredBy, isDocument]
  dsimp only
  rw [declares]

/-- An input that can be read and makes no sense has a fault that spoils this input only. -/
theorem exists_fault (readable : (folder.text? path).isSome = true)
    (unparsed : parsedAt folder path = none) :
    ∃ fault, declaredAt folder path = .error fault ∧ fault.isRecoverable = true ∧
      fault.path? = some path := by
  obtain ⟨text, isText⟩ := Option.isSome_iff_exists.1 readable
  rw [declaredAt, isText]
  dsimp only
  rw [declaredBy]
  rw [parsedAt, isText] at unparsed
  cases isDocument : Document.parse? text with
  | none => exact ⟨_, rfl, Document.fault_recoverable path .malformed⟩
  | some document =>
    cases found : document.sections with
    | error problem =>
      dsimp only
      rw [found]
      exact ⟨_, rfl, Document.fault_recoverable path problem⟩
    | ok sections =>
      have parsed : (Document.parse? text).bind (fun document => document.sections.toOption) =
          none := unparsed
      rw [isDocument, Option.bind_some, found] at parsed
      cases parsed

/-- An input that makes sense has a section for each root of its document, in order. -/
theorem exists_document {sections : List Document.Section}
    (parsed : parsedAt folder path = some sections) :
    ∃ text document, folder.text? path = some text ∧ Document.parse? text = some document ∧
      sections.map (·.root.qualifiedName) = document.roots.map (·.root.qualifiedName) := by
  obtain ⟨text, document, isText, isDocument, declares⟩ := exists_of_parsedAt parsed
  exact ⟨text, document, isText, isDocument, Document.map_qualifiedName_sections declares⟩

end

/-! ### All inputs -/

/-- One input is loaded after others. -/
abbrev addAt (folder : Folder) (loaded : Loaded) (path : String) : Except ProjectFailure Loaded :=
  loaded.add path (declaredAt folder path)

theorem Loaded.add_of_isRecoverable (loaded : Loaded) (path : String) {fault : Fault}
    (recoverable : fault.isRecoverable = true) :
    loaded.add path (.error fault) =
      .ok { loaded with skipped := loaded.skipped ++ [⟨path, fault.message⟩] } := if_pos recoverable

/-- The inputs that were skipped are those of the given ones that make no sense, and each is skipped
for a fault that names it. -/
structure ListsBroken (folder : Folder) (paths : List String) (skipped : List Skipped) : Prop where
  paths : skipped.map Skipped.path = paths.filter fun path => (parsedAt folder path).isNone
  faults : ∀ input ∈ skipped, ∃ fault : Fault, fault.isRecoverable = true ∧
    fault.path? = some input.path ∧ input.message = fault.message

/-- Inputs that can all be read are loaded, and those that make no sense are skipped. -/
theorem exists_foldlM_addAt {folder : Folder} {paths : List String}
    (readable : ∀ path ∈ paths, (folder.text? path).isSome = true) (loaded : Loaded) :
    ∃ skipped, ListsBroken folder paths skipped ∧
      paths.foldlM (addAt folder) loaded = .ok {
        sections := loaded.sections ++ (paths.filterMap (parsedAt folder)).flatten
        skipped := loaded.skipped ++ skipped } := by
  induction paths generalizing loaded with
  | nil =>
    refine ⟨[], ⟨rfl, fun input member => absurd member List.not_mem_nil⟩, ?_⟩
    rw [List.filterMap_nil, List.flatten_nil, List.append_nil, List.append_nil]
    rfl
  | cons path rest inductionHypothesis =>
    obtain ⟨ofPath, ofRest⟩ := List.forall_mem_cons.1 readable
    rw [List.foldlM_cons]
    cases parsed : parsedAt folder path with
    | some sections =>
      obtain ⟨skipped, lists, isLoaded⟩ := inductionHypothesis ofRest
        { loaded with sections := loaded.sections ++ sections }
      refine ⟨skipped, ⟨?_, lists.faults⟩, ?_⟩
      · rw [lists.paths, List.filter_cons_of_neg (by rw [parsed]; exact Bool.false_ne_true)]
      · rw [addAt, declaredAt_of_parsedAt parsed, List.filterMap_cons_some parsed,
          List.flatten_cons, ← List.append_assoc]
        exact isLoaded
    | none =>
      obtain ⟨fault, isFault, recoverable, names⟩ := exists_fault ofPath parsed
      obtain ⟨skipped, lists, isLoaded⟩ := inductionHypothesis ofRest
        { loaded with skipped := loaded.skipped ++ [⟨path, fault.message⟩] }
      refine ⟨⟨path, fault.message⟩ :: skipped, ⟨?_, List.forall_mem_cons.2
        ⟨⟨fault, recoverable, names, rfl⟩, lists.faults⟩⟩, ?_⟩
      · rw [List.map_cons, lists.paths, List.filter_cons_of_pos (by rw [parsed]; rfl)]
      · rw [addAt, isFault, Loaded.add_of_isRecoverable _ _ recoverable,
          List.filterMap_cons_none parsed, List.append_cons loaded.skipped _ skipped]
        exact isLoaded

/-- Inputs that make no sense may be left out without any change to what is declared. -/
theorem map_sections_foldlM_filter {folder smaller : Folder} {ways : List (List String)}
    {pathOf : List String → String} {keep : List String → Bool}
    (same : ∀ way ∈ ways, keep way = true →
      declaredAt smaller (pathOf way) = declaredAt folder (pathOf way))
    (broken : ∀ way ∈ ways, keep way = false →
      ∃ fault, declaredAt folder (pathOf way) = .error fault ∧ fault.isRecoverable = true)
    {fewer loaded : Loaded} (agree : fewer.sections = loaded.sections) :
    (((ways.filter keep).map pathOf).foldlM (addAt smaller) fewer).map Loaded.sections =
      ((ways.map pathOf).foldlM (addAt folder) loaded).map Loaded.sections := by
  induction ways generalizing fewer loaded with
  | nil => exact congrArg Except.ok agree
  | cons way rest inductionHypothesis =>
    obtain ⟨sameWay, sameRest⟩ := List.forall_mem_cons.1 same
    obtain ⟨brokenWay, brokenRest⟩ := List.forall_mem_cons.1 broken
    have onwards : ∀ {fewer loaded : Loaded}, fewer.sections = loaded.sections →
        (((rest.filter keep).map pathOf).foldlM (addAt smaller) fewer).map Loaded.sections =
          ((rest.map pathOf).foldlM (addAt folder) loaded).map Loaded.sections :=
      fun agree => inductionHypothesis sameRest brokenRest agree
    rw [List.map_cons, List.foldlM_cons]
    cases kept : keep way with
    | false =>
      obtain ⟨fault, isFault, recoverable⟩ := brokenWay kept
      rw [List.filter_cons_of_neg (by rw [kept]; decide), addAt, isFault,
        Loaded.add_of_isRecoverable _ _ recoverable]
      exact onwards agree
    | true =>
      rw [List.filter_cons_of_pos kept, List.map_cons, List.foldlM_cons, addAt, addAt,
        sameWay kept]
      cases declaredAt folder (pathOf way) with
      | ok sections => exact onwards (congrArg (· ++ sections) agree)
      | error fault =>
        by_cases recoverable : fault.isRecoverable = true
        · rw [Loaded.add_of_isRecoverable _ _ recoverable,
            Loaded.add_of_isRecoverable _ _ recoverable]
          exact onwards agree
        · rw [Loaded.add, Loaded.add, if_neg recoverable, if_neg recoverable]
          rfl

/-! ### Files left out -/

/-- The names lead to an input below the root that can be read and makes no sense. -/
def IsBroken (folder : Folder) (root : String) (names : List String) : Prop :=
  ∃ place way, folder.place? root = some place ∧ names = place ++ way ∧
    way ∈ folder.inputWays place ∧ (folder.text? (way.foldl Folder.join root)).isSome = true ∧
      parsedAt folder (way.foldl Folder.join root) = none

/-- The smaller folder is the folder without some inputs that make no sense, whichever these are. -/
def LeavesOutBroken (folder : Folder) (root : String) (smaller : Folder) : Prop :=
  ∃ dropped, folder.Without dropped smaller ∧
    ∀ names, dropped names = true → IsBroken folder root names

section

variable {folder : Folder} {root : String} {dropped : List String → Bool}
  (broken : ∀ names, dropped names = true → IsBroken folder root names)

include broken

/-- The root itself is not dropped. -/
theorem not_dropped_of_root {place : List String} (leads : folder.place? root = some place) :
    dropped place = false := by
  refine Bool.eq_false_iff.2 fun isDropped => ?_
  obtain ⟨other, way, otherLeads, isWay, isInput, -⟩ := broken place isDropped
  cases leads.symm.trans otherLeads
  have nothing : way = [] := List.append_right_eq_self.1 isWay.symm
  rw [nothing] at isInput
  exact absurd (Folder.mem_inputWays.1 isInput).2 (by decide)

/-- No configuration is dropped. -/
theorem not_dropped_of_configuration {directory : String} {place : List String}
    (leads : folder.place? (Folder.join directory configurationName) = some place) :
    dropped place = false := by
  refine Bool.eq_false_iff.2 fun isDropped => ?_
  obtain ⟨other, way, -, isWay, isInput, -⟩ := broken place isDropped
  obtain ⟨name, isLast, isName⟩ :=
    Folder.exists_getLast?_of_isInput (Folder.mem_inputWays.1 isInput).2 other
  have isConfiguration := Folder.getLast?_of_place? (by decide) leads
  rw [isWay, isLast, Option.some.injEq] at isConfiguration
  rw [isConfiguration] at isName
  exact absurd isName (by decide)

end

section

variable {folder smaller : Folder} {root : String} {dropped : List String → Bool}
  (without : folder.Without dropped smaller)

include without

theorem declaredAt_eq {path : String}
    (kept : ∀ place, folder.place? path = some place → dropped place = false) :
    declaredAt smaller path = declaredAt folder path := by
  rw [declaredAt, declaredAt, without.text?_eq kept]

variable (broken : ∀ names, dropped names = true → IsBroken folder root names)

include broken

theorem resolve_eq (settings : Settings) :
    settings.resolve smaller root = settings.resolve folder root := by
  have directory : configurationDirectory smaller root = configurationDirectory folder root := by
    rw [configurationDirectory, configurationDirectory,
      without.isFile_eq fun place leads => not_dropped_of_root broken leads]
  have configuration : ∀ directory,
      configurationIn smaller directory = configurationIn folder directory := by
    intro directory
    have kept : ∀ place,
        folder.place? (Folder.join directory configurationName) = some place →
          dropped place = false := fun place leads => not_dropped_of_configuration broken leads
    rw [configurationIn, configurationIn, without.holds_eq kept, without.text?_eq kept]
  rw [Settings.resolve, Settings.resolve, directory, configuration]

/-- What is declared below a root stays the same. -/
theorem map_sections_load_eq :
    ((inputsAt smaller root).bind (load smaller)).map Loaded.sections =
      ((inputsAt folder root).bind (load folder)).map Loaded.sections := by
  have keptRoot : ∀ place, folder.place? root = some place → dropped place = false :=
    fun place leads => not_dropped_of_root broken leads
  rw [inputsAt, inputsAt, Folder.inputs?, Folder.inputs?, without.isFile_eq keptRoot,
    without.isDirectory_eq, without.place?_eq]
  by_cases isFile : folder.isFile root = true
  · rw [if_pos isFile, if_pos isFile]
    show ([root].foldlM (addAt smaller) {}).map Loaded.sections =
      ([root].foldlM (addAt folder) {}).map Loaded.sections
    rw [List.foldlM_cons, List.foldlM_cons, addAt, addAt, declaredAt_eq without keptRoot]
    rfl
  rw [if_neg isFile, if_neg isFile]
  by_cases isDirectory : folder.isDirectory root = true
  · rw [if_pos isDirectory, if_pos isDirectory]
    cases leads : folder.place? root with
    | none => rfl
    | some place =>
      rw [Option.map_some, Option.map_some, Folder.inputsBelow_eq, Folder.inputsBelow_eq]
      by_cases excluded : Folder.excludedNames.contains (Folder.lastName root) = true
      · rw [if_pos excluded, if_pos excluded]
        rfl
      rw [if_neg excluded, if_neg excluded, without.inputWays_eq]
      refine map_sections_foldlM_filter (fun way isInput kept => ?_)
        (fun way isInput isDropped => ?_) rfl
      · refine declaredAt_eq without fun other otherLeads => ?_
        have below := (Folder.mem_inputWays.1 isInput).1
        cases otherLeads.symm.trans (Folder.place?_of_mem_namesBelow leads below)
        rwa [Bool.not_eq_true'] at kept
      · have named : dropped (place ++ way) = true := by
          rwa [Bool.not_eq_false'] at isDropped
        obtain ⟨other, otherWay, otherLeads, isWay, -, readable, unparsed⟩ :=
          broken (place ++ way) named
        cases leads.symm.trans otherLeads
        cases List.append_cancel_left isWay
        obtain ⟨fault, isFault, recoverable, -⟩ := exists_fault readable unparsed
        exact ⟨fault, isFault, recoverable⟩
  · rw [if_neg isDirectory, if_neg isDirectory]
    rfl

end

/-! ### The whole -/

/-- What the declared sections become. -/
def buildersOf (settings : Settings) (configuration : Configuration) (system : TypeSystem)
    (sections : List Document.Section) : List Builder :=
  (sections.filter fun part => settings.wants part.root).map fun part =>
    assemble system configuration.naming part.root part.declarations

/-- What becomes of everything that was loaded. -/
def resultsOf (root : String) (settings : Settings) (configuration : Configuration)
    (system : TypeSystem) (loaded : Loaded) : Results where
  root := root
  builders := buildersOf settings configuration system loaded.sections
  skipped := loaded.skipped

/-- The builders depend on the declared sections only. -/
theorem map_builders_resultsOf (root : String) (settings : Settings)
    (configuration : Configuration) (system : TypeSystem)
    (attempt : Except ProjectFailure Loaded) :
    (attempt.map (resultsOf root settings configuration system)).map Results.builders =
      (attempt.map Loaded.sections).map (buildersOf settings configuration system) := by
  cases attempt <;> rfl

/-- The results come from the inputs that make sense, and list the others. -/
structure SkipsBroken (folder : Folder) (root : String) (settings : Settings)
    (configuration : Configuration) (system : TypeSystem) (paths : List String)
    (results : Results) : Prop where
  /-- The inputs come in the order of the names on their paths. -/
  ordered : ∃ ways : List (List String), ways.Pairwise (fun earlier later =>
      Folder.comesBefore earlier later = true) ∧ paths = ways.map (·.foldl Folder.join root)
  /-- An input that makes sense has a section for each root that its text declares, in order. -/
  sections : ∀ path ∈ paths, ∀ sections, parsedAt folder path = some sections →
    ∃ text document, folder.text? path = some text ∧ Document.parse? text = some document ∧
      sections.map (·.root.qualifiedName) = document.roots.map (·.root.qualifiedName)
  /-- The builders are those of all inputs that make sense, as far as their roots are wanted. -/
  builders : results.builders =
    buildersOf settings configuration system (paths.filterMap (parsedAt folder)).flatten
  skipped : ListsBroken folder paths results.skipped
  errors : results.hasErrors = true ↔ results.skipped ≠ [] ∨
    ∃ builder ∈ results.builders, ∃ diagnostic ∈ builder.diagnostics, diagnostic.isError = true

theorem Results.hasErrors_iff (results : Results) :
    results.hasErrors = true ↔ results.skipped ≠ [] ∨
      ∃ builder ∈ results.builders, ∃ diagnostic ∈ builder.diagnostics,
        diagnostic.isError = true := by
  have anySkipped : (!results.skipped.isEmpty) = true ↔ results.skipped ≠ [] := by
    rw [Bool.not_eq_true', List.isEmpty_eq_false_iff]
  have anyError : results.builders.any Builder.hasErrors = true ↔
      ∃ builder ∈ results.builders, ∃ diagnostic ∈ builder.diagnostics,
        diagnostic.isError = true := by
    simp only [List.any_eq_true, Builder.hasErrors]
  rw [Results.hasErrors, Bool.or_eq_true, anySkipped, anyError]

/-- A project is what its sections become, once its configuration and its types are settled. -/
theorem build_eq (folder : Folder) (root : String) (settings : Settings) :
    build folder root settings = (do
      let configuration ← settings.resolve folder root
      let system ← settings.resolveSystem configuration
      ((inputsAt folder root).bind (load folder)).map
        (resultsOf root settings configuration system)) := by
  rw [build]
  cases settings.resolve folder root with
  | error failure => rfl
  | ok configuration =>
    show (settings.resolveSystem configuration >>= _) =
      (settings.resolveSystem configuration >>= _)
    cases settings.resolveSystem configuration with
    | error failure => rfl
    | ok system =>
      show (inputsAt folder root >>= _) = _
      cases inputsAt folder root with
      | error failure => rfl
      | ok paths =>
        show (load folder paths >>= _) = (load folder paths).map _
        cases load folder paths <;> rfl

theorem load_of_readable {folder : Folder} {paths : List String}
    (readable : ∀ path ∈ paths, (folder.text? path).isSome = true) :
    ∃ skipped, ListsBroken folder paths skipped ∧
      load folder paths =
        .ok ⟨(paths.filterMap (parsedAt folder)).flatten, skipped⟩ :=
  exists_foldlM_addAt readable {}

/-! ### A root declared twice -/

/-- A folder whose only input makes sense. -/
def lone : Folder where
  files := [(["app.fluent.json"], some "\x7b\"roots\":[\x7b\"name\":\"Factory\"\x7d]\x7d")]

/-- The folder with another input, which declares one root twice. -/
def pair : Folder where
  files := lone.files ++
    [(["twice.fluent.json"],
      some "\x7b\"roots\":[\x7b\"name\":\"Cat\"\x7d,\x7b\"name\":\"Cat\"\x7d]\x7d")]

theorem inputWays_pair : pair.inputWays [] = [["app.fluent.json"], ["twice.fluent.json"]] :=
  List.mergeSort_of_pairwise (by decide)

theorem inputs?_pair : pair.inputs? "." = some ["./app.fluent.json", "./twice.fluent.json"] := by
  have leads : pair.place? "." = some [] := by decide
  rw [Folder.inputs?, if_neg (by decide), if_pos (by decide), leads, Option.map_some,
    Folder.inputsBelow_eq, if_neg (by decide), inputWays_pair]
  decide

theorem leavesOutBroken_lone : LeavesOutBroken pair "." lone := by
  refine ⟨fun names => names = ["twice.fluent.json"], ⟨by decide, fun names => ?_⟩, ?_⟩
  · cases names <;> simp [Folder.hasDirectory, Folder.listed, lone, pair]
  · intro names isDropped
    cases of_decide_eq_true isDropped
    refine ⟨[], ["twice.fluent.json"], by decide, rfl, Folder.mem_inputWays.2 (by decide),
      by decide, ?_⟩
    exact Option.isNone_iff_eq_none.1 (by decide +kernel)

/-! ### Inputs that make no sense -/

/-- An input that makes no sense spoils itself only. The results come from the others alone, and
the builders are the same whether it is there or not. -/
theorem skipsBroken_build (folder : Folder) (root : String) (settings : Settings) :
    (∀ configuration system paths, settings.resolve folder root = .ok configuration →
      settings.resolveSystem configuration = .ok system → folder.inputs? root = some paths →
      (∀ path ∈ paths, (folder.text? path).isSome = true) →
      ∃ results, build folder root settings = .ok results ∧
        SkipsBroken folder root settings configuration system paths results) ∧
    ∀ smaller, LeavesOutBroken folder root smaller →
      (build smaller root settings).map Results.builders =
        (build folder root settings).map Results.builders := by
  constructor
  · intro configuration system paths resolved resolvedSystem found readable
    obtain ⟨skipped, lists, isLoaded⟩ := load_of_readable readable
    have isInputs : inputsAt folder root = .ok paths := by rw [inputsAt, found]
    refine ⟨resultsOf root settings configuration system ⟨_, skipped⟩, ?_, {
      ordered := Folder.exists_ways_of_inputs? found
      sections := fun path _ sections parsed => exists_document parsed
      builders := rfl
      skipped := lists
      errors := Results.hasErrors_iff _ }⟩
    have declared : (inputsAt folder root).bind (load folder) = _ :=
      (congrArg (·.bind (load folder)) isInputs).trans isLoaded
    rw [build_eq, resolved, declared]
    show (settings.resolveSystem configuration >>= _) = _
    rw [resolvedSystem]
    rfl
  · rintro smaller ⟨dropped, without, broken⟩
    rw [build_eq, build_eq, resolve_eq without broken settings]
    cases settings.resolve folder root with
    | error failure => rfl
    | ok configuration =>
      show ((settings.resolveSystem configuration >>= _).map _) =
        ((settings.resolveSystem configuration >>= _).map _)
      cases settings.resolveSystem configuration with
      | error failure => rfl
      | ok system =>
        show (Except.map (resultsOf root settings configuration system) _).map Results.builders =
          (Except.map (resultsOf root settings configuration system) _).map Results.builders
        rw [map_builders_resultsOf, map_builders_resultsOf, map_sections_load_eq without broken]

/-- The root that another input declares twice does not come up, and the other one does. -/
theorem skipsBroken_build_pair :
    let settings : Settings := { configuration := some {}, system := some {} }
    (∃ results, build pair "." settings = .ok results ∧
      SkipsBroken pair "." settings {} {} ["./app.fluent.json", "./twice.fluent.json"] results) ∧
    (build lone "." settings).map Results.builders =
      (build pair "." settings).map Results.builders := by
  intro settings
  obtain ⟨skips, same⟩ := skipsBroken_build pair "." settings
  exact ⟨skips {} {} _ rfl rfl inputs?_pair (by decide), same lone leavesOutBroken_lone⟩

end Project

end StagedBuilder
