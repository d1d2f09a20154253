import Grounder.Config
import Grounder.Proofs.Files.FileStore

/-!
# `Grounder.Proofs.Config`: where settings come from

A setting has a variable in the environment, a place in the configuration file, and a default
(`Setting`). Its value is the first of the three that there is (`Setting.value`), and it depends on
no other variable and on no other place. A variable that is empty is meant to say nothing.

Loading reads the layers in the opposite order: the file over the defaults (`fromFile_of_ofToml?`),
then the environment over the file (`override_eq`), and last it anchors the directories at the
project (`anchors_join`). `load_layered` is what comes out of it. A file that is there has to be
valid, whatever the environment says.

One variable does not follow the rule. An empty `GROUNDWORK_OUTPUT_DIR` counts as a directory, which
is the project itself (`empty_output_variable`).
-/

set_option autoImplicit false

namespace Grounder.Config

/-! ### Settings -/

/-- Where the layers of a setting are and how they are read. -/
structure Setting (α : Type) where
  variableName : String
  /-- What a text in the environment says. -/
  readText : String → Option α
  sectionName : String
  /-- The settings of the section in the order of its array. -/
  names : List String
  name : String
  /-- What a value in the file says. -/
  readValue : Toml.Value → Option α
  default : α

namespace Setting

variable {α : Type}

/-- What the environment says about a setting: nothing if the variable is not set, or empty, or not
valid. -/
def fromEnvironment (s : Setting α) (env : Environment) : Option α :=
  ((env s.variableName).filter (· ≠ "")).bind s.readText

/-- What the file says about a setting. -/
def fromFile (s : Setting α) (root : Toml.Entries) : Option α :=
  (section? root s.sectionName s.names).bind fun entries =>
    (entries.lookup s.name).bind s.readValue

/-- The value of a setting is the first one that there is. -/
def value (s : Setting α) (env : Environment) (root : Toml.Entries) : α :=
  ((s.fromEnvironment env).or (s.fromFile root)).getD s.default

def symbolOrder : Setting SymbolOrder where
  variableName := "GROUNDWORK_SYMBOL_ORDER"
  readText text := (SymbolOrder.parse text).toOption
  sectionName := "grounding"
  names := ["symbol_order", "resolve_static_externals"]
  name := "symbol_order"
  readValue := readOrder
  default := .declaration

def resolveStatics : Setting Bool where
  variableName := "GROUNDWORK_RESOLVE_STATIC_EXTERNALS"
  readText := parseBool?
  sectionName := "grounding"
  names := ["symbol_order", "resolve_static_externals"]
  name := "resolve_static_externals"
  readValue := readBool
  default := false

def templateDir : Setting (Option String) where
  variableName := "GROUNDWORK_TEMPLATE_DIR"
  readText text := some (some text)
  sectionName := "generation"
  names := ["template_dir", "parallel"]
  name := "template_dir"
  readValue v := (readString v).map some
  default := none

def parallel : Setting Bool where
  variableName := "GROUNDWORK_PARALLEL"
  readText := parseBool?
  sectionName := "generation"
  names := ["template_dir", "parallel"]
  name := "parallel"
  readValue := readBool
  default := true

def outputDir : Setting String where
  variableName := "GROUNDWORK_OUTPUT_DIR"
  readText text := some text
  sectionName := "output"
  names := ["dir"]
  name := "dir"
  readValue := readString
  default := "generated"

/-! ### The file -/

/-- Reading a section takes the value that the file gives, and else the default. -/
theorem fromFile_of_setting? (s : Setting α) {root entries : Toml.Entries} {v : α}
    (hsection : section? root s.sectionName s.names = some entries)
    (h : setting? entries s.name s.default s.readValue = some v) :
    v = (s.fromFile root).getD s.default := by
  rw [setting?] at h
  rw [fromFile, hsection, Option.bind_some]
  cases hlookup : entries.lookup s.name with
  | none =>
    rw [hlookup] at h
    exact (Option.some.inj h).symm
  | some value =>
    rw [hlookup] at h
    rw [Option.bind_some]
    exact (congrArg (·.getD s.default) h).symm

end Setting

variable {α : Type} {root : Toml.Entries} {c : Config} {env : Environment}

/-- The settings that a configuration file gives are its values, and the defaults for the others. -/
theorem fromFile_of_ofToml? (h : ofToml? root = some c) :
    c = ⟨(Setting.symbolOrder.fromFile root).getD .declaration,
      (Setting.resolveStatics.fromFile root).getD false,
      (Setting.templateDir.fromFile root).getD none, (Setting.parallel.fromFile root).getD true,
      (Setting.outputDir.fromFile root).getD "generated"⟩ := by
  -- One section after another, each with its settings.
  obtain ⟨-, -, h⟩ := Option.bind_eq_some_iff.1 h
  obtain ⟨grounding, hgrounding, h⟩ := Option.bind_eq_some_iff.1 h
  obtain ⟨order, horder, h⟩ := Option.bind_eq_some_iff.1 h
  obtain ⟨resolve, hresolve, h⟩ := Option.bind_eq_some_iff.1 h
  obtain ⟨generation, hgeneration, h⟩ := Option.bind_eq_some_iff.1 h
  obtain ⟨templates, htemplates, h⟩ := Option.bind_eq_some_iff.1 h
  obtain ⟨parallel, hparallel, h⟩ := Option.bind_eq_some_iff.1 h
  obtain ⟨output, houtput, h⟩ := Option.bind_eq_some_iff.1 h
  obtain ⟨dir, hdir, h⟩ := Option.bind_eq_some_iff.1 h
  cases h
  congr 1
  · exact Setting.symbolOrder.fromFile_of_setting? hgrounding horder
  · exact Setting.resolveStatics.fromFile_of_setting? hgrounding hresolve
  · exact Setting.templateDir.fromFile_of_setting? hgeneration htemplates
  · exact Setting.parallel.fromFile_of_setting? hgeneration hparallel
  · exact Setting.outputDir.fromFile_of_setting? houtput hdir

/-! ### The environment -/

/-- A variable goes in front of what the file or the default says. It is as if it were not set when
it is empty, provided that an empty text is not valid. -/
theorem override_eq (s : Setting α) {read : String → Option α} {old : α}
    (hold : old = (s.fromFile root).getD s.default)
    (hempty : env s.variableName = some "" → read "" = none)
    (hread : ∀ text, text ≠ "" → read text = s.readText text) :
    override env s.variableName read old = s.value env root := by
  rw [override, Setting.value, Setting.fromEnvironment, hold]
  cases henv : env s.variableName with
  | none => rfl
  | some text =>
    by_cases htext : text = ""
    · subst htext
      simp [Option.filter, hempty henv]
    · simp only [Option.filter, htext, ne_eq, not_false_eq_true, decide_true, if_true,
        Option.bind_some, hread text htext]
      cases s.readText text <;> rfl

/-! ### The project -/

/-- A directory, seen from a project: an absolute one is itself, and a relative one is below the
project. -/
def Anchors (project dir path : String) : Prop :=
  (Path.isAbsolute dir = true → path = dir) ∧
  (Path.isAbsolute dir = false → project = "" → path = dir) ∧
  (Path.isAbsolute dir = false → project ≠ "" →
    ∃ above, path.toList = above ++ '/' :: dir.toList ∧
      (project.toList = above ∨ project.toList = above ++ ['/']))

/-- Joining paths anchors the second one at the first one. -/
theorem anchors_join (project dir : String) : Anchors project dir (Path.join project dir) := by
  refine ⟨fun h => ?_, fun h hproject => ?_, fun h hproject => Path.toList_join h hproject⟩
  · rw [Path.join, if_pos h]
  · subst hproject
    rw [Path.join, if_neg (by simp [h])]
    simp

/-- The configuration file is there, but it cannot be read, or it is not a valid one. -/
def IsInvalid (tree : FileTree) (project : String) : Prop :=
  tree.isPresent (file project) = true ∧ (tree.readText? (file project)).bind parse? = none

instance (tree : FileTree) (project : String) : Decidable (IsInvalid tree project) :=
  inferInstanceAs (Decidable (_ ∧ _))

/-- What the configuration file holds, if there is one. -/
def fileEntries (tree : FileTree) (project : String) : Toml.Entries :=
  if tree.isPresent (file project) then
    ((tree.readText? (file project)).bind Toml.Reader.read).getD []
  else []

/-- Settings as they should be, but for the variable of the output directory, which counts even
when it is empty. -/
structure IsLayered (project : String) (env : Environment) (root : Toml.Entries) (c : Config) :
    Prop where
  symbolOrder : c.symbolOrder = Setting.symbolOrder.value env root
  resolveStatics : c.resolveStatics = Setting.resolveStatics.value env root
  parallel : c.parallel = Setting.parallel.value env root
  templateDir : Option.Rel (Anchors project) (Setting.templateDir.value env root) c.templateDir
  outputDir : env "GROUNDWORK_OUTPUT_DIR" ≠ some "" →
    Anchors project (Setting.outputDir.value env root) c.outputDir
  outputDir_empty : env "GROUNDWORK_OUTPUT_DIR" = some "" → Anchors project "" c.outputDir

/-- Settings of a file with those of the environment in front, and anchored, are layered. -/
theorem isLayered_anchored (project : String) (env : Environment) (h : ofToml? root = some c) :
    IsLayered project env root ((c.withEnvironment env).anchored project) := by
  have hc := fromFile_of_ofToml? h
  constructor
  · exact override_eq .symbolOrder (congrArg Config.symbolOrder hc) (fun _ => rfl) fun _ _ => rfl
  · exact override_eq .resolveStatics (congrArg Config.resolveStatics hc) (fun _ => rfl)
      fun _ _ => rfl
  · exact override_eq .parallel (congrArg Config.parallel hc) (fun _ => rfl) fun _ _ => rfl
  · -- The variable of this directory is asked whether it is empty.
    have hvalue : (c.withEnvironment env).templateDir = Setting.templateDir.value env root :=
      override_eq .templateDir (congrArg Config.templateDir hc) (fun _ => if_pos rfl)
        fun _ htext => if_neg htext
    show Option.Rel _ _ ((c.withEnvironment env).templateDir.map (Path.join project))
    rw [hvalue]
    cases Setting.templateDir.value env root with
    | none => exact .none
    | some dir => exact .some (anchors_join project dir)
  · -- The variable of this one is not, so it must not be empty.
    intro hset
    have hvalue : (c.withEnvironment env).outputDir = Setting.outputDir.value env root :=
      override_eq .outputDir (congrArg Config.outputDir hc) (fun hempty => absurd hempty hset)
        fun _ _ => rfl
    show Anchors project _ (Path.join project (c.withEnvironment env).outputDir)
    rw [hvalue]
    exact anchors_join project _
  · intro hempty
    have hvalue : (c.withEnvironment env).outputDir = "" := by
      show override env _ _ c.outputDir = _
      rw [override, hempty]
      rfl
    show Anchors project _ (Path.join project (c.withEnvironment env).outputDir)
    rw [hvalue]
    exact anchors_join project ""

/-! ### Loading -/

section
variable {tree : FileTree} {project : String}

/-- A file that is not valid cannot be read. -/
theorem readFile_of_isInvalid (h : IsInvalid tree project) :
    (readFile project : StateM FileTree _) tree =
      (.error (if (tree.readText? (file project)).isNone then .unreadable (file project)
        else .invalid (file project)), tree) := by
  obtain ⟨hpresent, hparse⟩ := h
  simp only [readFile, bind, StateT.bind, FileTree.isPresent_storeAt, hpresent, if_true,
    FileTree.readText?_storeAt]
  cases htext : tree.readText? (file project) with
  | none => rfl
  | some text =>
    rw [htext, Option.bind_some] at hparse
    simp only [hparse]
    rfl

/-- Otherwise, what the file holds is read, and nothing is read if there is no file. -/
theorem readFile_of_not_isInvalid (h : ¬ IsInvalid tree project) :
    ∃ c, (readFile project : StateM FileTree _) tree = (.ok c, tree) ∧
      ofToml? (fileEntries tree project) = some c := by
  by_cases hpresent : tree.isPresent (file project) = true
  · cases htext : tree.readText? (file project) with
    | none => exact absurd ⟨hpresent, by rw [htext]; rfl⟩ h
    | some text =>
      cases hparse : parse? text with
      | none => exact absurd ⟨hpresent, by rw [htext]; exact hparse⟩ h
      | some c =>
        refine ⟨c, ?_, ?_⟩
        · simp only [readFile, bind, StateT.bind, FileTree.isPresent_storeAt, hpresent, if_true,
            FileTree.readText?_storeAt, htext, hparse]
          rfl
        · obtain ⟨root, hroot, hc⟩ := Option.bind_eq_some_iff.1 hparse
          rw [fileEntries, if_pos hpresent, htext, Option.bind_some, hroot]
          exact hc
  · refine ⟨default, ?_, ?_⟩
    · simp only [readFile, bind, StateT.bind, FileTree.isPresent_storeAt, hpresent]
      rfl
    · rw [fileEntries, if_neg hpresent]
      rfl

/-- What was read gets the environment in front, and is anchored. -/
theorem load_of_readFile {found : Except ReadError Config} (env : Environment)
    (h : (readFile project : StateM FileTree _) tree = (found, tree)) :
    (load project env : StateM FileTree _) tree =
      (found.map fun c => (c.withEnvironment env).anchored project, tree) := by
  simp only [load, bind, StateT.bind]
  rw [h]
  rfl

end

/-- Loading fails if the configuration file is there and not valid, whatever the environment says.
Otherwise every setting has its own layers. The value of the first layer that has one is taken, and
a directory is anchored at the project, whichever layer it came from. A variable that is empty
counts as one that is not set, except for that of the output directory. -/
theorem load_layered (tree : FileTree) (project : String) :
    (IsInvalid tree project → ∃ e, ∀ env,
      (load project env : StateM FileTree _) tree = (.error e, tree)) ∧
    (¬ IsInvalid tree project → ∀ env, ∃ c,
      (load project env : StateM FileTree _) tree = (.ok c, tree) ∧
      IsLayered project env (fileEntries tree project) c) := by
  constructor
  · intro hinvalid
    exact ⟨_, fun env => load_of_readFile env (readFile_of_isInvalid hinvalid)⟩
  · intro hvalid env
    obtain ⟨c, hread, hc⟩ := readFile_of_not_isInvalid hvalid
    exact ⟨_, load_of_readFile env hread, isLayered_anchored project env hc⟩

/-- A project whose configuration file holds a text. -/
def configuredTree (text : String) : FileTree where
  current := []
  entries := [(["proj"], .directory), (["proj", ".groundwork"], .directory),
    (["proj", ".groundwork", "config.toml"], .file (.text text))]

/-- The order and the output directory come from the file, since the variable of the order is
empty. The template directory comes from the environment. Whether to render side by side is a
default, since the variable holds no truth value. A file with a number for a truth value is
refused. -/
theorem load_layered_mixed :
    let env : Environment := fun name => List.lookup name [("GROUNDWORK_SYMBOL_ORDER", ""),
      ("GROUNDWORK_PARALLEL", "yes"), ("GROUNDWORK_TEMPLATE_DIR", "/templates")]
    let tree := configuredTree
      "[grounding]\nsymbol_order = \"arity\"\n\n[output]\ndir = \"/out\"\n"
    let broken := configuredTree "[generation]\nparallel = 1\n"
    (∃ c, (load "proj" env : StateM FileTree _) tree = (.ok c, tree) ∧ c.symbolOrder = .arity ∧
      c.parallel = true ∧ c.templateDir = some "/templates" ∧ c.outputDir = "/out") ∧
    ∃ e, ∀ env, (load "proj" env : StateM FileTree _) broken = (.error e, broken) := by
  intro env tree broken
  have hvalid : ¬ IsInvalid tree "proj" := by decide +kernel
  have hinvalid : IsInvalid broken "proj" := by decide +kernel
  obtain ⟨horder, hparallel, htemplates, hdir⟩ :
      Setting.symbolOrder.value env (fileEntries tree "proj") = .arity ∧
        Setting.parallel.value env (fileEntries tree "proj") = true ∧
        Setting.templateDir.value env (fileEntries tree "proj") = some "/templates" ∧
        Setting.outputDir.value env (fileEntries tree "proj") = "/out" := by
    decide +kernel
  obtain ⟨c, hload, hlayered⟩ := (load_layered tree "proj").2 hvalid env
  refine ⟨⟨c, hload, ?_, ?_, ?_, ?_⟩, (load_layered broken "proj").1 hinvalid⟩
  · rw [hlayered.symbolOrder, horder]
  · rw [hlayered.parallel, hparallel]
  · have hanchored := hlayered.templateDir
    rw [htemplates] at hanchored
    generalize c.templateDir = dir at hanchored ⊢
    cases hanchored with
    | some hanchors => exact congrArg some (hanchors.1 (by decide))
  · have hanchored := hlayered.outputDir (by decide)
    rw [hdir] at hanchored
    exact hanchored.1 (by decide)

/-- An empty variable of the output directory counts as a directory. Artifacts then go to the
project itself, and not to the directory that they go to when the variable is not set. -/
theorem empty_output_variable :
    let env : Environment := fun name => List.lookup name [("GROUNDWORK_OUTPUT_DIR", "")]
    let tree : FileTree := ⟨[], []⟩
    tree.isPresent (file "proj") = false ∧
      (load "proj" env : StateM FileTree _) tree
        = (.ok ⟨.declaration, false, none, true, "proj/"⟩, tree) ∧
      (load "proj" (fun _ => none) : StateM FileTree _) tree
        = (.ok ⟨.declaration, false, none, true, "proj/generated"⟩, tree) ∧
      Setting.outputDir.value env (fileEntries tree "proj") = "generated" ∧
      ¬ Anchors "proj" "generated" "proj/" := by
  intro env tree
  refine ⟨by decide, rfl, rfl, by decide, ?_⟩
  intro h
  obtain ⟨above, habove, -⟩ := h.2.2 (by decide) (by decide)
  have hlength := congrArg List.length habove
  simp at hlength

end Grounder.Config
