import CsdlAudit.Proofs.Directory.Verdicts
import CsdlAudit.Schema.Builder

/-!
# What a run comes to

Two kinds of finding come together in the result of a run. What the passes over the registry find
are errors (`severity_of_mem_conflictsOf`), and what the graph of references shows are warnings
(`severity_of_mem_issuesOf`). So the errors of a run are its conflicts in words, and nothing else
that is found across files bears on its verdict: a run is compliant when each file is and there is
no conflict. `settled_validateDirectory` says this of every run that finds files, with all that the
run warns of, and that the options of the graph do not change the verdict.
-/

namespace CsdlAudit

/-! ## How grave the findings are -/

section Severity

variable {r : Registry} {c : Conflict}

/-- A pass that makes conflicts of one severity finds no other. -/
theorem severity_of_mem_pass {α : Type} {s : Severity} {entries : List α} {test : α → Prop}
    [DecidablePred test] {make : α → Conflict} (hmake : ∀ a, (make a).severity = s)
    (h : c ∈ entries.filterMap fun a => if test a then some (make a) else none) :
    c.severity = s := by
  obtain ⟨a, -, ha⟩ := List.mem_filterMap.mp h
  obtain ⟨-, hc⟩ := Option.ite_none_right_eq_some.mp ha
  exact Option.some.inj hc ▸ hmake a

/-- **What the passes over a registry find are errors**, whichever passes are asked for. -/
theorem severity_of_mem_conflictsOf {config : Config} (h : c ∈ config.conflictsOf r) :
    c.severity = .error := by
  simp only [Config.conflictsOf, detect, List.mem_append, List.mem_ite_nil_right] at h
  rcases h with (((h | h) | h) | h) | h
  · exact severity_of_mem_pass (fun _ => rfl) h
  · exact severity_of_mem_pass (fun _ => rfl) h
  · exact severity_of_mem_pass (fun _ => rfl) h
  · exact severity_of_mem_pass (fun _ => rfl) h.2
  · exact severity_of_mem_pass (fun _ => rfl) h.2

/-- **What a graph shows are warnings**, whichever of it is asked for. -/
theorem severity_of_mem_issuesOf {config : Config} {g : ReferenceGraph}
    (h : c ∈ config.issuesOf g) : c.severity = .warning := by
  simp only [Config.issuesOf, List.mem_append, List.mem_ite_nil_right] at h
  rcases h with ⟨-, h⟩ | ⟨-, h⟩
  · obtain ⟨cycle, -, rfl⟩ := List.mem_map.mp h
    rfl
  · obtain ⟨u, -, rfl⟩ := List.mem_map.mp h
    rfl

theorem shownWith_append (s : Severity) (cs ds : List Conflict) :
    shownWith s (cs ++ ds) = shownWith s cs ++ shownWith s ds := by
  rw [shownWith, List.filter_append, List.map_append]
  rfl

/-- Conflicts of one severity are all shown with it. -/
theorem shownWith_eq_map {s : Severity} {cs : List Conflict} (h : ∀ c ∈ cs, c.severity = s) :
    shownWith s cs = cs.map Conflict.display := by
  rw [shownWith, List.filter_eq_self.mpr fun c hc => beq_iff_eq.mpr (h c hc)]

/-- Conflicts of one severity are not shown with another. -/
theorem shownWith_eq_nil {s t : Severity} {cs : List Conflict} (h : ∀ c ∈ cs, c.severity = s)
    (hne : s ≠ t) : shownWith t cs = [] := by
  rw [shownWith, List.filter_eq_nil_iff.mpr, List.map_nil]
  intro c hc heq
  exact hne ((h c hc).symm.trans (beq_iff_eq.mp heq))

end Severity

/-! ## What filing warns of -/

/-- **What filing the blocks of a file warns of**: that they cannot be read, or once for each of
them without a namespace. -/
def Collaborators.filingWarnings (c : Collaborators) (f : String × String) : List String :=
  match c.blocks f.2 with
  | .ok blocks =>
    (blocks.filter fun b => b.ownNamespace? = none).map fun _ =>
      "Schema without a namespace in " ++ f.1 ++ " was skipped"
  | .error e => ["Failed to extract schema elements from " ++ f.1 ++ ": " ++ e.message]

namespace Collaborators

variable {c : Collaborators} {path : String}

theorem read_of_error {e : AuditError} (h : c.blocks path = .error e) :
    c.read path = .error e := by
  rw [read, h]
  rfl

/-- What a reader knows of definitions has no part in the blocks that it reads. -/
theorem read_of_ok {blocks : List SchemaBlock} (h : c.blocks path = .ok blocks) :
    ∃ readBlocks, c.read path = .ok readBlocks ∧ readBlocks.map (·.schema) = blocks := by
  refine ⟨_, by rw [read, h]; rfl, ?_⟩
  exact List.ext_getElem (by simp) (by simp)

theorem read_of_nil (h : c.blocks path = .ok []) : c.read path = .ok [] := by
  rw [read, h]
  rfl

end Collaborators

namespace Intake

theorem warnings_addBlock (key : String) (i : Intake) (b : ReadBlock) :
    (i.addBlock key b).warnings = i.warnings ++
      if b.schema.ownNamespace? = none then
        ["Schema without a namespace in " ++ key ++ " was skipped"]
      else [] := by
  unfold addBlock Registry.ingest
  rw [ReadBlock.schema_block]
  cases b.schema.ownNamespace? <;> rfl

theorem warnings_addBlocks (key : String) (i : Intake) (blocks : List ReadBlock) :
    (blocks.foldl (addBlock key) i).warnings = i.warnings ++
      ((blocks.map (·.schema)).filter fun b => b.ownNamespace? = none).map fun _ =>
        "Schema without a namespace in " ++ key ++ " was skipped" := by
  induction blocks generalizing i with
  | nil => exact (List.append_nil _).symm
  | cons b blocks ih =>
    rw [List.foldl_cons, ih, warnings_addBlock, List.append_assoc]
    by_cases hb : b.schema.ownNamespace? = none <;> simp [hb]

/-- A file that is not compliant adds no warning. -/
theorem warnings_addFile (c : Collaborators) (vs : Verdicts) (i : Intake) (f : String × String) :
    (i.addFile c vs f).warnings =
      i.warnings ++ if vs.isCompliant f.1 then c.filingWarnings f else [] := by
  unfold addFile Collaborators.filingWarnings
  split
  · cases hblocks : c.blocks f.2 with
    | ok blocks =>
      obtain ⟨readBlocks, hread, rfl⟩ := Collaborators.read_of_ok hblocks
      rw [hread]
      exact warnings_addBlocks f.1 i readBlocks
    | error e =>
      rw [Collaborators.read_of_error hblocks]
  · exact (List.append_nil _).symm

/-- **Filing warns file by file**, of the compliant files only. -/
theorem warnings_ofFiles {c : Collaborators} {files : List (String × String)}
    (h : Ordered files) : (ofFiles c (judgeFiles c files) files).warnings =
      (files.filter fun f => (c.verdictOn f).compliant).flatMap c.filingWarnings := by
  have run : ∀ (fs : List (String × String)) (i : Intake), (∀ f ∈ fs, f ∈ files) →
      (fs.foldl (addFile c (judgeFiles c files)) i).warnings = i.warnings ++
        (fs.filter fun f => (c.verdictOn f).compliant).flatMap c.filingWarnings := by
    intro fs
    induction fs with
    | nil => exact fun i _ => (List.append_nil _).symm
    | cons f fs ih =>
      intro i hfs
      have hf := isCompliant_judgeFiles (c := c) h (hfs f List.mem_cons_self)
      rw [List.foldl_cons, ih _ fun g hg => hfs g (List.mem_cons_of_mem f hg), warnings_addFile,
        hf, List.append_assoc]
      cases hcompliant : (c.verdictOn f).compliant <;> simp [hcompliant]
  exact run files initial fun _ hf => hf

end Intake

/-! ## The verdict -/

/-- The line that counts the files that are not compliant. -/
def invalidLine (invalid total : Nat) : String :=
  toString invalid ++ " out of " ++ toString total ++ " files failed individual validation"

/-- **What the result of a run over files says**, and of what it is made. -/
structure Settled (c : Collaborators) (files : List (String × String)) (r : DirectoryResult) :
    Prop where
  /-- Each file has its own verdict, in the order of the files. -/
  results : r.fileResults = files.map fun f => (f.1, c.verdictOn f)
  /-- The conflicts are errors. -/
  conflicts : ∀ x ∈ r.conflicts, x.severity = .error
  /-- The issues of the graph are warnings. -/
  issues : ∀ x ∈ r.referenceIssues, x.severity = .warning
  /-- The errors are the conflicts in words. -/
  errors : r.globalErrors = r.conflicts.map Conflict.display
  /-- The files that are not compliant are counted. -/
  invalid : r.invalidFiles = (files.filter fun f => !(c.verdictOn f).compliant).length
  /-- The warnings are those of filing the compliant files, one for each reference that cannot be
  read, the issues of the graph in words, and the count of the files that are not compliant if
  there are any. -/
  warnings : ∃ g, r.graph = some g ∧ r.globalWarnings =
    (files.filter fun f => (c.verdictOn f).compliant).flatMap c.filingWarnings ++
      g.failures.map Failure.warning ++ r.referenceIssues.map Conflict.display ++
      if 0 < r.invalidFiles then [invalidLine r.invalidFiles files.length] else []
  /-- The run is compliant just when each file is and there is no conflict. -/
  compliant : r.compliant = true ↔ (∀ e ∈ r.fileResults, e.2.compliant = true) ∧ r.conflicts = []

/-- **Two results have one verdict**: they agree in all that the options of the graph have no part
in. -/
structure SameVerdict (r s : DirectoryResult) : Prop where
  /-- Both are compliant or none is. -/
  compliant : r.compliant = s.compliant
  /-- They have the same conflicts. -/
  conflicts : r.conflicts = s.conflicts
  /-- They have the same errors. -/
  globalErrors : r.globalErrors = s.globalErrors
  /-- They have the same verdicts on files. -/
  fileResults : r.fileResults = s.fileResults
  /-- They have the same files of each namespace. -/
  namespaceFiles : r.namespaceFiles = s.namespaceFiles

section Run

variable {config : Config} {c : Collaborators} {directory : String} {files : List (String × String)}

/-- The files that are not compliant are those that are left. -/
theorem length_sub_compliantCount (h : Ordered files) :
    files.length - (judgeFiles c files).compliantCount =
      (files.filter fun f => !(c.verdictOn f).compliant).length := by
  have hsplit := List.length_eq_length_filter_add (l := files) fun f => (c.verdictOn f).compliant
  rw [compliantCount_judgeFiles h.nodup_keys]
  omega

theorem errors_eq_map (config : Config) (r : Registry) (g : ReferenceGraph) :
    shownWith .error (config.conflictsOf r ++ config.issuesOf g) =
      (config.conflictsOf r).map Conflict.display := by
  rw [shownWith_append, shownWith_eq_map fun _ => severity_of_mem_conflictsOf,
    shownWith_eq_nil (fun _ => severity_of_mem_issuesOf) (by decide), List.append_nil]

theorem warnings_eq_map (config : Config) (r : Registry) (g : ReferenceGraph) :
    shownWith .warning (config.conflictsOf r ++ config.issuesOf g) =
      (config.issuesOf g).map Conflict.display := by
  rw [shownWith_append, shownWith_eq_nil (fun _ => severity_of_mem_conflictsOf) (by decide),
    shownWith_eq_map fun _ => severity_of_mem_issuesOf, List.nil_append]

/-- **A run over files in order settles them.** -/
theorem settled_validateFiles (h : Ordered files) :
    Settled c files (validateFiles config c directory files) where
  results := judgeFiles_eq_map h
  conflicts := fun _ hx => severity_of_mem_conflictsOf hx
  issues := fun _ hx => severity_of_mem_issuesOf hx
  errors := errors_eq_map config _ _
  invalid := length_sub_compliantCount h
  warnings := by
    refine ⟨_, rfl, ?_⟩
    rw [← Intake.warnings_ofFiles h]
    exact congrArg (_ ++ · ++ _) (warnings_eq_map config _ _)
  compliant := by
    have hcompliant : (validateFiles config c directory files).compliant =
        (files.length - (judgeFiles c files).compliantCount == 0 &&
          (validateFiles config c directory files).conflicts.isEmpty &&
          (validateFiles config c directory files).globalErrors.isEmpty) := rfl
    have herrors : (validateFiles config c directory files).globalErrors =
        (validateFiles config c directory files).conflicts.map Conflict.display :=
      errors_eq_map config _ _
    have hresults : (validateFiles config c directory files).fileResults =
        files.map fun f => (f.1, c.verdictOn f) := judgeFiles_eq_map h
    have hall : (files.filter fun f => !(c.verdictOn f).compliant).length = 0 ↔
        ∀ e ∈ files.map fun f => (f.1, c.verdictOn f), e.2.compliant = true := by
      rw [List.length_eq_zero_iff, List.filter_eq_nil_iff, List.forall_mem_map]
      simp only [Bool.not_eq_true', Bool.not_eq_false]
    rw [hcompliant, herrors, hresults, length_sub_compliantCount h, Bool.and_eq_true,
      Bool.and_eq_true, beq_iff_eq, hall, List.isEmpty_iff, List.isEmpty_iff, List.map_eq_nil_iff,
      and_assoc, and_self]

/-- **The options of the graph have no part in the verdict.** -/
theorem sameVerdict_validateFiles (h : Ordered files) (options : GraphOptions) :
    SameVerdict (validateFiles { config with graph := options } c directory files)
      (validateFiles config c directory files) where
  compliant := by
    rw [Bool.eq_iff_iff, (settled_validateFiles h).compliant, (settled_validateFiles h).compliant]
    rfl
  conflicts := rfl
  globalErrors := by
    rw [(settled_validateFiles h).errors, (settled_validateFiles h).errors]
    rfl
  fileResults := rfl
  namespaceFiles := rfl

end Run

/-- **Every run that finds files settles them**, and to the same verdict whatever the options of the
graph. -/
theorem settled_validateDirectory {config : Config} {root : Tree} {c : Collaborators}
    {directory pattern : String} {keys : List String}
    (hfound : discover root directory pattern config.validation.skipPrefixes = .ok keys)
    (hsome : keys ≠ []) :
    Settled c (keys.map fun k => (k, filePath directory k))
        (validateDirectory config root c directory pattern) ∧
      ∀ options, SameVerdict
        (validateDirectory { config with graph := options } root c directory pattern)
        (validateDirectory config root c directory pattern) := by
  have hrun : ∀ options, validateDirectory { config with graph := options } root c directory
      pattern = validateFiles { config with graph := options } c directory
        (keys.map fun k => (k, filePath directory k)) := by
    intro options
    rw [validateDirectory, hfound]
    cases keys with
    | nil => exact absurd rfl hsome
    | cons key keys => rfl
  have hordered := ordered_of_discover hfound
  have hself := hrun config.graph
  rw [hself]
  refine ⟨settled_validateFiles hordered, fun options => ?_⟩
  rw [hrun options]
  exact sameVerdict_validateFiles hordered options

/-- A block with one entity type, which leads to another one. -/
def leading (source target : String) : SchemaBlock :=
  { SchemaBlock.bare (some "N") none with
    entityTypes := [(StructuredType.named source).withNavigation "Next" target] }

/-- A folder with three files. -/
def threeFiles : Tree :=
  .folder [("d", .folder (["c.xml", "b.xml", "a.xml"].map fun name => (name, .file (.text ""))))]

/-- Two files declare parts of one namespace, and the third cannot be read. -/
def twoDeclare : Collaborators where
  check path := if path = "d/c.xml" then .gaveUp notText else .judged (.clean path)
  blocks path :=
    if path = "d/a.xml" then .ok [leading "Order" "N.Line", .bare none none]
    else .ok [leading "Line" "N.Order"]

/-- **The verdict of three files**: one is not compliant, and two are in conflict, whether or not
the graph is looked into. -/
theorem settled_threeFiles :
    Settled twoDeclare [("a.xml", "d/a.xml"), ("b.xml", "d/b.xml"), ("c.xml", "d/c.xml")]
        (validateDirectory .standard threeFiles twoDeclare "d" "*.xml") ∧
      SameVerdict
        (validateDirectory { Config.standard with graph := ⟨"Edm.", false, false, false⟩ }
          threeFiles twoDeclare "d" "*.xml")
        (validateDirectory .standard threeFiles twoDeclare "d" "*.xml") ∧
      (validateDirectory .standard threeFiles twoDeclare "d" "*.xml").conflicts.map (·.type) =
        [.duplicateNamespaceSchema] ∧
      (validateDirectory .standard threeFiles twoDeclare "d" "*.xml").invalidFiles = 1 := by
  have hfound : discover threeFiles "d" "*.xml" Config.standard.validation.skipPrefixes =
      .ok ["a.xml", "b.xml", "c.xml"] := rfl
  obtain ⟨hsettled, hsame⟩ := settled_validateDirectory (c := twoDeclare) hfound (by decide)
  exact ⟨hsettled, hsame _, by decide +kernel, by decide +kernel⟩

end CsdlAudit
