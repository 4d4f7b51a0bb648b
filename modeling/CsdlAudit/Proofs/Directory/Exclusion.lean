import CsdlAudit.Proofs.Directory.Outcome

/-!
# Files that contribute nothing

What a run finds across files depends on the files in two ways only: on how many of them are
compliant, and on what the reader of blocks answers of the compliant ones, in the order of the files
(`Intake.ofFiles_eq_ofAnswers`). So two runs that agree in this agree in all that they find across
files (`agreeAcross_validateFiles`), whatever the checker and the reader make of the other files.
The reader is not even asked of these: it may break down on each of them
(`Intake.ofFiles?_eq_some`).

An answer that a file cannot be read adds a warning where the file stands, and files nothing
(`Intake.ofAnswers_error`). `agreeAcross_validateDirectory` puts this together.
-/

namespace CsdlAudit

/-! ## Answers of the reader of blocks -/

/-- **What the reader of blocks answers of a file**, given by its key. -/
abbrev FileAnswer := String × Except AuditError (List ReadBlock)

/-- **What the reader of blocks answers of the compliant files**, in the order of the files. -/
def Collaborators.answers (c : Collaborators) (files : List (String × String)) : List FileAnswer :=
  (files.filter fun f => (c.verdictOn f).compliant).map fun f => (f.1, c.read f.2)

/-- What is warned of when a file cannot be read. -/
def unreadLine (key : String) (e : AuditError) : String :=
  "Failed to extract schema elements from " ++ key ++ ": " ++ e.message

namespace Intake

/-- Files what the reader answers of a file. -/
def addAnswer (i : Intake) (a : FileAnswer) : Intake :=
  match a.2 with
  | .ok blocks => blocks.foldl (addBlock a.1) i
  | .error e => { i with warnings := i.warnings ++ [unreadLine a.1 e] }

/-- Files what the reader answers, one file after the other. -/
def ofAnswers (answers : List FileAnswer) : Intake := answers.foldl addAnswer initial

theorem addFile_eq (c : Collaborators) (vs : Verdicts) (i : Intake) (f : String × String) :
    i.addFile c vs f = if vs.isCompliant f.1 then i.addAnswer (f.1, c.read f.2) else i := by
  unfold addFile addAnswer
  rfl

/-- **Filing is filing what is answered of the compliant files.** -/
theorem ofFiles_eq_ofAnswers {c : Collaborators} {files : List (String × String)}
    (h : Ordered files) :
    ofFiles c (judgeFiles c files) files = ofAnswers (c.answers files) := by
  have hstep : ∀ i : Intake, ∀ f ∈ files, i.addFile c (judgeFiles c files) f =
      if (c.verdictOn f).compliant then i.addAnswer (f.1, c.read f.2) else i := by
    intro i f hf
    rw [addFile_eq, isCompliant_judgeFiles h hf]
  rw [ofFiles, List.foldl_ext _ _ _ hstep, ofAnswers, Collaborators.answers, List.foldl_map,
    List.foldl_filter]

/-! ## A reader that breaks down -/

/-- **Filing with a reader that may break down**, which is the end of the run: `none`. -/
def ofFiles? (read : String → Option (Except AuditError (List ReadBlock))) (vs : Verdicts)
    (files : List (String × String)) : Option Intake :=
  files.foldlM (fun i f =>
    if vs.isCompliant f.1 then (read f.2).map fun answer => i.addAnswer (f.1, answer)
    else some i) initial

/-- **The reader is asked of compliant files only.** -/
theorem ofFiles?_eq_some {read : String → Option (Except AuditError (List ReadBlock))}
    {c : Collaborators} {vs : Verdicts} {files : List (String × String)}
    (h : ∀ f ∈ files, vs.isCompliant f.1 = true → read f.2 = some (c.read f.2)) :
    ofFiles? read vs files = some (ofFiles c vs files) := by
  unfold ofFiles? ofFiles
  generalize initial = i
  induction files generalizing i with
  | nil => rfl
  | cons f files ih =>
    have hrest := ih fun g hg => h g (List.mem_cons_of_mem f hg)
    rw [List.foldlM_cons, List.foldl_cons, addFile_eq]
    cases hcompliant : vs.isCompliant f.1 with
    | true =>
      rw [h f List.mem_cons_self hcompliant]
      exact hrest _
    | false => exact hrest _

/-! ## Earlier warnings -/

/-- The same with further warnings in front. -/
def warned (ws : List String) (i : Intake) : Intake := { i with warnings := ws ++ i.warnings }

theorem addBlock_warned (ws : List String) (key : String) (i : Intake) (b : ReadBlock) :
    (i.warned ws).addBlock key b = (i.addBlock key b).warned ws := by
  unfold addBlock warned
  simp only [List.append_assoc]

/-- **Earlier warnings have no part in filing.** -/
theorem addAnswer_warned (ws : List String) (i : Intake) (a : FileAnswer) :
    (i.warned ws).addAnswer a = (i.addAnswer a).warned ws := by
  unfold addAnswer
  cases a.2 with
  | ok blocks =>
    show blocks.foldl (addBlock a.1) (i.warned ws) = (blocks.foldl (addBlock a.1) i).warned ws
    induction blocks generalizing i with
    | nil => rfl
    | cons b blocks ih => rw [List.foldl_cons, addBlock_warned, ih, List.foldl_cons]
  | error e =>
    unfold warned
    simp only [List.append_assoc]

theorem foldl_addAnswer_warned (ws : List String) (i : Intake) (answers : List FileAnswer) :
    answers.foldl addAnswer (i.warned ws) = (answers.foldl addAnswer i).warned ws := by
  induction answers generalizing i with
  | nil => rfl
  | cons a answers ih => rw [List.foldl_cons, addAnswer_warned, ih, List.foldl_cons]

/-- **A file that cannot be read files nothing**, and adds its warning to those of the files before
it. -/
theorem ofAnswers_error (before after : List FileAnswer) (key : String) (e : AuditError) :
    (ofAnswers (before ++ (key, .error e) :: after)).registry =
        (ofAnswers (before ++ (key, .ok []) :: after)).registry ∧
      ∃ ws, (ofAnswers (before ++ (key, .error e) :: after)).warnings =
          (ofAnswers before).warnings ++ unreadLine key e :: ws ∧
        (ofAnswers (before ++ (key, .ok []) :: after)).warnings =
          (ofAnswers before).warnings ++ ws := by
  -- what is filed from here on, as if nothing was warned of before
  let fresh : Intake := { ofAnswers before with warnings := [] }
  have herror : ofAnswers (before ++ (key, .error e) :: after) =
      (after.foldl addAnswer fresh).warned ((ofAnswers before).warnings ++ [unreadLine key e]) := by
    rw [← foldl_addAnswer_warned, ofAnswers, List.foldl_append, List.foldl_cons]
    congr 1
    simp only [addAnswer, warned, fresh, List.append_nil]
    rfl
  have hnone : ofAnswers (before ++ (key, .ok []) :: after) =
      (after.foldl addAnswer fresh).warned (ofAnswers before).warnings := by
    rw [← foldl_addAnswer_warned, ofAnswers, List.foldl_append, List.foldl_cons]
    congr 1
    simp only [addAnswer, warned, fresh, List.append_nil, List.foldl_nil]
    rfl
  rw [herror, hnone]
  exact ⟨rfl, _, List.append_assoc _ _ _, rfl⟩

end Intake

/-! ## Results that agree across files -/

/-- **Two results agree in what was found across files**, warnings apart. -/
structure AgreeAcross (r s : DirectoryResult) : Prop where
  /-- Both are compliant or none is. -/
  compliant : r.compliant = s.compliant
  /-- They have the same conflicts. -/
  conflicts : r.conflicts = s.conflicts
  /-- The graph shows the same in both. -/
  referenceIssues : r.referenceIssues = s.referenceIssues
  /-- They have the same errors. -/
  globalErrors : r.globalErrors = s.globalErrors
  /-- They have the same files of each namespace. -/
  namespaceFiles : r.namespaceFiles = s.namespaceFiles
  /-- They are about as many files. -/
  totalFiles : r.totalFiles = s.totalFiles
  /-- As many of them are compliant. -/
  validFiles : r.validFiles = s.validFiles
  /-- As many of them are not. -/
  invalidFiles : r.invalidFiles = s.invalidFiles
  /-- They have the same statistics. -/
  statistics : r.statistics = s.statistics
  /-- They have the same graph. -/
  graph : r.graph = s.graph

/-- **Runs that file the same agree across files**, and warn of the same after filing. -/
theorem agreeAcross_validateFiles {config : Config} {c c' : Collaborators}
    {directory directory' : String} {files files' : List (String × String)}
    (hlength : files.length = files'.length)
    (hcount : (judgeFiles c files).compliantCount = (judgeFiles c' files').compliantCount)
    (hregistry : (Intake.ofFiles c (judgeFiles c files) files).registry =
      (Intake.ofFiles c' (judgeFiles c' files') files').registry) :
    AgreeAcross (validateFiles config c directory files)
        (validateFiles config c' directory' files') ∧
      ∃ ws, (validateFiles config c directory files).globalWarnings =
          (Intake.ofFiles c (judgeFiles c files) files).warnings ++ ws ∧
        (validateFiles config c' directory' files').globalWarnings =
          (Intake.ofFiles c' (judgeFiles c' files') files').warnings ++ ws := by
  unfold validateFiles
  simp only [hlength, hcount, hregistry, List.append_assoc]
  exact ⟨⟨rfl, rfl, rfl, rfl, rfl, rfl, rfl, rfl, rfl, rfl⟩, _, rfl, rfl⟩

/-! ## Two runs over the same keys -/

/-- The file of a directory that has a key. -/
def fileAt (directory key : String) : String × String := (key, filePath directory key)

theorem validateDirectory_eq {config : Config} {root : Tree} {c : Collaborators}
    {directory pattern : String} {keys : List String}
    (hfound : discover root directory pattern config.validation.skipPrefixes = .ok keys)
    (hsome : keys ≠ []) : validateDirectory config root c directory pattern =
      validateFiles config c directory (keys.map (fileAt directory)) := by
  rw [validateDirectory, hfound]
  cases keys with
  | nil => exact absurd rfl hsome
  | cons key keys => rfl

namespace Collaborators

/-- Whether the file with a key is compliant. -/
def isCompliantAt (c : Collaborators) (directory key : String) : Bool :=
  (c.verdictOn (fileAt directory key)).compliant

/-- What filing the compliant files warns of. -/
def warningsOf (c : Collaborators) (directory : String) (keys : List String) : List String :=
  (keys.filter (c.isCompliantAt directory)).flatMap fun k => c.filingWarnings (fileAt directory k)

/-- **Two readers answer alike of compliant files**, each of those of its own directory. -/
def AnswersAlike (c c' : Collaborators) (directory directory' : String) (keys : List String) :
    Prop :=
  ∀ k ∈ keys, c.isCompliantAt directory k = true →
    c.read (filePath directory k) = c'.read (filePath directory' k)

variable {c c' : Collaborators} {directory directory' : String} {keys : List String}

theorem answers_map (c : Collaborators) (directory : String) (keys : List String) :
    c.answers (keys.map (fileAt directory)) =
      (keys.filter (c.isCompliantAt directory)).map fun k =>
        (k, c.read (filePath directory k)) := by
  rw [answers, List.filter_map, List.map_map]
  rfl

theorem answers_eq
    (hflags : ∀ k ∈ keys, c.isCompliantAt directory k = c'.isCompliantAt directory' k)
    (halike : AnswersAlike c c' directory directory' keys) :
    c.answers (keys.map (fileAt directory)) = c'.answers (keys.map (fileAt directory')) := by
  rw [answers_map, answers_map, ← List.filter_congr hflags]
  refine List.map_congr_left fun k hk => ?_
  obtain ⟨hk, hcompliant⟩ := List.mem_filter.mp hk
  rw [halike k hk hcompliant]

/-- The answers of compliant files, with those of one of them in their place. -/
theorem answers_append_cons (before after : List String) {key : String}
    (hkey : c.isCompliantAt directory key = true) :
    c.answers ((before ++ key :: after).map (fileAt directory)) =
      c.answers (before.map (fileAt directory)) ++
        (key, c.read (filePath directory key)) :: c.answers (after.map (fileAt directory)) := by
  rw [answers_map, answers_map, answers_map, List.filter_append, List.filter_cons_of_pos hkey,
    List.map_append, List.map_cons]

theorem compliantCount_map (h : Ordered (keys.map (fileAt directory))) :
    (judgeFiles c (keys.map (fileAt directory))).compliantCount =
      (keys.filter (c.isCompliantAt directory)).length := by
  rw [compliantCount_judgeFiles h.nodup_keys, List.filter_map, List.length_map]
  rfl

theorem warnings_ofAnswers (h : Ordered (keys.map (fileAt directory))) :
    (Intake.ofAnswers (c.answers (keys.map (fileAt directory)))).warnings =
      c.warningsOf directory keys := by
  rw [← Intake.ofFiles_eq_ofAnswers h, Intake.warnings_ofFiles h, List.filter_map,
    List.flatMap_map]
  rfl

end Collaborators

section TwoRuns

variable {config : Config} {c c' : Collaborators} {directory directory' : String}
  {keys : List String}

/-- The run over the files with keys of a directory. -/
def runOver (config : Config) (c : Collaborators) (directory : String) (keys : List String) :
    DirectoryResult :=
  validateFiles config c directory (keys.map (fileAt directory))

/-- **Runs whose answers file the same agree across files**, and warn of the same after filing. -/
theorem agreeAcross_runOver (config : Config) (h : Ordered (keys.map (fileAt directory)))
    (h' : Ordered (keys.map (fileAt directory')))
    (hflags : ∀ k ∈ keys, c.isCompliantAt directory k = c'.isCompliantAt directory' k)
    (hregistry : (Intake.ofAnswers (c.answers (keys.map (fileAt directory)))).registry =
      (Intake.ofAnswers (c'.answers (keys.map (fileAt directory')))).registry) :
    AgreeAcross (runOver config c directory keys) (runOver config c' directory' keys) ∧
      ∃ ws, (runOver config c directory keys).globalWarnings =
          (Intake.ofAnswers (c.answers (keys.map (fileAt directory)))).warnings ++ ws ∧
        (runOver config c' directory' keys).globalWarnings =
          (Intake.ofAnswers (c'.answers (keys.map (fileAt directory')))).warnings ++ ws := by
  rw [← Intake.ofFiles_eq_ofAnswers h, ← Intake.ofFiles_eq_ofAnswers h'] at hregistry ⊢
  refine agreeAcross_validateFiles ?_ ?_ hregistry
  · rw [List.length_map, List.length_map]
  · rw [Collaborators.compliantCount_map h, Collaborators.compliantCount_map h',
      List.filter_congr hflags]

/-- **A file that cannot be read** counts as one without blocks, but for a line of warning. -/
theorem agreeAcross_of_unread {before after : List String} {key : String} {e : AuditError}
    (h : Ordered ((before ++ key :: after).map (fileAt directory)))
    (h' : Ordered ((before ++ key :: after).map (fileAt directory')))
    (hflags : ∀ k ∈ before ++ key :: after,
      c.isCompliantAt directory k = c'.isCompliantAt directory' k)
    (hkey : c.isCompliantAt directory key = true)
    (herror : c.blocks (filePath directory key) = .error e)
    (hnone : c'.blocks (filePath directory' key) = .ok [])
    (halike : c.AnswersAlike c' directory directory' (before ++ after)) :
    AgreeAcross (runOver config c directory (before ++ key :: after))
        (runOver config c' directory' (before ++ key :: after)) ∧
      ∃ ws, (runOver config c directory (before ++ key :: after)).globalWarnings =
          c.warningsOf directory before ++ unreadLine key e :: ws ∧
        (runOver config c' directory' (before ++ key :: after)).globalWarnings =
          c.warningsOf directory before ++ ws := by
  have hbefore : Ordered (before.map (fileAt directory)) := by
    rw [List.map_append] at h
    exact (List.pairwise_append.mp h).1
  have hkey' : c'.isCompliantAt directory' key = true := by
    rw [← hflags key (List.mem_append_right _ List.mem_cons_self)]
    exact hkey
  -- the other files are answered alike
  have hfront : c'.answers (before.map (fileAt directory')) =
      c.answers (before.map (fileAt directory)) :=
    (Collaborators.answers_eq (fun k hk => hflags k (List.mem_append_left _ hk))
      fun k hk => halike k (List.mem_append_left _ hk)).symm
  have hback : c'.answers (after.map (fileAt directory')) =
      c.answers (after.map (fileAt directory)) :=
    (Collaborators.answers_eq
      (fun k hk => hflags k (List.mem_append_right _ (List.mem_cons_of_mem key hk)))
      fun k hk => halike k (List.mem_append_right _ hk)).symm
  have hanswers := Collaborators.answers_append_cons before after hkey
  have hanswers' := Collaborators.answers_append_cons before after hkey'
  rw [Collaborators.read_of_error herror] at hanswers
  rw [Collaborators.read_of_nil hnone, hfront, hback] at hanswers'
  obtain ⟨hregistry, vs, hvs, hvs'⟩ := Intake.ofAnswers_error
    (c.answers (before.map (fileAt directory))) (c.answers (after.map (fileAt directory))) key e
  rw [← hanswers, ← hanswers'] at hregistry
  rw [← hanswers, Collaborators.warnings_ofAnswers hbefore] at hvs
  rw [← hanswers', Collaborators.warnings_ofAnswers hbefore] at hvs'
  obtain ⟨hagree, ws, hws, hws'⟩ := agreeAcross_runOver config h h' hflags hregistry
  refine ⟨hagree, vs ++ ws, ?_, ?_⟩
  · rw [hws, hvs, List.append_assoc, List.cons_append]
  · rw [hws', hvs', List.append_assoc]

end TwoRuns

/-- **Files that fail contribute nothing to what is found across files.** Let two runs over files
with the same keys agree in which of them are compliant.

If the reader answers alike of the compliant files, the runs agree across files and in their
warnings. If it answers alike of all compliant files but one, which cannot be read in the first run
and has no blocks in the second, the runs agree across files, and the warnings of the first have one
line more, behind those of the files before it. And the reader is asked of compliant files only. -/
theorem agreeAcross_validateDirectory {config : Config} {root root' : Tree}
    {c c' : Collaborators} {directory directory' pattern pattern' : String} {keys : List String}
    (hfound : discover root directory pattern config.validation.skipPrefixes = .ok keys)
    (hfound' : discover root' directory' pattern' config.validation.skipPrefixes = .ok keys)
    (hflags : ∀ k ∈ keys, c.isCompliantAt directory k = c'.isCompliantAt directory' k) :
    (c.AnswersAlike c' directory directory' keys →
        AgreeAcross (validateDirectory config root c directory pattern)
            (validateDirectory config root' c' directory' pattern') ∧
          (validateDirectory config root c directory pattern).globalWarnings =
            (validateDirectory config root' c' directory' pattern').globalWarnings) ∧
      (∀ before key after e, keys = before ++ key :: after →
        c.isCompliantAt directory key = true →
        c.blocks (filePath directory key) = .error e →
        c'.blocks (filePath directory' key) = .ok [] →
        c.AnswersAlike c' directory directory' (before ++ after) →
        AgreeAcross (validateDirectory config root c directory pattern)
            (validateDirectory config root' c' directory' pattern') ∧
          ∃ ws, (validateDirectory config root c directory pattern).globalWarnings =
              c.warningsOf directory before ++ unreadLine key e :: ws ∧
            (validateDirectory config root' c' directory' pattern').globalWarnings =
              c.warningsOf directory before ++ ws) ∧
      ∀ read : String → Option (Except AuditError (List ReadBlock)),
        (∀ k ∈ keys, c.isCompliantAt directory k = true →
          read (filePath directory k) = some (c.read (filePath directory k))) →
        Intake.ofFiles? read (judgeFiles c (keys.map (fileAt directory)))
            (keys.map (fileAt directory)) =
          some (Intake.ofFiles c (judgeFiles c (keys.map (fileAt directory)))
            (keys.map (fileAt directory))) := by
  have h : Ordered (keys.map (fileAt directory)) := ordered_of_discover hfound
  have h' : Ordered (keys.map (fileAt directory')) := ordered_of_discover hfound'
  refine ⟨fun halike => ?_, fun before key after e hkeys hkey herror hnone halike => ?_,
    fun read hread => ?_⟩
  · by_cases hsome : keys = []
    · -- no files, and nothing is found
      subst hsome
      rw [validateDirectory, validateDirectory, hfound, hfound']
      exact ⟨⟨rfl, rfl, rfl, rfl, rfl, rfl, rfl, rfl, rfl, rfl⟩, rfl⟩
    · have hanswers := Collaborators.answers_eq hflags halike
      obtain ⟨hagree, ws, hws, hws'⟩ := agreeAcross_runOver config h h' hflags
        (by rw [hanswers])
      rw [validateDirectory_eq hfound hsome, validateDirectory_eq hfound' hsome]
      refine ⟨hagree, hws.trans ?_⟩
      rw [hanswers]
      exact hws'.symm
  · have hsome : keys ≠ [] := by
      rw [hkeys]
      exact List.append_ne_nil_of_right_ne_nil _ (List.cons_ne_nil _ _)
    rw [validateDirectory_eq hfound hsome, validateDirectory_eq hfound' hsome]
    subst hkeys
    exact agreeAcross_of_unread h h' hflags hkey herror hnone halike
  · refine Intake.ofFiles?_eq_some fun f hf hcompliant => ?_
    rw [isCompliant_judgeFiles h hf] at hcompliant
    obtain ⟨k, hk, rfl⟩ := List.mem_map.mp hf
    exact hread k hk hcompliant

/-- As `twoDeclare`, but the checker breaks down on the third file, and another block is read from
it, with a definition that was given before. -/
def thirdBroken : Collaborators where
  check path := if path = "d/c.xml" then .brokeDown none else .judged (.clean path)
  blocks path := if path = "d/c.xml" then .ok [leading "Order" "N.Order"] else twoDeclare.blocks path
  known path := if path = "d/c.xml" then [[some 0]] else []

/-- As `twoDeclare`, with another answer of the second file. -/
def secondAnswers (answer : Except AuditError (List SchemaBlock)) : Collaborators where
  check := twoDeclare.check
  blocks path := if path = "d/b.xml" then answer else twoDeclare.blocks path

/-- **The third of three files contributes nothing**, and the second one nothing but a warning once
it cannot be read. -/
theorem agreeAcross_threeFiles :
    AgreeAcross (validateDirectory .standard threeFiles twoDeclare "d" "*.xml")
        (validateDirectory .standard threeFiles thirdBroken "d" "*.xml") ∧
      AgreeAcross
        (validateDirectory .standard threeFiles (secondAnswers (.error notText)) "d" "*.xml")
        (validateDirectory .standard threeFiles (secondAnswers (.ok [])) "d" "*.xml") ∧
      ["Schema without a namespace in a.xml was skipped", unreadLine "b.xml" notText] <+:
        (validateDirectory .standard threeFiles (secondAnswers (.error notText)) "d"
          "*.xml").globalWarnings := by
  have hfound : discover threeFiles "d" "*.xml" Config.standard.validation.skipPrefixes =
      .ok ["a.xml", "b.xml", "c.xml"] := rfl
  have hflags : ∀ k ∈ ["a.xml", "b.xml", "c.xml"],
      twoDeclare.isCompliantAt "d" k = thirdBroken.isCompliantAt "d" k := by decide +kernel
  have hflags' : ∀ k ∈ ["a.xml", "b.xml", "c.xml"],
      (secondAnswers (.error notText)).isCompliantAt "d" k =
        (secondAnswers (.ok [])).isCompliantAt "d" k := fun _ _ => rfl
  obtain ⟨hexcluded, -, -⟩ := agreeAcross_validateDirectory hfound hfound hflags
  obtain ⟨-, hunread, -⟩ := agreeAcross_validateDirectory hfound hfound hflags'
  have halike : twoDeclare.AnswersAlike thirdBroken "d" "d" ["a.xml", "b.xml", "c.xml"] := by
    unfold Collaborators.AnswersAlike
    decide +kernel
  have hothers : (secondAnswers (.error notText)).AnswersAlike (secondAnswers (.ok [])) "d" "d"
      (["a.xml"] ++ ["c.xml"]) := by
    unfold Collaborators.AnswersAlike
    decide +kernel
  have hwarnings : (secondAnswers (.error notText)).warningsOf "d" ["a.xml"] =
      ["Schema without a namespace in a.xml was skipped"] := by decide +kernel
  obtain ⟨hagree, ws, hws, -⟩ :=
    hunread ["a.xml"] "b.xml" ["c.xml"] notText rfl (by decide +kernel) rfl rfl hothers
  rw [hwarnings] at hws
  exact ⟨(hexcluded halike).1, hagree, ws, hws.symm⟩

end CsdlAudit
