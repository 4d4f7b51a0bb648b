import CsdlAudit.Directory.Run
import CsdlAudit.Proofs.Graph.Sources

/-!
# The files that a run names are compliant

A file that is not compliant is passed over when blocks are filed. So what holds before anything is
filed, and is kept whenever a block of a compliant file is filed, holds in the end
(`Intake.kept_ofFiles`). Two things are known in this way. The registry of a run is made by calls of
compliant files alone (`Intake.filedBy_ofFiles`). And no new definition is taken for another one, as
each has a handle of its own (`Intake.numbered_ofFiles`): two definitions of a run are one object
only where their reader knows them by one number.

Everything that a run finds across files is read off this registry or off the graph of its blocks,
and names their files only. So whatever a result names across files is a file of the run with a
compliant verdict, however many of the other files failed (`namesCompliant_validateDirectory`).
-/

namespace CsdlAudit

/-! ## Filing -/

namespace Intake

variable {known : String → Prop} {i : Intake}

/-- **What filing keeps**: it holds when nothing is filed, no warning changes it, and it is kept
whenever a block of a compliant file is filed. -/
theorem kept_ofFiles {P : Intake → Prop} {vs : Verdicts} (hinitial : P initial)
    (hwarned : ∀ i ws, P i → P { i with warnings := ws })
    (hblock : ∀ i key b, vs.isCompliant key = true → P i → P (i.addBlock key b))
    (c : Collaborators) (files : List (String × String)) : P (ofFiles c vs files) := by
  refine List.foldlRecOn (motive := P) files _ hinitial fun i hi f _ => ?_
  unfold addFile
  split
  · next hcompliant =>
    split
    · next blocks _ =>
      exact List.foldlRecOn (motive := P) blocks _ hi fun i hi b _ => hblock i f.1 b hcompliant hi
    · exact hwarned i _ hi
  · exact hi

/-- **All that was filed came with files that are known.** -/
def FiledBy (known : String → Prop) (i : Intake) : Prop :=
  ∃ calls, i.registry = Registry.ofCalls calls ∧ ∀ call ∈ calls, known call.1

theorem filedBy_initial : initial.FiledBy known :=
  ⟨[], rfl, fun _ h => absurd h List.not_mem_nil⟩

/-- Filing a block is one more call. -/
theorem FiledBy.addBlock (h : i.FiledBy known) {key : String} (hkey : known key)
    (b : ReadBlock) : (i.addBlock key b).FiledBy known := by
  obtain ⟨calls, hregistry, hcalls⟩ := h
  refine ⟨calls ++ [(key, b.block i.nextHandle)], ?_, ?_⟩
  · rw [Registry.ofCalls, List.foldl_concat, ← Registry.ofCalls, ← hregistry]
    rfl
  · intro call hcall
    rcases List.mem_append.mp hcall with hcall | hcall
    · exact hcalls call hcall
    · exact List.mem_singleton.mp hcall ▸ hkey

/-- **Only compliant files are filed.** -/
theorem filedBy_ofFiles (c : Collaborators) (vs : Verdicts) (files : List (String × String)) :
    (ofFiles c vs files).FiledBy fun key => vs.isCompliant key = true :=
  kept_ofFiles filedBy_initial (fun _ _ h => h) (fun _ _ b hkey h => h.addBlock hkey b) c files

end Intake

/-! ## Handles -/

/-- The number of a definition that was new. -/
def Handle.own? : Handle → Option Nat
  | .own n => some n
  | .given _ => none

namespace ReadBlock

variable (b : ReadBlock) (next : Nat)

theorem own?_handleAt (place : Nat) :
    (b.handleAt next place).own? = none ∨ (b.handleAt next place).own? = some (next + place) := by
  unfold handleAt
  split
  · exact .inl rfl
  · exact .inr rfl

/-- **The new handles of a block ascend** from where they start, with gaps for the definitions that
the reader knows. -/
theorem own_handles_sublist : ((b.block next).handles.filterMap Handle.own?).Sublist
    (List.range' next b.schema.definitions.length) := by
  rw [List.range'_eq_map_range]
  show (((List.range _).map (b.handleAt next)).filterMap Handle.own?).Sublist _
  induction List.range b.schema.definitions.length with
  | nil => exact .slnil
  | cons place places ih =>
    rw [List.map_cons, List.map_cons, List.filterMap_cons]
    rcases b.own?_handleAt next place with h | h
    · rw [h]
      exact ih.cons _
    · rw [h]
      exact ih.cons_cons _

end ReadBlock

namespace Intake

variable {i : Intake}

/-- The numbers of the new definitions that were filed. -/
def ownNumbers (i : Intake) : List Nat :=
  i.registry.ingested.flatMap fun e => e.2.handles.filterMap Handle.own?

/-- **No new definition is taken for another one**: each that was filed has a number of its own, and
those to come have others. -/
structure Numbered (i : Intake) : Prop where
  /-- No number is used twice. -/
  nodup : i.ownNumbers.Nodup
  /-- The numbers that were used lie before the next one. -/
  lt_next : ∀ n ∈ i.ownNumbers, n < i.nextHandle

/-- A block uses the numbers from the next one on. -/
theorem Numbered.addBlock (h : i.Numbered) (key : String) (b : ReadBlock) :
    (i.addBlock key b).Numbered := by
  have hsub := b.own_handles_sublist i.nextHandle
  have hbounds : ∀ n ∈ (b.block i.nextHandle).handles.filterMap Handle.own?,
      i.nextHandle ≤ n ∧ n < i.nextHandle + b.schema.definitions.length := fun n hn =>
    List.mem_range'_1.mp (hsub.subset hn)
  have hlater : ∀ n ∈ i.ownNumbers, n < i.nextHandle + b.schema.definitions.length :=
    fun n hn => Nat.lt_add_right _ (h.lt_next n hn)
  unfold Intake.addBlock Registry.ingest
  rw [ReadBlock.schema_block]
  cases b.schema.ownNamespace? with
  | none => exact ⟨h.nodup, hlater⟩
  | some namespaceName =>
    have hnumbers : ∀ {j : Intake}, j.registry.ingested =
        i.registry.ingested ++ [(key, b.block i.nextHandle)] →
        j.ownNumbers = i.ownNumbers ++ (b.block i.nextHandle).handles.filterMap Handle.own? := by
      intro j hj
      rw [ownNumbers, hj, List.flatMap_append, List.flatMap_singleton]
      rfl
    constructor
    · rw [hnumbers rfl]
      refine List.nodup_append'.mpr ⟨h.nodup, hsub.nodup List.nodup_range', ?_⟩
      intro n hold hnew
      exact absurd (h.lt_next n hold) (Nat.not_lt.mpr (hbounds n hnew).1)
    · rw [hnumbers rfl]
      intro n hn
      exact (List.mem_append.mp hn).elim (hlater n) fun hn => (hbounds n hn).2

/-- **New definitions of a run are different objects**, whatever the reader knows of the others. -/
theorem numbered_ofFiles (c : Collaborators) (vs : Verdicts) (files : List (String × String)) :
    (ofFiles c vs files).Numbered :=
  kept_ofFiles ⟨List.nodup_nil, fun _ h => absurd h List.not_mem_nil⟩
    (fun _ _ h => ⟨h.nodup, h.lt_next⟩) (fun _ key b _ h => h.addBlock key b) c files

end Intake

/-- A reader that gives the same term for every file, and may know it. -/
def givesTerm (known : List (List (Option Nat))) : Collaborators where
  check path := .judged (.clean path)
  blocks _ := .ok [{ SchemaBlock.bare (some "N") none with
    terms := [⟨"T", "Edm.String", none, [], []⟩] }]
  known _ := known

-- Two files define the term twice, unless the reader knows that it is one.
example : [[], [[some 0]]].map (fun known =>
    (validateFiles .standard (givesTerm known) "d" [("a.xml", "d/a.xml"), ("b.xml", "d/b.xml")]
      ).conflicts.map (·.type)) = [[.duplicateElement], []] := by decide +kernel

/-! ## The findings that are asked for -/

theorem sourced_of_mem_conflictsOf {config : Config} {known : String → Prop}
    {calls : List (String × Block)} (hknown : ∀ call ∈ calls, known call.1) {x : Conflict}
    (h : x ∈ config.conflictsOf (Registry.ofCalls calls)) :
    x.Sourced known (Registry.ofCalls calls).filesOf? := by
  rw [Config.conflictsOf, List.mem_append, List.mem_ite_nil_right] at h
  rcases h with h | ⟨-, h⟩
  · exact sourced_of_mem_detect hknown h
  · exact sourced_of_mem_aliasConflicts hknown h

theorem sourced_of_mem_issuesOf {config : Config} {known : String → Prop}
    {filesOf? : String → Option (List String)} {options : GraphOptions}
    {blocks : List (String × SchemaBlock)} (hknown : ∀ e ∈ blocks, known e.1) {x : Conflict}
    (h : x ∈ config.issuesOf (ReferenceGraph.build options blocks)) :
    x.Sourced known filesOf? := by
  rw [Config.issuesOf, List.mem_append, List.mem_ite_nil_right, List.mem_ite_nil_right] at h
  rcases h with ⟨-, h⟩ | ⟨-, h⟩
  · exact ReferenceGraph.sourced_of_mem_cycleConflicts hknown h
  · exact ReferenceGraph.sourced_of_mem_missingConflicts hknown h

/-! ## The result -/

/-- **A result names no file across files but compliant ones**: each of them is a key of the
verdicts, with a compliant one. -/
structure DirectoryResult.NamesCompliant (r : DirectoryResult) : Prop where
  /-- The files of the conflicts and of the issues are as their types ask for. -/
  findings : ∀ c ∈ r.conflicts ++ r.referenceIssues,
    c.Sourced (fun file => r.fileResults.isCompliant file = true) r.filesOf?
  /-- So are the files of the namespaces. -/
  namespaces : ∀ e ∈ r.namespaceFiles, ∀ file ∈ e.2, r.fileResults.isCompliant file = true
  /-- So are the files in the graph. -/
  graph : ∀ g, r.graph = some g →
    g.Sourced fun file => r.fileResults.isCompliant file = true

theorem namesCompliant_validateFiles (config : Config) (c : Collaborators) (directory : String)
    (files : List (String × String)) :
    (validateFiles config c directory files).NamesCompliant := by
  obtain ⟨calls, hregistry, hknown⟩ := Intake.filedBy_ofFiles c (judgeFiles c files) files
  have hblocks : ∀ e ∈ (Registry.ofCalls calls).schemas,
      (judgeFiles c files).isCompliant e.1 = true := by
    intro e he
    obtain ⟨call, hcall, hfile⟩ := Registry.exists_call_of_mem_schemas he
    exact hfile ▸ hknown call hcall
  have hfilesOf : (validateFiles config c directory files).filesOf? =
      (Registry.ofCalls calls).filesOf? := by
    funext namespaceName
    rw [← hregistry]
    exact Registry.find?_namespaceFiles _ _
  constructor
  · intro x hx
    rw [hfilesOf]
    simp only [validateFiles, hregistry] at hx ⊢
    rcases List.mem_append.mp hx with hx | hx
    · exact sourced_of_mem_conflictsOf hknown hx
    · exact sourced_of_mem_issuesOf hblocks hx
  · intro e he file hfile
    simp only [validateFiles, hregistry] at he ⊢
    obtain ⟨call, hcall, rfl⟩ :=
      (((Registry.indexes_ofCalls calls).files e he).2 file).mp hfile
    exact hknown call (Registry.mem_of_mem_callsOf hcall)
  · intro g hg
    simp only [validateFiles, hregistry, Option.some.injEq] at hg ⊢
    subst hg
    exact ReferenceGraph.sourced_build hblocks

/-- **Every file that a run names across files is a compliant file of the run**, whatever the
directory, the verdicts on the files and the blocks that are read from them. -/
theorem namesCompliant_validateDirectory (config : Config) (root : Tree) (c : Collaborators)
    (directory pattern : String) :
    (validateDirectory config root c directory pattern).NamesCompliant := by
  unfold validateDirectory
  split
  · exact ⟨fun _ h => absurd h List.not_mem_nil, fun _ h => absurd h List.not_mem_nil,
      fun _ h => by cases h⟩
  · exact ⟨fun _ h => absurd h List.not_mem_nil, fun _ h => absurd h List.not_mem_nil,
      fun _ h => by cases h⟩
  · exact namesCompliant_validateFiles config c directory _

end CsdlAudit
