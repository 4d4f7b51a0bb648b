import CsdlAudit.Proofs.Conflict.Sources

/-!
# Short names of several namespaces

The pass over short names makes exactly one conflict of each that blocks of two namespaces declare,
and its details name all namespaces that do (`aliasPass_ofCalls`). Which short names are reported,
and for which namespaces, does not depend on the order of the calls.

Of each namespace the pass keeps the first block alone, and the files of a conflict are read off
the blocks that it has kept. So a file is named only if it is the first one in which some namespace
declares the short name (`Registry.firstFile?`), another file of the same namespace is left out, and
which one this is depends on the order of the calls (`sharer_left_out`). The files are complete, and
the whole conflict is the same for every order, when each namespace declares the short name in one
file.
-/

namespace CsdlAudit

/-! ## The first block of each namespace -/

/-- Blocks of a namespace that had its turn are passed over. -/
theorem firstUses_append_of_seen {seen : List String} {is rest : List BlockInfo}
    (h : ∀ i ∈ is, i.namespaceName ∈ seen) :
    firstUses seen (is ++ rest) = firstUses seen rest := by
  induction is with
  | nil => rfl
  | cons i is ih =>
    rw [List.cons_append, firstUses, if_pos (h i List.mem_cons_self)]
    exact ih fun j hj => h j (List.mem_cons_of_mem i hj)

/-- **Of blocks that stand by their namespaces the first one of each is kept.** -/
theorem firstUses_flatMap {blocks : String → List BlockInfo}
    (hblocks : ∀ n, ∀ i ∈ blocks n, i.namespaceName = n) {seen names : List String}
    (hnodup : names.Nodup) (hseen : ∀ n ∈ names, n ∉ seen) :
    firstUses seen (names.flatMap blocks) = names.filterMap fun n => (blocks n).head? := by
  induction names generalizing seen with
  | nil => rfl
  | cons n names ih =>
    obtain ⟨hn, hnodup⟩ := List.nodup_cons.mp hnodup
    have hrest : ∀ m ∈ names, m ∉ seen := fun m hm => hseen m (List.mem_cons_of_mem n hm)
    rw [List.flatMap_cons, List.filterMap_cons]
    cases hown : blocks n with
    | nil => exact ih hnodup hrest
    | cons i is =>
      have hname : ∀ j ∈ i :: is, j.namespaceName = n := hown ▸ hblocks n
      have hi : i.namespaceName = n := hname i List.mem_cons_self
      rw [List.cons_append, firstUses, if_neg (hi ▸ hseen n List.mem_cons_self), hi]
      rw [firstUses_append_of_seen fun j hj =>
        List.mem_cons.mpr (.inl (hname j (List.mem_cons_of_mem i hj)))]
      refine congrArg (i :: ·) (ih hnodup fun m hm hmem => ?_)
      rcases List.mem_cons.mp hmem with rfl | hmem
      · exact hn hm
      · exact hrest m hm hmem

/-! ## The files of the first blocks -/

namespace Registry

/-- The calls whose blocks of a namespace declare a short name. -/
def declarers (a namespaceName : String) (calls : List (String × Block)) :
    List (String × Block) :=
  (callsOf namespaceName calls).filter fun call => call.2.schema.aliasName = some a

/-- The first file in which blocks of a namespace declare a short name. -/
def firstFile? (a namespaceName : String) (calls : List (String × Block)) : Option String :=
  (declarers a namespaceName calls).head?.map Prod.fst

/-- **The namespaces that declare a short name**, ascending, each with the first file that does. -/
def usesOf (a : String) (calls : List (String × Block)) : List (String × String) :=
  (ofCalls calls).namespaces.filterMap fun n => (firstFile? a n calls).map (n, ·)

/-- **Each namespace declares a short name in one file**, however often. -/
def SingleFiled (a : String) (calls : List (String × Block)) : Prop :=
  ∀ n, ∀ c ∈ declarers a n calls, ∀ d ∈ declarers a n calls, c.1 = d.1

section Uses

variable {a n file : String} {calls calls' : List (String × Block)}

theorem exists_declarer_of_firstFile? (h : firstFile? a n calls = some file) :
    ∃ call ∈ declarers a n calls, call.1 = file := by
  obtain ⟨call, hcall, rfl⟩ := Option.map_eq_some_iff.mp h
  exact ⟨call, List.mem_of_mem_head? hcall, rfl⟩

theorem exists_firstFile?_iff :
    (∃ file, firstFile? a n calls = some file) ↔ ∃ call, call ∈ declarers a n calls := by
  rw [← Option.isSome_iff_exists, firstFile?, Option.isSome_map, List.isSome_head?]
  exact ⟨List.exists_mem_of_ne_nil _, fun ⟨_, hcall⟩ => List.ne_nil_of_mem hcall⟩

/-- Where a namespace declares a short name in one file, that file is the first. -/
theorem SingleFiled.firstFile?_eq_some_iff (h : SingleFiled a calls) :
    firstFile? a n calls = some file ↔ ∃ call ∈ declarers a n calls, call.1 = file := by
  refine ⟨exists_declarer_of_firstFile?, ?_⟩
  rintro ⟨call, hcall, rfl⟩
  obtain ⟨first, hfirst⟩ := exists_firstFile?_iff.mpr ⟨call, hcall⟩
  obtain ⟨call', hcall', rfl⟩ := exists_declarer_of_firstFile? hfirst
  rw [hfirst, h n call' hcall' call hcall]

theorem mem_usesOf {u : String × String} :
    u ∈ usesOf a calls ↔ firstFile? a u.1 calls = some u.2 := by
  simp only [usesOf, List.mem_filterMap, Option.map_eq_some_iff]
  constructor
  · rintro ⟨m, -, file, hfile, rfl⟩
    exact hfile
  · intro h
    obtain ⟨call, hcall, -⟩ := exists_declarer_of_firstFile? h
    exact ⟨u.1, mem_namespaces_ofCalls.mpr ⟨call, (List.mem_filter.mp hcall).1⟩, u.2, h, rfl⟩

/-- The namespaces with a use are those that declare the short name. -/
theorem mem_map_fst_usesOf :
    n ∈ (usesOf a calls).map Prod.fst ↔ ∃ call, call ∈ declarers a n calls := by
  rw [List.mem_map, ← exists_firstFile?_iff]
  constructor
  · rintro ⟨u, hu, rfl⟩
    exact ⟨u.2, mem_usesOf.mp hu⟩
  · rintro ⟨file, hfile⟩
    exact ⟨(n, file), mem_usesOf.mpr hfile, rfl⟩

theorem pairwise_map_fst_usesOf (a : String) (calls : List (String × Block)) :
    ((usesOf a calls).map Prod.fst).Pairwise (compare · · = .lt) := by
  have hfst : (usesOf a calls).map Prod.fst =
      (ofCalls calls).namespaces.filter fun n => (firstFile? a n calls).isSome := by
    rw [usesOf, List.map_filterMap, ← List.filterMap_eq_filter]
    refine List.filterMap_congr fun n _ => ?_
    cases hfirst : firstFile? a n calls <;> simp [hfirst, Option.guard]
  rw [hfst]
  exact (ofCalls calls).files.pairwise_keys.filter _

/-- The namespaces of the uses are in order already. -/
theorem ofList_map_fst_usesOf (a : String) (calls : List (String × Block)) :
    Ascending.ofList ((usesOf a calls).map Prod.fst) = (usesOf a calls).map Prod.fst :=
  Ascending.eq_of_pairwise (Ascending.pairwise_ofList _) (pairwise_map_fst_usesOf a calls)
    fun _ => Ascending.mem_ofList

theorem one_lt_length_usesOf_iff : 1 < (usesOf a calls).length ↔
    ∃ n, (∃ call, call ∈ declarers a n calls) ∧
      ∃ m, (∃ call, call ∈ declarers a m calls) ∧ n ≠ m := by
  rw [← List.length_map (f := Prod.fst), ← ofList_map_fst_usesOf, Ascending.one_lt_length_ofList]
  simp only [mem_map_fst_usesOf]

/-- **The blocks that the pass keeps** are the first ones of their namespaces. -/
theorem map_firstUses_aliasUses (ha : a ≠ "") :
    (firstUses [] ((aliasUses (ofCalls calls)).get a)).map
      (fun i => (i.namespaceName, i.sourceFile)) = usesOf a calls := by
  have hvalues : (ofCalls calls).infos.values =
      (ofCalls calls).namespaces.flatMap (ofCalls calls).infos.get := by
    rw [Index.values, Index.toList_eq_map_keys, List.flatMap_map, namespaces_ofCalls]
  have hnodup : (ofCalls calls).namespaces.Nodup := Index.nodup_keys _
  rw [get_aliasUses, hvalues, List.filter_flatMap, firstUses_flatMap (fun n i hi => ?_) hnodup
    fun _ _ => List.not_mem_nil, List.map_filterMap]
  · refine List.filterMap_congr fun n _ => ?_
    rw [infos_get_ofCalls, List.filter_map, List.head?_map, Option.map_map, firstFile?, declarers,
      Option.map_map]
    simp only [Function.comp_def, ha, ne_eq, not_false_eq_true, and_true]
  · rw [infos_get_ofCalls] at hi
    obtain ⟨call, -, rfl⟩ := List.mem_map.mp (List.mem_filter.mp hi).1
    rfl

end Uses

end Registry

/-! ## The pass -/

open Registry (declarers firstFile? usesOf SingleFiled)

/-- A namespace with its file, as the description of a conflict has it. -/
def shownUse (u : String × String) : String := "namespace '" ++ u.1 ++ "' (in " ++ u.2 ++ ")"

/-- Namespaces with their files, as the description of a conflict has them. -/
def useList : List (String × String) → String
  | [first, second] => "both " ++ shownUse first ++ " and " ++ shownUse second
  | uses => Text.join ", " (uses.map shownUse)

/-- **What the conflict of a short name says**, given the calls. -/
structure TellsUses (calls : List (String × Block)) (a : String) (c : Conflict) : Prop where
  /-- It is a conflict of short names. -/
  type : c.type = .aliasConflict
  /-- It is about no element. -/
  elementName : c.elementName = none
  /-- Its details name all namespaces that declare the short name, and no other ones, in ascending
  order. The conflict is about the first of these. -/
  details : ∃ names, c.details = "Alias '" ++ a ++ "' maps to namespaces: " ++
      Text.join ", " names ∧ names.Pairwise (· < ·) ∧
    (∀ n, n ∈ names ↔ ∃ call, call ∈ declarers a n calls) ∧ names.head? = some c.namespaceName
  /-- Its description names the same namespaces, each with the first file that declares the short
  name. -/
  description : c.description = "Cross-namespace alias conflict: Alias '" ++ a ++
    "' is used for " ++ useList (usesOf a calls)
  /-- Its files ascend. -/
  ascending : c.files.Pairwise (· < ·)
  /-- They are the first files in which namespaces declare the short name. -/
  files : ∀ file, file ∈ c.files ↔ ∃ n, firstFile? a n calls = some file
  /-- They are all files that declare it, if each namespace does so in one file. -/
  complete : SingleFiled a calls →
    ∀ file, file ∈ c.files ↔ ∃ n, ∃ call ∈ declarers a n calls, call.1 = file

namespace Conflict

/-- The conflict with nothing said of its files. -/
def withoutFiles (c : Conflict) : Conflict := { c with files := [], description := "" }

theorem description_aliasConflict (a : String) (uses : List (String × String)) :
    (aliasConflict a uses).description =
      "Cross-namespace alias conflict: Alias '" ++ a ++ "' is used for " ++ useList uses := by
  match uses with
  | [] => rfl
  | [_] => rfl
  | [_, _] => rfl
  | _ :: _ :: _ :: _ => rfl

theorem mem_files_aliasConflict {a file : String} {calls : List (String × Block)} :
    file ∈ (aliasConflict a (usesOf a calls)).files ↔ ∃ n, firstFile? a n calls = some file := by
  rw [aliasConflict, Ascending.mem_ofList, List.mem_map]
  constructor
  · rintro ⟨u, hu, rfl⟩
    exact ⟨u.1, Registry.mem_usesOf.mp hu⟩
  · rintro ⟨n, hn⟩
    exact ⟨(n, file), Registry.mem_usesOf.mpr hn, rfl⟩

/-- The conflict that the pass makes of a short name. -/
theorem tellsUses_aliasConflict {a : String} {calls : List (String × Block)}
    (h : 1 < (usesOf a calls).length) : TellsUses calls a (aliasConflict a (usesOf a calls)) where
  type := rfl
  elementName := rfl
  details := by
    refine ⟨(usesOf a calls).map Prod.fst, ?_, ?_, fun n => Registry.mem_map_fst_usesOf, ?_⟩
    · rw [aliasConflict, Registry.ofList_map_fst_usesOf]
    · exact (Registry.pairwise_map_fst_usesOf a calls).imp Std.LawfulLTCmp.eq_lt_iff_lt.mp
    · rw [aliasConflict, Registry.ofList_map_fst_usesOf]
      obtain ⟨u, rest, huses⟩ := List.exists_cons_of_length_pos (Nat.lt_of_succ_lt h)
      rw [huses]
      rfl
  description := description_aliasConflict a _
  ascending := Ascending.pairwise_lt_ofList _
  files := fun _ => mem_files_aliasConflict
  complete := fun hsingle _ => mem_files_aliasConflict.trans
    (exists_congr fun _ => hsingle.firstFile?_eq_some_iff)

/-- Without its files a conflict is told by the namespaces. -/
theorem withoutFiles_aliasConflict (a : String) {uses uses' : List (String × String)}
    (h : uses.map Prod.fst = uses'.map Prod.fst) :
    (aliasConflict a uses).withoutFiles = (aliasConflict a uses').withoutFiles := by
  simp only [withoutFiles, aliasConflict, h]

end Conflict

/-! ## The calls in another order -/

section Order

variable {calls calls' : List (String × Block)}

theorem alike_aliasUses (h : calls.Perm calls') :
    (aliasUses (Registry.ofCalls calls)).Alike (aliasUses (Registry.ofCalls calls')) := by
  have hinfos := (Registry.filesAlike_ofCalls h).infos
  rw [aliasUses_eq_addAll, aliasUses_eq_addAll]
  refine Index.alike_addAll (List.Perm.flatMap_right _ ?_)
  rw [Index.values, Index.values, Index.toList_eq_map_keys, Index.toList_eq_map_keys, hinfos.keys,
    List.flatMap_map, List.flatMap_map]
  exact List.Perm.flatMap_left _ fun n _ => hinfos.get n

theorem map_fst_usesOf_eq_of_perm (h : calls.Perm calls') (a : String) :
    (usesOf a calls).map Prod.fst = (usesOf a calls').map Prod.fst := by
  refine Ascending.eq_of_pairwise (Registry.pairwise_map_fst_usesOf a calls)
    (Registry.pairwise_map_fst_usesOf a calls') fun n => ?_
  rw [Registry.mem_map_fst_usesOf, Registry.mem_map_fst_usesOf]
  exact exists_congr fun call => ((h.filter _).filter _).mem_iff

/-- **Where each namespace declares a short name in one file**, its uses are the same for every
order. -/
theorem usesOf_eq_of_perm (h : calls.Perm calls') {a : String} (hsingle : SingleFiled a calls) :
    usesOf a calls = usesOf a calls' := by
  have hdeclarers : ∀ n call, call ∈ declarers a n calls ↔ call ∈ declarers a n calls' :=
    fun n call => ((h.filter _).filter _).mem_iff
  have hfiles : ∀ n, firstFile? a n calls = firstFile? a n calls' := by
    intro n
    have hsome : ∀ file, firstFile? a n calls' = some file → firstFile? a n calls = some file := by
      intro file hfile
      obtain ⟨call, hcall, rfl⟩ := Registry.exists_declarer_of_firstFile? hfile
      exact hsingle.firstFile?_eq_some_iff.mpr ⟨call, (hdeclarers n call).mpr hcall, rfl⟩
    cases hfile : firstFile? a n calls' with
    | some file => exact hsome file hfile
    | none =>
      refine Option.eq_none_iff_forall_not_mem.mpr fun file hmem => ?_
      obtain ⟨call, hcall, -⟩ := Registry.exists_declarer_of_firstFile? hmem
      obtain ⟨file', hfile'⟩ := Registry.exists_firstFile?_iff.mpr
        ⟨call, (hdeclarers n call).mp hcall⟩
      rw [hfile] at hfile'
      cases hfile'
  have hnamespaces : (Registry.ofCalls calls).namespaces = (Registry.ofCalls calls').namespaces :=
    congrArg Index.keys (Registry.filesAlike_ofCalls h).files
  simp only [usesOf, hnamespaces, hfiles]

end Order

/-! ## What the pass reports -/

/-- **What the pass over short names reports** of the registry after a sequence of calls. -/
structure AliasPass (calls : List (String × Block)) : Prop where
  /-- Each short name that two namespaces declare has one conflict, and no other name has any. -/
  conflicts : OnePerKey
    (fun a => a ≠ "" ∧ ∃ n, (∃ call, call ∈ declarers a n calls) ∧
      ∃ m, (∃ call, call ∈ declarers a m calls) ∧ n ≠ m)
    (TellsUses calls) (aliasConflicts (Registry.ofCalls calls))
  /-- In another order of the calls there are the same conflicts, up to their files. -/
  order : ∀ calls', calls.Perm calls' →
    (aliasConflicts (Registry.ofCalls calls)).map Conflict.withoutFiles =
      (aliasConflicts (Registry.ofCalls calls')).map Conflict.withoutFiles
  /-- Their files are the same too, if each namespace declares its short names in one file. -/
  settled : (∀ a, SingleFiled a calls) → ∀ calls', calls.Perm calls' →
    aliasConflicts (Registry.ofCalls calls) = aliasConflicts (Registry.ofCalls calls')

theorem one_lt_length_firstUses_iff (calls : List (String × Block)) (a : String) :
    1 < (firstUses [] ((aliasUses (Registry.ofCalls calls)).get a)).length ↔
      a ≠ "" ∧ 1 < (usesOf a calls).length := by
  by_cases ha : a = ""
  · simp [get_aliasUses, ha, firstUses]
  · rw [and_iff_right ha, ← Registry.map_firstUses_aliasUses ha, List.length_map]

/-- The pass makes its conflicts of the uses of each short name. -/
theorem aliasConflicts_ofCalls (calls : List (String × Block)) :
    aliasConflicts (Registry.ofCalls calls) =
      (aliasUses (Registry.ofCalls calls)).keys.filterMap fun a =>
        if a ≠ "" ∧ 1 < (usesOf a calls).length then some (.aliasConflict a (usesOf a calls))
        else none := by
  rw [aliasConflicts, Index.toList_eq_map_keys, List.filterMap_map]
  refine List.filterMap_congr fun a _ => ?_
  simp only [Function.comp_apply, one_lt_length_firstUses_iff]
  split
  · next h => rw [Registry.map_firstUses_aliasUses h.1]
  · rfl

/-- **The pass over short names reports what two namespaces share**, whatever the calls. -/
theorem aliasPass_ofCalls (calls : List (String × Block)) : AliasPass calls where
  conflicts := by
    have honce := onePerKey_filterMap (aliasUses (Registry.ofCalls calls))
      (fun is => decide (1 < (firstUses [] is).length))
      (fun a is => .aliasConflict a
        ((firstUses [] is).map fun i => (i.namespaceName, i.sourceFile))) rfl
    simp only [decide_eq_true_eq, one_lt_length_firstUses_iff] at honce
    refine honce.mono (fun a => and_congr_right' Registry.one_lt_length_usesOf_iff) ?_
    rintro a c ⟨ha, hseveral⟩ rfl
    rw [Registry.map_firstUses_aliasUses ha]
    exact Conflict.tellsUses_aliasConflict hseveral
  order := by
    intro calls' h
    rw [aliasConflicts_ofCalls, aliasConflicts_ofCalls, (alike_aliasUses h).keys,
      List.map_filterMap, List.map_filterMap]
    refine List.filterMap_congr fun a _ => ?_
    have hnames := map_fst_usesOf_eq_of_perm h a
    have hlength : (usesOf a calls).length = (usesOf a calls').length := by
      simpa using congrArg List.length hnames
    rw [hlength]
    split
    · exact congrArg some (Conflict.withoutFiles_aliasConflict a hnames)
    · rfl
  settled := by
    intro hsingle calls' h
    rw [aliasConflicts_ofCalls, aliasConflicts_ofCalls, (alike_aliasUses h).keys]
    simp only [fun a => usesOf_eq_of_perm h (hsingle a)]

/-- Two files that declare a short name for one namespace, and a third that declares it for
another. -/
def sharers : List (String × Block) :=
  [("a.xml", Block.fresh 0 (.bare (some "A") (some "S"))),
    ("b.xml", Block.fresh 0 (.bare (some "A") (some "S"))),
    ("c.xml", Block.fresh 0 (.bare (some "B") (some "S")))]

/-- **A second file of a namespace is left out**, and which one is the second depends on the order
of the calls. -/
theorem sharer_left_out :
    (∃ call ∈ declarers "S" "A" sharers, call.1 = "b.xml") ∧
      (aliasConflicts (Registry.ofCalls sharers)).map (·.files) = [["a.xml", "c.xml"]] ∧
      ∃ calls, sharers.Perm calls ∧
        (aliasConflicts (Registry.ofCalls calls)).map (·.files) = [["b.xml", "c.xml"]] := by
  refine ⟨by decide +kernel, by decide +kernel, sharers.reverse,
    (List.reverse_perm sharers).symm, by decide +kernel⟩

end CsdlAudit
