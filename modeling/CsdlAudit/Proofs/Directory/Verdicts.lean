import Mathlib.Data.List.Induction
import CsdlAudit.Directory.Run
import CsdlAudit.Proofs.Directory.Discovery

/-!
# The verdicts on the files of a run

Verdicts stand in the order of their keys, whatever the order in which they are put there
(`pairwise_judgeFiles`). As long as no two files have one key, none of them takes the place of
another (`perm_judgeFiles`), so the order in which files are judged does not show
(`judgeFiles_eq_of_perm`).

The files of a run come in the order of their keys, and no key comes twice (`Ordered`,
`ordered_of_discover`). Then each file has a verdict of its own, in that order
(`judgeFiles_eq_map`), and what is asked of the verdicts by key or by count is asked of the files
(`isCompliant_judgeFiles`, `compliantCount_judgeFiles`).
-/

namespace CsdlAudit

/-- The verdict on one file, given by its key and its path. -/
def Collaborators.verdictOn (c : Collaborators) (f : String × String) : FileVerdict :=
  (c.check f.2).verdict f.1

/-- **Files stand in the order of their keys**, no two with one key. -/
def Ordered (files : List (String × String)) : Prop :=
  files.Pairwise fun f g => compare f.1 g.1 = .lt

/-- **The files that a search finds stand in order.** -/
theorem ordered_of_discover {root : Tree} {directory pattern : String} {skip keys : List String}
    (h : discover root directory pattern skip = .ok keys) :
    Ordered (keys.map fun k => (k, filePath directory k)) := by
  have hkeys : keys.Pairwise (compare · · = .lt) := by
    unfold discover at h
    split at h
    · cases h
    · cases h
    · cases h
    · split at h
      · cases h
      · cases h
        rw [Ascending.sort_eq_ofList (nodup_walkEntries (Tree.proper_listed (.folder _)) _ _)]
        exact Ascending.pairwise_ofList _
  exact List.pairwise_map.mpr hkeys

theorem Ordered.nodup_keys {files : List (String × String)} (h : Ordered files) :
    (files.map Prod.fst).Nodup :=
  List.pairwise_map.mpr (h.imp Ascending.ne_of_compare_lt)

namespace Verdicts

/-- A verdict on a new key joins the others. -/
theorem perm_put {vs : Verdicts} {key : String} (v : FileVerdict) (h : key ∉ vs.map Prod.fst) :
    (vs.put key v).Perm ((key, v) :: vs) := by
  induction vs with
  | nil => rfl
  | cons e vs ih =>
    rw [List.map_cons, List.mem_cons, not_or] at h
    unfold put
    split
    · rfl
    · next heq => exact absurd (Std.LawfulEqCmp.compare_eq_iff_eq.mp heq) h.1
    · exact ((ih h.2).cons e).trans (List.Perm.swap (key, v) e vs)

theorem fst_eq_or_mem_of_mem_put {vs : Verdicts} {key : String} {v : FileVerdict}
    {e : String × FileVerdict} (h : e ∈ vs.put key v) : e.1 = key ∨ e ∈ vs := by
  induction vs with
  | nil => exact Or.inl (congrArg Prod.fst (List.mem_singleton.mp h))
  | cons d vs ih =>
    unfold put at h
    split at h
    · exact (List.mem_cons.mp h).imp_left (congrArg Prod.fst)
    · exact (List.mem_cons.mp h).imp (congrArg Prod.fst) (List.mem_cons_of_mem d)
    · rcases List.mem_cons.mp h with rfl | h
      · exact Or.inr List.mem_cons_self
      · exact (ih h).imp_right (List.mem_cons_of_mem d)

/-- **Verdicts stay in the order of their keys.** -/
theorem pairwise_put {vs : Verdicts} (key : String) (v : FileVerdict)
    (h : vs.Pairwise fun a b => compare a.1 b.1 = .lt) :
    (vs.put key v).Pairwise fun a b => compare a.1 b.1 = .lt := by
  induction vs with
  | nil => exact List.pairwise_singleton _ _
  | cons d vs ih =>
    unfold put
    split
    · next hlt =>
      refine List.pairwise_cons.mpr ⟨fun e he => ?_, h⟩
      rcases List.mem_cons.mp he with rfl | he
      · exact hlt
      · exact Std.TransCmp.lt_trans hlt (List.rel_of_pairwise_cons h he)
    · next heq =>
      obtain rfl := Std.LawfulEqCmp.compare_eq_iff_eq.mp heq
      exact List.pairwise_cons.mpr ⟨fun e he => List.rel_of_pairwise_cons h he, h.of_cons⟩
    · next hgt =>
      refine List.pairwise_cons.mpr ⟨fun e he => ?_, ih h.of_cons⟩
      rcases fst_eq_or_mem_of_mem_put he with he | he
      · rw [he]
        exact Std.OrientedCmp.gt_iff_lt.mp hgt
      · exact List.rel_of_pairwise_cons h he

end Verdicts

section Judged

variable {c : Collaborators} {files files' : List (String × String)} {f : String × String}

theorem judgeFiles_concat (c : Collaborators) (files : List (String × String))
    (f : String × String) :
    judgeFiles c (files ++ [f]) = (judgeFiles c files).put f.1 (c.verdictOn f) :=
  List.foldl_concat ..

/-- **Verdicts stand in the order of their keys.** -/
theorem pairwise_judgeFiles (c : Collaborators) (files : List (String × String)) :
    (judgeFiles c files).Pairwise fun a b => compare a.1 b.1 = .lt := by
  induction files using List.reverseRecOn with
  | nil => exact List.Pairwise.nil
  | append_singleton files f ih =>
    rw [judgeFiles_concat]
    exact Verdicts.pairwise_put _ _ ih

/-- **Each file has its own verdict**, if no two have one key. -/
theorem perm_judgeFiles (h : (files.map Prod.fst).Nodup) :
    (judgeFiles c files).Perm (files.map fun f => (f.1, c.verdictOn f)) := by
  induction files using List.reverseRecOn with
  | nil => rfl
  | append_singleton files f ih =>
    rw [List.map_append, List.nodup_append] at h
    obtain ⟨hfiles, -, hdisjoint⟩ := h
    have hkeys : ((judgeFiles c files).map Prod.fst).Perm (files.map Prod.fst) := by
      have hmap := (ih hfiles).map Prod.fst
      rwa [List.map_map] at hmap
    have hnew : f.1 ∉ (judgeFiles c files).map Prod.fst := fun hmem =>
      hdisjoint f.1 (hkeys.mem_iff.mp hmem) f.1 (List.mem_singleton_self _) rfl
    rw [judgeFiles_concat, List.map_append]
    exact (Verdicts.perm_put _ hnew).trans (((ih hfiles).cons _).trans
      (List.perm_append_singleton _ _).symm)

/-- **The order in which files are judged does not show.** -/
theorem judgeFiles_eq_of_perm (h : (files.map Prod.fst).Nodup) (hperm : files'.Perm files) :
    judgeFiles c files' = judgeFiles c files := by
  have h' : (files'.map Prod.fst).Nodup := (hperm.map Prod.fst).nodup_iff.mpr h
  exact Ascending.eq_of_perm (pairwise_judgeFiles c files') (pairwise_judgeFiles c files)
    ((perm_judgeFiles h').trans ((hperm.map _).trans (perm_judgeFiles h).symm))

/-- The verdict under the key of a file is the verdict on the file. -/
theorem get?_judgeFiles (h : (files.map Prod.fst).Nodup) (hf : f ∈ files) :
    (judgeFiles c files).get? f.1 = some (c.verdictOn f) := by
  have hmem : (f.1, c.verdictOn f) ∈ judgeFiles c files :=
    (perm_judgeFiles h).mem_iff.mpr (List.mem_map_of_mem hf)
  have hkeys : ((judgeFiles c files).map Prod.fst).Nodup := by
    rw [((perm_judgeFiles h).map Prod.fst).nodup_iff, List.map_map]
    exact h
  rw [Verdicts.get?]
  exact congrArg (Option.map Prod.snd) ((find?_key_eq_some_iff hkeys).mpr ⟨hmem, rfl⟩)

/-- **The verdicts on files in order** stand as the files do. -/
theorem judgeFiles_eq_map (h : Ordered files) :
    judgeFiles c files = files.map fun f => (f.1, c.verdictOn f) :=
  Ascending.eq_of_perm (pairwise_judgeFiles c files) (List.pairwise_map.mpr h)
    (perm_judgeFiles h.nodup_keys)

theorem isCompliant_judgeFiles (h : Ordered files) (hf : f ∈ files) :
    (judgeFiles c files).isCompliant f.1 = (c.verdictOn f).compliant := by
  rw [Verdicts.isCompliant, get?_judgeFiles h.nodup_keys hf]
  rfl

/-- The compliant verdicts are those on the compliant files. -/
theorem compliantCount_judgeFiles (h : (files.map Prod.fst).Nodup) :
    (judgeFiles c files).compliantCount =
      (files.filter fun f => (c.verdictOn f).compliant).length := by
  rw [Verdicts.compliantCount, ((perm_judgeFiles h).filter _).length_eq, List.filter_map,
    List.length_map]
  rfl

end Judged

end CsdlAudit
