import Mathlib.Data.List.Nodup
import CsdlAudit.Directory.Discover
import CsdlAudit.Proofs.Ascending
import CsdlAudit.Proofs.Text.Pieces

/-!
# What is discovered

The walk through a folder leaves out a whole folder as soon as its key with a slash begins with a
skipped start. Said without the walk, a file is kept if its own key begins with no skipped start and
the pattern picks it (`isKept`): the folders on the way to it are not asked. `walkEntries_eq_keptFrom`
says that the two come to the same, in the same order. What makes it so is that the key of a folder
with a slash is a beginning of the key of each file below it (`isSkipped_of_isSkipped_folder`),
whether or not the skipped start ends between two names.

Files are listed by their paths, which are the names on the way to them (`Tree.filePaths`); in a
folder as file systems have them (`Tree.Proper`) these are just the paths that lead to a file
(`Tree.mem_filePaths_iff`). Such a folder lists all its entries (`Tree.listedEntries_eq_self`), and
whatever a folder lists is of this kind (`Tree.proper_listed`). So the walk finds no key twice
(`nodup_walkEntries`). As the keys are put in order at the end, the order of the entries
makes no difference, in no folder of the tree (`Tree.Alike`).
-/

namespace CsdlAudit

namespace Tree

/-! ## Paths to files -/

mutual

/-- **The paths to the files** of a tree, each as the names on the way. -/
def filePaths : Tree → List (List String)
  | .file _ => [[]]
  | .folder entries => filePathsOf entries
  | .other => []

/-- The paths to the files below the entries of a folder. -/
def filePathsOf : List (String × Tree) → List (List String)
  | [] => []
  | (name, t) :: rest => t.filePaths.map (name :: ·) ++ filePathsOf rest

end

theorem mem_filePathsOf {entries : List (String × Tree)} {path : List String} :
    path ∈ filePathsOf entries ↔ ∃ e ∈ entries, ∃ rest ∈ e.2.filePaths, path = e.1 :: rest := by
  induction entries with
  | nil => simp [filePathsOf]
  | cons e entries ih =>
    obtain ⟨name, t⟩ := e
    simp only [filePathsOf, List.mem_append, List.mem_map, ih, List.mem_cons, or_and_right,
      exists_or, exists_eq_left, eq_comm]

theorem ne_nil_of_mem_filePathsOf {entries : List (String × Tree)} {path : List String}
    (h : path ∈ filePathsOf entries) : path ≠ [] := by
  obtain ⟨e, -, rest, -, rfl⟩ := mem_filePathsOf.mp h
  exact List.cons_ne_nil _ _

mutual

/-- **A tree as file systems have them**: entries have names, and those of one folder differ. -/
def Proper : Tree → Prop
  | .file _ | .other => True
  | .folder entries => (entries.map Prod.fst).Nodup ∧ ProperEntries entries

/-- All entries have names and are proper trees. -/
def ProperEntries : List (String × Tree) → Prop
  | [] => True
  | (name, t) :: rest => IsName name ∧ t.Proper ∧ ProperEntries rest

end

theorem properEntries_iff {entries : List (String × Tree)} :
    ProperEntries entries ↔ ∀ e ∈ entries, IsName e.1 ∧ e.2.Proper := by
  induction entries with
  | nil => simp [ProperEntries]
  | cons e entries ih =>
    obtain ⟨name, t⟩ := e
    rw [ProperEntries, ih, List.forall_mem_cons, and_assoc]

theorem child?_eq_some_iff {entries : List (String × Tree)}
    (hnodup : (entries.map Prod.fst).Nodup) {name : String} {t : Tree} :
    child? name entries = some t ↔ (name, t) ∈ entries := by
  rw [child?, Option.map_eq_some_iff]
  constructor
  · rintro ⟨e, he, rfl⟩
    obtain ⟨hmem, rfl⟩ := (find?_key_eq_some_iff hnodup).mp he
    exact hmem
  · exact fun h => ⟨(name, t), (find?_key_eq_some_iff hnodup).mpr ⟨h, rfl⟩, rfl⟩

/-- A path that begins with a name leads into the entry of that name. -/
theorem follow_cons {above : List Tree} {entries : List (String × Tree)} {name : String}
    {rest : List String} (hname : IsName name) :
    follow above (.folder entries) (name :: rest) =
      match child? name entries with
      | some next => follow (.folder entries :: above) next rest
      | none => .error .notFound := by
  rw [follow.eq_def]
  dsimp only
  rw [if_neg (not_or_intro hname.ne_empty hname.ne_here)]
  exact if_neg hname.ne_up

/-- **The paths to the files are those that lead to one.** -/
theorem mem_filePaths_iff {t : Tree} (ht : t.Proper) {path : List String}
    (hpath : ∀ name ∈ path, IsName name) (above : List Tree) :
    path ∈ t.filePaths ↔ ∃ content, follow above t path = .ok (.file content) := by
  induction path generalizing t above with
  | nil =>
    cases t with
    | file content => simp [filePaths, follow]
    | other => simp [filePaths, follow]
    | folder entries =>
      rw [filePaths]
      simpa [follow] using fun h : [] ∈ filePathsOf entries => ne_nil_of_mem_filePathsOf h rfl
  | cons name path ih =>
    obtain ⟨hname, hrest⟩ := List.forall_mem_cons.mp hpath
    cases t with
    | file content => simp [filePaths, follow]
    | other => simp [filePaths, follow]
    | folder entries =>
      obtain ⟨hnodup, hentries⟩ := ht
      rw [filePaths, mem_filePathsOf, follow_cons hname]
      constructor
      · rintro ⟨⟨name', t⟩, he, rest, hmem, heq⟩
        obtain ⟨rfl, rfl⟩ := List.cons.inj heq
        rw [(child?_eq_some_iff hnodup).mpr he]
        exact (ih (properEntries_iff.mp hentries _ he).2 hrest _).mp hmem
      · rintro ⟨content, h⟩
        cases hchild : child? name entries with
        | none =>
          rw [hchild] at h
          exact absurd h (by simp)
        | some t =>
          rw [hchild] at h
          have he := (child?_eq_some_iff hnodup).mp hchild
          exact ⟨_, he, path,
            (ih (properEntries_iff.mp hentries _ he).2 hrest _).mpr ⟨content, h⟩, rfl⟩

/-- Every name on the way to a file is one. -/
theorem isName_of_mem_filePaths {t : Tree} (ht : t.Proper) {path : List String}
    (hpath : path ∈ t.filePaths) : ∀ name ∈ path, IsName name := by
  induction path generalizing t with
  | nil => exact fun _ h => absurd h List.not_mem_nil
  | cons name path ih =>
    cases t with
    | file content => simp [filePaths] at hpath
    | other => simp [filePaths] at hpath
    | folder entries =>
      obtain ⟨⟨name', t⟩, he, rest, hmem, heq⟩ := mem_filePathsOf.mp hpath
      obtain ⟨rfl, rfl⟩ := List.cons.inj heq
      have hentry := properEntries_iff.mp ht.2 _ he
      exact List.forall_mem_cons.mpr ⟨hentry.1, ih hentry.2 hmem⟩

/-! ## What a folder lists -/

theorem notMem_of_mem_listedEntries {seen : List String} {entries : List (String × Tree)}
    {e : String × Tree} (h : e ∈ listedEntries seen entries) : e.1 ∉ seen := by
  induction entries generalizing seen with
  | nil => exact absurd h List.not_mem_nil
  | cons first rest ih =>
    obtain ⟨name, t⟩ := first
    rw [listedEntries] at h
    split at h
    · next hname =>
      rcases List.mem_cons.mp h with rfl | h
      · exact hname.2
      · exact fun hmem => ih h (List.mem_cons_of_mem name hmem)
    · exact ih h

/-- A folder lists no name twice. -/
theorem nodup_listedEntries (seen : List String) (entries : List (String × Tree)) :
    ((listedEntries seen entries).map Prod.fst).Nodup := by
  induction entries generalizing seen with
  | nil => exact List.nodup_nil
  | cons first rest ih =>
    obtain ⟨name, t⟩ := first
    rw [listedEntries]
    split
    · refine List.nodup_cons.mpr ⟨fun hmem => ?_, ih _⟩
      obtain ⟨e, he, rfl⟩ := List.mem_map.mp hmem
      exact notMem_of_mem_listedEntries he List.mem_cons_self
    · exact ih _

mutual

/-- **What a file system has is a proper tree.** -/
theorem proper_listed : (t : Tree) → t.listed.Proper
  | .file _ | .other => trivial
  | .folder entries => ⟨nodup_listedEntries [] entries, properEntries_listedEntries [] entries⟩

/-- What a folder lists has names and is proper. -/
theorem properEntries_listedEntries (seen : List String) :
    (entries : List (String × Tree)) → ProperEntries (listedEntries seen entries)
  | [] => trivial
  | (name, t) :: rest => by
    rw [listedEntries]
    split
    · next hname =>
      exact ⟨hname.1, proper_listed t, properEntries_listedEntries (name :: seen) rest⟩
    · exact properEntries_listedEntries seen rest

end

mutual

/-- A proper tree is all there. -/
theorem listed_eq_self : (t : Tree) → t.Proper → t.listed = t
  | .file _, _ | .other, _ => rfl
  | .folder entries, h =>
    congrArg Tree.folder
      (listedEntries_eq_self [] entries h.2 h.1 fun _ _ => List.not_mem_nil)

/-- **A proper folder lists all its entries.** -/
theorem listedEntries_eq_self (seen : List String) :
    (entries : List (String × Tree)) → ProperEntries entries →
      (entries.map Prod.fst).Nodup → (∀ e ∈ entries, e.1 ∉ seen) →
        listedEntries seen entries = entries
  | [], _, _, _ => rfl
  | (name, t) :: rest, h, hnodup, hseen => by
    obtain ⟨hname, hnodup⟩ := List.nodup_cons.mp hnodup
    have hrest : ∀ e ∈ rest, e.1 ∉ name :: seen := by
      intro e he hmem
      rcases List.mem_cons.mp hmem with heq | hmem
      · exact hname (List.mem_map.mpr ⟨e, he, heq⟩)
      · exact hseen e (List.mem_cons_of_mem _ he) hmem
    rw [listedEntries, if_pos ⟨h.1, hseen _ List.mem_cons_self⟩, listed_eq_self t h.2.1,
      listedEntries_eq_self (name :: seen) rest h.2.2 hnodup hrest]

end

end Tree

/-! ## The flat filter -/

/-- The key of the file with a path. -/
def keyOf (path : List String) : String := Text.join "/" path

/-- **A file is kept** if its key begins with no skipped start and the pattern picks it by its name or
its key. -/
def isKept (skip : List String) (g : Glob) (path : List String) : Bool :=
  !isSkipped skip (keyOf path) && picks g (path.getLastD "") (keyOf path)

/-- The keys of the kept files among those below a folder. -/
def keptFrom (skip : List String) (g : Glob) (above : List String) (paths : List (List String)) :
    List String :=
  ((paths.map (above ++ ·)).filter (isKept skip g)).map keyOf

section

variable {skip : List String} {g : Glob} {above : List String} {name : String}

theorem keptFrom_append (paths paths' : List (List String)) :
    keptFrom skip g above (paths ++ paths') =
      keptFrom skip g above paths ++ keptFrom skip g above paths' := by
  unfold keptFrom
  rw [List.map_append, List.filter_append, List.map_append]

theorem keptFrom_map_cons (paths : List (List String)) :
    keptFrom skip g above (paths.map (name :: ·)) = keptFrom skip g (above ++ [name]) paths := by
  unfold keptFrom
  rw [List.map_map]
  simp only [Function.comp_def, List.append_assoc, List.singleton_append]

theorem keptFrom_root (paths : List (List String)) :
    keptFrom skip g [] paths = (paths.filter (isKept skip g)).map keyOf := by
  unfold keptFrom
  simp only [List.nil_append, List.map_id']

/-- **The key of what lies below a folder.** -/
theorem keyOf_append {path : List String} (habove : above ≠ []) (hpath : path ≠ []) :
    keyOf (above ++ path) = keyOf above ++ "/" ++ keyOf path :=
  Text.join_append "/" habove hpath

/-- No folder but the one where the walk starts has an empty key. -/
theorem keyOf_eq_empty_iff (habove : ∀ n ∈ above, n ≠ "") : keyOf above = "" ↔ above = [] := by
  cases above with
  | nil => exact iff_of_true rfl rfl
  | cons first above =>
    refine iff_of_false (fun h => ?_) (List.cons_ne_nil _ _)
    have hfirst : first ≠ "" := habove first List.mem_cons_self
    cases above with
    | nil => exact hfirst h
    | cons second above =>
      have hkey : first ++ "/" ++ keyOf (second :: above) = "" := h
      rw [String.append_eq_empty_iff, String.append_eq_empty_iff] at hkey
      exact hfirst hkey.1.1

/-- The walk makes the key of an entry from that of its folder. -/
theorem childKey_keyOf (habove : ∀ n ∈ above, n ≠ "") :
    childKey (keyOf above) name = keyOf (above ++ [name]) := by
  unfold childKey
  by_cases hroot : above = []
  · rw [hroot]
    exact if_pos rfl
  · rw [if_neg (mt (keyOf_eq_empty_iff habove).mp hroot),
      keyOf_append hroot (List.cons_ne_nil _ _)]
    rfl

/-- What begins a key begins every longer one. -/
theorem isSkipped_append {key : String} (h : isSkipped skip key = true) (rest : String) :
    isSkipped skip (key ++ rest) = true := by
  unfold isSkipped at h ⊢
  obtain ⟨start, hstart, hbegins⟩ := List.any_eq_true.mp h
  obtain ⟨middle, rfl⟩ := Text.beginsWith_iff.mp hbegins
  refine List.any_eq_true.mpr ⟨start, hstart, Text.beginsWith_iff.mpr ⟨middle ++ rest, ?_⟩⟩
  rw [String.append_assoc]

/-- **Below a skipped folder every key is skipped**, so nothing that the filter keeps is lost with
it. -/
theorem isSkipped_of_isSkipped_folder {path : List String} (habove : above ≠ [])
    (h : isSkipped skip (keyOf above ++ "/") = true) (hpath : path ≠ []) :
    isSkipped skip (keyOf (above ++ path)) = true := by
  rw [keyOf_append habove hpath]
  exact isSkipped_append h _

theorem keptFrom_of_isSkipped {paths : List (List String)} (habove : above ≠ [])
    (h : isSkipped skip (keyOf above ++ "/") = true) (hpaths : ∀ path ∈ paths, path ≠ []) :
    keptFrom skip g above paths = [] := by
  unfold keptFrom
  rw [List.map_eq_nil_iff, List.filter_eq_nil_iff]
  intro path hpath
  obtain ⟨rest, hrest, rfl⟩ := List.mem_map.mp hpath
  rw [isKept, isSkipped_of_isSkipped_folder habove h (hpaths rest hrest)]
  exact Bool.false_ne_true

end

mutual

/-- What the walk finds in a tree is what the filter keeps of it. -/
theorem walk_eq_keptFrom (skip : List String) (g : Glob) :
    (t : Tree) → t.Proper → (above : List String) → (∀ n ∈ above, n ≠ "") →
      (name : String) → name ≠ "" →
        walk skip g (keyOf above) name t = keptFrom skip g (above ++ [name]) t.filePaths
  | .file content, _, above, habove, name, _ => by
    rw [walk, childKey_keyOf habove, Tree.filePaths, keptFrom]
    simp only [List.map_cons, List.map_nil, List.append_nil, List.filter_cons, List.filter_nil,
      isKept, List.getLastD_concat]
    cases isSkipped skip (keyOf (above ++ [name])) <;>
      cases picks g name (keyOf (above ++ [name])) <;> rfl
  | .other, _, above, _, name, _ => by
    rw [walk, Tree.filePaths]
    rfl
  | .folder entries, h, above, habove, name, hname => by
    have hlonger : ∀ n ∈ above ++ [name], n ≠ "" := by
      simpa [or_imp, forall_and] using ⟨habove, hname⟩
    rw [walk, childKey_keyOf habove, Tree.filePaths]
    split
    · next hskipped =>
      exact (keptFrom_of_isSkipped (List.append_ne_nil_of_right_ne_nil _ (List.cons_ne_nil _ _))
        hskipped fun path hpath => Tree.ne_nil_of_mem_filePathsOf hpath).symm
    · exact walkEntries_eq_keptFrom skip g entries h.2 _ hlonger

/-- **What the walk finds is what the filter keeps**, in the same order. -/
theorem walkEntries_eq_keptFrom (skip : List String) (g : Glob) :
    (entries : List (String × Tree)) → Tree.ProperEntries entries →
      (above : List String) → (∀ n ∈ above, n ≠ "") →
        walkEntries skip g (keyOf above) entries =
          keptFrom skip g above (Tree.filePathsOf entries)
  | [], _, _, _ => rfl
  | (name, t) :: rest, h, above, habove => by
    rw [walkEntries, Tree.filePathsOf, keptFrom_append, keptFrom_map_cons,
      walk_eq_keptFrom skip g t h.2.1 above habove name h.1.ne_empty,
      walkEntries_eq_keptFrom skip g rest h.2.2 above habove]

end

/-! ## One key for each file -/

/-- **A key tells the path** that it was made of. -/
theorem keyOf_injective {path path' : List String} (hne : path ≠ []) (hne' : path' ≠ [])
    (hpath : ∀ name ∈ path, Tree.IsName name) (hpath' : ∀ name ∈ path', Tree.IsName name)
    (h : keyOf path = keyOf path') : path = path' := by
  have pieces : ∀ {p : List String}, p ≠ [] → (∀ name ∈ p, Tree.IsName name) →
      Text.splitAll '/' (keyOf p) = p := fun hp hnames =>
    Text.splitAll_join rfl hp fun name hname => (hnames name hname).slash_notMem
  rw [← pieces hne hpath, h, pieces hne' hpath']

mutual

/-- A file is listed once. -/
theorem Tree.nodup_filePaths : (t : Tree) → t.Proper → t.filePaths.Nodup
  | .file _, _ => List.nodup_singleton _
  | .other, _ => List.nodup_nil
  | .folder entries, h => Tree.nodup_filePathsOf entries h.1 h.2

/-- A file below a folder is listed once. -/
theorem Tree.nodup_filePathsOf : (entries : List (String × Tree)) →
    (entries.map Prod.fst).Nodup → Tree.ProperEntries entries →
      (Tree.filePathsOf entries).Nodup
  | [], _, _ => List.nodup_nil
  | (name, t) :: rest, hnodup, h => by
    obtain ⟨hname, hnodup⟩ := List.nodup_cons.mp hnodup
    rw [Tree.filePathsOf]
    refine List.nodup_append'.mpr ⟨(Tree.nodup_filePaths t h.2.1).map (List.cons_injective),
      Tree.nodup_filePathsOf rest hnodup h.2.2, ?_⟩
    -- the other entries have other names
    intro path hpath hother
    obtain ⟨tail, -, rfl⟩ := List.mem_map.mp hpath
    obtain ⟨e, he, _, -, heq⟩ := Tree.mem_filePathsOf.mp hother
    exact hname (List.mem_map.mpr ⟨e, he, (List.cons.inj heq).1.symm⟩)

end

/-- The kept files have different keys. -/
theorem nodup_map_keyOf {entries : List (String × Tree)} (h : (Tree.folder entries).Proper)
    (p : List String → Bool) : (((Tree.filePathsOf entries).filter p).map keyOf).Nodup := by
  refine List.Nodup.map_on (fun path hpath path' hpath' heq => ?_)
    ((Tree.nodup_filePathsOf entries h.1 h.2).filter p)
  have hmem := List.mem_of_mem_filter hpath
  have hmem' := List.mem_of_mem_filter hpath'
  exact keyOf_injective (Tree.ne_nil_of_mem_filePathsOf hmem) (Tree.ne_nil_of_mem_filePathsOf hmem')
    (@Tree.isName_of_mem_filePaths (.folder entries) h path hmem)
    (@Tree.isName_of_mem_filePaths (.folder entries) h path' hmem') heq

theorem walkEntries_eq_map_keyOf {entries : List (String × Tree)} (h : (Tree.folder entries).Proper)
    (skip : List String) (g : Glob) : walkEntries skip g "" entries =
      ((Tree.filePathsOf entries).filter (isKept skip g)).map keyOf := by
  rw [← keptFrom_root]
  exact walkEntries_eq_keptFrom skip g entries h.2 [] fun n hn => absurd hn List.not_mem_nil

/-- **The walk finds no key twice.** -/
theorem nodup_walkEntries {entries : List (String × Tree)} (h : (Tree.folder entries).Proper)
    (skip : List String) (g : Glob) : (walkEntries skip g "" entries).Nodup := by
  rw [walkEntries_eq_map_keyOf h]
  exact nodup_map_keyOf h _

/-! ## The order of the entries -/

mutual

/-- **The same tree in another order**: the entries of its folders may be listed differently. -/
inductive Tree.Alike : Tree → Tree → Prop
  /-- A file is the same. -/
  | file (content : FileContent) : Tree.Alike (.file content) (.file content)
  /-- What is neither a file nor a folder is the same. -/
  | other : Tree.Alike .other .other
  /-- A folder has the same entries. -/
  | folder {es es' : List (String × Tree)} : Tree.EntriesAlike es es' →
      Tree.Alike (.folder es) (.folder es')

/-- The same entries in another order, their trees likewise. -/
inductive Tree.EntriesAlike : List (String × Tree) → List (String × Tree) → Prop
  /-- There are none. -/
  | nil : Tree.EntriesAlike [] []
  /-- One entry more. -/
  | cons {name : String} {t t' : Tree} {es es' : List (String × Tree)} : Tree.Alike t t' →
      Tree.EntriesAlike es es' → Tree.EntriesAlike ((name, t) :: es) ((name, t') :: es')
  /-- Two neighbours change places. -/
  | swap (a b : String × Tree) (es : List (String × Tree)) :
      Tree.EntriesAlike (a :: b :: es) (b :: a :: es)
  /-- One change after the other. -/
  | trans {es es' es'' : List (String × Tree)} : Tree.EntriesAlike es es' →
      Tree.EntriesAlike es' es'' → Tree.EntriesAlike es es''

end

/-- The names of a folder are the same. -/
theorem Tree.EntriesAlike.perm_names : {es es' : List (String × Tree)} → Tree.EntriesAlike es es' →
    (es.map Prod.fst).Perm (es'.map Prod.fst)
  | _, _, .nil => .refl _
  | _, _, .cons _ hes => hes.perm_names.cons _
  | _, _, .swap a b es => .swap b.1 a.1 _
  | _, _, .trans h h' => h.perm_names.trans h'.perm_names

mutual

/-- A proper tree is proper in any order. -/
theorem Tree.Alike.proper : {t t' : Tree} → t.Alike t' → t.Proper → t'.Proper
  | _, _, .file _, _ | _, _, .other, _ => trivial
  | _, _, .folder h, hproper =>
    ⟨h.perm_names.nodup_iff.mp hproper.1, h.properEntries hproper.2⟩

/-- So are the entries of a folder. -/
theorem Tree.EntriesAlike.properEntries : {es es' : List (String × Tree)} →
    Tree.EntriesAlike es es' → Tree.ProperEntries es → Tree.ProperEntries es'
  | _, _, .nil, h => h
  | _, _, .cons ht hes, h => ⟨h.1, ht.proper h.2.1, hes.properEntries h.2.2⟩
  | _, _, .swap _ _ _, h => ⟨h.2.2.1, h.2.2.2.1, h.1, h.2.1, h.2.2.2.2⟩
  | _, _, .trans hes hes', h => hes'.properEntries (hes.properEntries h)

end

mutual

/-- The walk finds the same files in another order. -/
theorem Tree.Alike.walk_perm {skip : List String} {g : Glob} : {t t' : Tree} → t.Alike t' →
    (base name : String) → (walk skip g base name t).Perm (walk skip g base name t')
  | _, _, .file _, _, _ | _, _, .other, _, _ => .refl _
  | _, _, .folder h, base, name => by
    unfold walk
    split
    · exact .refl _
    · exact h.walkEntries_perm _

/-- **The walk finds the same files**, in whatever order the entries are listed. -/
theorem Tree.EntriesAlike.walkEntries_perm {skip : List String} {g : Glob} :
    {es es' : List (String × Tree)} → Tree.EntriesAlike es es' →
      (base : String) → (walkEntries skip g base es).Perm (walkEntries skip g base es')
  | _, _, .nil, _ => .refl _
  | _, _, .cons ht hes, base => (ht.walk_perm base _).append (hes.walkEntries_perm base)
  | _, _, .swap a b es, base => by
    simp only [walkEntries]
    exact List.perm_append_comm_assoc ..
  | _, _, .trans h h', base => (h.walkEntries_perm base).trans (h'.walkEntries_perm base)

end

/-! ## What a search finds -/

/-- **The keys are those of a flat filter** over all files below a folder. -/
structure FlatlyFound (skip : List String) (g : Glob) (entries : List (String × Tree))
    (keys : List String) : Prop where
  /-- The files are the paths that lead to one. -/
  files : ∀ path, path ∈ Tree.filePathsOf entries ↔ (∀ name ∈ path, Tree.IsName name) ∧
    ∃ content, Tree.follow [] (.folder entries) path = .ok (.file content)
  /-- The keys are those of the files that are kept, each as often as there are such files. -/
  perm : keys.Perm (((Tree.filePathsOf entries).filter (isKept skip g)).map keyOf)
  /-- They ascend, so each of them is there once. -/
  ascending : keys.Pairwise (· < ·)
  /-- Different files have different keys. -/
  unique : ∀ path ∈ Tree.filePathsOf entries, ∀ path' ∈ Tree.filePathsOf entries,
    keyOf path = keyOf path' → path = path'
  /-- No file that is kept lies in a folder that is left out. -/
  outside : ∀ above path, above ≠ [] → path ≠ [] → above ++ path ∈ Tree.filePathsOf entries →
    isKept skip g (above ++ path) = true → isSkipped skip (keyOf above ++ "/") = false

/-- What is found in a proper folder is what a flat filter gives. -/
theorem flatlyFound_walkEntries {entries : List (String × Tree)}
    (h : (Tree.folder entries).Proper) (skip : List String) (g : Glob) :
    FlatlyFound skip g entries (Ascending.sort (walkEntries skip g "" entries)) where
  files := by
    intro path
    constructor
    · intro hpath
      have hnames := @Tree.isName_of_mem_filePaths (.folder entries) h path hpath
      exact ⟨hnames, (Tree.mem_filePaths_iff h hnames []).mp hpath⟩
    · rintro ⟨hnames, hleads⟩
      exact (Tree.mem_filePaths_iff h hnames []).mpr hleads
  perm := by
    rw [walkEntries_eq_map_keyOf h]
    exact Ascending.perm_sort _
  ascending := by
    rw [Ascending.sort_eq_ofList (nodup_walkEntries h skip g)]
    exact Ascending.pairwise_lt_ofList _
  unique := fun path hpath path' hpath' =>
    keyOf_injective (Tree.ne_nil_of_mem_filePathsOf hpath) (Tree.ne_nil_of_mem_filePathsOf hpath')
      (@Tree.isName_of_mem_filePaths (.folder entries) h path hpath)
      (@Tree.isName_of_mem_filePaths (.folder entries) h path' hpath')
  outside := by
    intro above path habove hpath _ hkept
    refine Bool.eq_false_iff.mpr fun hskipped => ?_
    rw [isKept, isSkipped_of_isSkipped_folder habove hskipped hpath] at hkept
    exact absurd hkept Bool.false_ne_true

/-- **A search finds what a flat filter keeps**, in whatever order the entries of the folders are
listed. -/
theorem flatlyFound_discover {root : Tree} {directory pattern : String}
    {entries : List (String × Tree)} {g : Glob} (skip : List String)
    (hfolder : root.at? directory = some (.folder entries))
    (hproper : (Tree.folder entries).Proper) (hglob : Glob.ofText pattern = .ok g) :
    ∃ keys, discover root directory pattern skip = .ok keys ∧
      FlatlyFound skip g entries keys ∧
      ∀ root' directory' entries', root'.at? directory' = some (.folder entries') →
        Tree.EntriesAlike entries entries' →
          discover root' directory' pattern skip = .ok keys := by
  have hdiscover : ∀ {r : Tree} {d : String} {es : List (String × Tree)},
      r.at? d = some (.folder es) → (Tree.folder es).Proper →
        discover r d pattern skip = .ok (Ascending.sort (walkEntries skip g "" es)) := by
    intro r d es hes hproper
    unfold discover
    rw [hes]
    dsimp only
    rw [hglob, Tree.listedEntries_eq_self [] es hproper.2 hproper.1 fun _ _ => List.not_mem_nil]
  refine ⟨_, hdiscover hfolder hproper, flatlyFound_walkEntries hproper skip g, ?_⟩
  intro root' directory' entries' hfolder' halike
  have hproper' : (Tree.folder entries').Proper := Tree.Alike.proper (.folder halike) hproper
  rw [hdiscover hfolder' hproper', Ascending.sort_eq_ofList (nodup_walkEntries hproper skip g),
    Ascending.sort_eq_ofList (nodup_walkEntries hproper' skip g)]
  exact congrArg Except.ok
    (Ascending.ofList_eq_of_mem_iff fun _ => (halike.walkEntries_perm "").symm.mem_iff)

/-- A folder with files below other folders, and a socket that is named as a file. -/
def nestedFiles : List (String × Tree) :=
  [("tab", .folder [("x.xml", .file (.text ""))]), ("b.xml", .file (.text "")), ("s.xml", .other),
    ("a", .folder [("table.xml", .file (.text "")), ("c.xml", .file (.text ""))])]

/-- The same folder, listed in another order. -/
def relistedFiles : List (String × Tree) :=
  [("b.xml", .file (.text "")), ("tab", .folder [("x.xml", .file (.text ""))]), ("s.xml", .other),
    ("a", .folder [("c.xml", .file (.text "")), ("table.xml", .file (.text ""))])]

/-- The pattern `*.xml`. -/
def xmlNames : Glob := ⟨.anyRun :: ".xml".toList.map .literal⟩

/-- **Skipped starts may end within a name**: one of them takes a whole folder and the other one a
file. -/
theorem flatlyFound_nested :
    Glob.ofText "*.xml" = .ok xmlNames ∧
      FlatlyFound ["ta", "a/t"] xmlNames nestedFiles ["a/c.xml", "b.xml"] ∧
      (Tree.folder nestedFiles).Proper ∧ Tree.EntriesAlike nestedFiles relistedFiles ∧
      discover (.folder [("d", .folder relistedFiles)]) "d" "*.xml" ["ta", "a/t"] =
        .ok ["a/c.xml", "b.xml"] := by
  have hproper : (Tree.folder nestedFiles).Proper := by
    simp only [nestedFiles, Tree.Proper, Tree.ProperEntries]
    decide
  have hlisted : Tree.EntriesAlike nestedFiles relistedFiles :=
    .trans (.swap _ _ _) (.cons (.file _) (.cons (.folder (.cons (.file _) .nil))
      (.cons .other (.cons (.folder (.swap _ _ _)) .nil))))
  have hfound : discover (.folder [("d", .folder nestedFiles)]) "d" "*.xml" ["ta", "a/t"] =
      .ok ["a/c.xml", "b.xml"] := rfl
  obtain ⟨keys, hkeys, hflat, hany⟩ :=
    @flatlyFound_discover (.folder [("d", .folder nestedFiles)]) "d" "*.xml" nestedFiles xmlNames
      ["ta", "a/t"] rfl hproper rfl
  obtain rfl := Except.ok.inj (hfound.symm.trans hkeys)
  exact ⟨rfl, hflat, hproper, hlisted, hany _ "d" _ rfl hlisted⟩

end CsdlAudit
