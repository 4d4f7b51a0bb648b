import Mathlib.Data.List.Basic
import CsdlAudit.Directory.Tree
import CsdlAudit.Proofs.Text.Pieces

/-!
# Writing a file

A path is followed with the folders on the way in hand, and a file is put where the names on the way
lead from the top. The two agree: one part leads on to what stands at the names that it turns to
(`Reached.step`), so a path leads to what stands at its names, if every part of it leads on
(`Reached.follow`).

What stands at names is looked at up to the entries of a folder (`kindAt`). Seen like that, a file
that is written changes the tree at one place only (`kindAt_put`). From this follow the main
statements on `addFile`, where a file can be written:

* `content?_addFile`: the path leads to what was written;
* `kindOf?_addFile`: paths with other names lead to what they led to before;
* `kindOf?_addFile_same`: no path with the same names leads to anything else.
-/

namespace CsdlAudit.Tree

variable {root t : Tree} {above : List Tree} {names ns ms ps : List String} {part : String}
  {content : FileContent}

/-! ## Parts of a path -/

/-- The last part of a path has the ending of the path. -/
theorem parts_of_ending {path : String} {ending : List Char} (hslash : '/' ∉ ending)
    (h : ending <:+ path.toList) :
    ∃ front last, parts path = front ++ [String.ofList (last ++ ending)] := by
  obtain ⟨start, hstart⟩ := h
  have hpieces : ∀ (s : String) (start : List Char), start ++ ending = s.toList →
      ∃ front last, Text.splitAll '/' s = front ++ [String.ofList (last ++ ending)] := by
    intro s start hs
    obtain ⟨front, last, hsplit⟩ := Text.splitOn_append_ending hslash start
    exact ⟨front.map String.ofList, last, by rw [Text.splitAll, ← hs, hsplit]; simp⟩
  unfold parts
  split
  · next rest hrest =>
    rw [hrest] at hstart
    cases start with
    | nil =>
      rw [List.nil_append] at hstart
      exact absurd List.mem_cons_self (hstart ▸ hslash)
    | cons d start =>
      obtain ⟨front, last, hparts⟩ := hpieces (String.ofList rest) start
        (by rw [String.toList_ofList]; exact (List.cons.inj hstart).2)
      exact ⟨"/" :: front, last, by rw [hparts]; rfl⟩
  · exact hpieces path start hstart

/-! ## What stands at names -/

/-- What stands at the end of names, going down from a tree. -/
def descend : (names : List String) → Tree → Option Tree
  | [], t => some t
  | _ :: _, .file _ => none
  | name :: names, .folder entries => (child? name entries).bind (descend names)
  | _ :: _, .other => none

/-- **What a tree is**, up to the entries of a folder. -/
inductive Kind where
  /-- A file with its content. -/
  | file (content : FileContent)
  /-- A folder. -/
  | folder
  /-- Neither of them. -/
  | other
deriving DecidableEq

/-- The content of a file. -/
def Kind.content? : Kind → Option FileContent
  | .file content => some content
  | _ => none

/-- What a tree is. -/
def kind : Tree → Kind
  | .file content => .file content
  | .folder _ => .folder
  | .other => .other

/-- What stands at the end of names, up to the entries of a folder. -/
def kindAt (names : List String) (t : Tree) : Option Kind := (descend names t).map kind

/-- What a path leads to, up to the entries of a folder. -/
def kindOf? (root : Tree) (path : String) : Option Kind := (root.at? path).map kind

theorem content?_eq (root : Tree) (path : String) :
    root.content? path = (root.kindOf? path).bind Kind.content? := by
  unfold content? kindOf?
  cases root.at? path with
  | none => rfl
  | some t => cases t <;> rfl

theorem descend_append (ns ms : List String) (t : Tree) :
    descend (ns ++ ms) t = (descend ns t).bind (descend ms) := by
  induction ns generalizing t with
  | nil => rfl
  | cons n ns ih =>
    cases t with
    | file _ => rfl
    | other => rfl
    | folder entries =>
      rw [List.cons_append, descend, descend]
      cases child? n entries with
      | none => rfl
      | some u => exact ih u

theorem kindAt_cons_folder (name : String) (names : List String) (entries : List (String × Tree)) :
    kindAt (name :: names) (.folder entries) = (child? name entries).bind (kindAt names) := by
  unfold kindAt
  rw [descend]
  cases child? name entries <;> rfl

theorem kindAt_single (name : String) (entries : List (String × Tree)) :
    kindAt [name] (.folder entries) = (child? name entries).map kind := by
  rw [kindAt_cons_folder]
  cases child? name entries <;> rfl

/-- One name further than a folder. -/
theorem kindAt_concat {entries : List (String × Tree)}
    (h : descend names t = some (.folder entries)) (name : String) :
    kindAt (names ++ [name]) t = (child? name entries).map kind := by
  rw [kindAt, descend_append, h, Option.bind_some]
  exact kindAt_single name entries

/-! ## Following a path -/

/-- **A part leads on** from names: a folder stands there, the part does not go back from the top,
and something stands at the names that it turns to. -/
def LeadsOn (root : Tree) (names : List String) (part : String) : Prop :=
  kindAt names root = some .folder ∧ ¬(part = ".." ∧ names = []) ∧ kindAt (turn names part) root ≠ none

instance (root : Tree) (names : List String) (part : String) :
    Decidable (LeadsOn root names part) := inferInstanceAs (Decidable (_ ∧ _))

/-- The names at which parts end, going from names, if every part leads on. -/
def trail (root : Tree) (names : List String) : (parts : List String) → Option (List String)
  | [] => some names
  | part :: rest =>
    if LeadsOn root names part then trail root (turn names part) rest else none

/-- Following parts from the top has led to a tree at names, past the trees `above` it. -/
inductive Reached (root : Tree) : (above : List Tree) → (here : Tree) → (names : List String) → Prop
  /-- Nothing has been followed yet. -/
  | top : Reached root [] root []
  /-- The last step went to an entry. -/
  | entry {above : List Tree} {entries : List (String × Tree)} {names : List String}
      {name : String} {next : Tree} (h : Reached root above (.folder entries) names)
      (hnext : child? name entries = some next) :
      Reached root (.folder entries :: above) next (names ++ [name])

/-- It stands at the names. -/
theorem Reached.descend (h : Reached root above t names) : descend names root = some t := by
  induction h with
  | top => rfl
  | entry _ hnext ih =>
    rw [descend_append, ih]
    simp [Tree.descend, hnext]

/-- **One part is followed** if it leads on, to what stands at the names that it turns to. -/
theorem Reached.step (h : Reached root above t names) (part : String) (rest : List String) :
    (LeadsOn root names part ∧ ∃ above' t', Reached root above' t' (turn names part) ∧
      follow above t (part :: rest) = follow above' t' rest) ∨
    (¬LeadsOn root names part ∧ ∃ fault, follow above t (part :: rest) = .error fault) := by
  have hhere := h.descend
  -- nothing leads on from anything but a folder
  have hstays : kind t ≠ .folder → ¬LeadsOn root names part := by
    intro hkind hgo
    rw [LeadsOn, kindAt, hhere] at hgo
    exact hkind (Option.some.inj hgo.1)
  cases t with
  | file content => exact .inr ⟨hstays Kind.noConfusion, .notADirectory, rfl⟩
  | other => exact .inr ⟨hstays Kind.noConfusion, .notADirectory, rfl⟩
  | folder entries =>
    have hfolder : kindAt names root = some .folder := by
      rw [kindAt, hhere]
      rfl
    rw [Tree.follow.eq_def]
    dsimp only
    by_cases hgap : part = "" ∨ part = "."
    · have hturn : turn names part = names := if_pos hgap
      have hup : part ≠ ".." := by
        rintro rfl
        exact absurd hgap (by decide)
      refine .inl ⟨⟨hfolder, fun h => hup h.1, by simp [hturn, hfolder]⟩, above, .folder entries, ?_,
        if_pos hgap⟩
      rwa [hturn]
    rw [if_neg hgap]
    by_cases hback : part = ".."
    · rw [if_pos hback]
      cases h with
      | top => exact .inr ⟨fun hgo => hgo.2.1 ⟨hback, rfl⟩, .notFound, rfl⟩
      | @entry above es names name _ h _ =>
        have hturn : turn (names ++ [name]) part = names := by
          rw [turn, if_neg hgap, if_pos hback, List.dropLast_concat]
        have hparent : kindAt names root ≠ none := by simp [kindAt, h.descend]
        exact .inl ⟨⟨hfolder, by simp, by rwa [hturn]⟩, above, .folder es, by rwa [hturn], rfl⟩
    · have hturn : turn names part = names ++ [part] := by
        rw [turn, if_neg hgap, if_neg hback]
      have hnext := kindAt_concat hhere part
      rw [if_neg hback]
      cases hchild : child? part entries with
      | none =>
        refine .inr ⟨fun hgo => hgo.2.2 ?_, .notFound, rfl⟩
        rw [hturn, hnext, hchild]
        rfl
      | some next =>
        refine .inl ⟨⟨hfolder, fun h => hback h.1, ?_⟩, .folder entries :: above, next, ?_, rfl⟩
        · simp [hturn, hnext, hchild]
        · rw [hturn]
          exact h.entry hchild

/-- **Following parts** leads to what stands at the names where they end. -/
theorem Reached.follow (h : Reached root above t names) (parts : List String) :
    (follow above t parts).toOption = (trail root names parts).bind (Tree.descend · root) := by
  induction parts generalizing above t names with
  | nil => exact h.descend.symm
  | cons part rest ih =>
    rcases h.step part rest with ⟨hgo, above', t', hnext, hfollow⟩ | ⟨hgo, fault, hfollow⟩
    · rw [hfollow, trail, if_pos hgo]
      exact ih hnext
    · rw [hfollow, trail, if_neg hgo]
      rfl

/-- What a path leads to is what stands at the names where it ends. -/
theorem kindOf?_eq (root : Tree) {path : String} (h : path ≠ "") :
    root.kindOf? path = (trail root [] (parts path)).bind (kindAt · root) := by
  rw [kindOf?, at?, resolve, if_neg h, Reached.top.follow]
  cases trail root [] (parts path) <;> rfl

theorem kindOf?_empty (root : Tree) : root.kindOf? "" = none := rfl

/-- Parts that lead on end at the names that they are for. -/
theorem trail_eq (h : trail root names ps = some ms) : ps.foldl turn names = ms := by
  induction ps generalizing names with
  | nil => exact Option.some.inj h
  | cons part rest ih =>
    rw [trail] at h
    split at h
    · exact ih h
    · cases h

theorem trail_append (root : Tree) (names ps qs : List String) :
    trail root names (ps ++ qs) = (trail root names ps).bind (trail root · qs) := by
  induction ps generalizing names with
  | nil => rfl
  | cons part rest ih =>
    rw [List.cons_append, trail, trail]
    split
    · exact ih _
    · rfl

/-! ## Putting a file -/

theorem child?_putEntry (name : String) (t : Tree) (entries : List (String × Tree))
    (other : String) :
    child? other (putEntry name t entries) =
      if other = name then some t else child? other entries := by
  induction entries with
  | nil =>
    by_cases h : other = name
    · simp [putEntry, child?, h]
    · simp [putEntry, child?, h, Ne.symm h]
  | cons e rest ih =>
    unfold child? at ih ⊢
    rw [putEntry]
    by_cases he : e.1 = name
    · by_cases h : other = name
      · simp [he, h]
      · simp [he, h, Ne.symm h]
    · by_cases h : e.1 = other
      · have hother : other ≠ name := fun e => he (h.trans e)
        simp [h, hother]
      · simp [he, h, ih]

/-- A file can stand at names: they start in a folder, and no folder stands there. -/
structure TakesFile (root : Tree) (ns : List String) : Prop where
  /-- There is a name. -/
  ne_nil : ns ≠ []
  /-- The names but the last lead to a folder. -/
  parent : kindAt ns.dropLast root = some .folder
  /-- No folder stands there. -/
  free : kindAt ns root ≠ some .folder

/-- Below a place that takes a file there is nothing. -/
theorem kindAt_cons_of_ne_folder {o : Option Tree} (h : o.map kind ≠ some .folder) (name : String)
    (names : List String) : o.bind (kindAt (name :: names)) = none := by
  match o with
  | none => rfl
  | some (.file _) => rfl
  | some .other => rfl
  | some (.folder _) => exact absurd rfl h

/-- Nothing stands below what is no folder. -/
theorem kindAt_of_leaf (hleaf : kind t ≠ .folder) (names : List String) :
    kindAt names t ≠ some .folder := by
  cases t with
  | folder entries => exact absurd rfl hleaf
  | file content => cases names <;> exact fun h => by cases h
  | other => cases names <;> exact fun h => by cases h

/-- **A file that is put at names** changes the tree there and nowhere else. -/
theorem kindAt_put (content : FileContent) :
    ∀ {ns : List String} {root : Tree}, TakesFile root ns → ∀ ms,
      kindAt ms (put (.file content) root ns) =
        if ms = ns then some (.file content) else kindAt ms root
  | [], _, h, _ => absurd rfl h.ne_nil
  | _ :: _, .file _, h, _ => absurd h.parent (kindAt_of_leaf Kind.noConfusion _)
  | _ :: _, .other, h, _ => absurd h.parent (kindAt_of_leaf Kind.noConfusion _)
  | [name], .folder entries, h, [] => rfl
  | [name], .folder entries, h, m :: ms => by
    have hfree : (child? name entries).map kind ≠ some .folder := by
      rw [← kindAt_single]
      exact h.free
    rw [put, kindAt_cons_folder, child?_putEntry, kindAt_cons_folder, put]
    by_cases hm : m = name
    · subst hm
      cases ms with
      | nil => simp [kindAt, descend, kind]
      | cons m' ms => simp [kindAt_cons_of_ne_folder hfree, kindAt, descend]
    · simp [hm]
  | name :: next :: ns, .folder entries, h, [] => rfl
  | name :: next :: ns, .folder entries, h, m :: ms => by
    have hparent : (child? name entries).bind (kindAt (next :: ns).dropLast) = some .folder := by
      rw [← kindAt_cons_folder]
      exact h.parent
    obtain ⟨u, hu, hparent⟩ := Option.bind_eq_some_iff.mp hparent
    have hfree : kindAt (next :: ns) u ≠ some .folder := by
      have := h.free
      rwa [kindAt_cons_folder, hu] at this
    have hnext : TakesFile u (next :: ns) := ⟨List.cons_ne_nil _ _, hparent, hfree⟩
    have hput := kindAt_put content hnext
    rw [put, kindAt_cons_folder, child?_putEntry, kindAt_cons_folder, hu, Option.getD_some]
    by_cases hm : m = name
    · subst hm
      rw [if_pos rfl, Option.bind_some, hput ms, hu]
      simp
    · simp [hm]

section

variable (h : TakesFile root ns)

include h

/-- Where a file is put, there is a file. -/
theorem kindAt_put_self : kindAt ns (put (.file content) root ns) = some (.file content) := by
  rw [kindAt_put content h, if_pos rfl]

theorem kindAt_put_of_ne (hne : ms ≠ ns) :
    kindAt ms (put (.file content) root ns) = kindAt ms root := by
  rw [kindAt_put content h, if_neg hne]

/-- What was a folder is one. -/
theorem kindAt_put_folder (hms : kindAt ms root = some .folder) :
    kindAt ms (put (.file content) root ns) = some .folder := by
  rw [kindAt_put_of_ne h, hms]
  rintro rfl
  exact h.free hms

/-- A part that led on still does. -/
theorem LeadsOn.put (hgo : LeadsOn root names part) :
    LeadsOn (put (.file content) root ns) names part := by
  refine ⟨kindAt_put_folder h hgo.1, hgo.2.1, ?_⟩
  rw [kindAt_put content h]
  split
  · exact Option.some_ne_none _
  · exact hgo.2.2

/-- No part leads on from a file. -/
theorem not_leadsOn_put (part : String) : ¬LeadsOn (put (.file content) root ns) ns part := by
  rw [LeadsOn, kindAt_put_self h]
  rintro ⟨hfile, -⟩
  cases hfile

/-- A part that leads on led on before, unless it leads to the file. -/
theorem LeadsOn.of_put (hgo : LeadsOn (Tree.put (.file content) root ns) names part)
    (hne : turn names part ≠ ns) : LeadsOn root names part := by
  have hnames : names ≠ ns := by
    rintro rfl
    exact not_leadsOn_put h part hgo
  obtain ⟨hfolder, hup, hturn⟩ := hgo
  rw [kindAt_put_of_ne h hnames] at hfolder
  rw [kindAt_put_of_ne h hne] at hturn
  exact ⟨hfolder, hup, hturn⟩

/-- Parts that led on still do. -/
theorem trail_put (htrail : trail root names ps = some ms) :
    trail (put (.file content) root ns) names ps = some ms := by
  induction ps generalizing names with
  | nil => exact htrail
  | cons part rest ih =>
    rw [trail] at htrail ⊢
    split at htrail
    · next hgo =>
      rw [if_pos (hgo.put h)]
      exact ih htrail
    · cases htrail

/-- Parts that lead on led on before, unless they end at the file. -/
theorem trail_of_trail_put (htrail : trail (put (.file content) root ns) names ps = some ms)
    (hne : ms ≠ ns) : trail root names ps = some ms := by
  induction ps generalizing names with
  | nil => exact htrail
  | cons part rest ih =>
    rw [trail] at htrail ⊢
    split at htrail
    · next hgo =>
      have hturn : turn names part ≠ ns := by
        intro hturn
        rw [hturn] at htrail
        cases rest with
        | nil => exact hne (Option.some.inj htrail).symm
        | cons part' rest =>
          rw [trail, if_neg (not_leadsOn_put h part')] at htrail
          cases htrail
      rw [if_pos (hgo.of_put h hturn)]
      exact ih htrail
    · cases htrail

end

/-! ## Writing at a path -/

section

variable {path q : String} (h : root.writeFault? path = none)

include h

/-- Where a file can be written, all parts but the last lead to a folder, and the last is the name
of no folder in it. -/
theorem writeFault?_eq_none :
    ∃ front last names entries, parts path = front ++ [last] ∧ trail root [] front = some names ∧
      descend names root = some (.folder entries) ∧ turn names last = names ++ [last] ∧
      (child? last entries).map kind ≠ some .folder := by
  unfold writeFault? at h
  split at h
  · cases h
  · split at h
    · cases h
    · next last hlast =>
      split at h
      · cases h
      · cases h
      · cases h
      · next entries hfront =>
        split at h
        · cases h
        · next hname =>
          have hparts : parts path = (parts path).dropLast ++ [last] :=
            (List.dropLast_append_getLast? last hlast).symm
          have htop : Reached root [] root [] := .top
          have htrail := htop.follow (parts path).dropLast
          rw [hfront] at htrail
          obtain ⟨names, hnames, hfolder⟩ := Option.bind_eq_some_iff.mp htrail.symm
          refine ⟨_, last, names, entries, hparts, hnames, hfolder, ?_, ?_⟩
          · rw [turn, if_neg fun hgap => hname (hgap.imp_right Or.inl),
              if_neg fun hback => hname (Or.inr (Or.inr hback))]
          · intro hkind
            obtain ⟨u, hu, hkind⟩ := Option.map_eq_some_iff.mp hkind
            cases u with
            | file _ | other => cases hkind
            | folder _ => simp [hu] at h

/-- Where a file can be written, one can stand. -/
theorem takesFile_namesTo : TakesFile root (namesTo path) := by
  obtain ⟨front, last, names, entries, hparts, htrail, hfolder, hturn, hfree⟩ :=
    writeFault?_eq_none h
  have hnames : namesTo path = names ++ [last] := by
    rw [namesTo, hparts, List.foldl_append, trail_eq htrail, List.foldl_cons, List.foldl_nil, hturn]
  rw [hnames]
  refine ⟨by simp, ?_, ?_⟩
  · rw [List.dropLast_concat, kindAt, hfolder]
    rfl
  · rwa [kindAt_concat hfolder]

/-- The path of a file that is written leads to its names. -/
theorem trail_addFile (content : FileContent) :
    trail (root.addFile path content) [] (parts path) = some (namesTo path) := by
  have htakes := takesFile_namesTo h
  obtain ⟨front, last, names, entries, hparts, htrail, hfolder, hturn, -⟩ := writeFault?_eq_none h
  have hnames : namesTo path = turn names last := by
    rw [namesTo, hparts, List.foldl_append, trail_eq htrail, List.foldl_cons, List.foldl_nil]
  have hparent : kindAt names root = some .folder := by
    rw [kindAt, hfolder]
    rfl
  have hup : ¬(last = ".." ∧ names = []) := by
    rintro ⟨rfl, rfl⟩
    exact absurd hturn (by decide)
  have hself : kindAt _ (put (.file content) root _) = _ := kindAt_put_self htakes
  rw [addFile, hparts, trail_append, trail_put htakes htrail, Option.bind_some, trail,
    if_pos ⟨kindAt_put_folder htakes hparent, hup, by rw [← hnames, hself]; simp⟩, ← hnames]
  rfl

/-- **A written file is there.** -/
theorem content?_addFile (content : FileContent) :
    (root.addFile path content).content? path = some content := by
  have hne : path ≠ "" := by
    rintro rfl
    cases h
  rw [content?_eq, kindOf?_eq _ hne, trail_addFile h, Option.bind_some, addFile,
    kindAt_put_self (takesFile_namesTo h)]
  rfl

/-- **Other paths** lead to what they led to before. -/
theorem kindOf?_addFile (content : FileContent) (hne : namesTo q ≠ namesTo path) :
    (root.addFile path content).kindOf? q = root.kindOf? q := by
  have htakes := takesFile_namesTo h
  by_cases hq : q = ""
  · rw [hq, kindOf?_empty, kindOf?_empty]
  rw [kindOf?_eq _ hq, kindOf?_eq _ hq, addFile]
  have htrail : trail (put (.file content) root (namesTo path)) [] (parts q) =
      trail root [] (parts q) := by
    apply Option.ext
    intro ms
    constructor
    · intro hms
      refine trail_of_trail_put htakes hms ?_
      rw [← trail_eq hms]
      exact hne
    · exact trail_put htakes
  rw [htrail]
  cases hms : trail root [] (parts q) with
  | none => rfl
  | some ms =>
    have hms' : ms ≠ namesTo path := by
      rw [← trail_eq hms]
      exact hne
    exact kindAt_put_of_ne htakes hms'

/-- **Paths with the names of the written file** lead to it or nowhere. -/
theorem kindOf?_addFile_same {content : FileContent} {k : Kind}
    (hsame : namesTo q = namesTo path) (hk : (root.addFile path content).kindOf? q = some k) :
    k = .file content := by
  by_cases hq : q = ""
  · rw [hq, kindOf?_empty] at hk
    cases hk
  rw [kindOf?_eq _ hq] at hk
  obtain ⟨ms, hms, hk⟩ := Option.bind_eq_some_iff.mp hk
  obtain rfl : ms = namesTo path := by rw [← trail_eq hms]; exact hsame
  rw [addFile, kindAt_put_self (takesFile_namesTo h)] at hk
  exact (Option.some.inj hk).symm

/-- What led to a file does so. -/
theorem isFile_addFile (content : FileContent) (hq : root.isFile q = true) :
    (root.addFile path content).isFile q = true := by
  by_cases hsame : namesTo q = namesTo path
  · have hne : q ≠ "" := by
      rintro rfl
      cases hq
    rw [isFile, content?_eq, kindOf?_eq _ hne] at hq ⊢
    cases htrail : trail root [] (parts q) with
    | none => rw [htrail] at hq; cases hq
    | some ms =>
      obtain rfl : ms = namesTo path := by rw [← trail_eq htrail]; exact hsame
      have htakes := takesFile_namesTo h
      rw [addFile, trail_put htakes htrail, Option.bind_some, kindAt_put_self htakes]
      rfl
  · rw [isFile, content?_eq, kindOf?_addFile h content hsame, ← content?_eq]
    exact hq

/-- Other paths lead to the files that they led to before. -/
theorem content?_addFile_of_ne (content : FileContent) (hne : namesTo q ≠ namesTo path) :
    (root.addFile path content).content? q = root.content? q := by
  rw [content?_eq, content?_eq, kindOf?_addFile h content hne]

/-- A path that leads somewhere and has the names of the written file leads to it. -/
theorem content?_addFile_same {content : FileContent} (hsame : namesTo q = namesTo path)
    (hq : (root.addFile path content).at? q ≠ none) :
    (root.addFile path content).content? q = some content := by
  obtain ⟨t, ht⟩ := Option.ne_none_iff_exists'.mp hq
  have hkind : (root.addFile path content).kindOf? q = some t.kind := by rw [kindOf?, ht]; rfl
  rw [content?_eq, hkind, kindOf?_addFile_same h hsame hkind]
  rfl

end

end CsdlAudit.Tree
