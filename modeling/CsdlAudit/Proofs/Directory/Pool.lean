import CsdlAudit.Directory.Pool
import CsdlAudit.Proofs.Directory.Verdicts

/-!
# What workers have collected in the end

A turn of a worker is one of four steps (`Pool.Goes`), and there is no other way to go on
(`Pool.goes_iff`). Every step keeps that each file is left, with one worker, or filed, that the
verdicts are those on the filed files, and that the lock is taken just when one worker files
(`Pool.Keeps`). So when no file is left and no worker has one, the verdicts are those on all files,
in the order of the keys and not in that of the turns.

Each file takes four turns, one of each kind, so every schedule comes to an end; and until then some
worker can go on (`Pool.Keeps.exists_goes`), since whoever has the lock can give it back.
`collected_of_run` puts this together.
-/

namespace CsdlAudit

namespace Worker

/-- The file that a worker has. -/
def file? : Worker → Option (String × String)
  | .idle => none
  | .judging f | .waiting f _ | .filing f _ => some f

/-- Whether a worker has the lock. -/
def isFiling : Worker → Bool
  | .filing _ _ => true
  | _ => false

/-- The turns that a worker still needs for its file. -/
def turns : Worker → Nat
  | .idle => 0
  | .judging _ => 3
  | .waiting _ _ => 2
  | .filing _ _ => 1

/-- **A worker's verdict is that on its file.** -/
def Honest (c : Collaborators) : Worker → Prop
  | .waiting f v | .filing f v => v = c.verdictOn f
  | _ => True

end Worker

namespace Pool

variable {c : Collaborators} {files filed : List (String × String)} {p q : Pool}

/-! ## Steps -/

/-- **The four ways to go on.** -/
inductive Goes (c : Collaborators) : Pool → Pool → Prop
  /-- An idle worker takes a file. -/
  | take (us : List (String × String)) (f : String × String) (us' : List (String × String))
      (ws ws' : List Worker) (locked : Bool) (vs : Verdicts) :
      Goes c ⟨us ++ f :: us', ws ++ .idle :: ws', locked, vs⟩
        ⟨us ++ us', ws ++ .judging f :: ws', locked, vs⟩
  /-- A worker judges its file. -/
  | judge (us : List (String × String)) (ws : List Worker) (f : String × String)
      (ws' : List Worker) (locked : Bool) (vs : Verdicts) :
      Goes c ⟨us, ws ++ .judging f :: ws', locked, vs⟩
        ⟨us, ws ++ .waiting f (c.verdictOn f) :: ws', locked, vs⟩
  /-- A worker takes the lock. -/
  | lock (us : List (String × String)) (ws : List Worker) (f : String × String) (v : FileVerdict)
      (ws' : List Worker) (vs : Verdicts) :
      Goes c ⟨us, ws ++ .waiting f v :: ws', false, vs⟩ ⟨us, ws ++ .filing f v :: ws', true, vs⟩
  /-- A worker files its verdict and gives the lock back. -/
  | file (us : List (String × String)) (ws : List Worker) (f : String × String) (v : FileVerdict)
      (ws' : List Worker) (locked : Bool) (vs : Verdicts) :
      Goes c ⟨us, ws ++ .filing f v :: ws', locked, vs⟩
        ⟨us, ws ++ .idle :: ws', false, vs.put f.1 v⟩

/-- A place in a list is between what stands before and after it. -/
theorem exists_append_of_getElem? {α : Type} {xs : List α} {i : Nat} {x : α}
    (h : xs[i]? = some x) : ∃ before after, xs = before ++ x :: after ∧ before.length = i := by
  obtain ⟨hi, rfl⟩ := List.getElem?_eq_some_iff.mp h
  refine ⟨xs.take i, xs.drop (i + 1), ?_, List.length_take_of_le hi.le⟩
  rw [← List.drop_eq_getElem_cons hi, List.take_append_drop]

section Place

variable {α : Type} (before : List α) (x y : α) (after : List α)

theorem getElem?_append_cons : (before ++ x :: after)[before.length]? = some x := by
  rw [List.getElem?_append_right le_rfl, Nat.sub_self, List.getElem?_cons_zero]

theorem set_append_cons : (before ++ x :: after).set before.length y = before ++ y :: after := by
  rw [List.set_append_right _ _ le_rfl, Nat.sub_self, List.set_cons_zero]

theorem eraseIdx_append_cons : (before ++ x :: after).eraseIdx before.length = before ++ after := by
  rw [List.eraseIdx_append_of_length_le le_rfl, Nat.sub_self, List.eraseIdx_cons_zero]

end Place

/-- **A turn is one of the four ways to go on.** -/
theorem goes_of_turn? {t : Turn} (h : p.turn? c t = some q) : Goes c p q := by
  obtain ⟨us, workers, locked, vs⟩ := p
  obtain ⟨place, file⟩ := t
  unfold turn? at h
  cases hw : workers[place]? with
  | none => simp [hw] at h
  | some w =>
    obtain ⟨ws, ws', rfl, rfl⟩ := exists_append_of_getElem? hw
    simp only [getElem?_append_cons, set_append_cons] at h
    cases w with
    | idle =>
      obtain ⟨f, hf, rfl⟩ := Option.map_eq_some_iff.mp h
      obtain ⟨us, us', rfl, rfl⟩ := exists_append_of_getElem? hf
      rw [eraseIdx_append_cons]
      exact .take us f us' ws ws' locked vs
    | judging f =>
      obtain rfl := Option.some.inj h
      exact .judge us ws f ws' locked vs
    | waiting f v =>
      cases locked with
      | true => exact absurd h (by simp)
      | false =>
        obtain rfl := Option.some.inj h
        exact .lock us ws f v ws' vs
    | filing f v =>
      obtain rfl := Option.some.inj h
      exact .file us ws f v ws' locked vs

/-- **Turns are the ways to go on.** -/
theorem goes_iff : Goes c p q ↔ ∃ t, p.turn? c t = some q := by
  refine ⟨fun h => ?_, fun ⟨_, ht⟩ => goes_of_turn? ht⟩
  cases h with
  | take us f us' ws ws' locked vs =>
    refine ⟨⟨ws.length, us.length⟩, ?_⟩
    simp only [turn?, getElem?_append_cons, set_append_cons, eraseIdx_append_cons, Option.map_some]
  | judge us ws f ws' locked vs =>
    refine ⟨⟨ws.length, 0⟩, ?_⟩
    simp only [turn?, getElem?_append_cons, set_append_cons]
    rfl
  | lock us ws f v ws' vs =>
    refine ⟨⟨ws.length, 0⟩, ?_⟩
    simp only [turn?, getElem?_append_cons, set_append_cons, Bool.false_eq_true, if_false]
  | file us ws f v ws' locked vs =>
    refine ⟨⟨ws.length, 0⟩, ?_⟩
    simp only [turn?, getElem?_append_cons, set_append_cons]

/-! ## What a step keeps -/

/-- The turns that are needed for all files that are not filed. -/
def turns (p : Pool) : Nat := 4 * p.untaken.length + total (p.workers.map Worker.turns)

/-- **What holds of workers at any time**, when the files of `filed` are filed. -/
structure Keeps (c : Collaborators) (files filed : List (String × String)) (p : Pool) : Prop where
  /-- Each file is left, with one worker, or filed. -/
  files : (p.untaken ++ p.workers.filterMap Worker.file? ++ filed).Perm files
  /-- The verdicts are those on the filed files. -/
  verdicts : p.verdicts = judgeFiles c filed
  /-- A worker's verdict is that on its file. -/
  honest : ∀ w ∈ p.workers, w.Honest c
  /-- The lock is taken just when a worker files, and then by one worker. -/
  lock : (p.workers.filter Worker.isFiling).length = if p.locked then 1 else 0

/-- A step takes one of the turns that are needed. -/
theorem Goes.turns (h : Goes c p q) : q.turns + 1 = p.turns := by
  cases h <;>
    simp only [Pool.turns, List.length_append, List.length_cons, List.map_append, List.map_cons,
      total_append, total_cons, Worker.turns] <;>
    omega

/-- One item goes from one list to another. -/
theorem perm_move {α : Type} (xs xs' ys ys' : List α) (a : α) :
    ((xs ++ xs') ++ (ys ++ a :: ys')).Perm ((xs ++ a :: xs') ++ (ys ++ ys')) := by
  have hy : ((xs ++ xs') ++ (ys ++ a :: ys')).Perm (a :: ((xs ++ xs') ++ (ys ++ ys'))) := by
    rw [← List.append_assoc, ← List.append_assoc]
    exact List.perm_middle
  exact hy.trans (List.perm_middle.symm.append_right _)

/-- **A step keeps what holds of the workers.** -/
theorem Keeps.goes (h : Keeps c files filed p) (hpq : Goes c p q) :
    ∃ filed', Keeps c files filed' q := by
  obtain ⟨hfiles, hverdicts, hhonest, hlock⟩ := h
  cases hpq with
  | take us f us' ws ws' locked vs =>
    refine ⟨filed, ?_, hverdicts, ?_, ?_⟩
    · rw [List.filterMap_append] at hfiles ⊢
      exact ((perm_move us us' _ _ f).append_right filed).trans hfiles
    · rw [List.forall_mem_append, List.forall_mem_cons] at hhonest ⊢
      exact ⟨hhonest.1, trivial, hhonest.2.2⟩
    · rw [List.filter_append] at hlock ⊢
      exact hlock
  | judge us ws f ws' locked vs =>
    refine ⟨filed, ?_, hverdicts, ?_, ?_⟩
    · rw [List.filterMap_append] at hfiles ⊢
      exact hfiles
    · rw [List.forall_mem_append, List.forall_mem_cons] at hhonest ⊢
      exact ⟨hhonest.1, rfl, hhonest.2.2⟩
    · rw [List.filter_append] at hlock ⊢
      exact hlock
  | lock us ws f v ws' vs =>
    refine ⟨filed, ?_, hverdicts, ?_, ?_⟩
    · rw [List.filterMap_append] at hfiles ⊢
      exact hfiles
    · rw [List.forall_mem_append, List.forall_mem_cons] at hhonest ⊢
      exact hhonest
    · simp only [List.filter_append, List.filter_cons, Worker.isFiling, List.length_append,
        List.length_cons, if_true, Bool.false_eq_true, if_false] at hlock ⊢
      omega
  | file us ws f v ws' locked vs =>
    rw [List.forall_mem_append, List.forall_mem_cons] at hhonest
    refine ⟨filed ++ [f], ?_, ?_, ?_, ?_⟩
    · rw [List.filterMap_append, List.append_assoc] at hfiles ⊢
      have hmove := perm_move (ws.filterMap Worker.file?) (ws'.filterMap Worker.file?) filed [] f
      rw [List.append_nil] at hmove
      exact (hmove.append_left us).trans hfiles
    · have hv : v = c.verdictOn f := hhonest.2.1
      rw [judgeFiles_concat, ← hverdicts, hv]
    · rw [List.forall_mem_append, List.forall_mem_cons]
      exact ⟨hhonest.1, trivial, hhonest.2.2⟩
    · simp only [List.filter_append, List.filter_cons, Worker.isFiling, List.length_append,
        List.length_cons, if_true, Bool.false_eq_true, if_false] at hlock ⊢
      split at hlock <;> omega

/-- **As long as a file is not filed, some worker can go on.** -/
theorem Keeps.exists_goes (h : Keeps c files filed p) (hsome : p.workers ≠ [])
    (hleft : p.finished = false) : ∃ q, Goes c p q := by
  obtain ⟨us, workers, locked, vs⟩ := p
  by_cases hbusy : ∃ w ∈ workers, w ≠ .idle
  · obtain ⟨w, hw, hne⟩ := hbusy
    obtain ⟨ws, ws', rfl⟩ := List.append_of_mem hw
    cases w with
    | idle => exact absurd rfl hne
    | judging f => exact ⟨_, .judge us ws f ws' locked vs⟩
    | filing f v => exact ⟨_, .file us ws f v ws' locked vs⟩
    | waiting f v =>
      cases locked with
      | false => exact ⟨_, .lock us ws f v ws' vs⟩
      | true =>
        -- the worker that has the lock can give it back
        obtain ⟨x, hx⟩ := List.exists_mem_of_length_eq_add_one h.lock
        obtain ⟨hx, hfiling⟩ := List.mem_filter.mp hx
        obtain ⟨xs, xs', hxs⟩ := List.append_of_mem hx
        dsimp only at hxs
        rw [hxs]
        cases x with
        | filing f v => exact ⟨_, .file us xs f v xs' true vs⟩
        | idle | judging | waiting => exact absurd hfiling (by simp [Worker.isFiling])
  · have hidle : ∀ w ∈ workers, w = .idle := fun w hw =>
      not_not.mp fun hne => hbusy ⟨w, hw, hne⟩
    have hall : workers.all (· == .idle) = true :=
      List.all_eq_true.mpr fun w hw => beq_iff_eq.mpr (hidle w hw)
    obtain ⟨w, workers, rfl⟩ := List.exists_cons_of_ne_nil hsome
    obtain rfl := hidle w List.mem_cons_self
    cases us with
    | nil => exact absurd hleft (by simp [finished, hall])
    | cons f us => exact ⟨_, .take [] f us [] workers locked vs⟩

/-! ## What a schedule keeps -/

theorem keeps_start (c : Collaborators) (size : Nat) (files : List (String × String)) :
    Keeps c files [] (start size files) where
  files := by
    have hnone : (List.replicate size Worker.idle).filterMap Worker.file? = [] :=
      List.filterMap_replicate_of_none rfl
    show (files ++ (List.replicate size Worker.idle).filterMap Worker.file? ++ []).Perm files
    rw [hnone, List.append_nil, List.append_nil]
  verdicts := rfl
  honest := fun w hw => by
    rw [List.eq_of_mem_replicate hw]
    trivial
  lock := by
    show ((List.replicate size Worker.idle).filter Worker.isFiling).length = 0
    rw [List.filter_replicate_of_neg (by simp [Worker.isFiling]), List.length_nil]

theorem turns_start (size : Nat) (files : List (String × String)) :
    (start size files).turns = 4 * files.length := by
  have hidle : total ((List.replicate size Worker.idle).map Worker.turns) = 0 := by
    induction size with
    | zero => rfl
    | succ size ih =>
      rw [List.replicate_succ, List.map_cons, total_cons, ih]
      rfl
  show 4 * files.length + total ((List.replicate size Worker.idle).map Worker.turns) = _
  rw [hidle, Nat.add_zero]

theorem Goes.length_workers (h : Goes c p q) : q.workers.length = p.workers.length := by
  cases h <;> simp only [List.length_append, List.length_cons]

/-- **A schedule keeps what holds of the workers**, and takes some of the turns that are needed. -/
theorem Keeps.run {schedule : List Turn} (h : Keeps c files filed p)
    (hrun : p.run? c schedule = some q) :
    (∃ filed', Keeps c files filed' q) ∧ schedule.length + q.turns = p.turns ∧
      q.workers.length = p.workers.length := by
  induction schedule generalizing p filed with
  | nil =>
    obtain rfl := Option.some.inj hrun
    exact ⟨⟨filed, h⟩, Nat.zero_add _, rfl⟩
  | cons t schedule ih =>
    rw [run?, List.foldlM_cons] at hrun
    obtain ⟨p', hturn, hrun⟩ := Option.bind_eq_some_iff.mp hrun
    have hgoes := goes_of_turn? hturn
    obtain ⟨filed', h'⟩ := h.goes hgoes
    obtain ⟨hkeeps, hturns, hlength⟩ := ih h' hrun
    refine ⟨hkeeps, ?_, hlength.trans hgoes.length_workers⟩
    rw [← hgoes.turns, ← hturns, List.length_cons]
    omega

/-- **Workers can always bring their work to an end.** -/
theorem Keeps.exists_run (h : Keeps c files filed p) (hsome : p.workers ≠ []) :
    ∃ schedule q, p.run? c schedule = some q ∧ q.finished = true := by
  induction hn : p.turns using Nat.strong_induction_on generalizing p filed with
  | _ n ih =>
    cases hfinished : p.finished with
    | true => exact ⟨[], p, rfl, hfinished⟩
    | false =>
      obtain ⟨p', hgoes⟩ := h.exists_goes hsome hfinished
      obtain ⟨t, hturn⟩ := goes_iff.mp hgoes
      obtain ⟨filed', h'⟩ := h.goes hgoes
      have hless : p'.turns < n := by
        rw [← hn, ← hgoes.turns]
        exact Nat.lt_succ_self _
      have hsome' : p'.workers ≠ [] := by
        rw [← List.length_pos_iff, hgoes.length_workers]
        exact List.length_pos_iff.mpr hsome
      obtain ⟨schedule, q, hrun, hq⟩ := ih _ hless h' hsome' rfl
      refine ⟨t :: schedule, q, ?_, hq⟩
      rw [run?, List.foldlM_cons, hturn]
      exact hrun

/-- **When the workers have finished**, all files are filed. -/
theorem Keeps.verdicts_of_finished (h : Keeps c files filed p)
    (hkeys : (files.map Prod.fst).Nodup) (hfinished : p.finished = true) :
    p.verdicts = judgeFiles c files := by
  rw [finished, Bool.and_eq_true, List.isEmpty_iff, List.all_eq_true] at hfinished
  obtain ⟨hleft, hidle⟩ := hfinished
  have hheld : p.workers.filterMap Worker.file? = [] :=
    List.filterMap_eq_nil_iff.mpr fun w hw => by
      rw [beq_iff_eq.mp (hidle w hw)]
      rfl
  have hfiles := h.files
  rw [hleft, hheld] at hfiles
  rw [h.verdicts]
  exact judgeFiles_eq_of_perm hkeys hfiles

end Pool

/-! ## The verdicts in the end -/

/-- A file that could not be judged is not compliant, by an exception. -/
theorem CheckOutcome.verdict_of_not_judged {o : CheckOutcome} {key : String}
    (h : ∀ v, o ≠ .judged v) : (o.verdict key).compliant = false ∧
      (o.verdict key).errorsByType.keys = [FileVerdict.exceptionType] := by
  cases o with
  | judged v => exact absurd rfl (h v)
  | gaveUp e => exact ⟨rfl, rfl⟩
  | brokeDown reason => exact ⟨rfl, rfl⟩

theorem CheckOutcome.fileName_verdict (o : CheckOutcome) (key : String) :
    (o.verdict key).fileName = key := by
  cases o <;> rfl

/-- **The verdicts on files**, as every way of collecting them gives them. -/
structure Collected (c : Collaborators) (files : List (String × String)) (vs : Verdicts) :
    Prop where
  /-- They are what one file after the other gives. -/
  sequential : vs = judgeFiles c files
  /-- There is one for each key, in ascending order. -/
  keys : vs.map Prod.fst = Ascending.ofList (files.map Prod.fst)
  /-- Under the key of a file stands the verdict on it. -/
  verdict : ∀ f ∈ files, vs.get? f.1 = some (c.verdictOn f)
  /-- A verdict bears the key under which it stands. -/
  fileName : ∀ e ∈ vs, e.2.fileName = e.1
  /-- A file whose checker gave up or broke down is not compliant, by an exception. -/
  exception : ∀ f ∈ files, (∀ v, c.check f.2 ≠ .judged v) → ∃ v, vs.get? f.1 = some v ∧
    v.compliant = false ∧ v.errorsByType.keys = [FileVerdict.exceptionType]
  /-- They are as many as the files. -/
  length : vs.length = files.length
  /-- Not more of them are compliant than there are files. -/
  compliantCount_le : vs.compliantCount ≤ files.length

/-- **A run counts each file once**, as compliant or not, and its verdicts are `vs`. -/
structure Counted (vs : Verdicts) (r : DirectoryResult) : Prop where
  /-- The run goes on with these verdicts. -/
  results : r.fileResults = vs
  /-- There is one for each file. -/
  total : r.totalFiles = r.fileResults.length
  /-- No more files are compliant than there are. -/
  valid_le : r.validFiles ≤ r.totalFiles
  /-- Each file is compliant or not. -/
  sum : r.fileResults.length = r.validFiles + r.invalidFiles

section Collect

variable {c : Collaborators} {files : List (String × String)}

theorem collected_judgeFiles (h : (files.map Prod.fst).Nodup) :
    Collected c files (judgeFiles c files) where
  sequential := rfl
  keys := by
    have hkeys : ((judgeFiles c files).map Prod.fst).Perm (files.map Prod.fst) := by
      have hmap := (perm_judgeFiles (c := c) h).map Prod.fst
      rwa [List.map_map] at hmap
    refine Ascending.eq_of_pairwise (List.pairwise_map.mpr (pairwise_judgeFiles c files))
      (Ascending.pairwise_ofList _) fun key => ?_
    rw [hkeys.mem_iff, Ascending.mem_ofList]
  verdict := fun _ hf => get?_judgeFiles h hf
  fileName := by
    intro e he
    obtain ⟨f, -, rfl⟩ := List.mem_map.mp ((perm_judgeFiles h).mem_iff.mp he)
    exact CheckOutcome.fileName_verdict _ _
  exception := fun _ hf hnot =>
    ⟨_, get?_judgeFiles h hf, CheckOutcome.verdict_of_not_judged hnot⟩
  length := by rw [(perm_judgeFiles h).length_eq, List.length_map]
  compliantCount_le := by
    rw [compliantCount_judgeFiles h]
    exact List.length_filter_le _ _

/-- **The counts of a run add up.** -/
theorem Collected.counted {vs : Verdicts} (h : Collected c files vs) (config : Config)
    (directory : String) : Counted vs (validateFiles config c directory files) := by
  obtain rfl := h.sequential
  exact {
    results := rfl
    total := h.length.symm
    valid_le := h.compliantCount_le
    sum := h.length.trans (Nat.add_sub_cancel' h.compliantCount_le).symm }

/-- **Whatever the course of the workers' turns**, when they have finished they have collected the
verdicts that one file after the other gives, and the counts of the run add up. Before that some
worker can go on, no more than four turns are taken for a file, and from everywhere the work can be
brought to an end. -/
theorem collected_of_run {size : Nat} {schedule : List Turn} {p : Pool}
    (hkeys : (files.map Prod.fst).Nodup) (hsize : 0 < size)
    (hrun : (Pool.start size files).run? c schedule = some p) :
    (p.finished = true → Collected c files p.verdicts ∧
        ∀ config directory, Counted p.verdicts (validateFiles config c directory files)) ∧
      (p.finished = false → ∃ t p', p.turn? c t = some p') ∧
      schedule.length ≤ 4 * files.length ∧
      ∃ rest p', p.run? c rest = some p' ∧ p'.finished = true := by
  obtain ⟨⟨filed, hkeeps⟩, hturns, hlength⟩ := (Pool.keeps_start c size files).run hrun
  have hsome : p.workers ≠ [] := by
    rw [← List.length_pos_iff, hlength]
    exact hsize.trans_eq List.length_replicate.symm
  rw [Pool.turns_start] at hturns
  refine ⟨fun hfinished => ?_, fun hleft => ?_, ?_, hkeeps.exists_run hsome⟩
  · rw [hkeeps.verdicts_of_finished hkeys hfinished]
    have hcollected := collected_judgeFiles (c := c) hkeys
    exact ⟨hcollected, hcollected.counted⟩
  · obtain ⟨p', hgoes⟩ := hkeeps.exists_goes hsome hleft
    obtain ⟨t, ht⟩ := Pool.goes_iff.mp hgoes
    exact ⟨t, p', ht⟩
  · rw [← hturns]
    exact Nat.le_add_right _ _

end Collect

/-- One file is judged, on one the checker gives up, and on one it breaks down. -/
def threeWays : Collaborators where
  check path :=
    if path = "d/a.xml" then .judged (.clean path)
    else if path = "d/b.xml" then .gaveUp notText
    else .brokeDown none
  blocks _ := .ok []

/-- Three files, not in the order of their keys. -/
def unsorted : List (String × String) :=
  [("c.xml", "d/c.xml"), ("a.xml", "d/a.xml"), ("b.xml", "d/b.xml")]

/-- A schedule of two workers: the file that is taken first is filed second, and the first one in
the order of the keys is filed last. -/
def crossing : List Turn :=
  [⟨0, 2⟩, ⟨1, 0⟩, ⟨1, 0⟩, ⟨0, 0⟩, ⟨1, 0⟩, ⟨1, 0⟩, ⟨0, 0⟩, ⟨1, 0⟩, ⟨0, 0⟩, ⟨1, 0⟩, ⟨1, 0⟩, ⟨1, 0⟩]

/-- **Two workers collect three verdicts**, of which one is compliant. -/
theorem collected_crossing :
    ∃ p, (Pool.start 2 unsorted).run? threeWays crossing = some p ∧ p.finished = true ∧
      Collected threeWays unsorted p.verdicts ∧
      p.verdicts.map (fun e => (e.1, e.2.compliant)) =
        [("a.xml", true), ("b.xml", false), ("c.xml", false)] := by
  have hrun : (Pool.start 2 unsorted).run? threeWays crossing =
      some ⟨[], [.idle, .idle], false, judgeFiles threeWays unsorted⟩ := by decide +kernel
  have hcollected := ((collected_of_run (by decide) Nat.two_pos hrun).1 rfl).1
  exact ⟨_, hrun, rfl, hcollected, by decide +kernel⟩

end CsdlAudit
