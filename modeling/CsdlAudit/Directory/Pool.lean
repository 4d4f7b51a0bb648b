import CsdlAudit.Directory.Verdicts

/-!
# Judging files side by side

The files of a run may be judged by several workers at once. A worker takes a file that no other one
has taken, judges it on its own, waits until no other worker has the lock on the verdicts, takes the
lock, and puts its verdict there. Which worker goes on next, and which file it takes, is open: a
*schedule* is one such course, turn by turn, and `Pool.run?` is what it leads to.
-/

namespace CsdlAudit

/-- **What a worker is at.** -/
inductive Worker where
  /-- It has no file. -/
  | idle
  /-- It judges a file. -/
  | judging (file : String × String)
  /-- It has the verdict on a file and waits for the lock. -/
  | waiting (file : String × String) (v : FileVerdict)
  /-- It has the verdict on a file, and the lock. -/
  | filing (file : String × String) (v : FileVerdict)
deriving DecidableEq

/-- **Workers with the files that are left and the verdicts that they share.** -/
structure Pool where
  /-- The files that no worker has taken. -/
  untaken : List (String × String)
  /-- The workers. -/
  workers : List Worker
  /-- Whether a worker has the lock. -/
  locked : Bool
  /-- The verdicts so far. -/
  verdicts : Verdicts
deriving DecidableEq

/-- **One turn**: the worker that goes on, by its place, and the file that it takes if it has none,
by its place among those that are left. -/
structure Turn where
  /-- The place of the worker. -/
  worker : Nat
  /-- The place of the file. -/
  file : Nat
deriving DecidableEq, Repr

namespace Pool

/-- The workers before any of them has a file. -/
def start (size : Nat) (files : List (String × String)) : Pool :=
  ⟨files, List.replicate size .idle, false, []⟩

/-- **What a turn leads to**; `none` if the worker cannot go on. -/
def turn? (c : Collaborators) (p : Pool) (t : Turn) : Option Pool :=
  match p.workers[t.worker]? with
  | none => none
  | some .idle =>
    (p.untaken[t.file]?).map fun f =>
      { p with
        untaken := p.untaken.eraseIdx t.file
        workers := p.workers.set t.worker (.judging f) }
  | some (.judging f) =>
    some { p with workers := p.workers.set t.worker (.waiting f ((c.check f.2).verdict f.1)) }
  | some (.waiting f v) =>
    if p.locked then none
    else some { p with locked := true, workers := p.workers.set t.worker (.filing f v) }
  | some (.filing f v) =>
    some { p with
      locked := false
      workers := p.workers.set t.worker .idle
      verdicts := p.verdicts.put f.1 v }

/-- **What a schedule leads to**; `none` if some worker cannot go on when it is its turn. -/
def run? (c : Collaborators) (p : Pool) (schedule : List Turn) : Option Pool :=
  schedule.foldlM (turn? c) p

/-- Whether no file is left and no worker has one. -/
def finished (p : Pool) : Bool := p.untaken.isEmpty && p.workers.all (· == .idle)

end Pool

end CsdlAudit
