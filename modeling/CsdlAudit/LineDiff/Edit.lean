import CsdlAudit.LineDiff.Snake
import CsdlAudit.Natural
import CsdlAudit.Text.Pieces

/-!
# Edits

An edit turns one list of lines into another by stretches that are kept, deleted or inserted. The
raw edit comes from splitting at places through which a shortest edit passes; then deletions and
insertions are moved up and down along equal lines until they join their neighbours.

An edit is shown by its changes: between two stretches of kept lines first the deleted lines, each
behind `-`, then the inserted ones, each behind `+`.
-/

namespace CsdlAudit.LineDiff

/-- What happens to the lines of a stretch. -/
inductive Action where
  /-- They stay. -/
  | keep
  /-- They are deleted. -/
  | delete
  /-- They are inserted. -/
  | insert
deriving DecidableEq, Repr

/-- **A stretch of an edit.** -/
structure Stretch where
  /-- What happens to its lines. -/
  action : Action
  /-- Where it starts in the old list. -/
  old : Nat
  /-- Where it starts in the new list. -/
  new : Nat
  /-- How many old lines it takes. -/
  oldLength : Nat
  /-- How many new lines it takes. -/
  newLength : Nat
deriving DecidableEq, Repr

namespace Stretch

/-- A stretch of kept lines, none if it is empty. -/
def kept (old new length : Nat) : List Stretch :=
  if length = 0 then [] else [⟨.keep, old, new, length, length⟩]

/-- Whether the stretch has no lines. -/
def isEmpty (s : Stretch) : Bool := s.oldLength == 0 && s.newLength == 0

/-- How many lines the stretch has on both sides, and one. -/
def weight (s : Stretch) : Nat := s.oldLength + s.newLength + 1

/-- The old lines of a stretch. -/
def oldLines (s : Stretch) (old : List String) : List String := (old.drop s.old).take s.oldLength

/-- The new lines of a stretch. -/
def newLines (s : Stretch) (new : List String) : List String := (new.drop s.new).take s.newLength

/-- The stretch with another one of the same action behind it. -/
def join (s t : Stretch) : Stretch :=
  { s with oldLength := s.oldLength + t.oldLength, newLength := s.newLength + t.newLength }

end Stretch

/-- The raw edit of two lists that start at `o` and `n`; `depth` bounds the number of splits one
inside of the other. -/
def rawEdit : (depth : Nat) → (o n : Nat) → (old new : List String) → List Stretch
  | 0, _, _, _, _ => []
  | depth + 1, o, n, old, new =>
    let start := commonStart old new
    let old := old.drop start
    let new := new.drop start
    let finish := commonEnd old new
    let old := old.take (old.length - finish)
    let new := new.take (new.length - finish)
    let o' := o + start
    let n' := n + start
    let between :=
      match old, new with
      | [], [] => []
      | _ :: _, [] => [⟨.delete, o', n', old.length, 0⟩]
      | [], _ :: _ => [⟨.insert, o', n', 0, new.length⟩]
      | _ :: _, _ :: _ =>
        match middle? old new with
        | some (x, y) =>
          rawEdit depth o' n' (old.take x) (new.take y) ++
            rawEdit depth (o' + x) (n' + y) (old.drop x) (new.drop y)
        | none => []
    Stretch.kept o n start ++ between ++
      Stretch.kept (o' + old.length) (n' + new.length) finish

/-! ## Joining neighbours -/

/-- **A stretch among its neighbours.** -/
structure Place where
  /-- The stretches before it, nearest first. -/
  before : List Stretch
  /-- The stretch. -/
  here : Stretch
  /-- The stretches behind it. -/
  after : List Stretch

/-- How many lines stand in stretches, and how many stretches there are. -/
def totalWeight (ss : List Stretch) : Nat := total (ss.map Stretch.weight)

/-- Kept lines that come free behind a stretch join those that stand there. -/
def keepBehind (k oldEnd newEnd : Nat) : List Stretch → List Stretch
  | s :: rest =>
    if s.action = .keep then
      ⟨.keep, s.old - k, s.new - k, s.oldLength + k, s.newLength + k⟩ :: rest
    else ⟨.keep, oldEnd - k, newEnd - k, k, k⟩ :: s :: rest
  | [] => [⟨.keep, oldEnd - k, newEnd - k, k, k⟩]

/-- Kept lines that come free before a stretch join those that stand there. -/
def keepBefore (k old new : Nat) : List Stretch → List Stretch
  | s :: rest =>
    if s.action = .keep then
      { s with oldLength := s.oldLength + k, newLength := s.newLength + k } :: rest
    else ⟨.keep, old, new, k, k⟩ :: s :: rest
  | [] => [⟨.keep, old, new, k, k⟩]

/-- Moves the stretch up as far as its lines equal those above it. -/
def moveUp (old new : List String) (before : List Stretch) (t : Stretch) (after : List Stretch) :
    Place :=
  match before with
  | [] => ⟨[], t, after⟩
  | p :: rest =>
    if p.action = .keep then
      let k := commonEnd (p.oldLines old) (t.newLines new)
      if p.isEmpty then moveUp old new rest t after
      else if _hk : k = 0 ∨ p.oldLength < k then ⟨p :: rest, t, after⟩
      else
        let after := keepBehind k (p.old + p.oldLength) (t.new + t.newLength) after
        let t := { t with old := t.old - k, new := t.new - k }
        if p.oldLength = k then moveUp old new rest t after
        else
          moveUp old new
            ({ p with oldLength := p.oldLength - k, newLength := p.newLength - k } :: rest) t after
    else if p.action = t.action then moveUp old new rest (p.join t) after
    else moveUp old new rest t (p :: after)
termination_by totalWeight before
decreasing_by
  all_goals simp only [totalWeight, List.map_cons, total_cons, Stretch.weight]
  all_goals omega

/-- Moves the stretch down as far as its lines equal those below it. -/
def moveDown (old new : List String) (before : List Stretch) (t : Stretch)
    (after : List Stretch) : Place :=
  match after with
  | [] => ⟨before, t, []⟩
  | x :: rest =>
    if x.action = .keep then
      let k := commonStart (x.oldLines old) (t.newLines new)
      if x.isEmpty then moveDown old new before t rest
      else if _hk : k = 0 ∨ x.oldLength < k then ⟨before, t, x :: rest⟩
      else
        let before := keepBefore k x.old t.new before
        let t := { t with old := t.old + k, new := t.new + k }
        if x.oldLength = k then moveDown old new before t rest
        else
          moveDown old new before t
            (⟨.keep, x.old + k, x.new + k, x.oldLength - k, x.newLength - k⟩ :: rest)
    else if x.action = t.action then moveDown old new before (t.join x) rest
    else moveDown old new (x :: before) t rest
termination_by totalWeight after
decreasing_by
  all_goals simp only [totalWeight, List.map_cons, total_cons, Stretch.weight]
  all_goals omega

/-- Moves each stretch with an action up and then down, in `rounds` steps at most. -/
def settle (old new : List String) (action : Action) :
    (rounds : Nat) → (before after : List Stretch) → List Stretch
  | 0, before, after => before.reverse ++ after
  | _ + 1, before, [] => before.reverse
  | rounds + 1, before, t :: after =>
    if t.action = action then
      let up := moveUp old new before t after
      let down := moveDown old new up.before up.here up.after
      settle old new action rounds (down.here :: down.before) down.after
    else settle old new action rounds (t :: before) after

/-- **The edit that turns one list of lines into another.** -/
def edit (old new : List String) : List Stretch :=
  let raw := rawEdit (old.length + new.length + 1) 0 0 old new
  let rounds := (totalWeight raw + 1) * (totalWeight raw + 1)
  settle old new .insert rounds [] (settle old new .delete rounds [] raw)

/-! ## Showing an edit -/

/-- A line behind a sign. -/
def signed (sign line : String) : String := sign ++ Text.trimEnd line

/-- The changed lines; `deleted` and `inserted` are those since the last kept one. -/
def changes (old new : List String) (deleted inserted : List String) :
    List Stretch → List String
  | [] => deleted ++ inserted
  | s :: rest =>
    match s.action with
    | .keep => deleted ++ inserted ++ changes old new [] [] rest
    | .delete => changes old new (deleted ++ (s.oldLines old).map (signed "-")) inserted rest
    | .insert => changes old new deleted (inserted ++ (s.newLines new).map (signed "+")) rest

/-- **The changes between two texts**, a line each. -/
def display (old new : String) : String :=
  let oldLines := Text.splitAll '\n' old
  let newLines := Text.splitAll '\n' new
  Text.trimEnd (Text.join "\n" (changes oldLines newLines [] [] (edit oldLines newLines)))

end CsdlAudit.LineDiff
