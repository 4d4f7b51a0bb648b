import CsdlAudit.Markup.Event

/-!
# Where elements stand

A reading is a flat list of events. What its tags enclose is read off a stack of tags: an opening
tag goes in front of it, a closing one takes the innermost off (`Event.openBehind?`), and each
element stands within those on the stack where its tag is met (`placed`).

No reading closes an element where none is open (`exists_openBehind?_readFrom`), as the reader keeps
the names of the open elements and stops at a closing tag that does not fit. So at every point of a
reading there is a stack of open elements (`exists_openBehind?_of_prefix`).
-/

namespace CsdlAudit.Markup

/-! ## Open elements -/

/-- The elements that are open behind an event, innermost first, given those before it; `none` if
the event closes an element where none is open. -/
def Event.openBehind? (outer : List Tag) : Event → Option (List Tag)
  | .opening tag => some (tag :: outer)
  | .closing => outer.tail?
  | .empty _ | .text _ => some outer

/-- **The elements that are open behind a run of events**, innermost first. -/
def openBehind? (outer : List Tag) (events : List Event) : Option (List Tag) :=
  events.foldlM Event.openBehind? outer

section Open

variable {outer outer' : List Tag} {e : Event} {events before after : List Event}

theorem openBehind?_cons : openBehind? outer (e :: events) =
    (e.openBehind? outer).bind fun outer => openBehind? outer events :=
  List.foldlM_cons

theorem openBehind?_append : openBehind? outer (before ++ after) =
    (openBehind? outer before).bind fun outer => openBehind? outer after :=
  List.foldlM_append

/-- Where a run of events can be followed, its beginning can. -/
theorem exists_openBehind?_of_prefix (h : openBehind? outer (before ++ after) = some outer') :
    ∃ outer₁, openBehind? outer before = some outer₁ ∧ openBehind? outer₁ after = some outer' :=
  Option.bind_eq_some_iff.mp (openBehind?_append ▸ h)

end Open

/-! ## Elements within elements -/

/-- **An element where it stands.** -/
structure Placed where
  /-- Its tag. -/
  tag : Tag
  /-- The tags of the elements around it, innermost first. -/
  around : List Tag
deriving DecidableEq, Repr

/-- The element lies within one of the name. -/
def Placed.Within (p : Placed) (name : String) : Prop :=
  ∃ tag ∈ p.around, tag.localName = name

instance (p : Placed) (name : String) : Decidable (p.Within name) :=
  inferInstanceAs (Decidable (∃ tag ∈ p.around, tag.localName = name))

/-- **The elements of a run of events** in the order of their tags, given those that are open. -/
def placed (outer : List Tag) : List Event → List Placed
  | [] => []
  | .opening tag :: rest => ⟨tag, outer⟩ :: placed (tag :: outer) rest
  | .empty tag :: rest => ⟨tag, outer⟩ :: placed outer rest
  | .closing :: rest => placed outer.tail rest
  | .text _ :: rest => placed outer rest

/-! ## What the reader keeps -/

/-- **A step of reading keeps the names of the open elements**: what it does to the names, its event
does to the tags. -/
def Step.Keeps {size : Nat} (opened : List String) : Step size → Prop
  | .next event cursor _ _ => ∀ outer : List Tag, outer.map Tag.name = opened →
    ∃ outer', openBehind? outer event.toList = some outer' ∧ outer'.map Tag.name = cursor.opened
  | _ => True

section Step

variable (cursor : Cursor) (cs : List Char)

theorem keeps_stepBang : (stepBang cursor cs).Keeps cursor.opened := by
  unfold stepBang
  split
  · trivial
  · split
    · trivial
    · split
      · trivial
      · dsimp only
        split
        · trivial
        · exact fun outer hopened => ⟨outer, rfl, hopened⟩

theorem keeps_stepClosing : (stepClosing cursor cs).Keeps cursor.opened := by
  unfold stepClosing
  dsimp only
  split
  · trivial
  · next name outer hopened =>
    split
    · intro tags htags
      obtain ⟨tag, tags, rfl, -, hnames⟩ := List.map_eq_cons_iff.mp (htags.trans hopened)
      exact ⟨tags, rfl, hnames⟩
    · trivial

theorem keeps_stepDeclaration : (stepDeclaration cursor cs).Keeps cursor.opened := by
  unfold stepDeclaration
  dsimp only
  split
  · exact fun outer hopened => ⟨outer, rfl, hopened⟩
  · trivial

/-- A tag opens its element, or has no content. -/
theorem openBehind?_tagEvent (content : List Char) {outer : List Tag} {opened : List String}
    (hopened : outer.map Tag.name = opened) :
    ∃ outer', openBehind? outer [tagEvent content] = some outer' ∧
      outer'.map Tag.name = openedAfter opened (tagEvent content) := by
  unfold tagEvent
  split
  · exact ⟨outer, rfl, hopened⟩
  · exact ⟨tagOf content :: outer, rfl, congrArg (_ :: ·) hopened⟩

theorem keeps_stepTag (nonempty : cs ≠ []) : (stepTag cursor cs nonempty).Keeps cursor.opened := by
  unfold stepTag
  split
  · exact fun outer hopened => openBehind?_tagEvent _ hopened
  · exact fun outer hopened => openBehind?_tagEvent _ hopened

theorem keeps_stepText : (stepText cursor cs).Keeps cursor.opened := by
  unfold stepText
  split
  · trivial
  · dsimp only
    split
    · exact fun outer hopened => ⟨outer, rfl, hopened⟩
    · exact fun outer hopened => ⟨outer, rfl, hopened⟩

theorem keeps_step : (step cursor cs).Keeps cursor.opened := by
  unfold step
  split
  · unfold stepInTag
    split
    · trivial
    · exact keeps_stepBang cursor _
    · exact keeps_stepClosing cursor _
    · exact keeps_stepDeclaration cursor _
    · exact keeps_stepTag cursor _ _
  · exact keeps_stepText cursor cs

end Step

/-- **No reading closes an element where none is open.** -/
theorem exists_openBehind?_readFrom (cursor : Cursor) (cs : List Char) {outer : List Tag}
    (hopened : outer.map Tag.name = cursor.opened) :
    ∃ outer', openBehind? outer (readFrom cursor cs).events = some outer' := by
  fun_induction readFrom cursor cs generalizing outer with
  | case1 cursor cs h => exact ⟨outer, rfl⟩
  | case2 cursor cs fault position h => exact ⟨outer, rfl⟩
  | case3 cursor cs event cursor' rest shorter h ih =>
    have hkeeps := keeps_step cursor cs
    rw [h] at hkeeps
    obtain ⟨outer₁, hevent, hopened₁⟩ := hkeeps outer hopened
    obtain ⟨outer', hrest⟩ := ih hopened₁
    refine ⟨outer', ?_⟩
    rw [Reading.cons, openBehind?_append, hevent]
    exact hrest

end CsdlAudit.Markup
