import CsdlAudit.Proofs.Graph.Build
import CsdlAudit.Proofs.Graph.Suggestion

/-!
# The best match in any order

The nodes of a graph are gone through in no particular order when an element is sought that may be
meant by an id, and the order may be another one for every id. The search keeps the best element so
far, so what it returns after some nodes is the best of these (`Kept`); a node that is looked at
next keeps this (`Kept.next`), and the best element of all nodes is the same one in every order
(`suggestIn_eq_some_iff`).

Nothing is used of the score but that it is a partial function of the two ids. The build is stated
with the search as a parameter, so that its reports can be spoken of for every score and every order
(`SuggestsBest`); with the score and the order of the graph it is the build of the library.
-/

namespace CsdlAudit

/-- How well an id fits another one, if at all. -/
abbrev Scoring := String → String → Option Int

/-- An order of the nodes of a graph, which may depend on the id that is sought. -/
abbrev NodeOrder := Graph → String → List Node

/-! ## The search -/

section Search

variable (score : Scoring) (target : String)

/-- The better of the best element so far and a node. A part is passed over, and so is a node that
does not fit. -/
def nextBest (best : Option (String × Int)) (n : Node) : Option (String × Int) :=
  if n.kind.isPart then best
  else
    match score n.id target, best with
    | none, _ => best
    | some s, none => some (n.id, s)
    | some s, some b => some (betterSuggestion b (n.id, s))

/-- **The element that may be meant**, where the nodes are gone through as they are listed. -/
def suggestIn (listing : List Node) : Option String :=
  (listing.foldl (nextBest score target) none).map Prod.fst

/-- The elements among some nodes that fit, with their scores. -/
def fitting (nodes : List Node) : List (String × Int) :=
  (nodes.filter fun n => !n.kind.isPart).filterMap fun n =>
    (score n.id target).map fun s => (n.id, s)

variable {score target}

theorem mem_fitting_iff {nodes : List Node} {id : String} {s : Int} :
    (id, s) ∈ fitting score target nodes ↔
      ∃ n ∈ nodes, n.id = id ∧ n.kind.isPart = false ∧ score id target = some s := by
  simp only [fitting, List.mem_filterMap, List.mem_filter, Option.map_eq_some_iff, Prod.mk.injEq,
    Bool.not_eq_true']
  constructor
  · rintro ⟨n, ⟨hn, hpart⟩, s', hs, rfl, rfl⟩
    exact ⟨n, hn, rfl, hpart, hs⟩
  · rintro ⟨n, hn, rfl, hpart, hs⟩
    exact ⟨n, ⟨hn, hpart⟩, s, hs, rfl, rfl⟩

theorem fitting_concat (nodes : List Node) (n : Node) :
    fitting score target (nodes ++ [n]) =
      fitting score target nodes ++ fitting score target [n] := by
  rw [fitting, List.filter_append, List.filterMap_append]
  rfl

/-- **What is kept of some candidates**: the best of them, nothing if there are none. -/
structure Kept (candidates : List (String × Int)) (best : Option (String × Int)) : Prop where
  /-- Nothing is kept of nothing. -/
  nothing : best = none → candidates = []
  /-- What is kept is the best. -/
  isBest : ∀ b, best = some b → IsBest b candidates

/-- The first candidate is the best so far. -/
theorem Kept.first (c : String × Int) : Kept [c] (some c) where
  nothing := fun h => absurd h (Option.some_ne_none c)
  isBest := by
    rintro b hb
    obtain rfl := Option.some.inj hb
    exact ⟨List.mem_singleton_self c, fun d hd => List.mem_singleton.mp hd ▸ Outranks.refl _⟩

/-- Another candidate takes the place of the best if it is better. -/
theorem Kept.concat {candidates : List (String × Int)} {b : String × Int}
    (h : Kept candidates (some b)) (c : String × Int) :
    Kept (candidates ++ [c]) (some (betterSuggestion b c)) where
  nothing := fun h => absurd h (Option.some_ne_none _)
  isBest := by
    intro better hbetter
    obtain rfl := Option.some.inj hbetter
    obtain ⟨hchoice, hb, hc⟩ := Outranks.betterSuggestion b c
    have hbest := h.isBest b rfl
    constructor
    · rcases hchoice with hchoice | hchoice
      · rw [hchoice]
        exact List.mem_append_left _ hbest.mem
      · rw [hchoice]
        exact List.mem_append_right _ (List.mem_singleton_self c)
    · intro d hd
      rcases List.mem_append.mp hd with hd | hd
      · exact hb.trans (hbest.outranks d hd)
      · exact List.mem_singleton.mp hd ▸ hc

/-- **One more node**: the best of the nodes so far becomes the best of these and the node. -/
theorem Kept.next {nodes : List Node} {best : Option (String × Int)}
    (h : Kept (fitting score target nodes) best) (n : Node) :
    Kept (fitting score target (nodes ++ [n])) (nextBest score target best n) := by
  rw [fitting_concat]
  cases hpart : n.kind.isPart with
  | true => simpa [nextBest, fitting, hpart] using h
  | false =>
    cases hscore : score n.id target with
    | none => simpa [nextBest, fitting, hpart, hscore] using h
    | some s =>
      have hone : fitting score target [n] = [(n.id, s)] := by simp [fitting, hpart, hscore]
      rw [hone]
      cases best with
      | none =>
        rw [h.nothing rfl]
        simpa [nextBest, hpart, hscore] using Kept.first (n.id, s)
      | some b => simpa [nextBest, hpart, hscore] using h.concat (n.id, s)

/-- All nodes are gone through. -/
theorem Kept.foldl {seen : List Node} {best : Option (String × Int)}
    (h : Kept (fitting score target seen) best) (listing : List Node) :
    Kept (fitting score target (seen ++ listing))
      (listing.foldl (nextBest score target) best) := by
  induction listing generalizing seen best with
  | nil => rwa [List.append_nil]
  | cons n listing ih =>
    have := ih (h.next n)
    rwa [List.append_assoc] at this

/-- **The search keeps the best of all nodes.** -/
theorem kept_foldl (score : Scoring) (target : String) (listing : List Node) :
    Kept (fitting score target listing) (listing.foldl (nextBest score target) none) := by
  have hnothing : Kept (fitting score target []) none := ⟨fun _ => rfl, fun _ h => by cases h⟩
  exact hnothing.foldl listing

theorem suggestIn_eq_none_iff {listing : List Node} :
    suggestIn score target listing = none ↔ fitting score target listing = [] := by
  have hkept := kept_foldl score target listing
  rw [suggestIn, Option.map_eq_none_iff]
  refine ⟨hkept.nothing, fun hnil => Option.eq_none_iff_forall_ne_some.mpr fun b hb => ?_⟩
  exact List.not_mem_nil (hnil ▸ (hkept.isBest b hb).mem)

/-- **What is suggested is the best of the elements that fit.** -/
theorem suggestIn_eq_some_iff {listing : List Node} {id : String} :
    suggestIn score target listing = some id ↔
      ∃ s, IsBest (id, s) (fitting score target listing) := by
  have hkept := kept_foldl score target listing
  rw [suggestIn, Option.map_eq_some_iff]
  constructor
  · rintro ⟨b, hb, rfl⟩
    exact ⟨b.2, hkept.isBest b hb⟩
  · rintro ⟨s, hbest⟩
    cases hfound : listing.foldl (nextBest score target) none with
    | none => exact absurd (hkept.nothing hfound ▸ hbest.mem) List.not_mem_nil
    | some b => exact ⟨b, rfl, congrArg Prod.fst ((hkept.isBest b hfound).unique hbest)⟩

/-- **The order of the nodes does not matter.** -/
theorem suggestIn_eq_of_perm {listing nodes : List Node} (h : listing.Perm nodes) :
    suggestIn score target listing = suggestIn score target nodes := by
  have hmem : ∀ x, x ∈ fitting score target listing ↔ x ∈ fitting score target nodes :=
    fun x => ((h.filter _).filterMap _).mem_iff
  refine Option.ext fun id => ?_
  rw [suggestIn_eq_some_iff, suggestIn_eq_some_iff]
  exact exists_congr fun s =>
    ⟨fun hbest => hbest.congr hmem, fun hbest => hbest.congr fun x => (hmem x).symm⟩

/-- The suggestion of a graph is found by going through its nodes in their own order. -/
theorem Graph.suggestion?_eq_suggestIn (g : Graph) (target : String) :
    g.suggestion? target = suggestIn Similarity.score target g.nodes := by
  refine Option.ext fun id => ?_
  rw [suggestion?_eq_some_iff, suggestIn_eq_some_iff]
  rfl

end Search

/-! ## The build with any search -/

namespace ReferenceGraph

/-- Follows a reference to one id; `suggest` finds what may be meant by an id without a node. -/
def linkBy (suggest : Graph → String → Option String) (r : Reference) (g : ReferenceGraph)
    (target : String) : ReferenceGraph :=
  if g.hasNode target then
    { g with toGraph := g.toGraph.addEdge ⟨r.source, target, r.kind⟩ }
  else
    { g with
      unresolved := g.unresolved ++
        [⟨r.source, target, r.namespaceName, r.sourceFile, suggest g.toGraph target⟩] }

/-- Follows a reference. -/
def followBy (suggest : Graph → String → Option String) (options : GraphOptions)
    (operations : Index String String) (g : ReferenceGraph) (r : Reference) : ReferenceGraph :=
  match r.targets ⟨options.primitiveStart⟩ g.aliases operations with
  | .error fault =>
    { g with
      failures := g.failures ++
        [⟨r.source, r.target.text, fault.message r.target.text, r.sourceFile⟩] }
  | .ok targets => targets.foldl (linkBy suggest r) g

/-- **The graph of the blocks of files**, where `suggest` finds what may be meant by an id without a
node. -/
def buildBy (suggest : Graph → String → Option String) (options : GraphOptions)
    (blocks : List (String × SchemaBlock)) : ReferenceGraph :=
  (references (declared blocks)).foldl
    (followBy suggest options (NodeStage.ofDeclared (declared blocks)).operations) (staged blocks)

/-- The search of a build: none if no suggestions are wanted. -/
def searching (score : Scoring) (order : NodeOrder) (options : GraphOptions) (g : Graph)
    (target : String) : Option String :=
  if options.suggestSimilar then suggestIn score target (order g target) else none

/-- The search of a build finds the same in any order of the nodes. -/
theorem searching_eq_of_perm (score : Scoring) {order : NodeOrder}
    (h : ∀ g target, (order g target).Perm g.nodes) (options : GraphOptions) :
    searching score order options = searching score (fun g _ => g.nodes) options := by
  funext g target
  rw [searching, searching, suggestIn_eq_of_perm (h g target)]

/-- **With the score and the order of the graph this is the build of the library.** -/
theorem buildBy_eq_build (options : GraphOptions) (blocks : List (String × SchemaBlock)) :
    buildBy (searching Similarity.score (fun g _ => g.nodes) options) options blocks =
      build options blocks := by
  have hlink : linkBy (searching Similarity.score (fun g _ => g.nodes) options) =
      link options.suggestSimilar := by
    funext r g target
    rw [linkBy, searching, ← Graph.suggestion?_eq_suggestIn]
    rfl
  have hfollow : followBy (searching Similarity.score (fun g _ => g.nodes) options) options =
      follow options := by
    funext operations g r
    rw [followBy, hlink]
    rfl
  rw [buildBy, hfollow]
  rfl

/-- **A graph on the way of a build**: no node has been made, and the suggestion of each report was
found among the nodes for an id without one. -/
structure Searched (suggest : Graph → String → Option String) (made : List Node)
    (g : ReferenceGraph) : Prop where
  /-- No node was made. -/
  nodes : g.nodes = made
  /-- A report is about an id without a node. -/
  missing : ∀ u ∈ g.unresolved, u.target ∉ g.ids
  /-- A report has the suggestion that was found. -/
  suggested : ∀ u ∈ g.unresolved, ∃ h : Graph, h.nodes = made ∧ u.suggestion = suggest h u.target

namespace Searched

variable {suggest : Graph → String → Option String} {made : List Node} {g : ReferenceGraph}

/-- A reference is followed to one id. -/
theorem link (h : Searched suggest made g) (r : Reference) (target : String) :
    Searched suggest made (linkBy suggest r g target) := by
  unfold linkBy
  split
  · -- an edge changes neither the nodes nor the reports
    have hnodes := Graph.nodes_addEdge g.toGraph ⟨r.source, target, r.kind⟩
    refine ⟨hnodes.trans h.nodes, fun u hu => ?_, h.suggested⟩
    rw [Graph.ids, hnodes]
    exact h.missing u hu
  · next hnode =>
    refine ⟨h.nodes, fun u hu => ?_, fun u hu => ?_⟩
    · rcases List.mem_append.mp hu with hu | hu
      · exact h.missing u hu
      · obtain rfl := List.mem_singleton.mp hu
        exact fun hid => hnode (Graph.hasNode_iff.mpr hid)
    · rcases List.mem_append.mp hu with hu | hu
      · exact h.suggested u hu
      · obtain rfl := List.mem_singleton.mp hu
        exact ⟨g.toGraph, h.nodes, rfl⟩

/-- A reference is followed. -/
theorem follow (h : Searched suggest made g) (options : GraphOptions)
    (operations : Index String String) (r : Reference) :
    Searched suggest made (followBy suggest options operations g r) := by
  unfold followBy
  split
  · exact ⟨h.nodes, h.missing, h.suggested⟩
  · next targets _ =>
    clear * - h
    induction targets generalizing g with
    | nil => exact h
    | cons target targets ih => exact ih (h.link r target)

/-- All references are followed. -/
theorem follows (h : Searched suggest made g) (options : GraphOptions)
    (operations : Index String String) (rs : List Reference) :
    Searched suggest made (rs.foldl (followBy suggest options operations) g) := by
  induction rs generalizing g with
  | nil => exact h
  | cons r rs ih => exact ih (h.follow options operations r)

end Searched

/-- **Every suggestion of a finished graph was found among its nodes.** -/
theorem searched_buildBy (suggest : Graph → String → Option String) (options : GraphOptions)
    (blocks : List (String × SchemaBlock)) :
    Searched suggest (staged blocks).nodes (buildBy suggest options blocks) := by
  have hstart : Searched suggest (staged blocks).nodes (staged blocks) := by
    refine ⟨rfl, fun u hu => ?_, fun u hu => ?_⟩ <;> exact absurd hu List.not_mem_nil
  exact hstart.follows options _ _

/-! ## The best match -/

/-- **The answer is the best match**: nothing if no element has a score, and otherwise the least id
of those with the greatest score. -/
structure IsBestMatch (score : Scoring) (g : Graph) (target : String) (answer : Option String) :
    Prop where
  /-- There is no answer just when no element has a score. -/
  none_iff : answer = none ↔ ∀ n ∈ g.nodes, n.kind.isPart = false → score n.id target = none
  /-- The answer is an element whose score no other exceeds, and no element with a lesser id has
  that score. -/
  some_iff : ∀ id, answer = some id ↔ ∃ n ∈ g.nodes, n.id = id ∧ n.kind.isPart = false ∧
    ∃ best, score id target = some best ∧
      ∀ m ∈ g.nodes, m.kind.isPart = false → ∀ s, score m.id target = some s →
        s ≤ best ∧ (s = best → id ≤ m.id)

/-- **The best match is found** whatever the score, in whatever order the nodes are gone through. -/
structure SuggestsBest (score : Scoring) (order : NodeOrder) : Prop where
  /-- Of every graph and every id, the search finds the best match. -/
  best : ∀ g target, IsBestMatch score g target (suggestIn score target (order g target))
  /-- It finds what it finds in the order of the graph. -/
  sameAnswer : ∀ g target,
    suggestIn score target (order g target) = suggestIn score target g.nodes
  /-- Every suggestion of a report is the id of an element, and not the id that was sought. -/
  reports : ∀ options blocks,
    ∀ u ∈ (buildBy (searching score order options) options blocks).unresolved,
      ∀ id, u.suggestion = some id →
        (∃ n ∈ (buildBy (searching score order options) options blocks).nodes,
          n.id = id ∧ n.kind.isPart = false) ∧ id ≠ u.target
  /-- The graph and its reports are the same as in the order of the graph. -/
  sameBuild : ∀ options blocks, buildBy (searching score order options) options blocks =
    buildBy (searching score (fun g _ => g.nodes) options) options blocks
  /-- With the score of the library this is the build of the library. -/
  library : ∀ options blocks,
    buildBy (searching Similarity.score order options) options blocks = build options blocks

theorem isBestMatch_suggestIn (score : Scoring) {g : Graph} {listing : List Node}
    (h : listing.Perm g.nodes) (target : String) :
    IsBestMatch score g target (suggestIn score target listing) where
  none_iff := by
    rw [suggestIn_eq_of_perm h, suggestIn_eq_none_iff, List.eq_nil_iff_forall_not_mem]
    constructor
    · intro hnone n hn hpart
      refine Option.eq_none_iff_forall_ne_some.mpr fun s hs => ?_
      exact hnone (n.id, s) (mem_fitting_iff.mpr ⟨n, hn, rfl, hpart, hs⟩)
    · rintro hnone ⟨id, s⟩ hmem
      obtain ⟨n, hn, rfl, hpart, hs⟩ := mem_fitting_iff.mp hmem
      exact Option.some_ne_none s (hs.symm.trans (hnone n hn hpart))
  some_iff := by
    intro id
    rw [suggestIn_eq_of_perm h, suggestIn_eq_some_iff]
    constructor
    · rintro ⟨best, hbest⟩
      obtain ⟨n, hn, hid, hpart, hs⟩ := mem_fitting_iff.mp hbest.mem
      refine ⟨n, hn, hid, hpart, best, hs, fun m hm hmpart s hms => ?_⟩
      have hfits := mem_fitting_iff.mpr ⟨m, hm, rfl, hmpart, hms⟩
      rcases hbest.outranks _ hfits with hlt | ⟨heq, hle⟩
      · exact ⟨hlt.le, fun e => absurd e hlt.ne⟩
      · exact ⟨heq.le, fun _ => hle⟩
    · rintro ⟨n, hn, hid, hpart, best, hs, hgreatest⟩
      refine ⟨best, mem_fitting_iff.mpr ⟨n, hn, hid, hpart, hs⟩, ?_⟩
      rintro ⟨id', s⟩ hmem
      obtain ⟨m, hm, rfl, hmpart, hms⟩ := mem_fitting_iff.mp hmem
      obtain ⟨hle, hleast⟩ := hgreatest m hm hmpart s hms
      exact hle.lt_or_eq.imp_right fun heq => ⟨heq, hleast heq⟩

/-- **The best match is suggested, whatever the order of the nodes.** -/
theorem suggestsBest_of_perm (score : Scoring) {order : NodeOrder}
    (h : ∀ g target, (order g target).Perm g.nodes) : SuggestsBest score order where
  best := fun g target => isBestMatch_suggestIn score (h g target) target
  sameAnswer := fun g target => suggestIn_eq_of_perm (h g target)
  reports := by
    intro options blocks u hu id hid
    have hsearched := searched_buildBy (searching score order options) options blocks
    obtain ⟨g, hg, hsuggestion⟩ := hsearched.suggested u hu
    rw [hid, searching] at hsuggestion
    -- a suggestion was made, so suggestions are wanted
    obtain ⟨-, hfound⟩ := Option.ite_none_right_eq_some.mp hsuggestion.symm
    obtain ⟨n, hn, rfl, hpart, -⟩ :=
      ((isBestMatch_suggestIn score (h g u.target) u.target).some_iff id).mp hfound
    rw [hg, ← hsearched.nodes] at hn
    refine ⟨⟨n, hn, rfl, hpart⟩, fun e => hsearched.missing u hu ?_⟩
    exact e ▸ List.mem_map_of_mem hn
  sameBuild := fun options blocks =>
    congrArg (fun search => buildBy search options blocks) (searching_eq_of_perm score h options)
  library := fun options blocks => by
    rw [searching_eq_of_perm Similarity.score h, buildBy_eq_build]

/-- Two elements fit the id of a missing type equally well, the greater one first. -/
def equallyFitting : List (String × SchemaBlock) :=
  [("a.xml", { SchemaBlock.bare (some "N") none with
    enumTypes := [⟨"Ac", none, false, [], []⟩, ⟨"Ab", none, false, [], []⟩]
    terms := [⟨"T", "N.A", none, [], []⟩] })]

/-- **The lesser one is suggested**, also if the nodes are gone through from the last one on. -/
theorem suggestsBest_equallyFitting :
    SuggestsBest Similarity.score (fun g _ => g.nodes.reverse) ∧
      Similarity.score "N.Ab" "N.A" = Similarity.score "N.Ac" "N.A" ∧
      (build .standard equallyFitting).unresolved.map (fun u => (u.target, u.suggestion)) =
        [("N.A", some "N.Ab")] :=
  ⟨suggestsBest_of_perm Similarity.score fun _ _ => List.reverse_perm _, by decide +kernel,
    by decide +kernel⟩

end ReferenceGraph

end CsdlAudit
