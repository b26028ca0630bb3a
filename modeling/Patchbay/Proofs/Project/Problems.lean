import Patchbay.Project.Problems
import Patchbay.Proofs.Patch.Interface

/-! When a project has no problems: the types of all nodes are there, and links join outputs to
inputs of the types that are there. -/

namespace Patchbay.Project

variable {project : Project} {patch : Patch} {node : Node} {link : Link} {direction : Direction}
  {endpoint : Endpoint}

/-- The type of a node is stored in the project, unless the node is a terminal. -/
def Knows (project : Project) (node : Node) : Prop :=
  node.isTerminal ∨ project.patches.contains node.type

/-- An end of a link meets a pin of the given direction, if its node has a type in the project. -/
def Meets (project : Project) (patch : Patch) (direction : Direction) (endpoint : Endpoint) :
    Prop :=
  ∀ node, patch.nodes.get? endpoint.node = some node →
    ∀ type, project.patches.get? node.type = some type → type.Offers endpoint.pin direction

/-- Nothing is wrong with a patch of the project. -/
structure Sound (project : Project) (patch : Patch) : Prop where
  nodes : ∀ id node, patch.nodes.get? id = some node → project.Knows node
  outputs : ∀ id link, patch.links.get? id = some link → project.Meets patch .output link.output
  inputs : ∀ id link, patch.links.get? id = some link → project.Meets patch .input link.input

theorem nodeProblem?_eq_none_iff : project.nodeProblem? node = none ↔ project.Knows node := by
  unfold nodeProblem? Knows
  cases node.isTerminal <;> cases project.patches.contains node.type <;> simp

theorem endpointProblem?_eq_none_iff :
    project.endpointProblem? patch link direction endpoint = none ↔
      project.Meets patch direction endpoint := by
  unfold endpointProblem? Meets
  cases hnode : patch.nodes.get? endpoint.node with
  | none => simp
  | some node =>
    cases htype : project.patches.get? node.type with
    | none => simp [htype]
    | some type =>
      cases hpin : type.pin? endpoint.pin with
      | none => simp [htype, hpin, Patch.Offers]
      | some pin =>
        by_cases hdirection : pin.direction = direction <;>
          simp [htype, hpin, hdirection, Patch.Offers]

theorem linkProblems_eq_nil_iff :
    project.linkProblems patch link = [] ↔
      project.Meets patch .output link.output ∧ project.Meets patch .input link.input := by
  simp only [linkProblems, List.append_eq_nil_iff, Option.toList_eq_nil_iff,
    endpointProblem?_eq_none_iff]

theorem patchProblems_eq_nil_iff : project.patchProblems patch = [] ↔ project.Sound patch := by
  simp only [patchProblems, List.append_eq_nil_iff, List.filterMap_eq_nil_iff,
    List.flatMap_eq_nil_iff, OrderedMap.mem_values_iff, nodeProblem?_eq_none_iff,
    linkProblems_eq_nil_iff, forall_exists_index]
  constructor
  · rintro ⟨hnodes, hlinks⟩
    exact ⟨fun id node => hnodes node id, fun id link h => (hlinks link id h).1,
      fun id link h => (hlinks link id h).2⟩
  · intro h
    exact ⟨fun node id => h.nodes id node, fun link id hlink =>
      ⟨h.outputs id link hlink, h.inputs id link hlink⟩⟩

/-- A project has no problems exactly when nothing is wrong with any of its patches. -/
theorem problems_eq_nil_iff :
    project.problems = [] ↔
      ∀ path patch, project.patches.get? path = some patch → project.Sound patch := by
  simp only [problems, List.flatMap_eq_nil_iff, OrderedMap.mem_values_iff, patchProblems_eq_nil_iff,
    forall_exists_index]
  exact ⟨fun h path patch => h patch path, fun h patch path => h path patch⟩

/-! ### Larger projects -/

/-- In place of every patch there is one with the same pins, and no type of terminals is new. -/
structure Extends (after before : Project) : Prop where
  kept : ∀ path known, before.patches.get? path = some known →
    ∃ next, after.patches.get? path = some next ∧ known.OffersAlike next
  terminals : ∀ path, path.terminal?.isSome → after.patches.contains path →
    before.patches.contains path

namespace Extends

variable {after before : Project} (h : after.Extends before)
include h

theorem knows (hknows : before.Knows node) : after.Knows node := by
  refine hknows.imp_right fun hcontains => ?_
  obtain ⟨known, hknown⟩ := OrderedMap.contains_iff.1 hcontains
  obtain ⟨next, hnext, _⟩ := h.kept _ known hknown
  exact OrderedMap.contains_iff.2 ⟨next, hnext⟩

/-- An end of a link that met a pin still does, in a patch where its node has kept its type. -/
theorem meets {next : Patch} (hmeets : before.Meets patch direction endpoint)
    (hnode : ∀ node, next.nodes.get? endpoint.node = some node →
      ∃ old, patch.nodes.get? endpoint.node = some old ∧ old.type = node.type ∧
        before.Knows old) :
    after.Meets next direction endpoint := by
  intro node hnext type htype
  obtain ⟨old, hold, hsame, hknows⟩ := hnode node hnext
  rw [← hsame] at htype
  have hcontains : before.patches.contains old.type :=
    hknows.elim (fun hterminal => h.terminals _ hterminal (OrderedMap.contains_iff.2 ⟨type, htype⟩))
      id
  obtain ⟨known, hknown⟩ := OrderedMap.contains_iff.1 hcontains
  obtain ⟨other, hother, halike⟩ := h.kept _ known hknown
  cases htype.symm.trans hother
  exact (halike _ _).1 (hmeets old hold known hknown)

theorem sound (hsound : before.Sound patch) : after.Sound patch := by
  have hmeets : ∀ {direction endpoint}, before.Meets patch direction endpoint →
      after.Meets patch direction endpoint := fun hold =>
    h.meets hold fun node hnode => ⟨node, hnode, rfl, hsound.nodes _ node hnode⟩
  exact ⟨fun id node hnode => h.knows (hsound.nodes id node hnode),
    fun id link hlink => hmeets (hsound.outputs id link hlink),
    fun id link hlink => hmeets (hsound.inputs id link hlink)⟩

end Extends

end Patchbay.Project
