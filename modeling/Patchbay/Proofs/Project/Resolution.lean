import Patchbay.Proofs.Project.Problems
import Patchbay.Proofs.Project.Reachable

/-! The problems of a project against the queries that follow a node to its type: a project has the
problems that resolving the pins at the ends of its links tells, in the order of its patches, nodes
and links, and no others. -/

namespace Patchbay.Project

variable {project : Project} {path : PatchPath} {patch : Patch} {direction : Direction}
  {endpoint : Endpoint}

/-! ### What the queries tell -/

/-- What resolving the pin at an end of a link tells against the link: that there is no such pin, or
that it has the other direction. A query that does not get as far as the pins tells nothing. -/
def endFault? (project : Project) (path : PatchPath) (link : LinkId) (direction : Direction)
    (endpoint : Endpoint) : Option ProjectError :=
  match project.resolvePin path endpoint.node endpoint.pin with
  | .ok pin =>
    if pin.direction = direction then none
    else some (.directionMismatch path link endpoint.pin)
  | .error (.pinNotFound type pin) => some (.lookup (.pinNotFound type pin))
  | .error _ => none

/-- The faults at the two ends of a link, at its output first. -/
def linkFaults (project : Project) (path : PatchPath) (id : LinkId) (link : Link) :
    List ProjectError :=
  (project.endFault? path id .output link.output).toList ++
    (project.endFault? path id .input link.input).toList

/-- The types of nodes that are no terminals and not stored in the project, one for each node. -/
def missingTypes (project : Project) (patch : Patch) : List PatchPath :=
  (patch.nodes.values.filter fun node =>
    !node.isTerminal && !project.patches.contains node.type).map Node.type

/-- The faults of all patches: of each its missing types, then the faults of its links. -/
def faults (project : Project) : List ProjectError :=
  project.patches.toList.flatMap fun (path, patch) =>
    (project.missingTypes patch).map (.lookup <| .patchNotFound ·) ++
      patch.links.toList.flatMap fun (id, link) => project.linkFaults path id link

/-- An end of a link is resolved, unless the type of its node is not stored: the query finds its
pin, and with the given direction. -/
def Resolves (project : Project) (path : PatchPath) (patch : Patch) (direction : Direction)
    (endpoint : Endpoint) : Prop :=
  ∀ node, patch.nodes.get? endpoint.node = some node → project.patches.contains node.type →
    ∃ pin, project.resolvePin path endpoint.node endpoint.pin = .ok pin ∧ pin.direction = direction

/-- The types of a patch's nodes are stored, and the ends of its links are resolved. -/
structure Resolved (project : Project) (path : PatchPath) (patch : Patch) : Prop where
  types : ∀ id node, patch.nodes.get? id = some node → ¬ node.isTerminal →
    project.patches.contains node.type
  outputs : ∀ id link, patch.links.get? id = some link →
    project.Resolves path patch .output link.output
  inputs : ∀ id link, patch.links.get? id = some link →
    project.Resolves path patch .input link.input

/-! ### Resolving a pin -/

theorem require_eq : project.require path =
    match project.patches.get? path with
    | some patch => .ok patch
    | none => .error (.patchNotFound path) := rfl

/-- A pin of a stored node is looked up on the patch at the node's type. -/
theorem resolvePin_eq {id : NodeId} {node : Node} (hpatch : project.patches.get? path = some patch)
    (hnode : patch.nodes.get? id = some node) (key : PinKey) :
    project.resolvePin path id key =
      match project.patches.get? node.type with
      | some type => match type.pin? key with
        | some pin => .ok pin
        | none => .error (.pinNotFound type.path key)
      | none => .error (.patchNotFound node.type) := by
  have htype : project.resolveType path id = project.require node.type := by
    rw [resolveType, require_eq, hpatch, Outcome.ok_bind, Patch.requireNode, hnode,
      Outcome.ok_bind]
  rw [resolvePin, htype, require_eq]
  cases project.patches.get? node.type <;> rfl

/-- The check of an end of a link finds what resolving its pin tells. -/
theorem endpointProblem?_eq {link : Link} (hpatch : project.patches.get? path = some patch)
    (hpath : patch.path = path) :
    project.endpointProblem? patch link direction endpoint =
      project.endFault? path link.id direction endpoint := by
  unfold endpointProblem? endFault?
  cases hnode : patch.nodes.get? endpoint.node with
  | none =>
    have hmissing : project.resolvePin path endpoint.node endpoint.pin =
        .error (.nodeNotFound patch.path endpoint.node) := by
      rw [resolvePin, resolveType, require_eq, hpatch, Outcome.ok_bind, Patch.requireNode, hnode]
      rfl
    rw [hmissing]
    rfl
  | some node =>
    rw [resolvePin_eq hpatch hnode, hpath]
    cases htype : project.patches.get? node.type with
    | none => simp [htype]
    | some type => cases hpin : type.pin? endpoint.pin <;> simp [htype, hpin]

theorem endFault?_eq_none_iff {id : LinkId} (hpatch : project.patches.get? path = some patch)
    (hstored : patch.nodes.contains endpoint.node) :
    project.endFault? path id direction endpoint = none ↔
      project.Resolves path patch direction endpoint := by
  obtain ⟨node, hnode⟩ := OrderedMap.contains_iff.1 hstored
  unfold endFault? Resolves
  rw [resolvePin_eq hpatch hnode, hnode]
  cases htype : project.patches.get? node.type with
  | none => simp [OrderedMap.contains, htype]
  | some type => cases hpin : type.pin? endpoint.pin <;> simp [OrderedMap.contains, htype, hpin]

/-! ### Whole projects -/

theorem nodeProblems_eq :
    patch.nodes.values.filterMap project.nodeProblem? =
      (project.missingTypes patch).map (.lookup <| .patchNotFound ·) := by
  unfold missingTypes
  induction patch.nodes.values with
  | nil => rfl
  | cons node nodes ih =>
    by_cases hmissing : !node.isTerminal && !project.patches.contains node.type <;>
      simp [nodeProblem?, hmissing, ih]

theorem linkProblems_eq (hpatch : project.patches.get? path = some patch)
    (hpath : patch.path = path) (link : Link) :
    project.linkProblems patch link = project.linkFaults path link.id link := by
  rw [linkProblems, linkFaults, endpointProblem?_eq hpatch hpath, endpointProblem?_eq hpatch hpath]

theorem problems_eq_faults (h : project.WellFormed) : project.problems = project.faults := by
  have hpatches : ∀ e ∈ project.patches.toList, project.patchProblems e.2 =
      (project.missingTypes e.2).map (.lookup <| .patchNotFound ·) ++
        e.2.links.toList.flatMap fun link => project.linkFaults e.1 link.1 link.2 := by
    rintro ⟨path, patch⟩ hmem
    have hpatch := OrderedMap.mem_toList_iff.1 hmem
    have hlinks : ∀ e ∈ patch.links.toList,
        project.linkProblems patch e.2 = project.linkFaults path e.1 e.2 := by
      rintro ⟨id, link⟩ hlink
      rw [linkProblems_eq hpatch (h.keyed path patch hpatch),
        (h.patches path patch hpatch).links_keyed id link (OrderedMap.mem_toList_iff.1 hlink)]
    rw [patchProblems, nodeProblems_eq, OrderedMap.values, List.flatMap_map,
      ← List.flatMap_congr hlinks]
    rfl
  rw [problems, OrderedMap.values, List.flatMap_map]
  exact List.flatMap_congr hpatches

theorem missingTypes_eq_nil_iff :
    project.missingTypes patch = [] ↔ ∀ id node, patch.nodes.get? id = some node →
      ¬ node.isTerminal → project.patches.contains node.type := by
  simp only [missingTypes, List.map_eq_nil_iff, List.filter_eq_nil_iff, OrderedMap.mem_values_iff,
    forall_exists_index, Bool.and_eq_true, Bool.not_eq_true', not_and, Bool.not_eq_false,
    Bool.not_eq_true]
  exact forall_comm

theorem linkFaults_eq_nil_iff {id : LinkId} {link : Link} (h : patch.WellFormed)
    (hpatch : project.patches.get? path = some patch) (hlink : patch.links.get? id = some link) :
    project.linkFaults path id link = [] ↔
      project.Resolves path patch .output link.output ∧
        project.Resolves path patch .input link.input := by
  have hattached := h.attached id link hlink
  rw [linkFaults, List.append_eq_nil_iff, Option.toList_eq_nil_iff, Option.toList_eq_nil_iff,
    endFault?_eq_none_iff hpatch hattached.2, endFault?_eq_none_iff hpatch hattached.1]

theorem faults_eq_nil_iff (h : project.WellFormed) :
    project.faults = [] ↔
      ∀ path patch, project.patches.get? path = some patch → project.Resolved path patch := by
  simp only [faults, List.flatMap_eq_nil_iff, Prod.forall, OrderedMap.mem_toList_iff,
    List.append_eq_nil_iff, List.map_eq_nil_iff, missingTypes_eq_nil_iff]
  refine forall_congr' fun path => forall_congr' fun patch => imp_congr_right fun hpatch => ?_
  have hwell := h.patches path patch hpatch
  constructor
  · rintro ⟨htypes, hlinks⟩
    have hends := fun id link hlink =>
      (linkFaults_eq_nil_iff hwell hpatch hlink).1 (hlinks id link hlink)
    exact ⟨htypes, fun id link hlink => (hends id link hlink).1,
      fun id link hlink => (hends id link hlink).2⟩
  · intro hresolved
    exact ⟨hresolved.types, fun id link hlink => (linkFaults_eq_nil_iff hwell hpatch hlink).2
      ⟨hresolved.outputs id link hlink, hresolved.inputs id link hlink⟩⟩

/-- A project is free of problems exactly if the types of its nodes are stored and the ends of its
links are resolved to pins of the right direction. Its problems are those that the queries tell,
patch by patch: first the types that are missing, then for each link the fault at its output and the
one at its input. -/
theorem problems_exact (h : project.Reachable) :
    (project.problems = [] ↔
      ∀ path patch, project.patches.get? path = some patch → project.Resolved path patch) ∧
      project.problems = project.faults := by
  have hlisted := problems_eq_faults h.wellFormed
  rw [hlisted]
  exact ⟨faults_eq_nil_iff h.wellFormed, rfl⟩

end Patchbay.Project

/-! ### A room with faults -/

namespace Patchbay.Lamps

def ghost : NodeId := ⟨"ghost", by decide⟩

def nowhere : PatchPath := ⟨"@/nowhere", by decide⟩

def off : PinKey := ⟨"off", by decide⟩

def back : LinkId := ⟨"back", by decide⟩

/-- The first link is right. The second is reversed at both ends, and the third runs from a node
without a type to a pin that lamps do not have. -/
def tangle : Patch :=
  .run { path := main } [
    .insertNode { id := switch, type := Constants.standard.boolean },
    .insertNode { id := first, type := lamp.path },
    .insertNode { id := ghost, type := nowhere },
    .insertLink { id := ⟨"right", by decide⟩, input := ⟨first, on⟩, output := ⟨switch, out⟩ },
    .insertLink { id := back, input := ⟨switch, out⟩, output := ⟨first, on⟩ },
    .insertLink { id := ⟨"stray", by decide⟩, input := ⟨first, off⟩, output := ⟨ghost, out⟩ }]

theorem problems_tangle :
    (shelf.store main tangle).faults =
      [.lookup (.patchNotFound nowhere), .directionMismatch main back on,
        .directionMismatch main back out, .lookup (.pinNotFound lamp.path off)] ∧
    (shelf.store main tangle).problems = (shelf.store main tangle).faults ∧
    ¬ ∀ path patch, (shelf.store main tangle).patches.get? path = some patch →
      (shelf.store main tangle).Resolved path patch := by
  have hreachable : (shelf.store main tangle).Reachable :=
    .stored main reachable_shelf (Patch.Reachable.run (.newPatch main) _)
  obtain ⟨hvalid, hlisted⟩ := Project.problems_exact hreachable
  have hfaults : (shelf.store main tangle).faults =
      [.lookup (.patchNotFound nowhere), .directionMismatch main back on,
        .directionMismatch main back out, .lookup (.pinNotFound lamp.path off)] := by
    decide +kernel
  refine ⟨hfaults, hlisted, fun hresolved => ?_⟩
  rw [← hlisted, hvalid.2 hresolved] at hfaults
  exact nomatch hfaults

end Patchbay.Lamps
