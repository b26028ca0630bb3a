import Patchbay.Proofs.Patch.Building
import Patchbay.Proofs.Project.Reachable

/-! Loading documents: a document is accepted exactly when the patches that it writes down are
well-formed, and then the project holds these patches and nothing else. -/

namespace Patchbay

/-- The patch that a document writes down, whether well-formed or not. -/
def PatchDocument.verbatim (document : PatchDocument) (path : PatchPath) : Patch :=
  { path, label := document.label, nodes := document.nodes, links := document.links
    pins := document.pins, impls := document.impls }

/-- The project that a document writes down. -/
def ProjectDocument.verbatim (document : ProjectDocument) : Project :=
  { patches := document.patches.map fun path stored => stored.verbatim path
    authors := document.authors }

namespace PatchDocument

variable {document : PatchDocument} {path : PatchPath} {patch : Patch}

theorem checkKeys_eq_ok_iff {κ α : Type} [TextKey κ] {embedded : α → String}
    {entries : OrderedMap κ α} :
    checkKeys embedded entries = .ok () ↔
      ∀ key value, entries.get? key = some value → embedded value = text key := by
  unfold checkKeys
  split
  · rename_i key value hfound
    have hget := OrderedMap.mem_toList_iff.1 (List.mem_of_find?_eq_some hfound)
    have hdiffer : text key ≠ embedded value := by simpa using List.find?_some hfound
    simp only [reduceCtorEq, false_iff]
    exact fun h => hdiffer (h key value hget).symm
  · rename_i hnone
    simp only [true_iff]
    intro key value hget
    have hsame := List.find?_eq_none.1 hnone (key, value) (OrderedMap.mem_toList_iff.2 hget)
    have hequal : text key = embedded value := by simpa using hsame
    exact hequal.symm

/-! ### Patches -/

/-- Whatever is built from a document is what the document writes down. -/
theorem eq_verbatim_of_toPatch (h : document.toPatch path = .ok patch) :
    patch = document.verbatim path := by
  obtain ⟨_, hnodesKeyed, h⟩ := Outcome.bind_eq_ok.1 h
  obtain ⟨_, hlinksKeyed, h⟩ := Outcome.bind_eq_ok.1 h
  obtain ⟨_, hpinsKeyed, h⟩ := Outcome.bind_eq_ok.1 h
  rw [Outcome.ok_of_mapError] at hnodesKeyed hlinksKeyed hpinsKeyed h
  rw [checkKeys_eq_ok_iff] at hnodesKeyed hlinksKeyed hpinsKeyed
  obtain ⟨withNodes, hnodes, h⟩ := Outcome.bind_eq_ok.1 h
  obtain ⟨withPins, hpins, hlinks⟩ := Outcome.bind_eq_ok.1 h
  obtain rfl := Patch.foldlM_insertNode_eq_ok hnodes
  obtain rfl := Patch.foldlM_insertPin_eq_ok hpins
  obtain rfl := Patch.foldlM_insertLink_eq_ok hlinks
  simp only [verbatim]
  rw [OrderedMap.foldl_insert_values_eq fun id node hnode => text_inj.1 (hnodesKeyed id node hnode),
    OrderedMap.foldl_insert_values_eq fun id link hlink => text_inj.1 (hlinksKeyed id link hlink),
    OrderedMap.foldl_insert_values_eq fun key pin hpin => text_inj.1 (hpinsKeyed key pin hpin)]

/-- A document of a well-formed patch meets no error on the way. -/
theorem exists_toPatch (h : (document.verbatim path).WellFormed) :
    ∃ patch, document.toPatch path = .ok patch := by
  obtain ⟨withNodes, hnodes⟩ : ∃ withNodes, document.nodes.values.foldlM Patch.insertNode
      { path, label := document.label, impls := document.impls } = .ok withNodes :=
    Patch.exists_insertNodes (fun _ _ _ => rfl) fun _ _ _ _ _ => Patch.not_isLinked_of_empty rfl _
  have hnodesSame : withNodes.nodes = document.nodes := by
    rw [Patch.foldlM_insertNode_eq_ok hnodes]
    exact OrderedMap.foldl_insert_values_eq h.nodes_keyed
  have hnodesOnly : withNodes.pins = .empty ∧ withNodes.links = .empty := by
    rw [Patch.foldlM_insertNode_eq_ok hnodes]
    exact ⟨rfl, rfl⟩
  have hterminal : ∀ pin ∈ document.pins.values, ∀ node,
      withNodes.nodes.get? pin.key.toNodeId = some node → ¬ node.isTerminal := by
    intro pin hpin node hnode hisTerminal
    rw [hnodesSame] at hnode
    have hstored := OrderedMap.get?_of_mem_values h.pins_keyed hpin
    exact h.distinct pin.key pin pin.key.toNodeId node hstored hnode hisTerminal rfl
  obtain ⟨withPins, hpins⟩ := Patch.exists_insertPins hnodesOnly.1 hterminal
    (OrderedMap.pairwise_values h.pins_keyed)
  have hpinsOnly : withPins.nodes = document.nodes ∧ withPins.links = .empty := by
    rw [Patch.foldlM_insertPin_eq_ok hpins]
    exact ⟨hnodesSame, hnodesOnly.2⟩
  have hattachable : ∀ link ∈ document.links.values, withPins.Attachable link := by
    intro link hlink
    have hstored := h.attachable (OrderedMap.get?_of_mem_values h.links_keyed hlink)
    exact hstored.congr hpinsOnly.1
  have hdiffer : ∀ link ∈ document.links.values, ∀ other ∈ document.links.values,
      link.id ≠ other.id → link.input ≠ other.input := by
    intro link hlink other hother
    exact h.single link.id other.id link other (OrderedMap.get?_of_mem_values h.links_keyed hlink)
      (OrderedMap.get?_of_mem_values h.links_keyed hother)
  obtain ⟨patch, hlinks⟩ := Patch.exists_insertLinks hattachable
    (fun _ _ => Patch.not_isLinked_of_empty hpinsOnly.2 _) hdiffer
  have hkeys : checkKeys (·.id.text) document.nodes = .ok () ∧
      checkKeys (·.id.text) document.links = .ok () ∧
      checkKeys (·.key.text) document.pins = .ok () :=
    ⟨checkKeys_eq_ok_iff.2 fun id node hnode => congrArg text (h.nodes_keyed id node hnode),
      checkKeys_eq_ok_iff.2 fun id link hlink => congrArg text (h.links_keyed id link hlink),
      checkKeys_eq_ok_iff.2 fun key pin hpin => congrArg text (h.pins_keyed key pin hpin)⟩
  refine ⟨patch, ?_⟩
  rw [toPatch, hkeys.1, hkeys.2.1, hkeys.2.2]
  exact Outcome.ok_of_mapError.2
    (Outcome.bind_eq_ok.2 ⟨withNodes, hnodes, Outcome.bind_eq_ok.2 ⟨withPins, hpins, hlinks⟩⟩)

theorem toPatch_eq_ok_iff :
    document.toPatch path = .ok patch ↔
      (document.verbatim path).WellFormed ∧ patch = document.verbatim path := by
  constructor
  · intro h
    -- what the mutators have built is well-formed, and it is what the document says
    obtain rfl := eq_verbatim_of_toPatch h
    exact ⟨wellFormed_of_toPatch h, rfl⟩
  · rintro ⟨hwell, rfl⟩
    obtain ⟨patch, hpatch⟩ := exists_toPatch hwell
    rwa [eq_verbatim_of_toPatch hpatch] at hpatch

end PatchDocument

/-! ### Projects -/

namespace ProjectDocument

variable {document : ProjectDocument} {project : Project}

theorem foldlM_store_eq_ok_iff {entries : List (PatchPath × PatchDocument)} {before : Project} :
    entries.foldlM (fun project e => do
        return project.store e.1 (← e.2.toPatch e.1)) before = .ok project ↔
      (∀ e ∈ entries, (e.2.verbatim e.1).WellFormed) ∧
      project = ⟨entries.foldl (fun m e => m.insert e.1 (e.2.verbatim e.1)) before.patches,
        before.authors⟩ := by
  induction entries generalizing before with
  | nil =>
    refine ⟨fun h => ⟨nofun, ?_⟩, fun h => congrArg _ h.2.symm⟩
    cases h
    rfl
  | cons e entries ih =>
    rw [Outcome.foldlM_cons_eq_ok, List.forall_mem_cons, List.foldl_cons]
    constructor
    · rintro ⟨next, hnext, hrest⟩
      obtain ⟨patch, hpatch, hstored⟩ := Outcome.bind_eq_ok.1 hnext
      obtain ⟨hwell, rfl⟩ := PatchDocument.toPatch_eq_ok_iff.1 hpatch
      cases hstored
      obtain ⟨hall, hproject⟩ := ih.1 hrest
      exact ⟨⟨hwell, hall⟩, hproject⟩
    · rintro ⟨⟨hwell, hall⟩, hproject⟩
      have hpatch := PatchDocument.toPatch_eq_ok_iff.2 ⟨hwell, rfl⟩
      exact ⟨_, Outcome.bind_eq_ok.2 ⟨_, hpatch, rfl⟩, ih.2 ⟨hall, hproject⟩⟩

theorem toProject_eq_ok_iff :
    document.toProject = .ok project ↔
      (∀ path stored, document.patches.get? path = some stored →
        (stored.verbatim path).WellFormed) ∧
      project = document.verbatim := by
  have hstored := OrderedMap.foldl_insert_toList_eq document.patches
    fun path stored => stored.verbatim path
  refine foldlM_store_eq_ok_iff.trans ?_
  rw [hstored]
  simp only [Prod.forall, OrderedMap.mem_toList_iff]
  rfl

theorem get?_document_eq_some {path : PatchPath} {stored : PatchDocument} :
    project.document.patches.get? path = some stored ↔
      ∃ patch, project.patches.get? path = some patch ∧ patch.document = stored := by
  rw [Project.document, OrderedMap.get?_map, Option.map_eq_some_iff]

theorem toProject_document (h : project.WellFormed) :
    project.document.toProject = .ok project := by
  have hverbatim : ∀ path patch, project.patches.get? path = some patch →
      patch.document.verbatim path = patch := by
    intro path patch hpatch
    rw [← h.keyed path patch hpatch]
    rfl
  refine toProject_eq_ok_iff.2 ⟨?_, ?_⟩
  · intro path stored hstored
    obtain ⟨patch, hpatch, rfl⟩ := get?_document_eq_some.1 hstored
    rw [hverbatim path patch hpatch]
    exact h.patches path patch hpatch
  · have hpatches : project.document.verbatim.patches = project.patches := by
      apply OrderedMap.ext
      intro path
      rw [verbatim, Project.document, OrderedMap.get?_map, OrderedMap.get?_map]
      cases hpatch : project.patches.get? path with
      | none => rfl
      | some patch => exact congrArg some (hverbatim path patch hpatch)
    exact congrArg (Project.mk · project.authors) hpatches.symm

/-- A document is accepted exactly when every patch that it writes down is well-formed, and then
the project has its authors and, at its paths, these patches as they are written. -/
theorem loads_exactly_wellFormed (document : ProjectDocument) :
    ((∃ project, document.toProject = .ok project) ↔
      ∀ path stored, document.patches.get? path = some stored →
        (stored.verbatim path).WellFormed) ∧
    ∀ project, document.toProject = .ok project →
      project.authors = document.authors ∧
        ∀ path, project.patches.get? path =
          (document.patches.get? path).map fun stored => stored.verbatim path := by
  refine ⟨⟨?_, fun h => ⟨_, toProject_eq_ok_iff.2 ⟨h, rfl⟩⟩⟩, ?_⟩
  · rintro ⟨project, hproject⟩
    exact (toProject_eq_ok_iff.1 hproject).1
  · intro project hproject
    obtain ⟨_, rfl⟩ := toProject_eq_ok_iff.1 hproject
    exact ⟨rfl, fun path => OrderedMap.get?_map ..⟩

end ProjectDocument

namespace Lamps

/-- A link from the switch to a lamp that has a literal. -/
def crossing : Link :=
  { id := ⟨"crossing", by decide⟩, input := ⟨first, on⟩, output := ⟨switch, out⟩ }

def crossedRoom : PatchDocument :=
  { room.document with links := room.links.insert crossing.id crossing }

end Lamps

open Lamps in
/-- The lamps load as they are; with the crossing they are refused. -/
theorem loads_lamps :
    (∃ loaded, project.document.toProject = .ok loaded ∧ loaded.patches.get? main = some room) ∧
    ¬ ∃ loaded, ProjectDocument.toProject { patches := .ofList [(main, crossedRoom)] } =
      .ok loaded := by
  constructor
  · have hproject := ProjectDocument.toProject_document reachable_project.wellFormed
    obtain ⟨_, hpatches⟩ :=
      (ProjectDocument.loads_exactly_wellFormed project.document).2 project hproject
    refine ⟨project, hproject, ?_⟩
    rw [hpatches main]
    decide +kernel
  · rw [(ProjectDocument.loads_exactly_wellFormed _).1]
    intro h
    have hbound : room.isBound crossing.input = true := by decide +kernel
    obtain ⟨lamp, hlamp, hlit⟩ := (Option.any_eq_true _ _).1 hbound
    have hcrossed := h main crossedRoom (by decide +kernel)
    have hfree := hcrossed.unbound crossing.id crossing lamp (by decide +kernel) hlamp
    simp [Node.isBound, OrderedMap.contains, hfree] at hlit

end Patchbay
