import Patchbay.Document.Project
import Patchbay.Proofs.Bundle.Steps
import Patchbay.Proofs.Patch.WellFormed

/-! Well-formed projects: every patch is well-formed and stored under its own path. Storing and
removing patches, loading a document and migrating a bundle all end in well-formed projects. -/

namespace Patchbay

/-- The patches of the project are well-formed, and each is stored under its own path. -/
structure Project.WellFormed (project : Project) : Prop where
  keyed : ∀ path patch, project.patches.get? path = some patch → patch.path = path
  patches : ∀ path patch, project.patches.get? path = some patch → patch.WellFormed

namespace Project

variable {project after : Project}

theorem wellFormed_new (authors : List String) : WellFormed { authors } := by
  constructor <;> intros <;> contradiction

theorem WellFormed.store {patch : Patch} (h : project.WellFormed) (hpatch : patch.WellFormed)
    (path : PatchPath) : (project.store path patch).WellFormed := by
  constructor
  · intro other found hfound
    rcases OrderedMap.get?_insert_eq_some.1 hfound with ⟨rfl, rfl⟩ | ⟨_, hold⟩
    · rfl
    · exact h.keyed other found hold
  · intro other found hfound
    rcases OrderedMap.get?_insert_eq_some.1 hfound with ⟨rfl, rfl⟩ | ⟨_, hold⟩
    · exact hpatch.retitle other patch.label patch.impls
    · exact h.patches other found hold

theorem WellFormed.add {patch : Patch} (h : project.WellFormed) (hpatch : patch.WellFormed)
    (hafter : project.add patch = .ok after) : after.WellFormed := by
  unfold Project.add at hafter
  split at hafter
  · exact nomatch hafter
  · cases hafter
    exact h.store hpatch patch.path

theorem WellFormed.remove (h : project.WellFormed) (path : PatchPath) :
    (project.remove path).WellFormed :=
  ⟨fun other patch hpatch => h.keyed other patch (OrderedMap.get?_erase_eq_some.1 hpatch).2,
    fun other patch hpatch => h.patches other patch (OrderedMap.get?_erase_eq_some.1 hpatch).2⟩

theorem WellFormed.addAuthor (h : project.WellFormed) (author : String) :
    (project.addAuthor author).WellFormed :=
  ⟨h.keyed, h.patches⟩

end Project

/-! ### Documents -/

theorem PatchDocument.wellFormed_of_toPatch {document : PatchDocument} {path : PatchPath}
    {patch : Patch} (h : document.toPatch path = .ok patch) : patch.WellFormed := by
  obtain ⟨_, _, h⟩ := Outcome.bind_eq_ok.1 h
  obtain ⟨_, _, h⟩ := Outcome.bind_eq_ok.1 h
  obtain ⟨_, _, h⟩ := Outcome.bind_eq_ok.1 h
  rw [Outcome.ok_of_mapError] at h
  obtain ⟨withNodes, hnodes, h⟩ := Outcome.bind_eq_ok.1 h
  obtain ⟨withPins, hpins, hlinks⟩ := Outcome.bind_eq_ok.1 h
  have hnew : Patch.WellFormed { path, label := document.label, impls := document.impls } :=
    (Patch.wellFormed_new path).retitle path document.label document.impls
  have hwithNodes : withNodes.WellFormed :=
    Outcome.foldlM_keeps (fun _ _ _ _ hp => hp.insertNode) hnew hnodes
  have hwithPins : withPins.WellFormed :=
    Outcome.foldlM_keeps (fun _ _ _ _ hp => hp.insertPin) hwithNodes hpins
  exact Outcome.foldlM_keeps (fun _ _ _ _ hp => hp.insertLink) hwithPins hlinks

theorem ProjectDocument.wellFormed_of_toProject {document : ProjectDocument} {project : Project}
    (h : document.toProject = .ok project) : project.WellFormed := by
  refine Outcome.foldlM_keeps (fun before entry _ after hbefore hafter => ?_)
    (Project.wellFormed_new document.authors) h
  obtain ⟨patch, hpatch, hstored⟩ := Outcome.bind_eq_ok.1 hafter
  cases hstored
  exact hbefore.store (PatchDocument.wellFormed_of_toPatch hpatch) entry.1

/-! ### Bundles -/

namespace Bundle

theorem Entry.wellFormed_of_toPatch {entry : Entry} {entries : Entries} {id : String}
    {patch : Patch} (h : (entry.toPatch entries id).outcome = .ok patch) : patch.WellFormed := by
  rw [outcome_toPatch] at h
  obtain ⟨path, _, h⟩ := Outcome.bind_eq_ok.1 h
  obtain ⟨withPins, hpins, h⟩ := Outcome.bind_eq_ok.1 h
  obtain ⟨withNodes, hnodes, hlinks⟩ := Outcome.bind_eq_ok.1 h
  have hwithPins : withPins.WellFormed := by
    refine Outcome.foldlM_keeps (fun before _ _ after hbefore hafter => ?_)
      ((Patch.wellFormed_new path).retitle path entry.label .empty) hpins
    obtain ⟨pin, _, hpin⟩ := Outcome.bind_eq_ok.1 hafter
    exact hbefore.insertPin (Outcome.ok_of_mapError.1 hpin)
  have hwithNodes : withNodes.WellFormed := by
    refine Outcome.foldlM_keeps (fun before _ _ after hbefore hafter => ?_) hwithPins hnodes
    obtain ⟨node, _, hnode⟩ := Outcome.bind_eq_ok.1 hafter
    exact hbefore.insertNode (Outcome.ok_of_mapError.1 hnode)
  rw [Patch.foldl_addImpl] at hlinks
  refine Outcome.foldlM_keeps (fun before _ _ after hbefore hafter => ?_)
    (hwithNodes.retitle withNodes.path withNodes.label _) hlinks
  obtain ⟨link, _, hlink⟩ := Outcome.bind_eq_ok.1 hafter
  exact hbefore.insertLink (Outcome.ok_of_mapError.1 hlink)

theorem wellFormed_of_migrate {bundle : Json} {project : Project}
    (h : (migrate bundle).outcome = .ok project) : project.WellFormed := by
  rw [outcome_migrate] at h
  obtain ⟨entries, _, hmigrated⟩ := Outcome.bind_eq_ok.1 h
  refine Outcome.foldlM_keeps (fun before entry _ after hbefore hafter => ?_)
    (Project.wellFormed_new (author? bundle).toList) hmigrated
  obtain ⟨patch, hpatch, hstored⟩ := Outcome.bind_eq_ok.1 hafter
  cases hstored
  exact hbefore.store (Entry.wellFormed_of_toPatch hpatch) patch.path

end Bundle

end Patchbay
