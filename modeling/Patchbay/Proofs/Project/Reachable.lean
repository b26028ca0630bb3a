import Patchbay.Proofs.Extraction.Rewriting
import Patchbay.Proofs.Json.Reading

/-! The patches and projects that can come about: patches grow by changes from an empty one or from
a patch of a project, and projects are loaded, migrated, extracted and edited, in any order. All of
them are well-formed. -/

namespace Patchbay

/-- What a caller can hold. -/
inductive Artifact where
  | patch (patch : Patch)
  | project (project : Project)

/-- The artifacts that can come about. A library is anything that finds patches that came about. -/
inductive Artifact.Reachable : Artifact → Prop
  | newPatch (path : PatchPath) : Reachable (.patch { path })
  | changed {patch after : Patch} {c : Patch.Change} :
      Reachable (.patch patch) → patch.change c = .ok after → Reachable (.patch after)
  | taken {project : Project} {path : PatchPath} {patch : Patch} :
      Reachable (.project project) → project.patches.get? path = some patch →
      Reachable (.patch patch)
  | newProject : Reachable (.project {})
  | loaded {document : ProjectDocument} {project : Project} :
      document.toProject = .ok project → Reachable (.project project)
  | migrated {bundle : Json} {project : Project} :
      (Bundle.migrate bundle).outcome = .ok project → Reachable (.project project)
  | extracted {flat r : Project} {entry : PatchPath} {library : Library} {settings : Settings} :
      Reachable (.project flat) →
      (∀ path patch, library path = some patch → Reachable (.patch patch)) →
      (flat.extract entry library settings).outcome = .ok r → Reachable (.project r)
  | stored {project : Project} {patch : Patch} (path : PatchPath) :
      Reachable (.project project) → Reachable (.patch patch) →
      Reachable (.project (project.store path patch))
  | added {project after : Project} {patch : Patch} :
      Reachable (.project project) → Reachable (.patch patch) → project.add patch = .ok after →
      Reachable (.project after)
  | removed {project : Project} (path : PatchPath) :
      Reachable (.project project) → Reachable (.project (project.remove path))
  | authored {project : Project} (author : String) :
      Reachable (.project project) → Reachable (.project (project.addAuthor author))

abbrev Patch.Reachable (patch : Patch) : Prop := Artifact.Reachable (.patch patch)

abbrev Project.Reachable (project : Project) : Prop := Artifact.Reachable (.project project)

/-! ### Ways to come about -/

theorem Patch.Reachable.run {patch : Patch} (h : patch.Reachable) (changes : List Patch.Change) :
    (patch.run changes).Reachable := by
  induction changes generalizing patch with
  | nil => exact h
  | cons c changes ih =>
    refine ih ?_
    unfold Patch.attempt
    split
    · rename_i hafter
      exact .changed h hafter
    · exact h

/-- A project is decoded by way of its document. -/
theorem Project.exists_document {origin : Json.Origin} {source : Json.Source} {project : Project}
    (h : Project.decoder origin source = .ok project) :
    ∃ document, ProjectDocument.decoder origin source = .ok document ∧
      document.toProject = .ok project := by
  obtain ⟨document, hdocument, hproject⟩ := Outcome.bind_eq_ok.1 h
  rw [Outcome.ok_of_mapError, Outcome.ok_of_mapError] at hproject
  exact ⟨document, hdocument, hproject⟩

theorem Project.reachable_of_ofJson {value : Json} {project : Project}
    (h : Project.ofJson value = .ok project) : project.Reachable := by
  obtain ⟨_, _, hproject⟩ := Project.exists_document h
  exact .loaded hproject

theorem Project.reachable_of_ofText {s : String} {project : Project}
    (h : Project.ofText s = .ok project) : project.Reachable := by
  obtain ⟨source, _, hdecoded⟩ := Json.exists_source_of_decodeText h
  obtain ⟨_, _, hproject⟩ := Project.exists_document hdecoded
  exact .loaded hproject

/-! ### The invariant -/

/-- A well-formed artifact. -/
def Artifact.WellFormed : Artifact → Prop
  | .patch p => p.WellFormed
  | .project p => p.WellFormed

theorem Artifact.Reachable.wellFormed {a : Artifact} (h : a.Reachable) : a.WellFormed := by
  induction h with
  | newPatch path => exact Patch.wellFormed_new path
  | changed _ hafter ih => exact Patch.WellFormed.change ih hafter
  | @taken _ path patch _ hpatch ih => exact Project.WellFormed.patches ih path patch hpatch
  | newProject => exact Project.wellFormed_new []
  | loaded hproject => exact ProjectDocument.wellFormed_of_toProject hproject
  | migrated hproject => exact Bundle.wellFormed_of_migrate hproject
  | extracted _ _ hr ihflat ihlibrary => exact Extraction.wellFormed_of_extract ihflat ihlibrary hr
  | stored path _ _ ihproject ihpatch => exact Project.WellFormed.store ihproject ihpatch path
  | added _ _ hafter ihproject ihpatch => exact Project.WellFormed.add ihproject ihpatch hafter
  | removed path _ ih => exact Project.WellFormed.remove ih path
  | authored author _ ih => exact Project.WellFormed.addAuthor ih author

theorem Patch.Reachable.wellFormed {patch : Patch} (h : patch.Reachable) : patch.WellFormed :=
  Artifact.Reachable.wellFormed h

theorem Project.Reachable.wellFormed {project : Project} (h : project.Reachable) :
    project.WellFormed :=
  Artifact.Reachable.wellFormed h

/-- Every run of changes from an empty patch ends in a well-formed patch, and so does every other
way for a patch to come about; the projects that can come about are well-formed with all their
patches. -/
theorem wellFormed_of_reachable :
    (∀ (path : PatchPath) (changes : List Patch.Change), (Patch.run { path } changes).WellFormed) ∧
      (∀ patch : Patch, patch.Reachable → patch.WellFormed) ∧
      ∀ project : Project, project.Reachable → project.WellFormed :=
  ⟨fun path changes => (Patch.wellFormed_new path).run changes, fun _ h => h.wellFormed,
    fun _ h => h.wellFormed⟩

/-! ### Lamps with a switch -/

namespace Lamps

def on : PinKey := ⟨"on", by decide⟩

def out : PinKey := ⟨"out", by decide⟩

def switch : NodeId := ⟨"switch", by decide⟩

def first : NodeId := ⟨"first", by decide⟩

def second : NodeId := ⟨"second", by decide⟩

def third : NodeId := ⟨"third", by decide⟩

def main : PatchPath := ⟨"@/main", by decide⟩

def lamp : Patch :=
  .run { path := ⟨"@/lamp", by decide⟩ }
    [.insertPin { key := on, type := .boolean, direction := .input }]

/-- A patch with one output, which may be a switch or a constant. -/
def source (path : PatchPath) : Patch :=
  .run { path } [.insertPin { key := out, type := .boolean, direction := .output }]

/-- Two lamps are set by literals and the third by a switch. A link from the switch to a lamp with a
literal is refused. -/
def room : Patch :=
  .run { path := main } [
    .insertNode { id := switch, type := ⟨"@/switch", by decide⟩ },
    .insertNode { id := first, type := lamp.path, bound := .ofList [(on, .boolean true)] },
    .insertNode { id := second, type := lamp.path, bound := .ofList [(on, .boolean false)] },
    .insertNode { id := third, type := lamp.path },
    .insertLink { id := ⟨"a", by decide⟩, input := ⟨third, on⟩, output := ⟨switch, out⟩ },
    .insertLink { id := ⟨"b", by decide⟩, input := ⟨first, on⟩, output := ⟨switch, out⟩ }]

def project : Project := (Project.store {} lamp.path lamp).store main room

/-- The lamp and the switch with the constant that the standard library has for booleans. -/
def shelf : Project :=
  ((Project.store {} lamp.path lamp).store ⟨"@/switch", by decide⟩
    (source ⟨"@/switch", by decide⟩)).store Constants.standard.boolean
    (source Constants.standard.boolean)

theorem get?_room : project.patches.get? main = some room := OrderedMap.get?_insert_self _ _ _

theorem reachable_room : room.Reachable := Patch.Reachable.run (.newPatch main) _

theorem reachable_project : project.Reachable :=
  .stored main (.stored lamp.path .newProject (Patch.Reachable.run (.newPatch _) _)) reachable_room

theorem reachable_shelf : shelf.Reachable :=
  .stored _ (.stored _ (.stored _ .newProject (Patch.Reachable.run (.newPatch _) _))
    (Patch.Reachable.run (.newPatch _) _)) (Patch.Reachable.run (.newPatch _) _)

/-- The patch of the constants is added. -/
theorem exists_extract : ∃ r, (project.extract main shelf.library {}).outcome = .ok r ∧
    r.patches.size = 3 := by
  have hrun : (project.extract main shelf.library {}).outcome.toOption.bind
      (fun r => some r.patches.size) = some 3 := by
    decide +kernel
  obtain ⟨r, hr, hsize⟩ := Outcome.exists_of_toOption_bind hrun
  exact ⟨r, hr, Option.some.inj hsize⟩

end Lamps

open Lamps in
theorem wellFormed_lamps : room.links.size = 1 ∧ room.WellFormed ∧ project.WellFormed :=
  ⟨by decide +kernel, wellFormed_of_reachable.2.1 room reachable_room,
    wellFormed_of_reachable.2.2 project reachable_project⟩

end Patchbay
