import Patchbay.Proofs.Document.Finite

/-! Default literals of pins. A pin that is built step by step has a default that fits its type. A
pin that is loaded has the default of its document, which may be any literal. -/

namespace Patchbay

open Json

/-- The default literal of the pin, if it has one, fits the type of the pin. -/
def Pin.Fits (pin : Pin) : Prop := ∀ value, pin.value = some value → value.fits pin.type

/-! ### Building pins -/

namespace Pin

variable {pin after : Pin}

theorem setValue_eq_ok_iff {value : Literal} :
    pin.setValue value = .ok after ↔
      value.fits pin.type ∧ after = { pin with value := some value } := by
  unfold setValue
  split
  · rename_i hfits
    exact ⟨fun h => ⟨hfits, (Except.ok.inj h).symm⟩, fun h => congrArg _ h.2.symm⟩
  · rename_i hmisfit
    exact ⟨nofun, fun h => absurd h.1 hmisfit⟩

/-- What can be set on a pin after its key, type and direction. -/
inductive Change where
  | setOrder (order : UInt32)
  | setLabel (label : String)
  | setInjected (injected : Bool)
  | setValue (value : Literal)

def change (pin : Pin) : Change → Except ValidationError Pin
  | .setOrder order => .ok { pin with order }
  | .setLabel label => .ok { pin with label := some label }
  | .setInjected injected => .ok { pin with injected }
  | .setValue value => pin.setValue value

/-- A change that fails leaves the pin as it was. -/
def attempt (pin : Pin) (c : Change) : Pin :=
  match pin.change c with
  | .ok after => after
  | .error _ => pin

def run (pin : Pin) (changes : List Change) : Pin := changes.foldl attempt pin

theorem Fits.change {c : Change} (h : pin.Fits) (hafter : pin.change c = .ok after) :
    after.Fits := by
  cases c with
  | setOrder _ | setLabel _ | setInjected _ =>
    cases hafter
    exact h
  | setValue value =>
    obtain ⟨hfits, rfl⟩ := setValue_eq_ok_iff.1 hafter
    rintro _ ⟨⟩
    exact hfits

theorem Fits.attempt (h : pin.Fits) (c : Change) : (pin.attempt c).Fits := by
  unfold Pin.attempt
  split
  · rename_i hafter
    exact h.change hafter
  · exact h

theorem Fits.run (h : pin.Fits) (changes : List Change) : (pin.run changes).Fits := by
  induction changes generalizing pin with
  | nil => exact h
  | cons c changes ih => exact ih (h.attempt c)

theorem fits_of_parse {key type : String} {direction : Direction}
    (h : parse key type direction = .ok pin) : pin.Fits := by
  obtain ⟨_, _, h⟩ := Outcome.bind_eq_ok.1 h
  obtain ⟨_, _, h⟩ := Outcome.bind_eq_ok.1 h
  cases h
  exact nofun

end Pin

/-! ### Loading pins -/

/-- The custom pin under a key of the patch at a path. -/
def Project.customPin? (project : Project) (path : PatchPath) (key : PinKey) : Option Pin :=
  (project.patches.get? path).bind fun patch => patch.pins.get? key

def ProjectDocument.customPin? (document : ProjectDocument) (path : PatchPath) (key : PinKey) :
    Option Pin :=
  (document.patches.get? path).bind fun stored => stored.pins.get? key

/-- All default literals of custom pins fit. -/
def Project.Fits (project : Project) : Prop :=
  ∀ path key pin, project.customPin? path key = some pin → pin.Fits

def ProjectDocument.Fits (document : ProjectDocument) : Prop :=
  ∀ path key pin, document.customPin? path key = some pin → pin.Fits

theorem ProjectDocument.customPin?_of_toProject {document : ProjectDocument} {project : Project}
    (h : document.toProject = .ok project) (path : PatchPath) (key : PinKey) :
    project.customPin? path key = document.customPin? path key := by
  obtain ⟨_, rfl⟩ := toProject_eq_ok_iff.1 h
  rw [Project.customPin?, verbatim, OrderedMap.get?_map, customPin?, Option.bind_map]
  rfl

theorem ProjectDocument.fits_iff_of_toProject {document : ProjectDocument} {project : Project}
    (h : document.toProject = .ok project) : project.Fits ↔ document.Fits := by
  simp only [Project.Fits, ProjectDocument.Fits, customPin?_of_toProject h]

/-- A project with one patch, which has one pin. -/
def Pin.alone (pin : Pin) (path : PatchPath) : Project :=
  Project.store {} path (.run { path } [.insertPin pin])

namespace Pin

variable {pin : Pin}

theorem patches_alone (pin : Pin) (path : PatchPath) :
    (pin.alone path).patches =
      OrderedMap.empty.insert path { path, pins := OrderedMap.empty.insert pin.key pin } := rfl

theorem wellFormed_alone (pin : Pin) (path : PatchPath) : (pin.alone path).WellFormed :=
  (Project.wellFormed_new []).store ((Patch.wellFormed_new path).run _) path

theorem IsFinite.alone (h : pin.IsFinite) (path : PatchPath) : (pin.alone path).IsFinite := by
  intro other patch hpatch
  rw [patches_alone] at hpatch
  rcases OrderedMap.get?_insert_eq_some.1 hpatch with ⟨_, rfl⟩ | ⟨_, hnone⟩
  · refine ⟨nofun, fun key stored hstored => ?_⟩
    rcases OrderedMap.get?_insert_eq_some.1 hstored with ⟨_, rfl⟩ | ⟨_, hnone⟩
    · exact h
    · exact nomatch hnone
  · exact nomatch hnone

theorem IsFinite.isLoaded_alone (h : pin.IsFinite) (path : PatchPath) :
    (pin.alone path).IsLoaded :=
  .value (Project.isRepresentable_toJson _)
    (Project.ofJson_toJson (wellFormed_alone pin path) (h.alone path))

theorem customPin?_alone (pin : Pin) (path : PatchPath) :
    (pin.alone path).customPin? path pin.key = some pin := by
  rw [Project.customPin?, patches_alone, OrderedMap.get?_insert_self]
  exact OrderedMap.get?_insert_self ..

end Pin

/-- A pin that is built step by step fits, whatever has been tried. Loading does not look at default
literals: the pins of a project fit exactly if those of its document do, and any pin with a finite
literal can be loaded. -/
theorem Pin.fits_unless_loaded (key type : String) (direction : Direction) (changes : List Change)
    (origin : Origin) (source : Source) (path : PatchPath) (pin : Pin) :
    (∀ built, Pin.parse key type direction = .ok built → (built.run changes).Fits) ∧
    (∀ project, Project.decoder origin source = .ok project →
      ∃ document, ProjectDocument.decoder origin source = .ok document ∧
        (project.Fits ↔ document.Fits)) ∧
    (pin.IsFinite →
      ∃ project : Project, project.IsLoaded ∧ project.customPin? path pin.key = some pin) := by
  refine ⟨fun built hbuilt => (fits_of_parse hbuilt).run changes, ?_, ?_⟩
  · intro project h
    obtain ⟨document, hdocument, hproject⟩ := Project.exists_document h
    exact ⟨document, hdocument, ProjectDocument.fits_iff_of_toProject hproject⟩
  · exact fun h => ⟨pin.alone path, h.isLoaded_alone path, customPin?_alone pin path⟩

namespace Lamps

def bare : Pin := { key := on, type := .boolean, direction := .input }

def seven : Literal := .number (.ofNat 7)

/-- Literals of other types are refused on the way. -/
def settings : List Pin.Change :=
  [.setValue (.string "on"), .setValue (.boolean true), .setValue seven, .setOrder 2]

def misfit : Pin := { bare with value := some seven }

/-- A document in which the pin of the lamp, a boolean, has the number 7. -/
def misfitDocument : Json :=
  .object [("patches", .object [("@/lamp", .object [("pins", .object [("on", .object [
    ("direction", .string "input"),
    ("key", .string "on"),
    ("type", .string "boolean"),
    ("value", .number (.whole 7))])])])])]

theorem exists_misfitDocument : ∃ project, Project.ofJson misfitDocument = .ok project ∧
    project.customPin? lamp.path on = some misfit := by
  have hrun : (Project.ofJson misfitDocument).toOption.bind (fun project =>
      project.customPin? lamp.path on) = some misfit := by
    decide +kernel
  exact Outcome.exists_of_toOption_bind hrun

end Lamps

open Lamps in
theorem Pin.fits_lamp :
    (Pin.parse "on" "boolean" .input = .ok bare ∧
      (bare.run settings).value = some (.boolean true) ∧ (bare.run settings).Fits) ∧
    (∃ project document, Project.ofJson misfitDocument = .ok project ∧
      decodeValue ProjectDocument.decoder misfitDocument = .ok document ∧
      (project.Fits ↔ document.Fits)) ∧
    misfit.IsFinite ∧
    ∃ project : Project, project.IsLoaded ∧ project.customPin? main on = some misfit := by
  obtain ⟨hbuilt, hread, hloaded⟩ := Pin.fits_unless_loaded "on" "boolean" .input settings .value
    (.ofJson misfitDocument) main misfit
  have hparse : Pin.parse "on" "boolean" .input = .ok bare := by decide +kernel
  obtain ⟨project, hproject, _⟩ := exists_misfitDocument
  obtain ⟨document, hdocument, hiff⟩ := hread project hproject
  have hfinite : misfit.IsFinite := by
    rintro _ ⟨⟩
    rfl
  exact ⟨⟨hparse, by decide, hbuilt bare hparse⟩,
    ⟨project, document, hproject, hdocument, hiff⟩, hfinite, hloaded hfinite⟩

open Lamps in
/-- The pin is loaded with a number that it does not take when it is built. -/
theorem Project.misfit_loaded :
    misfitDocument.isRepresentable ∧
    (∃ project, Project.ofJson misfitDocument = .ok project ∧
      project.customPin? lamp.path on = some misfit ∧ ¬ project.Fits) ∧
    bare.setValue seven = .error (.valueTypeMismatch on "boolean") := by
  obtain ⟨project, hproject, hpin⟩ := exists_misfitDocument
  refine ⟨by decide, ⟨project, hproject, hpin, fun h => ?_⟩, rfl⟩
  exact absurd (h lamp.path on misfit hpin seven rfl) nofun

end Patchbay
