import Patchbay.Proofs.Project.Reachable

/-! What an extraction stores at paths other than that of the entry patch: the constants that its
free values need, as the library has them. All other patches stay, and so do the authors. -/

namespace Patchbay

variable {flat r : Project} {entry path : PatchPath} {library : Library} {settings : Settings}
  {patch : Patch} {supplies : List Supply}

/-- A path is that of the constant of a free value. -/
def Patch.Needs (flat : Project) (library : Library) (settings : Settings) (patch : Patch)
    (path : PatchPath) : Prop :=
  ∃ e : Extract, e.IsFree library patch ∧ e.IsDeclared flat settings ∧ e.constant = path

namespace Extraction

/-- The supplies that have been found are made of the constants that are needed. -/
theorem Found.needs_iff (h : Found flat library settings patch supplies) :
    patch.Needs flat library settings path ↔ ∃ s ∈ supplies, s.constant = path := by
  constructor
  · rintro ⟨e, hfree, hdeclared, rfl⟩
    obtain ⟨s, hs, hsame⟩ := h.all _ hfree
    have hconstant := Extract.isDeclared_iff.1 (h.declared s hs)
    rw [hsame, Extract.isDeclared_iff.1 hdeclared] at hconstant
    exact ⟨s, hs, (Option.some.inj hconstant).symm⟩
  · rintro ⟨s, hs, rfl⟩
    exact ⟨s.toExtract, h.isFree s hs, h.declared s hs, rfl⟩

theorem get?_definitions_eq_some_iff {definition : Patch} :
    (definitions library supplies).get? path = some definition ↔
      library path = some definition ∧ ∃ s ∈ supplies, s.constant = path := by
  constructor
  · intro h
    have hlibrary := library_eq_of_mem_definitions (OrderedMap.mem_toList_iff.2 h)
    obtain ⟨s, hs, hsome⟩ := List.mem_filterMap.1 (OrderedMap.mem_of_get?_ofList h)
    obtain ⟨_, _, hentry⟩ := Option.map_eq_some_iff.1 hsome
    exact ⟨hlibrary, s, hs, congrArg Prod.fst hentry⟩
  · rintro ⟨hlibrary, s, hs, rfl⟩
    have hmem : (s.constant, definition) ∈
        supplies.filterMap fun s => (library s.constant).map (s.constant, ·) :=
      List.mem_filterMap.2 ⟨s, hs, by rw [hlibrary]; rfl⟩
    obtain ⟨found, hfound⟩ := OrderedMap.contains_iff.1
      (OrderedMap.mem_keys_iff.1 (OrderedMap.mem_keys_ofList.2 ⟨definition, hmem⟩))
    have hsame := library_eq_of_mem_definitions (OrderedMap.mem_toList_iff.2 hfound)
    cases hlibrary.symm.trans hsame
    exact hfound

theorem get?_apply {x : Extraction} :
    (x.apply flat).patches.get? path =
      ((x.stored.reverse.find? (·.1 = path)).map fun e => { e.2 with path := e.1 }).or
        (flat.patches.get? path) := by
  have hpatches : (x.apply flat).patches =
      x.stored.foldl (fun m e => m.insert e.1 { e.2 with path := e.1 }) flat.patches := by
    rw [apply]
    exact (List.foldl_hom Project.patches fun _ _ => rfl).symm
  rw [hpatches, OrderedMap.get?_foldl_insert]

theorem authors_apply {x : Extraction} : (x.apply flat).authors = flat.authors := by
  refine List.foldlRecOn x.stored _
    (motive := fun project : Project => project.authors = flat.authors) rfl ?_
  exact fun _ hsame _ _ => hsame

section Extract

variable (hflat : flat.WellFormed) (hpatch : flat.patches.get? entry = some patch)
  (h : (flat.extract entry library settings).outcome = .ok r)
include hflat hpatch h

/-- What has been found decides what is stored: nothing, or the definitions and then the entry. -/
theorem exists_found : ∃ (x : Extraction) (supplies : List Supply), x.apply flat = r ∧
    Found flat library settings patch supplies ∧
    (supplies = [] ∧ x.stored = [] ∨ supplies ≠ [] ∧ ∃ after,
      x.stored = (definitions library supplies).toList ++ [(entry, after)]) := by
  obtain ⟨x, hx, rfl⟩ := outcome_extract_eq_ok.1 h
  obtain ⟨found, extracted, supplies, hstored, hextracts, hsupplies, hrest⟩ := extraction_eq_ok hx
  obtain rfl : found = patch := Option.some.inj (hstored.symm.trans hpatch)
  have hkeyed := (hflat.patches entry found hpatch).nodes_keyed
  refine ⟨x, supplies, rfl, found_of_extracts hkeyed hextracts hsupplies, ?_⟩
  exact hrest.imp_right fun ⟨hsome, after, _, hall⟩ => ⟨hsome, after, hall⟩

/-- Apart from the entry, a needed constant is what the library has, and nothing else changes. -/
theorem get?_of_extract (hne : path ≠ entry) :
    (patch.Needs flat library settings path →
      ∃ constant, library path = some constant ∧
        r.patches.get? path = some { constant with path }) ∧
    (¬ patch.Needs flat library settings path → r.patches.get? path = flat.patches.get? path) := by
  obtain ⟨x, supplies, rfl, hfound, hrest⟩ := exists_found hflat hpatch h
  rw [hfound.needs_iff, get?_apply]
  rcases hrest with ⟨rfl, hnone⟩ | ⟨_, after, hall⟩
  · rw [hnone]
    exact ⟨nofun, fun _ => rfl⟩
  · -- the entry is stored last, so that the search from the end passes over it
    have hlast : (x.stored.reverse.find? (·.1 = path)) =
        ((definitions library supplies).get? path).map (path, ·) := by
      rw [hall, List.reverse_append, List.reverse_singleton, List.singleton_append,
        List.find?_cons_of_neg (by simpa using hne.symm), OrderedMap.find?_reverse_toList]
    rw [hlast]
    constructor
    · rintro ⟨s, hs, rfl⟩
      obtain ⟨constant, _, hconstant, _⟩ := hfound.source s hs
      have hdefinition := get?_definitions_eq_some_iff.2 ⟨hconstant, s, hs, rfl⟩
      exact ⟨constant, hconstant, by rw [hdefinition]; rfl⟩
    · intro hneeded
      cases hdefinition : (definitions library supplies).get? path with
      | none => rfl
      | some definition => exact absurd (get?_definitions_eq_some_iff.1 hdefinition).2 hneeded

theorem eq_of_forall_not_isFree (hnone : ∀ b : BoundValue, ¬ b.IsFree library patch) :
    r = flat := by
  obtain ⟨x, supplies, rfl, hfound, hrest⟩ := exists_found hflat hpatch h
  rcases hrest with ⟨_, hnothing⟩ | ⟨hsome, _⟩
  · rw [apply, hnothing, List.foldl_nil]
  · obtain ⟨s, hs⟩ := List.exists_mem_of_ne_nil supplies hsome
    exact absurd (hfound.isFree s hs) (hnone s.toBoundValue)

theorem authors_of_extract : r.authors = flat.authors := by
  obtain ⟨x, _, rfl, _⟩ := exists_found hflat hpatch h
  exact authors_apply

theorem isSome_constant?_of_extract {b : BoundValue} (hb : b.IsFree library patch) :
    (b.constant? flat settings).isSome := by
  obtain ⟨_, supplies, _, hfound, _⟩ := exists_found hflat hpatch h
  obtain ⟨s, hs, rfl⟩ := hfound.all b hb
  exact Option.isSome_iff_exists.2 ⟨s.constant, Extract.isDeclared_iff.1 (hfound.declared s hs)⟩

end Extract

end Extraction

/-- `r` has the patches and authors of `flat` and the constants that the free values of the entry
patch need, as the library has them. Nothing is said of the patch at the entry itself. -/
structure AddsConstants (flat : Project) (entry : PatchPath) (library : Library)
    (settings : Settings) (patch : Patch) (r : Project) : Prop where
  authors : r.authors = flat.authors
  declared : ∀ b : BoundValue, b.IsFree library patch → (b.constant? flat settings).isSome
  paths : ∀ path, r.patches.contains path ↔
    flat.patches.contains path ∨ patch.Needs flat library settings path
  constants : ∀ path, patch.Needs flat library settings path → path ≠ entry →
    ∃ constant, library path = some constant ∧ r.patches.get? path = some { constant with path }
  others : ∀ path, ¬ patch.Needs flat library settings path → path ≠ entry →
    r.patches.get? path = flat.patches.get? path

namespace Extraction

/-- An extraction without free values gives the project back. Any other one adds the needed
constants, in place of patches that the project has at their paths, and touches nothing else outside
the entry. -/
theorem adds_constants_only (hflat : flat.Reachable)
    (h : (flat.extract entry library settings).outcome = .ok r) :
    ∃ patch, flat.patches.get? entry = some patch ∧
      ((∀ b : BoundValue, ¬ b.IsFree library patch) → r = flat) ∧
      AddsConstants flat entry library settings patch r := by
  have hwell := hflat.wellFormed
  obtain ⟨patch, after, supplies, hextracted⟩ := exists_extracted hwell h
  have hpatch := hextracted.before
  refine ⟨patch, hpatch, eq_of_forall_not_isFree hwell hpatch h,
    authors_of_extract hwell hpatch h, fun _ => isSome_constant?_of_extract hwell hpatch h, ?_,
    fun path hneeds hne => (get?_of_extract hwell hpatch h hne).1 hneeds,
    fun path hneeds hne => (get?_of_extract hwell hpatch h hne).2 hneeds⟩
  intro path
  by_cases hentry : path = entry
  · -- the entry was there before, and the rewritten patch is there now
    subst hentry
    exact iff_of_true (OrderedMap.contains_iff.2 ⟨after, hextracted.result⟩)
      (.inl (OrderedMap.contains_iff.2 ⟨patch, hpatch⟩))
  · obtain ⟨hneeded, hother⟩ := get?_of_extract hwell hpatch h hentry
    by_cases hneeds : patch.Needs flat library settings path
    · obtain ⟨constant, _, hstored⟩ := hneeded hneeds
      exact iff_of_true (OrderedMap.contains_iff.2 ⟨_, hstored⟩) (.inr hneeds)
    · rw [OrderedMap.contains, hother hneeds, ← OrderedMap.contains, or_iff_left hneeds]

end Extraction

/-! ### A lamp in the constant's place -/

namespace Lamps

/-- A project that has a lamp at the path of the standard constant. -/
def crowded : Project := project.store Constants.standard.boolean lamp

/-- The literal of the first lamp. -/
def firstOn : BoundValue where
  node := { id := first, type := lamp.path, bound := .ofList [(on, .boolean true)] }
  pin := on
  value := .boolean true

/-- The lamp gives way to the constant of the shelf. -/
theorem adds_constants_crowded : ∃ r, (crowded.extract main shelf.library {}).outcome = .ok r ∧
    AddsConstants crowded main shelf.library {} room r ∧
    r.patches.get? Constants.standard.boolean = some (source Constants.standard.boolean) := by
  have hrun : (crowded.extract main shelf.library {}).outcome.toOption.isSome := by
    decide +kernel
  obtain ⟨r, hsome⟩ := Option.isSome_iff_exists.1 hrun
  have hr := Outcome.toOption_eq_some_iff.1 hsome
  have hcrowded : crowded.Reachable :=
    .stored _ reachable_project (Patch.Reachable.run (.newPatch _) _)
  obtain ⟨patch, hpatch, _, hadds⟩ := Extraction.adds_constants_only hcrowded hr
  have hroom : crowded.patches.get? main = some room := by decide +kernel
  obtain rfl : patch = room := Option.some.inj (hpatch.symm.trans hroom)
  have hneeds : room.Needs crowded shelf.library {} Constants.standard.boolean :=
    ⟨{ firstOn with constant := Constants.standard.boolean }, by decide +kernel,
      Extract.isDeclared_iff.2 (by decide +kernel), rfl⟩
  obtain ⟨constant, hconstant, hstored⟩ := hadds.constants _ hneeds (by decide +kernel)
  have hshelf : shelf.library Constants.standard.boolean =
      some (source Constants.standard.boolean) := by
    decide +kernel
  cases hshelf.symm.trans hconstant
  exact ⟨r, hr, hadds, hstored⟩

end Lamps

end Patchbay
