import Patchbay.Proofs.Document.Finite
import Patchbay.Proofs.Extraction.Delivery
import Patchbay.Proofs.Extraction.Storing

/-! What an extraction writes can be read back, unless constants are placed where no document has
coordinates: settings may have numbers that are not finite, and documents may not. -/

namespace Patchbay

variable {flat stock r : Project} {entry : PatchPath} {library : Library} {settings : Settings}
  {patch after : Patch} {supplies : List Supply}

namespace Extraction

theorem isFinite_constantNode {s : Supply} (hplaceholder : settings.placeholder.IsFinite)
    (hvalue : s.value.IsFinite) : (constantNode settings entry s).IsFinite := by
  refine ⟨hplaceholder, fun pin value hbound => ?_⟩
  have hmem := OrderedMap.mem_of_get?_ofList hbound
  obtain rfl : value = s.value := congrArg Prod.snd (List.mem_singleton.1 hmem)
  exact hvalue

/-- The new entry patch has the numbers of the old one, and those of the placeholder. -/
theorem isFinite_of_rewritten (hfound : Found flat library settings patch supplies)
    (hrewritten : Rewritten settings entry supplies patch after) (hpatch : patch.document.IsFinite)
    (hplaceholder : supplies ≠ [] → settings.placeholder.IsFinite) : after.document.IsFinite := by
  constructor
  · intro id node hnode
    have hnode := (hrewritten.nodes id).symm.trans hnode
    rw [Option.or_eq_some_iff, Option.map_eq_some_iff] at hnode
    rcases hnode with ⟨s, hs, rfl⟩ | ⟨_, hold⟩
    · have hmem : s ∈ supplies := List.mem_reverse.1 (List.mem_of_find?_eq_some hs)
      have hfree := hfound.isFree s hmem
      have hvalue := (hpatch.nodes _ _ hfree.stored).bound s.pin s.value hfree.bound
      exact isFinite_constantNode (hplaceholder (List.ne_nil_of_mem hmem)) hvalue
    · obtain ⟨old, hstored, rfl⟩ := Option.map_eq_some_iff.1 hold
      have hfinite := hpatch.nodes id old hstored
      exact ⟨hfinite.position, fun pin value hbound =>
        hfinite.bound pin value (bare_bound_eq_some.1 hbound).1⟩
  · intro key pin hpin
    have hpin := (congrArg (·.get? key) hrewritten.pins).symm.trans hpin
    exact hpatch.pins key pin hpin

theorem isFinite_of_extract (hflat : flat.WellFormed) (hfinite : flat.IsFinite)
    (hlibrary : ∀ path patch, library path = some patch → patch.document.IsFinite)
    (hpatch : flat.patches.get? entry = some patch)
    (hplaceholder : settings.placeholder.IsFinite ∨ ∀ b : BoundValue, ¬ b.IsFree library patch)
    (h : (flat.extract entry library settings).outcome = .ok r) : r.IsFinite := by
  obtain ⟨found, after, supplies, hextracted⟩ := exists_extracted hflat h
  obtain rfl : found = patch := Option.some.inj (hextracted.before.symm.trans hpatch)
  have hplaced : supplies ≠ [] → settings.placeholder.IsFinite := by
    intro hsome
    rcases hplaceholder with hplaceholder | hnone
    · exact hplaceholder
    · obtain ⟨s, hs⟩ := List.exists_mem_of_ne_nil supplies hsome
      exact absurd (hextracted.found.isFree s hs) (hnone _)
  intro path stored hstored
  by_cases hentry : path = entry
  · subst hentry
    obtain rfl : stored = after := Option.some.inj (hstored.symm.trans hextracted.result)
    exact isFinite_of_rewritten hextracted.found hextracted.rewritten
      (hfinite path found hpatch) hplaced
  · obtain ⟨hneeded, hkept⟩ := get?_of_extract hflat hpatch h hentry
    by_cases hneeds : found.Needs flat library settings path
    · obtain ⟨constant, hconstant, hnew⟩ := hneeded hneeds
      obtain rfl := Option.some.inj (hstored.symm.trans hnew)
      exact hlibrary path constant hconstant
    · exact hfinite path stored ((hkept hneeds).symm.trans hstored)

theorem exists_node_at_placeholder (hextracted : Extracted flat entry library settings r patch after
    supplies) {b : BoundValue} (hb : b.IsFree library patch) :
    ∃ id node, after.nodes.get? id = some node ∧ node.position = settings.placeholder := by
  obtain ⟨s, hs, _⟩ := hextracted.found.all b hb
  obtain ⟨t, _, _, hnode⟩ := exists_get?_nodes_derived hextracted.rewritten hs
  exact ⟨_, constantNode settings entry t, hnode, rfl⟩

/-- The result of an extraction is read back from its document exactly if the placeholder is finite
or nothing has been extracted. Documents are JSON values here: one that is read from text may have
had a number rounded. -/
theorem reads_back_iff_placeholder (hflat : flat.IsLoaded) (hstock : stock.IsLoaded)
    (h : (flat.extract entry stock.library settings).outcome = .ok r) :
    Project.ofJson r.toJson = .ok r ↔ settings.placeholder.IsFinite ∨
      ∀ patch, flat.patches.get? entry = some patch → ∀ b : BoundValue,
        ¬ b.IsFree stock.library patch := by
  have hwell := hflat.reachable.wellFormed
  have hwellStock := hstock.reachable.wellFormed
  have hresult := wellFormed_of_extract hwell hwellStock.patches h
  obtain ⟨patch, after, supplies, hextracted⟩ := exists_extracted hwell h
  rw [Project.reads_back_iff hresult]
  constructor
  · intro hfinite
    by_cases hplaceholder : settings.placeholder.IsFinite
    · exact .inl hplaceholder
    · refine .inr fun found hfound b hb => hplaceholder ?_
      obtain rfl := Option.some.inj (hextracted.before.symm.trans hfound)
      obtain ⟨id, node, hnode, hposition⟩ := exists_node_at_placeholder hextracted hb
      rw [← hposition]
      exact ((hfinite entry after hextracted.result).nodes id node hnode).position
  · intro hplaceholder
    exact isFinite_of_extract hwell hflat.isFinite hstock.isFinite hextracted.before
      (hplaceholder.imp_right fun hnone => hnone patch hextracted.before) h

end Extraction

/-! ### Lamps without a place -/

namespace Lamps

theorem isLoaded_project : project.IsLoaded := by
  have hread : (Project.ofJson project.toJson).toOption = some project := by decide +kernel
  exact .value project.isRepresentable_toJson (Outcome.toOption_eq_some_iff.1 hread)

theorem isLoaded_shelf : shelf.IsLoaded := by
  have hread : (Project.ofJson shelf.toJson).toOption = some shelf := by decide +kernel
  exact .value shelf.isRepresentable_toJson (Outcome.toOption_eq_some_iff.1 hread)

/-- Settings that place constants at infinity. -/
def endless : String := "[placeholder]\nx = inf\ny = 0\n"

end Lamps

open Lamps in
theorem Extraction.reads_back_lamps :
    project.IsLoaded ∧ shelf.IsLoaded ∧
      ∃ r, (project.extract main shelf.library {}).outcome = .ok r ∧
        Project.ofJson r.toJson = .ok r := by
  obtain ⟨r, hr, _⟩ := exists_extract
  have horigin : Position.origin.IsFinite := ⟨rfl, rfl⟩
  exact ⟨isLoaded_project, isLoaded_shelf, r, hr,
    (reads_back_iff_placeholder isLoaded_project isLoaded_shelf hr).2 (.inl horigin)⟩

open Lamps in
/-- The place of the new constants is written as `null`, which is no coordinate. -/
theorem Extraction.endless_unreadable :
    project.IsLoaded ∧ shelf.IsLoaded ∧ ∃ settings r error,
      Settings.ofText endless = .ok settings ∧
      (project.extract main shelf.library settings).outcome = .ok r ∧
      Project.ofJson r.toJson = .error error := by
  have hrun : (Settings.ofText endless).toOption.bind (fun settings =>
      (project.extract main shelf.library settings).outcome.toOption.bind fun r =>
        match Project.ofJson r.toJson with
        | .error error => some error.message
        | .ok _ => none) = some "invalid type" := by
    decide +kernel
  obtain ⟨settings, hsettings, hrun⟩ := Outcome.exists_of_toOption_bind hrun
  obtain ⟨r, hr, hrun⟩ := Outcome.exists_of_toOption_bind hrun
  cases hread : Project.ofJson r.toJson with
  | error error =>
    exact ⟨isLoaded_project, isLoaded_shelf, settings, r, error, hsettings, hr, hread⟩
  | ok _ =>
    rw [hread] at hrun
    exact nomatch hrun

end Patchbay
