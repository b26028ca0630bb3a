import Patchbay.Proofs.Extraction.Delivery
import Patchbay.Proofs.Extraction.Storing
import Patchbay.Proofs.Project.Problems

/-! An extraction from a project without problems makes none: old links meet the pins that they met
before, and new links run from an output of a constant to an input of an old node. -/

namespace Patchbay

variable {flat r : Project} {entry path : PatchPath} {library : Library} {settings : Settings}
  {patch after : Patch} {supplies : List Supply}

/-- The constants of the settings are not the entry and no terminals, and those of the library have
no nodes. -/
def Settings.HasPlainConstants (settings : Settings) (entry : PatchPath) (library : Library) :
    Prop :=
  ∀ type constant, settings.constantFor? type = some constant →
    constant ≠ entry ∧ constant.terminal? = none ∧
      ∀ stored, library constant = some stored → stored.nodes = .empty

/-- Patches that the project and the library both have offer the same pins. -/
def Project.AgreesWith (flat : Project) (library : Library) : Prop :=
  ∀ path known stored, flat.patches.get? path = some known → library path = some stored →
    known.OffersAlike stored

namespace Extraction

/-! ### Pins of the new patches -/

section

variable (hflat : flat.WellFormed) (hfresh : Fresh entry library patch)
  (hlibrary : ∀ path stored, library path = some stored → stored.WellFormed)
  (hagrees : flat.AgreesWith library) (hplain : settings.HasPlainConstants entry library)
  (hextracted : Extracted flat entry library settings r patch after supplies)
  (h : (flat.extract entry library settings).outcome = .ok r)

include hplain hextracted in
theorem plain_of_mem {s : Supply} (hs : s ∈ supplies) :
    s.constant ≠ entry ∧ s.constant.terminal? = none ∧
      ∀ stored, library s.constant = some stored → stored.nodes = .empty := by
  obtain ⟨_, pin, _, _, hconstant⟩ := hextracted.found.declared s hs
  exact hplain pin.type s.constant hconstant

include hflat hfresh hplain hextracted in
/-- The entry keeps its pins: its terminals stay, and constants are none. -/
theorem offersAlike_entry : patch.OffersAlike after := by
  have hpatch := hflat.patches entry patch hextracted.before
  intro key direction
  rw [hpatch.offers_iff, hextracted.wellFormed.offers_iff, hextracted.rewritten.pins]
  refine or_congr_right ⟨?_, ?_⟩
  · rintro ⟨node, type, hnode, hterminal⟩
    exact ⟨bare supplies node, type,
      get?_nodes_old hextracted.found hextracted.rewritten hfresh hnode, hterminal⟩
  · rintro ⟨node, type, hnode, hterminal⟩
    rcases constant_or_bare hextracted.rewritten hnode with ⟨s, hs, rfl⟩ | ⟨old, hold, rfl⟩
    · exact nomatch (plain_of_mem hplain hextracted hs).2.1.symm.trans hterminal
    · exact ⟨old, type, hold, hterminal⟩

include hflat hfresh hagrees hplain hextracted h in
theorem extends_of_extract : r.Extends flat := by
  constructor
  · intro path known hknown
    by_cases hentry : path = entry
    · subst hentry
      obtain rfl : patch = known := Option.some.inj (hextracted.before.symm.trans hknown)
      exact ⟨after, hextracted.result, offersAlike_entry hflat hfresh hplain hextracted⟩
    · obtain ⟨hneeded, hother⟩ := get?_of_extract hflat hextracted.before h hentry
      by_cases hneeds : patch.Needs flat library settings path
      · obtain ⟨constant, hconstant, hstored⟩ := hneeded hneeds
        exact ⟨_, hstored, hagrees path known constant hknown hconstant⟩
      · exact ⟨known, by rw [hother hneeds, hknown], fun _ _ => Iff.rfl⟩
  · intro path hterminal hcontains
    by_cases hentry : path = entry
    · exact OrderedMap.contains_iff.2 ⟨patch, by rw [hentry]; exact hextracted.before⟩
    · have hneeds : ¬ patch.Needs flat library settings path := by
        rintro ⟨e, _, ⟨_, pin, _, _, hconstant⟩, rfl⟩
        rw [(hplain pin.type _ hconstant).2.1] at hterminal
        exact nomatch hterminal
      rwa [OrderedMap.contains, (get?_of_extract hflat hextracted.before h hentry).2 hneeds]
        at hcontains

/-! ### Ends of links -/

include hlibrary hagrees hextracted in
/-- The pin of a free value is an input: its type would have it among its outputs otherwise. -/
theorem meets_freeValue {s : Supply} (hs : s ∈ supplies) :
    flat.Meets patch .input ⟨s.node.id, s.pin⟩ := by
  intro node hnode type htype
  have hfree := hextracted.found.isFree s hs
  obtain rfl : s.node = node := Option.some.inj (hfree.stored.symm.trans hnode)
  obtain ⟨declaring, pin, hdeclaring, hpin, _⟩ := hextracted.found.declared s hs
  obtain rfl : declaring = type := Option.some.inj (hdeclaring.symm.trans htype)
  refine ⟨pin, hpin, ?_⟩
  obtain ⟨stored, hstored⟩ :=
    hextracted.found.known _ _ _ _ hfree.stored hfree.bound hfree.ordinary
  cases hdirection : pin.direction with
  | input => rfl
  | output =>
    have hoffers := (hagrees _ _ stored hdeclaring hstored _ _).1 ⟨pin, hpin, hdirection⟩
    obtain ⟨output, houtput, hkey⟩ :=
      (hlibrary _ stored hstored).offers_output_iff.1 hoffers
    exact absurd hkey (hfree.notOutput stored hstored output houtput)

include hflat hfresh hlibrary hplain hextracted h in
theorem meets_constant {s : Supply} (hs : s ∈ supplies) :
    r.Meets after .output (constantLink settings entry s).output := by
  intro node hnode type htype
  have hconstantNode :=
    get?_nodes_derived hextracted.found hextracted.rewritten hfresh hs
  obtain rfl : constantNode settings entry s = node :=
    Option.some.inj (hconstantNode.symm.trans hnode)
  have hne := (plain_of_mem hplain hextracted hs).1
  have hneeds := hextracted.found.needs_iff.2 ⟨s, hs, rfl⟩
  obtain ⟨constant, hconstant, hstored⟩ :=
    (get?_of_extract hflat hextracted.before h hne).1 hneeds
  cases hstored.symm.trans htype
  obtain ⟨source, output, hsource, hhead, hkey⟩ := hextracted.found.source s hs
  obtain rfl : source = constant := Option.some.inj (hsource.symm.trans hconstant)
  exact (hlibrary _ source hsource).offers_output_iff.2
    ⟨output, List.mem_of_mem_head? hhead, hkey⟩

include hflat hfresh hlibrary hagrees hplain hextracted h in
theorem sound_entry (hsound : flat.Sound patch) : r.Sound after := by
  have hextends := extends_of_extract hflat hfresh hagrees hplain hextracted h
  have hwell := hflat.patches entry patch hextracted.before
  have hkept : ∀ {direction endpoint}, patch.nodes.contains endpoint.node →
      flat.Meets patch direction endpoint → r.Meets after direction endpoint := by
    intro direction endpoint hcontains hmeets
    obtain ⟨old, hold⟩ := OrderedMap.contains_iff.1 hcontains
    refine hextends.meets hmeets fun node hnode => ⟨old, hold, ?_, hsound.nodes _ old hold⟩
    have hbare := get?_nodes_old hextracted.found hextracted.rewritten hfresh hold
    cases hbare.symm.trans hnode
    rfl
  constructor
  · intro id node hnode
    rcases constant_or_bare hextracted.rewritten hnode with ⟨s, hs, rfl⟩ | ⟨old, hold, rfl⟩
    · have hne := (plain_of_mem hplain hextracted hs).1
      have hneeds := hextracted.found.needs_iff.2 ⟨s, hs, rfl⟩
      obtain ⟨constant, _, hstored⟩ := (get?_of_extract hflat hextracted.before h hne).1 hneeds
      exact .inr (OrderedMap.contains_iff.2 ⟨_, hstored⟩)
    · exact hextends.knows (hsound.nodes id old hold)
  · intro id link hlink
    rcases constant_or_old hextracted.rewritten hlink with ⟨s, hs, rfl⟩ | hold
    · exact meets_constant hflat hfresh hlibrary hplain hextracted h hs
    · exact hkept (hwell.attached id link hold).2 (hsound.outputs id link hold)
  · intro id link hlink
    rcases constant_or_old hextracted.rewritten hlink with ⟨s, hs, rfl⟩ | hold
    · have hstored := (hextracted.found.isFree s hs).stored
      exact hkept (OrderedMap.contains_iff.2 ⟨s.node, hstored⟩)
        (meets_freeValue hlibrary hagrees hextracted hs)
    · exact hkept (hwell.attached id link hold).1 (hsound.inputs id link hold)

end

/-- A patch without nodes has no links. -/
theorem sound_of_nodes_eq_empty {definition : Patch} (hwell : definition.WellFormed)
    (hnodes : definition.nodes = .empty) : r.Sound definition := by
  have hlinks : ∀ id link, definition.links.get? id ≠ some link := by
    intro id link hlink
    have hattached := (hwell.attached id link hlink).1
    rw [hnodes] at hattached
    exact nomatch hattached
  refine ⟨fun id node hnode => ?_, fun id link hlink => absurd hlink (hlinks id link),
    fun id link hlink => absurd hlink (hlinks id link)⟩
  rw [hnodes] at hnode
  exact nomatch hnode

/-- Extraction keeps a project free of problems, if the library agrees with it on the pins of their
patches and the constants are plain. -/
theorem valid_of_extract (hflat : flat.Reachable)
    (hlibrary : ∀ path stored, library path = some stored → stored.Reachable)
    (hpatch : flat.patches.get? entry = some patch) (hfresh : Fresh entry library patch)
    (hagrees : flat.AgreesWith library) (hplain : settings.HasPlainConstants entry library)
    (hvalid : flat.problems = []) (h : (flat.extract entry library settings).outcome = .ok r) :
    r.problems = [] := by
  obtain ⟨after, supplies, hextracted⟩ := extracted_of_extract hflat hpatch h
  have hwell : ∀ path stored, library path = some stored → stored.WellFormed :=
    fun path stored hstored => (hlibrary path stored hstored).wellFormed
  have hsound := Project.problems_eq_nil_iff.1 hvalid
  have hextends := extends_of_extract hflat.wellFormed hfresh hagrees hplain hextracted h
  refine Project.problems_eq_nil_iff.2 fun path next hnext => ?_
  by_cases hentry : path = entry
  · obtain rfl : after = next := by
      rw [hentry] at hnext
      exact Option.some.inj (hextracted.result.symm.trans hnext)
    exact sound_entry hflat.wellFormed hfresh hwell hagrees hplain hextracted h
      (hsound entry patch hpatch)
  · obtain ⟨hneeded, hother⟩ := get?_of_extract hflat.wellFormed hpatch h hentry
    by_cases hneeds : patch.Needs flat library settings path
    · obtain ⟨constant, hconstant, hstored⟩ := hneeded hneeds
      obtain ⟨e, _, ⟨_, pin, _, _, hfor⟩, rfl⟩ := hneeds
      cases hstored.symm.trans hnext
      exact sound_of_nodes_eq_empty
        ((hwell _ constant hconstant).retitle e.constant constant.label constant.impls)
        ((hplain pin.type _ hfor).2.2 constant hconstant)
    · rw [hother hneeds] at hnext
      exact hextends.sound (hsound path next hnext)

end Extraction

/-! ### A house that has its types -/

namespace Lamps

/-- The room together with the types of its nodes. -/
def house : Project := shelf.store main room

theorem agreesWith_house : house.AgreesWith shelf.library := by
  intro path known stored hknown hstored
  rcases OrderedMap.get?_insert_eq_some.1 hknown with ⟨rfl, _⟩ | ⟨_, hshelf⟩
  · have hnone : shelf.library main = none := by decide +kernel
    exact nomatch hnone.symm.trans hstored
  · obtain rfl : known = stored := Option.some.inj (hshelf.symm.trans hstored)
    exact .of_interface_eq rfl

theorem plainConstants_shelf : Settings.HasPlainConstants {} main shelf.library := by
  have hboolean : Constants.standard.boolean ≠ main ∧
      Constants.standard.boolean.terminal? = none ∧
      shelf.library Constants.standard.boolean =
        some (source Constants.standard.boolean) := by
    decide +kernel
  have hothers : ∀ path ∈ [Constants.standard.number, Constants.standard.string],
      path ≠ main ∧ path.terminal? = none ∧ shelf.library path = none := by
    decide +kernel
  intro type constant hconstant
  have hcases : constant = Constants.standard.boolean ∨
      constant ∈ [Constants.standard.number, Constants.standard.string] := by
    cases type <;> cases hconstant <;> simp [Constants.standard]
  rcases hcases with rfl | hother
  · refine ⟨hboolean.1, hboolean.2.1, fun stored hstored => ?_⟩
    cases hboolean.2.2.symm.trans hstored
    rfl
  · obtain ⟨hne, hterminal, hnone⟩ := hothers constant hother
    exact ⟨hne, hterminal, fun stored hstored => nomatch hnone.symm.trans hstored⟩

/-- The room has two free values, and links from their constants take their place. -/
theorem valid_of_extract_house :
    house.problems = [] ∧ ∃ r, (house.extract main shelf.library {}).outcome = .ok r ∧
      (r.patches.get? main).map (·.links.size) = some 3 ∧ r.problems = [] := by
  have hrun : (house.extract main shelf.library {}).outcome.toOption.bind
      (fun r => (r.patches.get? main).map (·.links.size)) = some 3 := by
    decide +kernel
  obtain ⟨r, hr, hsize⟩ := Outcome.exists_of_toOption_bind hrun
  have hvalid : house.problems = [] := by decide +kernel
  have hroom : house.patches.get? main = some room := OrderedMap.get?_insert_self _ _ _
  have hhouse : house.Reachable := .stored main reachable_shelf reachable_room
  exact ⟨hvalid, r, hr, hsize, Extraction.valid_of_extract hhouse
    (fun _ _ hstored => .taken reachable_shelf hstored) hroom Extraction.fresh_room
    agreesWith_house plainConstants_shelf hvalid hr⟩

end Lamps

end Patchbay
