import Patchbay.Proofs.Extraction.Delivery

/-! What an extraction leaves of the entry patch. Nodes and links stay as they are, apart from the
free values, unless their identifiers are derived for a free value, as those of an earlier
extraction are: then a constant or a link of the new extraction takes their place. -/

namespace Patchbay

variable {flat r : Project} {entry : PatchPath} {library : Library} {settings : Settings}
  {patch after : Patch} {supplies : List Supply}

/-- `after` agrees with `patch` apart from the free values and from what stands under the
identifiers that are derived for them. -/
structure Frame (entry : PatchPath) (library : Library) (settings : Settings)
    (patch after : Patch) : Prop where
  nodes_kept : ∀ id node, patch.nodes.get? id = some node →
    (∀ b : BoundValue, b.IsFree library patch → NodeId.derived (b.seed entry) ≠ id) →
    ∃ bound, after.nodes.get? id = some { node with bound } ∧
      ∀ pin value, bound.get? pin = some value ↔
        node.bound.get? pin = some value ∧ ¬ BoundValue.IsFree library patch ⟨node, pin, value⟩
  nodes_replaced : ∀ b : BoundValue, b.IsFree library patch →
    ∃ c : BoundValue, c.IsFree library patch ∧
      NodeId.derived (c.seed entry) = .derived (b.seed entry) ∧
      ∃ type output, after.nodes.get? (.derived (b.seed entry)) =
        some { id := .derived (b.seed entry), type, position := settings.placeholder
               bound := .ofList [(output, c.value)] }
  links_kept : ∀ id link, patch.links.get? id = some link →
    (∀ b : BoundValue, b.IsFree library patch → LinkId.derived (b.seed entry) ≠ id) →
    after.links.get? id = some link
  links_replaced : ∀ b : BoundValue, b.IsFree library patch →
    ∃ c : BoundValue, c.IsFree library patch ∧
      LinkId.derived (c.seed entry) = .derived (b.seed entry) ∧
      ∃ output, after.links.get? (.derived (b.seed entry)) =
        some { id := .derived (b.seed entry), input := ⟨c.node.id, c.pin⟩
               output := ⟨.derived (c.seed entry), output⟩ }
  path : after.path = patch.path
  label : after.label = patch.label
  pins : after.pins = patch.pins
  impls : after.impls = patch.impls

namespace Extraction

/-- Nothing but the free values and what stands under their derived identifiers is touched. -/
theorem frame_of_extract (hflat : flat.Reachable) (hpatch : flat.patches.get? entry = some patch)
    (h : (flat.extract entry library settings).outcome = .ok r) :
    ∃ after, r.patches.get? entry = some after ∧ Frame entry library settings patch after := by
  obtain ⟨after, supplies, hextracted⟩ := extracted_of_extract hflat hpatch h
  have hfound := hextracted.found
  have hrewritten := hextracted.rewritten
  have hwell := hflat.wellFormed.patches entry patch hpatch
  refine ⟨after, hextracted.result, ?_, ?_, ?_, ?_, hrewritten.path, hrewritten.label,
    hrewritten.pins, hrewritten.impls⟩
  · intro id node hnode hne
    exact ⟨(bare supplies node).bound, get?_nodes_of_ne hfound hrewritten hnode hne,
      fun pin value => bare_bound_eq_some_iff_not_isFree hwell hfound hnode⟩
  · intro b hb
    obtain ⟨s, hs, rfl⟩ := hfound.all b hb
    -- the last supply with this identifier, not always that of `b`
    obtain ⟨t, ht, hid, hconstant⟩ := exists_get?_nodes_derived hrewritten hs
    refine ⟨t.toBoundValue, hfound.isFree t ht, hid, t.constant, t.output, ?_⟩
    rw [hconstant, ← hid]
    rfl
  · exact fun id link => get?_links_of_ne hfound hrewritten
  · intro b hb
    obtain ⟨s, hs, rfl⟩ := hfound.all b hb
    obtain ⟨t, ht, hid, hlink⟩ := exists_get?_links_derived hrewritten hs
    refine ⟨t.toBoundValue, hfound.isFree t ht, hid, t.output, ?_⟩
    rw [hlink, ← hid]
    rfl

end Extraction

/-! ### A constant that serves another lamp -/

namespace Rewired

open Lamps (main lamp source shelf on out first second)

def constant : NodeId := .derived "@/main/first/on"

def wire : LinkId := .derived "@/main/first/on"

/-- The constant that an extraction made for the first lamp, with a name and another value. -/
def dark : Node :=
  { id := constant, type := Constants.standard.boolean, bound := .ofList [(out, .boolean false)]
    label := some "dark" }

/-- Since the constant was made its wire has been moved to the second lamp, and the first lamp has
got a literal again. -/
def room : Patch :=
  .run { path := main } [
    .insertNode { id := first, type := lamp.path, bound := .ofList [(on, .boolean true)] },
    .insertNode { id := second, type := lamp.path },
    .insertNode dark,
    .insertLink { id := wire, input := ⟨second, on⟩, output := ⟨constant, out⟩ }]

def project : Project := (Project.store {} lamp.path lamp).store main room

theorem reachable_project : project.Reachable :=
  .stored main (.stored lamp.path .newProject (Patch.Reachable.run (.newPatch _) _))
    (Patch.Reachable.run (.newPatch main) _)

theorem get?_room : project.patches.get? main = some room ∧
    room.nodes.get? constant = some dark ∧
    room.links.get? wire =
      some { id := wire, input := ⟨second, on⟩, output := ⟨constant, out⟩ } := by
  decide +kernel

/-- The literal of the constant stands at an output of its type. -/
theorem dark_not_isFree (value : Literal) :
    ¬ BoundValue.IsFree shelf.library room ⟨dark, out, value⟩ := by
  intro h
  have htype : shelf.library dark.type = some (source Constants.standard.boolean) := by
    decide +kernel
  have hout : ((source Constants.standard.boolean).outputs.map Pin.key).contains out := by
    decide +kernel
  obtain ⟨output, hmem, hkey⟩ := List.mem_map.1 (List.contains_iff_mem.1 hout)
  exact h.notOutput _ htype output hmem hkey

theorem exists_extract : ∃ r after, (project.extract main shelf.library {}).outcome = .ok r ∧
    r.patches.get? main = some after ∧
    after.nodes.get? constant =
      some { dark with bound := .ofList [(out, .boolean true)], label := none } ∧
    after.links.get? wire =
      some { id := wire, input := ⟨first, on⟩, output := ⟨constant, out⟩ } := by
  have hrun : (project.extract main shelf.library {}).outcome.toOption.bind (fun r =>
      (r.patches.get? main).map fun after =>
        (after.nodes.get? constant, after.links.get? wire)) =
      some (some { dark with bound := .ofList [(out, .boolean true)], label := none },
        some { id := wire, input := ⟨first, on⟩, output := ⟨constant, out⟩ }) := by
    decide +kernel
  obtain ⟨r, hr, hentries⟩ := Outcome.exists_of_toOption_bind hrun
  obtain ⟨after, hafter, hentries⟩ := Option.map_eq_some_iff.1 hentries
  exact ⟨r, after, hr, hafter, Prod.mk.inj hentries⟩

/-- The second lamp is kept, and so is everything apart from the constant and its wire. -/
theorem frame_rewired : ∃ r after, (project.extract main shelf.library {}).outcome = .ok r ∧
    r.patches.get? main = some after ∧ Frame main shelf.library {} room after := by
  obtain ⟨r, _, hr, _⟩ := exists_extract
  obtain ⟨after, hafter, hframe⟩ := Extraction.frame_of_extract reachable_project get?_room.1 hr
  exact ⟨r, after, hr, hafter, hframe⟩

/-- The extraction gives the constant the literal of the first lamp, drops its name and takes its
wire away from the second lamp. -/
theorem extraction_overwrites : ∃ r after,
    project.Reachable ∧ (project.extract main shelf.library {}).outcome = .ok r ∧
    project.patches.get? main = some room ∧ r.patches.get? main = some after ∧
    room.nodes.get? constant = some dark ∧
    (∀ value, ¬ BoundValue.IsFree shelf.library room ⟨dark, out, value⟩) ∧
    after.nodes.get? constant =
      some { dark with bound := .ofList [(out, .boolean true)], label := none } ∧
    room.links.get? wire =
      some { id := wire, input := ⟨second, on⟩, output := ⟨constant, out⟩ } ∧
    after.links.get? wire =
      some { id := wire, input := ⟨first, on⟩, output := ⟨constant, out⟩ } := by
  obtain ⟨hstored, hdark, hsecond⟩ := get?_room
  obtain ⟨r, after, hr, hafter, hconstant, hwire⟩ := exists_extract
  exact ⟨r, after, reachable_project, hr, hstored, hafter, hdark, dark_not_isFree, hconstant,
    hsecond, hwire⟩

end Rewired

end Patchbay
