import Mathlib.Data.List.Basic
import Patchbay.Bundle.Migration

/-! Migration without its events: each stage is a fold whose steps make a part and put it in place,
and the places of a patch are filled independently of each other. -/

namespace Patchbay

theorem Node.foldl_bind {node : Node} {bindings : List (PinKey × Literal)} :
    bindings.foldl (fun result c => result.bind c.1 c.2) node =
      { node with bound := bindings.foldl (fun m c => m.insert c.1 c.2) node.bound } := by
  refine List.foldl_hom (fun bound => { node with bound }) ?_
  exact fun _ _ => rfl

theorem Patch.foldl_addImpl {patch : Patch} {impls : List (String × String)} :
    impls.foldl (fun patch e => patch.addImpl e.1 e.2) patch =
      { patch with impls := impls.foldl (fun m e => m.insert e.1 e.2) patch.impls } := by
  refine List.foldl_hom (fun impls => { patch with impls }) ?_
  exact fun _ _ => rfl

theorem Project.foldl_store {project : Project} {patches : List Patch} :
    patches.foldl (fun project patch => project.store patch.path patch) project =
      { project with
        patches := patches.foldl (fun m patch => m.insert patch.path patch) project.patches } := by
  refine List.foldl_hom (fun patches => { project with patches }) ?_
  exact fun _ _ => rfl

namespace Bundle

open MigrationError

variable {entries : Entries} {entry : Entry} {patch old id : String}

theorem outcome_lift {ε α : Type} (x : Except ε α) : (liftM x : Traced ε α).outcome = x := rfl

/-- The pin and the literal of an injection. -/
def Instance.binding (node : Instance) (entries : Entries) (e : String × Injection) :
    Except MigrationError (PinKey × Literal) := do
  let pin ← validated (Identifier.parse e.1)
  let value ← (e.2.literal (entries.declaredType? node.type e.1) pin node.type).outcome
  return (pin, value)

theorem Instance.outcome_toNode {node : Instance} :
    (node.toNode entries patch old).outcome = (do
      let type ← validated (PatchPath.parse node.type)
      (node.pins.filter fun _ injection => injection.injected).toList.foldlM
        (fun (result : Node) e => node.binding entries e >>= fun c => pure (result.bind c.1 c.2))
        { id := .derived (seed patch old), type, position := node.position }) := by
  unfold Instance.toNode
  simp only [Traced.outcome_bind, Traced.outcome_foldlM, outcome_lift]
  congr 1
  funext type
  congr 1
  funext result e
  simp only [Instance.binding, Traced.outcome_pure, bind_assoc, pure_bind]
  rfl

theorem Entry.outcome_toPatch :
    (entry.toPatch entries id).outcome = (do
      let path ← validated (PatchPath.parse id)
      let withPins ← (entry.pins.filter fun _ slot => slot.node.isNone).toList.foldlM
        (fun patch e => validated (e.2.toPin e.1) >>= fun pin => attached (patch.insertPin pin))
        { path, label := entry.label }
      let withNodes ← entry.nodes.toList.foldlM (fun patch e =>
        (e.2.toNode entries id e.1).outcome >>= fun node => attached (patch.insertNode node))
        withPins
      entry.links.toList.foldlM
        (fun patch e => entry.link id e.1 e.2 >>= fun link => attached (patch.insertLink link))
        (entry.impls.toList.foldl (fun patch e => patch.addImpl e.1 e.2) withNodes)) := by
  unfold Entry.toPatch
  simp only [Traced.outcome_bind, Traced.outcome_foldlM, outcome_lift]
  rfl

theorem outcome_migrate {bundle : Json} :
    (migrate bundle).outcome = (do
      let entries ← Bundle.entries bundle
      entries.toList.foldlM (fun (project : Project) e =>
        (e.2.toPatch entries e.1).outcome >>= fun patch => pure (project.store patch.path patch))
        { authors := (author? bundle).toList }) := by
  unfold migrate
  simp only [Traced.outcome_bind, Traced.outcome_foldlM, outcome_lift]
  congr 1
  funext entries
  exact bind_pure _

end Bundle

end Patchbay
