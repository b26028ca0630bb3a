import Patchbay.Patch.Basic

/-! The order in which values flow through a patch: a depth-first search lists each node before the
nodes that it feeds, and a second search against the links finds out whether they form a cycle. -/

namespace Patchbay.Patch

/-- The nodes that a node feeds, most recent link first; a node is listed once per link. -/
def successors (patch : Patch) (id : NodeId) : List NodeId :=
  ((patch.linksFrom id).map (·.input.node)).reverse.filter patch.nodes.contains

/-- The nodes that feed a node, most recent link first. -/
def predecessors (patch : Patch) (id : NodeId) : List NodeId :=
  ((patch.linksTo id).map (·.output.node)).reverse.filter patch.nodes.contains

theorem length_erase_lt {id : NodeId} {unseen : List NodeId} (h : id ∈ unseen) :
    (unseen.erase id).length < unseen.length := by
  have := List.length_erase_of_mem h
  have := List.length_pos_of_mem h
  omega

/-- Works through a stack of nodes: an unseen node puts the unseen nodes that it feeds on top of
itself, and a node met again after those is finished. Gives the nodes still unseen and the finished
ones, last first, or a node that feeds itself. -/
def descend (patch : Patch) (unseen finished : List NodeId) :
    List NodeId → Except NodeId (List NodeId × List NodeId)
  | [] => .ok (unseen, finished)
  | id :: stack =>
    if _ : id ∈ unseen then
      if id ∈ patch.successors id then .error id
      else
        let next := (patch.successors id).filter (· ∈ unseen.erase id)
        descend patch (unseen.erase id) finished (next.reverse ++ id :: stack)
    else descend patch unseen (if id ∈ finished then finished else id :: finished) stack
termination_by stack => (unseen.length, stack.length)
decreasing_by
  · exact Prod.Lex.left _ _ (length_erase_lt ‹id ∈ unseen›)
  · exact Prod.Lex.right _ (Nat.lt_succ_self _)

/-- Follows the links backwards from a stack of nodes until a second unseen node is met, which is
then the answer; `found` says whether the first has been. Otherwise gives the nodes still unseen. -/
def ascend (patch : Patch) (found : Bool) (unseen : List NodeId) :
    List NodeId → Except NodeId (List NodeId)
  | [] => .ok unseen
  | id :: stack =>
    if _ : id ∈ unseen then
      if found then .error id
      else
        let next := (patch.predecessors id).filter (· ∈ unseen.erase id)
        ascend patch true (unseen.erase id) (next.reverse ++ stack)
    else ascend patch found unseen stack
termination_by stack => (unseen.length, stack.length)
decreasing_by
  · exact Prod.Lex.left _ _ (length_erase_lt ‹id ∈ unseen›)
  · exact Prod.Lex.right _ (Nat.lt_succ_self _)

/-- Searches from a node unless it has been seen. The state is that of `descend`. -/
def searchFrom (patch : Patch) (state : List NodeId × List NodeId) (id : NodeId) :
    Except NodeId (List NodeId × List NodeId) :=
  if id ∈ state.1 then patch.descend state.1 state.2 [id] else .ok state

/-- The nodes in the order in which a search from each of them finishes, last first. -/
def finishOrder (patch : Patch) : Except NodeId (List NodeId) :=
  (patch.nodes.keys.foldlM patch.searchFrom (patch.nodes.keys, [])).map Prod.snd

/-- The nodes ordered so that each comes after the nodes that feed it. A node on a cycle is
reported if there is one. -/
def topologicalOrder (patch : Patch) : Except StructuralError (List NodeId) :=
  (do
    let order ← patch.finishOrder
    let _ ← order.foldlM (fun unseen id => patch.ascend false unseen [id]) patch.nodes.keys
    return order).mapError .cycleDetected

end Patchbay.Patch
