import Patchbay.Project.Basic

/-! The checks that need a whole project: node types have to be there, and links have to run from an
output pin to an input pin of the linked nodes' types. -/

namespace Patchbay.Project

/-- A node of an ordinary type that the project lacks. Terminals are built in and need no patch. -/
def nodeProblem? (project : Project) (node : Node) : Option ProjectError :=
  if !node.isTerminal && !project.patches.contains node.type then
    some (.lookup (.patchNotFound node.type))
  else none

/-- What is wrong with one end of a link, whose pin should have the given direction. An end whose
node has no type in the project passes. -/
def endpointProblem? (project : Project) (patch : Patch) (link : Link) (direction : Direction)
    (endpoint : Endpoint) : Option ProjectError := do
  let node ← patch.nodes.get? endpoint.node
  let type ← project.patches.get? node.type
  match type.pin? endpoint.pin with
  | none => some (.lookup (.pinNotFound type.path endpoint.pin))
  | some pin =>
    if pin.direction = direction then none
    else some (.directionMismatch patch.path link.id endpoint.pin)

/-- The problems of a link, those of its output end first. -/
def linkProblems (project : Project) (patch : Patch) (link : Link) : List ProjectError :=
  (project.endpointProblem? patch link .output link.output).toList ++
    (project.endpointProblem? patch link .input link.input).toList

/-- The problems of a patch, those of its nodes first. -/
def patchProblems (project : Project) (patch : Patch) : List ProjectError :=
  patch.nodes.values.filterMap project.nodeProblem? ++
    patch.links.values.flatMap (project.linkProblems patch)

/-- All problems of a project, in patch order. -/
def problems (project : Project) : List ProjectError :=
  project.patches.values.flatMap project.patchProblems

end Patchbay.Project
