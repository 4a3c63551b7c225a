import FormFlow.Graph.Connection
import FormFlow.Graph.Cycle
/-!
The structure of a whole graph.

`checkStructure` names the first rule that a graph breaks: both sentinels are there, each of its kind and the only one;
nothing enters the start or leaves the end; there is no cycle; only a Path has more than one edge out, and each of its
edges leads to a Condition that goes on with one edge of the same group; and every group has two edges.
-/

set_option autoImplicit false

namespace FormFlow.Store

/-- How many edges belong to a group. -/
def groupSize (s : Store) (group : String) : Nat :=
  s.groups.count group

/-- Refuses under a condition. -/
def refuseIf (bad : Bool) (fault : StructureFault) : Except StructureFault Unit :=
  if bad then .error fault else .ok ()

/-- A sentinel is there and of its kind. -/
def checkSentinel (s : Store) (id : String) (kind : Kind) : Except StructureFault Unit :=
  match s.node? id with
  | none => .error (.missingSentinel id)
  | some n => refuseIf (n.kind ≠ kind) (.wrongSentinel id kind)

/-- A node is no second sentinel. -/
def checkOrdinary (n : Node) : Except StructureFault Unit :=
  refuseIf (n.kind.isSentinel && n.id ≠ startId && n.id ≠ finishId) (.secondSentinel n.id n.kind)

/-- An edge out of a Path leads to a guard that continues its branch. -/
def checkBranch (s : Store) (path : Node) (first : Edge) : Except StructureFault Unit := do
  match first.group with
  | none => throw (.unguardedBranch path.id first.target)
  | some group =>
    let guard ← s.node first.target
    refuseIf (guard.kind ≠ .condition) (.guardOfWrongKind path.id guard.id)
    let onward := s.outgoing guard.id
    refuseIf (onward.length ≠ 1 || onward.any fun e => e.group ≠ some group) (.brokenBranch guard.id)
    refuseIf (s.groupSize group ≠ 2) (.wrongGroupSize group (s.groupSize group))

/-- The edges out of a node are as many as its kind allows, and those of a Path are guarded. -/
def checkOutgoing (s : Store) (n : Node) : Except StructureFault Unit := do
  let out := s.outgoing n.id
  if n.kind ≠ .path then refuseIf (out.length > 1) (.tooManySuccessors n.id out.length)
  else
    refuseIf (out.length > branchLimit) (.tooManyBranches n.id out.length branchLimit)
    out.forM (s.checkBranch n)

/-- The first rule that the graph breaks. -/
def checkStructure (s : Store) : Except StructureFault Unit := do
  s.checkSentinel startId .start
  s.checkSentinel finishId .finish
  s.nodes.forM checkOrdinary
  refuseIf (!(s.incoming startId).isEmpty) .intoStart
  refuseIf (!(s.outgoing finishId).isEmpty) .outOfFinish
  match s.graph.findCycle with
  | some ids => throw (.cycle ids)
  | none => pure ()
  s.nodes.forM s.checkOutgoing
  s.groups.eraseDups.forM fun g => refuseIf (s.groupSize g ≠ 2) (.wrongGroupSize g (s.groupSize g))

end FormFlow.Store
