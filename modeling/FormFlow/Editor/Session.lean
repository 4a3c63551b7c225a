import FormFlow.Editor.Commit
import FormFlow.Schema.Desk
/-!
A session with an editor: the commands that change a workflow.

Each command gives its result or a fault, and the session after it. A command that succeeds announces its warnings and
then the change. A command that fails leaves the editor as it was and announces nothing; tokens that it drew stay
drawn, and field lists that it fetched stay fetched.
-/

set_option autoImplicit false

namespace FormFlow

/-- An editor, the desk and clock it works with, the tokens for new ids, and what it announced. -/
structure Session (σ : Type) where
  editor : Editor
  desk : Desk σ
  clock : Clock
  tokens : TokenSupply
  /-- Whether anyone listens to announcements. -/
  isHeard : Bool
  events : List Event

namespace Store

/-- The store without a branch: the guard between its two edges goes, and with it the edges. -/
def withoutBranch (s : Store) (group : String) : Except EditFault Store :=
  match s.branchEdges group with
  | [first, _] => EditFault.ofStructure (s.withoutNode first.target)
  | others => .error (.brokenGroup others.length)

/-- The store without an edge, or without the branch that the edge belongs to. -/
def disconnected (s : Store) (e : Edge) : Except EditFault Store :=
  match e.group with
  | none => EditFault.ofStructure ((s.removeEdge e.id).map (·.2))
  | some group => s.withoutBranch group

/-- The guards that go with a node: those of its branches if it is a Path, and those of branches that lead to it. -/
def guardsOf (s : Store) (n : Node) : List String :=
  let own := if n.kind = .path then (s.pathBranches n.id).map fun (first, _) => first.target else []
  let leading := (s.incoming n.id).filter fun e => e.group.isSome && s.kind? e.source == some .condition
  (own ++ leading.map (·.source)).eraseDups

/-- The store without a node and the guards that go with it. -/
def deleted (s : Store) (n : Node) : Except EditFault Store :=
  EditFault.ofStructure ((s.guardsOf n ++ [n.id]).foldlM withoutNode s)

/-- The store with another configuration of a node. -/
def reconfigured (s : Store) (id : String) (c : Config) : Except EditFault Store :=
  EditFault.ofStructure do
    let n ← s.node id
    s.replaceNode { n with config := c }

end Store

namespace Config

/-- The configuration with its conditions reconciled to the types of fields. Loops are not: their conditions are not
about an object. -/
def reconcile (types : List (String × String)) : Config → Config
  | createOrUpdate c => createOrUpdate { c with conditions := c.conditions.reconcile types }
  | find c => find { c with conditions := c.conditions.reconcile types }
  | filter c => filter { c with query := { c.query with conditions := c.query.conditions.reconcile types } }
  | condition c => condition { c with conditions := c.conditions.reconcile types }
  | c => c

end Config

namespace Session

variable {σ : Type}

/-- Adds an entry to the log. -/
def note (s : Session σ) (e : LogEntry) : Session σ := { s with desk := s.desk.note e }

/-- Announces an event if anyone listens. -/
def announce (s : Session σ) (e : Event) : Session σ :=
  if s.isHeard then { s with events := s.events ++ [e] } else s

/-- Keeps a warning, notes it and announces it. -/
def warn (s : Session σ) (w : Warning) : Session σ :=
  let kept := { s with editor := { s.editor with warnings := s.editor.warnings ++ [w] } }
  (kept.note (.warning "stale_reference_cleared" [
    ("code", .text Warning.code), ("node_ids", Value.texts w.nodeIds), ("message", .text w.message)])).announce
      (.warned w)

/-- Commits a change that touches nodes. -/
def commit (s : Session σ) (kind : Change) (ids : List String) (change : Store → Except EditFault Store) :
    Except EditFault Unit × Session σ :=
  match s.editor.store.commit change with
  | .error f => (.error f, s)
  | .ok (warnings, store) =>
    let changed := { s with editor := { s.editor with store := store } }
    (.ok (), (warnings.foldl warn changed).announce (.changed kind ids store.nodes.length store.links.length))

/-- Adds a node that is not connected yet. Its id is drawn before its configuration is read. -/
def addNode (s : Session σ) (kind : Kind) (position : Point) (config : Members) :
    Except EditFault Node × Session σ :=
  if kind.isSentinel then (.error (.graph (.sentinelAdded kind)), s)
  else
    match s.tokens.freshName (fun t => kind.code ++ "_" ++ t) s.editor.store.ids with
    | none => (.error .tokensExhausted, s)
    | some (id, tokens) =>
      let s := { s with tokens := tokens }
      match Config.parse kind config with
      | .error f => (.error (.config id f), s)
      | .ok c =>
        match s.commit .addNode [id] (fun draft => EditFault.ofStructure (draft.addNode (.unplaced id c position))) with
        | (.error f, s) => (.error f, s)
        | (.ok (), s) =>
          let s := s.note (.debug "node_added" [("node_id", .text id), ("kind", .text kind.code)])
          (EditFault.ofStructure (s.editor.store.node id), s)

/-- The log entry about an accepted connection. -/
def connectedEntry (source target : String) : Option Node → LogEntry
  | some guard =>
    .info "branch_synthesized" [("path", .text source), ("target", .text target), ("condition", .text guard.id)]
  | none => .debug "connection_accepted" [("source", .text source), ("target", .text target)]

/-- Connects two nodes, through a guard if the first is a Path, and returns the edges. A repeat of the last connection
inside the window is ignored and returns none. -/
def connect (s : Session σ) (source target : String) : Except EditFault (List Edge) × Session σ :=
  let ends : Members := [("source", .text source), ("target", .text target)]
  if s.editor.isRepeat source target s.clock.now then (.ok [], s.note (.debug "connect_debounced" ends))
  else
    match s.editor.store.planConnection source target s.tokens with
    | .error (.rejected r) =>
      (.error (.rejected r source target), s.note (.info "connection_rejected" (ends ++ [("reason", .text r.code)])))
    | .error .tokensExhausted => (.error .tokensExhausted, s)
    | .ok (plan, tokens) =>
      let touched := [source, target] ++ plan.guard.toList.map (·.id)
      let drawn := { s with tokens := tokens }
      match drawn.commit .connect touched (fun draft => EditFault.ofStructure (plan.apply draft)) with
      | (.error f, s) => (.error f, s)
      | (.ok (), s) =>
        let last := some (Connection.mk source target s.clock.now)
        (.ok plan.edges,
          { s with editor := { s.editor with lastConnect := last } }.note (connectedEntry source target plan.guard))

/-- Removes an edge; an edge of a branch takes the branch with it. -/
def disconnect (s : Session σ) (id : String) : Except EditFault Unit × Session σ :=
  match s.editor.store.edge id with
  | .error f => (.error (.graph f), s)
  | .ok e => s.commit .disconnectEdge [e.source, e.target] fun draft => draft.disconnected e

/-- Removes a node with its edges, and the guards that go with it. -/
def deleteNode (s : Session σ) (id : String) : Except EditFault Unit × Session σ :=
  match s.editor.store.node id with
  | .error f => (.error (.graph f), s)
  | .ok n =>
    if n.kind.isSentinel then (.error (.graph .sentinelDeleted), s)
    else
      match s.commit .deleteNode [id] (fun draft => draft.deleted n) with
      | (.error f, s) => (.error f, s)
      | (.ok (), s) => (.ok (), s.note (.debug "node_deleted" [("node_id", .text id), ("kind", .text n.kind.code)]))

/-- Fetches the fields of an object that was chosen, if there is a source to ask. -/
def fetchChosen (s : Session σ) (object : String) (overlay : Members) : Except EditFault Unit × Session σ :=
  if s.editor.hasSource && object != "" && (Members.get? overlay "target_object").isSome then
    match s.desk.fields object with
    | (.ok _, desk) => (.ok (), { s with desk := desk })
    | (.error f, desk) => (.error (.collaborator f), { s with desk := desk })
  else (.ok (), s)

/-- The configuration with operators that the fields of its object offer, as far as the fields are known. -/
def reconciled (s : Session σ) (c : Config) : Config :=
  if c.targetObject = "" then c
  else match s.desk.fieldTypes c.targetObject with
    | some types => c.reconcile types
    | none => c

/-- Overlays members on the configuration of a node. Choosing an object fetches its fields. -/
def updateConfig (s : Session σ) (id : String) (overlay : Members) : Except EditFault Unit × Session σ :=
  match s.editor.store.node id with
  | .error f => (.error (.graph f), s)
  | .ok n =>
    match n.config.merge overlay with
    | .error f => (.error (.config n.id f), s)
    | .ok c =>
      match s.fetchChosen c.targetObject overlay with
      | (.error f, s) => (.error f, s)
      | (.ok (), s) =>
        let c := s.reconciled c
        s.commit .updateConfig [id] fun draft => draft.reconfigured id c

/-- Moves the clock. A step back is refused. -/
def advance (s : Session σ) (step : Seconds) : Option (Session σ) :=
  (s.clock.advance step).map fun c => { s with clock := c }

/-- Why a workflow is not opened again. -/
inductive ReopenFault where
  | undumped (fault : DumpFault)
  | unopened (fault : OpenFault)
  deriving DecidableEq, Repr

/-- Opens the session's own document in a new editor. Field lists are kept if the cache is shared. -/
def reopen (s : Session σ) (sourceGiven cacheShared : Bool) : Except ReopenFault (Session σ) :=
  match s.editor.document "" with
  | .error f => .error (.undumped f)
  | .ok d =>
    match Editor.openOn d s.editor.window sourceGiven with
    | .error f => .error (.unopened f)
    | .ok e => .ok { s with editor := e, desk := if cacheShared then s.desk else s.desk.drop none }

end Session

end FormFlow
