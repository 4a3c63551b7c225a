import FormFlow.Proofs.Commit
/-!
What a command does.

A command fails and leaves the editor as it was, or it repeats a connection inside the window and is ignored, or it
makes a change of its own on a copy of the graph (`Changes`) and the session adopts the result: stale references are
cleared, every node is placed, each cleared reference is warned about, and then the change is announced (`Adopts`).
There is no fourth outcome (`attempt_outcome`).
-/

set_option autoImplicit false

namespace FormFlow.Session

/-- A command of an editor, with its arguments. -/
inductive Command where
  | addNode (kind : Kind) (position : Point) (config : Members)
  | connect (source target : String)
  | disconnect (edge : String)
  | deleteNode (node : String)
  | updateConfig (node : String) (overlay : Members)

/-- The change that a command announces. -/
def Command.change : Command → Change
  | .addNode .. => .addNode
  | .connect .. => .connect
  | .disconnect _ => .disconnectEdge
  | .deleteNode _ => .deleteNode
  | .updateConfig .. => .updateConfig

variable {σ : Type}

/-- Whether a command succeeds or why not, and the session after it. -/
def attempt (s : Session σ) : Command → Except EditFault Unit × Session σ
  | .addNode kind position config =>
    let (result, after) := s.addNode kind position config
    (result.map fun _ => (), after)
  | .connect source target =>
    let (result, after) := s.connect source target
    (result.map fun _ => (), after)
  | .disconnect edge => s.disconnect edge
  | .deleteNode node => s.deleteNode node
  | .updateConfig node overlay => s.updateConfig node overlay

/-- The command succeeds. -/
def Succeeds (s : Session σ) (c : Command) : Prop := (s.attempt c).1 = .ok ()

/-- The command repeats the last connection inside the window. -/
inductive Repeats (s : Session σ) : Command → Prop where
  | connect {source target : String} :
    s.editor.isRepeat source target s.clock.now = true → Repeats s (.connect source target)

/-- The graph right after the command's own change, before it is repaired and placed. -/
inductive Changes (s : Session σ) : Command → Store → Prop where
  | addNode {kind : Kind} {position : Point} {config : Members} {id : String} {rest : TokenSupply} {c : Config}
    {changed : Store} :
    kind.isSentinel = false →
    s.tokens.freshName (fun t => kind.code ++ "_" ++ t) s.editor.store.ids = some (id, rest) →
    Config.parse kind config = .ok c →
    s.editor.store.copy.addNode (.unplaced id c position) = .ok changed →
    Changes s (.addNode kind position config) changed
  | connect {source target : String} {plan : ConnectionPlan} {rest : TokenSupply} {changed : Store} :
    s.editor.isRepeat source target s.clock.now = false →
    s.editor.store.planConnection source target s.tokens = .ok (plan, rest) →
    plan.apply s.editor.store.copy = .ok changed → Changes s (.connect source target) changed
  | disconnect {id : String} {e : Edge} {changed : Store} :
    s.editor.store.edge? id = some e → s.editor.store.copy.disconnected e = .ok changed →
    Changes s (.disconnect id) changed
  | deleteNode {id : String} {n : Node} {changed : Store} :
    s.editor.store.node? id = some n → n.kind.isSentinel = false → s.editor.store.copy.deleted n = .ok changed →
    Changes s (.deleteNode id) changed
  | updateConfig {id : String} {overlay : Members} {n : Node} {c : Config} {fetched : Session σ} {changed : Store} :
    s.editor.store.node? id = some n → n.config.merge overlay = .ok c →
    s.fetchChosen c.targetObject overlay = (.ok (), fetched) →
    s.editor.store.copy.reconfigured id (fetched.reconciled c) = .ok changed →
    Changes s (.updateConfig id overlay) changed

/-- What is added to the announcements: all of it, if anyone listens. -/
def heard (s : Session σ) (events : List Event) : List Event := if s.isHeard then events else []

/-- The connection that the editor remembers once a command has succeeded. -/
def remembered (s : Session σ) : Command → Option Connection
  | .connect source target => some ⟨source, target, s.clock.now⟩
  | _ => s.editor.lastConnect

/-- The session after it adopted a changed graph: the graph is repaired and placed, and every reference that was
cleared is warned about before the change is announced, with the numbers of nodes and edges that there are now. -/
structure Adopts (s : Session σ) (kind : Change) (last : Option Connection) (changed : Store) (after : Session σ) :
    Prop where
  placed : (changed.repair s.editor.store.loopReferences).1.recompute = .ok after.editor.store
  form : after.editor.form = s.editor.form
  window : after.editor.window = s.editor.window
  lastConnect : after.editor.lastConnect = last
  warnings : after.editor.warnings = s.editor.warnings ++ (changed.repair s.editor.store.loopReferences).2
  events : ∃ ids, after.events = s.events ++ s.heard ((changed.repair s.editor.store.loopReferences).2.map .warned ++
    [.changed kind ids after.editor.store.nodes.length after.editor.store.links.length])

/-- The sessions have one clock, one supply of tokens and one audience. Editor, desk and announcements may differ. -/
structure SameSetting (d s : Session σ) : Prop where
  clock : d.clock = s.clock
  tokens : d.tokens = s.tokens
  isHeard : d.isHeard = s.isHeard

theorem SameSetting.trans {d s r : Session σ} (h : d.SameSetting s) (hs : s.SameSetting r) : d.SameSetting r :=
  ⟨h.clock.trans hs.clock, h.tokens.trans hs.tokens, h.isHeard.trans hs.isHeard⟩

/-! ## Announcements -/

theorem sameSetting_announce (s : Session σ) (e : Event) : (s.announce e).SameSetting s := by
  unfold announce
  split <;> exact ⟨rfl, rfl, rfl⟩

theorem editor_announce (s : Session σ) (e : Event) : (s.announce e).editor = s.editor := by
  unfold announce
  split <;> rfl

theorem events_announce (s : Session σ) (e : Event) : (s.announce e).events = s.events ++ s.heard [e] := by
  unfold announce heard
  split
  · rfl
  · exact (List.append_nil _).symm

theorem heard_append (s : Session σ) (before after : List Event) :
    s.heard (before ++ after) = s.heard before ++ s.heard after := by
  unfold heard
  split
  · rfl
  · rfl

/-- Warnings are kept and announced in their order. -/
theorem foldl_warn (warnings : List Warning) (s : Session σ) :
    (warnings.foldl warn s).editor = { s.editor with warnings := s.editor.warnings ++ warnings } ∧
      (warnings.foldl warn s).SameSetting s ∧
      (warnings.foldl warn s).events = s.events ++ s.heard (warnings.map .warned) := by
  induction warnings generalizing s with
  | nil => exact ⟨by simp, ⟨rfl, rfl, rfl⟩, by simp [heard]⟩
  | cons w warnings ih =>
    have heditor : (s.warn w).editor = { s.editor with warnings := s.editor.warnings ++ [w] } := editor_announce _ _
    have hsetting : (s.warn w).SameSetting s := (sameSetting_announce _ _).trans ⟨rfl, rfl, rfl⟩
    have hevents : (s.warn w).events = s.events ++ s.heard [.warned w] := events_announce _ _
    obtain ⟨hrest, hrestSetting, hrestEvents⟩ := ih (s.warn w)
    refine ⟨?_, hrestSetting.trans hsetting, ?_⟩
    · rw [List.foldl_cons, hrest, heditor]
      simp
    · have hsame : (s.warn w).heard (warnings.map .warned) = s.heard (warnings.map .warned) := by
        unfold heard
        rw [hsetting.isHeard]
      rw [List.foldl_cons, hrestEvents, hevents, hsame, List.append_assoc, ← heard_append]
      rfl

/-! ## Outcomes -/

/-- A commit fails and changes nothing, or the session adopts what its change makes of a copy. -/
theorem commit_cases (s : Session σ) (kind : Change) (ids : List String) (change : Store → Except EditFault Store) :
    (∃ f, s.commit kind ids change = (.error f, s)) ∨
      ∃ changed s', change s.editor.store.copy = .ok changed ∧ s.commit kind ids change = (.ok (), s') ∧
        s.Adopts kind s.editor.lastConnect changed s' := by
  unfold commit
  cases hcommit : s.editor.store.commit change with
  | error f => exact Or.inl ⟨f, rfl⟩
  | ok result =>
    obtain ⟨warnings, u⟩ := result
    obtain ⟨changed, hchange, hplaced, rfl⟩ := Store.commit_eq_ok hcommit
    obtain ⟨heditor, hsetting, hevents⟩ := foldl_warn (changed.repair s.editor.store.loopReferences).2
      { s with editor := { s.editor with store := u } }
    refine Or.inr ⟨changed, _, hchange, rfl, ?_, ?_, ?_, ?_, ?_, ids, ?_⟩
    · rw [editor_announce, heditor]
      exact hplaced
    · rw [editor_announce, heditor]
    · rw [editor_announce, heditor]
    · rw [editor_announce, heditor]
    · rw [editor_announce, heditor]
    · rw [events_announce, hevents, heard_append, ← List.append_assoc, editor_announce, heditor]
      unfold heard
      rw [hsetting.isHeard]

theorem sameSetting_of_commit {s after : Session σ} {kind : Change} {ids : List String}
    {change : Store → Except EditFault Store} {result : Except EditFault Unit}
    (h : s.commit kind ids change = (result, after)) : after.SameSetting s := by
  unfold commit at h
  split at h
  · cases h
    exact ⟨rfl, rfl, rfl⟩
  · cases h
    exact (sameSetting_announce _ _).trans ((foldl_warn _ _).2.1.trans ⟨rfl, rfl, rfl⟩)

/-- A commit succeeds if its change does and the result can be placed. -/
theorem exists_commit (s : Session σ) (kind : Change) (ids : List String) {change : Store → Except EditFault Store}
    {t u : Store} (hchange : change s.editor.store.copy = .ok t)
    (hu : (t.repair s.editor.store.loopReferences).1.recompute = .ok u) :
    ∃ s', s.commit kind ids change = (.ok (), s') ∧ s'.editor.store = u := by
  have hcommit : s.editor.store.commit change = .ok ((t.repair s.editor.store.loopReferences).2, u) := by
    simp only [Store.commit, Store.transact, hchange, hu]
  refine ⟨_, by simp only [commit, hcommit]; rfl, ?_⟩
  rw [editor_announce, (foldl_warn _ _).1]

/-- The outcomes of a command. -/
inductive Outcome (s : Session σ) (c : Command) : Prop where
  | fails (f : EditFault) : (s.attempt c).1 = .error f → (s.attempt c).2.editor = s.editor →
    (s.attempt c).2.events = s.events → Outcome s c
  | ignored : s.Repeats c → s.Succeeds c → (s.attempt c).2.editor = s.editor →
    (s.attempt c).2.events = s.events → Outcome s c
  | adopted (changed : Store) : s.Changes c changed → s.Succeeds c →
    s.Adopts c.change (s.remembered c) changed (s.attempt c).2 → Outcome s c

variable {s d : Session σ} {c : Command}

/-- The sessions hold one editor and have announced the same to the same audience. Desk, clock and tokens may differ. -/
structure SameEditor (d s : Session σ) : Prop where
  editor : d.editor = s.editor
  isHeard : d.isHeard = s.isHeard
  events : d.events = s.events

theorem SameEditor.adopts {after : Session σ} {changed : Store} {kind : Change} {last : Option Connection}
    (h : d.SameEditor s) (hd : d.Adopts kind last changed after) : s.Adopts kind last changed after := by
  obtain ⟨heditor, hheard, hevents⟩ := h
  obtain ⟨hplaced, hform, hwindow, hlast, hwarnings, hannounced⟩ := hd
  unfold heard at hannounced
  rw [heditor] at hplaced hform hwindow hwarnings hannounced
  rw [hheard, hevents] at hannounced
  exact ⟨hplaced, hform, hwindow, hlast, hwarnings, hannounced⟩

/-- What a command that commits a change comes to. -/
theorem Outcome.of_commit (kind : Change) (ids : List String) (change : Store → Except EditFault Store)
    (finish : Session σ → Except EditFault Unit × Session σ) (hd : d.SameEditor s)
    (hattempt : s.attempt c = match d.commit kind ids change with
      | (.error f, after) => (.error f, after)
      | (.ok (), after) => finish after)
    (hchanges : ∀ {changed}, change s.editor.store.copy = .ok changed → s.Changes c changed)
    (hfinish : ∀ {changed after}, change s.editor.store.copy = .ok changed →
      s.Adopts kind s.editor.lastConnect changed after →
      (finish after).1 = .ok () ∧ s.Adopts c.change (s.remembered c) changed (finish after).2) : s.Outcome c := by
  rcases d.commit_cases kind ids change with ⟨f, hfail⟩ | ⟨changed, after, hchange, hok, hadopts⟩
  · rw [hfail] at hattempt
    exact .fails f (congrArg Prod.fst hattempt) (hattempt ▸ hd.editor) (hattempt ▸ hd.events)
  · rw [hok] at hattempt
    rw [hd.editor] at hchange hadopts
    obtain ⟨hsucceeds, hlast⟩ := hfinish hchange (hd.adopts hadopts)
    exact .adopted changed (hchanges hchange) ((congrArg Prod.fst hattempt).trans hsucceeds) (hattempt ▸ hlast)

theorem Outcome.of_error {f : EditFault} (h : s.attempt c = (.error f, d)) (hd : d.SameEditor s) : s.Outcome c :=
  .fails f (congrArg Prod.fst h) (h ▸ hd.editor) (h ▸ hd.events)

theorem outcome_addNode (s : Session σ) (kind : Kind) (position : Point) (config : Members) :
    s.Outcome (.addNode kind position config) := by
  cases hkind : kind.isSentinel with
  | true => exact .of_error (d := s) (by simp only [attempt, addNode, hkind]; rfl) ⟨rfl, rfl, rfl⟩
  | false =>
    cases hname : s.tokens.freshName (fun t => kind.code ++ "_" ++ t) s.editor.store.ids with
    | none => exact .of_error (d := s) (by simp only [attempt, addNode, hkind, hname]; rfl) ⟨rfl, rfl, rfl⟩
    | some drawn =>
      obtain ⟨id, tokens⟩ := drawn
      cases hparse : Config.parse kind config with
      | error f =>
        exact .of_error (d := { s with tokens := tokens })
          (by simp only [attempt, addNode, hkind, hname, hparse]; rfl) ⟨rfl, rfl, rfl⟩
      | ok c =>
        let finish := fun after : Session σ =>
          (((EditFault.ofStructure (after.editor.store.node id)).map fun _ => ()),
            after.note (.debug "node_added" [("node_id", .text id), ("kind", .text kind.code)]))
        refine .of_commit (d := { s with tokens := tokens }) .addNode [id]
          (fun draft => EditFault.ofStructure (draft.addNode (.unplaced id c position))) finish ⟨rfl, rfl, rfl⟩ ?_
          (fun hchange => .addNode hkind hname hparse (EditFault.ofStructure_eq_ok_iff.mp hchange))
          fun {changed after} hchange hadopts =>
            ⟨?_, hadopts.placed, hadopts.form, hadopts.window, hadopts.lastConnect, hadopts.warnings, hadopts.events⟩
        · simp only [attempt, addNode, hkind, hname, hparse, finish]
          rcases Session.commit _ _ _ _ with ⟨_ | ⟨⟩, after⟩
          · rfl
          · rfl
        · -- The node that was added is still there after repairing and placing.
          obtain ⟨-, rfl⟩ := Store.addNode_eq_ok (EditFault.ofStructure_eq_ok_iff.mp hchange)
          have hid : id ∈ after.editor.store.ids := by
            rw [(Store.alike_of_repair hadopts.placed).ids_eq]
            simp [Store.ids, Node.unplaced]
          obtain ⟨n, hn⟩ := Store.exists_node? hid
          simp only [finish, Store.node_eq_ok_iff.mpr hn]
          rfl

theorem outcome_connect (s : Session σ) (source target : String) : s.Outcome (.connect source target) := by
  cases hrepeat : s.editor.isRepeat source target s.clock.now with
  | true =>
    have hattempt : s.attempt (.connect source target) =
        (.ok (), s.note (.debug "connect_debounced" [("source", .text source), ("target", .text target)])) := by
      simp only [attempt, connect, hrepeat]
      rfl
    exact .ignored (.connect hrepeat) (congrArg Prod.fst hattempt) (hattempt ▸ rfl) (hattempt ▸ rfl)
  | false =>
    cases hplan : s.editor.store.planConnection source target s.tokens with
    | error f =>
      cases f with
      | rejected r =>
        refine .of_error (f := .rejected r source target) (d := s.note (.info "connection_rejected"
          [("source", .text source), ("target", .text target), ("reason", .text r.code)])) ?_ ⟨rfl, rfl, rfl⟩
        simp only [attempt, connect, hrepeat, hplan]
        rfl
      | tokensExhausted =>
        exact .of_error (d := s) (by simp only [attempt, connect, hrepeat, hplan]; rfl) ⟨rfl, rfl, rfl⟩
    | ok planned =>
      obtain ⟨plan, tokens⟩ := planned
      let finish := fun after : Session σ => (Except.ok (ε := EditFault) (),
        { after with editor := { after.editor with lastConnect := some ⟨source, target, s.clock.now⟩ } }.note
          (connectedEntry source target plan.guard))
      refine .of_commit (d := { s with tokens := tokens }) .connect ([source, target] ++ plan.guard.toList.map (·.id))
        (fun draft => EditFault.ofStructure (plan.apply draft)) finish ⟨rfl, rfl, rfl⟩ ?_
        (fun hchange => .connect hrepeat hplan (EditFault.ofStructure_eq_ok_iff.mp hchange))
        fun _ hadopts => ⟨rfl, hadopts.placed, hadopts.form, hadopts.window, rfl, hadopts.warnings, hadopts.events⟩
      simp only [attempt, connect, hrepeat, hplan, finish]
      rcases hcommit : Session.commit _ _ _ _ with ⟨_ | ⟨⟩, after⟩
      · rfl
      · rw [← (sameSetting_of_commit hcommit).clock]
        rfl

theorem outcome_disconnect (s : Session σ) (id : String) : s.Outcome (.disconnect id) := by
  cases he : s.editor.store.edge id with
  | error f => exact .of_error (d := s) (by simp only [attempt, disconnect, he]; rfl) ⟨rfl, rfl, rfl⟩
  | ok e =>
    refine .of_commit (d := s) .disconnectEdge [e.source, e.target]
      (fun draft => draft.disconnected e) (fun after => (.ok (), after)) ⟨rfl, rfl, rfl⟩ ?_
      (.disconnect (Store.edge_eq_ok_iff.mp he)) fun _ hadopts => ⟨rfl, hadopts⟩
    simp only [attempt, disconnect, he]
    rcases Session.commit _ _ _ _ with ⟨_ | ⟨⟩, after⟩
    · rfl
    · rfl

theorem outcome_deleteNode (s : Session σ) (id : String) : s.Outcome (.deleteNode id) := by
  cases hn : s.editor.store.node id with
  | error f => exact .of_error (d := s) (by simp only [attempt, deleteNode, hn]; rfl) ⟨rfl, rfl, rfl⟩
  | ok n =>
    cases hkind : n.kind.isSentinel with
    | true => exact .of_error (d := s) (by simp only [attempt, deleteNode, hn, hkind]; rfl) ⟨rfl, rfl, rfl⟩
    | false =>
      refine .of_commit (d := s) .deleteNode [id] (fun draft => draft.deleted n)
        (fun after => (.ok (), after.note (.debug "node_deleted" [("node_id", .text id), ("kind", .text n.kind.code)])))
        ⟨rfl, rfl, rfl⟩ ?_ (.deleteNode (Store.node_eq_ok_iff.mp hn) hkind)
        fun _ hadopts =>
          ⟨rfl, hadopts.placed, hadopts.form, hadopts.window, hadopts.lastConnect, hadopts.warnings, hadopts.events⟩
      simp only [attempt, deleteNode, hn, hkind]
      rcases Session.commit _ _ _ _ with ⟨_ | ⟨⟩, after⟩
      · rfl
      · rfl

/-- Fetching fields touches the desk only. -/
theorem exists_fetchChosen (s : Session σ) (object : String) (overlay : Members) :
    ∃ desk, (s.fetchChosen object overlay).2 = { s with desk := desk } := by
  unfold fetchChosen
  split
  · split
    · exact ⟨_, rfl⟩
    · exact ⟨_, rfl⟩
  · exact ⟨s.desk, rfl⟩

theorem sameEditor_fetchChosen (s : Session σ) (object : String) (overlay : Members) :
    (s.fetchChosen object overlay).2.SameEditor s := by
  obtain ⟨desk, hdesk⟩ := s.exists_fetchChosen object overlay
  exact hdesk ▸ ⟨rfl, rfl, rfl⟩

theorem outcome_updateConfig (s : Session σ) (id : String) (overlay : Members) :
    s.Outcome (.updateConfig id overlay) := by
  cases hn : s.editor.store.node id with
  | error f => exact .of_error (d := s) (by simp only [attempt, updateConfig, hn]; rfl) ⟨rfl, rfl, rfl⟩
  | ok n =>
    cases hmerge : n.config.merge overlay with
    | error f => exact .of_error (d := s) (by simp only [attempt, updateConfig, hn, hmerge]; rfl) ⟨rfl, rfl, rfl⟩
    | ok c =>
      have hsame := s.sameEditor_fetchChosen c.targetObject overlay
      rcases hfetch : s.fetchChosen c.targetObject overlay with ⟨f | _, fetched⟩
      · rw [hfetch] at hsame
        exact .of_error (d := fetched) (by simp only [attempt, updateConfig, hn, hmerge, hfetch]; rfl) hsame
      · rw [hfetch] at hsame
        refine .of_commit (d := fetched) .updateConfig [id]
          (fun draft => draft.reconfigured id (fetched.reconciled c)) (fun after => (.ok (), after)) hsame ?_
          (.updateConfig (Store.node_eq_ok_iff.mp hn) hmerge hfetch) fun _ hadopts => ⟨rfl, hadopts⟩
        simp only [attempt, updateConfig, hn, hmerge, hfetch]
        rcases Session.commit _ _ _ _ with ⟨_ | ⟨⟩, after⟩
        · rfl
        · rfl

/-- **Every command fails, is ignored, or has its change adopted.** -/
theorem attempt_outcome (s : Session σ) (c : Command) : s.Outcome c := by
  cases c with
  | addNode kind position config => exact s.outcome_addNode kind position config
  | connect source target => exact s.outcome_connect source target
  | disconnect edge => exact s.outcome_disconnect edge
  | deleteNode node => exact s.outcome_deleteNode node
  | updateConfig node overlay => exact s.outcome_updateConfig node overlay

end FormFlow.Session
