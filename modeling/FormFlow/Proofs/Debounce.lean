import FormFlow.Proofs.Acceptance
import FormFlow.Proofs.LoopReferences
/-!
Connections that are repeated inside the window.

The editor remembers the connection that it accepted last, whatever became of it. A connect returns no edges exactly if
it repeats that connection inside the window (`fresh_ignored_iff`), and at that moment the two nodes are connected
unless an edge or a node was removed since then: disconnecting does not make the editor forget (`fresh_forsaken`).
-/

set_option autoImplicit false

namespace FormFlow

namespace Store

variable {s t : Store} {e : Edge} {source target : String}

/-- An edge leads from one node to the other, or a branch does. -/
def Joins (s : Store) (source target : String) : Prop :=
  (∃ e ∈ s.links, e.ends = (source, target)) ∨ s.LeadsTo source target

theorem Joins.mono (h : s.Joins source target) (hlinks : s.links ⊆ t.links) : t.Joins source target := by
  rcases h with ⟨e, he, hends⟩ | ⟨first, hfirst, second, hsecond, hbranch⟩
  · exact Or.inl ⟨e, hlinks he, hends⟩
  · exact Or.inr ⟨first, hlinks hfirst, second, hlinks hsecond, hbranch⟩

/-- A plan adds its edges and no others. -/
theorem mem_links_apply {p : ConnectionPlan} (h : p.apply s = .ok t) : e ∈ t.links ↔ e ∈ s.links ∨ e ∈ p.edges := by
  have hadded : ∀ {edges : List Edge} {u v : Store}, edges.foldlM Store.addEdge u = .ok v →
      (e ∈ v.links ↔ e ∈ u.links ∨ e ∈ edges) := by
    intro edges
    induction edges with
    | nil =>
      intro u v huv
      cases huv
      simp
    | cons f edges ih =>
      intro u v huv
      obtain ⟨w, hw, hrest⟩ := Table.bind_eq_ok.mp ((List.foldlM_cons ..).symm.trans huv)
      rw [ih hrest, mem_links_addEdge hw, List.mem_cons, or_assoc]
  obtain ⟨edges, guard⟩ := p
  cases guard with
  | none => exact hadded h
  | some g =>
    obtain ⟨u, hu, hedges⟩ := Table.bind_eq_ok.mp h
    rw [hadded hedges, links_addNode hu]

/-- A planned connection connects its ends. -/
theorem joins_of_apply {tokens rest : TokenSupply} {p : ConnectionPlan}
    (hplan : s.planConnection source target tokens = .ok (p, rest)) {u : Store} (h : p.apply u = .ok t) :
    t.Joins source target := by
  obtain ⟨-, ⟨-, rfl⟩ | ⟨-, guard, group, -, -, -, rfl⟩⟩ := planConnection_eq_ok hplan
  · exact Or.inl ⟨_, (mem_links_apply h).mpr (Or.inr List.mem_cons_self), rfl⟩
  · refine Or.inr ⟨_, (mem_links_apply h).mpr (Or.inr List.mem_cons_self), _,
      (mem_links_apply h).mpr (Or.inr (List.mem_cons_of_mem _ List.mem_cons_self)), rfl, rfl, nofun, rfl, rfl⟩

end Store

namespace Session

variable {σ : Type} {s : Session σ} {c : Command} {changed : Store} {source target : String}

/-! ## What commands do to a connection -/

/-- The command removes an edge or a node. -/
inductive Command.Removes : Command → Prop where
  | disconnect (edge : String) : Removes (.disconnect edge)
  | deleteNode (node : String) : Removes (.deleteNode node)

/-- Only the removal of an edge or a node takes edges away. -/
theorem Changes.links_subset (h : s.Changes c changed) (hwell : s.editor.store.WellFormed) (hc : ¬ c.Removes) :
    s.editor.store.links ⊆ changed.links := by
  intro e he
  have hcopy := hwell.alike_copy
  have hcopied := hcopy.mem_links.mpr he
  cases h with
  | addNode _ _ _ hadd => exact (Store.links_addNode hadd).symm ▸ hcopied
  | connect _ _ happly => exact (Store.mem_links_apply happly).mpr (Or.inl hcopied)
  | disconnect _ _ => exact absurd (.disconnect _) hc
  | deleteNode _ _ _ => exact absurd (.deleteNode _) hc
  | updateConfig _ _ _ hreconfigured =>
    exact (Store.alike_reconfigured ((hcopy.part hwell).wellFormed hwell) hreconfigured).mem_links.mpr hcopied

theorem joins_perform (h : s.editor.store.Joins source target) (hwell : s.editor.store.WellFormed)
    (hc : ¬ c.Removes) : (s.perform c).editor.store.Joins source target := by
  rcases s.perform_cases c with hsame | ⟨changed, hchanges, -, hadopts⟩
  · exact hsame.symm ▸ h
  · exact (h.mono (hchanges.links_subset hwell hc)).mono
      fun _ he => (Store.alike_of_repair hadopts.placed).mem_links.mpr he

/-- Some turn after the past takes the connection away: it is a command that removes an edge or a node, with the nodes
connected before it and not after it. -/
def Drops (s : Session σ) (past after : List (Turn σ)) (source target : String) : Prop :=
  ∃ between c, between ++ [.command c] <+: after ∧ c.Removes ∧
    (s.run (past ++ between)).editor.store.Joins source target ∧
    ¬ ((s.run (past ++ between)).perform c).editor.store.Joins source target

/-- A connection lasts until it is taken away. -/
theorem joins_or_drops (hgrounded : s.editor.store.Grounded) (past after : List (Turn σ))
    (h : (s.run past).editor.store.Joins source target) :
    (s.run (past ++ after)).editor.store.Joins source target ∨ s.Drops past after source target := by
  induction after using List.reverseRecOn with
  | nil => exact Or.inl (by rwa [List.append_nil])
  | append_singleton after turn ih =>
    rcases ih with hjoins | ⟨between, c, hbetween, hdropped⟩
    · rw [← List.append_assoc, run_concat]
      cases turn with
      | meanwhile desk clock => exact Or.inl hjoins
      | command c =>
        by_cases hafter : ((s.run (past ++ after)).perform c).editor.store.Joins source target
        · exact Or.inl hafter
        · refine Or.inr ⟨after, c, List.prefix_rfl, ?_, hjoins, hafter⟩
          by_contra hkeeps
          exact hafter (joins_perform hjoins (grounded_run _ s hgrounded).wellFormed hkeeps)
    · exact Or.inr ⟨between, c, hbetween.trans (List.prefix_append after [turn]), hdropped⟩

/-! ## What the editor remembers -/

/-- The connection is accepted: it is not repeated inside the window, and it is made. -/
def Accepts (s : Session σ) (source target : String) : Prop :=
  s.Succeeds (.connect source target) ∧ ¬ s.Repeats (.connect source target)

/-- The connection is the last one of the turns that was accepted, with what was before it and what came after. -/
structure LastAccepted (s : Session σ) (turns past after : List (Turn σ)) (source target : String) : Prop where
  turns_eq : turns = past ++ [.command (.connect source target)] ++ after
  accepts : (s.run past).Accepts source target
  later : ∀ between a b, between ++ [.command (.connect a b)] <+: after →
    ¬ (s.run (past ++ [.command (.connect source target)] ++ between)).Accepts a b

/-- A connect returns no edges exactly if it repeats the last connection inside the window. -/
theorem connect_eq_ok_nil_iff : (s.connect source target).1 = .ok [] ↔ s.Repeats (.connect source target) := by
  constructor
  · intro hnil
    by_contra hnew
    have hfirst : s.editor.isRepeat source target s.clock.now = false :=
      Bool.eq_false_iff.mpr fun hrepeat => hnew (.connect hrepeat)
    simp only [connect, hfirst, Bool.false_eq_true, ↓reduceIte] at hnil
    split at hnil
    · cases hnil
    · cases hnil
    · next plan rest hplan =>
      split at hnil
      · cases hnil
      · obtain ⟨-, ⟨-, rfl⟩ | ⟨-, guard, group, -, -, -, rfl⟩⟩ := Store.planConnection_eq_ok hplan
        · cases hnil
        · cases hnil
  · rintro ⟨hrepeat⟩
    simp only [connect, hrepeat, ↓reduceIte]

/-- A turn leaves the remembered connection as it is, or it is a connect that is accepted and remembered. -/
theorem lastConnect_turn (s : Session σ) (turn : Turn σ) :
    ((s.turn turn).editor.lastConnect = s.editor.lastConnect ∧
      ∀ a b, turn = .command (.connect a b) → ¬ s.Accepts a b) ∨
    ∃ a b, turn = .command (.connect a b) ∧ s.Accepts a b ∧
      (s.turn turn).editor.lastConnect = some ⟨a, b, s.clock.now⟩ := by
  cases turn with
  | meanwhile desk clock => exact Or.inl ⟨rfl, nofun⟩
  | command c =>
    show ((s.perform c).editor.lastConnect = _ ∧ _) ∨ ∃ a b, _ ∧ _ ∧ (s.perform c).editor.lastConnect = _
    rw [← attempt_snd]
    cases s.attempt_outcome c with
    | fails f hfail heditor _ =>
      refine Or.inl ⟨congrArg Editor.lastConnect heditor, ?_⟩
      rintro a b ⟨⟩ ⟨hsucceeds, -⟩
      cases hsucceeds.symm.trans hfail
    | ignored hrepeats _ heditor _ =>
      refine Or.inl ⟨congrArg Editor.lastConnect heditor, ?_⟩
      rintro a b ⟨⟩ ⟨-, hnew⟩
      exact hnew hrepeats
    | adopted changed hchanges hsucceeds hadopts =>
      cases hchanges with
      | connect hfirst _ _ =>
        refine Or.inr ⟨_, _, rfl, ⟨hsucceeds, ?_⟩, hadopts.lastConnect⟩
        rintro ⟨hrepeat⟩
        cases hfirst.symm.trans hrepeat
      | addNode | disconnect | deleteNode | updateConfig => exact Or.inl ⟨hadopts.lastConnect, nofun⟩

/-- The remembered connection stays until another one is accepted. -/
theorem LastAccepted.lastConnect {turns past after : List (Turn σ)}
    (h : s.LastAccepted turns past after source target) :
    (s.run turns).editor.lastConnect = some ⟨source, target, (s.run past).clock.now⟩ := by
  obtain ⟨rfl, haccepts, hlater⟩ := h
  induction after using List.reverseRecOn with
  | nil =>
    rw [List.append_nil, run_concat]
    rcases (s.run past).lastConnect_turn (.command (.connect source target)) with ⟨-, hnot⟩ | ⟨a, b, heq, -, hlast⟩
    · exact absurd haccepts (hnot source target rfl)
    · cases heq
      exact hlast
  | append_singleton after turn ih =>
    have hbefore := ih fun between a b hbetween => hlater between a b (hbetween.trans (List.prefix_append after [turn]))
    rw [← List.append_assoc, run_concat]
    rcases (s.run (past ++ [.command (.connect source target)] ++ after)).lastConnect_turn turn with
      ⟨hsame, -⟩ | ⟨a, b, rfl, haccepted, -⟩
    · rw [hsame, hbefore]
    · exact absurd haccepted (hlater after a b List.prefix_rfl)

/-- What is remembered was accepted last. -/
theorem exists_lastAccepted (hstart : s.editor.lastConnect = none) (turns : List (Turn σ)) {k : Connection}
    (h : (s.run turns).editor.lastConnect = some k) :
    ∃ past after, s.LastAccepted turns past after k.source k.target := by
  induction turns using List.reverseRecOn with
  | nil => cases hstart.symm.trans h
  | append_singleton turns turn ih =>
    rw [run_concat] at h
    rcases (s.run turns).lastConnect_turn turn with ⟨hsame, hnot⟩ | ⟨a, b, rfl, haccepted, hlast⟩
    · obtain ⟨past, after, rfl, haccepts, hlater⟩ := ih (hsame ▸ h)
      refine ⟨past, after ++ [turn], by simp only [List.append_assoc], haccepts, fun between a b hbetween => ?_⟩
      rcases List.prefix_concat_iff.mp hbetween with heq | hprefix
      · obtain ⟨rfl, rfl⟩ := List.append_singleton_inj.mp heq
        exact hnot a b rfl
      · exact hlater between a b hprefix
    · obtain rfl := Option.some.inj (hlast.symm.trans h)
      refine ⟨turns, [], (List.append_nil _).symm, haccepted, fun between a b hbetween => ?_⟩
      exact absurd (List.prefix_nil.mp hbetween) (by simp)

/-- No turn changes the window. -/
theorem window_turn (s : Session σ) (turn : Turn σ) : (s.turn turn).editor.window = s.editor.window := by
  rcases s.turn_cases turn with hsame | ⟨c, changed, -, -, -, hadopts⟩
  · rw [hsame]
  · exact hadopts.window

theorem window_run (turns : List (Turn σ)) (s : Session σ) : (s.run turns).editor.window = s.editor.window :=
  run_induction (P := fun e => e.window = s.editor.window) (fun s turn h => (s.window_turn turn).trans h) turns s rfl

/-! ## Connections that are ignored -/

/-- What is known of the last accepted connection when it is repeated: it lies inside the window, it was made, and it
is still there unless it was taken away. -/
structure Recalls (s : Session σ) (turns past after : List (Turn σ)) (source target : String) :
    Prop where
  last : s.LastAccepted turns past after source target
  recent : ((s.run turns).clock.now.sub (s.run past).clock.now).lt s.editor.window = true
  made : (s.run (past ++ [.command (.connect source target)])).editor.store.Joins source target
  kept : (s.run turns).editor.store.Joins source target ∨
    s.Drops (past ++ [.command (.connect source target)]) after source target

/-- An accepted connection is there right after it. -/
theorem Accepts.joins (h : s.Accepts source target) :
    (s.perform (.connect source target)).editor.store.Joins source target := by
  obtain ⟨hsucceeds, hnew⟩ := h
  rw [← attempt_snd]
  cases s.attempt_outcome (.connect source target) with
  | fails f hfail _ _ => cases hsucceeds.symm.trans hfail
  | ignored hrepeats _ _ _ => exact absurd hrepeats hnew
  | adopted changed hchanges _ hadopts =>
    cases hchanges with
    | connect _ hplan happly =>
      exact (Store.joins_of_apply hplan happly).mono fun _ he =>
        (Store.alike_of_repair hadopts.placed).mem_links.mpr he

/-- After turns from an editor that remembers nothing, a connect returns no edges exactly if it recalls the last
accepted connection. -/
theorem connect_run_eq_ok_nil_iff (hgrounded : s.editor.store.Grounded) (hstart : s.editor.lastConnect = none)
    (turns : List (Turn σ)) :
    ((s.run turns).connect source target).1 = .ok [] ↔
      ∃ past after, Recalls s turns past after source target := by
  rw [connect_eq_ok_nil_iff]
  constructor
  · rintro ⟨hrepeat⟩
    unfold Editor.isRepeat at hrepeat
    split at hrepeat
    · next k hk =>
      simp only [Bool.and_eq_true, beq_iff_eq] at hrepeat
      obtain ⟨⟨rfl, rfl⟩, hrecent⟩ := hrepeat
      obtain ⟨past, after, hlast⟩ := exists_lastAccepted hstart turns hk
      have htime : k.time = (s.run past).clock.now :=
        congrArg Connection.time (Option.some.inj (hk.symm.trans hlast.lastConnect))
      rw [htime, window_run] at hrecent
      have hmade : (s.run (past ++ [.command (.connect k.source k.target)])).editor.store.Joins k.source k.target := by
        rw [run_concat]
        exact hlast.accepts.joins
      have hkept := joins_or_drops hgrounded _ after hmade
      rw [← hlast.turns_eq] at hkept
      exact ⟨past, after, hlast, hrecent, hmade, hkept⟩
    · cases hrepeat
  · rintro ⟨past, after, hlast, hrecent, -, -⟩
    refine .connect ?_
    simp only [Editor.isRepeat, hlast.lastConnect, beq_self_eq_true, Bool.true_and, window_run]
    exact hrecent

/-- **A connect is ignored exactly if it recalls the last accepted connection, and that is in place unless it was
taken away.** A fresh editor can be made, and after every run from it a connect returns no edges exactly if the last
connection that was accepted has the same ends and lies inside the window. It was made then. Now the nodes are
connected, by an edge or by a branch, unless a command that removes an edge or a node took the connection away in
between. -/
theorem fresh_ignored_iff (form : List FormField) (window : Seconds) :
    ∃ e, Editor.fresh form window = .ok e ∧ e.window = window ∧
      ∀ (desk : Desk σ) (clock : Clock) (tokens : TokenSupply) (isHeard : Bool) (events : List Event)
        (turns : List (Turn σ)) (source target : String),
        ((run ⟨e, desk, clock, tokens, isHeard, events⟩ turns).connect source target).1 = .ok [] ↔
          ∃ past after,
            Recalls ⟨e, desk, clock, tokens, isHeard, events⟩ turns past after source target := by
  obtain ⟨e, he, -⟩ := exists_fresh form window
  obtain ⟨hgrounded, hstart⟩ := Editor.Made.grounded (Or.inl ⟨form, window, he⟩)
  refine ⟨e, he, ?_, fun desk clock tokens isHeard events turns source target => ?_⟩
  · unfold Editor.fresh at he
    split at he
    · cases he
      rfl
    · cases he
  · exact connect_run_eq_ok_nil_iff (s := ⟨e, desk, clock, tokens, isHeard, events⟩) hgrounded hstart turns

end Session

/-! ## A connection that is forsaken -/

namespace Store

/-- The sentinels with an edge between them. -/
def sentinelsJoined (p q : Point) : Store :=
  { sentinelsAt p q with
    links := [.plain startId finishId]
    index := [(Edge.idFor startId finishId, startId, finishId)] }

variable (place : String → Seating) (p q : Point)

theorem plan_sentinels (tokens : TokenSupply) :
    ((sentinelsAt p q).placedAs place).planConnection startId finishId tokens =
      .ok (⟨[.plain startId finishId], none⟩, tokens) := by
  cbv

theorem exists_apply_sentinels :
    ∃ t, ConnectionPlan.apply ⟨[.plain startId finishId], none⟩ ((sentinelsAt p q).placedAs place).copy = .ok t ∧
      t.loopReferences = [] ∧ ∀ placed, t.placedAs placed = (sentinelsJoined p q).placedAs placed := by
  refine ⟨_, apply_plain_of_ok (addEdge_of_new ?_ ?_ ?_ ?_), ?_, fun placed => ?_⟩
  all_goals cbv

theorem edge_sentinelsJoined :
    ((sentinelsJoined p q).placedAs place).edge (Edge.idFor startId finishId) = .ok (.plain startId finishId) := by
  cbv

theorem exists_disconnected_sentinels :
    ∃ t, ((sentinelsJoined p q).placedAs place).copy.disconnected (.plain startId finishId) = .ok t ∧
      t.links = [] ∧ t.loopReferences = [] := by
  refine ⟨_, rfl, ?_, ?_⟩
  all_goals cbv

end Store

namespace Session

/-- An edge is disconnected without anyone hearing of it. -/
theorem exists_disconnect {σ : Type} (s : Session σ) (h : s.editor.store.Regular) (hheard : s.isHeard = false)
    {id : String} {e : Edge} (he : s.editor.store.edge id = .ok e) {t : Store}
    (ht : s.editor.store.copy.disconnected e = .ok t) (hloops : t.loopReferences = []) :
    ∃ place, (s.disconnect id).2 = { s with editor := { s.editor with store := t.placedAs place } } := by
  have hcopy := h.of_alike h.wellFormed.alike_copy
  obtain ⟨hmem, -⟩ := (h.indexed.edge?_eq_some_iff h.wellFormed).mp (Store.edge_eq_ok_iff.mp he)
  have hregular := hcopy.disconnected (h.wellFormed.alike_copy.mem_links.mpr hmem) ht
  obtain ⟨place, hcommit⟩ := commit_unheard s hheard .disconnectEdge [e.source, e.target]
    (fun draft => draft.disconnected e) ht hregular hloops
  exact ⟨place, by simp only [disconnect, he, hcommit]⟩

/-- The sentinels are connected and disconnected again. -/
def forsaking : List (Turn Unit) := [
  .command (.connect startId finishId),
  .command (.disconnect (Edge.idFor startId finishId))]

/-- **An ignored connect can leave the nodes unconnected**: the editor remembers the connection that was taken away. -/
theorem fresh_forsaken :
    ∃ e, Editor.fresh [] (.whole 1) = .ok e ∧
      ((run (alone e) forsaking).connect startId finishId).1 = .ok [] ∧
      ¬ (run (alone e) forsaking).editor.store.Joins startId finishId := by
  obtain ⟨e, place, hfresh, hcommitted, hstart⟩ := exists_fresh_sentinels [] (.whole 1)
  have hstore : (alone e).editor.store = (Store.sentinelsAt .origin ⟨0.0, 400.0⟩).placedAs place :=
    congrArg Editor.store hstart
  have hnew : (alone e).editor.isRepeat startId finishId (alone e).clock.now = false := hstart ▸ rfl
  obtain ⟨t, happly, hloops, hplaced⟩ := Store.exists_apply_sentinels place .origin ⟨0.0, 400.0⟩
  obtain ⟨placed, entry, hconnected⟩ := exists_connect (alone e) hcommitted.regular rfl hnew
    (hstore ▸ Store.plan_sentinels place .origin ⟨0.0, 400.0⟩ _) (hstore ▸ happly) hloops
  rw [hplaced] at hconnected
  have hjoined := (committed_turn (alone e) (.command (.connect startId finishId)) hcommitted).regular
  obtain ⟨v, hremoved, hlinks, hnoLoops⟩ := Store.exists_disconnected_sentinels placed .origin ⟨0.0, 400.0⟩
  obtain ⟨seated, hgone⟩ := exists_disconnect ((alone e).connect startId finishId).2 hjoined
    (by rw [hconnected]; rfl) (by rw [hconnected]; exact Store.edge_sentinelsJoined placed _ _)
    (by rw [hconnected]; exact hremoved) hnoLoops
  have hrun : (alone e).run forsaking =
      (((alone e).connect startId finishId).2.disconnect (Edge.idFor startId finishId)).2 := rfl
  refine ⟨e, hfresh, ?_⟩
  rw [hrun, hgone]
  refine ⟨connect_eq_ok_nil_iff.mpr (.connect ?_), ?_⟩
  · rw [hconnected, hstart]
    rfl
  · have hnone : (v.placedAs seated).links = [] := hlinks
    rintro (⟨e, he, -⟩ | ⟨first, hfirst, -⟩)
    · exact absurd he (by rw [hnone]; exact List.not_mem_nil)
    · exact absurd hfirst (by rw [hnone]; exact List.not_mem_nil)

end Session

end FormFlow
