import FormFlow.Proofs.Listings
import FormFlow.Proofs.LoopReferences
/-!
Configuring a node moves nothing.

Placing goes by ids, orders, kinds and edges, and only display labels look at the Paths that Conditions guard. So a
placed store whose nodes get other configurations of their kinds keeps its orders, levels and labels
(`Committed.keeps_places`). A commit repairs references to collections as well, but where every reference names a node
that is there, the change of one configuration puts no other Loop's collection out of reach
(`NoDangling.cleared_reconfigured`).
-/

set_option autoImplicit false

namespace FormFlow

theorem Config.guardedPath_of_kind {c : Config} (h : c.kind ≠ .condition) : c.guardedPath = none := by
  cases c with
  | condition c => exact absurd rfl h
  | _ => rfl

/-- Where a node that guards nothing is placed, its display label shows its kind. -/
theorem Placement.Placeable.displayLabel_eq {nodes : List Node} {edges : List Edge}
    {placements : List (String × Placement)} (h : Placement.Placeable nodes edges)
    (hassign : Placement.assign nodes edges = .ok placements) {n : Node} (hn : n ∈ nodes) (hk : n.kind ≠ .condition)
    {p : Placement} (hp : placements.lookup n.id = some p) : p.displayLabel = n.kind.displayName := by
  obtain ⟨_, _, -, -, hseated⟩ := h.exists_seatedIn hassign
  obtain ⟨q, hq, hqn⟩ := hseated n hn
  obtain rfl := Option.some.inj (hp.symm.trans hq)
  exact hqn.displayLabel_eq (Config.guardedPath_of_kind hk)

namespace Store

variable {s t u : Store} {id : String}

/-- The second node stands where the first does: it has its position, kind, order, level and label, and unless it is a
Condition its display label. -/
structure Stands (n m : Node) : Prop where
  position : m.position = n.position
  kind : m.kind = n.kind
  order : m.order = n.order
  level : m.level = n.level
  label : m.label = n.label
  displayLabel : n.kind ≠ .condition → m.displayLabel = n.displayLabel

/-- The second store is the first with another configuration of one node: the nodes, the places of all and the edges
are the same, and so are the configurations of the other nodes. -/
structure Reconfigures (s t : Store) (id : String) : Prop where
  ids : t.ids = s.ids
  edges : t.edges = s.edges
  stands : ∀ n ∈ s.nodes, ∃ m, t.node? n.id = some m ∧ Stands n m
  config : ∀ n ∈ s.nodes, n.id ≠ id → ∃ m, t.node? n.id = some m ∧ m.config = n.config

/-! ## Placing reconfigured nodes -/

/-- A node with the configuration that it is given. -/
def withConfig (config : Node → Config) (n : Node) : Node := { n with config := config n }

/-- **Configurations do not count in placing.** If the nodes of a placed store get other configurations of their kinds
and are placed again, they stand where they stood. -/
theorem Committed.keeps_places (hs : s.Committed) (ht : t.Regular) {config : Node → Config}
    (hkind : ∀ n ∈ s.nodes, (config n).kind = n.kind) (hnodes : t.nodes = s.nodes.map (withConfig config))
    (hedges : t.edges = s.edges) (hu : t.recompute = .ok u) :
    ∀ n ∈ s.nodes, ∃ m, u.node? n.id = some m ∧ Stands n m ∧ m.config = config n := by
  have hwell := hs.regular.wellFormed
  have hplaceable := hwell.placeable hs.regular.sound
  have hplaceable' := ht.wellFormed.placeable ht.sound
  obtain ⟨placements, hassign, -, hholds⟩ := hwell.exists_holds hs.regular.sound hs.fixed
  obtain ⟨placements', hassign', heq⟩ := recompute_eq_ok hu
  have hgraph : graphOf t.nodes t.edges = graphOf s.nodes s.edges := by
    rw [hnodes, hedges]
    exact Placement.Placeable.graphOf_map fun _ => rfl
  have hsame : Placement.SameRun s.nodes t.nodes s.edges t.edges := by
    refine ⟨fun id => ?_, fun id => by rw [hgraph], ?_⟩
    · rw [hnodes, List.map_map]
      rfl
    · rintro run ⟨visits, hvisits, hrun⟩
      refine ⟨visits, ?_, hrun⟩
      rw [hgraph, ← hvisits, Placement.sweep_congr ht.wellFormed.ids_nodup hwell.ids_nodup]
      rw [hnodes, List.map_map]
      rfl
  have hplaces : (placements.map fun entry => (entry.1, Placement.place entry.2)) =
      placements'.map fun entry => (entry.1, Placement.place entry.2) := by
    obtain ⟨seats, seats', hok, hok', hranks⟩ := hsame.exists_seats Placement.Seat.rank hplaceable hplaceable'
      fun n hn m hm hid order level => by
        obtain ⟨k, hk, rfl⟩ := List.mem_map.mp (hnodes ▸ hm)
        obtain rfl : k = n := List.inj_on_of_nodup_map hwell.ids_nodup hk hn hid.symm
        simp only [Placement.Seat.rank, Prod.mk.injEq, true_and]
        exact ⟨rfl, (hkind k hn).symm⟩
    obtain rfl := Except.ok.inj (hassign.symm.trans hok)
    obtain rfl := Except.ok.inj (hassign'.symm.trans hok')
    exact Placement.map_place_labelled hranks
  have hwell' : u.WellFormed := ((alike_recompute hu).part ht.wellFormed).wellFormed ht.wellFormed
  intro n hn
  obtain ⟨p, hp, horder, hlevel, hlabel, hdisplay⟩ := hholds n hn
  have hplace := congrArg (List.lookup n.id) hplaces
  rw [Table.lookup_map_value Placement.place, Table.lookup_map_value Placement.place, hp, Option.map_some, eq_comm,
    Option.map_eq_some_iff] at hplace
  obtain ⟨q, hq, hqp⟩ := hplace
  obtain ⟨hqorder, hqlevel, hqlabel⟩ : q.order = p.order ∧ q.level = p.level ∧ q.label = p.label := by
    simpa only [Placement.place, Prod.mk.injEq] using hqp
  have hmem : withConfig config n ∈ t.nodes := hnodes ▸ List.mem_map_of_mem hn
  refine ⟨q.apply (withConfig config n), hwell'.node?_eq_some_iff.mpr ⟨?_, rfl⟩,
    ⟨rfl, hkind n hn, ?_, ?_, ?_, fun hk => ?_⟩, rfl⟩
  · rw [heq]
    exact List.mem_map.mpr ⟨_, hmem, placedBy_of_lookup (n := withConfig config n) hq⟩
  · rw [horder, ← hqorder]
    rfl
  · rw [hlevel, ← hqlevel]
    rfl
  · rw [hlabel, ← hqlabel]
    rfl
  · have hshown : q.displayLabel = (config n).kind.displayName :=
      hplaceable'.displayLabel_eq hassign' hmem (by rwa [← hkind n hn] at hk) hq
    rw [hdisplay, hplaceable.displayLabel_eq hassign hn hk hp, ← hkind n hn, ← hshown]
    rfl

/-! ## Repairing reconfigured nodes -/

/-- What comes before a node is the same in stores that are alike. -/
theorem Alike.mem_findsBefore (h : Alike t s) {find : String} : find ∈ t.findsBefore id ↔ find ∈ s.findsBefore id := by
  have harcs : ∀ a, a ∈ t.graph.arcs ↔ a ∈ s.graph.arcs := fun a => by
    simp only [mem_arcs_graph, h.mem_links]
  have hreaches : ∀ {a b}, t.graph.Reaches a b ↔ s.graph.Reaches a b :=
    ⟨Digraph.Reaches.mono fun a => (harcs a).mp, Digraph.Reaches.mono fun a => (harcs a).mpr⟩
  rw [Store.mem_findsBefore, Store.mem_findsBefore, hreaches, hreaches, h.kind?_eq]

/-- A reference that is kept is not lost by a change that keeps nodes and edges. -/
theorem NoDangling.not_lost_of_alike (hno : s.NoDangling) (h : Alike t s) {n : Node} (hn : n ∈ s.nodes) {find : String}
    (hc : n.config.collection = some find) : ¬ CollectionLost s t n.id find := by
  rintro ⟨hmem, hgone | ⟨-, -, -, -, hbefore⟩⟩
  · exact hgone (h.ids_eq ▸ hno n hn find hc)
  · exact hmem (h.mem_findsBefore.mpr hbefore)

/-- A node that is configured anew, and the others as they are. -/
theorem nodes_reconfigured (hs : s.WellFormed) {c : Config} (h : s.reconfigured id c = .ok t) :
    s.kind? id = some c.kind ∧
      t = { s with nodes := s.nodes.map (withConfig fun n => if n.id = id then c else n.config) } := by
  obtain ⟨n, hnode, hreplaced⟩ := Table.bind_eq_ok.mp (EditFault.ofStructure_eq_ok_iff.mp h)
  obtain ⟨hn, rfl⟩ := mem_of_node? (node_eq_ok_iff.mp hnode)
  obtain ⟨hkind, rfl⟩ := replaceNode_eq_ok hreplaced
  refine ⟨hkind, ?_⟩
  rw [put]
  congr 1
  refine List.map_congr_left fun m hm => ?_
  by_cases hid : m.id = n.id
  · obtain rfl : m = n := List.inj_on_of_nodup_map hs.ids_nodup hm hn hid
    simp [withConfig]
  · simp [withConfig, hid]

/-- Where references name nodes that are there, repairing a store in which one node was configured anew changes no
other configuration. -/
theorem NoDangling.cleared_reconfigured (hno : s.NoDangling) (hs : s.WellFormed) {c : Config}
    (h : s.copy.reconfigured id c = .ok t) {n : Node} (hn : n ∈ s.nodes) (hne : n.id ≠ id) :
    n.id ∉ (t.staleReferences s.loopReferences).map (·.loop) := by
  have hcopy := (hs.alike_copy.part hs).wellFormed hs
  have halike : Alike t s := (alike_reconfigured hcopy h).trans hs.alike_copy
  obtain ⟨-, rfl⟩ := nodes_reconfigured hcopy h
  intro hmem
  obtain ⟨r, hr, hloop⟩ := List.mem_map.mp hmem
  obtain ⟨⟨m, hm, hmid, hc⟩, -, hlost⟩ := mem_staleReferences.mp hr
  obtain ⟨k, hk, rfl⟩ := List.mem_map.mp hm
  have hkn : k = n := List.inj_on_of_nodup_map hs.ids_nodup hk hn (hmid.trans hloop)
  subst hkn
  have hkept : k.config.collection = some r.find := by
    simpa only [withConfig, if_neg hne] using hc
  exact hno.not_lost_of_alike halike hn hkept (hloop ▸ hlost)

theorem edges_recompute (h : s.recompute = .ok t) : t.edges = s.edges := by
  obtain ⟨placements, -, rfl⟩ := recompute_eq_ok h
  exact edges_map fun n => placedBy_id n

/-- **Configuring a node moves nothing**, once the change is repaired and placed. -/
theorem Committed.reconfigures (hs : s.Committed) (hno : s.NoDangling) {c : Config}
    (h : s.copy.reconfigured id c = .ok t) (hu : (t.repair s.loopReferences).1.recompute = .ok u) :
    s.Reconfigures u id := by
  have hwell := hs.regular.wellFormed
  have hcopy := hs.regular.of_alike hwell.alike_copy
  have halike := alike_reconfigured hcopy.wellFormed h
  have hrepaired := (hcopy.of_alike halike).of_alike (alike_repair t s.loopReferences)
  have hids := (alike_of_repair hu).ids_eq.trans (halike.trans hwell.alike_copy).ids_eq
  obtain ⟨hkind, ht⟩ := nodes_reconfigured hcopy.wellFormed h
  let loops := (t.staleReferences s.loopReferences).map (·.loop)
  let set : Node → Config := fun n => if n.id = id then c else n.config
  let config : Node → Config := fun n => if n.id ∈ loops then (set n).withoutCollection else set n
  have hnodes : (t.repair s.loopReferences).1.nodes = s.nodes.map (withConfig config) := by
    rw [repair_fst]
    show t.nodes.map (cleared loops) = _
    rw [ht, List.map_map]
    rfl
  have hedges : (t.repair s.loopReferences).1.edges = s.edges := by
    rw [edges_repair, ht]
    rw [edges_map (s := s.copy) fun n => (rfl : (withConfig (fun n => if n.id = id then c else n.config) n).id = n.id)]
    exact hwell.edges_copy
  have hkinds : ∀ n ∈ s.nodes, (config n).kind = n.kind := by
    intro n hn
    have hset : (set n).kind = n.kind := by
      by_cases hid : n.id = id
      · have hold : s.kind? id = some n.kind := hid ▸ hwell.kind?_of_mem hn
        simpa only [set, if_pos hid] using (Option.some.inj (hold.symm.trans hkind)).symm
      · simp only [set, if_neg hid]
        rfl
    by_cases hloop : n.id ∈ loops
    · simp only [config, if_pos hloop, withoutCollection_kind, hset]
    · simp only [config, if_neg hloop, hset]
  have hplaced := hs.keeps_places hrepaired hkinds hnodes hedges hu
  refine ⟨hids, (edges_recompute hu).trans hedges, fun n hn => ?_, fun n hn hne => ?_⟩
  · obtain ⟨m, hm, hstands, -⟩ := hplaced n hn
    exact ⟨m, hm, hstands⟩
  · obtain ⟨m, hm, -, hconfig⟩ := hplaced n hn
    refine ⟨m, hm, ?_⟩
    rw [hconfig]
    simp only [config, set, if_neg (hno.cleared_reconfigured hwell h hn hne), if_neg hne, loops]

end Store

namespace Session

open Store (NoDangling)

variable {σ : Type} {s : Session σ} {id : String} {overlay : Members}

/-- **Configuring a node moves nothing.** -/
theorem Succeeds.reconfigures (hc : s.Succeeds (.updateConfig id overlay)) (h : s.editor.store.Committed)
    (hno : s.editor.store.NoDangling) :
    s.editor.store.Reconfigures (s.perform (.updateConfig id overlay)).editor.store id := by
  have hattempt := s.attempt_snd (.updateConfig id overlay)
  cases s.attempt_outcome (.updateConfig id overlay) with
  | fails f hfail _ _ =>
    rw [Succeeds, hfail] at hc
    cases hc
  | ignored hrepeats _ _ _ => cases hrepeats
  | adopted changed hchanges _ hadopts =>
    rw [hattempt] at hadopts
    cases hchanges with
    | updateConfig _ _ _ hreconfigured => exact h.reconfigures hno hreconfigured hadopts.placed

/-! ## Runs -/

/-- A turn leaves no Loop that names a node that is gone, if there was none. -/
theorem noDangling_kept (s : Session σ) (turn : Turn σ)
    (h : s.editor.store.Grounded ∧ s.editor.store.NoDangling) :
    (s.turn turn).editor.store.Grounded ∧ (s.turn turn).editor.store.NoDangling := by
  obtain ⟨hgrounded, hlast⟩ := s.noDangling_turn turn ⟨h.1, fun _ => h.2⟩
  refine ⟨hgrounded, ?_⟩
  rcases s.turn_cases turn with hsame | ⟨c, changed, rfl, -, hsucceeds, -⟩
  · exact hsame.symm ▸ h.2
  · obtain ⟨_, _, hrepairs⟩ := hsucceeds.repairsReferences h.1 fun _ => h.2
    exact hrepairs.noDangling

/-- The store of a fresh editor is committed, and no Loop in it names a node. -/
theorem committed_of_fresh {form : List FormField} {window : Seconds} {e : Editor}
    (he : Editor.fresh form window = .ok e) : e.store.Committed ∧ e.store.NoDangling := by
  obtain ⟨e', he', hcommitted, -⟩ := exists_fresh form window
  obtain rfl := Except.ok.inj (he'.symm.trans he)
  refine ⟨hcommitted, fun n hn find hc => ?_⟩
  unfold Editor.fresh at he
  split at he
  · next u hu =>
    cases he
    have hconfig : (n.id, n.config) ∈ Store.withSentinels.configs := by
      rw [← Store.configs_recompute hu]
      exact Store.mem_configs.mpr ⟨n, hn, rfl, rfl⟩
    have hconfigs : Store.withSentinels.configs = [(startId, .default .start), (finishId, .default .finish)] := rfl
    have hnone : ∀ entry ∈ Store.withSentinels.configs, entry.2.collection = none := by
      rw [hconfigs, List.forall_mem_cons, List.forall_mem_singleton]
      exact ⟨rfl, rfl⟩
    cases hc.symm.trans (hnone _ hconfig)
  · cases he

theorem noDangling_of_fresh {form : List FormField} {window : Seconds} {e : Editor}
    (he : Editor.fresh form window = .ok e) (desk : Desk σ) (clock : Clock) (tokens : TokenSupply) (isHeard : Bool)
    (events : List Event) (turns : List (Turn σ)) :
    (run ⟨e, desk, clock, tokens, isHeard, events⟩ turns).editor.store.Committed ∧
      (run ⟨e, desk, clock, tokens, isHeard, events⟩ turns).editor.store.NoDangling := by
  obtain ⟨hcommitted, hno⟩ := committed_of_fresh he
  have hgrounded := (Editor.Made.grounded (Or.inl ⟨form, window, he⟩)).1
  exact ⟨committed_run turns _ hcommitted, (run_induction (P := fun e => e.store.Grounded ∧ e.store.NoDangling)
    noDangling_kept turns ⟨e, desk, clock, tokens, isHeard, events⟩ ⟨hgrounded, hno⟩).2⟩

/-- **Configuration edits never move nodes.** In every state that a run reaches from a fresh editor, in whatever session
and with whatever tokens, configuring a node leaves the edges, the nodes and their places as they are, and the
configurations of all other nodes. -/
theorem run_reconfigures {form : List FormField} {window : Seconds} {e : Editor}
    (he : Editor.fresh form window = .ok e) (desk : Desk σ) (clock : Clock) (tokens : TokenSupply) (isHeard : Bool)
    (events : List Event) (turns : List (Turn σ)) (id : String) (overlay : Members)
    (hc : (run ⟨e, desk, clock, tokens, isHeard, events⟩ turns).Succeeds (.updateConfig id overlay)) :
    (run ⟨e, desk, clock, tokens, isHeard, events⟩ turns).editor.store.Reconfigures
      ((run ⟨e, desk, clock, tokens, isHeard, events⟩ turns).perform (.updateConfig id overlay)).editor.store id := by
  obtain ⟨hcommitted, hno⟩ := noDangling_of_fresh he desk clock tokens isHeard events turns
  exact hc.reconfigures hcommitted hno

theorem kind_reconciled (s : Session σ) (c : Config) : (s.reconciled c).kind = c.kind := by
  unfold reconciled
  split
  · rfl
  · split
    · cases c <;> rfl
    · rfl

/-- A configuration can be changed if the result can be read and the fields of its object need not be fetched, or can
be. -/
theorem succeeds_of_fetch (h : s.editor.store.Grounded) {n : Node} (hn : s.editor.store.node? id = some n) {c : Config}
    (hmerge : n.config.merge overlay = .ok c) {fetched : Session σ}
    (hfetch : s.fetchChosen c.targetObject overlay = (.ok (), fetched)) : s.Succeeds (.updateConfig id overlay) := by
  obtain ⟨-, rfl⟩ := Store.mem_of_node? hn
  have hnode : s.editor.store.node n.id = .ok n := Store.node_eq_ok_iff.mpr hn
  have heditor : fetched.editor = s.editor := by
    have hsame := s.sameEditor_fetchChosen c.targetObject overlay
    rw [hfetch] at hsame
    exact hsame.editor
  have hchange : fetched.editor.store.copy.reconfigured n.id (fetched.reconciled c) =
      .ok (s.editor.store.copy.put { n with config := fetched.reconciled c }) := by
    have hsame : n.kind = (fetched.reconciled c).kind :=
      (Config.parse_kind hmerge).symm.trans (kind_reconciled fetched c).symm
    have hcopied : s.editor.store.copy.node n.id = .ok n := hnode
    have hkind : ¬ n.kind ≠ Node.kind { n with config := fetched.reconciled c } := not_not_intro hsame
    rw [heditor, Store.reconfigured, hcopied]
    simp only [Store.replaceNode, hcopied, bind, Except.bind, if_neg hkind]
    rfl
  have hgrounded : fetched.editor.store.Grounded := heditor ▸ h
  obtain ⟨s', hcommit, -⟩ := fetched.commit_of_grounded .updateConfig [n.id]
    (fun draft => draft.reconfigured n.id (fetched.reconciled c)) hchange
    ((Store.Edits.updateConfig hchange).grounded hgrounded)
  show (s.updateConfig n.id overlay).1 = .ok ()
  simp only [updateConfig, hnode, hmerge, hfetch, hcommit]

/-- A configuration can be changed to one that asks for no object. -/
theorem succeeds_updateConfig (h : s.editor.store.Regular) {n : Node} (hn : s.editor.store.node? id = some n)
    {c : Config} (hmerge : n.config.merge overlay = .ok c) (htarget : c.targetObject = "") :
    s.Succeeds (.updateConfig id overlay) := by
  have hfetch : s.fetchChosen c.targetObject overlay = (.ok (), s) := by
    simp only [fetchChosen, htarget, bne_self_eq_false, Bool.and_false, Bool.false_and, Bool.false_eq_true, ↓reduceIte]
  exact succeeds_of_fetch h.grounded hn hmerge hfetch

/-- The id of the first Loop. -/
def firstLoop : String := "loop_00000001"

theorem freshName_firstLoop (place : String → Store.Seating) (p q : Point) :
    (Store.numbersFrom 0).freshName (fun t => Kind.loop.code ++ "_" ++ t) ((Store.sentinelsAt p q).placedAs place).ids =
      some (firstLoop, Store.numbersFrom 1) := by
  cbv

/-- A Loop can be added to the sentinels, as the first node. -/
theorem exists_addNode_loop (place : String → Store.Seating) (p q r : Point) :
    ∃ t, ((Store.sentinelsAt p q).placedAs place).copy.addNode (.unplaced firstLoop (.default .loop) r) = .ok t ∧
      t.loopReferences = [] ∧
        ∀ placed, ((t.placedAs placed).node? firstLoop).map (fun n => n.config) = some (.default .loop) := by
  refine ⟨_, Store.addNode_of_new ?_, ?_, fun placed => ?_⟩
  all_goals cbv

/-- The editor's first command adds a Loop. -/
def looping : List (Turn Unit) := [.command (.addNode .loop .origin [])]

theorem reconfigures_looping :
    ∃ e, Editor.fresh [] .zero = .ok e ∧
      ((alone e).run looping).Succeeds (.updateConfig firstLoop [("item_variable", .text "row")]) ∧
      ((alone e).run looping).editor.store.Reconfigures
        (((alone e).run looping).perform (.updateConfig firstLoop [("item_variable", .text "row")])).editor.store
        firstLoop := by
  obtain ⟨e, place, he, hcommitted, hstart⟩ := exists_fresh_sentinels [] .zero
  obtain ⟨t, hadd, hloops, hfound⟩ := exists_addNode_loop place .origin ⟨0.0, 400.0⟩ .origin
  have hplaced : (alone e).editor.store = (Store.sentinelsAt .origin ⟨0.0, 400.0⟩).placedAs place :=
    congrArg Editor.store hstart
  have hname : (alone e).tokens.freshName (fun t => Kind.loop.code ++ "_" ++ t) (alone e).editor.store.ids =
      some (firstLoop, Store.numbersFrom 1) := by
    rw [hplaced]
    exact freshName_firstLoop place _ _
  have hparse : Config.parse .loop [] = .ok (.default .loop) := by cbv
  obtain ⟨placed, entry, hdone⟩ :=
    (alone e).exists_addNode hcommitted.regular rfl rfl hname hparse .origin (hplaced ▸ hadd) hloops
  have hafter : ((alone e).run looping).editor.store = t.placedAs placed := by
    show ((alone e).addNode .loop .origin []).2.editor.store = _
    rw [hdone]
  obtain ⟨n, hn, hconfig⟩ := Option.map_eq_some_iff.mp (hfound placed)
  have hmerge : n.config.merge [("item_variable", .text "row")] =
      .ok (.loop ⟨none, "row", none, false, false, .empty, ""⟩) := by
    rw [hconfig]
    cbv
  have hsucceeds := succeeds_updateConfig (committed_run looping (alone e) hcommitted).regular (hafter ▸ hn) hmerge rfl
  exact ⟨e, he, hsucceeds, run_reconfigures he _ _ _ _ _ looping _ _ hsucceeds⟩

end Session

end FormFlow
