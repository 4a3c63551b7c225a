import FormFlow.Proofs.Reconfigurations
/-!
Adding a node disturbs nothing.

A new node has no edges and no order. So the walk does not meet it, and the sweep takes it up last: it is numbered after
all others but the end (`Joined.visitsOf_append`). It has the first level, which leaves the levels of all others as they
are (`Joined.level_eq`), and as it comes last but for the end, it counts in no label before it and not in that of the
end, which is of another kind. So the new node and the end are all that is placed anew (`Committed.gains`).
-/

set_option autoImplicit false

namespace FormFlow

namespace Digraph

variable {g g' : Digraph} {opening closing new n : String} {visits sweep : List String} {level level' : String → Nat}

/-! ## A node without arcs -/

/-- The second graph has one node more, which no arc touches. -/
structure Joined (g g' : Digraph) (new : String) : Prop where
  children : ∀ n, g'.children n = g.children n
  mem_nodes : ∀ n, n ∈ g'.nodes ↔ n ∈ g.nodes ∨ n = new
  not_mem : new ∉ g.nodes

/-- A sweep is made in steps. -/
theorem sweepUp_append (g : Digraph) (closing : String) (visits sweep rest : List String) :
    g.sweepUp closing visits (sweep ++ rest) =
      (g.sweepUp closing visits sweep).bind fun visits => g.sweepUp closing visits rest := by
  fun_induction Digraph.sweepUp g closing visits sweep with
  | case1 visits => rfl
  | case2 visits n sweep hskip ih => rw [List.cons_append, sweepUp, if_pos hskip, ih]
  | case3 visits n sweep hnew hout => rw [List.cons_append, sweepUp, if_neg hnew, if_pos hout]; rfl
  | case4 visits n sweep hnew hin hready ih =>
    rw [List.cons_append, sweepUp, if_neg hnew, if_neg hin, if_pos hready, ih]
  | case5 visits n sweep hnew hin hready ih =>
    rw [List.cons_append, sweepUp, if_neg hnew, if_neg hin, if_neg hready, ih]

/-- Graphs with the same children are swept alike over nodes of both. -/
theorem sweepUp_congr (h : ∀ n, g'.children n = g.children n) (closing : String) (visits : List String)
    (hsweep : ∀ n ∈ sweep, n ∈ g.nodes ∧ n ∈ g'.nodes) :
    g'.sweepUp closing visits sweep = g.sweepUp closing visits sweep := by
  fun_induction Digraph.sweepUp g closing visits sweep with
  | case1 visits => rfl
  | case2 visits n sweep hskip ih =>
    rw [sweepUp, if_pos hskip, ih fun m hm => hsweep m (List.mem_cons_of_mem _ hm)]
  | case3 visits n sweep hnew hout => exact absurd (hsweep n List.mem_cons_self).1 hout
  | case4 visits n sweep hnew hin hready ih =>
    rw [sweepUp, if_neg hnew, if_neg (not_not.mpr (hsweep n List.mem_cons_self).2), isReady_congr h, if_pos hready,
      walk_congr h, ih fun m hm => hsweep m (List.mem_cons_of_mem _ hm)]
  | case5 visits n sweep hnew hin hready ih =>
    rw [sweepUp, if_neg hnew, if_neg (not_not.mpr (hsweep n List.mem_cons_self).2), isReady_congr h, if_neg hready,
      ih fun m hm => hsweep m (List.mem_cons_of_mem _ hm)]

namespace Joined

theorem new_ne (h : g.Joined g' new) (hclosing : closing ∈ g.nodes) : new ≠ closing :=
  fun heq => h.not_mem (heq ▸ hclosing)

theorem parents_new (h : g.Joined g' new) : g'.parents new = [] := by
  refine List.eq_nil_iff_forall_not_mem.mpr fun p hp => h.not_mem ?_
  exact (g.ends_mem _ ((mem_arcs_of_children h.children _).mp (mem_parents.mp hp))).2

theorem children_new (h : g.Joined g' new) : g'.children new = [] := by
  refine List.eq_nil_iff_forall_not_mem.mpr fun c hc => h.not_mem ?_
  exact (g.ends_mem _ ((mem_arcs_of_children h.children _).mp (mem_children.mp hc))).1

/-- The new node is visited last if it is swept last. -/
theorem visitsOf_append (h : g.Joined g' new) (hne : new ≠ closing) (hsweep : ∀ n ∈ sweep, n ∈ g.nodes)
    (hvisits : g.visitsOf opening closing sweep = .ok visits) (hinner : ∀ n ∈ visits, n ∈ g.nodes) :
    g'.visitsOf opening closing (sweep ++ [new]) = .ok (new :: visits) := by
  have hboth : ∀ n ∈ sweep, n ∈ g.nodes ∧ n ∈ g'.nodes := fun n hn =>
    ⟨hsweep n hn, (h.mem_nodes n).mpr (Or.inl (hsweep n hn))⟩
  have hfresh : ¬ (new = closing ∨ new ∈ visits) := not_or.mpr ⟨hne, fun hmem => h.not_mem (hinner new hmem)⟩
  have hready : g'.isReady visits new = true := by
    rw [isReady, arrived, h.parents_new]
    rfl
  have hwalk : g'.walk closing visits [new] = new :: visits := by
    rw [Digraph.walk, ready, h.children_new, List.filter_nil, List.nil_append, Digraph.walk]
  rw [visitsOf] at hvisits
  rw [visitsOf, walk_congr h.children, sweepUp_append, sweepUp_congr h.children closing _ hboth, hvisits]
  show g'.sweepUp closing visits [new] = _
  rw [sweepUp, if_neg hfresh, if_neg (not_not.mpr ((h.mem_nodes new).mpr (Or.inr rfl))), if_pos hready, hwalk, sweepUp]

theorem level_new (h : g.Joined g' new) (hne : new ≠ closing) (hlevel' : g'.Leveling closing level') :
    level' new = 1 :=
  (hlevel'.depth new ((h.mem_nodes new).mpr (Or.inr rfl)) hne).unique (isDepth_of_parents_nil h.parents_new)

/-- The new node is above the closing one only where all others are. -/
theorem mem_above (h : g.Joined g' new) (hne : new ≠ closing) :
    n ∈ g'.above closing ↔ n ∈ g.above closing ∨ n = new ∧ g.parents closing = [] := by
  have hparents : g'.parents closing = [] ↔ g.parents closing = [] := by
    simp only [List.eq_nil_iff_forall_not_mem, mem_parents, mem_arcs_of_children h.children]
  unfold above
  by_cases hnone : g.parents closing = []
  · rw [if_pos hnone, if_pos (hparents.mpr hnone), mem_inner, mem_inner, h.mem_nodes, or_and_right]
    exact or_congr_right ⟨fun ⟨heq, _⟩ => ⟨heq, hnone⟩, fun ⟨heq, _⟩ => ⟨heq, heq ▸ hne⟩⟩
  · rw [if_neg hnone, if_neg (hparents.not.mpr hnone), mem_parents, mem_parents, mem_arcs_of_children h.children]
    exact (or_iff_left fun ⟨_, hnil⟩ => hnone hnil).symm

/-- The levels of all other nodes stay, that of the closing one among them: the new node is nowhere the deepest. -/
theorem level_eq (h : g.Joined g' new) (hne : new ≠ closing) (hlevel : g.Leveling closing level)
    (hlevel' : g'.Leveling closing level') (hopening : opening ∈ g.nodes) (hopening_ne : opening ≠ closing)
    (hn : n ∈ g.nodes) : level' n = level n := by
  have hinner : ∀ m ∈ g.nodes, m ≠ closing → level m = level' m := fun m hm =>
    hlevel.level_eq hlevel' (fun a => (mem_arcs_of_children h.children a).symm) hm ((h.mem_nodes m).mpr (Or.inl hm))
  have habove : ∀ m ∈ g.above closing, level m = level' m := fun m hm => by
    obtain ⟨hmem, hmne⟩ := hlevel.mem_of_above hm
    exact hinner m hmem hmne
  by_cases hclosing : n = closing
  · subst hclosing
    refine (hlevel.closing_level_eq hlevel'
      (fun m hm => ⟨m, (h.mem_above hne).mpr (Or.inl hm), (habove m hm).le⟩) fun m hm => ?_).symm
    rcases (h.mem_above hne).mp hm with hm | ⟨rfl, hnone⟩
    · exact ⟨m, hm, (habove m hm).ge⟩
    · refine ⟨opening, by rw [above, if_pos hnone, mem_inner]; exact ⟨hopening, hopening_ne⟩, ?_⟩
      rw [h.level_new hne hlevel']
      exact (hlevel.depth opening hopening hopening_ne).pos
  · exact (hinner n hn hclosing).symm

end Joined

end Digraph

namespace Placement

variable {nodes nodes' : List Node} {edges : List Edge} {new : Node} {f : Node → Node}

/-! ## A node without edges -/

/-- The second list of nodes is the first with a new node, up to what placing does not look at. The new node has no
order, all others have one, and it is not of the kind of the end. -/
structure Appended (nodes nodes' : List Node) (new : Node) (f : Node → Node) : Prop where
  eq : nodes' = (nodes ++ [new]).map f
  id_eq : ∀ n, (f n).id = n.id
  order_eq : ∀ n, (f n).order = n.order
  kind_eq : ∀ n, (f n).kind = n.kind
  guardedPath_eq : ∀ n, (f n).config.guardedPath = n.config.guardedPath
  placed : ∀ n ∈ nodes, n.order ≠ none
  unplaced : new.order = none
  kind_ne : ∀ n ∈ nodes, n.id = finishId → n.kind ≠ new.kind

/-- The new node and the end are all that is placed anew: one after the other, with the number of nodes first. -/
structure PlacedLast (count : Nat) (new : String) (before after : List (String × Placement)) : Prop where
  added : ∃ p, after.lookup new = some p ∧ p.order = count ∧ p.level = 1
  others : ∀ id p, id ≠ finishId → before.lookup id = some p → after.lookup id = some p
  finish : ∃ p q, before.lookup finishId = some p ∧ after.lookup finishId = some q ∧ p.order = count ∧
    q.order = count + 1 ∧ q.level = p.level ∧ q.label = p.label

/-- Of two lists that begin with the same placements, the first ends with that of the end and the second with that of
the new node and another of the end. -/
theorem PlacedLast.of_entries {count : Nat} {id : String} {placed : List (String × Placement)}
    {last added last' : Placement} (hnames : (placed.map (·.1) ++ [id, finishId]).Nodup) (hlast : last.order = count)
    (hadded : added.order = count) (hlast' : last'.order = count + 1) (hlevel : added.level = 1)
    (hsameLevel : last'.level = last.level) (hsameLabel : last'.label = last.label) :
    PlacedLast count id (placed ++ [(finishId, last)]) (placed ++ [(id, added), (finishId, last')]) := by
  obtain ⟨-, hlater, hapart⟩ := List.nodup_append.mp hnames
  have hne : (finishId == id) = false :=
    beq_eq_false_iff_ne.mpr fun heq => (List.nodup_cons.mp hlater).1 (List.mem_singleton.mpr heq.symm)
  have hnone : ∀ name ∈ [id, finishId], placed.lookup name = none := fun name hname =>
    Option.not_isSome_iff_eq_none.mp fun hsome =>
      hapart name (Table.exists_lookup_iff.mp (Option.isSome_iff_exists.mp hsome)) name hname rfl
  have hnoneFinish := hnone finishId (List.mem_cons_of_mem _ List.mem_cons_self)
  constructor
  case added =>
    refine ⟨added, ?_, hadded, hlevel⟩
    rw [List.lookup_append, hnone id List.mem_cons_self, Option.none_or, List.lookup_cons_self]
  case others =>
    intro name p hother hp
    have hbeq : (name == finishId) = false := beq_eq_false_iff_ne.mpr hother
    rw [List.lookup_append, List.lookup_cons, hbeq, List.lookup_nil, Option.or_none] at hp
    rw [List.lookup_append, hp, Option.some_or]
  case finish =>
    refine ⟨last, last', ?_, ?_, hlast, hlast', hsameLevel, hsameLabel⟩
    · rw [List.lookup_append, hnoneFinish, Option.none_or, List.lookup_cons_self]
    · rw [List.lookup_append, hnoneFinish, Option.none_or, List.lookup_cons, hne]
      exact List.lookup_cons_self

/-- The new seat comes last but one. What the seats before it look like is as it was, and so are the level and the kind
of the last one. -/
structure SeatedLast (count : Nat) (new : Node) (seats : List Seat) (last : Seat) (seats' : List Seat)
    (added last' : Seat) : Prop where
  faces : seats.map Seat.face = seats'.map Seat.face
  names_nodup : (seats'.map (·.node.id) ++ [new.id, finishId]).Nodup
  last_entry : (last.node.id, last.order) = (finishId, count)
  added_entry : (added.node.id, added.order) = (new.id, count)
  moved_entry : (last'.node.id, last'.order) = (finishId, count + 1)
  added_level : added.level = 1
  last_level : last.level = last'.level
  last_kind : last.node.kind = last'.node.kind
  kind_ne : added.node.kind ≠ last'.node.kind

/-- Seats before the new one are labelled as they were. The last one is, as the new one counts in no label of another
kind. -/
theorem SeatedLast.placedLast {count : Nat} {seats seats' : List Seat} {last added last' : Seat}
    (h : SeatedLast count new seats last seats' added last') :
    PlacedLast count new.id (labelled [] (seats ++ [last])) (labelled [] (seats' ++ [added, last'])) := by
  have hranks : seats'.map Seat.rank = seats.map Seat.rank := by
    have hfirsts := congrArg (List.map (·.1)) h.faces
    rw [List.map_map, List.map_map] at hfirsts
    exact hfirsts.symm
  have hlabel : labelAfter (seats' ++ [added]) last' = labelAfter seats last := by
    rw [labelAfter_append_of_ne h.kind_ne, labelAfter_congr hranks h.last_level.symm h.last_kind.symm]
  obtain ⟨hid, horder⟩ := Prod.mk.inj h.last_entry
  obtain ⟨hnew, hcount⟩ := Prod.mk.inj h.added_entry
  obtain ⟨hid', horder'⟩ := Prod.mk.inj h.moved_entry
  have hnames : ((labelled [] seats').map (·.1) ++ [new.id, finishId]).Nodup := labelled_names seats' ▸ h.names_nodup
  rw [labelled_append, labelled_append, labelled_congr h.faces]
  simp only [labelled, List.nil_append, hid, hnew, hid']
  exact .of_entries hnames horder hcount horder' h.added_level h.last_level.symm hlabel

namespace Appended

theorem ids_eq (h : Appended nodes nodes' new f) : nodes'.map (·.id) = nodes.map (·.id) ++ [new.id] := by
  rw [h.eq, List.map_map, show ((·.id) ∘ f) = (·.id) from funext h.id_eq, List.map_append]
  rfl

/-- The new node is swept last. -/
theorem sweep_eq (h : Appended nodes nodes' new f) (hids : (nodes'.map (·.id)).Nodup) :
    sweep nodes' = sweep nodes ++ [new.id] := by
  have happended : ((nodes ++ [new]).map (·.id)).Nodup := by
    rw [List.map_append, List.map_singleton, ← h.ids_eq]
    exact hids
  rw [sweep_congr hids happended ?_, sweep_append_new happended h.placed h.unplaced]
  rw [h.eq, List.map_map]
  exact List.map_congr_left fun n _ => by rw [Function.comp_apply, h.id_eq, h.order_eq]

variable (h : Appended nodes nodes' new f) (hplaceable : Placeable nodes edges) (hplaceable' : Placeable nodes' edges)
  (hends : (edges.map Edge.ends).Nodup)
include h hplaceable hplaceable' hends

theorem joined : (graphOf nodes edges).Joined (graphOf nodes' edges) new.id where
  children id := by rw [Store.children_graphOf hends, Store.children_graphOf hends]
  mem_nodes id := by rw [hplaceable'.nodes_graph, hplaceable.nodes_graph, h.ids_eq, List.mem_append, List.mem_singleton]
  not_mem hmem := by
    have hnodup := hplaceable'.ids_nodup
    rw [h.ids_eq] at hnodup
    rw [hplaceable.nodes_graph] at hmem
    exact (List.nodup_append.mp hnodup).2.2 _ hmem _ (List.mem_singleton_self _) rfl

/-- The new node comes last in the run, but for the end. -/
theorem runOf :
    ∃ inner, RunOf nodes edges (inner ++ [finishId]) ∧ RunOf nodes' edges (inner ++ [new.id, finishId]) := by
  have hjoined := h.joined hplaceable hplaceable' hends
  obtain ⟨run, _, ⟨visits, hvisits, hnodup, rfl⟩, hrun, -, -⟩ := hplaceable.exists_assign
  have hinner : ∀ id ∈ visits, id ∈ (graphOf nodes edges).nodes := fun id hid =>
    (hrun.mem_iff id).mp (List.mem_append_left _ (List.mem_reverse.mpr hid))
  have hvisits' := hjoined.visitsOf_append (hjoined.new_ne hplaceable.bounded.closing_mem)
    (fun _ => hplaceable.mem_sweep.mp) hvisits hinner
  rw [← h.sweep_eq hplaceable'.ids_nodup] at hvisits'
  refine ⟨visits.reverse, ⟨visits, hvisits, hnodup, rfl⟩, ⟨_, hvisits', ?_, ?_⟩⟩
  · exact List.nodup_cons.mpr ⟨fun hmem => hjoined.not_mem (hinner _ hmem), hnodup⟩
  · rw [List.reverse_cons, List.append_assoc]
    rfl

/-- A node has one level, one kind and one Path to guard in both lists. -/
theorem seats_eq {run run' : List String} {levels levels' : List (String × Nat)}
    (hlevels : (graphOf nodes edges).levels finishId = .ok levels)
    (hlevels' : (graphOf nodes' edges).levels finishId = .ok levels') {s s' : Seat} (hs : s ∈ seatsIn run levels nodes)
    (hs' : s' ∈ seatsIn run' levels' nodes') (hid : s.node.id = s'.node.id) :
    s.level = s'.level ∧ s.node.kind = s'.node.kind ∧ s.node.config.guardedPath = s'.node.config.guardedPath := by
  have hjoined := h.joined hplaceable hplaceable' hends
  have hne := hjoined.new_ne hplaceable.bounded.closing_mem
  obtain ⟨n, hn, rfl⟩ := mem_seatsIn hs
  obtain ⟨m', hm', rfl⟩ := mem_seatsIn hs'
  rw [h.eq] at hm'
  obtain ⟨m, hm, rfl⟩ := List.mem_map.mp hm'
  dsimp only at hid ⊢
  have hnm : n = m := by
    refine List.inj_on_of_nodup_map ?_ (List.mem_append_left [new] hn) hm (hid.trans (h.id_eq m))
    rw [List.map_append, List.map_singleton, ← h.ids_eq]
    exact hplaceable'.ids_nodup
  subst hnm
  refine ⟨?_, (h.kind_eq n).symm, (h.guardedPath_eq n).symm⟩
  have hlevel := hjoined.level_eq hne (hplaceable.bounded.leveling hlevels) (hplaceable'.bounded.leveling hlevels')
    hplaceable.bounded.opening_mem hplaceable.bounded.opening_ne (hplaceable.nodes_graph ▸ List.mem_map_of_mem hn)
  rw [h.id_eq]
  exact hlevel.symm

/-- The new node has the first level. -/
theorem seat_new {run' : List String} {levels' : List (String × Nat)}
    (hlevels' : (graphOf nodes' edges).levels finishId = .ok levels') {s' : Seat}
    (hs' : s' ∈ seatsIn run' levels' nodes') (hid : s'.node.id = new.id) :
    s'.level = 1 ∧ s'.node.kind = new.kind := by
  have hjoined := h.joined hplaceable hplaceable' hends
  have hne := hjoined.new_ne hplaceable.bounded.closing_mem
  obtain ⟨m', hm', rfl⟩ := mem_seatsIn hs'
  rw [h.eq] at hm'
  obtain ⟨m, hm, rfl⟩ := List.mem_map.mp hm'
  dsimp only at hid ⊢
  refine ⟨?_, ?_⟩
  · rw [hid]
    exact hjoined.level_new hne (hplaceable'.bounded.leveling hlevels')
  · rcases List.mem_append.mp hm with hm | hm
    · refine absurd ?_ hjoined.not_mem
      rw [hplaceable.nodes_graph, ← hid, h.id_eq]
      exact List.mem_map_of_mem hm
    · rw [h.kind_eq, List.mem_singleton.mp hm]

/-- The seats are as they were up to the last one; then comes that of the new node, and then the last one again. -/
theorem exists_seats :
    ∃ seats last seats' added last', assign nodes edges = .ok (labelled [] (seats ++ [last])) ∧
      assign nodes' edges = .ok (labelled [] (seats' ++ [added, last'])) ∧
      SeatedLast nodes.length new seats last seats' added last' := by
  obtain ⟨inner, hinner, hinner'⟩ := h.runOf hplaceable hplaceable' hends
  obtain ⟨run, levels, hrunOf, hrun, hlevels, hassign⟩ := hplaceable.exists_assign
  obtain ⟨run', levels', hrunOf', hrun', hlevels', hassign'⟩ := hplaceable'.exists_assign
  obtain rfl := hrunOf.unique hinner
  obtain rfl := hrunOf'.unique hinner'
  -- Both runs begin with the same ids, so the seats that come first have the same ids and numbers.
  obtain ⟨seats, rest, hseats, hkeys, hrest⟩ :=
    exists_seatsIn_append levels hplaceable.ids_nodup hrun.nodup fun _ => hplaceable.mem_run hrun
  obtain ⟨seats', rest', hseats', hkeys', hrest'⟩ :=
    exists_seatsIn_append levels' hplaceable'.ids_nodup hrun'.nodup fun _ => hplaceable'.mem_run hrun'
  obtain ⟨last, rfl, hlast⟩ := List.map_eq_singleton_iff.mp hrest
  obtain ⟨added, final, rfl, hadded, hfinal⟩ := List.map_eq_cons_iff.mp hrest'
  obtain ⟨last', rfl, hlast'⟩ := List.map_eq_singleton_iff.mp hfinal
  have hlength : nodes.length = 1 + inner.length := by
    have hlengths := congrArg List.length hseats
    have hinners := congrArg List.length hkeys
    rw [List.length_map, List.length_zipIdx] at hinners
    simpa [seatsIn, hinners, Nat.add_comm] using hlengths
  have hsame : ∀ s ∈ seats ++ [last], ∀ s' ∈ seats' ++ [added, last'], s.node.id = s'.node.id →
      s.level = s'.level ∧ s.node.kind = s'.node.kind ∧ s.node.config.guardedPath = s'.node.config.guardedPath :=
    fun s hs s' hs' => h.seats_eq hplaceable hplaceable' hends hlevels hlevels' (hseats ▸ hs) (hseats' ▸ hs')
  have haddedMem : added ∈ seatsIn (inner ++ [new.id, finishId]) levels' nodes' := by
    rw [hseats']
    simp
  have hlastMem : last ∈ seatsIn (inner ++ [finishId]) levels nodes := by
    rw [hseats]
    simp
  have hlastId : last.node.id = finishId := (Prod.mk.inj hlast).1
  have hlastId' : last'.node.id = finishId := (Prod.mk.inj hlast').1
  obtain ⟨hlevel, hkind, -⟩ := hsame last (by simp) last' (by simp) (hlastId.trans hlastId'.symm)
  obtain ⟨haddedLevel, haddedKind⟩ :=
    h.seat_new hplaceable hplaceable' hends hlevels' haddedMem (Prod.mk.inj hadded).1
  rw [hseats] at hassign
  rw [hseats'] at hassign'
  refine ⟨seats, last, seats', added, last', hassign, hassign', ?_, ?_, hlength ▸ hlast, hlength ▸ hadded, ?_,
    haddedLevel, hlevel, hkind, ?_⟩
  · refine map_seats_congr (fun s => (s.node.id, s.order)) (hkeys.trans hkeys'.symm) fun s hs s' hs' hkey => ?_
    obtain ⟨hid, horder⟩ := Prod.mk.inj hkey
    obtain ⟨hlevel, hkind, hpath⟩ := hsame s (List.mem_append_left _ hs) s' (List.mem_append_left _ hs') hid
    simp only [Seat.face, Seat.rank, hid, horder, hlevel, hkind, hpath]
  · have hnames := congrArg (List.map (·.1)) hkeys'
    rw [List.map_map, List.zipIdx_map_fst] at hnames
    exact (congrArg (· ++ [new.id, finishId]) hnames).symm ▸ hrun'.nodup
  · rw [hlast', hlength, Nat.add_comm 1 inner.length]
  · obtain ⟨n, hn, heq⟩ := mem_seatsIn hlastMem
    rw [haddedKind, ← hkind]
    rw [heq] at hlastId ⊢
    exact (h.kind_ne n hn hlastId).symm

/-- **A new node is placed before the end and disturbs nothing else.** -/
theorem placedLast :
    ∃ before after, assign nodes edges = .ok before ∧ assign nodes' edges = .ok after ∧
      PlacedLast nodes.length new.id before after := by
  obtain ⟨seats, last, seats', added, last', hassign, hassign', hseated⟩ :=
    h.exists_seats hplaceable hplaceable' hends
  exact ⟨_, _, hassign, hassign', hseated.placedLast⟩

end Appended

end Placement

namespace Store

variable {s t u : Store} {n new : Node}

/-! ## Adding a node to a store -/

/-- The second store has one node more, which is placed before the end. Nothing else is disturbed: the edges stay, all
other nodes keep their places and labels, and the end keeps its level and label and is numbered one later. -/
structure Gains (s t : Store) (n : Node) : Prop where
  ids : t.ids = s.ids ++ [n.id]
  edges : t.edges = s.edges
  found : t.node? n.id = some n
  order : n.order = some ↑s.nodes.length
  level : n.level = some 1
  others : ∀ m ∈ s.nodes, m.id ≠ finishId → ∃ k, t.node? m.id = some k ∧ k.order = m.order ∧ k.level = m.level ∧
    k.label = m.label ∧ k.displayLabel = m.displayLabel
  finish : ∃ m k, s.node? finishId = some m ∧ t.node? finishId = some k ∧ m.order = some ↑s.nodes.length ∧
    k.order = some ↑(s.nodes.length + 1) ∧ k.level = m.level ∧ k.label = m.label

theorem guardedPath_withoutCollection (c : Config) : c.withoutCollection.guardedPath = c.guardedPath := by
  cases c <;> rfl

theorem edges_addNode (hs : s.WellFormed) (h : s.addNode n = .ok t) : t.edges = s.edges := by
  obtain ⟨hnew, rfl⟩ := addNode_eq_ok h
  have hnone : (s.links.filter fun e => e.source == n.id) = [] := by
    refine List.filter_eq_nil_iff.mpr fun e he hsource => hnew ?_
    exact beq_iff_eq.mp hsource ▸ (hs.ends_mem e he).1
  rw [edges, List.flatMap_append, List.flatMap_singleton, hnone, List.append_nil]
  rfl

/-- To a placed store a node is appended that has no order. -/
theorem Committed.appended (hs : s.Committed) (hkind : new.kind.isSentinel = false) (hnew : new.order = none)
    (loops : List String) :
    Placement.Appended s.nodes ((s.nodes ++ [new]).map (cleared loops)) new (cleared loops) where
  eq := rfl
  id_eq _ := rfl
  order_eq _ := rfl
  kind_eq m := by
    show Config.kind (if _ then _ else _) = _
    split
    · exact withoutCollection_kind m.config
    · rfl
  guardedPath_eq m := by
    show Config.guardedPath (if _ then _ else _) = _
    split
    · exact guardedPath_withoutCollection m.config
    · rfl
  placed m hm := by
    obtain ⟨_, -, -, hholds⟩ := hs.regular.wellFormed.exists_holds hs.regular.sound hs.fixed
    obtain ⟨_, -, horder, -⟩ := hholds m hm
    rw [horder]
    exact Option.some_ne_none _
  unplaced := hnew
  kind_ne m hm hid heq := by
    have hfinish := hs.regular.wellFormed.kind?_of_mem hm
    rw [hid, hs.regular.sound.finish_kind, Option.some.injEq, heq] at hfinish
    rw [← hfinish] at hkind
    cases hkind

/-- **Adding a node disturbs nothing**, once the change is repaired and placed. -/
theorem Committed.gains (hs : s.Committed) (hkind : new.kind.isSentinel = false) (hnew : new.order = none)
    (h : s.copy.addNode new = .ok t) (hu : (t.repair s.loopReferences).1.recompute = .ok u) :
    ∃ n, n.id = new.id ∧ s.Gains u n := by
  have hwell := hs.regular.wellFormed
  have hcopy := hs.regular.of_alike hwell.alike_copy
  have hrepaired := (hcopy.addNode hkind h).of_alike (alike_repair t s.loopReferences)
  have hwell' : u.WellFormed := ((alike_recompute hu).part hrepaired.wellFormed).wellFormed hrepaired.wellFormed
  have hedges : (t.repair s.loopReferences).1.edges = s.edges := by
    rw [edges_repair, edges_addNode hcopy.wellFormed h, hwell.edges_copy]
  have hids := (alike_of_repair hu).ids_eq
  have hplaceable := hwell.placeable hs.regular.sound
  have hplaceable' := hrepaired.wellFormed.placeable hrepaired.sound
  obtain ⟨placements, hassign, -, hholds⟩ := hwell.exists_holds hs.regular.sound hs.fixed
  obtain ⟨placements', hassign', heq⟩ := recompute_eq_ok hu
  obtain ⟨-, ht⟩ := addNode_eq_ok h
  let loops := (t.staleReferences s.loopReferences).map (·.loop)
  have hnodes : (t.repair s.loopReferences).1.nodes = (s.nodes ++ [new]).map (cleared loops) := by
    rw [repair_fst]
    show t.nodes.map (cleared loops) = _
    rw [ht]
    rfl
  rw [hedges, hnodes] at hplaceable' hassign'
  obtain ⟨before, after, hbefore, hafter, hlast⟩ :=
    (hs.appended hkind hnew loops).placedLast hplaceable hplaceable' hwell.edges_nodup
  obtain rfl := Except.ok.inj (hassign.symm.trans hbefore)
  obtain rfl := Except.ok.inj (hassign'.symm.trans hafter)
  have hfound : ∀ {m p}, m ∈ s.nodes ++ [new] → placements'.lookup m.id = some p →
      u.node? m.id = some (p.apply (cleared loops m)) := by
    intro m p hm hp
    refine hwell'.node?_eq_some_iff.mpr ⟨?_, rfl⟩
    rw [heq]
    exact List.mem_map.mpr ⟨cleared loops m, hnodes ▸ List.mem_map_of_mem hm,
      placedBy_of_lookup (n := cleared loops m) hp⟩
  obtain ⟨p, hp, horder, hlevel⟩ := hlast.added
  refine ⟨p.apply (cleared loops new), rfl, ?_, (edges_recompute hu).trans hedges, ?_, ?_, ?_, fun m hm hne => ?_, ?_⟩
  · rw [hids, ht, ids, List.map_append]
    rfl
  · exact hfound (List.mem_append_right _ (List.mem_singleton_self new)) hp
  · exact congrArg (fun k : Nat => some (k : Int)) horder
  · exact congrArg some hlevel
  · obtain ⟨p, hp, horder, hlevel, hlabel, hdisplay⟩ := hholds m hm
    exact ⟨_, hfound (List.mem_append_left _ hm) (hlast.others m.id p hne hp), horder.symm, hlevel.symm, hlabel.symm,
      hdisplay.symm⟩
  · obtain ⟨m, hm⟩ := exists_node? hs.regular.sound.finish_mem
    obtain ⟨hmem, hid⟩ := mem_of_node? hm
    obtain ⟨p, q, hp, hq, hcount, hnext, hsameLevel, hsameLabel⟩ := hlast.finish
    obtain ⟨p', hp', horder, hlevel, hlabel, -⟩ := hholds m hmem
    rw [hid, hp, Option.some.injEq] at hp'
    subst hp'
    refine ⟨m, q.apply (cleared loops m), hm, ?_, ?_, ?_, ?_, ?_⟩
    · exact hid ▸ hfound (List.mem_append_left _ hmem) (hid.symm ▸ hq)
    · rw [horder, hcount]
    · exact congrArg (fun k : Nat => some (k : Int)) hnext
    · rw [hlevel, ← hsameLevel]
      rfl
    · rw [hlabel, ← hsameLabel]
      rfl

end Store

namespace Session

variable {σ : Type} {s after : Session σ} {kind : Kind} {position : Point} {config : Members} {n : Node}

/-! ## Adding a node in a session -/

/-- The node that adding gives is the one that the store then holds under the fresh name. -/
theorem addNode_eq_ok (h : s.addNode kind position config = (.ok n, after)) :
    ∃ rest, s.tokens.freshName (fun t => kind.code ++ "_" ++ t) s.editor.store.ids = some (n.id, rest) ∧
      after.editor.store.node? n.id = some n := by
  unfold addNode at h
  split at h
  · cases h
  · split at h
    · cases h
    · next id rest hname =>
      dsimp only at h
      split at h
      · cases h
      · split at h
        · cases h
        · obtain ⟨hnode, rfl⟩ := Prod.mk.inj h
          have hfound := Store.node_eq_ok_iff.mp (EditFault.ofStructure_eq_ok_iff.mp hnode)
          obtain ⟨-, rfl⟩ := Store.mem_of_node? hfound
          exact ⟨rest, hname, hfound⟩

/-- **Adding a node disturbs nothing.** -/
theorem addNode_gains (hs : s.editor.store.Committed) (h : s.addNode kind position config = (.ok n, after)) :
    s.editor.store.Gains after.editor.store n := by
  have hattempt : s.attempt (.addNode kind position config) = (.ok (), after) := by
    simp only [attempt, h]
    rfl
  cases s.attempt_outcome (.addNode kind position config) with
  | fails f hfail _ _ =>
    rw [hattempt] at hfail
    cases hfail
  | ignored hrepeats _ _ _ => cases hrepeats
  | adopted changed hchanges _ hadopts =>
    rw [hattempt] at hadopts
    cases hchanges with
    | @addNode _ _ _ id rest c _ hkind hname hparse hadd =>
      rw [← Config.parse_kind hparse] at hkind
      have hordinary : (Node.unplaced id c position).kind.isSentinel = false := hkind
      obtain ⟨m, hm, hgains⟩ := hs.gains hordinary rfl hadd hadopts.placed
      -- The node of the store that was added has the fresh name, as the one that was given has.
      obtain ⟨_, hname', hfound⟩ := addNode_eq_ok h
      obtain ⟨hid, -⟩ := Prod.mk.inj (Option.some.inj (hname.symm.trans hname'))
      have hsame : m.id = n.id := hm.trans hid
      have hmfound := hgains.found
      rw [hsame, hfound] at hmfound
      exact Option.some.inj hmfound ▸ hgains

/-- A node can be added where its kind can, a token gives it a fresh name, and its configuration can be read. -/
theorem exists_addNode_ok (hs : s.editor.store.Regular) (hk : kind.isSentinel = false) {id : String}
    {rest : TokenSupply}
    (hname : s.tokens.freshName (fun t => kind.code ++ "_" ++ t) s.editor.store.ids = some (id, rest)) {c : Config}
    (hparse : Config.parse kind config = .ok c) (position : Point) :
    ∃ n after, s.addNode kind position config = (.ok n, after) ∧ n.id = id ∧ after.tokens = rest := by
  have hcopy := hs.of_alike hs.wellFormed.alike_copy
  have hnew : s.editor.store.copy.hasNode id = false := by
    refine Bool.eq_false_iff.mpr fun hnode => Store.freshName_not_mem hname ?_
    rw [← hs.wellFormed.alike_copy.ids_eq]
    exact Store.hasNode_eq_true_iff.mp hnode
  have hadd := Store.addNode_of_new (n := .unplaced id c position) hnew
  have hregular := hcopy.addNode (n := .unplaced id c position) (by rwa [← Config.parse_kind hparse] at hk) hadd
  obtain ⟨committed, hcommit, hu⟩ := commit_of_grounded { s with tokens := rest } .addNode [id]
    (fun draft => EditFault.ofStructure (draft.addNode (.unplaced id c position)))
    (EditFault.ofStructure_eq_ok_iff.mpr hadd) hregular.grounded
  have hid : id ∈ committed.editor.store.ids := by
    rw [(Store.alike_of_repair hu).ids_eq]
    exact (Store.mem_ids_addNode hadd).mpr (Or.inr rfl)
  obtain ⟨n, hn⟩ := Store.exists_node? hid
  refine ⟨n, committed.note (.debug "node_added" [("node_id", .text id), ("kind", .text kind.code)]), ?_,
    (Store.mem_of_node? hn).2, (sameSetting_of_commit hcommit).tokens⟩
  simp only [addNode, hk, Bool.false_eq_true, ↓reduceIte, hname, hparse, hcommit]
  exact Prod.ext (EditFault.ofStructure_eq_ok_iff.mpr (Store.node_eq_ok_iff.mpr hn)) rfl

/-- **Adding a node disturbs nothing.** In every state that a run reaches from a fresh editor, in whatever session and
with whatever tokens, a node that is added is placed before the end on the first level. The end is numbered one later,
and all else stays: the places and labels of the other nodes, the level and the label of the end, and the edges. -/
theorem run_gains {form : List FormField} {window : Seconds} {e : Editor} (he : Editor.fresh form window = .ok e)
    (desk : Desk σ) (clock : Clock) (tokens : TokenSupply) (isHeard : Bool) (events : List Event)
    (turns : List (Turn σ)) (kind : Kind) (position : Point) (config : Members) (n : Node) (after : Session σ)
    (h : (run ⟨e, desk, clock, tokens, isHeard, events⟩ turns).addNode kind position config = (.ok n, after)) :
    (run ⟨e, desk, clock, tokens, isHeard, events⟩ turns).editor.store.Gains after.editor.store n :=
  addNode_gains (committed_run turns _ (committed_of_fresh he).1) h

/-- A Path is added after a Loop. -/
theorem gains_looping :
    ∃ e n after, Editor.fresh [] .zero = .ok e ∧
      ((alone e).run looping).addNode .path .origin [] = (.ok n, after) ∧
      ((alone e).run looping).editor.store.Gains after.editor.store n := by
  obtain ⟨e, place, he, hcommitted, hstart⟩ := exists_fresh_sentinels [] .zero
  have hids : (alone e).editor.store.ids = [startId, finishId] := congrArg (·.store.ids) hstart
  have hname : (alone e).tokens.freshName (fun t => Kind.loop.code ++ "_" ++ t) (alone e).editor.store.ids =
      some (firstLoop, Store.numbersFrom 1) := by
    rw [hids]
    cbv
  have hparse : Config.parse .loop [] = .ok (.default .loop) := by cbv
  obtain ⟨loop, looped, hloop, hloopId, htokens⟩ := exists_addNode_ok hcommitted.regular rfl hname hparse .origin
  have hrun : (alone e).run looping = looped := congrArg Prod.snd hloop
  have hgains := addNode_gains hcommitted hloop
  have hname' : looped.tokens.freshName (fun t => Kind.path.code ++ "_" ++ t) looped.editor.store.ids =
      some ("path_00000002", Store.numbersFrom 2) := by
    rw [htokens, hgains.ids, hloopId, hids]
    cbv
  have hparse' : Config.parse .path [] = .ok .path := by cbv
  have hregular := (committed_run looping (alone e) hcommitted).regular
  rw [← hrun] at hname'
  obtain ⟨n, after, hadded, -, -⟩ := exists_addNode_ok hregular rfl hname' hparse' .origin
  exact ⟨e, n, after, he, hadded, run_gains he _ _ _ _ _ looping _ _ _ _ _ hadded⟩

end Session

end FormFlow
