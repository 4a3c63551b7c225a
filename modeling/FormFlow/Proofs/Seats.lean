import FormFlow.Proofs.Placement
/-!
What the placement of a node depends on.

The sweep looks at ids and orders (`sweep_congr`), and takes up a node that has no order last (`sweep_append_new`).
Labels are made of ids, numbers, levels and kinds, display labels of the Paths that the nodes guard as well
(`Seat.rank`, `Seat.face`). So seats that agree on the first have their orders, levels and labels in common
(`map_place_labelled`), seats that agree on all are placed alike (`labelled_congr`), and what comes later changes
nothing (`labelled_append`).
-/

set_option autoImplicit false

namespace FormFlow.Placement

variable {nodes nodes' : List Node} {run : List String} {levels levels' : List (String × Nat)}

/-! ## The sweep -/

/-- The keys of nodes in the sweep, with their ids. -/
def keyed (entries : List ((String × Option Int) × Nat)) : List (SweepKey × String) :=
  entries.map fun entry => (⟨entry.1.2.isNone, entry.1.2.getD 0, entry.2⟩, entry.1.1)

/-- The sweep sorts keys that are made of ids, orders and places. -/
theorem sweep_eq (h : (nodes.map (·.id)).Nodup) :
    sweep nodes = ((keyed (nodes.map fun n => (n.id, n.order)).zipIdx).mergeSort fun a b => a.1.le b.1).map (·.2) := by
  rw [sweep, byId_eq h, keyed, List.zipIdx_map, List.map_map, List.map_map]
  rfl

/-- The sweep looks at ids and orders only. -/
theorem sweep_congr (h : (nodes.map (·.id)).Nodup) (h' : (nodes'.map (·.id)).Nodup)
    (hsame : (nodes.map fun n => (n.id, n.order)) = nodes'.map fun n => (n.id, n.order)) :
    sweep nodes = sweep nodes' := by
  rw [sweep_eq h, sweep_eq h', hsame]

namespace SweepKey

theorem le_antisymm {a b : SweepKey} (hab : a.le b = true) (hba : b.le a = true) : a = b := by
  obtain ⟨isNew, order, place⟩ := a
  obtain ⟨isNew', order', place'⟩ := b
  simp only [le] at hab hba
  grind

end SweepKey

/-- No two nodes have one key: their places differ. -/
theorem nodup_keyed (nodes : List (String × Option Int)) : ((keyed nodes.zipIdx).map (·.1)).Nodup := by
  have hplaces : ((keyed nodes.zipIdx).map (·.1)).map (·.place) = List.range' 0 nodes.length := by
    rw [← List.zipIdx_map_snd, keyed, List.map_map, List.map_map]
    rfl
  exact List.Nodup.of_map _ (hplaces ▸ List.nodup_range')

/-- A node without an order is taken up after all that have one. -/
theorem sweep_append_new {n : Node} (h : ((nodes ++ [n]).map (·.id)).Nodup) (hold : ∀ m ∈ nodes, m.order ≠ none)
    (hnew : n.order = none) : sweep (nodes ++ [n]) = sweep nodes ++ [n.id] := by
  have hnodes : (nodes.map (·.id)).Nodup := by
    rw [List.map_append] at h
    exact (List.nodup_append.mp h).1
  let entries := keyed (nodes.map fun m => (m.id, m.order)).zipIdx
  let last : SweepKey × String := (⟨true, 0, nodes.length⟩, n.id)
  have hkeys : keyed ((nodes ++ [n]).map fun m => (m.id, m.order)).zipIdx = entries ++ [last] := by
    simp only [keyed, entries, last, List.map_append, List.zipIdx_append, List.map_cons, List.map_nil,
      List.zipIdx_cons, List.zipIdx_nil, hnew, List.length_map, Option.isNone_none, Option.getD_none, Nat.zero_add]
  have hentries : ∀ entry ∈ entries, entry.1.isNew = false := by
    intro entry hentry
    obtain ⟨⟨node, place⟩, hplace, rfl⟩ := List.mem_map.mp hentry
    obtain ⟨m, hm, rfl⟩ := List.mem_map.mp (List.fst_mem_of_mem_zipIdx hplace)
    exact Option.isNone_eq_false_iff.mpr (Option.isSome_iff_ne_none.mpr (hold m hm))
  have hsorted : ∀ keys : List (SweepKey × String),
      (keys.mergeSort fun a b => a.1.le b.1).Pairwise fun a b => a.1.le b.1 :=
    List.pairwise_mergeSort (fun a b c => SweepKey.le_trans a.1 b.1 c.1) fun a b => SweepKey.le_total a.1 b.1
  have hlast : ((entries ++ [last]).mergeSort fun a b => a.1.le b.1) =
      (entries.mergeSort fun a b => a.1.le b.1) ++ [last] := by
    have hnodup := nodup_keyed ((nodes ++ [n]).map fun m => (m.id, m.order))
    rw [hkeys] at hnodup
    refine List.Perm.eq_of_pairwise (fun a b ha hb hab hba => ?_) (hsorted _) ?_
      ((List.mergeSort_perm _ _).trans ((List.mergeSort_perm _ _).symm.append_right _))
    · have hb' : b ∈ entries ++ [last] := ((List.mergeSort_perm _ _).append_right _).mem_iff.mp hb
      exact List.inj_on_of_nodup_map hnodup (List.mem_mergeSort.mp ha) hb' (SweepKey.le_antisymm hab hba)
    · refine List.pairwise_append.mpr ⟨hsorted _, List.pairwise_singleton _ _, fun a ha b hb => ?_⟩
      obtain rfl := List.mem_singleton.mp hb
      simp [last, SweepKey.le, hentries a (List.mem_mergeSort.mp ha)]
  rw [sweep_eq h, sweep_eq hnodes, hkeys, hlast, List.map_append]
  rfl

/-! ## Seats along a run -/

theorem mem_seatsIn {s : Seat} (h : s ∈ seatsIn run levels nodes) :
    ∃ n ∈ nodes, s = ⟨n, numberOf run n.id, (levels.lookup n.id).getD 0⟩ := by
  obtain ⟨n, hn, heq⟩ := List.mem_map.mp (List.mem_mergeSort.mp h)
  exact ⟨n, hn, heq.symm⟩

theorem seatsIn_names (levels : List (String × Nat)) (h : (nodes.map (·.id)).Nodup) (hrun : run.Nodup)
    (hmem : ∀ id, id ∈ run ↔ id ∈ nodes.map (·.id)) : (seatsIn run levels nodes).map (·.node.id) = run := by
  have hnames := congrArg (List.map (·.1)) (seatsIn_numbers levels h hrun hmem)
  rwa [List.map_map, List.zipIdx_map_fst] at hnames

/-- The seats of a run's beginning come first, and those of its rest go on with the numbers. -/
theorem exists_seatsIn_append (levels : List (String × Nat)) {inner tail : List String} (h : (nodes.map (·.id)).Nodup)
    (hrun : (inner ++ tail).Nodup) (hmem : ∀ id, id ∈ inner ++ tail ↔ id ∈ nodes.map (·.id)) :
    ∃ seats rest, seatsIn (inner ++ tail) levels nodes = seats ++ rest ∧
      (seats.map fun s => (s.node.id, s.order)) = inner.zipIdx 1 ∧
      (rest.map fun s => (s.node.id, s.order)) = tail.zipIdx (1 + inner.length) := by
  have hnumbers := seatsIn_numbers levels h hrun hmem
  rw [List.zipIdx_append] at hnumbers
  exact List.map_eq_append_iff.mp hnumbers

/-- Seats that agree on a key look the same one by one, if the key tells how they look. -/
theorem map_seats_congr {κ α : Type} (key : Seat → κ) {look : Seat → α} {seats seats' : List Seat}
    (hkeys : seats.map key = seats'.map key) (h : ∀ s ∈ seats, ∀ s' ∈ seats', key s = key s' → look s = look s') :
    seats.map look = seats'.map look := by
  induction seats generalizing seats' with
  | nil =>
    rw [List.map_nil, eq_comm, List.map_eq_nil_iff] at hkeys
    rw [hkeys]
  | cons s seats ih =>
    obtain ⟨s', seats', rfl, hs, hrest⟩ := List.map_eq_cons_iff.mp hkeys.symm
    rw [List.map_cons, List.map_cons, h s List.mem_cons_self s' List.mem_cons_self hs.symm,
      ih hrest.symm fun t ht t' ht' => h t (List.mem_cons_of_mem _ ht) t' (List.mem_cons_of_mem _ ht')]

/-! ## Labels -/

/-- The placement of a seat that comes after the given ones, under the id of its node. -/
def entryAfter (earlier : List Seat) (s : Seat) : String × Placement :=
  (s.node.id, ⟨s.order, s.level, labelAfter earlier s, displayLabelAfter earlier s⟩)

/-- The id of a seat's node, its number, its level and its kind: all that its place and its label are made of. -/
def Seat.rank (s : Seat) : String × Nat × Nat × Kind := (s.node.id, s.order, s.level, s.node.kind)

/-- A seat's rank, and the Path that its node guards: all that its placement is made of. -/
def Seat.face (s : Seat) : (String × Nat × Nat × Kind) × Option String := (s.rank, s.node.config.guardedPath)

/-- A placement without its display label. -/
def place (p : Placement) : Nat × Nat × String := (p.order, p.level, p.label)

/-- Seats that look the same are labelled the same, as far as that can be told from what is looked at. -/
theorem map_labelled {α β : Type} {look : Seat → α} {shown : String × Placement → β}
    (h : ∀ {earlier earlier' s s'}, earlier.map look = earlier'.map look → look s = look s' →
      shown (entryAfter earlier s) = shown (entryAfter earlier' s'))
    {earlier earlier' seats seats' : List Seat} (hearlier : earlier.map look = earlier'.map look)
    (hseats : seats.map look = seats'.map look) :
    (labelled earlier seats).map shown = (labelled earlier' seats').map shown := by
  induction seats generalizing earlier earlier' seats' with
  | nil =>
    rw [List.map_nil, eq_comm, List.map_eq_nil_iff] at hseats
    rw [hseats]
    rfl
  | cons s seats ih =>
    obtain ⟨s', seats', rfl, hs, hrest⟩ := List.map_eq_cons_iff.mp hseats.symm
    have hmore : (earlier ++ [s]).map look = (earlier' ++ [s']).map look := by
      rw [List.map_append, List.map_append, hearlier, List.map_singleton, List.map_singleton, hs]
    rw [labelled, labelled, List.map_cons, List.map_cons, ih hmore hrest.symm]
    exact congrArg (· :: _) (h hearlier hs.symm)

theorem labelAfter_congr {earlier earlier' : List Seat} {s s' : Seat}
    (hearlier : earlier.map Seat.rank = earlier'.map Seat.rank) (hlevel : s.level = s'.level)
    (hkind : s.node.kind = s'.node.kind) : labelAfter earlier s = labelAfter earlier' s' := by
  have hcount : ∀ seats : List Seat, (seats.countP fun t => t.level == s.level && t.node.kind == s.node.kind) =
      (seats.map Seat.rank).countP fun r => r.2.2.1 == s.level && r.2.2.2 == s.node.kind := fun seats => by
    rw [List.countP_map]
    rfl
  rw [labelAfter, labelAfter, hcount, hearlier, ← hcount, hlevel, hkind]

/-- A seat of another kind counts in no label. -/
theorem labelAfter_append_of_ne {earlier : List Seat} {s t : Seat} (h : t.node.kind ≠ s.node.kind) :
    labelAfter (earlier ++ [t]) s = labelAfter earlier s := by
  have hnone : [t].countP (fun t => t.level == s.level && t.node.kind == s.node.kind) = 0 := by
    simp [h]
  rw [labelAfter, labelAfter, List.countP_append, hnone, Nat.add_zero]

theorem displayLabelAfter_congr {earlier earlier' : List Seat} {s s' : Seat}
    (hearlier : earlier.map Seat.face = earlier'.map Seat.face) (hs : s.face = s'.face) :
    displayLabelAfter earlier s = displayLabelAfter earlier' s' := by
  have hcount : ∀ (seats : List Seat) (path : String),
      (seats.countP fun t => t.node.config.guardedPath == some path) =
        (seats.map Seat.face).countP fun f => f.2 == some path := fun seats path => by
    rw [List.countP_map]
    rfl
  obtain ⟨hrank, hpath⟩ : s.rank = s'.rank ∧ s.node.config.guardedPath = s'.node.config.guardedPath := by
    simpa only [Seat.face, Prod.mk.injEq] using hs
  have hkind : s.node.kind = s'.node.kind := congrArg (·.2.2.2) hrank
  simp only [displayLabelAfter, hpath, hkind, hcount, hearlier]

/-- Seats of one rank have their places and labels in common, whatever they guard. -/
theorem map_place_labelled {seats seats' : List Seat} (h : seats.map Seat.rank = seats'.map Seat.rank) :
    ((labelled [] seats).map fun entry => (entry.1, place entry.2)) =
      (labelled [] seats').map fun entry => (entry.1, place entry.2) := by
  refine map_labelled (fun {earlier earlier' s s'} hearlier hs => ?_) rfl h
  obtain ⟨hid, horder, hlevel, hkind⟩ :
      s.node.id = s'.node.id ∧ s.order = s'.order ∧ s.level = s'.level ∧ s.node.kind = s'.node.kind := by
    simpa only [Seat.rank, Prod.mk.injEq] using hs
  simp only [entryAfter, place, labelAfter_congr hearlier hlevel hkind, hid, horder, hlevel]

/-- Seats with one face are placed alike. -/
theorem labelled_congr {seats seats' : List Seat} (h : seats.map Seat.face = seats'.map Seat.face) :
    labelled [] seats = labelled [] seats' := by
  rw [← List.map_id (labelled [] seats), ← List.map_id (labelled [] seats')]
  refine map_labelled (fun {earlier earlier' s s'} hearlier hs => ?_) rfl h
  have hranks : earlier.map Seat.rank = earlier'.map Seat.rank := by
    have hfirsts := congrArg (List.map (·.1)) hearlier
    rwa [List.map_map, List.map_map] at hfirsts
  obtain ⟨hid, horder, hlevel, hkind⟩ :
      s.node.id = s'.node.id ∧ s.order = s'.order ∧ s.level = s'.level ∧ s.node.kind = s'.node.kind := by
    simpa only [Seat.face, Seat.rank, Prod.mk.injEq] using congrArg (·.1) hs
  simp only [entryAfter, id_eq, labelAfter_congr hranks hlevel hkind, displayLabelAfter_congr hearlier hs, hid, horder,
    hlevel]

theorem labelled_append (earlier before after : List Seat) :
    labelled earlier (before ++ after) = labelled earlier before ++ labelled (earlier ++ before) after := by
  induction before generalizing earlier with
  | nil => rw [List.append_nil]; rfl
  | cons s before ih => rw [List.cons_append, labelled, labelled, ih, List.append_assoc, List.cons_append]; rfl

/-! ## Looking placements up -/

theorem exists_entryAfter (earlier : List Seat) {seats : List Seat} {s : Seat} (hs : s ∈ seats) :
    ∃ before, entryAfter before s ∈ labelled earlier seats := by
  induction seats generalizing earlier with
  | nil => cases hs
  | cons t seats ih =>
    rcases List.mem_cons.mp hs with rfl | hs
    · exact ⟨earlier, List.mem_cons_self⟩
    · obtain ⟨before, hentry⟩ := ih (earlier ++ [t]) hs
      exact ⟨before, List.mem_cons_of_mem _ hentry⟩

theorem labelled_names (seats : List Seat) : (labelled [] seats).map (·.1) = seats.map (·.node.id) := by
  have hnames := congrArg (List.map (·.1)) (labelled_numbers [] seats)
  rwa [List.map_map, List.map_map] at hnames

/-- A node is placed by its number in a run and its level, and shows its kind if it guards nothing. -/
structure SeatedIn (run : List String) (levels : List (String × Nat)) (n : Node) (p : Placement) : Prop where
  order_eq : p.order = numberOf run n.id
  level_eq : p.level = (levels.lookup n.id).getD 0
  displayLabel_eq : n.config.guardedPath = none → p.displayLabel = n.kind.displayName

theorem exists_seatedIn_labelled (h : (nodes.map (·.id)).Nodup) (hrun : run.Nodup)
    (hmem : ∀ id, id ∈ run ↔ id ∈ nodes.map (·.id)) {n : Node} (hn : n ∈ nodes) :
    ∃ p, (labelled [] (seatsIn run levels nodes)).lookup n.id = some p ∧ SeatedIn run levels n p := by
  have hseat : Seat.mk n (numberOf run n.id) ((levels.lookup n.id).getD 0) ∈ seatsIn run levels nodes :=
    List.mem_mergeSort.mpr (List.mem_map.mpr ⟨n, hn, rfl⟩)
  obtain ⟨before, hentry⟩ := exists_entryAfter [] hseat
  have hnames : ((labelled [] (seatsIn run levels nodes)).map (·.1)).Nodup := by
    rwa [labelled_names, seatsIn_names levels h hrun hmem]
  refine ⟨_, (Table.lookup_eq_some_iff_mem hnames).mpr hentry, rfl, rfl, fun hnone => ?_⟩
  simp only [displayLabelAfter, hnone]

/-- Where placing succeeds, every node is seated in one run. -/
theorem Placeable.exists_seatedIn {edges : List Edge} {placements : List (String × Placement)}
    (h : Placeable nodes edges) (hassign : assign nodes edges = .ok placements) :
    ∃ run levels, RunOf nodes edges run ∧ (graphOf nodes edges).levels finishId = .ok levels ∧
      ∀ n ∈ nodes, ∃ p, placements.lookup n.id = some p ∧ SeatedIn run levels n p := by
  obtain ⟨run, levels, hrunOf, hrun, hlevels, hok⟩ := h.exists_assign
  obtain rfl := Except.ok.inj (hassign.symm.trans hok)
  exact ⟨run, levels, hrunOf, hlevels, fun n hn =>
    exists_seatedIn_labelled h.ids_nodup hrun.nodup (fun _ => h.mem_run hrun) hn⟩

end FormFlow.Placement
