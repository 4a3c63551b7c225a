import FormFlow.Proofs.Records
/-!
The walk numbers as the recursion does.

The recursion counts, for every node, the parents that it waits for. A visit numbers a node and takes it off the counts
of its children, the node that closes the graph apart; then it visits completely, one after the other, the children
that wait for nothing more (`visit`, `visitAll`). The walk keeps one stack for all visits that are under way and no
counts. It is at every moment in a state of the recursion: the counts can be told from the visits (`tallyOf`), and what
the stack holds is what the recursion has still to visit, the children of the latest visit before the rest
(`visitAll_tallyOf`). So both number every workflow alike, by whatever sweep (`Built.orders_eq_numbering`).
-/

set_option autoImplicit false

namespace FormFlow

namespace Digraph

variable {g : Digraph} {opening closing : String}

/-! ## The recursion -/

/-- The numbers given so far, and for every node how many of its parents it waits for. -/
@[ext] structure Tally where
  numbers : List (String × Nat)
  waiting : String → Int

/-- Nothing is numbered, and every node waits for all its parents. -/
def freshTally (g : Digraph) : Tally := ⟨[], fun n => (g.parents n).length⟩

/-- Numbers a node, and lowers the counts of its children but of the node that closes the graph. -/
def enter (g : Digraph) (closing : String) (t : Tally) (n : String) : Tally where
  numbers := t.numbers ++ [(n, t.numbers.length + 1)]
  waiting c := if c ∈ g.children n ∧ c ≠ closing then t.waiting c - 1 else t.waiting c

/-- The children of a node whose counts reach zero as it is entered, in the order of its arcs. -/
def released (g : Digraph) (closing : String) (t : Tally) (n : String) : List String :=
  (g.children n).filter fun c => c ≠ closing && (g.enter closing t n).waiting c == 0

/-- How many nodes wait. -/
def pending (g : Digraph) (t : Tally) : Nat :=
  (g.nodes.filter fun n => 0 < t.waiting n).length

theorem mem_released {t : Tally} {n c : String} :
    c ∈ g.released closing t n ↔ c ∈ g.children n ∧ c ≠ closing ∧ (g.enter closing t n).waiting c = 0 := by
  simp only [released, List.mem_filter, Bool.and_eq_true, decide_eq_true_eq, beq_iff_eq]

/-- Entering a node ends the waiting of the children that it releases, and no node begins to wait. -/
theorem pending_enter_le (g : Digraph) (closing : String) (t : Tally) (n : String) :
    g.pending (g.enter closing t n) + (g.released closing t n).length ≤ g.pending t := by
  refine Graph.length_filter_add_le (fun c hc => ?_) _ _ ((g.children_nodup n).filter _) (fun c hc => ?_)
    (fun c hc => ?_) fun c hc => ?_
  · rw [decide_eq_true_eq, enter] at hc
    rw [decide_eq_true_eq]
    dsimp only at hc
    split at hc <;> omega
  · exact g.children_subset (mem_released.mp hc).1
  · obtain ⟨hchild, hclosing, hzero⟩ := mem_released.mp hc
    rw [enter] at hzero
    dsimp only at hzero
    rw [if_pos ⟨hchild, hclosing⟩] at hzero
    rw [decide_eq_true_eq]
    omega
  · rw [decide_eq_true_eq, (mem_released.mp hc).2.2]
    omega

mutual

/-- **Visits a node completely**: enters it, and then visits the children that it releases. -/
def visit (g : Digraph) (closing : String) (t : Tally) (n : String) : {u : Tally // g.pending u ≤ g.pending t} :=
  have hless := pending_enter_le g closing t n
  let u := visitAll g closing (g.enter closing t n) (g.released closing t n)
  ⟨u.1, Nat.le_trans u.2 (Nat.le_trans (Nat.le_add_right _ _) hless)⟩
  termination_by (g.pending t, 1)
  decreasing_by
    have hless := pending_enter_le g closing t n
    rcases Nat.lt_or_eq_of_le hless with hlt | heq
    · exact Prod.Lex.left _ _ hlt
    · rw [heq]
      exact Prod.Lex.right _ Nat.one_pos

/-- Visits nodes completely, one after the other. -/
def visitAll (g : Digraph) (closing : String) (t : Tally) (ns : List String) :
    {u : Tally // g.pending u ≤ g.pending t} :=
  match ns with
  | [] => ⟨t, Nat.le_refl _⟩
  | n :: rest =>
    let u := visit g closing t n
    let v := visitAll g closing u.1 rest
    ⟨v.1, Nat.le_trans v.2 u.2⟩
  termination_by (g.pending t + ns.length, 0)
  decreasing_by
    · exact Prod.Lex.left _ _ (Nat.lt_add_of_pos_right (Nat.succ_pos _))
    · exact Prod.Lex.left _ _ (Nat.lt_of_le_of_lt (Nat.add_le_add_right u.2 _) (Nat.lt_succ_self _))

end

/-- Takes up the nodes of a sweep that are not numbered and wait for nothing, each one with a visit. -/
def takeUp (g : Digraph) (closing : String) (t : Tally) : (sweep : List String) → Except PlacementFault Tally
  | [] => .ok t
  | n :: rest =>
    if n = closing ∨ n ∈ t.numbers.map (·.1) then takeUp g closing t rest
    else if n ∉ g.nodes then .error (.unplaced n)
    else if t.waiting n = 0 then takeUp g closing (g.visit closing t n).1 rest
    else takeUp g closing t rest

/-- **The numbering by recursion**: the node that opens the graph is visited first, then the nodes of the sweep are
taken up, and the node that closes the graph is numbered last. -/
def numbering (g : Digraph) (opening closing : String) (sweep : List String) :
    Except PlacementFault (List (String × Nat)) := do
  let first := if opening ∈ g.nodes then (g.visit closing g.freshTally opening).1 else g.freshTally
  let t ← g.takeUp closing first sweep
  return t.numbers ++ if closing ∈ g.nodes then [(closing, t.numbers.length + 1)] else []

/-! ## The walk as a state of the recursion -/

theorem visitAll_cons (t : Tally) (n : String) (rest : List String) :
    (g.visitAll closing t (n :: rest)).1 = (g.visitAll closing (g.visit closing t n).1 rest).1 := by
  rw [visitAll]

theorem visit_eq (t : Tally) (n : String) :
    (g.visit closing t n).1 = (g.visitAll closing (g.enter closing t n) (g.released closing t n)).1 := by
  rw [visit]

/-- Visiting two lists in turn is visiting one after the other. -/
theorem visitAll_append (t : Tally) (ns rest : List String) :
    (g.visitAll closing t (ns ++ rest)).1 = (g.visitAll closing (g.visitAll closing t ns).1 rest).1 := by
  induction ns generalizing t with
  | nil => rw [List.nil_append, visitAll]
  | cons n ns ih => rw [List.cons_append, visitAll_cons, ih, visitAll_cons]

/-- The state of the recursion after some visits; they are held the latest first. -/
def tallyOf (g : Digraph) (closing : String) (visits : List String) : Tally where
  numbers := visits.reverse.zipIdx 1
  waiting n := (g.parents n).length - if n = closing then 0 else g.arrived visits n

theorem tallyOf_nil (g : Digraph) (closing : String) : g.tallyOf closing [] = g.freshTally := by
  have harrived : ∀ n, g.arrived [] n = 0 := fun n => by
    unfold arrived
    induction g.parents n with
    | nil => rfl
    | cons p ps ih => rw [List.map_cons, Graph.total_cons, ih, List.count_nil]
  simp [tallyOf, freshTally, harrived]

theorem parents_nodup (g : Digraph) (n : String) : (g.parents n).Nodup := by
  refine List.Nodup.map_on (fun a ha b hb hab => ?_) (g.arcs_nodup.filter _)
  have ha := beq_iff_eq.mp (List.mem_filter.mp ha).2
  have hb := beq_iff_eq.mp (List.mem_filter.mp hb).2
  exact Prod.ext hab (ha.trans hb.symm)

/-- A visit arrives once at each child of the node that is visited. -/
theorem arrived_cons (visits : List String) (n c : String) :
    g.arrived (n :: visits) c = g.arrived visits c + if c ∈ g.children n then 1 else 0 := by
  have hcount : g.arrived (n :: visits) c = g.arrived visits c + (g.parents c).count n := by
    unfold arrived
    induction g.parents c with
    | nil => rfl
    | cons p ps ih =>
      rw [List.map_cons, Graph.total_cons, ih, List.map_cons, Graph.total_cons, List.count_cons, List.count_cons]
      simp only [beq_iff_eq, eq_comm (a := n)]
      omega
  rw [hcount, (g.parents_nodup c).count]
  simp only [mem_parents, mem_children]

/-- One visit of the walk enters the node. -/
theorem enter_tallyOf (visits : List String) (n : String) :
    g.enter closing (g.tallyOf closing visits) n = g.tallyOf closing (n :: visits) := by
  have hwaiting : ∀ c, (g.enter closing (g.tallyOf closing visits) n).waiting c =
      (g.tallyOf closing (n :: visits)).waiting c := by
    intro c
    simp only [enter, tallyOf, arrived_cons]
    split_ifs <;> grind
  have hnumbers : (g.enter closing (g.tallyOf closing visits) n).numbers =
      (g.tallyOf closing (n :: visits)).numbers := by
    simp [enter, tallyOf, List.zipIdx_append, Nat.add_comm]
  exact Tally.ext hnumbers (funext hwaiting)

/-- A node waits for nothing when it is ready. -/
theorem waiting_tallyOf_eq_zero_iff {n : String} (h : n ≠ closing) (visits : List String) :
    (g.tallyOf closing visits).waiting n = 0 ↔ g.isReady visits n = true := by
  rw [tallyOf, isReady, beq_iff_eq]
  dsimp only
  rw [if_neg h]
  omega

/-- The walk pushes the children that the recursion releases. -/
theorem released_tallyOf (visits : List String) (n : String) :
    g.released closing (g.tallyOf closing visits) n = g.ready closing (n :: visits) n := by
  refine List.filter_congr fun c _ => ?_
  rw [enter_tallyOf]
  by_cases hclosing : c = closing
  · simp [hclosing]
  · rw [Bool.eq_iff_iff, Bool.and_eq_true, Bool.and_eq_true, beq_iff_eq, waiting_tallyOf_eq_zero_iff hclosing]

/-- **The stack is what the recursion has still to visit.** -/
theorem visitAll_tallyOf (visits stack : List String) :
    (g.visitAll closing (g.tallyOf closing visits) stack).1 = g.tallyOf closing (g.walk closing visits stack) := by
  fun_induction Digraph.walk g closing visits stack with
  | case1 visits => rw [visitAll]
  | case2 visits n stack ih =>
    rw [visitAll_cons, visit_eq, ← visitAll_append, released_tallyOf, enter_tallyOf, ih]

theorem visit_tallyOf (visits : List String) (n : String) :
    (g.visit closing (g.tallyOf closing visits) n).1 = g.tallyOf closing (g.walk closing visits [n]) := by
  rw [← visitAll_tallyOf, visitAll_cons, visitAll]

theorem mem_numbers_tallyOf {visits : List String} {n : String} :
    n ∈ (g.tallyOf closing visits).numbers.map (·.1) ↔ n ∈ visits := by
  rw [tallyOf, List.zipIdx_map_fst, List.mem_reverse]

/-- The sweep and the recursion take up the same nodes. -/
theorem takeUp_tallyOf (visits sweep : List String) :
    g.takeUp closing (g.tallyOf closing visits) sweep = (g.sweepUp closing visits sweep).map (g.tallyOf closing) := by
  fun_induction Digraph.sweepUp g closing visits sweep with
  | case1 visits => rfl
  | case2 visits n rest hskip ih => rw [takeUp, if_pos (by rwa [mem_numbers_tallyOf]), ih]
  | case3 visits n rest hnew hout =>
    rw [takeUp, if_neg (by rwa [mem_numbers_tallyOf]), if_pos hout]
    rfl
  | case4 visits n rest hnew hin hready ih =>
    have hzero := (waiting_tallyOf_eq_zero_iff (not_or.mp hnew).1 visits).mpr hready
    rw [takeUp, if_neg (by rwa [mem_numbers_tallyOf]), if_neg hin, if_pos hzero, visit_tallyOf, ih]
  | case5 visits n rest hnew hin hready ih =>
    have hwaits := mt (waiting_tallyOf_eq_zero_iff (not_or.mp hnew).1 visits).mp hready
    rw [takeUp, if_neg (by rwa [mem_numbers_tallyOf]), if_neg hin, if_neg hwaits, ih]

/-! ## The same numbers -/

/-- A sweep that succeeds keeps the invariant of the walk. -/
theorem Walking.of_sweepUp {visits sweep final : List String} (h : Walking g closing visits [])
    (hsweep : g.sweepUp closing visits sweep = .ok final) : Walking g closing final [] := by
  fun_induction Digraph.sweepUp g closing visits sweep with
  | case1 visits => exact Except.ok.inj hsweep ▸ h
  | case2 visits n rest _ ih => exact ih h hsweep
  | case3 => cases hsweep
  | case4 visits n rest hnew hin hready ih =>
    obtain ⟨hclosing, hfresh⟩ := not_or.mp hnew
    have hnode := Decidable.not_not.mp hin
    exact ih (h.takeUp hnode hclosing hfresh ((isReady_iff h.after.nodup).mp hready)) hsweep
  | case5 visits n rest _ _ _ ih => exact ih h hsweep

/-- The walk and the recursion number a graph alike if nothing leads to the node that opens it. -/
theorem Rooted.numbering_eq_orders (hg : g.Rooted opening closing) (sweep : List String) :
    g.numbering opening closing sweep = g.orders opening closing sweep := by
  have htake : g.takeUp closing (g.tallyOf closing (g.walk closing [] [opening])) sweep =
      (g.sweepUp closing (g.walk closing [] [opening]) sweep).map (g.tallyOf closing) := takeUp_tallyOf _ _
  rw [numbering, if_pos hg.opening_mem, ← tallyOf_nil g closing, visit_tallyOf, htake]
  cases hvisits : g.sweepUp closing (g.walk closing [] [opening]) sweep with
  | error fault =>
    rw [orders, if_pos hg.opening_mem, hvisits]
    rfl
  | ok visits =>
    have hnodup := (hg.walking.walk.of_sweepUp hvisits).after.nodup
    rw [orders, if_pos hg.opening_mem, hvisits]
    simp only [bind, Except.bind, pure, Except.pure, Except.map, Table.eraseDups_of_nodup hnodup, map_numberIn hnodup,
      tallyOf, List.length_zipIdx, List.length_reverse]

end Digraph

namespace Store

variable {s : Store} {edges : List Edge}

/-- **The walk numbers as the recursion does.** In every store that can be built and that the check accepts, whatever
the order in which its edges are read, the walk and the recursion give the same numbers by every sweep; and they
number every node where the sweep lists them all. -/
theorem Built.orders_eq_numbering (hs : s.Built) (hcheck : s.checkStructure = .ok ()) (hedges : edges.Perm s.links)
    (sweep : List String) :
    (graphOf s.nodes edges).orders startId finishId sweep = (graphOf s.nodes edges).numbering startId finishId sweep ∧
      ((∀ id, id ∈ sweep ↔ id ∈ s.ids) → ∃ run : List String, run.Perm s.ids ∧
        (graphOf s.nodes edges).numbering startId finishId sweep = .ok (run.zipIdx 1)) := by
  obtain ⟨h, -, -⟩ := checkStructure_eq_ok_iff.mp hcheck
  have hwell := hs.wellFormed
  have hrooted := (hwell.bounded h hedges).rooted
  have hsame := (hrooted.numbering_eq_orders sweep).symm
  have hnodes : (graphOf s.nodes edges).nodes = s.ids :=
    nodes_graphOf hwell.ids_nodup fun e he => hwell.ends_mem e (hedges.mem_iff.mp he)
  refine ⟨hsame, fun hsweep => ?_⟩
  obtain ⟨run, hrun, horders⟩ := hrooted.exists_orders fun id => by rw [hsweep, hnodes]
  exact ⟨run, hnodes ▸ hrun.perm, hsame ▸ horders⟩

theorem orders_eq_numbering_withJoin :
    (withJoin .origin).Built ∧ (withJoin .origin).checkStructure = .ok () ∧
      (withJoin .origin).edges.Perm (withJoin .origin).links ∧
      (graphOf (withJoin .origin).nodes (withJoin .origin).edges).orders startId finishId (withJoin .origin).ids =
        (graphOf (withJoin .origin).nodes (withJoin .origin).edges).numbering startId finishId
          (withJoin .origin).ids ∧
      ∃ run : List String, run.Perm (withJoin .origin).ids ∧
        (graphOf (withJoin .origin).nodes (withJoin .origin).edges).numbering startId finishId
          (withJoin .origin).ids = .ok (run.zipIdx 1) := by
  have hbuilt := built_withJoin .origin
  have hcheck := checkStructure_withJoin .origin
  have hedges := hbuilt.wellFormed.edges_perm
  obtain ⟨hsame, hnumbers⟩ := Built.orders_eq_numbering hbuilt hcheck hedges (withJoin .origin).ids
  exact ⟨hbuilt, hcheck, hedges, hsame, hnumbers fun _ => Iff.rfl⟩

example (p : Point) : (graphOf (withJoin p).nodes (withJoin p).links).numbering startId finishId (withJoin p).ids =
    .ok [(startId, 1), ("find_1", 2), ("find_2", 3), ("loop_1", 4), (finishId, 5)] := by
  cbv

end Store

end FormFlow
