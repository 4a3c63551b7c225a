import Mathlib.Data.List.Nodup
import FormFlow.Graph.Orders
import FormFlow.Proofs.Levels
/-!
The walk numbers every node once, after all its parents.

The visits so far and the stack keep an invariant (`Walking`): a node on the stack waits for nothing and was not
visited, and a node that waits for nothing but is neither visited nor on the stack has no parents. So a node is pushed
once, by the visit of its last parent, and only nodes without parents are left to the sweep. When the sweep is through,
a node that is not visited would have a parent that is not visited, and so on without end.

A sweep in the order of the visits visits in the same order again (`sweepUp_again`): each root of the first sweep is
met when exactly the visits before it were made.
-/

set_option autoImplicit false

namespace FormFlow.Digraph

variable {g : Digraph} {closing : String}

/-! ## Being ready -/

theorem arrived_eq_countP (g : Digraph) {visits : List String} (h : visits.Nodup) (n : String) :
    g.arrived visits n = (g.parents n).countP (· ∈ visits) := by
  unfold arrived
  induction g.parents n with
  | nil => rfl
  | cons p ps ih =>
    rw [List.map_cons, Graph.total_cons, ih, List.countP_cons, h.count]
    simp only [decide_eq_true_eq]
    omega

/-- A node is ready when all its parents are visited. -/
theorem isReady_iff {visits : List String} (h : visits.Nodup) {n : String} :
    g.isReady visits n = true ↔ ∀ p ∈ g.parents n, p ∈ visits := by
  rw [isReady, beq_iff_eq, arrived_eq_countP g h, List.countP_eq_length]
  simp only [decide_eq_true_eq]

/-- Every visit came once and after those of all parents; the visits are held the latest first. -/
def AfterParents (g : Digraph) : List String → Prop
  | [] => True
  | n :: visits => n ∉ visits ∧ (∀ p ∈ g.parents n, p ∈ visits) ∧ AfterParents g visits

namespace AfterParents

theorem nodup {visits : List String} (h : g.AfterParents visits) : visits.Nodup := by
  induction visits with
  | nil => exact .nil
  | cons n visits ih => exact List.nodup_cons.mpr ⟨h.1, ih h.2.2⟩

/-- The parents of a visited node are visited. -/
theorem parent_mem {visits : List String} (h : g.AfterParents visits) {n p : String} (hn : n ∈ visits)
    (hp : p ∈ g.parents n) : p ∈ visits := by
  induction visits with
  | nil => cases hn
  | cons m visits ih =>
    rcases List.mem_cons.mp hn with rfl | hn
    · exact List.mem_cons_of_mem _ (h.2.1 p hp)
    · exact List.mem_cons_of_mem _ (ih h.2.2 hn)

/-- Against the order of the visits, a parent comes before its children. -/
theorem parent_before {visits : List String} (h : g.AfterParents visits) :
    visits.reverse.Pairwise fun a b => a ∉ g.children b := by
  rw [List.pairwise_reverse]
  induction visits with
  | nil => exact .nil
  | cons n visits ih =>
    refine List.pairwise_cons.mpr ⟨fun m hm hn => h.1 ?_, ih h.2.2⟩
    exact h.2.2.parent_mem hm (mem_parents.mpr (mem_children.mp hn))

end AfterParents

/-! ## The walk -/

/-- What the walk keeps. -/
structure Walking (g : Digraph) (closing : String) (visits stack : List String) : Prop where
  after : g.AfterParents visits
  stack_nodup : stack.Nodup
  stack_fresh : ∀ n ∈ stack, n ∉ visits
  stack_ready : ∀ n ∈ stack, ∀ p ∈ g.parents n, p ∈ visits
  visits_inner : ∀ n ∈ visits, n ∈ g.nodes ∧ n ≠ closing
  stack_inner : ∀ n ∈ stack, n ∈ g.nodes ∧ n ≠ closing
  rest_rootless : ∀ n ∈ g.nodes, n ≠ closing → n ∉ visits → n ∉ stack → (∀ p ∈ g.parents n, p ∈ visits) →
    g.parents n = []

theorem mem_ready {visits : List String} {n c : String} (h : visits.Nodup) :
    c ∈ g.ready closing visits n ↔ c ∈ g.children n ∧ c ≠ closing ∧ ∀ p ∈ g.parents c, p ∈ visits := by
  simp only [ready, List.mem_filter, Bool.and_eq_true, isReady_iff h, decide_eq_true_eq]

/-- One visit: the node on top of the stack is visited, and the children that are ready by it are pushed. -/
theorem Walking.visit {visits stack : List String} {n : String} (h : Walking g closing visits (n :: stack)) :
    Walking g closing (n :: visits) (g.ready closing (n :: visits) n ++ stack) := by
  have hn : n ∉ visits := h.stack_fresh n List.mem_cons_self
  have hparents : ∀ p ∈ g.parents n, p ∈ visits := h.stack_ready n List.mem_cons_self
  have after : g.AfterParents (n :: visits) := ⟨hn, hparents, h.after⟩
  have hready : ∀ {c}, c ∈ g.ready closing (n :: visits) n ↔
      c ∈ g.children n ∧ c ≠ closing ∧ ∀ p ∈ g.parents c, p ∈ n :: visits := mem_ready after.nodup
  -- a child of `n` has `n` among its parents, so it is neither visited nor on the stack
  have hchild : ∀ c ∈ g.children n, c ∉ n :: visits ∧ c ∉ stack := by
    intro c hc
    have hnc : n ∈ g.parents c := mem_parents.mpr (mem_children.mp hc)
    refine ⟨fun hm => ?_, fun hm => hn (h.stack_ready c (List.mem_cons_of_mem _ hm) n hnc)⟩
    rcases List.mem_cons.mp hm with rfl | hm
    · exact hn (hparents c hnc)
    · exact hn (h.after.parent_mem hm hnc)
  have hstack := List.nodup_cons.mp h.stack_nodup
  constructor
  case after => exact after
  case stack_nodup =>
    refine List.nodup_append.mpr ⟨(g.children_nodup n).filter _, hstack.2, fun c hc d hd hcd => ?_⟩
    exact (hchild c (hready.mp hc).1).2 (hcd ▸ hd)
  case stack_fresh =>
    intro c hc
    rcases List.mem_append.mp hc with hc | hc
    · exact (hchild c (hready.mp hc).1).1
    · have hcn : c ≠ n := fun e => hstack.1 (e ▸ hc)
      simp [hcn, h.stack_fresh c (List.mem_cons_of_mem _ hc)]
  case stack_ready =>
    intro c hc p hp
    rcases List.mem_append.mp hc with hc | hc
    · exact (hready.mp hc).2.2 p hp
    · exact List.mem_cons_of_mem _ (h.stack_ready c (List.mem_cons_of_mem _ hc) p hp)
  case visits_inner =>
    exact List.forall_mem_cons.mpr ⟨h.stack_inner n List.mem_cons_self, h.visits_inner⟩
  case stack_inner =>
    intro c hc
    rcases List.mem_append.mp hc with hc | hc
    · exact ⟨g.children_subset (hready.mp hc).1, (hready.mp hc).2.1⟩
    · exact h.stack_inner c (List.mem_cons_of_mem _ hc)
  case rest_rootless =>
    intro c hc hclosing hvisits hrest hp
    rw [List.mem_append, not_or, hready] at hrest
    have hcn : c ∉ g.children n := fun hcn => hrest.1 ⟨hcn, hclosing, hp⟩
    have hold : ∀ p ∈ g.parents c, p ∈ visits := by
      intro p hpc
      rcases List.mem_cons.mp (hp p hpc) with rfl | hpv
      · exact absurd (mem_children.mpr (mem_parents.mp hpc)) hcn
      · exact hpv
    have hne : c ≠ n := List.ne_of_not_mem_cons hvisits
    exact h.rest_rootless c hc hclosing (List.not_mem_of_not_mem_cons hvisits) (by simp [hne, hrest.2]) hold

/-- The walk empties the stack and keeps the invariant. -/
theorem Walking.walk {visits stack : List String} (h : Walking g closing visits stack) :
    Walking g closing (g.walk closing visits stack) [] := by
  fun_induction Digraph.walk g closing visits stack with
  | case1 => exact h
  | case2 visits n stack ih => exact ih h.visit

/-- A walk adds to the visits. -/
theorem suffix_walk (g : Digraph) (closing : String) (visits stack : List String) :
    visits <:+ g.walk closing visits stack := by
  fun_induction Digraph.walk g closing visits stack with
  | case1 => exact List.suffix_rfl
  | case2 visits n stack ih => exact (List.suffix_cons n visits).trans ih

theorem suffix_walk_singleton (g : Digraph) (closing : String) (visits : List String) (n : String) :
    n :: visits <:+ g.walk closing visits [n] := by
  rw [Digraph.walk]
  exact suffix_walk g closing _ _

/-! ## The sweep -/

/-- A walk from a node that was not visited and waits for nothing. -/
theorem Walking.takeUp {visits : List String} (h : Walking g closing visits []) {n : String} (hn : n ∈ g.nodes)
    (hclosing : n ≠ closing) (hfresh : n ∉ visits) (hready : ∀ p ∈ g.parents n, p ∈ visits) :
    Walking g closing (g.walk closing visits [n]) [] := by
  refine Walking.walk ⟨h.after, by simp, ?_, ?_, h.visits_inner, ?_, fun m hm hc hv _ => ?_⟩
  · simpa using hfresh
  · simpa using hready
  · simpa using ⟨hn, hclosing⟩
  · exact h.rest_rootless m hm hc hv List.not_mem_nil

/-- A sweep over nodes of the graph succeeds, keeps the invariant and visits every root that it meets. -/
theorem Walking.sweepUp {visits : List String} (h : Walking g closing visits []) {sweep : List String}
    (hsweep : ∀ n ∈ sweep, n ∈ g.nodes) :
    ∃ final, g.sweepUp closing visits sweep = .ok final ∧ Walking g closing final [] ∧ visits <:+ final ∧
      ∀ n ∈ sweep, n ≠ closing → g.parents n = [] → n ∈ final := by
  fun_induction Digraph.sweepUp g closing visits sweep with
  | case1 visits => exact ⟨visits, rfl, h, List.suffix_rfl, nofun⟩
  | case2 visits n rest hskip ih =>
    obtain ⟨final, hok, hwalk, hsuffix, hroots⟩ := ih h fun m hm => hsweep m (List.mem_cons_of_mem _ hm)
    refine ⟨final, hok, hwalk, hsuffix, List.forall_mem_cons.mpr ⟨fun hc _ => ?_, hroots⟩⟩
    exact hsuffix.subset (hskip.resolve_left hc)
  | case3 visits n rest _ hout => exact absurd (hsweep n List.mem_cons_self) hout
  | case4 visits n rest hnew hin hready ih =>
    obtain ⟨hclosing, hfresh⟩ := not_or.mp hnew
    obtain ⟨final, hok, hwalk, hsuffix, hroots⟩ :=
      ih (h.takeUp (by simpa using hin) hclosing hfresh ((isReady_iff h.after.nodup).mp hready))
        fun m hm => hsweep m (List.mem_cons_of_mem _ hm)
    have hvisited := (suffix_walk_singleton g closing visits n).trans hsuffix
    refine ⟨final, hok, hwalk, (List.suffix_cons n visits).trans hvisited,
      List.forall_mem_cons.mpr ⟨fun _ _ => hvisited.subset List.mem_cons_self, hroots⟩⟩
  | case5 visits n rest hnew hin hready ih =>
    obtain ⟨final, hok, hwalk, hsuffix, hroots⟩ := ih h fun m hm => hsweep m (List.mem_cons_of_mem _ hm)
    refine ⟨final, hok, hwalk, hsuffix, List.forall_mem_cons.mpr ⟨fun _ hroot => absurd ?_ hready, hroots⟩⟩
    rw [isReady_iff h.after.nodup, hroot]
    nofun

/-- **Nothing is left out**: once all roots are visited, every inner node is. -/
theorem Walking.covers {visits : List String} (h : Walking g closing visits []) (hg : g.Acyclic)
    (hleaf : g.children closing = []) (hroots : ∀ n ∈ g.nodes, n ≠ closing → g.parents n = [] → n ∈ visits) :
    ∀ n ∈ g.nodes, n ≠ closing → n ∈ visits := by
  obtain ⟨rank, hrank⟩ := hg.exists_rank
  intro n
  induction hk : rank n using Nat.strongRecOn generalizing n with
  | ind k ih =>
    intro hn hclosing
    have hparents : ∀ p ∈ g.parents n, p ∈ visits := by
      intro p hp
      have harc := mem_parents.mp hp
      refine ih (rank p) (hk ▸ hrank _ harc) p rfl (g.ends_mem _ harc).1 ?_
      intro hpc
      have hchild := mem_children.mpr harc
      rw [hpc, hleaf] at hchild
      cases hchild
    by_cases hv : n ∈ visits
    · exact hv
    · exact hroots n hn hclosing (h.rest_rootless n hn hclosing hv List.not_mem_nil hparents)

/-! ## Sweeping again -/

/-- A sweep passes over nodes that are visited, and over the closing one. -/
theorem sweepUp_append_of_mem {visits : List String} :
    ∀ {sweep : List String} (rest : List String), (∀ n ∈ sweep, n = closing ∨ n ∈ visits) →
      g.sweepUp closing visits (sweep ++ rest) = g.sweepUp closing visits rest
  | [], _, _ => rfl
  | n :: sweep, rest, h => by
    rw [List.cons_append, sweepUp, if_pos (h n List.mem_cons_self)]
    exact sweepUp_append_of_mem rest fun m hm => h m (List.mem_cons_of_mem _ hm)

/-- What a sweep adds to the visits, read from the first visit on, is a sweep with the same visits: each of its roots
is met in the state in which it was met before, and all other nodes are passed over. -/
theorem sweepUp_later {visits sweep final : List String} (h : g.sweepUp closing visits sweep = .ok final) :
    ∃ later, final.reverse = visits.reverse ++ later ∧
      ∀ rest, g.sweepUp closing visits (later ++ rest) = g.sweepUp closing final rest := by
  fun_induction sweepUp g closing visits sweep with
  | case1 visits =>
    cases h
    exact ⟨[], (List.append_nil _).symm, fun _ => rfl⟩
  | case2 visits n sweep _ ih => exact ih h
  | case3 => cases h
  | case4 visits n sweep hnew hin hready ih =>
    obtain ⟨later, hfinal, hagain⟩ := ih h
    obtain ⟨added, hadded⟩ := suffix_walk_singleton g closing visits n
    refine ⟨n :: added.reverse ++ later, by rw [hfinal, ← hadded]; simp, fun rest => ?_⟩
    have hpassed : ∀ m ∈ added.reverse, m = closing ∨ m ∈ g.walk closing visits [n] := fun m hm => by
      rw [← hadded]
      exact Or.inr (List.mem_append_left _ (List.mem_reverse.mp hm))
    rw [List.append_assoc, List.cons_append, sweepUp, if_neg hnew, if_neg hin, if_pos hready,
      sweepUp_append_of_mem _ hpassed, hagain]
  | case5 visits n sweep _ _ _ ih => exact ih h

/-- **A sweep in the order of the visits makes the same visits.** -/
theorem sweepUp_again {visits sweep final : List String} (h : g.sweepUp closing visits sweep = .ok final) :
    g.sweepUp closing visits (final.reverse ++ [closing]) = .ok final := by
  obtain ⟨later, hfinal, hagain⟩ := sweepUp_later h
  rw [hfinal, List.append_assoc, sweepUp_append_of_mem _ fun n hn => Or.inr (List.mem_reverse.mp hn), hagain, sweepUp,
    if_pos (Or.inl rfl), sweepUp]

/-! ## The numbers -/

/-- Nodes are numbered from one in the order of their visits. -/
theorem map_numberIn {visits : List String} (h : visits.Nodup) :
    (visits.reverse.map fun n => (n, numberIn visits n)) = visits.reverse.zipIdx 1 := by
  induction visits with
  | nil => rfl
  | cons n visits ih =>
    obtain ⟨hn, hvisits⟩ := List.nodup_cons.mp h
    have hearlier : ∀ m ∈ visits.reverse, (m, numberIn (n :: visits) m) = (m, numberIn visits m) := by
      intro m hm
      have hne : n ≠ m := fun e => hn (e ▸ List.mem_reverse.mp hm)
      rw [numberIn, List.length_cons, List.idxOf_cons_ne _ hne, numberIn, Nat.succ_sub_succ]
    rw [List.reverse_cons, List.map_append, List.map_congr_left hearlier, ih hvisits, List.zipIdx_append]
    simp [numberIn, Nat.add_comm]

/-- No two nodes have one number, whatever the graph. -/
theorem orders_injective {opening : String} {sweep : List String} {orders : List (String × Nat)}
    (h : g.orders opening closing sweep = .ok orders) {n m : String} {k : Nat} (hn : orders.lookup n = some k)
    (hm : orders.lookup m = some k) : n = m := by
  obtain ⟨visits, -, h⟩ := Table.bind_eq_ok.mp h
  cases h
  -- A node that was visited has the number of a visit, and the node that closes the graph a later one.
  have hcases : ∀ {n}, (n, k) ∈ ((visits.eraseDups.reverse.map fun n => (n, numberIn visits n)) ++
      if closing ∈ g.nodes then [(closing, visits.length + 1)] else []) →
        (n ∈ visits ∧ k = numberIn visits n) ∨ (n = closing ∧ k = visits.length + 1) := by
    intro n hn
    rcases List.mem_append.mp hn with hn | hn
    · obtain ⟨visited, hvisited, heq⟩ := List.mem_map.mp hn
      cases heq
      exact Or.inl ⟨List.mem_eraseDups.mp (List.mem_reverse.mp hvisited), rfl⟩
    · split at hn
      · cases List.mem_singleton.mp hn
        exact Or.inr ⟨rfl, rfl⟩
      · cases hn
  rcases hcases (Table.mem_of_lookup hn) with ⟨hn, hkn⟩ | ⟨rfl, hkn⟩ <;>
    rcases hcases (Table.mem_of_lookup hm) with ⟨hm, hkm⟩ | ⟨rfl, hkm⟩
  · have hlt := List.idxOf_lt_length_of_mem hn
    have hlt' := List.idxOf_lt_length_of_mem hm
    refine (List.idxOf_inj hn).mp ?_
    unfold numberIn at hkn hkm
    omega
  · unfold numberIn at hkn
    omega
  · unfold numberIn at hkm
    omega
  · rfl

/-- The visits of the walk from the opening node and of the sweep after it. -/
def visitsOf (g : Digraph) (opening closing : String) (sweep : List String) :
    Except PlacementFault (List String) :=
  g.sweepUp closing (g.walk closing [] [opening]) sweep

/-- The graph has no cycle, nothing leads to the node that opens it, and the node that closes it leads nowhere, if it
is there at all. -/
structure Rooted (g : Digraph) (opening closing : String) : Prop where
  acyclic : g.Acyclic
  opening_mem : opening ∈ g.nodes
  opening_ne : opening ≠ closing
  opening_root : g.parents opening = []
  closing_leaf : g.children closing = []

/-- The graph is a workflow: it has no cycle, and two different nodes bound it, one that nothing leads to and one that
leads nowhere. -/
structure Bounded (g : Digraph) (opening closing : String) : Prop where
  acyclic : g.Acyclic
  opening_mem : opening ∈ g.nodes
  closing_mem : closing ∈ g.nodes
  opening_ne : opening ≠ closing
  opening_root : g.parents opening = []
  closing_leaf : g.children closing = []

/-- A list is in topological order: every node of the graph comes once, after all its parents. -/
structure Topological (g : Digraph) (run : List String) : Prop where
  nodup : run.Nodup
  mem_iff : ∀ n, n ∈ run ↔ n ∈ g.nodes
  forward : run.Pairwise fun a b => a ∉ g.children b

theorem Topological.perm {run : List String} (h : g.Topological run) : run.Perm g.nodes :=
  (List.perm_ext_iff_of_nodup h.nodup g.nodes_nodup).mpr h.mem_iff

/-- A list runs through a graph: every node comes once, after all its parents, the opening one first and the closing
one last. -/
structure RunsThrough (g : Digraph) (opening closing : String) (run : List String) : Prop where
  nodup : run.Nodup
  mem_iff : ∀ n, n ∈ run ↔ n ∈ g.nodes
  forward : run.Pairwise fun a b => a ∉ g.children b
  first : run.head? = some opening
  last : run.getLast? = some closing

theorem RunsThrough.topological {opening : String} {run : List String} (h : g.RunsThrough opening closing run) :
    g.Topological run :=
  ⟨h.nodup, h.mem_iff, h.forward⟩

section Bounded

variable {opening : String} {sweep : List String}

theorem Bounded.rooted (hg : g.Bounded opening closing) : g.Rooted opening closing :=
  ⟨hg.acyclic, hg.opening_mem, hg.opening_ne, hg.opening_root, hg.closing_leaf⟩

/-- The walk begins with the opening node. -/
theorem Rooted.walking (hg : g.Rooted opening closing) : Walking g closing [] [opening] := by
  refine ⟨trivial, by simp, by simp, ?_, nofun, ?_, fun n _ _ _ _ hp => List.eq_nil_iff_forall_not_mem.mpr
    fun p hpn => List.not_mem_nil (hp p hpn)⟩
  · simp [hg.opening_root]
  · simpa using ⟨hg.opening_mem, hg.opening_ne⟩

/-- The visits of a sweep over all nodes are the nodes but the closing one, the opening one first and every node after
its parents. -/
theorem Rooted.exists_visits (hg : g.Rooted opening closing) (hsweep : ∀ n, n ∈ sweep ↔ n ∈ g.nodes) :
    ∃ visits, g.visitsOf opening closing sweep = .ok visits ∧ g.AfterParents visits ∧ [opening] <:+ visits ∧
      ∀ n, n ∈ visits ↔ n ∈ g.nodes ∧ n ≠ closing := by
  obtain ⟨final, hok, hwalk, hsuffix, hroots⟩ := hg.walking.walk.sweepUp fun n hn => (hsweep n).mp hn
  have hcovers := hwalk.covers hg.acyclic hg.closing_leaf fun n hn hc hroot => hroots n ((hsweep n).mpr hn) hc hroot
  have hfirst : [opening] <:+ final := (suffix_walk_singleton g closing [] opening).trans hsuffix
  exact ⟨final, hok, hwalk.after, hfirst, fun n => ⟨hwalk.visits_inner n, fun ⟨hn, hc⟩ => hcovers n hn hc⟩⟩

/-- The visits, and the closing node after them if it is there, are in topological order. -/
theorem Rooted.topological_of_visits (hg : g.Rooted opening closing) {visits : List String}
    (hafter : g.AfterParents visits) (hmem : ∀ n, n ∈ visits ↔ n ∈ g.nodes ∧ n ≠ closing) :
    g.Topological (visits.reverse ++ if closing ∈ g.nodes then [closing] else []) := by
  have hlast : ∀ {n}, (n ∈ if closing ∈ g.nodes then [closing] else []) ↔ n ∈ g.nodes ∧ n = closing := by
    intro n
    by_cases hc : closing ∈ g.nodes
    · rw [if_pos hc, List.mem_singleton]
      exact ⟨fun h => ⟨h ▸ hc, h⟩, And.right⟩
    · rw [if_neg hc]
      exact ⟨nofun, fun ⟨hn, h⟩ => absurd (h ▸ hn) hc⟩
  refine ⟨List.nodup_append.mpr ⟨List.nodup_reverse.mpr hafter.nodup, ?_, fun n hn m hm hnm => ?_⟩, fun n => ?_,
    List.pairwise_append.mpr ⟨hafter.parent_before, ?_, fun a _ b hb => ?_⟩⟩
  · split <;> simp
  · exact ((hmem n).mp (List.mem_reverse.mp hn)).2 (hnm.trans (hlast.mp hm).2)
  · rw [List.mem_append, List.mem_reverse, hmem, hlast, ← and_or_left]
    exact and_iff_left (Decidable.em _).symm
  · split <;> simp
  · simp [(hlast.mp hb).2, hg.closing_leaf]

/-- The orders number the visits from one, and the closing node last if it is there. -/
theorem Rooted.orders_eq (hg : g.Rooted opening closing) {visits : List String}
    (h : g.visitsOf opening closing sweep = .ok visits) (hnodup : visits.Nodup) :
    g.orders opening closing sweep =
      .ok ((visits.reverse ++ if closing ∈ g.nodes then [closing] else []).zipIdx 1) := by
  rw [visitsOf] at h
  rw [orders, if_pos hg.opening_mem, h]
  simp only [bind, Except.bind, pure, Except.pure, Table.eraseDups_of_nodup hnodup, map_numberIn hnodup,
    List.zipIdx_append, List.length_reverse]
  split
  · simp [Nat.add_comm]
  · simp

/-- The orders number the nodes from one, in a topological order. -/
theorem Rooted.exists_orders (hg : g.Rooted opening closing) (hsweep : ∀ n, n ∈ sweep ↔ n ∈ g.nodes) :
    ∃ run, g.Topological run ∧ g.orders opening closing sweep = .ok (run.zipIdx 1) := by
  obtain ⟨visits, hvisits, hafter, -, hmem⟩ := hg.exists_visits hsweep
  exact ⟨_, hg.topological_of_visits hafter hmem, hg.orders_eq hvisits hafter.nodup⟩

/-- **The visits run through the graph**, the closing node added: none is visited twice, none is left out, and every
parent is visited first. -/
theorem Bounded.exists_visits (hg : g.Bounded opening closing) (hsweep : ∀ n, n ∈ sweep ↔ n ∈ g.nodes) :
    ∃ visits, g.visitsOf opening closing sweep = .ok visits ∧ visits.Nodup ∧
      g.RunsThrough opening closing (visits.reverse ++ [closing]) := by
  obtain ⟨final, hok, hafter, ⟨later, hlater⟩, hmem⟩ := hg.rooted.exists_visits hsweep
  have hrun := hg.rooted.topological_of_visits hafter hmem
  rw [if_pos hg.closing_mem] at hrun
  refine ⟨final, hok, hafter.nodup, hrun.nodup, hrun.mem_iff, hrun.forward, ?_, List.getLast?_concat⟩
  subst hlater
  simp

/-- The orders number the visits from one and the closing node last. -/
theorem Bounded.orders_eq (hg : g.Bounded opening closing) {visits : List String}
    (h : g.visitsOf opening closing sweep = .ok visits) (hnodup : visits.Nodup) :
    g.orders opening closing sweep = .ok ((visits.reverse ++ [closing]).zipIdx 1) := by
  rw [hg.rooted.orders_eq h hnodup, if_pos hg.closing_mem]

end Bounded

end FormFlow.Digraph
