import Mathlib.Data.List.Chain
import Mathlib.Order.Bounds.Basic
import FormFlow.Proofs.Orders
import FormFlow.Proofs.Records
import FormFlow.Proofs.Seats
/-!
Levels are depths.

The level of a node is the number of nodes on a longest path to it (`IsDepth`), in whatever order the graph lists its
nodes and arcs. Numbering the rounds of the peeling puts a node below all its parents, and right below one of them
unless it has none (`Peels`). Going up such parents one by one is a path as long as the level, and a level ascends
along every path (`Peels.isDepth`). The node that closes the graph is placed one level below the deepest of its
parents, or below all other nodes (`Leveling`). What is so determined is determined by the arcs alone
(`Leveling.level_eq`).
-/

set_option autoImplicit false

namespace FormFlow.Digraph

variable {g g' : Digraph} {n m p closing : String} {path : List String}

/-! ## Paths -/

/-- A path to a node: its nodes are distinct, each has an arc to the next one, and the node is the last. -/
structure PathTo (g : Digraph) (n : String) (path : List String) : Prop where
  nodup : path.Nodup
  chain : path.IsChain fun a b => (a, b) ∈ g.arcs
  last : path.getLast? = some n

/-- The number of nodes on a longest path to a node. -/
def IsDepth (g : Digraph) (n : String) (k : Nat) : Prop :=
  IsGreatest {length | ∃ path, g.PathTo n path ∧ path.length = length} k

namespace PathTo

theorem single (g : Digraph) (n : String) : g.PathTo n [n] :=
  ⟨List.nodup_singleton n, .singleton n, rfl⟩

/-- A path goes on along an arc to a node that it has not met. -/
theorem snoc (h : g.PathTo p path) (harc : (p, n) ∈ g.arcs) (hn : n ∉ path) : g.PathTo n (path ++ [n]) where
  nodup := by
    rw [← List.concat_eq_append]
    exact h.nodup.concat hn
  chain := by
    refine List.isChain_append.mpr ⟨h.chain, .singleton n, fun a ha b hb => ?_⟩
    rw [h.last, Option.mem_some_iff] at ha
    cases hb
    exact ha ▸ harc
  last := List.getLast?_concat

/-- A path is its last node alone, or a path to one of its parents with the node after it. -/
theorem eq_single_or_snoc (h : g.PathTo n path) :
    path = [n] ∨ ∃ p init, path = init ++ [n] ∧ (p, n) ∈ g.arcs ∧ g.PathTo p init := by
  obtain ⟨init, rfl⟩ := List.getLast?_eq_some_iff.mp h.last
  cases hlast : init.getLast? with
  | none =>
    rw [List.getLast?_eq_none_iff.mp hlast]
    exact Or.inl rfl
  | some p =>
    obtain ⟨hinit, -, harc⟩ := List.isChain_append.mp h.chain
    exact Or.inr ⟨p, init, rfl, harc p hlast n rfl, (List.nodup_append.mp h.nodup).1, hinit, hlast⟩

/-- The nodes of a path are its last node and nodes that reach it. -/
theorem reaches (h : g.PathTo n path) (hm : m ∈ path) : m = n ∨ g.Reaches m n := by
  induction path using List.reverseRecOn generalizing n with
  | nil => cases hm
  | append_singleton init last ih =>
    rcases h.eq_single_or_snoc with heq | ⟨p, init', heq, harc, hinit⟩
    · rw [heq] at hm
      exact Or.inl (List.mem_singleton.mp hm)
    · obtain ⟨rfl, hlast⟩ := List.append_inj' heq rfl
      rcases List.mem_append.mp hm with hm | hm
      · rcases ih hinit hm with rfl | hreach
        · exact Or.inr (.arc harc)
        · exact Or.inr (hreach.snoc harc)
      · rw [hlast] at hm
        exact Or.inl (List.mem_singleton.mp hm)

/-- Paths are made of arcs and of nothing else. -/
theorem mono (h : g.PathTo n path) (harcs : ∀ a ∈ g.arcs, a ∈ g'.arcs) : g'.PathTo n path :=
  ⟨h.nodup, h.chain.imp fun _ _ => harcs _, h.last⟩

end PathTo

/-- Every node is on a path to itself. -/
theorem IsDepth.pos {k : Nat} (h : g.IsDepth n k) : 1 ≤ k := h.2 ⟨[n], .single g n, rfl⟩

theorem isDepth_congr (harcs : ∀ a, a ∈ g.arcs ↔ a ∈ g'.arcs) {k : Nat} : g.IsDepth n k ↔ g'.IsDepth n k := by
  have hpath : ∀ path, g.PathTo n path ↔ g'.PathTo n path := fun path =>
    ⟨fun h => h.mono fun a => (harcs a).mp, fun h => h.mono fun a => (harcs a).mpr⟩
  simp only [IsDepth, hpath]

/-- A node that nothing leads to is the only one on a path to it. -/
theorem isDepth_of_parents_nil (h : g.parents n = []) : g.IsDepth n 1 := by
  refine ⟨⟨[n], .single g n, rfl⟩, ?_⟩
  rintro _ ⟨path, hpath, rfl⟩
  rcases hpath.eq_single_or_snoc with rfl | ⟨p, init, -, harc, -⟩
  · exact Nat.le_refl 1
  · have hparent := mem_parents.mpr harc
    rw [h] at hparent
    cases hparent

/-! ## Rounds -/

/-- The levels that peeling gives to pending nodes, from `first` on and below `bound`: each node stands below its
parents among them, right below one of them unless it is in the first round. -/
structure Peels (g : Digraph) (pending : List String) (first bound : Nat) (levels : List (String × Nat)) : Prop where
  names : (levels.map (·.1)).Perm pending
  first_le : ∀ {n k}, (n, k) ∈ levels → first ≤ k
  lt_bound : ∀ {n k}, (n, k) ∈ levels → k < bound
  descends : ∀ {n k p}, (n, k) ∈ levels → p ∈ g.parents n → p ∈ pending → ∃ j < k, (p, j) ∈ levels
  follows : ∀ {n k}, (n, k) ∈ levels → first < k → ∃ p j, p ∈ g.parents n ∧ (p, j) ∈ levels ∧ k = j + 1
  reaches_bound : pending ≠ [] → ∃ n k, (n, k) ∈ levels ∧ k + 1 = bound

theorem peel_append_unpeeled_perm (g : Digraph) (pending : List String) :
    (g.peel pending ++ g.unpeeled pending).Perm pending := by
  have hunpeeled : g.unpeeled pending = pending.filter fun n => !((g.parents n).all fun p => p ∉ pending) := by
    refine List.filter_congr fun n hn => ?_
    rw [Bool.eq_iff_iff]
    simp [peel, hn]
  rw [hunpeeled]
  exact List.filter_append_perm _ pending

/-- **Numbering the rounds levels the pending nodes.** -/
theorem peels_numberRounds {pending : List String} {rounds : List (List String)} (h : g.rounds pending = some rounds)
    (first : Nat) : g.Peels pending first (first + rounds.length) (numberRounds first rounds) := by
  fun_induction Digraph.rounds g pending generalizing rounds first with
  | case1 =>
    cases h
    have hnone : ∀ {n k}, (n, k) ∉ numberRounds first [] := List.not_mem_nil
    exact ⟨.nil, fun h => absurd h hnone, fun h => absurd h hnone, fun h => absurd h hnone, fun h => absurd h hnone,
      fun hne => absurd rfl hne⟩
  | case2 => cases h
  | case3 pending hpending hpeel ih =>
    obtain ⟨rest, hrest, rfl⟩ := Option.map_eq_some_iff.mp h
    have hlater := ih hrest (first + 1)
    have hlength : first + (g.peel pending :: rest).length = first + 1 + rest.length := by
      rw [List.length_cons]
      omega
    have hlevels : ∀ {n k}, (n, k) ∈ numberRounds first (g.peel pending :: rest) ↔
        (n ∈ g.peel pending ∧ k = first) ∨ (n, k) ∈ numberRounds (first + 1) rest := by
      intro n k
      simp [numberRounds, eq_comm]
    rw [hlength]
    constructor
    case names =>
      rw [numberRounds, List.map_append, List.map_map]
      refine List.Perm.trans (List.Perm.append (List.Perm.of_eq (List.map_id _)) hlater.names) ?_
      exact g.peel_append_unpeeled_perm pending
    case first_le =>
      intro n k hnk
      rcases hlevels.mp hnk with ⟨-, rfl⟩ | hnk
      · exact Nat.le_refl _
      · exact Nat.le_of_succ_le (hlater.first_le hnk)
    case lt_bound =>
      intro n k hnk
      rcases hlevels.mp hnk with ⟨-, rfl⟩ | hnk
      · omega
      · exact hlater.lt_bound hnk
    case descends =>
      intro n k p hnk hparent hp
      rcases hlevels.mp hnk with ⟨hn, rfl⟩ | hnk
      · have hnone := (List.mem_filter.mp hn).2
        simp only [List.all_eq_true, decide_eq_true_eq] at hnone
        exact absurd hp (hnone p hparent)
      · rcases mem_peel_or_unpeeled.mp hp with hp | hp
        · exact ⟨first, hlater.first_le hnk, hlevels.mpr (Or.inl ⟨hp, rfl⟩)⟩
        · obtain ⟨j, hj, hpj⟩ := hlater.descends hnk hparent hp
          exact ⟨j, hj, hlevels.mpr (Or.inr hpj)⟩
    case follows =>
      intro n k hnk hk
      rcases hlevels.mp hnk with ⟨-, rfl⟩ | hnk
      · exact absurd hk (Nat.lt_irrefl _)
      · by_cases hfirst : first + 1 < k
        · obtain ⟨p, j, hparent, hpj, hkj⟩ := hlater.follows hnk hfirst
          exact ⟨p, j, hparent, hlevels.mpr (Or.inr hpj), hkj⟩
        · -- A node of the second round was kept back by a parent, which can only be in the first.
          obtain rfl : k = first + 1 := Nat.le_antisymm (Nat.le_of_not_lt hfirst) hk
          have hn : n ∈ g.unpeeled pending := hlater.names.mem_iff.mp (List.mem_map_of_mem (f := (·.1)) hnk)
          obtain ⟨hpend, hkept⟩ := List.mem_filter.mp hn
          obtain ⟨p, hparent, hp⟩ : ∃ p ∈ g.parents n, p ∈ pending := by
            simpa [peel, hpend] using hkept
          refine ⟨p, first, hparent, hlevels.mpr (Or.inl ⟨?_, rfl⟩), rfl⟩
          refine (mem_peel_or_unpeeled.mp hp).resolve_right fun hlate => ?_
          obtain ⟨j, hj, hpj⟩ := hlater.descends hnk hparent hlate
          have := hlater.first_le hpj
          omega
    case reaches_bound =>
      intro _
      by_cases hlast : g.unpeeled pending = []
      · obtain ⟨n, hn⟩ := List.exists_mem_of_ne_nil _ hpeel
        rw [hlast, Digraph.rounds, if_pos rfl] at hrest
        cases hrest
        exact ⟨n, first, hlevels.mpr (Or.inl ⟨hn, rfl⟩), rfl⟩
      · obtain ⟨n, k, hnk, hbound⟩ := hlater.reaches_bound hlast
        exact ⟨n, k, hlevels.mpr (Or.inr hnk), hbound⟩

/-! ## Levels -/

/-- The nodes that the closing node is placed below: its parents, or all others if it has none. -/
def above (g : Digraph) (closing : String) : List String :=
  if g.parents closing = [] then g.nodes.filter (· ≠ closing) else g.parents closing

theorem mem_inner : n ∈ g.nodes.filter (· ≠ closing) ↔ n ∈ g.nodes ∧ n ≠ closing := by
  rw [List.mem_filter, decide_eq_true_iff]

/-- The level of a node is the number of nodes on a longest path to it. Only the closing node is placed by what stands
above it: one level below the deepest of its parents, or of all others if it has none. So every arc leads down. -/
structure Leveling (g : Digraph) (closing : String) (level : String → Nat) : Prop where
  depth : ∀ n ∈ g.nodes, n ≠ closing → g.IsDepth n (level n)
  closing_eq : ∃ k, IsGreatest {k | ∃ n ∈ g.above closing, level n = k} k ∧ level closing = k + 1
  descends : ∀ a ∈ g.arcs, level a.1 < level a.2

/-- Where two graphs share their arcs, a node of both but the closing one has one level in both. -/
theorem Leveling.level_eq {level level' : String → Nat} (h : g.Leveling closing level)
    (h' : g'.Leveling closing level') (harcs : ∀ a, a ∈ g.arcs ↔ a ∈ g'.arcs) (hn : n ∈ g.nodes) (hn' : n ∈ g'.nodes)
    (hne : n ≠ closing) : level n = level' n :=
  (h.depth n hn hne).unique ((isDepth_congr harcs).mpr (h'.depth n hn' hne))

theorem Leveling.mem_of_above {level : String → Nat} (h : g.Leveling closing level) (hn : n ∈ g.above closing) :
    n ∈ g.nodes ∧ n ≠ closing := by
  unfold above at hn
  split at hn
  · exact mem_inner.mp hn
  · have harc := mem_parents.mp hn
    refine ⟨(g.ends_mem _ harc).1, fun heq => ?_⟩
    have hlt := h.descends _ harc
    rw [heq] at hlt
    exact Nat.lt_irrefl _ hlt

/-- The closing node has one level in two graphs if nothing above it is deeper in one of them. -/
theorem Leveling.closing_level_eq {level level' : String → Nat} (h : g.Leveling closing level)
    (h' : g'.Leveling closing level') (hle : ∀ n ∈ g.above closing, ∃ m ∈ g'.above closing, level n ≤ level' m)
    (hge : ∀ m ∈ g'.above closing, ∃ n ∈ g.above closing, level' m ≤ level n) : level closing = level' closing := by
  obtain ⟨k, ⟨⟨n, hn, hk⟩, hgreatest⟩, hclosing⟩ := h.closing_eq
  obtain ⟨k', ⟨⟨m, hm, hk'⟩, hgreatest'⟩, hclosing'⟩ := h'.closing_eq
  obtain ⟨m', hm', hnm⟩ := hle n hn
  obtain ⟨n', hn', hmn⟩ := hge m hm
  have hkk : k ≤ k' := hk ▸ hnm.trans (hgreatest' ⟨m', hm', rfl⟩)
  have hkk' : k' ≤ k := hk' ▸ hmn.trans (hgreatest ⟨n', hn', rfl⟩)
  rw [hclosing, hclosing', Nat.le_antisymm hkk hkk']

/-- Graphs with the same nodes and the same arcs are leveled alike. -/
theorem Leveling.unique {level level' : String → Nat} (h : g.Leveling closing level)
    (h' : g'.Leveling closing level') (hnodes : ∀ n, n ∈ g.nodes ↔ n ∈ g'.nodes)
    (harcs : ∀ a, a ∈ g.arcs ↔ a ∈ g'.arcs) (hn : n ∈ g.nodes) : level n = level' n := by
  have hinner : ∀ m ∈ g.nodes, m ≠ closing → level m = level' m := fun m hm =>
    h.level_eq h' harcs hm ((hnodes m).mp hm)
  have hparents : g.parents closing = [] ↔ g'.parents closing = [] := by
    simp only [List.eq_nil_iff_forall_not_mem, mem_parents, harcs]
  have habove : ∀ m, m ∈ g.above closing ↔ m ∈ g'.above closing := by
    intro m
    unfold above
    by_cases hnone : g.parents closing = []
    · rw [if_pos hnone, if_pos (hparents.mp hnone), mem_inner, mem_inner, hnodes]
    · rw [if_neg hnone, if_neg (hparents.not.mp hnone), mem_parents, mem_parents, harcs]
  have heq : ∀ m ∈ g.above closing, level m = level' m := by
    intro m hm
    obtain ⟨hnode, hne⟩ := h.mem_of_above hm
    exact hinner m hnode hne
  by_cases hclosing : n = closing
  · subst hclosing
    exact h.closing_level_eq h' (fun m hm => ⟨m, (habove m).mp hm, (heq m hm).le⟩)
      fun m hm => ⟨m, (habove m).mpr hm, (heq m ((habove m).mpr hm)).ge⟩
  · exact hinner n hn hclosing

theorem isGreatest_foldl_max {numbers : List Nat} (h : numbers ≠ []) :
    IsGreatest {k | k ∈ numbers} (numbers.foldl max 0) := by
  have hfrom : ∀ (rest : List Nat) (first : Nat), IsGreatest {k | k ∈ first :: rest} (rest.foldl max first) := by
    intro rest
    induction rest with
    | nil => exact fun first => ⟨List.mem_singleton_self _, fun k hk => (List.mem_singleton.mp hk).le⟩
    | cons next rest ih =>
      intro first
      obtain ⟨hmem, hle⟩ := ih (max first next)
      refine ⟨?_, fun k hk => ?_⟩
      · rcases List.mem_cons.mp hmem with heq | hmem
        · rw [List.foldl_cons, heq]
          rcases Nat.le_total first next with hmax | hmax
          · simp [Nat.max_eq_right hmax]
          · simp [Nat.max_eq_left hmax]
        · exact List.mem_cons_of_mem _ (List.mem_cons_of_mem _ hmem)
      · have hmax := hle (List.mem_cons_self (a := max first next))
        rcases List.mem_cons.mp hk with rfl | hk
        · exact (le_max_left _ _).trans hmax
        · rcases List.mem_cons.mp hk with rfl | hk
          · exact (le_max_right _ _).trans hmax
          · exact hle (List.mem_cons_of_mem _ hk)
  cases numbers with
  | nil => exact absurd rfl h
  | cons first rest =>
    rw [List.foldl_cons, Nat.zero_max]
    exact hfrom rest first

namespace Peels

variable {pending : List String} {bound k : Nat} {levels : List (String × Nat)}

theorem level_eq {first : Nat} (h : g.Peels pending first bound levels) (hpending : pending.Nodup)
    (hn : (n, k) ∈ levels) : (levels.lookup n).getD 0 = k := by
  rw [(Table.lookup_eq_some_iff_mem (h.names.nodup_iff.mpr hpending)).mpr hn, Option.getD_some]

theorem mem_of_pending {first : Nat} (h : g.Peels pending first bound levels) (hpending : pending.Nodup)
    (hn : n ∈ pending) : (n, (levels.lookup n).getD 0) ∈ levels := by
  obtain ⟨⟨m, k⟩, hk, rfl⟩ := List.mem_map.mp (h.names.mem_iff.mpr hn)
  rw [h.level_eq hpending hk]
  exact hk

/-- Along the arcs of an acyclic graph, levels that peeling gives to all nodes but one without children are depths. -/
theorem isDepth (h : g.Peels pending 1 bound levels) (hg : g.Acyclic)
    (hall : ∀ n ∈ pending, ∀ p ∈ g.parents n, p ∈ pending) (hn : (n, k) ∈ levels) : g.IsDepth n k := by
  constructor
  · -- The parent right above a node has a path that is shorter by the node.
    induction k generalizing n with
    | zero => exact absurd (h.first_le hn) (Nat.not_succ_le_zero 0)
    | succ k ih =>
      by_cases hk : k = 0
      · exact ⟨[n], .single g n, by rw [hk, List.length_singleton]⟩
      · obtain ⟨p, j, hparent, hp, hj⟩ := h.follows hn (by omega)
        obtain rfl := Nat.succ.inj hj
        obtain ⟨path, hpath, hlength⟩ := ih hp
        have harc := mem_parents.mp hparent
        refine ⟨path ++ [n], hpath.snoc harc fun hmem => ?_, by rw [List.length_append, hlength, List.length_singleton]⟩
        rcases hpath.reaches hmem with rfl | hreach
        · exact hg n (.arc harc)
        · exact hg n (hreach.snoc harc)
  · rintro _ ⟨path, hpath, rfl⟩
    induction path using List.reverseRecOn generalizing n k with
    | nil => exact Nat.zero_le _
    | append_singleton init last ih =>
      rw [List.length_append, List.length_singleton]
      rcases hpath.eq_single_or_snoc with heq | ⟨p, init', heq, harc, hinit⟩
      · have hsingle : init ++ [last] = [] ++ [n] := heq
        rw [(List.append_inj' hsingle rfl).1]
        exact h.first_le hn
      · obtain ⟨rfl, -⟩ := List.append_inj' heq rfl
        have hpending := h.names.mem_iff.mp (List.mem_map_of_mem (f := (·.1)) hn)
        have hparent := mem_parents.mpr harc
        obtain ⟨j, hj, hpj⟩ := h.descends hn hparent (hall n hpending p hparent)
        exact Nat.lt_of_le_of_lt (ih hpj hinit) hj

end Peels

/-! ## Bounded graphs -/

section Bounded

variable {opening : String} {levels inner : List (String × Nat)} {count deepest : Nat}

/-- The closing node is no parent. -/
theorem Bounded.parent_mem (hg : g.Bounded opening closing) (hp : p ∈ g.parents n) :
    p ∈ g.nodes.filter (· ≠ closing) := by
  refine mem_inner.mpr ⟨(g.ends_mem _ (mem_parents.mp hp)).1, fun heq => ?_⟩
  have hchild : n ∈ g.children closing := mem_children.mpr (heq ▸ mem_parents.mp hp)
  rw [hg.closing_leaf] at hchild
  cases hchild

/-- The levels are those of the nodes but the closing one, and below the deepest of its parents that of the closing
one. -/
theorem Bounded.levels_eq_ok (hg : g.Bounded opening closing) (h : g.levels closing = .ok levels) :
    ∃ count inner deepest, g.Peels (g.nodes.filter (· ≠ closing)) 1 (1 + count) inner ∧
      deepest = (if g.parents closing = [] then count
        else ((g.parents closing).map fun p => (inner.lookup p).getD 0).foldl max 0) ∧
      levels = Members.put inner closing (deepest + 1) := by
  unfold Digraph.levels at h
  cases hrounds : g.rounds (g.nodes.filter (· ≠ closing)) with
  | none =>
    rw [hrounds] at h
    cases h
  | some rounds =>
    have hpeels := peels_numberRounds hrounds 1
    have hnames : closing ∉ (numberRounds 1 rounds).map (·.1) := fun hmem =>
      (mem_inner.mp (hpeels.names.mem_iff.mp hmem)).2 rfl
    have habove := levelsOf_eq_ok fun p (hp : p ∈ g.parents closing) => hpeels.names.mem_iff.mpr (hg.parent_mem hp)
    simp only [hrounds, if_pos hg.closing_mem, habove, bind, Except.bind] at h
    cases h
    refine ⟨rounds.length, _, _, hpeels, rfl, ?_⟩
    rw [Table.put_of_not_mem hnames]
    simp only [List.isEmpty_iff, List.map_eq_nil_iff]

/-- The closing node is placed right below the deepest of the nodes above it. -/
theorem Bounded.isGreatest_deepest (hg : g.Bounded opening closing)
    (hpeels : g.Peels (g.nodes.filter (· ≠ closing)) 1 (1 + count) inner)
    (hdeepest : deepest = if g.parents closing = [] then count
      else ((g.parents closing).map fun p => (inner.lookup p).getD 0).foldl max 0) :
    IsGreatest {k | ∃ n ∈ g.above closing, (inner.lookup n).getD 0 = k} deepest := by
  have hnodup : (g.nodes.filter (· ≠ closing)).Nodup := g.nodes_nodup.filter _
  by_cases hnone : g.parents closing = []
  · rw [if_pos hnone] at hdeepest
    rw [above, if_pos hnone, hdeepest]
    constructor
    · have hopening := mem_inner.mpr ⟨hg.opening_mem, hg.opening_ne⟩
      obtain ⟨n, k, hn, hk⟩ := hpeels.reaches_bound (List.ne_nil_of_mem hopening)
      refine ⟨n, hpeels.names.mem_iff.mp (List.mem_map_of_mem (f := (·.1)) hn), ?_⟩
      rw [hpeels.level_eq hnodup hn]
      omega
    · rintro _ ⟨n, hn, rfl⟩
      have hlt := hpeels.lt_bound (hpeels.mem_of_pending hnodup hn)
      omega
  · rw [if_neg hnone] at hdeepest
    have hlevels : ((g.parents closing).map fun p => (inner.lookup p).getD 0) ≠ [] := by
      simpa using hnone
    have hgreatest := isGreatest_foldl_max hlevels
    rw [above, if_neg hnone, hdeepest]
    simpa only [List.mem_map] using hgreatest

/-- **The levels of a bounded graph are its depths.** -/
theorem Bounded.leveling (hg : g.Bounded opening closing) (h : g.levels closing = .ok levels) :
    g.Leveling closing fun n => (levels.lookup n).getD 0 := by
  obtain ⟨count, inner, deepest, hpeels, hdeepest, rfl⟩ := hg.levels_eq_ok h
  have hnodup : (g.nodes.filter (· ≠ closing)).Nodup := g.nodes_nodup.filter _
  have hclosing : ((Members.put inner closing (deepest + 1)).lookup closing).getD 0 = deepest + 1 := by
    rw [Table.lookup_put, if_pos rfl, Option.getD_some]
  have hinner : ∀ n ∈ g.nodes.filter (· ≠ closing),
      ((Members.put inner closing (deepest + 1)).lookup n).getD 0 = (inner.lookup n).getD 0 := fun n hn => by
    rw [Table.lookup_put, if_neg (mem_inner.mp hn).2]
  have hgreatest : IsGreatest
      {k | ∃ n ∈ g.above closing, ((Members.put inner closing (deepest + 1)).lookup n).getD 0 = k} deepest := by
    have habove : ∀ n ∈ g.above closing, n ∈ g.nodes.filter (· ≠ closing) := by
      intro n hn
      unfold above at hn
      split at hn
      · exact hn
      · exact hg.parent_mem hn
    have hsame : ∀ k, (∃ n ∈ g.above closing, ((Members.put inner closing (deepest + 1)).lookup n).getD 0 = k) ↔
        ∃ n ∈ g.above closing, (inner.lookup n).getD 0 = k := fun k =>
      exists_congr fun n => and_congr_right fun hn => by rw [hinner n (habove n hn)]
    simp only [hsame]
    exact hg.isGreatest_deepest hpeels hdeepest
  refine ⟨fun n hn hne => ?_, ⟨deepest, hgreatest, hclosing⟩, fun a ha => ?_⟩
  · have hmem := mem_inner.mpr ⟨hn, hne⟩
    show g.IsDepth n _
    rw [hinner n hmem]
    exact hpeels.isDepth hg.acyclic (fun m _ p hp => hg.parent_mem hp) (hpeels.mem_of_pending hnodup hmem)
  · have hp : a.1 ∈ g.parents a.2 := mem_parents.mpr ha
    by_cases htarget : a.2 = closing
    · rw [htarget] at hp ⊢
      have habove : a.1 ∈ g.above closing := by
        rw [above, if_neg (List.ne_nil_of_mem hp)]
        exact hp
      rw [hclosing]
      exact Nat.lt_succ_of_le (hgreatest.2 ⟨a.1, habove, rfl⟩)
    · have hmem := mem_inner.mpr ⟨(g.ends_mem a ha).2, htarget⟩
      obtain ⟨j, hj, hpj⟩ := hpeels.descends (hpeels.mem_of_pending hnodup hmem) hp (hg.parent_mem hp)
      rw [hinner _ (hg.parent_mem hp), hinner _ hmem, hpeels.level_eq hnodup hpj]
      exact hj

end Bounded

end FormFlow.Digraph

namespace FormFlow.Store

variable {s : Store} {placements : List (String × Placement)}

/-- The placements level the nodes. The level of a node is the number of nodes on a longest path to it. Only the end
stands one level below the deepest node that leads to it, or below all other nodes if none does. Every edge leads to a
deeper level. -/
structure Levels (s : Store) (placements : List (String × Placement)) (level : String → Nat) : Prop where
  level_eq : ∀ id ∈ s.ids, ∃ p, placements.lookup id = some p ∧ p.level = level id
  depth : ∀ id ∈ s.ids, id ≠ finishId → s.graph.IsDepth id (level id)
  below_parents : s.incoming finishId ≠ [] →
    ∃ k, IsGreatest {k | ∃ e ∈ s.incoming finishId, level e.source = k} k ∧ level finishId = k + 1
  below_all : s.incoming finishId = [] →
    ∃ k, IsGreatest {k | ∃ id ∈ s.ids, id ≠ finishId ∧ level id = k} k ∧ level finishId = k + 1
  descends : ∀ e ∈ s.edges, level e.source < level e.target

/-- The arcs of the graph that is placed are those of the store's graph. -/
theorem WellFormed.mem_arcs_placed (hs : s.WellFormed) (a : String × String) :
    a ∈ (graphOf s.nodes s.edges).arcs ↔ a ∈ s.graph.arcs := by
  rw [mem_arcs_graphOf, mem_arcs_graph]
  exact exists_congr fun e => and_congr_left fun _ => hs.mem_edges

theorem WellFormed.mem_parents_placed (hs : s.WellFormed) {id p : String} (hid : id ∈ s.ids) :
    p ∈ (graphOf s.nodes s.edges).parents id ↔ ∃ e ∈ s.incoming id, e.source = p := by
  rw [Digraph.mem_parents, hs.mem_arcs_placed, mem_arcs_graph]
  refine exists_congr fun e => ?_
  rw [mem_incoming hid, and_assoc, Edge.ends, Prod.mk.injEq, and_comm (a := e.source = p)]

/-- **Placing levels the nodes.** The placements of every store that can be built and that the check accepts give each
node its depth, the end its place below what leads to it, and every edge a descent. -/
theorem Built.exists_leveling (hs : s.Built) (hcheck : s.checkStructure = .ok ()) :
    ∃ placements level, Placement.assign s.nodes s.edges = .ok placements ∧ s.Levels placements level := by
  obtain ⟨h, -, -⟩ := checkStructure_eq_ok_iff.mp hcheck
  have hwell := hs.wellFormed
  have hplaceable := hwell.placeable h
  obtain ⟨_, _, -, -, -, hassign⟩ := hplaceable.exists_assign
  obtain ⟨run, levels, -, hlevels, hseated⟩ := hplaceable.exists_seatedIn hassign
  have hnodes : (graphOf s.nodes s.edges).nodes = s.ids := hplaceable.nodes_graph
  obtain ⟨hdepth, ⟨k, hgreatest, hclosing⟩, hdescends⟩ := hplaceable.bounded.leveling hlevels
  have hparents : ∀ {p}, p ∈ (graphOf s.nodes s.edges).parents finishId ↔ ∃ e ∈ s.incoming finishId, e.source = p :=
    hwell.mem_parents_placed h.finish_mem
  have hnone : (graphOf s.nodes s.edges).parents finishId = [] ↔ s.incoming finishId = [] := by
    rw [List.eq_nil_iff_forall_not_mem, List.eq_nil_iff_forall_not_mem]
    exact ⟨fun hno e he => hno e.source (hparents.mpr ⟨e, he, rfl⟩), fun hno p hp => by
      obtain ⟨e, he, -⟩ := hparents.mp hp
      exact hno e he⟩
  refine ⟨_, fun id => (levels.lookup id).getD 0, hassign, fun id hid => ?_, fun id hid hne => ?_, fun hsome => ?_,
    fun hnot => ?_, fun e he => ?_⟩
  · obtain ⟨n, hn, rfl⟩ := mem_ids.mp hid
    obtain ⟨p, hp, hplaced⟩ := hseated n hn
    exact ⟨p, hp, hplaced.level_eq⟩
  · exact (Digraph.isDepth_congr hwell.mem_arcs_placed).mp (hdepth id (hnodes ▸ hid) hne)
  · refine ⟨k, ?_, hclosing⟩
    rw [Digraph.above, if_neg (hnone.not.mpr hsome)] at hgreatest
    simpa only [hparents, exists_exists_and_eq_and] using hgreatest
  · refine ⟨k, ?_, hclosing⟩
    rw [Digraph.above, if_pos (hnone.mpr hnot)] at hgreatest
    simpa only [hnodes, List.mem_filter, decide_eq_true_eq, and_assoc] using hgreatest
  · exact hdescends _ (mem_arcs_graphOf.mpr ⟨e, he, rfl⟩)

theorem exists_leveling_withJoin :
    (withJoin .origin).Built ∧ (withJoin .origin).checkStructure = .ok () ∧
      ∃ placements level, Placement.assign (withJoin .origin).nodes (withJoin .origin).edges = .ok placements ∧
        (withJoin .origin).Levels placements level :=
  ⟨built_withJoin .origin, checkStructure_withJoin .origin,
    Built.exists_leveling (built_withJoin .origin) (checkStructure_withJoin .origin)⟩

end FormFlow.Store
