import FormFlow.Graph.Counting
import FormFlow.Graph.Digraph
/-!
Directed graphs as relations.

The graph of two lists has the nodes and arcs of the lists. A graph has no cycle exactly if its nodes can be ranked
so that every arc ascends; new arcs are allowed by a rank that they ascend too (`Acyclic.exists_rank_lt`), which is
how later modules show that a connection closes no cycle.
-/

set_option autoImplicit false

namespace FormFlow.Digraph

/-! ## The graph of two lists -/

theorem nodes_addNode {g : Digraph} {n : String} (h : n ∉ g.nodes) : (g.addNode n).nodes = g.nodes ++ [n] := by
  rw [addNode, dif_neg h]

theorem addNode_eq_self {g : Digraph} {n : String} (h : n ∈ g.nodes) : g.addNode n = g := by
  rw [addNode, dif_pos h]

/-- An arc between nodes of the graph adds no node. -/
theorem nodes_addArc {g : Digraph} {s t : String} (hs : s ∈ g.nodes) (ht : t ∈ g.nodes) :
    (g.addArc s t).nodes = g.nodes := by
  have hends : ((g.addNode s).addNode t).nodes = g.nodes := by rw [addNode_eq_self hs, addNode_eq_self ht]
  rw [← hends]
  dsimp only [addArc]
  split <;> rfl

theorem mem_arcs_addArc (g : Digraph) (s t : String) (a : String × String) :
    a ∈ (g.addArc s t).arcs ↔ a ∈ g.arcs ∨ a = (s, t) := by
  dsimp only [addArc]
  split <;> grind [arcs_addNode]

theorem arcs_foldl_addNode (nodes : List String) (g : Digraph) : (nodes.foldl addNode g).arcs = g.arcs := by
  induction nodes generalizing g with
  | nil => rfl
  | cons n nodes ih => rw [List.foldl_cons, ih, arcs_addNode]

theorem nodes_foldl_addNode (nodes : List String) (g : Digraph) (h : (g.nodes ++ nodes).Nodup) :
    (nodes.foldl addNode g).nodes = g.nodes ++ nodes := by
  induction nodes generalizing g with
  | nil => simp
  | cons n nodes ih =>
    have hn : n ∉ g.nodes := fun hm => (List.nodup_append.mp h).2.2 n hm n List.mem_cons_self rfl
    rw [List.foldl_cons, ih _ (by simpa [nodes_addNode hn] using h), nodes_addNode hn]
    simp

theorem mem_arcs_foldl_addArc (arcs : List (String × String)) (g : Digraph) (a : String × String) :
    a ∈ (arcs.foldl (fun g a => g.addArc a.1 a.2) g).arcs ↔ a ∈ g.arcs ∨ a ∈ arcs := by
  induction arcs generalizing g with
  | nil => simp
  | cons b arcs ih => rw [List.foldl_cons, ih, mem_arcs_addArc, List.mem_cons, or_assoc]

theorem nodes_foldl_addArc (arcs : List (String × String)) (g : Digraph)
    (h : ∀ a ∈ arcs, a.1 ∈ g.nodes ∧ a.2 ∈ g.nodes) :
    (arcs.foldl (fun g a => g.addArc a.1 a.2) g).nodes = g.nodes := by
  induction arcs generalizing g with
  | nil => rfl
  | cons b arcs ih =>
    have hb := h b List.mem_cons_self
    have hsame := nodes_addArc hb.1 hb.2
    rw [List.foldl_cons, ih _ (fun a ha => by rw [hsame]; exact h a (List.mem_cons_of_mem _ ha)), hsame]

/-- The arcs of the graph of two lists are those of the second. -/
theorem mem_arcs_ofLists {nodes : List String} {arcs : List (String × String)} {a : String × String} :
    a ∈ (ofLists nodes arcs).arcs ↔ a ∈ arcs := by
  rw [ofLists, mem_arcs_foldl_addArc, arcs_foldl_addNode]
  simp [empty]

theorem arcs_addArc_of_not_mem {g : Digraph} {a : String × String} (h : a ∉ g.arcs) :
    (g.addArc a.1 a.2).arcs = g.arcs ++ [a] := by
  dsimp only [addArc]
  rw [dif_neg (by rwa [arcs_addNode, arcs_addNode])]
  simp only [arcs_addNode]

/-- Arcs that are not repeated stand in the graph in their order. -/
theorem arcs_ofLists {nodes : List String} {arcs : List (String × String)} (h : arcs.Nodup) :
    (ofLists nodes arcs).arcs = arcs := by
  have hfold : ∀ {news : List (String × String)} {g : Digraph}, (g.arcs ++ news).Nodup →
      (news.foldl (fun g a => g.addArc a.1 a.2) g).arcs = g.arcs ++ news := by
    intro news
    induction news with
    | nil => exact fun _ => (List.append_nil _).symm
    | cons a news ih =>
      intro g hg
      have ha : a ∉ g.arcs := fun hm => (List.nodup_append.mp hg).2.2 a hm a List.mem_cons_self rfl
      have hadded := arcs_addArc_of_not_mem ha
      rw [List.foldl_cons, ih (by rwa [hadded, List.append_assoc]), hadded, List.append_assoc]
      rfl
  have hstart : (nodes.foldl addNode empty).arcs = [] := arcs_foldl_addNode nodes empty
  rw [ofLists, hfold (by rwa [hstart]), hstart, List.nil_append]

/-- If all arcs run between the given nodes, these are the nodes of the graph, in their order. -/
theorem nodes_ofLists {nodes : List String} {arcs : List (String × String)} (hn : nodes.Nodup)
    (ha : ∀ a ∈ arcs, a.1 ∈ nodes ∧ a.2 ∈ nodes) : (ofLists nodes arcs).nodes = nodes := by
  have hnodes : (nodes.foldl addNode empty).nodes = nodes := nodes_foldl_addNode nodes empty hn
  rw [ofLists, nodes_foldl_addArc _ _ (by rwa [hnodes]), hnodes]

/-! ## Reaching -/

theorem Reaches.trans {g : Digraph} {a b c : String} (hab : g.Reaches a b) (hbc : g.Reaches b c) :
    g.Reaches a c := by
  induction hab with
  | arc h => exact .step h hbc
  | step h _ ih => exact .step h (ih hbc)

theorem Reaches.snoc {g : Digraph} {a b c : String} (hab : g.Reaches a b) (hbc : (b, c) ∈ g.arcs) : g.Reaches a c :=
  hab.trans (.arc hbc)

theorem Reaches.source_mem {g : Digraph} {a b : String} (h : g.Reaches a b) : a ∈ g.nodes := by
  cases h with
  | arc h => exact (g.ends_mem _ h).1
  | step h _ => exact (g.ends_mem _ h).1

theorem Reaches.target_mem {g : Digraph} {a b : String} (h : g.Reaches a b) : b ∈ g.nodes := by
  induction h with
  | arc h => exact (g.ends_mem _ h).2
  | step _ _ ih => exact ih

/-- What is closed under the arcs holds all that its members reach. -/
theorem Reaches.mem_of_closed {g : Digraph} {P : String → Prop} (hP : ∀ a ∈ g.arcs, P a.1 → P a.2) {a b : String}
    (hab : g.Reaches a b) (ha : P a) : P b := by
  induction hab with
  | arc h => exact hP _ h ha
  | step h _ ih => exact ih (hP _ h ha)

/-- A graph with more arcs reaches at least as far. -/
theorem Reaches.mono {g h : Digraph} (hsub : ∀ a ∈ g.arcs, a ∈ h.arcs) {a b : String} (hab : g.Reaches a b) :
    h.Reaches a b := by
  induction hab with
  | arc hm => exact .arc (hsub _ hm)
  | step hm _ ih => exact .step (hsub _ hm) ih

/-- Nothing is reached from a node without arcs out of it. -/
theorem not_reaches_of_leaf {g : Digraph} {n m : String} (h : ∀ a ∈ g.arcs, a.1 ≠ n) : ¬ g.Reaches n m := by
  intro hr
  cases hr with
  | arc ha => exact h _ ha rfl
  | step ha _ => exact h _ ha rfl

/-- A new node that a single arc leads to is reached through the source of that arc only. -/
theorem Reaches.of_added_leaf {g g' : Digraph} {source leaf n : String}
    (harcs : ∀ a ∈ g'.arcs, a ∈ g.arcs ∨ a = (source, leaf)) (hleaf : ∀ a ∈ g.arcs, a.1 ≠ leaf ∧ a.2 ≠ leaf)
    (hne : source ≠ leaf) (h : g'.Reaches n leaf) : n = source ∨ g.Reaches n source := by
  have hend : ∀ {m}, ¬ g'.Reaches leaf m := not_reaches_of_leaf fun a ha => by
    rcases harcs a ha with ha | rfl
    · exact (hleaf a ha).1
    · exact hne
  generalize hm : leaf = m at h
  induction h with
  | arc ha =>
    subst hm
    rcases harcs _ ha with ha | heq
    · exact absurd rfl (hleaf _ ha).2
    · exact Or.inl (Prod.mk.inj heq).1
  | step ha hr ih =>
    rcases harcs _ ha with ha' | heq
    · rcases ih hm with rfl | hreach
      · exact Or.inr (.arc ha')
      · exact Or.inr (.step ha' hreach)
    · rw [(Prod.mk.inj heq).2] at hr
      exact absurd hr hend

theorem Acyclic.mono {g h : Digraph} (hsub : ∀ a ∈ h.arcs, a ∈ g.arcs) (hg : g.Acyclic) : h.Acyclic :=
  fun n hn => hg n (hn.mono hsub)

theorem Acyclic.ne_of_arc {g : Digraph} (hg : g.Acyclic) {a b : String} (h : (a, b) ∈ g.arcs) : a ≠ b := by
  rintro rfl
  exact hg a (.arc h)

/-! ## Ranks -/

/-- A rank that every arc ascends rules cycles out. -/
theorem acyclic_of_rank {g : Digraph} (rank : String → Nat) (h : ∀ a ∈ g.arcs, rank a.1 < rank a.2) :
    g.Acyclic := by
  have ascends : ∀ {a b}, g.Reaches a b → rank a < rank b := by
    intro a b hab
    induction hab with
    | arc hm => exact h _ hm
    | step hm _ ih => exact Nat.lt_trans (h _ hm) ih
  exact fun n hn => Nat.lt_irrefl _ (ascends hn)

/-- In a graph without cycles the number of nodes that reach a node is such a rank. -/
theorem Acyclic.exists_rank {g : Digraph} (hg : g.Acyclic) :
    ∃ rank : String → Nat, ∀ a ∈ g.arcs, rank a.1 < rank a.2 := by
  classical
  refine ⟨fun n => (g.nodes.filter fun m => decide (g.Reaches m n)).length, fun a ha => ?_⟩
  refine Graph.length_filter_lt (a := a.1) ?_ (g.ends_mem a ha).1 ?_ ?_
  · intro m hm
    exact decide_eq_true ((of_decide_eq_true hm).snoc ha)
  · exact decide_eq_true (.arc ha)
  · simpa using hg a.1

/-- Two nodes of which the second does not reach the first can be ranked in their order: the second and all that it
reaches is lifted above the first. -/
theorem Acyclic.exists_rank_lt {g : Digraph} (hg : g.Acyclic) {s t : String} (hne : s ≠ t) (h : ¬ g.Reaches t s) :
    ∃ rank : String → Nat, (∀ a ∈ g.arcs, rank a.1 < rank a.2) ∧ rank s < rank t := by
  classical
  obtain ⟨rank, hrank⟩ := hg.exists_rank
  let behind : String → Prop := fun n => n = t ∨ g.Reaches t n
  refine ⟨fun n => rank n + if behind n then rank s + 1 else 0, fun a ha => ?_, ?_⟩
  · have hstep : behind a.1 → behind a.2 := by
      rintro (hat | hat)
      · exact Or.inr (hat ▸ .arc ha)
      · exact Or.inr (hat.snoc ha)
    have := hrank a ha
    by_cases h1 : behind a.1
    · simp only [if_pos h1, if_pos (hstep h1)]
      omega
    · simp only [if_neg h1]
      omega
  · have hs : ¬ behind s := by
      rintro (hst | hst)
      · exact hne hst
      · exact h hst
    have ht : behind t := Or.inl rfl
    simp only [if_neg hs, if_pos ht]
    omega

end FormFlow.Digraph
