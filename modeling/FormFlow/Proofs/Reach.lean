import FormFlow.Graph.Reach
import FormFlow.Proofs.Digraph
/-!
What the search of a graph finds.

`explore` ends with the nodes of the graph that its work list leads to: all of them, since what it has seen is closed
up to the work that is left, and no others, since every property that steps preserve holds of what it finds. So
descendants and ancestors are the nodes along and against the arcs, and `wouldClose` foresees a cycle.
-/

set_option autoImplicit false

namespace FormFlow.Digraph

section Explore

variable {nodes : List String} {next : String → List String}

/-- A property that steps preserve holds of everything that is found. -/
theorem explore_induction {P : String → Prop} (hstep : ∀ v ∈ nodes, P v → ∀ c ∈ next v, P c)
    (seen work : List String) (hseen : ∀ v ∈ seen, P v) (hwork : ∀ v ∈ work, P v) :
    ∀ v ∈ explore nodes next seen work, P v := by
  fun_induction explore nodes next seen work with
  | case1 seen => exact hseen
  | case2 seen v work h ih =>
    have hv : P v := hwork v List.mem_cons_self
    refine ih (fun x hx => ?_) (fun x hx => ?_)
    · rcases List.mem_cons.mp hx with rfl | hx
      · exact hv
      · exact hseen x hx
    · rcases List.mem_append.mp hx with hx | hx
      · exact hstep v h.1 hv x hx
      · exact hwork x (List.mem_cons_of_mem _ hx)
  | case3 seen v work _ ih => exact ih hseen fun x hx => hwork x (List.mem_cons_of_mem _ hx)

/-- What was seen stays found, the work is done, and no step leads out of what is found. -/
theorem explore_closed (nodes : List String) (next : String → List String) (seen work : List String)
    (h : ∀ v ∈ seen, ∀ c ∈ next v, c ∈ nodes → c ∈ seen ∨ c ∈ work) :
    (∀ v ∈ seen, v ∈ explore nodes next seen work) ∧
    (∀ v ∈ work, v ∈ nodes → v ∈ explore nodes next seen work) ∧
    (∀ v ∈ explore nodes next seen work, ∀ c ∈ next v, c ∈ nodes → c ∈ explore nodes next seen work) := by
  fun_induction explore nodes next seen work with
  | case1 seen => exact ⟨fun _ hv => hv, by simp, fun v hv c hc hn => by simpa using h v hv c hc hn⟩
  | case2 seen v work hv ih =>
    obtain ⟨ihseen, ihwork, ihclosed⟩ := ih (by grind)
    refine ⟨fun x hx => ihseen x (List.mem_cons_of_mem _ hx), fun x hx hn => ?_, ihclosed⟩
    rcases List.mem_cons.mp hx with rfl | hx
    · exact ihseen x List.mem_cons_self
    · exact ihwork x (List.mem_append_right _ hx) hn
  | case3 seen v work hv ih =>
    obtain ⟨ihseen, ihwork, ihclosed⟩ := ih (by grind)
    refine ⟨ihseen, fun x hx hn => ?_, ihclosed⟩
    rcases List.mem_cons.mp hx with rfl | hx
    · exact ihseen x (by grind)
    · exact ihwork x hx hn

/-- Nothing is found twice. -/
theorem explore_nodup {seen : List String} (h : seen.Nodup) (work : List String) :
    (explore nodes next seen work).Nodup := by
  fun_induction explore nodes next seen work with
  | case1 seen => exact h
  | case2 seen v work hv ih => exact ih (List.nodup_cons.mpr ⟨hv.2, h⟩)
  | case3 seen v work _ ih => exact ih h

end Explore

/-- A node reaches itself and what lies behind it. -/
theorem mem_reachedFrom {g : Digraph} {n m : String} :
    m ∈ g.reachedFrom n ↔ n ∈ g.nodes ∧ (m = n ∨ g.Reaches n m) := by
  have closed := explore_closed g.nodes g.children [] [n] (by simp)
  constructor
  · intro hm
    by_cases hn : n ∈ g.nodes
    case neg => simp [reachedFrom, explore, hn] at hm
    refine ⟨hn, explore_induction (P := fun m => m = n ∨ g.Reaches n m) ?_ [] [n] (by simp) (by simp) m hm⟩
    rintro v - (rfl | hv) c hc
    · exact Or.inr (.arc (mem_children.mp hc))
    · exact Or.inr (hv.snoc (mem_children.mp hc))
  · rintro ⟨hn, hm⟩
    have start : n ∈ g.reachedFrom n := closed.2.1 n List.mem_cons_self hn
    rcases hm with rfl | hm
    · exact start
    · refine hm.mem_of_closed (fun a ha hseen => ?_) start
      exact closed.2.2 _ hseen _ (mem_children.mpr ha) (g.ends_mem _ ha).2

/-- A node is reached from itself and from what lies before it. -/
theorem mem_leadingTo {g : Digraph} {n m : String} :
    m ∈ g.leadingTo n ↔ n ∈ g.nodes ∧ (m = n ∨ g.Reaches m n) := by
  have closed := explore_closed g.nodes g.parents [] [n] (by simp)
  constructor
  · intro hm
    by_cases hn : n ∈ g.nodes
    case neg => simp [leadingTo, explore, hn] at hm
    refine ⟨hn, explore_induction (P := fun m => m = n ∨ g.Reaches m n) ?_ [] [n] (by simp) (by simp) m hm⟩
    rintro v - (rfl | hv) c hc
    · exact Or.inr (.arc (mem_parents.mp hc))
    · exact Or.inr (.step (mem_parents.mp hc) hv)
  · rintro ⟨hn, hm⟩
    have start : n ∈ g.leadingTo n := closed.2.1 n List.mem_cons_self hn
    rcases hm with rfl | hm
    · exact start
    · induction hm with
      | arc ha => exact closed.2.2 _ start _ (mem_parents.mpr ha) (g.ends_mem _ ha).1
      | step ha _ ih => exact closed.2.2 _ (ih closed hn start) _ (mem_parents.mpr ha) (g.ends_mem _ ha).1

/-- The ancestors of a node are the other nodes that reach it. -/
theorem mem_ancestors {g : Digraph} {n m : String} : m ∈ g.ancestors n ↔ m ≠ n ∧ g.Reaches m n := by
  rw [ancestors, List.mem_filter, mem_leadingTo, decide_eq_true_iff]
  constructor
  · rintro ⟨⟨-, hm⟩, hne⟩
    exact ⟨hne, hm.resolve_left hne⟩
  · rintro ⟨hne, hm⟩
    exact ⟨⟨hm.target_mem, Or.inr hm⟩, hne⟩

/-- The descendants of a node are the other nodes that it reaches. -/
theorem mem_descendants {g : Digraph} {n m : String} : m ∈ g.descendants n ↔ m ≠ n ∧ g.Reaches n m := by
  rw [descendants, List.mem_filter, mem_reachedFrom, decide_eq_true_iff]
  constructor
  · rintro ⟨⟨-, hm⟩, hne⟩
    exact ⟨hne, hm.resolve_left hne⟩
  · rintro ⟨hne, hm⟩
    exact ⟨⟨hm.source_mem, Or.inr hm⟩, hne⟩

theorem ancestors_nodup (g : Digraph) (n : String) : (g.ancestors n).Nodup :=
  (explore_nodup .nil [n]).filter _

/-- An arc between two nodes would close a cycle exactly if they are one node or the second reaches the first. -/
theorem wouldClose_eq_true_iff {g : Digraph} {s t : String} (hs : s ∈ g.nodes) (ht : t ∈ g.nodes) :
    g.wouldClose s t = true ↔ s = t ∨ g.Reaches t s := by
  unfold wouldClose
  by_cases hst : s = t
  · simp [hst]
  · simp [hst, hs, ht, mem_reachedFrom]

end FormFlow.Digraph
