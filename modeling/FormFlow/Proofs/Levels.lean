import FormFlow.Graph.Levels
import FormFlow.Proofs.Digraph
import FormFlow.Proofs.Table
/-!
Every node of a graph without cycles gets a level.

A list of nodes that is not used up has a node of least rank, and that node has no parent in the list: each round of
the peeling takes something away until nothing is pending.
-/

set_option autoImplicit false

namespace FormFlow.Digraph

variable {g : Digraph}

/-- Without cycles some pending node waits for no other. -/
theorem Acyclic.peel_ne_nil (hg : g.Acyclic) {pending : List String} (h : pending ≠ []) : g.peel pending ≠ [] := by
  obtain ⟨rank, hrank⟩ := hg.exists_rank
  obtain ⟨n, hn⟩ := List.exists_mem_of_ne_nil _ h
  induction hk : rank n using Nat.strongRecOn generalizing n with
  | ind k ih =>
    by_cases hp : ∃ p ∈ g.parents n, p ∈ pending
    · obtain ⟨p, hpn, hpp⟩ := hp
      exact ih (rank p) (hk ▸ hrank _ (mem_parents.mp hpn)) p hpp rfl
    · refine List.ne_nil_of_mem (a := n) (List.mem_filter.mpr ⟨hn, ?_⟩)
      simpa using hp

/-- A round and what it leaves are what was pending. -/
theorem mem_peel_or_unpeeled {pending : List String} {n : String} :
    n ∈ pending ↔ n ∈ g.peel pending ∨ n ∈ g.unpeeled pending := by
  unfold unpeeled
  by_cases hn : n ∈ g.peel pending
  · simp [hn, (List.mem_filter.mp hn).1]
  · simp [hn]

/-- Without cycles the rounds come to an end, and every pending node is in one of them. -/
theorem Acyclic.rounds_eq_some (hg : g.Acyclic) (pending : List String) :
    ∃ rounds, g.rounds pending = some rounds ∧ ∀ n, n ∈ rounds.flatten ↔ n ∈ pending := by
  fun_induction rounds g pending with
  | case1 => exact ⟨[], rfl, by simp⟩
  | case2 pending hne hnil => exact absurd hnil (hg.peel_ne_nil hne)
  | case3 pending _ _ ih =>
    obtain ⟨rounds, hrounds, hmem⟩ := ih
    refine ⟨g.peel pending :: rounds, by rw [hrounds]; rfl, fun n => ?_⟩
    rw [List.flatten_cons, List.mem_append, hmem, ← mem_peel_or_unpeeled]

theorem numberRounds_names (first : Nat) (rounds : List (List String)) :
    (numberRounds first rounds).map (·.1) = rounds.flatten := by
  induction rounds generalizing first with
  | nil => rfl
  | cons round rounds ih =>
    rw [numberRounds, List.map_append, ih, List.flatten_cons, List.map_map]
    simp [Function.comp_def]

/-- Nodes that all have a level give their levels. -/
theorem levelsOf_eq_ok {levels : List (String × Nat)} {ns : List String} (h : ∀ n ∈ ns, n ∈ levels.map (·.1)) :
    levelsOf levels ns = .ok (ns.map fun n => (levels.lookup n).getD 0) := by
  refine Table.mapM_eq_ok fun n hn => ?_
  obtain ⟨level, hlevel⟩ := Table.exists_lookup_iff.mpr (h n hn)
  simp only [hlevel, Option.getD_some]

/-- **Every node of a graph without cycles gets a level.** -/
theorem Acyclic.exists_levels (hg : g.Acyclic) (closing : String) :
    ∃ levels, g.levels closing = .ok levels ∧ ∀ n ∈ g.nodes, ∃ level, levels.lookup n = some level := by
  obtain ⟨rounds, hrounds, hmem⟩ := hg.rounds_eq_some (g.nodes.filter (· ≠ closing))
  have hinner : ∀ n ∈ g.nodes, n ≠ closing → n ∈ (numberRounds 1 rounds).map (·.1) := by
    intro n hn hne
    rw [numberRounds_names, hmem]
    exact List.mem_filter.mpr ⟨hn, by simpa using hne⟩
  have hparents : ∀ p ∈ g.parents closing, p ∈ (numberRounds 1 rounds).map (·.1) := by
    intro p hp
    have harc := mem_parents.mp hp
    exact hinner p (g.ends_mem _ harc).1 (hg.ne_of_arc harc)
  have habove := levelsOf_eq_ok hparents
  by_cases hclosing : closing ∈ g.nodes
  · refine ⟨_, by simp only [levels, hrounds, if_pos hclosing, habove]; rfl, fun n hn => ?_⟩
    rw [Table.exists_lookup_iff, List.map_append, List.mem_append]
    by_cases hne : n = closing
    · exact Or.inr (by simp [hne])
    · exact Or.inl (hinner n hn hne)
  · refine ⟨_, by simp only [levels, hrounds, if_neg hclosing]; rfl, fun n hn => ?_⟩
    exact Table.exists_lookup_iff.mpr (hinner n hn fun e => hclosing (e ▸ hn))

end FormFlow.Digraph
