import Mathlib.Data.List.Chain
import Mathlib.Data.List.Nodup
import FormFlow.Graph.Cycle
import FormFlow.Proofs.Reach
/-!
The search for a cycle decides acyclicity.

The trail of the search is a path without repetition (`Trail.Winds`), so a child on it closes a cycle, and the part of
the trail from that child on is the cycle (`Trail.Winds.isCycle`). What is finished leads to finished nodes only and
lies on no cycle (`Exhausted`): a node is finished when its last child was followed, and had it been on a cycle, the
cycle would have to come back from finished nodes. Once all roots are used up every node is finished. So the search
returns a cycle exactly if there is one, and since the test of an arc is a search of its own, the two agree: in a graph
without cycles an arc is refused exactly if the search would return a cycle once it is there (`findCycle_decides`).
-/

set_option autoImplicit false

namespace FormFlow.Digraph

/-! ## Cycles as lists -/

/-- The nodes are distinct, each has an arc to the next one, and the last has an arc to the first. -/
structure IsCycle (g : Digraph) (ids : List String) : Prop where
  nodup : ids.Nodup
  chain : ids.IsChain fun n next => (n, next) ∈ g.arcs
  closes : ∃ first last, ids.head? = some first ∧ ids.getLast? = some last ∧ (last, first) ∈ g.arcs

/-- The first node of a path reaches all others. -/
theorem reaches_of_isChain {g : Digraph} {first m : String} {rest : List String}
    (h : (first :: rest).IsChain fun n next => (n, next) ∈ g.arcs) (hm : m ∈ rest) : g.Reaches first m := by
  induction rest generalizing first with
  | nil => cases hm
  | cons next rest ih =>
    obtain ⟨harc, hrest⟩ := List.isChain_cons_cons.mp h
    rcases List.mem_cons.mp hm with rfl | hm
    · exact .arc harc
    · exact .step harc (ih hrest hm)

theorem IsCycle.not_acyclic {g : Digraph} {ids : List String} (h : g.IsCycle ids) : ¬ g.Acyclic := by
  obtain ⟨first, last, hfirst, hlast, harc⟩ := h.closes
  obtain ⟨rest, rfl⟩ := List.head?_eq_some_iff.mp hfirst
  intro hg
  rcases List.mem_cons.mp (List.mem_of_getLast? hlast) with rfl | hmem
  · exact hg last (.arc harc)
  · exact hg first ((reaches_of_isChain h.chain hmem).snoc harc)

/-! ## The trail -/

/-- No node is on a trail twice, every node is a child of the one below it, and only children are still to be
followed. -/
structure Trail.Winds (g : Digraph) (trail : Trail) : Prop where
  nodup : (trail.map (·.1)).Nodup
  chain : (trail.map (·.1)).IsChain fun above below => (below, above) ∈ g.arcs
  follows : ∀ p ∈ trail, ∀ c ∈ p.2, c ∈ g.children p.1

namespace Trail.Winds

variable {g : Digraph} {n c : String} {rest : List String} {trail : Trail}

theorem root (n : String) : Winds g [(n, g.children n)] :=
  ⟨List.nodup_singleton n, .singleton _, fun p hp c hc => by obtain rfl := List.mem_singleton.mp hp; exact hc⟩

/-- Giving up the first child that is to be followed. -/
theorem skip (h : Winds g ((n, c :: rest) :: trail)) : Winds g ((n, rest) :: trail) :=
  ⟨h.nodup, h.chain, fun p hp d hd => by
    rcases List.mem_cons.mp hp with rfl | hp
    · exact h.follows _ List.mem_cons_self d (List.mem_cons_of_mem _ hd)
    · exact h.follows p (List.mem_cons_of_mem _ hp) d hd⟩

theorem arc (h : Winds g ((n, c :: rest) :: trail)) : (n, c) ∈ g.arcs :=
  mem_children.mp (h.follows _ List.mem_cons_self c List.mem_cons_self)

/-- Going on to the first child that is to be followed, if it is not on the trail. -/
theorem descend (h : Winds g ((n, c :: rest) :: trail)) (hc : c ∉ ((n, rest) :: trail).map (·.1)) :
    Winds g ((c, g.children c) :: (n, rest) :: trail) := by
  refine ⟨List.nodup_cons.mpr ⟨hc, h.nodup⟩, List.isChain_cons_cons.mpr ⟨h.arc, h.chain⟩, fun p hp d hd => ?_⟩
  rcases List.mem_cons.mp hp with rfl | hp
  · exact hd
  · exact h.skip.follows p hp d hd

/-- Going back from a node. -/
theorem back (h : Winds g ((n, rest) :: trail)) : Winds g trail :=
  ⟨(List.nodup_cons.mp h.nodup).2, h.chain.tail, fun p hp => h.follows p (List.mem_cons_of_mem _ hp)⟩

/-- A child that is met again on the trail closes a cycle: the trail from that child on, read in path order. -/
theorem isCycle (h : Winds g ((n, c :: rest) :: trail)) (hc : c ∈ ((n, rest) :: trail).map (·.1)) :
    g.IsCycle (cycleFrom c ((n, rest) :: trail)) := by
  obtain ⟨after, before, hnames, hafter⟩ := List.eq_append_cons_of_mem hc
  have htake : (((n, rest) :: trail).map (·.1)).takeWhile (· ≠ c) = after := by
    rw [hnames, List.takeWhile_append_of_pos fun m hm => by simpa using fun e : m = c => hafter (e ▸ hm)]
    simp
  have hlist : cycleFrom c ((n, rest) :: trail) = (after ++ [c]).reverse := by
    rw [cycleFrom, htake, List.reverse_append, List.reverse_singleton, List.singleton_append]
  have hprefix : after ++ [c] <+: ((n, rest) :: trail).map (·.1) := ⟨before, by rw [hnames]; simp⟩
  rw [hlist]
  refine ⟨List.nodup_reverse.mpr (h.nodup.sublist hprefix.sublist), List.isChain_reverse.mpr ?_, c, n, ?_, ?_, h.arc⟩
  · exact h.chain.prefix hprefix
  · simp
  · rw [List.getLast?_reverse]
    obtain ⟨tail, htail⟩ := hprefix
    cases after with
    | nil => simpa using (List.cons.inj htail).1
    | cons first after => simpa using (List.cons.inj htail).1

end Trail.Winds

/-! ## The search -/

/-- Finished nodes lead to finished nodes only and lie on no cycle. -/
def Exhausted (g : Digraph) (finished : List String) : Prop :=
  ∀ v ∈ finished, (∀ c ∈ g.children v, c ∈ finished) ∧ ¬ g.Reaches v v

/-- The nodes of a trail are not finished, and each of their children is still to be followed, finished, or stands
above it on the trail. -/
def Trail.Pending (g : Digraph) (finished : List String) : (above : Option String) → Trail → Prop
  | _, [] => True
  | above, (n, rest) :: trail =>
    n ∉ finished ∧ (∀ c ∈ g.children n, c ∈ rest ∨ c ∈ finished ∨ above = some c) ∧
      Pending g finished (some n) trail

/-- Finishing a node whose children are all finished. -/
theorem Exhausted.cons {g : Digraph} {finished : List String} (h : g.Exhausted finished) {n : String}
    (hn : n ∉ finished) (hc : ∀ c ∈ g.children n, c ∈ finished) : g.Exhausted (n :: finished) := by
  have stays : ∀ {a b}, g.Reaches a b → a ∈ finished → b ∈ finished := fun hab ha =>
    hab.mem_of_closed (P := (· ∈ finished)) (fun a ha hf => (h _ hf).1 _ (mem_children.mpr ha)) ha
  intro v hv
  rcases List.mem_cons.mp hv with rfl | hv
  · refine ⟨fun c hcv => List.mem_cons_of_mem _ (hc c hcv), fun hr => hn ?_⟩
    cases hr with
    | arc ha => exact hc _ (mem_children.mpr ha)
    | step ha hr => exact stays hr (hc _ (mem_children.mpr ha))
  · exact ⟨fun c hcv => List.mem_cons_of_mem _ ((h v hv).1 c hcv), (h v hv).2⟩

/-- Finishing a node that is not on the trail. -/
theorem Trail.Pending.finish {g : Digraph} {finished : List String} {n : String} :
    ∀ {above : Option String} {trail : Trail}, trail.Pending g finished above → n ∉ trail.map (·.1) →
      (above = none ∨ above = some n → trail.Pending g (n :: finished) none) ∧
      trail.Pending g (n :: finished) above
  | _, [], _, _ => ⟨fun _ => trivial, trivial⟩
  | above, (m, rest) :: trail, ⟨hm, hc, ht⟩, hn => by
    have hmn : m ≠ n := fun e => hn (by simp [e])
    have htail := (Pending.finish ht fun h => hn (List.mem_cons_of_mem _ h)).2
    have hm' : m ∉ n :: finished := by simp [hmn, hm]
    refine ⟨fun habove => ⟨hm', fun c hcm => ?_, htail⟩, hm', fun c hcm => ?_, htail⟩
    · rcases hc c hcm with h | h | h
      · exact Or.inl h
      · exact Or.inr (Or.inl (List.mem_cons_of_mem _ h))
      · refine Or.inr (Or.inl ?_)
        rcases habove with rfl | rfl
        · cases h
        · cases h; exact List.mem_cons_self
    · rcases hc c hcm with h | h | h
      · exact Or.inl h
      · exact Or.inr (Or.inl (List.mem_cons_of_mem _ h))
      · exact Or.inr (Or.inr h)

/-- What the search keeps while it finds no cycle. -/
structure Searching (g : Digraph) (finished : List String) (trail : Trail) (roots : List String) : Prop where
  winds : trail.Winds g
  exhausted : g.Exhausted finished
  pending : trail.Pending g finished none
  covers : ∀ v ∈ g.nodes, v ∈ roots ∨ v ∈ finished ∨ v ∈ trail.map (·.1)

namespace Searching

variable {g : Digraph} {finished roots rest : List String} {n c : String} {trail : Trail}

/-- Turning to a root that is not finished. -/
theorem root (h : Searching g finished [] (n :: roots)) (hn : n ∉ finished) :
    Searching g finished [(n, g.children n)] roots := by
  refine ⟨.root n, h.exhausted, ⟨hn, fun c hc => Or.inl hc, trivial⟩, ?_⟩
  intro v hv
  have := h.covers v hv
  grind

/-- Passing over a root that is finished or outside the graph. -/
theorem pass (h : Searching g finished [] (n :: roots)) (hn : ¬ (n ∈ g.nodes ∧ n ∉ finished)) :
    Searching g finished [] roots := by
  refine ⟨h.winds, h.exhausted, h.pending, ?_⟩
  intro v hv
  have := h.covers v hv
  grind

/-- Going back from a node finishes it. -/
theorem back (h : Searching g finished ((n, []) :: trail) roots) : Searching g (n :: finished) trail roots := by
  obtain ⟨hn, hc, ht⟩ := h.pending
  have hnew : n ∉ trail.map (·.1) := (List.nodup_cons.mp h.winds.nodup).1
  have hfinished : ∀ c ∈ g.children n, c ∈ finished := by
    intro c hcn
    rcases hc c hcn with h | h | h
    · cases h
    · exact h
    · cases h
  refine ⟨h.winds.back, h.exhausted.cons hn hfinished, (ht.finish hnew).1 (Or.inr rfl), ?_⟩
  intro v hv
  have := h.covers v hv
  grind

/-- Going on to a child that is neither on the trail nor finished. -/
theorem descend (h : Searching g finished ((n, c :: rest) :: trail) roots)
    (hc : c ∉ ((n, rest) :: trail).map (·.1)) (hnew : c ∉ finished) :
    Searching g finished ((c, g.children c) :: (n, rest) :: trail) roots := by
  obtain ⟨hn, hchildren, ht⟩ := h.pending
  have hpending : ∀ d ∈ g.children n, d ∈ rest ∨ d ∈ finished ∨ some c = some d := by
    intro d hd
    have := hchildren d hd
    grind
  refine ⟨h.winds.descend hc, h.exhausted, ⟨hnew, fun d hd => Or.inl hd, hn, hpending, ht⟩, ?_⟩
  intro v hv
  have := h.covers v hv
  grind

/-- Giving up a child that is finished. -/
theorem skip (h : Searching g finished ((n, c :: rest) :: trail) roots)
    (hold : ¬ (c ∈ g.nodes ∧ c ∉ finished)) : Searching g finished ((n, rest) :: trail) roots := by
  obtain ⟨hn, hchildren, ht⟩ := h.pending
  refine ⟨h.winds.skip, h.exhausted, ⟨hn, fun d hd => ?_, ht⟩, h.covers⟩
  have := hchildren d hd
  have := g.children_subset hd
  grind

end Searching

/-- What the search returns is a cycle, and if it returns none, there is none. -/
theorem searchCycle_spec {g : Digraph} (finished : List String) (trail : Trail) (roots : List String)
    (h : Searching g finished trail roots) :
    (searchCycle g finished trail roots = none → g.Acyclic) ∧
      ∀ ids, searchCycle g finished trail roots = some ids → g.IsCycle ids := by
  fun_induction searchCycle g finished trail roots with
  | case1 finished =>
    refine ⟨fun _ n hn => ?_, nofun⟩
    rcases h.covers n hn.source_mem with hn' | hn' | hn'
    · cases hn'
    · exact (h.exhausted n hn').2 hn
    · cases hn'
  | case2 finished root roots hroot ih => exact ih (h.root hroot.2)
  | case3 finished root roots hroot ih => exact ih (h.pass hroot)
  | case4 finished n trail roots ih => exact ih h.back
  | case5 finished n c rest trail roots hc => exact ⟨nofun, fun ids hids => Option.some.inj hids ▸ h.winds.isCycle hc⟩
  | case6 finished n c rest trail roots hc hnew ih => exact ih (h.descend hc hnew.2)
  | case7 finished n c rest trail roots hc hold ih => exact ih (h.skip hold)

theorem findCycle_spec (g : Digraph) :
    (g.findCycle = none → g.Acyclic) ∧ ∀ ids, g.findCycle = some ids → g.IsCycle ids :=
  searchCycle_spec [] [] g.nodes ⟨⟨.nil, .nil, nofun⟩, nofun, trivial, fun _ hv => Or.inl hv⟩

/-- The search looks at the nodes and at the children of each, and at nothing else of the graph. -/
theorem searchCycle_congr {g h : Digraph} (hnodes : g.nodes = h.nodes) (hchildren : ∀ n, g.children n = h.children n)
    (finished : List String) (trail : Trail) (roots : List String) :
    searchCycle g finished trail roots = searchCycle h finished trail roots := by
  fun_induction searchCycle g finished trail roots with
  | case1 => rw [searchCycle]
  | case2 finished root roots hroot ih => rw [ih, hchildren, searchCycle.eq_2, dif_pos (hnodes ▸ hroot)]
  | case3 finished root roots hroot ih => rw [ih, searchCycle.eq_2, dif_neg (hnodes ▸ hroot)]
  | case4 finished n trail roots ih => rw [ih, searchCycle.eq_3]
  | case5 finished n c rest trail roots hc => rw [searchCycle.eq_4, if_pos hc]
  | case6 finished n c rest trail roots hc hnew ih =>
    rw [ih, hchildren, searchCycle.eq_4, if_neg hc, dif_pos (hnodes ▸ hnew)]
  | case7 finished n c rest trail roots hc hold ih => rw [ih, searchCycle.eq_4, if_neg hc, dif_neg (hnodes ▸ hold)]

theorem findCycle_congr {g h : Digraph} (hnodes : g.nodes = h.nodes) (hchildren : ∀ n, g.children n = h.children n) :
    g.findCycle = h.findCycle := by
  rw [findCycle, findCycle, hnodes, searchCycle_congr hnodes hchildren]

/-- **The search finds no cycle exactly if there is none.** -/
theorem findCycle_eq_none_iff {g : Digraph} : g.findCycle = none ↔ g.Acyclic := by
  refine ⟨g.findCycle_spec.1, fun hg => ?_⟩
  cases hfound : g.findCycle with
  | none => rfl
  | some ids => exact absurd hg (g.findCycle_spec.2 ids hfound).not_acyclic

/-! ## One more arc -/

/-- An arc leaves a graph without cycles exactly if its ends are two nodes and there is no way back. -/
theorem Acyclic.addArc_iff {g : Digraph} (hg : g.Acyclic) {s t : String} :
    (g.addArc s t).Acyclic ↔ s ≠ t ∧ ¬ g.Reaches t s := by
  have harc : (s, t) ∈ (g.addArc s t).arcs := (mem_arcs_addArc g s t _).mpr (Or.inr rfl)
  constructor
  · refine fun h => ⟨h.ne_of_arc harc, fun hback => h t ?_⟩
    exact (hback.mono fun a ha => (mem_arcs_addArc g s t a).mpr (Or.inl ha)).snoc harc
  · rintro ⟨hne, hback⟩
    obtain ⟨rank, hrank, hlt⟩ := hg.exists_rank_lt hne hback
    refine acyclic_of_rank rank fun a ha => ?_
    rcases (mem_arcs_addArc g s t a).mp ha with ha | rfl
    · exact hrank a ha
    · exact hlt

/-- **The search for a cycle and the test of an arc are right, and they agree.** The search returns nothing exactly if
there is no cycle, and otherwise the nodes of a cycle in path order. In a graph without cycles the test says of an arc
between two of the nodes that it would close one exactly if the search returns a cycle once the arc is there. -/
theorem findCycle_decides (g : Digraph) :
    (g.findCycle = none ↔ g.Acyclic) ∧
      (∀ ids, g.findCycle = some ids → g.IsCycle ids) ∧
      (g.Acyclic → ∀ s ∈ g.nodes, ∀ t ∈ g.nodes,
        (g.wouldClose s t = true ↔ ∃ ids, (g.addArc s t).findCycle = some ids)) := by
  refine ⟨findCycle_eq_none_iff, g.findCycle_spec.2, fun hg s hs t ht => ?_⟩
  rw [wouldClose_eq_true_iff hs ht, ← Option.ne_none_iff_exists', ne_eq, findCycle_eq_none_iff, hg.addArc_iff,
    not_and_or, not_not, not_not]

/-- The way into a cycle is no part of it. -/
example : (ofLists ["s", "a", "b"] [("s", "a"), ("a", "b"), ("b", "a")]).findCycle = some ["a", "b"] := by cbv

end FormFlow.Digraph
