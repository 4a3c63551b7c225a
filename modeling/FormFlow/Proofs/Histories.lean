import FormFlow.Proofs.Connection
/-!
Histories of a store.

A history is a list of operations on a store, among them copies and transactions, which have operations of their own;
an operation that fails is passed over. A store without edges from a node to itself can lose any of its nodes, so no
removal stops half-way. Every operation leads from one state to the next with an exact index and without a node changing
its kind (`Exact.perform`), the steps of a transaction too, since a draft is a store like any other. So this goes for
all states of a history (`states_consistent`).
-/

set_option autoImplicit false

namespace FormFlow.Store

/-- An operation on a store, with its arguments. -/
inductive Operation where
  | addNode (n : Node)
  | replaceNode (n : Node)
  | removeNode (id : String)
  | addEdge (e : Edge) (ends_ne : e.source ≠ e.target)
  | removeEdge (id : String)
  /-- Goes on with a copy. -/
  | copy
  /-- Makes steps on a draft. A strict transaction is given up at the first step that fails, another one passes over
  such steps; one that is called off is given up after the last step. -/
  | transaction (steps : List Operation) (isStrict isCalledOff : Bool)

/-- Why an operation failed. -/
inductive Operation.Fault where
  | graph (fault : StructureFault)
  /-- A transaction was called off. -/
  | calledOff
  deriving DecidableEq

/-- What operations on a store come to: whether they succeed or why not, and the states that the store goes through. -/
structure Course where
  outcome : Except Operation.Fault Unit
  states : List Store

/-- The store after the operations. -/
def Course.after (c : Course) (before : Store) : Store := c.states.getLastD before

/-- Takes up the store that an operation gives, or stays with the old one. -/
def settle (s : Store) : Except StructureFault Store → Course
  | .ok t => ⟨.ok (), [t]⟩
  | .error f => ⟨.error (.graph f), [s]⟩

mutual

/-- What an operation comes to. A transaction goes through the states of its draft, if it is not given up. -/
def perform (s : Store) : Operation → Course
  | .addNode n => s.settle (s.addNode n)
  | .replaceNode n => s.settle (s.replaceNode n)
  | .removeNode id =>
    match s.removeNode id with
    | (.ok _, t) => ⟨.ok (), [t]⟩
    | (.error f, t) => ⟨.error (.graph f), [t]⟩
  | .addEdge e _ => s.settle (s.addEdge e)
  | .removeEdge id => s.settle ((s.removeEdge id).map (·.2))
  | .copy => ⟨.ok (), [s.copy]⟩
  | .transaction steps isStrict isCalledOff =>
    let change := fun draft : Store =>
      let course := draft.performAll isStrict steps
      match course.outcome with
      | .ok () => if isCalledOff then .error .calledOff else .ok (draft :: course.states, course.after draft)
      | .error f => .error f
    match s.transact change with
    | .ok (states, _) => ⟨.ok (), states⟩
    | .error f => ⟨.error f, [s]⟩

/-- What operations in turn come to, up to the first that fails or passing over those. -/
def performAll (s : Store) (isStrict : Bool) : List Operation → Course
  | [] => ⟨.ok (), []⟩
  | op :: rest =>
    let first := s.perform op
    let others := (first.after s).performAll isStrict rest
    let both : Course := ⟨others.outcome, first.states ++ others.states⟩
    match first.outcome with
    | .ok () => both
    | .error _ => if isStrict then first else both

end

/-- The states of a history, from the first one on. Operations that fail are passed over. -/
def states (s : Store) (history : List Operation) : List Store := s :: (s.performAll false history).states

/-- What the tables of a store are like. The index lists no id twice, and leads from an id to two nodes exactly if an
edge with that id runs between them; no two edges have one id; the ends of every edge are there; and an id stands for
the one node that has it. -/
structure Consistent (s : Store) : Prop where
  index_nodup : (s.index.map (·.1)).Nodup
  lookup_index : ∀ id source target, s.index.lookup id = some (source, target) ↔
    ∃ e, s.between? source target = some e ∧ e.id = id ∧ e.source = source ∧ e.target = target
  edge_ids_nodup : (s.links.map (·.id)).Nodup
  ends_mem : ∀ e ∈ s.links, e.source ∈ s.ids ∧ e.target ∈ s.ids
  node?_eq : ∀ id n, s.node? id = some n ↔ n ∈ s.nodes ∧ n.id = id

/-- Nodes that are in both stores are of one kind in both. -/
def SameKinds (s t : Store) : Prop :=
  ∀ id before after, s.kind? id = some before → t.kind? id = some after → before = after

variable {s t : Store} {id : String} {n : Node} {e : Edge} {op : Operation}

/-! ## Exact stores -/

/-- The store is well-formed, its index is exact, and no edge leads from a node to itself. -/
structure Exact (s : Store) : Prop where
  wellFormed : s.WellFormed
  indexed : s.Indexed
  ends_ne : ∀ f ∈ s.links, f.source ≠ f.target

/-- A store without edges is exact if no two nodes have one id. -/
theorem exact_of_no_links (hids : s.ids.Nodup) (hlinks : s.links = []) (hindex : s.index = []) : s.Exact := by
  refine ⟨⟨hids, ?_, ?_⟩, ⟨?_, ?_⟩, ?_⟩ <;> simp [hlinks, hindex]

theorem sameKinds_self (s : Store) : SameKinds s s := fun _ _ _ hbefore hafter =>
  Option.some.inj (hbefore.symm.trans hafter)

theorem Part.sameKinds (h : Part t s) (hs : s.WellFormed) : SameKinds s t := fun _ _ _ hbefore hafter =>
  Option.some.inj (hbefore.symm.trans (h.kind?_of_kind? hs hafter))

namespace Exact

theorem consistent (h : s.Exact) : s.Consistent where
  index_nodup := h.indexed.names_nodup
  lookup_index id source target := by
    rw [Table.lookup_eq_some_iff_mem h.indexed.names_nodup, h.indexed.index_perm.mem_iff, List.mem_map]
    simp only [h.wellFormed.between?_eq_some_iff, entry, Edge.ends, Prod.mk.injEq]
    exact exists_congr fun e => by grind
  edge_ids_nodup := h.indexed.ids_nodup
  ends_mem := h.wellFormed.ends_mem
  node?_eq _ _ := h.wellFormed.node?_eq_some_iff

theorem of_part (h : s.Exact) (ht : Part t s) (hindexed : t.Indexed) : t.Exact :=
  ⟨ht.wellFormed h.wellFormed, hindexed, fun f hf => h.ends_ne f (ht.mem_links hf)⟩

theorem addNode (h : s.Exact) (ht : s.addNode n = .ok t) : t.Exact :=
  ⟨h.wellFormed.addNode ht, h.indexed.addNode ht, links_addNode ht ▸ h.ends_ne⟩

theorem addEdge (h : s.Exact) (he : e.source ≠ e.target) (ht : s.addEdge e = .ok t) : t.Exact := by
  refine ⟨h.wellFormed.addEdge ht, h.indexed.addEdge ht, fun f hf => ?_⟩
  rcases (mem_links_addEdge ht).mp hf with hf | rfl
  · exact h.ends_ne f hf
  · exact he

/-- A removal fails only if the node is not there. -/
theorem removeNode_cases (h : s.Exact) (id : String) :
    (∃ removed t, s.removeNode id = (.ok removed, t) ∧ s.withoutNode id = .ok t) ∨
      s.removeNode id = (.error (.unknownNode id), s) := by
  by_cases hid : id ∈ s.ids
  · obtain ⟨t, hremoved, ht⟩ := h.indexed.exists_removeNode h.wellFormed hid fun f hf hsource htarget =>
      h.ends_ne f hf (hsource.trans htarget.symm)
    exact Or.inl ⟨_, t, hremoved, ht⟩
  · exact Or.inr (removeNode_of_not_mem hid)

end Exact

/-! ## Transactions -/

/-- The draft of a transaction takes the store's place, or the store stays as it is. -/
theorem perform_transaction_cases (s : Store) (steps : List Operation) (isStrict isCalledOff : Bool) :
    s.perform (.transaction steps isStrict isCalledOff) =
        ⟨.ok (), s.copy :: (s.copy.performAll isStrict steps).states⟩ ∨
      ∃ f, s.perform (.transaction steps isStrict isCalledOff) = ⟨.error f, [s]⟩ := by
  simp only [perform, transact]
  cases (s.copy.performAll isStrict steps).outcome with
  | error f => exact Or.inr ⟨f, rfl⟩
  | ok =>
    cases isCalledOff with
    | true => exact Or.inr ⟨.calledOff, rfl⟩
    | false => exact Or.inl rfl

/-! ## States -/

/-- The states that follow on a store are exact, and from each to the next no node changes its kind. -/
structure Keeps (s : Store) (states : List Store) : Prop where
  exact : ∀ u ∈ states, u.Exact
  chain : (s :: states).IsChain SameKinds

namespace Keeps

theorem single (ht : t.Exact) (h : SameKinds s t) : Keeps s [t] :=
  ⟨fun _ hu => List.mem_singleton.mp hu ▸ ht, List.isChain_cons_cons.mpr ⟨h, .singleton t⟩⟩

theorem of_part (h : s.Exact) (ht : Part t s) (hindexed : t.Indexed) : Keeps s [t] :=
  .single (h.of_part ht hindexed) (ht.sameKinds h.wellFormed)

theorem of_alike (h : s.Exact) (ht : Alike t s) : Keeps s [t] :=
  .of_part h (ht.part h.wellFormed) (h.indexed.of_alike ht)

theorem none (s : Store) : Keeps s [] := ⟨nofun, .singleton s⟩

theorem last (hs : s.Exact) {states : List Store} (h : Keeps s states) : (states.getLastD s).Exact := by
  rcases List.eq_nil_or_concat states with rfl | ⟨others, t, rfl⟩
  · exact hs
  · rw [List.concat_eq_append, List.getLastD_concat]
    exact h.exact t (by simp)

/-- States that follow on the last of some states follow on them. -/
theorem append {states others : List Store} (h : Keeps s states) (hothers : Keeps (states.getLastD s) others) :
    Keeps s (states ++ others) := by
  refine ⟨fun u hu => (List.mem_append.mp hu).elim (h.exact u) (hothers.exact u), ?_⟩
  rw [← List.cons_append]
  refine List.isChain_append.mpr ⟨h.chain, hothers.chain.tail, fun u hu v hv => ?_⟩
  rw [List.getLast?_cons, ← List.getLastD_eq_getLast?] at hu
  obtain rfl : states.getLastD s = u := Option.some.inj hu
  obtain ⟨rest, rfl⟩ := List.head?_eq_some_iff.mp hv
  exact (List.isChain_cons_cons.mp hothers.chain).1

theorem settle (h : s.Exact) {result : Except StructureFault Store} (hok : ∀ t, result = .ok t → Keeps s [t]) :
    Keeps s (s.settle result).states := by
  cases result with
  | ok t => exact hok t rfl
  | error f => exact .single h s.sameKinds_self

end Keeps

mutual

/-- **Every operation leads from an exact store to exact stores**, and no node changes its kind. -/
theorem Exact.perform {s : Store} (h : s.Exact) : ∀ op : Operation, Keeps s (s.perform op).states
  | .addNode n => by
    rw [Store.perform]
    refine .settle h fun t ht => .single (h.addNode ht) fun id before after hbefore hafter => ?_
    rw [kind?_addNode ht (mem_ids_of_kind? hbefore), hbefore] at hafter
    exact Option.some.inj hafter
  | .replaceNode n => by
    rw [Store.perform]
    refine .settle h fun t ht => ?_
    obtain ⟨hkind, rfl⟩ := replaceNode_eq_ok ht
    exact .of_alike h (h.wellFormed.alike_put hkind)
  | .removeNode id => by
    rw [Store.perform]
    rcases h.removeNode_cases id with ⟨removed, t, hok, ht⟩ | hunknown
    · rw [hok]
      exact .of_part h (h.wellFormed.part_withoutNode ht) (h.indexed.withoutNode ht)
    · rw [hunknown]
      exact .single h s.sameKinds_self
  | .addEdge e he => by
    rw [Store.perform]
    refine .settle h fun t ht => .single (h.addEdge he ht) fun id before after hbefore hafter => ?_
    rw [kind?_addEdge ht, hbefore] at hafter
    exact Option.some.inj hafter
  | .removeEdge id => by
    rw [Store.perform]
    refine .settle h fun t ht => ?_
    cases hremoved : s.removeEdge id with
    | error f =>
      rw [hremoved] at ht
      cases ht
    | ok removed =>
      rw [hremoved] at ht
      cases ht
      exact .of_part h (h.wellFormed.part_removeEdge hremoved) (h.indexed.removeEdge h.wellFormed hremoved)
  | .copy => by
    rw [Store.perform]
    exact .of_alike h h.wellFormed.alike_copy
  | .transaction steps isStrict isCalledOff => by
    rcases s.perform_transaction_cases steps isStrict isCalledOff with hok | ⟨f, hgiven⟩
    · have hdraft : Keeps s [s.copy] := .of_alike h h.wellFormed.alike_copy
      rw [hok]
      exact hdraft.append (Exact.performAll (hdraft.last h) isStrict steps)
    · rw [hgiven]
      exact .single h s.sameKinds_self

/-- The same goes for operations in turn. -/
theorem Exact.performAll {s : Store} (h : s.Exact) (isStrict : Bool) :
    ∀ ops : List Operation, Keeps s (s.performAll isStrict ops).states
  | [] => by
    rw [Store.performAll]
    exact .none s
  | op :: rest => by
    have hfirst := Exact.perform h op
    have hboth := hfirst.append (Exact.performAll (hfirst.last h) isStrict rest)
    rw [Store.performAll]
    cases (s.perform op).outcome with
    | ok => exact hboth
    | error f =>
      cases isStrict with
      | true => exact hfirst
      | false => exact hboth

end

/-- **The index of a store is exact in every state of a history**, whatever operations fail in it and whatever
transactions are given up, and no node changes its kind from one state to the next. -/
theorem states_consistent {start : Store} (hstart : start = .empty ∨ start = .withSentinels)
    (history : List Operation) :
    (∀ s ∈ start.states history, s.Consistent) ∧ (start.states history).IsChain SameKinds := by
  have hexact : start.Exact := by
    rcases hstart with rfl | rfl
    · exact exact_of_no_links .nil rfl rfl
    · exact exact_of_no_links (by decide) rfl rfl
  have hkeeps := hexact.performAll false history
  refine ⟨fun s hs => ?_, hkeeps.chain⟩
  rcases List.mem_cons.mp hs with rfl | hs
  · exact hexact.consistent
  · exact (hkeeps.exact s hs).consistent

/-- A node is tied to the start and then to the end. On the way a removal fails, and a transaction that removes the node
is called off. -/
def retied : List Operation :=
  [.addNode (.unplaced "a" (.default .find) .origin), .addEdge (.plain startId "a") (by decide), .removeNode "b",
    .transaction [.removeNode "a"] false true,
    .transaction [.addEdge (.plain "a" finishId) (by decide), .removeEdge "estart-a"] true false]

theorem consistent_retied :
    (withSentinels.states retied).map (·.index.map (·.1)) =
        [[], [], ["estart-a"], ["estart-a"], ["estart-a"], ["estart-a"], ["estart-a", "ea-end"], ["ea-end"]] ∧
      (∀ s ∈ withSentinels.states retied, s.Consistent) ∧ (withSentinels.states retied).IsChain SameKinds :=
  ⟨rfl, states_consistent (.inr rfl) retied⟩

end FormFlow.Store
