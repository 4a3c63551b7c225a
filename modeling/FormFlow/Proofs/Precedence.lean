import FormFlow.Proofs.Compiled
/-!
What a record works on has run before.

A Loop runs over what a Find found, and a Filter may narrow it. The inspection accepts only Finds that come before the
node and hang off the start. Such a Find reaches the node in the graph, and records ascend along the edges, so its
record stands earlier in the list (`Recorded.hasFound`). Every editor's records are supplied in this way
(`Session.run_supplied`).
-/

set_option autoImplicit false

namespace FormFlow

namespace Store

/-- When the record at a place of the list runs, the Find has run: its record stands earlier, and its node is reached
from the start. -/
def HasFound (s : Store) (records : List Record) (place : Nat) (find : String) : Prop :=
  ∃ i < place, ∃ r, records[i]? = some r ∧ r.nodeId = find ∧ r.kind = .find ∧ s.graph.Reaches startId find

/-- What records work on has run: every Loop has a collection that was found, and so is what a Filter narrows, if it
names anything. -/
structure Supplied (s : Store) (records : List Record) : Prop where
  loops : ∀ i r, records[i]? = some r → r.kind = .loop →
    ∃ find, Members.get? r.config "loop_collection" = some (.text find) ∧ s.HasFound records i find
  filters : ∀ i r, records[i]? = some r → r.kind = .filter →
    ∀ v, Members.get? r.config "source_find_node" = some v →
      ∃ find, v = .text find ∧ (Text.isBlankText find = false → s.HasFound records i find)

variable {s : Store} {records : List Record} {r : Record} {id find : String} {i : Nat}

/-! ## Places -/

namespace Recorded

theorem place_eq (h : s.Recorded records) (hs : s.WellFormed) (hr : records[i]? = some r) :
    Record.place records r.nodeId = i := by
  obtain ⟨hi, rfl⟩ := List.getElem?_eq_some_iff.mp hr
  have hnodup : (records.map (·.nodeId)).Nodup := h.ids_perm.nodup_iff.mpr hs.ids_nodup
  have hplace := hnodup.idxOf_getElem i (by rwa [List.length_map])
  rwa [List.getElem_map] at hplace

theorem exists_record (h : s.Recorded records) (hid : id ∈ s.ids) :
    ∃ r, records[Record.place records id]? = some r ∧ r.nodeId = id := by
  have hmem : id ∈ records.map (·.nodeId) := h.ids_perm.mem_iff.mpr hid
  have hget := List.getElem?_idxOf hmem
  rw [List.getElem?_map] at hget
  exact Option.map_eq_some_iff.mp hget

/-- What reaches a node is recorded before it. -/
theorem place_lt_of_reaches (h : s.Recorded records) (hs : s.WellFormed) {a b : String} (hab : s.graph.Reaches a b) :
    Record.place records a < Record.place records b := by
  have harc : ∀ {arc : String × String}, arc ∈ s.graph.arcs →
      Record.place records arc.1 < Record.place records arc.2 := by
    intro arc harc
    obtain ⟨e, he, rfl⟩ := mem_arcs_graph.mp harc
    exact h.ascends e (hs.mem_edges.mpr he)
  induction hab with
  | arc ha => exact harc ha
  | step ha _ ih => exact (harc ha).trans ih

theorem kind_eq (h : s.Recorded records) (hs : s.WellFormed) (hr : r ∈ records) : s.kind? r.nodeId = some r.kind := by
  obtain ⟨n, hn, hid, hkind, -⟩ := h.carries r hr
  rw [← hid, hkind]
  exact hs.kind?_of_mem hn

/-- **A Find that comes before a node and hangs off the start has run** when the record of the node runs. -/
theorem hasFound (h : s.Recorded records) (hs : s.Grounded) (hr : records[i]? = some r)
    (hfind : find ∈ s.findsBefore r.nodeId) : s.HasFound records i find := by
  obtain ⟨-, hreaches, hstart, hkind⟩ := mem_findsBefore.mp hfind
  obtain ⟨p, hp, rfl⟩ := h.exists_record (mem_ids_of_kind? hkind)
  have hpkind : s.kind? p.nodeId = some p.kind := h.kind_eq hs.wellFormed (List.mem_of_getElem? hp)
  refine ⟨_, ?_, p, hp, rfl, Option.some.inj (hpkind.symm.trans hkind), ?_⟩
  · rw [← h.place_eq hs.wellFormed hr]
    exact h.place_lt_of_reaches hs.wellFormed hreaches
  · exact hstart.resolve_left (hs.ne_start hkind nofun)

end Recorded

end Store

/-! ## Inspections -/

namespace Inspection

variable {finds : List String}

theorem exists_of_isMissing {s : Option String} (h : isMissing s = false) :
    ∃ text, s = some text ∧ Text.isBlankText text = false := by
  cases s with
  | none => cases h
  | some text => exact ⟨text, rfl, h⟩

/-- A Find that is chosen and passes is among those before the node. -/
theorem mem_of_bind_when {chosen : Option String} {problem : String → NodeProblem} {find : String}
    (h : (chosen.bind fun id => Inspection.when (!finds.contains id) (problem id)) = none) (hchosen : chosen = some find) :
    find ∈ finds := by
  rw [hchosen, Option.bind_some, when_eq_none_iff, Bool.not_eq_false'] at h
  exact List.contains_iff_mem.mp h

/-- A Loop that passes has a collection before it. -/
theorem exists_collection {c : LoopConfig} (h : loop finds c = none) :
    ∃ find, c.collection = some find ∧ find ∈ finds := by
  simp only [loop, Option.orElse_eq_none, when_eq_none_iff, Bool.or_eq_false_iff] at h
  obtain ⟨⟨hgiven, -⟩, hbefore, -⟩ := h
  obtain ⟨find, hfind, -⟩ := exists_of_isMissing hgiven
  exact ⟨find, hfind, mem_of_bind_when hbefore hfind⟩

/-- What a Filter that passes narrows is before it, if anything is named. -/
theorem mem_of_narrowed {source : Option String} {find : String} (h : narrowed finds source = none)
    (hsource : source = some find) (hgiven : Text.isBlankText find = false) : find ∈ finds := by
  have hsome : isMissing source = false := hsource ▸ hgiven
  rw [narrowed, hsome, if_neg Bool.false_ne_true] at h
  exact mem_of_bind_when h hsource

end Inspection

/-! ## Configurations -/

theorem Config.exists_loop {c : Config} (h : c.kind = .loop) : ∃ l, c = .loop l := by
  cases c with
  | loop l => exact ⟨l, rfl⟩
  | _ => cases h

theorem Config.exists_filter {c : Config} (h : c.kind = .filter) : ∃ f, c = .filter f := by
  cases c with
  | filter f => exact ⟨f, rfl⟩
  | _ => cases h

/-- A query has no member that narrows it. -/
theorem get?_query_source (c : FindConfig) : Members.get? c.toRecord "source_find_node" = none := by
  simp only [Members.get?, FindConfig.toRecord, List.lookup_append, Option.or_eq_none_iff]
  refine ⟨⟨⟨rfl, ?_⟩, ?_⟩, ?_⟩
  · rw [ConditionGroup.toRecord]
    split <;> rfl
  · split <;> rfl
  · split
    · unfold Members.whenever
      split <;> rfl
    · rfl

/-- What a compiled Filter narrows is what its configuration names. -/
theorem exists_source_of_get? {c : FilterConfig} {v : Value}
    (h : Members.get? (Config.filter c).toRecord "source_find_node" = some v) :
    ∃ find, v = .text find ∧ c.sourceFind = some find := by
  rw [Config.toRecord, Members.get?, List.lookup_append, ← Members.get?, get?_query_source, Option.none_or] at h
  cases hsource : c.sourceFind with
  | none =>
    rw [hsource] at h
    cases h
  | some find =>
    simp only [hsource, Members.whenever] at h
    split at h
    · cases h
      exact ⟨find, rfl, rfl⟩
    · cases h

/-! ## Sessions -/

namespace Session

variable {σ : Type} {s : Session σ} {records : List Record}

/-- **The records of a grounded workflow are supplied.** -/
theorem supplied_of_compile (hs : s.editor.store.Grounded) (h : s.compile.1 = .ok records) :
    s.editor.store.Supplied records := by
  have hrecorded := recorded_of_compile hs h
  constructor
  case loops =>
    intro i r hr hkind
    obtain ⟨n, hn, hsame, hconfig, hpasses⟩ := exists_node_of_compile h (List.mem_of_getElem? hr)
    obtain ⟨c, hc⟩ := Config.exists_loop (hsame.symm.trans hkind)
    obtain ⟨find, hfind, hbefore⟩ := Inspection.exists_collection (by rwa [Store.inspect, hc] at hpasses)
    refine ⟨find, ?_, hrecorded.hasFound hs hr ((Store.mem_of_node? hn).2 ▸ hbefore)⟩
    rw [hconfig, hc]
    exact congrArg (fun collection => some (Value.ofText? collection)) hfind
  case filters =>
    intro i r hr hkind v hv
    obtain ⟨n, hn, hsame, hconfig, hpasses⟩ := exists_node_of_compile h (List.mem_of_getElem? hr)
    obtain ⟨c, hc⟩ := Config.exists_filter (hsame.symm.trans hkind)
    obtain ⟨find, rfl, hsource⟩ := exists_source_of_get? (by rwa [hconfig, hc] at hv)
    refine ⟨find, rfl, fun hgiven => hrecorded.hasFound hs hr ((Store.mem_of_node? hn).2 ▸ ?_)⟩
    rw [Store.inspect, hc] at hpasses
    obtain ⟨fields, hjudged⟩ := Inspection.passes_ofObject hpasses
    exact Inspection.mem_of_narrowed ((Option.orElse_eq_none _ _).mp hjudged).2 hsource hgiven

/-- **Whatever a record works on has run before.** Whatever editor is made, in every state that a run reaches, in
whatever session, the records that it compiles to are supplied. -/
theorem run_supplied {e : Editor} (he : e.Made) (desk : Desk σ) (clock : Clock) (tokens : TokenSupply)
    (isHeard : Bool) (events : List Event) (turns : List (Turn σ))
    (h : (run ⟨e, desk, clock, tokens, isHeard, events⟩ turns).compile.1 = .ok records) :
    (run ⟨e, desk, clock, tokens, isHeard, events⟩ turns).editor.store.Supplied records :=
  supplied_of_compile (grounded_run turns _ he.grounded.1) h

/-- The Loop and the Filter of a workflow that compiles are supplied. -/
theorem supplied_narrowing :
    ∃ e records, Editor.openOn (.narrowing .origin) .zero false = .ok e ∧ (informed e).compile.1 = .ok records ∧
      e.store.Supplied records ∧ (∃ r ∈ records, r.kind = .loop) ∧ ∃ r ∈ records, r.kind = .filter := by
  obtain ⟨e, records, place, he, hstore, hrecords⟩ := exists_compile_narrowing .origin .zero false
  have hgrounded := (Editor.sound_of_openOn he).2
  have hrecorded : e.store.Recorded records := recorded_of_compile hgrounded hrecords
  have hkinds : ∀ k ∈ [Kind.loop, .filter], ∃ r ∈ records, r.kind = k := by
    intro k hk
    obtain ⟨n, hn, rfl⟩ : ∃ n ∈ e.store.nodes, n.kind = k := by
      rw [hstore]
      simp only [List.mem_cons, List.not_mem_nil, or_false] at hk
      rcases hk with rfl | rfl <;>
        simp [Store.placedAs, Store.copy, Store.narrowing, Node.unplaced, Node.kind, Config.kind]
    obtain ⟨r, hr, -, hkind, -⟩ := hrecorded.exists_of_mem hgrounded.wellFormed hn
    exact ⟨r, hr, hkind⟩
  exact ⟨e, records, he, hrecords, run_supplied (Or.inr ⟨_, _, _, he⟩) _ _ _ _ _ [] hrecords,
    hkinds _ (by decide), hkinds _ (by decide)⟩

end Session

end FormFlow
