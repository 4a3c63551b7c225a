import FormFlow.Proofs.Configuration
import FormFlow.Proofs.Connection
import FormFlow.Proofs.Recompute
/-!
What committing a change leaves.

Repairing and placing change no kind and no edge, so a committed store is alike the one that the change made
(`commit_eq_ok`). If that one is regular, it is committed, and the result is regular and holds its placements
(`Committed`). The changes that the commands make of a regular store are regular (`Edits.regular`).
-/

set_option autoImplicit false

namespace FormFlow

theorem EditFault.ofStructure_eq_ok_iff {α : Type} {r : Except StructureFault α} {a : α} :
    ofStructure r = .ok a ↔ r = .ok a := by
  cases r with
  | error f => simp [ofStructure]
  | ok b => simp [ofStructure]

namespace Store

variable {s t u : Store} {change : Store → Except EditFault Store} {warnings : List Warning}

/-! ## Repairing and placing -/

theorem withoutCollection_kind (c : Config) : c.withoutCollection.kind = c.kind := by
  cases c <;> rfl

theorem alike_clearCollection (s : Store) (loop : String) : Alike (s.clearCollection loop) s := by
  refine ⟨kinds_map fun n => ?_, List.Perm.refl _, rfl⟩
  split
  · exact ⟨rfl, withoutCollection_kind n.config⟩
  · exact ⟨rfl, rfl⟩

theorem alike_repair (s : Store) (before : List LoopReference) : Alike (s.repair before).1 s := by
  have hfold : ∀ (stale : List LoopReference) (t : Store), Alike t s →
      Alike (stale.foldl (fun t r => t.clearCollection r.loop) t) s := by
    intro stale
    induction stale with
    | nil => exact fun t ht => ht
    | cons r stale ih => exact fun t ht => ih _ ((alike_clearCollection t r.loop).trans ht)
  exact hfold _ s ⟨rfl, List.Perm.refl _, rfl⟩

/-- Repairing and placing a store leaves one that is alike. -/
theorem alike_of_repair {before : List LoopReference} (hu : (t.repair before).1.recompute = .ok u) : Alike u t :=
  (alike_recompute hu).trans (alike_repair t before)

/-- Nothing is repaired where no Loop has a collection. -/
theorem repair_of_no_references (h : s.loopReferences = []) (before : List LoopReference) :
    s.repair before = (s, []) := by
  simp only [repair, staleReferences, h]
  rfl

/-- What an editor holds after a commit: a regular store that placing leaves as it is. -/
structure Committed (s : Store) : Prop where
  regular : s.Regular
  fixed : s.recompute = .ok s

/-- A regular store is committed by repairing and placing it. -/
theorem Regular.committed (ht : t.Regular) {before : List LoopReference}
    (hu : (t.repair before).1.recompute = .ok u) : u.Committed := by
  have hrepaired := ht.of_alike (alike_repair t before)
  exact ⟨hrepaired.of_alike (alike_recompute hu), hrepaired.wellFormed.recompute_recompute hrepaired.sound hu⟩

/-- A commit makes its change on a copy, repairs the result and places it. -/
theorem commit_eq_ok (h : s.commit change = .ok (warnings, u)) :
    ∃ t, change s.copy = .ok t ∧ (t.repair s.loopReferences).1.recompute = .ok u ∧
      warnings = (t.repair s.loopReferences).2 := by
  unfold commit transact at h
  cases hchange : change s.copy with
  | error f => simp [hchange] at h
  | ok t =>
    simp only [hchange] at h
    cases hplaced : (t.repair s.loopReferences).1.recompute with
    | error f => simp [hplaced] at h
    | ok placed =>
      simp only [hplaced] at h
      cases h
      exact ⟨t, rfl, hplaced, rfl⟩

/-! ## The changes of the commands -/

/-- Disconnecting removes an edge, or takes away the node that the first edge of its branch leads to. -/
theorem disconnected_eq_ok {e : Edge} (h : s.disconnected e = .ok t) :
    (∃ removed, s.removeEdge e.id = .ok (removed, t)) ∨
      ∃ group first second, e.group = some group ∧ s.branchEdges group = [first, second] ∧
        s.withoutNode first.target = .ok t := by
  unfold disconnected at h
  split at h
  · cases hremoved : s.removeEdge e.id with
    | error f =>
      rw [hremoved] at h
      cases h
    | ok removed =>
      rw [hremoved] at h
      cases h
      exact Or.inl ⟨removed.1, rfl⟩
  · next group hgroup =>
    unfold withoutBranch at h
    split at h
    · next first second hedges =>
      exact Or.inr ⟨group, first, second, hgroup, hedges, EditFault.ofStructure_eq_ok_iff.mp h⟩
    · cases h

/-- The stores that a command may make of a copy of a store, before they are repaired and placed. -/
inductive Edits (s : Store) : Store → Prop where
  | addNode {t : Store} {n : Node} : n.kind.isSentinel = false → s.copy.addNode n = .ok t → Edits s t
  | connect {t : Store} {source target : String} {tokens rest : TokenSupply} {plan : ConnectionPlan} :
    s.planConnection source target tokens = .ok (plan, rest) → plan.apply s.copy = .ok t → Edits s t
  | disconnect {t : Store} {id : String} {e : Edge} :
    s.edge? id = some e → s.copy.disconnected e = .ok t → Edits s t
  | deleteNode {t : Store} {n : Node} :
    n ∈ s.nodes → n.kind.isSentinel = false → s.copy.deleted n = .ok t → Edits s t
  | updateConfig {t : Store} {id : String} {c : Config} : s.copy.reconfigured id c = .ok t → Edits s t

theorem alike_reconfigured (hs : s.WellFormed) {id : String} {c : Config} (h : s.reconfigured id c = .ok t) :
    Alike t s := by
  unfold reconfigured at h
  cases hn : s.node id with
  | error f => simp [hn, bind, Except.bind, EditFault.ofStructure] at h
  | ok n =>
    cases hreplaced : s.replaceNode { n with config := c } with
    | error f => simp [hn, hreplaced, bind, Except.bind, EditFault.ofStructure] at h
    | ok u =>
      simp only [hn, hreplaced, bind, Except.bind, EditFault.ofStructure] at h
      cases h
      obtain ⟨hkind, rfl⟩ := replaceNode_eq_ok hreplaced
      exact hs.alike_put hkind

/-- **Every command keeps the store regular.** -/
theorem Edits.regular (h : Edits s t) (hs : s.Regular) : t.Regular := by
  have hcopy := hs.of_alike hs.wellFormed.alike_copy
  cases h with
  | addNode hk hadd => exact hcopy.addNode hk hadd
  | connect hplan happly => exact hs.apply_plan hplan hs.wellFormed.alike_copy happly
  | disconnect he hremoved =>
    obtain ⟨hmem, -⟩ := (hs.indexed.edge?_eq_some_iff hs.wellFormed).mp he
    exact hcopy.disconnected (hs.wellFormed.alike_copy.mem_links.mpr hmem) hremoved
  | deleteNode hn hk hdeleted => exact (hcopy.deleted hn hk hdeleted).2
  | updateConfig hreconfigured =>
    exact hcopy.of_alike (alike_reconfigured hcopy.wellFormed hreconfigured)

end Store

end FormFlow
