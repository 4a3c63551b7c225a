import FormFlow.Config.Data
import FormFlow.Proofs.Table
/-!
The kinds of configurations that are read.

A reader puts values together with a function after reading their parts. What holds of all results of that function
holds of what is read (`Checked.Yields`). So a configuration that is read for a kind is of that kind, and an overlay
that leaves the collection of a Loop alone leaves it as it was (`collection_merge`).
-/

set_option autoImplicit false

namespace FormFlow

namespace Checked

variable {α β : Type} {P : β → Prop}

theorem under_eq_good {name : String} {r : Checked α} {a : α} : r.under name = .good a ↔ r = .good a := by
  cases r with
  | good b => simp [under]
  | bad ps => simp [under]

/-- Whatever is read has a property. -/
def Yields (P : β → Prop) (r : Checked β) : Prop := ∀ b, r = .good b → P b

theorem Yields.good {b : β} (h : P b) : Yields P (.good b) := by
  rintro _ ⟨⟩
  exact h

/-- A function of a value that was read keeps what it gives for such values. -/
theorem Yields.app {Q : α → Prop} {f : Checked (α → β)} {r : Checked α} (hf : f.Yields fun g => ∀ a, Q a → P (g a))
    (hr : r.Yields Q) : Yields P (f <*> r) := by
  cases f with
  | good g =>
    cases r with
    | good a => exact .good (hf g rfl a (hr a rfl))
    | bad ps => exact nofun
  | bad ps => cases r <;> exact nofun

theorem Yields.mapped {Q : α → Prop} {f : α → β} {r : Checked α} (hf : ∀ a, Q a → P (f a)) (hr : r.Yields Q) :
    Yields P (f <$> r) := by
  cases r with
  | good a => exact .good (hf a (hr a rfl))
  | bad ps => exact nofun

theorem Yields.map {f : α → β} (h : ∀ a, P (f a)) (r : Checked α) : Yields P (f <$> r) :=
  .mapped (Q := fun _ => True) (fun a _ => h a) fun _ _ => trivial

theorem Yields.seq {f : Checked (α → β)} (h : f.Yields fun g => ∀ a, P (g a)) (r : Checked α) : Yields P (f <*> r) :=
  .app (Q := fun _ => True) (fun g hg a _ => h g hg a) fun _ _ => trivial

theorem Yields.under {r : Checked β} (h : r.Yields P) (name : String) : Yields P (r.under name) :=
  fun b hb => h b (under_eq_good.mp hb)

theorem Yields.optional {ms : Members} {name : String} {default : β} {r : Reader β} (hdefault : P default)
    (h : ∀ v, (r v).Yields P) : Yields P (Checked.optional ms name default r) := by
  unfold Checked.optional
  split
  · exact (h _).under name
  · exact .good hdefault

theorem Yields.required {ms : Members} {name : String} {r : Reader β} (h : ∀ v, (r v).Yields P) :
    Yields P (Checked.required ms name r) := by
  unfold Checked.required
  split
  · exact (h _).under name
  · exact nofun

/-- What every item has that is read, the items of a list have. -/
theorem Yields.list {r : Reader β} (h : ∀ v, (r v).Yields P) (v : Value) :
    Yields (fun items => ∀ b ∈ items, P b) (Checked.list r v) := by
  have hitems : ∀ (items : List Value) (position : Nat),
      Yields (fun items => ∀ b ∈ items, P b) (itemsFrom r position items) := by
    intro items
    induction items with
    | nil => exact fun _ => .good nofun
    | cons v items ih =>
      intro position
      refine .app (.mapped (fun b hb => ?_) ((h v).under _)) (ih _)
      exact fun rest hrest => List.forall_mem_cons.mpr ⟨hb, hrest⟩
  cases v with
  | list items => exact hitems items 0
  | null | bool _ | int _ | float _ | text _ | record _ => exact nofun

theorem Yields.closed {r : Checked β} (h : r.Yields P) (ms : Members) (declared : List String) :
    Yields P (Checked.closed ms declared r) := by
  unfold Checked.closed
  split
  · exact h
  · exact nofun
  · exact nofun

end Checked

namespace Config

open Checked (Yields)

/-- The fields of a kind give a configuration of that kind. -/
theorem readFields_kind (ms : Members) (kind : Kind) : (readFields ms kind).Yields fun c => c.kind = kind := by
  cases kind with
  | start | finish | path =>
    refine Yields.closed ?_ _ _
    exact .good rfl
  | createOrUpdate =>
    refine Yields.closed ?_ _ _
    exact .seq (.seq (.seq (.map (fun _ _ _ _ => rfl) _) _) _) _
  | find =>
    refine Yields.closed ?_ _ _
    refine .map ?_ _
    exact fun _ => rfl
  | filter =>
    refine Yields.closed ?_ _ _
    exact .seq (.map (fun _ _ => rfl) _) _
  | loop =>
    refine Yields.closed ?_ _ _
    exact .seq (.seq (.seq (.seq (.seq (.seq (.map (fun _ _ _ _ _ _ _ => rfl) _) _) _) _) _) _) _
  | formatter =>
    refine Yields.closed ?_ _ _
    exact .seq (.seq (.seq (.seq (.seq (.seq (.map (fun _ _ _ _ _ _ _ => rfl) _) _) _) _) _) _) _
  | condition =>
    refine Yields.closed ?_ _ _
    exact .seq (.seq (.seq (.seq (.map (fun _ _ _ _ _ => rfl) _) _) _) _) _

/-- Reading a configuration reads the fields of its kind. -/
theorem readFields_of_parse {kind : Kind} {ms : Members} {c : Config} (h : parse kind ms = .ok c) :
    readFields (Members.without ms "kind") kind = .good c := by
  unfold parse at h
  cases hread : (readFields (Members.without ms "kind") kind).under kind.code with
  | bad ps =>
    simp only [hread] at h
    split at h
    · cases h
    · obtain ⟨declared, -, h⟩ := Table.bind_eq_ok.mp h
      split at h <;> cases h
  | good d =>
    have hsame : d = c := by
      simp only [hread] at h
      split at h
      · exact Except.ok.inj h
      · obtain ⟨declared, -, h⟩ := Table.bind_eq_ok.mp h
        split at h
        · cases h
        · exact Except.ok.inj h
    exact hsame ▸ Checked.under_eq_good.mp hread

/-- **A configuration that is read for a kind is of that kind.** -/
theorem parse_kind {kind : Kind} {ms : Members} {c : Config} (h : parse kind ms = .ok c) : c.kind = kind :=
  readFields_kind _ kind c (readFields_of_parse h)

/-! ## Collections -/

theorem collection_eq_some {c : Config} {find : String} (h : c.collection = some find) :
    ∃ l : LoopConfig, c = .loop l ∧ l.collection = some find ∧ find ≠ "" := by
  cases c with
  | loop l =>
    obtain ⟨hl, hfilled⟩ := Option.filter_eq_some_iff.mp h
    exact ⟨l, rfl, hl, by simpa using hfilled⟩
  | start | finish | createOrUpdate _ | find _ | filter _ | formatter _ | condition _ | path => cases h

/-- A Loop's fields give the collection that is written in them. -/
theorem readFields_collection {ms : Members} {find : String}
    (h : Members.get? ms "loop_collection" = some (.text find)) :
    (readFields ms .loop).Yields fun c => ∃ l : LoopConfig, c = .loop l ∧ l.collection = some find := by
  have hread : Checked.optional ms "loop_collection" none (Checked.nullable Checked.text) = .good (some find) := by
    simp only [Checked.optional, h]
    rfl
  unfold readFields
  rw [hread]
  refine Yields.closed ?_ _ _
  refine .seq (.seq (.seq (.seq (.seq (.seq (.good ?_) _) _) _) _) _) _
  exact fun _ _ _ _ _ _ => ⟨_, rfl, rfl⟩

/-- **A Loop keeps its collection unless the overlay puts another one there.** -/
theorem collection_merge {c d : Config} {overlay : Members} {find : String} (h : c.merge overlay = .ok d)
    (hc : c.collection = some find) (hoverlay : ∀ v, ("loop_collection", v) ∈ overlay → v = .text find) :
    d.collection = some find := by
  obtain ⟨l, rfl, hl, hfilled⟩ := collection_eq_some hc
  have hstored : (("kind", Value.text (loop l).kind.code) :: (loop l).toMembers).lookup "loop_collection" =
      some (.text find) := by
    simp [toMembers, hl, List.lookup_cons, Value.ofText?]
  have hput := Table.lookup_putAll hstored hoverlay
  rw [← Table.lookup_without _ (show "loop_collection" ≠ "kind" by decide)] at hput
  obtain ⟨m, rfl, hm⟩ := readFields_collection hput d (readFields_of_parse h)
  simp [collection, hm, Text.filled?, hfilled]

end Config

end FormFlow
