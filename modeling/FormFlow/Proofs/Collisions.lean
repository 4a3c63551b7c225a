import FormFlow.Proofs.Acceptance
import FormFlow.Proofs.LoopReferences
/-!
Connections that no rule rejects and that cannot be made.

The id of a planned edge is built from the ids of its ends, and nothing keeps it from being the id of another edge. A
connect returns edges or names the rule that rejects it exactly if no planned edge has the id of an edge that is there;
else the store refuses the edge (`run_answers_iff`). Documents with such ids can be opened, the ids that documents are
given by default among them (`opened_collision`).
-/

set_option autoImplicit false

namespace FormFlow

namespace Store

variable {s t : Store} {e : Edge} {source target : String} {tokens rest : TokenSupply} {plan : ConnectionPlan}

/-- An edge of the plan has the id of an edge that is there. -/
def Clashes (s : Store) (plan : ConnectionPlan) : Prop := ∃ e ∈ plan.edges, s.hasEdge e.id = true

/-- An edge under a taken id is refused. -/
theorem addEdge_of_taken (hsource : s.hasNode e.source = true) (htarget : s.hasNode e.target = true)
    (hid : s.hasEdge e.id = true) : s.addEdge e = .error (.duplicateEdge e.id) := by
  obtain ⟨a, ha⟩ := exists_node? (hasNode_eq_true_iff.mp hsource)
  obtain ⟨b, hb⟩ := exists_node? (hasNode_eq_true_iff.mp htarget)
  simp only [addEdge, node_eq_ok_iff.mpr ha, node_eq_ok_iff.mpr hb, hid]
  rfl

/-- An edge of its own can be added between connectable nodes, or it is refused for its id. -/
theorem apply_plain_cases (hs : s.WellFormed) (hc : s.Connectable source target)
    (hkind : s.kind? source ≠ some .path) :
    (∃ t, ConnectionPlan.apply ⟨[.plain source target], none⟩ s.copy = .ok t ∧
      s.hasEdge (Edge.idFor source target) = false) ∨
    s.hasEdge (Edge.idFor source target) = true ∧
      ConnectionPlan.apply ⟨[.plain source target], none⟩ s.copy =
        .error (.duplicateEdge (Edge.idFor source target)) := by
  have hsource : s.copy.hasNode source = true := hasNode_eq_true_iff.mpr hc.source_mem
  have htarget : s.copy.hasNode target = true := hasNode_eq_true_iff.mpr hc.target_mem
  cases hid : s.hasEdge (Edge.idFor source target) with
  | false =>
    refine Or.inl ⟨_, apply_plain_of_ok (addEdge_of_new hsource htarget hid (between?_eq_none_of ?_)), rfl⟩
    -- The source has no edge yet.
    intro e he hends
    have hout := (mem_outgoing hc.source_mem).mpr ⟨hs.alike_copy.mem_links.mp he, hends⟩
    rw [hc.single hkind] at hout
    cases hout
  | true =>
    have hrefused : s.copy.addEdge (.plain source target) = _ := addEdge_of_taken hsource htarget hid
    refine Or.inr ⟨rfl, ?_⟩
    simp only [ConnectionPlan.apply, List.foldlM_cons, hrefused, bind, Except.bind, pure, Except.pure]
    rfl

/-- A planned branch can be added, or one of its edges is refused for its id. -/
theorem apply_branch_cases (hs : s.WellFormed) (hc : s.Connectable source target) {guard : Node} {group : String}
    (hkind : guard.kind = .condition) (hguard : guard.id ∉ s.ids) (hgroup : group ∉ s.groups)
    (hne : Edge.idFor source guard.id ≠ Edge.idFor guard.id target) :
    (∃ t, (branchPlan source target guard group).apply s.copy = .ok t ∧
      ¬ s.Clashes (branchPlan source target guard group)) ∨
    ∃ e ∈ (branchPlan source target guard group).edges, s.hasEdge e.id = true ∧
      (branchPlan source target guard group).apply s.copy = .error (.duplicateEdge e.id) := by
  have hcopy := (hs.alike_copy.part hs).wellFormed hs
  have hnode : s.copy.addNode guard = _ :=
    addNode_of_new (Bool.eq_false_iff.mpr fun hnode => hguard (hasNode_eq_true_iff.mp hnode))
  cases hfirst : s.hasEdge (Edge.idFor source guard.id) with
  | true =>
    have hsource := hasNode_eq_true_iff.mpr ((mem_ids_addNode hnode).mpr (Or.inl hc.source_mem))
    have hnew := hasNode_eq_true_iff.mpr ((mem_ids_addNode hnode).mpr (Or.inr rfl))
    have hrefused := addEdge_of_taken (e := ⟨Edge.idFor source guard.id, source, guard.id, some group⟩) hsource hnew
      hfirst
    refine Or.inr ⟨_, List.mem_cons_self, hfirst, ?_⟩
    simp only [branchPlan, ConnectionPlan.apply, List.foldlM_cons, hnode, hrefused, bind, Except.bind]
  | false =>
    cases hsecond : s.hasEdge (Edge.idFor guard.id target) with
    | false =>
      have hfresh : s.FreshBranch source target guard group := ⟨hkind, hguard, hgroup, hfirst, hsecond, hne⟩
      obtain ⟨t, u, v, ht, hu, hv⟩ :=
        (hfresh.of_alike hs hs.alike_copy).exists_apply hcopy hc.source_mem hc.target_mem
      refine Or.inl ⟨v, apply_branch_of_ok ht hu hv, ?_⟩
      rintro ⟨e, he, htaken⟩
      rcases List.mem_pair.mp he with rfl | rfl
      · cases hfirst.symm.trans htaken
      · cases hsecond.symm.trans htaken
    | true =>
      obtain ⟨t, u, ht, hu⟩ := exists_open hcopy hguard hc.source_mem hfirst group
      have hnew : u.hasNode guard.id = true := by
        rw [hasNode_eq_true_iff, ids_addEdge hu]
        exact (mem_ids_addNode ht).mpr (Or.inr rfl)
      have htarget : u.hasNode target = true := by
        rw [hasNode_eq_true_iff, ids_addEdge hu]
        exact (mem_ids_addNode ht).mpr (Or.inl hc.target_mem)
      have htaken : u.hasEdge (Edge.idFor guard.id target) = true := by
        obtain ⟨-, rfl⟩ := addNode_eq_ok ht
        rw [hasEdge_addEdge hu, Bool.or_eq_true]
        exact Or.inl hsecond
      have hrefused := addEdge_of_taken (e := ⟨Edge.idFor guard.id target, guard.id, target, some group⟩) hnew htarget
        htaken
      refine Or.inr ⟨_, List.mem_cons_of_mem _ List.mem_cons_self, hsecond, ?_⟩
      simp only [branchPlan, ConnectionPlan.apply, List.foldlM_cons, ht, hu, hrefused, bind, Except.bind]

/-- **A plan can be added exactly if it does not clash**; else the store refuses an edge for its id. -/
theorem apply_planned_cases (hs : s.WellFormed) (hplan : s.planConnection source target tokens = .ok (plan, rest)) :
    (∃ t, plan.apply s.copy = .ok t ∧ ¬ s.Clashes plan) ∨
      ∃ e ∈ plan.edges, s.hasEdge e.id = true ∧ plan.apply s.copy = .error (.duplicateEdge e.id) := by
  obtain ⟨hrejection, hcases⟩ := planConnection_cases hplan
  have hc := Connectable.of_rejection? hs hrejection
  rcases hcases with ⟨hkind, rfl⟩ | ⟨-, path, goal, rfl, rfl, hbranch⟩
  · rcases apply_plain_cases hs hc hkind with ⟨t, ht, hfree⟩ | ⟨htaken, hrefused⟩
    · refine Or.inl ⟨t, ht, ?_⟩
      rintro ⟨e, he, htaken⟩
      obtain rfl := List.mem_singleton.mp he
      cases hfree.symm.trans htaken
    · exact Or.inr ⟨_, List.mem_cons_self, htaken, hrefused⟩
  · obtain ⟨guard, group, suffix, hkind, hid, hguard, hgroup, -, rfl⟩ := planBranch_eq_some hbranch
    exact apply_branch_cases hs hc hkind hguard hgroup (idFor_ne_of_planned hid)

end Store

namespace Session

variable {σ : Type} {s : Session σ} {source target : String}

/-- A connect that is not repeated inside the window and that no rule rejects is planned with an edge whose id is
taken. -/
def Collides (s : Session σ) (source target : String) : Prop :=
  s.editor.isRepeat source target s.clock.now = false ∧
    ∃ plan rest, s.editor.store.planConnection source target s.tokens = .ok (plan, rest) ∧ s.editor.store.Clashes plan

/-- A connect returns edges, or names the rule that rejects it. -/
def Answers (s : Session σ) (source target : String) : Prop :=
  (∃ edges, (s.connect source target).1 = .ok edges) ∨
    ∃ reason, (s.connect source target).1 = .error (.rejected reason source target)

theorem commit_of_error (s : Session σ) (kind : Change) (ids : List String)
    (change : Store → Except EditFault Store) {f : EditFault} (h : change s.editor.store.copy = .error f) :
    s.commit kind ids change = (.error f, s) := by
  simp only [commit, Store.commit, Store.transact, h]

/-- A connect answers, or it collides and fails with the id that is taken. -/
theorem connect_cases (source target : String) (hs : s.editor.store.Grounded)
    (htokens : s.tokens.Distinct (s.editor.store.ids.length + s.editor.store.groups.length + 2)) :
    s.Answers source target ∧ ¬ s.Collides source target ∨
      s.Collides source target ∧ ∃ id, s.editor.store.hasEdge id = true ∧
        (s.connect source target).1 = .error (.graph (.duplicateEdge id)) := by
  cases hrepeat : s.editor.isRepeat source target s.clock.now with
  | true =>
    refine Or.inl ⟨Or.inl ⟨[], by simp only [connect, hrepeat, ↓reduceIte]⟩, fun hcollides => ?_⟩
    cases hrepeat.symm.trans hcollides.1
  | false =>
    cases hrejection : s.editor.store.rejection? source target with
    | some reason =>
      have hplan : s.editor.store.planConnection source target s.tokens = .error (.rejected reason) := by
        simp only [Store.planConnection, hrejection]
      refine Or.inl ⟨Or.inr ⟨reason, ?_⟩, ?_⟩
      · simp only [connect, hrepeat, Bool.false_eq_true, ↓reduceIte, hplan]
      · rintro ⟨-, plan, rest, hplanned, -⟩
        cases hplan.symm.trans hplanned
    | none =>
      have hc := Store.Connectable.of_rejection? hs.wellFormed hrejection
      obtain ⟨plan, rest, hplan⟩ := Store.exists_planConnection htokens hrejection hc.source_mem hc.target_mem
      let touched := [source, target] ++ plan.guard.toList.map (·.id)
      rcases Store.apply_planned_cases hs.wellFormed hplan with ⟨t, ht, hfree⟩ | ⟨e, he, htaken, hrefused⟩
      · obtain ⟨after, hcommit, -⟩ := commit_of_grounded { s with tokens := rest } .connect touched
          (fun draft => EditFault.ofStructure (plan.apply draft)) (EditFault.ofStructure_eq_ok_iff.mpr ht)
          (hs.apply_plan hplan hs.wellFormed.alike_copy ht)
        refine Or.inl ⟨Or.inl ⟨plan.edges, ?_⟩, ?_⟩
        · simp only [connect, hrepeat, Bool.false_eq_true, ↓reduceIte, hplan, touched, hcommit]
        · rintro ⟨-, other, left, hplanned, hclashes⟩
          cases hplan.symm.trans hplanned
          exact hfree hclashes
      · have hcommit := commit_of_error { s with tokens := rest } .connect touched
          (fun draft => EditFault.ofStructure (plan.apply draft)) (congrArg EditFault.ofStructure hrefused)
        refine Or.inr ⟨⟨hrepeat, plan, rest, hplan, e, he, htaken⟩, e.id, htaken, ?_⟩
        simp only [connect, hrepeat, Bool.false_eq_true, ↓reduceIte, hplan, touched, hcommit]

/-- A supply that never repeats a token does not after a run either. -/
theorem unrepeating_run (turns : List (Turn σ)) (s : Session σ) (h : s.tokens.Unrepeating) :
    (s.run turns).tokens.Unrepeating := by
  have hturn : ∀ (s : Session σ) (turn : Turn σ), s.tokens.Unrepeating → (s.turn turn).tokens.Unrepeating := by
    intro s turn h
    cases turn with
    | command c => exact (s.setting_perform c).2 h
    | meanwhile desk clock => exact h
  induction turns generalizing s with
  | nil => exact h
  | cons turn turns ih => exact ih (s.turn turn) (hturn s turn h)

/-- **A connect fails by a rule only exactly if it does not collide.** In every state that a run reaches from an editor
that can be made, fresh or on a document, with tokens that never repeat, a connect returns edges or names the rule that
rejects it exactly if no edge that is planned for it has the id of an edge that is there. Otherwise it fails because
that id is taken. -/
theorem run_answers_iff {e : Editor} (he : e.Made) (desk : Desk σ) (clock : Clock) {tokens : TokenSupply}
    (htokens : tokens.Unrepeating) (isHeard : Bool) (events : List Event) (turns : List (Turn σ))
    (source target : String) :
    ((run ⟨e, desk, clock, tokens, isHeard, events⟩ turns).Answers source target ↔
      ¬ (run ⟨e, desk, clock, tokens, isHeard, events⟩ turns).Collides source target) ∧
    ((run ⟨e, desk, clock, tokens, isHeard, events⟩ turns).Collides source target →
      ∃ id, (run ⟨e, desk, clock, tokens, isHeard, events⟩ turns).editor.store.hasEdge id = true ∧
        ((run ⟨e, desk, clock, tokens, isHeard, events⟩ turns).connect source target).1 =
          .error (.graph (.duplicateEdge id))) := by
  have hgrounded := grounded_run turns ⟨e, desk, clock, tokens, isHeard, events⟩ he.grounded.1
  have hdistinct := unrepeating_run turns ⟨e, desk, clock, tokens, isHeard, events⟩ htokens
  rcases connect_cases source target hgrounded (hdistinct _) with
    ⟨hanswers, hfree⟩ | ⟨hcollides, id, htaken, hfails⟩
  · exact ⟨iff_of_true hanswers hfree, fun hcollides => absurd hcollides hfree⟩
  · refine ⟨iff_of_false ?_ (not_not_intro hcollides), fun _ => ⟨id, htaken, hfails⟩⟩
    rintro (⟨edges, hok⟩ | ⟨reason, hrejected⟩)
    · cases hfails.symm.trans hok
    · cases hfails.symm.trans hrejected

end Session

/-! ## A document whose ids are read in two ways -/

/-- Two pairs of nodes whose ids come out the same when they are joined by a dash; one pair has its edge. -/
def Document.ambiguous (p : Point) : Document where
  formVersion := ""
  nodes := [
    ⟨startId, .start, p, [], none⟩,
    ⟨"start-a", .find, p, [], none⟩,
    ⟨"b", .find, p, [], none⟩,
    ⟨"a-b", .find, p, [], none⟩,
    ⟨finishId, .finish, p, [], none⟩]
  edges := [⟨none, "start-a", "b", none⟩]
  formFields := []
  objects := []

/-- The store of that document. -/
def Store.ambiguous (p : Point) : Store where
  nodes := [
    .unplaced startId (.default .start) p,
    .unplaced "start-a" (.default .find) p,
    .unplaced "b" (.default .find) p,
    .unplaced "a-b" (.default .find) p,
    .unplaced finishId (.default .finish) p]
  links := [⟨"estart-a-b", "start-a", "b", none⟩]
  index := [("estart-a-b", "start-a", "b")]

theorem Document.store_ambiguous (p : Point) : (Document.ambiguous p).store = .ok (Store.ambiguous p) := by
  cbv

theorem Store.checkStructure_ambiguous (p : Point) : (Store.ambiguous p).checkStructure = .ok () := by
  cbv

theorem Store.rejection?_ambiguous (p : Point) (place : String → Seating) :
    ((Store.ambiguous p).copy.placedAs place).rejection? startId "a-b" = none := by
  have hkind : ((Store.ambiguous p).copy.placedAs place).kind? startId = some .start := by cbv
  refine rejection?_of_plain ?_ ?_ (by decide) (by decide) (by decide) ?_ (by rw [hkind]; decide) ?_
  all_goals cbv

theorem Store.plan_ambiguous (p : Point) (place : String → Seating) (tokens : TokenSupply) :
    ((Store.ambiguous p).copy.placedAs place).planConnection startId "a-b" tokens =
      .ok (⟨[.plain startId "a-b"], none⟩, tokens) := by
  have hkind : ((Store.ambiguous p).copy.placedAs place).kind? startId = some .start := by cbv
  exact planConnection_of_plain (rejection?_ambiguous p place) (by cbv) (by cbv) (by rw [hkind]; decide) tokens

theorem Store.apply_ambiguous (p : Point) (place : String → Seating) :
    ConnectionPlan.apply ⟨[.plain startId "a-b"], none⟩ ((Store.ambiguous p).copy.placedAs place).copy =
      .error (.duplicateEdge "estart-a-b") := by
  cbv

namespace Session

/-- The document can be opened, and after a node was added two of its nodes are connected or the rule against it is
named exactly if that does not collide. -/
theorem answers_ambiguous :
    ∃ e, Editor.openOn (.ambiguous .origin) .zero false = .ok e ∧ (TokenSupply.ofList []).Unrepeating ∧
      ((run (alone e) [.command (.addNode .path .origin [])]).Answers startId "a-b" ↔
        ¬ (run (alone e) [.command (.addNode .path .origin [])]).Collides startId "a-b") ∧
      ((run (alone e) [.command (.addNode .path .origin [])]).Collides startId "a-b" →
        ∃ id, (run (alone e) [.command (.addNode .path .origin [])]).editor.store.hasEdge id = true ∧
          ((run (alone e) [.command (.addNode .path .origin [])]).connect startId "a-b").1 =
            .error (.graph (.duplicateEdge id))) := by
  obtain ⟨e, he, -⟩ := Editor.exists_openOn (Document.store_ambiguous .origin)
    (Store.checkStructure_ambiguous .origin) .zero false
  exact ⟨e, he, TokenSupply.distinct_numbered,
    run_answers_iff (Or.inr ⟨_, _, _, he⟩) _ _ TokenSupply.distinct_numbered _ _ _ _ _⟩

/-- **A connect that every rule allows can fail**: the id of its edge is taken by the edge of another pair. -/
theorem opened_collision :
    ∃ e, Editor.openOn (.ambiguous .origin) .zero false = .ok e ∧ e.store.rejection? startId "a-b" = none ∧
      ((alone e).connect startId "a-b").1 = .error (.graph (.duplicateEdge "estart-a-b")) := by
  obtain ⟨e, he, place, hplaced⟩ := Editor.exists_openOn (Document.store_ambiguous .origin)
    (Store.checkStructure_ambiguous .origin) .zero false
  have hlast : e.lastConnect = none := (Editor.Made.grounded (Or.inr ⟨_, _, _, he⟩)).2
  have hnew : (alone e).editor.isRepeat startId "a-b" (alone e).clock.now = false := by
    rw [Editor.isRepeat, show (alone e).editor.lastConnect = none from hlast]
  have hplan : (alone e).editor.store.planConnection startId "a-b" (alone e).tokens =
      .ok (⟨[.plain startId "a-b"], none⟩, (alone e).tokens) :=
    hplaced.symm ▸ Store.plan_ambiguous .origin place _
  have hrefused : ConnectionPlan.apply ⟨[.plain startId "a-b"], none⟩ (alone e).editor.store.copy =
      .error (.duplicateEdge "estart-a-b") :=
    hplaced.symm ▸ Store.apply_ambiguous .origin place
  have hcommit := commit_of_error { alone e with tokens := (alone e).tokens } .connect
    ([startId, "a-b"] ++ (none : Option Node).toList.map (·.id))
    (fun draft => EditFault.ofStructure (ConnectionPlan.apply ⟨[.plain startId "a-b"], none⟩ draft))
    (congrArg EditFault.ofStructure hrefused)
  refine ⟨e, he, hplaced.symm ▸ Store.rejection?_ambiguous .origin place, ?_⟩
  simp only [connect, hnew, Bool.false_eq_true, ↓reduceIte, hplan, hcommit]

end Session

end FormFlow
