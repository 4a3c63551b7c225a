import FormFlow.Proofs.WholeRuns
/-!
How many tokens a name takes.

A name is found by drawing tokens until the name built from one is not taken. `TokenSupply.Draws` says so of any number
of draws, and a supply that never repeats a token stops after one draw more than there are names
(`TokenSupply.Unrepeating.exists_draws`): among so many distinct tokens one builds a new name. So adding a node and
planning a branch always find their names, and draw no more tokens for them than there are nodes and edges, and one
(`names_found`).
-/

set_option autoImplicit false

namespace FormFlow

namespace TokenSupply

variable {build : String → String} {taken : List String} {t rest : TokenSupply} {count limit : Nat} {name : String}

/-- **Drawing until a name is free.** A token is drawn, and another one as long as the name built from it is taken. It
is counted how many are drawn. -/
inductive Draws (build : String → String) (taken : List String) :
    (t : TokenSupply) → (count : Nat) → (name : String) → (rest : TokenSupply) → Prop where
  | free {t : TokenSupply} : build t.draw.1 ∉ taken → Draws build taken t 1 (build t.draw.1) t.draw.2
  | taken {t rest : TokenSupply} {count : Nat} {name : String} : build t.draw.1 ∈ taken →
      Draws build taken t.draw.2 count name rest → Draws build taken t (count + 1) name rest

namespace Draws

theorem not_mem (h : Draws build taken t count name rest) : name ∉ taken := by
  induction h with
  | free hfree => exact hfree
  | taken _ _ ih => exact ih

/-- A search that may go on as long draws the same. -/
theorem search (h : Draws build taken t count name rest) (hle : count ≤ limit) :
    ∃ token, TokenSupply.search (fun token => !taken.contains (build token)) limit t = some (token, rest) ∧
      build token = name := by
  induction h generalizing limit with
  | @free t hfree =>
    obtain ⟨limit, rfl⟩ := Nat.exists_eq_add_of_le' hle
    exact ⟨t.draw.1, by simp [TokenSupply.search, hfree], rfl⟩
  | @taken t rest count name htaken _ ih =>
    obtain ⟨limit, rfl⟩ := Nat.exists_eq_add_of_le' (Nat.le_trans (Nat.le_add_left 1 count) hle)
    obtain ⟨token, hsearch, hname⟩ := ih (Nat.le_of_add_le_add_right hle)
    exact ⟨token, by simpa [TokenSupply.search, htaken] using hsearch, hname⟩

theorem freshName (h : Draws build taken t count name rest) (hle : count ≤ taken.length + 1) :
    t.freshName build taken = some (name, rest) := by
  have hlimit : count ≤ t.scripted.length + taken.length + 1 := by omega
  obtain ⟨token, hsearch, rfl⟩ := h.search hlimit
  rw [TokenSupply.freshName, hsearch]
  rfl

end Draws

/-- Drawing stops no later than at a token whose name is free. -/
theorem exists_draws_of_free {i : Nat} (h : build (t.nth i) ∉ taken) :
    ∃ count name rest, count ≤ i + 1 ∧ Draws build taken t count name rest := by
  induction i generalizing t with
  | zero => exact ⟨1, _, _, Nat.le_refl _, .free h⟩
  | succ i ih =>
    by_cases hfirst : build t.draw.1 ∈ taken
    · obtain ⟨count, name, rest, hle, hdraws⟩ := ih (t := t.draw.2) h
      exact ⟨count + 1, name, rest, Nat.succ_le_succ hle, .taken hfirst hdraws⟩
    · exact ⟨1, _, _, by omega, .free hfirst⟩

/-- **A supply that never repeats a token finds a free name**, with one draw more than there are names at most. -/
theorem Unrepeating.exists_draws (h : t.Unrepeating) (hbuild : Function.Injective build) (taken : List String) :
    ∃ count name rest, count ≤ taken.length + 1 ∧ Draws build taken t count name rest ∧
      t.freshName build taken = some (name, rest) := by
  obtain ⟨i, hi, hfree⟩ := Distinct.exists_free taken (h _) hbuild
  obtain ⟨count, name, rest, hle, hdraws⟩ := exists_draws_of_free hfree
  have hcount : count ≤ taken.length + 1 := Nat.le_trans hle hi
  exact ⟨count, name, rest, hcount, hdraws, hdraws.freshName hcount⟩

/-- Names with the same beginning differ in their tokens. -/
theorem append_injective (front : String) : Function.Injective fun token => front ++ token :=
  fun _ _ h => (String.append_right_inj front).mp h

end TokenSupply

open TokenSupply (Draws)

/-! ## Branches -/

namespace Store

variable {s : Store} {tokens : TokenSupply}

/-- **A branch out of a Path has names of its own**: no node has the id of the guard, and no edge is in the group. For
the id one token more is drawn than there are nodes, at most, and for the group one more than there are edges. -/
structure NamesBranch (s : Store) (path : String) (tokens : TokenSupply) (guard group : String)
    (rest : TokenSupply) : Prop where
  guard_new : s.hasNode guard = false
  group_new : ∀ e ∈ s.edges, e.group ≠ some group
  draws : ∃ forGuard forGroup between, forGuard ≤ s.nodes.length + 1 ∧ forGroup ≤ s.edges.length + 1 ∧
    Draws (fun t => path ++ "_cond_" ++ toString ((s.pathBranches path).length + 1) ++ "_" ++ t) s.ids tokens
      forGuard guard between ∧
    Draws (fun t => "branch_" ++ t) s.groups between forGroup group rest

theorem hasNode_eq_false_of_not_mem {id : String} (h : id ∉ s.ids) : s.hasNode id = false :=
  Bool.eq_false_iff.mpr fun hnode => h (hasNode_eq_true_iff.mp hnode)

theorem group_ne_of_not_mem {group : String} (h : group ∉ s.groups) : ∀ e ∈ s.edges, e.group ≠ some group :=
  fun e he hgroup => h (List.mem_filterMap.mpr ⟨e, he, hgroup⟩)

/-- A branch is always planned. -/
theorem exists_planBranch (ht : tokens.Unrepeating) (s : Store) (path goal : Node) :
    ∃ guard group rest, s.planBranch path goal tokens = some (branchPlan path.id goal.id guard group, rest) ∧
      s.NamesBranch path.id tokens guard.id group rest := by
  obtain ⟨forGuard, guardId, between, hforGuard, hguard, hguardName⟩ := ht.exists_draws
    (TokenSupply.append_injective (path.id ++ "_cond_" ++ toString ((s.pathBranches path.id).length + 1) ++ "_")) s.ids
  obtain ⟨forGroup, group, rest, hforGroup, hgroup, hgroupName⟩ :=
    (ht.freshName hguardName).exists_draws (TokenSupply.append_injective "branch_") s.groups
  have hids : s.ids.length = s.nodes.length := List.length_map _
  have hgroups : s.groups.length ≤ s.edges.length := List.length_filterMap_le _ _
  refine ⟨.unplaced guardId (.condition ⟨.rules, "", .empty, some path.id, some goal.id⟩)
    (path.position.midpoint goal.position), group, rest, ?_, hasNode_eq_false_of_not_mem hguard.not_mem,
    group_ne_of_not_mem hgroup.not_mem,
    ⟨forGuard, forGroup, between, hids ▸ hforGuard, Nat.le_trans hforGroup (Nat.succ_le_succ hgroups), hguard, hgroup⟩⟩
  simp only [planBranch, hguardName, hgroupName, Option.bind_eq_bind, Option.bind_some, Option.pure_def]
  rfl

theorem hasNode_of_rejection?_eq_none {source target : String} (h : s.rejection? source target = none) :
    s.hasNode source = true ∧ s.hasNode target = true := by
  simp only [rejection?, ite_some_eq_none_iff, Bool.not_eq_true', Bool.not_eq_false] at h
  exact ⟨h.1, h.2.1⟩

/-- **Planning a connection ends.** If no rule forbids it, it is planned: as a single edge, which takes no name, or for
a Path as a branch with names of its own. -/
structure EndsPlanning (s : Store) (source target : String) (tokens : TokenSupply) : Prop where
  rejected : ∀ reason, s.rejection? source target = some reason →
    s.planConnection source target tokens = .error (.rejected reason)
  plain : s.rejection? source target = none → s.kind? source ≠ some .path →
    s.planConnection source target tokens = .ok (⟨[Edge.plain source target], none⟩, tokens)
  branch : s.rejection? source target = none → s.kind? source = some .path → ∃ guard group rest,
    s.planConnection source target tokens = .ok (branchPlan source target guard group, rest) ∧
      s.NamesBranch source tokens guard.id group rest

/-- With tokens that never repeat, planning ends whatever the nodes are. -/
theorem endsPlanning (ht : tokens.Unrepeating) (s : Store) (source target : String) :
    s.EndsPlanning source target tokens where
  rejected reason h := by simp only [planConnection, h]
  plain h hkind := by
    obtain ⟨hsource, htarget⟩ := hasNode_of_rejection?_eq_none h
    exact planConnection_of_plain h hsource htarget hkind tokens
  branch h hkind := by
    obtain ⟨path, hpath, hbranches⟩ := kind?_eq_some_iff.mp hkind
    obtain ⟨goal, hgoal⟩ := exists_node? (hasNode_eq_true_iff.mp (hasNode_of_rejection?_eq_none h).2)
    obtain ⟨-, rfl⟩ := mem_of_node? hpath
    obtain ⟨-, rfl⟩ := mem_of_node? hgoal
    obtain ⟨guard, group, rest, hplan, hnames⟩ := exists_planBranch ht s path goal
    exact ⟨guard, group, rest, by simp only [planConnection, h, hpath, hgoal, hbranches, if_true, hplan], hnames⟩

/-- A change of the graph fails for other reasons than a want of tokens. -/
theorem ne_tokensExhausted_of_commit {change : Store → Except StructureFault Store} {f : EditFault}
    (h : s.commit (fun draft => EditFault.ofStructure (change draft)) = .error f) : f ≠ .tokensExhausted := by
  unfold commit transact at h
  rintro rfl
  cases hchange : change s.copy with
  | error f =>
    simp only [hchange, EditFault.ofStructure] at h
    cases h
  | ok changed =>
    simp only [hchange, EditFault.ofStructure] at h
    cases hplaced : (changed.repair s.loopReferences).1.recompute with
    | error f =>
      simp only [hplaced] at h
      cases h
    | ok placed =>
      simp only [hplaced] at h
      cases h

end Store

/-! ## Nodes -/

namespace Session

variable {σ : Type} {s : Session σ}

/-- **A node that is added has a name of its own**: no node had the id. For the id one token more is drawn than there
are nodes, at most, whether or not the node is added in the end; and it is not for want of tokens that it is not. -/
structure NamesNode (s : Session σ) (kind : Kind) (done : Except EditFault Node × Session σ) (count : Nat)
    (id : String) : Prop where
  count_le : count ≤ s.editor.store.nodes.length + 1
  draws : Draws (fun t => kind.code ++ "_" ++ t) s.editor.store.ids s.tokens count id done.2.tokens
  id_new : s.editor.store.hasNode id = false
  id_eq : ∀ n, done.1 = .ok n → n.id = id
  found : done.1 ≠ .error .tokensExhausted

theorem fault_of_commit {after : Session σ} {kind : Change} {ids : List String}
    {change : Store → Except EditFault Store} {f : EditFault} (h : s.commit kind ids change = (.error f, after)) :
    s.editor.store.commit change = .error f := by
  unfold commit at h
  split at h
  · next hcommit =>
    cases h
    exact hcommit
  · cases h

/-- With a name, adding a node uses the tokens that the name took, and gives a node of that name or fails for another
reason than a want of tokens. -/
theorem addNode_of_freshName {kind : Kind} (hk : kind.isSentinel = false) {id : String} {rest : TokenSupply}
    (hname : s.tokens.freshName (fun t => kind.code ++ "_" ++ t) s.editor.store.ids = some (id, rest))
    (position : Point) (config : Members) :
    (s.addNode kind position config).2.tokens = rest ∧
      (∀ n, (s.addNode kind position config).1 = .ok n → n.id = id) ∧
      (s.addNode kind position config).1 ≠ .error .tokensExhausted := by
  cases hparse : Config.parse kind config with
  | error f =>
    have hdone : s.addNode kind position config = (.error (.config id f), { s with tokens := rest }) := by
      simp only [addNode, hk, hname, hparse, Bool.false_eq_true, ↓reduceIte]
    rw [hdone]
    refine ⟨rfl, fun n hn => ?_, fun hf => ?_⟩
    · cases hn
    · cases hf
  | ok c =>
    rcases hcommit : commit { s with tokens := rest } .addNode [id]
      (fun draft => EditFault.ofStructure (draft.addNode (.unplaced id c position))) with ⟨f | ⟨⟩, after⟩
    · have hdone : s.addNode kind position config = (.error f, after) := by
        simp only [addNode, hk, hname, hparse, hcommit, Bool.false_eq_true, ↓reduceIte]
      have hfound := Store.ne_tokensExhausted_of_commit (fault_of_commit hcommit)
      rw [hdone]
      refine ⟨(sameSetting_of_commit hcommit).tokens, fun n hn => ?_, fun hf => hfound (Except.error.inj hf)⟩
      cases hn
    · have hdone : s.addNode kind position config =
          (EditFault.ofStructure (after.editor.store.node id),
            after.note (.debug "node_added" [("node_id", .text id), ("kind", .text kind.code)])) := by
        simp only [addNode, hk, hname, hparse, hcommit, Bool.false_eq_true, ↓reduceIte]
        rfl
      rw [hdone]
      refine ⟨(sameSetting_of_commit hcommit).tokens, fun n hn => ?_, ?_⟩
      · exact (Store.mem_of_node? (Store.node_eq_ok_iff.mp (EditFault.ofStructure_eq_ok_iff.mp hn))).2
      · cases after.editor.store.node id <;> simp [EditFault.ofStructure]

/-- A node that is no sentinel finds a name. -/
theorem exists_namesNode (hs : s.tokens.Unrepeating) {kind : Kind} (hk : kind.isSentinel = false) (position : Point)
    (config : Members) : ∃ count id, s.NamesNode kind (s.addNode kind position config) count id := by
  obtain ⟨count, id, rest, hcount, hdraws, hname⟩ :=
    hs.exists_draws (TokenSupply.append_injective (kind.code ++ "_")) s.editor.store.ids
  obtain ⟨hrest, hid, hfound⟩ := addNode_of_freshName hk hname position config
  have hids : s.editor.store.ids.length = s.editor.store.nodes.length := List.length_map _
  exact ⟨count, id, hids ▸ hcount, hrest.symm ▸ hdraws, Store.hasNode_eq_false_of_not_mem hdraws.not_mem, hid, hfound⟩

/-- A sentinel takes no name: it is not added. -/
theorem addNode_of_isSentinel {kind : Kind} (hk : kind.isSentinel = true) (position : Point) (config : Members) :
    s.addNode kind position config = (.error (.graph (.sentinelAdded kind)), s) := by
  simp only [addNode, hk, if_true]

end Session

/-! ## Names -/

/-- **Names are found, and they are new.** With tokens that never repeat, adding a node to any session finds it an id
that no node of the store has, and planning a branch in any store finds an id for its guard that no node has, and a
group that no edge is in. No more tokens are drawn for an id than there are nodes, and one, and no more for a group than
there are edges, and one. What takes no name draws none. -/
theorem names_found {σ : Type} {tokens : TokenSupply} (ht : tokens.Unrepeating) :
    (∀ (s : Session σ) (kind : Kind) (position : Point) (config : Members), s.tokens = tokens →
      (kind.isSentinel = true → (s.addNode kind position config).2.tokens = tokens) ∧
        (kind.isSentinel = false → ∃ count id, s.NamesNode kind (s.addNode kind position config) count id)) ∧
      ∀ (s : Store) (source target : String), s.EndsPlanning source target tokens := by
  refine ⟨fun s kind position config hs => ⟨fun hk => ?_, fun hk => ?_⟩, fun s source target => ?_⟩
  · rw [Session.addNode_of_isSentinel hk, hs]
  · exact Session.exists_namesNode (hs ▸ ht) hk position config
  · exact Store.endsPlanning ht s source target

/-! ## Names that are taken -/

/-- A workflow in which ids and a group are taken that numbered tokens come to first. -/
def Store.crowded (p : Point) : Store where
  nodes := [
    .unplaced startId (.default .start) p,
    .unplaced "p" .path p,
    .unplaced "p_cond_1_00000001" (.default .find) p,
    .unplaced "find_00000001" (.default .find) p,
    .unplaced finishId (.default .finish) p]
  links := [⟨"e", "find_00000001", finishId, some "branch_00000003"⟩]
  index := [("e", "find_00000001", finishId)]

namespace Store

variable (p : Point)

theorem rejection?_crowded : (crowded p).rejection? "p" finishId = none := by
  have hout : (crowded p).outgoing "p" = [] := by cbv
  refine rejection?_of_path (by cbv) (by cbv) (by decide) (by decide) (by decide) (by cbv) (by cbv) (by cbv) ?_
  rw [hout]
  decide

theorem kind?_crowded : (crowded p).kind? "p" = some .path := by cbv

theorem hasNode_crowded : ∀ id ∈ ["p_cond_1_00000001", "find_00000001"], (crowded p).hasNode id = true := by
  intro id hid
  simp only [List.mem_cons, List.not_mem_nil, or_false] at hid
  rcases hid with rfl | rfl <;> cbv

theorem exists_edge_crowded : ∃ e ∈ (crowded p).edges, e.group = some "branch_00000003" := by
  have hedges : (crowded p).edges = [⟨"e", "find_00000001", finishId, some "branch_00000003"⟩] := by cbv
  exact ⟨_, hedges ▸ List.mem_singleton_self _, rfl⟩

end Store

/-- In that workflow a Find and a branch find other names. -/
theorem names_found_crowded :
    (TokenSupply.ofList []).Unrepeating ∧
      (∃ count id, (Session.alone (.onStore (.crowded .origin) [] .zero)).NamesNode .find
        ((Session.alone (.onStore (.crowded .origin) [] .zero)).addNode .find .origin []) count id ∧
          id ≠ "find_00000001") ∧
      ∃ guard group rest, (Store.crowded .origin).planConnection "p" finishId (.ofList []) =
          .ok (Store.branchPlan "p" finishId guard group, rest) ∧
        guard.id ≠ "p_cond_1_00000001" ∧ group ≠ "branch_00000003" := by
  have htokens : (TokenSupply.ofList []).Unrepeating := TokenSupply.distinct_numbered
  obtain ⟨hnodes, hplans⟩ := names_found (σ := Unit) htokens
  obtain ⟨count, id, hnames⟩ := (hnodes (.alone (.onStore (.crowded .origin) [] .zero)) .find .origin [] rfl).2 rfl
  obtain ⟨guard, group, rest, hplan, hbranch⟩ :=
    (hplans (.crowded .origin) "p" finishId).branch (Store.rejection?_crowded _) (Store.kind?_crowded _)
  refine ⟨htokens, ⟨count, id, hnames, ?_⟩, guard, group, rest, hplan, ?_, ?_⟩
  · rintro rfl
    have hnew : (Store.crowded .origin).hasNode "find_00000001" = false := hnames.id_new
    rw [Store.hasNode_crowded _ _ (by simp)] at hnew
    cases hnew
  · intro hguard
    have hnew := hbranch.guard_new
    rw [hguard, Store.hasNode_crowded _ _ (by simp)] at hnew
    cases hnew
  · rintro rfl
    obtain ⟨e, he, hgroup⟩ := Store.exists_edge_crowded .origin
    exact hbranch.group_new e he hgroup

end FormFlow
