import FormFlow.Proofs.Stranding
/-!
When runs keep branches whole.

The branches of every state are whole exactly as long as no command of the run strands a guard (`fresh_whole_iff`).
There are runs that strand one: a Path is connected to the end, then to the guard of that branch, and the first branch
is removed again (`fresh_crossing`).
-/

set_option autoImplicit false

namespace FormFlow

namespace Session

open Store (Strands)

variable {σ : Type} {t : Store}

/-! ## Runs -/

/-- The commands of a run strand no guard: none of them does in the state that it meets. -/
def StrandsNothing (s : Session σ) (turns : List (Turn σ)) : Prop :=
  ∀ past c, past ++ [.command c] <+: turns →
    ¬ (s.run past).editor.store.Strands (c.taken (s.run past).editor.store)

/-- Every state of a run has whole branches exactly if the run strands nothing. -/
theorem whole_run_iff (s : Session σ) (h : s.editor.store.Committed) (hw : s.editor.store.Whole)
    (turns : List (Turn σ)) :
    (∀ past, past <+: turns → (s.run past).editor.store.Whole) ↔ s.StrandsNothing turns := by
  refine run_iff (P := fun e => e.store.Whole) (B := fun s c => s.editor.store.Strands (c.taken s.editor.store)) hw
    fun past c hpast => ?_
  exact whole_perform_iff _ (committed_run past s h).regular hpast c

/-- **The branches of every state are whole exactly if no command strands a guard.** A fresh editor can be made, and a
run from it, in whatever session and with whatever tokens, keeps all branches whole and the check content in every
state exactly if none of its commands takes away what a branch goes on to and leaves the guard of that branch. -/
theorem fresh_whole_iff (form : List FormField) (window : Seconds) :
    ∃ e, Editor.fresh form window = .ok e ∧
      ∀ (desk : Desk σ) (clock : Clock) (tokens : TokenSupply) (isHeard : Bool) (events : List Event)
        (turns : List (Turn σ)),
        (∀ past, past <+: turns →
          (run ⟨e, desk, clock, tokens, isHeard, events⟩ past).editor.store.Whole ∧
          (run ⟨e, desk, clock, tokens, isHeard, events⟩ past).editor.store.checkStructure = .ok ()) ↔
        StrandsNothing ⟨e, desk, clock, tokens, isHeard, events⟩ turns := by
  obtain ⟨e, he, hcommitted, hlinks⟩ := exists_fresh form window
  refine ⟨e, he, fun desk clock tokens isHeard events turns => ?_⟩
  rw [← whole_run_iff ⟨e, desk, clock, tokens, isHeard, events⟩ hcommitted (Store.whole_of_links_nil hlinks) turns]
  refine forall_congr' fun past => imp_congr_right fun _ => and_iff_left_of_imp fun hpast => ?_
  exact (committed_run past _ hcommitted).regular.checkStructure_eq_ok_iff_whole.mpr hpast

/-! ## A run that strands a guard -/

/-- A commit that nobody hears and that repairs nothing changes the store alone. -/
theorem commit_unheard (s : Session σ) (h : s.isHeard = false) (kind : Change) (ids : List String)
    (change : Store → Except EditFault Store) (hchange : change s.editor.store.copy = .ok t) (ht : t.Regular)
    (hloops : t.loopReferences = []) :
    ∃ place, s.commit kind ids change =
      (.ok (), { s with editor := { s.editor with store := t.placedAs place } }) := by
  obtain ⟨u, hu, -⟩ := ht.wellFormed.exists_recompute ht.sound
  obtain ⟨place, rfl⟩ := ht.wellFormed.exists_placedAs ht.sound hu
  refine ⟨place, ?_⟩
  simp only [commit, Store.commit, Store.transact, hchange, Store.repair_of_no_references hloops, hu, List.foldl_nil,
    announce, h, Bool.false_eq_true, ↓reduceIte]

/-- A node without a configuration to read is added under a fresh name. -/
theorem exists_addNode (s : Session σ) (h : s.editor.store.Regular) (hheard : s.isHeard = false) {kind : Kind}
    (hk : kind.isSentinel = false) {id : String} {rest : TokenSupply}
    (hname : s.tokens.freshName (fun t => kind.code ++ "_" ++ t) s.editor.store.ids = some (id, rest))
    {config : Members} {c : Config} (hparse : Config.parse kind config = .ok c) (position : Point)
    (hadd : s.editor.store.copy.addNode (.unplaced id c position) = .ok t) (hloops : t.loopReferences = []) :
    ∃ place entry, (s.addNode kind position config).2 =
      { s with
        editor := { s.editor with store := t.placedAs place }
        tokens := rest
        desk := s.desk.note entry } := by
  have hkind : (Node.unplaced id c position).kind.isSentinel = false := by
    rw [← Config.parse_kind hparse] at hk
    exact hk
  have ht := (h.of_alike h.wellFormed.alike_copy).addNode hkind hadd
  obtain ⟨place, hcommit⟩ := commit_unheard { s with tokens := rest } hheard .addNode [id]
    (fun draft => EditFault.ofStructure (draft.addNode (.unplaced id c position)))
    (EditFault.ofStructure_eq_ok_iff.mpr hadd) ht hloops
  refine ⟨place, .debug "node_added" [("node_id", .text id), ("kind", .text kind.code)], ?_⟩
  simp only [addNode, hk, Bool.false_eq_true, ↓reduceIte, hname, hparse, hcommit]
  rfl

/-- A planned connection is made, and its edges are returned. -/
theorem exists_connect (s : Session σ) (h : s.editor.store.Regular) (hheard : s.isHeard = false)
    {source target : String} (hnew : s.editor.isRepeat source target s.clock.now = false) {plan : ConnectionPlan}
    {rest : TokenSupply} (hplan : s.editor.store.planConnection source target s.tokens = .ok (plan, rest))
    (happly : plan.apply s.editor.store.copy = .ok t) (hloops : t.loopReferences = []) :
    ∃ place entry, s.connect source target =
      (.ok plan.edges,
        { s with
          editor := { s.editor with store := t.placedAs place, lastConnect := some ⟨source, target, s.clock.now⟩ }
          tokens := rest
          desk := s.desk.note entry }) := by
  have ht := h.apply_plan hplan h.wellFormed.alike_copy happly
  obtain ⟨place, hcommit⟩ := commit_unheard { s with tokens := rest } hheard .connect
    ([source, target] ++ plan.guard.toList.map (·.id))
    (fun draft => EditFault.ofStructure (plan.apply draft))
    (EditFault.ofStructure_eq_ok_iff.mpr happly) ht hloops
  refine ⟨place, connectedEntry source target plan.guard, ?_⟩
  simp only [connect, hnew, Bool.false_eq_true, ↓reduceIte, hplan, hcommit]
  rfl

end Session

namespace Store

/-- The only Path of the run. -/
def solePath : String := "path_00000001"

/-- The guard of the branch that is drawn first. -/
def nearGuard : String := "path_00000001_cond_1_00000002"

/-- The guard of the branch that goes on to the first guard. -/
def farGuard : String := "path_00000001_cond_2_00000004"

def guardOn (id target : String) (position : Point) : Node :=
  .unplaced id (.condition ⟨.rules, "", .empty, some solePath, some target⟩) position

def branchOver (guard target group : String) : List Edge := [
  ⟨Edge.idFor solePath guard, solePath, guard, some group⟩,
  ⟨Edge.idFor guard target, guard, target, some group⟩]

/-- The sentinels, at any place. -/
def sentinelsAt (p q : Point) : Store :=
  { empty with nodes := [.unplaced startId (.default .start) p, .unplaced finishId (.default .finish) q] }

/-- The sentinels, the Path, guards and edges. -/
def aroundPath (p q r : Point) (guards : List Node) (links : List Edge) : Store where
  nodes := (sentinelsAt p q).nodes ++ [.unplaced solePath .path r] ++ guards
  links := links
  index := links.map fun e => (e.id, e.source, e.target)

def nearBranch : List Edge := branchOver nearGuard finishId "branch_00000003"

def farBranch : List Edge := branchOver farGuard nearGuard "branch_00000005"

def oneBranch (p q r near : Point) : Store := aroundPath p q r [guardOn nearGuard finishId near] nearBranch

def twoBranches (p q r near far : Point) : Store :=
  aroundPath p q r [guardOn nearGuard finishId near, guardOn farGuard nearGuard far] (nearBranch ++ farBranch)

/-- The supply of numbers after some were drawn. -/
def numbersFrom (drawn : Nat) : TokenSupply := ⟨[], TokenSupply.numbered, drawn⟩

variable (place : String → Seating)

-- The points of the canvas are variables all along: what is computed here does not look at them.

theorem exists_plan_near (p q r : Point) :
    ∃ near, ((aroundPath p q r [] []).placedAs place).planConnection solePath finishId (numbersFrom 1) =
      .ok (⟨nearBranch, some (guardOn nearGuard finishId near)⟩, numbersFrom 3) := by
  have hout : ((aroundPath p q r [] []).placedAs place).outgoing solePath = [] := by cbv
  have hrejection : ((aroundPath p q r [] []).placedAs place).rejection? solePath finishId = none := by
    refine rejection?_of_path (by cbv) (by cbv) (by decide) (by decide) (by decide) (by cbv) (by cbv) (by cbv) ?_
    rw [hout]
    decide
  have hguard : (numbersFrom 1).freshName (fun t => solePath ++ "_cond_" ++ toString 1 ++ "_" ++ t)
      ((aroundPath p q r [] []).placedAs place).ids = some (nearGuard, numbersFrom 2) := by
    cbv
  exact planConnection_of_path hrejection (by cbv) (by cbv) (by cbv) hguard (by cbv)

theorem exists_plan_far (p q r near : Point) :
    ∃ far, ((oneBranch p q r near).placedAs place).planConnection solePath nearGuard (numbersFrom 3) =
      .ok (⟨farBranch, some (guardOn farGuard nearGuard far)⟩, numbersFrom 5) := by
  have hout : (((oneBranch p q r near).placedAs place).outgoing solePath).length = 1 := by cbv
  have hrejection : ((oneBranch p q r near).placedAs place).rejection? solePath nearGuard = none := by
    refine rejection?_of_path (by cbv) (by cbv) (by decide) (by decide) (by decide) (by cbv) (by cbv) (by cbv) ?_
    rw [hout]
    decide
  have hguard : (numbersFrom 3).freshName (fun t => solePath ++ "_cond_" ++ toString 2 ++ "_" ++ t)
      ((oneBranch p q r near).placedAs place).ids = some (farGuard, numbersFrom 4) := by
    cbv
  exact planConnection_of_path hrejection (by cbv) (by cbv) (by cbv) hguard (by cbv)

theorem exists_apply_near (p q r near : Point) :
    ∃ t, ConnectionPlan.apply ⟨nearBranch, some (guardOn nearGuard finishId near)⟩
        ((aroundPath p q r [] []).placedAs place).copy = .ok t ∧
      t.loopReferences = [] ∧ ∀ placed, t.placedAs placed = (oneBranch p q r near).placedAs placed := by
  refine ⟨_, apply_branch_of_ok (addNode_of_new ?_) (addEdge_of_new ?_ ?_ ?_ ?_) (addEdge_of_new ?_ ?_ ?_ ?_), ?_,
    fun placed => ?_⟩
  all_goals cbv

theorem exists_apply_far (p q r near far : Point) :
    ∃ t, ConnectionPlan.apply ⟨farBranch, some (guardOn farGuard nearGuard far)⟩
        ((oneBranch p q r near).placedAs place).copy = .ok t ∧
      t.loopReferences = [] ∧ ∀ placed, t.placedAs placed = (twoBranches p q r near far).placedAs placed := by
  refine ⟨_, apply_branch_of_ok (addNode_of_new ?_) (addEdge_of_new ?_ ?_ ?_ ?_) (addEdge_of_new ?_ ?_ ?_ ?_), ?_,
    fun placed => ?_⟩
  all_goals cbv

theorem exists_addNode_path (p q r : Point) :
    ∃ t, ((sentinelsAt p q).placedAs place).copy.addNode (.unplaced solePath .path r) = .ok t ∧
      t.loopReferences = [] ∧ ∀ placed, t.placedAs placed = (aroundPath p q r [] []).placedAs placed := by
  refine ⟨_, addNode_of_new ?_, ?_, fun placed => ?_⟩
  all_goals cbv

/-- Removing the first branch takes away the guard that the second one goes on to. -/
theorem strands_twoBranches (p q r near far : Point) :
    ((twoBranches p q r near far).placedAs place).Strands
      (Session.Command.taken ((twoBranches p q r near far).placedAs place)
        (.disconnect (Edge.idFor solePath nearGuard))) := by
  have htaken : Session.Command.taken ((twoBranches p q r near far).placedAs place)
      (.disconnect (Edge.idFor solePath nearGuard)) = [nearGuard] := by
    cbv
  rw [htaken]
  exact ⟨⟨Edge.idFor farGuard nearGuard, farGuard, nearGuard, some "branch_00000005"⟩,
    List.mem_append_right nearBranch (List.mem_cons_of_mem _ List.mem_cons_self), Option.some_ne_none _, by cbv,
    by decide, by decide⟩

end Store

namespace Session

/-- A Path is connected to the end and then to the guard of that branch, which is removed. -/
def crossing : List (Turn Unit) := [
  .command (.addNode .path .origin []),
  .command (.connect Store.solePath finishId),
  .command (.connect Store.solePath Store.nearGuard),
  .command (.disconnect (Edge.idFor Store.solePath Store.nearGuard))]

/-- A session with an editor and nothing else. -/
def alone (e : Editor) : Session Unit := ⟨e, .fresh .absent (), ⟨.whole 1000⟩, .ofList [], false, []⟩

/-- A session of the run before its last command: nobody listens, and the store is known but for its placements. -/
structure Stands (s : Session Unit) (store : Store) (last : Option (String × String)) (drawn : Nat) : Prop where
  committed : s.editor.store.Committed
  whole : s.editor.store.Whole
  unheard : s.isHeard = false
  placed : ∃ place, s.editor.store = store.placedAs place
  last_eq : (s.editor.lastConnect.map fun c => (c.source, c.target)) = last
  tokens_eq : s.tokens = Store.numbersFrom drawn

variable {s : Session Unit} {p q r near : Point}

theorem Stands.of_perform {store store' : Store} {last last' : Option (String × String)} {drawn drawn' : Nat}
    (h : s.Stands store last drawn) (c : Command) (htaken : c.taken s.editor.store = [])
    (hunheard : (s.perform c).isHeard = false)
    (hplaced : ∃ place, (s.perform c).editor.store = store'.placedAs place)
    (hlast : ((s.perform c).editor.lastConnect.map fun c => (c.source, c.target)) = last')
    (htokens : (s.perform c).tokens = Store.numbersFrom drawn') :
    (s.perform c).Stands store' last' drawn' where
  committed := s.committed_turn (.command c) h.committed
  whole := (s.whole_perform_iff h.committed.regular h.whole c).mpr (htaken ▸ Store.not_strands_nil)
  unheard := hunheard
  placed := hplaced
  last_eq := hlast
  tokens_eq := htokens

theorem Stands.add_path (h : s.Stands (Store.sentinelsAt p q) none 0) :
    (s.perform (.addNode .path r [])).Stands (Store.aroundPath p q r [] []) none 1 := by
  obtain ⟨place, hstore⟩ := h.placed
  obtain ⟨t, hadd, hloops, hplaced⟩ := Store.exists_addNode_path place p q r
  have hname : s.tokens.freshName (fun t => Kind.path.code ++ "_" ++ t) s.editor.store.ids =
      some (Store.solePath, Store.numbersFrom 1) := by
    rw [h.tokens_eq, hstore]
    cbv
  have hparse : Config.parse .path [] = .ok .path := by cbv
  obtain ⟨placed, entry, hdone⟩ :=
    s.exists_addNode h.committed.regular h.unheard rfl hname hparse r (hstore ▸ hadd) hloops
  refine h.of_perform _ rfl ?_ ⟨placed, ?_⟩ ?_ ?_ <;> simp only [perform, hdone]
  · exact h.unheard
  · exact hplaced placed
  · exact h.last_eq

theorem Stands.connect_finish (h : s.Stands (Store.aroundPath p q r [] []) none 1) :
    (s.connect Store.solePath finishId).1 = .ok Store.nearBranch ∧
      ∃ near, (s.perform (.connect Store.solePath finishId)).Stands (Store.oneBranch p q r near)
        (some (Store.solePath, finishId)) 3 := by
  obtain ⟨place, hstore⟩ := h.placed
  obtain ⟨near, hplan⟩ := Store.exists_plan_near place p q r
  obtain ⟨t, happly, hloops, hplaced⟩ := Store.exists_apply_near place p q r near
  have hnew : s.editor.isRepeat Store.solePath finishId s.clock.now = false := by
    rw [Editor.isRepeat, Option.map_eq_none_iff.mp h.last_eq]
  obtain ⟨placed, entry, hdone⟩ := s.exists_connect h.committed.regular h.unheard hnew
    (by rw [hstore, h.tokens_eq]; exact hplan) (hstore ▸ happly) hloops
  refine ⟨congrArg Prod.fst hdone, near, h.of_perform _ rfl ?_ ⟨placed, ?_⟩ ?_ ?_⟩ <;> simp only [perform, hdone]
  · exact h.unheard
  · exact hplaced placed
  · rfl

theorem Stands.connect_guard (h : s.Stands (Store.oneBranch p q r near) (some (Store.solePath, finishId)) 3) :
    ∃ far, (s.perform (.connect Store.solePath Store.nearGuard)).Stands (Store.twoBranches p q r near far)
      (some (Store.solePath, Store.nearGuard)) 5 := by
  obtain ⟨place, hstore⟩ := h.placed
  obtain ⟨far, hplan⟩ := Store.exists_plan_far place p q r near
  obtain ⟨t, happly, hloops, hplaced⟩ := Store.exists_apply_far place p q r near far
  have hnew : s.editor.isRepeat Store.solePath Store.nearGuard s.clock.now = false := by
    obtain ⟨c, hc, hends⟩ := Option.map_eq_some_iff.mp h.last_eq
    simp only [Editor.isRepeat, hc, (Prod.mk.inj hends).2]
    rw [show (finishId == Store.nearGuard) = false by decide, Bool.and_false, Bool.false_and]
  obtain ⟨placed, entry, hdone⟩ := s.exists_connect h.committed.regular h.unheard hnew
    (by rw [hstore, h.tokens_eq]; exact hplan) (hstore ▸ happly) hloops
  refine ⟨far, h.of_perform _ rfl ?_ ⟨placed, ?_⟩ ?_ ?_⟩ <;> simp only [perform, hdone]
  · exact h.unheard
  · exact hplaced placed
  · rfl

/-- A fresh editor is on the sentinels, placed. -/
theorem exists_fresh_sentinels (form : List FormField) (window : Seconds) :
    ∃ e place, Editor.fresh form window = .ok e ∧ e.store.Committed ∧
      e = .onStore ((Store.sentinelsAt .origin ⟨0.0, 400.0⟩).placedAs place) form window := by
  obtain ⟨u, hu, -⟩ := regular_withSentinels.wellFormed.exists_recompute regular_withSentinels.sound
  obtain ⟨place, rfl⟩ := regular_withSentinels.wellFormed.exists_placedAs regular_withSentinels.sound hu
  obtain ⟨e, hfresh, hcommitted, -⟩ := exists_fresh form window
  refine ⟨e, place, hfresh, hcommitted, ?_⟩
  rw [Editor.fresh, hu] at hfresh
  exact (Except.ok.inj hfresh).symm

/-- A run stands on the sentinels at first. -/
theorem exists_fresh_stands :
    ∃ e, Editor.fresh [] .zero = .ok e ∧ (alone e).Stands (Store.sentinelsAt .origin ⟨0.0, 400.0⟩) none 0 := by
  obtain ⟨e, place, hfresh, hcommitted, hstart⟩ := exists_fresh_sentinels [] .zero
  have hlinks : e.store.links = [] := hstart ▸ rfl
  exact ⟨e, hfresh, hcommitted, Store.whole_of_links_nil hlinks, rfl, ⟨place, congrArg Editor.store hstart⟩,
    hstart ▸ rfl, rfl⟩

/-- **A run from a fresh editor can strand a guard**, after which the check fails. -/
theorem fresh_crossing :
    ∃ e, Editor.fresh [] .zero = .ok e ∧ ¬ ((alone e).run crossing).editor.store.Whole ∧
      ((alone e).run crossing).editor.store.checkStructure ≠ .ok () := by
  obtain ⟨e, hfresh, hstart⟩ := exists_fresh_stands
  obtain ⟨-, near, hnear⟩ := (hstart.add_path (r := .origin)).connect_finish
  obtain ⟨far, hfar⟩ := hnear.connect_guard
  obtain ⟨place, hplaced⟩ := hfar.placed
  have hstrands := hplaced ▸ Store.strands_twoBranches place .origin _ .origin near far
  have hbroken : ¬ ((alone e).run crossing).editor.store.Whole := fun hwhole =>
    (whole_perform_iff _ hfar.committed.regular hfar.whole (.disconnect _)).mp hwhole hstrands
  have hregular := (committed_run crossing (alone e) hstart.committed).regular
  exact ⟨e, hfresh, hbroken, fun hcheck => hbroken (hregular.checkStructure_eq_ok_iff_whole.mp hcheck)⟩

end Session

end FormFlow
