import FormFlow.Proofs.Commands
/-!
Runs of an editor.

A run is any sequence of commands with any arguments, the failing ones included, between which the clock may move and
the desk may be used in any way. What every turn keeps, a run keeps (`run_induction`), and what commands keep or break
holds all along a run exactly if none of them breaks it (`run_iff`). Every store that a run reaches from a fresh editor
is committed: its graph is sound (`fresh_sound`) and its nodes hold their placements
(`recompute_idempotent_and_settled`).
-/

set_option autoImplicit false

namespace FormFlow.Session

/-- A turn of a session: a command, or whatever moves the clock and uses the desk in between. -/
inductive Turn (σ : Type) where
  | command (c : Command)
  | meanwhile (desk : Desk σ) (clock : Clock)

variable {σ : Type}

/-- The session after a command, whether it succeeds or fails. -/
def perform (s : Session σ) : Command → Session σ
  | .addNode kind position config => (s.addNode kind position config).2
  | .connect source target => (s.connect source target).2
  | .disconnect edge => (s.disconnect edge).2
  | .deleteNode node => (s.deleteNode node).2
  | .updateConfig node overlay => (s.updateConfig node overlay).2

/-- The session after a turn. -/
def turn (s : Session σ) : Turn σ → Session σ
  | .command c => s.perform c
  | .meanwhile desk clock => { s with desk := desk, clock := clock }

/-- The session after a sequence of turns. -/
def run (s : Session σ) (turns : List (Turn σ)) : Session σ := turns.foldl turn s

/-! ## One command -/

theorem attempt_snd (s : Session σ) (c : Command) : (s.attempt c).2 = s.perform c := by
  cases c with
  | addNode _ _ _ | connect _ _ | disconnect _ | deleteNode _ | updateConfig _ _ => rfl

/-- A command leaves the editor as it is, or succeeds and has its change adopted. -/
theorem perform_cases (s : Session σ) (c : Command) :
    (s.perform c).editor = s.editor ∨
      ∃ changed, s.Changes c changed ∧ s.Succeeds c ∧
        s.Adopts c.change (s.remembered c) changed (s.perform c) := by
  rw [← attempt_snd]
  cases s.attempt_outcome c with
  | fails f _ heditor _ => exact Or.inl heditor
  | ignored _ _ heditor _ => exact Or.inl heditor
  | adopted changed hchanges hsucceeds hadopts => exact Or.inr ⟨changed, hchanges, hsucceeds, hadopts⟩

/-- A command keeps the audience, and a supply that never repeats a token. -/
theorem setting_perform (s : Session σ) (c : Command) :
    (s.perform c).isHeard = s.isHeard ∧ (s.tokens.Unrepeating → (s.perform c).tokens.Unrepeating) := by
  -- What a session is committed from has the audience of the first one, and the tokens that are left to it.
  have hcommitted : ∀ {d after : Session σ} {kind : Change} {ids : List String}
      {change : Store → Except EditFault Store} {result : Except EditFault Unit},
      d.commit kind ids change = (result, after) → d.isHeard = s.isHeard →
      (s.tokens.Unrepeating → d.tokens.Unrepeating) →
      after.isHeard = s.isHeard ∧ (s.tokens.Unrepeating → after.tokens.Unrepeating) := by
    intro d after kind ids change result hcommit hheard htokens
    have hsetting := sameSetting_of_commit hcommit
    exact ⟨hsetting.isHeard.trans hheard, fun h => hsetting.tokens ▸ htokens h⟩
  cases c with
  | addNode kind position config =>
    simp only [perform, addNode]
    split
    · exact ⟨rfl, id⟩
    · split
      · exact ⟨rfl, id⟩
      · next name rest hname =>
        split
        · exact ⟨rfl, fun h => h.freshName hname⟩
        · split
          · next hcommit => exact (hcommitted hcommit rfl fun h => h.freshName hname :)
          · next hcommit => exact (hcommitted hcommit rfl fun h => h.freshName hname :)
  | connect source target =>
    simp only [perform, connect]
    split
    · exact ⟨rfl, id⟩
    · split
      · exact ⟨rfl, id⟩
      · exact ⟨rfl, id⟩
      · next plan rest hplan =>
        split
        · next hcommit => exact (hcommitted hcommit rfl fun h => Store.unrepeating_of_planConnection hplan h :)
        · next hcommit => exact (hcommitted hcommit rfl fun h => Store.unrepeating_of_planConnection hplan h :)
  | disconnect id =>
    simp only [perform, disconnect]
    split
    · exact ⟨rfl, fun h => h⟩
    · exact hcommitted rfl rfl fun h => h
  | deleteNode id =>
    simp only [perform, deleteNode]
    split
    · exact ⟨rfl, fun h => h⟩
    · split
      · exact ⟨rfl, fun h => h⟩
      · split
        · next hcommit => exact (hcommitted hcommit rfl fun h => h :)
        · next hcommit => exact (hcommitted hcommit rfl fun h => h :)
  | updateConfig id overlay =>
    simp only [perform, updateConfig]
    split
    · exact ⟨rfl, fun h => h⟩
    · split
      · exact ⟨rfl, fun h => h⟩
      · next c _ =>
        obtain ⟨desk, hdesk⟩ := s.exists_fetchChosen c.targetObject overlay
        split
        · next hfetch =>
          obtain rfl := (congrArg Prod.snd hfetch).symm.trans hdesk
          exact ⟨rfl, fun h => h⟩
        · next hfetch =>
          obtain rfl := (congrArg Prod.snd hfetch).symm.trans hdesk
          exact hcommitted rfl rfl fun h => h

/-- The second store is what a commit makes of the first by a change. -/
def Commits (change : Store → Except EditFault Store) (s u : Store) : Prop :=
  ∃ t, change s.copy = .ok t ∧ (t.repair s.loopReferences).1.recompute = .ok u

theorem addNode_store (s : Session σ) (kind : Kind) (position : Point) (config : Members) :
    (s.addNode kind position config).2.editor.store = s.editor.store ∨
      ∃ n : Node, n.kind.isSentinel = false ∧
        Commits (fun draft => EditFault.ofStructure (draft.addNode n)) s.editor.store
          (s.addNode kind position config).2.editor.store := by
  rcases s.perform_cases (.addNode kind position config) with hsame | ⟨t, hchanges, -, hadopts⟩
  · exact Or.inl (congrArg Editor.store hsame)
  · cases hchanges with
    | addNode hkind _ hparse hadd =>
      rw [← Config.parse_kind hparse] at hkind
      refine Or.inr ⟨_, ?_, t, EditFault.ofStructure_eq_ok_iff.mpr hadd, hadopts.placed⟩
      exact hkind

theorem connect_store (s : Session σ) (source target : String) :
    (s.connect source target).2.editor.store = s.editor.store ∨
      ∃ plan rest, s.editor.store.planConnection source target s.tokens = .ok (plan, rest) ∧
        Commits (fun draft => EditFault.ofStructure (plan.apply draft)) s.editor.store
          (s.connect source target).2.editor.store := by
  rcases s.perform_cases (.connect source target) with hsame | ⟨t, hchanges, -, hadopts⟩
  · exact Or.inl (congrArg Editor.store hsame)
  · cases hchanges with
    | connect _ hplan happly =>
      exact Or.inr ⟨_, _, hplan, t, EditFault.ofStructure_eq_ok_iff.mpr happly, hadopts.placed⟩

theorem disconnect_store (s : Session σ) (id : String) :
    (s.disconnect id).2.editor.store = s.editor.store ∨
      ∃ e, s.editor.store.edge? id = some e ∧
        Commits (fun draft => draft.disconnected e) s.editor.store (s.disconnect id).2.editor.store := by
  rcases s.perform_cases (.disconnect id) with hsame | ⟨t, hchanges, -, hadopts⟩
  · exact Or.inl (congrArg Editor.store hsame)
  · cases hchanges with
    | disconnect he hremoved => exact Or.inr ⟨_, he, t, hremoved, hadopts.placed⟩

theorem deleteNode_store (s : Session σ) (id : String) :
    (s.deleteNode id).2.editor.store = s.editor.store ∨
      ∃ n, s.editor.store.node? id = some n ∧ n.kind.isSentinel = false ∧
        Commits (fun draft => draft.deleted n) s.editor.store (s.deleteNode id).2.editor.store := by
  rcases s.perform_cases (.deleteNode id) with hsame | ⟨t, hchanges, -, hadopts⟩
  · exact Or.inl (congrArg Editor.store hsame)
  · cases hchanges with
    | deleteNode hn hkind hdeleted => exact Or.inr ⟨_, hn, hkind, t, hdeleted, hadopts.placed⟩

theorem updateConfig_store (s : Session σ) (id : String) (overlay : Members) :
    (s.updateConfig id overlay).2.editor.store = s.editor.store ∨
      ∃ c, Commits (fun draft => draft.reconfigured id c) s.editor.store
        (s.updateConfig id overlay).2.editor.store := by
  rcases s.perform_cases (.updateConfig id overlay) with hsame | ⟨t, hchanges, -, hadopts⟩
  · exact Or.inl (congrArg Editor.store hsame)
  · cases hchanges with
    | updateConfig _ _ _ hreconfigured => exact Or.inr ⟨_, t, hreconfigured, hadopts.placed⟩

/-- The change of a command is one of those that keep stores regular. -/
theorem Changes.edits {s : Session σ} {c : Command} {t : Store} (h : s.Changes c t) : Store.Edits s.editor.store t := by
  cases h with
  | addNode hkind _ hparse hadd =>
    rw [← Config.parse_kind hparse] at hkind
    refine .addNode ?_ hadd
    exact hkind
  | connect _ hplan happly => exact .connect hplan happly
  | disconnect he hremoved => exact .disconnect he hremoved
  | deleteNode hn hkind hdeleted => exact .deleteNode (Store.mem_of_node? hn).1 hkind hdeleted
  | updateConfig _ _ _ hreconfigured => exact .updateConfig hreconfigured

/-! ## Runs -/

/-- A turn leaves the editor as it is, or is a command that has its change adopted. -/
theorem turn_cases (s : Session σ) (turn : Turn σ) :
    (s.turn turn).editor = s.editor ∨
      ∃ c changed, turn = .command c ∧ s.Changes c changed ∧ s.Succeeds c ∧
        s.Adopts c.change (s.remembered c) changed (s.turn turn) := by
  cases turn with
  | command c => exact (s.perform_cases c).imp_right fun ⟨changed, h⟩ => ⟨c, changed, rfl, h⟩
  | meanwhile desk clock => exact Or.inl rfl

/-- What every turn keeps of the editor, a run keeps. -/
theorem run_induction {P : Editor → Prop} (hturn : ∀ (s : Session σ) turn, P s.editor → P (s.turn turn).editor)
    (turns : List (Turn σ)) (s : Session σ) (h : P s.editor) : P (s.run turns).editor := by
  induction turns generalizing s with
  | nil => exact h
  | cons turn turns ih => exact ih (s.turn turn) (hturn s turn h)

theorem run_concat (s : Session σ) (past : List (Turn σ)) (turn : Turn σ) :
    s.run (past ++ [turn]) = (s.run past).turn turn := by
  rw [run, List.foldl_append]
  rfl

/-- A property of editors that each command keeps or breaks holds in every state of a run exactly if no command of the
run breaks it in the state that it meets. -/
theorem run_iff {P : Editor → Prop} {B : Session σ → Command → Prop} {s : Session σ} {turns : List (Turn σ)}
    (hstart : P s.editor)
    (hstep : ∀ past c, P (s.run past).editor → (P ((s.run past).perform c).editor ↔ ¬ B (s.run past) c)) :
    (∀ past, past <+: turns → P (s.run past).editor) ↔
      ∀ past c, past ++ [.command c] <+: turns → ¬ B (s.run past) c := by
  constructor
  · intro hall past c hpast
    have hbefore := hall past ((List.prefix_append past [.command c]).trans hpast)
    have hafter := hall _ hpast
    rw [run_concat] at hafter
    exact (hstep past c hbefore).mp hafter
  · intro hnothing past
    induction past using List.reverseRecOn with
    | nil => exact fun _ => hstart
    | append_singleton past turn ih =>
      intro hpast
      have hbefore := ih ((List.prefix_append past [turn]).trans hpast)
      rw [run_concat]
      cases turn with
      | command c => exact (hstep past c hbefore).mpr (hnothing past c hpast)
      | meanwhile desk clock => exact hbefore

/-- **Every turn keeps the store committed.** -/
theorem committed_turn (s : Session σ) (turn : Turn σ) (h : s.editor.store.Committed) :
    (s.turn turn).editor.store.Committed := by
  rcases s.turn_cases turn with hsame | ⟨c, t, -, hchanges, -, hadopts⟩
  · exact hsame.symm ▸ h
  · exact (hchanges.edits.regular h.regular).committed hadopts.placed

/-- A run keeps the store committed. -/
theorem committed_run (turns : List (Turn σ)) (s : Session σ) (h : s.editor.store.Committed) :
    (s.run turns).editor.store.Committed :=
  run_induction (P := fun e => e.store.Committed) committed_turn turns s h

/-! ## Fresh editors -/

theorem links_withSentinels : Store.withSentinels.links = [] := rfl

/-- The store of the sentinels is regular. -/
theorem regular_withSentinels : Store.withSentinels.Regular := by
  have hids : Store.withSentinels.ids = [startId, finishId] := rfl
  have hwell : Store.withSentinels.WellFormed := ⟨by rw [hids]; decide, nofun, .nil⟩
  have hout : ∀ {id}, id ∈ Store.withSentinels.ids → Store.withSentinels.outgoing id = [] := fun hid => by
    rw [Store.outgoing_of_mem hid, links_withSentinels, List.filter_nil]
  refine ⟨hwell, ⟨.nil, .nil⟩, ⟨rfl, rfl, fun n hn _ => ?_, ?_, hout (by simp [hids]), ?_, fun n hn _ => ?_,
    fun n hn _ => ?_⟩, nofun⟩
  · have := Store.mem_ids_of_node hn
    simpa [hids] using this
  · rw [Store.incoming_of_mem (by simp [hids]), links_withSentinels, List.filter_nil]
  · refine Digraph.acyclic_of_rank (fun _ => 0) fun a ha => ?_
    obtain ⟨e, he, -⟩ := Store.mem_arcs_graph.mp ha
    cases he
  · simp [hout (Store.mem_ids_of_node hn)]
  · simp [hout (Store.mem_ids_of_node hn)]

/-- A fresh editor can always be made. Its store is committed and has no edges. -/
theorem exists_fresh (form : List FormField) (window : Seconds) :
    ∃ e, Editor.fresh form window = .ok e ∧ e.store.Committed ∧ e.store.links = [] := by
  obtain ⟨t, ht, hfixed⟩ := regular_withSentinels.wellFormed.exists_recompute regular_withSentinels.sound
  have halike := Store.alike_recompute ht
  exact ⟨_, by rw [Editor.fresh, ht], ⟨regular_withSentinels.of_alike halike, hfixed⟩,
    List.perm_nil.mp (links_withSentinels ▸ halike.links)⟩

/-- **The graph of every state is sound.** A fresh editor can be made, and from it every run of commands, in whatever
session and with whatever tokens, reaches sound stores only. -/
theorem fresh_sound (form : List FormField) (window : Seconds) :
    ∃ e, Editor.fresh form window = .ok e ∧
      ∀ (desk : Desk σ) (clock : Clock) (tokens : TokenSupply) (isHeard : Bool) (events : List Event)
        (turns : List (Turn σ)), (run ⟨e, desk, clock, tokens, isHeard, events⟩ turns).editor.store.Sound := by
  obtain ⟨e, he, hcommitted, -⟩ := exists_fresh form window
  exact ⟨e, he, fun desk clock tokens isHeard events turns =>
    (committed_run turns ⟨e, desk, clock, tokens, isHeard, events⟩ hcommitted).regular.sound⟩

/-- **Placing is idempotent, and the states of an editor are its fixpoints.** Placing a store that can be built and
that the check accepts a second time changes nothing. A fresh editor can be made, and every state that a run reaches
from it is settled. -/
theorem recompute_idempotent_and_settled :
    (∀ s : Store, s.Built → s.checkStructure = .ok () → ∃ t, s.recompute = .ok t ∧ t.recompute = .ok t) ∧
    ∀ (form : List FormField) (window : Seconds), ∃ e, Editor.fresh form window = .ok e ∧
      ∀ (desk : Desk σ) (clock : Clock) (tokens : TokenSupply) (isHeard : Bool) (events : List Event)
        (turns : List (Turn σ)), (run ⟨e, desk, clock, tokens, isHeard, events⟩ turns).editor.store.Settled := by
  refine ⟨fun s hbuilt hcheck => ?_, fun form window => ?_⟩
  · exact hbuilt.wellFormed.exists_recompute (Store.checkStructure_eq_ok_iff.mp hcheck).1
  · obtain ⟨e, he, hcommitted, -⟩ := exists_fresh form window
    refine ⟨e, he, fun desk clock tokens isHeard events turns => ?_⟩
    obtain ⟨hregular, hfixed⟩ := committed_run turns ⟨e, desk, clock, tokens, isHeard, events⟩ hcommitted
    exact hregular.wellFormed.settled hregular.sound hfixed

theorem recompute_withIsland_twice :
    (Store.withIsland .origin).Built ∧ (Store.withIsland .origin).checkStructure = .ok () ∧
      ∃ t, (Store.withIsland .origin).recompute = .ok t ∧ t.recompute = .ok t := by
  have hbuilt := Store.built_withIsland .origin
  have hcheck := Store.checkStructure_withIsland .origin
  exact ⟨hbuilt, hcheck, (recompute_idempotent_and_settled (σ := Unit)).1 _ hbuilt hcheck⟩

end FormFlow.Session
