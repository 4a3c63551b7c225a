import FormFlow.Proofs.Compiled
/-!
The condition groups of compiled records.

A record lists the complete rows of a group only, and an expression numbers all rows that are stored. The two fit
because a group is inspected under the same guard under which it is compiled (`Config.listsGroup`), and a group that
passes with an expression has complete rows only. So an expression in a record is one over the rows that the record
lists, or there is at most one row and no expression (`ConditionGroup.Kept`).
-/

set_option autoImplicit false

namespace FormFlow

/-! ## Blanks around an expression -/

namespace Text

theorem exists_trimBy (p : Char → Bool) (cs : List Char) :
    ∃ before after, cs = before ++ trimBy p cs ++ after ∧ (∀ c ∈ before, p c = true) ∧ ∀ c ∈ after, p c = true := by
  refine ⟨cs.takeWhile p, ((cs.dropWhile p).reverse.takeWhile p).reverse, ?_, fun c hc => List.mem_takeWhile_imp hc,
    fun c hc => List.mem_takeWhile_imp (List.mem_reverse.mp hc)⟩
  rw [trimBy, List.append_assoc, ← List.reverse_append, List.takeWhile_append_dropWhile, List.reverse_reverse,
    List.takeWhile_append_dropWhile]

theorem strip_of_isBlankText {s : String} (h : isBlankText s = true) : strip s = "" := by
  have hblank : s.toList.dropWhile isBlank = [] := List.dropWhile_eq_nil_iff.mpr (List.all_eq_true.mp h)
  rw [strip, trimBy, hblank]
  rfl

end Text

namespace Logic

variable {cs blanks : List Char} {ts : List Token}

theorem Token.IsLexeme.not_isBlank {t : Token} (h : t.IsLexeme) : ∀ c ∈ t.chars, Text.isBlank c = false := by
  cases t with
  | leftParen | rightParen => exact fun c hc => List.mem_singleton.mp hc ▸ by decide
  | number digits => exact fun c hc => (of_isDigit (h.2 c hc)).1
  | word letters => exact fun c hc => (of_isAlpha (h.2 c hc)).1
  | sign c => exact fun d hd => List.mem_singleton.mp hd ▸ h.1

/-- Blanks behind the rest of a text make no longer token at its front. -/
theorem Token.IsLongest.append_blanks {t : Token} {rest : List Char} (h : t.IsLongest rest)
    (hblanks : ∀ c ∈ blanks, Text.isBlank c = true) : t.IsLongest (rest ++ blanks) := by
  intro other hother hfront
  rw [← List.append_assoc] at hfront
  refine h other hother ?_
  rcases List.prefix_or_prefix_of_prefix hfront (List.prefix_append _ _) with hshort | ⟨behind, hlong⟩
  · exact hshort
  · rw [← hlong, List.prefix_append_right_inj] at hfront
    cases behind with
    | nil => exact ⟨[], by rw [← hlong, List.append_nil, List.append_nil]⟩
    | cons c behind =>
      have hc : c ∈ other.chars := hlong ▸ List.mem_append_right _ List.mem_cons_self
      have hblank := hblanks c (hfront.subset List.mem_cons_self)
      rw [hother.not_isBlank c hc] at hblank
      cases hblank

theorem Munches.append_blanks (h : Munches cs ts) (hblanks : ∀ c ∈ blanks, Text.isBlank c = true) :
    Munches (cs ++ blanks) ts := by
  induction h with
  | nil =>
    induction blanks with
    | nil => exact .nil
    | cons c blanks ih =>
      obtain ⟨hc, hrest⟩ := List.forall_mem_cons.mp hblanks
      exact .blank hc (ih hrest)
  | blank hc _ ih => exact .blank hc ih
  | token ht hlongest _ ih =>
    rw [List.append_assoc]
    exact .token ht (hlongest.append_blanks hblanks) ih

theorem Munches.blanks_append (h : Munches cs ts) (hblanks : ∀ c ∈ blanks, Text.isBlank c = true) :
    Munches (blanks ++ cs) ts := by
  induction blanks with
  | nil => exact h
  | cons c blanks ih =>
    obtain ⟨hc, hrest⟩ := List.forall_mem_cons.mp hblanks
    exact .blank hc (ih hrest)

/-- Blanks around a text are no tokens. -/
theorem tokens_strip (s : String) : tokens (Text.strip s).toList = tokens s.toList := by
  obtain ⟨before, after, hparts, hbefore, hafter⟩ := Text.exists_trimBy Text.isBlank s.toList
  have htrimmed := ((munches_tokens (Text.trimBy Text.isBlank s.toList)).blanks_append hbefore).append_blanks hafter
  rw [← hparts, munches_iff] at htrimmed
  rw [Text.strip, String.toList_ofList, htrimmed]

end Logic

/-! ## Groups -/

theorem Combinator.code_injective : Function.Injective Combinator.code := by
  intro a b h
  cases a <;> cases b <;> first | rfl | exact absurd h (by decide)

/-- A group with an expression stands in members as it is stored: all its rows in their order, and an expression over
their numbers. Only where there is no second row the expression may be empty. -/
structure ConditionGroup.Kept (g : ConditionGroup) (members : Members) : Prop where
  rows : Members.get? members "conditions" = some (.list (g.conditions.map Condition.toRecord))
  expression : ∃ text, Members.get? members "custom_logic" = some (.text text) ∧
    (text = "" ∧ g.conditions.length ≤ 1 ∨
      ∃ ts, Logic.Munches text.toList ts ∧ Logic.Derives g.conditions.length .expression ts)

namespace ConditionGroup

variable {g : ConditionGroup} {members : Members}

/-- The compiled group is a part of the members, and no member before it has a name of it. -/
def StandsIn (g : ConditionGroup) (members : Members) : Prop :=
  ∃ before after, members = before ++ g.toRecord ++ after ∧
    ∀ name ∈ ["conditions", "logic", "custom_logic"], Members.get? before name = none

theorem standsIn_of_parts (g : ConditionGroup) (before after : Members)
    (hconditions : Members.get? before "conditions" = none) (hlogic : Members.get? before "logic" = none)
    (hcustom : Members.get? before "custom_logic" = none) : g.StandsIn (before ++ g.toRecord ++ after) := by
  refine ⟨before, after, rfl, ?_⟩
  simp only [List.forall_mem_cons]
  exact ⟨hconditions, hlogic, hcustom, nofun⟩

theorem StandsIn.get? (h : g.StandsIn members) {name : String} {v : Value}
    (hname : name ∈ ["conditions", "logic", "custom_logic"]) (hv : Members.get? g.toRecord name = some v) :
    Members.get? members name = some v := by
  obtain ⟨before, after, rfl, hbefore⟩ := h
  have hnone := hbefore name hname
  rw [Members.get?] at hnone hv ⊢
  rw [List.lookup_append, List.lookup_append, hnone, Option.none_or, hv, Option.some_or]

/-- The logic that members name is that of the group. -/
theorem StandsIn.logic_eq (h : g.StandsIn members) {logic : Combinator}
    (hlogic : Members.get? members "logic" = some (.text logic.code)) : g.logic = logic := by
  have hsame : Members.get? members "logic" = some (.text g.logic.code) := h.get? (by decide) rfl
  exact Combinator.code_injective (Value.text.inj (Option.some.inj (hsame.symm.trans hlogic)))

/-- Rows of which none is reported are complete. -/
theorem complete_eq_of_incompleteFault {row : Nat} {rows : List Condition} (h : incompleteFault row rows = none) :
    rows.filter Condition.isComplete = rows := by
  induction rows generalizing row with
  | nil => rfl
  | cons c rows ih =>
    rw [incompleteFault] at h
    split at h
    · next hc => rw [List.filter_cons_of_pos hc, ih h]
    · cases h

theorem customFault_of_fault {isRequired : Bool} {types : Option (List (String × String))}
    (h : g.fault isRequired types = none) (hlogic : g.logic = .custom) : g.customFault = none := by
  unfold fault at h
  split at h
  · cases h
  · split at h
    · cases h
    · simpa only [if_pos hlogic] using h

/-- **A group without a fault is kept** wherever it stands. -/
theorem StandsIn.kept (h : g.StandsIn members) (hlogic : g.logic = .custom) (hfault : g.customFault = none) :
    g.Kept members := by
  unfold customFault at hfault
  split at hfault
  · cases hfault
  next hrows =>
  have hcomplete : g.complete = g.conditions := complete_eq_of_incompleteFault hrows
  constructor
  case rows =>
    rw [← hcomplete]
    exact h.get? (by decide) rfl
  case expression =>
    refine ⟨Text.strip g.customLogic, h.get? (by decide) (by rw [toRecord, if_pos hlogic]; rfl), ?_⟩
    split at hfault
    · next hblank =>
      split at hfault
      · cases hfault
      · next hlength => exact Or.inl ⟨Text.strip_of_isBlankText hblank, Nat.not_lt.mp hlength⟩
    · refine Or.inr ⟨_, Logic.munches_tokens _, ?_⟩
      rw [Logic.tokens_strip]
      exact Logic.check_eq_none_iff_derives.mp (Option.map_eq_none_iff.mp hfault)

end ConditionGroup

/-! ## Configurations -/

namespace Config

/-- The condition group of a configuration. -/
def group? : Config → Option ConditionGroup
  | createOrUpdate c => some c.conditions
  | find c => some c.conditions
  | filter c => some c.query.conditions
  | loop c => some c.exitConditions
  | condition c => some c.conditions
  | start | finish | formatter _ | path => none

/-- Whether the group counts: the conditions of a node that writes are enabled, a Loop has an exit condition that is
complete, and a guard decides by rules. -/
def listsGroup : Config → Bool
  | createOrUpdate c => c.enableConditions
  | loop c => !c.exitConditions.complete.isEmpty
  | condition c => c.branchMode = .rules
  | _ => true

end Config

/-- The members of a record that its condition group is compiled into: those of a record of their own for a Loop, else
those of the node. -/
def Record.groupMembers? (r : Record) : Option Members :=
  match r.kind with
  | .createOrUpdate | .find | .filter | .condition => some r.config
  | .loop =>
    match Members.get? r.config "exit_conditions" with
    | some (.record members) => some members
    | _ => none
  | .start | .finish | .formatter | .path => none

/-- The members of a query hold its group. -/
theorem FindConfig.standsIn (c : FindConfig) (rest : Members) : c.conditions.StandsIn (c.toRecord ++ rest) := by
  rw [toRecord, List.append_assoc, List.append_assoc]
  exact ConditionGroup.standsIn_of_parts c.conditions _ _ rfl rfl rfl

/-- The exit conditions of a Loop are a record of their own, if one of them is complete. -/
theorem get?_exitConditions (c : LoopConfig) :
    Members.get? (Config.loop c).toRecord "exit_conditions" =
      if c.exitConditions.complete.isEmpty then none else some (.record c.exitConditions.toRecord) := by
  simp only [Config.toRecord, Members.whenever, Members.get?, List.lookup_append]
  cases c.maxIterations <;> cases c.exitConditions.complete.isEmpty <;> by_cases hdescription : c.description = "" <;>
    simp [hdescription, List.lookup_cons]

/-- **Members with a logic hold the stored group**, and it counts. -/
theorem Config.standsIn_of_logic {c : Config} {r : Record} {members : Members} {v : Value} (hkind : r.kind = c.kind)
    (hconfig : r.config = c.toRecord) (hmembers : r.groupMembers? = some members)
    (hlogic : Members.get? members "logic" = some v) :
    ∃ g, c.group? = some g ∧ c.listsGroup = true ∧ g.StandsIn members := by
  rw [Record.groupMembers?, hkind, hconfig] at hmembers
  cases c with
  | start | finish | formatter _ | path => cases hmembers
  | createOrUpdate c =>
    obtain rfl := Option.some.inj hmembers
    cases henabled : c.enableConditions with
    | false =>
      rw [toRecord, henabled] at hlogic
      cases hlogic
    | true =>
      refine ⟨c.conditions, rfl, henabled, ?_⟩
      have h := c.conditions.standsIn_of_parts [("target_object", .text c.targetObject),
        ("field_mappings", .list ((c.mappings.filter FieldMapping.isComplete).map FieldMapping.toRecord)),
        ("enable_conditions", .bool true)] [] rfl rfl rfl
      rw [List.append_nil] at h
      rw [toRecord, henabled]
      exact h
  | find c =>
    obtain rfl := Option.some.inj hmembers
    have h := c.standsIn []
    rw [List.append_nil] at h
    exact ⟨c.conditions, rfl, rfl, h⟩
  | filter c =>
    obtain rfl := Option.some.inj hmembers
    exact ⟨c.query.conditions, rfl, rfl, c.query.standsIn _⟩
  | loop c =>
    simp only [kind, get?_exitConditions] at hmembers
    split at hmembers
    · next hsome =>
      split at hsome
      · cases hsome
      · next hlists =>
        cases hsome
        obtain rfl := Option.some.inj hmembers
        have h := c.exitConditions.standsIn_of_parts [] [] rfl rfl rfl
        rw [List.nil_append, List.append_nil] at h
        exact ⟨c.exitConditions, rfl, by simp [listsGroup, hlists], h⟩
    · cases hmembers
  | condition c =>
    obtain rfl := Option.some.inj hmembers
    by_cases hrules : c.branchMode = .rules
    · refine ⟨c.conditions, rfl, decide_eq_true hrules, ?_⟩
      rw [toRecord, Members.whenever, if_pos (decide_eq_true hrules), ← List.append_assoc]
      refine c.conditions.standsIn_of_parts _ _ ?_ ?_ ?_ <;>
      · rw [Members.whenever]
        split <;> rfl
    · rw [toRecord, Members.whenever, if_neg (by simpa using hrules), List.append_nil] at hlogic
      split at hlogic <;> cases hlogic

/-! ## Inspections -/

namespace Inspection

theorem fault_of_query {c : FindConfig} {fields : List FieldInfo} (h : query c fields = none) :
    ∃ isRequired types, c.conditions.fault isRequired types = none := by
  simp only [query, Option.orElse_eq_none, Option.map_eq_none_iff] at h
  exact ⟨_, _, h.1⟩

/-- A guard that decides by rules is judged with the types of an object or without. -/
theorem fault_of_guard {c : ConditionConfig} (h : (guard c).Passes) (hrules : c.branchMode = .rules) :
    ∃ isRequired types, c.conditions.fault isRequired types = none := by
  rw [guard, if_neg (not_not.mpr hrules)] at h
  split at h
  · exact ⟨_, _, Option.map_eq_none_iff.mp h⟩
  · obtain ⟨fields, hjudged⟩ := h
    exact ⟨_, _, Option.map_eq_none_iff.mp hjudged⟩

end Inspection

/-- **A group that counts and passes has no fault.** -/
theorem Store.fault_of_passes {s : Store} {form : List (String × FormField)} {n : Node} {g : ConditionGroup}
    (h : (s.inspect form n).Passes) (hgroup : n.config.group? = some g) (hlists : n.config.listsGroup = true) :
    ∃ isRequired types, g.fault isRequired types = none := by
  rw [inspect] at h
  cases hc : n.config with
  | start | finish | formatter _ | path =>
    rw [hc] at hgroup
    cases hgroup
  | createOrUpdate c =>
    rw [hc] at h hgroup hlists
    obtain rfl := Option.some.inj hgroup
    obtain ⟨fields, hjudged⟩ := Inspection.passes_ofObject h
    simp only [Inspection.writes, Option.orElse_eq_none] at hjudged
    obtain ⟨-, -, -, -, hconditions⟩ := hjudged
    have henabled : c.enableConditions = true := hlists
    rw [if_pos henabled, Option.map_eq_none_iff] at hconditions
    exact ⟨_, _, hconditions⟩
  | find c =>
    rw [hc] at h hgroup
    obtain rfl := Option.some.inj hgroup
    obtain ⟨fields, hjudged⟩ := Inspection.passes_ofObject h
    exact Inspection.fault_of_query hjudged
  | filter c =>
    rw [hc] at h hgroup
    obtain rfl := Option.some.inj hgroup
    obtain ⟨fields, hjudged⟩ := Inspection.passes_ofObject h
    exact Inspection.fault_of_query ((Option.orElse_eq_none _ _).mp hjudged).1
  | loop c =>
    rw [hc] at h hgroup
    obtain rfl := Option.some.inj hgroup
    have hjudged : Inspection.loop (s.findsBefore n.id) c = none := h
    simp only [Inspection.loop, Option.orElse_eq_none] at hjudged
    obtain ⟨-, -, -, hexits⟩ := hjudged
    exact ⟨_, _, Option.map_eq_none_iff.mp hexits⟩
  | condition c =>
    rw [hc] at h hgroup hlists
    obtain rfl := Option.some.inj hgroup
    exact Inspection.fault_of_guard h (of_decide_eq_true hlists)

/-! ## Sessions -/

namespace Session

variable {σ : Type} {s : Session σ} {records : List Record}

/-- **Expressions fit the rows that records list.** Whatever a session compiles to: a group of a record whose logic is
custom is kept as its node stores it. -/
theorem kept_of_compile (h : s.compile.1 = .ok records) {r : Record} (hr : r ∈ records) {members : Members}
    (hmembers : r.groupMembers? = some members)
    (hcustom : Members.get? members "logic" = some (.text Combinator.custom.code)) :
    ∃ n g, s.editor.store.node? r.nodeId = some n ∧ n.config.group? = some g ∧ g.Kept members := by
  obtain ⟨n, hn, hkind, hconfig, hpasses⟩ := exists_node_of_compile h hr
  obtain ⟨g, hgroup, hlists, hstands⟩ := Config.standsIn_of_logic hkind hconfig hmembers hcustom
  obtain ⟨isRequired, types, hfault⟩ := Store.fault_of_passes hpasses hgroup hlists
  have hlogic := hstands.logic_eq hcustom
  exact ⟨n, g, hn, hgroup, hstands.kept hlogic (ConditionGroup.customFault_of_fault hfault hlogic)⟩

/-- The exit conditions of a Loop, and the expression over both, are kept. -/
theorem kept_narrowing :
    ∃ e records, Editor.openOn (.narrowing .origin) .zero false = .ok e ∧ (informed e).compile.1 = .ok records ∧
      ∃ r ∈ records, ∃ members, r.groupMembers? = some members ∧
        Members.get? members "logic" = some (.text Combinator.custom.code) ∧
        ∃ n g, e.store.node? r.nodeId = some n ∧ n.config.group? = some g ∧ g.Kept members := by
  obtain ⟨e, records, place, he, hstore, hrecords⟩ := exists_compile_narrowing .origin .zero false
  have hgrounded := (Editor.sound_of_openOn he).2
  have hrecorded : e.store.Recorded records := recorded_of_compile hgrounded hrecords
  obtain ⟨n, hn, hconfig⟩ : ∃ n ∈ e.store.nodes, n.config = .loop .people := by
    rw [hstore]
    simp [Store.placedAs, Store.copy, Store.narrowing, Node.unplaced]
  obtain ⟨r, hr, -, hkind, hcompiled⟩ := hrecorded.exists_of_mem hgrounded.wellFormed hn
  have hmembers : r.groupMembers? = some LoopConfig.people.exitConditions.toRecord := by
    have hsome : LoopConfig.people.exitConditions.complete.isEmpty = false := by decide
    rw [Record.groupMembers?, hkind, hcompiled, Node.kind, hconfig]
    simp only [Config.kind, get?_exitConditions, hsome, Bool.false_eq_true, if_false]
  exact ⟨e, records, he, hrecords, r, hr, _, hmembers, rfl, kept_of_compile hrecords hr hmembers rfl⟩

end Session

end FormFlow
