import FormFlow.Proofs.Findings
import FormFlow.Proofs.Reconfigurations
import FormFlow.Proofs.Untouched
import FormFlow.Proofs.Verdicts
/-!
Operators after an object was chosen.

The types of fields by name are those of the fields by name, also where fields share one (`FieldInfo.typesByName_eq`),
so an update and a later check go by the same types. An update that chooses an object has its fields fetched and the
operators reconciled to them before it is committed (`Succeeds.exists_stored`). So the operators that it leaves are
offered, and until the node or the list changes a check objects to none of them (`updateConfig_offers`).
-/

set_option autoImplicit false

namespace FormFlow

/-! ## Tables of types -/

/-- The types by name are those of the fields by name: of two fields of one name both tables have the later one. -/
theorem FieldInfo.typesByName_eq (fields : List FieldInfo) :
    typesByName fields = (byName fields).map fun entry => (entry.1, entry.2.type) := by
  unfold typesByName byName
  rw [← Table.ofPairs_map_value, List.map_map]
  rfl

namespace Config

variable {c : Config} {g : ConditionGroup} {types : List (String × String)}

/-- Every row of the configuration whose field is among the fields has an operator that the field's type offers. -/
def OffersIn (c : Config) (fields : List FieldInfo) : Prop :=
  ∀ g, c.group? = some g → ∀ row ∈ g.conditions, ∀ f, (FieldInfo.byName fields).lookup row.field = some f →
    row.operator ∈ Operator.forType f.type

theorem offersIn_iff {fields : List FieldInfo} :
    c.OffersIn fields ↔
      ∀ g, c.group? = some g → ∀ row ∈ g.conditions, row.Offered (FieldInfo.typesByName fields) := by
  refine forall₂_congr fun g _ => forall₂_congr fun row _ => ?_
  unfold Condition.Offered
  rw [FieldInfo.typesByName_eq, Table.lookup_map_value]
  simp only [Option.map_eq_some_iff]
  constructor
  · rintro h _ ⟨f, hf, rfl⟩
    exact h f hf
  · exact fun h f hf => h _ ⟨f, hf, rfl⟩

theorem withoutCollection_of_targetObject (h : c.targetObject ≠ "") : c.withoutCollection = c := by
  cases c with
  | loop _ => exact absurd rfl h
  | start | finish | createOrUpdate _ | find _ | filter _ | formatter _ | condition _ | path => rfl

theorem targetObject_withoutCollection (c : Config) : c.withoutCollection.targetObject = c.targetObject := by
  cases c <;> rfl

theorem targetObject_reconcile (types : List (String × String)) (c : Config) :
    (c.reconcile types).targetObject = c.targetObject := by
  cases c <;> rfl

/-- Reconciling the configuration of a node that works on an object leaves operators that are offered. -/
theorem offered_of_reconcile (htarget : c.targetObject ≠ "") (hgroup : (c.reconcile types).group? = some g) :
    ∀ row ∈ g.conditions, row.Offered types := by
  cases c with
  | createOrUpdate _ | find _ | filter _ | condition _ =>
    obtain rfl := Option.some.inj hgroup
    exact ConditionGroup.offered_reconcile _ types
  | start | finish | loop _ | formatter _ | path => exact absurd rfl htarget

end Config

namespace Session

variable {σ : Type} {s : Session σ} {id : String} {overlay : Members}

/-! ## One update -/

theorem targetObject_reconciled (s : Session σ) (c : Config) : (s.reconciled c).targetObject = c.targetObject := by
  unfold reconciled
  split
  · rfl
  · split
    · exact c.targetObject_reconcile _
    · rfl

/-- What an update that succeeds stores: the merged configuration, reconciled after the object's fields were fetched,
which a Loop may lose its collection of. -/
theorem Succeeds.exists_stored (h : s.Succeeds (.updateConfig id overlay)) :
    ∃ n c fetched m, s.editor.store.node? id = some n ∧ n.config.merge overlay = .ok c ∧
      s.fetchChosen c.targetObject overlay = (.ok (), fetched) ∧
      (s.perform (.updateConfig id overlay)).desk.cache = fetched.desk.cache ∧
      (s.perform (.updateConfig id overlay)).editor.store.node? id = some m ∧
      ∀ n ∈ (s.perform (.updateConfig id overlay)).editor.store.nodes, n.id = id →
        n.config = fetched.reconciled c ∨ n.config = (fetched.reconciled c).withoutCollection := by
  have hattempt := s.attempt_snd (.updateConfig id overlay)
  cases s.attempt_outcome (.updateConfig id overlay) with
  | fails f hfail _ _ =>
    rw [Succeeds, hfail] at h
    cases h
  | ignored hrepeats _ _ _ => cases hrepeats
  | adopted changed hchanges _ hadopts =>
    rw [hattempt] at hadopts
    cases hchanges with
    | @updateConfig _ _ n c fetched _ hn hmerge hfetch hreconfigured =>
      obtain ⟨hid, hconfigured⟩ := Store.configured_of_reconfigured hreconfigured
      have hcache : (s.perform (.updateConfig id overlay)).desk.cache = fetched.desk.cache := by
        simp only [perform, updateConfig, Store.node_eq_ok_iff.mpr hn, hmerge, hfetch]
        exact cache_of_commit rfl
      have hthere : id ∈ (s.perform (.updateConfig id overlay)).editor.store.ids :=
        (Store.alike_of_repair hadopts.placed).ids_eq ▸ hid
      obtain ⟨m, hm⟩ := Store.exists_node? hthere
      exact ⟨n, c, fetched, m, hn, hmerge, hfetch, hcache, hm, fun _ => hconfigured.config_of_repair hadopts.placed⟩

/-- The fields of the object of an update are kept afterwards if they were kept before or are fetched. -/
theorem lookup_of_fetchChosen {object : String} {fetched : Session σ}
    (h : s.fetchChosen object overlay = (.ok (), fetched)) (hobject : object ≠ "")
    (hknown : s.desk.isCached object = true ∨
      (s.editor.hasSource = true ∧ (Members.get? overlay "target_object").isSome = true)) :
    ∃ fields, fetched.desk.cache.lookup object = some fields := by
  rcases hknown with hcached | ⟨hsource, hnamed⟩
  · obtain ⟨fields, hfields⟩ := Option.isSome_iff_exists.mp hcached
    have hwithin := s.within_fetchChosen object overlay
    rw [h] at hwithin
    exact ⟨fields, hwithin object fields hfields⟩
  · have hasks : (s.editor.hasSource && object != "" && (Members.get? overlay "target_object").isSome) = true := by
      simp [hsource, hnamed, hobject]
    rw [fetchChosen, if_pos hasks] at h
    rcases hgiven : s.desk.fields object with ⟨_ | fields, desk⟩
    · rw [hgiven] at h
      cases h
    · have hkept := Desk.lookup_of_fields (congrArg Prod.fst hgiven)
      rw [hgiven] at h hkept
      cases h
      exact ⟨fields, hkept⟩

/-- **A node whose operators are offered is not found to have one that is not.** -/
theorem Holds.checkNode_ne {c : Config} {fields : List FieldInfo} (h : s.Holds id c c.targetObject fields)
    (hoffers : c.OffersIn fields) {f : InvalidNode} (hcheck : (s.checkNode id).1 = .error (.invalid f)) (row : Nat)
    (operator type field : String) : f.problem ≠ .conditions (.operatorUnavailable row operator type field) := by
  intro hproblem
  rw [checkNode_fst, Store.check] at hcheck
  cases hnode : s.editor.store.node id with
  | error fault =>
    rw [hnode] at hcheck
    cases hcheck
  | ok n =>
    rw [hnode] at hcheck
    obtain ⟨hn, hid⟩ := Store.mem_of_node? (Store.node_eq_ok_iff.mp hnode)
    obtain rfl := h.configured n hn hid
    have hfinds := Inspection.finds_of_run hcheck
    rw [hproblem] at hfinds
    obtain ⟨g, isRequired, types, hgroup, hfault, hknown⟩ := Store.fault_of_finds hfinds
    obtain ⟨known, htypes, c, hc, hrefused⟩ := ConditionGroup.refused_of_fault hfault
    obtain ⟨given, hgiven, rfl⟩ := hknown known htypes
    rw [Desk.fields_of_lookup h.cached] at hgiven
    obtain rfl := Except.ok.inj hgiven
    exact Condition.offered_iff_not_refused.mp (Config.offersIn_iff.mp hoffers g hgroup c hc) hrefused

/-- **Choosing an object leaves no operator that its fields do not offer.** In whatever session an update of a node
succeeds: if the stored configuration names an object whose fields were kept before, or that the update names while
there is a source, the fields are kept now and every operator of the configuration is offered by the type of its field.
For as long as nothing updates the node, gives its id to another one or drops the fields, a check of the node never
objects to an operator. -/
theorem updateConfig_offers (h : s.Succeeds (.updateConfig id overlay)) :
    ∃ m, (s.perform (.updateConfig id overlay)).editor.store.node? id = some m ∧
      (m.config.targetObject ≠ "" →
        s.desk.isCached m.config.targetObject = true ∨
          (s.editor.hasSource = true ∧ (Members.get? overlay "target_object").isSome = true) →
        ∃ fields, (s.perform (.updateConfig id overlay)).desk.cache.lookup m.config.targetObject = some fields ∧
          m.config.OffersIn fields ∧
          ∀ turns, (s.perform (.updateConfig id overlay)).Untouched turns id m.config.targetObject fields →
            ∀ f, (((s.perform (.updateConfig id overlay)).run turns).checkNode id).1 = .error (.invalid f) →
              ∀ row operator type field, f.problem ≠ .conditions (.operatorUnavailable row operator type field)) := by
  obtain ⟨n, c, fetched, m, -, -, hfetch, hcache, hm, hstored⟩ := h.exists_stored
  refine ⟨m, hm, fun htarget hknown => ?_⟩
  obtain ⟨hmem, hid⟩ := Store.mem_of_node? hm
  have hobject : m.config.targetObject = c.targetObject := by
    rcases hstored m hmem hid with hconfig | hconfig
    · rw [hconfig, targetObject_reconciled]
    · rw [hconfig, Config.targetObject_withoutCollection, targetObject_reconciled]
  -- A configuration with an object has no collection, so the one that is stored is the reconciled one.
  have hchosen : (fetched.reconciled c).targetObject ≠ "" := by rwa [targetObject_reconciled, ← hobject]
  have hfixed := Config.withoutCollection_of_targetObject hchosen
  have hconfigured : ∀ k ∈ (s.perform (.updateConfig id overlay)).editor.store.nodes, k.id = id →
      k.config = fetched.reconciled c := fun k hk hkid => (hstored k hk hkid).elim (·) fun hless => hless.trans hfixed
  have hm' : m.config = fetched.reconciled c := hconfigured m hmem hid
  obtain ⟨fields, hfields⟩ := lookup_of_fetchChosen hfetch (hobject ▸ htarget) (hobject ▸ hknown)
  have hkept : (s.perform (.updateConfig id overlay)).desk.cache.lookup m.config.targetObject = some fields := by
    rw [hcache, hobject, hfields]
  have htypes : fetched.desk.fieldTypes c.targetObject = some (FieldInfo.typesByName fields) := by
    rw [Desk.fieldTypes, hfields]
    rfl
  have hreconciled : fetched.reconciled c = c.reconcile (FieldInfo.typesByName fields) := by
    rw [reconciled, if_neg (hobject ▸ htarget), htypes]
  have hoffers : m.config.OffersIn fields := by
    rw [Config.offersIn_iff, hm', hreconciled]
    exact fun g hgroup => Config.offered_of_reconcile (hobject ▸ htarget) hgroup
  refine ⟨fields, hkept, hoffers, fun turns huntouched f hcheck => ?_⟩
  have hholds : (s.perform (.updateConfig id overlay)).Holds id m.config m.config.targetObject fields :=
    ⟨fun k hk hkid => (hconfigured k hk hkid).trans hm'.symm, hkept⟩
  have hsettled : m.config.withoutCollection = m.config := hm' ▸ hfixed
  exact (hholds.run hsettled huntouched).checkNode_ne hoffers hcheck

/-- People whose name comes after another one. -/
def namedAfter : FindConfig :=
  ⟨"Person", ⟨[⟨"Name", ">", .text "Ada", .null⟩], .and, ""⟩, none, none, .ascending⟩

/-- The overlay that asks for them. -/
def askingAfter : Members := [("conditions", namedAfter.conditions.toValue)]

theorem merge_askingAfter : (Config.find .people).merge askingAfter = .ok (.find namedAfter) := by
  rfl

/-- Names are texts, and texts have no order to ask for. -/
theorem updateConfig_offers_people :
    ∃ e m fields, Editor.openOn (.narrowing .origin) .zero false = .ok e ∧
      (informed e).Succeeds (.updateConfig "people" askingAfter) ∧
      ((informed e).perform (.updateConfig "people" askingAfter)).editor.store.node? "people" = some m ∧
      m.config.targetObject = "Person" ∧ (informed e).desk.isCached "Person" = true ∧ m.config.OffersIn fields ∧
      ∀ f, (((informed e).perform (.updateConfig "people" askingAfter)).checkNode "people").1 = .error (.invalid f) →
        ∀ row operator type field, f.problem ≠ .conditions (.operatorUnavailable row operator type field) := by
  obtain ⟨e, records, place, he, hstore, -⟩ := exists_compile_narrowing .origin .zero false
  have hpeople : (e.store.node? "people").map (fun n => n.config) = some (.find .people) :=
    hstore ▸ Store.node?_narrowing .origin place
  obtain ⟨n, hn, hconfig⟩ := Option.map_eq_some_iff.mp hpeople
  have hmerge : n.config.merge askingAfter = .ok (.find namedAfter) := hconfig ▸ merge_askingAfter
  have hfetch : (informed e).fetchChosen "Person" askingAfter = (.ok (), informed e) := by
    have hnamed : (Members.get? askingAfter "target_object").isSome = false := rfl
    rw [fetchChosen, hnamed, Bool.and_false]
    rfl
  have hsucceeds : (informed e).Succeeds (.updateConfig "people" askingAfter) :=
    succeeds_of_fetch (Editor.sound_of_openOn he).2 hn hmerge hfetch
  have hcached : (informed e).desk.isCached "Person" = true := by
    rw [informed, Editor.objects_of_openOn he]
    rfl
  obtain ⟨m, hm, hoffers⟩ := updateConfig_offers hsucceeds
  have htarget : m.config.targetObject = "Person" := by
    obtain ⟨k, c, fetched, -, hk, hc, -, -, -, hstored⟩ := hsucceeds.exists_stored
    obtain rfl := Option.some.inj (hk.symm.trans hn)
    obtain rfl := Except.ok.inj (hc.symm.trans hmerge)
    obtain ⟨hmem, hid⟩ := Store.mem_of_node? hm
    rcases hstored m hmem hid with hsame | hsame <;>
    · rw [hsame]
      simp only [Config.targetObject_withoutCollection, targetObject_reconciled]
      rfl
  obtain ⟨fields, -, hfields, hruns⟩ := hoffers (htarget ▸ by decide) (Or.inl (htarget ▸ hcached))
  have huntouched : ((informed e).perform (.updateConfig "people" askingAfter)).Untouched [] "people"
      m.config.targetObject fields := by
    intro past turn hpast
    exact absurd (List.prefix_nil.mp hpast) (List.append_ne_nil_of_right_ne_nil _ (List.cons_ne_nil _ _))
  exact ⟨e, m, fields, he, hsucceeds, hm, htarget, hcached, hfields, hruns [] huntouched⟩

end Session

end FormFlow
