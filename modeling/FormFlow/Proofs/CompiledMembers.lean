import FormFlow.Proofs.Formatters
import FormFlow.Proofs.Writes
/-!
What compiled configurations leave out.

What a node does not set is left out of its record: a Filter that no Find comes before narrows nothing, an entry has
one source, and no member is null. The inspection sees to most of this, since it asks for what a kind cannot do without.
But it takes a blank text for no Find while the record keeps the text, it lets a mapping have more sources than the one
that counts, and it does not ask for a fixed input that the operation does not need, nor for the target of a guard.
Each of the three holds exactly where the configurations are free of that (`Session.Reached.filter_narrows_iff`,
`Session.Reached.single_sources_iff`, `Session.Reached.records_full_iff`), and one workflow that compiles breaks them
all (`Document.careless`).
-/

set_option autoImplicit false

namespace FormFlow

/-! ## What a Filter narrows -/

namespace Store

/-- A Find comes before a node: it leads to the node, and the start leads to it. -/
def ComesBefore (s : Store) (find id : String) : Prop :=
  s.kind? find = some .find ∧ s.graph.Reaches find id ∧ s.graph.Reaches startId find

/-- The members name what is narrowed exactly if a Find comes before the node, and then they name such a Find. -/
structure Narrows (s : Store) (id : String) (members : Members) : Prop where
  named_iff : (∃ v, Members.get? members "source_find_node" = some v) ↔ ∃ find, s.ComesBefore find id
  comesBefore : ∀ v, Members.get? members "source_find_node" = some v → ∃ find, v = .text find ∧ s.ComesBefore find id

variable {s : Store} {find id : String}

/-- In a grounded store the Finds before a node are those that come before it. -/
theorem Grounded.mem_findsBefore_iff (h : s.Grounded) : find ∈ s.findsBefore id ↔ s.ComesBefore find id := by
  rw [mem_findsBefore]
  constructor
  · rintro ⟨-, hreaches, hstart, hkind⟩
    exact ⟨hkind, hreaches, hstart.resolve_left (h.ne_start hkind nofun)⟩
  · rintro ⟨hkind, hreaches, hstart⟩
    refine ⟨?_, hreaches, Or.inr hstart, hkind⟩
    rintro rfl
    exact h.acyclic find hreaches

end Store

/-- What a Filter narrows is a member if it is named by more than the empty text. -/
theorem FilterConfig.get?_source (c : FilterConfig) :
    Members.get? (Config.filter c).toRecord "source_find_node" = (Text.filled? c.sourceFind).map .text := by
  rw [Config.toRecord, Members.get?, List.lookup_append, ← Members.get?, get?_query_source, Option.none_or]
  cases c.sourceFind with
  | none => rfl
  | some source => exact Members.get?_whenever_filled "source_find_node" source

/-- A Filter passes if there is nothing to name and nothing is named, or if what is named comes before it. -/
theorem Inspection.narrowed_eq_none_iff {finds : List String} {source : Option String} :
    narrowed finds source = none ↔ isMissing source = true ∧ finds = [] ∨
      ∃ find, source = some find ∧ Text.isBlankText find = false ∧ find ∈ finds := by
  unfold narrowed
  split
  next hmissing =>
    rw [when_eq_none_iff, Bool.not_eq_false', List.isEmpty_iff]
    refine ⟨fun h => Or.inl ⟨hmissing, h⟩, ?_⟩
    rintro (⟨-, h⟩ | ⟨find, rfl, hgiven, -⟩)
    · exact h
    · cases hgiven.symm.trans hmissing
  next hgiven =>
    obtain ⟨find, rfl, hblank⟩ := exists_of_isMissing (Bool.not_eq_true _ ▸ hgiven)
    rw [Option.bind_some, when_eq_none_iff, Bool.not_eq_false', List.contains_iff_mem]
    refine ⟨fun h => Or.inr ⟨find, rfl, hblank, h⟩, ?_⟩
    rintro (⟨hmissing, -⟩ | ⟨_, ⟨⟩, -, h⟩)
    · exact absurd hmissing hgiven
    · exact h

namespace Store

variable {s : Store} {id find : String} {members : Members}

/-- A Find that comes before the node is rightly named. -/
theorem ComesBefore.narrows (h : s.ComesBefore find id)
    (hnamed : Members.get? members "source_find_node" = some (.text find)) : s.Narrows id members where
  named_iff := iff_of_true ⟨_, hnamed⟩ ⟨find, h⟩
  comesBefore _ hv := ⟨find, Option.some.inj (hv.symm.trans hnamed), h⟩

/-- Where no Find comes before the node, none is to be named. -/
theorem narrows_iff_of_forall_not (h : ∀ find, ¬ s.ComesBefore find id) :
    s.Narrows id members ↔ Members.get? members "source_find_node" = none := by
  have hnothing : ¬ ∃ find, s.ComesBefore find id := fun ⟨find, hfind⟩ => h find hfind
  constructor
  · intro hnarrows
    exact Option.eq_none_iff_forall_ne_some.mpr fun v hv => hnothing (hnarrows.named_iff.mp ⟨v, hv⟩)
  · intro hnone
    refine ⟨iff_of_false ?_ hnothing, ?_⟩
    · rintro ⟨v, hv⟩
      cases hnone.symm.trans hv
    · intro v hv
      cases hnone.symm.trans hv

/-- **A Filter that passes names what it narrows exactly if there is something to narrow**, unless its source is a text
that is blank and not empty. -/
theorem Grounded.narrows_iff (hs : s.Grounded) {c : FilterConfig}
    (h : Inspection.narrowed (s.findsBefore id) c.sourceFind = none) :
    s.Narrows id (Config.filter c).toRecord ↔
      ∀ source, c.sourceFind = some source → Text.isBlankText source = true → source = "" := by
  rcases Inspection.narrowed_eq_none_iff.mp h with ⟨hmissing, hnone⟩ | ⟨find, hfind, hgiven, hbefore⟩
  · have hnothing : ∀ find, ¬ s.ComesBefore find id := by
      intro find hbefore
      have hmem := hs.mem_findsBefore_iff.mpr hbefore
      rw [hnone] at hmem
      cases hmem
    rw [narrows_iff_of_forall_not hnothing, c.get?_source, Option.map_eq_none_iff,
      Option.eq_none_iff_forall_ne_some]
    simp only [ne_eq, Text.filled?_eq_some_iff, not_and, not_not]
    refine forall₂_congr fun source hsource => ⟨fun hempty _ => hempty, fun hempty => hempty ?_⟩
    rw [hsource] at hmissing
    exact hmissing
  · refine iff_of_true ((hs.mem_findsBefore_iff.mp hbefore).narrows ?_) fun source hsource hblank => ?_
    · rw [c.get?_source, hfind, Text.filled?_of_isBlankText hgiven]
      rfl
    · obtain rfl := Option.some.inj (hfind.symm.trans hsource)
      cases hgiven.symm.trans hblank

end Store

/-! ## The sources of a mapping -/

namespace FieldMapping

/-- The names under which a mapping may have a source. -/
def sourceNames : List String := ["source_field_id", "literal_value", "picklist_value"]

/-- The source that members have under a name: a text that is not empty. -/
def sourceAt (members : Members) (name : String) : Option String :=
  match Members.get? members name with
  | some (.text source) => Text.filled? (some source)
  | _ => none

/-- The sources that an entry carries, by their names. -/
def sourcesIn : Value → List (String × String)
  | .record members => sourceNames.filterMap fun name => (sourceAt members name).map fun source => (name, source)
  | _ => []

/-- The sources that a mapping is given, by their names. -/
def given (m : FieldMapping) : List (String × String) :=
  [("source_field_id", m.source), ("literal_value", m.literal), ("picklist_value", m.pick)].filterMap
    fun (name, source) => (Text.filled? source).map fun source => (name, source)

variable {m : FieldMapping}

/-- Under a name of a source, an entry has the source that its mapping is given. -/
theorem sourceAt_toRecord {name : String} {source : Option String}
    (h : Members.get? m.toMembers name = some (Value.ofText? source)) :
    sourceAt (m.toMembers.filter fun (_, v) => v ≠ .null) name = Text.filled? source := by
  have hnodup : (m.toMembers.map (·.1)).Nodup := by
    show ["target_field", "source_field_id", "literal_value", "picklist_value"].Nodup
    decide
  have hkept : Members.get? (m.toMembers.filter fun (_, v) => v ≠ .null) name =
      (some (Value.ofText? source)).filter fun v => v ≠ .null :=
    (Table.lookup_filter_value hnodup (fun v => v ≠ .null) name).trans (congrArg _ h)
  rw [sourceAt, hkept]
  cases source <;> rfl

/-- **An entry carries the sources that its mapping is given**, no more and no fewer. -/
theorem sourcesIn_toRecord (m : FieldMapping) : sourcesIn m.toRecord = m.given := by
  have hentry : ∀ {name : String} {source : Option String},
      Members.get? m.toMembers name = some (Value.ofText? source) →
        (sourceAt (m.toMembers.filter fun (_, v) => v ≠ .null) name).map (fun source => (name, source)) =
          (Text.filled? source).map fun source => (name, source) := by
    intro name source h
    rw [sourceAt_toRecord h]
  rw [toRecord, sourcesIn, given, sourceNames]
  simp only [List.filterMap_cons, List.filterMap_nil]
  rw [@hentry "source_field_id" m.source rfl, @hentry "literal_value" m.literal rfl,
    @hentry "picklist_value" m.pick rfl]

theorem filled_eq (source : Option String) : filled source = (Text.filled? source).isSome := by
  cases source with
  | none => rfl
  | some text =>
    by_cases h : text = ""
    · subst h
      rfl
    · rw [Text.filled?_eq_some_iff.mpr ⟨rfl, h⟩]
      exact bne_iff_ne.mpr h

theorem given_eq_nil_iff : m.given = [] ↔
    Text.filled? m.source = none ∧ Text.filled? m.literal = none ∧ Text.filled? m.pick = none := by
  simp [given]

/-- A mapping that is complete is given a source. -/
theorem given_ne_nil (h : m.isComplete = true) : m.given ≠ [] := by
  intro hnil
  obtain ⟨hsource, hliteral, hpick⟩ := given_eq_nil_iff.mp hnil
  have hkind : m.sourceKind = none := by
    simp only [sourceKind, filled_eq, hsource, hliteral, hpick, Option.isSome_none, Bool.false_eq_true, if_false]
  rw [isComplete, hkind, Option.isSome_none, Bool.and_false] at h
  cases h

/-- The entry of a complete mapping carries one source exactly if the mapping is not given two. -/
theorem exists_sourcesIn_eq_iff (h : m.isComplete = true) :
    (∃ source, sourcesIn m.toRecord = [source]) ↔ m.given.length ≤ 1 := by
  rw [sourcesIn_toRecord, ← List.length_eq_one_iff]
  have hpos : 0 < m.given.length := List.length_pos_iff.mpr (given_ne_nil h)
  omega

end FieldMapping

/-! ## Members without a value -/

/-- No member is without a value. -/
def Members.Full (members : Members) : Prop :=
  ∀ member ∈ members, member.2 ≠ Value.null

/-- Whether a configuration has a gap that its record shows: a fixed input is in use and there is none, or a guard has a
Path and no target. -/
def Config.hasGap : Config → Bool
  | formatter c => c.useLiteral && c.literal.isNone
  | condition c => c.pathNode.isSome && c.targetNode.isNone
  | _ => false

namespace Members

variable {ms others : Members} {name : String} {v : Value}

@[simp] theorem full_nil : Full [] := nofun

@[simp] theorem full_cons : Full ((name, v) :: ms) ↔ v ≠ .null ∧ Full ms := List.forall_mem_cons

@[simp] theorem full_append : Full (ms ++ others) ↔ Full ms ∧ Full others := List.forall_mem_append

@[simp] theorem full_whenever {present : Bool} : Full (whenever present ms) ↔ (present = true → Full ms) := by
  cases present with
  | true => simp [whenever]
  | false => simp [whenever]

end Members

open Members

@[simp] theorem ConditionGroup.full_toRecord (g : ConditionGroup) : Full g.toRecord := by
  rw [toRecord]
  split <;> simp

@[simp] theorem FindConfig.full_toRecord (c : FindConfig) : Full c.toRecord := by
  rw [toRecord]
  cases c.returnLimit <;> cases c.sortField <;> simp

theorem CreateOrUpdateConfig.full_toRecord (c : CreateOrUpdateConfig) : Full (Config.createOrUpdate c).toRecord := by
  simp [Config.toRecord]

theorem FilterConfig.full_toRecord (c : FilterConfig) : Full (Config.filter c).toRecord := by
  rw [Config.toRecord]
  cases c.sourceFind <;> simp

/-- A Loop that has a collection lacks no member. -/
theorem LoopConfig.full_toRecord {c : LoopConfig} {find : String} (h : c.collection = some find) :
    Full (Config.loop c).toRecord := by
  rw [Config.toRecord, h, Value.ofText?]
  cases c.maxIterations <;> simp

/-- A formatter that has a category lacks a member only if it lacks the fixed input that is in use. -/
theorem FormatterConfig.full_toRecord_iff {c : FormatterConfig} {category : Category}
    (h : c.category = some category) : Full (Config.formatter c).toRecord ↔ (Config.formatter c).hasGap = false := by
  rw [Config.toRecord, h, Config.hasGap]
  cases c.useLiteral with
  | true =>
    cases c.literal with
    | none => simp
    | some l => cases l <;> simp [Value.ofText?, Literal.toValue]
  | false => cases c.secondInput <;> simp [Value.ofText?]

/-- A guard lacks a member only if it has a Path and no target. -/
theorem ConditionConfig.full_toRecord_iff (c : ConditionConfig) :
    Full (Config.condition c).toRecord ↔ (Config.condition c).hasGap = false := by
  rw [Config.toRecord, Config.hasGap]
  cases c.pathNode with
  | none => simp
  | some path => cases c.targetNode <;> simp [Value.ofText?]

/-- **What passes its inspection is compiled without gaps exactly if it has none itself.** -/
theorem Store.full_iff_of_passes {s : Store} {form : List (String × FormField)} {n : Node}
    (h : (s.inspect form n).Passes) : Full n.config.toRecord ↔ n.config.hasGap = false := by
  rw [inspect] at h
  cases hc : n.config with
  | start => exact iff_of_true full_nil rfl
  | finish => exact iff_of_true full_nil rfl
  | path => exact iff_of_true full_nil rfl
  | createOrUpdate c => exact iff_of_true c.full_toRecord rfl
  | find c => exact iff_of_true c.full_toRecord rfl
  | filter c => exact iff_of_true c.full_toRecord rfl
  | loop c =>
    rw [hc] at h
    obtain ⟨find, hfind, -⟩ := Inspection.exists_collection h
    exact iff_of_true (LoopConfig.full_toRecord hfind) rfl
  | formatter c =>
    rw [hc] at h
    obtain ⟨category, -, hcategory, -, -⟩ := Inspection.exists_operation h
    exact FormatterConfig.full_toRecord_iff hcategory
  | condition c => exact c.full_toRecord_iff

/-! ## A careless workflow -/

/-- A mapping with an input of the form and a fixed text besides. -/
def FieldMapping.doubled : FieldMapping := ⟨"Name", some "name", some "Ada", none⟩

/-- Writes a name from two sources. -/
def CreateOrUpdateConfig.doubled : CreateOrUpdateConfig := ⟨"Person", [.doubled], false, .empty⟩

/-- Puts a name in capitals; the fixed input that is in use is missing, and not needed. -/
def FormatterConfig.shouting : FormatterConfig := ⟨some .text, "uppercase", "name", none, true, none, []⟩

/-- A guard that names its Path and no target. -/
def ConditionConfig.astray : ConditionConfig := ⟨.alwaysRun, "", .empty, some "fork", none⟩

/-- A Filter narrows a blank text, a name is written from two sources, a fixed input is missing, and so is the target of
a guard. -/
def Document.careless (p : Point) : Document where
  formVersion := ""
  nodes := [
    ⟨startId, .start, p, [], none⟩,
    ⟨"named", .filter, p, (Config.filter ⟨.people, some " "⟩).toMembers, none⟩,
    ⟨"kept", .createOrUpdate, p, (Config.createOrUpdate .doubled).toMembers, none⟩,
    ⟨"shout", .formatter, p, (Config.formatter .shouting).toMembers, none⟩,
    ⟨"guard", .condition, p, (Config.condition .astray).toMembers, none⟩,
    ⟨finishId, .finish, p, [], none⟩]
  edges := [⟨none, startId, "named", none⟩, ⟨none, "named", "kept", none⟩, ⟨none, "kept", "shout", none⟩,
    ⟨none, "shout", "guard", none⟩, ⟨none, "guard", finishId, none⟩]
  formFields := []
  objects := [("Person", [⟨"Name", "Name", "string", false, none⟩])]

/-- The store of that document. -/
def Store.careless (p : Point) : Store where
  nodes := [
    .unplaced startId (.default .start) p,
    .unplaced "named" (.filter ⟨.people, some " "⟩) p,
    .unplaced "kept" (.createOrUpdate .doubled) p,
    .unplaced "shout" (.formatter .shouting) p,
    .unplaced "guard" (.condition .astray) p,
    .unplaced finishId (.default .finish) p]
  links := [.plain startId "named", .plain "named" "kept", .plain "kept" "shout", .plain "shout" "guard",
    .plain "guard" finishId]
  index := [("estart-named", startId, "named"), ("enamed-kept", "named", "kept"), ("ekept-shout", "kept", "shout"),
    ("eshout-guard", "shout", "guard"), ("eguard-end", "guard", finishId)]

section Careless

variable (p : Point) (place : String → Store.Seating)

theorem Store.findsBefore_careless : ((Store.careless p).copy.placedAs place).findsBefore "named" = [] := by
  cbv

theorem Inspection.writes_doubled : writes [] .doubled [⟨"Name", "Name", "string", false, none⟩] = none := by
  rfl

theorem Inspection.formatter_shouting : formatter [] .shouting = none := by
  rfl

theorem Document.makes_careless : (Document.careless p).Makes (.careless p) where
  store := by cbv
  accepted := by cbv
  connected place := by cbv
  passes place := by
    have hperson : Text.isBlankText "Person" = false := by decide
    refine List.forall_mem_cons.mpr ⟨.settled, List.forall_mem_cons.mpr ⟨.ofObject hperson rfl ?_,
      List.forall_mem_cons.mpr ⟨.ofObject hperson rfl Inspection.writes_doubled, List.forall_mem_cons.mpr ⟨?_,
        List.forall_mem_cons.mpr ⟨.settled, List.forall_mem_singleton.mpr .settled⟩⟩⟩⟩⟩
    · show (Inspection.query _ _ <|> Inspection.narrowed (Store.findsBefore _ "named") _) = none
      rw [Store.findsBefore_careless p place, Inspection.query_people]
      decide
    · show Inspection.PassesBy _ (.settled (Inspection.formatter [] .shouting))
      rw [Inspection.formatter_shouting]
      exact .settled

end Careless

/-- An editor on that document compiles. -/
theorem Session.exists_compile_careless (p : Point) :
    ∃ e records place, Editor.openOn (.careless p) .zero false = .ok e ∧
      e.store = (Store.careless p).copy.placedAs place ∧ (informed e).compile.1 = .ok records :=
  exists_compile_of_makes (Document.makes_careless p) (by cbv) .zero false

/-! ## Compiling -/

namespace Session

variable {σ : Type} {s : Session σ} {records : List Record} {n : Node}

/-- **When compiled Filters narrow what there is.** In every session that a run reaches, if the workflow compiles, a
Filter has one record. It names what is narrowed exactly if a Find comes before the Filter, and then such a Find,
exactly if the source that the Filter is configured with is not a blank text other than the empty one. -/
theorem Reached.filter_narrows_iff (hs : s.Reached) (h : s.compile.1 = .ok records) (hn : n ∈ s.editor.store.nodes)
    {c : FilterConfig} (hc : n.config = .filter c) :
    ∃ r, Record.IsOf r records n ∧ (s.editor.store.Narrows n.id r.config ↔
      ∀ source, c.sourceFind = some source → Text.isBlankText source = true → source = "") := by
  obtain ⟨r, hr, hconfig, hpasses⟩ := hs.exists_record h hn
  rw [Store.inspect, hc] at hpasses
  obtain ⟨fields, hjudged⟩ := Inspection.passes_ofObject hpasses
  have hnarrowed := ((Option.orElse_eq_none _ _).mp hjudged).2
  refine ⟨r, hr, ?_⟩
  rw [hconfig, hc]
  exact hs.grounded.narrows_iff hnarrowed

/-- The Filter of people narrows the Find before it. -/
theorem filter_narrows_narrowing :
    ∃ e records n r, Editor.openOn (.narrowing .origin) .zero false = .ok e ∧ (informed e).compile.1 = .ok records ∧
      n ∈ e.store.nodes ∧ n.config = .filter ⟨.people, some "people"⟩ ∧ Record.IsOf r records n ∧
      e.store.Narrows n.id r.config := by
  obtain ⟨e, records, place, he, hstore, hrecords⟩ := exists_compile_narrowing .origin .zero false
  obtain ⟨n, hn, hc⟩ : ∃ n ∈ e.store.nodes, n.config = .filter ⟨.people, some "people"⟩ := by
    rw [hstore]
    simp [Store.placedAs, Store.copy, Store.narrowing, Node.unplaced]
  obtain ⟨r, hr, hnarrows⟩ := Reached.filter_narrows_iff (reached_of_openOn he) hrecords hn hc
  refine ⟨e, records, n, r, he, hrecords, hn, hc, hr, hnarrows.mpr ?_⟩
  rintro source ⟨⟩ hblank
  exact absurd hblank (by decide)

/-- **A blank text is compiled as what a Filter narrows**, though no Find comes before the Filter. -/
theorem exists_blank_source :
    ∃ e records n c r, Editor.openOn (.careless .origin) .zero false = .ok e ∧ (informed e).compile.1 = .ok records ∧
      n ∈ e.store.nodes ∧ n.config = .filter c ∧ Record.IsOf r records n ∧
      Members.get? r.config "source_find_node" = some (.text " ") ∧ ∀ find, ¬ e.store.ComesBefore find n.id := by
  obtain ⟨e, records, place, he, hstore, hrecords⟩ := exists_compile_careless .origin
  have hconfig : ("named", Config.filter ⟨.people, some " "⟩) ∈ (Store.careless .origin).configs := by
    simp [Store.configs, Store.careless, Node.unplaced]
  obtain ⟨n, r, hn, hid, hc, hr, hcompiled⟩ := exists_record_of_config he hstore hrecords hconfig
  refine ⟨e, records, n, _, r, he, hrecords, hn, hc, hr, ?_, fun find hbefore => ?_⟩
  · rw [hcompiled, FilterConfig.get?_source]
    rfl
  · have hmem := (Editor.sound_of_openOn he).2.mem_findsBefore_iff.mpr hbefore
    rw [hid, hstore, Store.findsBefore_careless] at hmem
    cases hmem

/-- **When compiled mappings have one source.** In every session that a run reaches, if the workflow compiles, a node
that writes records has one record. Each of its entries carries a source, and each carries one only exactly if no
mapping of the node is given two. -/
theorem Reached.single_sources_iff (hs : s.Reached) (h : s.compile.1 = .ok records) (hn : n ∈ s.editor.store.nodes)
    {c : CreateOrUpdateConfig} (hc : n.config = .createOrUpdate c) :
    ∃ r entries, Record.IsOf r records n ∧ Members.get? r.config "field_mappings" = some (.list entries) ∧
      (∀ entry ∈ entries, FieldMapping.sourcesIn entry ≠ []) ∧
      ((∀ entry ∈ entries, ∃ source, FieldMapping.sourcesIn entry = [source]) ↔
        ∀ m ∈ c.mappings, m.given.length ≤ 1) := by
  obtain ⟨r, hr, hconfig, hpasses⟩ := hs.exists_record h hn
  rw [Store.inspect, hc] at hpasses
  obtain ⟨fields, hjudged⟩ := Inspection.passes_ofObject hpasses
  have hwhole := Inspection.whole_of_writes hjudged
  refine ⟨r, c.mappings.map FieldMapping.toRecord, hr, ?_, ?_, ?_⟩
  · rw [hconfig, hc]
    exact hwhole.get?_mappings
  · rw [List.forall_mem_map]
    intro m hm
    rw [FieldMapping.sourcesIn_toRecord]
    exact FieldMapping.given_ne_nil (hwhole.complete m hm)
  · rw [List.forall_mem_map]
    exact forall₂_congr fun m hm => FieldMapping.exists_sourcesIn_eq_iff (hwhole.complete m hm)

/-- A mapping with a fixed text and two empty sources carries one. -/
theorem single_sources_notes :
    ∃ e records n r entries, Editor.openOn (.writing .origin [.blank] FieldInfo.notes [.nameless]) .zero false = .ok e ∧
      (informed e).compile.1 = .ok records ∧ n ∈ e.store.nodes ∧ n.config = .createOrUpdate (.writing [.blank]) ∧
      Record.IsOf r records n ∧ Members.get? r.config "field_mappings" = some (.list entries) ∧
      ∀ entry ∈ entries, ∃ source, FieldMapping.sourcesIn entry = [source] := by
  obtain ⟨e, records, place, he, hstore, hrecords⟩ := exists_compile_notes .origin
  obtain ⟨n, hn, hc⟩ := hstore ▸ Store.exists_writing .origin [.blank] place
  obtain ⟨r, entries, hr, hentries, -, hsingle⟩ := Reached.single_sources_iff (reached_of_openOn he) hrecords hn hc
  refine ⟨e, records, n, r, entries, he, hrecords, hn, hc, hr, hentries, hsingle.mpr ?_⟩
  decide

/-- **A mapping with two sources is compiled with both.** -/
theorem exists_two_sources :
    ∃ e records n c r entries, Editor.openOn (.careless .origin) .zero false = .ok e ∧
      (informed e).compile.1 = .ok records ∧ n ∈ e.store.nodes ∧ n.config = .createOrUpdate c ∧
      Record.IsOf r records n ∧ Members.get? r.config "field_mappings" = some (.list entries) ∧
      ∃ entry ∈ entries,
        FieldMapping.sourcesIn entry = [("source_field_id", "name"), ("literal_value", "Ada")] := by
  obtain ⟨e, records, place, he, hstore, hrecords⟩ := exists_compile_careless .origin
  have hconfig : ("kept", Config.createOrUpdate .doubled) ∈ (Store.careless .origin).configs := by
    simp [Store.configs, Store.careless, Node.unplaced]
  obtain ⟨n, r, hn, -, hc, hr, hcompiled⟩ := exists_record_of_config he hstore hrecords hconfig
  refine ⟨e, records, n, _, r, [FieldMapping.doubled.toRecord], he, hrecords, hn, hc, hr, ?_, _,
    List.mem_singleton_self _, ?_⟩
  · rw [hcompiled]
    rfl
  · rw [FieldMapping.sourcesIn_toRecord]
    rfl

/-- **When no compiled member is without a value.** In every session that a run reaches, if the workflow compiles, the
members of its records all have values exactly if no configuration has a gap. -/
theorem Reached.records_full_iff (hs : s.Reached) (h : s.compile.1 = .ok records) :
    (∀ r ∈ records, Full r.config) ↔ ∀ n ∈ s.editor.store.nodes, n.config.hasGap = false := by
  constructor
  · intro hfull n hn
    obtain ⟨r, hr, hconfig, hpasses⟩ := hs.exists_record h hn
    have hmembers := hfull r hr.1
    rw [hconfig] at hmembers
    exact (Store.full_iff_of_passes hpasses).mp hmembers
  · intro hgaps r hr
    obtain ⟨n, hn, -, hconfig, hpasses⟩ := exists_node_of_compile h hr
    rw [hconfig]
    exact (Store.full_iff_of_passes hpasses).mpr (hgaps n (Store.mem_of_node? hn).1)

/-- The members of the records of a Find, a Filter and a Loop all have values. -/
theorem records_full_narrowing :
    ∃ e records, Editor.openOn (.narrowing .origin) .zero false = .ok e ∧ (informed e).compile.1 = .ok records ∧
      ∀ r ∈ records, Full r.config := by
  obtain ⟨e, records, place, he, hstore, hrecords⟩ := exists_compile_narrowing .origin .zero false
  have hgaps : ∀ entry ∈ (Store.narrowing .origin).configs, entry.2.hasGap = false := by
    decide
  refine ⟨e, records, he, hrecords,
    (Reached.records_full_iff (reached_of_openOn he) hrecords).mpr fun n hn => ?_⟩
  have hconfig : (n.id, n.config) ∈ e.store.configs := Store.mem_configs.mpr ⟨n, hn, rfl, rfl⟩
  rw [hstore, Store.configs_placedAs] at hconfig
  exact hgaps _ hconfig

/-- **Members without a value are compiled**: a fixed input that is in use and missing, and the target of a guard. -/
theorem exists_null_members :
    ∃ e records, Editor.openOn (.careless .origin) .zero false = .ok e ∧ (informed e).compile.1 = .ok records ∧
      (∃ r ∈ records, ("literal_value", .null) ∈ r.config) ∧ ∃ r ∈ records, ("target_node_id", .null) ∈ r.config := by
  obtain ⟨e, records, place, he, hstore, hrecords⟩ := exists_compile_careless .origin
  have hshout : ("shout", Config.formatter .shouting) ∈ (Store.careless .origin).configs := by
    simp [Store.configs, Store.careless, Node.unplaced]
  have hguard : ("guard", Config.condition .astray) ∈ (Store.careless .origin).configs := by
    simp [Store.configs, Store.careless, Node.unplaced]
  obtain ⟨_, shouted, -, -, -, hshouted, hcompiled⟩ := exists_record_of_config he hstore hrecords hshout
  obtain ⟨_, guarded, -, -, -, hguarded, hcompiled'⟩ := exists_record_of_config he hstore hrecords hguard
  refine ⟨e, records, he, hrecords, ⟨shouted, hshouted.1, ?_⟩, guarded, hguarded.1, ?_⟩
  · rw [hcompiled]
    decide
  · rw [hcompiled']
    decide

end Session

end FormFlow
