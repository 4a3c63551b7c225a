import FormFlow.Proofs.Precedence
/-!
Compiled formatters can be carried out.

A formatter passes its inspection if its operation is one of its category, and it provides the options that the
operation requires, a second input if the operation takes two, and inputs of types that the operation takes. Of the two
ways to give a second input its record has the one that is in use. So the members of the record are enough to carry the
operation out (`Operation.Executable`), whatever the formatter of a workflow that compiles
(`Session.Reached.executable`).
-/

set_option autoImplicit false

namespace FormFlow

namespace Operation

/-- An option is there with a value. Blank text is one for the text that a replacement puts in, and for no other
option. -/
def Provides (options : Members) (option : String) : Prop :=
  ∃ v, Members.get? options option = some v ∧ v ≠ .null ∧ (v.isMissing = true → option = "replace_value")

/-- The members give a fixed second input. -/
def GivesLiteral (members : Members) : Prop :=
  ∃ v, Members.get? members "literal_value" = some v ∧ v.isMissing = false

/-- The members name a second input. -/
def NamesSecond (members : Members) : Prop :=
  ∃ id, Members.get? members "second_input_field" = some (.text id) ∧ Text.isBlankText id = false

/-- The members say all that an operation of a category is carried out with: the options that it requires, a second
input if it takes two, given in one way only, and inputs that have a type it takes if the form lists them. -/
structure Executable (form : List (String × FormField)) (members : Members) (category : Category) (operation : String)
    (accepted : List String) : Prop where
  names_category : Members.get? members "category" = some (.text category.code)
  names_operation : Members.get? members "operation" = some (.text operation)
  offered : inputTypes? category operation = some accepted
  provides : ∃ options, Members.get? members "options" = some (.record options) ∧
    ∀ option ∈ requiredOptions operation, Provides options option
  second : takesTwo operation = true → Xor (GivesLiteral members) (NamesSecond members)
  inputs : ∀ name ∈ ["input_field", "second_input_field"], ∀ v, Members.get? members name = some v →
    ∃ id, v = .text id ∧ ∀ f, form.lookup id = some f → f.type ∈ accepted

/-- An option that is set is provided. -/
theorem provides_of_optionUnset {options : Members} {option : String}
    (h : Inspection.optionUnset options option = false) : Provides options option := by
  unfold Inspection.optionUnset at h
  split at h
  · cases h
  next v hv =>
    refine ⟨v, hv, ?_⟩
    by_cases hempty : mayBeEmpty option = true
    · rw [if_pos hempty, decide_eq_false_iff_not] at h
      exact ⟨h, fun _ => beq_iff_eq.mp hempty⟩
    · rw [if_neg hempty] at h
      refine ⟨?_, fun hmissing => ?_⟩
      · rintro rfl
        cases h
      · rw [h] at hmissing
        cases hmissing

end Operation

/-! ## Members -/

/-- A text that is not blank is filled. -/
theorem Text.filled?_of_isBlankText {text : String} (h : isBlankText text = false) :
    filled? (some text) = some text := by
  refine Option.filter_some_pos (decide_eq_true ?_)
  rintro rfl
  cases h

/-- A text is a member only if it is filled. -/
theorem Members.get?_whenever_filled (name text : String) :
    get? (whenever (text != "") [(name, .text text)]) name = (Text.filled? (some text)).map .text := by
  by_cases h : text = ""
  · subst h
    rfl
  · have hfilled : Text.filled? (some text) = some text := Option.filter_some_pos (decide_eq_true h)
    rw [hfilled, whenever, if_pos (bne_iff_ne.mpr h)]
    exact List.lookup_cons_self

namespace FormatterConfig

variable (c : FormatterConfig)

/-- A fixed input is a member if it is in use. -/
theorem get?_literal : Members.get? (Config.formatter c).toRecord "literal_value" =
    if c.useLiteral then some ((c.literal.map Literal.toValue).getD .null) else none := by
  rw [Config.toRecord]
  split
  · cases c.literal <;> rfl
  · cases c.secondInput with
    | none => rfl
    | some second =>
      show Members.get? (Members.whenever (second != "") _) "literal_value" = none
      unfold Members.whenever
      split <;> rfl

/-- A second input is a member if it is named and no fixed one is in use. -/
theorem get?_second : Members.get? (Config.formatter c).toRecord "second_input_field" =
    if c.useLiteral then none else (Text.filled? c.secondInput).map .text := by
  rw [Config.toRecord]
  split
  · cases c.literal <;> rfl
  · cases c.secondInput with
    | none => rfl
    | some second => exact Members.get?_whenever_filled "second_input_field" second

end FormatterConfig

/-! ## Inspections -/

namespace Inspection

variable {form : List (String × FormField)} {c : FormatterConfig} {accepted : List String}

/-- An input without a problem has a type that is taken, if it is listed. -/
theorem mem_of_inputProblem {id : String} {problem : String → NodeProblem}
    (h : inputProblem form accepted id problem = none) : ∀ f, form.lookup id = some f → f.type ∈ accepted := by
  intro f hf
  rw [inputProblem, hf, Option.bind_some, when_eq_none_iff, Bool.not_eq_false'] at h
  exact List.contains_iff_mem.mp h

/-- A formatter that passes has an operation of its category, which finds no problem. -/
theorem exists_operation (h : formatter form c = none) :
    ∃ category accepted, c.category = some category ∧ Operation.inputTypes? category c.operation = some accepted ∧
      operation form c accepted = none := by
  unfold formatter at h
  split at h
  · cases h
  · split at h
    · cases h
    next category hcategory =>
      split at h
      · cases h
      next accepted haccepted => exact ⟨category, accepted, hcategory, haccepted, h⟩

/-- A second input that is called for is given in one of the two ways. -/
theorem second_of_secondProblem (h : secondProblem c = none) (htwo : Operation.takesTwo c.operation = true) :
    Xor (Operation.GivesLiteral (Config.formatter c).toRecord)
      (Operation.NamesSecond (Config.formatter c).toRecord) := by
  unfold Operation.GivesLiteral Operation.NamesSecond
  rw [FormatterConfig.get?_literal, FormatterConfig.get?_second]
  rw [secondProblem, htwo] at h
  cases huse : c.useLiteral with
  | true =>
    rw [huse] at h
    left
    refine ⟨⟨_, rfl, when_eq_none_iff.mp h⟩, ?_⟩
    rintro ⟨id, ⟨⟩, -⟩
  | false =>
    rw [huse] at h
    obtain ⟨id, hid, hgiven⟩ := exists_of_isMissing (when_eq_none_iff.mp h)
    right
    refine ⟨⟨id, ?_, hgiven⟩, ?_⟩
    · rw [hid, Text.filled?_of_isBlankText hgiven]
      rfl
    · rintro ⟨v, ⟨⟩, -⟩

/-- **A formatter that passes is compiled to members that can be carried out.** -/
theorem executable_of_formatter (h : formatter form c = none) :
    ∃ category accepted,
      Operation.Executable form (Config.formatter c).toRecord category c.operation accepted := by
  obtain ⟨category, accepted, hcategory, haccepted, hoperation⟩ := exists_operation h
  simp only [operation, Option.orElse_eq_none] at hoperation
  obtain ⟨hinput, hunset, hsecond, hother⟩ := hoperation
  refine ⟨category, accepted, ?_, rfl, haccepted, ⟨c.options, rfl, fun option hoption => ?_⟩,
    second_of_secondProblem hsecond, fun name hname v hv => ?_⟩
  · rw [Config.toRecord, hcategory]
    rfl
  · have hnone := List.isEmpty_iff.mp (by simpa only [Bool.not_eq_false'] using when_eq_none_iff.mp hunset)
    have hset := List.filter_eq_nil_iff.mp hnone option hoption
    exact Operation.provides_of_optionUnset (Bool.not_eq_true _ ▸ hset)
  · obtain rfl | hname := List.mem_cons.mp hname
    · cases hv
      exact ⟨c.input, rfl, mem_of_inputProblem hinput⟩
    · obtain rfl := List.mem_singleton.mp hname
      rw [FormatterConfig.get?_second] at hv
      split at hv
      · cases hv
      next hunused =>
        obtain ⟨id, hid, rfl⟩ := Option.map_eq_some_iff.mp hv
        rw [if_neg hunused, hid, Option.bind_some] at hother
        exact ⟨id, rfl, mem_of_inputProblem hother⟩

end Inspection

/-- **Compiled formatters can be carried out.** In every session that a run reaches, if the workflow compiles, a
formatter has one record, and its members say all that its operation is carried out with. -/
theorem Session.Reached.executable {σ : Type} {s : Session σ} {records : List Record} (hs : s.Reached)
    (h : s.compile.1 = .ok records) {n : Node} (hn : n ∈ s.editor.store.nodes) {c : FormatterConfig}
    (hc : n.config = .formatter c) :
    ∃ r category accepted, Record.IsOf r records n ∧
      Operation.Executable s.editor.form r.config category c.operation accepted := by
  obtain ⟨r, hr, hconfig, hpasses⟩ := hs.exists_record h hn
  rw [Store.inspect, hc] at hpasses
  obtain ⟨category, accepted, hexecutable⟩ := Inspection.executable_of_formatter hpasses
  refine ⟨r, category, accepted, hr, ?_⟩
  rw [hconfig, hc]
  exact hexecutable

/-! ## A formatter of two inputs -/

/-- Adds a tax to a net amount. -/
def FormatterConfig.adding : FormatterConfig :=
  ⟨some .number, "math_operation", "net", some "tax", false, none, [("operator", .text "add")]⟩

/-- A net amount and a tax are inputs of the form, and they are added. -/
def Document.adding (p : Point) : Document where
  formVersion := ""
  nodes := [
    ⟨startId, .start, p, [], none⟩,
    ⟨"gross", .formatter, p, (Config.formatter .adding).toMembers, none⟩,
    ⟨finishId, .finish, p, [], none⟩]
  edges := [⟨none, startId, "gross", none⟩, ⟨none, "gross", finishId, none⟩]
  formFields := [⟨"net", "price", "", []⟩, ⟨"tax", "number", "", []⟩]
  objects := []

/-- The store of that document. -/
def Store.adding (p : Point) : Store where
  nodes := [
    .unplaced startId (.default .start) p,
    .unplaced "gross" (.formatter .adding) p,
    .unplaced finishId (.default .finish) p]
  links := [.plain startId "gross", .plain "gross" finishId]
  index := [("estart-gross", startId, "gross"), ("egross-end", "gross", finishId)]

theorem Inspection.formatter_adding (p : Point) :
    Inspection.formatter (FormField.byId (Document.adding p).formFields) .adding = none := by
  rfl

theorem Document.makes_adding (p : Point) : (Document.adding p).Makes (.adding p) where
  store := by cbv
  accepted := by cbv
  connected place := by cbv
  passes place := by
    have hgross : Inspection.PassesBy []
        (.settled (Inspection.formatter (FormField.byId (adding p).formFields) .adding)) := by
      rw [Inspection.formatter_adding]
      exact .settled
    exact List.forall_mem_cons.mpr ⟨.settled, List.forall_mem_cons.mpr ⟨hgross, List.forall_mem_singleton.mpr .settled⟩⟩

/-- An editor on that document compiles. -/
theorem Session.exists_compile_adding (p : Point) :
    ∃ e records place, Editor.openOn (.adding p) .zero false = .ok e ∧
      e.store = (Store.adding p).copy.placedAs place ∧ (informed e).compile.1 = .ok records :=
  exists_compile_of_makes (Document.makes_adding p) (by cbv) .zero false

/-- The formatter of two inputs is compiled and can be carried out. -/
theorem Session.executable_adding :
    ∃ e records r category accepted, Editor.openOn (.adding .origin) .zero false = .ok e ∧
      (informed e).compile.1 = .ok records ∧ r ∈ records ∧
      Operation.Executable e.form r.config category "math_operation" accepted := by
  obtain ⟨e, records, place, he, hstore, hrecords⟩ := exists_compile_adding .origin
  obtain ⟨n, hn, hc⟩ : ∃ n ∈ e.store.nodes, n.config = .formatter .adding := by
    rw [hstore]
    exact ⟨_, List.mem_cons_of_mem _ List.mem_cons_self, rfl⟩
  obtain ⟨r, category, accepted, hr, hexecutable⟩ := Reached.executable (reached_of_openOn he) hrecords hn hc
  exact ⟨e, records, r, category, accepted, he, hrecords, hr.1, hexecutable⟩

end FormFlow
