import FormFlow.Proofs.CompiledGroups
/-!
What an inspection finds.

An inspection finds a problem at once, or by the fields that a desk gives of the object it asks for
(`Inspection.Finds`). Of all inspections only those of condition groups find faults of conditions, so such a fault is
one of the node's group, by the types of its object's fields (`Store.fault_of_finds`).
-/

set_option autoImplicit false

namespace FormFlow

namespace Inspection

variable {σ : Type} {d : Desk σ} {form : List (String × FormField)} {fields : List FieldInfo}
  {fault : ConditionGroup.Fault} {p : NodeProblem}

/-- The inspection finds a problem: at once, or by the fields that a desk gives. -/
def Finds (d : Desk σ) (p : NodeProblem) : Inspection → Prop
  | settled q => q = some p
  | byFields object judge => ∃ fields, (d.fields object).1 = .ok fields ∧ judge fields = some p

/-- What is wrong with a node, its inspection finds. -/
theorem finds_of_run {i : Inspection} {n : Node} {f : InvalidNode} (h : (i.run n d).1 = .error (.invalid f)) :
    i.Finds d f.problem := by
  have hverdict : ∀ {q : Option NodeProblem}, verdict n q = .error (.invalid f) → q = some f.problem := by
    intro q hq
    cases q with
    | none => cases hq
    | some q =>
      cases hq
      rfl
  cases i with
  | settled q => exact hverdict h
  | byFields object judge =>
    rw [Desk.run_byFields] at h
    cases hfields : (d.fields object).1 with
    | error g =>
      rw [hfields] at h
      cases h
    | ok fields =>
      rw [hfields] at h
      exact ⟨fields, hfields, hverdict h⟩

theorem finds_ofObject {object : String} {judge : List FieldInfo → Option NodeProblem}
    (h : (ofObject object judge).Finds d p) :
    p = .objectMissing ∨ ∃ fields, (d.fields object).1 = .ok fields ∧ judge fields = some p := by
  unfold ofObject at h
  split at h
  · exact Or.inl (Option.some.inj h).symm
  · exact Or.inr h

theorem eq_of_when {bad : Bool} {q : NodeProblem} (h : when bad q = some p) : q = p := by
  unfold when at h
  split at h
  · exact Option.some.inj h
  · cases h

/-- A row of the mappings has no problem with conditions. -/
theorem mappingProblem_ne {byName : List (String × FieldInfo)} (object : String) (m : FieldMapping) (row : Nat) :
    mappingProblem form byName object m row ≠ some (.conditions fault) := by
  intro h
  unfold mappingProblem at h
  split at h
  · cases h
  · next target _ =>
    rcases (Option.orElse_eq_some _ _ _).mp h with hpick | ⟨-, hsource⟩
    · obtain ⟨value, -, hvalue⟩ := Option.bind_eq_some_iff.mp hpick
      rcases (Option.orElse_eq_some _ _ _).mp hvalue with hkind | ⟨-, hchoices⟩
      · cases eq_of_when hkind
      · split at hchoices
        · cases eq_of_when hchoices
        · cases hchoices
    · obtain ⟨id, -, hid⟩ := Option.bind_eq_some_iff.mp hsource
      unfold sourceProblem at hid
      split at hid
      · cases eq_of_when hid
      · cases hid

/-- A fault of conditions that a node which writes is found to have is one of its group. -/
theorem conditions_of_writes {c : CreateOrUpdateConfig} (h : writes form c fields = some (.conditions fault)) :
    c.conditions.fault true (some (FieldInfo.typesByName fields)) = some fault := by
  simp only [writes, Option.orElse_eq_some] at h
  rcases h with h | ⟨-, h | ⟨-, h | ⟨-, h | ⟨-, h⟩⟩⟩⟩
  · cases eq_of_when h
  · obtain ⟨_, -, hrow⟩ := List.exists_of_findSome?_eq_some h
    cases eq_of_when hrow
  · cases eq_of_when h
  · obtain ⟨_, -, hrow⟩ := List.exists_of_findSome?_eq_some h
    exact absurd hrow (mappingProblem_ne _ _ _)
  · split at h
    · obtain ⟨_, hfault, ⟨⟩⟩ := Option.map_eq_some_iff.mp h
      exact hfault
    · cases h

/-- So is one that a query is found to have. -/
theorem conditions_of_query {c : FindConfig} (h : query c fields = some (.conditions fault)) :
    c.conditions.fault true (some (FieldInfo.typesByName fields)) = some fault := by
  simp only [query, Option.orElse_eq_some] at h
  rcases h with h | ⟨-, h | ⟨-, h⟩⟩
  · obtain ⟨_, hfault, ⟨⟩⟩ := Option.map_eq_some_iff.mp h
    exact hfault
  · obtain ⟨_, -, hlimit⟩ := Option.bind_eq_some_iff.mp h
    cases eq_of_when hlimit
  · obtain ⟨_, -, hsort⟩ := Option.bind_eq_some_iff.mp h
    cases eq_of_when hsort

/-- A Loop's conditions have faults of their own. -/
theorem loop_ne (finds : List String) (c : LoopConfig) :
    loop finds c ≠ some (.conditions fault) := by
  intro h
  simp only [loop, Option.orElse_eq_some] at h
  rcases h with h | ⟨-, h | ⟨-, h | ⟨-, h⟩⟩⟩
  · cases eq_of_when h
  · obtain ⟨_, -, hcollection⟩ := Option.bind_eq_some_iff.mp h
    cases eq_of_when hcollection
  · obtain ⟨_, -, hmost⟩ := Option.bind_eq_some_iff.mp h
    cases eq_of_when hmost
  · obtain ⟨_, -, ⟨⟩⟩ := Option.map_eq_some_iff.mp h

theorem narrowed_ne (finds : List String) (source : Option String) :
    narrowed finds source ≠ some (.conditions fault) := by
  intro h
  unfold narrowed at h
  split at h
  · cases eq_of_when h
  · obtain ⟨_, -, hfind⟩ := Option.bind_eq_some_iff.mp h
    cases eq_of_when hfind

/-- A formatter has no conditions. -/
theorem formatter_ne (form : List (String × FormField)) (c : FormatterConfig) :
    formatter form c ≠ some (.conditions fault) := by
  have hinput : ∀ {accepted : List String} {id : String} {problem : String → NodeProblem},
      (∀ type, problem type ≠ .conditions fault) →
      inputProblem form accepted id problem ≠ some (.conditions fault) := by
    intro accepted id problem hproblem h
    obtain ⟨f, -, hf⟩ := Option.bind_eq_some_iff.mp h
    exact hproblem _ (eq_of_when hf)
  have hsecond : secondProblem c ≠ some (.conditions fault) := by
    intro h
    unfold secondProblem at h
    split at h
    · cases h
    · split at h <;> cases eq_of_when h
  have hoperation : ∀ accepted, operation form c accepted ≠ some (.conditions fault) := by
    intro accepted h
    simp only [operation, Option.orElse_eq_some] at h
    rcases h with h | ⟨-, h | ⟨-, h | ⟨-, h⟩⟩⟩
    · exact absurd h (hinput fun _ => nofun)
    · cases eq_of_when h
    · exact hsecond h
    · split at h
      · cases h
      · obtain ⟨_, -, hid⟩ := Option.bind_eq_some_iff.mp h
        exact absurd hid (hinput fun _ => nofun)
  intro h
  unfold formatter at h
  split at h
  · cases h
  · split at h
    · cases h
    · split at h
      · cases h
      · exact hoperation _ h

end Inspection

/-- **A fault of conditions that a node is found to have is one of its group**, by the types of its object's fields or
without types. -/
theorem Store.fault_of_finds {σ : Type} {s : Store} {form : List (String × FormField)} {n : Node} {d : Desk σ}
    {fault : ConditionGroup.Fault} (h : (s.inspect form n).Finds d (.conditions fault)) :
    ∃ g isRequired types, n.config.group? = some g ∧ g.fault isRequired types = some fault ∧
      ∀ known, types = some known →
        ∃ fields, (d.fields n.config.targetObject).1 = .ok fields ∧ known = FieldInfo.typesByName fields := by
  have hobject : ∀ {object : String} {judge : List FieldInfo → Option NodeProblem} {g : ConditionGroup},
      (Inspection.ofObject object judge).Finds d (.conditions fault) →
      (∀ fields, judge fields = some (.conditions fault) →
        g.fault true (some (FieldInfo.typesByName fields)) = some fault) →
      ∃ isRequired types, g.fault isRequired types = some fault ∧ ∀ known, types = some known →
        ∃ fields, (d.fields object).1 = .ok fields ∧ known = FieldInfo.typesByName fields := by
    intro object judge g hfinds hgroup
    rcases Inspection.finds_ofObject hfinds with ⟨⟨⟩⟩ | ⟨fields, hfields, hjudged⟩
    refine ⟨true, _, hgroup fields hjudged, ?_⟩
    rintro _ ⟨⟩
    exact ⟨fields, hfields, rfl⟩
  rw [inspect] at h
  cases hc : n.config with
  | start | finish | path =>
    rw [hc] at h
    cases h
  | createOrUpdate c =>
    rw [hc] at h
    obtain ⟨isRequired, types, hfault, hknown⟩ := hobject h fun _ => Inspection.conditions_of_writes
    exact ⟨c.conditions, isRequired, types, rfl, hfault, hknown⟩
  | find c =>
    rw [hc] at h
    obtain ⟨isRequired, types, hfault, hknown⟩ := hobject h fun _ => Inspection.conditions_of_query
    exact ⟨c.conditions, isRequired, types, rfl, hfault, hknown⟩
  | filter c =>
    rw [hc] at h
    have hquery : ∀ fields,
        (Inspection.query c.query fields <|> Inspection.narrowed (s.findsBefore n.id) c.sourceFind) =
          some (.conditions fault) →
        c.query.conditions.fault true (some (FieldInfo.typesByName fields)) = some fault := by
      intro fields hjudged
      rcases (Option.orElse_eq_some _ _ _).mp hjudged with hquery | ⟨-, hnarrowed⟩
      · exact Inspection.conditions_of_query hquery
      · exact absurd hnarrowed (Inspection.narrowed_ne _ _)
    obtain ⟨isRequired, types, hfault, hknown⟩ := hobject h hquery
    exact ⟨c.query.conditions, isRequired, types, rfl, hfault, hknown⟩
  | loop c =>
    rw [hc] at h
    exact absurd h (Inspection.loop_ne _ c)
  | formatter c =>
    rw [hc] at h
    exact absurd h (Inspection.formatter_ne form c)
  | condition c =>
    rw [hc] at h
    simp only [Inspection.guard] at h
    split at h
    · cases h
    · split at h
      · obtain ⟨_, hfault, ⟨⟩⟩ := Option.map_eq_some_iff.mp h
        refine ⟨c.conditions, true, none, rfl, hfault, ?_⟩
        rintro _ ⟨⟩
      · obtain ⟨fields, hfields, hjudged⟩ := h
        obtain ⟨_, hfault, ⟨⟩⟩ := Option.map_eq_some_iff.mp hjudged
        refine ⟨c.conditions, true, _, rfl, hfault, ?_⟩
        rintro _ ⟨⟩
        exact ⟨fields, hfields, rfl⟩

end FormFlow
