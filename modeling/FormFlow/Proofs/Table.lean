import Mathlib.Data.List.Nodup
import FormFlow.Value.Basic
/-!
Tables, which are lists of pairs that are looked up by name, and passes over lists.

Where no name is repeated, looking a name up is membership, and joining repeated names changes nothing. A pass that
can fail succeeds exactly if it succeeds at every item.
-/

set_option autoImplicit false

namespace FormFlow.Table

variable {α β ε : Type}

/-- A table has a value under exactly the names that it lists. -/
theorem exists_lookup_iff {table : List (String × α)} {name : String} :
    (∃ value, table.lookup name = some value) ↔ name ∈ table.map (·.1) := by
  rw [← Option.isSome_iff_exists, List.lookup_isSome_iff, List.mem_map]
  exact exists_congr fun entry => and_congr_right fun _ => beq_iff_eq.trans eq_comm

theorem mem_of_lookup {table : List (String × α)} {name : String} {value : α} (h : table.lookup name = some value) :
    (name, value) ∈ table := by
  obtain ⟨before, after, rfl, -⟩ := List.lookup_eq_some_iff.mp h
  simp

/-- Where no name is repeated, a name stands for the value that it is listed with. -/
theorem lookup_eq_some_iff_mem {table : List (String × α)} (h : (table.map (·.1)).Nodup) {name : String} {value : α} :
    table.lookup name = some value ↔ (name, value) ∈ table := by
  induction table with
  | nil => simp
  | cons entry table ih =>
    obtain ⟨key, first⟩ := entry
    obtain ⟨hkey, hrest⟩ := List.nodup_cons.mp h
    rw [List.lookup_cons, List.mem_cons, Prod.mk.injEq]
    by_cases hk : name = key
    · subst hk
      have hout : (name, value) ∉ table := fun hm => hkey (List.mem_map_of_mem (f := (·.1)) hm)
      simp [hout, eq_comm]
    · have hk' : (name == key) = false := beq_false_of_ne hk
      simp only [hk', ih hrest, hk, false_and, false_or]

/-- The numbers of a list without repetition, looked up. -/
theorem exists_lookup_zipIdx {names : List String} (first : Nat) {name : String} (h : name ∈ names) :
    ∃ number, (names.zipIdx first).lookup name = some number := by
  rwa [exists_lookup_iff, List.zipIdx_map_fst]

/-- Changing the values of a table, each by its name, changes what is looked up. -/
theorem lookup_map_each (f : String → α → β) (table : List (String × α)) (name : String) :
    (table.map fun entry => (entry.1, f entry.1 entry.2)).lookup name = (table.lookup name).map (f name) := by
  induction table with
  | nil => rfl
  | cons entry table ih =>
    rw [List.map_cons, List.lookup_cons, List.lookup_cons, ih]
    by_cases h : name = entry.1
    · simp [h]
    · simp [beq_false_of_ne h]

theorem lookup_map_value (f : α → β) (table : List (String × α)) (name : String) :
    (table.map fun entry => (entry.1, f entry.2)).lookup name = (table.lookup name).map f :=
  lookup_map_each (fun _ => f) table name

/-- Where no name is repeated, keeping some of the values keeps what is looked up of them. -/
theorem lookup_filter_value {table : List (String × α)} (h : (table.map (·.1)).Nodup) (keep : α → Bool)
    (name : String) : (table.filter fun entry => keep entry.2).lookup name = (table.lookup name).filter keep := by
  have hkept : ((table.filter fun entry => keep entry.2).map (·.1)).Nodup :=
    h.sublist (List.filter_sublist.map _)
  ext value
  rw [lookup_eq_some_iff_mem hkept, List.mem_filter, Option.filter_eq_some_iff, lookup_eq_some_iff_mem h]

/-- Where no name is repeated, looking every name up gives the table. -/
theorem map_lookup_eq {table : List (String × α)} (h : (table.map (·.1)).Nodup) (other : α) :
    (table.map (·.1)).map (fun name => (name, (table.lookup name).getD other)) = table := by
  rw [List.map_map]
  refine (List.map_congr_left fun entry hentry => ?_).trans (List.map_id table)
  have hlookup : table.lookup entry.1 = some entry.2 := (lookup_eq_some_iff_mem h).mpr hentry
  simp [hlookup]

/-- A list of names with numbers, sorted by the numbers, that holds what a numbered list holds is that list. -/
theorem eq_zipIdx_of_perm {names : List String} {first : Nat} {entries : List (String × Nat)}
    (hperm : entries.Perm (names.zipIdx first)) (hsorted : entries.Pairwise fun a b => a.2 ≤ b.2) :
    entries = names.zipIdx first := by
  have hnodup : ((names.zipIdx first).map (·.2)).Nodup := by
    rw [List.zipIdx_map_snd]
    exact List.nodup_range'
  have hnumbered : (names.zipIdx first).Pairwise fun a b => a.2 ≤ b.2 := by
    refine List.pairwise_map.mp ?_
    rw [List.zipIdx_map_snd]
    exact List.pairwise_le_range' (s := first)
  refine hperm.eq_of_pairwise (fun a b ha hb hab hba => ?_) hsorted hnumbered
  exact List.inj_on_of_nodup_map hnodup (hperm.mem_iff.mp ha) hb (Nat.le_antisymm hab hba)

theorem put_of_not_mem {table : List (String × α)} {name : String} (h : name ∉ table.map (·.1)) (value : α) :
    Members.put table name value = table ++ [(name, value)] := by
  induction table with
  | nil => rfl
  | cons entry table ih =>
    obtain ⟨key, old⟩ := entry
    have hne : key ≠ name := fun e => h (by simp [e])
    rw [Members.put, if_neg hne, ih fun hm => h (List.mem_cons_of_mem _ hm), List.cons_append]

theorem putAll_of_nodup {table news : List (String × α)} (h : ((table ++ news).map (·.1)).Nodup) :
    Members.putAll table news = table ++ news := by
  induction news generalizing table with
  | nil => simp [Members.putAll]
  | cons entry news ih =>
    obtain ⟨name, value⟩ := entry
    have hname : name ∉ table.map (·.1) := by
      rw [List.map_append, List.nodup_append] at h
      exact fun hm => h.2.2 name hm name (by simp) rfl
    have hput := put_of_not_mem hname value
    show Members.putAll (Members.put table name value) news = _
    rw [hput, ih (by simpa using h), List.append_assoc, List.singleton_append]

/-- Joining repeated names changes a table without repetition in nothing. -/
theorem ofPairs_of_nodup {table : List (String × α)} (h : (table.map (·.1)).Nodup) :
    Members.ofPairs table = table := by
  rw [Members.ofPairs, putAll_of_nodup (by simpa using h), List.nil_append]

theorem mem_put {table : List (String × α)} {name : String} {value : α} {entry : String × α}
    (h : entry ∈ Members.put table name value) : entry ∈ table ∨ entry = (name, value) := by
  induction table with
  | nil => exact Or.inr (List.mem_singleton.mp h)
  | cons first table ih =>
    obtain ⟨key, old⟩ := first
    rw [Members.put] at h
    split at h
    · next hk =>
      rcases List.mem_cons.mp h with rfl | h
      · exact Or.inr (hk ▸ rfl)
      · exact Or.inl (List.mem_cons_of_mem _ h)
    · rcases List.mem_cons.mp h with rfl | h
      · exact Or.inl List.mem_cons_self
      · exact (ih h).imp_left (List.mem_cons_of_mem _)

theorem nodup_put {table : List (String × α)} (h : (table.map (·.1)).Nodup) (name : String) (value : α) :
    ((Members.put table name value).map (·.1)).Nodup := by
  induction table with
  | nil => exact List.nodup_singleton _
  | cons first table ih =>
    obtain ⟨key, old⟩ := first
    obtain ⟨hkey, hrest⟩ := List.nodup_cons.mp h
    rw [Members.put]
    split
    · exact List.nodup_cons.mpr ⟨hkey, hrest⟩
    · next hk =>
      refine List.nodup_cons.mpr ⟨fun hmem => ?_, ih hrest⟩
      obtain ⟨entry, hentry, hname⟩ := List.mem_map.mp hmem
      rcases mem_put hentry with hentry | rfl
      · exact hkey (hname ▸ List.mem_map_of_mem hentry)
      · exact hk hname.symm

/-- Joining repeated names leaves none, and adds nothing. -/
theorem nodup_ofPairs (pairs : List (String × α)) :
    ((Members.ofPairs pairs).map (·.1)).Nodup ∧ ∀ entry ∈ Members.ofPairs pairs, entry ∈ pairs := by
  have hputs : ∀ (news table : List (String × α)), (table.map (·.1)).Nodup →
      ((Members.putAll table news).map (·.1)).Nodup ∧
        ∀ entry ∈ Members.putAll table news, entry ∈ table ∨ entry ∈ news := by
    intro news
    induction news with
    | nil => exact fun table h => ⟨h, fun _ => Or.inl⟩
    | cons new news ih =>
      intro table h
      obtain ⟨hnodup, hmem⟩ := ih _ (nodup_put h new.1 new.2)
      refine ⟨hnodup, fun entry hentry => ?_⟩
      rcases hmem entry hentry with hput | hlater
      · refine (mem_put hput).imp_right fun heq => ?_
        rw [heq]
        exact List.mem_cons_self
      · exact Or.inr (List.mem_cons_of_mem _ hlater)
  obtain ⟨hnodup, hmem⟩ := hputs pairs [] .nil
  exact ⟨hnodup, fun entry hentry => (hmem entry hentry).resolve_left List.not_mem_nil⟩

/-- The values of a table in which every name can be read off its value give the table again. -/
theorem ofPairs_values (key : α → String) {pairs : List (String × α)} (hkey : ∀ entry ∈ pairs, entry.1 = key entry.2) :
    Members.ofPairs (((Members.ofPairs pairs).map (·.2)).map fun value => (key value, value)) =
      Members.ofPairs pairs := by
  obtain ⟨hnodup, hmem⟩ := nodup_ofPairs pairs
  have hsame : ((Members.ofPairs pairs).map (·.2)).map (fun value => (key value, value)) = Members.ofPairs pairs := by
    rw [List.map_map]
    refine (List.map_congr_left fun entry hentry => ?_).trans (List.map_id _)
    exact Prod.ext (hkey entry (hmem entry hentry)).symm rfl
  rw [hsame, ofPairs_of_nodup hnodup]

/-- What is put into a table, and each value then changed by its name, is put into the changed table. -/
theorem put_map_each (f : String → α → β) (table : List (String × α)) (name : String) (value : α) :
    (Members.put table name value).map (fun entry => (entry.1, f entry.1 entry.2)) =
      Members.put (table.map fun entry => (entry.1, f entry.1 entry.2)) name (f name value) := by
  induction table with
  | nil => rfl
  | cons entry table ih =>
    obtain ⟨key, old⟩ := entry
    rw [Members.put, List.map_cons, Members.put]
    by_cases h : key = name
    · subst h
      simp
    · simp [h, ih]

/-- Pairs with repeated names joined may have their values changed before or after. -/
theorem ofPairs_map_value (f : α → β) (pairs : List (String × α)) :
    Members.ofPairs (pairs.map fun entry => (entry.1, f entry.2)) =
      (Members.ofPairs pairs).map fun entry => (entry.1, f entry.2) := by
  have hputs : ∀ (news table : List (String × α)),
      Members.putAll (table.map fun entry => (entry.1, f entry.2)) (news.map fun entry => (entry.1, f entry.2)) =
        (Members.putAll table news).map fun entry => (entry.1, f entry.2) := by
    intro news
    induction news with
    | nil => exact fun _ => rfl
    | cons new news ih =>
      intro table
      have hput := put_map_each (fun _ => f) table new.1 new.2
      exact (congrArg (Members.putAll · _) hput.symm).trans (ih _)
  exact hputs pairs []

/-- What is put under a name is found there, and nothing else changes. -/
theorem lookup_put (table : List (String × α)) (name : String) (value : α) (other : String) :
    (Members.put table name value).lookup other = if other = name then some value else table.lookup other := by
  induction table with
  | nil =>
    rw [Members.put, List.lookup_cons, List.lookup_nil]
    by_cases h : other = name
    · simp [h]
    · simp [beq_false_of_ne h, h]
  | cons entry table ih =>
    obtain ⟨key, old⟩ := entry
    rw [Members.put]
    by_cases hk : key = name
    · subst hk
      rw [if_pos rfl, List.lookup_cons, List.lookup_cons]
      by_cases h : other = key
      · simp [h]
      · simp [beq_false_of_ne h, h]
    · rw [if_neg hk, List.lookup_cons, List.lookup_cons, ih]
      by_cases h : other = key
      · subst h
        simp [hk]
      · simp [beq_false_of_ne h]

/-- A value stays if nothing else is put under its name. -/
theorem lookup_putAll {table news : List (String × α)} {name : String} {value : α}
    (hvalue : table.lookup name = some value) (hnews : ∀ v, (name, v) ∈ news → v = value) :
    (Members.putAll table news).lookup name = some value := by
  unfold Members.putAll
  induction news generalizing table with
  | nil => exact hvalue
  | cons entry news ih =>
    obtain ⟨key, v⟩ := entry
    refine ih ?_ fun w hw => hnews w (List.mem_cons_of_mem _ hw)
    rw [lookup_put]
    by_cases h : name = key
    · subst h
      rw [if_pos rfl, hnews v List.mem_cons_self]
    · rw [if_neg h, hvalue]

/-- Taking a name out leaves what stands under the others. -/
theorem lookup_without (table : List (String × α)) {name other : String} (h : other ≠ name) :
    (Members.without table name).lookup other = table.lookup other := by
  unfold Members.without
  induction table with
  | nil => rfl
  | cons entry table ih =>
    obtain ⟨key, value⟩ := entry
    by_cases hk : key = name
    · subst hk
      simpa [List.lookup_cons, beq_false_of_ne h] using ih
    · rw [List.filter_cons_of_pos (by simpa using hk), List.lookup_cons, List.lookup_cons, ih]

/-- A name that is taken out stands for nothing. -/
theorem lookup_without_self (table : List (String × α)) (name : String) :
    (Members.without table name).lookup name = none := by
  refine List.lookup_eq_none_iff.mpr fun entry hentry => ?_
  have hother := (List.mem_filter.mp hentry).2
  rwa [bne_comm]

/-- Dropping repeated names leaves none. -/
theorem eraseDups_nodup (names : List String) : names.eraseDups.Nodup := by
  induction hk : names.length using Nat.strongRecOn generalizing names with
  | ind k ih =>
    cases names with
    | nil => exact .nil
    | cons name names =>
      rw [List.eraseDups_cons]
      have hshorter : (names.filter fun other => !other == name).length < k := by
        rw [← hk, List.length_cons]
        exact Nat.lt_succ_of_le (List.length_filter_le _ _)
      exact List.nodup_cons.mpr ⟨fun hm => by simpa using List.mem_eraseDups.mp hm, ih _ hshorter _ rfl⟩

theorem eraseDups_of_nodup {names : List String} (h : names.Nodup) : names.eraseDups = names := by
  induction names with
  | nil => rfl
  | cons name names ih =>
    obtain ⟨hname, hnames⟩ := List.nodup_cons.mp h
    have hfilter : names.filter (fun other => !other == name) = names :=
      List.filter_eq_self.mpr fun other hm => by simpa using fun e : other = name => hname (e ▸ hm)
    rw [List.eraseDups_cons, hfilter, ih hnames]

/-- A pass over a list that succeeds at every item gives the results in order. -/
theorem mapM_eq_ok {f : α → Except ε β} {g : α → β} {items : List α} (h : ∀ x ∈ items, f x = .ok (g x)) :
    items.mapM f = .ok (items.map g) := by
  induction items with
  | nil => rfl
  | cons x items ih =>
    rw [List.mapM_cons, h x List.mem_cons_self, ih fun y hy => h y (List.mem_cons_of_mem _ hy)]
    rfl

/-- Two steps succeed exactly if both do. -/
theorem bind_eq_ok_iff {a : Except ε Unit} {b : Except ε β} {result : β} :
    (a >>= fun _ => b) = .ok result ↔ a = .ok () ∧ b = .ok result := by
  cases a with
  | error f => simp [bind, Except.bind]
  | ok => simp [bind, Except.bind]

/-- A step on the result of another succeeds exactly if there is a result and the step succeeds on it. -/
theorem bind_eq_ok {a : Except ε α} {f : α → Except ε β} {result : β} :
    (a >>= f) = .ok result ↔ ∃ x, a = .ok x ∧ f x = .ok result := by
  cases a with
  | error fault => simp [bind, Except.bind]
  | ok x => simp [bind, Except.bind]

/-- What can be told of a result from its item, can be told of the results of a pass from the items. -/
theorem map_of_mapM {γ : Type} {f : α → Except ε β} {g : β → γ} {k : α → γ} {items : List α} {results : List β}
    (h : items.mapM f = .ok results) (hf : ∀ x ∈ items, ∀ y, f x = .ok y → g y = k x) :
    results.map g = items.map k := by
  induction items generalizing results with
  | nil =>
    cases h
    rfl
  | cons x items ih =>
    rw [List.mapM_cons] at h
    obtain ⟨y, hy, h⟩ := bind_eq_ok.mp h
    obtain ⟨rest, hrest, h⟩ := bind_eq_ok.mp h
    cases h
    rw [List.map_cons, List.map_cons, hf x List.mem_cons_self y hy,
      ih hrest fun z hz => hf z (List.mem_cons_of_mem _ hz)]

/-- What every step of a pass over items of a kind keeps, the pass keeps. -/
theorem foldlM_induction_of_forall {P : β → Prop} {Q : α → Prop} {f : β → α → Except ε β}
    (hstep : ∀ {s a t}, Q a → P s → f s a = .ok t → P t) {items : List α} (hitems : ∀ a ∈ items, Q a) {s t : β}
    (hs : P s) (h : items.foldlM f s = .ok t) : P t := by
  induction items generalizing s with
  | nil =>
    cases h
    exact hs
  | cons a items ih =>
    rw [List.foldlM_cons] at h
    obtain ⟨u, hu, hrest⟩ := bind_eq_ok.mp h
    exact ih (fun b hb => hitems b (List.mem_cons_of_mem _ hb)) (hstep (hitems a List.mem_cons_self) hs hu) hrest

/-- What every step of a pass keeps, the pass keeps. -/
theorem foldlM_induction {P : β → Prop} {f : β → α → Except ε β} (hstep : ∀ {s a t}, P s → f s a = .ok t → P t)
    {items : List α} {s t : β} (hs : P s) (h : items.foldlM f s = .ok t) : P t :=
  foldlM_induction_of_forall (Q := fun _ => True) (fun _ => hstep) (fun _ _ => trivial) hs h

/-- A check of a list succeeds exactly if it succeeds at every item. -/
theorem forM_eq_ok_iff {f : α → Except ε Unit} {items : List α} :
    items.forM f = .ok () ↔ ∀ x ∈ items, f x = .ok () := by
  induction items with
  | nil => simp [pure, Except.pure]
  | cons x items ih =>
    show (f x >>= fun _ => items.forM f) = .ok () ↔ _
    rw [bind_eq_ok_iff, ih, List.forall_mem_cons]

/-- Two outcomes agree: the results are related, or the faults are the same. -/
inductive Agree (R : α → β → Prop) : Except ε α → Except ε β → Prop where
  | ok {a : α} {b : β} : R a b → Agree R (.ok a) (.ok b)
  | error (f : ε) : Agree R (.error f) (.error f)

namespace Agree

variable {γ δ : Type} {R : α → β → Prop} {S : γ → δ → Prop}

/-- Outcomes that come to the same after a change of the results agree on what they come to. -/
theorem of_map_eq {f : α → γ} {g : β → γ} {x : Except ε α} {y : Except ε β} (h : x.map f = y.map g) :
    Agree (fun a b => f a = g b) x y := by
  cases x with
  | error fault =>
    cases y with
    | error fault' =>
      cases h
      exact .error fault
    | ok b => cases h
  | ok a =>
    cases y with
    | error fault' => cases h
    | ok b => exact .ok (Except.ok.inj h)

/-- Computations that agree still do when they are gone on with in ways that agree. -/
theorem bind {x : Except ε α} {y : Except ε β} (h : Agree R x y) {f : α → Except ε γ} {g : β → Except ε δ}
    (hfg : ∀ a b, R a b → Agree S (f a) (g b)) : Agree S (x >>= f) (y >>= g) := by
  cases h with
  | ok hab => exact hfg _ _ hab
  | error fault => exact .error fault

theorem refl (x : Except ε α) : Agree Eq x x := by
  cases x with
  | ok a => exact .ok rfl
  | error fault => exact .error fault

/-- One computation, gone on with in two ways that agree, agrees with itself. -/
theorem bind_left (x : Except ε α) {f : α → Except ε γ} {g : α → Except ε δ} (h : ∀ a, Agree S (f a) (g a)) :
    Agree S (x >>= f) (x >>= g) :=
  (refl x).bind fun a _ hab => hab ▸ h a

theorem imp {Q : α → β → Prop} {x : Except ε α} {y : Except ε β} (h : Agree R x y) (hRQ : ∀ a b, R a b → Q a b) :
    Agree Q x y := by
  cases h with
  | ok hab => exact .ok (hRQ _ _ hab)
  | error fault => exact .error fault

theorem map {x : Except ε α} {y : Except ε β} (h : Agree R x y) {f : α → γ} {g : β → δ}
    (hfg : ∀ a b, R a b → S (f a) (g b)) : Agree S (x.map f) (y.map g) := by
  cases h with
  | ok hab => exact .ok (hfg _ _ hab)
  | error fault => exact .error fault

theorem mapError {ε' : Type} {x : Except ε α} {y : Except ε β} (h : Agree R x y) (f : ε → ε') :
    Agree R (x.mapError f) (y.mapError f) := by
  cases h with
  | ok hab => exact .ok hab
  | error fault => exact .error (f fault)

end Agree

end FormFlow.Table
