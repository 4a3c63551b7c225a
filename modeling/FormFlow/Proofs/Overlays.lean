import Mathlib.Data.List.Induction
import FormFlow.Proofs.Columns
/-!
Overlays on configurations.

An overlay puts its members over what is written of a configuration, and the result is read. Members that are put one
list after the other are put as one list (`Table.putAll_putAll_ofPairs`), and what was read before is read the same
whether it stands as it was given or as it was written (`Config.readFields_putAll`). So overlays make one overlay
(`Config.merge_lawful`).
-/

set_option autoImplicit false

namespace FormFlow

/-! ## Lists of pairs put over tables -/

namespace Table

open Members (put putAll ofPairs without)

variable {α : Type}

theorem putAll_cons (table : List (String × α)) (name : String) (value : α) (news : List (String × α)) :
    putAll table ((name, value) :: news) = putAll (put table name value) news := rfl

theorem putAll_append (table news later : List (String × α)) :
    putAll table (news ++ later) = putAll (putAll table news) later :=
  List.foldl_append

/-- What is put last under a name is found there. -/
theorem lookup_putAll_ofPairs (table news : List (String × α)) (name : String) :
    (putAll table news).lookup name = ((ofPairs news).lookup name).or (table.lookup name) := by
  induction news using List.reverseRecOn with
  | nil => rfl
  | append_singleton news new ih =>
    rw [ofPairs, putAll_append, putAll_append, putAll_cons, putAll_cons, ← ofPairs]
    show (put _ _ _).lookup name = ((put _ _ _).lookup name).or _
    rw [lookup_put, lookup_put]
    split
    · rfl
    · exact ih

/-- What is not put anew is as it was. -/
theorem lookup_putAll_of_not_mem (table : List (String × α)) {news : List (String × α)} {name : String}
    (h : name ∉ news.map (·.1)) : (putAll table news).lookup name = table.lookup name := by
  have hnone : (ofPairs news).lookup name = none := by
    refine List.lookup_eq_none_iff.mpr fun entry hentry => ?_
    have hmem := (nodup_ofPairs news).2 entry hentry
    exact bne_iff_ne.mpr fun e => h (e ▸ List.mem_map_of_mem hmem)
  rw [lookup_putAll_ofPairs, hnone, Option.none_or]

/-- Names that are kept alike are put alike into what is kept. -/
theorem filter_putAll (keep : String → Bool) (table news : List (String × α)) :
    (putAll table news).filter (fun entry => keep entry.1) =
      putAll (table.filter fun entry => keep entry.1) (news.filter fun entry => keep entry.1) := by
  have hput : ∀ (table : List (String × α)) (name : String) (value : α),
      (put table name value).filter (fun entry => keep entry.1) =
        if keep name then put (table.filter fun entry => keep entry.1) name value
        else table.filter fun entry => keep entry.1 := by
    intro table name value
    induction table with
    | nil => rw [put, List.filter_cons]; rfl
    | cons entry table ih =>
      obtain ⟨key, old⟩ := entry
      rw [put]
      by_cases hkey : key = name
      · subst hkey
        cases hkeep : keep key <;> simp [hkeep, put]
      · cases hkeep : keep key <;> cases hname : keep name <;> simp_all [put]
  induction news generalizing table with
  | nil => rfl
  | cons new news ih =>
    obtain ⟨name, value⟩ := new
    rw [putAll_cons, ih, hput, List.filter_cons]
    split
    · rfl
    · rfl

theorem mem_names_put {table : List (String × α)} {name other : String} {value : α} :
    name ∈ (put table other value).map (·.1) ↔ name = other ∨ name ∈ table.map (·.1) := by
  rw [← exists_lookup_iff, ← exists_lookup_iff, lookup_put]
  split
  · next h => simp [h]
  · next h => simp [h]

theorem without_putAll (table news : List (String × α)) (name : String) :
    without (putAll table news) name = putAll (without table name) (without news name) :=
  filter_putAll (· != name) table news

theorem without_ofPairs (pairs : List (String × α)) (name : String) :
    without (ofPairs pairs) name = ofPairs (without pairs name) :=
  without_putAll [] pairs name

/-- A value may be put under a name that is there before or after another value under another name. -/
theorem put_put {table : List (String × α)} {name : String} (h : name ∈ table.map (·.1)) (value : α) {other : String}
    (hother : other ≠ name) (value' : α) :
    put (put table name value) other value' = put (put table other value') name value := by
  induction table with
  | nil => cases h
  | cons entry table ih =>
    obtain ⟨key, old⟩ := entry
    by_cases hkey : key = name
    · subst hkey
      simp [put, hother.symm]
    · by_cases hkey' : key = other
      · subst hkey'
        simp [put, hkey]
      · have hlater : name ∈ table.map (·.1) := (List.mem_cons.mp h).resolve_left (Ne.symm hkey)
        simp [put, hkey, hkey', ih hlater]

theorem put_put_self (table : List (String × α)) (name : String) (old value : α) :
    put (put table name old) name value = put table name value := by
  induction table with
  | nil => simp [put]
  | cons entry table ih =>
    obtain ⟨key, older⟩ := entry
    by_cases hkey : key = name
    · simp [put, hkey]
    · simp [put, hkey, ih]

theorem putAll_put_of_not_mem {table news : List (String × α)} {name : String} (h : name ∈ table.map (·.1))
    (hnews : name ∉ news.map (·.1)) (value : α) :
    putAll (put table name value) news = put (putAll table news) name value := by
  induction news generalizing table with
  | nil => rfl
  | cons new news ih =>
    obtain ⟨key, value'⟩ := new
    obtain ⟨hkey, hlater⟩ := not_or.mp (mt List.mem_cons.mpr hnews)
    rw [putAll_cons, putAll_cons, put_put h value (Ne.symm hkey), ih (mem_names_put.mpr (.inr h)) hlater]

/-- A value that is put into a list of pairs is put last when the list is put over a table. -/
theorem putAll_put (table : List (String × α)) {news : List (String × α)} (h : (news.map (·.1)).Nodup) (name : String)
    (value : α) : putAll table (put news name value) = put (putAll table news) name value := by
  induction news generalizing table with
  | nil => rfl
  | cons new news ih =>
    obtain ⟨key, old⟩ := new
    obtain ⟨hkey, hnews⟩ := List.nodup_cons.mp h
    by_cases hsame : key = name
    · subst hsame
      have hthere : key ∈ (put table key old).map (·.1) := mem_names_put.mpr (.inl rfl)
      rw [put, if_pos rfl, putAll_cons, putAll_cons, ← putAll_put_of_not_mem hthere hkey, put_put_self]
    · rw [put, if_neg hsame, putAll_cons, putAll_cons, ih _ hnews]

/-- Pairs with repeated names joined are put like the pairs as they are. -/
theorem putAll_ofPairs (table news : List (String × α)) : putAll table (ofPairs news) = putAll table news := by
  induction news using List.reverseRecOn with
  | nil => rfl
  | append_singleton news new ih =>
    obtain ⟨name, value⟩ := new
    have hlast : ofPairs (news ++ [(name, value)]) = put (ofPairs news) name value := putAll_append [] news _
    rw [hlast, putAll_put _ (nodup_ofPairs news).1, ih, putAll_append]
    rfl

/-- Pairs that are put over others, and the result over a table, are put one after the other. -/
theorem putAll_putAll_ofPairs (table news later : List (String × α)) :
    putAll table (putAll (ofPairs news) later) = putAll (putAll table news) later := by
  have hjoined : putAll (ofPairs news) later = ofPairs (news ++ later) := (putAll_append [] news later).symm
  rw [hjoined, putAll_ofPairs, putAll_append]

end Table

/-! ## Overlays -/

namespace Checked

open Members (put putAll)

/-- A record with nothing undeclared has nothing undeclared but what is put into it. -/
theorem undeclared_putAll {ms : Members} {declared : List String} (h : undeclared ms declared = [])
    (overlay : Members) : undeclared (putAll ms overlay) declared = undeclared (putAll [] overlay) declared := by
  have hdeclared : (ms.filter fun entry => !declared.contains entry.1) = [] := List.map_eq_nil_iff.mp h
  have hover := Table.filter_putAll (fun name => !declared.contains name) ms overlay
  have halone := Table.filter_putAll (fun name => !declared.contains name) [] overlay
  rw [hdeclared] at hover
  unfold undeclared
  rw [hover, halone, List.filter_nil]

end Checked

namespace Column

open Members (putAll)

/-- Records with the same in a field have the same in it when the same is put over both. -/
theorem cell_putAll {ms ms' : Members} {column : Column} (h : column.cell ms = column.cell ms') (overlay : Members) :
    column.cell (putAll ms overlay) = column.cell (putAll ms' overlay) := by
  unfold cell Checked.optional Members.get? at h ⊢
  rw [Table.lookup_putAll_ofPairs, Table.lookup_putAll_ofPairs]
  cases (Members.ofPairs overlay).lookup column.name with
  | none => exact h
  | some v => rfl

end Column

namespace Config

open Members (putAll ofPairs without)

variable {c c' : Config} {kind : Kind} {ms ms' overlay later : Members}

/-- **What is read as the same configuration is still read alike when the same is put over it.** -/
theorem readFields_putAll (h : readFields ms kind = .good c) (h' : readFields ms' kind = .good c) (overlay : Members) :
    readFields (putAll ms overlay) kind = readFields (putAll ms' overlay) kind := by
  obtain ⟨-, hdeclared, hcells⟩ := readFields_eq_good.mp h
  obtain ⟨-, hdeclared', hcells'⟩ := readFields_eq_good.mp h'
  refine readFields_congr ?_ fun column hcolumn => ?_
  · rw [Checked.undeclared_putAll hdeclared, Checked.undeclared_putAll hdeclared']
  · exact Column.cell_putAll (Column.cell_eq_of_cells hcells hcells' hcolumn) overlay

/-! ### Reading in two steps -/

/-- Whether the kind that is named, if any is, is the given one. -/
def checkKind (kind : Kind) : Option Value → Except Fault Unit
  | none => .ok ()
  | some v => do
    let declared ← declaredKind v
    if declared ≠ kind then throw (.otherKind declared kind)

/-- A configuration that was read, or its problems. -/
def ofChecked (kind : Kind) (r : Checked Config) : Except Fault Config :=
  match r.under kind.code with
  | .good c => .ok c
  | .bad ps => .error (.problems ps)

theorem parse_eq (kind : Kind) (ms : Members) :
    parse kind ms = checkKind kind (Members.get? ms "kind") >>= fun _ =>
      ofChecked kind (readFields (without ms "kind") kind) := by
  unfold parse checkKind ofChecked
  cases Members.get? ms "kind" with
  | none => rfl
  | some v =>
    cases hv : declaredKind v with
    | error f => simp only [hv, bind, Except.bind]
    | ok declared =>
      by_cases hsame : declared = kind
      · simp only [hv, bind, Except.bind, if_neg (not_not_intro hsame)]
        rfl
      · simp only [hv, bind, Except.bind, if_pos hsame]
        rfl

theorem ofChecked_eq_ok {r : Checked Config} : ofChecked kind r = .ok c ↔ r = .good c := by
  unfold ofChecked
  cases r with
  | good d => simp
  | bad ps => simp [Checked.under]

theorem checkKind_code (kind : Kind) : checkKind kind (some (.text kind.code)) = .ok () := by
  cases kind <;> rfl

/-- Merging checks the kind that the overlay names, if it names one, and reads the fields with the others put over. -/
theorem merge_eq (c : Config) (overlay : Members) :
    c.merge overlay = checkKind c.kind ((ofPairs overlay).lookup "kind") >>= fun _ =>
      ofChecked c.kind (readFields (putAll c.toMembers (without overlay "kind")) c.kind) := by
  have hfields : without (("kind", .text c.kind.code) :: c.toMembers) "kind" = c.toMembers :=
    (List.filter_cons_of_neg (by simp)).trans (without_toMembers c)
  rw [merge, parse_eq, Table.without_putAll, hfields, Members.get?, Table.lookup_putAll_ofPairs, List.lookup_cons_self]
  cases (ofPairs overlay).lookup "kind" with
  | none =>
    rw [Option.none_or, checkKind_code]
    rfl
  | some v => rfl

theorem merge_eq_ok {overlay : Members} : c.merge overlay = .ok c' ↔
    checkKind c.kind ((ofPairs overlay).lookup "kind") = .ok () ∧
      readFields (putAll c.toMembers (without overlay "kind")) c.kind = .good c' := by
  rw [merge_eq, Table.bind_eq_ok_iff, ofChecked_eq_ok]

/-! ### Laws -/

/-- Merging nothing changes nothing. -/
theorem merge_nil (c : Config) : c.merge [] = .ok c :=
  merge_eq_ok.mpr ⟨rfl, readFields_toMembers c⟩

theorem merge_kind (h : c.merge overlay = .ok c') : c'.kind = c.kind :=
  readFields_kind _ _ c' (merge_eq_ok.mp h).2

/-- A field that an overlay does not name is as it was. -/
theorem get?_merge_of_not_mem (h : c.merge overlay = .ok c') {name : String} (hname : name ∉ overlay.map (·.1)) :
    Members.get? c'.toMembers name = Members.get? c.toMembers name := by
  obtain ⟨-, hread⟩ := merge_eq_ok.mp h
  obtain ⟨hkind, -, hcells⟩ := readFields_eq_good.mp hread
  obtain ⟨-, -, hstored⟩ := readFields_eq_good.mp (readFields_toMembers c)
  refine Column.get?_of_cells hcells hstored fun column _ hname' => ?_
  have hnews : column.name ∉ (without overlay "kind").map (·.1) := fun hmem => by
    obtain ⟨entry, hentry, hsame⟩ := List.mem_map.mp hmem
    exact hname (hname' ▸ hsame ▸ List.mem_map_of_mem (List.mem_of_mem_filter hentry))
  exact Column.cell_congr (Table.lookup_putAll_of_not_mem _ hnews)

/-- What is put over a merged configuration is put over the one before it, after what was merged. -/
theorem merge_merge (h : c.merge overlay = .ok c') (later : Members) :
    c'.merge later = c.merge (putAll (ofPairs overlay) later) := by
  obtain ⟨hnamed, hread⟩ := merge_eq_ok.mp h
  have hkind := merge_kind h
  have hwithout : putAll c.toMembers (without (putAll (ofPairs overlay) later) "kind") =
      putAll (putAll c.toMembers (without overlay "kind")) (without later "kind") := by
    rw [Table.without_putAll, Table.without_ofPairs, Table.putAll_putAll_ofPairs]
  have hcheck : checkKind c.kind ((ofPairs (putAll (ofPairs overlay) later)).lookup "kind") =
      checkKind c.kind ((ofPairs later).lookup "kind") := by
    rw [ofPairs, Table.putAll_putAll_ofPairs, Table.lookup_putAll_ofPairs]
    cases (ofPairs later).lookup "kind" with
    | none => exact hnamed
    | some v => rfl
  have hstored : readFields c'.toMembers c.kind = .good c' := hkind ▸ readFields_toMembers c'
  rw [merge_eq, merge_eq, hkind, hwithout, hcheck, readFields_putAll hstored hread]

/-- **Merging is a lawful overlay.** Merging nothing changes nothing. A merged configuration is of the same kind, has
every field that the overlay does not name as it was, and what is merged into it afterwards comes to the same, problems
and their order included, as if both had been merged at once, the later one over the earlier one. -/
theorem merge_lawful (c : Config) :
    c.merge [] = .ok c ∧
      ∀ overlay c', c.merge overlay = .ok c' →
        c'.kind = c.kind ∧
          (∀ name ∉ overlay.map (·.1), Members.get? c'.toMembers name = Members.get? c.toMembers name) ∧
          ∀ later, c'.merge later = c.merge (putAll (ofPairs overlay) later) := by
  refine ⟨merge_nil c, fun overlay c' h => ⟨merge_kind h, ?_, merge_merge h⟩⟩
  intro name hname
  exact get?_merge_of_not_mem h hname

/-- A fresh Loop whose index is asked for in words. -/
def indexed : Config := loop ⟨none, "item", none, true, false, .empty, ""⟩

theorem merge_lawful_indexed :
    (default .loop).merge [("include_index", .text "yes")] = .ok indexed ∧
      Members.get? indexed.toMembers "item_variable" = some (.text "item") ∧
      indexed.merge [("max_iterations", .text "many"), ("colour", .null)] = (default .loop).merge
        [("include_index", .text "yes"), ("max_iterations", .text "many"), ("colour", .null)] := by
  have hmerge : (default .loop).merge [("include_index", .text "yes")] = .ok indexed := by rfl
  obtain ⟨-, hkept, hlater⟩ := (merge_lawful (default .loop)).2 _ _ hmerge
  exact ⟨hmerge, hkept "item_variable" (by decide), hlater [("max_iterations", .text "many"), ("colour", .null)]⟩

end Config

end FormFlow
