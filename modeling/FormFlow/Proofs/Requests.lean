import Mathlib.Data.List.Induction
import FormFlow.Proofs.Table
import FormFlow.Schema.Desk
/-!
Requests at a desk, and the calls of its source that they make.

Calls are read off a source that keeps a record of them; apart from the record, a desk serves alike with such a source
(`Desk.serve_recording`). What a desk keeps can be told from the requests alone: the list that the last successful call
gave, unless it was dropped since (`Desk.lookup_serveAll`). So the source is called exactly when no list was fetched
since the last drop, and otherwise everything is answered from the list that was fetched (`Desk.serves_past`).
-/

set_option autoImplicit false

namespace FormFlow

/-- A call of a source: the object, and what the source answered. -/
structure SchemaSource.Call where
  object : String
  outcome : Except FetchFault (List FieldInfo)

/-- The source, with a record of its calls in its state. -/
def SchemaSource.recorded {σ : Type} (source : SchemaSource σ) : SchemaSource (σ × List SchemaSource.Call) :=
  fun (state, calls) object =>
    let (reply, next) := source state object
    (reply, next, calls ++ [⟨object, reply.outcome⟩])

/-- The failure that is told at a desk: the source's own, or that nothing could be fetched. -/
def FetchFault.surfaced (object : String) : FetchFault → CollaboratorFault
  | .collaborator f => f
  | .other reason => .fetchFailed object reason

namespace Desk

open SchemaSource (Call)

/-- A request at a desk. -/
inductive Request where
  | fields (object : String)
  | fieldTypes (object : String)
  | isCached (object : String)
  /-- Drops the list of an object, or all of them. -/
  | drop (object : Option String)

/-- What a request is answered with. -/
inductive Reply where
  | fields (outcome : Except CollaboratorFault (List FieldInfo))
  | fieldTypes (types : Option (List (String × String)))
  | isCached (kept : Bool)
  | dropped

/-- The request drops the list of an object. -/
inductive Request.Drops (object : String) : Request → Prop where
  | one : Drops object (.drop (some object))
  | all : Drops object (.drop none)

theorem Request.eq_of_drops {object other : String} (h : (drop (some other)).Drops object) : other = object := by
  cases h
  rfl

variable {σ : Type} {d : Desk σ} {object : String} {fields : List FieldInfo} {past : List Request} {r : Request}

/-- Answers a request. -/
def serve (d : Desk σ) : Request → Reply × Desk σ
  | .fields object => (.fields (d.fields object).1, (d.fields object).2)
  | .fieldTypes object => (.fieldTypes (d.fieldTypes object), d)
  | .isCached object => (.isCached (d.isCached object), d)
  | .drop object => (.dropped, d.drop object)

/-- The desk after requests. -/
def serveAll (d : Desk σ) (requests : List Request) : Desk σ := requests.foldl (fun d r => (d.serve r).2) d

/-- The desk with a source that keeps a record, after some calls. -/
def recording (d : Desk σ) (calls : List Call) : Desk (σ × List Call) :=
  ⟨d.source.recorded, (d.state, calls), d.cache, d.log⟩

/-- The calls that a request makes. -/
def calls (d : Desk σ) (r : Request) : List Call := ((d.recording []).serve r).2.state.2

/-- Some call gave the fields of an object, and no later request drops them. -/
def Fetched (d : Desk σ) (past : List Request) (object : String) (fields : List FieldInfo) : Prop :=
  ∃ before r after, past = before ++ r :: after ∧ ⟨object, .ok fields⟩ ∈ (d.serveAll before).calls r ∧
    ∀ later ∈ after, ¬ later.Drops object

/-! ## Calls -/

theorem fields_of_lookup (h : d.cache.lookup object = some fields) : d.fields object = (.ok fields, d) := by
  rw [Desk.fields, h]

theorem fields_of_lookup_eq_none (h : d.cache.lookup object = none) : d.fields object = d.fetch object := by
  rw [Desk.fields, h]

/-- A fetch passes on what the call of the source came to. -/
theorem fetch_fst (d : Desk σ) (object : String) :
    (d.fetch object).1 = (d.source d.state object).1.outcome.mapError (FetchFault.surfaced object) := by
  rcases h : d.source d.state object with ⟨⟨(_ | _) | _, _⟩, _⟩
  all_goals
    simp only [fetch, h]
    rfl

/-- A fetch keeps the list that it gives, and changes nothing that is kept if it fails. -/
theorem cache_fetch (d : Desk σ) (object : String) :
    (d.fetch object).2.cache =
      match (d.source d.state object).1.outcome with
      | .ok fields => Members.put d.cache object fields
      | .error _ => d.cache := by
  rcases h : d.source d.state object with ⟨⟨(_ | _) | _, _⟩, _⟩
  all_goals simp only [fetch, h]

theorem fetch_recording (d : Desk σ) (before : List Call) (object : String) :
    (d.recording before).fetch object =
      ((d.fetch object).1, (d.fetch object).2.recording
        (before ++ [⟨object, (d.source d.state object).1.outcome⟩])) := by
  rcases h : d.source d.state object with ⟨⟨(_ | _) | _, _⟩, _⟩
  all_goals simp only [fetch, recording, SchemaSource.recorded, h]

theorem calls_fields (d : Desk σ) (object : String) :
    d.calls (.fields object) =
      match d.cache.lookup object with
      | some _ => []
      | none => [⟨object, (d.source d.state object).1.outcome⟩] := by
  cases h : d.cache.lookup object with
  | some fields =>
    have hrecording : (d.recording []).cache.lookup object = some fields := h
    rw [calls, serve, fields_of_lookup hrecording]
    rfl
  | none =>
    have hrecording : (d.recording []).cache.lookup object = none := h
    rw [calls, serve, fields_of_lookup_eq_none hrecording, fetch_recording]
    rfl

theorem drop_recording (d : Desk σ) (before : List Call) (dropped : Option String) :
    (d.recording before).drop dropped = (d.drop dropped).recording before := by
  cases dropped <;> rfl

theorem calls_drop (d : Desk σ) (dropped : Option String) : d.calls (.drop dropped) = [] := by
  rw [calls, serve, drop_recording]
  rfl

/-- **A desk serves alike with a source that keeps a record**, and the record goes on with the calls of the request. -/
theorem serve_recording (d : Desk σ) (before : List Call) (r : Request) :
    (d.recording before).serve r = ((d.serve r).1, (d.serve r).2.recording (before ++ d.calls r)) := by
  have hnone : ∀ e : Desk σ, e.recording (before ++ []) = e.recording before := fun e => by rw [List.append_nil]
  cases r with
  | fields object =>
    rw [calls_fields, serve, serve]
    cases h : d.cache.lookup object with
    | some fields =>
      have hrecording : (d.recording before).cache.lookup object = some fields := h
      rw [fields_of_lookup hrecording, fields_of_lookup h, hnone]
    | none =>
      have hrecording : (d.recording before).cache.lookup object = none := h
      rw [fields_of_lookup_eq_none hrecording, fields_of_lookup_eq_none h, fetch_recording]
  | fieldTypes | isCached => exact congrArg (Prod.mk _) (hnone _).symm
  | drop dropped => rw [serve, serve, drop_recording, calls_drop, hnone]

/-- Only a request for the fields of an object makes a call, about that object. -/
theorem eq_fields_of_mem_calls {call : Call} (h : call ∈ d.calls r) : r = .fields call.object := by
  cases r with
  | fields object =>
    rw [calls_fields] at h
    split at h
    · cases h
    · rw [List.mem_singleton.mp h]
  | fieldTypes | isCached => cases h
  | drop dropped =>
    rw [calls_drop] at h
    cases h

/-! ## What a desk keeps -/

theorem lookup_drop {dropped : Option String} :
    (d.drop dropped).cache.lookup object = some fields ↔
      d.cache.lookup object = some fields ∧ ¬ (Request.drop dropped).Drops object := by
  cases dropped with
  | none => exact ⟨nofun, fun h => absurd .all h.2⟩
  | some other =>
    by_cases hsame : object = other
    · subst hsame
      have hgone : (d.drop (some object)).cache.lookup object = none := Table.lookup_without_self d.cache object
      exact ⟨fun h => absurd (hgone.symm.trans h) nofun, fun h => absurd .one h.2⟩
    · have hstays : (d.drop (some other)).cache.lookup object = d.cache.lookup object :=
        Table.lookup_without d.cache hsame
      rw [hstays]
      exact ⟨fun h => ⟨h, fun hdrops => hsame (Request.eq_of_drops hdrops).symm⟩, And.left⟩

/-- **A list is kept after a request** exactly if a call gave it then, or it was kept before and is not dropped. -/
theorem lookup_serve :
    (d.serve r).2.cache.lookup object = some fields ↔
      ⟨object, .ok fields⟩ ∈ d.calls r ∨ (d.cache.lookup object = some fields ∧ ¬ r.Drops object) := by
  cases r with
  | fields other =>
    have hkept : ¬ (Request.fields other).Drops object := nofun
    rw [calls_fields, serve]
    cases h : d.cache.lookup other with
    | some list =>
      rw [fields_of_lookup h]
      simp [hkept]
    | none =>
      rw [fields_of_lookup_eq_none h, cache_fetch]
      cases (d.source d.state other).1.outcome with
      | error fault => simp [hkept]
      | ok list =>
        rw [Table.lookup_put]
        by_cases hsame : object = other
        · subst hsame
          simp [h, eq_comm]
        · simp [hsame, hkept]
  | fieldTypes | isCached =>
    exact ⟨fun h => Or.inr ⟨h, fun hdrops => by cases hdrops⟩, fun h => (h.resolve_left List.not_mem_nil).1⟩
  | drop dropped =>
    rw [calls_drop, serve, lookup_drop]
    simp

/-- Another request fetches a list, or leaves what was fetched unless it drops it. -/
theorem fetched_concat :
    d.Fetched (past ++ [r]) object fields ↔
      ⟨object, .ok fields⟩ ∈ (d.serveAll past).calls r ∨ (d.Fetched past object fields ∧ ¬ r.Drops object) := by
  constructor
  · rintro ⟨before, call, after, hpast, hcall, hafter⟩
    rcases List.eq_nil_or_concat after with rfl | ⟨others, last, rfl⟩
    · obtain ⟨rfl, hr⟩ := List.append_inj' hpast rfl
      cases hr
      exact Or.inl hcall
    · rw [List.concat_eq_append, ← List.cons_append, ← List.append_assoc] at hpast
      obtain ⟨rfl, hr⟩ := List.append_inj' hpast rfl
      cases hr
      rw [List.concat_eq_append] at hafter
      exact Or.inr ⟨⟨before, call, others, rfl, hcall, fun later h => hafter later (List.mem_append_left _ h)⟩,
        hafter r (List.mem_append_right _ List.mem_cons_self)⟩
  · rintro (hcall | ⟨⟨before, call, after, rfl, hcall, hafter⟩, hr⟩)
    · exact ⟨past, r, [], rfl, hcall, nofun⟩
    · refine ⟨before, call, after ++ [r], by rw [List.append_assoc, List.cons_append], hcall, fun later h => ?_⟩
      rcases List.mem_append.mp h with h | h
      · exact hafter later h
      · exact List.mem_singleton.mp h ▸ hr

/-- **A desk keeps the lists that were fetched and not dropped since**, and no others. -/
theorem lookup_serveAll (source : SchemaSource σ) (state : σ) (past : List Request) :
    ((fresh source state).serveAll past).cache.lookup object = some fields ↔
      (fresh source state).Fetched past object fields := by
  induction past using List.reverseRecOn with
  | nil => exact ⟨nofun, fun ⟨before, r, after, h, _⟩ => absurd h (by simp)⟩
  | append_singleton past r ih =>
    rw [fetched_concat, ← ih, ← lookup_serve, serveAll, serveAll, List.foldl_append]
    rfl

/-! ## What is answered -/

/-- The desk answers every request about an object from one list. -/
structure Keeps (d : Desk σ) (object : String) (fields : List FieldInfo) : Prop where
  calls_eq : d.calls (.fields object) = []
  serve_fields : d.serve (.fields object) = (.fields (.ok fields), d)
  serve_fieldTypes : d.serve (.fieldTypes object) = (.fieldTypes (some (FieldInfo.typesByName fields)), d)
  serve_isCached : d.serve (.isCached object) = (.isCached true, d)

/-- The desk has no list of an object: it calls the source, once, and passes on what that comes to. A failure changes
nothing that is kept. -/
structure Lacks (d : Desk σ) (object : String) : Prop where
  asks : ∃ outcome, d.calls (.fields object) = [⟨object, outcome⟩] ∧
    (d.serve (.fields object)).1 = .fields (outcome.mapError (FetchFault.surfaced object)) ∧
    ∀ fault, outcome = .error fault → (d.serve (.fields object)).2.cache = d.cache
  serve_fieldTypes : d.serve (.fieldTypes object) = (.fieldTypes none, d)
  serve_isCached : d.serve (.isCached object) = (.isCached false, d)

theorem keeps_of_lookup (h : d.cache.lookup object = some fields) : d.Keeps object fields where
  calls_eq := by rw [calls_fields, h]
  serve_fields := by rw [serve, fields_of_lookup h]
  serve_fieldTypes := by rw [serve, fieldTypes, h, Option.map_some]
  serve_isCached := by rw [serve, isCached, h, Option.isSome_some]

theorem lacks_of_lookup (h : d.cache.lookup object = none) : d.Lacks object where
  asks := by
    refine ⟨(d.source d.state object).1.outcome, by rw [calls_fields, h], ?_, fun fault houtcome => ?_⟩
    · rw [serve, fields_of_lookup_eq_none h, fetch_fst]
    · rw [serve, fields_of_lookup_eq_none h, cache_fetch, houtcome]
  serve_fieldTypes := by rw [serve, fieldTypes, h, Option.map_none]
  serve_isCached := by rw [serve, isCached, h, Option.isSome_none]

/-- **The source is called for the fields of an object exactly if they were not fetched since they were dropped last**,
whatever it answers from call to call. Otherwise requests about the object are answered from the list that was fetched,
and no other request makes a call. -/
theorem serves_past (source : SchemaSource σ) (state : σ) (past : List Request) (object : String) :
    (∀ fields, (fresh source state).Fetched past object fields →
        ((fresh source state).serveAll past).Keeps object fields) ∧
      ((∀ fields, ¬ (fresh source state).Fetched past object fields) →
        ((fresh source state).serveAll past).Lacks object) ∧
      ∀ r, ∀ call ∈ ((fresh source state).serveAll past).calls r, r = .fields call.object := by
  refine ⟨fun fields h => keeps_of_lookup ((lookup_serveAll source state past).mpr h), fun h => ?_,
    fun r call hcall => eq_fields_of_mem_calls hcall⟩
  refine lacks_of_lookup (Option.eq_none_iff_forall_ne_some.mpr fun fields hkept => ?_)
  exact h fields ((lookup_serveAll source state past).mp hkept)

/-- A source that fails once, and then gives empty lists. -/
def late : SchemaSource Bool := fun failed _ =>
  if failed then (⟨.ok [], []⟩, true) else (⟨.error (.other "down"), []⟩, true)

theorem serves_past_late :
    let d := (fresh late false).serveAll [.fields "Lead", .fields "Lead", .drop (some "Deal")]
    d.Keeps "Lead" [] ∧ d.Lacks "Deal" := by
  obtain ⟨hkeeps, -, -⟩ := serves_past late false [.fields "Lead", .fields "Lead", .drop (some "Deal")] "Lead"
  obtain ⟨-, hlacks, -⟩ := serves_past late false [.fields "Lead", .fields "Lead", .drop (some "Deal")] "Deal"
  have hfetched : (fresh late false).Fetched [.fields "Lead", .fields "Lead", .drop (some "Deal")] "Lead" [] := by
    refine ⟨[.fields "Lead"], .fields "Lead", [.drop (some "Deal")], rfl, List.mem_singleton.mpr rfl,
      fun r hr hdrops => ?_⟩
    rw [List.mem_singleton.mp hr] at hdrops
    exact absurd (Request.eq_of_drops hdrops) (by decide)
  exact ⟨hkeeps [] hfetched, hlacks fun fields h => nomatch (lookup_serveAll late false _).mpr h⟩

end Desk

end FormFlow
