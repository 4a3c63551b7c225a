import FormFlow.Proofs.Dumps
import FormFlow.Service.Client
/-!
What comes of storing records.

Records that can be written, with a token that a header can hold, are stored by one request, whatever the service
replies (`RecordService.save_of_sendable`); no other request is made (`RecordService.snd_save_of_not_sendable`). A reply
without an answer comes to a failure of the service (`Call.exists_failure`), and an answer to a receipt, unless the ids
in it cannot be listed (`Receipt.read_eq_none_iff`). So storing is settled, by a receipt or by a failure of the service,
exactly for such records and such a token, and with a reply whose ids can be listed (`RecordService.save_settles_iff`).
-/

set_option autoImplicit false

namespace FormFlow

/-! ## Requests that can be made -/

/-- Every character is an ASCII character. -/
def Text.IsAscii (s : String) : Prop := ∀ c ∈ s.toList, c.toNat < 0x80

/-- A header can be written exactly if it is text of ASCII characters. -/
theorem Request.unencodable?_eq_none_iff {header : String} : unencodable? header = none ↔ Text.IsAscii header := by
  have hascii : Text.IsAscii header ↔ ∀ c ∈ header.toList, ¬ isForeign c = true := by
    simp [Text.IsAscii, isForeign]
  rw [hascii]
  unfold unencodable?
  dsimp only
  by_cases hforeign : ∃ c ∈ header.toList, isForeign c = true
  · -- What is wrong begins with the first such character.
    have hposition := List.findIdx_lt_length_of_exists hforeign
    rw [List.drop_eq_getElem_cons hposition, List.takeWhile_cons, if_pos (List.findIdx_getElem (w := hposition))]
    refine iff_of_false ?_ fun h => ?_
    · split
      · next hnil => cases hnil
      · exact nofun
      · exact nofun
    · obtain ⟨c, hc, hcforeign⟩ := hforeign
      exact h c hc hcforeign
  · have hnone : ∀ c ∈ header.toList, ¬ isForeign c = true := fun c hc h => hforeign ⟨c, hc, h⟩
    rw [List.findIdx_eq_length_of_false fun c hc => Bool.eq_false_iff.mpr (hnone c hc), List.drop_length]
    exact iff_of_true rfl hnone

namespace Call

variable {c : Call} {token : String}

theorem isAscii_bearer_iff : Text.IsAscii ("Bearer " ++ token) ↔ Text.IsAscii token := by
  have hbearer : ∀ c ∈ "Bearer ".toList, c.toNat < 0x80 := by simp
  simp only [Text.IsAscii, String.toList_append, List.forall_mem_append]
  exact and_iff_right hbearer

/-- A token can be written in the header exactly if it is text of ASCII characters. -/
theorem bind_authorization_eq_none_iff (htoken : c.token = some token) (base : Address) :
    (c.request base).authorization.bind Request.unencodable? = none ↔ Text.IsAscii token := by
  by_cases hempty : token = ""
  · have hnone : (c.request base).authorization = none := by
      rw [request, htoken, hempty]
      rfl
    simp [hnone, hempty, Text.IsAscii]
  · have hheader : (c.request base).authorization = some ("Bearer " ++ token) := by
      simp [request, htoken, Text.filled?, hempty]
    rw [hheader, Option.bind_some, Request.unencodable?_eq_none_iff, isAscii_bearer_iff]

/-- A call with a printable path can be made exactly if its token is text of ASCII characters, and no integer in its
body has too many digits. -/
theorem unsendable?_eq_none_iff (hpath : Address.unprintable? c.path = none) (htoken : c.token = some token)
    (base : Address) : c.unsendable? base = none ↔ Text.IsAscii token ∧ c.body.hasDigits = true := by
  have hheader := bind_authorization_eq_none_iff htoken base
  cases hbound : (c.request base).authorization.bind Request.unencodable? with
  | none =>
    simp only [unsendable?, hpath, hbound]
    simp [hheader.mp hbound]
  | some reason =>
    have hforeign : ¬ Text.IsAscii token := fun h => by cases hbound.symm.trans (hheader.mpr h)
    simp only [unsendable?, hpath, hbound]
    simp [hforeign]

end Call

/-! ## Replies -/

/-- The reply that comes next. -/
def Exchange.reply (x : Exchange) : Reply := x.replies.headD exhausted

/-- The answer in a reply: the JSON value of its body, if the status stands for no error. -/
def Reply.answer? : Reply → Option Value
  | .answered status body => if isError status then none else Call.json? body
  | .failed _ => none

namespace Call

variable {c : Call} {r : Reply} {answer : Value}

theorem outcome_judge_of_answer (h : r.answer? = some answer) : (c.judge r).outcome = .ok answer := by
  cases r with
  | failed reason => cases h
  | answered status body =>
    rw [Reply.answer?] at h
    rw [judge]
    split at h
    · cases h
    · next hstatus => simp only [hstatus, Bool.false_eq_true, ↓reduceIte, h]

/-- A reply without an answer is a failure of the service. -/
theorem exists_failure (h : r.answer? = none) : ∃ failure, (c.judge r).outcome = .error (c.failed failure) := by
  cases r with
  | failed reason => exact ⟨_, rfl⟩
  | answered status body =>
    rw [Reply.answer?] at h
    rw [judge]
    split at h
    · next hstatus => exact ⟨.status status (detail status body), by rw [if_pos hstatus]⟩
    · next hstatus => exact ⟨.notJson, by simp only [hstatus, Bool.false_eq_true, ↓reduceIte, h]⟩

end Call

/-! ## Ids -/

/-- A value that is given and has no items: a number or a truth value. -/
inductive Value.IsUnlistable : Value → Prop where
  | bool : IsUnlistable (.bool true)
  | int {n : Int} (h : n ≠ 0) : IsUnlistable (.int n)
  | float {x : Float} (h : (x == 0.0) = false) : IsUnlistable (.float x)

namespace Receipt

theorem ids?_eq_none_iff {v : Value} : ids? v = none ↔ v.IsUnlistable := by
  constructor
  · intro h
    unfold ids? at h
    split at h
    · cases h
    · next hgiven =>
      cases v with
      | bool b =>
        cases b with
        | true => exact .bool
        | false => exact absurd rfl hgiven
      | int n => exact .int (by simpa [Value.isGiven] using hgiven)
      | float x => exact .float (by simpa [Value.isGiven] using hgiven)
      | null => exact absurd rfl hgiven
      | _ => cases h
  · intro h
    cases h with
    | bool => rfl
    | int h => simp [ids?, Value.isGiven, h]
    | float h => simp [ids?, Value.isGiven, h]

/-- There is no receipt in an answer exactly if it is a record whose ids cannot be listed. -/
theorem read_eq_none_iff {formVersion : String} {answer : Value} :
    read formVersion answer = none ↔
      ∃ ms ids, answer = .record ms ∧ Members.get? ms "record_ids" = some ids ∧ ids.IsUnlistable := by
  have hnull : ¬ Value.IsUnlistable .null := nofun
  unfold read
  rw [Option.map_eq_none_iff, ids?_eq_none_iff]
  cases answer with
  | record ms => cases hids : Members.get? ms "record_ids" <;> simp [hids, hnull]
  | _ => simpa [Members.get?] using hnull

end Receipt

/-- A reply that accepts the records, with ids that cannot be listed. -/
inductive Reply.IsUnlisted : Reply → Prop where
  | mk {status : Nat} {body : String} {ms : Members} {ids : Value} (accepted : isError status = false)
    (json : Call.json? body = some (.record ms)) (given : Members.get? ms "record_ids" = some ids)
    (unlistable : ids.IsUnlistable) : IsUnlisted (.answered status body)

theorem Reply.answer?_eq_some_iff {r : Reply} {answer : Value} :
    r.answer? = some answer ↔
      ∃ status body, r = .answered status body ∧ isError status = false ∧ Call.json? body = some answer := by
  cases r with
  | failed reason => simp [answer?]
  | answered status body =>
    constructor
    · intro h
      exact ⟨status, body, rfl, by simpa [answer?] using h⟩
    · rintro ⟨_, _, ⟨⟩, h⟩
      simpa [answer?] using h

/-- Such a reply has an answer, and there is no receipt in it. -/
theorem Reply.isUnlisted_iff (r : Reply) (formVersion : String) :
    r.IsUnlisted ↔ ∃ answer, r.answer? = some answer ∧ Receipt.read formVersion answer = none := by
  simp only [answer?_eq_some_iff, Receipt.read_eq_none_iff]
  constructor
  · rintro ⟨accepted, json, given, unlistable⟩
    exact ⟨_, ⟨_, _, rfl, accepted, json⟩, _, _, rfl, given, unlistable⟩
  · rintro ⟨_, ⟨status, body, rfl, accepted, json⟩, ms, ids, rfl, given, unlistable⟩
    exact ⟨accepted, json, given, unlistable⟩

/-! ## Storing -/

namespace RecordService

variable {x : Exchange} (s : RecordService) {records : List Record} (formVersion : String) {token : String}

/-- Storing is settled: one request is made; an answer comes to a receipt, and any other reply to a failure of the
service that stores records. -/
structure Settles (x : Exchange) (done : (Except SaveFault Receipt × List LogEntry) × Exchange) : Prop where
  request : ∃ r : Request, done.2 = ⟨x.replies.tail, x.requests ++ [r]⟩
  outcome : (∃ answer receipt, x.reply.answer? = some answer ∧ done.1.1 = .ok receipt) ∨
    ∃ fault, x.reply.answer? = none ∧ done.1.1 = .error (.collaborator fault) ∧ fault.part = .persistence

/-- The call that stores records as they are written. -/
def callFor (records : List Record) (formVersion token : String) : Call :=
  call (records.map Record.toValue) formVersion token

/-- No integer in the body of the call has too many digits if none in the records has. -/
theorem hasDigits_callFor :
    (callFor records formVersion token).body.hasDigits = true ↔ ∀ r ∈ records, r.toValue.hasDigits = true := by
  show (Value.record [("form_version_id", .text formVersion),
    ("records", .list (records.map Record.toValue))]).hasDigits = true ↔ _
  simp only [Value.hasDigits, Value.hasDigitsInMembers, Bool.true_and, Bool.and_true]
  exact Value.hasDigits_list.trans List.forall_mem_map

theorem unsendable?_callFor :
    (callFor records formVersion token).unsendable? s.base = none ↔
      Text.IsAscii token ∧ ∀ r ∈ records, r.toValue.hasDigits = true := by
  rw [Call.unsendable?_eq_none_iff (by decide : Address.unprintable? "/mappings" = none) rfl, hasDigits_callFor]

/-- **Storing makes one request**, whatever the reply, if the records and the token can be written. -/
theorem save_of_sendable (hrecords : ∀ r ∈ records, r.Writable) (htoken : Text.IsAscii token) (x : Exchange) :
    (s.save records formVersion token x).2 =
        ⟨x.replies.tail, x.requests ++ [(callFor records formVersion token).request s.base]⟩ ∧
      (s.save records formVersion token x).1.1 =
        match ((callFor records formVersion token).judge x.reply).outcome with
        | .error (.collaborator f) => .error (.collaborator f)
        | .error (.unsent f) => .error (.unsent f)
        | .ok answer => (Receipt.read formVersion answer).elim (.error .unlistedIds) .ok := by
  have hwritten : Record.dumpAll records = .ok (records.map Record.toValue) :=
    Record.dumpAll_eq_ok_iff.mpr ⟨fun r hr => (hrecords r hr).shallow, rfl⟩
  have hsendable : (callFor records formVersion token).unsendable? s.base = none :=
    (s.unsendable?_callFor formVersion).mpr ⟨htoken, fun r hr => (hrecords r hr).digits⟩
  have hrun : (callFor records formVersion token).run s.base x =
      ((callFor records formVersion token).judge x.reply,
        ⟨x.replies.tail, x.requests ++ [(callFor records formVersion token).request s.base]⟩) := by
    rw [Call.run, hsendable]
    rfl
  unfold save
  rw [hwritten]
  dsimp only
  rw [← callFor, hrun]
  dsimp only
  rcases ((callFor records formVersion token).judge x.reply).outcome with (f | f) | answer <;> exact ⟨rfl, rfl⟩

/-- No request is made if a record or the token cannot be written. -/
theorem snd_save_of_not_sendable (h : ¬ ((∀ r ∈ records, r.Writable) ∧ Text.IsAscii token)) (x : Exchange) :
    (s.save records formVersion token x).2 = x := by
  unfold save
  cases hwritten : Record.dumpAll records with
  | error f => rfl
  | ok written =>
    obtain ⟨hshallow, rfl⟩ := Record.dumpAll_eq_ok_iff.mp hwritten
    dsimp only
    rw [← callFor]
    cases hunsendable : (callFor records formVersion token).unsendable? s.base with
    | none =>
      obtain ⟨htoken, hdigits⟩ := (s.unsendable?_callFor formVersion).mp hunsendable
      exact absurd ⟨fun r hr => ⟨hshallow r hr, hdigits r hr⟩, htoken⟩ h
    | some f =>
      have hrun : (callFor records formVersion token).run s.base x = (⟨.error (.unsent f), []⟩, x) := by
        rw [Call.run, hunsendable]
      rw [hrun]

/-- What storing comes to if the records and the token can be written: an answer to the receipt in it, any other reply
to a failure of the service. -/
theorem outcome_save_of_sendable (hrecords : ∀ r ∈ records, r.Writable) (htoken : Text.IsAscii token) (x : Exchange) :
    (∃ answer, x.reply.answer? = some answer ∧
        (s.save records formVersion token x).1.1 = (Receipt.read formVersion answer).elim (.error .unlistedIds) .ok) ∨
      x.reply.answer? = none ∧ ∃ failure, (s.save records formVersion token x).1.1 =
        .error (.collaborator (.service .persistence "POST" "/mappings" failure)) := by
  obtain ⟨-, houtcome⟩ := s.save_of_sendable formVersion hrecords htoken x
  rw [houtcome]
  cases hanswer : x.reply.answer? with
  | none =>
    obtain ⟨failure, hfailure⟩ := Call.exists_failure (c := callFor records formVersion token) hanswer
    exact Or.inr ⟨rfl, failure, by rw [hfailure]; rfl⟩
  | some answer => exact Or.inl ⟨answer, rfl, by rw [Call.outcome_judge_of_answer hanswer]⟩

/-- With ids that cannot be listed there is neither a receipt nor a failure of the service. -/
theorem outcome_save_of_unlisted (hrecords : ∀ r ∈ records, r.Writable) (htoken : Text.IsAscii token)
    (h : x.reply.IsUnlisted) : (s.save records formVersion token x).1.1 = .error .unlistedIds := by
  obtain ⟨answer, hanswer, hread⟩ := (x.reply.isUnlisted_iff formVersion).mp h
  rcases s.outcome_save_of_sendable formVersion hrecords htoken x with ⟨other, hother, houtcome⟩ | ⟨hnone, -⟩
  · obtain rfl := Option.some.inj (hanswer.symm.trans hother)
    rw [houtcome, hread]
    rfl
  · cases hanswer.symm.trans hnone

theorem Settles.outcome_ne {done : (Except SaveFault Receipt × List LogEntry) × Exchange} (h : Settles x done) :
    done.1.1 ≠ .error .unlistedIds := by
  intro hdone
  rcases h.outcome with ⟨_, _, -, hreceipt⟩ | ⟨_, -, hfault, -⟩
  · cases hdone.symm.trans hreceipt
  · cases hdone.symm.trans hfault

/-- **Storing is settled** exactly with records that can be written, a token of ASCII characters, and a reply that does
not accept the records with ids that cannot be listed. -/
theorem save_settles_iff (s : RecordService) (records : List Record) (formVersion token : String) (x : Exchange) :
    Settles x (s.save records formVersion token x) ↔
      (∀ r ∈ records, r.Writable) ∧ Text.IsAscii token ∧ ¬ x.reply.IsUnlisted := by
  constructor
  · intro h
    by_cases hsendable : (∀ r ∈ records, r.Writable) ∧ Text.IsAscii token
    · obtain ⟨hrecords, htoken⟩ := hsendable
      exact ⟨hrecords, htoken, fun hunlisted =>
        h.outcome_ne (s.outcome_save_of_unlisted formVersion hrecords htoken hunlisted)⟩
    · obtain ⟨r, hrequest⟩ := h.request
      rw [s.snd_save_of_not_sendable formVersion hsendable] at hrequest
      have hlength := congrArg (fun y : Exchange => y.requests.length) hrequest
      simp at hlength
  · rintro ⟨hrecords, htoken, hlisted⟩
    refine ⟨⟨_, (s.save_of_sendable formVersion hrecords htoken x).1⟩, ?_⟩
    rcases s.outcome_save_of_sendable formVersion hrecords htoken x with
      ⟨answer, hanswer, houtcome⟩ | ⟨hanswer, failure, hfailure⟩
    · cases hread : Receipt.read formVersion answer with
      | none => exact absurd ((x.reply.isUnlisted_iff formVersion).mpr ⟨answer, hanswer, hread⟩) hlisted
      | some receipt => exact Or.inl ⟨answer, receipt, hanswer, by rw [houtcome, hread]; rfl⟩
    · exact Or.inr ⟨_, hanswer, hfailure, rfl⟩

end RecordService

/-! ## A number in the place of the ids -/

/-- The records of a workflow of sentinels. -/
def Record.sentinels : List Record := [
  ⟨startId, .start, [], none, [], 1, "Start_1_Level1"⟩,
  ⟨finishId, .finish, [], none, [], 2, "End_1_Level2"⟩]

/-- A service that accepts records, and replies with a number in the place of their ids. -/
def Exchange.numbering : Exchange := ⟨[.answered 200 "\x7b\"record_ids\": 7\x7d"], []⟩

theorem Exchange.isUnlisted_numbering : numbering.reply.IsUnlisted := by
  have hjson : Call.json? "\x7b\"record_ids\": 7\x7d" = some (.record [("record_ids", .int 7)]) := by decide +kernel
  exact .mk rfl hjson rfl (.int (by decide))

theorem Record.writable_sentinels : ∀ r ∈ sentinels, r.Writable := by
  intro r hr
  rcases List.mem_cons.mp hr with rfl | hr
  · exact ⟨nofun, by decide +kernel⟩
  · obtain rfl := List.mem_singleton.mp hr
    exact ⟨nofun, by decide +kernel⟩

/-- The records are accepted, and there is neither a receipt nor a failure of the service. -/
theorem RecordService.save_numbering :
    ((mk (.parse "https://api.example.com")).save Record.sentinels "fv-1" "tok" .numbering).1.1 =
        .error .unlistedIds ∧
      ¬ Settles .numbering
        ((mk (.parse "https://api.example.com")).save Record.sentinels "fv-1" "tok" .numbering) := by
  have houtcome := outcome_save_of_unlisted (mk (.parse "https://api.example.com")) "fv-1" Record.writable_sentinels
    (by simp [Text.IsAscii] : Text.IsAscii "tok") Exchange.isUnlisted_numbering
  exact ⟨houtcome, fun h => h.outcome_ne houtcome⟩

end FormFlow
