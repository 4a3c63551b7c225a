import FormFlow.CommandLine.Run
import FormFlow.Proofs.Acknowledgements
import FormFlow.Proofs.Expressions
import FormFlow.Proofs.VeiledSettings
import FormFlow.Proofs.Views
/-!
Commands that tell of tokens in the authorization of requests alone.

A call tells of its token in its request alone (`Call.sameSteps_run`): a word can be written in every header. So
services that are asked with other tokens give the same, and so do sessions that ask them. With settings that are the
same, tokens apart, a command reports the same but for what its requests were authorized with
(`Command.report_masked`).
-/

set_option autoImplicit false

namespace FormFlow

open Settings (hideText isWord)

/-- The request with what it was authorized with masked: only whether it was can be told. -/
def Request.masked (r : Request) : Request := { r with authorization := r.authorization.map fun _ => LogEntry.maskText }

/-- The exchange with the authorizations of its requests masked. -/
def Exchange.masked (x : Exchange) : Exchange := { x with requests := x.requests.map Request.masked }

/-- The report with the authorizations of its requests masked. -/
def Report.masked (r : Report) : Report := { r with requests := r.requests.map Request.masked }

theorem Report.ending_masked (r : Report) : r.masked.ending = r.ending := rfl

/-- Optional values that come to the same are both there, or both missing. -/
theorem rel_of_map_eq {α β : Type} {f : α → β} {x y : Option α} (h : x.map f = y.map f) :
    Option.Rel (fun a b => f a = f b) x y := by
  cases x with
  | none =>
    cases y with
    | none => exact .none
    | some b => cases h
  | some a =>
    cases y with
    | none => cases h
    | some b => exact .some (Option.some.inj h)

/-! ## Credentials -/

theorem Text.isAscii_of_isWord {s : String} (h : isWord s = true) : IsAscii s := by
  have hletters := List.all_eq_true.mp (Bool.and_eq_true_iff.mp h).2
  intro c hc
  have hrange := Logic.isAlpha_iff_toNat.mp (hletters c hc)
  omega

/-- An empty token stays empty, and no other one gets so. -/
theorem Text.filled?_map_hideText (token : Option String) :
    (filled? token).map hideText = filled? (token.map hideText) := by
  cases token with
  | none => rfl
  | some s =>
    by_cases h : s = ""
    · subst h
      rfl
    · have hhidden : hideText s ≠ "" := by
        intro hempty
        rcases Settings.eq_or_isWord_of_hideText_eq (hempty.trans (by decide : "" = hideText "")) with heq | ⟨-, hword⟩
        · exact h heq
        · exact absurd hword (by decide)
      have hsome : ∀ {t : String}, t ≠ "" → some t ≠ some "" := fun ht heq => ht (Option.some.inj heq)
      rw [Document.filled?_eq_self (hsome h), Option.map_some, Document.filled?_eq_self (hsome hhidden)]

namespace Credential

/-- A token is a credential unless it is missing or empty. -/
theorem given_eq (f : CollaboratorFault) (token : Option String) :
    (match token.getD "" with
      | "" => Except.error f
      | t => Except.ok t) = (Text.filled? token).elim (.error f) .ok := by
  by_cases h : token = some ""
  · subst h
    rfl
  · rw [Document.filled?_eq_self h]
    cases token with
    | none => rfl
    | some s =>
      split
      · next hempty => exact absurd (congrArg some hempty) h
      · rfl

theorem fixed_eq (token : Option String) : fixed token = (Text.filled? token).elim (.error .noToken) .ok :=
  given_eq _ token

theorem ofEnvironment_eq (env : List (String × String)) (name : String) :
    ofEnvironment env name = (Text.filled? (env.lookup name)).elim (.error (.variableUnset name)) .ok :=
  given_eq _ (env.lookup name)

theorem map_hideText (f : CollaboratorFault) (token : Option String) :
    ((Text.filled? token).elim (.error f) .ok : Credential).map hideText =
      (Text.filled? (token.map hideText)).elim (.error f) .ok := by
  rw [← Text.filled?_map_hideText]
  cases Text.filled? token <;> rfl

end Credential

/-! ## Requests -/

variable {x y : Exchange} {base : Address}

/-- Exchanges that differ in authorizations alone still do after a request that does. -/
theorem Exchange.send_masked (h : x.masked = y.masked) {r r' : Request} (hr : r.masked = r'.masked) :
    (x.send r).1 = (y.send r').1 ∧ (x.send r).2.masked = (y.send r').2.masked := by
  obtain ⟨hreplies, hrequests⟩ := Exchange.mk.inj h
  refine ⟨congrArg (·.headD exhausted) hreplies, ?_⟩
  simp only [send, masked, List.map_append, List.map_cons, List.map_nil, hr] at hrequests ⊢
  rw [hrequests, show x.replies = y.replies from hreplies]

namespace Call

variable {c : Call} {token : Option String}

/-- Calls whose tokens cannot be told apart when they are hidden make requests that differ in authorizations alone. -/
theorem request_masked (h : c.token.map hideText = token.map hideText) (base : Address) :
    (c.request base).masked = ({ c with token := token }.request base).masked := by
  have hsent : (Text.filled? c.token).map (fun _ => LogEntry.maskText) =
      (Text.filled? token).map fun _ => LogEntry.maskText := by
    have hfilled := congrArg (Option.map fun _ => LogEntry.maskText) (congrArg Text.filled? h)
    rwa [← Text.filled?_map_hideText, ← Text.filled?_map_hideText, Option.map_map, Option.map_map] at hfilled
  simp only [request, Request.masked, Option.map_map]
  exact congrArg (Request.mk _ _ · _) hsent

/-- And the same keeps these requests from being made: a word can be written in a header. -/
theorem unsendable?_congr (h : c.token.map hideText = token.map hideText) (base : Address) :
    c.unsendable? base = { c with token := token }.unsendable? base := by
  have hheader : (c.request base).authorization.bind Request.unencodable? =
      ({ c with token := token }.request base).authorization.bind Request.unencodable? := by
    have htokens := rel_of_map_eq h
    generalize htoken : c.token = given at htokens
    cases htokens with
    | none => rw [request, request, htoken]
    | @some t t' hhidden =>
      rcases Settings.eq_or_isWord_of_hideText_eq hhidden with rfl | ⟨ht, ht'⟩
      · rw [request, request, htoken]
      · rw [(bind_authorization_eq_none_iff htoken base).mpr (Text.isAscii_of_isWord ht),
          (bind_authorization_eq_none_iff rfl base).mpr (Text.isAscii_of_isWord ht')]
  unfold unsendable?
  rw [hheader]

/-- **A call tells of its token in its request alone.** -/
theorem sameSteps_run (c : Call) (h : c.token.map hideText = token.map hideText) (base : Address) :
    SameSteps Exchange.masked (c.run base) ({ c with token := token }.run base) := by
  intro x y hxy
  unfold run
  rw [← unsendable?_congr h]
  cases c.unsendable? base with
  | some fault => exact ⟨rfl, hxy⟩
  | none =>
    obtain ⟨hreply, hnext⟩ := Exchange.send_masked hxy (request_masked h base)
    exact ⟨congrArg c.judge hreply, hnext⟩

end Call

/-- A document's own objects are the same whatever was asked before. -/
theorem SchemaSource.sameSteps_ofObjects (objects : ObjectFields) (object : String) :
    SameSteps Exchange.masked (SchemaSource.ofObjects objects · object) (SchemaSource.ofObjects objects · object) := by
  intro x y hxy
  unfold ofObjects
  split
  · exact ⟨rfl, hxy⟩
  · unfold fixed
    dsimp only
    split <;> exact ⟨rfl, hxy⟩

/-- A service is asked alike with tokens that are hidden alike. -/
theorem SchemaService.sameSteps_source {c c' : Credential} (h : c.map hideText = c'.map hideText) (base : Address)
    (object : String) :
    SameSteps Exchange.masked (SchemaService.source ⟨base, some c⟩ · object)
      (SchemaService.source ⟨base, some c'⟩ · object) := by
  intro x y hxy
  cases Table.Agree.of_map_eq h with
  | error f => exact ⟨rfl, hxy⟩
  | @ok t t' hhidden =>
    have htoken : (call object (some t)).token.map hideText = (some t').map hideText := congrArg some hhidden
    obtain ⟨hanswer, hnext⟩ := Call.sameSteps_run (call object (some t)) htoken base x y hxy
    exact ⟨congrArg (judge object) hanswer, hnext⟩

/-- Records are stored alike with tokens that are hidden alike. -/
theorem RecordService.sameSteps_save {t t' : String} (h : hideText t = hideText t') (s : RecordService)
    (records : List Record) (formVersion : String) :
    SameSteps Exchange.masked (s.save records formVersion t) (s.save records formVersion t') := by
  intro x y hxy
  unfold save
  cases Record.dumpAll records with
  | error fault => exact ⟨rfl, hxy⟩
  | ok written =>
    have htoken : (call written formVersion t).token.map hideText = (some t').map hideText := congrArg some h
    obtain ⟨hanswer, hnext⟩ := Call.sameSteps_run (call written formVersion t) htoken s.base x y hxy
    have hanswer : ((call written formVersion t).run s.base x).1 =
        ((call written formVersion t').run s.base y).1 := hanswer
    have hnext : ((call written formVersion t).run s.base x).2.masked =
        ((call written formVersion t').run s.base y).2.masked := hnext
    dsimp only
    generalize (call written formVersion t).run s.base x = called,
      (call written formVersion t').run s.base y = called' at hanswer hnext
    obtain ⟨⟨outcome, log⟩, next⟩ := called
    obtain ⟨_, next'⟩ := called'
    cases hanswer
    rcases outcome with (_ | _) | answer
    · exact ⟨rfl, hnext⟩
    · exact ⟨rfl, hnext⟩
    · exact ⟨rfl, hnext⟩

/-! ## Commands -/

/-- Two commands did the same, as far as it can be told. -/
structure Done.SameView (d d' : Done) : Prop where
  ending : d.ending = d'.ending
  output : d.output = d'.output
  written : d.written = d'.written
  session : d.session.SameView Exchange.masked d'.session

namespace Command

variable {a b : Surroundings} {settings settings' : Option Settings} {s s' : Session Exchange} {d : Document}
  {c : Command}

/-- What a command finds around it, once its settings are read, is the same but for tokens. -/
structure Meets (c : Command) (a b : Surroundings) : Prop where
  workflow : a.files.lookup c.workflow = b.files.lookup c.workflow
  reader : a.reader = b.reader
  token : (a.environment.lookup Credential.defaultVariable).map hideText =
    (b.environment.lookup Credential.defaultVariable).map hideText
  folders : a.folders = b.folders
  exchange : a.exchange = b.exchange

/-- What looks at settings with their tokens hidden gives the same for settings that are the same, tokens apart. -/
theorem map_of_veiled {α : Type} {f : Settings → α} (hf : ∀ s : Settings, f s.veiled = f s)
    (h : settings.map Settings.veiled = settings'.map Settings.veiled) : settings.map f = settings'.map f := by
  have hveiled : f = f ∘ Settings.veiled := funext fun s => (hf s).symm
  rw [hveiled, ← Option.map_map, ← Option.map_map, h]

/-- A service of settings that are the same, tokens apart, is the same, its token apart. -/
theorem service_veiled (service : Settings → Option ServiceSettings)
    (hservice : ∀ s : Settings, service s.veiled = (service s).map ServiceSettings.veiled)
    (h : settings.map Settings.veiled = settings'.map Settings.veiled) :
    (settings.bind service).map ServiceSettings.veiled = (settings'.bind service).map ServiceSettings.veiled := by
  have hveiled : ∀ o : Option Settings,
      (o.bind service).map ServiceSettings.veiled = (o.map Settings.veiled).bind service := fun o => by
    cases o with
    | none => rfl
    | some s => exact (hservice s).symm
  rw [hveiled, hveiled, h]

theorem url_of_veiled {s s' : ServiceSettings} (h : s.veiled = s'.veiled) : s.url = s'.url := by
  show s.veiled.url = s'.veiled.url
  rw [h]

theorem token_of_veiled {s s' : ServiceSettings} (h : s.veiled = s'.veiled) :
    (Text.filled? s.token).map hideText = (Text.filled? s'.token).map hideText := by
  rw [Text.filled?_map_hideText, Text.filled?_map_hideText]
  exact congrArg Text.filled? (congrArg ServiceSettings.token h)

section Credentials

variable {service service' : ServiceSettings} {env env' : Environment} (h : service.veiled = service'.veiled)
  (henv : (env.lookup Credential.defaultVariable).map hideText =
    (env'.lookup Credential.defaultVariable).map hideText)

include h henv

/-- The service that knows the fields of objects gives the same, whatever the tokens are. -/
theorem schemaService_sameSteps (object : String) :
    SameSteps Exchange.masked ((schemaService service env).source · object)
      ((schemaService service' env').source · object) := by
  have htoken : (Text.filled? service.token <|> env.lookup Credential.defaultVariable).map hideText =
      (Text.filled? service'.token <|> env'.lookup Credential.defaultVariable).map hideText := by
    simp only [Option.orElse_eq_orElse, Option.orElse_eq_or, Option.map_or, token_of_veiled h,
      henv]
  unfold schemaService
  rw [url_of_veiled h]
  refine SchemaService.sameSteps_source ?_ _ object
  rw [Credential.fixed_eq, Credential.fixed_eq, Credential.map_hideText, Credential.map_hideText, htoken]

/-- The credential for storing records has a token in both runs, or in neither for the same reason. -/
theorem credential_masked : (credential service env).map hideText = (credential service' env').map hideText := by
  have htoken := rel_of_map_eq (token_of_veiled h)
  unfold credential
  generalize Text.filled? service.token = token, Text.filled? service'.token = token' at htoken
  cases htoken with
  | none =>
    rw [Credential.ofEnvironment_eq, Credential.ofEnvironment_eq, Credential.map_hideText, Credential.map_hideText,
      henv]
  | some hmasked =>
    dsimp only
    rw [Credential.fixed_eq, Credential.fixed_eq, Credential.map_hideText, Credential.map_hideText, Option.map_some,
      Option.map_some, hmasked]

end Credentials

/-- **A workflow is opened alike with settings that are the same, tokens apart.** -/
theorem openWorkflow_agree (h : settings.map Settings.veiled = settings'.map Settings.veiled) (hc : c.Meets a b)
    (d : Document) :
    Table.Agree (Session.SameView Exchange.masked) (openWorkflow d settings a) (openWorkflow d settings' b) := by
  have hwindow := map_of_veiled (f := Settings.window) (fun _ => rfl) h
  have hschema := rel_of_map_eq (service_veiled Settings.schema (fun _ => rfl) h)
  unfold openWorkflow
  rw [hwindow, hc.exchange]
  generalize settings.bind Settings.schema = schema, settings'.bind Settings.schema = schema' at hschema ⊢
  cases hschema with
  | none =>
    simp only [Option.map_none, Option.isSome_none]
    cases Editor.openOn d _ false with
    | error f => exact .error _
    | ok e => exact .ok ⟨rfl, SchemaSource.sameSteps_ofObjects d.objects, rfl, rfl, rfl⟩
  | some hservice =>
    simp only [Option.map_some, Option.isSome_some]
    cases Editor.openOn d _ true with
    | error f => exact .error _
    | ok e => exact .ok ⟨rfl, schemaService_sameSteps hservice hc.token, rfl, rfl, rfl⟩

/-- The problems of nodes are the same. -/
theorem nodeProblems_alike (h : s.SameView Exchange.masked s') (ids : List String) :
    (nodeProblems s ids).1 = (nodeProblems s' ids).1 ∧
      (nodeProblems s ids).2.SameView Exchange.masked (nodeProblems s' ids).2 := by
  induction ids generalizing s s' with
  | nil => exact ⟨rfl, h⟩
  | cons id ids ih =>
    obtain ⟨hresult, hchecked⟩ := h.checkNode id
    obtain ⟨hrest, hlater⟩ := ih hchecked
    simp only [nodeProblems, hresult, hrest]
    exact ⟨trivial, hlater⟩

theorem runValidate_sameView (h : s.SameView Exchange.masked s') (file : String) :
    (runValidate file s).SameView (runValidate file s') := by
  obtain ⟨hproblems, hlater⟩ := nodeProblems_alike h (s.editor.sequence.map (·.id))
  unfold runValidate
  rw [← h.editor]
  simp only [← hproblems]
  split
  · exact ⟨rfl, rfl, rfl, hlater⟩
  · exact ⟨rfl, rfl, rfl, hlater⟩

theorem runOrder_sameView (h : s.SameView Exchange.masked s') : (runOrder s).SameView (runOrder s') := by
  refine ⟨rfl, ?_, rfl, h⟩
  rw [runOrder, runOrder, h.editor]

theorem runCompile_sameView (h : s.SameView Exchange.masked s') (hc : c.Meets a b) (output : Option Path) :
    (runCompile output a s).SameView (runCompile output b s') := by
  obtain ⟨hresult, hlater⟩ := h.compile
  unfold runCompile
  generalize s.compile = compiled, s'.compile = compiled' at hresult hlater
  obtain ⟨result, after⟩ := compiled
  obtain ⟨_, after'⟩ := compiled'
  cases hresult
  rw [hc.folders]
  cases result with
  | error f => exact ⟨rfl, rfl, rfl, hlater⟩
  | ok records =>
    dsimp only
    cases recordsText records with
    | error fault => exact ⟨rfl, rfl, rfl, hlater⟩
    | ok text =>
      cases output with
      | none => exact ⟨rfl, rfl, rfl, hlater⟩
      | some path =>
        dsimp only
        split
        · exact ⟨rfl, rfl, rfl, hlater⟩
        · exact ⟨rfl, rfl, rfl, hlater⟩

theorem runPublish_sameView (h : s.SameView Exchange.masked s') {service service' : ServiceSettings}
    (hservice : service.veiled = service'.veiled) {env env' : Environment}
    (henv : (env.lookup Credential.defaultVariable).map hideText =
      (env'.lookup Credential.defaultVariable).map hideText)
    (version : String) : (runPublish service version env s).SameView (runPublish service' version env' s') := by
  have htokens := (Table.Agree.of_map_eq (credential_masked hservice henv)).imp fun t t' hmasked records =>
    RecordService.sameSteps_save hmasked (.mk (.parse service.url)) records version
  obtain ⟨hresult, hlater⟩ := h.publish (RecordService.mk (.parse service.url)).save version htokens
  unfold runPublish
  rw [← url_of_veiled hservice]
  generalize s.publish _ _ _ = published, s'.publish _ _ _ = published' at hresult hlater
  obtain ⟨result, after⟩ := published
  obtain ⟨_, after'⟩ := published'
  cases hresult
  cases result with
  | error f => exact ⟨rfl, rfl, rfl, hlater⟩
  | ok receipt => exact ⟨rfl, rfl, rfl, hlater⟩

/-- **A command does the same with settings that are the same, tokens apart.** -/
theorem carryOut_agree (h : settings.map Settings.veiled = settings'.map Settings.veiled) (hc : c.Meets a b) :
    Table.Agree Done.SameView (c.carryOut settings a) (c.carryOut settings' b) := by
  have hread : c.readWorkflow a = c.readWorkflow b := by rw [readWorkflow, readWorkflow, hc.workflow, hc.reader]
  have hopened : Table.Agree (fun x y => x.1 = y.1 ∧ x.2.SameView Exchange.masked y.2)
      (do let d ← c.readWorkflow a; return (d, ← openWorkflow d settings a))
      (do let d ← c.readWorkflow b; return (d, ← openWorkflow d settings' b)) := by
    rw [hread]
    refine .bind_left _ fun d => (openWorkflow_agree h hc d).bind fun s s' hs => .ok ⟨rfl, hs⟩
  unfold carryOut
  cases c with
  | validate workflow path =>
    exact hopened.bind fun x y hxy => .ok (runValidate_sameView hxy.2 _)
  | order workflow =>
    exact hopened.bind fun x y hxy => .ok (runOrder_sameView hxy.2)
  | compile workflow output path =>
    exact hopened.bind fun x y hxy => .ok (runCompile_sameView hxy.2 hc output)
  | publish workflow path given =>
    have hservices := rel_of_map_eq (service_veiled Settings.persistence (fun _ => rfl) h)
    generalize settings.bind Settings.persistence = service, settings'.bind Settings.persistence = service'
      at hservices ⊢
    cases hservices with
    | none => exact .error _
    | some hservice =>
      refine hopened.bind fun x y hxy => ?_
      obtain ⟨hd, hs⟩ := hxy
      dsimp only
      rw [← hd]
      cases version? given x.1 with
      | none => exact .error _
      | some version => exact .ok (runPublish_sameView hs hservice hc.token version)

/-- **A command reports the same with settings that are the same, tokens apart**, but for what its requests were
authorized with. -/
theorem report_masked (o : GlobalOptions) (h : settings.map Settings.veiled = settings'.map Settings.veiled)
    (hc : c.Meets a b) : (c.report o settings a).masked = (c.report o settings' b).masked := by
  have hentry : settings.toList.map settingsEntry = settings'.toList.map settingsEntry := by
    rw [← Option.toList_map, ← Option.toList_map, map_of_veiled (f := settingsEntry) (fun s => ?_) h]
    rw [settingsEntry, settingsEntry, s.redacted_veiled]
  have hseverity := map_of_veiled (f := fun s => s.log.level.severity) (fun _ => rfl) h
  have hjson := map_of_veiled (f := fun s => s.log.asJson) (fun _ => rfl) h
  have hdone := carryOut_agree h hc
  unfold report threshold
  rw [hentry, hseverity, hjson]
  generalize c.carryOut settings a = done, c.carryOut settings' b = done' at hdone
  cases hdone with
  | error e => rfl
  | ok hdone =>
    obtain ⟨hending, houtput, hwritten, hsession⟩ := hdone
    obtain ⟨-, hrequests⟩ := Exchange.mk.inj hsession.desk.state
    simp only [Report.masked, hending, houtput, hwritten, hsession.desk.log, hrequests]

end Command

end FormFlow
