import FormFlow.Proofs.Confinement
/-!
Tokens reach the authorization of requests, and nothing else.

Whatever loads them, settings that are loaded alike, tokens apart, come to the same settings, tokens apart, as long as
no placeholder outside tokens is filled from a variable with another value (`Command.KeepsTokens.readSettings_agree`).
So the runs report the same, but for what their requests were authorized with (`run_hides_tokens`). A placeholder can
carry a token into an address, and the panel about that address tells it (`run_carrying_told`).
-/

set_option autoImplicit false

namespace FormFlow

namespace Command

variable {a b : Surroundings} {c : Command}

/-- Two runs of a command find the same around them but for tokens: what settings files, if there are any, and variables
set cannot be told apart when tokens are hidden, nor can the tokens that are filled in. -/
structure SameButTokens (c : Command) (a b : Surroundings) : Prop where
  workflow : a.files.lookup c.workflow = b.files.lookup c.workflow
  reader : a.reader = b.reader
  settings : ∀ path, c.settings = some path → Option.Rel
    (fun text text' =>
      Settings.LoadedAlike (a.loader (some text) a.environment) (b.loader (some text') b.environment))
    (a.files.lookup path) (b.files.lookup path)
  environment : a.environment.SameNames b.environment
  token : (a.environment.lookup Credential.defaultVariable).map Settings.hideText =
    (b.environment.lookup Credential.defaultVariable).map Settings.hideText
  tokens : ∀ path text ms, c.settings = some path → a.files.lookup path = some text →
    a.loader (some text) a.environment = .ok ms →
    Settings.TokensFilledAlike a.environment b.environment (Settings.withLowerNames ms)
  folders : a.folders = b.folders
  exchange : a.exchange = b.exchange

/-- And no placeholder that is filled outside tokens names a variable with another value. -/
structure KeepsTokens (c : Command) (a b : Surroundings) : Prop extends SameButTokens c a b where
  placeholders : ∀ path text ms, c.settings = some path → a.files.lookup path = some text →
    a.loader (some text) a.environment = .ok ms →
    Settings.FilledAlike a.environment b.environment (Settings.withLowerNames ms)

theorem KeepsTokens.meets (h : c.KeepsTokens a b) : c.Meets a b :=
  ⟨h.workflow, h.reader, h.token, h.folders, h.exchange⟩

/-- The settings are read alike, tokens apart. -/
theorem KeepsTokens.readSettings_agree (h : c.KeepsTokens a b) :
    Table.Agree (fun settings settings' : Option Settings =>
      settings.map Settings.veiled = settings'.map Settings.veiled) (c.readSettings a) (c.readSettings b) := by
  unfold readSettings
  cases hpath : c.settings with
  | none => exact .ok rfl
  | some path =>
    have hfiles := h.settings path hpath
    dsimp only
    generalize htext : a.files.lookup path = file, b.files.lookup path = file' at hfiles
    cases hfiles with
    | none => exact .error _
    | @some text text' hloaded =>
      have hread := Settings.load_veiled hloaded h.environment
        (fun ms hms => h.placeholders path text ms hpath htext hms)
        fun ms hms => h.tokens path text ms hpath htext hms
      dsimp only
      generalize Settings.load a.loader (some text) a.environment = loaded,
        Settings.load b.loader (some text') b.environment = loaded' at hread
      cases Table.Agree.of_map_eq hread with
      | ok hveiled => exact .ok (congrArg some hveiled)
      | error f => cases f <;> exact .error _

/-- **Runs of a command that differ in tokens alone report the same**, but for what their requests were authorized
with. -/
theorem KeepsTokens.run_masked (h : c.KeepsTokens a b) (o : GlobalOptions) :
    (c.run o a).masked = (c.run o b).masked := by
  have hsettings := h.readSettings_agree
  unfold Command.run
  generalize c.readSettings a = settings, c.readSettings b = settings' at hsettings
  cases hsettings with
  | error e => rfl
  | ok hveiled => exact report_masked o hveiled h.meets

end Command

namespace Invocation

variable {i : Invocation} {a b : Surroundings} {R : Command → Surroundings → Surroundings → Prop}

/-- Two runs of an invocation, once the file of variables is read, find around them what the command relates. -/
def Finds (R : Command → Surroundings → Surroundings → Prop) (i : Invocation) (a b : Surroundings) : Prop :=
  Table.Agree (fun x y => ∀ c, i.name.read i.arguments = .known c → R c x.1 y.1)
    (withVariables i.options a) (withVariables i.options b)

/-- What is said about a file of variables that was read, or not, is up to the options. -/
theorem notes_withVariables {o : GlobalOptions} {x y : Surroundings × List String} (hx : withVariables o a = .ok x)
    (hy : withVariables o b = .ok y) : x.2 = y.2 := by
  unfold withVariables at hx hy
  cases hfile : o.variableFile with
  | none =>
    rw [hfile] at hx hy
    cases hx
    cases hy
    rfl
  | some path =>
    simp only [hfile] at hx hy
    cases hskips : o.skipsVariables with
    | true =>
      simp only [hskips, if_true] at hx hy
      cases hx
      cases hy
      rfl
    | false =>
      simp only [hskips, Bool.false_eq_true, if_false] at hx hy
      split at hx
      · cases hx
      · split at hy
        · cases hy
        · cases hx
          cases hy
          rfl

theorem run_masked (h : i.Finds Command.KeepsTokens a b) : (i.run a).masked = (i.run b).masked := by
  unfold Finds at h
  unfold Invocation.run
  generalize hx : withVariables i.options a = x, hy : withVariables i.options b = y at h
  cases h with
  | error note => rfl
  | @ok x y hxy =>
    have hnotes := notes_withVariables hx hy
    obtain ⟨around, notes⟩ := x
    obtain ⟨around', _⟩ := y
    cases hnotes
    dsimp only at hxy ⊢
    cases hc : i.name.read i.arguments with
    | known c =>
      exact congrArg (fun r : Report => { r with notes := notes ++ r.notes }) ((hxy c hc).run_masked i.options)
    | help | unknown | version => rfl

end Invocation

/-- **Tokens reach the authorization of requests, and nothing else.** Runs with the same arguments that find the same
around them but for tokens report the same, and make the same requests but for what these are authorized with, as long
as no placeholder outside tokens is filled from a variable with another value. -/
theorem run_hides_tokens (arguments : List String) (a b : Surroundings)
    (h : ∀ i, Invocation.read arguments = .known i → i.Finds Command.KeepsTokens a b) :
    (run arguments a).masked = (run arguments b).masked := by
  unfold run
  cases hi : Invocation.read arguments with
  | known i => exact Invocation.run_masked (h i hi)
  | unknown | help | version => rfl

/-! ## A publication -/

/-- The arguments of a publication. -/
def publishing : List String := ["publish", "w.yaml", "-s", "s.yaml", "--form-version-id", "v1"]

/-- The command of the publication. -/
def publication : Command := .publish (.ofText "w.yaml") (.ofText "s.yaml") (some "v1")

theorem read_publishing :
    ∃ i, Invocation.read publishing = .known i ∧ i.options = ⟨false, none, false, false⟩ ∧
      i.name.read i.arguments = .known publication :=
  ⟨⟨_, .publish, ["w.yaml", "-s", "s.yaml", "--form-version-id", "v1"]⟩, by decide +kernel, rfl, by decide +kernel⟩

/-- A workflow that takes both services to publish, settings, and a token in the environment. -/
def storing (settings token : String) : Surroundings where
  files := [
    (.ofText "w.yaml",
      "nodes:\n- id: a\n  kind: create_or_update\n  config:\n    target_object: P\n    field_mappings:\n" ++
      "    - target_field: F\n      picklist_value: x\n" ++
      "edges:\n- source: start\n  target: a\n- source: a\n  target: end\n"),
    (.ofText "s.yaml", settings)]
  folders := []
  environment := [(Credential.defaultVariable, token)]
  exchange := ⟨[.answered 200 "[\x7b\"name\": \"F\", \"type\": \"picklist\"\x7d]", .answered 401 "no"], []⟩

theorem Environment.sameNames_single (name text text' : String) :
    SameNames [(name, text)] [(name, text')] := by
  intro other
  rw [List.lookup_cons, List.lookup_cons]
  split <;> rfl

/-- What the command of the publication finds is what the publication finds. -/
theorem finds_publishing {R : Command → Surroundings → Surroundings → Prop} {a b : Surroundings}
    (h : R publication a b) {i : Invocation} (hi : Invocation.read publishing = .known i) : i.Finds R a b := by
  obtain ⟨j, hj, hoptions, hcommand⟩ := read_publishing
  cases hj.symm.trans hi
  unfold Invocation.Finds
  rw [hoptions]
  refine .ok fun c hc => ?_
  cases hcommand.symm.trans hc
  exact h

section Storing

variable {settings settings' token token' : String}

theorem lookup_storing (settings token : String) :
    (storing settings token).files.lookup (.ofText "s.yaml") = some settings := rfl

/-- Two publications differ in tokens alone if their plain settings do. -/
theorem sameButTokens_storing (htoken : Settings.hideText token = Settings.hideText token')
    (hloaded : Settings.LoadedAlike (Settings.Loader.plain (some settings) [(Credential.defaultVariable, token)])
      (Settings.Loader.plain (some settings') [(Credential.defaultVariable, token')]))
    (htokens : ∀ ms, Settings.Loader.plain (some settings) [(Credential.defaultVariable, token)] = .ok ms →
      Settings.TokensFilledAlike [(Credential.defaultVariable, token)] [(Credential.defaultVariable, token')]
        (Settings.withLowerNames ms)) :
    publication.SameButTokens (storing settings token) (storing settings' token') where
  workflow := rfl
  reader := rfl
  settings path hpath := by
    cases hpath
    rw [lookup_storing, lookup_storing]
    exact .some hloaded
  environment := Environment.sameNames_single _ _ _
  token := congrArg some htoken
  tokens path text ms hpath htext hms := by
    cases hpath
    rw [lookup_storing] at htext
    cases htext
    exact htokens ms hms
  folders := rfl
  exchange := rfl

/-- And they keep their tokens if no other setting is filled from them. -/
theorem keepsTokens_storing
    (hsame : publication.SameButTokens (storing settings token) (storing settings' token'))
    (hfilled : ∀ ms, Settings.Loader.plain (some settings) [(Credential.defaultVariable, token)] = .ok ms →
      Settings.FilledAlike [(Credential.defaultVariable, token)] [(Credential.defaultVariable, token')]
        (Settings.withLowerNames ms)) :
    publication.KeepsTokens (storing settings token) (storing settings' token') where
  toSameButTokens := hsame
  placeholders path text ms hpath htext hms := by
    cases hpath
    rw [lookup_storing] at htext
    cases htext
    exact hfilled ms hms

end Storing

namespace Settings

/-- The names of the settings of a publication are in lower case. -/
theorem lower_settings : Text.lower "schema_provider" = "schema_provider" ∧ Text.lower "persistence" = "persistence" ∧
    Text.lower "url" = "url" ∧ Text.lower "token" = "token" :=
  ⟨walks_lowerNames.names _ (by decide), walks_lowerNames.names _ (by decide), by decide +kernel,
    walks_lowerNames.names _ (by decide)⟩

/-- A token in the environment sets a setting that is no service. -/
theorem sets?_defaultVariable (text : String) :
    sets? Credential.defaultVariable text = some ("token", lowerNames (Literal.ofText text)) := by
  have hpath : pathOf? Credential.defaultVariable = some ["token"] := by decide +kernel
  rw [sets?, hpath]
  rfl

/-- What the plain loader makes of a file that holds members, and of a token in the environment. -/
theorem plain_of_fileMembers {text : String} {members : Members} (h : fileMembers text = .ok members)
    (token : String) : Loader.plain (some text) [(Credential.defaultVariable, token)] =
      .ok (putOver (withLowerNames members) (some ("token", lowerNames (Literal.ofText token)))) := by
  rw [Loader.plain, Option.elim_some, h, ← sets?_defaultVariable, ← setBy_eq]
  rfl

end Settings

open Settings (lower_settings)

/-- Settings with one token written out, the other one in a placeholder, and a placeholder with a default. -/
def twoTokens (token : String) : String :=
  "schema_provider:\n  url: http://h\n  token: " ++ token ++
    "\npersistence:\n  url: $\x7bH:-http://h\x7d\n  token: $\x7bMAPFLOW_TOKEN\x7d"

/-- What the settings with two tokens hold. -/
def twoTokensRead (token : String) : Members := [
  ("schema_provider", .record [("url", .text "http://h"), ("token", .text token)]),
  ("persistence", .record [("url", .text "$\x7bH:-http://h\x7d"), ("token", .text "$\x7bMAPFLOW_TOKEN\x7d")])]

theorem withLowerNames_twoTokensRead (token : String) :
    Settings.withLowerNames (twoTokensRead token) = twoTokensRead token := by
  obtain ⟨hschema, hpersistence, hurl, htoken⟩ := lower_settings
  simp [Settings.withLowerNames, Settings.lowerMembers, Settings.lowerNames, twoTokensRead, hschema, hpersistence, hurl,
    htoken, Members.ofPairs, Members.putAll, Members.put]

/-- What is loaded of the settings with two tokens, and of a token in the environment. -/
def twoTokensLoaded : Members := twoTokensRead "abc" ++ [("token", .text "def")]

theorem withLowerNames_twoTokensLoaded : Settings.withLowerNames twoTokensLoaded = twoTokensLoaded := by
  obtain ⟨hschema, hpersistence, hurl, htoken⟩ := lower_settings
  simp [Settings.withLowerNames, Settings.lowerMembers, Settings.lowerNames, twoTokensLoaded, twoTokensRead, hschema,
    hpersistence, hurl, htoken, Members.ofPairs, Members.putAll, Members.put]

theorem keepsTokens_twoTokens :
    publication.KeepsTokens (storing (twoTokens "abc") "def") (storing (twoTokens "uvw") "xyz") := by
  have habc : Settings.fileMembers (twoTokens "abc") = .ok (twoTokensRead "abc") := by decide +kernel
  have huvw : Settings.fileMembers (twoTokens "uvw") = .ok (twoTokensRead "uvw") := by decide +kernel
  have hloaded : Settings.Loader.plain (some (twoTokens "abc")) [(Credential.defaultVariable, "def")] =
      .ok twoTokensLoaded := by
    rw [Settings.plain_of_fileMembers habc, withLowerNames_twoTokensRead]
    decide +kernel
  refine keepsTokens_storing (sameButTokens_storing (by decide +kernel) ?loaded fun ms hms => ?tokens)
    fun ms hms => ?filled
  case loaded =>
    refine Settings.loadedAlike_plain ?_ (by decide +kernel)
    rw [Settings.told, Settings.told, habc, huvw]
    simp only [Except.map, withLowerNames_twoTokensRead]
    decide +kernel
  case tokens =>
    obtain rfl := Except.ok.inj (hloaded.symm.trans hms)
    rw [withLowerNames_twoTokensLoaded]
    unfold Settings.TokensFilledAlike
    decide +kernel
  case filled =>
    obtain rfl := Except.ok.inj (hloaded.symm.trans hms)
    rw [withLowerNames_twoTokensLoaded]
    unfold Settings.FilledAlike
    decide +kernel

theorem run_hides_tokens_publishing :
    (∀ i, Invocation.read publishing = .known i →
        i.Finds Command.KeepsTokens (storing (twoTokens "abc") "def") (storing (twoTokens "uvw") "xyz")) ∧
      (run publishing (storing (twoTokens "abc") "def")).masked =
        (run publishing (storing (twoTokens "uvw") "xyz")).masked :=
  have hfinds := fun _ hi => finds_publishing keepsTokens_twoTokens hi
  ⟨hfinds, run_hides_tokens publishing _ _ hfinds⟩

/-! ## A placeholder that tells a token -/

/-- Settings that carry the token of the environment into the address of a service. -/
def carrying : String := "persistence:\n  url: $\x7bMAPFLOW_TOKEN\x7d"

/-- The escapes of a character are some characters. -/
theorem Text.escapeQuoted_ne_nil (quote c : Char) : escapeQuoted quote c ≠ [] := by
  unfold escapeQuoted escapeNumber
  repeat' split
  all_goals exact List.cons_ne_nil _ _

/-- Texts without single quotes are told apart in quotes if one goes on where the other one ends. -/
theorem Text.quoted_append_ne {s t : String} (hs : '\'' ∉ s.toList) (ht : '\'' ∉ t.toList) (hgoes : t ≠ "") :
    quoted (s ++ t) ≠ quoted s := by
  have hquote : ∀ {cs : List Char}, '\'' ∉ cs → quoteFor cs = '\'' := fun {cs} hcs => by
    rw [quoteFor, List.contains_eq_mem, decide_eq_false hcs]
    rfl
  have hboth : '\'' ∉ (s ++ t).toList := by
    rw [String.toList_append, List.mem_append]
    exact not_or.mpr ⟨hs, ht⟩
  have hescapes : t.toList.flatMap (escapeQuoted '\'') ≠ [] := by
    obtain ⟨c, cs, hcs⟩ := List.exists_cons_of_ne_nil (mt String.toList_eq_nil_iff.mp hgoes)
    rw [hcs, List.flatMap_cons]
    exact List.append_ne_nil_of_left_ne_nil (escapeQuoted_ne_nil _ c) _
  intro h
  rw [quoted, quoted, hquote hboth, hquote hs, String.ofList_inj] at h
  rw [String.toList_append, List.flatMap_append] at h
  have hrest := List.append_inj_left' h rfl
  rw [List.cons_inj_right] at hrest
  exact hescapes (List.append_right_eq_self.mp hrest)

/-- The panel about an address that is refused tells the address. -/
theorem Panel.quoted_of_refused {path : List String} {url url' : String}
    (h : settingsInvalid [⟨path, .refused (ServiceSettings.schemeMessage url)⟩] =
      settingsInvalid [⟨path, .refused (ServiceSettings.schemeMessage url')⟩]) :
    Text.quoted url = Text.quoted url' := by
  have hdescribed := (List.cons.inj (congrArg Panel.details h)).1
  have hmessage := (String.append_right_inj _).mp ((String.append_right_inj _).mp hdescribed)
  exact (String.append_right_inj _).mp hmessage

namespace Settings

/-- An address without the scheme of a service is refused, and told. -/
theorem read_of_not_isReachable {url : String} (h : ServiceSettings.isReachable url = false) :
    read (.record [("persistence", .record [("url", .text url)])]) =
      .bad [⟨["persistence", "url"], .refused (ServiceSettings.schemeMessage url)⟩] := by
  simp [read, ServiceSettings.read, ServiceSettings.readUrl, Checked.record, Checked.closed, Checked.undeclared,
    Checked.optional, Checked.required, Checked.nullable, Checked.text, Checked.ensure, Checked.fail, Checked.under,
    Members.get?, List.lookup_cons, h]

end Settings

/-- Settings with problems are told with their problems. -/
theorem Command.readSettings_of_problems {c : Command} {around : Surroundings} {path : Path} {text : String}
    {ps : List Problem} (hpath : c.settings = some path) (hfile : around.files.lookup path = some text)
    (hload : Settings.load around.loader (some text) around.environment = .error (.problems ps)) :
    c.readSettings around = .error (.failed (Panel.settingsInvalid ps)) := by
  simp only [readSettings, hpath, hfile, hload]

/-- How the publication ends if its settings cannot be read. -/
theorem ending_publishing {around : Surroundings} {e : Ending} (h : publication.readSettings around = .error e) :
    (run publishing around).ending = e := by
  obtain ⟨i, hi, hoptions, hcommand⟩ := read_publishing
  have hvariables : Invocation.withVariables i.options around = .ok (around, []) := by
    rw [Invocation.withVariables, hoptions]
  simp only [run, hi, Invocation.run, hvariables, hcommand, Command.run, h]
  rfl

/-- What is loaded of such settings, and of a token in the environment. -/
def carryingLoaded (token : String) : Members :=
  [("persistence", .record [("url", .text "$\x7bMAPFLOW_TOKEN\x7d")]), ("token", .text token)]

theorem withLowerNames_carryingLoaded (token : String) :
    Settings.withLowerNames (carryingLoaded token) = carryingLoaded token := by
  obtain ⟨-, hpersistence, hurl, htoken⟩ := lower_settings
  simp [Settings.withLowerNames, Settings.lowerMembers, Settings.lowerNames, carryingLoaded, hpersistence, hurl, htoken,
    Members.ofPairs, Members.putAll, Members.put]

theorem plain_carrying {token : String} (h : token = "a" ∨ token = "aa") :
    Settings.Loader.plain (some carrying) [(Credential.defaultVariable, token)] = .ok (carryingLoaded token) := by
  have hmembers : Settings.fileMembers carrying =
      .ok [("persistence", .record [("url", .text "$\x7bMAPFLOW_TOKEN\x7d")])] := by decide +kernel
  obtain ⟨-, hpersistence, hurl, -⟩ := lower_settings
  have hliteral : Literal.ofText token = .text token := by rcases h with rfl | rfl <;> decide +kernel
  rw [Settings.plain_of_fileMembers hmembers, hliteral]
  simp [Settings.withLowerNames, Settings.lowerMembers, Settings.lowerNames, hpersistence, hurl, Members.ofPairs,
    Members.putAll, Members.put, Settings.putOver, Members.get?, Settings.laidOver, carryingLoaded]

/-- What is wrong with such settings tells the token. -/
theorem readSettings_carrying {token : String} (h : token = "a" ∨ token = "aa") :
    publication.readSettings (storing carrying token) =
      .error (.failed (Panel.settingsInvalid
        [⟨["persistence", "url"], .refused (ServiceSettings.schemeMessage token)⟩])) := by
  have hgather : Settings.gather (carryingLoaded token) [(Credential.defaultVariable, token)] =
      [("persistence", .record [("url", .text token)])] := by
    rw [Settings.gather, withLowerNames_carryingLoaded]
    rcases h with rfl | rfl <;> decide +kernel
  have hrefused : ServiceSettings.isReachable token = false := by
    rcases h with rfl | rfl <;> decide
  have hload : Settings.load .plain (some carrying) [(Credential.defaultVariable, token)] =
      .error (.problems [⟨["persistence", "url"], .refused (ServiceSettings.schemeMessage token)⟩]) := by
    rw [Settings.load_of_loaded (plain_carrying h), hgather, Settings.read_of_not_isReachable hrefused]
    rfl
  exact Command.readSettings_of_problems rfl (lookup_storing carrying token) hload

theorem sameButTokens_carrying :
    publication.SameButTokens (storing carrying "a") (storing carrying "aa") := by
  refine sameButTokens_storing (by decide +kernel) (Settings.loadedAlike_plain rfl (by decide +kernel))
    fun ms hms => ?_
  obtain rfl := Except.ok.inj ((plain_carrying (Or.inl rfl)).symm.trans hms)
  rw [withLowerNames_carryingLoaded]
  unfold Settings.TokensFilledAlike
  decide +kernel

/-- A placeholder can carry the token of the environment elsewhere: then the panel about the settings tells it. -/
theorem run_carrying_told :
    (∀ i, Invocation.read publishing = .known i →
        i.Finds Command.SameButTokens (storing carrying "a") (storing carrying "aa")) ∧
      (run publishing (storing carrying "a")).masked ≠ (run publishing (storing carrying "aa")).masked := by
  refine ⟨fun i hi => finds_publishing sameButTokens_carrying hi, fun h => ?_⟩
  have hending := congrArg Report.ending h
  rw [Report.ending_masked, Report.ending_masked, ending_publishing (readSettings_carrying (Or.inl rfl)),
    ending_publishing (readSettings_carrying (Or.inr rfl))] at hending
  have hquoted := Panel.quoted_of_refused (Ending.failed.inj hending)
  rw [show "aa" = "a" ++ "a" by decide] at hquoted
  exact Text.quoted_append_ne (by decide) (by decide) (by decide) hquoted.symm

end FormFlow
