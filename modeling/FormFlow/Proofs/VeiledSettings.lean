import FormFlow.Proofs.HiddenTokens
import FormFlow.Proofs.Readers
/-!
Reading settings whose tokens cannot be told.

Settings with hidden tokens are read as the settings, or have the same problems (`Settings.read_hidden`): whatever a
token is, it is read, refused or not given alike. So what is loaded alike, tokens apart, comes to the same settings,
tokens apart, or to none for the same reason (`Settings.load_veiled`).
-/

set_option autoImplicit false

namespace FormFlow

open Members (onEach)
open Settings

/-! ## Reading -/

namespace Checked

variable {α : Type}

theorem closed_onEach (f : String → Value → Value) (ms : Members) (declared : List String) (x : Checked α) :
    closed (onEach f ms) declared x = closed ms declared x := by
  refine closed_congr ?_ x
  unfold undeclared
  rw [← Members.onEach_filter fun name => !declared.contains name, onEach, List.map_map]
  rfl

theorem required_onEach (f : String → Value → Value) (ms : Members) (name : String) (r : Reader α) :
    required (onEach f ms) name r = required ms name fun v => r (f name v) := by
  rw [required, required, Members.get?_onEach]
  cases Members.get? ms name <;> rfl

theorem optional_onEach (f : String → Value → Value) (ms : Members) (name : String) (default : α) (r : Reader α) :
    optional (onEach f ms) name default r = optional ms name default fun v => r (f name v) := by
  rw [optional, optional, Members.get?_onEach]
  cases Members.get? ms name <;> rfl

end Checked

/-- The service with its token hidden. -/
def ServiceSettings.veiled (s : ServiceSettings) : ServiceSettings := { s with token := s.token.map hideText }

/-- A service with a hidden token is read as that service, or has the same problems. -/
theorem ServiceSettings.read_onService (v : Value) : read (onService hide v) = veiled <$> read v := by
  have htoken : ∀ v, Checked.nullable Checked.text (hide v) =
      Option.map hideText <$> Checked.nullable Checked.text v := fun v => by cases v <;> rfl
  cases v with
  | record ms =>
    have hurl : ∀ v, onToken hide "url" v = v := fun v => if_neg (by decide)
    have htimeout : ∀ v, onToken hide "timeout_seconds" v = v := fun v => if_neg (by decide)
    have hhidden : ∀ v, onToken hide "token" v = hide v := fun v => if_pos rfl
    simp only [read, Checked.record, onService, Checked.closed_onEach, Checked.required_onEach, Checked.optional_onEach,
      hurl, htimeout, hhidden, htoken]
    rw [Checked.optional_map_none, ← Checked.closed_map]
    congr 1
    cases Checked.required ms "url" readUrl <;>
      cases Checked.optional ms "timeout_seconds" defaultTimeout readTimeout <;>
      cases Checked.optional ms "token" none (Checked.nullable Checked.text) <;> rfl
  | _ => rfl

namespace Settings

/-- The settings with their tokens hidden. -/
def veiled (s : Settings) : Settings :=
  { s with
    schema := s.schema.map ServiceSettings.veiled
    persistence := s.persistence.map ServiceSettings.veiled }

/-- The form that may be logged tells no more than the settings with their tokens hidden. -/
theorem redacted_veiled (s : Settings) : s.veiled.redacted = s.redacted := by
  have hservice : ∀ s : ServiceSettings, s.veiled.redacted = s.redacted := fun s => by
    rw [ServiceSettings.redacted, ServiceSettings.veiled, ServiceSettings.redacted, Option.map_map]
    rfl
  simp only [redacted, veiled, Option.map_map, Function.comp_def, hservice]

/-- **Settings with hidden tokens are read as the settings**, tokens apart, or have the same problems. -/
theorem read_hidden (ms : Members) : read (.record (hidden ms)) = veiled <$> read (.record ms) := by
  have hservice : ∀ v, Checked.nullable ServiceSettings.read (onService hide v) =
      Option.map ServiceSettings.veiled <$> Checked.nullable ServiceSettings.read v := by
    intro v
    cases v with
    | null => rfl
    | _ =>
      show some <$> ServiceSettings.read (onService hide _) = _ <$> some <$> ServiceSettings.read _
      rw [ServiceSettings.read_onService]
      cases ServiceSettings.read _ <;> rfl
  have hdebounce : ∀ v, onSetting hide "connect_debounce_ms" v = v := fun v => rfl
  have hlogging : ∀ v, onSetting hide "logging" v = v := fun v => rfl
  have hschema : ∀ v, onSetting hide "schema_provider" v = onService hide v := fun v => rfl
  have hpersistence : ∀ v, onSetting hide "persistence" v = onService hide v := fun v => rfl
  simp only [read, Checked.record, hidden, onTokens, Checked.closed_onEach, Checked.optional_onEach, hdebounce,
    hlogging, hschema, hpersistence, hservice, Checked.optional_map_none]
  rw [← Checked.closed_map]
  congr 1
  cases Checked.optional ms "connect_debounce_ms" default.debounce readDebounce <;>
    cases Checked.optional ms "logging" default.log LogSettings.read <;>
    cases Checked.optional ms "schema_provider" none (Checked.nullable ServiceSettings.read) <;>
    cases Checked.optional ms "persistence" none (Checked.nullable ServiceSettings.read) <;> rfl

/-! ## Loading -/

variable {loader loader' : Loader} {file file' : Option String} {env env' : Environment} {ms : Members}

/-- Settings that were read, or their problems. -/
def ofChecked : Checked Settings → Except LoadFault Settings
  | .good s => .ok s
  | .bad ps => .error (.problems ps)

theorem load_of_loaded (h : loader file env = .ok ms) :
    load loader file env = ofChecked (read (.record (gather ms env))) := by
  simp only [load, h]
  cases read (.record (gather ms env)) <;> rfl

theorem load_of_fault {cause : LoaderFault} (h : loader file env = .error cause) :
    load loader file env = .error (.unloaded cause) := by
  unfold load
  rw [h]

theorem ofChecked_map (x : Checked Settings) : ofChecked (veiled <$> x) = (ofChecked x).map veiled := by
  cases x <;> rfl

/-- **What is loaded alike comes to the same settings, tokens apart**, or to none for the same reason. -/
theorem load_veiled (hloaded : LoadedAlike (loader file env) (loader' file' env')) (henv : env.SameNames env')
    (hfilled : ∀ ms, loader file env = .ok ms → FilledAlike env env' (withLowerNames ms))
    (htokens : ∀ ms, loader file env = .ok ms → TokensFilledAlike env env' (withLowerNames ms)) :
    (load loader file env).map veiled = (load loader' file' env').map veiled := by
  have hagree := Table.Agree.of_map_eq hloaded
  generalize hms : loader file env = outcome, hns : loader' file' env' = outcome' at hagree
  cases hagree with
  | error cause => rw [load_of_fault hms, load_of_fault hns]
  | @ok ms ns hsame =>
    rw [load_of_loaded hms, load_of_loaded hns, ← ofChecked_map, ← ofChecked_map, ← read_hidden, ← read_hidden,
      hidden_gather hsame henv (hfilled ms hms) (htokens ms hms)]

end Settings

end FormFlow
