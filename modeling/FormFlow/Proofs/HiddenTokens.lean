import FormFlow.Proofs.Placeholders
/-!
Settings with their tokens hidden.

A token that is a word is hidden among the words: of members with hidden tokens no word can be told from another. What
is loaded gets its names in lower case and its placeholders filled, and neither shows a token that was hidden
(`hidden_withLowerNames`, `hidden_fillMembers`). So what is loaded alike, tokens apart, sets the same, tokens apart, as
long as placeholders are filled alike (`hidden_gather`).

In plain files and variables, what a function does to the tokens in members it does to what is laid over them, if it
does it to each (`onTokens_putOver`). So plain files and variables that differ in tokens alone are loaded alike
(`loadedAlike_plain`).
-/

set_option autoImplicit false

namespace FormFlow

namespace Members

variable {f : String → Value → Value} {ms : Members}

/-- The members with each value changed by its name. -/
def onEach (f : String → Value → Value) (ms : Members) : Members := ms.map fun entry => (entry.1, f entry.1 entry.2)

@[simp] theorem onEach_cons (entry : String × Value) :
    onEach f (entry :: ms) = (entry.1, f entry.1 entry.2) :: onEach f ms := rfl

theorem get?_onEach (f : String → Value → Value) (ms : Members) (name : String) :
    get? (onEach f ms) name = (get? ms name).map (f name) :=
  Table.lookup_map_each f ms name

theorem onEach_put (name : String) (v : Value) : onEach f (put ms name v) = put (onEach f ms) name (f name v) :=
  Table.put_map_each f ms name v

theorem onEach_ofPairs (pairs : Members) : onEach f (ofPairs pairs) = ofPairs (onEach f pairs) := by
  have hall : ∀ table, onEach f (putAll table pairs) = putAll (onEach f table) (onEach f pairs) := by
    induction pairs with
    | nil => exact fun table => rfl
    | cons entry pairs ih =>
      intro table
      show onEach f (putAll (put table entry.1 entry.2) pairs) = _
      rw [ih, onEach_put]
      rfl
  exact hall []

theorem onEach_filter (keep : String → Bool) :
    onEach f (ms.filter fun entry => keep entry.1) = (onEach f ms).filter fun entry => keep entry.1 := by
  rw [onEach, onEach, List.filter_map]
  rfl

theorem onEach_without (name : String) : onEach f (without ms name) = without (onEach f ms) name :=
  onEach_filter (· != name)

theorem onEach_onEach (g : String → Value → Value) :
    onEach g (onEach f ms) = onEach (fun name v => g name (f name v)) ms := by
  rw [onEach, onEach, List.map_map]
  rfl

theorem onEach_congr {g : String → Value → Value} (h : ∀ entry ∈ ms, f entry.1 entry.2 = g entry.1 entry.2) :
    onEach f ms = onEach g ms :=
  List.map_congr_left fun entry hentry => by rw [h entry hentry]

/-- Where members come to the same, each of their values does. -/
theorem eq_of_onEach_eq {g : String → Value → Value} (h : onEach f ms = onEach g ms) :
    ∀ entry ∈ ms, f entry.1 entry.2 = g entry.1 entry.2 :=
  fun entry hentry => (Prod.mk.inj (List.map_inj_left.mp h entry hentry)).2

end Members

open Members (onEach)

namespace Settings

/-! ## Tokens in members -/

/-- The settings of services. Each has a token. -/
def services : List String := ["schema_provider", "persistence"]

variable {f : Value → Value} {g : String → Value → Value}

/-- A field of a service, changed if it is the token. -/
def onToken (f : Value → Value) (name : String) (v : Value) : Value := if name = tokenName then f v else v

/-- A service with its token changed. -/
def onService (f : Value → Value) : Value → Value
  | .record ms => .record (onEach (onToken f) ms)
  | v => v

/-- A setting with its token changed, if it is a service. A token outside services sets nothing. -/
def onSetting (f : Value → Value) (name : String) (v : Value) : Value :=
  if name = tokenName then .null else if services.contains name then onService f v else v

/-- Members with the tokens of services changed. -/
def onTokens (f : Value → Value) (ms : Members) : Members := onEach (onSetting f) ms

/-- What a variable sets: the name of a setting, and the value to lay over it. -/
def sets? (name text : String) : Option (String × Value) :=
  match pathOf? name with
  | some (first :: rest) => some (first, below (lowerNames (Literal.ofText text)) rest)
  | _ => none

/-- Members with a setting laid over them. -/
def putOver (ms : Members) : Option (String × Value) → Members
  | some (first, v) => Members.put ms first (laidOver v ((Members.get? ms first).getD .null))
  | none => ms

theorem setBy_eq (ms : Members) (name text : String) : setBy ms name text = putOver ms (sets? name text) := by
  unfold setBy sets?
  rcases pathOf? name with _ | _ | _ <;> rfl

/-! ## Laying over -/

/-- The function treats what is laid over something as it treats the two. -/
def Lays (f : Value → Value) : Prop := ∀ v old, f (laidOver v old) = laidOver (f v) (f old)

def isRecord : Value → Bool
  | .record _ => true
  | _ => false

theorem exists_of_isRecord {v : Value} (h : isRecord v = true) : ∃ ms, v = .record ms := by
  cases v with
  | record ms => exact ⟨ms, rfl⟩
  | _ => cases h

theorem laidOver_of_not_record {v : Value} (h : isRecord v = false) (old : Value) : laidOver v old = v := by
  cases v with
  | record ms => cases h
  | _ => simp [laidOver]

theorem laidOver_of_old_not_record {old : Value} (h : isRecord old = false) (v : Value) : laidOver v old = v := by
  cases old with
  | record ms => cases h
  | _ => cases v <;> simp [laidOver]

theorem onEach_membersOver (hg : ∀ name, Lays (g name)) (old new : Members) :
    onEach g (membersOver old new) = membersOver (onEach g old) (onEach g new) := by
  induction new with
  | nil => simp [membersOver, onEach]
  | cons entry new ih =>
    obtain ⟨name, v⟩ := entry
    rw [membersOver, Members.onEach_cons, Members.onEach_cons, membersOver, ih, Members.get?_onEach]
    cases Members.get? old name with
    | none => rfl
    | some o => simp only [Option.map_some, hg name v o]

/-- A record that is changed member by member is changed like that when it is laid over another one. -/
theorem laidOver_onEach (hg : ∀ name, Lays (g name)) (new old : Members) :
    ∃ both, laidOver (.record new) (.record old) = .record both ∧
      laidOver (.record (onEach g new)) (.record (onEach g old)) = .record (onEach g both) := by
  have hlacks : ∀ name, (Members.get? (onEach g new) name).isNone = (Members.get? new name).isNone := fun name => by
    rw [Members.get?_onEach, Option.isNone_map]
  refine ⟨_, by rw [laidOver], ?_⟩
  rw [laidOver, ← onEach_membersOver hg]
  simp only [hlacks]
  rw [← Members.onEach_filter fun name => (Members.get? new name).isNone, onEach, onEach, ← List.map_append]
  rfl

/-- What makes no records out of other values, and treats records as it should, treats all values so. -/
theorem lays_of_records (hkeeps : ∀ v, isRecord v = false → isRecord (f v) = false)
    (hrecords : ∀ new old, f (laidOver (.record new) (.record old)) = laidOver (f (.record new)) (f (.record old))) :
    Lays f := by
  intro v old
  cases hv : isRecord v with
  | false => rw [laidOver_of_not_record hv, laidOver_of_not_record (hkeeps v hv)]
  | true =>
    cases hold : isRecord old with
    | false => rw [laidOver_of_old_not_record hold, laidOver_of_old_not_record (hkeeps old hold)]
    | true =>
      obtain ⟨new, rfl⟩ := exists_of_isRecord hv
      obtain ⟨olds, rfl⟩ := exists_of_isRecord hold
      exact hrecords new olds

theorem lays_onService (hf : Lays f) : Lays (onService f) := by
  have htoken : ∀ name, Lays (onToken f name) := by
    intro name v old
    unfold onToken
    split
    · exact hf v old
    · rfl
  refine lays_of_records (fun v hv => ?_) fun new old => ?_
  · cases v with
    | record ms => cases hv
    | _ => rfl
  · obtain ⟨both, hboth, hchanged⟩ := laidOver_onEach htoken new old
    rw [hboth, onService, onService, onService, hchanged]

theorem lays_onSetting (hf : Lays f) (name : String) : Lays (onSetting f name) := by
  intro v old
  unfold onSetting
  split
  · exact (laidOver_of_not_record rfl _).symm
  · split
    · exact lays_onService hf v old
    · rfl

/-- **What is done to the tokens of members is done to those of a setting that is laid over them.** -/
theorem onTokens_putOver (hf : Lays f) (ms : Members) (set : Option (String × Value)) :
    onTokens f (putOver ms set) =
      putOver (onTokens f ms) (set.map fun setting => (setting.1, onSetting f setting.1 setting.2)) := by
  cases set with
  | none => rfl
  | some setting =>
    obtain ⟨first, v⟩ := setting
    rw [Option.map_some, putOver, putOver, onTokens, Members.onEach_put, lays_onSetting hf, ← onTokens]
    unfold onTokens
    rw [Members.get?_onEach]
    cases Members.get? ms first with
    | some old => rfl
    | none =>
      -- Nothing is nothing after the change too.
      have hnull : onSetting f first .null = .null := by
        unfold onSetting
        split
        · rfl
        · split <;> rfl
      rw [Option.map_none, Option.getD_none, hnull]

/-! ## Hidden tokens -/

/-- A token that is told apart from no other: letters, at least one. -/
def isWord (s : String) : Bool := s != "" && s.toList.all Char.isAlpha

/-- A text hidden, if it is a word: every word is the same word. -/
def hideText (s : String) : String := if isWord s then tokenName else s

theorem hideText_of_isWord {s : String} (h : isWord s = true) : hideText s = tokenName := if_pos h

theorem hideText_hideText (s : String) : hideText (hideText s) = hideText s := by
  cases h : isWord s with
  | true => rw [hideText_of_isWord h, hideText_of_isWord (by decide)]
  | false =>
    have hplain : hideText s = s := by rw [hideText, h, if_neg Bool.false_ne_true]
    rw [hplain, hplain]

/-- Texts that cannot be told apart when words are hidden are the same, or words. -/
theorem eq_or_isWord_of_hideText_eq {s t : String} (h : hideText s = hideText t) :
    s = t ∨ isWord s = true ∧ isWord t = true := by
  have hname : isWord tokenName = true := by decide
  cases hs : isWord s with
  | true =>
    cases ht : isWord t with
    | true => exact Or.inr ⟨rfl, rfl⟩
    | false =>
      rw [hideText_of_isWord hs, hideText, ht, if_neg Bool.false_ne_true] at h
      cases ht.symm.trans (h ▸ hname)
  | false =>
    cases ht : isWord t with
    | true =>
      rw [hideText_of_isWord ht, hideText, hs, if_neg Bool.false_ne_true] at h
      cases hs.symm.trans (h ▸ hname)
    | false =>
      rw [hideText, hideText, hs, ht] at h
      exact Or.inl h

/-- A token hidden. -/
def hide : Value → Value
  | .text s => .text (hideText s)
  | v => v

/-- Members with their tokens hidden. -/
def hidden (ms : Members) : Members := onTokens hide ms

theorem lays_hide : Lays hide := by
  refine lays_of_records (fun v hv => ?_) fun new old => ?_
  · cases v with
    | record ms => cases hv
    | _ => rfl
  · rw [laidOver]
    rfl

end Settings

open Settings

namespace Settings

variable {ms ns : Members} {env env' : Environment}

/-! ## Walks through records -/

/-- A function that renames the members of records, changes their values, and then joins them in some way, goes through
records. It shows no token that was hidden, and leaves the names of services and tokens. -/
structure Walks (rename : String → String) (change : Value → Value) (join : Members → Members) : Prop where
  record : ∀ ms, change (.record ms) = .record (join (ms.map fun entry => (rename entry.1, change entry.2)))
  join : ∀ (g : String → Value → Value) (ms : Members), onEach g (join ms) = join (onEach g ms)
  hide : ∀ v, hide (change (hide v)) = hide (change v)
  names : ∀ name ∈ tokenName :: services, rename name = name

namespace Walks

variable {rename : String → String} {change : Value → Value} {join : Members → Members}

/-- What is done to each member before makes no difference if it makes none to each. -/
theorem onEach_onEach (h : Walks rename change join) {g : String → Value → Value}
    (hg : ∀ name v, g (rename name) (change (g name v)) = g (rename name) (change v)) (ms : Members) :
    onEach g (join ((onEach g ms).map fun entry => (rename entry.1, change entry.2))) =
      onEach g (join (ms.map fun entry => (rename entry.1, change entry.2))) := by
  rw [h.join, h.join]
  simp only [onEach, List.map_map, Function.comp_def, hg]

/-- A service with a hidden token shows no more of it. -/
theorem onService_hide (h : Walks rename change join) (v : Value) :
    onService Settings.hide (change (onService Settings.hide v)) = onService Settings.hide (change v) := by
  cases v with
  | record ms =>
    rw [onService, h.record, h.record, onService, onService, h.onEach_onEach fun name v => ?_]
    by_cases hname : name = tokenName
    · subst hname
      rw [h.names _ List.mem_cons_self, onToken, onToken, onToken, if_pos rfl, if_pos rfl, if_pos rfl, h.hide]
    · have hkept : onToken Settings.hide name v = v := if_neg hname
      rw [hkept]
  | _ => rfl

/-- **Members with hidden tokens show no more of them.** -/
theorem hidden (h : Walks rename change join) (ms : Members) :
    Settings.hidden (join ((Settings.hidden ms).map fun entry => (rename entry.1, change entry.2))) =
      Settings.hidden (join (ms.map fun entry => (rename entry.1, change entry.2))) := by
  refine h.onEach_onEach (fun name v => ?_) ms
  by_cases hname : name = tokenName
  · subst hname
    rw [h.names _ List.mem_cons_self]
    rfl
  · cases hin : services.contains name with
    | true =>
      have hservice : ∀ v, onSetting Settings.hide name v = onService Settings.hide v := fun v => by
        rw [onSetting, if_neg hname, if_pos hin]
      rw [h.names _ (List.mem_cons_of_mem _ (List.contains_iff_mem.mp hin)), hservice, hservice, hservice,
        h.onService_hide]
    | false =>
      have hkept : onSetting Settings.hide name v = v := by
        rw [onSetting, if_neg hname, hin, if_neg Bool.false_ne_true]
      rw [hkept]

end Walks

theorem hide_lowerNames (v : Value) : hide (lowerNames (hide v)) = hide (lowerNames v) := by
  cases v with
  | text s => simp only [hide, lowerNames, hideText_hideText]
  | _ => rfl

theorem lowerMembers_eq (ms : Members) :
    lowerMembers ms = ms.map fun entry => (Text.lower entry.1, lowerNames entry.2) := by
  induction ms with
  | nil => rw [lowerMembers, List.map_nil]
  | cons entry ms ih => rw [lowerMembers, ih, List.map_cons]

theorem walks_lowerNames : Walks Text.lower lowerNames Members.ofPairs where
  record ms := by rw [lowerNames, lowerMembers_eq]
  join g ms := Members.onEach_ofPairs ms
  hide := hide_lowerNames
  names := by decide +kernel

/-- Names in lower case show no token that was hidden. -/
theorem hidden_withLowerNames (ms : Members) : hidden (withLowerNames (hidden ms)) = hidden (withLowerNames ms) := by
  rw [withLowerNames, withLowerNames, lowerMembers_eq, lowerMembers_eq]
  exact walks_lowerNames.hidden ms

theorem fill_of_isWord {s : String} (h : isWord s = true) (env : Environment) : env.fill s = s := by
  have hletters := List.all_eq_true.mp (Bool.and_eq_true_iff.mp h).2
  have hplain : '$' ∉ s.toList := fun hmem => absurd (hletters '$' hmem) (by decide)
  rw [Environment.fill, Text.fill, Text.fillFrom_of_not_mem hplain, String.ofList_toList]

/-- A hidden token is filled like the token: there is no placeholder in a word. -/
theorem hide_fillIn (env : Environment) (v : Value) : hide (env.fillIn (hide v)) = hide (env.fillIn v) := by
  cases v with
  | text s =>
    cases h : isWord s with
    | true =>
      have hname : isWord tokenName = true := by decide
      rw [hide, hideText_of_isWord h, Environment.fillIn, Environment.fillIn, fill_of_isWord h, fill_of_isWord hname,
        hide, hide, hideText_of_isWord h, hideText_of_isWord hname]
    | false => rw [hide, hideText, h, if_neg Bool.false_ne_true]
  | _ => rfl

theorem fillMembers_eq (env : Environment) (ms : Members) :
    env.fillMembers ms = onEach (fun _ => env.fillIn) ms := by
  induction ms with
  | nil => simp [Environment.fillMembers, onEach]
  | cons entry ms ih => rw [Environment.fillMembers, ih, Members.onEach_cons]

theorem walks_fillIn (env : Environment) : Walks id env.fillIn id where
  record ms := by
    rw [Environment.fillIn, fillMembers_eq]
    rfl
  join g ms := rfl
  hide := hide_fillIn env
  names _ _ := rfl

/-- Filling shows no token that was hidden. -/
theorem hidden_fillMembers (env : Environment) (ms : Members) :
    hidden (env.fillMembers (hidden ms)) = hidden (env.fillMembers ms) := by
  rw [fillMembers_eq, fillMembers_eq]
  exact (walks_fillIn env).hidden ms

/-! ## Filling -/

/-- Members without what their tokens are. -/
def withoutTokens (ms : Members) : Members := onTokens (fun _ => .null) ms

/-- The placeholders that are filled outside tokens name variables with the same values. -/
def FilledAlike (env env' : Environment) (ms : Members) : Prop :=
  ∀ s ∈ Value.textsInMembers (withoutTokens ms), ∀ name ∈ env.replaced s, env.lookup name = env'.lookup name

/-- Tokens whose placeholders are filled from either environment cannot be told apart when they are hidden. -/
def TokensFilledAlike (env env' : Environment) (ms : Members) : Prop :=
  onTokens (fun v => hide (env.fillIn v)) ms = onTokens (fun v => hide (env'.fillIn v)) ms

/-- A service that is filled from either environment is the same, its token apart. -/
theorem onService_fillIn_congr {v : Value}
    (hopen : env.fillIn (onService (fun _ => .null) v) = env'.fillIn (onService (fun _ => .null) v))
    (htoken : onService (fun v => hide (env.fillIn v)) v = onService (fun v => hide (env'.fillIn v)) v) :
    onService hide (env.fillIn v) = onService hide (env'.fillIn v) := by
  cases v with
  | record ms =>
    simp only [onService, Environment.fillIn, fillMembers_eq, Members.onEach_onEach, Value.record.injEq]
      at hopen htoken ⊢
    refine Members.onEach_congr fun entry hentry => ?_
    have hsame := Members.eq_of_onEach_eq hopen entry hentry
    have hhidden := Members.eq_of_onEach_eq htoken entry hentry
    unfold onToken at hsame hhidden ⊢
    by_cases hname : entry.1 = tokenName
    · rw [if_pos hname, if_pos hname] at hhidden ⊢
      exact hhidden
    · rw [if_neg hname] at hsame
      rw [if_neg hname, if_neg hname]
      exact hsame
  | _ => exact congrArg _ hopen

/-- **Members that are filled from either environment are the same, tokens apart**, if placeholders are filled alike. -/
theorem hidden_fillMembers_congr (henv : env.SameNames env') (hfilled : FilledAlike env env' ms)
    (htokens : TokensFilledAlike env env' ms) : hidden (env.fillMembers ms) = hidden (env'.fillMembers ms) := by
  have hopen : env.fillMembers (withoutTokens ms) = env'.fillMembers (withoutTokens ms) :=
    Environment.fillMembers_congr fun s hs => henv.fill_congr (hfilled s hs)
  unfold TokensFilledAlike at htokens
  simp only [hidden, withoutTokens, onTokens, fillMembers_eq, Members.onEach_onEach] at hopen htokens ⊢
  refine Members.onEach_congr fun entry hentry => ?_
  have hsame := Members.eq_of_onEach_eq hopen entry hentry
  have htoken := Members.eq_of_onEach_eq htokens entry hentry
  unfold onSetting at hsame htoken ⊢
  split
  · rfl
  · next hname =>
    rw [if_neg hname] at hsame htoken
    split
    · next hin =>
      rw [if_pos hin] at hsame
      rw [if_pos hin, if_neg hname, if_pos hin] at htoken
      exact onService_fillIn_congr hsame htoken
    · next hout => rwa [if_neg hout] at hsame

/-- **What is loaded alike sets the same, tokens apart**, if placeholders are filled alike. -/
theorem hidden_gather (h : hidden (withLowerNames ms) = hidden (withLowerNames ns)) (henv : env.SameNames env')
    (hfilled : FilledAlike env env' (withLowerNames ms)) (htokens : TokensFilledAlike env env' (withLowerNames ms)) :
    hidden (gather ms env) = hidden (gather ns env') := by
  have hall : hidden (env.fillMembers (withLowerNames ms)) = hidden (env'.fillMembers (withLowerNames ns)) := by
    rw [hidden_fillMembers_congr henv hfilled htokens, ← hidden_fillMembers, h, hidden_fillMembers]
  have hwithout : ∀ (env : Environment) (lower : Members),
      hidden (env.fillMembers (Members.without lower tokenName)) =
        Members.without (hidden (env.fillMembers lower)) tokenName :=
    fun env lower => by
      rw [fillMembers_eq, fillMembers_eq, Members.onEach_without]
      exact Members.onEach_without _
  rw [gather, gather, hwithout, hwithout, hall]

/-! ## Plain files and variables -/

/-- What is loaded cannot be told apart when tokens are hidden, or it fails to load for the same reason. -/
def LoadedAlike (loaded loaded' : Except LoaderFault Members) : Prop :=
  loaded.map (fun ms => hidden (withLowerNames ms)) = loaded'.map fun ms => hidden (withLowerNames ms)

end Settings

/-- What can be told of a variable that sets something when tokens are hidden. -/
def Environment.told (entry : String × String) : Option (String × Value) :=
  (sets? entry.1 entry.2).map fun setting => (setting.1, onSetting hide setting.1 setting.2)

namespace Settings

variable {ms ns : Members} {env env' : Environment}

/-- **Members with hidden tokens, and what can be told of variables, say what the variables laid over them are.** -/
theorem hidden_overlay (env : Environment) (ms : Members) :
    hidden (overlay env ms) = (env.map Environment.told).foldl putOver (hidden ms) := by
  unfold overlay
  induction env generalizing ms with
  | nil => rfl
  | cons entry env ih =>
    rw [List.foldl_cons, ih, List.map_cons, List.foldl_cons]
    simp only [hidden, setBy_eq, onTokens_putOver lays_hide]
    rfl

/-- What can be told of the text of a settings file when tokens are hidden. -/
def told (text : String) : Except LoaderFault Members := (fileMembers text).map fun ms => hidden (withLowerNames ms)

/-- **Plain files and variables that differ in tokens alone are loaded alike.** -/
theorem loadedAlike_plain {text text' : String} (htext : told text = told text')
    (henv : env.map Environment.told = env'.map Environment.told) :
    LoadedAlike (Loader.plain (some text) env) (Loader.plain (some text') env') := by
  have hagree := Table.Agree.of_map_eq htext
  unfold LoadedAlike Loader.plain
  simp only [Option.elim_some]
  generalize fileMembers text = file, fileMembers text' = file' at hagree
  cases hagree with
  | error f => rfl
  | @ok ms ns hsame =>
    have hlaid : hidden (overlay env (withLowerNames ms)) = hidden (overlay env' (withLowerNames ns)) := by
      rw [hidden_overlay, hidden_overlay, henv, hsame]
    simp only [Except.map]
    rw [← hidden_withLowerNames, hlaid, hidden_withLowerNames]

end Settings

end FormFlow
