import Mathlib.Data.List.TakeWhile
import FormFlow.Proofs.Placeholders
/-!
What texts are filled with.

A text that is written as pieces, each without a `$` or a placeholder, is filled piece by piece
(`Environment.fill_pieces`): a placeholder is found where it was written, whatever stands in its default and in the
pieces around it, and what it stands for is not looked at again. A text without a placeholder stays
(`Environment.fill_eq_self`). A value is filled text by text, and nothing else of it is changed
(`Environment.eq_fillIn_iff`).
-/

set_option autoImplicit false

namespace FormFlow

namespace Text

namespace Placeholder

variable {p : Placeholder} {cs rest : List Char}

/-- A placeholder that can be written: its name is the name of a variable, and its default ends at the closing brace. -/
structure WellFormed (p : Placeholder) : Prop where
  name : Environment.isName p.name = true
  default : ∀ d, p.default = some d → '\x7d' ∉ d

/-- The characters of a placeholder. -/
def written (p : Placeholder) : List Char := '$' :: p.toList

/-- The characters of a placeholder that come after its name. -/
theorem toList_eq (p : Placeholder) :
    p.toList = '\x7b' :: p.name ++ (p.default.elim [] fun d => ':' :: '-' :: d) ++ ['\x7d'] := by
  unfold toList
  cases p.default <;> rfl

/-- The characters of a name are none of those that a placeholder is cut at. -/
theorem ne_of_mem_name (h : Environment.isName cs = true) {c : Char} (hc : c ∈ cs) :
    c ≠ '$' ∧ c ≠ ':' ∧ c ≠ '\x7d' := by
  have hlater : Environment.isLater c = true := by
    cases cs with
    | nil => cases h
    | cons first cs =>
      obtain ⟨hfirst, hall⟩ := Bool.and_eq_true_iff.mp h
      rcases List.mem_cons.mp hc with rfl | hc
      · rw [Environment.isLater, hfirst, Bool.true_or]
      · exact List.all_eq_true.mp hall c hc
  refine ⟨?_, ?_, ?_⟩ <;>
  · rintro rfl
    exact absurd hlater (by decide)

/-- Characters are taken up to the first that stops. -/
theorem takeWhile_append_stop {keep : Char → Bool} (stop : Char) (hcs : ∀ c ∈ cs, keep c = true)
    (hstop : keep stop = false) (rest : List Char) : (cs ++ stop :: rest).takeWhile keep = cs := by
  rw [List.takeWhile_append_of_pos hcs, List.takeWhile_cons_of_neg (by simp [hstop]), List.append_nil]

/-- **A placeholder is read as it was written**, whatever comes after it. -/
theorem of?_append (h : p.WellFormed) (rest : List Char) : of? (p.toList ++ rest) = some p := by
  obtain ⟨name, default⟩ := p
  have hname : ∀ c ∈ name, (c != ':' && c != '\x7d') = true := fun c hc => by
    obtain ⟨-, hcolon, hbrace⟩ := ne_of_mem_name h.name hc
    simp [hcolon, hbrace]
  cases default with
  | none =>
    have hcut := takeWhile_append_stop '\x7d' hname (by decide) rest
    simp [toList_eq, of?, hcut]
  | some d =>
    have hd : ∀ c ∈ d, (c != '\x7d') = true := fun c hc => bne_iff_ne.mpr fun hbrace => h.default d rfl (hbrace ▸ hc)
    have hcut := takeWhile_append_stop ':' hname (by decide) ('-' :: d ++ '\x7d' :: rest)
    have hdefault := takeWhile_append_stop '\x7d' hd (by decide) rest
    simp at hcut
    simp [toList_eq, of?, hcut, hdefault]

/-- Where fewer characters are taken than there are, one stops. -/
theorem exists_stop {keep : Char → Bool} (h : (cs.takeWhile keep).length < cs.length) :
    ∃ stop rest, keep stop = false ∧ cs = cs.takeWhile keep ++ stop :: rest := by
  induction cs with
  | nil => exact absurd h (Nat.not_lt_zero _)
  | cons c cs ih =>
    by_cases hc : keep c = true
    · rw [List.takeWhile_cons_of_pos hc] at h ⊢
      obtain ⟨stop, rest, hstop, hcs⟩ := ih (Nat.lt_of_succ_lt_succ h)
      exact ⟨stop, rest, hstop, by rw [List.cons_append, ← hcs]⟩
    · rw [List.takeWhile_cons_of_neg hc]
      exact ⟨c, cs, Bool.not_eq_true _ ▸ hc, rfl⟩

/-- What is read as a placeholder begins with it as it is written, and the default ends at a closing brace. -/
theorem append_of_of?_eq_some (h : of? cs = some p) :
    (∃ rest, cs = p.toList ++ rest) ∧ ∀ d, p.default = some d → '\x7d' ∉ d := by
  unfold of? at h
  split at h
  · next rest =>
    have hrest := List.prefix_iff_eq_append.mp (List.takeWhile_prefix (l := rest) fun c => c != ':' && c != '\x7d')
    dsimp only at h
    split at h
    · next tail hdrop =>
      cases h
      rw [hdrop] at hrest
      exact ⟨⟨tail, by simp [toList_eq, hrest]⟩, nofun⟩
    · next more hdrop =>
      split at h
      · next hshorter =>
        cases h
        obtain ⟨stop, tail, hstop, hmore⟩ := exists_stop hshorter
        obtain rfl : stop = '\x7d' := by simpa using hstop
        rw [hdrop, hmore] at hrest
        refine ⟨⟨tail, ?_⟩, ?_⟩
        · simp [toList_eq, hrest]
        · rintro d ⟨⟩ hbrace
          have hkept := List.mem_takeWhile_imp hbrace
          simp at hkept
      · cases h
    · cases h
  · cases h

/-- A placeholder of a variable is read where it stands and nowhere else. -/
theorem placeholderAt_eq_some_iff {c : Char} (hname : Environment.isName p.name = true) :
    placeholderAt c rest = some p ↔ p.WellFormed ∧ p.written <+: c :: rest := by
  unfold placeholderAt written
  rw [List.cons_prefix_cons]
  constructor
  · intro h
    split at h
    · next hc =>
      obtain ⟨⟨after, rfl⟩, hdefault⟩ := append_of_of?_eq_some h
      exact ⟨⟨hname, hdefault⟩, hc.symm, List.prefix_append _ _⟩
    · cases h
  · rintro ⟨hp, rfl, after, rfl⟩
    rw [if_pos rfl, of?_append hp]

end Placeholder

variable {value : Placeholder → Option (List Char)} {cs rest : List Char} {p : Placeholder}

/-- Characters that are passed over leave nothing. -/
theorem fillFrom_skip (value : Placeholder → Option (List Char)) (cs rest : List Char) :
    fillFrom value cs.length (cs ++ rest) = fillFrom value 0 rest := by
  induction cs with
  | nil => rfl
  | cons c cs ih => exact ih

/-- Characters without a `$` stay, whatever comes after them. -/
theorem fillFrom_plain_append (h : '$' ∉ cs) (rest : List Char) :
    fillFrom value 0 (cs ++ rest) = cs ++ fillFrom value 0 rest := by
  induction cs with
  | nil => rfl
  | cons c cs ih =>
    rw [List.mem_cons, not_or] at h
    have hkept : ∀ p, placeholderAt c (cs ++ rest) = some p → value p = none := fun p hp => by
      rw [placeholderAt, if_neg (Ne.symm h.1)] at hp
      cases hp
    rw [List.cons_append, fillFrom_of_kept hkept, ih h.2, List.cons_append]

/-- A piece of a text: characters without a `$`, or a placeholder. -/
inductive Piece where
  | plain (cs : List Char) (h : '$' ∉ cs)
  | placeholder (p : Placeholder) (h : p.WellFormed)

/-- The characters of a piece as it is written. -/
def Piece.written : Piece → List Char
  | plain cs _ => cs
  | placeholder p _ => p.written

end Text

namespace Environment

open Text (Placeholder Piece fillFrom)

variable {env : Environment} {p : Placeholder}

/-- What a placeholder is replaced with: the value of its variable, or else its default, or else itself. -/
def valueOf (env : Environment) (p : Placeholder) : List Char :=
  match env.lookup (.ofList p.name), p.default with
  | some s, _ => s.toList
  | none, some d => d
  | none, none => p.written

/-- The characters that a piece is filled with. -/
def filled (env : Environment) : Piece → List Char
  | .plain cs _ => cs
  | .placeholder p _ => env.valueOf p

/-- **A placeholder is replaced**, and filling goes on after it. -/
theorem fillFrom_placeholder (env : Environment) (h : p.WellFormed) (rest : List Char) :
    fillFrom env.fillValue 0 (p.written ++ rest) = env.valueOf p ++ fillFrom env.fillValue 0 rest := by
  have hat : Text.placeholderAt '$' (p.toList ++ rest) = some p :=
    (Placeholder.placeholderAt_eq_some_iff h.name).mpr ⟨h, List.prefix_append _ _⟩
  have hreplaced : ∀ v, env.fillValue p = some v →
      fillFrom env.fillValue 0 (p.written ++ rest) = v ++ fillFrom env.fillValue 0 rest := fun v hv => by
    rw [Placeholder.written, List.cons_append, Text.fillFrom_of_replaced hat hv, Text.fillFrom_skip]
  cases hvalue : env.lookup (.ofList p.name) with
  | some s =>
    rw [hreplaced s.toList (by simp [fillValue, h.name, hvalue]), valueOf, hvalue]
  | none =>
    cases hdefault : p.default with
    | some d =>
      rw [hreplaced d (by simp [fillValue, h.name, hvalue, hdefault]), valueOf, hvalue, hdefault]
    | none =>
      -- Nothing stands for it: its `$` is kept, and no other one is in it.
      have hnone : env.fillValue p = none := by simp [fillValue, h.name, hvalue, hdefault]
      have hplain : '$' ∉ p.toList := by
        rw [Placeholder.toList_eq, hdefault]
        simpa using fun hmem => (Placeholder.ne_of_mem_name h.name hmem).1 rfl
      rw [Placeholder.written, List.cons_append, Text.fillFrom_of_kept fun q hq => ?_,
        Text.fillFrom_plain_append hplain, valueOf, hvalue, hdefault]
      · rfl
      · rw [← Option.some.inj (hat.symm.trans hq), hnone]

/-- **A text is filled piece by piece.** -/
theorem fill_pieces (env : Environment) (pieces : List Piece) :
    env.fill (.ofList (pieces.flatMap Piece.written)) = .ofList (pieces.flatMap env.filled) := by
  have hpieces : fillFrom env.fillValue 0 (pieces.flatMap Piece.written) = pieces.flatMap env.filled := by
    induction pieces with
    | nil => rfl
    | cons piece pieces ih =>
      rw [List.flatMap_cons, List.flatMap_cons, ← ih]
      cases piece with
      | plain cs h => exact Text.fillFrom_plain_append h _
      | placeholder p h => exact env.fillFrom_placeholder h _
  rw [fill, Text.fill, String.toList_ofList, hpieces]

/-- **A text without a placeholder stays.** -/
theorem fill_eq_self {s : String} (h : ∀ p : Placeholder, p.WellFormed → ¬ p.written <:+: s.toList) :
    env.fill s = s := by
  have hkept : ∀ cs : List Char, (∀ p : Placeholder, p.WellFormed → ¬ p.written <:+: cs) →
      fillFrom env.fillValue 0 cs = cs := by
    intro cs hcs
    induction cs with
    | nil => rfl
    | cons c rest ih =>
      have hc : ∀ p, Text.placeholderAt c rest = some p → env.fillValue p = none := by
        intro p hp
        by_cases hname : isName p.name = true
        · obtain ⟨hwell, hstands⟩ := (Placeholder.placeholderAt_eq_some_iff hname).mp hp
          exact absurd hstands.isInfix (hcs p hwell)
        · rw [fillValue, if_neg hname]
      rw [Text.fillFrom_of_kept hc, ih fun p hp hinside => hcs p hp (hinside.trans (List.suffix_cons c rest).isInfix)]
  rw [fill, Text.fill, hkept _ h, String.ofList_toList]

end Environment

/-! ## Values -/

namespace Value

mutual
/-- A value with each of its texts changed. -/
def mapTexts (f : String → String) : Value → Value
  | .text s => .text (f s)
  | .list items => .list (mapTextsItems f items)
  | .record ms => .record (mapTextsMembers f ms)
  | .null => .null
  | .bool b => .bool b
  | .int n => .int n
  | .float x => .float x

/-- The items of a list with each of their texts changed. -/
def mapTextsItems (f : String → String) : List Value → List Value
  | [] => []
  | v :: rest => v.mapTexts f :: mapTextsItems f rest

/-- The members of a record with each of their texts changed. -/
def mapTextsMembers (f : String → String) : Members → Members
  | [] => []
  | (name, v) :: rest => (name, v.mapTexts f) :: mapTextsMembers f rest
end

/-- A value with its texts blanked: what it is made of, the names in it, and whatever is no text. -/
def skeleton (v : Value) : Value := v.mapTexts fun _ => ""

variable (f g : String → String)

mutual
theorem mapTexts_mapTexts (v : Value) : (v.mapTexts f).mapTexts g = v.mapTexts (g ∘ f) := by
  cases v with
  | text s => simp only [mapTexts, Function.comp_apply]
  | list items => simp only [mapTexts, mapTextsItems_mapTextsItems items]
  | record ms => simp only [mapTexts, mapTextsMembers_mapTextsMembers ms]
  | _ => simp only [mapTexts]

theorem mapTextsItems_mapTextsItems (items : List Value) :
    mapTextsItems g (mapTextsItems f items) = mapTextsItems (g ∘ f) items := by
  cases items with
  | nil => rfl
  | cons v rest => simp only [mapTextsItems, mapTexts_mapTexts v, mapTextsItems_mapTextsItems rest]

theorem mapTextsMembers_mapTextsMembers (ms : Members) :
    mapTextsMembers g (mapTextsMembers f ms) = mapTextsMembers (g ∘ f) ms := by
  cases ms with
  | nil => rfl
  | cons entry rest =>
    simp only [mapTextsMembers, mapTexts_mapTexts entry.2, mapTextsMembers_mapTextsMembers rest]
end

mutual
theorem textsIn_mapTexts (v : Value) : (v.mapTexts f).textsIn = v.textsIn.map f := by
  cases v with
  | text s => simp only [mapTexts, textsIn, List.map_cons, List.map_nil]
  | list items => simp only [mapTexts, textsIn, textsInItems_mapTextsItems items]
  | record ms => simp only [mapTexts, textsIn, textsInMembers_mapTextsMembers ms]
  | _ => simp only [mapTexts, textsIn, List.map_nil]

theorem textsInItems_mapTextsItems (items : List Value) :
    textsInItems (mapTextsItems f items) = (textsInItems items).map f := by
  cases items with
  | nil => rfl
  | cons v rest =>
    simp only [mapTextsItems, textsInItems, List.map_append, textsIn_mapTexts v, textsInItems_mapTextsItems rest]

theorem textsInMembers_mapTextsMembers (ms : Members) :
    textsInMembers (mapTextsMembers f ms) = (textsInMembers ms).map f := by
  cases ms with
  | nil => rfl
  | cons entry rest =>
    simp only [mapTextsMembers, textsInMembers, List.map_append, textsIn_mapTexts entry.2,
      textsInMembers_mapTextsMembers rest]
end

/-- Values that are the same but for their texts have as many texts. -/
theorem length_textsIn_of_skeleton {v w : Value} (h : v.skeleton = w.skeleton) :
    v.textsIn.length = w.textsIn.length := by
  have hlength := congrArg (fun v => v.textsIn.length) h
  simpa only [skeleton, textsIn_mapTexts, List.length_map] using hlength

mutual
/-- **A value is what it is made of, and its texts.** -/
theorem eq_of_skeleton_of_textsIn {v w : Value} (h : v.skeleton = w.skeleton) (ht : v.textsIn = w.textsIn) : v = w := by
  cases v with
  | text s =>
    cases w with
    | text s' => rw [List.singleton_inj.mp ht]
    | _ => cases h
  | list items =>
    cases w with
    | list items' => rw [eq_of_skeletonItems_of_textsIn (Value.list.inj h) ht]
    | _ => cases h
  | record ms =>
    cases w with
    | record ms' => rw [eq_of_skeletonMembers_of_textsIn (Value.record.inj h) ht]
    | _ => cases h
  | null | bool | int | float =>
    cases w <;> cases h
    rfl

theorem eq_of_skeletonItems_of_textsIn {items items' : List Value}
    (h : mapTextsItems (fun _ => "") items = mapTextsItems (fun _ => "") items')
    (ht : textsInItems items = textsInItems items') : items = items' := by
  cases items with
  | nil =>
    cases items' with
    | nil => rfl
    | cons => cases h
  | cons v rest =>
    cases items' with
    | nil => cases h
    | cons v' rest' =>
      obtain ⟨hv, hrest⟩ := List.cons.inj h
      obtain ⟨htv, htrest⟩ := List.append_inj ht (length_textsIn_of_skeleton hv)
      rw [eq_of_skeleton_of_textsIn hv htv, eq_of_skeletonItems_of_textsIn hrest htrest]

theorem eq_of_skeletonMembers_of_textsIn {ms ms' : Members}
    (h : mapTextsMembers (fun _ => "") ms = mapTextsMembers (fun _ => "") ms')
    (ht : textsInMembers ms = textsInMembers ms') : ms = ms' := by
  cases ms with
  | nil =>
    cases ms' with
    | nil => rfl
    | cons => cases h
  | cons entry rest =>
    cases ms' with
    | nil => cases h
    | cons entry' rest' =>
      obtain ⟨name, v⟩ := entry
      obtain ⟨name', v'⟩ := entry'
      obtain ⟨hentry, hrest⟩ := List.cons.inj h
      obtain ⟨rfl, hv⟩ := Prod.mk.inj hentry
      obtain ⟨htv, htrest⟩ := List.append_inj ht (length_textsIn_of_skeleton hv)
      rw [eq_of_skeleton_of_textsIn hv htv, eq_of_skeletonMembers_of_textsIn hrest htrest]
end

end Value

namespace Environment

open Text (Placeholder Piece)

variable (env : Environment)

mutual
/-- **Filling a value fills each of its texts.** -/
theorem fillIn_eq_mapTexts (v : Value) : env.fillIn v = v.mapTexts env.fill := by
  cases v with
  | text s => simp only [fillIn, Value.mapTexts]
  | list items => simp only [fillIn, Value.mapTexts, fillItems_eq_mapTexts items]
  | record ms => simp only [fillIn, Value.mapTexts, fillMembers_eq_mapTexts ms]
  | _ => simp only [fillIn, Value.mapTexts]

theorem fillItems_eq_mapTexts (items : List Value) : env.fillItems items = Value.mapTextsItems env.fill items := by
  cases items with
  | nil => simp only [fillItems, Value.mapTextsItems]
  | cons v rest =>
    simp only [fillItems, Value.mapTextsItems, fillIn_eq_mapTexts v, fillItems_eq_mapTexts rest]

theorem fillMembers_eq_mapTexts (ms : Members) : env.fillMembers ms = Value.mapTextsMembers env.fill ms := by
  cases ms with
  | nil => simp only [fillMembers, Value.mapTextsMembers]
  | cons entry rest =>
    simp only [fillMembers, Value.mapTextsMembers, fillIn_eq_mapTexts entry.2, fillMembers_eq_mapTexts rest]
end

/-- **A value is filled exactly if its texts are**, and nothing else of it is changed. -/
theorem eq_fillIn_iff {v w : Value} :
    w = env.fillIn v ↔ w.skeleton = v.skeleton ∧ w.textsIn = v.textsIn.map env.fill := by
  rw [fillIn_eq_mapTexts]
  have hskeleton : (v.mapTexts env.fill).skeleton = v.skeleton := Value.mapTexts_mapTexts env.fill _ v
  have htexts := Value.textsIn_mapTexts env.fill v
  constructor
  · rintro rfl
    exact ⟨hskeleton, htexts⟩
  · rintro ⟨hw, hwtexts⟩
    exact Value.eq_of_skeleton_of_textsIn (hw.trans hskeleton.symm) (hwtexts.trans htexts.symm)

/-- **Placeholders are filled in one pass, wherever they stand.** Of a text that is written as pieces, the pieces
without a `$` stay, and each placeholder is replaced with the value of its variable, or else with its default, or else
stays; what it is replaced with is not filled again. A text without a placeholder stays. Of a value the texts are
filled, and nothing else is changed. -/
theorem fills_once :
    (∀ pieces : List Piece, env.fill (.ofList (pieces.flatMap Piece.written)) = .ofList (pieces.flatMap env.filled)) ∧
      (∀ s : String, (∀ p : Placeholder, p.WellFormed → ¬ p.written <:+: s.toList) → env.fill s = s) ∧
      ∀ v w : Value, w = env.fillIn v ↔ w.skeleton = v.skeleton ∧ w.textsIn = v.textsIn.map env.fill :=
  ⟨env.fill_pieces, fun _ => env.fill_eq_self, fun _ _ => env.eq_fillIn_iff⟩

/-- An environment in which the value of a variable names another one. -/
def nesting : Environment := [("A", "$\x7bB\x7d"), ("B", "b")]

/-- In that environment a value and a default with a `$` stay as they are put in, a placeholder without a value stays,
and so does what is no placeholder. In a record the text of a list is filled, and the name is not. -/
theorem fills_once_nesting :
    nesting.fill "x$\x7bA\x7d$\x7bC:-$\x7bB\x7d$\x7bD\x7d" = "x$\x7bB\x7d$\x7bB$\x7bD\x7d" ∧
      nesting.fill "$B" = "$B" ∧
      nesting.fillIn (.record [("$\x7bB\x7d", .list [.int 5, .text "$\x7bB\x7d"])]) =
        .record [("$\x7bB\x7d", .list [.int 5, .text "b"])] := by
  obtain ⟨hpieces, hplain, hvalues⟩ := nesting.fills_once
  have hmixed := hpieces [
    .plain ['x'] (by decide),
    .placeholder ⟨['A'], none⟩ ⟨by decide, nofun⟩,
    .placeholder ⟨['C'], some ['$', '\x7b', 'B']⟩ ⟨by decide, by rintro d ⟨⟩; decide⟩,
    .placeholder ⟨['D'], none⟩ ⟨by decide, nofun⟩]
  have hsingle : nesting.fill "$\x7bB\x7d" = "b" := hpieces [.placeholder ⟨['B'], none⟩ ⟨by decide, nofun⟩]
  refine ⟨hmixed, hplain "$B" fun p _ hinside => ?_, Eq.symm ?_⟩
  · -- A placeholder has three characters at least.
    have hlength := hinside.length_le
    simp [Placeholder.written, Placeholder.toList_eq] at hlength
  · refine (hvalues _ _).mpr ⟨rfl, ?_⟩
    simp [Value.textsIn, Value.textsInItems, Value.textsInMembers, hsingle]

end Environment

end FormFlow
