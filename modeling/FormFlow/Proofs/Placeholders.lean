import Mathlib.Data.List.Basic
import FormFlow.Proofs.Table
import FormFlow.Settings.Sources
/-!
What filling the placeholders of texts depends on.

A text is filled alike wherever the placeholders that are replaced in it stand for the same (`Text.fillFrom_congr`),
and so is a value with all the texts in it (`Environment.fillIn_congr`). Which placeholders are replaced depends on no
more than which variables there are (`Environment.SameNames.fill_congr`).
-/

set_option autoImplicit false

namespace FormFlow

namespace Text

variable {value value' : Placeholder → Option (List Char)} {c : Char} {rest cs : List Char} {p : Placeholder}
  {v : List Char}

/-- The placeholder that stands at a character. -/
def placeholderAt (c : Char) (rest : List Char) : Option Placeholder :=
  if c = '$' then Placeholder.of? rest else none

/-- The placeholders that are replaced when characters are filled; `skip` of them are passed over first. -/
def replacedFrom (value : Placeholder → Option (List Char)) : (skip : Nat) → List Char → List Placeholder
  | _, [] => []
  | skip + 1, _ :: rest => replacedFrom value skip rest
  | 0, c :: rest =>
    match (placeholderAt c rest).filter fun p => (value p).isSome with
    | some p => p :: replacedFrom value p.toList.length rest
    | none => replacedFrom value 0 rest

theorem fillFrom_of_replaced (h : placeholderAt c rest = some p) (hv : value p = some v) :
    fillFrom value 0 (c :: rest) = v ++ fillFrom value p.toList.length rest := by
  unfold placeholderAt at h
  split at h
  · next hc => simp only [fillFrom, hc, if_true, h, Option.bind_some, hv, Option.map_some]
  · cases h

theorem fillFrom_of_kept (h : ∀ p, placeholderAt c rest = some p → value p = none) :
    fillFrom value 0 (c :: rest) = c :: fillFrom value 0 rest := by
  unfold placeholderAt at h
  by_cases hc : c = '$'
  · simp only [hc, if_true] at h
    have hnone : ((Placeholder.of? rest).bind fun p => (value p).map fun v => (p, v)) = none := by
      cases hp : Placeholder.of? rest with
      | none => rfl
      | some p => rw [Option.bind_some, h p hp, Option.map_none]
    simp only [fillFrom, hc, if_true, hnone]
  · simp only [fillFrom, hc, if_false]

/-- What stands at a character is replaced or kept. -/
theorem replaced_or_kept (value : Placeholder → Option (List Char)) (c : Char) (rest : List Char) :
    (∃ p v, placeholderAt c rest = some p ∧ value p = some v) ∨
      ∀ p, placeholderAt c rest = some p → value p = none := by
  cases hp : placeholderAt c rest with
  | none => exact Or.inr nofun
  | some p =>
    cases hv : value p with
    | none =>
      refine Or.inr fun q hq => ?_
      cases hq
      exact hv
    | some v => exact Or.inl ⟨p, v, rfl, hv⟩

/-- Characters are filled alike if the placeholders that are replaced in them stand for the same. -/
theorem fillFrom_congr (hgiven : ∀ p, (value p).isSome = (value' p).isSome) (skip : Nat)
    (h : ∀ p ∈ replacedFrom value skip cs, value p = value' p) : fillFrom value skip cs = fillFrom value' skip cs := by
  induction cs generalizing skip with
  | nil => rw [fillFrom, fillFrom]
  | cons c rest ih =>
    cases skip with
    | succ skip => exact ih skip h
    | zero =>
      rw [replacedFrom] at h
      rcases replaced_or_kept value c rest with ⟨p, v, hp, hv⟩ | hkept
      · have hfilter : (placeholderAt c rest).filter (fun p => (value p).isSome) = some p := by simp [hp, hv]
        simp only [hfilter, List.mem_cons, forall_eq_or_imp] at h
        obtain ⟨hsame, hlater⟩ := h
        rw [fillFrom_of_replaced hp hv, fillFrom_of_replaced hp (hsame ▸ hv), ih _ hlater]
      · have hfilter : (placeholderAt c rest).filter (fun p => (value p).isSome) = none :=
          Option.filter_eq_none_iff.mpr fun p hp => by simp [hkept p hp]
        simp only [hfilter] at h
        have hkept' : ∀ p, placeholderAt c rest = some p → value' p = none := fun p hp => by
          rw [← Option.isNone_iff_eq_none, ← Option.not_isSome, ← hgiven, hkept p hp]
          rfl
        rw [fillFrom_of_kept hkept, fillFrom_of_kept hkept', ih 0 h]

theorem fillFrom_of_not_mem (h : '$' ∉ cs) : fillFrom value 0 cs = cs := by
  induction cs with
  | nil => rw [fillFrom]
  | cons c rest ih =>
    rw [List.mem_cons, not_or] at h
    have hkept : ∀ p, placeholderAt c rest = some p → value p = none := fun p hp => by
      rw [placeholderAt, if_neg (Ne.symm h.1)] at hp
      cases hp
    rw [fillFrom_of_kept hkept, ih h.2]

end Text

mutual
/-- The texts in a value. -/
def Value.textsIn : Value → List String
  | .text s => [s]
  | .list items => textsInItems items
  | .record ms => textsInMembers ms
  | .null | .bool _ | .int _ | .float _ => []

/-- The texts in the items of a list. -/
def Value.textsInItems : List Value → List String
  | [] => []
  | v :: rest => v.textsIn ++ textsInItems rest

/-- The texts in the members of a record. -/
def Value.textsInMembers : Members → List String
  | [] => []
  | (_, v) :: rest => v.textsIn ++ textsInMembers rest
end

namespace Environment

variable {env env' : Environment} {s : String}

/-- The names of the variables whose placeholders are filled in a text. -/
def replaced (env : Environment) (s : String) : List String :=
  (Text.replacedFrom env.fillValue 0 s.toList).map fun p => .ofList p.name

/-- The environments have the same variables. -/
def SameNames (env env' : Environment) : Prop := ∀ name, (env.lookup name).isSome = (env'.lookup name).isSome

theorem SameNames.isSome_fillValue (h : env.SameNames env') (p : Text.Placeholder) :
    (env.fillValue p).isSome = (env'.fillValue p).isSome := by
  unfold Environment.fillValue
  split
  · simp only [Option.orElse_eq_orElse, Option.orElse_eq_or, Option.isSome_or, Option.isSome_map, h (.ofList p.name)]
  · rfl

/-- A text is filled alike if its placeholders name variables with the same values. -/
theorem SameNames.fill_congr (henv : env.SameNames env')
    (h : ∀ name ∈ env.replaced s, env.lookup name = env'.lookup name) : env.fill s = env'.fill s := by
  refine congrArg String.ofList (Text.fillFrom_congr henv.isSome_fillValue 0 fun p hp => ?_)
  unfold Environment.fillValue
  rw [h _ (List.mem_map_of_mem hp)]

mutual
theorem fillIn_congr {v : Value} (h : ∀ s ∈ v.textsIn, env.fill s = env'.fill s) : env.fillIn v = env'.fillIn v := by
  cases v with
  | text s => rw [fillIn, fillIn, h s (by simp [Value.textsIn])]
  | list items => rw [fillIn, fillIn, fillItems_congr fun s hs => h s (by simpa [Value.textsIn] using hs)]
  | record ms => rw [fillIn, fillIn, fillMembers_congr fun s hs => h s (by simpa [Value.textsIn] using hs)]
  | _ => rw [fillIn, fillIn]

theorem fillItems_congr {items : List Value} (h : ∀ s ∈ Value.textsInItems items, env.fill s = env'.fill s) :
    env.fillItems items = env'.fillItems items := by
  cases items with
  | nil => rw [fillItems, fillItems]
  | cons v rest =>
    simp only [Value.textsInItems, List.mem_append] at h
    rw [fillItems, fillItems, fillIn_congr fun s hs => h s (Or.inl hs), fillItems_congr fun s hs => h s (Or.inr hs)]

theorem fillMembers_congr {ms : Members} (h : ∀ s ∈ Value.textsInMembers ms, env.fill s = env'.fill s) :
    env.fillMembers ms = env'.fillMembers ms := by
  cases ms with
  | nil => rw [fillMembers, fillMembers]
  | cons entry rest =>
    obtain ⟨name, v⟩ := entry
    simp only [Value.textsInMembers, List.mem_append] at h
    rw [fillMembers, fillMembers, fillIn_congr fun s hs => h s (Or.inl hs),
      fillMembers_congr fun s hs => h s (Or.inr hs)]
end

end Environment

end FormFlow
