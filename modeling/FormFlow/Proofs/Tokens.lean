import Mathlib.Data.List.Nodup
import Mathlib.Data.List.Perm.Subperm
import FormFlow.Graph.Tokens
/-!
Supplies whose next tokens are distinct.

Such a supply gives a fresh name whatever names are taken: among one token more than there are names, one builds a
name that is not taken (`Distinct.exists_freshName`). What is left of it is distinct for as many tokens fewer as were
drawn, so one supply names several things. A supply that never repeats a token keeps doing so (`Unrepeating`), and the
numbered tokens are such a supply (`distinct_numbered`).
-/

set_option autoImplicit false

namespace FormFlow.TokenSupply

variable {t rest : TokenSupply} {wanted : String → Bool} {build : String → String}
  {count drawn limit : Nat}

/-- The token that is handed out after so many others. -/
def nth (t : TokenSupply) : Nat → String
  | 0 => t.draw.1
  | i + 1 => nth t.draw.2 i

/-- The next tokens, so many of them, are distinct. -/
def Distinct (t : TokenSupply) (count : Nat) : Prop :=
  ∀ i < count, ∀ j < count, t.nth i = t.nth j → i = j

namespace Distinct

theorem mono {fewer : Nat} (h : t.Distinct count) (hle : fewer ≤ count) : t.Distinct fewer := by
  intro i hi j hj hij
  exact h i (by omega) j (by omega) hij

theorem draw (h : t.Distinct (count + 1)) : t.draw.2.Distinct count := by
  intro i hi j hj hij
  exact Nat.succ.inj (h (i + 1) (by omega) (j + 1) (by omega) hij)

end Distinct

/-! ## Searching -/

/-- A search finds a token if one of those that it may draw is wanted. -/
theorem exists_search (wanted : String → Bool) (limit : Nat) {t : TokenSupply}
    (h : ∃ i < limit, wanted (t.nth i) = true) : ∃ token rest, search wanted limit t = some (token, rest) := by
  induction limit generalizing t with
  | zero =>
    obtain ⟨i, hi, -⟩ := h
    exact absurd hi (Nat.not_lt_zero i)
  | succ limit ih =>
    simp only [search]
    by_cases hfirst : wanted t.draw.1 = true
    · exact ⟨t.draw.1, t.draw.2, if_pos hfirst⟩
    · rw [if_neg hfirst]
      refine ih ?_
      obtain ⟨i, hi, hwanted⟩ := h
      cases i with
      | zero => exact absurd hwanted hfirst
      | succ i => exact ⟨i, Nat.lt_of_succ_lt_succ hi, hwanted⟩

namespace Distinct

/-- A search draws no further than the first wanted token. -/
theorem search (h : t.Distinct (drawn + count)) (hfree : ∃ i < drawn, wanted (t.nth i) = true) {token : String}
    (hsearch : TokenSupply.search wanted limit t = some (token, rest)) : rest.Distinct count := by
  induction limit generalizing t drawn with
  | zero => cases hsearch
  | succ limit ih =>
    obtain ⟨i, hi, hwanted⟩ := hfree
    cases drawn with
    | zero => exact absurd hi (Nat.not_lt_zero i)
    | succ drawn =>
      have hlater : t.draw.2.Distinct (drawn + count) := (h.mono (by omega)).draw
      simp only [TokenSupply.search] at hsearch
      by_cases hfirst : wanted t.draw.1 = true
      · rw [if_pos hfirst] at hsearch
        cases hsearch
        exact hlater.mono (by omega)
      · rw [if_neg hfirst] at hsearch
        cases i with
        | zero => exact absurd hwanted hfirst
        | succ i => exact ih hlater ⟨i, Nat.lt_of_succ_lt_succ hi, hwanted⟩ hsearch

/-- Among one token more than there are names, one builds a name that is not taken. -/
theorem exists_free (taken : List String) (h : t.Distinct (taken.length + 1)) (hbuild : Function.Injective build) :
    ∃ i < taken.length + 1, build (t.nth i) ∉ taken := by
  by_contra hnone
  push Not at hnone
  -- The names of so many tokens are distinct and all of them taken, which is more than there are.
  let names := (List.range (taken.length + 1)).map fun i => build (t.nth i)
  have hnodup : names.Nodup := by
    refine List.Nodup.map_on ?_ List.nodup_range
    intro i hi j hj hij
    exact h i (List.mem_range.mp hi) j (List.mem_range.mp hj) (hbuild hij)
  have hsub : names ⊆ taken := by
    intro name hname
    obtain ⟨i, hi, rfl⟩ := List.mem_map.mp hname
    exact hnone i (List.mem_range.mp hi)
  have hle := (hnodup.subperm hsub).length_le
  rw [List.length_map, List.length_range] at hle
  omega

/-- **A supply of distinct tokens gives a fresh name**, and the tokens that are left are distinct. -/
theorem exists_freshName (taken : List String) (h : t.Distinct (taken.length + 1 + count))
    (hbuild : Function.Injective build) :
    ∃ name rest, t.freshName build taken = some (name, rest) ∧ rest.Distinct count := by
  obtain ⟨i, hi, hfree⟩ := exists_free taken (h.mono (by omega)) hbuild
  have hwanted : (!taken.contains (build (t.nth i))) = true := by simpa using hfree
  obtain ⟨token, rest, hsearch⟩ := exists_search (fun token => !taken.contains (build token))
    (t.scripted.length + taken.length + 1) ⟨i, by omega, hwanted⟩
  exact ⟨build token, rest, by rw [freshName, hsearch]; rfl, h.search ⟨i, hi, hwanted⟩ hsearch⟩

end Distinct

/-- The supply never hands out a token twice. -/
def Unrepeating (t : TokenSupply) : Prop := ∀ count, t.Distinct count

namespace Unrepeating

/-- What is left after a search does not repeat a token either. -/
theorem search (h : t.Unrepeating) {token : String}
    (hsearch : TokenSupply.search wanted limit t = some (token, rest)) : rest.Unrepeating := by
  induction limit generalizing t with
  | zero => cases hsearch
  | succ limit ih =>
    have hlater : t.draw.2.Unrepeating := fun count => (h (count + 1)).draw
    simp only [TokenSupply.search] at hsearch
    split at hsearch
    · cases hsearch
      exact hlater
    · exact ih hlater hsearch

theorem freshName (h : t.Unrepeating) {taken : List String} {name : String}
    (hname : t.freshName build taken = some (name, rest)) : rest.Unrepeating := by
  obtain ⟨⟨token, left⟩, hsearch, heq⟩ := Option.map_eq_some_iff.mp hname
  obtain ⟨-, rfl⟩ := Prod.mk.inj heq
  exact h.search hsearch

end Unrepeating

/-! ## Numbered tokens -/

/-- The value of a digit, of which the letters come after nine. -/
def hexDigit (c : Char) : Nat := if c.isDigit then c.toNat - 48 else c.toNat - 87

/-- The number that hexadecimal digits stand for. -/
def hexValue (digits : List Char) : Nat := digits.foldl (fun value c => 16 * value + hexDigit c) 0

theorem hexDigit_digitChar : ∀ d < 16, hexDigit (Nat.digitChar d) = d := by decide

theorem hexValue_toDigits (n : Nat) : hexValue (Nat.toDigits 16 n) = n := by
  induction n using Nat.strongRecOn with
  | ind n ih =>
    by_cases hn : n < 16
    · rw [Nat.toDigits_of_lt_base hn]
      simp [hexValue, hexDigit_digitChar n hn]
    · have hquotient := ih (n / 16) (by omega)
      have hdigit := hexDigit_digitChar (n % 16) (by omega)
      rw [Nat.toDigits_of_base_le (by decide) (by omega), hexValue, List.foldl_append]
      rw [hexValue] at hquotient
      rw [hquotient, List.foldl_cons, List.foldl_nil, hdigit]
      omega

/-- Zeros in front change no value. -/
theorem hexValue_zeros_append (count : Nat) (digits : List Char) :
    hexValue (List.replicate count '0' ++ digits) = hexValue digits := by
  have hzeros : (List.replicate count '0').foldl (fun value c => 16 * value + hexDigit c) 0 = 0 := by
    induction count with
    | zero => rfl
    | succ count ih => simpa [List.replicate_succ, hexDigit] using ih
  rw [hexValue, List.foldl_append, hzeros, hexValue]

theorem numbered_injective : Function.Injective numbered := by
  intro i j hij
  have hdigits := congrArg hexValue (String.ofList_inj.mp hij)
  rw [hexValue_zeros_append, hexValue_zeros_append, hexValue_toDigits, hexValue_toDigits] at hdigits
  exact Nat.succ.inj hdigits

/-- Past its scripted tokens a supply hands out numbered ones. -/
theorem nth_of_unscripted (later : Nat → String) (drawn i : Nat) :
    nth ⟨[], later, drawn⟩ i = later (drawn + i) := by
  induction i generalizing drawn with
  | zero => rfl
  | succ i ih =>
    show nth ⟨[], later, drawn + 1⟩ i = _
    rw [ih, Nat.add_right_comm, Nat.add_assoc]

/-- **Numbered tokens are distinct**, however many are drawn. -/
theorem distinct_numbered (count : Nat) : (ofList []).Distinct count := by
  intro i _ j _ hij
  simp only [ofList, nth_of_unscripted, Nat.zero_add] at hij
  exact numbered_injective hij

end FormFlow.TokenSupply
