/-!
Counting what a search has left to do. The searches on graphs end because of these bounds.
-/

set_option autoImplicit false

namespace FormFlow.Graph

variable {α : Type}

/-- The sum of numbers. -/
def total : List Nat → Nat
  | [] => 0
  | n :: rest => n + total rest

@[simp] theorem total_cons (n : Nat) (rest : List Nat) : total (n :: rest) = n + total rest := rfl

/-- A stronger test keeps no more items. -/
theorem length_filter_le {p q : α → Bool} (h : ∀ x, p x = true → q x = true) (l : List α) :
    (l.filter p).length ≤ (l.filter q).length := by
  induction l with
  | nil => simp
  | cons a l ih =>
    by_cases hp : p a = true
    · simp [hp, h a hp, ih]
    · by_cases hq : q a = true <;> simp [hp, hq] <;> omega

/-- Two tests that agree keep equally many items. -/
theorem length_filter_congr {p q : α → Bool} (h : ∀ x, p x = q x) (l : List α) :
    (l.filter p).length = (l.filter q).length := by
  rw [show p = q from funext h]

/-- A test that also refuses some item that the other one keeps, keeps fewer items. -/
theorem length_filter_lt {p q : α → Bool} (h : ∀ x, p x = true → q x = true) {a : α} {l : List α} (ha : a ∈ l)
    (hq : q a = true) (hp : ¬ p a = true) : (l.filter p).length < (l.filter q).length := by
  induction l with
  | nil => cases ha
  | cons b l ih =>
    by_cases hab : a = b
    · subst hab
      have := length_filter_le h l
      simp [hp, hq]
      omega
    · have ha' : a ∈ l := by simpa [hab] using ha
      have := ih ha'
      by_cases hpb : p b = true
      · simp [hpb, h b hpb, this]
      · by_cases hqb : q b = true <;> simp [hpb, hqb] <;> omega

/-- A test that also refuses every item of a list without repetition, all of which the other one keeps, keeps fewer
items by the length of the list. -/
theorem length_filter_add_le [DecidableEq α] {p q : α → Bool} (h : ∀ x, p x = true → q x = true) :
    ∀ (l r : List α), r.Nodup → (∀ x ∈ r, x ∈ l) → (∀ x ∈ r, q x = true) → (∀ x ∈ r, ¬ p x = true) →
      (l.filter p).length + r.length ≤ (l.filter q).length
  | [], r, _, hl, _, _ => by
    have : r = [] := List.eq_nil_iff_forall_not_mem.2 fun x hx => by simpa using hl x hx
    simp [this]
  | a :: l, r, hn, hl, hq, hp => by
    by_cases ha : a ∈ r
    · have ih := length_filter_add_le h l (r.erase a) (hn.erase a)
        (fun x hx => by
          have hx' := (List.Nodup.mem_erase_iff hn).1 hx
          simpa [hx'.1] using hl x hx'.2)
        (fun x hx => hq x (List.mem_of_mem_erase hx)) (fun x hx => hp x (List.mem_of_mem_erase hx))
      have hlen : (r.erase a).length = r.length - 1 := List.length_erase_of_mem ha
      have hpos : 0 < r.length := List.length_pos_of_mem ha
      simp [hq a ha, hp a ha]
      omega
    · have ih := length_filter_add_le h l r hn
        (fun x hx => by
          have hxa : x ≠ a := fun e => ha (e ▸ hx)
          simpa [hxa] using hl x hx) hq hp
      by_cases hpa : p a = true
      · simp [hpa, h a hpa]
        omega
      · by_cases hqa : q a = true <;> simp [hpa, hqa] <;> omega

end FormFlow.Graph
