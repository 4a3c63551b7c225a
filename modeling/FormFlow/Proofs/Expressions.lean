import Mathlib.Data.List.TakeWhile
import FormFlow.Condition.Logic
/-!
The language of custom logic.

What the check of an expression accepts is stated without the code that checks. The tokens of a text are cut off its
front one by one, each the longest that the text begins with (`Munches`). The expressions are the token lists that a
grammar derives: terms between joiners, where a term is the number of a row or an expression in parentheses
(`Derives`). A text has one list of tokens, the one that `tokens` gives (`munches_iff`), and the scan of a list reports
nothing exactly if the grammar derives it (`scan_eq_none_iff`).
-/

set_option autoImplicit false

namespace FormFlow.Logic

/-! ## Tokens -/

namespace Token

/-- Digits and letters come in runs; every other character that is not blank stands for itself. -/
def IsLexeme : Token → Prop
  | leftParen | rightParen => True
  | number digits => digits ≠ [] ∧ ∀ c ∈ digits, c.isDigit = true
  | word letters => letters ≠ [] ∧ ∀ c ∈ letters, c.isAlpha = true
  | sign c => Text.isBlank c = false ∧ c ≠ '(' ∧ c ≠ ')' ∧ c.isDigit = false ∧ c.isAlpha = false

/-- No token is longer that a text begins with which starts with this token and goes on with `rest`. -/
def IsLongest (t : Token) (rest : List Char) : Prop :=
  ∀ other : Token, other.IsLexeme → other.chars <+: t.chars ++ rest → other.chars.length ≤ t.chars.length

/-- The word joins two operands: it spells `and` or `or`, each letter in either case. -/
def Joins (t : Token) : Prop :=
  ∃ letters, t = word letters ∧
    (letters.map Char.toLower = ['a', 'n', 'd'] ∨ letters.map Char.toLower = ['o', 'r'])

end Token

/-- The tokens of a text: blanks are passed over, and of all tokens that the rest begins with the longest is taken. -/
inductive Munches : List Char → List Token → Prop where
  | nil : Munches [] []
  | blank {c : Char} {rest : List Char} {ts : List Token} :
    Text.isBlank c = true → Munches rest ts → Munches (c :: rest) ts
  | token {t : Token} {rest : List Char} {ts : List Token} :
    t.IsLexeme → t.IsLongest rest → Munches rest ts → Munches (t.chars ++ rest) (t :: ts)

/-! ### Classes of characters -/

theorem isAlpha_iff_toNat {c : Char} :
    c.isAlpha = true ↔ 65 ≤ c.toNat ∧ c.toNat ≤ 90 ∨ 97 ≤ c.toNat ∧ c.toNat ≤ 122 := by
  have hupper : c.isUpper = true ↔ 65 ≤ c.toNat ∧ c.toNat ≤ 90 := decide_eq_true_iff
  have hlower : c.isLower = true ↔ 97 ≤ c.toNat ∧ c.toNat ≤ 122 :=
    Bool.and_eq_true_iff.trans (and_congr decide_eq_true_iff decide_eq_true_iff)
  exact Bool.or_eq_true_iff.trans (or_congr hupper hlower)

theorem isBlank_of_printable {c : Char} (h : 33 ≤ c.toNat) (h' : c.toNat ≤ 126) : Text.isBlank c = false := by
  simp only [Text.isBlank, Text.isWhiteSpace, Bool.or_eq_false_iff, Bool.and_eq_false_iff, beq_eq_false_iff_ne, ne_eq,
    decide_eq_false_iff_not]
  omega

theorem of_isDigit {c : Char} (h : c.isDigit = true) :
    Text.isBlank c = false ∧ c ≠ '(' ∧ c ≠ ')' ∧ c.isAlpha = false := by
  obtain ⟨hlow, hhigh⟩ := Char.isDigit_iff_toNat.mp h
  change 48 ≤ c.toNat at hlow
  change c.toNat ≤ 57 at hhigh
  refine ⟨isBlank_of_printable (by omega) (by omega), ?_, ?_, ?_⟩
  · rintro rfl
    exact absurd h (by decide)
  · rintro rfl
    exact absurd h (by decide)
  · rw [← Bool.not_eq_true, isAlpha_iff_toNat]
    omega

theorem of_isAlpha {c : Char} (h : c.isAlpha = true) :
    Text.isBlank c = false ∧ c ≠ '(' ∧ c ≠ ')' ∧ c.isDigit = false := by
  have hrange := isAlpha_iff_toNat.mp h
  refine ⟨isBlank_of_printable (by omega) (by omega), ?_, ?_, ?_⟩
  · rintro rfl
    exact absurd h (by decide)
  · rintro rfl
    exact absurd h (by decide)
  · rw [← Bool.not_eq_true]
    intro hdigit
    rw [(of_isDigit hdigit).2.2.2] at h
    cases h

/-! ### The longest token -/

theorem mem_of_prefix_cons {c : Char} {body rest : List Char} (hne : body ≠ []) (h : body <+: c :: rest) :
    c ∈ body := by
  obtain ⟨d, body, rfl⟩ := List.exists_cons_of_ne_nil hne
  rw [(List.cons_prefix_cons.mp h).1]
  exact List.mem_cons_self

/-- A beginning that is of one class is no longer than the run of that class. -/
theorem length_le_takeWhile {p : Char → Bool} {body cs : List Char} (hall : ∀ c ∈ body, p c = true)
    (h : body <+: cs) : body.length ≤ (cs.takeWhile p).length := by
  obtain ⟨rest, rfl⟩ := h
  rw [List.takeWhile_append_of_pos hall, List.length_append]
  exact Nat.le_add_right _ _

namespace Token

variable {t other : Token} {c : Char} {rest : List Char}

theorem IsLexeme.chars_ne_nil (h : t.IsLexeme) : t.chars ≠ [] := by
  cases t with
  | leftParen | rightParen => exact List.cons_ne_nil _ _
  | number digits => exact h.1
  | word letters => exact h.1
  | sign c => exact List.cons_ne_nil _ _

/-- A token at the front of a text that begins with a digit is a number. -/
theorem IsLexeme.forall_isDigit (h : other.IsLexeme) (hfront : other.chars <+: c :: rest) (hc : c.isDigit = true) :
    ∀ d ∈ other.chars, d.isDigit = true := by
  have hmem := mem_of_prefix_cons h.chars_ne_nil hfront
  obtain ⟨-, hleft, hright, halpha⟩ := of_isDigit hc
  cases other with
  | leftParen => exact absurd (List.mem_singleton.mp hmem) hleft
  | rightParen => exact absurd (List.mem_singleton.mp hmem) hright
  | number digits => exact h.2
  | word letters => exact absurd (h.2 c hmem) (by simp [halpha])
  | sign d =>
    obtain rfl := List.mem_singleton.mp hmem
    exact absurd hc (by simp [h.2.2.2.1])

/-- A token at the front of a text that begins with a letter is a word. -/
theorem IsLexeme.forall_isAlpha (h : other.IsLexeme) (hfront : other.chars <+: c :: rest) (hc : c.isAlpha = true) :
    ∀ d ∈ other.chars, d.isAlpha = true := by
  have hmem := mem_of_prefix_cons h.chars_ne_nil hfront
  obtain ⟨-, hleft, hright, hdigit⟩ := of_isAlpha hc
  cases other with
  | leftParen => exact absurd (List.mem_singleton.mp hmem) hleft
  | rightParen => exact absurd (List.mem_singleton.mp hmem) hright
  | number digits => exact absurd (h.2 c hmem) (by simp [hdigit])
  | word letters => exact h.2
  | sign d =>
    obtain rfl := List.mem_singleton.mp hmem
    exact absurd hc (by simp [h.2.2.2.2])

/-- A token at the front of a text that begins with neither is a single character. -/
theorem IsLexeme.length_eq_one (h : other.IsLexeme) (hfront : other.chars <+: c :: rest) (hdigit : c.isDigit = false)
    (halpha : c.isAlpha = false) : other.chars.length = 1 := by
  have hmem := mem_of_prefix_cons h.chars_ne_nil hfront
  cases other with
  | leftParen | rightParen => rfl
  | number digits => exact absurd (h.2 c hmem) (by simp [hdigit])
  | word letters => exact absurd (h.2 c hmem) (by simp [halpha])
  | sign d => rfl

theorem isLongest_of_chars_eq (hchars : t.chars = [c]) (hdigit : c.isDigit = false) (halpha : c.isAlpha = false) :
    t.IsLongest rest := by
  intro other hother hfront
  rw [hchars] at hfront ⊢
  exact (hother.length_eq_one hfront hdigit halpha).le

/-- The run of a class is the longest token, if every token in its place is of that class. -/
theorem isLongest_of_run {p : Char → Bool} (hchars : t.chars = c :: rest.takeWhile p) (hc : p c = true)
    (hclass : ∀ other : Token, other.IsLexeme → other.chars <+: c :: rest → ∀ d ∈ other.chars, p d = true) :
    t.IsLongest (rest.dropWhile p) := by
  intro other hother hfront
  rw [hchars, List.cons_append, List.takeWhile_append_dropWhile] at hfront
  have hrun := length_le_takeWhile (hclass other hother hfront) hfront
  rwa [List.takeWhile_cons_of_pos hc, ← hchars] at hrun

/-- What follows the longest token has no character at its front that makes the token longer. -/
theorem IsLongest.stops {p : Char → Bool} (h : t.IsLongest rest)
    (hlonger : ∀ d, p d = true → ∃ other : Token, other.IsLexeme ∧ other.chars = t.chars ++ [d]) :
    rest.takeWhile p = [] ∧ rest.dropWhile p = rest := by
  cases rest with
  | nil => exact ⟨rfl, rfl⟩
  | cons d rest =>
    have hd : p d = false := by
      by_contra hd
      obtain ⟨other, hother, hchars⟩ := hlonger d (by simpa using hd)
      have hle := h other hother (hchars ▸ (List.prefix_append_right_inj t.chars).mpr ⟨rest, rfl⟩)
      rw [hchars, List.length_append, List.length_singleton] at hle
      omega
    rw [List.takeWhile_cons_of_neg (by simp [hd]), List.dropWhile_cons_of_neg (by simp [hd])]
    exact ⟨rfl, rfl⟩

/-- A run goes on with one more character of its class. -/
theorem forall_mem_append_singleton {p : Char → Bool} {body : List Char} (hbody : ∀ c ∈ body, p c = true) {d : Char}
    (hd : p d = true) : body ++ [d] ≠ [] ∧ ∀ c ∈ body ++ [d], p c = true := by
  refine ⟨by simp, fun c hc => ?_⟩
  rcases List.mem_append.mp hc with hc | hc
  · exact hbody c hc
  · exact List.mem_singleton.mp hc ▸ hd

end Token

theorem tokens_nil : tokens [] = [] := by
  rw [tokens.eq_def]

/-- The class of its first character says what is cut off a text. -/
theorem tokens_cons (c : Char) (rest : List Char) :
    tokens (c :: rest) =
      if Text.isBlank c then tokens rest
      else if c = '(' then .leftParen :: tokens rest
      else if c = ')' then .rightParen :: tokens rest
      else if c.isDigit then .number (c :: rest.takeWhile Char.isDigit) :: tokens (rest.dropWhile Char.isDigit)
      else if c.isAlpha then .word (c :: rest.takeWhile Char.isAlpha) :: tokens (rest.dropWhile Char.isAlpha)
      else .sign c :: tokens rest := by
  rw [tokens.eq_def]

/-- The longest token that a text begins with is the first that is cut off. -/
theorem tokens_append {t : Token} {rest : List Char} (ht : t.IsLexeme) (hlongest : t.IsLongest rest) :
    tokens (t.chars ++ rest) = t :: tokens rest := by
  cases t with
  | leftParen =>
    show tokens ('(' :: rest) = _
    rw [tokens_cons, if_neg (by decide), if_pos rfl]
  | rightParen =>
    show tokens (')' :: rest) = _
    rw [tokens_cons, if_neg (by decide), if_neg (by decide), if_pos rfl]
  | number digits =>
    obtain ⟨c, digits, rfl⟩ := List.exists_cons_of_ne_nil ht.1
    obtain ⟨hc, hdigits⟩ := List.forall_mem_cons.mp ht.2
    obtain ⟨hblank, hleft, hright, -⟩ := of_isDigit hc
    obtain ⟨htake, hdrop⟩ := hlongest.stops (p := Char.isDigit) fun d hd =>
      ⟨.number _, Token.forall_mem_append_singleton ht.2 hd, rfl⟩
    show tokens (c :: (digits ++ rest)) = _
    rw [tokens_cons, if_neg (by simp [hblank]), if_neg hleft, if_neg hright, if_pos hc,
      List.takeWhile_append_of_pos hdigits, htake, List.append_nil, List.dropWhile_append_of_pos hdigits, hdrop]
  | word letters =>
    obtain ⟨c, letters, rfl⟩ := List.exists_cons_of_ne_nil ht.1
    obtain ⟨hc, hletters⟩ := List.forall_mem_cons.mp ht.2
    obtain ⟨hblank, hleft, hright, hdigit⟩ := of_isAlpha hc
    obtain ⟨htake, hdrop⟩ := hlongest.stops (p := Char.isAlpha) fun d hd =>
      ⟨.word _, Token.forall_mem_append_singleton ht.2 hd, rfl⟩
    show tokens (c :: (letters ++ rest)) = _
    rw [tokens_cons, if_neg (by simp [hblank]), if_neg hleft, if_neg hright, if_neg (by simp [hdigit]), if_pos hc,
      List.takeWhile_append_of_pos hletters, htake, List.append_nil, List.dropWhile_append_of_pos hletters, hdrop]
  | sign c =>
    obtain ⟨hblank, hleft, hright, hdigit, halpha⟩ := ht
    show tokens (c :: rest) = _
    rw [tokens_cons, if_neg (by simp [hblank]), if_neg hleft, if_neg hright, if_neg (by simp [hdigit]),
      if_neg (by simp [halpha])]

/-- The tokens of a text are cut off as the longest. -/
theorem munches_tokens (cs : List Char) : Munches cs (tokens cs) := by
  fun_induction tokens cs with
  | case1 => exact .nil
  | case2 c rest hblank ih => exact .blank hblank ih
  | case3 rest hblank ih =>
    exact .token (t := .leftParen) trivial (Token.isLongest_of_chars_eq (c := '(') rfl (by decide) (by decide)) ih
  | case4 rest hblank hleft ih =>
    exact .token (t := .rightParen) trivial (Token.isLongest_of_chars_eq (c := ')') rfl (by decide) (by decide)) ih
  | case5 c rest hblank hleft hright hc ih =>
    have hlexeme : (Token.number (c :: rest.takeWhile Char.isDigit)).IsLexeme :=
      ⟨List.cons_ne_nil _ _, List.forall_mem_cons.mpr ⟨hc, fun d hd => List.mem_takeWhile_imp hd⟩⟩
    have hlongest := Token.isLongest_of_run (t := .number (c :: rest.takeWhile Char.isDigit)) rfl hc
      fun other hother hfront => hother.forall_isDigit hfront hc
    have hmunches := Munches.token hlexeme hlongest ih
    rwa [Token.chars, List.cons_append, List.takeWhile_append_dropWhile] at hmunches
  | case6 c rest hblank hleft hright hdigit hc ih =>
    have hlexeme : (Token.word (c :: rest.takeWhile Char.isAlpha)).IsLexeme :=
      ⟨List.cons_ne_nil _ _, List.forall_mem_cons.mpr ⟨hc, fun d hd => List.mem_takeWhile_imp hd⟩⟩
    have hlongest := Token.isLongest_of_run (t := .word (c :: rest.takeWhile Char.isAlpha)) rfl hc
      fun other hother hfront => hother.forall_isAlpha hfront hc
    have hmunches := Munches.token hlexeme hlongest ih
    rwa [Token.chars, List.cons_append, List.takeWhile_append_dropWhile] at hmunches
  | case7 c rest hblank hleft hright hdigit halpha ih =>
    simp only [Bool.not_eq_true] at hblank hdigit halpha
    have hlexeme : (Token.sign c).IsLexeme := ⟨hblank, hleft, hright, hdigit, halpha⟩
    exact .token hlexeme (Token.isLongest_of_chars_eq rfl hdigit halpha) ih

/-- **A text has one list of longest tokens**, the one that is computed. -/
theorem munches_iff {cs : List Char} {ts : List Token} : Munches cs ts ↔ ts = tokens cs := by
  constructor
  · intro h
    induction h with
    | nil => rw [tokens_nil]
    | blank hblank _ ih => rw [ih, tokens_cons, if_pos hblank]
    | token ht hlongest _ ih => rw [ih, tokens_append ht hlongest]
  · rintro rfl
    exact munches_tokens cs

/-! ## Expressions -/

/-- What the grammar derives. -/
inductive Form where
  | expression
  | term
  deriving DecidableEq, Repr

/-- The token lists of a form, over the numbers of so many rows: an expression is a term, or an expression, a joiner
and a term; a term is the number of a row, or an expression in parentheses. -/
inductive Derives (rows : Int) : Form → List Token → Prop where
  | term {ts : List Token} : Derives rows .term ts → Derives rows .expression ts
  | joined {left right : List Token} {joiner : Token} :
    Derives rows .expression left → joiner.Joins → Derives rows .term right →
      Derives rows .expression (left ++ joiner :: right)
  | row {digits : List Char} :
    1 ≤ (Decimal.digitsValue digits : Int) → (Decimal.digitsValue digits : Int) ≤ rows →
      Derives rows .term [.number digits]
  | group {inner : List Token} :
    Derives rows .expression inner → Derives rows .term (.leftParen :: inner ++ [.rightParen])

variable {rows : Int}

/-- Either case of a character can be told from the other one. -/
theorem case_of_case (c : Char) : c.toUpper.toLower = c.toLower ∧ c.toLower.toUpper = c.toUpper := by
  by_cases h : c.toNat < 128
  · have hascii : ∀ n < 128, (Char.ofNat n).toUpper.toLower = (Char.ofNat n).toLower ∧
        (Char.ofNat n).toLower.toUpper = (Char.ofNat n).toUpper := by decide
    have hc := hascii c.toNat h
    rwa [Char.ofNat_toNat] at hc
  · -- Letters of two cases are ASCII characters.
    have hupper : c.toUpper = c := dif_neg fun hletter => h (lt_of_le_of_lt hletter.2 (by decide))
    have hlower : c.toLower = c := dif_neg fun hletter => h (lt_of_le_of_lt hletter.2 (by decide))
    rw [hupper, hlower, hupper]
    exact ⟨rfl, rfl⟩

theorem map_toUpper_eq_iff {letters lower upper : List Char} (hlower : upper.map Char.toLower = lower)
    (hupper : lower.map Char.toUpper = upper) :
    letters.map Char.toUpper = upper ↔ letters.map Char.toLower = lower := by
  constructor
  · rintro rfl
    rw [← hlower, List.map_map]
    exact List.map_congr_left fun c _ => (case_of_case c).1.symm
  · rintro rfl
    rw [← hupper, List.map_map]
    exact List.map_congr_left fun c _ => (case_of_case c).2.symm

theorem isJoiner_iff {t : Token} : t.isJoiner = true ↔ t.Joins := by
  cases t with
  | word letters =>
    have hand := @map_toUpper_eq_iff letters ['a', 'n', 'd'] ['A', 'N', 'D'] (by decide) (by decide)
    have hor := @map_toUpper_eq_iff letters ['o', 'r'] ['O', 'R'] (by decide) (by decide)
    simp only [Token.isJoiner, Token.Joins, Bool.or_eq_true, beq_iff_eq, hand, hor, Token.word.injEq, exists_eq_left']
  | leftParen | rightParen | number _ | sign _ => simp [Token.isJoiner, Token.Joins]

/-! ### What is derived is accepted -/

theorem scan_row {digits : List Char} (hlow : 1 ≤ (Decimal.digitsValue digits : Int))
    (hhigh : (Decimal.digitsValue digits : Int) ≤ rows) (position depth : Nat) (rest : List Token) :
    scan rows position true depth (.number digits :: rest) = scan rows (position + 1) false depth rest := by
  rw [scan, if_pos rfl]
  exact if_neg (by omega)

theorem scan_joiner {joiner : Token} (h : joiner.Joins) (position depth : Nat) (rest : List Token) :
    scan rows position false depth (joiner :: rest) = scan rows (position + 1) true depth rest := by
  have hjoiner := isJoiner_iff.mpr h
  obtain ⟨letters, rfl, -⟩ := h
  rw [scan, if_neg Bool.false_ne_true, if_pos hjoiner]
  all_goals nofun

/-- Where an operand has to come, the scan passes over a form and expects none after it. -/
theorem Derives.scan_append {form : Form} {ts : List Token} (h : Derives rows form ts) (position depth : Nat)
    (rest : List Token) :
    scan rows position true depth (ts ++ rest) = scan rows (position + ts.length) false depth rest := by
  induction h generalizing position depth rest with
  | term _ ih => exact ih position depth rest
  | @joined left right joiner _ hjoins _ ihleft ihright =>
    rw [List.append_assoc, ihleft, List.cons_append, scan_joiner hjoins, ihright, List.length_append, List.length_cons,
      Nat.add_assoc, Nat.add_assoc, Nat.add_comm 1]
  | row hlow hhigh => exact scan_row hlow hhigh position depth rest
  | @group inner _ ih =>
    calc scan rows position true depth (.leftParen :: inner ++ [.rightParen] ++ rest)
      _ = scan rows (position + 1) true (depth + 1) (inner ++ .rightParen :: rest) := by
        rw [List.append_assoc, List.cons_append, List.singleton_append, scan, if_pos rfl]
      _ = scan rows (position + 1 + inner.length) false (depth + 1) (.rightParen :: rest) := ih _ _ _
      _ = scan rows (position + 1 + inner.length + 1) false depth rest := rfl
      _ = scan rows (position + (Token.leftParen :: inner ++ [Token.rightParen]).length) false depth rest := by
        simp only [List.length_append, List.length_cons, List.length_nil]
        congr 1
        omega

/-! ### What is accepted is derived -/

/-- An expression goes on with these tokens and is still one. -/
def Continues (rows : Int) (ts : List Token) : Prop :=
  ∀ left, Derives rows .expression left → Derives rows .expression (left ++ ts)

/-- After an operand, the tokens continue the expression at hand, and close so many parentheses around it, each of them
in an expression that is continued too. -/
def Closes (rows : Int) : (depth : Nat) → List Token → Prop
  | 0, ts => Continues rows ts
  | depth + 1, ts => ∃ inner rest, ts = inner ++ .rightParen :: rest ∧ Continues rows inner ∧ Closes rows depth rest

/-- What the tokens have to be for the scan to report nothing: where an operand has to come, a term comes first. -/
def Completes (rows : Int) (operandNext : Bool) (depth : Nat) (ts : List Token) : Prop :=
  if operandNext then ∃ first rest, ts = first ++ rest ∧ Derives rows .term first ∧ Closes rows depth rest
  else Closes rows depth ts

theorem continues_nil : Continues rows [] := fun left h => (List.append_nil left).symm ▸ h

theorem Continues.joined {joiner : Token} {first rest : List Token} (h : Continues rows rest) (hjoins : joiner.Joins)
    (hfirst : Derives rows .term first) : Continues rows (joiner :: (first ++ rest)) := by
  intro left hleft
  have hall := h _ (.joined hleft hjoins hfirst)
  rwa [List.append_assoc, List.cons_append] at hall

theorem Closes.joined {depth : Nat} {joiner : Token} {first rest : List Token} (h : Closes rows depth rest)
    (hjoins : joiner.Joins) (hfirst : Derives rows .term first) : Closes rows depth (joiner :: (first ++ rest)) := by
  cases depth with
  | zero => exact Continues.joined h hjoins hfirst
  | succ depth =>
    obtain ⟨inner, outer, rfl, hinner, houter⟩ := h
    exact ⟨joiner :: (first ++ inner), outer, by simp, hinner.joined hjoins hfirst, houter⟩

/-- A parenthesis that opens a term is closed by what closes one more. -/
theorem Closes.group {depth : Nat} {first rest : List Token} (h : Closes rows (depth + 1) rest)
    (hfirst : Derives rows .term first) : Completes rows true depth (.leftParen :: (first ++ rest)) := by
  obtain ⟨inner, outer, rfl, hinner, houter⟩ := h
  exact ⟨.leftParen :: (first ++ inner) ++ [.rightParen], outer, by simp, .group (hinner _ (.term hfirst)), houter⟩

/-- **What the scan accepts completes the expressions that are open.** -/
theorem completes_of_scan {position depth : Nat} {operandNext : Bool} {ts : List Token}
    (h : scan rows position operandNext depth ts = none) : Completes rows operandNext depth ts := by
  fun_induction scan rows position operandNext depth ts with
  | case1 | case2 | case4 | case7 | case9 | case11 => cases h
  | case3 position operandNext depth hafter hdepth =>
    rw [Completes, if_neg hafter, Decidable.not_not.mp hdepth]
    exact continues_nil
  | case5 position depth rest digits row hrow ih =>
    exact ⟨[.number digits], rest, rfl, .row (by omega) (by omega), ih h⟩
  | case6 position depth rest ih =>
    obtain ⟨first, outer, rfl, hfirst, houter⟩ := ih h
    exact houter.group hfirst
  | case8 position operandNext depth joiner rest hafter hjoiner ih =>
    obtain ⟨first, outer, rfl, hfirst, houter⟩ := ih h
    rw [Completes, if_neg hafter]
    exact houter.joined (isJoiner_iff.mp hjoiner) hfirst
  | case10 position operandNext rest hafter depth _ ih =>
    rw [Completes, if_neg hafter]
    exact ⟨[], rest, rfl, continues_nil, ih h⟩

/-- **The scan accepts exactly the expressions.** -/
theorem scan_eq_none_iff {ts : List Token} : scan rows 1 true 0 ts = none ↔ Derives rows .expression ts := by
  constructor
  · intro h
    obtain ⟨first, rest, rfl, hfirst, hrest⟩ := completes_of_scan h
    exact hrest first (.term hfirst)
  · intro h
    have hscan := h.scan_append 1 0 []
    rw [List.append_nil] at hscan
    rw [hscan]
    rfl

/-! ## The check -/

theorem not_derives_nil {form : Form} : ¬ Derives rows form [] := by
  intro h
  generalize hnil : ([] : List Token) = ts at h
  induction h with
  | term _ ih => exact ih hnil
  | joined | row | group => simp at hnil

theorem check_eq_none_iff_derives {expression : String} :
    check expression rows = none ↔ Derives rows .expression (tokens expression.toList) := by
  unfold check
  split
  · next hnil => simp [hnil, not_derives_nil]
  · exact scan_eq_none_iff

/-- **The check accepts exactly the expressions of the grammar.** A text has one list of longest tokens, and the check
reports nothing exactly if the grammar derives that list. -/
theorem check_eq_none_iff (expression : String) (rows : Int) :
    ∃ ts, (∀ others, Munches expression.toList others ↔ others = ts) ∧
      (check expression rows = none ↔ Derives rows .expression ts) :=
  ⟨tokens expression.toList, fun _ => munches_iff, check_eq_none_iff_derives⟩

end FormFlow.Logic
