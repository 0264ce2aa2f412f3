import Mathlib.Data.List.Basic
import Mathlib.Algebra.Ring.Nat

/-
  Integers read from text and written to it.

  Text is a list of characters; which characters are decimal
  digits and which are white space is a table, of which only
  the ASCII part is fixed.  A written number is read back.

  Main declarations:
    * `Numeral.Charset`, `Numeral.digits`, `Numeral.int`
    * `Numeral.digits_decimal`
    * `Numeral.decimal_injective`, `Numeral.decimal_cons_inj`
-/

------------------------------------------------------------
-- Reading
------------------------------------------------------------

namespace Numeral

theorem isDigit_le {c : Char} (hDigit : c.isDigit) :
    c.toNat ≤ 57 := by
  rw [Char.isDigit, Bool.and_eq_true, decide_eq_true_eq,
    decide_eq_true_eq] at hDigit
  exact UInt32.le_iff_toNat_le.mp hDigit.2

/- The decimal digits and the white space of a character set. -/
structure Charset where
  digit : Char → Option Nat
  space : Char → Bool
  digit_ascii : ∀ c : Char, c.toNat < 128 →
    digit c =
      if c.isDigit then some (c.toNat - 48) else none
  digit_lt : ∀ c d, digit c = some d → d < 10

namespace Charset

/- ASCII alone. -/
def ascii : Charset where
  digit c := if c.isDigit then some (c.toNat - 48) else none
  space c := c.isWhitespace
  digit_ascii c hAscii := rfl
  digit_lt c d hValue := by
    split_ifs at hValue with hDigit
    have hHigh := isDigit_le hDigit
    have hEq : c.toNat - 48 = d := Option.some.inj hValue
    omega

end Charset

theorem Charset.digit_of_isDigit
    (u : Charset)
    {c : Char}
    (hDigit : c.isDigit) :
    u.digit c = some (c.toNat - 48) := by
  have hLe := isDigit_le hDigit
  rw [u.digit_ascii c (by omega), if_pos hDigit]

variable (u : Charset)

/- Without the white space at both ends. -/
def strip (s : List Char) : List Char :=
  ((s.dropWhile u.space).reverse.dropWhile u.space).reverse

/- The number a run of digits stands for. -/
def digits (s : List Char) : Option Nat :=
  s.foldlM (fun n c => (u.digit c).map (10 * n + ·)) 0

/- Digits that single underscores may group. -/
def grouped (s : List Char) : Option Nat :=
  if [] ∈ s.splitOn '_' then none
  else digits u (s.filter (· ≠ '_'))

/- int() of a text. -/
def int (s : List Char) : Option Int :=
  match strip u s with
  | '-' :: rest => (grouped u rest).map (fun n => -(n : Int))
  | '+' :: rest => (grouped u rest).map (fun n => (n : Int))
  | rest => (grouped u rest).map (fun n => (n : Int))

end Numeral

------------------------------------------------------------
-- Writing
------------------------------------------------------------

namespace Numeral

/- The canonical decimal digits of a number. -/
def decimal (n : Nat) : List Char :=
  Nat.toDigits 10 n

theorem decimal_ne_nil (n : Nat) : decimal n ≠ [] :=
  Nat.toDigits_ne_nil

theorem isDigit_of_mem_decimal
    {n : Nat}
    {c : Char}
    (hMem : c ∈ decimal n) :
    c.isDigit :=
  Nat.isDigit_of_mem_toDigits (by omega) (by omega) hMem

theorem decimal_injective
    {m n : Nat}
    (hEq : decimal m = decimal n) :
    m = n := by
  have hRead := congrArg (fun s => Nat.ofDigitChars 10 s 0) hEq
  simpa [decimal, Nat.ofDigitChars_ten_toDigits] using hRead

theorem head_decimal_ne_zero
    {n : Nat}
    (hPos : 0 < n) :
    (decimal n).head? ≠ some '0' := by
  induction n using Nat.strongRecOn with
  | ind n ih =>
      by_cases hLt : n < 10
      · have hDigit : ∀ d, d < 10 → 0 < d →
            [d.digitChar].head? ≠ some '0' := by
          decide
        rw [decimal, Nat.toDigits_of_lt_base hLt]
        exact hDigit n hLt hPos
      · rw [decimal,
          Nat.toDigits_of_base_le (by omega) (by omega)]
        have hHead := ih (n / 10) (by omega) (by omega)
        have hNe : Nat.toDigits 10 (n / 10) ≠ [] :=
          Nat.toDigits_ne_nil
        rw [decimal] at hHead
        rwa [List.head?_append_of_ne_nil _ hNe]

/- Only zero starts with a zero. -/
theorem eq_zero_of_decimal
    {n : Nat}
    {ds : List Char}
    (hZero : decimal n = '0' :: ds) :
    n = 0 ∧ ds = [] := by
  rcases Nat.eq_zero_or_pos n with rfl | hPos
  · exact ⟨rfl, (List.tail_eq_of_cons_eq hZero).symm⟩
  · have hHead := head_decimal_ne_zero hPos
    rw [hZero] at hHead
    exact absurd rfl hHead

/- Decimal digits in the ASCII range are read as they are. -/
theorem foldlM_digits
    (u : Charset)
    {s : List Char}
    (hDigits : ∀ c ∈ s, c.isDigit)
    (start : Nat) :
    s.foldlM (fun n c => (u.digit c).map (10 * n + ·))
        start =
      some (Nat.ofDigitChars 10 s start) := by
  induction s generalizing start with
  | nil => simp
  | cons c s ih =>
      rcases List.forall_mem_cons.mp hDigits with
        ⟨hHead, hTail⟩
      rw [List.foldlM_cons, u.digit_of_isDigit hHead]
      exact ih hTail _

theorem digits_decimal (u : Charset) (n : Nat) :
    digits u (decimal n) = some n := by
  rw [digits, foldlM_digits u
    (fun c hMem => isDigit_of_mem_decimal hMem)]
  exact congrArg some Nat.ofDigitChars_ten_toDigits

/- A text up to the first separator is determined. -/
theorem append_cons_inj
    {c : Char}
    {xs ys s t : List Char}
    (hLeft : c ∉ xs)
    (hRight : c ∉ ys)
    (hEq : xs ++ c :: s = ys ++ c :: t) :
    xs = ys ∧ s = t := by
  induction xs generalizing ys with
  | nil =>
      cases ys with
      | nil => exact ⟨rfl, List.tail_eq_of_cons_eq hEq⟩
      | cons y ys =>
          obtain rfl : c = y := List.head_eq_of_cons_eq hEq
          simp at hRight
  | cons x xs ih =>
      cases ys with
      | nil =>
          obtain rfl : x = c := List.head_eq_of_cons_eq hEq
          simp at hLeft
      | cons y ys =>
          obtain rfl : x = y := List.head_eq_of_cons_eq hEq
          rcases ih
            (fun hIn => hLeft (List.mem_cons_of_mem x hIn))
            (fun hIn => hRight (List.mem_cons_of_mem x hIn))
            (List.tail_eq_of_cons_eq hEq) with
            ⟨rfl, hRest⟩
          exact ⟨rfl, hRest⟩

/- A number before a separator is determined. -/
theorem decimal_cons_inj
    {m n : Nat}
    {c : Char}
    {s t : List Char}
    (hSeparator : ¬ c.isDigit)
    (hEq : decimal m ++ c :: s = decimal n ++ c :: t) :
    m = n ∧ s = t := by
  have hNotMem (k : Nat) : c ∉ decimal k := fun hMem =>
    hSeparator (isDigit_of_mem_decimal hMem)
  rcases append_cons_inj (hNotMem m) (hNotMem n) hEq with
    ⟨hNumber, hRest⟩
  exact ⟨decimal_injective hNumber, hRest⟩

end Numeral
