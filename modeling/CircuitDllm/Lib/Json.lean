import CircuitDllm.Lib.Numeral

/-
  The characters of JSON texts: escapes, integers, spaces
  and commas.

  Main declarations:
    * `Json.escape`, `Json.dumpsInt`
    * `Json.Reader`, `Json.readHex`, `Json.readAll`
    * `Json.readHex_hex`, `Json.span_decimal`
    * `Json.readAll_forall`
-/

------------------------------------------------------------
-- Writing
------------------------------------------------------------

namespace Json

/- A digit of \uXXXX. -/
def hexDigit (d : Nat) : Char :=
  if d < 10 then Char.ofNat (48 + d) else Char.ofNat (87 + d)

/- Four hexadecimal digits. -/
def hex (n : Nat) : List Char :=
  [hexDigit (n / 4096 % 16), hexDigit (n / 256 % 16),
    hexDigit (n / 16 % 16), hexDigit (n % 16)]

/- The characters with an escape of their own. -/
def shortEscapes : List (Char × Char) :=
  [('"', '"'), ('\\', '\\'), ('\n', 'n'), ('\r', 'r'),
    ('\t', 't'), ('\x0c', 'f'), ('\x08', 'b')]

/- A character in a string; two escapes beyond U+FFFF. -/
def escape (c : Char) : List Char :=
  match shortEscapes.lookup c with
  | some e => ['\\', e]
  | none =>
    if 32 ≤ c.toNat ∧ c.toNat ≤ 126 then [c]
    else if c.toNat < 65536 then '\\' :: 'u' :: hex c.toNat
    else
      let n := c.toNat - 65536
      '\\' :: 'u' :: hex (55296 + n / 1024) ++
        '\\' :: 'u' :: hex (56320 + n % 1024)

def dumpsInt : Int → List Char
| .ofNat n => Numeral.decimal n
| .negSucc n => '-' :: Numeral.decimal (n + 1)

end Json

------------------------------------------------------------
-- Reading
------------------------------------------------------------

namespace Json

/- A reader takes what it reads off the text. -/
abbrev Reader (α : Type) := List Char → Option (α × List Char)

def isSpace (c : Char) : Bool :=
  c = ' ' ∨ c = '\t' ∨ c = '\n' ∨ c = '\r'

def skip (cs : List Char) : List Char :=
  cs.dropWhile isSpace

def hexVal (c : Char) : Option Nat :=
  if c.isDigit then some (c.toNat - 48)
  else if 'a' ≤ c ∧ c ≤ 'f' then some (c.toNat - 87)
  else if 'A' ≤ c ∧ c ≤ 'F' then some (c.toNat - 55)
  else none

def readHex : Reader Nat
| a :: b :: c :: d :: rest =>
  match hexVal a, hexVal b, hexVal c, hexVal d with
  | some a, some b, some c, some d =>
    some (4096 * a + 256 * b + 16 * c + d, rest)
  | _, _, _, _ => none
| _ => none

/- What an escape of one character stands for. -/
def unescape (e : Char) : Option Char :=
  if e = '/' then some '/'
  else (shortEscapes.find? (fun p => p.2 = e)).map (·.1)

/- Items with commas between them, up to the bracket. -/
def readMore
    {α : Type}
    (close : Char)
    (item : Reader α) :
    Nat → Reader (List α)
| 0, _ => none
| fuel + 1, cs =>
  match item cs with
  | none => none
  | some (x, rest) =>
    match skip rest with
    | [] => none
    | c :: rest =>
      if c = close then some ([x], rest)
      else if c = ',' then
        (readMore close item fuel (skip rest)).map (fun r =>
          (x :: r.1, r.2))
      else none

/- The items after an opening bracket. -/
def readAll
    {α : Type}
    (close : Char)
    (item : Reader α)
    (fuel : Nat)
    (cs : List Char) :
    Option (List α × List Char) :=
  match skip cs with
  | [] => none
  | c :: rest =>
    if c = close then some ([], rest)
    else readMore close item fuel (c :: rest)

end Json

------------------------------------------------------------
-- Hexadecimal Digits
------------------------------------------------------------

namespace Json

theorem hexVal_hexDigit
    {d : Nat}
    (hLt : d < 16) :
    hexVal (hexDigit d) = some d := by
  have hAll : ∀ d, d < 16 → hexVal (hexDigit d) = some d := by
    decide
  exact hAll d hLt

theorem readHex_hex
    {n : Nat}
    (hLt : n < 65536)
    (rest : List Char) :
    readHex (hex n ++ rest) = some (n, rest) := by
  have hDigit (k : Nat) :
      hexVal (hexDigit (k % 16)) = some (k % 16) :=
    hexVal_hexDigit (Nat.mod_lt k (by omega))
  simp only [hex, List.cons_append, List.nil_append, readHex,
    hDigit]
  congr 2
  omega

end Json

------------------------------------------------------------
-- Integers
------------------------------------------------------------

namespace Json

/- What follows a value is no digit. -/
def Stops (rest : List Char) : Prop :=
  ∀ c ∈ rest.head?, ¬ c.isDigit

theorem stops_cons
    {c : Char}
    (hNot : ¬ c.isDigit)
    (rest : List Char) :
    Stops (c :: rest) := by
  intro c' hC'
  rwa [← Option.mem_some.mp hC']

/- The digits of a number, and only they, are taken. -/
theorem span_decimal
    (n : Nat)
    {rest : List Char}
    (hStops : Stops rest) :
    (Numeral.decimal n ++ rest).takeWhile Char.isDigit =
        Numeral.decimal n ∧
      (Numeral.decimal n ++ rest).dropWhile Char.isDigit =
        rest := by
  have hAll : ∀ c ∈ Numeral.decimal n, c.isDigit :=
    fun c hC => Numeral.isDigit_of_mem_decimal hC
  have hRest :
      rest.takeWhile Char.isDigit = [] ∧
        rest.dropWhile Char.isDigit = rest := by
    cases rest with
    | nil => exact ⟨rfl, rfl⟩
    | cons c rest =>
        have hNot := hStops c rfl
        simp [hNot]
  rw [List.takeWhile_append_of_pos hAll,
    List.dropWhile_append_of_pos hAll, hRest.1, hRest.2]
  exact ⟨List.append_nil _, rfl⟩

theorem head_decimal (n : Nat) :
    ∃ c cs, Numeral.decimal n = c :: cs ∧ c.isDigit := by
  cases hDigits : Numeral.decimal n with
  | nil => exact absurd hDigits (Numeral.decimal_ne_nil n)
  | cons c cs =>
      refine ⟨c, cs, rfl, ?_⟩
      apply Numeral.isDigit_of_mem_decimal (n := n)
      rw [hDigits]
      exact List.mem_cons_self

end Json

------------------------------------------------------------
-- First Characters
------------------------------------------------------------

namespace Json

theorem skip_cons
    {c : Char}
    (hNot : isSpace c = false)
    (rest : List Char) :
    skip (c :: rest) = c :: rest := by
  rw [skip, List.dropWhile_cons_of_neg (by simp [hNot])]

/- A number starts like no other value. -/
theorem ne_of_number
    {c d : Char}
    (hNumber : c.isDigit ∨ c = '-')
    (hOther : ¬ d.isDigit ∧ d ≠ '-') :
    c ≠ d := by
  rintro rfl
  rcases hNumber with hDigit | hMinus
  · exact hOther.1 hDigit
  · exact hOther.2 hMinus

theorem isSpace_of_number
    {c : Char}
    (hNumber : c.isDigit ∨ c = '-') :
    isSpace c = false := by
  have hNe (d : Char) (hOther : ¬ d.isDigit ∧ d ≠ '-') :
      c ≠ d :=
    ne_of_number hNumber hOther
  simp [isSpace, hNe ' ' (by decide), hNe '\t' (by decide),
    hNe '\n' (by decide), hNe '\r' (by decide)]

end Json

------------------------------------------------------------
-- Items
------------------------------------------------------------

namespace Json

variable {α : Type} {P : α → Prop} {close : Char}
  {item : Reader α}

/- What holds of every item holds of all that are read. -/
theorem readMore_forall
    (hItem : ∀ cs x rest, item cs = some (x, rest) → P x)
    {fuel : Nat}
    {cs rest : List Char}
    {xs : List α}
    (hRead : readMore close item fuel cs = some (xs, rest)) :
    ∀ x ∈ xs, P x := by
  induction fuel generalizing cs xs with
  | zero => cases hRead
  | succ fuel ih =>
      rw [readMore] at hRead
      split at hRead
      · cases hRead
      · rename_i x cs' hFirst
        have hX := hItem cs x cs' hFirst
        split at hRead
        · cases hRead
        · split at hRead
          · cases hRead
            rintro y hY
            rw [List.mem_singleton.mp hY]
            exact hX
          · split at hRead
            · rcases Option.map_eq_some_iff.mp hRead with
                ⟨r, hMore, hEq⟩
              rw [Prod.mk.injEq] at hEq
              rcases hEq with ⟨rfl, rfl⟩
              rintro y hY
              rcases List.mem_cons.mp hY with rfl | hRest
              · exact hX
              · exact ih hMore y hRest
            · cases hRead

theorem readAll_forall
    (hItem : ∀ cs x rest, item cs = some (x, rest) → P x)
    {fuel : Nat}
    {cs rest : List Char}
    {xs : List α}
    (hRead : readAll close item fuel cs = some (xs, rest)) :
    ∀ x ∈ xs, P x := by
  rw [readAll] at hRead
  split at hRead
  · cases hRead
  · split at hRead
    · cases hRead
      rintro x hX
      cases hX
    · exact readMore_forall hItem hRead

end Json
