import Mathlib.Data.List.Basic

/-
  Parsers that take a value off the front of their input,
  and the printers they undo.

  A parser reads a printer when it gets every printed value
  back and leaves what follows alone; it is exact when it
  takes nothing else.  Both pass to sequences of values, and
  together they refuse every input that breaks off early.

  Main declarations:
    * `Parser`, `Parser.Reads`, `Parser.Exact`
    * `Parser.error_of_prefix`
    * `Parser.exactly`
    * `Parser.times`, `Parser.Reads.times`, `Parser.Exact.times`
-/

------------------------------------------------------------
-- Parsers and Printers
------------------------------------------------------------

namespace CircuitDllm

/- A value and the rest of the input, or an error. -/
abbrev Parser (E B A : Type) :=
  List B → Except E (A × List B)

namespace Parser

variable {E B A : Type}

/- Printed values are read back, whatever follows them. -/
def Reads
    (parse : Parser E B A)
    (print : A → List B)
    (valid : A → Prop) :
    Prop :=
  ∀ a, valid a → ∀ rest, parse (print a ++ rest) = .ok (a, rest)

/- What is read is a printed value. -/
def Exact
    (parse : Parser E B A)
    (print : A → List B)
    (valid : A → Prop) :
    Prop :=
  ∀ bs a rest, parse bs = .ok (a, rest) →
    valid a ∧ bs = print a ++ rest

variable {parse : Parser E B A} {print : A → List B}
variable {valid : A → Prop}

/- Nothing that breaks off inside a printed value is read. -/
theorem error_of_prefix
    (hReads : Reads parse print valid)
    (hExact : Exact parse print valid)
    {a : A}
    (hValid : valid a)
    {bs : List B}
    (hFront : bs <+: print a)
    (hShort : bs ≠ print a) :
    ∃ e, parse bs = .error e := by
  cases hParse : parse bs with
  | error e => exact ⟨e, rfl⟩
  | ok got =>
      exfalso
      rcases got with ⟨a', rest⟩
      rcases hExact bs a' rest hParse with ⟨hValid', hBytes⟩
      rcases hFront with ⟨missing, hWhole⟩
      -- the whole text is read as the shorter value too
      have hSame : print a ++ [] = print a' ++ (rest ++ missing) := by
        rw [List.append_nil, ← hWhole, hBytes,
          List.append_assoc]
      have hWant := hReads a hValid []
      rw [hSame, hReads a' hValid' (rest ++ missing)] at hWant
      have hEnds := (Prod.mk.inj (Except.ok.inj hWant)).2
      have hNone := (List.append_eq_nil_iff.mp hEnds).2
      rw [hNone, List.append_nil] at hWhole
      exact hShort hWhole

/- The value and the rest are determined by the input. -/
theorem Reads.unique
    (hReads : Reads parse print valid)
    {a a' : A}
    (hValid : valid a)
    (hValid' : valid a')
    {rest rest' : List B}
    (hSame : print a ++ rest = print a' ++ rest') :
    a = a' ∧ rest = rest' := by
  have hWant := hReads a hValid rest
  rw [hSame, hReads a' hValid' rest'] at hWant
  rcases Prod.mk.inj (Except.ok.inj hWant) with ⟨hA, hRest⟩
  exact ⟨hA.symm, hRest.symm⟩

end Parser

end CircuitDllm

------------------------------------------------------------
-- Fields of a Known Length
------------------------------------------------------------

namespace CircuitDllm

namespace Parser

variable {E B A : Type}

/- The next `n` tokens, which must be there. -/
def exactly (e : E) (n : Nat) : Parser E B (List B) :=
  fun bs =>
    if (bs.take n).length = n then .ok (bs.take n, bs.drop n)
    else .error e

theorem reads_exactly (e : E) (n : Nat) :
    Reads (exactly e n) id (fun bs : List B => bs.length = n) := by
  intro bs hLength rest
  subst hLength
  simp [exactly]

theorem exact_exactly (e : E) (n : Nat) :
    Exact (exactly e n) id (fun bs : List B => bs.length = n) := by
  intro bs field rest hParse
  rw [exactly] at hParse
  split at hParse
  · rename_i hLength
    cases hParse
    exact ⟨hLength, (List.take_append_drop n bs).symm⟩
  · cases hParse

end Parser

end CircuitDllm

------------------------------------------------------------
-- Sequences
------------------------------------------------------------

namespace CircuitDllm

namespace Parser

variable {E B A : Type}

/- That many values, one after the other. -/
def times (parse : Parser E B A) : Nat → Parser E B (List A)
| 0, bs => .ok ([], bs)
| n + 1, bs =>
    match parse bs with
    | .error e => .error e
    | .ok (a, bs) =>
      match times parse n bs with
      | .error e => .error e
      | .ok (as, bs) => .ok (a :: as, bs)

variable {parse : Parser E B A} {print : A → List B}
variable {valid : A → Prop}

theorem Reads.times
    (hReads : Reads parse print valid)
    {as : List A}
    (hValid : ∀ a ∈ as, valid a)
    (rest : List B) :
    parse.times as.length (as.flatMap print ++ rest) =
      .ok (as, rest) := by
  induction as with
  | nil => rfl
  | cons a as ih =>
      rcases List.forall_mem_cons.mp hValid with ⟨hA, hAs⟩
      rw [List.flatMap_cons, List.append_assoc,
        List.length_cons, Parser.times, hReads a hA]
      simp only [ih hAs]

theorem Exact.times
    (hExact : Exact parse print valid)
    {n : Nat}
    {bs : List B}
    {as : List A}
    {rest : List B}
    (hParse : parse.times n bs = .ok (as, rest)) :
    as.length = n ∧ (∀ a ∈ as, valid a) ∧
      bs = as.flatMap print ++ rest := by
  induction n generalizing bs as with
  | zero =>
      rw [Parser.times] at hParse
      cases hParse
      exact ⟨rfl, by simp, rfl⟩
  | succ n ih =>
      rw [Parser.times] at hParse
      cases hFirst : parse bs with
      | error e =>
          simp only [hFirst] at hParse
          cases hParse
      | ok got =>
          rcases got with ⟨a, left⟩
          simp only [hFirst] at hParse
          cases hLater : parse.times n left with
          | error e =>
              simp only [hLater] at hParse
              cases hParse
          | ok more =>
              rcases more with ⟨tail, last⟩
              simp only [hLater] at hParse
              cases hParse
              rcases hExact bs a left hFirst with
                ⟨hA, hBytes⟩
              rcases ih hLater with ⟨hLength, hTail, hRest⟩
              refine ⟨?_, ?_, ?_⟩
              · rw [List.length_cons, hLength]
              · exact List.forall_mem_cons.mpr ⟨hA, hTail⟩
              · rw [hBytes, hRest, List.flatMap_cons,
                  List.append_assoc]

end Parser

end CircuitDllm
