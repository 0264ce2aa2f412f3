import Mathlib.Data.List.Basic
import Mathlib.Tactic.Common

/-
  Decoders that replace what they cannot read.

  A decoder reads symbols one by one.  Between two symbols
  it has a code word under way or none; a code word that
  cannot go on, or that the input cuts off, is replaced by
  one fixed character.  Decoding a prefix of the input gives
  a prefix of the text unless it cuts a code word that the
  rest completes.

  Main declarations:
    * `Replacing.Decoder`
    * `Replacing.Decoder.decode`
    * `Replacing.Decoder.completes`
    * `Replacing.Decoder.flush_prefix_iff`
    * `Replacing.utf8`
-/

------------------------------------------------------------
-- Decoders
------------------------------------------------------------

namespace Replacing

/- What one more symbol makes of a code word. -/
inductive Step (P A : Type) where
  /- it is a character -/
  | char (a : A)
  /- it is not over -/
  | more (p : P)
  /- no code word goes on like this -/
  | bad
deriving DecidableEq, Repr

/- A decoder of symbols `B` into characters `A`. -/
structure Decoder (B P A : Type) where
  first : B → Step P A
  next : P → B → Step P A
  replacement : A

namespace Decoder

variable {B P A : Type} (d : Decoder B P A)

/- The text so far, and the code word under way. -/
abbrev State (P A : Type) := List A × Option P

/- A symbol where no code word is under way. -/
def enter (text : List A) (b : B) : State P A :=
  match d.first b with
  | .char a => (text ++ [a], none)
  | .more p => (text, some p)
  | .bad => (text ++ [d.replacement], none)

/- A symbol that does not continue the word starts anew. -/
def feed (s : State P A) (b : B) : State P A :=
  match s.2 with
  | none => d.enter s.1 b
  | some p =>
    match d.next p b with
    | .char a => (s.1 ++ [a], none)
    | .more p => (s.1, some p)
    | .bad => d.enter (s.1 ++ [d.replacement]) b

def run (s : State P A) (bs : List B) : State P A :=
  bs.foldl d.feed s

/- The end of the input cuts the word under way off. -/
def flush (s : State P A) : List A :=
  s.1 ++ (if s.2.isSome then [d.replacement] else [])

def decode (bs : List B) : List A :=
  d.flush (d.run ([], none) bs)

/- The character the word under way becomes, if it does. -/
def completes : P → List B → Option A
| _, [] => none
| p, b :: bs =>
    match d.next p b with
    | .char a => some a
    | .more p => completes p bs
    | .bad => none

end Decoder

end Replacing

------------------------------------------------------------
-- Prefixes of the Text
------------------------------------------------------------

namespace Replacing

namespace Decoder

variable {B P A : Type} {d : Decoder B P A}

theorem run_append (s : State P A) (bs bs' : List B) :
    d.run s (bs ++ bs') = d.run (d.run s bs) bs' := by
  rw [run, run, run, List.foldl_append]

/- Text that was written stays. -/
theorem prefix_enter (text : List A) (b : B) :
    text <+: (d.enter text b).1 := by
  unfold enter
  split
  · exact List.prefix_append _ _
  · exact List.prefix_rfl
  · exact List.prefix_append _ _

theorem prefix_feed (s : State P A) (b : B) :
    s.1 <+: (d.feed s b).1 := by
  unfold feed
  split
  · exact prefix_enter s.1 b
  · split
    · exact List.prefix_append _ _
    · exact List.prefix_rfl
    · exact (List.prefix_append _ _).trans (prefix_enter _ b)

theorem prefix_run (s : State P A) (bs : List B) :
    s.1 <+: (d.run s bs).1 := by
  induction bs generalizing s with
  | nil => exact List.prefix_rfl
  | cons b bs ih =>
      exact (prefix_feed s b).trans (ih (d.feed s b))

theorem prefix_flush (s : State P A) (bs : List B) :
    s.1 <+: d.flush (d.run s bs) :=
  (prefix_run s bs).trans (List.prefix_append _ _)

/-
  The word under way ends as one character: the one it is
  completed to, or the replacement.
-/
theorem prefix_pending
    (text : List A)
    (p : P)
    (bs : List B) :
    text ++ [(d.completes p bs).getD d.replacement] <+:
      d.flush (d.run (text, some p) bs) := by
  induction bs generalizing p with
  | nil => exact List.prefix_rfl
  | cons b bs ih =>
      have hRun :
          d.run (text, some p) (b :: bs) =
            d.run (d.feed (text, some p) b) bs := rfl
      rw [hRun]
      simp only [feed, completes]
      cases d.next p b with
      | char a => exact prefix_flush (d := d) (text ++ [a], none) bs
      | more p => exact ih p
      | bad =>
          exact
            (prefix_enter _ b).trans
              (prefix_flush (d.enter _ b) bs)

/- More input, no shorter text. -/
theorem length_flush_le (s : State P A) (bs : List B) :
    (d.flush s).length ≤ (d.flush (d.run s bs)).length := by
  rcases s with ⟨text, pending⟩
  cases pending with
  | none =>
      have hPrefix := prefix_flush (d := d) (text, none) bs
      have hLength := hPrefix.length_le
      simpa [flush] using hLength
  | some p =>
      have hLength := (prefix_pending (d := d) text p bs).length_le
      simpa [flush] using hLength

/- The rest of the input keeps what the prefix reads as. -/
def Keeps (d : Decoder B P A) (s : State P A) (bs : List B) :
    Prop :=
  ∀ p, s.2 = some p →
    ∀ a, d.completes p bs = some a → a = d.replacement

/-
  Decoding a prefix of the input gives a prefix of the text
  exactly when no word it cuts off is completed.
-/
theorem flush_prefix_iff (s : State P A) (bs : List B) :
    d.flush s <+: d.flush (d.run s bs) ↔ d.Keeps s bs := by
  rcases s with ⟨text, pending⟩
  cases pending with
  | none =>
      refine iff_of_true ?_ (fun p hP => by cases hP)
      have hPrefix := prefix_flush (d := d) (text, none) bs
      simpa [flush] using hPrefix
  | some p =>
      have hPending := prefix_pending (d := d) text p bs
      have hFlush :
          d.flush (text, some p) = text ++ [d.replacement] := rfl
      rw [hFlush]
      constructor
      · intro hPrefix q hQ a hA
        cases hQ
        rw [hA] at hPending
        have hSame :=
          List.prefix_of_prefix_length_le hPending hPrefix
            (by simp)
        have hEq :=
          hSame.eq_of_length (by simp)
        simpa using hEq
      · intro hKeeps
        cases hCompletes : d.completes p bs with
        | none =>
            rw [hCompletes] at hPending
            exact hPending
        | some a =>
            rw [hCompletes, hKeeps p rfl a hCompletes]
              at hPending
            exact hPending

end Decoder

end Replacing

------------------------------------------------------------
-- UTF-8
------------------------------------------------------------

namespace Replacing

/-
  A sequence under way: its bits so far, the bytes still to
  come after the next one, and the range of the next one.
-/
structure Utf8Word where
  bits : Nat
  left : Nat
  low : UInt8
  high : UInt8
deriving DecidableEq, Repr

/- The first byte of a sequence. -/
def utf8First (b : UInt8) : Step Utf8Word Char :=
  if b ≤ 0x7F then .char (.ofNat b.toNat)
  else if 0xC2 ≤ b ∧ b ≤ 0xDF then
    .more ⟨b.toNat - 0xC0, 0, 0x80, 0xBF⟩
  else if 0xE0 ≤ b ∧ b ≤ 0xEF then
    -- no overlong forms, no surrogates
    .more
      ⟨b.toNat - 0xE0, 1,
        if b = 0xE0 then 0xA0 else 0x80,
        if b = 0xED then 0x9F else 0xBF⟩
  else if 0xF0 ≤ b ∧ b ≤ 0xF4 then
    -- nothing above U+10FFFF
    .more
      ⟨b.toNat - 0xF0, 2,
        if b = 0xF0 then 0x90 else 0x80,
        if b = 0xF4 then 0x8F else 0xBF⟩
  else .bad

/- A byte that may continue one. -/
def utf8Next (w : Utf8Word) (b : UInt8) : Step Utf8Word Char :=
  if w.low ≤ b ∧ b ≤ w.high then
    let bits := w.bits * 64 + (b.toNat - 0x80)
    match w.left with
    | 0 => .char (.ofNat bits)
    | left + 1 => .more ⟨bits, left, 0x80, 0xBF⟩
  else .bad

/- UTF-8, with U+FFFD for what is incomplete or invalid. -/
def utf8 : Decoder UInt8 Utf8Word Char where
  first := utf8First
  next := utf8Next
  replacement := .ofNat 0xFFFD

/- A sequence that is cut off, then one that is not. -/
example :
    utf8.decode
        [0xE2, 0x82, 0x41, 0xF0, 0x9F, 0x98, 0x80, 0xC3] =
      [.ofNat 0xFFFD, 'A', .ofNat 0x1F600, .ofNat 0xFFFD] := by
  decide

end Replacing
