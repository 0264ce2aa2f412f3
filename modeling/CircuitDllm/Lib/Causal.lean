import Mathlib.Data.List.Basic
import Mathlib.Data.List.TakeDrop
import Mathlib.Data.List.Infix

/-
  Causal maps and greedy decoding over an arbitrary
  alphabet.

  `Causal.feed F held fed` is the list of outputs of a
  causal map on the entries `fed`, one after the other, when
  the entries `held` were fed before.  `Causal.greedy f ts n`
  extends `ts` by `n` values, each one chosen by `f` from
  everything before it.

  Main declarations:
    * `Causal.feed_append`
    * `Causal.greedy_add`
    * `Causal.agreeing_prefix_eq_greedy`
    * `Causal.greedy_prefix`
-/

------------------------------------------------------------
-- Causal Feeding
------------------------------------------------------------

namespace Causal

variable {E O : Type}

/- Outputs on `fed` after the history `held`. -/
def feed
    (F : List E → O)
    (held : List E) :
    List E → List O
| [] => []
| e :: fed =>
    F (held ++ [e]) :: feed F (held ++ [e]) fed

@[simp] theorem length_feed
    (F : List E → O)
    (held fed : List E) :
    (feed F held fed).length = fed.length := by
  induction fed generalizing held with
  | nil => rfl
  | cons e fed ih => simp [feed, ih]

/- Feeding in two chunks is feeding once. -/
theorem feed_append
    (F : List E → O)
    (held left right : List E) :
    feed F held (left ++ right) =
      feed F held left ++
        feed F (held ++ left) right := by
  induction left generalizing held with
  | nil => simp [feed]
  | cons e left ih => simp [feed, ih]

/- The output at a position sees exactly its prefix. -/
theorem getElem?_feed
    (F : List E → O)
    (held fed : List E)
    (i : Nat)
    (hi : i < fed.length) :
    (feed F held fed)[i]? =
      some (F (held ++ fed.take (i + 1))) := by
  induction fed generalizing held i with
  | nil => simp at hi
  | cons e fed ih =>
      cases i with
      | zero => simp [feed]
      | succ i =>
          have hTail : i < fed.length := by
            simpa using hi
          simpa [feed] using ih (held ++ [e]) i hTail

/- The last output sees the whole history. -/
theorem getLast?_feed
    (F : List E → O)
    (held fed : List E)
    (hFed : fed ≠ []) :
    (feed F held fed).getLast? =
      some (F (held ++ fed)) := by
  have hPos : 0 < fed.length :=
    List.length_pos_iff.mpr hFed
  rw [List.getLast?_eq_getElem?, length_feed,
    getElem?_feed F held fed _ (by omega)]
  simp [show fed.length - 1 + 1 = fed.length by omega]

end Causal

------------------------------------------------------------
-- Greedy Extension
------------------------------------------------------------

namespace Causal

variable {T : Type}

/- Extend `ts` by `n` values chosen by `f`. -/
def greedy
    (f : List T → T)
    (ts : List T) :
    Nat → List T
| 0 => []
| n + 1 => f ts :: greedy f (ts ++ [f ts]) n

@[simp] theorem greedy_zero
    (f : List T → T)
    (ts : List T) :
    greedy f ts 0 = [] := rfl

@[simp] theorem length_greedy
    (f : List T → T)
    (ts : List T)
    (n : Nat) :
    (greedy f ts n).length = n := by
  induction n generalizing ts with
  | zero => rfl
  | succ n ih => simp [greedy, ih]

/- A greedy run continues from where it stopped. -/
theorem greedy_add
    (f : List T → T)
    (ts : List T)
    (m n : Nat) :
    greedy f ts (m + n) =
      greedy f ts m ++
        greedy f (ts ++ greedy f ts m) n := by
  induction m generalizing ts with
  | zero => simp
  | succ m ih =>
      rw [show m + 1 + n = (m + n) + 1 by omega]
      simp [greedy, ih]

/- The next value after a greedy run. -/
theorem greedy_succ
    (f : List T → T)
    (ts : List T)
    (n : Nat) :
    greedy f ts (n + 1) =
      greedy f ts n ++ [f (ts ++ greedy f ts n)] := by
  simpa [greedy] using greedy_add f ts n 1

/- Shorter runs are initial segments of longer ones. -/
theorem take_greedy
    (f : List T → T)
    (ts : List T)
    {m n : Nat}
    (hmn : m ≤ n) :
    (greedy f ts n).take m = greedy f ts m := by
  rcases Nat.exists_eq_add_of_le hmn with ⟨k, rfl⟩
  rw [greedy_add]
  simp

/- Greedy runs of different lengths are comparable. -/
theorem greedy_prefix
    (f : List T → T)
    (ts : List T)
    {m n : Nat}
    (hmn : m ≤ n) :
    greedy f ts m <+: greedy f ts n := by
  rw [← take_greedy f ts hmn]
  exact List.take_prefix _ _

/-
  Guesses that agree with the causal outputs, followed by
  the output after the last agreeing guess, are a greedy run.
-/
theorem agreeing_prefix_eq_greedy
    (f : List T → T)
    (ts guesses : List T)
    (m : Nat)
    (hm : m ≤ guesses.length)
    (hAgree :
      ∀ i, i < m →
        guesses[i]? = some (f (ts ++ guesses.take i))) :
    guesses.take m = greedy f ts m := by
  induction m with
  | zero => simp
  | succ m ih =>
      have hTake : guesses.take m = greedy f ts m :=
        ih (by omega) (fun i hi => hAgree i (by omega))
      have hNext := hAgree m (by omega)
      rw [List.take_add_one, hNext, greedy_succ, hTake]
      rfl

end Causal
