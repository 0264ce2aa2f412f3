import CircuitDllm.Lib.Causal
import CircuitDllm.Lib.Select

/-
  The KV cache of one pipeline stage (engine/kv.py).

  Every layer of a stage holds one key/value row for each
  processed position, so a stage's cache is the list of its
  entries: what was fed at the position and the position id
  it was fed with.  `StageKV.linear xs` is the cache that
  decoding `xs` one position after the other builds.

  Main declarations:
    * `StageKV.truncateTo`
    * `StageKV.keepTreePath`
-/

------------------------------------------------------------
-- Cache Operations
------------------------------------------------------------

namespace CircuitDllm

/- One entry for each cached position of a stage. -/
abbrev StageKV (A : Type) := List (A × Nat)

namespace StageKV

variable {A : Type}

/- The number of cached positions. -/
def getSeqLength (kv : StageKV A) : Nat :=
  kv.length

/- Drop all cached state. -/
def reset (_kv : StageKV A) : StageKV A :=
  []

/- Roll the cache back to `length` positions. -/
def truncateTo
    (kv : StageKV A)
    (length : Nat) :
    StageKV A :=
  if kv.getSeqLength ≤ length then kv
  else kv.take length

/-
  Keep the prefix and the accepted tree slots, in order.  A
  slot outside the cache raises.
-/
def keepTreePath
    (kv : StageKV A)
    (prefixLen : Nat)
    (acceptedSlots : List Nat) :
    Option (StageKV A) :=
  if kv.getSeqLength = 0 then some kv
  else
    Select.pick kv
      (List.range prefixLen ++
        acceptedSlots.map (prefixLen + ·))

/- The cache that linear decoding of `xs` has built. -/
def linear (xs : List A) : StageKV A :=
  xs.zipIdx

end StageKV

end CircuitDllm

------------------------------------------------------------
-- Cache Lemmas
------------------------------------------------------------

namespace CircuitDllm

namespace StageKV

variable {A : Type}

@[simp] theorem getSeqLength_linear (xs : List A) :
    (linear xs).getSeqLength = xs.length := by
  simp [getSeqLength, linear]

@[simp] theorem length_linear (xs : List A) :
    (linear xs).length = xs.length := by
  simp [linear]

@[simp] theorem linear_nil :
    linear ([] : List A) = [] := rfl

/- Truncating keeps the first entries. -/
theorem truncateTo_eq_take
    (kv : StageKV A)
    (length : Nat) :
    kv.truncateTo length = kv.take length := by
  unfold truncateTo getSeqLength
  split
  next hLe => rw [List.take_of_length_le hLe]
  next => rfl

/- Feeding positions after a linear cache keeps it linear. -/
theorem linear_append (xs ys : List A) :
    linear (xs ++ ys) =
      linear xs ++ ys.zipIdx xs.length := by
  simp [linear, List.zipIdx_append]

theorem take_zipIdx
    (xs : List A)
    (start length : Nat) :
    (xs.zipIdx start).take length =
      (xs.take length).zipIdx start := by
  induction xs generalizing start length with
  | nil => simp
  | cons x xs ih =>
      cases length with
      | zero => simp
      | succ length => simp [ih]

theorem take_linear
    (xs : List A)
    (length : Nat) :
    (linear xs).take length =
      linear (xs.take length) :=
  take_zipIdx xs 0 length

/- A linear cache rolled back is a linear cache. -/
theorem truncateTo_linear
    (xs : List A)
    (length : Nat) :
    (linear xs).truncateTo length =
      linear (xs.take length) := by
  rw [truncateTo_eq_take, take_linear]

end StageKV

end CircuitDllm
