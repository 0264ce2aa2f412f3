import CircuitDllm.Lib.Causal
import Mathlib.Data.List.TakeWhile

/-
  Greedy decoding (engine/coordinator.py, generate_state).

  The loop is given the relay as `Forward`: it sends a chunk
  at a position and returns the greedy pick at the chunk's
  last position.  `ForwardSpec` says what a relay must do
  for the loop to be greedy decoding; it may also raise when
  `MayRaise` holds.

  Main declarations:
    * `greedySteps`
    * `generateState`
    * `ForwardSpec`
    * `generateState_greedy`
-/

------------------------------------------------------------
-- The Decode Loop
------------------------------------------------------------

namespace CircuitDllm

variable {Tok S E : Type}

/-
  Relay `ids` at a position, given the tokens already in
  the KV, and pick at the last row.
-/
abbrev Forward (Tok S E : Type) :=
  Nat → List Tok → List Tok → S → Except E Tok × S

/- The head-side state a decode can be resumed from. -/
structure GreedyOut (Tok : Type) where
  out : List Tok
  seqIds : List Tok
  nxt : Tok
  cur : Nat
deriving DecidableEq, Repr

/-
  Up to n_new steps from the carried state; an EOS pick ends
  the loop before it is fed.
-/
def greedySteps
    (forward : Forward Tok S E)
    (eos : Tok → Bool) :
    Nat → List Tok → Tok → Nat → S →
      Except E (GreedyOut Tok) × S
| 0, seqIds, nxt, cur, s => (.ok ⟨[], seqIds, nxt, cur⟩, s)
| n + 1, seqIds, nxt, cur, s =>
    if eos nxt then (.ok ⟨[], seqIds, nxt, cur⟩, s)
    else
      match forward cur [nxt] seqIds s with
      | (.error e, s) => (.error e, s)
      | (.ok pick, s) =>
        match greedySteps forward eos n (seqIds ++ [nxt]) pick
            (cur + 1) s with
        | (.error e, s) => (.error e, s)
        | (.ok r, s) => (.ok { r with out := nxt :: r.out }, s)

/- Prefill at position 0, then the greedy steps. -/
def generateState
    (forward : Forward Tok S E)
    (eos : Tok → Bool)
    (ids : List Tok)
    (nNew : Int)
    (s : S) :
    Except E (GreedyOut Tok) × S :=
  match forward 0 ids [] s with
  | (.error e, s) => (.error e, s)
  | (.ok nxt, s) =>
    greedySteps forward eos nNew.toNat ids nxt ids.length s

end CircuitDllm

------------------------------------------------------------
-- Greedy Runs Cut at EOS
------------------------------------------------------------

namespace CircuitDllm

variable {Tok : Type}

/- At most `n` greedy tokens, stopped before an EOS. -/
def greedyCut
    (f : List Tok → Tok)
    (eos : Tok → Bool)
    (ids : List Tok)
    (n : Nat) :
    List Tok :=
  (Causal.greedy f ids n).takeWhile (fun tok => !eos tok)

@[simp] theorem greedyCut_zero
    (f : List Tok → Tok)
    (eos : Tok → Bool)
    (ids : List Tok) :
    greedyCut f eos ids 0 = [] := rfl

theorem greedyCut_succ
    (f : List Tok → Tok)
    (eos : Tok → Bool)
    (ids : List Tok)
    (n : Nat) :
    greedyCut f eos ids (n + 1) =
      if eos (f ids) then []
      else
        f ids :: greedyCut f eos (ids ++ [f ids]) n := by
  unfold greedyCut
  rw [Causal.greedy, List.takeWhile_cons]
  cases hEos : eos (f ids) <;> simp

/- A greedy run without EOS is not cut. -/
theorem greedyCut_eq_self
    {f : List Tok → Tok}
    {eos : Tok → Bool}
    {ids : List Tok}
    {n : Nat}
    (hEos :
      ∀ tok ∈ Causal.greedy f ids n, eos tok = false) :
    greedyCut f eos ids n = Causal.greedy f ids n := by
  unfold greedyCut
  rw [List.takeWhile_eq_self_iff]
  simpa using hEos

/-
  A cut run continues from an uncut one of its first tokens.
-/
theorem greedyCut_add
    {f : List Tok → Tok}
    {eos : Tok → Bool}
    {ids : List Tok}
    {m : Nat}
    (hEos :
      ∀ tok ∈ Causal.greedy f ids m, eos tok = false)
    (n : Nat) :
    greedyCut f eos ids (m + n) =
      Causal.greedy f ids m ++
        greedyCut f eos (ids ++ Causal.greedy f ids m) n := by
  unfold greedyCut
  rw [Causal.greedy_add, List.takeWhile_append_of_pos]
  simpa using hEos

end CircuitDllm

------------------------------------------------------------
-- Greedy Decoding
------------------------------------------------------------

namespace CircuitDllm

variable {Tok S E : Type}

/-
  `Holds s kv`: the KV behind `s` is `kv`.  A relay at its
  end either answers `f` there and extends the KV, or, where
  it may, raises.
-/
def ForwardSpec
    (forward : Forward Tok S E)
    (f : List Tok → Tok)
    (Holds : S → List Tok → Prop)
    (MayRaise : Prop) : Prop :=
  ∀ s kv ids,
    ids ≠ [] →
    Holds s kv →
    (∃ s',
      forward kv.length ids kv s =
          (.ok (f (kv ++ ids)), s') ∧
        Holds s' (kv ++ ids)) ∨
      (MayRaise ∧
        ∃ e s', forward kv.length ids kv s = (.error e, s'))

variable {forward : Forward Tok S E}
variable {f : List Tok → Tok}
variable {Holds : S → List Tok → Prop}
variable {MayRaise : Prop}

/- The steps from a KV feed the cut greedy run after it. -/
theorem greedySteps_greedy
    (hForward : ForwardSpec forward f Holds MayRaise)
    (eos : Tok → Bool)
    (n : Nat)
    (kv : List Tok)
    (s : S)
    (hHolds : Holds s kv) :
    (∃ s',
      let out := greedyCut f eos kv n
      greedySteps forward eos n kv (f kv) kv.length s =
          (.ok
            ⟨out, kv ++ out, f (kv ++ out),
              kv.length + out.length⟩, s') ∧
        Holds s' (kv ++ out)) ∨
      (MayRaise ∧
        ∃ e s',
          greedySteps forward eos n kv (f kv) kv.length s =
            (.error e, s')) := by
  induction n generalizing kv s with
  | zero =>
      left
      exact ⟨s, by simp [greedySteps], by simpa using hHolds⟩
  | succ n ih =>
      by_cases hEos : eos (f kv) = true
      · left
        refine ⟨s, ?_, ?_⟩
        · simp [greedySteps, greedyCut_succ, hEos]
        · simpa [greedyCut_succ, hEos] using hHolds
      · rcases hForward s kv [f kv] (by simp) hHolds with
          ⟨s₁, hOk, hHolds₁⟩ | ⟨hMay, e, s₁, hError⟩
        · have hNext := ih (kv ++ [f kv]) s₁ hHolds₁
          rw [List.length_append, List.length_singleton]
            at hNext
          rcases hNext with
            ⟨s', hSteps, hHolds'⟩ | ⟨hMay, e, s', hSteps⟩
          · left
            refine ⟨s', ?_, ?_⟩
            · simp only [greedySteps, hEos, hOk, hSteps,
                greedyCut_succ]
              simp [Nat.add_assoc, Nat.add_comm 1]
            · simpa [greedyCut_succ, hEos] using hHolds'
          · right
            refine ⟨hMay, e, s', ?_⟩
            simp [greedySteps, hEos, hOk, hSteps]
        · right
          refine ⟨hMay, e, s₁, ?_⟩
          simp [greedySteps, hEos, hError]

/-
  Decoding a prompt returns the greedy tokens, at most n_new
  of them and stopped before an EOS.
-/
theorem generateState_greedy
    (hForward : ForwardSpec forward f Holds MayRaise)
    (eos : Tok → Bool)
    (ids : List Tok)
    (nNew : Int)
    (s : S)
    (hIds : ids ≠ [])
    (hHolds : Holds s []) :
    (∃ s',
      let out := greedyCut f eos ids nNew.toNat
      generateState forward eos ids nNew s =
          (.ok
            ⟨out, ids ++ out, f (ids ++ out),
              ids.length + out.length⟩, s') ∧
        Holds s' (ids ++ out)) ∨
      (MayRaise ∧
        ∃ e s',
          generateState forward eos ids nNew s =
            (.error e, s')) := by
  rcases hForward s [] ids hIds hHolds with
    ⟨s₁, hOk, hHolds₁⟩ | ⟨hMay, e, s₁, hError⟩
  · rcases greedySteps_greedy hForward eos nNew.toNat ids s₁
        hHolds₁ with
      ⟨s', hSteps, hHolds'⟩ | ⟨hMay, e, s', hSteps⟩
    · left
      refine ⟨s', ?_, hHolds'⟩
      simp only [List.length_nil, List.nil_append] at hOk
      simp only [generateState, hOk, hSteps]
    · right
      refine ⟨hMay, e, s', ?_⟩
      simp only [List.length_nil, List.nil_append] at hOk
      simp only [generateState, hOk, hSteps]
  · right
    refine ⟨hMay, e, s₁, ?_⟩
    simp only [List.length_nil] at hError
    simp only [generateState, hError]

end CircuitDllm
