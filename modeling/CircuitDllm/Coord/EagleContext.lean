import CircuitDllm.Coord.Speculative
import CircuitDllm.SpecDecode.Eagle

/-
  The EAGLE draft over the mesh (engine/coordinator.py).

  A relay returns a hidden state for every position it is
  given.  On a fresh session the target relays every token of
  the prompt, so the draft's context is aligned in every
  round; on a warm one it relays the suffix alone, and the
  draft gets the whole prompt with the features of its end.

  Main declarations:
    * `relay_length`
    * `socketTarget_answersRows`
    * `EagleStream`, `EagleStream.Aligned`
    * `eagle_aligned_iff`
-/

------------------------------------------------------------
-- The Length of a Relay
------------------------------------------------------------

namespace CircuitDllm

namespace CoordEnv

variable {Tok H P : Type} (env : CoordEnv Tok H P)

theorem runLocal_length
    (session pos : Nat)
    (hidden : List H)
    (s : CoordState Tok H P) :
    (env.runLocal session pos hidden s).1.length =
      hidden.length := by
  unfold runLocal
  split
  · rfl
  · simp

theorem activateAt_length
    (nodeId : String)
    (session pos : Nat)
    (hidden : List H)
    (now : ℚ)
    (s : CoordState Tok H P) :
    (env.activateAt nodeId session pos hidden now s).1.length =
      hidden.length := by
  simp [activateAt, Worker.activate]

theorem exchange_length
    {nodeId : String}
    {session pos : Nat}
    {hidden out : List H}
    {s s' : CoordState Tok H P}
    (hOk :
      env.exchange nodeId session pos hidden s =
        (.ok out, s')) :
    out.length = hidden.length := by
  unfold exchange at hOk
  simp only at hOk
  split at hOk
  · cases hOk
    apply activateAt_length
  · cases hOk
  · cases hOk

theorem relayStar_length
    {active session pos : Nat}
    {route : List RouteHop}
    {hidden out : List H}
    {s s' : CoordState Tok H P}
    (hOk :
      env.relayStar active session pos route hidden s =
        (.ok out, s')) :
    out.length = hidden.length := by
  induction route generalizing hidden s with
  | nil =>
      cases hOk
      rfl
  | cons node route ih =>
      unfold relayStar at hOk
      split at hOk
      · cases hOk
      · rename_i out₁ s₁ hHop
        rw [ih hOk]
        unfold starHop at hHop
        split at hHop
        · rename_i hExchange
          cases hHop
          exact env.exchange_length hExchange
        · cases hHop

theorem chainForward_length
    {session pos : Nat}
    {nodeId : String}
    {hops : List ChainHop}
    {hidden out : List H}
    {s s' : CoordState Tok H P}
    (hOk :
      env.chainForward session pos nodeId hops hidden s =
        (.result out, s')) :
    out.length = hidden.length := by
  induction hops generalizing nodeId hidden s with
  | nil =>
      cases hOk
      exact
        env.activateAt_length nodeId session pos hidden
          (env.clock s.tick) s
  | cons hop hops ih =>
      unfold chainForward at hOk
      simp only at hOk
      split at hOk
      · cases hOk
      · cases hOk
      · rw [ih hOk]
        apply activateAt_length
      · cases hOk

theorem relayChain_length
    {active session pos : Nat}
    {route : List RouteHop}
    {hidden out : List H}
    {s s' : CoordState Tok H P}
    (hOk :
      env.relayChain active route session pos hidden s =
        (.ok out, s')) :
    out.length = hidden.length := by
  unfold relayChain at hOk
  simp only at hOk
  split at hOk
  · cases hOk
  · split at hOk
    · cases hOk
    · split at hOk
      · cases hOk
      · split at hOk
        · rename_i hReply
          cases hOk
          apply env.chainForward_length
          exact Prod.ext hReply rfl
        · cases hOk
        · cases hOk

theorem relaySocks_length
    {session pos : Nat}
    {addrs : List String}
    {hidden out : List H}
    {s s' : CoordState Tok H P}
    (hOk :
      env.relaySocks session pos addrs hidden s =
        (.ok out, s')) :
    out.length = hidden.length := by
  induction addrs generalizing hidden s with
  | nil =>
      cases hOk
      rfl
  | cons addr addrs ih =>
      unfold relaySocks at hOk
      split at hOk
      · cases hOk
      · rename_i hExchange
        rw [ih hOk]
        exact env.exchange_length hExchange

/- A hidden state for every position. -/
theorem relay_length
    {active session pos : Nat}
    {hidden out : List H}
    {s s' : CoordState Tok H P}
    (hOk :
      env.relay active session pos hidden s = (.ok out, s')) :
    out.length = hidden.length := by
  unfold relay at hOk
  simp only at hOk
  rw [← env.runLocal_length session pos hidden s]
  split at hOk
  · unfold relayDynamic at hOk
    split at hOk
    · cases hOk
    · split at hOk
      · exact env.relayChain_length hOk
      · exact env.relayStar_length hOk
  · unfold relayStatic at hOk
    simp only at hOk
    split at hOk
    · cases hOk
    · split at hOk
      · cases hOk
      · rename_i hSocks
        cases hOk
        exact env.relaySocks_length hSocks

end CoordEnv

end CircuitDllm

------------------------------------------------------------
-- The Context Over the Mesh
------------------------------------------------------------

namespace CircuitDllm

namespace CoordEnv

variable {Tok H P F X : Type} (env : CoordEnv Tok H P)

/- The rows and the length after a forward. -/
theorem socketTarget_forward
    {active session prefilled startPos : Nat}
    {ids picks : List Tok}
    {t t' : SocketState Tok H P}
    (hOk :
      (env.socketTarget active session prefilled).forwardTokens
          ids startPos t =
        (.ok picks, t')) :
    t'.lastHidden.length =
        (targetChunk prefilled ids startPos).2.length ∧
      picks.length = t'.lastHidden.length ∧
      t'.kv = startPos + ids.length := by
  rcases socketTarget_returns hOk with
    ⟨hidden, s', hForward, rfl, rfl⟩
  have hLength := env.relay_length hForward
  rw [List.length_map] at hLength
  exact ⟨hLength, List.length_map .., rfl⟩

/- A session with nothing in it gets every row. -/
theorem socketTarget_answersRows
    (active session : Nat) :
    AnswersRows (env.socketTarget active session 0) := by
  intro ids startPos t picks t' hOk
  rcases env.socketTarget_forward hOk with ⟨hLength, -, hKv⟩
  refine ⟨?_, hKv⟩
  rw [targetChunk, if_neg (by simp)] at hLength
  exact hLength

/- A warm one gets the rows of the suffix. -/
theorem warm_prefill
    {active session prefilled : Nat}
    (hWarm : 0 < prefilled)
    {ids : List Tok}
    {head : EagleHead Tok H F X}
    {first : Tok}
    {t₀ t : SocketState Tok H P × List (Tok × Option H)}
    {d₀ d : EagleState Tok F}
    (hPrefill :
      specPrefill
          (env.socketTarget active session prefilled).traced
          head.eagleDraft ids t₀ d₀ =
        (.ok first, t, d)) :
    t.1.lastHidden.length < t.1.kv := by
  rcases specPrefill_returns hPrefill with
    ⟨picks, hForward, hFirst, -⟩
  rcases Target.traced_forward hForward with
    ⟨inner, hInner, rfl⟩
  rcases env.socketTarget_forward hInner with
    ⟨hLength, hPicks, hKv⟩
  rw [targetChunk, if_pos ⟨rfl, hWarm⟩,
    List.length_drop] at hLength
  -- a first token means that something was relayed
  have hSome : picks ≠ [] := by
    rintro rfl
    cases hFirst
  have hPos := List.length_pos_iff.mpr hSome
  simp only
  omega

variable [DecidableEq Tok]

/- One speculative stream with the EAGLE draft. -/
structure EagleStream (Tok H P F X : Type) where
  env : CoordEnv Tok H P
  head : EagleHead Tok H F X
  active : Nat
  ids : List Tok
  nNew : Nat
  K : Nat
  eos : Tok → Bool
  perturb : Option (Nat → Tok → Tok)
  stats : Option SpecStats
  state : CoordState Tok H P

namespace EagleStream

variable (q : EagleStream Tok H P F X)

/- The tokens _begin_session found in the KV. -/
def prefilled : Nat :=
  (q.env.beginSession q.active q.ids q.state).1.2

def target : Target (SocketState Tok H P) Tok H :=
  q.env.socketTarget q.active
    (q.env.beginSession q.active q.ids q.state).1.1 q.prefilled

def start : SocketState Tok H P where
  coord := (q.env.beginSession q.active q.ids q.state).2
  kv := q.prefilled

/- The states in which propose is called. -/
def Proposes
    (s :
      SpecState (SocketState Tok H P × List (Tok × Option H))
        (EagleState Tok F) Tok) :
    Prop :=
  Rounds q.target.traced q.head.eagleDraft q.ids q.nNew q.K
      q.eos q.perturb q.stats (q.start, []) {} s ∧
    GoesOn q.eos q.nNew s.out

/- Every proposal is asked of a draft that is aligned. -/
def Aligned : Prop :=
  ∀ s, q.Proposes s →
    ContextAligned q.head q.ids s ∧ FusesEqual s

/-
  The stream ends with its first token or before: the prompt
  prefill raises, the token is an EOS, or no more is wanted.
-/
def EndsFirst : Prop :=
  ∀ first t d,
    specPrefill q.target.traced q.head.eagleDraft q.ids
        (q.start, []) {} =
      (.ok first, t, d) →
    ¬ GoesOn q.eos q.nNew [first]

end EagleStream

/- The first round of a warm stream is not aligned. -/
theorem not_aligned_warm
    {q : EagleStream Tok H P F X}
    (hWarm : 0 < q.prefilled)
    {first : Tok}
    {t : SocketState Tok H P × List (Tok × Option H)}
    {d : EagleState Tok F}
    (hPrefill :
      specPrefill q.target.traced q.head.eagleDraft q.ids
          (q.start, []) {} =
        (.ok first, t, d))
    (hGoesOn : GoesOn q.eos q.nNew [first]) :
    ¬ q.Aligned := by
  intro hAligned
  have hStart :=
    hAligned
      (specStart q.target.traced q.head.eagleDraft q.ids
        q.stats first t d)
      ⟨Rounds.start hPrefill, hGoesOn⟩
  rcases hStart.1.feats with ⟨hidden, hLength, -, hFeats⟩
  have hShort := q.env.warm_prefill hWarm hPrefill
  have hSame := congrArg List.length (Option.some.inj hFeats)
  rw [List.length_map, List.length_map] at hSame
  have hPos : hidden.length = t.1.kv := hLength
  have hRows : t.1.lastHidden.length = hidden.length := hSame
  omega

/-
  The context is aligned in every round exactly when nothing
  of the prompt was prefilled, or there is no round.
-/
theorem eagle_aligned_iff (q : EagleStream Tok H P F X) :
    q.Aligned ↔ q.prefilled = 0 ∨ q.EndsFirst := by
  refine ⟨?_, ?_⟩
  · intro hAligned
    rcases Nat.eq_zero_or_pos q.prefilled with hCold | hWarm
    · exact Or.inl hCold
    · refine Or.inr ?_
      intro first t d hPrefill hGoesOn
      exact not_aligned_warm hWarm hPrefill hGoesOn hAligned
  · rintro (hCold | hEnds) s ⟨hRounds, hGoesOn⟩
    · have hRows : AnswersRows q.target := by
        rw [EagleStream.target, hCold]
        apply socketTarget_answersRows
      have hAligned := hRounds.aligned hRows
      exact ⟨hAligned, hAligned.fusesEqual⟩
    · exfalso
      revert hGoesOn
      induction hRounds with
      | start hPrefill => exact hEnds _ _ _ hPrefill
      | next _ hGoesOn _ ih => exact absurd hGoesOn ih

/- One worker, and a head on numbers. -/
def sumEnv : CoordEnv Nat Nat Unit where
  embed := id
  lmHead := id
  stageOf _ entries := (entries.map (·.1)).sum
  dynamic := false
  stageAddrs := ["stage"]
  provider :=
    { acquire := fun _ p => (.ok [], p)
      release := fun _ p => p
      markSuspect := fun _ p => p }
  outcome _ := .ok

def sumHead : EagleHead Nat Nat Nat Nat where
  norm := id
  fuse := (· + ·)
  layer x _ := x.sum
  lmHead := id

/- A prompt of 16 tokens was served, one more is asked. -/
def warmStream : EagleStream Nat Nat Unit Nat Nat where
  env := sumEnv
  head := sumHead
  active := 1
  ids := List.replicate 17 0
  nNew := 2
  K := 1
  eos _ := false
  perturb := none
  stats := none
  state :=
    (sumEnv.generateSpeculativeStream 1 sumHead.eagleDraft {}
      (fun _ => false) (List.replicate 16 0) 1 1 none
      { provider := () }).2

theorem warmStream_not_aligned :
    ¬ ∀ q : EagleStream Nat Nat Unit Nat Nat, q.Aligned := by
  intro hAll
  have hFirst :
      (specPrefill warmStream.target.traced
          warmStream.head.eagleDraft warmStream.ids
          (warmStream.start, []) {}).1 =
        .ok 0 := by
    decide +kernel
  cases hRun : specPrefill warmStream.target.traced
      warmStream.head.eagleDraft warmStream.ids
      (warmStream.start, []) {} with
  | mk r state =>
      rw [hRun] at hFirst
      cases hFirst
      refine not_aligned_warm ?_ hRun ?_ (hAll warmStream)
      · decide +kernel
      · refine ⟨by decide, ?_⟩
        intro tok _
        rfl

end CoordEnv

end CircuitDllm
