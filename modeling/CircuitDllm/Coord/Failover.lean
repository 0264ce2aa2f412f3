import Mathlib.Algebra.Ring.Nat
import CircuitDllm.Coord.Star
import CircuitDllm.Decode.Stream

/-
  Greedy decoding over a mesh that fails
  (engine/coordinator.py, _relay_with_failover).

  A retry resets the session and re-prefills it at position
  0, which works from any state the failed attempt left.  So
  a hop that returns at last returns what it returns on a
  mesh without failures, and leaves the same caches.

  Main declarations:
    * `relayWithFailover_ok`
    * `generateState`, `generateStream`
    * `failover_exact`
-/

------------------------------------------------------------
-- Retries
------------------------------------------------------------

namespace CircuitDllm

namespace CoordEnv

variable {Tok H P : Type} (env : CoordEnv Tok H P)
variable {remote : List (Stage H)}

/- A live mesh whose routes serve the model. -/
structure LiveMesh (remote : List (Stage H)) : Prop where
  dynamic : env.dynamic = true
  serve : env.RoutesServe remote

/- A star over such a mesh. -/
structure StarMesh (remote : List (Stage H)) : Prop where
  dynamic : env.dynamic = true
  star : env.chain = false
  serve : env.RoutesServe remote

variable {env}

theorem StarMesh.live
    (hMesh : env.StarMesh remote) :
    env.LiveMesh remote :=
  ⟨hMesh.dynamic, hMesh.serve⟩

/- A re-prefill relays all tokens from the start. -/
theorem relay_of_reprefill
    {active session : Nat}
    {tokenIds : List Tok}
    {s s' : CoordState Tok H P}
    (hTokens : tokenIds ≠ [])
    (hOk :
      env.reprefill active session tokenIds s =
        (.ok (), s')) :
    ∃ out,
      env.relay active session ([] : List Tok).length
          (tokenIds.map env.embed)
          (env.resetSessions active session s) =
        (.ok out, s') := by
  unfold reprefill at hOk
  simp only [hTokens, if_false] at hOk
  split at hOk
  · cases hOk
  · rename_i out s₁ hRelay
    rcases Prod.mk.inj hOk with ⟨_, rfl⟩
    exact ⟨out, hRelay⟩

/- A re-prefill that returns has rebuilt the session. -/
theorem reprefill_ok
    (hMesh : env.LiveMesh remote)
    {active session : Nat}
    {tokenIds : List Tok}
    {s s' : CoordState Tok H P}
    (hOk :
      env.reprefill active session tokenIds s =
        (.ok (), s')) :
    env.StartsAt remote session s' tokenIds := by
  by_cases hNil : tokenIds = []
  · rw [hNil]
    exact env.startsAt_nil hMesh.serve session s'
  · rcases relay_of_reprefill hNil hOk with ⟨out, hRelay⟩
    have hHolds :=
      env.relay_ok hMesh.dynamic
        (env.startsAt_nil hMesh.serve session _) hRelay
    exact hHolds.2.startsAt hMesh.serve

/- A retry that returns has re-prefilled, and then relayed. -/
theorem retryHop_returns
    {active session pos : Nat}
    {hidden out : List H}
    {kv : List Tok}
    {n : Nat}
    {s s' : CoordState Tok H P}
    (hOk :
      env.retryHop active session pos hidden kv n s =
        (.ok out, s')) :
    ∃ s₀ s₁,
      env.reprefill active session kv s₀ = (.ok (), s₁) ∧
        env.relay active session pos hidden s₁ =
          (.ok out, s') := by
  induction n generalizing s with
  | zero => cases hOk
  | succ n ih =>
      unfold retryHop at hOk
      split at hOk
      · exact ih hOk
      · cases hOk
      · rename_i s₁ hPrefill
        split at hOk
        · exact ih hOk
        · cases hOk
        · rename_i out' s₂ hRelay
          cases hOk
          exact ⟨s, s₁, hPrefill, hRelay⟩

/- The retries work from whatever a failure left behind. -/
theorem retryHop_ok
    (hMesh : env.LiveMesh remote)
    {active session : Nat}
    {kv toks : List Tok}
    {out : List H}
    {n : Nat}
    {s s' : CoordState Tok H P}
    (hOk :
      env.retryHop active session kv.length
          (toks.map env.embed) kv n s = (.ok out, s')) :
    out = env.cleanHidden remote kv toks ∧
      env.HoldsKv remote session s' (kv ++ toks) := by
  rcases retryHop_returns hOk with
    ⟨s₀, s₁, hPrefill, hRelay⟩
  have hStarts := reprefill_ok hMesh hPrefill
  exact
    env.relay_ok hMesh.dynamic hStarts hRelay

/-
  A hop that returns, after any failures and retries, is the
  hop of linear decoding.
-/
theorem relayWithFailover_ok
    (hMesh : env.LiveMesh remote)
    {active session : Nat}
    {kv toks : List Tok}
    {out : List H}
    {maxFailovers : Nat}
    {s s' : CoordState Tok H P}
    (hStarts : env.StartsAt remote session s kv)
    (hOk :
      env.relayWithFailover active session kv.length
          (toks.map env.embed) kv maxFailovers s =
        (.ok out, s')) :
    out = env.cleanHidden remote kv toks ∧
      env.HoldsKv remote session s' (kv ++ toks) := by
  unfold relayWithFailover at hOk
  split at hOk
  · simp only [hMesh.dynamic, if_true] at hOk
    exact retryHop_ok hMesh hOk
  · exact
      env.relay_ok hMesh.dynamic hStarts hOk

end CoordEnv

end CircuitDllm

------------------------------------------------------------
-- Without Failures
------------------------------------------------------------

namespace CircuitDllm

namespace CoordEnv

variable {Tok H P : Type} {env : CoordEnv Tok H P}

/- Every operation is answered and every session routed. -/
structure Clean (env : CoordEnv Tok H P) : Prop where
  outcome : ∀ n, env.outcome n = .ok
  acquire :
    ∀ session p,
      ∃ route p',
        env.provider.acquire session p = (.ok route, p')

theorem relayStar_clean
    (hClean : env.Clean)
    (active session pos : Nat)
    (route : List RouteHop)
    (hidden : List H)
    (s : CoordState Tok H P) :
    ∃ out s',
      env.relayStar active session pos route hidden s =
        (.ok out, s') := by
  induction route generalizing hidden s with
  | nil => exact ⟨hidden, s, rfl⟩
  | cons node route ih =>
      simp only [relayStar, starHop, exchange,
        hClean.outcome]
      exact ih _ _

theorem pinRoute_clean
    (hClean : env.Clean)
    (session pos : Nat)
    (s : CoordState Tok H P) :
    ∃ route s',
      env.pinRoute session pos s = (.ok route, s') := by
  rcases hClean.acquire session s.provider with
    ⟨route, p, hAcq⟩
  have hAcquire :
      ∃ s',
        pinRoute.acquire env session s = (.ok route, s') := by
    unfold pinRoute.acquire
    rw [hAcq]
    exact ⟨_, rfl⟩
  rcases hAcquire with ⟨s', hAcquire⟩
  unfold pinRoute
  split
  · split
    · exact ⟨route, s', hAcquire⟩
    · exact ⟨_, _, rfl⟩
  · exact ⟨route, s', hAcquire⟩

theorem relayWithFailover_clean
    {remote : List (Stage H)}
    (hMesh : env.StarMesh remote)
    (hClean : env.Clean)
    (active session pos : Nat)
    (hidden : List H)
    (prefillIds : List Tok)
    (maxFailovers : Nat)
    (s : CoordState Tok H P) :
    ∃ out s',
      env.relayWithFailover active session pos hidden
          prefillIds maxFailovers s = (.ok out, s') := by
  have hRelay :
      ∃ out s',
        env.relay active session pos hidden s =
          (.ok out, s') := by
    simp only [relay, hMesh.dynamic, if_true, relayDynamic,
      hMesh.star]
    rcases pinRoute_clean hClean session pos
        (env.runLocal session pos hidden s).2 with
      ⟨route, s', hPin⟩
    rw [hPin]
    exact relayStar_clean hClean active session pos route _ s'
  rcases hRelay with ⟨out, s', hRelay⟩
  unfold relayWithFailover
  rw [hRelay]
  exact ⟨out, s', rfl⟩

end CoordEnv

end CircuitDllm

------------------------------------------------------------
-- Decoding
------------------------------------------------------------

namespace CircuitDllm

namespace CoordEnv

variable {Tok H P : Type} (env : CoordEnv Tok H P)

/- One hop of greedy decoding, and the pick at its end. -/
def failoverForward
    (active session maxFailovers : Nat) :
    Forward Tok (CoordState Tok H P) CoordError :=
  fun pos ids seqIds s =>
    match env.relayWithFailover active session pos
        (ids.map env.embed) seqIds maxFailovers s with
    | (.error e, s) => (.error e, s)
    | (.ok hidden, s) =>
      match (hidden.map env.lmHead).getLast? with
      | none => (.error .index, s)
      | some pick => (.ok pick, s)

/- next(self._session_ids): the prefix and a counter. -/
def nextSession
    (s : CoordState Tok H P) :
    Nat × CoordState Tok H P :=
  let n := s.sessionCount % 0xFFFF + 1
  (env.sessionPrefix % 2 ^ 15 * 2 ^ 16 + n,
    { s with sessionCount := n })

/- The session id a call runs under. -/
def sessionFor
    (session : Option Nat)
    (s : CoordState Tok H P) :
    Nat × CoordState Tok H P :=
  match session with
  | some sid => (sid, s)
  | none => env.nextSession s

/- Greedy generate with the state to resume it from. -/
def generateState
    (active : Nat)
    (eos : Tok → Bool)
    (ids : List Tok)
    (nNew : Int)
    (session : Option Nat)
    (keepWarm : Bool)
    (s : CoordState Tok H P) :
    Except CoordError (GreedyOut Tok) × CoordState Tok H P :=
  let (sid, s) := env.sessionFor session s
  let (r, s) :=
    CircuitDllm.generateState
      (env.failoverForward active sid 2) eos ids nNew s
  (r, if keepWarm then s else env.resetSessions active sid s)

/- generate_state without the resume state. -/
def generate
    (active : Nat)
    (eos : Tok → Bool)
    (ids : List Tok)
    (nNew : Int)
    (session : Option Nat)
    (keepWarm : Bool)
    (s : CoordState Tok H P) :
    Except CoordError (List Tok) × CoordState Tok H P :=
  let (r, s) :=
    env.generateState active eos ids nNew session keepWarm s
  (r.map (·.out), s)

/- Greedy decode, yielding text incrementally. -/
def generateStream
    (active : Nat)
    (eos : Tok → Bool)
    (decode : List Tok → List Char)
    (ids : List Tok)
    (nNew : Int)
    (stopOnEos : Bool)
    (s : CoordState Tok H P) :
    StreamOut Tok CoordError × CoordState Tok H P :=
  let (sid, s) := env.nextSession s
  let (r, s) :=
    CircuitDllm.generateStream
      (env.failoverForward active sid 2)
      (fun tok => stopOnEos && eos tok) decode ids nNew s
  (r, env.resetSessions active sid s)

end CoordEnv

end CircuitDllm

------------------------------------------------------------
-- Failover Is Exact
------------------------------------------------------------

namespace CircuitDllm

namespace CoordEnv

variable {Tok H P : Type} {env : CoordEnv Tok H P}
variable {remote : List (Stage H)}

/- The last pick of a clean hop is the model's next token. -/
theorem getLast?_cleanHidden
    [Inhabited Tok]
    (env : CoordEnv Tok H P)
    (remote : List (Stage H))
    (kv : List Tok)
    {toks : List Tok}
    (hToks : toks ≠ []) :
    ((env.cleanHidden remote kv toks).map
        env.lmHead).getLast? =
      some ((env.model remote).next (kv ++ toks)) := by
  have hFeed :=
    (env.model remote).argmaxes_eq_feed_next kv toks
  rw [cleanHidden, List.map_drop,
    show
      (linearHidden (env.model remote).stages
        ((kv ++ toks).map env.embed)).map env.lmHead =
        (env.model remote).linearArgmaxes (kv ++ toks)
      from rfl,
    hFeed, Causal.getLast?_feed _ _ _ hToks]

/- A hop with failover picks the next token, or raises. -/
theorem failoverForward_run
    [Inhabited Tok]
    (hMesh : env.LiveMesh remote)
    {active session maxFailovers : Nat}
    {kv ids : List Tok}
    {s : CoordState Tok H P}
    (hIds : ids ≠ [])
    (hStarts : env.StartsAt remote session s kv) :
    (∃ out s',
      env.relayWithFailover active session kv.length
          (ids.map env.embed) kv maxFailovers s =
        (.ok out, s') ∧
      env.failoverForward active session maxFailovers
          kv.length ids kv s =
        (.ok ((env.model remote).next (kv ++ ids)), s') ∧
      env.StartsAt remote session s' (kv ++ ids)) ∨
    (∃ e s',
      env.relayWithFailover active session kv.length
          (ids.map env.embed) kv maxFailovers s =
        (.error e, s') ∧
      env.failoverForward active session maxFailovers
          kv.length ids kv s = (.error e, s')) := by
  unfold failoverForward
  cases hRelay :
    env.relayWithFailover active session kv.length
      (ids.map env.embed) kv maxFailovers s with
  | mk r s' =>
      cases r with
      | ok out =>
          left
          rcases relayWithFailover_ok hMesh hStarts hRelay
            with ⟨rfl, hHolds⟩
          refine ⟨_, s', rfl, ?_, hHolds.startsAt hMesh.serve⟩
          simp only [getLast?_cleanHidden env remote kv hIds]
      | error e => exact Or.inr ⟨e, s', rfl, rfl⟩

/- A hop with failover is a relay of the model. -/
theorem failoverForward_spec
    [Inhabited Tok]
    (hMesh : env.LiveMesh remote)
    (active session maxFailovers : Nat)
    (MayRaise : Prop)
    (hRaise :
      ¬ MayRaise → env.StarMesh remote ∧ env.Clean) :
    ForwardSpec
      (env.failoverForward active session maxFailovers)
      (env.model remote).next
      (env.StartsAt remote session) MayRaise := by
  intro s kv ids hIds hStarts
  rcases failoverForward_run hMesh hIds hStarts with
    ⟨out, s', _, hOk, hNext⟩ | ⟨e, s', hRelay, hError⟩
  · exact Or.inl ⟨s', hOk, hNext⟩
  · by_cases hMay : MayRaise
    · exact Or.inr ⟨hMay, e, s', hError⟩
    · rcases hRaise hMay with ⟨hStar, hClean⟩
      rcases relayWithFailover_clean hStar hClean active
        session kv.length (ids.map env.embed) kv maxFailovers
        s with
        ⟨out, s₁, hOk⟩
      rw [hRelay] at hOk
      cases hOk

/- A prompt without tokens has no row to pick from. -/
theorem failoverForward_nil
    (hMesh : env.LiveMesh remote)
    (active session maxFailovers : Nat)
    (s : CoordState Tok H P) :
    ∃ e s',
      env.failoverForward active session maxFailovers 0 [] []
        s = (.error e, s') := by
  cases hRelay :
    env.relayWithFailover active session 0 [] [] maxFailovers
      s with
  | mk r s' =>
      unfold failoverForward
      rw [List.map_nil, hRelay]
      cases r with
      | error e => exact ⟨e, s', rfl⟩
      | ok out =>
          have hStart :
              env.relayWithFailover active session
                  ([] : List Tok).length
                  (([] : List Tok).map env.embed) []
                  maxFailovers s = (.ok out, s') := hRelay
          have hOut :=
            (relayWithFailover_ok hMesh
              (env.startsAt_nil hMesh.serve session s)
              hStart).1
          have hNil : out = [] := by
            rw [hOut, cleanHidden]
            apply List.eq_nil_of_length_eq_zero
            simp
          refine ⟨.index, s', ?_⟩
          simp only [hNil, List.map_nil, List.getLast?_nil]

/- A call that returns has decoded the greedy tokens. -/
theorem generate_ok
    [Inhabited Tok]
    (hMesh : env.LiveMesh remote)
    {active : Nat}
    {eos : Tok → Bool}
    {ids tokens : List Tok}
    {nNew : Int}
    {session : Option Nat}
    {keepWarm : Bool}
    {s : CoordState Tok H P}
    (hOk :
      (env.generate active eos ids nNew session keepWarm
        s).1 = .ok tokens) :
    ids ≠ [] ∧
      tokens =
        greedyCut (env.model remote).next eos ids
          nNew.toNat := by
  unfold generate generateState at hOk
  generalize env.sessionFor session s = start at hOk
  rcases start with ⟨sid, s₁⟩
  simp only at hOk
  by_cases hIds : ids = []
  · rcases failoverForward_nil hMesh active sid 2 s₁ with
      ⟨e, s₂, hError⟩
    simp [hIds, CircuitDllm.generateState, hError,
      Except.map] at hOk
  · refine ⟨hIds, ?_⟩
    rcases CircuitDllm.generateState_greedy
      (failoverForward_spec hMesh active sid 2 True
        (fun h => absurd trivial h)) eos ids nNew s₁ hIds
      (env.startsAt_nil hMesh.serve sid s₁) with
      ⟨s', hState, _⟩ | ⟨_, e, s', hState⟩
    · rw [hState] at hOk
      simpa [Except.map] using hOk.symm
    · rw [hState] at hOk
      cases hOk

/- Without failures a call returns the greedy tokens. -/
theorem generate_clean
    [Inhabited Tok]
    (hMesh : env.StarMesh remote)
    (hClean : env.Clean)
    (active : Nat)
    (eos : Tok → Bool)
    {ids : List Tok}
    (nNew : Int)
    (session : Option Nat)
    (keepWarm : Bool)
    (s : CoordState Tok H P)
    (hIds : ids ≠ []) :
    (env.generate active eos ids nNew session keepWarm s).1 =
      .ok
        (greedyCut (env.model remote).next eos ids
          nNew.toNat) := by
  unfold generate generateState
  rcases env.sessionFor session s with ⟨sid, s₁⟩
  rcases CircuitDllm.generateState_greedy
    (failoverForward_spec hMesh.live active sid 2 False
      (fun _ => ⟨hMesh, hClean⟩)) eos ids nNew s₁ hIds
    (env.startsAt_nil hMesh.serve sid s₁) with
    ⟨s', hState, _⟩ | ⟨hFalse, _⟩
  · simp only [hState]
    rfl
  · exact hFalse.elim

/- A stream that returns has yielded the greedy texts. -/
theorem generateStream_ok
    [Inhabited Tok]
    (hMesh : env.LiveMesh remote)
    {active : Nat}
    {eos : Tok → Bool}
    {decode : List Tok → List Char}
    {ids tokens : List Tok}
    {nNew : Int}
    {stopOnEos : Bool}
    {s : CoordState Tok H P}
    (hOk :
      (env.generateStream active eos decode ids nNew
        stopOnEos s).1.ended = .ok tokens) :
    let out :=
      greedyCut (env.model remote).next
        (fun tok => stopOnEos && eos tok) ids nNew.toNat
    ids ≠ [] ∧
      (env.generateStream active eos decode ids nNew
        stopOnEos s).1 =
        ⟨streamTexts decode out [] [], .ok out⟩ := by
  unfold generateStream at hOk ⊢
  generalize env.nextSession s = start at hOk ⊢
  rcases start with ⟨sid, s₁⟩
  simp only at hOk ⊢
  by_cases hIds : ids = []
  · rcases failoverForward_nil hMesh active sid 2 s₁ with
      ⟨e, s₂, hError⟩
    simp [hIds, CircuitDllm.generateStream, hError] at hOk
  · refine ⟨hIds, ?_⟩
    rcases CircuitDllm.generateStream_greedy
      (failoverForward_spec hMesh active sid 2 True
        (fun h => absurd trivial h))
      (fun tok => stopOnEos && eos tok) decode ids nNew s₁
      hIds (env.startsAt_nil hMesh.serve sid s₁) with
      ⟨s', hState, _⟩ | ⟨_, yielded, e, s', hState, _⟩
    · rw [hState]
    · rw [hState] at hOk
      cases hOk

theorem generateStream_clean
    [Inhabited Tok]
    (hMesh : env.StarMesh remote)
    (hClean : env.Clean)
    (active : Nat)
    (eos : Tok → Bool)
    (decode : List Tok → List Char)
    {ids : List Tok}
    (nNew : Int)
    (stopOnEos : Bool)
    (s : CoordState Tok H P)
    (hIds : ids ≠ []) :
    let out :=
      greedyCut (env.model remote).next
        (fun tok => stopOnEos && eos tok) ids nNew.toNat
    (env.generateStream active eos decode ids nNew stopOnEos
        s).1 =
      ⟨streamTexts decode out [] [], .ok out⟩ := by
  unfold generateStream
  rcases env.nextSession s with ⟨sid, s₁⟩
  rcases CircuitDllm.generateStream_greedy
    (failoverForward_spec hMesh.live active sid 2 False
      (fun _ => ⟨hMesh, hClean⟩))
    (fun tok => stopOnEos && eos tok) decode ids nNew s₁
    hIds (env.startsAt_nil hMesh.serve sid s₁) with
    ⟨s', hState, _⟩ | ⟨hFalse, _⟩
  · simp only [hState]
  · exact hFalse.elim

/- A session that starts over, or holds `kv`. -/
def ReadyKv
    (env : CoordEnv Tok H P)
    (remote : List (Stage H))
    (session : Nat)
    (s : CoordState Tok H P)
    (kv : List Tok) : Prop :=
  kv = [] ∨ env.HoldsKv remote session s kv

theorem ReadyKv.startsAt
    {session : Nat}
    {s : CoordState Tok H P}
    {kv : List Tok}
    (hServe : env.RoutesServe remote)
    (hReady : env.ReadyKv remote session s kv) :
    env.StartsAt remote session s kv := by
  rcases hReady with rfl | hHolds
  · exact env.startsAt_nil hServe session s
  · exact hHolds.startsAt hServe

/- The same coordinator where nothing fails. -/
def faultFree
    (env : CoordEnv Tok H P)
    (provider : RouteProvider P) :
    CoordEnv Tok H P :=
  { env with
    outcome := fun _ => .ok
    provider := provider }

/-
  Whatever fails and whenever: a hop that returns, returns
  what it returns on the fault-free mesh and leaves every
  cache at the tokens 0..pos+T-1, and decoding raises or
  produces the tokens of the fault-free run.
-/
theorem failover_exact
    [Inhabited Tok]
    (env : CoordEnv Tok H P)
    (remote : List (Stage H))
    (provider : RouteProvider P)
    (hMesh : env.StarMesh remote)
    (hMesh₀ : (env.faultFree provider).StarMesh remote)
    (hClean : (env.faultFree provider).Clean) :
    (∀ active session maxFailovers kv toks s out s',
      env.ReadyKv remote session s kv →
      env.relayWithFailover active session kv.length
          (toks.map env.embed) kv maxFailovers s =
        (.ok out, s') →
      env.HoldsKv remote session s' (kv ++ toks) ∧
      ∀ active₀ session₀ s₀,
        (env.faultFree provider).ReadyKv remote session₀ s₀
            kv →
        ((env.faultFree provider).relayWithFailover active₀
            session₀ kv.length (toks.map env.embed) kv
            maxFailovers s₀).1 = .ok out) ∧
    (∀ active eos ids nNew session keepWarm s tokens,
      (env.generate active eos ids nNew session keepWarm
          s).1 = .ok tokens →
      ∀ s₀,
        ((env.faultFree provider).generate active eos ids
          nNew session keepWarm s₀).1 = .ok tokens) ∧
    (∀ active eos decode ids nNew stopOnEos s tokens,
      (env.generateStream active eos decode ids nNew
          stopOnEos s).1.ended = .ok tokens →
      ∀ s₀,
        ((env.faultFree provider).generateStream active eos
            decode ids nNew stopOnEos s₀).1 =
          (env.generateStream active eos decode ids nNew
            stopOnEos s).1) := by
  refine ⟨?_, ?_, ?_⟩
  · intro active session maxFailovers kv toks s out s' hReady
      hOk
    rcases relayWithFailover_ok hMesh.live
        (hReady.startsAt hMesh.serve) hOk with
      ⟨rfl, hHolds⟩
    refine ⟨hHolds, fun active₀ session₀ s₀ hReady₀ => ?_⟩
    rcases relayWithFailover_clean hMesh₀ hClean active₀
      session₀ kv.length (toks.map env.embed) kv maxFailovers
      s₀ with
      ⟨out₀, s₀', hOk₀⟩
    rw [hOk₀,
      (relayWithFailover_ok hMesh₀.live
        (hReady₀.startsAt hMesh₀.serve) hOk₀).1]
    rfl
  · intro active eos ids nNew session keepWarm s tokens hOk
      s₀
    rcases generate_ok hMesh.live hOk with ⟨hIds, rfl⟩
    exact
      generate_clean hMesh₀ hClean active eos nNew session
        keepWarm s₀ hIds
  · intro active eos decode ids nNew stopOnEos s tokens hOk
      s₀
    rcases generateStream_ok hMesh.live hOk with ⟨hIds, hEq⟩
    rw [hEq]
    exact
      generateStream_clean hMesh₀ hClean active eos decode
        nNew stopOnEos s₀ hIds

/- The route to one replica, the second one on suspicion. -/
def replicas : RouteProvider Bool where
  acquire _ suspected :=
    (.ok [⟨if suspected then "b" else "a", ⟨"", 0⟩, true, none⟩],
      suspected)
  release _ suspected := suspected
  markSuspect _ _ := true

/- A one-stage model whose third operation is lost. -/
def flakyMesh : CoordEnv Nat Nat Bool where
  embed tok := tok
  lmHead hidden := hidden % 7
  stageOf _ := fun kv => (kv.map (·.1)).sum + kv.length
  dynamic := true
  provider := replicas
  outcome n := if n = 2 then .failAfter else .ok

theorem failover_exact_flaky :
    (flakyMesh.generate 0 (fun tok => tok == 6) [1, 2] 3 none
        false { provider := false }).1 = .ok [5, 4, 2] ∧
      ((flakyMesh.faultFree replicas).generate 0
        (fun tok => tok == 6) [1, 2] 3 none false
        { provider := false }).1 = .ok [5, 4, 2] := by
  have hServe :
      flakyMesh.RoutesServe
        [fun kv => (kv.map (·.1)).sum + kv.length] := by
    intro session p route p' hOk
    cases hOk
    exact ⟨List.nodup_singleton _, rfl, by simp⟩
  have hServe₀ :
      (flakyMesh.faultFree replicas).RoutesServe
        [fun kv => (kv.map (·.1)).sum + kv.length] := by
    intro session p route p' hOk
    cases hOk
    exact ⟨List.nodup_singleton _, rfl, by simp⟩
  have hRun :
      (flakyMesh.generate 0 (fun tok => tok == 6) [1, 2] 3
        none false { provider := false }).1 =
        .ok [5, 4, 2] := by
    decide
  exact
    ⟨hRun,
      (failover_exact flakyMesh _ replicas ⟨rfl, rfl, hServe⟩
        ⟨rfl, rfl, hServe₀⟩
        ⟨fun _ => rfl, fun _ _ => ⟨_, _, rfl⟩⟩).2.1 0
          (fun tok => tok == 6) [1, 2] 3 none false
          { provider := false } [5, 4, 2] hRun
          { provider := false }⟩

end CoordEnv

end CircuitDllm
