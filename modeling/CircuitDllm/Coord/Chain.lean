import Mathlib.Algebra.Ring.Nat
import CircuitDllm.Coord.Control

/-
  The chain relay and the star relay of a pinned route where
  nothing fails.

  Both run the stages of the route in order, each on its own
  cache.  The star opens a socket to every node it visits,
  the chain to the head alone; and a chain can be formed
  only where the nodes after the head can be dialled.

  Main declarations:
    * `ChainReady`, `PinnedMesh`
    * `relay_star_pinnedMesh`
    * `relay_chain_pinnedMesh`, `relay_chain_broken`
-/

------------------------------------------------------------
-- Relays Without Failures
------------------------------------------------------------

namespace CircuitDllm

/- The downstream nodes a chain can be forwarded along. -/
def ChainReady (downstream : List RouteHop) : Prop :=
  (∃ hops,
    downstreamHops downstream = .ok hops ∧
      EncodableRoute hops) ∧
    ∀ n ∈ downstream, n.isPublic = true

namespace CoordEnv

variable {Tok H P : Type}

/- A mesh without failures that grants one route. -/
structure PinnedMesh
    (env : CoordEnv Tok H P)
    (route : List RouteHop) : Prop where
  outcome : ∀ n, env.outcome n = .ok
  dynamic : env.dynamic = true
  grants :
    ∀ session p,
      ∃ p', env.provider.acquire session p = (.ok route, p')
  nodup : (route.map (·.nodeId)).Nodup
  -- a public node answers at its endpoint, a relay does not
  endpoints :
    ∀ n ∈ route,
      env.listener n.endpoint =
        if n.isPublic then some n.nodeId else none

variable {env : CoordEnv Tok H P}

/- A chain whose hops all answer has an answer. -/
theorem chainForward_clean
    (hOutcome : ∀ n, env.outcome n = .ok)
    (session pos : Nat)
    (head : String)
    {tail : List RouteHop}
    {hops : List ChainHop}
    (hidden : List H)
    (s : CoordState Tok H P)
    (hHops : downstreamHops tail = .ok hops)
    (hListen :
      ∀ n ∈ tail, env.listener n.endpoint = some n.nodeId) :
    ∃ out s',
      env.chainForward session pos head hops hidden s =
        (.result out, s') := by
  induction tail generalizing head hops hidden s with
  | nil =>
      cases hHops
      exact ⟨_, _, rfl⟩
  | cons n tail ih =>
      rcases downstreamHops_cons hHops with
        ⟨key, rest, hRest, rfl⟩
      simp only [chainForward, hOutcome, hListen n (by simp)]
      exact
        ih _ _ _ hRest (fun m hM => hListen m (by simp [hM]))

/- A chain with a node that does not listen breaks there. -/
theorem chainForward_broken
    (hOutcome : ∀ n, env.outcome n = .ok)
    (session pos : Nat)
    (head : String)
    {tail : List RouteHop}
    {hops : List ChainHop}
    (hidden : List H)
    (s : CoordState Tok H P)
    (hHops : downstreamHops tail = .ok hops)
    (hListen :
      ∀ n ∈ tail,
        env.listener n.endpoint =
          if n.isPublic then some n.nodeId else none)
    (hBroken : ¬ ∀ n ∈ tail, n.isPublic = true) :
    ∃ endpoint s',
      env.chainForward session pos head hops hidden s =
        (.error endpoint, s') := by
  induction tail generalizing head hops hidden s with
  | nil => exact absurd (by simp) hBroken
  | cons n tail ih =>
      rcases downstreamHops_cons hHops with
        ⟨key, rest, hRest, rfl⟩
      have hFirst := hListen n (by simp)
      simp only [chainForward, hOutcome, hFirst]
      cases hPublic : n.isPublic with
      | false => exact ⟨_, _, rfl⟩
      | true =>
          refine ih _ _ _ hRest
            (fun m hM => hListen m (by simp [hM])) ?_
          intro hTail
          refine hBroken (fun m hM => ?_)
          rcases List.mem_cons.mp hM with rfl | hM
          · exact hPublic
          · exact hTail m hM

end CoordEnv

end CircuitDllm

------------------------------------------------------------
-- Relays of a Session
------------------------------------------------------------

namespace CircuitDllm

namespace CoordEnv

variable {Tok H P : Type} {env : CoordEnv Tok H P}

/- The session has no pin but the route. -/
def PinnedTo
    (session : Nat)
    (route : List RouteHop)
    (s : CoordState Tok H P) : Prop :=
  ∀ other,
    s.sessionRoutes.get? session = some other → other = route

/- A relay ran the stages on the caches of the session. -/
structure Relayed
    (env : CoordEnv Tok H P)
    (session pos : Nat)
    (route : List RouteHop)
    (hidden : List H)
    (s : CoordState Tok H P)
    (out : List H)
    (s' : CoordState Tok H P) : Prop where
  runs :
    (out, env.sessionKvs s' session route) =
      runStages
        (env.localStage.toList ++
          route.map (fun n => env.stageOf n.nodeId))
        (env.startKvs s session pos route) hidden pos
  pinned : PinnedTo session route s'

@[simp] theorem runLocal_conn
    (env : CoordEnv Tok H P)
    (session pos : Nat)
    (hidden : List H)
    (s : CoordState Tok H P) :
    (env.runLocal session pos hidden s).2.conn = s.conn := by
  unfold runLocal
  split <;> rfl

/- On such a mesh the pin is always the route. -/
theorem pinRoute_pinnedMesh
    {route : List RouteHop}
    (hMesh : env.PinnedMesh route)
    {session : Nat}
    (pos : Nat)
    {s : CoordState Tok H P}
    (hPinned : PinnedTo session route s) :
    ∃ s',
      env.pinRoute session pos s = (.ok route, s') ∧
        s'.conn = s.conn := by
  have hAcquire :
      ∃ s',
        pinRoute.acquire env session s = (.ok route, s') ∧
          s'.conn = s.conn := by
    rcases hMesh.grants session s.provider with ⟨p, hGrant⟩
    unfold pinRoute.acquire
    rw [hGrant]
    exact ⟨_, rfl, rfl⟩
  cases hPin : s.sessionRoutes.get? session with
  | none =>
      rw [env.pinRoute_acquire (Or.inr hPin)]
      exact hAcquire
  | some other =>
      rw [hPinned other hPin] at hPin
      by_cases hPos : pos = 0
      · rw [env.pinRoute_acquire (Or.inl hPos)]
        exact hAcquire
      · exact ⟨s, env.pinRoute_pinned hPos hPin, rfl⟩

/- A star relay opens a socket to every node it visits. -/
theorem relayStar_pinnedMesh
    (hOutcome : ∀ n, env.outcome n = .ok)
    (active session pos : Nat)
    (route : List RouteHop)
    (hidden : List H)
    (s : CoordState Tok H P) :
    ∃ out s',
      env.relayStar active session pos route hidden s =
        (.ok out, s') ∧
      (∀ w ∈ (s.conn active).conns,
        w ∈ (s'.conn active).conns) ∧
      ∀ n ∈ route, n.nodeId ∈ (s'.conn active).conns := by
  induction route generalizing hidden s with
  | nil => exact ⟨hidden, s, rfl, fun _ hW => hW, by simp⟩
  | cons node route ih =>
      simp only [relayStar, starHop, exchange, hOutcome]
      rcases ih _ _ with ⟨out, s', hOk, hKept, hOpen⟩
      refine ⟨out, s', hOk, fun w hW => hKept w ?_,
        fun n hN => ?_⟩
      · exact s.mem_openConn.mpr (Or.inr hW)
      · rcases List.mem_cons.mp hN with rfl | hN
        · exact hKept _ (s.mem_openConn.mpr (Or.inl rfl))
        · exact hOpen n hN

/- A relay goes along the pinned route. -/
theorem relay_pinnedMesh
    {route : List RouteHop}
    (hMesh : env.PinnedMesh route)
    (active : Nat)
    {session : Nat}
    (pos : Nat)
    (hidden : List H)
    {s : CoordState Tok H P}
    (hPinned : PinnedTo session route s) :
    ∃ s₂,
      env.relay active session pos hidden s =
        (if env.chain then
          env.relayChain active route session pos
            (env.runLocal session pos hidden s).1 s₂
        else
          env.relayStar active session pos route
            (env.runLocal session pos hidden s).1 s₂) ∧
      s₂.workers = s.workers ∧
      s₂.localCaches =
        (env.runLocal session pos hidden s).2.localCaches ∧
      s₂.sessionRoutes.get? session = some route ∧
      s₂.conn = s.conn := by
  have hPinned' :
      PinnedTo session route
        (env.runLocal session pos hidden s).2 := by
    simpa [PinnedTo] using hPinned
  rcases pinRoute_pinnedMesh hMesh pos hPinned' with
    ⟨s₂, hPin, hConn⟩
  rcases env.pinRoute_ok hPin with ⟨hWorkers, hLocal, hPin₂⟩
  refine ⟨s₂, ?_, ?_, hLocal, hPin₂, ?_⟩
  · simp only [relay, hMesh.dynamic, if_true, relayDynamic,
      hPin]
  · rw [hWorkers, runLocal_workers]
  · rw [hConn, runLocal_conn]

/- With the star on, a relay runs the route. -/
theorem relay_star_pinnedMesh
    {route : List RouteHop}
    (hMesh : env.PinnedMesh route)
    (hStar : env.chain = false)
    (active : Nat)
    {session : Nat}
    (pos : Nat)
    (hidden : List H)
    {s : CoordState Tok H P}
    (hPinned : PinnedTo session route s) :
    ∃ out s',
      env.relay active session pos hidden s = (.ok out, s') ∧
      env.Relayed session pos route hidden s out s' ∧
      ∀ n ∈ route, n.nodeId ∈ (s'.conn active).conns := by
  rcases relay_pinnedMesh hMesh active pos hidden hPinned with
    ⟨s₂, hRelay, hWorkers, hLocal, hPin, _⟩
  rcases relayStar_pinnedMesh hMesh.outcome active session pos
      route (env.runLocal session pos hidden s).1 s₂ with
    ⟨out, s', hOk, _, hOpen⟩
  rcases env.relayStar_ok hMesh.nodup hOk with
    ⟨hRun, _, hLocal', hPins', _⟩
  refine ⟨out, s', ?_, ⟨?_, ?_⟩, hOpen⟩
  · rw [hRelay, hStar]
    exact hOk
  · exact
      env.sessionKvs_run hWorkers (hLocal'.trans hLocal) hRun
  · intro other hOther
    rw [hPins', hPin] at hOther
    exact (Option.some.inj hOther).symm

/- With the chain on, it does where the chain is ready. -/
theorem relay_chain_pinnedMesh
    {head : RouteHop}
    {tail : List RouteHop}
    (hMesh : env.PinnedMesh (head :: tail))
    (hChain : env.chain = true)
    (hReady : ChainReady tail)
    (active : Nat)
    {session : Nat}
    (pos : Nat)
    (hidden : List H)
    {s : CoordState Tok H P}
    (hPinned : PinnedTo session (head :: tail) s) :
    ∃ out s',
      env.relay active session pos hidden s = (.ok out, s') ∧
      env.Relayed session pos (head :: tail) hidden s out
        s' ∧
      ∀ w,
        w ∈ (s'.conn active).conns ↔
          w = head.nodeId ∨ w ∈ (s.conn active).conns := by
  rcases hReady with ⟨⟨hops, hHops, hEncodable⟩, hPublic⟩
  rcases relay_pinnedMesh hMesh active pos hidden hPinned with
    ⟨s₂, hRelay, hWorkers, hLocal, hPin, hConn⟩
  have hListen :
      ∀ n ∈ tail,
        env.listener n.endpoint = some n.nodeId := by
    intro n hN
    rw [hMesh.endpoints n (by simp [hN]), hPublic n hN,
      if_pos rfl]
  have hDials : ∀ n ∈ tail, env.Dials n := by
    intro n hN next hNext
    rw [hListen n hN] at hNext
    exact (Option.some.inj hNext).symm
  rcases chainForward_clean hMesh.outcome session pos
      head.nodeId (env.runLocal session pos hidden s).1
      { s₂.openConn active head.nodeId with
        tick := s₂.tick + 1 }
      hHops hListen with
    ⟨out, s', hForward⟩
  rcases env.chainForward_ok hHops hDials hMesh.nodup
      hForward with
    ⟨⟨hRun, _⟩, hLocal', hPins', hConn', _⟩
  refine ⟨out, s', ?_, ⟨?_, ?_⟩, fun w => ?_⟩
  · rw [hRelay, hChain]
    simp only [if_true, relayChain, chainHeadAndRoute, hHops,
      hMesh.outcome, hEncodable, not_true, if_false]
    rw [show
      ({ s₂.openConn active head.nodeId with
          tick :=
            (s₂.openConn active head.nodeId).tick + 1 } :
        CoordState Tok H P) =
        { s₂.openConn active head.nodeId with
          tick := s₂.tick + 1 } from rfl, hForward]
  · exact
      env.sessionKvs_run hWorkers (hLocal'.trans hLocal) hRun
  · intro other hOther
    rw [hPins'] at hOther
    rw [show
      (s₂.openConn active head.nodeId).sessionRoutes =
        s₂.sessionRoutes from rfl, hPin] at hOther
    exact (Option.some.inj hOther).symm
  · rw [hConn', ← hConn]
    exact s₂.mem_openConn

/- And raises where it is not. -/
theorem relay_chain_broken
    {head : RouteHop}
    {tail : List RouteHop}
    (hMesh : env.PinnedMesh (head :: tail))
    (hChain : env.chain = true)
    (hBroken : ¬ ChainReady tail)
    (active : Nat)
    {session : Nat}
    (pos : Nat)
    (hidden : List H)
    {s : CoordState Tok H P}
    (hPinned : PinnedTo session (head :: tail) s) :
    ∃ e s',
      env.relay active session pos hidden s =
        (.error e, s') := by
  rcases relay_pinnedMesh hMesh active pos hidden hPinned with
    ⟨s₂, hRelay, _⟩
  rw [hRelay, hChain]
  simp only [if_true, relayChain, chainHeadAndRoute]
  cases hHops : downstreamHops tail with
  | error e => exact ⟨_, _, rfl⟩
  | ok hops =>
      simp only [hMesh.outcome]
      by_cases hEncodable : EncodableRoute hops
      · simp only [hEncodable, not_true, if_false]
        have hPublic : ¬ ∀ n ∈ tail, n.isPublic = true :=
          fun hAll => hBroken ⟨⟨hops, hHops, hEncodable⟩, hAll⟩
        have hListen :
            ∀ n ∈ tail,
              env.listener n.endpoint =
                if n.isPublic then some n.nodeId else none :=
          fun n hN => hMesh.endpoints n (by simp [hN])
        have hError :=
          fun s₃ =>
            chainForward_broken hMesh.outcome session pos
              head.nodeId
              (env.runLocal session pos hidden s).1 s₃ hHops
              hListen hPublic
        rcases hError
            { s₂.openConn active head.nodeId with
              tick :=
                (s₂.openConn active head.nodeId).tick + 1 }
          with ⟨endpoint, s', hError⟩
        rw [hError]
        exact ⟨_, _, rfl⟩
      · simp only [hEncodable, not_false_eq_true, if_true]
        exact ⟨_, _, rfl⟩

end CoordEnv

end CircuitDllm
