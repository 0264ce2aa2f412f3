import CircuitDllm.Coord.Relay

/-
  What a relay does to the caches along a route.

  `HoldsKv` is the state of a session between two relays:
  the local cache and the cache of every node on the pinned
  route are those of linear decoding.  `StartsAt` is what
  the next relay needs: it holds of a session that holds its
  tokens, and of every state at position 0.

  The star and the chain run the same stages on the same
  caches wherever they return.

  Main declarations:
    * `HoldsKv`, `StartsAt`
    * `relayStar_ok`, `relayChain_ok`
    * `relay_ok`
-/

------------------------------------------------------------
-- Workers
------------------------------------------------------------

namespace CircuitDllm

namespace Worker

variable {H : Type}

@[simp] theorem activate_out
    (stage : Stage H)
    (session pos : Nat)
    (hidden : List H)
    (now : ℚ)
    (w : Worker H) :
    (activate stage session pos hidden now w).1 =
      (stage.forward hidden pos
        (w.getCache session pos)).1 := rfl

@[simp] theorem kv_activate
    (stage : Stage H)
    (session pos : Nat)
    (hidden : List H)
    (now : ℚ)
    (w : Worker H) :
    (activate stage session pos hidden now w).2.kv session =
      (stage.forward hidden pos
        (w.getCache session pos)).2 := by
  simp [activate, kv]

/- An activation leaves the other sessions alone. -/
theorem kv_activate_ne
    (stage : Stage H)
    {session other : Nat}
    (pos : Nat)
    (hidden : List H)
    (now : ℚ)
    (w : Worker H)
    (hNe : session ≠ other) :
    (activate stage session pos hidden now w).2.kv other =
      w.kv other := by
  simp [activate, kv, Dict.get?_set, hNe]

/- At position 0 nothing of the session is used. -/
@[simp] theorem getCache_zero
    (w : Worker H)
    (session : Nat) :
    w.getCache session 0 = [] := rfl

theorem getCache_eq_kv
    (w : Worker H)
    (session : Nat)
    {pos : Nat}
    (hPos : pos ≠ 0) :
    w.getCache session pos = w.kv session := by
  simp [getCache, hPos]

end Worker

end CircuitDllm

------------------------------------------------------------
-- Hops
------------------------------------------------------------

namespace CircuitDllm

namespace CoordEnv

variable {Tok H P : Type} (env : CoordEnv Tok H P)

@[simp] theorem openConn_workers
    (s : CoordState Tok H P)
    (active : Nat)
    (nodeId : String) :
    (s.openConn active nodeId).workers = s.workers := rfl

@[simp] theorem openConn_sessionRoutes
    (s : CoordState Tok H P)
    (active : Nat)
    (nodeId : String) :
    (s.openConn active nodeId).sessionRoutes =
      s.sessionRoutes := rfl

/- An answered exchange is the worker's activation. -/
theorem exchange_ok
    {nodeId : String}
    {session pos : Nat}
    {hidden out : List H}
    {s s' : CoordState Tok H P}
    (hOk :
      env.exchange nodeId session pos hidden s =
        (.ok out, s')) :
    (out, s') =
      env.activateAt nodeId session pos hidden
        (env.clock s.tick) { s with tick := s.tick + 1 } := by
  unfold exchange at hOk
  cases hSent : env.outcome s.tick with
  | ok =>
      simp only [hSent] at hOk
      cases hOk
      rfl
  | failBefore =>
      simp only [hSent] at hOk
      cases hOk
  | failAfter =>
      simp only [hSent] at hOk
      cases hOk

/- What an answered exchange returns and what it changes. -/
theorem exchange_effect
    {nodeId : String}
    {session pos : Nat}
    {hidden out : List H}
    {s s' : CoordState Tok H P}
    (hOk :
      env.exchange nodeId session pos hidden s =
        (.ok out, s')) :
    out =
        ((env.stageOf nodeId).forward hidden pos
          ((s.workers nodeId).getCache session pos)).1 ∧
      s'.workerKv nodeId session =
        ((env.stageOf nodeId).forward hidden pos
          ((s.workers nodeId).getCache session pos)).2 ∧
      (∀ w, w ≠ nodeId → s'.workers w = s.workers w) ∧
      s'.localCaches = s.localCaches ∧
      s'.sessionRoutes = s.sessionRoutes ∧
      s'.provider = s.provider := by
  have hAct := env.exchange_ok hOk
  rcases Prod.mk.inj hAct with ⟨rfl, rfl⟩
  refine ⟨rfl, ?_, ?_, rfl, rfl, rfl⟩
  · simp [CoordState.workerKv, CoordState.modifyWorker]
  · intro w hNe
    simp [CoordState.modifyWorker, hNe]

/- The same of a star hop. -/
theorem starHop_ok
    {active session pos : Nat}
    {node : RouteHop}
    {hidden out : List H}
    {s s' : CoordState Tok H P}
    (hOk :
      env.starHop active node session pos hidden s =
        (.ok out, s')) :
    out =
        ((env.stageOf node.nodeId).forward hidden pos
          ((s.workers node.nodeId).getCache session pos)).1 ∧
      s'.workerKv node.nodeId session =
        ((env.stageOf node.nodeId).forward hidden pos
          ((s.workers node.nodeId).getCache session pos)).2 ∧
      (∀ w, w ≠ node.nodeId → s'.workers w = s.workers w) ∧
      s'.localCaches = s.localCaches ∧
      s'.sessionRoutes = s.sessionRoutes ∧
      s'.provider = s.provider := by
  unfold starHop at hOk
  split at hOk
  · rename_i hidden' s₁ hExchange
    cases hOk
    have hEffect := env.exchange_effect hExchange
    exact hEffect
  · cases hOk

/- A hop, and then the rest of the route. -/
theorem runStages_of_hop
    {session pos : Nat}
    {node : RouteHop}
    {route : List RouteHop}
    {hidden hidden₁ out : List H}
    {s s₁ s' : CoordState Tok H P}
    (hFresh : node.nodeId ∉ route.map (·.nodeId))
    (hOut :
      hidden₁ =
        ((env.stageOf node.nodeId).forward hidden pos
          ((s.workers node.nodeId).getCache session pos)).1)
    (hKv :
      s₁.workerKv node.nodeId session =
        ((env.stageOf node.nodeId).forward hidden pos
          ((s.workers node.nodeId).getCache session pos)).2)
    (hOther :
      ∀ w, w ≠ node.nodeId → s₁.workers w = s.workers w)
    (hRun :
      (out,
          route.map (fun n =>
            s'.workerKv n.nodeId session)) =
        runStages (route.map (fun n => env.stageOf n.nodeId))
          (route.map (fun n =>
            (s₁.workers n.nodeId).getCache session pos))
          hidden₁ pos)
    (hFrame :
      ∀ w, w ∉ route.map (·.nodeId) →
        s'.workers w = s₁.workers w) :
    (out,
        (node :: route).map (fun n =>
          s'.workerKv n.nodeId session)) =
      runStages
        ((node :: route).map (fun n => env.stageOf n.nodeId))
        ((node :: route).map (fun n =>
          (s.workers n.nodeId).getCache session pos))
        hidden pos ∧
      ∀ w, w ∉ (node :: route).map (·.nodeId) →
        s'.workers w = s.workers w := by
  have hCaches :
      route.map (fun n =>
          (s₁.workers n.nodeId).getCache session pos) =
        route.map (fun n =>
          (s.workers n.nodeId).getCache session pos) := by
    refine List.map_congr_left (fun n hN => ?_)
    rw [hOther n.nodeId]
    intro hEq
    exact hFresh (hEq ▸ List.mem_map_of_mem hN)
  rw [hCaches] at hRun
  have hHead :
      s'.workerKv node.nodeId session =
        s₁.workerKv node.nodeId session := by
    unfold CoordState.workerKv
    rw [hFrame _ hFresh]
  constructor
  · simp only [List.map_cons, runStages, ← hOut, ← hKv,
      ← hRun, hHead]
  · intro w hW
    simp only [List.map_cons, List.mem_cons, not_or] at hW
    rw [hFrame w hW.2, hOther w hW.1]

/-
  A star relay that returns has run the stages of the route,
  each on its own cache.
-/
theorem relayStar_ok
    {active session pos : Nat}
    {route : List RouteHop}
    {hidden out : List H}
    {s s' : CoordState Tok H P}
    (hNodup : (route.map (·.nodeId)).Nodup)
    (hOk :
      env.relayStar active session pos route hidden s =
        (.ok out, s')) :
    (out,
        route.map (fun n => s'.workerKv n.nodeId session)) =
      runStages (route.map (fun n => env.stageOf n.nodeId))
        (route.map (fun n =>
          (s.workers n.nodeId).getCache session pos))
        hidden pos ∧
      (∀ w, w ∉ route.map (·.nodeId) →
        s'.workers w = s.workers w) ∧
      s'.localCaches = s.localCaches ∧
      s'.sessionRoutes = s.sessionRoutes ∧
      s'.provider = s.provider := by
  induction route generalizing hidden s with
  | nil =>
      cases hOk
      exact ⟨rfl, fun _ _ => rfl, rfl, rfl, rfl⟩
  | cons node route ih =>
      rw [List.map_cons, List.nodup_cons] at hNodup
      rcases hNodup with ⟨hFresh, hNodup⟩
      unfold relayStar at hOk
      split at hOk
      · cases hOk
      · rename_i hidden₁ s₁ hHop
        rcases env.starHop_ok hHop with
          ⟨hOut, hKv, hOther, hLocal, hRoutes, hProvider⟩
        rcases ih hNodup hOk with
          ⟨hRun, hFrame, hLocal', hRoutes', hProvider'⟩
        rcases env.runStages_of_hop hFresh hOut hKv hOther
            hRun hFrame with
          ⟨hWhole, hFrame'⟩
        exact
          ⟨hWhole, hFrame', hLocal'.trans hLocal,
            hRoutes'.trans hRoutes,
            hProvider'.trans hProvider⟩

/- An activation at one worker. -/
theorem activateAt_spec
    (nodeId : String)
    (session pos : Nat)
    (hidden : List H)
    (now : ℚ)
    (s : CoordState Tok H P) :
    (env.activateAt nodeId session pos hidden now s).1 =
        ((env.stageOf nodeId).forward hidden pos
          ((s.workers nodeId).getCache session pos)).1 ∧
      (env.activateAt nodeId session pos hidden now
          s).2.workerKv nodeId session =
        ((env.stageOf nodeId).forward hidden pos
          ((s.workers nodeId).getCache session pos)).2 ∧
      ∀ w, w ≠ nodeId →
        (env.activateAt nodeId session pos hidden now
          s).2.workers w = s.workers w := by
  refine ⟨rfl, ?_, fun w hNe => ?_⟩
  · simp [activateAt, CoordState.workerKv,
      CoordState.modifyWorker]
  · simp [activateAt, CoordState.modifyWorker, hNe]

end CoordEnv

/- The first downstream hop, and the ones after it. -/
theorem downstreamHops_cons
    {n : RouteHop}
    {tail : List RouteHop}
    {hops : List ChainHop}
    (hHops : downstreamHops (n :: tail) = .ok hops) :
    ∃ key rest,
      downstreamHops tail = .ok rest ∧
        hops = ⟨n.endpoint, key⟩ :: rest := by
  unfold downstreamHops at hHops
  split at hHops
  · cases hHops
  · rename_i key _
    split at hHops
    · cases hHops
    · split at hHops
      · cases hHops
      · rename_i rest hRest
        cases hHops
        exact ⟨key, rest, hRest, rfl⟩

namespace CoordEnv

variable {Tok H P : Type} (env : CoordEnv Tok H P)

/- A chain hop reaches the node it names, or none. -/
def Dials (n : RouteHop) : Prop :=
  ∀ next, env.listener n.endpoint = some next → next = n.nodeId

/-
  A chain that answers has run the stages of its nodes, each
  on its own cache.
-/
theorem chainForward_ok
    {session pos : Nat}
    {head : RouteHop}
    {tail : List RouteHop}
    {hops : List ChainHop}
    {hidden out : List H}
    {s s' : CoordState Tok H P}
    (hHops : downstreamHops tail = .ok hops)
    (hDials : ∀ n ∈ tail, env.Dials n)
    (hNodup : ((head :: tail).map (·.nodeId)).Nodup)
    (hOk :
      env.chainForward session pos head.nodeId hops hidden
        s = (.result out, s')) :
    ((out,
        (head :: tail).map (fun n =>
          s'.workerKv n.nodeId session)) =
      runStages
        ((head :: tail).map (fun n => env.stageOf n.nodeId))
        ((head :: tail).map (fun n =>
          (s.workers n.nodeId).getCache session pos))
        hidden pos ∧
      ∀ w, w ∉ (head :: tail).map (·.nodeId) →
        s'.workers w = s.workers w) ∧
      s'.localCaches = s.localCaches ∧
      s'.sessionRoutes = s.sessionRoutes ∧
      s'.conn = s.conn ∧
      s'.provider = s.provider := by
  rw [List.map_cons, List.nodup_cons] at hNodup
  rcases hNodup with ⟨hFresh, hNodup⟩
  rcases env.activateAt_spec head.nodeId session pos hidden
    (env.clock s.tick) s with
    ⟨hOut, hKv, hOther⟩
  induction tail generalizing head hops hidden s with
  | nil =>
      cases hHops
      simp only [chainForward, Prod.mk.injEq,
        ChainReply.result.injEq] at hOk
      rcases hOk with ⟨rfl, rfl⟩
      refine ⟨?_, rfl, rfl, rfl, rfl⟩
      exact
        env.runStages_of_hop hFresh hOut hKv hOther rfl
          (fun _ _ => rfl)
  | cons n tail ih =>
      rcases downstreamHops_cons hHops with
        ⟨key, rest, hRest, rfl⟩
      simp only [chainForward] at hOk
      -- an answer means the hop arrived and was answered
      split at hOk
      · cases hOk
      · cases hOk
      · rename_i next _ hNext
        rcases hDials n (by simp) next hNext with rfl
        rw [List.map_cons, List.nodup_cons] at hNodup
        rcases ih hRest (fun m hM => hDials m (by simp [hM]))
            hOk hNodup.1 hNodup.2
            (env.activateAt_spec _ _ _ _ _ _).1
            (env.activateAt_spec _ _ _ _ _ _).2.1
            (env.activateAt_spec _ _ _ _ _ _).2.2 with
          ⟨⟨hRun, hFrame⟩, hLocal, hPins, hConn, hProvider⟩
        refine ⟨?_, hLocal, hPins, hConn, hProvider⟩
        exact
          env.runStages_of_hop hFresh hOut hKv hOther hRun
            hFrame
      · cases hOk

/-
  A chain relay that returns has run the stages of the
  route, each on its own cache.
-/
theorem relayChain_ok
    {active session pos : Nat}
    {route : List RouteHop}
    {hidden out : List H}
    {s s' : CoordState Tok H P}
    (hNodup : (route.map (·.nodeId)).Nodup)
    (hDials : ∀ n ∈ route.tail, env.Dials n)
    (hOk :
      env.relayChain active route session pos hidden s =
        (.ok out, s')) :
    (out,
        route.map (fun n => s'.workerKv n.nodeId session)) =
      runStages (route.map (fun n => env.stageOf n.nodeId))
        (route.map (fun n =>
          (s.workers n.nodeId).getCache session pos))
        hidden pos ∧
      s'.localCaches = s.localCaches ∧
      s'.sessionRoutes = s.sessionRoutes ∧
      s'.provider = s.provider := by
  cases route with
  | nil => cases hOk
  | cons head tail =>
      simp only [relayChain, chainHeadAndRoute] at hOk
      cases hHops : downstreamHops tail with
      | error e =>
          rw [hHops] at hOk
          cases hOk
      | ok hops =>
          rw [hHops] at hOk
          simp only at hOk
          split at hOk
          · cases hOk
          · split at hOk
            · cases hOk
            · split at hOk
              · rename_i hReply
                cases hOk
                rcases env.chainForward_ok hHops hDials hNodup
                    (Prod.ext hReply rfl) with
                  ⟨⟨hRun, _⟩, hLocal, hPins, _, hProvider⟩
                exact ⟨hRun, hLocal, hPins, hProvider⟩
              · cases hOk
              · cases hOk

end CoordEnv

end CircuitDllm

------------------------------------------------------------
-- Sessions Between Relays
------------------------------------------------------------

namespace CircuitDllm

namespace CoordEnv

variable {Tok H P : Type} (env : CoordEnv Tok H P)

/-
  A route with one node for each remote stage.  A chain
  forwards to the nodes after the head by their endpoints.
-/
structure Serves
    (remote : List (Stage H))
    (route : List RouteHop) : Prop where
  nodup : (route.map (·.nodeId)).Nodup
  stages : route.map (fun n => env.stageOf n.nodeId) = remote
  dials :
    env.dynamic = true → env.chain = true →
      ∀ n ∈ route.tail, env.Dials n

/- Every route that is handed out serves the model. -/
def RoutesServe (remote : List (Stage H)) : Prop :=
  ∀ session p route p',
    env.provider.acquire session p = (.ok route, p') →
      env.Serves remote route

/- The co-located stage and the remote ones. -/
def model (remote : List (Stage H)) : Model Tok H where
  embed := env.embed
  stages := env.localStage.toList ++ remote
  lmHead := env.lmHead

/- The caches of a session: local, then along a route. -/
def sessionKvs
    (s : CoordState Tok H P)
    (session : Nat)
    (route : List RouteHop) :
    List (StageKV H) :=
  env.localStage.toList.map (fun _ => s.localKv session) ++
    route.map (fun n => s.workerKv n.nodeId session)

/-
  The session is pinned to a serving route, and every cache
  along it is the one of the tokens `kv`.
-/
def HoldsKv
    (remote : List (Stage H))
    (session : Nat)
    (s : CoordState Tok H P)
    (kv : List Tok) : Prop :=
  ∃ route,
    s.sessionRoutes.get? session = some route ∧
      env.Serves remote route ∧
      env.sessionKvs s session route =
        (env.model remote).linearKVs kv

/- The caches an activation at `pos` runs on. -/
def startKvs
    (s : CoordState Tok H P)
    (session pos : Nat)
    (route : List RouteHop) :
    List (StageKV H) :=
  env.localStage.toList.map (fun _ =>
      if pos = 0 then [] else s.localKv session) ++
    route.map (fun n =>
      (s.workers n.nodeId).getCache session pos)

/-
  A relay at the end of `kv` starts on the caches of `kv`,
  whichever route it gets.
-/
def StartsAt
    (remote : List (Stage H))
    (session : Nat)
    (s : CoordState Tok H P)
    (kv : List Tok) : Prop :=
  ∀ route s',
    env.pinRoute session kv.length s = (.ok route, s') →
      env.Serves remote route ∧
        env.startKvs s session kv.length route =
          (env.model remote).linearKVs kv

/- The hidden states of `toks` after the tokens `kv`. -/
def cleanHidden
    (remote : List (Stage H))
    (kv toks : List Tok) :
    List H :=
  (linearHidden (env.model remote).stages
    ((kv ++ toks).map env.embed)).drop kv.length

theorem startKvs_of_ne_zero
    (s : CoordState Tok H P)
    (session : Nat)
    {pos : Nat}
    (route : List RouteHop)
    (hPos : pos ≠ 0) :
    env.startKvs s session pos route =
      env.sessionKvs s session route := by
  simp [startKvs, sessionKvs, CoordState.workerKv,
    Worker.getCache_eq_kv, hPos]

theorem startKvs_zero
    {remote : List (Stage H)}
    {route : List RouteHop}
    (s : CoordState Tok H P)
    (session : Nat)
    (hServes : env.Serves remote route) :
    env.startKvs s session 0 route =
      (env.model remote).linearKVs [] := by
  rw [← Model.fresh_eq_linearKVs]
  simp [startKvs, model, ← hServes.stages, Function.comp_def]

/- Running the co-located layers first. -/
theorem runLocal_spec
    (session pos : Nat)
    (hidden : List H)
    (s : CoordState Tok H P) :
    ((env.runLocal session pos hidden s).1,
        env.localStage.toList.map (fun _ =>
          (env.runLocal session pos hidden s).2.localKv
            session)) =
      runStages env.localStage.toList
        (env.localStage.toList.map (fun _ =>
          if pos = 0 then [] else s.localKv session))
        hidden pos := by
  unfold runLocal
  cases env.localStage with
  | none => rfl
  | some stage =>
      simp [runStages, CoordState.localKv]

@[simp] theorem runLocal_workers
    (session pos : Nat)
    (hidden : List H)
    (s : CoordState Tok H P) :
    (env.runLocal session pos hidden s).2.workers =
      s.workers := by
  unfold runLocal
  split <;> rfl

@[simp] theorem runLocal_sessionRoutes
    (session pos : Nat)
    (hidden : List H)
    (s : CoordState Tok H P) :
    (env.runLocal session pos hidden s).2.sessionRoutes =
      s.sessionRoutes := by
  unfold runLocal
  split <;> rfl

@[simp] theorem runLocal_provider
    (session pos : Nat)
    (hidden : List H)
    (s : CoordState Tok H P) :
    (env.runLocal session pos hidden s).2.provider =
      s.provider := by
  unfold runLocal
  split <;> rfl

end CoordEnv

/- Stages in two groups are one pipeline. -/
theorem runStages_append
    {H : Type}
    (left right : List (Stage H))
    (lkvs rkvs : List (StageKV H))
    (hidden : List H)
    (pos : Nat)
    (hLen : left.length = lkvs.length) :
    runStages (left ++ right) (lkvs ++ rkvs) hidden pos =
      ((runStages right rkvs
          (runStages left lkvs hidden pos).1 pos).1,
        (runStages left lkvs hidden pos).2 ++
          (runStages right rkvs
            (runStages left lkvs hidden pos).1 pos).2) := by
  induction left generalizing lkvs hidden with
  | nil =>
      rcases List.length_eq_zero_iff.mp hLen.symm with rfl
      simp [runStages]
  | cons stage left ih =>
      cases lkvs with
      | nil => simp at hLen
      | cons kv lkvs =>
          have hRest := fun h => ih lkvs h (by simpa using hLen)
          simp [runStages, hRest]

end CircuitDllm

------------------------------------------------------------
-- Relays
------------------------------------------------------------

namespace CircuitDllm

namespace CoordEnv

variable {Tok H P : Type} (env : CoordEnv Tok H P)

/- Taking or reusing a pin leaves the caches alone. -/
theorem pinRoute_ok
    {session pos : Nat}
    {route : List RouteHop}
    {s s' : CoordState Tok H P}
    (hOk : env.pinRoute session pos s = (.ok route, s')) :
    s'.workers = s.workers ∧
      s'.localCaches = s.localCaches ∧
      s'.sessionRoutes.get? session = some route := by
  have hAcquire :
      pinRoute.acquire env session s = (.ok route, s') →
        s'.workers = s.workers ∧
          s'.localCaches = s.localCaches ∧
          s'.sessionRoutes.get? session = some route := by
    intro hAcq
    unfold pinRoute.acquire at hAcq
    split at hAcq
    · cases hAcq
    · cases hAcq
      exact ⟨rfl, rfl, by simp⟩
  unfold pinRoute at hOk
  split at hOk
  · rename_i pinned hPin
    split at hOk
    · exact hAcquire hOk
    · cases hOk
      exact ⟨rfl, rfl, hPin⟩
  · exact hAcquire hOk

/- Without a pin, or at position 0, a route is acquired. -/
theorem pinRoute_acquire
    {session pos : Nat}
    {s : CoordState Tok H P}
    (hFresh :
      pos = 0 ∨ s.sessionRoutes.get? session = none) :
    env.pinRoute session pos s =
      pinRoute.acquire env session s := by
  unfold pinRoute
  split
  · rename_i route hPin
    rcases hFresh with hPos | hNone
    · rw [if_pos hPos]
    · rw [hPin] at hNone
      cases hNone
  · rfl

/- The route acquired is one the provider grants. -/
theorem acquire_ok
    {session : Nat}
    {route : List RouteHop}
    {s s' : CoordState Tok H P}
    (hOk :
      pinRoute.acquire env session s = (.ok route, s')) :
    env.provider.acquire session s.provider =
      (.ok route, s'.provider) := by
  unfold pinRoute.acquire at hOk
  split at hOk
  · cases hOk
  · rename_i route' p hProvider
    cases hOk
    exact hProvider

/- Later positions reuse the pin. -/
theorem pinRoute_pinned
    {session pos : Nat}
    {route : List RouteHop}
    {s : CoordState Tok H P}
    (hPos : pos ≠ 0)
    (hPin : s.sessionRoutes.get? session = some route) :
    env.pinRoute session pos s = (.ok route, s) := by
  unfold pinRoute
  simp [hPin, hPos]

/- The route depends on the pins and the provider only. -/
theorem pinRoute_congr
    {session pos : Nat}
    {route : List RouteHop}
    {s s₁ s₂ : CoordState Tok H P}
    (hPins : s₁.sessionRoutes = s.sessionRoutes)
    (hProvider : s₁.provider = s.provider)
    (hOk : env.pinRoute session pos s₁ = (.ok route, s₂)) :
    ∃ s', env.pinRoute session pos s = (.ok route, s') := by
  have hAcquire :
      pinRoute.acquire env session s₁ = (.ok route, s₂) →
        ∃ s',
          pinRoute.acquire env session s =
            (.ok route, s') := by
    intro hAcq
    have hGrant := env.acquire_ok hAcq
    rw [hProvider] at hGrant
    unfold pinRoute.acquire
    rw [hGrant]
    exact ⟨_, rfl⟩
  unfold pinRoute at hOk ⊢
  rw [hPins] at hOk
  split at hOk
  · split at hOk
    · rename_i hPos
      simp only [hPos, if_true]
      exact hAcquire hOk
    · rename_i hPos
      cases hOk
      simp only [hPos, if_false]
      exact ⟨s, rfl⟩
  · exact hAcquire hOk

/- At position 0 any granted route starts afresh. -/
theorem startsAt_nil
    {remote : List (Stage H)}
    (hServe : env.RoutesServe remote)
    (session : Nat)
    (s : CoordState Tok H P) :
    env.StartsAt remote session s [] := by
  intro route s' hOk
  rw [List.length_nil,
    env.pinRoute_acquire (Or.inl rfl)] at hOk
  have hServes :=
    hServe _ _ _ _ (env.acquire_ok hOk)
  exact ⟨hServes, env.startKvs_zero s session hServes⟩

/- A session that holds `kv` goes on from it. -/
theorem HoldsKv.startsAt
    {env : CoordEnv Tok H P}
    {remote : List (Stage H)}
    {session : Nat}
    {s : CoordState Tok H P}
    {kv : List Tok}
    (hServe : env.RoutesServe remote)
    (hHolds : env.HoldsKv remote session s kv) :
    env.StartsAt remote session s kv := by
  cases kv with
  | nil => exact env.startsAt_nil hServe session s
  | cons t kv =>
      rcases hHolds with ⟨pinned, hPin, hServes, hKv⟩
      intro route s' hOk
      rw [env.pinRoute_pinned (by simp) hPin] at hOk
      cases hOk
      exact ⟨hServes,
        (env.startKvs_of_ne_zero s session _
          (by simp)).trans hKv⟩

/-
  The nodes a star relay went along are connected, and the
  pins are what they were.
-/
theorem relayStar_conns
    {active session pos : Nat}
    {route : List RouteHop}
    {hidden out : List H}
    {s s' : CoordState Tok H P}
    (hOk :
      env.relayStar active session pos route hidden s =
        (.ok out, s')) :
    (∀ n ∈ route, n.nodeId ∈ (s'.conn active).conns) ∧
      (∀ w ∈ (s.conn active).conns,
        w ∈ (s'.conn active).conns) ∧
      s'.sessionRoutes = s.sessionRoutes := by
  induction route generalizing hidden s with
  | nil =>
      cases hOk
      exact ⟨by simp, fun _ h => h, rfl⟩
  | cons node route ih =>
      unfold relayStar at hOk
      split at hOk
      · cases hOk
      · rename_i hidden₁ s₁ hHop
        have hConn :
            (s₁.conn active).conns =
              ((s.openConn active node.nodeId).conn
                active).conns ∧
              s₁.sessionRoutes = s.sessionRoutes := by
          unfold starHop at hHop
          split at hHop
          · rename_i hidden₂ s₂ hExchange
            cases hHop
            have hAct := env.exchange_ok hExchange
            rcases Prod.mk.inj hAct with ⟨rfl, rfl⟩
            exact ⟨rfl, rfl⟩
          · cases hHop
        have hMem :
            ∀ w, w ∈ (s₁.conn active).conns ↔
              w = node.nodeId ∨
                w ∈ (s.conn active).conns := by
          intro w
          rw [hConn.1]
          exact s.mem_openConn
        rcases ih hOk with ⟨hRest, hKeeps, hPins⟩
        refine ⟨fun n hN => ?_, fun w hW => ?_,
          hPins.trans hConn.2⟩
        · rcases List.mem_cons.mp hN with rfl | hTail
          · exact hKeeps _ ((hMem _).mpr (Or.inl rfl))
          · exact hRest n hTail
        · exact hKeeps w ((hMem w).mpr (Or.inr hW))

/- A star relay that returns has a route and went along it. -/
theorem relay_inv
    {active session pos : Nat}
    {hidden out : List H}
    {s s' : CoordState Tok H P}
    (hDynamic : env.dynamic = true)
    (hStar : env.chain = false)
    (hOk :
      env.relay active session pos hidden s = (.ok out, s')) :
    ∃ route s₂,
      env.pinRoute session pos
          (env.runLocal session pos hidden s).2 =
        (.ok route, s₂) ∧
      env.relayStar active session pos route
          (env.runLocal session pos hidden s).1 s₂ =
        (.ok out, s') := by
  simp only [relay, hDynamic, if_true, relayDynamic, hStar]
    at hOk
  split at hOk
  · cases hOk
  · rename_i route s₂ hPin
    exact ⟨route, s₂, hPin, hOk⟩

/- The relay's own pin is one its caller could have got. -/
theorem pinRoute_of_runLocal
    {session pos : Nat}
    {hidden : List H}
    {route : List RouteHop}
    {s s₂ : CoordState Tok H P}
    (hPin :
      env.pinRoute session pos
          (env.runLocal session pos hidden s).2 =
        (.ok route, s₂)) :
    ∃ s', env.pinRoute session pos s = (.ok route, s') :=
  env.pinRoute_congr
    (env.runLocal_sessionRoutes session pos hidden s)
    (env.runLocal_provider session pos hidden s) hPin

/- The local stage and the route are one pipeline. -/
theorem sessionKvs_run
    {session pos : Nat}
    {route : List RouteHop}
    {hidden out : List H}
    {s s₂ s' : CoordState Tok H P}
    (hWorkers : s₂.workers = s.workers)
    (hLocal :
      s'.localCaches =
        (env.runLocal session pos hidden s).2.localCaches)
    (hRun :
      (out,
          route.map (fun n =>
            s'.workerKv n.nodeId session)) =
        runStages (route.map (fun n => env.stageOf n.nodeId))
          (route.map (fun n =>
            (s₂.workers n.nodeId).getCache session pos))
          (env.runLocal session pos hidden s).1 pos) :
    (out, env.sessionKvs s' session route) =
      runStages
        (env.localStage.toList ++
          route.map (fun n => env.stageOf n.nodeId))
        (env.startKvs s session pos route) hidden pos := by
  unfold sessionKvs startKvs
  rw [runStages_append _ _ _ _ _ _ (by simp),
    ← env.runLocal_spec]
  rw [hWorkers] at hRun
  rw [← hRun]
  simp [CoordState.localKv, hLocal]

/- A run on the caches of `kv` ends on those of `kv ++ toks`. -/
theorem linear_of_run
    {remote : List (Stage H)}
    {kv toks : List Tok}
    {kvs kvs' : List (StageKV H)}
    {out : List H}
    (hStart : kvs = (env.model remote).linearKVs kv)
    (hRun :
      (out, kvs') =
        runStages (env.model remote).stages kvs
          (toks.map env.embed) kv.length) :
    out = env.cleanHidden remote kv toks ∧
      kvs' = (env.model remote).linearKVs (kv ++ toks) := by
  have hLinear :=
    runStages_linear (env.model remote).stages
      (kv.map env.embed) (toks.map env.embed)
  rw [List.length_map, ← List.map_append] at hLinear
  rw [hStart] at hRun
  rcases Prod.mk.inj (hRun.trans hLinear) with ⟨hOut, hKvs⟩
  exact ⟨hOut, hKvs⟩

/-
  A relay that returns has a route, and where the route
  serves the model it has run the stages along it.
-/
theorem relay_ran
    (remote : List (Stage H))
    {active session pos : Nat}
    {hidden out : List H}
    {s s' : CoordState Tok H P}
    (hDynamic : env.dynamic = true)
    (hOk :
      env.relay active session pos hidden s = (.ok out, s')) :
    ∃ route s₂,
      env.pinRoute session pos
          (env.runLocal session pos hidden s).2 =
        (.ok route, s₂) ∧
      (env.Serves remote route →
        (out,
            route.map (fun n =>
              s'.workerKv n.nodeId session)) =
          runStages
            (route.map (fun n => env.stageOf n.nodeId))
            (route.map (fun n =>
              (s₂.workers n.nodeId).getCache session pos))
            (env.runLocal session pos hidden s).1 pos ∧
          s'.localCaches = s₂.localCaches ∧
          s'.sessionRoutes = s₂.sessionRoutes ∧
          s'.provider = s₂.provider) := by
  simp only [relay, hDynamic, if_true, relayDynamic] at hOk
  split at hOk
  · cases hOk
  · rename_i route s₂ hPin
    refine ⟨route, s₂, hPin, fun hServes => ?_⟩
    split at hOk
    · rename_i hChain
      exact
        env.relayChain_ok hServes.nodup
          (hServes.dials hDynamic hChain) hOk
    · rcases env.relayStar_ok hServes.nodup hOk with
        ⟨hRun, _, hLocal, hPins, hProvider⟩
      exact ⟨hRun, hLocal, hPins, hProvider⟩

/-
  A relay that returns and started on the caches of `kv`
  answers as linear decoding does and leaves the caches of
  the longer sequence.
-/
theorem relay_ok
    {remote : List (Stage H)}
    {active session : Nat}
    {kv toks : List Tok}
    {out : List H}
    {s s' : CoordState Tok H P}
    (hDynamic : env.dynamic = true)
    (hStarts : env.StartsAt remote session s kv)
    (hOk :
      env.relay active session kv.length
          (toks.map env.embed) s = (.ok out, s')) :
    out = env.cleanHidden remote kv toks ∧
      env.HoldsKv remote session s' (kv ++ toks) := by
  rcases env.relay_ran remote hDynamic hOk with
    ⟨route, s₂, hPin, hRan⟩
  rcases env.pinRoute_of_runLocal hPin with ⟨s₃, hSame⟩
  rcases hStarts route s₃ hSame with ⟨hServes, hStart⟩
  rcases env.pinRoute_ok hPin with
    ⟨hWorkers₂, hLocal₂, hPin₂⟩
  rcases hRan hServes with ⟨hRun, hLocal', hPins', _⟩
  have hWhole :
      (out, env.sessionKvs s' session route) =
        runStages (env.model remote).stages
          (env.startKvs s session kv.length route)
          (toks.map env.embed) kv.length := by
    rw [model, ← hServes.stages]
    exact
      env.sessionKvs_run
        (hWorkers₂.trans (env.runLocal_workers _ _ _ _))
        (hLocal'.trans hLocal₂) hRun
  rcases env.linear_of_run hStart hWhole with ⟨hOut, hKvs⟩
  exact ⟨hOut, route, hPins' ▸ hPin₂, hServes, hKvs⟩

/- The pinned route is what the provider granted last. -/
def Granted
    (session : Nat)
    (s : CoordState Tok H P) : Prop :=
  ∃ route p,
    s.sessionRoutes.get? session = some route ∧
      env.provider.acquire session p = (.ok route, s.provider)

end CoordEnv

end CircuitDllm
