import CircuitDllm.Coord.Frames
import CircuitDllm.SpecDecode.FailStop

/-
  The caches of a session on the stages it goes to, in the
  static mode and on the star (engine/coordinator.py).

  The static mode has one route, its stage list; on the star
  the route is the pin.  `HoldsExactly` says that every
  cache along the route is the one of the tokens, `Covers`
  that it is once what follows them is cut off.

  Main declarations:
    * `routeOf`, `ServesModel`
    * `HoldsExactly`, `Covers`, `Unmoved`
    * `relay_exactly`
    * `kvTruncate_cut`
-/

------------------------------------------------------------
-- Routes of Both Modes
------------------------------------------------------------

namespace CircuitDllm

namespace CoordEnv

variable {Tok H P : Type} (env : CoordEnv Tok H P)

/- The static stages as a route. -/
def staticRoute : List RouteHop :=
  env.stageAddrs.map (fun addr =>
    { nodeId := addr, endpoint := ⟨addr, 0⟩ })

/- Where the session's next forward goes, once it is known. -/
def routeOf
    (session : Nat)
    (s : CoordState Tok H P) :
    Option (List RouteHop) :=
  if env.dynamic then s.sessionRoutes.get? session
  else some env.staticRoute

/- A static pipeline or a star that serves the model. -/
structure ServesModel (remote : List (Stage H)) : Prop where
  star : env.dynamic = true → env.chain = false
  routes : env.dynamic = true → env.RoutesServe remote
  static :
    env.dynamic = false → env.Serves remote env.staticRoute

/- Every cache along the route is the one of `ids`. -/
def HoldsExactly
    (remote : List (Stage H))
    (session : Nat)
    (s : CoordState Tok H P)
    (ids : List Tok) : Prop :=
  ∃ route,
    env.routeOf session s = some route ∧
      env.Serves remote route ∧
      env.sessionKvs s session route =
        (env.model remote).linearKVs ids

/- So it is when what follows `ids` is cut off. -/
def Covers
    (remote : List (Stage H))
    (session : Nat)
    (s : CoordState Tok H P)
    (ids : List Tok) : Prop :=
  ∃ route,
    env.routeOf session s = some route ∧
      env.Serves remote route ∧
      (env.sessionKvs s session route).map
          (StageKV.truncateTo · ids.length) =
        (env.model remote).linearKVs ids

/- Static sockets, once there, are those of the stages. -/
def SocksServe
    (active : Nat)
    (s : CoordState Tok H P) : Prop :=
  env.dynamic = false →
    ∀ l, (s.conn active).socks = some l →
      l = env.stageAddrs

/- The session's route and the caches along it are the same. -/
structure Unmoved
    (session : Nat)
    (s s' : CoordState Tok H P) : Prop where
  route : env.routeOf session s' = env.routeOf session s
  kvs :
    ∀ route, env.routeOf session s = some route →
      env.sessionKvs s' session route =
        env.sessionKvs s session route

variable {env} {remote : List (Stage H)}

@[simp] theorem staticRoute_nodeIds :
    env.staticRoute.map (·.nodeId) = env.stageAddrs := by
  simp [staticRoute, Function.comp_def]

theorem routeOf_dynamic
    (hDynamic : env.dynamic = true)
    (session : Nat)
    (s : CoordState Tok H P) :
    env.routeOf session s = s.sessionRoutes.get? session := by
  unfold routeOf
  rw [if_pos hDynamic]

theorem routeOf_static
    (hStatic : env.dynamic = false)
    (session : Nat)
    (s : CoordState Tok H P) :
    env.routeOf session s = some env.staticRoute := by
  unfold routeOf
  simp [hStatic]

/- On the star this is what a relay leaves. -/
theorem holdsExactly_dynamic
    (hDynamic : env.dynamic = true)
    {session : Nat}
    {s : CoordState Tok H P}
    {ids : List Tok} :
    env.HoldsExactly remote session s ids ↔
      env.HoldsKv remote session s ids := by
  unfold HoldsExactly HoldsKv
  rw [routeOf_dynamic hDynamic]

/- What acts on another session leaves this one alone. -/
theorem Acts.unmoved
    {sid keep session : Nat}
    {s s' : CoordState Tok H P}
    (hActs : env.Acts sid keep s s')
    (hNe : session ≠ sid) :
    env.Unmoved session s s' where
  route := by
    unfold routeOf
    rw [hActs.pins session hNe]
  kvs route _ := by
    unfold sessionKvs
    rw [hActs.localKv session hNe]
    simp only [hActs.workerKv _ session hNe]

theorem Unmoved.refl
    (session : Nat)
    (s : CoordState Tok H P) :
    env.Unmoved session s s :=
  ⟨rfl, fun _ _ => rfl⟩

theorem Unmoved.trans
    {session : Nat}
    {s s₁ s₂ : CoordState Tok H P}
    (hLeft : env.Unmoved session s s₁)
    (hRight : env.Unmoved session s₁ s₂) :
    env.Unmoved session s s₂ where
  route := hRight.route.trans hLeft.route
  kvs route hRoute :=
    (hRight.kvs route (hLeft.route.trans hRoute)).trans
      (hLeft.kvs route hRoute)

theorem HoldsExactly.unmoved
    {session : Nat}
    {s s' : CoordState Tok H P}
    {ids : List Tok}
    (hHolds : env.HoldsExactly remote session s ids)
    (hUnmoved : env.Unmoved session s s') :
    env.HoldsExactly remote session s' ids := by
  rcases hHolds with ⟨route, hRoute, hServes, hKvs⟩
  exact
    ⟨route, hUnmoved.route.trans hRoute, hServes,
      (hUnmoved.kvs route hRoute).trans hKvs⟩

theorem Covers.unmoved
    {session : Nat}
    {s s' : CoordState Tok H P}
    {ids : List Tok}
    (hCovers : env.Covers remote session s ids)
    (hUnmoved : env.Unmoved session s s') :
    env.Covers remote session s' ids := by
  rcases hCovers with ⟨route, hRoute, hServes, hKvs⟩
  refine
    ⟨route, hUnmoved.route.trans hRoute, hServes, ?_⟩
  rw [hUnmoved.kvs route hRoute]
  exact hKvs

end CoordEnv

end CircuitDllm

------------------------------------------------------------
-- Relays of Both Modes
------------------------------------------------------------

namespace CircuitDllm

namespace CoordEnv

variable {Tok H P : Type} {env : CoordEnv Tok H P}
variable {remote : List (Stage H)}

/-
  A static relay that returns has run the stages of the
  route, each on its own cache.
-/
theorem relaySocks_ok
    {session pos : Nat}
    {route : List RouteHop}
    {hidden out : List H}
    {s s' : CoordState Tok H P}
    (hNodup : (route.map (·.nodeId)).Nodup)
    (hOk :
      env.relaySocks session pos (route.map (·.nodeId))
        hidden s = (.ok out, s')) :
    (out,
        route.map (fun n => s'.workerKv n.nodeId session)) =
      runStages (route.map (fun n => env.stageOf n.nodeId))
        (route.map (fun n =>
          (s.workers n.nodeId).getCache session pos))
        hidden pos ∧
      (∀ w, w ∉ route.map (·.nodeId) →
        s'.workers w = s.workers w) ∧
      s'.localCaches = s.localCaches := by
  induction route generalizing hidden s with
  | nil =>
      cases hOk
      exact ⟨rfl, fun _ _ => rfl, rfl⟩
  | cons node route ih =>
      rw [List.map_cons, List.nodup_cons] at hNodup
      rcases hNodup with ⟨hFresh, hNodup⟩
      rw [List.map_cons] at hOk
      unfold relaySocks at hOk
      split at hOk
      · cases hOk
      · rename_i hidden₁ s₁ hExchange
        rcases env.exchange_effect hExchange with
          ⟨hOut, hKv, hOther, hLocal, _⟩
        rcases ih hNodup hOk with ⟨hRun, hFrame, hLocal'⟩
        rcases env.runStages_of_hop hFresh hOut hKv hOther
            hRun hFrame with
          ⟨hWhole, hFrame'⟩
        exact ⟨hWhole, hFrame', hLocal'.trans hLocal⟩

/- Connecting touches no cache. -/
theorem connectAll_caches
    (addrs : List String)
    (s : CoordState Tok H P) :
    (env.connectAll addrs s).2.workers = s.workers ∧
      (env.connectAll addrs s).2.localCaches =
        s.localCaches := by
  induction addrs generalizing s with
  | nil => exact ⟨rfl, rfl⟩
  | cons addr addrs ih =>
      unfold connectAll
      simp only
      split
      · exact ih _
      · exact ⟨rfl, rfl⟩

/- The sockets are the stage list, once they are there. -/
theorem ensureConnected_ok
    {active : Nat}
    {socks : List String}
    {s s' : CoordState Tok H P}
    (hSocks :
      ∀ l, (s.conn active).socks = some l →
        l = env.stageAddrs)
    (hOk :
      env.ensureConnected active s = (.ok socks, s')) :
    socks = env.stageAddrs ∧ s'.workers = s.workers ∧
      s'.localCaches = s.localCaches := by
  unfold ensureConnected at hOk
  split at hOk
  next l hOld =>
    cases hOk
    exact ⟨hSocks _ hOld, rfl, rfl⟩
  next =>
    have hCaches :
        (env.connectAll env.stageAddrs s).2.workers =
            s.workers ∧
          (env.connectAll env.stageAddrs s).2.localCaches =
            s.localCaches :=
      connectAll_caches env.stageAddrs s
    split at hOk
    next => cases hOk
    next s₁ h =>
      rw [h] at hCaches
      cases hOk
      exact ⟨rfl, hCaches⟩

theorem relayStatic_exactly
    (hStatic : env.dynamic = false)
    (hServes : env.Serves remote env.staticRoute)
    {active session : Nat}
    {kv toks : List Tok}
    {out : List H}
    {s s' : CoordState Tok H P}
    (hSocks : env.SocksServe active s)
    (hStarts :
      kv = [] ∨ env.HoldsExactly remote session s kv)
    (hOk :
      env.relay active session kv.length
          (toks.map env.embed) s = (.ok out, s')) :
    out = env.cleanHidden remote kv toks ∧
      env.HoldsExactly remote session s' (kv ++ toks) := by
  have hStart :
      env.startKvs s session kv.length env.staticRoute =
        (env.model remote).linearKVs kv := by
    by_cases hNil : kv = []
    · rw [hNil]
      exact env.startKvs_zero s session hServes
    · rcases hStarts.resolve_left hNil with
        ⟨route, hRoute, _, hKvs⟩
      rw [routeOf_static hStatic] at hRoute
      rcases Option.some.inj hRoute with rfl
      rw [env.startKvs_of_ne_zero s session _
        (by simpa using hNil)]
      exact hKvs
  have hConn :
      (env.runLocal session kv.length (toks.map env.embed)
        s).2.conn = s.conn := by
    unfold runLocal
    split <;> rfl
  simp only [relay, hStatic, Bool.false_eq_true, if_false,
    relayStatic] at hOk
  split at hOk
  · cases hOk
  · rename_i socks s₁ hEnsure
    split at hOk
    · cases hOk
    · rename_i hidden s₂ hRelay
      cases hOk
      rcases ensureConnected_ok
          (by rw [hConn]; exact hSocks hStatic) hEnsure with
        ⟨rfl, hWorkers, hLocal⟩
      rw [← staticRoute_nodeIds] at hRelay
      rcases relaySocks_ok hServes.nodup hRelay with
        ⟨hRun, _, hLocal'⟩
      have hWhole :=
        env.sessionKvs_run
          (hWorkers.trans (env.runLocal_workers _ _ _ _))
          (hLocal'.trans hLocal) hRun
      rw [hServes.stages] at hWhole
      rcases env.linear_of_run hStart hWhole with
        ⟨hOut, hKvs⟩
      exact
        ⟨hOut, _, routeOf_static hStatic _ _, hServes, hKvs⟩

/-
  A relay that returns and started on the caches of `kv`
  answers as linear decoding does and leaves the caches of
  the longer sequence.
-/
theorem relay_exactly
    (hMesh : env.ServesModel remote)
    {active session : Nat}
    {kv toks : List Tok}
    {out : List H}
    {s s' : CoordState Tok H P}
    (hSocks : env.SocksServe active s)
    (hStarts :
      kv = [] ∨ env.HoldsExactly remote session s kv)
    (hOk :
      env.relay active session kv.length
          (toks.map env.embed) s = (.ok out, s')) :
    out = env.cleanHidden remote kv toks ∧
      env.HoldsExactly remote session s' (kv ++ toks) := by
  cases hMode : env.dynamic with
  | false =>
      exact
        relayStatic_exactly hMode (hMesh.static hMode) hSocks
          hStarts hOk
  | true =>
      have hServe := hMesh.routes hMode
      rw [holdsExactly_dynamic hMode] at hStarts ⊢
      have hReady : env.ReadyKv remote session s kv := hStarts
      exact
        env.relay_ok hMode
          (hReady.startsAt hServe) hOk

end CoordEnv

end CircuitDllm

------------------------------------------------------------
-- Truncates of Both Modes
------------------------------------------------------------

namespace CircuitDllm

namespace CoordEnv

variable {Tok H P : Type} (env : CoordEnv Tok H P)

/- The nodes a control frame is written to. -/
def controlNodes
    (active : Nat)
    (s : CoordState Tok H P) :
    List String :=
  if env.dynamic then (s.conn active).conns
  else (s.conn active).socks.getD []

variable {env} {remote : List (Stage H)}

/- Writes that all succeed reach every node. -/
theorem controlSocks_ok
    {op : KvOp}
    {session : Nat}
    {addrs : List String}
    {s s' : CoordState Tok H P}
    (active : Nat)
    (hOk :
      env.controlSocks op session addrs s = (.ok (), s')) :
    env.controlConns active op session false addrs s =
        (.ok (), s') ∧
      ∀ w ∈ addrs, env.Reached addrs s.tick w := by
  induction addrs generalizing s with
  | nil =>
      cases hOk
      exact ⟨rfl, by simp⟩
  | cons addr addrs ih =>
      unfold controlSocks at hOk
      unfold controlConns
      split at hOk
      next s₁ hSend =>
        rcases ih hOk with ⟨hConns, hReached⟩
        have hTick :
            s₁.tick = s.tick + 1 ∧
              env.outcome s.tick ≠ .failBefore := by
          unfold sendControl at hSend
          cases hSent : env.outcome s.tick with
          | ok =>
              simp only [hSent] at hSend
              cases hSend
              exact ⟨rfl, by simp⟩
          | failBefore | failAfter =>
              simp only [hSent] at hSend
              cases hSend
        refine ⟨hConns, fun w hMem => reached_cons.mpr ?_⟩
        rcases List.mem_cons.mp hMem with rfl | hRest
        · exact Or.inl ⟨rfl, hTick.2⟩
        · rw [hTick.1] at hReached
          exact Or.inr (hReached w hRest)
      next => cases hOk

/- A strict caller that got no error wrote every frame. -/
theorem controlConns_strict
    {active : Nat}
    {op : KvOp}
    {session : Nat}
    {nodeIds : List String}
    {s s' : CoordState Tok H P}
    (hOk :
      env.controlConns active op session true nodeIds s =
        (.ok (), s')) :
    env.controlSocks op session nodeIds s = (.ok (), s') := by
  induction nodeIds generalizing s with
  | nil => exact hOk
  | cons nodeId nodeIds ih =>
      unfold controlConns at hOk
      unfold controlSocks
      split at hOk
      next => exact ih hOk
      next => cases hOk

/-
  What a truncate has done.  A strict one, and one in the
  static mode, raises unless it reached every node.
-/
theorem kvTruncate_effect
    {active session length : Nat}
    {strict : Bool}
    {s s' : CoordState Tok H P}
    (hOk :
      env.kvTruncate active session length strict s =
        (.ok (), s')) :
    s'.localKv session =
        (s.localKv session).truncateTo length ∧
      (∀ w,
        (env.Reached (env.controlNodes active s) s.tick w →
          s'.workerKv w session =
            (s.workerKv w session).truncateTo length) ∧
        (¬ env.Reached (env.controlNodes active s) s.tick w →
          s'.workerKv w session = s.workerKv w session)) ∧
      s'.sessionRoutes = s.sessionRoutes ∧
      (strict = true ∨ env.dynamic = false →
        ∀ w ∈ env.controlNodes active s,
          env.Reached (env.controlNodes active s) s.tick
            w) := by
  have hLenient :
      env.controlConns active (.truncate length) session
          false (env.controlNodes active s)
          { s with
            localCaches :=
              s.localCaches.modify session
                (StageKV.truncateTo · length) } =
          (.ok (), s') ∧
        (strict = true ∨ env.dynamic = false →
          ∀ w ∈ env.controlNodes active s,
            env.Reached (env.controlNodes active s) s.tick
              w) := by
    unfold kvTruncate at hOk
    unfold controlNodes
    cases hMode : env.dynamic with
    | false =>
        simp only [hMode, Bool.false_eq_true, if_false]
          at hOk ⊢
        rcases controlSocks_ok active hOk with
          ⟨hConns, hReached⟩
        exact ⟨hConns, fun _ => hReached⟩
    | true =>
        simp only [hMode, if_true] at hOk ⊢
        cases strict with
        | false => exact ⟨hOk, by simp⟩
        | true =>
            rcases controlSocks_ok active
                (controlConns_strict hOk) with
              ⟨hConns, hReached⟩
            exact ⟨hConns, fun _ => hReached⟩
  rcases hLenient with ⟨hConns, hReached⟩
  rcases env.controlConns_lenient active (.truncate length)
      session (env.controlNodes active s)
      { s with
        localCaches :=
          s.localCaches.modify session
            (StageKV.truncateTo · length) } with
    ⟨s₁, hOk₁, hKv, hLocal, hPins⟩
  rw [hConns] at hOk₁
  cases hOk₁
  refine ⟨?_, hKv, hPins, hReached⟩
  unfold CoordState.localKv
  rw [hLocal, Dict.get?_modify, if_pos rfl]
  cases s.localCaches.get? session with
  | none => simp [StageKV.truncateTo_eq_take]
  | some kv => rfl

/- Rolling back every cache of a session at once. -/
theorem sessionKvs_truncate
    {session length : Nat}
    {route : List RouteHop}
    {s s' : CoordState Tok H P}
    (hLocal :
      s'.localKv session =
        (s.localKv session).truncateTo length)
    (hRoute :
      ∀ n ∈ route,
        s'.workerKv n.nodeId session =
          (s.workerKv n.nodeId session).truncateTo length) :
    env.sessionKvs s' session route =
      (env.sessionKvs s session route).map
        (StageKV.truncateTo · length) := by
  unfold sessionKvs
  rw [List.map_append, List.map_map, List.map_map]
  congr 1
  · exact List.map_congr_left fun _ _ => hLocal
  · exact List.map_congr_left hRoute

/-
  A truncate that reaches every stage with positions to drop
  rolls every cache of the route back.
-/
theorem kvTruncate_cut
    {active session length : Nat}
    {strict : Bool}
    {route : List RouteHop}
    {s s' : CoordState Tok H P}
    (hRoute : env.routeOf session s = some route)
    (hReach :
      ∀ n ∈ route,
        length < (s.workerKv n.nodeId session).length →
          env.Reached (env.controlNodes active s) s.tick
            n.nodeId)
    (hOk :
      env.kvTruncate active session length strict s =
        (.ok (), s')) :
    env.routeOf session s' = some route ∧
      env.sessionKvs s' session route =
        (env.sessionKvs s session route).map
          (StageKV.truncateTo · length) := by
  rcases kvTruncate_effect hOk with
    ⟨hLocal, hKv, hPins, _⟩
  constructor
  · rw [← hRoute]
    unfold routeOf
    rw [hPins]
  · apply sessionKvs_truncate hLocal
    intro n hN
    by_cases hReached :
        env.Reached (env.controlNodes active s) s.tick
          n.nodeId
    · exact (hKv n.nodeId).1 hReached
    · -- what is not reached has nothing to drop
      have hShort :
          (s.workerKv n.nodeId session).length ≤ length := by
        by_contra hLong
        exact hReached (hReach n hN (Nat.lt_of_not_le hLong))
      refine ((hKv n.nodeId).2 hReached).trans ?_
      rw [StageKV.truncateTo_eq_take,
        List.take_of_length_le hShort]

end CoordEnv

end CircuitDllm

------------------------------------------------------------
-- The Socket Target of Both Modes
------------------------------------------------------------

namespace CircuitDllm

namespace CoordEnv

variable {Tok H P : Type} (env : CoordEnv Tok H P)

/-
  A holder keeps positions past `length`, and no frame of a
  truncate gets to it.
-/
def CutLost
    (active session : Nat)
    (s : CoordState Tok H P)
    (length : Nat) : Prop :=
  ∃ route n,
    env.routeOf session s = some route ∧ n ∈ route ∧
      length < (s.workerKv n.nodeId session).length ∧
      ¬ env.Reached (env.controlNodes active s) s.tick
        n.nodeId

variable {env} {remote : List (Stage H)}

theorem SocksServe.step
    {c : Nat}
    {s s' : CoordState Tok H P}
    (hServe : env.SocksServe c s)
    (hSocks :
      (s'.conn c).socks = (s.conn c).socks ∨
        (s'.conn c).socks = none ∨
        (s'.conn c).socks = some env.stageAddrs) :
    env.SocksServe c s' := by
  intro hStatic l hL
  rcases hSocks with hSame | hNone | hAll
  · rw [hSame] at hL
    exact hServe hStatic l hL
  · rw [hNone] at hL
    cases hL
  · rw [hAll] at hL
    exact (Option.some.inj hL).symm

theorem Acts.socksServe
    {sid keep active : Nat}
    {s s' : CoordState Tok H P}
    (hActs : env.Acts sid keep s s')
    (hSocks : env.SocksServe active s) :
    env.SocksServe active s' :=
  hSocks.step (hActs.socks active)

/-
  A truncate that returns has reached every stage that had
  something to drop.  In the static mode only missing
  sockets can keep it from that.
-/
theorem reaches_of_kept
    {active session length : Nat}
    {strict : Bool}
    {route : List RouteHop}
    {s s' : CoordState Tok H P}
    (hSocks : env.SocksServe active s)
    (hRoute : env.routeOf session s = some route)
    (hKept :
      ¬ (env.CutLost active session s length ∧
        (env.dynamic = false →
          (s.conn active).socks = none)))
    (hOk :
      env.kvTruncate active session length strict s =
        (.ok (), s')) :
    ∀ n ∈ route,
      length < (s.workerKv n.nodeId session).length →
        env.Reached (env.controlNodes active s) s.tick
          n.nodeId := by
  intro n hN hLong
  by_contra hNot
  refine
    hKept
      ⟨⟨route, n, hRoute, hN, hLong, hNot⟩,
        fun hStatic => ?_⟩
  rcases kvTruncate_effect hOk with ⟨_, _, _, hAll⟩
  cases hOld : (s.conn active).socks with
  | none => rfl
  | some l =>
      rcases hSocks hStatic l hOld with rfl
      rw [routeOf_static hStatic] at hRoute
      rcases Option.some.inj hRoute with rfl
      have hMem :
          n.nodeId ∈ env.controlNodes active s := by
        unfold controlNodes
        rw [hOld, ← staticRoute_nodeIds]
        simp only [hStatic, Bool.false_eq_true, if_false,
          Option.getD_some]
        exact List.mem_map_of_mem hN
      exact absurd (hAll (Or.inr hStatic) _ hMem) hNot

/- Cutting exact caches leaves exact ones. -/
theorem HoldsExactly.cut
    {active session length : Nat}
    {strict : Bool}
    {s s' : CoordState Tok H P}
    {ids : List Tok}
    (hHolds : env.HoldsExactly remote session s ids)
    (hReach :
      ∀ route, env.routeOf session s = some route →
        ∀ n ∈ route,
          length < (s.workerKv n.nodeId session).length →
            env.Reached (env.controlNodes active s) s.tick
              n.nodeId)
    (hOk :
      env.kvTruncate active session length strict s =
        (.ok (), s')) :
    env.HoldsExactly remote session s' (ids.take length) := by
  rcases hHolds with ⟨route, hRoute, hServes, hKvs⟩
  rcases kvTruncate_cut hRoute (hReach route hRoute) hOk with
    ⟨hRoute', hKvs'⟩
  refine ⟨route, hRoute', hServes, ?_⟩
  rw [hKvs', hKvs, Model.linearKVs, truncate_linearKVs,
    Model.linearKVs, List.map_take]

/- The session holds `kv`, which is not empty. -/
def SocketExact
    (env : CoordEnv Tok H P)
    (remote : List (Stage H))
    (active session : Nat)
    (t : SocketState Tok H P)
    (kv : List Tok) : Prop :=
  kv ≠ [] ∧ env.SocksServe active t.coord ∧
    env.HoldsExactly remote session t.coord kv

/- The picks of a relay on the caches of `kv`. -/
theorem relay_exactly_picks
    [Inhabited Tok]
    (hMesh : env.ServesModel remote)
    {active session : Nat}
    {kv toks : List Tok}
    {out : List H}
    {s s' : CoordState Tok H P}
    (hSocks : env.SocksServe active s)
    (hStarts :
      kv = [] ∨ env.HoldsExactly remote session s kv)
    (hOk :
      env.relay active session kv.length
          (toks.map env.embed) s = (.ok out, s')) :
    out.map env.lmHead =
        Causal.feed (env.model remote).next kv toks ∧
      env.SocksServe active s' ∧
      env.HoldsExactly remote session s' (kv ++ toks) := by
  rcases relay_exactly hMesh hSocks hStarts hOk with
    ⟨rfl, hHolds⟩
  have hActs :
      env.Acts session 0 s
        (env.relay active session kv.length
          (toks.map env.embed) s).2 :=
    relay_acts hMesh.star active _ s (Or.inl rfl)
  rw [hOk] at hActs
  refine ⟨?_, Acts.socksServe hActs hSocks, hHolds⟩
  rw [← Model.argmaxes_eq_feed_next, cleanHidden,
    List.map_drop]
  rfl

/- The socket target is fail-stop but for its truncates. -/
theorem socketTarget_exactly
    [Inhabited Tok]
    (hMesh : env.ServesModel remote)
    (active session prefilled : Nat) :
    FailStopSpec (env.socketTarget active session prefilled)
      (env.model remote).next
      (SocketExact env remote active session)
      (fun t length =>
        env.CutLost active session t.coord length) where
  forward := by
    rintro t kv ids picks t' ⟨hNe, hSocks, hHolds⟩ hOk
    have hPos : kv.length ≠ 0 := by
      simpa using hNe
    simp only [socketTarget, targetForward, targetChunk,
      hPos, false_and, if_false] at hOk
    split at hOk
    · cases hOk
    · rename_i hidden s' hRelay
      cases hOk
      rcases relay_exactly_picks hMesh hSocks
          (Or.inr hHolds) hRelay with
        ⟨hPicks, hSocks', hHolds'⟩
      exact ⟨hPicks, by simp [hNe], hSocks', hHolds'⟩
  rollback := by
    rintro t kv length t' ⟨hNe, hSocks, hHolds⟩ hPos hLe
      hKept hOk
    simp only [socketTarget, targetRollback] at hOk
    split at hOk
    · cases hOk
    · rename_i s' hTruncate
      cases hOk
      have hHolds' :=
        hHolds.cut
          (fun route hRoute =>
            reaches_of_kept hSocks hRoute
              (fun hLost => hKept hLost.1) hTruncate)
          hTruncate
      have hActs :
          env.Acts session 0 t.coord
            (env.kvTruncate active session length false
              t.coord).2 :=
        kvTruncate_acts active false _ (Nat.zero_le _)
      rw [hTruncate] at hActs
      refine ⟨?_, Acts.socksServe hActs hSocks, hHolds'⟩
      intro hNil
      rcases List.take_eq_nil_iff.mp hNil with rfl | hKv
      · exact Nat.lt_irrefl _ hPos
      · exact hNe hKv

/-
  The prompt prefill, on what the request's start says that
  the session holds.
-/
theorem targetForward_prefill
    [Inhabited Tok]
    (hMesh : env.ServesModel remote)
    {active sid prefilled : Nat}
    {ids : List Tok}
    {out : List H}
    {s s' : CoordState Tok H P}
    (hSocks : env.SocksServe active s)
    (hStart :
      0 < prefilled →
        prefilled ≤ ids.length ∧
          env.HoldsExactly remote sid s (ids.take prefilled))
    (hOk :
      env.targetForward active sid prefilled ids 0 s =
        (.ok out, s')) :
    ∃ kv toks,
      kv ++ toks = ids ∧
        out.map env.lmHead =
          Causal.feed (env.model remote).next kv toks ∧
        env.SocksServe active s' ∧
        env.HoldsExactly remote sid s' ids := by
  unfold targetForward targetChunk at hOk
  by_cases hWarm : 0 < prefilled
  · simp only [hWarm, and_self, if_true] at hOk
    rcases hStart hWarm with ⟨hLe, hHolds⟩
    have hLen : (ids.take prefilled).length = prefilled :=
      List.length_take_of_le hLe
    have hPicks :
        _ ∧ _ ∧
          env.HoldsExactly remote sid s'
            (ids.take prefilled ++ ids.drop prefilled) :=
      relay_exactly_picks hMesh hSocks (Or.inr hHolds)
        (by rw [hLen]; exact hOk)
    refine
      ⟨_, _, List.take_append_drop prefilled ids, hPicks.1,
        hPicks.2.1, ?_⟩
    rw [← List.take_append_drop prefilled ids]
    exact hPicks.2.2
  · simp only [hWarm, and_false, if_false] at hOk
    have hPicks :
        _ ∧ _ ∧
          env.HoldsExactly remote sid s' ([] ++ ids) :=
      relay_exactly_picks hMesh hSocks (Or.inl rfl) hOk
    exact
      ⟨[], ids, rfl, hPicks.1, hPicks.2.1, hPicks.2.2⟩

/- A forward of the target that returns. -/
theorem socketTarget_returns
    {active session prefilled startPos : Nat}
    {ids picks : List Tok}
    {t t' : SocketState Tok H P}
    (hOk :
      (env.socketTarget active session prefilled).forwardTokens
          ids startPos t =
        (.ok picks, t')) :
    ∃ hidden s',
      env.targetForward active session prefilled ids startPos
          t.coord = (.ok hidden, s') ∧
        picks = hidden.map env.lmHead ∧
        t' = ⟨s', startPos + ids.length, hidden⟩ := by
  simp only [socketTarget] at hOk
  split at hOk
  · cases hOk
  · rename_i hidden s' hForward
    cases hOk
    exact ⟨hidden, s', hForward, rfl, rfl⟩

theorem socketTarget_prefills_exactly
    [Inhabited Tok]
    (hMesh : env.ServesModel remote)
    {active sid prefilled : Nat}
    {ids : List Tok}
    {s : CoordState Tok H P}
    (hSocks : env.SocksServe active s)
    (hStart :
      0 < prefilled →
        prefilled ≤ ids.length ∧
          env.HoldsExactly remote sid s
            (ids.take prefilled)) :
    Prefills (env.socketTarget active sid prefilled)
      (env.model remote).next
      (SocketExact env remote active sid) ids
      { coord := s, kv := prefilled } := by
  intro picks t head hOk hLast
  rcases socketTarget_returns hOk with
    ⟨hidden, s', hForward, rfl, rfl⟩
  rcases targetForward_prefill hMesh hSocks hStart hForward
    with ⟨kv, toks, rfl, hPicks, hSocks', hHolds⟩
  rw [hPicks] at hLast
  have hNe : toks ≠ [] := by
    rintro rfl
    cases hLast
  rw [Causal.getLast?_feed _ _ _ hNe] at hLast
  refine
    ⟨(Option.some.inj hLast).symm,
      ⟨by simp [hNe], hSocks', hHolds⟩, ?_⟩
  exact Nat.zero_add _

end CoordEnv

end CircuitDllm
