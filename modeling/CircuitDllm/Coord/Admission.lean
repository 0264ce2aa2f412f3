import CircuitDllm.Coord.PinRule
import CircuitDllm.Coord.Serving
import CircuitDllm.Mesh.ReadySince

/-
  Which nodes a new request is routed through.

  A request starts with its first forward.  On a session
  without a pin that forward acquires a route, and the
  registry hands out READY nodes.  A session that kept its
  pin, the warm prefix session above all, reuses the pinned
  nodes whatever happened to them since.  And a forward is
  not one step: it takes the route, then dials and writes
  hop by hop, while other threads change the registry.

  The registry is kept with its log, so that the operation
  that granted a route and all that came after it can be
  named.  Every route that a forward is sent along was
  granted; its nodes were READY then, and they are READY
  now if and only if they serve since.

  Main declarations:
    * `LoggedRegistry`, `Granted`
    * `ServeOp`, `serveStep`, `writes`
    * `serve_relay`
    * `start_ready_iff`
-/

------------------------------------------------------------
-- A Registry and Its Log
------------------------------------------------------------

namespace CircuitDllm

/- What happened to a registry since some state. -/
structure LoggedRegistry where
  first : WfRegistry
  log : List RegistryOp := []

namespace LoggedRegistry

variable (cfg : RegistryConfig)

/- The registry after the first operations. -/
def after (r : LoggedRegistry) (k : Nat) : Registry :=
  r.first.reg.run cfg (r.log.take k)

/- As it is now. -/
def now (r : LoggedRegistry) : Registry :=
  r.first.reg.run cfg r.log

/- What happened after the first operations. -/
def since (r : LoggedRegistry) (k : Nat) :
    List Registry.Event :=
  Registry.trail cfg (r.after cfg k) (r.log.drop k)

/- One more operation. -/
def push (r : LoggedRegistry) (op : RegistryOp) :
    LoggedRegistry :=
  { r with log := r.log ++ [op] }

/- The operation that granted the session this route. -/
def Granted
    (r : LoggedRegistry)
    (k session : Nat)
    (route : List RouteHop) : Prop :=
  r.log[k]? = some (.acquireRoute session) ∧
    ∃ nodes,
      ((r.after cfg k).acquireRoute session).1 = .ok nodes ∧
        route = nodes.map Node.toHop

variable {cfg}

@[simp] theorem now_push
    (r : LoggedRegistry)
    (op : RegistryOp) :
    (r.push op).now cfg = (r.now cfg).step cfg op := by
  simp [now, push, Registry.run]

theorem after_push
    {r : LoggedRegistry}
    {k : Nat}
    (hK : k ≤ r.log.length)
    (op : RegistryOp) :
    (r.push op).after cfg k = r.after cfg k := by
  simp only [after, push]
  rw [List.take_append_of_le_length hK]

theorem after_length (r : LoggedRegistry) :
    r.after cfg r.log.length = r.now cfg := by
  simp [after, now]

theorem run_drop (r : LoggedRegistry) (k : Nat) :
    (r.after cfg k).run cfg (r.log.drop k) = r.now cfg := by
  simp only [after, now, Registry.run, ← List.foldl_append,
    List.take_append_drop]

theorem wellFormed_after (r : LoggedRegistry) (k : Nat) :
    (r.after cfg k).topo.WellFormed :=
  Registry.wellFormed_run cfg r.first.wellFormed _

/- A grant stays one. -/
theorem Granted.push
    {r : LoggedRegistry}
    {k session : Nat}
    {route : List RouteHop}
    (hGrant : r.Granted cfg k session route)
    (op : RegistryOp) :
    (r.push op).Granted cfg k session route := by
  rcases hGrant with ⟨hOp, hNodes⟩
  have hK : k < r.log.length :=
    (List.getElem?_eq_some_iff.mp hOp).1
  refine ⟨?_, ?_⟩
  · rw [LoggedRegistry.push,
      List.getElem?_append_left hK]
    exact hOp
  · rw [after_push hK.le]
    exact hNodes

/- An acquisition that succeeds now is one. -/
theorem granted_push
    {r : LoggedRegistry}
    {session : Nat}
    {nodes : List Node}
    (hOk : ((r.now cfg).acquireRoute session).1 = .ok nodes) :
    (r.push (.acquireRoute session)).Granted cfg r.log.length
      session (nodes.map Node.toHop) := by
  refine ⟨by simp [push], nodes, ?_, rfl⟩
  rw [after_push le_rfl, after_length]
  exact hOk

end LoggedRegistry

/- Every node of the route is READY in the registry. -/
def RouteReady
    (r : Registry)
    (route : List RouteHop) : Prop :=
  ∀ hop ∈ route,
    ∃ n,
      r.topo.nodes.get? hop.nodeId = some n ∧
        n.state = .ready

namespace LoggedRegistry

variable {cfg : RegistryConfig}

/- The nodes of a granted route are READY then. -/
theorem Granted.ready
    {r : LoggedRegistry}
    {k session : Nat}
    {route : List RouteHop}
    (hGrant : r.Granted cfg k session route) :
    RouteReady (r.after cfg (k + 1)) route := by
  rcases hGrant with ⟨hOp, nodes, hNodes, rfl⟩
  rcases List.getElem?_eq_some_iff.mp hOp with ⟨hK, hGet⟩
  have hNext :
      (r.after cfg (k + 1)).topo = (r.after cfg k).topo := by
    have hTake :
        r.log.take (k + 1) =
          r.log.take k ++ [.acquireRoute session] := by
      rw [List.take_add_one, hOp]
      rfl
    simp only [after, hTake, Registry.run, List.foldl_append,
      List.foldl_cons, List.foldl_nil, Registry.step]
    exact Registry.acquireRoute_topo _ session
  intro hop hMem
  rcases List.mem_map.mp hMem with ⟨n, hN, rfl⟩
  rcases List.getElem?_of_mem hN with ⟨i, hI⟩
  rcases Registry.acquireRoute_slot (r.wellFormed_after k)
      hNodes hI with
    ⟨hTable, hReady, _⟩
  rw [hNext]
  exact ⟨n, hTable, hReady⟩

/-
  They are READY now if and only if they serve since the
  grant.
-/
theorem Granted.ready_iff
    {r : LoggedRegistry}
    {k session : Nat}
    {route rest : List RouteHop}
    (hGrant : r.Granted cfg k session route)
    (hRest : ∀ hop ∈ rest, hop ∈ route) :
    RouteReady (r.now cfg) rest ↔
      ∀ hop ∈ rest,
        Registry.ServesSince cfg hop.nodeId
          (r.since cfg (k + 1)) := by
  refine forall₂_congr (fun hop hMem => ?_)
  rcases hGrant.ready hop (hRest hop hMem) with
    ⟨n, hTable, hReady⟩
  rw [← r.run_drop (k + 1)]
  exact
    Registry.ready_iff_servesSince (r.wellFormed_after (k + 1))
      hTable hReady (r.log.drop (k + 1))

end LoggedRegistry

/- Routes from a registry that keeps its log. -/
def loggedProvider
    (cfg : RegistryConfig)
    (isRemote : Bool) :
    RouteProvider LoggedRegistry where
  acquire session r :=
    (((registryProvider isRemote).acquire session
        (r.now cfg)).1,
      r.push (.acquireRoute session))
  release session r := r.push (.releaseRoute session)
  markSuspect nodeId r := r.push (.markSuspect nodeId)

/- It does to the registry what the registry's own does. -/
theorem loggedProvider_now
    (cfg : RegistryConfig)
    (isRemote : Bool)
    (session : Nat)
    (nodeId : String)
    (r : LoggedRegistry) :
    ((loggedProvider cfg isRemote).acquire session r).2.now
          cfg =
        ((registryProvider isRemote).acquire session
          (r.now cfg)).2 ∧
      ((loggedProvider cfg isRemote).release session r).now
          cfg =
        (registryProvider isRemote).release session
          (r.now cfg) ∧
      ((loggedProvider cfg isRemote).markSuspect nodeId r).now
          cfg =
        (registryProvider isRemote).markSuspect nodeId
          (r.now cfg) := by
  refine ⟨?_, ?_, ?_⟩
  · simp only [loggedProvider, LoggedRegistry.now_push,
      Registry.step, registryProvider]
    split <;> simp_all
  · simp [loggedProvider, Registry.step, registryProvider]
  · simp [loggedProvider, Registry.step, registryProvider]

end CircuitDllm

------------------------------------------------------------
-- Requests Beside the Control Plane
------------------------------------------------------------

namespace CircuitDllm

/- What a request does on its connection set. -/
inductive RequestOp (Tok : Type) where
  /- a streaming speculative request starts -/
  | openStream (ids : List Tok)
  /- a request starts on a session of its own -/
  | start (session : Option Nat) (ids : List Tok)
  /- a request resumes a session at a position -/
  | resume (session : Nat) (nxt : Tok) (cur : Nat)
  /- a later forward of a request -/
  | forward (session pos : Nat) (ids : List Tok)
  | rollback (session length : Nat)
  /- a streaming speculative request is finished -/
  | endStream (session : Nat) (ids : List Tok)
  /- any other request is finished -/
  | reset (session : Nat)

/-
  What can happen on a coordinator with a registry.  Other
  threads change the registry between any two steps, and
  the threads of other connection sets take theirs.
-/
inductive ServeOp (Tok : Type) where
  | control (op : RegistryOp)
  | request (active : Nat) (op : RequestOp Tok)
  /- a forward runs the local layers and takes its route -/
  | route (active : Nat)
  /- it connects to the next node -/
  | dial (active : Nat)
  /-
    It writes to the next node and reads the answer; with no
    node left it returns.
  -/
  | send (active : Nat)

/- A forward: of a request that starts, or a later one. -/
structure Forwarding (Tok : Type) where
  opening : Bool
  session : Nat
  pos : Nat
  ids : List Tok

/- What the thread of a connection set is doing. -/
inductive ServePhase (Tok H : Type) where
  | idle
  | starting (f : Forwarding Tok)
  /- the nodes still to be sent to -/
  | sending
      (f : Forwarding Tok)
      (hidden : List H)
      (rest : List RouteHop)

/- The coordinator and the threads of its connection sets. -/
structure ServeState (Tok H : Type) where
  coord : CoordState Tok H LoggedRegistry
  phase : Nat → ServePhase Tok H := fun _ => .idle

/- The forward of a connection set goes on. -/
def ServeState.proceed
    {Tok H : Type}
    (t : ServeState Tok H)
    (active : Nat)
    (s : CoordState Tok H LoggedRegistry)
    (phase : ServePhase Tok H) :
    ServeState Tok H where
  coord := s
  phase := Function.update t.phase active phase

namespace CoordEnv

variable {Tok H : Type} [DecidableEq Tok]
variable (env : CoordEnv Tok H LoggedRegistry)

/- A step of a request, and the forward it begins. -/
def requestStep
    (active : Nat)
    (s : CoordState Tok H LoggedRegistry) :
    RequestOp Tok →
      Option (Forwarding Tok) × CoordState Tok H LoggedRegistry
| .openStream ids =>
    let ((sid, prefilled), s) := env.beginSession active ids s
    let (pos, chunk) := targetChunk prefilled ids 0
    (some ⟨true, sid, pos, chunk⟩, s)
| .start session ids =>
    let (sid, s) := env.sessionFor session s
    (some ⟨true, sid, 0, ids⟩, s)
| .resume session nxt cur =>
    (some ⟨true, session, cur, [nxt]⟩, s)
| .forward session pos ids =>
    (some ⟨false, session, pos, ids⟩, s)
| .rollback session length =>
    (none, (env.targetRollback active session length s).2)
| .endStream session ids =>
    (none, env.endSession active session ids s)
| .reset session =>
    (none, env.resetSessions active session s)

omit [DecidableEq Tok] in
/- The local layers run, then the route is taken. -/
def routeStep
    (active : Nat)
    (f : Forwarding Tok)
    (t : ServeState Tok H) :
    ServeState Tok H :=
  if ¬ env.dynamic then
    t.proceed active
      (env.relay active f.session f.pos (f.ids.map env.embed)
        t.coord).2 .idle
  else
    let (hidden, s) :=
      env.runLocal f.session f.pos (f.ids.map env.embed)
        t.coord
    match env.pinRoute f.session f.pos s with
    | (.error _, s) => t.proceed active s .idle
    | (.ok route, s) =>
      t.proceed active s (.sending f hidden route)

omit [DecidableEq Tok] in
/- The next node of the star, or the head of the chain. -/
def sendStep
    (active : Nat)
    (f : Forwarding Tok)
    (hidden : List H)
    (rest : List RouteHop)
    (t : ServeState Tok H) :
    ServeState Tok H :=
  if env.chain then
    t.proceed active
      (env.relayChain active rest f.session f.pos hidden
        t.coord).2 .idle
  else
    match rest with
    | [] => t.proceed active t.coord .idle
    | node :: rest =>
      match env.starHop active node f.session f.pos hidden
          t.coord with
      | (.error _, s) => t.proceed active s .idle
      | (.ok hidden, s) =>
        t.proceed active s (.sending f hidden rest)

/- One step of the coordinator or of its registry. -/
def serveStep
    (t : ServeState Tok H) :
    ServeOp Tok → ServeState Tok H
| .control op =>
    { t with
      coord :=
        { t.coord with
          provider := t.coord.provider.push op } }
| .request active op =>
    match t.phase active with
    | .idle =>
      match env.requestStep active t.coord op with
      | (none, s) => { t with coord := s }
      | (some f, s) => t.proceed active s (.starting f)
    | _ => t
| .route active =>
    match t.phase active with
    | .starting f => env.routeStep active f t
    | _ => t
| .dial active =>
    match t.phase active with
    | .sending _ _ (node :: _) =>
      { t with coord := t.coord.openConn active node.nodeId }
    | _ => t
| .send active =>
    match t.phase active with
    | .sending f hidden rest =>
      env.sendStep active f hidden rest t
    | _ => t

/- The state after a sequence of steps. -/
def serve
    (t : ServeState Tok H)
    (ops : List (ServeOp Tok)) :
    ServeState Tok H :=
  ops.foldl env.serveStep t

end CoordEnv

end CircuitDllm

------------------------------------------------------------
-- With Nothing in Between
------------------------------------------------------------

namespace CircuitDllm

namespace CoordEnv

variable {Tok H : Type} [DecidableEq Tok]
variable (env : CoordEnv Tok H LoggedRegistry)

/- A connection set at rest. -/
theorem serve_idle
    (active : Nat)
    {t : ServeState Tok H}
    (hIdle : t.phase active = .idle)
    (n : Nat) :
    env.serve t (List.replicate n (.send active)) = t := by
  induction n with
  | zero => rfl
  | succ n ih =>
      have hStep : env.serveStep t (.send active) = t := by
        simp [serveStep, hIdle]
      rw [List.replicate_succ, serve, List.foldl_cons, hStep]
      exact ih

/- Writing hop after hop is the star relay. -/
theorem serve_relayStar
    (hStar : env.chain = false)
    {active : Nat}
    {f : Forwarding Tok}
    {hidden : List H}
    {rest : List RouteHop}
    {t : ServeState Tok H}
    (hSending : t.phase active = .sending f hidden rest) :
    (env.serve t
        (List.replicate rest.length (.send active))).coord =
      (env.relayStar active f.session f.pos rest hidden
        t.coord).2 := by
  induction rest generalizing hidden t with
  | nil => rfl
  | cons node rest ih =>
      rw [List.length_cons, List.replicate_succ, serve,
        List.foldl_cons]
      have hStep :
          env.serveStep t (.send active) =
            env.sendStep active f hidden (node :: rest) t := by
        simp [serveStep, hSending]
      rw [hStep]
      unfold sendStep relayStar
      simp only [hStar, Bool.false_eq_true, if_false]
      cases hHop :
        env.starHop active node f.session f.pos hidden
          t.coord with
      | mk r s =>
          cases r with
          | error e =>
              exact
                congrArg ServeState.coord
                  (env.serve_idle active
                    (by simp [ServeState.proceed]) rest.length)
          | ok hidden' =>
              exact
                ih (t := t.proceed active s
                    (.sending f hidden' rest))
                  (by simp [ServeState.proceed])

/-
  A forward whose steps follow each other is the relay of
  the coordinator.
-/
theorem serve_relay
    {active : Nat}
    {f : Forwarding Tok}
    {t : ServeState Tok H}
    (hStarting : t.phase active = .starting f) :
    ∃ n,
      (env.serve t
          (.route active ::
            List.replicate n (.send active))).coord =
        (env.relay active f.session f.pos
          (f.ids.map env.embed) t.coord).2 := by
  have hStep :
      env.serveStep t (.route active) =
        env.routeStep active f t := by
    simp [serveStep, hStarting]
  simp only [serve, List.foldl_cons, hStep]
  unfold routeStep relay
  by_cases hDynamic : env.dynamic = true
  · simp only [hDynamic, not_true_eq_false, if_false, if_true,
      relayDynamic]
    generalize hLocal :
      env.runLocal f.session f.pos (f.ids.map env.embed)
        t.coord = ran
    rcases ran with ⟨hidden, s⟩
    simp only
    cases hPin : env.pinRoute f.session f.pos s with
    | mk r s₁ =>
        cases r with
        | error e => exact ⟨0, rfl⟩
        | ok route =>
            by_cases hChain : env.chain = true
            · refine ⟨1, ?_⟩
              simp [serveStep, sendStep, ServeState.proceed,
                hChain]
            · have hStar : env.chain = false := by
                simpa using hChain
              refine ⟨route.length, ?_⟩
              simp only [hStar, Bool.false_eq_true, if_false]
              exact
                env.serve_relayStar hStar
                  (t := t.proceed active s₁
                    (.sending f hidden route))
                  (by simp [ServeState.proceed])
  · refine ⟨0, ?_⟩
    simp [hDynamic, ServeState.proceed]

end CoordEnv

end CircuitDllm

------------------------------------------------------------
-- Ready Routes
------------------------------------------------------------

namespace CircuitDllm

/- A write of a forward, and the registry at that moment. -/
structure SentTo (Tok : Type) where
  forward : Forwarding Tok
  /- the nodes still to be sent to, this one first -/
  rest : List RouteHop
  registry : LoggedRegistry

namespace CoordEnv

variable {Tok H : Type}

/- The next write of a connection set, if there is one. -/
def nextWrite (t : ServeState Tok H) :
    ServeOp Tok → List (SentTo Tok)
| .send active =>
    match t.phase active with
    | .sending f _ (node :: rest) =>
      [⟨f, node :: rest, t.coord.provider⟩]
    | _ => []
| _ => []

variable [DecidableEq Tok]
variable (env : CoordEnv Tok H LoggedRegistry)

/- The writes of a run. -/
def writes (t : ServeState Tok H) :
    List (ServeOp Tok) → List (SentTo Tok)
| [] => []
| op :: ops =>
    nextWrite t op ++ writes (env.serveStep t op) ops

variable (cfg : RegistryConfig)

/- The session's route was granted some time ago. -/
def WasGranted
    (session : Nat)
    (route : List RouteHop)
    (r : LoggedRegistry) : Prop :=
  ∃ k, r.Granted cfg k session route

omit [DecidableEq Tok] in
/- Pinned routes were granted. -/
theorem pinRule_granted
    {isRemote : Bool}
    (hProvider : env.provider = loggedProvider cfg isRemote) :
    env.PinRule (WasGranted cfg) where
  acquired session r route r' hOk := by
    rw [hProvider] at hOk
    rcases Prod.mk.inj hOk with ⟨hRoute, rfl⟩
    rcases registryProvider_ok hRoute with
      ⟨nodes, hNodes, rfl, _⟩
    exact ⟨_, LoggedRegistry.granted_push hNodes⟩
  acquire session route other r hGranted := by
    rw [hProvider]
    rcases hGranted with ⟨k, hGrant⟩
    exact ⟨k, hGrant.push _⟩
  release session route other r hGranted := by
    rw [hProvider]
    rcases hGranted with ⟨k, hGrant⟩
    exact ⟨k, hGrant.push _⟩
  markSuspect session route nodeId r hGranted := by
    rw [hProvider]
    rcases hGranted with ⟨k, hGrant⟩
    exact ⟨k, hGrant.push _⟩

/-
  The pins were granted, and what a forward is still to be
  sent along is the end of such a route.
-/
structure GrantedInv (t : ServeState Tok H) : Prop where
  pins : PinsHold (WasGranted cfg) t.coord
  sending :
    ∀ active f hidden rest,
      t.phase active = .sending f hidden rest →
        ∃ route,
          rest <:+ route ∧
            WasGranted cfg f.session route t.coord.provider

variable {cfg}

omit [DecidableEq Tok] in
/- The coordinator moves on, the forwards stand still. -/
theorem GrantedInv.keep
    {t : ServeState Tok H}
    (hInv : GrantedInv cfg t)
    {s : CoordState Tok H LoggedRegistry}
    (hKeeps : Keeps (WasGranted cfg) t.coord s) :
    GrantedInv cfg { t with coord := s } where
  pins := hKeeps.pins hInv.pins
  sending active f hidden rest hSending := by
    rcases hInv.sending active f hidden rest hSending with
      ⟨route, hRest, hGranted⟩
    exact ⟨route, hRest, hKeeps.holding _ _ hGranted⟩

omit [DecidableEq Tok] in
/- One forward goes on, the others stand still. -/
theorem GrantedInv.proceed
    {t : ServeState Tok H}
    (hInv : GrantedInv cfg t)
    {active : Nat}
    {s : CoordState Tok H LoggedRegistry}
    {phase : ServePhase Tok H}
    (hKeeps : Keeps (WasGranted cfg) t.coord s)
    (hPhase :
      ∀ f hidden rest,
        phase = .sending f hidden rest →
          ∃ route,
            rest <:+ route ∧
              WasGranted cfg f.session route s.provider) :
    GrantedInv cfg (t.proceed active s phase) where
  pins := hKeeps.pins hInv.pins
  sending other f hidden rest hSending := by
    simp only [ServeState.proceed, Function.update_apply]
      at hSending
    split at hSending
    · exact hPhase f hidden rest hSending
    · exact
        (hInv.keep hKeeps).sending other f hidden rest
          hSending

variable {env}

/- A step of a request. -/
theorem requestStep_keeps
    (hRule : env.PinRule (WasGranted cfg))
    (active : Nat)
    (s : CoordState Tok H LoggedRegistry)
    (op : RequestOp Tok) :
    Keeps (WasGranted cfg) s
      (env.requestStep active s op).2 := by
  cases op with
  | openStream ids =>
      exact beginSession_keeps hRule active ids s
  | start session ids =>
      exact env.sessionFor_keeps (WasGranted cfg) session s
  | resume session nxt cur => exact Keeps.refl s
  | forward session pos ids => exact Keeps.refl s
  | rollback session length =>
      exact
        env.kvTruncate_keeps (WasGranted cfg) active session
          length false s
  | endStream session ids =>
      exact endSession_keeps hRule active session ids s
  | reset session =>
      exact resetSessions_keeps hRule active session s

/- It begins a forward, and sends nothing yet. -/
theorem grantedInv_request
    (hRule : env.PinRule (WasGranted cfg))
    {t : ServeState Tok H}
    (hInv : GrantedInv cfg t)
    (active : Nat)
    (op : RequestOp Tok) :
    GrantedInv cfg (env.serveStep t (.request active op)) := by
  have hKeeps := requestStep_keeps hRule active t.coord op
  simp only [serveStep]
  split
  · split
    · rename_i s hStep
      rw [hStep] at hKeeps
      exact hInv.keep hKeeps
    · rename_i f s hStep
      rw [hStep] at hKeeps
      exact hInv.proceed hKeeps nofun
  · exact hInv

omit [DecidableEq Tok] in
/- The route that a forward takes. -/
theorem grantedInv_route
    (hRule : env.PinRule (WasGranted cfg))
    {t : ServeState Tok H}
    (hInv : GrantedInv cfg t)
    (active : Nat)
    (f : Forwarding Tok) :
    GrantedInv cfg (env.routeStep active f t) := by
  unfold routeStep
  split
  · exact hInv.proceed (relay_keeps hRule _ _ _ _ _) nofun
  · have hLocal :=
      env.runLocal_keeps (WasGranted cfg) f.session f.pos
        (f.ids.map env.embed) t.coord
    generalize
      env.runLocal f.session f.pos (f.ids.map env.embed)
        t.coord = ran at hLocal
    rcases ran with ⟨hidden, s⟩
    have hPins := pinRoute_keeps hRule f.session f.pos s
    simp only
    split
    · rename_i e s₁ hError
      rw [hError] at hPins
      exact hInv.proceed (hLocal.trans hPins) nofun
    · rename_i route s₁ hOk
      have hGranted :=
        pinRoute_holds hRule (hLocal.pins hInv.pins) hOk
      rw [hOk] at hPins
      refine hInv.proceed (hLocal.trans hPins) ?_
      rintro _ _ _ hEq
      cases hEq
      exact ⟨route, List.suffix_rfl, hGranted⟩

omit [DecidableEq Tok] in
/- A write. -/
theorem grantedInv_send
    (hRule : env.PinRule (WasGranted cfg))
    {t : ServeState Tok H}
    (hInv : GrantedInv cfg t)
    {active : Nat}
    {f : Forwarding Tok}
    {hidden : List H}
    {rest : List RouteHop}
    (hSending : t.phase active = .sending f hidden rest) :
    GrantedInv cfg (env.sendStep active f hidden rest t) := by
  unfold sendStep
  split
  · exact
      hInv.proceed (relayChain_keeps hRule _ _ _ _ _ _) nofun
  · split
    · exact hInv.proceed (Keeps.refl t.coord) nofun
    · rename_i node rest
      have hHop :=
        starHop_keeps hRule active node f.session f.pos hidden
          t.coord
      split
      · rename_i e s hError
        rw [hError] at hHop
        exact hInv.proceed hHop nofun
      · rename_i hidden' s hOk
        rw [hOk] at hHop
        refine hInv.proceed hHop ?_
        rintro _ _ _ hEq
        cases hEq
        rcases hInv.sending active f hidden _ hSending with
          ⟨route, hRest, hGranted⟩
        exact
          ⟨route, (List.suffix_cons node rest).trans hRest,
            hHop.holding _ _ hGranted⟩

/- Every step. -/
theorem grantedInv_step
    (hRule : env.PinRule (WasGranted cfg))
    {t : ServeState Tok H}
    (hInv : GrantedInv cfg t)
    (op : ServeOp Tok) :
    GrantedInv cfg (env.serveStep t op) := by
  cases op with
  | control op =>
      have hMore :
          ∀ session route,
            WasGranted cfg session route t.coord.provider →
              WasGranted cfg session route
                (t.coord.provider.push op) := by
        rintro session route ⟨k, hGrant⟩
        exact ⟨k, hGrant.push op⟩
      exact
        hInv.keep
          ⟨hMore, fun hPins session route hPin =>
            hMore session route (hPins session route hPin)⟩
  | request active op =>
      exact grantedInv_request hRule hInv active op
  | route active =>
      simp only [serveStep]
      split
      · exact grantedInv_route hRule hInv active _
      · exact hInv
  | dial active =>
      simp only [serveStep]
      split
      · exact hInv.keep (Keeps.of_eq rfl rfl)
      · exact hInv
  | send active =>
      simp only [serveStep]
      split
      · rename_i f hidden rest hSending
        exact grantedInv_send hRule hInv hSending
      · exact hInv

/- Every write of a run is along the end of a granted route. -/
theorem writes_granted
    (hRule : env.PinRule (WasGranted cfg))
    {t : ServeState Tok H}
    (hInv : GrantedInv cfg t)
    {ops : List (ServeOp Tok)}
    {w : SentTo Tok}
    (hMem : w ∈ env.writes t ops) :
    ∃ route k,
      w.rest <:+ route ∧
        w.registry.Granted cfg k w.forward.session route := by
  induction ops generalizing t with
  | nil => exact absurd hMem List.not_mem_nil
  | cons op ops ih =>
      rcases List.mem_append.mp hMem with hHere | hLater
      · unfold nextWrite at hHere
        split at hHere
        · split at hHere
          · rename_i f hidden node rest hSending
            rw [List.mem_singleton] at hHere
            subst hHere
            rcases hInv.sending _ f hidden _ hSending with
              ⟨route, hRest, k, hGrant⟩
            exact ⟨route, k, hRest, hGrant⟩
          · exact absurd hHere List.not_mem_nil
        · exact absurd hHere List.not_mem_nil
      · exact ih (grantedInv_step hRule hInv op) hLater

variable (env cfg)

/-
  In every run, with any control-plane operations between
  the steps of the coordinator's threads: whenever a forward
  is sent to a node, the nodes it is still to be sent to are
  the end of a route that an acquisition of the session
  granted, and they are READY if and only if they serve
  since that acquisition.
-/
theorem start_ready_iff
    {isRemote : Bool}
    (hProvider : env.provider = loggedProvider cfg isRemote)
    (t : ServeState Tok H)
    (hPins : t.coord.sessionRoutes = .empty)
    (hIdle : ∀ active, t.phase active = .idle)
    (ops : List (ServeOp Tok))
    (w : SentTo Tok)
    (hMem : w ∈ env.writes t ops) :
    (∃ route k,
        w.rest <:+ route ∧
          w.registry.Granted cfg k w.forward.session route) ∧
      ∀ route k,
        w.rest <:+ route →
          w.registry.Granted cfg k w.forward.session route →
            (RouteReady (w.registry.now cfg) w.rest ↔
              ∀ hop ∈ w.rest,
                Registry.ServesSince cfg hop.nodeId
                  (w.registry.since cfg (k + 1))) := by
  have hInv : GrantedInv cfg t := by
    constructor
    · intro session route hPin
      rw [hPins] at hPin
      cases hPin
    · intro active f hidden rest hSending
      rw [hIdle active] at hSending
      cases hSending
  refine ⟨?_, fun route k hRest hGrant => ?_⟩
  · exact
      writes_granted (env.pinRule_granted cfg hProvider) hInv
        hMem
  · exact hGrant.ready_iff (fun hop hHop => hRest.mem hHop)

/- A coordinator beside the registry of one node. -/
def localEnv : CoordEnv Nat Nat LoggedRegistry where
  embed := soloModel.embed
  lmHead := soloModel.lmHead
  stageOf _ := soloStage
  dynamic := true
  provider := loggedProvider soloConfig false
  outcome _ := .ok

def localStart : ServeState Nat Nat where
  coord := { provider := { first := solo.toWfRegistry } }

/-
  Two requests with one prompt.  The node misses and sends a
  heartbeat while the first one dials, and drains between
  the two.
-/
def drainBetween : List (ServeOp Nat) :=
  [.request 0 (.openStream (List.replicate 18 1)),
    .route 0, .dial 0,
    .control (.markSuspect "a"),
    .control (.heartbeat "a" 1),
    .send 0, .send 0,
    .request 0 (.endStream 1 (List.replicate 18 1)),
    .control (.drain "a"),
    .request 0 (.openStream (List.replicate 18 1)),
    .route 0, .dial 0, .send 0]

/- The states of the nodes that are still to be sent to. -/
def restStates
    (w : SentTo Nat) :
    List (Option NodeState) :=
  w.rest.map (fun hop =>
    ((w.registry.now soloConfig).topo.nodes.get?
      hop.nodeId).map (·.state))

theorem drainBetween_writes :
    (localEnv.writes localStart drainBetween).map (fun w =>
        (w.forward.opening, restStates w)) =
      [(true, [some .ready]), (true, [some .draining])] := by
  decide

theorem exists_drainBetween
    {state : NodeState}
    (hState : state = .ready ∨ state = .draining) :
    ∃ w ∈ localEnv.writes localStart drainBetween,
      w.forward.opening = true ∧
        restStates w = [some state] := by
  have hMem :
      (true, [some state]) ∈
        (localEnv.writes localStart drainBetween).map
          (fun w => (w.forward.opening, restStates w)) := by
    rw [drainBetween_writes]
    rcases hState with rfl | rfl <;> simp
  rcases List.mem_map.mp hMem with ⟨w, hW, hEq⟩
  rcases Prod.mk.inj hEq with ⟨hOpening, hStates⟩
  exact ⟨w, hW, hOpening, hStates⟩

theorem routeReady_restStates
    {w : SentTo Nat}
    {state : NodeState}
    (hStates : restStates w = [some state]) :
    RouteReady (w.registry.now soloConfig) w.rest ↔
      state = .ready := by
  rcases List.map_eq_singleton_iff.mp hStates with
    ⟨hop, hRest, hState⟩
  rcases Option.map_eq_some_iff.mp hState with
    ⟨n, hN, rfl⟩
  simp [RouteReady, hRest, hN]

/- The second request goes to the DRAINING node. -/
theorem start_draining :
    ∃ w ∈ localEnv.writes localStart drainBetween,
      w.forward.opening = true ∧
        ¬ RouteReady (w.registry.now soloConfig) w.rest := by
  rcases exists_drainBetween (Or.inr rfl) with
    ⟨w, hW, hOpening, hStates⟩
  refine ⟨w, hW, hOpening, ?_⟩
  rw [routeReady_restStates hStates]
  simp

/- The first node serves since the grant, the drained not. -/
theorem start_ready_iff_drain :
    (∃ w ∈ localEnv.writes localStart drainBetween,
      ∃ k, ∀ hop ∈ w.rest,
        Registry.ServesSince soloConfig hop.nodeId
          (w.registry.since soloConfig (k + 1))) ∧
      ∃ w ∈ localEnv.writes localStart drainBetween,
        ∃ k, ¬ ∀ hop ∈ w.rest,
          Registry.ServesSince soloConfig hop.nodeId
            (w.registry.since soloConfig (k + 1)) := by
  have hRun (w : SentTo Nat) :=
    localEnv.start_ready_iff soloConfig rfl localStart rfl
      (fun _ => rfl) drainBetween w
  constructor
  · rcases exists_drainBetween (Or.inl rfl) with
      ⟨w, hW, _, hStates⟩
    rcases hRun w hW with ⟨⟨route, k, hRest, hGrant⟩, hIff⟩
    refine ⟨w, hW, k, (hIff route k hRest hGrant).mp ?_⟩
    exact (routeReady_restStates hStates).mpr rfl
  · rcases exists_drainBetween (Or.inr rfl) with
      ⟨w, hW, _, hStates⟩
    rcases hRun w hW with ⟨⟨route, k, hRest, hGrant⟩, hIff⟩
    refine ⟨w, hW, k, fun hServes => ?_⟩
    have hReady := (hIff route k hRest hGrant).mpr hServes
    rw [routeReady_restStates hStates] at hReady
    cases hReady

end CoordEnv

end CircuitDllm
