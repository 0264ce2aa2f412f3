import CircuitDllm.Coord.State

/-
  Relaying hidden states and KV control frames
  (engine/coordinator.py, engine/chain.py).

  The static path and the star send the activation to each
  stage in turn; the chain sends it to the head with the
  rest of the route.  KV_CTRL frames go to the connections
  the request has open.

  Main declarations:
    * `relayStar`, `relayChain`, `relayDynamic`
    * `relayStatic`, `relay`
    * `resetSessions`, `kvTruncate`
    * `relayWithFailover`
-/

------------------------------------------------------------
-- Single Exchanges
------------------------------------------------------------

namespace CircuitDllm

namespace CoordEnv

variable {Tok H P : Type} (env : CoordEnv Tok H P)

/- Run the co-located layers, if there are any. -/
def runLocal
    (session pos : Nat)
    (hidden : List H)
    (s : CoordState Tok H P) :
    List H × CoordState Tok H P :=
  match env.localStage with
  | none => (hidden, s)
  | some stage =>
    let kv := if pos = 0 then [] else s.localKv session
    let (out, kv) := stage.forward hidden pos kv
    (out, { s with localCaches := s.localCaches.set session kv })

/- What a worker does with an activation. -/
def activateAt
    (nodeId : String)
    (session pos : Nat)
    (hidden : List H)
    (now : ℚ)
    (s : CoordState Tok H P) :
    List H × CoordState Tok H P :=
  let act :=
    Worker.activate (env.stageOf nodeId) session pos hidden now
  ((act (s.workers nodeId)).1,
    s.modifyWorker nodeId (fun w => (act w).2))

/- Write ACTIVATION, read RESULT. -/
def exchange
    (nodeId : String)
    (session pos : Nat)
    (hidden : List H)
    (s : CoordState Tok H P) :
    Except CoordError (List H) × CoordState Tok H P :=
  let now := env.clock s.tick
  let sent := env.outcome s.tick
  let s := { s with tick := s.tick + 1 }
  match sent with
  | .ok =>
    let (out, s) := env.activateAt nodeId session pos hidden now s
    (.ok out, s)
  | .failBefore => (.error .wire, s)
  | .failAfter =>
    (.error .wire,
      (env.activateAt nodeId session pos hidden now s).2)

/-
  Write KV_CTRL; there is no reply.  The worker acts on it
  at once here, as its next activation on the same socket
  finds it; for a node behind the head of a chain, which
  gets its activations elsewhere, see `PostedState`.
-/
def sendControl
    (nodeId : String)
    (op : KvOp)
    (session : Nat)
    (s : CoordState Tok H P) :
    Except CoordError Unit × CoordState Tok H P :=
  let now := env.clock s.tick
  let sent := env.outcome s.tick
  let s := { s with tick := s.tick + 1 }
  let acted :=
    s.modifyWorker nodeId (Worker.control op session now)
  match sent with
  | .ok => (.ok (), acted)
  | .failBefore => (.error .wire, s)
  | .failAfter => (.error .wire, acted)

end CoordEnv

end CircuitDllm

------------------------------------------------------------
-- The Star
------------------------------------------------------------

namespace CircuitDllm

namespace CoordEnv

variable {Tok H P : Type} (env : CoordEnv Tok H P)

/- A hop failed: no socket, no pin, and a SUSPECT node. -/
def failHop
    (active : Nat)
    (nodeId : String)
    (session : Nat)
    (s : CoordState Tok H P) :
    CoordState Tok H P :=
  let s := s.dropConn active nodeId
  { s with
    provider := env.provider.markSuspect nodeId s.provider
    sessionRoutes := s.sessionRoutes.erase session }

/- One round trip to one node of the route. -/
def starHop
    (active : Nat)
    (node : RouteHop)
    (session pos : Nat)
    (hidden : List H)
    (s : CoordState Tok H P) :
    Except CoordError (List H) × CoordState Tok H P :=
  match env.exchange node.nodeId session pos hidden
      (s.openConn active node.nodeId) with
  | (.ok hidden, s) => (.ok hidden, s)
  | (.error e, s) =>
    (.error e, env.failHop active node.nodeId session s)

/- A round trip for each stage. -/
def relayStar
    (active session pos : Nat) :
    List RouteHop → List H → CoordState Tok H P →
      Except CoordError (List H) × CoordState Tok H P
| [], hidden, s => (.ok hidden, s)
| node :: route, hidden, s =>
    match env.starHop active node session pos hidden s with
    | (.error e, s) => (.error e, s)
    | (.ok hidden, s) =>
      relayStar active session pos route hidden s

end CoordEnv

end CircuitDllm

------------------------------------------------------------
-- The Chain
------------------------------------------------------------

namespace CircuitDllm

/- A downstream hop: where to dial and the key. -/
structure ChainHop where
  endpoint : Endpoint
  key : WireKey
deriving DecidableEq, Repr

/- The downstream hops; each needs a 32-byte key. -/
def downstreamHops :
    List RouteHop → Except CoordError (List ChainHop)
| [] => .ok []
| n :: route =>
    match n.wireKey with
    | none => .error .value
    | some key =>
      if key.length ≠ 32 then .error .value
      else
        match downstreamHops route with
        | .error e => .error e
        | .ok hops => .ok (⟨n.endpoint, key⟩ :: hops)

/- The node to send to, and the route it carries. -/
def chainHeadAndRoute :
    List RouteHop →
      Except CoordError (RouteHop × List ChainHop)
| [] => .error .value
| head :: route =>
    match downstreamHops route with
    | .error e => .error e
    | .ok hops => .ok (head, hops)

/- A hop that fits the route header. -/
def ChainHop.Encodable (hop : ChainHop) : Prop :=
  hop.endpoint.host.utf8ByteSize ≤ 255 ∧
    0 ≤ hop.endpoint.port ∧ hop.endpoint.port ≤ 65535 ∧
    hop.key.length = 32

instance (hop : ChainHop) : Decidable hop.Encodable := by
  unfold ChainHop.Encodable
  infer_instance

/- The route headers encode_route does not refuse. -/
def EncodableRoute (hops : List ChainHop) : Prop :=
  hops.length ≤ 255 ∧ ∀ hop ∈ hops, hop.Encodable

instance (hops : List ChainHop) :
    Decidable (EncodableRoute hops) := by
  unfold EncodableRoute
  infer_instance

/- What comes back up a chain. -/
inductive ChainReply (H : Type) where
  | result (hidden : List H)
  /- a hop broke: its endpoint -/
  | error (endpoint : Endpoint)

namespace CoordEnv

variable {Tok H P : Type} (env : CoordEnv Tok H P)

/-
  CHAIN_ACTIVATION at a worker: run its layers, forward to
  the next hop and pass the reply up.
-/
def chainForward
    (session pos : Nat) :
    String → List ChainHop → List H → CoordState Tok H P →
      ChainReply H × CoordState Tok H P
| nodeId, [], hidden, s =>
    let (out, s) :=
      env.activateAt nodeId session pos hidden
        (env.clock s.tick) s
    (.result out, s)
| nodeId, hop :: hops, hidden, s =>
    let (out, s) :=
      env.activateAt nodeId session pos hidden
        (env.clock s.tick) s
    let sent := env.outcome s.tick
    let s := { s with tick := s.tick + 1 }
    match sent, env.listener hop.endpoint with
    | .failBefore, _ => (.error hop.endpoint, s)
    | _, none => (.error hop.endpoint, s)
    | .ok, some next => chainForward session pos next hops out s
    | .failAfter, some next =>
      (.error hop.endpoint,
        (chainForward session pos next hops out s).2)

/- Suspect the node of the route at the endpoint, if any. -/
def suspectByEndpoint
    (endpoint : Endpoint)
    (route : List RouteHop)
    (s : CoordState Tok H P) :
    CoordState Tok H P :=
  match route.find? (fun n => n.endpoint = endpoint) with
  | none => s
  | some n =>
    { s with
      provider :=
        env.provider.markSuspect n.nodeId s.provider }

/- One round trip to the head of the chain. -/
def relayChain
    (active : Nat)
    (route : List RouteHop)
    (session pos : Nat)
    (hidden : List H)
    (s : CoordState Tok H P) :
    Except CoordError (List H) × CoordState Tok H P :=
  match chainHeadAndRoute route with
  | .error e => (.error e, s)
  | .ok (head, hops) =>
    let s := s.openConn active head.nodeId
    let sent := env.outcome s.tick
    let s := { s with tick := s.tick + 1 }
    match sent with
    | .failBefore =>
      (.error .wire, env.failHop active head.nodeId session s)
    | _ =>
      if ¬ EncodableRoute hops then (.error .value, s)
      else
        let (reply, s) :=
          env.chainForward session pos head.nodeId hops hidden s
        match sent, reply with
        | .ok, .result hidden => (.ok hidden, s)
        | .ok, .error endpoint =>
          let s := s.dropConn active head.nodeId
          let s := env.suspectByEndpoint endpoint route s
          (.error .wire,
            { s with
              sessionRoutes := s.sessionRoutes.erase session })
        | _, _ =>
          (.error .wire,
            env.failHop active head.nodeId session s)

end CoordEnv

end CircuitDllm

------------------------------------------------------------
-- Relays
------------------------------------------------------------

namespace CircuitDllm

namespace CoordEnv

variable {Tok H P : Type} (env : CoordEnv Tok H P)

/-
  The session's pinned route; the first hop of a session and
  every pos == 0 acquire a new one.
-/
def pinRoute
    (session pos : Nat)
    (s : CoordState Tok H P) :
    Except CoordError (List RouteHop) × CoordState Tok H P :=
  match s.sessionRoutes.get? session with
  | some route =>
    if pos = 0 then acquire
    else (.ok route, s)
  | none => acquire
where
  acquire :=
    match env.provider.acquire session s.provider with
    | (.error e, p) => (.error e, { s with provider := p })
    | (.ok route, p) =>
      (.ok route,
        { s with
          provider := p
          sessionRoutes := s.sessionRoutes.set session route })

/- Route through the live mesh. -/
def relayDynamic
    (active session pos : Nat)
    (hidden : List H)
    (s : CoordState Tok H P) :
    Except CoordError (List H) × CoordState Tok H P :=
  match env.pinRoute session pos s with
  | (.error e, s) => (.error e, s)
  | (.ok route, s) =>
    if env.chain then
      env.relayChain active route session pos hidden s
    else env.relayStar active session pos route hidden s

/- Connect to the stages one after the other. -/
def connectAll :
    List String → CoordState Tok H P →
      Except CoordError Unit × CoordState Tok H P
| [], s => (.ok (), s)
| _ :: addrs, s =>
    let sent := env.outcome s.tick
    let s := { s with tick := s.tick + 1 }
    match sent with
    | .ok => connectAll addrs s
    | _ => (.error .wire, s)

/- The static sockets, connected on first use. -/
def ensureConnected
    (active : Nat)
    (s : CoordState Tok H P) :
    Except CoordError (List String) × CoordState Tok H P :=
  match (s.conn active).socks with
  | some socks => (.ok socks, s)
  | none =>
    match env.connectAll env.stageAddrs s with
    | (.error e, s) => (.error e, s)
    | (.ok (), s) =>
      (.ok env.stageAddrs,
        s.modifyConn active (fun c =>
          { c with socks := some env.stageAddrs }))

/- A round trip for each static stage. -/
def relaySocks
    (session pos : Nat) :
    List String → List H → CoordState Tok H P →
      Except CoordError (List H) × CoordState Tok H P
| [], hidden, s => (.ok hidden, s)
| addr :: addrs, hidden, s =>
    match env.exchange addr session pos hidden s with
    | (.error e, s) => (.error e, s)
    | (.ok hidden, s) => relaySocks session pos addrs hidden s

/- Any failure drops the static sockets. -/
def relayStatic
    (active session pos : Nat)
    (hidden : List H)
    (s : CoordState Tok H P) :
    Except CoordError (List H) × CoordState Tok H P :=
  let dropSocks := fun (s : CoordState Tok H P) =>
    s.modifyConn active (fun c => { c with socks := none })
  match env.ensureConnected active s with
  | (.error e, s) => (.error e, dropSocks s)
  | (.ok socks, s) =>
    match env.relaySocks session pos socks hidden s with
    | (.error e, s) => (.error e, dropSocks s)
    | (.ok hidden, s) => (.ok hidden, s)

/- The co-located stage, then the remote ones. -/
def relay
    (active session pos : Nat)
    (hidden : List H)
    (s : CoordState Tok H P) :
    Except CoordError (List H) × CoordState Tok H P :=
  let (hidden, s) := env.runLocal session pos hidden s
  if env.dynamic then
    env.relayDynamic active session pos hidden s
  else env.relayStatic active session pos hidden s

end CoordEnv

end CircuitDllm

------------------------------------------------------------
-- KV Control
------------------------------------------------------------

namespace CircuitDllm

namespace CoordEnv

variable {Tok H P : Type} (env : CoordEnv Tok H P)

/-
  KV_CTRL to each open connection.  A failed write drops the
  connection; a strict caller also gets the error.
-/
def controlConns
    (active : Nat)
    (op : KvOp)
    (session : Nat)
    (strict : Bool) :
    List String → CoordState Tok H P →
      Except CoordError Unit × CoordState Tok H P
| [], s => (.ok (), s)
| nodeId :: nodeIds, s =>
    match env.sendControl nodeId op session s with
    | (.ok (), s) =>
      controlConns active op session strict nodeIds s
    | (.error e, s) =>
      let s := s.dropConn active nodeId
      if strict then (.error e, s)
      else controlConns active op session strict nodeIds s

/- KV_CTRL to the static sockets up to a failed write. -/
def controlSocks
    (op : KvOp)
    (session : Nat) :
    List String → CoordState Tok H P →
      Except CoordError Unit × CoordState Tok H P
| [], s => (.ok (), s)
| addr :: addrs, s =>
    match env.sendControl addr op session s with
    | (.ok (), s) => controlSocks op session addrs s
    | (.error e, s) => (.error e, s)

/- Free a finished session's KV; never raises. -/
def resetSessions
    (active session : Nat)
    (s : CoordState Tok H P) :
    CoordState Tok H P :=
  let s :=
    { s with localCaches := s.localCaches.erase session }
  if env.dynamic then
    let s :=
      { s with
        sessionRoutes := s.sessionRoutes.erase session
        provider := env.provider.release session s.provider }
    (env.controlConns active .reset session false
      (s.conn active).conns s).2
  else
    match env.controlSocks .reset session
        ((s.conn active).socks.getD []) s with
    | (.ok (), s) => s
    | (.error _, s) =>
      s.modifyConn active (fun c => { c with socks := none })

/- Truncate a session's KV to `length`. -/
def kvTruncate
    (active session length : Nat)
    (strict : Bool)
    (s : CoordState Tok H P) :
    Except CoordError Unit × CoordState Tok H P :=
  let s :=
    { s with
      localCaches :=
        s.localCaches.modify session
          (StageKV.truncateTo · length) }
  if env.dynamic then
    env.controlConns active (.truncate length) session strict
      (s.conn active).conns s
  else
    env.controlSocks (.truncate length) session
      ((s.conn active).socks.getD []) s

end CoordEnv

end CircuitDllm

------------------------------------------------------------
-- Failover
------------------------------------------------------------

namespace CircuitDllm

namespace CoordEnv

variable {Tok H P : Type} (env : CoordEnv Tok H P)

/- Rebuild a session's KV on a fresh route. -/
def reprefill
    (active session : Nat)
    (tokenIds : List Tok)
    (s : CoordState Tok H P) :
    Except CoordError Unit × CoordState Tok H P :=
  let s := env.resetSessions active session s
  if tokenIds = [] then (.ok (), s)
  else
    match env.relay active session 0
        (tokenIds.map env.embed) s with
    | (.error e, s) => (.error e, s)
    | (.ok _, s) => (.ok (), s)

/- The retries of a hop whose last attempt broke. -/
def retryHop
    (active session pos : Nat)
    (hidden : List H)
    (prefillIds : List Tok) :
    Nat → CoordState Tok H P →
      Except CoordError (List H) × CoordState Tok H P
| 0, s => (.error .wire, s)
| n + 1, s =>
    match env.reprefill active session prefillIds s with
    | (.error .wire, s) =>
      retryHop active session pos hidden prefillIds n s
    | (.error e, s) => (.error e, s)
    | (.ok (), s) =>
      match env.relay active session pos hidden s with
      | (.error .wire, s) =>
        retryHop active session pos hidden prefillIds n s
      | (.error e, s) => (.error e, s)
      | (.ok hidden, s) => (.ok hidden, s)

/-
  Relay one hop; on a wire error re-prefill on a fresh route
  and retry.  The static mode has no replicas.
-/
def relayWithFailover
    (active session pos : Nat)
    (hidden : List H)
    (prefillIds : List Tok)
    (maxFailovers : Nat)
    (s : CoordState Tok H P) :
    Except CoordError (List H) × CoordState Tok H P :=
  match env.relay active session pos hidden s with
  | (.error .wire, s) =>
    if env.dynamic then
      env.retryHop active session pos hidden prefillIds
        maxFailovers s
    else (.error .wire, s)
  | r => r

end CoordEnv

end CircuitDllm
