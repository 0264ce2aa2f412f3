import CircuitDllm.Mesh.Registry

/-
  The control server's requests (engine/control_server.py,
  do_POST).

  A body is a JSON object whose fields have the types the
  senders give them.  A signature is over the body without
  its `sig`, so it says nothing of the endpoint; it is valid
  for the time window around the body's `ts`.  Reading the
  clock is an argument, and the signature check is a part
  of the server, as the key library provides it.

  Main declarations:
    * `ControlBody`, `ControlPath`
    * `ControlServer`, `ControlServer.verify`
    * `ControlReply`, `ControlError`
    * `ControlServer.doPost`
-/

------------------------------------------------------------
-- Requests
------------------------------------------------------------

namespace CircuitDllm

/- A request's body; a field may be missing. -/
structure ControlBody (Sig : Type) where
  nodeId : Option String := none
  ts : Option ℚ := none
  sig : Option Sig := none
  endpoint : Option Endpoint := none
  capacityLayers : Option Int := none
  modelFp : Option String := none
  reachability : Option String := none
  region : Option String := none
  payoutWallet : Option String := none
  orchestrator : Option Bool := none
  loadedLayers : Option PreferRange := none
  session : Option Nat := none
  suspect : Option String := none
deriving DecidableEq, Repr

/- What is signed: the body without `sig`. -/
def ControlBody.message
    {Sig : Type}
    (body : ControlBody Sig) :
    ControlBody Sig :=
  { body with sig := none }

inductive ControlPath where
  | register
  | ready
  | heartbeat
  | drain
  | entryAcquire
  | entryRelease
  | routeAcquire
  | routeRelease
  | routeSuspect
  | other
deriving DecidableEq, Repr

/- Why a request is refused. -/
inductive ControlError where
  | badSignature
  | unsignedLiveness
  | unsignedEntry
  | routesUnavailable
  | tooManySuspects
  | missingField (field : String)
  | notFound
  /- what the registry raises -/
  | raised (e : MeshError)
deriving DecidableEq, Repr

/- The HTTP status, unless the handler dies. -/
def ControlError.status : ControlError → Option Nat
| .badSignature => some 401
| .unsignedLiveness => some 401
| .unsignedEntry => some 401
| .routesUnavailable => some 403
| .tooManySuspects => some 429
| .missingField _ => some 400
| .notFound => some 404
| .raised (.banned _ _) => some 403
| .raised (.notAllowed _) => some 403
| .raised (.coverageGap _ _ _) => some 503
| .raised .preferRange => none
| .raised _ => some 409

/- A node as route metadata. -/
structure NodeJson where
  nodeId : String
  endpoint : Endpoint
  layers : Option (Int × Int)
  isPublic : Bool
  trust : Trust
  orchestrator : Bool
  wireKey : Option WireKey
deriving DecidableEq, Repr

/- A 200 and what it carries, or an error. -/
inductive ControlReply where
  | admitted (admission : Admission)
  | ok
  | registered (known : Bool)
  | orchestrator (node : Option NodeJson)
  | route (nodes : List NodeJson)
  | failed (e : ControlError)
deriving DecidableEq, Repr

def ControlReply.accepts : ControlReply → Bool
| .failed _ => false
| _ => true

end CircuitDllm

------------------------------------------------------------
-- The Server
------------------------------------------------------------

namespace CircuitDllm

variable {Sig : Type}

/-
  `valid key message sig` is the key library's check;
  `verifySig` has the window when signatures are required.
-/
structure ControlServer (Sig : Type) where
  cfg : RegistryConfig
  valid : String → ControlBody Sig → Sig → Bool
  verifySig : Option ℚ
  strictLiveness : Bool
  suspectMaxPerMin : Int
  entryRequireSig : Bool

/- The registry, and when a caller reported a suspect. -/
structure ControlState where
  registry : Registry
  suspectLog : Dict String (List ℚ) := .empty

namespace ControlServer

variable (server : ControlServer Sig)

/- `ts` is in the window; zero is no window. -/
def fresh (window now : ℚ) (body : ControlBody Sig) : Bool :=
  if window = 0 then true
  else
    match body.ts with
    | none => false
    | some ts => decide (|now - ts| ≤ window)

/- make_ed25519_verifier -/
def verify
    (window now : ℚ)
    (body : ControlBody Sig) :
    Bool :=
  match body.nodeId, body.sig with
  | some nodeId, some sig =>
    fresh window now body &&
      server.valid nodeId body.message sig
  | _, _ => false

/- verify_sig is configured, and the body does not pass. -/
def rejects (now : ℚ) (body : ControlBody Sig) : Bool :=
  match server.verifySig with
  | none => false
  | some window => !server.verify window now body

/- _node_json -/
def nodeJson
    (registry : Registry)
    (withKey : Bool)
    (n : Node) :
    NodeJson where
  nodeId := n.nodeId
  endpoint := n.endpoint
  layers :=
    (n.slot.bind (fun k => registry.topo.slots[k]?)).map
      (fun s => (s.start, s.stop))
  isPublic := n.isPublic
  trust := n.trust
  orchestrator := n.orchestrator
  wireKey := if withKey then n.wireKey else none

/- Node(..) of a registration's body. -/
def nodeOf (body : ControlBody Sig) : Except ControlError Node :=
  match body.nodeId, body.endpoint, body.capacityLayers with
  | none, _, _ => .error (.missingField "node_id")
  | _, none, _ => .error (.missingField "endpoint")
  | _, _, none => .error (.missingField "capacity_layers")
  | some nodeId, some endpoint, some capacityLayers =>
    .ok
      { nodeId := nodeId
        endpoint := endpoint
        capacityLayers := capacityLayers
        modelFp := body.modelFp.getD ""
        isPublic := (body.reachability.getD "public") != "relay"
        region := body.region.filter (· != "")
        payoutWallet := body.payoutWallet.getD ""
        orchestrator := body.orchestrator.getD false }

def postRegister
    (now : ℚ)
    (body : ControlBody Sig)
    (s : ControlState) :
    ControlReply × ControlState :=
  if server.rejects now body then (.failed .badSignature, s)
  else
    match nodeOf body with
    | .error e => (.failed e, s)
    | .ok node =>
      match s.registry.register server.cfg node now
          body.loadedLayers with
      | (.error e, r) =>
        (.failed (.raised e), { s with registry := r })
      | (.ok admission, r) =>
        (.admitted admission, { s with registry := r })

/- Unsigned liveness is refused when strict. -/
def livenessError
    (now : ℚ)
    (body : ControlBody Sig) :
    Option ControlError :=
  match server.verifySig with
  | none => none
  | some window =>
    if body.sig.isSome then
      if server.verify window now body then none
      else some .badSignature
    else if server.strictLiveness then some .unsignedLiveness
    else none

/- /ready, /heartbeat and /drain -/
def postLiveness
    (now : ℚ)
    (body : ControlBody Sig)
    (act : String → Registry → ControlReply × Registry)
    (s : ControlState) :
    ControlReply × ControlState :=
  match server.livenessError now body with
  | some e => (.failed e, s)
  | none =>
    match body.nodeId with
    | none => (.failed (.missingField "node_id"), s)
    | some nodeId =>
      let (reply, r) := act nodeId s.registry
      (reply, { s with registry := r })

/- /entry/acquire and /entry/release -/
def postEntry
    (now : ℚ)
    (body : ControlBody Sig)
    (act : Nat → Registry → ControlReply × Registry)
    (s : ControlState) :
    ControlReply × ControlState :=
  if server.entryRequireSig ∧
      (server.verifySig = none ∨ server.rejects now body) then
    (.failed .unsignedEntry, s)
  else
    match body.session with
    | none => (.failed (.missingField "session"), s)
    | some session =>
      let (reply, r) := act session s.registry
      (reply, { s with registry := r })

/- The check of the route RPCs. -/
def routeError
    (now : ℚ)
    (body : ControlBody Sig) :
    Option ControlError :=
  match server.verifySig with
  | none => some .routesUnavailable
  | some window =>
    if server.verify window now body then none
    else some .badSignature

/- /route/suspect -/
def postSuspect
    (now : ℚ)
    (body : ControlBody Sig)
    (s : ControlState) :
    ControlReply × ControlState :=
  match server.routeError now body with
  | some e => (.failed e, s)
  | none =>
    let caller := body.nodeId.getD ""
    let hist :=
      ((s.suspectLog.get? caller).getD []).filter
        (fun t => now - t < 60)
    if server.suspectMaxPerMin ≤ (hist.length : Int) then
      (.failed .tooManySuspects, s)
    else
      let s :=
        { s with
          suspectLog := s.suspectLog.set caller (hist ++ [now]) }
      match body.suspect with
      | none => (.failed (.missingField "suspect"), s)
      | some suspect =>
        (.ok,
          { s with registry := s.registry.markSuspect suspect })

/- /route/acquire and /route/release -/
def postRoute
    (now : ℚ)
    (body : ControlBody Sig)
    (act : Nat → Registry → ControlReply × Registry)
    (s : ControlState) :
    ControlReply × ControlState :=
  match server.routeError now body with
  | some e => (.failed e, s)
  | none =>
    match body.session with
    | none => (.failed (.missingField "session"), s)
    | some session =>
      let (reply, r) := act session s.registry
      (reply, { s with registry := r })

def doPost
    (now : ℚ)
    (path : ControlPath)
    (body : ControlBody Sig)
    (s : ControlState) :
    ControlReply × ControlState :=
  match path with
  | .register => server.postRegister now body s
  | .ready =>
    server.postLiveness now body
      (fun nodeId r => (.ok, r.markReady nodeId)) s
  | .heartbeat =>
    server.postLiveness now body
      (fun nodeId r =>
        let (known, r) := r.heartbeat nodeId now
        (.registered known, r)) s
  | .drain =>
    server.postLiveness now body
      (fun nodeId r => (.ok, r.drain nodeId)) s
  | .entryAcquire =>
    server.postEntry now body
      (fun session r =>
        let (pick, r) := r.acquireEntry session
        (.orchestrator (pick.map (nodeJson r false)), r)) s
  | .entryRelease =>
    server.postEntry now body
      (fun session r => (.ok, r.releaseEntry session)) s
  | .routeSuspect => server.postSuspect now body s
  | .routeAcquire =>
    server.postRoute now body
      (fun session r =>
        match r.acquireRoute session with
        | (.error e, r) => (.failed (.raised e), r)
        | (.ok route, r) =>
          (.route (route.map (nodeJson r true)), r)) s
  | .routeRelease =>
    server.postRoute now body
      (fun session r => (.ok, r.releaseRoute session)) s
  | .other => (.failed .notFound, s)

end ControlServer

end CircuitDllm
