import CircuitDllm.Kv.Pipeline
import CircuitDllm.Mesh.Registry
import Mathlib.Logic.Function.Basic

/-
  The coordinator and the stage workers it talks to
  (engine/coordinator.py, engine/stage_worker.py,
  engine/route_provider.py).

  One network operation is atomic here: it is answered, or
  it raises before or after the worker acted on its frame.
  Which of these happens to the n-th operation is a function
  of n, so a statement about every such function is about
  every pattern of failures.

  Main declarations:
    * `Worker.activate`, `Worker.control`
    * `RouteProvider`, `registryProvider`
    * `CoordEnv`, `CoordState`
-/

------------------------------------------------------------
-- Stage Workers
------------------------------------------------------------

namespace CircuitDllm

/- A KV_CTRL operation. -/
inductive KvOp where
  | reset
  | truncate (length : Nat)
  | free
deriving DecidableEq, Repr

/-
  The worker-global session store, and the last activity of
  each session.
-/
structure Worker (H : Type) where
  sessions : Dict Nat (StageKV H) := .empty
  touch : Dict Nat ℚ := .empty

namespace Worker

variable {H : Type}

/- The KV held for a session; none is an empty one. -/
def kv (w : Worker H) (session : Nat) : StageKV H :=
  (w.sessions.get? session).getD []

/-
  The cache an activation runs on: pos == 0 starts a fresh
  one, and so does a session that is not in the store.
-/
def getCache
    (w : Worker H)
    (session pos : Nat) :
    StageKV H :=
  if pos = 0 then [] else w.kv session

/- ACTIVATION: one forward on the session's cache. -/
def activate
    (stage : Stage H)
    (session pos : Nat)
    (hidden : List H)
    (now : ℚ)
    (w : Worker H) :
    List H × Worker H :=
  let (out, kv) :=
    stage.forward hidden pos (w.getCache session pos)
  (out,
    { sessions := w.sessions.set session kv
      touch := w.touch.set session now })

/- KV_CTRL: an unknown session is ignored. -/
def control
    (op : KvOp)
    (session : Nat)
    (now : ℚ)
    (w : Worker H) :
    Worker H :=
  match op with
  | .free =>
    { sessions := w.sessions.erase session
      touch := w.touch.erase session }
  | .reset =>
    match w.sessions.get? session with
    | none => w
    | some kv =>
      { sessions := w.sessions.set session kv.reset
        touch := w.touch.set session now }
  | .truncate length =>
    match w.sessions.get? session with
    | none => w
    | some kv =>
      { sessions :=
          w.sessions.set session (kv.truncateTo length)
        touch := w.touch.set session now }

/- The reaper: sessions idle past the TTL are dropped. -/
def reap (sessionTtl now : ℚ) (w : Worker H) : Worker H :=
  let stale :=
    (w.touch.entries.filter (fun e =>
      e.2 < now - sessionTtl)).map (·.1)
  { sessions :=
      stale.foldl (fun ss s => ss.erase s) w.sessions
    touch := stale.foldl (fun ts s => ts.erase s) w.touch }

end Worker

end CircuitDllm

------------------------------------------------------------
-- Routes
------------------------------------------------------------

namespace CircuitDllm

/- What the coordinator can raise. -/
inductive CoordError where
  /- WireError or OSError -/
  | wire
  /- a coverage gap, raised by the in-process registry -/
  | mesh (e : MeshError)
  /- a chain route that cannot be encoded -/
  | value
  /- a forward without rows has no last row -/
  | index
deriving DecidableEq, Repr

/- One slice in a session's route. -/
structure RouteHop where
  nodeId : String
  endpoint : Endpoint
  isPublic : Bool := true
  wireKey : Option WireKey := none
deriving DecidableEq, Repr

/- Where routes come from; `P` is the state behind it. -/
structure RouteProvider (P : Type) where
  acquire : Nat → P → Except CoordError (List RouteHop) × P
  release : Nat → P → P
  markSuspect : String → P → P

def Node.toHop (n : Node) : RouteHop :=
  ⟨n.nodeId, n.endpoint, n.isPublic, n.wireKey⟩

/-
  Routes from a registry.  A remote control plane answers a
  coverage gap with an HTTP error, which is an OSError; the
  in-process registry raises it as it is.
-/
def registryProvider
    (remote : Bool) :
    RouteProvider Registry where
  acquire session r :=
    match r.acquireRoute session with
    | (.ok route, r) => (.ok (route.map Node.toHop), r)
    | (.error e, r) =>
      (.error (if remote then .wire else .mesh e), r)
  release := Registry.releaseRoute
  markSuspect := Registry.markSuspect

end CircuitDllm

------------------------------------------------------------
-- The Coordinator
------------------------------------------------------------

namespace CircuitDllm

/- How a network operation ends. -/
inductive Outcome where
  | ok
  /- it raised before the worker acted on the frame -/
  | failBefore
  /- the worker acted on the frame, then it raised -/
  | failAfter
deriving DecidableEq, Repr

/- The warm session of a connection set (pc). -/
structure PrefixCache (Tok : Type) where
  ids : Option (List Tok) := none
  sid : Option Nat := none
  len : Nat := 0

/-
  One request's connections: the static stage list, the
  nodes with an open socket, and the warm session.
-/
structure Conn (Tok : Type) where
  socks : Option (List String) := none
  conns : List String := []
  pc : PrefixCache Tok := {}

/- What does not change while the coordinator runs. -/
structure CoordEnv (Tok H P : Type) where
  embed : Tok → H
  -- argmax of lm_head(norm(hidden)) at one position
  lmHead : H → Tok
  localStage : Option (Stage H) := none
  -- the layers a worker has loaded
  stageOf : String → Stage H
  dynamic : Bool
  -- static mode: the stage workers in order
  stageAddrs : List String := []
  provider : RouteProvider P
  chain : Bool := false
  -- the worker that answers at an endpoint
  listener : Endpoint → Option String := fun _ => none
  pcEnabled : Bool := true
  pcMin : Nat := 16
  sessionPrefix : Nat := 0
  -- the n-th network operation: its end and its time
  outcome : Nat → Outcome
  clock : Nat → ℚ := fun _ => 0

/-
  The coordinator, the workers and the state behind the
  routes.  Connection set 0 is the default one.
-/
structure CoordState (Tok H P : Type) where
  localCaches : Dict Nat (StageKV H) := .empty
  sessionRoutes : Dict Nat (List RouteHop) := .empty
  conn : Nat → Conn Tok := fun _ => {}
  workers : String → Worker H := fun _ => {}
  provider : P
  tick : Nat := 0
  sessionCount : Nat := 0

namespace CoordState

variable {Tok H P : Type}

/- Change one connection set. -/
def modifyConn
    (s : CoordState Tok H P)
    (active : Nat)
    (f : Conn Tok → Conn Tok) :
    CoordState Tok H P :=
  { s with
    conn := Function.update s.conn active (f (s.conn active)) }

/- Change one worker. -/
def modifyWorker
    (s : CoordState Tok H P)
    (nodeId : String)
    (f : Worker H → Worker H) :
    CoordState Tok H P :=
  { s with
    workers :=
      Function.update s.workers nodeId
        (f (s.workers nodeId)) }

/- _drop_conn. -/
def dropConn
    (s : CoordState Tok H P)
    (active : Nat)
    (nodeId : String) :
    CoordState Tok H P :=
  s.modifyConn active (fun c =>
    { c with conns := c.conns.erase nodeId })

/- A socket to the node is open after this. -/
def openConn
    (s : CoordState Tok H P)
    (active : Nat)
    (nodeId : String) :
    CoordState Tok H P :=
  s.modifyConn active (fun c =>
    { c with
      conns :=
        if nodeId ∈ c.conns then c.conns
        else c.conns ++ [nodeId] })

theorem mem_openConn
    (s : CoordState Tok H P)
    {active : Nat}
    {nodeId w : String} :
    w ∈ ((s.openConn active nodeId).conn active).conns ↔
      w = nodeId ∨ w ∈ (s.conn active).conns := by
  unfold openConn modifyConn
  by_cases hMem : nodeId ∈ (s.conn active).conns
  · simp only [Function.update_self, hMem, if_true]
    constructor
    · exact Or.inr
    · rintro (rfl | hW)
      · exact hMem
      · exact hW
  · simp only [Function.update_self, hMem, if_false,
      List.mem_append, List.mem_singleton]
    exact Or.comm

/- The local cache of a session; none is an empty one. -/
def localKv
    (s : CoordState Tok H P)
    (session : Nat) :
    StageKV H :=
  (s.localCaches.get? session).getD []

/- The KV a worker holds for a session. -/
def workerKv
    (s : CoordState Tok H P)
    (nodeId : String)
    (session : Nat) :
    StageKV H :=
  (s.workers nodeId).kv session

end CoordState

end CircuitDllm
