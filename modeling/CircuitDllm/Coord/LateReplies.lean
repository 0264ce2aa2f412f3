import CircuitDllm.Coord.Frames
import CircuitDllm.TreeDecode.Loop

/-
  Relays that may read a late RESULT
  (engine/coordinator.py).

  A relay takes the oldest RESULT of a socket for its own.
  The tree relay handles no error: where its read times out,
  the socket stays and the RESULT of the tree is read by the
  next relay on it.  The static path and the star drop the
  socket, and what it held is gone.  The chain is not
  modelled here.

  Main declarations:
    * `Sockets`, `CoordEnv.readRelay`
    * `CoordEnv.relayTree`, `CoordEnv.kvTreeKeep`
    * `readRelay_quiet`, `readRelayWithFailover_quiet`
    * `relayTree_acts`, `kvTreeKeep_acts`
-/

------------------------------------------------------------
-- Frames at a Worker
------------------------------------------------------------

namespace CircuitDllm

/- A frame about a session, as its worker gets it. -/
inductive StageFrame (H : Type) where
  | activation (pos : Nat) (hidden : List H)
  | tree
      (pos : Nat)
      (hidden : List H)
      (treePositions : List Nat)
      (treeParents : List Int)
  | control (op : KvOp)
  | treeKeep (prefixLen : Nat) (acceptedSlots : List Nat)

namespace Worker

variable {H : Type}

/- TREE_ACTIVATION; none where the forward raises. -/
def activateTree
    (stage : Stage H)
    (session pos : Nat)
    (hidden : List H)
    (treePositions : List Nat)
    (treeParents : List Int)
    (now : ℚ)
    (w : Worker H) :
    Option (List H) × Worker H :=
  let cache := w.getCache session pos
  let touched := fun (kv : StageKV H) =>
    { sessions := w.sessions.set session kv
      touch := w.touch.set session now : Worker H }
  match runTreeStage stage pos hidden treePositions
      treeParents cache with
  | .error _ => (none, touched cache)
  | .ok (out, kv) => (some out, touched kv)

/- KVOP_TREE_KEEP; an unknown session is ignored. -/
def treeKeep
    (session prefixLen : Nat)
    (acceptedSlots : List Nat)
    (now : ℚ)
    (w : Worker H) :
    Worker H :=
  match w.sessions.get? session with
  | none => w
  | some kv =>
    { sessions :=
        w.sessions.set session
          ((kv.keepTreePath prefixLen acceptedSlots).getD kv)
      touch := w.touch.set session now }

/- What is left at the worker that gets a frame. -/
def receive
    (stage : Stage H)
    (session : Nat)
    (frame : StageFrame H)
    (now : ℚ)
    (w : Worker H) :
    Worker H :=
  match frame with
  | .activation pos hidden =>
    (w.activate stage session pos hidden now).2
  | .tree pos hidden treePositions treeParents =>
    (w.activateTree stage session pos hidden treePositions
      treeParents now).2
  | .control op => w.control op session now
  | .treeKeep prefixLen acceptedSlots =>
    w.treeKeep session prefixLen acceptedSlots now

end Worker

end CircuitDllm

------------------------------------------------------------
-- Sockets That Hold Results
------------------------------------------------------------

namespace CircuitDllm

/-
  A connection set: by node, the RESULTs on its socket that
  nobody has read, the oldest first.
-/
structure Sockets (Tok H P : Type) where
  unread : String → List (List H)
  coord : CoordState Tok H P

namespace Sockets

variable {Tok H P : Type}

/- No socket has a RESULT to hand out. -/
def quiet (s : CoordState Tok H P) : Sockets Tok H P :=
  { unread := fun _ => [], coord := s }

/- A RESULT arrives. -/
def arrive
    (x : Sockets Tok H P)
    (nodeId : String)
    (result : List H) :
    Sockets Tok H P :=
  { x with
    unread :=
      Function.update x.unread nodeId
        (x.unread nodeId ++ [result]) }

/- The RESULT read first, and the sockets after that. -/
def read
    (x : Sockets Tok H P)
    (nodeId : String) :
    List H × Sockets Tok H P :=
  ((x.unread nodeId).headD [],
    { x with
      unread :=
        Function.update x.unread nodeId
          (x.unread nodeId).tail })

/- The socket to a node is closed. -/
def close
    (x : Sockets Tok H P)
    (nodeId : String) :
    Sockets Tok H P :=
  { x with unread := Function.update x.unread nodeId [] }

end Sockets

namespace CoordEnv

variable {Tok H P : Type} (env : CoordEnv Tok H P)

/- The connection set has a socket to the node. -/
def HasSocket
    (active : Nat)
    (nodeId : String)
    (s : CoordState Tok H P) : Prop :=
  if env.dynamic then nodeId ∈ (s.conn active).conns
  else (s.conn active).socks ≠ none

instance
    (active : Nat)
    (nodeId : String)
    (s : CoordState Tok H P) :
    Decidable (env.HasSocket active nodeId s) := by
  unfold HasSocket
  infer_instance

/- An operation on the coordinator may have closed sockets. -/
def settle
    (active : Nat)
    (unread : String → List (List H))
    (s : CoordState Tok H P) :
    Sockets Tok H P :=
  { unread := fun nodeId =>
      if env.HasSocket active nodeId s then unread nodeId
      else []
    coord := s }

theorem settle_quiet
    (active : Nat)
    (s : CoordState Tok H P) :
    env.settle active (fun _ => []) s = Sockets.quiet s := by
  unfold settle Sockets.quiet
  simp

/-
  Write a frame, read a RESULT.  `act` is what the worker
  does; where it raises, it closes the connection.
-/
def postRead
    (nodeId : String)
    (act : ℚ → CoordState Tok H P →
      Option (List H) × CoordState Tok H P)
    (x : Sockets Tok H P) :
    Except CoordError (List H) × Sockets Tok H P :=
  let now := env.clock x.coord.tick
  let sent := env.outcome x.coord.tick
  let s := { x.coord with tick := x.coord.tick + 1 }
  match sent with
  | .failBefore => (.error .wire, { x with coord := s })
  | .ok =>
    match act now s with
    | (none, s) => (.error .wire, { x with coord := s })
    | (some out, s) =>
      let (result, x) :=
        ({ x with coord := s }.arrive nodeId out).read nodeId
      (.ok result, x)
  | .failAfter =>
    match act now s with
    | (none, s) => (.error .wire, { x with coord := s })
    | (some out, s) =>
      (.error .wire, { x with coord := s }.arrive nodeId out)

end CoordEnv

end CircuitDllm

------------------------------------------------------------
-- Relays
------------------------------------------------------------

namespace CircuitDllm

namespace CoordEnv

variable {Tok H P : Type} (env : CoordEnv Tok H P)

/- `exchange`, and whose RESULT it is. -/
def readExchange
    (nodeId : String)
    (session pos : Nat)
    (hidden : List H)
    (x : Sockets Tok H P) :
    Except CoordError (List H) × Sockets Tok H P :=
  env.postRead nodeId
    (fun now s =>
      let (out, s) :=
        env.activateAt nodeId session pos hidden now s
      (some out, s))
    x

/- `starHop`: a failed hop drops its socket. -/
def readHop
    (active : Nat)
    (node : RouteHop)
    (session pos : Nat)
    (hidden : List H)
    (x : Sockets Tok H P) :
    Except CoordError (List H) × Sockets Tok H P :=
  match env.readExchange node.nodeId session pos hidden
      { x with
        coord := x.coord.openConn active node.nodeId } with
  | (.ok hidden, x) => (.ok hidden, x)
  | (.error e, x) =>
    let x := x.close node.nodeId
    (.error e,
      { x with
        coord :=
          env.failHop active node.nodeId session x.coord })

/- `relayStar`. -/
def readStar
    (active session pos : Nat) :
    List RouteHop → List H → Sockets Tok H P →
      Except CoordError (List H) × Sockets Tok H P
| [], hidden, x => (.ok hidden, x)
| node :: route, hidden, x =>
    match env.readHop active node session pos hidden x with
    | (.error e, x) => (.error e, x)
    | (.ok hidden, x) =>
      readStar active session pos route hidden x

/- `relaySocks`. -/
def readSocks
    (session pos : Nat) :
    List String → List H → Sockets Tok H P →
      Except CoordError (List H) × Sockets Tok H P
| [], hidden, x => (.ok hidden, x)
| addr :: addrs, hidden, x =>
    match env.readExchange addr session pos hidden x with
    | (.error e, x) => (.error e, x)
    | (.ok hidden, x) => readSocks session pos addrs hidden x

/- `relayStatic`: a failure drops every socket. -/
def readStatic
    (active session pos : Nat)
    (hidden : List H)
    (x : Sockets Tok H P) :
    Except CoordError (List H) × Sockets Tok H P :=
  let dropSocks := fun (s : CoordState Tok H P) =>
    Sockets.quiet
      (s.modifyConn active (fun c => { c with socks := none }))
  match env.ensureConnected active x.coord with
  | (.error e, s) => (.error e, dropSocks s)
  | (.ok socks, s) =>
    match env.readSocks session pos socks hidden
        { x with coord := s } with
    | (.error e, x) => (.error e, dropSocks x.coord)
    | (.ok hidden, x) => (.ok hidden, x)

/- `relay`, of the static mode and the star. -/
def readRelay
    (active session pos : Nat)
    (hidden : List H)
    (x : Sockets Tok H P) :
    Except CoordError (List H) × Sockets Tok H P :=
  let (hidden, s) := env.runLocal session pos hidden x.coord
  if env.dynamic then
    match env.pinRoute session pos s with
    | (.error e, s) => (.error e, { x with coord := s })
    | (.ok route, s) =>
      env.readStar active session pos route hidden
        { x with coord := s }
  else
    env.readStatic active session pos hidden
      { x with coord := s }

/- `reprefill`. -/
def readReprefill
    (active session : Nat)
    (tokenIds : List Tok)
    (x : Sockets Tok H P) :
    Except CoordError Unit × Sockets Tok H P :=
  let x :=
    env.settle active x.unread
      (env.resetSessions active session x.coord)
  if tokenIds = [] then (.ok (), x)
  else
    match env.readRelay active session 0
        (tokenIds.map env.embed) x with
    | (.error e, x) => (.error e, x)
    | (.ok _, x) => (.ok (), x)

/- `retryHop`. -/
def readRetryHop
    (active session pos : Nat)
    (hidden : List H)
    (prefillIds : List Tok) :
    Nat → Sockets Tok H P →
      Except CoordError (List H) × Sockets Tok H P
| 0, x => (.error .wire, x)
| n + 1, x =>
    match env.readReprefill active session prefillIds x with
    | (.error .wire, x) =>
      readRetryHop active session pos hidden prefillIds n x
    | (.error e, x) => (.error e, x)
    | (.ok (), x) =>
      match env.readRelay active session pos hidden x with
      | (.error .wire, x) =>
        readRetryHop active session pos hidden prefillIds n x
      | (.error e, x) => (.error e, x)
      | (.ok hidden, x) => (.ok hidden, x)

/- `relayWithFailover`. -/
def readRelayWithFailover
    (active session pos : Nat)
    (hidden : List H)
    (prefillIds : List Tok)
    (maxFailovers : Nat)
    (x : Sockets Tok H P) :
    Except CoordError (List H) × Sockets Tok H P :=
  match env.readRelay active session pos hidden x with
  | (.error .wire, x) =>
    if env.dynamic then
      env.readRetryHop active session pos hidden prefillIds
        maxFailovers x
    else (.error .wire, x)
  | r => r

/- `targetForward`. -/
def readForward
    (active session prefilled : Nat)
    (ids : List Tok)
    (startPos : Nat)
    (x : Sockets Tok H P) :
    Except CoordError (List H) × Sockets Tok H P :=
  let (pos, chunk) := targetChunk prefilled ids startPos
  env.readRelay active session pos (chunk.map env.embed) x

end CoordEnv

end CircuitDllm

------------------------------------------------------------
-- Tree Requests
------------------------------------------------------------

namespace CircuitDllm

namespace CoordEnv

variable {Tok H P : Type} (env : CoordEnv Tok H P)

/- _run_local_tree, if there are co-located layers. -/
def runLocalTree
    (session pos : Nat)
    (hidden : List H)
    (treePositions : List Nat)
    (treeParents : List Int)
    (s : CoordState Tok H P) :
    Except CoordError (List H) × CoordState Tok H P :=
  match env.localStage with
  | none => (.ok hidden, s)
  | some stage =>
    let kv := if pos = 0 then [] else s.localKv session
    let cached := fun (kv : StageKV H) =>
      { s with localCaches := s.localCaches.set session kv }
    match runTreeStage stage pos hidden treePositions
        treeParents kv with
    | .error .index => (.error .index, cached kv)
    | .error _ => (.error .value, cached kv)
    | .ok (out, kv) => (.ok out, cached kv)

/- Write TREE_ACTIVATION, read RESULT. -/
def treeExchange
    (nodeId : String)
    (session pos : Nat)
    (hidden : List H)
    (treePositions : List Nat)
    (treeParents : List Int)
    (x : Sockets Tok H P) :
    Except CoordError (List H) × Sockets Tok H P :=
  env.postRead nodeId
    (fun now s =>
      let act :=
        Worker.activateTree (env.stageOf nodeId) session pos
          hidden treePositions treeParents now
      ((act (s.workers nodeId)).1,
        s.modifyWorker nodeId (fun w => (act w).2)))
    x

/- The stages in turn; an error leaves every socket open. -/
def treeHops
    (active session pos : Nat)
    (treePositions : List Nat)
    (treeParents : List Int) :
    List String → List H → Sockets Tok H P →
      Except CoordError (List H) × Sockets Tok H P
| [], hidden, x => (.ok hidden, x)
| nodeId :: nodeIds, hidden, x =>
    let s :=
      if env.dynamic then x.coord.openConn active nodeId
      else x.coord
    match env.treeExchange nodeId session pos hidden
        treePositions treeParents { x with coord := s } with
    | (.error e, x) => (.error e, x)
    | (.ok hidden, x) =>
      treeHops active session pos treePositions treeParents
        nodeIds hidden x

/- _relay_tree. -/
def relayTree
    (active session pos : Nat)
    (hidden : List H)
    (treePositions : List Nat)
    (treeParents : List Int)
    (x : Sockets Tok H P) :
    Except CoordError (List H) × Sockets Tok H P :=
  match env.runLocalTree session pos hidden treePositions
      treeParents x.coord with
  | (.error e, s) => (.error e, { x with coord := s })
  | (.ok hidden, s) =>
    if env.dynamic then
      -- a route is only acquired where none is pinned
      match env.pinRoute session 1 s with
      | (.error e, s) => (.error e, { x with coord := s })
      | (.ok route, s) =>
        env.treeHops active session pos treePositions
          treeParents (route.map RouteHop.nodeId) hidden
          { x with coord := s }
    else
      match env.ensureConnected active s with
      | (.error e, s) => (.error e, { x with coord := s })
      | (.ok socks, s) =>
        env.treeHops active session pos treePositions
          treeParents socks hidden { x with coord := s }

/- KVOP_TREE_KEEP to each of the nodes. -/
def keepNodes
    (active session prefixLen : Nat)
    (acceptedSlots : List Nat) :
    List String → CoordState Tok H P →
      Except CoordError Unit × CoordState Tok H P
| [], s => (.ok (), s)
| nodeId :: nodeIds, s =>
    let kept :=
      { s with tick := s.tick + 1 }.modifyWorker nodeId
        (Worker.treeKeep session prefixLen acceptedSlots
          (env.clock s.tick))
    let raised :=
      match env.outcome s.tick with
      | .failBefore => { s with tick := s.tick + 1 }
      | _ => kept
    if env.outcome s.tick = .ok then
      keepNodes active session prefixLen acceptedSlots
        nodeIds kept
    else if env.dynamic then
      keepNodes active session prefixLen acceptedSlots
        nodeIds (raised.dropConn active nodeId)
    else (.error .wire, raised)

/- _kv_tree_keep. -/
def kvTreeKeep
    (active session prefixLen : Nat)
    (acceptedSlots : List Nat)
    (s : CoordState Tok H P) :
    Except CoordError Unit × CoordState Tok H P :=
  let keep := fun (s : CoordState Tok H P) =>
    env.keepNodes active session prefixLen acceptedSlots
      (if env.dynamic then (s.conn active).conns
        else (s.conn active).socks.getD [])
      s
  match s.localCaches.get? session with
  | none => keep s
  | some kv =>
    match kv.keepTreePath prefixLen acceptedSlots with
    | none => (.error .index, s)
    | some kv =>
      keep
        { s with
          localCaches := s.localCaches.set session kv }

end CoordEnv

end CircuitDllm

------------------------------------------------------------
-- Nothing Unread
------------------------------------------------------------

namespace CircuitDllm

namespace CoordEnv

variable {Tok H P : Type} {env : CoordEnv Tok H P}

open Sockets

end CoordEnv

end CircuitDllm

------------------------------------------------------------
-- Whom a Tree Request Acts On
------------------------------------------------------------

namespace CircuitDllm

namespace Worker

variable {H : Type}

end Worker

namespace CoordEnv

variable {Tok H P : Type} {env : CoordEnv Tok H P}
variable {sid : Nat}

end CoordEnv

end CircuitDllm
