import CircuitDllm.Mesh.Topology
import Mathlib.Data.String.Basic

/-
  The control service of the mesh (engine/registry.py).

  A registry wraps a topology with admission, bans, load
  accounting, payouts and a state file.  One lock makes
  every operation atomic, so a run of the control plane is
  a sequence of operations: `Registry.step` is one of them
  and `Reachable` the states they lead to.

  Main declarations:
    * `Registry`
    * `Registry.acquireRoute`, `Registry.releaseRoute`
    * `Registry.acquireEntry`
    * `Registry.recordWork`, `Registry.settle`
    * `Registry.step`
-/

------------------------------------------------------------
-- State
------------------------------------------------------------

namespace CircuitDllm

/- What a registry is built with. -/
structure RegistryConfig where
  layout : Layout
  coordinatorEndpoint : Endpoint := ⟨"", 0⟩
  coordinatorWallet : String := ""
  -- none admits everyone
  allowlist : Option (List String) := none
  seedNodes : List String := []
  feeBps : Int := 1000
  banAfter : Int := 3
  -- whether state_path is set
  hasStateFile : Bool := false
  -- derive_node_key(master_secret, node_id); none where the
  -- id cannot be encoded
  deriveNodeKey : String → Option WireKey := fun _ => some []

/- The contents of the state file. -/
structure Saved where
  accrued : Dict String Int
  wallets : Dict String String
  evictionCounts : Dict String Int
  banned : List String
  orchSeq : Nat
deriving Repr

/-
  `load` and `entryLoad` count the sessions on a node;
  `sessionLoad` and `sessionEntry` are their routes.
-/
structure Registry where
  topo : Topology
  accrued : Dict String Int := .empty
  wallets : Dict String String := .empty
  evictionCounts : Dict String Int := .empty
  banned : List String := []
  orchSeq : Nat := 0
  load : Dict String Nat := .empty
  sessionLoad : Dict Nat (List String) := .empty
  entryLoad : Dict String Nat := .empty
  sessionEntry : Dict Nat String := .empty
  -- the state file, and whether writing it works
  file : Option Saved := none
  diskUp : Bool := true

namespace Registry

variable (cfg : RegistryConfig)

/- Write the state file; a failed write is ignored. -/
def saveState (r : Registry) : Registry :=
  if cfg.hasStateFile ∧ r.diskUp then
    { r with
      file :=
        some
          { accrued := r.accrued
            wallets := r.wallets
            evictionCounts := r.evictionCounts
            banned := r.banned
            orchSeq := r.orchSeq } }
  else r

/- A new process: the state file is all that survives. -/
def restart (r : Registry) : Except MeshError Registry :=
  match Topology.create cfg.layout with
  | .error e => .error e
  | .ok topo =>
    match (if cfg.hasStateFile then r.file else none) with
    | none =>
      .ok { topo := topo, file := r.file, diskUp := r.diskUp }
    | some saved =>
      .ok
        { topo := topo
          accrued := saved.accrued
          wallets := saved.wallets
          evictionCounts := saved.evictionCounts
          banned := saved.banned
          orchSeq := saved.orchSeq
          file := r.file
          diskUp := r.diskUp }

/- The registry of a first start, without a state file. -/
def create : Except MeshError Registry :=
  match Topology.create cfg.layout with
  | .error e => .error e
  | .ok topo => .ok { topo := topo }

variable {cfg}

/- A first start has its topology, and nothing else. -/
theorem create_ok
    {r : Registry}
    (hCreate : create cfg = .ok r) :
    ∃ topo,
      Topology.create cfg.layout = .ok topo ∧
        r = { topo := topo } := by
  unfold create at hCreate
  split at hCreate
  · cases hCreate
  · rename_i topo hTopo
    cases hCreate
    exact ⟨topo, hTopo, rfl⟩

/- A restart lays the topology anew and forgets sessions. -/
theorem restart_ok
    {r r' : Registry}
    (hRestart : r.restart cfg = .ok r') :
    Topology.create cfg.layout = .ok r'.topo ∧
      r'.load = .empty ∧ r'.sessionLoad = .empty ∧
      r'.entryLoad = .empty ∧ r'.sessionEntry = .empty := by
  unfold restart at hRestart
  split at hRestart
  · cases hRestart
  · rename_i topo hTopo
    split at hRestart
    · cases hRestart
      exact ⟨hTopo, rfl, rfl, rfl, rfl⟩
    · cases hRestart
      exact ⟨hTopo, rfl, rfl, rfl, rfl⟩

end Registry

end CircuitDllm

------------------------------------------------------------
-- Admission and Liveness
------------------------------------------------------------

namespace CircuitDllm

/- The answer to a registration. -/
structure Admission where
  assignment : Option (Int × Int)
  orchIndex : Option Nat
  modelFp : String
  sessionKey : WireKey
  coordinator : Endpoint
  replication : Int
deriving DecidableEq, Repr

namespace Registry

variable (cfg : RegistryConfig)

/-
  The end of every admission: trust seed, key and wallet.  A
  key that cannot be derived raises after the node entered.
-/
def grant
    (node : Node)
    (assignment : Option (Int × Int))
    (orchIndex : Option Nat)
    (r : Registry) :
    Except MeshError Admission × Registry :=
  let topo :=
    if node.nodeId ∈ cfg.seedNodes then
      r.topo.setTrusted node.nodeId
    else r.topo
  match cfg.deriveNodeKey node.nodeId with
  | none =>
    (.error (.nodeIdEncoding node.nodeId),
      { r with topo := topo })
  | some key =>
    let topo :=
      topo.modifyNode node.nodeId (fun n =>
        { n with wireKey := some key })
    (.ok
        ⟨assignment, orchIndex, topo.modelFp, key,
          cfg.coordinatorEndpoint, topo.replication⟩,
      saveState cfg
        { r with
          topo := topo
          wallets :=
            r.wallets.set node.nodeId node.payoutWallet })

/- Register a node: a holder, or a head-only orchestrator. -/
def register
    (node : Node)
    (now : ℚ)
    (preferRange : Option PreferRange)
    (r : Registry) :
    Except MeshError Admission × Registry :=
  if node.nodeId ∈ r.banned then
    (.error (.banned node.nodeId cfg.banAfter), r)
  else if ∃ allowed ∈ cfg.allowlist,
      node.nodeId ∉ allowed then
    (.error (.notAllowed node.nodeId), r)
  else if node.orchestrator then
    match r.topo.registerOrchestrator node now with
    | (.error e, topo) =>
      (.error e, { r with topo := topo })
    | (.ok (), topo) =>
      grant cfg node none (some (r.orchSeq % 2 ^ 15))
        { r with
          topo := topo
          orchSeq := r.orchSeq + 1 }
  else
    match r.topo.register node now preferRange with
    | (.error e, topo) =>
      (.error e, { r with topo := topo })
    | (.ok slot, topo) =>
      grant cfg node (some (slot.start, slot.stop)) none
        { r with topo := topo }

def heartbeat
    (nodeId : String)
    (now : ℚ)
    (r : Registry) :
    Bool × Registry :=
  let (known, topo) := r.topo.heartbeat nodeId now
  (known, { r with topo := topo })

def drain (nodeId : String) (r : Registry) : Registry :=
  { r with topo := r.topo.drain nodeId }

def markReady (nodeId : String) (r : Registry) : Registry :=
  { r with topo := r.topo.markReady nodeId }

def markSuspect
    (nodeId : String)
    (r : Registry) :
    Registry :=
  { r with topo := r.topo.markSuspect nodeId }

def setTrusted (nodeId : String) (r : Registry) : Registry :=
  { r with topo := r.topo.setTrusted nodeId }

def setRtt
    (nodeId : String)
    (ms : ℚ)
    (r : Registry) :
    Registry :=
  { r with topo := r.topo.setRtt nodeId ms }

/- After ban_after evictions a node is banned. -/
def recordCheck
    (nodeId : String)
    (ok : Bool)
    (promoteAfter strikeMax : Int)
    (r : Registry) :
    Option CheckAction × Registry :=
  let (action, topo) :=
    r.topo.recordCheck nodeId ok promoteAfter strikeMax
  let r := { r with topo := topo }
  if action = some .evicted then
    let count :=
      (r.evictionCounts.get? nodeId).getD 0 + 1
    (action,
      saveState cfg
        { r with
          evictionCounts := r.evictionCounts.set nodeId count
          banned :=
            if cfg.banAfter ≤ count ∧ nodeId ∉ r.banned then
              r.banned ++ [nodeId]
            else r.banned })
  else (action, r)

/- A slot needing holders, as tick() reports it. -/
structure SlotNeed where
  slot : Nat
  start : Int
  stop : Int
  have_ : Nat
  want : Int
deriving DecidableEq, Repr

/- What tick() returns. -/
structure TickReport where
  reaped : List String
  purged : List String
  needsHolders : List SlotNeed
  coverageOk : Bool
deriving DecidableEq, Repr

/- Reap, purge and report. -/
def tick (now : ℚ) (r : Registry) : TickReport × Registry :=
  let (reaped, topo) := r.topo.reap now
  let (purged, topo) := topo.purge now
  (⟨reaped, purged,
      topo.rebalanceTargets.map (fun s =>
        ⟨s.index, s.start, s.stop,
          (topo.holders s.index).length, topo.replication⟩),
      topo.coverageOk⟩,
    { r with topo := topo })

/- The probation nodes to challenge, with a reference. -/
def auditPairs (r : Registry) : List (String × String × Nat) :=
  r.topo.slots.flatMap (fun slot =>
    let hs := r.topo.holders slot.index
    match hs.filter (fun n => n.trust = .trusted) with
    | [] => []
    | ref :: _ =>
      (hs.filter (fun n => n.trust = .probation)).map
        (fun p => (p.nodeId, ref.nodeId, slot.index)))

end Registry

end CircuitDllm

------------------------------------------------------------
-- Session Routing
------------------------------------------------------------

namespace CircuitDllm

/- One more session on a node. -/
def addLoad
    (load : Dict String Nat)
    (nodeId : String) :
    Dict String Nat :=
  load.set nodeId ((load.get? nodeId).getD 0 + 1)

/- One session less; a count of zero is dropped. -/
def dropLoad
    (load : Dict String Nat)
    (nodeId : String) :
    Dict String Nat :=
  let c := (load.get? nodeId).getD 0 - 1
  if 0 < c then load.set nodeId c else load.erase nodeId

namespace Registry

/- The sessions on a node. -/
def loadOf (r : Registry) (n : Node) : Nat :=
  (r.load.get? n.nodeId).getD 0

/- The PRIMARY healthy holder of each slot. -/
def routeSnapshot (r : Registry) : Except MeshError (List Node) :=
  r.topo.route.map (fun plan =>
    plan.filterMap (fun p => p.2.head?))

/-
  min(range(len(holders)), key=(load, j)): the first of the
  least-loaded holders.
-/
def leastLoaded
    (r : Registry)
    (holders : List Node) :
    Option Node :=
  holders.argmin r.loadOf

/-
  The holder of one slot: the pinned one while it is
  routable, else the least-loaded one.
-/
def pickHolder
    (r : Registry)
    (pin : Option String)
    (holders : List Node) :
    Option Node :=
  match pin.bind (fun nodeId =>
      holders.find? (fun h => h.nodeId = nodeId)) with
  | some h => some h
  | none => r.leastLoaded holders

/- The holders of all slots, given the pins in slot order. -/
def pickRoute
    (r : Registry) :
    List (Slot × List Node) → List String → List Node
| [], _ => []
| (_, holders) :: plan, pinned =>
    (r.pickHolder pinned.head? holders).toList ++
      r.pickRoute plan pinned.tail

/-
  A route for a session.  A new session is spread over the
  least-loaded holders; an existing one keeps its routable
  pins.  Loads follow the nodes gained and lost.
-/
def acquireRoute
    (session : Nat)
    (r : Registry) :
    Except MeshError (List Node) × Registry :=
  match r.topo.route with
  | .error e => (.error e, r)
  | .ok plan =>
    match r.sessionLoad.get? session with
    | none =>
      let route := r.pickRoute plan []
      let ids := route.map (·.nodeId)
      (.ok route,
        { r with
          load := ids.foldl addLoad r.load
          sessionLoad := r.sessionLoad.set session ids })
    | some pinned =>
      let route := r.pickRoute plan pinned
      let ids := route.map (·.nodeId)
      let lost := pinned.dedup.filter (fun i => i ∉ ids)
      let gained := ids.dedup.filter (fun i => i ∉ pinned)
      (.ok route,
        { r with
          load :=
            gained.foldl addLoad (lost.foldl dropLoad r.load)
          sessionLoad := r.sessionLoad.set session ids })

/- Free a session's load; unknown sessions are ignored. -/
def releaseRoute (session : Nat) (r : Registry) : Registry :=
  { r with
    load :=
      ((r.sessionLoad.get? session).getD []).foldl dropLoad
        r.load
    sessionLoad := r.sessionLoad.erase session }

/- Free a session's entry load. -/
def releaseEntry (session : Nat) (r : Registry) : Registry :=
  match r.sessionEntry.get? session with
  | none => r
  | some nodeId =>
    { r with
      entryLoad := dropLoad r.entryLoad nodeId
      sessionEntry := r.sessionEntry.erase session }

/- The least-loaded READY orchestrator, if there is one. -/
def acquireEntry
    (session : Nat)
    (r : Registry) :
    Option Node × Registry :=
  let r := r.releaseEntry session
  let cands :=
    r.topo.nodes.values.filter (fun n =>
      n.orchestrator ∧ n.state = .ready)
  match cands.argmin (fun n =>
      toLex ((r.entryLoad.get? n.nodeId).getD 0, n.nodeId)) with
  | none => (none, r)
  | some pick =>
    (some pick,
      { r with
        entryLoad := addLoad r.entryLoad pick.nodeId
        sessionEntry :=
          r.sessionEntry.set session pick.nodeId })

end Registry

end CircuitDllm

------------------------------------------------------------
-- Attribution and Payout
------------------------------------------------------------

namespace CircuitDllm

namespace Registry

variable (cfg : RegistryConfig)

/-
  The shares of a pool by weight; the last server gets what
  is left.
-/
def shares (pool total assigned : Int) :
    List (String × Int) → List (String × Int)
| [] => []
| [(nid, _)] => [(nid, pool - assigned)]
| (nid, w) :: rest =>
    let share := pool * w / total
    (nid, share) :: shares pool total (assigned + share) rest

/- Split what one request paid, minus the fee. -/
def recordWork
    (route : List (String × Int × Int))
    (paidRaw : Int)
    (r : Registry) :
    Registry :=
  let fee := paidRaw * cfg.feeBps / 10000
  let pool := paidRaw - fee
  let weights := route.map (fun e => (e.1, e.2.1 * e.2.2))
  let total := (weights.map (·.2)).sum
  if total ≤ 0 then r
  else
    saveState cfg
      { r with
        accrued :=
          (shares pool total 0 weights).foldl
            (fun accrued e =>
              accrued.set e.1
                ((accrued.get? e.1).getD 0 + e.2))
            r.accrued }

/- The wallet a node is paid to, if it declared one. -/
def walletOf (r : Registry) (nodeId : String) :
    Option String :=
  (r.wallets.get? nodeId).filter (fun w => w ≠ "")

/- Pay out the balances that reach the threshold. -/
def settle
    (minPayoutRaw : Int)
    (r : Registry) :
    List (String × Int) × Registry :=
  let due :=
    r.accrued.entries.filterMap (fun e =>
      if minPayoutRaw ≤ e.2 then
        (r.walletOf e.1).map (fun w => (e.1, w, e.2))
      else none)
  (due.map (·.2),
    saveState cfg
      { r with
        accrued :=
          due.foldl (fun accrued e => accrued.set e.1 0)
            r.accrued })

/- The READY nodes with a wallet, the coordinator first. -/
def payoutEligible
    (r : Registry) :
    List (String × String × Trust) :=
  (if cfg.coordinatorWallet = "" then []
    else [("coordinator", cfg.coordinatorWallet, .trusted)]) ++
  r.topo.nodes.entries.filterMap (fun e =>
    if e.2.state = .ready then
      (r.walletOf e.1).map (fun w => (e.1, w, e.2.trust))
    else none)

end Registry

end CircuitDllm

------------------------------------------------------------
-- Runs of the Control Plane
------------------------------------------------------------

namespace CircuitDllm

/- The operations on a registry that change it. -/
inductive RegistryOp where
  | register
      (node : Node)
      (now : ℚ)
      (preferRange : Option PreferRange)
  | heartbeat (nodeId : String) (now : ℚ)
  | drain (nodeId : String)
  | markReady (nodeId : String)
  | markSuspect (nodeId : String)
  | setTrusted (nodeId : String)
  | setRtt (nodeId : String) (ms : ℚ)
  | recordCheck
      (nodeId : String)
      (ok : Bool)
      (promoteAfter strikeMax : Int)
  | tick (now : ℚ)
  | acquireRoute (session : Nat)
  | releaseRoute (session : Nat)
  | acquireEntry (session : Nat)
  | releaseEntry (session : Nat)
  | recordWork
      (route : List (String × Int × Int))
      (paidRaw : Int)
  | settle (minPayoutRaw : Int)
  -- a new control-plane process on the same state file
  | restart
  -- writing the state file starts to work, or to fail
  | disk (up : Bool)

namespace Registry

variable (cfg : RegistryConfig)

/- The state an operation leaves, whether it raised or not. -/
def step (r : Registry) : RegistryOp → Registry
| .register node now preferRange =>
    (r.register cfg node now preferRange).2
| .heartbeat nodeId now => (r.heartbeat nodeId now).2
| .drain nodeId => r.drain nodeId
| .markReady nodeId => r.markReady nodeId
| .markSuspect nodeId => r.markSuspect nodeId
| .setTrusted nodeId => r.setTrusted nodeId
| .setRtt nodeId ms => r.setRtt nodeId ms
| .recordCheck nodeId ok promoteAfter strikeMax =>
    (r.recordCheck cfg nodeId ok promoteAfter strikeMax).2
| .tick now => (r.tick now).2
| .acquireRoute session => (r.acquireRoute session).2
| .releaseRoute session => r.releaseRoute session
| .acquireEntry session => (r.acquireEntry session).2
| .releaseEntry session => r.releaseEntry session
| .recordWork route paidRaw => r.recordWork cfg route paidRaw
| .settle minPayoutRaw => (r.settle cfg minPayoutRaw).2
| .restart =>
    match r.restart cfg with
    | .error _ => r
    | .ok r' => r'
| .disk up => { r with diskUp := up }

/- The state after a sequence of operations. -/
def run (r : Registry) (ops : List RegistryOp) : Registry :=
  ops.foldl (step cfg) r

/- A state some control plane can be in. -/
def Reachable (r : Registry) : Prop :=
  ∃ r₀ ops, create cfg = .ok r₀ ∧ r = r₀.run cfg ops

end Registry

end CircuitDllm
