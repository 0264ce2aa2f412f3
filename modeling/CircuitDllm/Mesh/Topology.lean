import CircuitDllm.Lib.Dict
import Mathlib.Data.List.MinMax
import Mathlib.Data.List.Sort
import Mathlib.Data.Prod.Lex
import Mathlib.Data.Rat.Defs
import Mathlib.Algebra.Order.Ring.Rat

/-
  The pipeline mesh (engine/topology.py).

  The layers the coordinator does not hold are cut into
  contiguous slots; nodes hold one slot each.  Every
  operation is a function of the topology; one that may
  raise also returns the topology it leaves behind.

  Main declarations:
    * `Node`, `Slot`, `Topology`
    * `Topology.create`
    * `Topology.register`, `Topology.registerOrchestrator`
    * `Topology.holders`, `Topology.route`
    * `Topology.recordCheck`
-/

------------------------------------------------------------
-- Nodes and Slots
------------------------------------------------------------

namespace CircuitDllm

/- Liveness of a node. -/
inductive NodeState where
  /- registered, still downloading its layers -/
  | joining
  /- serving; the only state new work is routed to -/
  | ready
  /- missed a heartbeat or failed a request -/
  | suspect
  /- stably gone, or evicted -/
  | dead
  /- leaving cleanly -/
  | draining
deriving DecidableEq, Repr

/- Whether a node's compute is proven correct. -/
inductive Trust where
  | probation
  | trusted
deriving DecidableEq, Repr

/- ("host", port). -/
structure Endpoint where
  host : String
  port : Int
deriving DecidableEq, Repr

/- A data-wire key. -/
abbrev WireKey := List UInt8

structure Node where
  nodeId : String
  endpoint : Endpoint
  capacityLayers : Int
  modelFp : String
  isPublic : Bool := true
  region : Option String := none
  payoutWallet : String := ""
  -- holds the head bundle: can run a session's decode loop
  orchestrator : Bool := false
  slot : Option Nat := none
  state : NodeState := .joining
  lastHb : ℚ := 0
  wireKey : Option WireKey := none
  trust : Trust := .probation
  checksPassed : Nat := 0
  strikes : Nat := 0
deriving DecidableEq, Repr

/- The layers [start, stop) and the nodes assigned to them. -/
structure Slot where
  index : Nat
  start : Int
  stop : Int
  holders : List String := []
deriving DecidableEq, Repr

/- What the mesh and its registry can raise. -/
inductive MeshError where
  | numStages
  | coordinatorEnd
  | slotSizes (sizes : List Int) (numStages budget : Int)
  | modelMismatch (node mesh : String)
  | noSlot
  /- prefer_range is no sequence -/
  | preferRange
  | coverageGap (slot : Nat) (start stop : Int)
  | banned (nodeId : String) (banAfter : Int)
  | notAllowed (nodeId : String)
  /- a node id without a UTF-8 form -/
  | nodeIdEncoding (nodeId : String)
deriving DecidableEq, Repr

/- Slots are numbered by their place. -/
structure Topology where
  numLayers : Int
  coordinatorEnd : Int
  modelFp : String
  replication : Int
  deadAfterS : ℚ
  coordinatorRegion : Option String
  routeByLatency : Bool
  rtts : Dict String ℚ
  nodes : Dict String Node
  slots : List Slot
  indexed : slots.map (·.index) = List.range slots.length

end CircuitDllm

------------------------------------------------------------
-- Construction
------------------------------------------------------------

namespace CircuitDllm

/- The arguments of the constructor. -/
structure Layout where
  numLayers : Int
  coordinatorEnd : Int
  numStages : Int
  modelFp : String
  replication : Int := 2
  deadAfterS : ℚ := 30
  coordinatorRegion : Option String := none
  routeByLatency : Bool := false
  slotSizes : Option (List Int) := none
deriving Repr

/- Consecutive slots of the given sizes from `start`. -/
def layoutSlots (start : Int) (index : Nat) :
    List Int → List Slot
| [] => []
| size :: sizes =>
    ⟨index, start, start + size, []⟩ ::
      layoutSlots (start + size) (index + 1) sizes

/- divmod(budget, num_stages), the remainder first. -/
def balancedSizes (budget : Int) (numStages : Nat) :
    List Int :=
  (List.range numStages).map (fun (i : Nat) =>
    budget / numStages +
      if (i : Int) < budget % numStages then 1 else 0)

theorem indexed_layoutSlots
    (start : Int)
    (index : Nat)
    (sizes : List Int) :
    (layoutSlots start index sizes).map (·.index) =
      List.range' index sizes.length := by
  induction sizes generalizing start index with
  | nil => rfl
  | cons size sizes ih =>
      simp [layoutSlots, ih, List.range'_succ]

@[simp] theorem length_layoutSlots
    (start : Int)
    (index : Nat)
    (sizes : List Int) :
    (layoutSlots start index sizes).length =
      sizes.length := by
  induction sizes generalizing start index with
  | nil => rfl
  | cons size sizes ih => simp [layoutSlots, ih]

namespace Topology

/- The sizes of the slots, or what is wrong with them. -/
def sizesOf (l : Layout) : Except MeshError (List Int) :=
  let budget := l.numLayers - l.coordinatorEnd
  if l.numStages < 1 then .error .numStages
  else if ¬ (0 ≤ l.coordinatorEnd ∧
      l.coordinatorEnd < l.numLayers) then
    .error .coordinatorEnd
  else
    match l.slotSizes with
    | none => .ok (balancedSizes budget l.numStages.toNat)
    | some sizes =>
      if (sizes.length : Int) ≠ l.numStages ∨
          sizes.sum ≠ budget ∨ ∃ size ∈ sizes, size < 1 then
        .error (.slotSizes sizes l.numStages budget)
      else .ok sizes

def create (l : Layout) : Except MeshError Topology :=
  match sizesOf l with
  | .error e => .error e
  | .ok sizes =>
    .ok
      { numLayers := l.numLayers
        coordinatorEnd := l.coordinatorEnd
        modelFp := l.modelFp
        replication := l.replication
        deadAfterS := l.deadAfterS
        coordinatorRegion := l.coordinatorRegion
        routeByLatency := l.routeByLatency
        rtts := .empty
        nodes := .empty
        slots := layoutSlots l.coordinatorEnd 0 sizes
        indexed := by
          rw [indexed_layoutSlots, length_layoutSlots,
            List.range_eq_range'] }

/- Change the holders of the slots. -/
def mapHolders
    (t : Topology)
    (f : Slot → List String) :
    Topology :=
  { t with
    slots := t.slots.map (fun s => { s with holders := f s })
    indexed := by
      rw [List.map_map, List.length_map, ← t.indexed]
      rfl }

/- Change one node, if it is in the table. -/
def modifyNode
    (t : Topology)
    (nodeId : String)
    (f : Node → Node) :
    Topology :=
  { t with nodes := t.nodes.modify nodeId f }

end Topology

end CircuitDllm

------------------------------------------------------------
-- Registration and Assignment
------------------------------------------------------------

namespace CircuitDllm

def Slot.size (slot : Slot) : Int :=
  slot.stop - slot.start

/- prefer_range as a registration carries it. -/
inductive PreferRange where
  | layers (start stop : Int)
  /- a sequence that is no pair of layers -/
  | other
  /- no sequence at all: tuple() raises -/
  | malformed
deriving DecidableEq, Repr

/- The range asks for this slot. -/
def PreferRange.names (slot : Slot) : PreferRange → Bool
| .layers start stop => (slot.start, slot.stop) = (start, stop)
| .other => false
| .malformed => false

namespace Topology

/- Drop any prior holding of a node. -/
def dropHolding
    (t : Topology)
    (nodeId : String) :
    Topology :=
  t.mapHolders (fun s => s.holders.erase nodeId)

/-
  Holders committed to a slot: a JOINING node counts, a DEAD
  one does not.
-/
def committedCount (t : Topology) (slot : Slot) : Nat :=
  slot.holders.countP (fun h =>
    match t.nodes.get? h with
    | some n => n.state ≠ .dead
    | none => false)

/- The least-committed slot the node can hold. -/
def pickSlot (t : Topology) (node : Node) : Option Slot :=
  (t.slots.filter (fun s =>
    s.size ≤ node.capacityLayers)).argmin
      (fun s => toLex (t.committedCount s, s.index))

/- The slot it asks to get back if it fits, else that one. -/
def slotFor
    (t : Topology)
    (node : Node)
    (preferRange : Option PreferRange) :
    Option Slot :=
  let preferred :=
    preferRange.bind (fun pr =>
      t.slots.find? (fun s =>
        pr.names s ∧ s.size ≤ node.capacityLayers))
  preferred.orElse (fun _ => t.pickSlot node)

/- The node enters the table and the slot, JOINING. -/
def enroll
    (t : Topology)
    (node : Node)
    (index : Nat)
    (now : ℚ) :
    Topology :=
  let node :=
    { node with
      slot := some index
      state := .joining
      lastHb := now }
  { t with
    nodes := t.nodes.set node.nodeId node }.mapHolders (fun s =>
      if s.index = index then s.holders ++ [node.nodeId]
      else s.holders)

/-
  Admit a node and assign it a slot.  A refusal for capacity
  or for its range comes after its holding was dropped.
-/
def register
    (t : Topology)
    (node : Node)
    (now : ℚ)
    (preferRange : Option PreferRange) :
    Except MeshError Slot × Topology :=
  if node.modelFp ≠ t.modelFp then
    (.error (.modelMismatch node.modelFp t.modelFp), t)
  else
    let t := t.dropHolding node.nodeId
    if preferRange = some .malformed then
      (.error .preferRange, t)
    else
      match t.slotFor node preferRange with
      | none => (.error .noSlot, t)
      | some slot => (.ok slot, t.enroll node slot.index now)

/- Admit a head-only orchestrator: it takes no slot. -/
def registerOrchestrator
    (t : Topology)
    (node : Node)
    (now : ℚ) :
    Except MeshError Unit × Topology :=
  if node.modelFp ≠ t.modelFp then
    (.error (.modelMismatch node.modelFp t.modelFp), t)
  else
    let t := t.dropHolding node.nodeId
    let node :=
      { node with
        slot := none
        orchestrator := true
        state := .joining
        lastHb := now }
    (.ok (),
      { t with nodes := t.nodes.set node.nodeId node })

end Topology

end CircuitDllm

------------------------------------------------------------
-- Health
------------------------------------------------------------

namespace CircuitDllm

namespace Topology

/- Refresh a node's liveness; false for an unknown node. -/
def heartbeat
    (t : Topology)
    (nodeId : String)
    (now : ℚ) :
    Bool × Topology :=
  match t.nodes.get? nodeId with
  | none => (false, t)
  | some n =>
    if n.state = .dead then (false, t)
    else
      (true,
        t.modifyNode nodeId (fun n =>
          { n with
            lastHb := now
            state :=
              if n.state = .suspect then .ready
              else n.state }))

/- The node finished downloading its layers. -/
def markReady (t : Topology) (nodeId : String) : Topology :=
  t.modifyNode nodeId (fun n =>
    if n.state = .joining then { n with state := .ready }
    else n)

/- A request to the node failed. -/
def markSuspect
    (t : Topology)
    (nodeId : String) :
    Topology :=
  t.modifyNode nodeId (fun n =>
    if n.state = .ready then { n with state := .suspect }
    else n)

def drain (t : Topology) (nodeId : String) : Topology :=
  t.modifyNode nodeId (fun n =>
    { n with state := .draining })

/- Silent past dead_after_s. -/
def overdue (t : Topology) (now : ℚ) (n : Node) : Bool :=
  (n.state = .joining ∨ n.state = .ready ∨
      n.state = .suspect) ∧
    t.deadAfterS < now - n.lastHb

/- Mark the overdue nodes DEAD. -/
def reap
    (t : Topology)
    (now : ℚ) :
    List String × Topology :=
  let dead :=
    (t.nodes.values.filter (t.overdue now)).map (·.nodeId)
  (dead,
    { t with
      nodes :=
        t.nodes.mapValues (fun n =>
          if t.overdue now n then { n with state := .dead }
          else n) })

/- Take a node out of the table and of its slot. -/
def remove (t : Topology) (nodeId : String) : Topology :=
  let slot := (t.nodes.get? nodeId).bind (·.slot)
  let t :=
    { t with
      nodes := t.nodes.erase nodeId
      rtts := t.rtts.erase nodeId }
  t.mapHolders (fun s =>
    if some s.index = slot then s.holders.erase nodeId
    else s.holders)

/- Drop nodes that have been DEAD long enough. -/
def purge
    (t : Topology)
    (now : ℚ) :
    List String × Topology :=
  let gone :=
    (t.nodes.entries.filter (fun e =>
      e.2.state = .dead ∧
        2 * t.deadAfterS < now - e.2.lastHb)).map (·.1)
  (gone, gone.foldl remove t)

/- What every removal keeps, a purge keeps. -/
theorem purge_preserves
    (holds : Topology → Prop)
    (hRemove :
      ∀ t nodeId, holds t → holds (t.remove nodeId))
    {t : Topology}
    (hT : holds t)
    (now : ℚ) :
    holds (t.purge now).2 := by
  unfold purge
  apply List.foldlRecOn _ _ hT
  intro t hHolds nodeId _
  exact hRemove t nodeId hHolds

end Topology

end CircuitDllm

------------------------------------------------------------
-- Trust
------------------------------------------------------------

namespace CircuitDllm

/- What a verification result did to a node. -/
inductive CheckAction where
  | promoted
  | evicted
deriving DecidableEq, Repr

namespace Topology

/- Mark a node TRUSTED outright. -/
def setTrusted
    (t : Topology)
    (nodeId : String) :
    Topology :=
  t.modifyNode nodeId (fun n => { n with trust := .trusted })

/- A node after a passed challenge. -/
def passCheck (promoteAfter : Int) (n : Node) : Node :=
  let n :=
    { n with
      checksPassed := n.checksPassed + 1
      strikes := n.strikes - 1 }
  if n.trust ≠ .trusted ∧ promoteAfter ≤ n.checksPassed ∧
      n.strikes = 0 then
    { n with trust := .trusted }
  else n

/- A node after a failed challenge. -/
def failCheck (strikeMax : Int) (n : Node) : Node :=
  let n := { n with strikes := n.strikes + 1 }
  if strikeMax ≤ n.strikes then
    { n with trust := .probation, state := .dead }
  else n

/- Fold one verification result into a node's trust. -/
def recordCheck
    (t : Topology)
    (nodeId : String)
    (ok : Bool)
    (promoteAfter strikeMax : Int) :
    Option CheckAction × Topology :=
  match t.nodes.get? nodeId with
  | none => (none, t)
  | some n =>
    if ok then
      let n' := passCheck promoteAfter n
      (if n.trust ≠ .trusted ∧ n'.trust = .trusted then
          some .promoted
        else none,
        t.modifyNode nodeId (passCheck promoteAfter))
    else
      (if strikeMax ≤ (n.strikes + 1 : Nat) then
          some .evicted
        else none,
        t.modifyNode nodeId (failCheck strikeMax))

end Topology

end CircuitDllm

------------------------------------------------------------
-- Routing
------------------------------------------------------------

namespace CircuitDllm

/- The part of a region label before its first '-'. -/
def continent (region : String) : List Char :=
  region.toList.takeWhile (fun c => c ≠ '-')

/- Coarse RTT between two region labels, in ms. -/
def regionRttEstimate : Option String → Option String → ℚ
| some a, some b =>
    if a = "" ∨ b = "" then 80
    else if a = b then 5
    else if continent a = continent b then 40
    else 150
| _, _ => 80

namespace Topology

/- Record a measured round trip. -/
def setRtt
    (t : Topology)
    (nodeId : String)
    (ms : ℚ) :
    Topology :=
  { t with rtts := t.rtts.set nodeId ms }

/- A measured RTT, else the estimate of the regions. -/
def rtt (t : Topology) (nodeId : String) : ℚ :=
  match t.rtts.get? nodeId with
  | some ms => ms
  | none =>
    regionRttEstimate t.coordinatorRegion
      ((t.nodes.get? nodeId).bind (·.region))

/- Trusted before probation. -/
def trank (n : Node) : Nat :=
  if n.trust = .trusted then 0 else 1

/- The order of a slot's routable holders. -/
def holderLe (t : Topology) (m n : Node) : Prop :=
  if t.routeByLatency then
    toLex (trank m, toLex (t.rtt m.nodeId, -m.lastHb)) ≤
      toLex (trank n, toLex (t.rtt n.nodeId, -n.lastHb))
  else
    toLex (trank m, -m.lastHb) ≤ toLex (trank n, -n.lastHb)

instance (t : Topology) : DecidableRel t.holderLe :=
  fun m n => by
    unfold holderLe
    infer_instance

/- The holders of a slot that are READY. -/
def liveHolders (t : Topology) (slot : Slot) : List Node :=
  slot.holders.filterMap (fun h =>
    (t.nodes.get? h).filter (fun n => n.state = .ready))

/-
  Routable holders of a slot, primary first: trusted ones
  before probation, then the closest or the freshest.
-/
def holders (t : Topology) (slotIndex : Nat) : List Node :=
  match t.slots[slotIndex]? with
  | none => []
  | some slot =>
    (t.liveHolders slot).insertionSort t.holderLe

/- Each slot in order with its routable holders. -/
def routeFrom
    (t : Topology) :
    List Slot → Except MeshError (List (Slot × List Node))
| [] => .ok []
| slot :: slots =>
    let hs := t.holders slot.index
    if hs = [] then
      .error (.coverageGap slot.index slot.start slot.stop)
    else
      match t.routeFrom slots with
      | .error e => .error e
      | .ok plan => .ok ((slot, hs) :: plan)

/- The full pipeline; an uncovered slot is refused. -/
def route
    (t : Topology) :
    Except MeshError (List (Slot × List Node)) :=
  t.routeFrom t.slots

def coverageOk (t : Topology) : Bool :=
  t.slots.all (fun s => t.holders s.index ≠ [])

def underReplicated (t : Topology) : List Slot :=
  t.slots.filter (fun s =>
    ((t.holders s.index).length : Int) < t.replication)

/- Slots needing another holder, uncovered ones first. -/
def rebalanceTargets (t : Topology) : List Slot :=
  t.underReplicated.insertionSort (fun s s' =>
    (t.holders s.index).length ≤
      (t.holders s'.index).length)

end Topology

end CircuitDllm
