import CircuitDllm.Mesh.Layers
import CircuitDllm.Mesh.Representation

/-
  A worker's control client and its control planes
  (engine/stage_worker.py, run_control_client).

  A node id has at most one worker process at a time.  Its
  main thread registers on the first control plane, mirrors
  the slot it was given to the others, loads it and serves;
  a second thread sends heartbeats to all of them.  Requests
  travel on their own: one may be handled late or never, and
  its answer may be lost.

  Main declarations:
    * `Cluster.Request`, `Cluster.Plane.handle`
    * `Cluster.Process`, `Cluster.Process.resume`
    * `Cluster`, `Cluster.step`
    * `Cluster.Sound`, `Cluster.sound_run`
-/

------------------------------------------------------------
-- Requests
------------------------------------------------------------

namespace CircuitDllm

namespace Cluster

/- What a worker says of itself in /register. -/
structure Body where
  endpoint : Endpoint
  capacityLayers : Int
  modelFp : String
  isPublic : Bool := true
  region : String := ""
  payoutWallet : String := ""
deriving DecidableEq, Repr

/- The node the control server makes of it. -/
def Body.toNode (nodeId : String) (body : Body) : Node where
  nodeId := nodeId
  endpoint := body.endpoint
  capacityLayers := body.capacityLayers
  modelFp := body.modelFp
  isPublic := body.isPublic
  region := if body.region = "" then none else some body.region
  payoutWallet := body.payoutWallet
  orchestrator := false

/- A request to a control plane. -/
inductive Request where
  | register
      (body : Body)
      (loadedLayers : Option (Int × Int))
  | ready
  | heartbeat
  | drain
deriving DecidableEq, Repr

/- What comes back. -/
inductive Answer where
  | assignment (layers : Option (Int × Int))
  | registered (known : Bool)
  | ok
  /- a 4xx, on which the client raises -/
  | refused
deriving DecidableEq, Repr

/- A control plane. -/
structure Plane where
  cfg : RegistryConfig
  registry : Registry

/- A POST of node `h` (do_POST of the control server). -/
def Plane.handle
    (h : String)
    (now : ℚ)
    (plane : Plane) :
    Request → Answer × Plane
| .register body loadedLayers =>
    match plane.registry.register plane.cfg (body.toNode h) now
        (loadedLayers.map (fun r => .layers r.1 r.2)) with
    | (.error _, r) => (.refused, { plane with registry := r })
    | (.ok resp, r) =>
      (.assignment resp.assignment,
        { plane with registry := r })
| .ready =>
    (.ok,
      { plane with registry := plane.registry.markReady h })
| .heartbeat =>
    let (known, r) := plane.registry.heartbeat h now
    (.registered known, { plane with registry := r })
| .drain =>
    (.ok, { plane with registry := plane.registry.drain h })

/- The registry's operation behind a request. -/
def Request.op (h : String) (now : ℚ) : Request → RegistryOp
| .register body loadedLayers =>
    .register (body.toNode h) now
      (loadedLayers.map (fun r => .layers r.1 r.2))
| .ready => .markReady h
| .heartbeat => .heartbeat h now
| .drain => .drain h

/- A request is one operation on the registry. -/
theorem Plane.handle_snd
    (h : String)
    (now : ℚ)
    (plane : Plane)
    (request : Request) :
    (plane.handle h now request).2 =
      { plane with
        registry :=
          plane.registry.step plane.cfg (request.op h now) } := by
  cases request with
  | register body loadedLayers =>
      simp only [handle, Request.op, Registry.step]
      split
      · rename_i hRegister
        rw [hRegister]
      · rename_i hRegister
        rw [hRegister]
  | ready => rfl
  | heartbeat => rfl
  | drain => rfl

end Cluster

end CircuitDllm

------------------------------------------------------------
-- The Client
------------------------------------------------------------

namespace CircuitDllm

namespace Cluster

/- The threads of a worker that post. -/
inductive Thread where
  | main
  /- _heartbeat -/
  | beat
deriving DecidableEq, Repr

/- A request a thread has still to post, and to whom. -/
inductive Task where
  /- the /register of _register_standby -/
  | standby (plane : Nat)
  | ready (plane : Nat)
  | heartbeat (plane : Nat)
  | drain (plane : Nat)
deriving DecidableEq, Repr

def Task.plane : Task → Nat
| .standby plane => plane
| .ready plane => plane
| .heartbeat plane => plane
| .drain plane => plane

def Task.request
    (body : Body)
    (layers : Int × Int) :
    Task → Request
| .standby _ => .register body (some layers)
| .ready _ => .ready
| .heartbeat _ => .heartbeat
| .drain _ => .drain

/-
  What a task leads to: a mirrored slot is announced READY,
  a node that was forgotten is registered again.
-/
def Task.after (answer : Option Answer) : Task → List Task
| .standby plane =>
    match answer with
    | some (.assignment _) => [.ready plane]
    | _ => []
| .heartbeat plane =>
    match answer with
    | some (.registered false) => [.standby plane]
    | _ => []
| .ready _ => []
| .drain _ => []

/- How far the main thread has come, with [start, end). -/
inductive Phase where
  /- _do_register -/
  | registering
  /- mirrors its slot, then loads it -/
  | joined (layers : Int × Int)
  | serving (layers : Int × Int)
  | leaving (layers : Int × Int)
deriving DecidableEq, Repr

def Phase.layers? : Phase → Option (Int × Int)
| .registering => none
| .joined layers => some layers
| .serving layers => some layers
| .leaving layers => some layers

/- What a thread has still to post, and the call it is in. -/
structure Posting where
  tasks : List Task := []
  call : Option Nat := none
deriving DecidableEq, Repr

/- A worker process. -/
structure Process where
  body : Body
  phase : Phase := .registering
  main : Posting := {}
  beat : Posting := {}
deriving DecidableEq, Repr

namespace Process

def posting (p : Process) : Thread → Posting
| .main => p.main
| .beat => p.beat

def setPosting
    (p : Process)
    (thread : Thread)
    (posting : Posting) :
    Process :=
  match thread with
  | .main => { p with main := posting }
  | .beat => { p with beat := posting }

@[simp] theorem setPosting_phase
    (p : Process)
    (thread : Thread)
    (posting : Posting) :
    (p.setPosting thread posting).phase = p.phase := by
  cases thread <;> rfl

@[simp] theorem setPosting_body
    (p : Process)
    (thread : Thread)
    (posting : Posting) :
    (p.setPosting thread posting).body = p.body := by
  cases thread <;> rfl

theorem posting_setPosting
    (p : Process)
    (thread thread' : Thread)
    (posting : Posting) :
    (p.setPosting thread posting).posting thread' =
      if thread = thread' then posting
      else p.posting thread' := by
  cases thread <;> cases thread' <;> rfl

/- The next request of a thread, and to which plane. -/
def next (p : Process) (thread : Thread) :
    Option (Nat × Request) :=
  match p.phase.layers? with
  | none =>
    match thread with
    | .main => some (0, .register p.body none)
    | .beat => none
  | some layers =>
    (p.posting thread).tasks.head?.map (fun task =>
      (task.plane, task.request p.body layers))

/-
  A call returned, or it raised.  A registration that is
  refused ends the process, one that raises is tried again.
-/
def resume
    (numPlanes : Nat)
    (thread : Thread)
    (answer : Option Answer)
    (p : Process) :
    Option Process :=
  match p.phase.layers? with
  | none =>
    match answer with
    | some (.assignment (some layers)) =>
      some
        { p with
          phase := .joined layers
          main :=
            { tasks := (List.range numPlanes).tail.map .standby } }
    | some _ => none
    | none => some (p.setPosting thread {})
  | some _ =>
    match (p.posting thread).tasks with
    | [] => some (p.setPosting thread {})
    | task :: tasks =>
      some
        (p.setPosting thread
          { tasks := task.after answer ++ tasks })

/- Only an assignment moves a process on from registering. -/
theorem resume_cases
    {numPlanes : Nat}
    {thread : Thread}
    {answer : Option Answer}
    {p p' : Process}
    (hResume : p.resume numPlanes thread answer = some p') :
    p'.body = p.body ∧
      ((∃ posting, p' = p.setPosting thread posting ∧
          posting.call = none) ∨
        ∃ layers,
          answer = some (.assignment (some layers)) ∧
            p.phase.layers? = none ∧
              p'.phase = .joined layers) := by
  unfold resume at hResume
  split at hResume
  · rename_i hNone
    split at hResume
    · rename_i layers
      cases hResume
      exact ⟨rfl, .inr ⟨layers, rfl, hNone, rfl⟩⟩
    · cases hResume
    · cases hResume
      exact ⟨by simp, .inl ⟨_, rfl, rfl⟩⟩
  · split at hResume
    · cases hResume
      exact ⟨by simp, .inl ⟨_, rfl, rfl⟩⟩
    · cases hResume
      exact ⟨by simp, .inl ⟨_, rfl, rfl⟩⟩

/- The slot is loaded: the port is open. -/
def listen (numPlanes : Nat) (p : Process) : Process :=
  match p.phase with
  | .joined layers =>
    if p.main = {} then
      { p with
        phase := .serving layers
        main := { tasks := (List.range numPlanes).map .ready } }
    else p
  | _ => p

theorem listen_cases (numPlanes : Nat) (p : Process) :
    p.listen numPlanes = p ∨
      ∃ layers, p.phase = .joined layers ∧
        p.listen numPlanes =
          { p with
            phase := .serving layers
            main :=
              { tasks := (List.range numPlanes).map .ready } } := by
  unfold listen
  split
  · rename_i layers hPhase
    split
    · exact .inr ⟨layers, hPhase, rfl⟩
    · exact .inl rfl
  · exact .inl rfl

/- Heartbeats are sent once the slot is mirrored. -/
def beats (p : Process) : Bool :=
  match p.phase with
  | .registering => false
  | .joined _ => p.main = {}
  | .serving _ => true
  | .leaving _ => false

/- One more round of the heartbeat thread. -/
def round (numPlanes : Nat) (p : Process) : Process :=
  if p.beats ∧ p.beat = {} then
    { p with
      beat :=
        { tasks := (List.range numPlanes).map .heartbeat } }
  else p

/- A process that has heartbeats to send has its layers. -/
theorem round_cases (numPlanes : Nat) (p : Process) :
    p.round numPlanes = p ∨
      (∃ layers, p.phase.layers? = some layers) ∧
        p.round numPlanes =
          { p with
            beat :=
              { tasks :=
                  (List.range numPlanes).map .heartbeat } } := by
  unfold round
  split
  · rename_i hBeats
    refine .inr ⟨?_, rfl⟩
    cases hPhase : p.phase with
    | registering => simp [beats, hPhase] at hBeats
    | joined layers => exact ⟨layers, rfl⟩
    | serving layers => exact ⟨layers, rfl⟩
    | leaving layers => exact ⟨layers, rfl⟩
  · exact .inl rfl

/- serve() ended: drain from every control plane. -/
def stop (numPlanes : Nat) (p : Process) : Process :=
  match p.phase with
  | .joined layers =>
    if p.main = {} then
      { p with
        phase := .leaving layers
        main := { tasks := (List.range numPlanes).map .drain } }
    else p
  | .serving layers =>
    { p with
      phase := .leaving layers
      main := { tasks := (List.range numPlanes).map .drain } }
  | _ => p

theorem stop_cases (numPlanes : Nat) (p : Process) :
    p.stop numPlanes = p ∨
      ∃ layers, p.phase.layers? = some layers ∧
        p.stop numPlanes =
          { p with
            phase := .leaving layers
            main :=
              { tasks := (List.range numPlanes).map .drain } } := by
  unfold stop
  split
  · rename_i layers hPhase
    split
    · exact .inr ⟨layers, by simp [hPhase, Phase.layers?], rfl⟩
    · exact .inl rfl
  · rename_i layers hPhase
    exact .inr ⟨layers, by simp [hPhase, Phase.layers?], rfl⟩
  · exact .inl rfl

end Process

end Cluster

end CircuitDllm

------------------------------------------------------------
-- The Cluster
------------------------------------------------------------

namespace CircuitDllm

namespace Cluster

/- A request under way, and the call that waits for it. -/
structure Packet where
  thread : Thread
  call : Nat
  plane : Nat
  request : Request
deriving DecidableEq, Repr

end Cluster

/-
  The control planes, the active one first, and the worker
  process of one node id.
-/
structure Cluster where
  planes : List Cluster.Plane
  process : Option Cluster.Process := none
  wire : List Cluster.Packet := []
  calls : Nat := 0

namespace Cluster

inductive Event where
  /- a new worker process; the one before is gone -/
  | start (body : Body)
  | post (thread : Thread)
  /- the i-th request under way reaches its plane -/
  | handle (i : Nat) (now : ℚ) (answered : Bool)
  | lose (i : Nat)
  /- the call a thread is in raises -/
  | giveUp (thread : Thread)
  | listen
  | round
  | stop
  | kill
  /- anything else that happens at a plane -/
  | control (plane : Nat) (op : RegistryOp)

/- The operation registers node `h`. -/
def registers (h : String) : RegistryOp → Bool
| .register node _ _ => node.nodeId = h
| _ => false

/- A thread posts its next request. -/
def post (thread : Thread) (s : Cluster) : Cluster :=
  match s.process with
  | none => s
  | some p =>
    if (p.posting thread).call.isSome then s
    else
      match p.next thread with
      | none => s
      | some (plane, request) =>
        { s with
          process :=
            some
              (p.setPosting thread
                { p.posting thread with call := some s.calls })
          wire := s.wire ++ [⟨thread, s.calls, plane, request⟩]
          calls := s.calls + 1 }

/- The answer reaches the thread if it still waits for it. -/
def answer
    (packet : Packet)
    (a : Answer)
    (s : Cluster) :
    Cluster :=
  match s.process with
  | none => s
  | some p =>
    if (p.posting packet.thread).call = some packet.call then
      { s with
        process :=
          p.resume s.planes.length packet.thread (some a) }
    else s

/- A plane handles a request. -/
def handle
    (h : String)
    (i : Nat)
    (now : ℚ)
    (answered : Bool)
    (s : Cluster) :
    Cluster :=
  match s.wire[i]? with
  | none => s
  | some packet =>
    let s := { s with wire := s.wire.eraseIdx i }
    match s.planes[packet.plane]? with
    | none => s
    | some plane =>
      let (a, plane) := plane.handle h now packet.request
      let s :=
        { s with planes := s.planes.set packet.plane plane }
      if answered then s.answer packet a else s

/- A call raises: a timeout, a refused connection. -/
def giveUp (thread : Thread) (s : Cluster) : Cluster :=
  match s.process with
  | none => s
  | some p =>
    if (p.posting thread).call.isSome then
      { s with
        process := p.resume s.planes.length thread none }
    else s

def onProcess
    (f : Nat → Process → Process)
    (s : Cluster) :
    Cluster :=
  { s with process := s.process.map (f s.planes.length) }

/- Only the worker registers under its id. -/
def step (h : String) (s : Cluster) : Event → Cluster
| .start body => { s with process := some { body := body } }
| .post thread => s.post thread
| .handle i now answered => s.handle h i now answered
| .lose i => { s with wire := s.wire.eraseIdx i }
| .giveUp thread => s.giveUp thread
| .listen => s.onProcess Process.listen
| .round => s.onProcess Process.round
| .stop => s.onProcess Process.stop
| .kill => { s with process := none }
| .control k op =>
    if registers h op then s
    else
      { s with
        planes :=
          s.planes.modify k (fun plane =>
            { plane with
              registry := plane.registry.step plane.cfg op }) }

def run (h : String) (s : Cluster) (es : List Event) : Cluster :=
  es.foldl (step h) s

/- Control planes of one layout and secret, just started. -/
def Started
    (l : Layout)
    (derive : String → Option WireKey)
    (planes : List Plane) : Prop :=
  ∀ plane ∈ planes,
    plane.cfg.layout = l ∧ plane.cfg.deriveNodeKey = derive ∧
      Registry.create plane.cfg = .ok plane.registry

end Cluster

end CircuitDllm

------------------------------------------------------------
-- Assignments
------------------------------------------------------------

namespace CircuitDllm

namespace Topology

/- The layout has a slot of these layers for the node. -/
def HasSlot
    (l : Layout)
    (layers : Int × Int)
    (capacity : Int) : Prop :=
  ∃ t, create l = .ok t ∧
    ∃ slot ∈ t.slots,
      (slot.start, slot.stop) = layers ∧ slot.size ≤ capacity

/- An admitted node has the slot that was found for it. -/
theorem register_ok
    {t t' : Topology}
    {node : Node}
    {now : ℚ}
    {preferRange : Option PreferRange}
    {slot : Slot}
    (hOk : t.register node now preferRange = (.ok slot, t')) :
    node.modelFp = t.modelFp ∧
      (t.dropHolding node.nodeId).slotFor node preferRange =
        some slot := by
  unfold register at hOk
  split at hOk
  · cases hOk
  · rename_i hModel
    simp only at hOk
    split at hOk
    · cases hOk
    · split at hOk
      · cases hOk
      · rename_i slot' hFor
        cases hOk
        exact ⟨not_not.mp hModel, hFor⟩

end Topology

namespace Registry

variable {cfg : RegistryConfig}

/- A holder that is admitted is assigned a slot. -/
theorem register_assignment
    {r : Registry}
    {node : Node}
    {now : ℚ}
    {preferRange : Option PreferRange}
    {admission : Admission}
    (hHolder : node.orchestrator = false)
    (hOk :
      (r.register cfg node now preferRange).1 =
        .ok admission) :
    node.modelFp = r.topo.modelFp ∧
      cfg.deriveNodeKey node.nodeId ≠ none ∧
        ∃ slot ∈ (r.topo.dropHolding node.nodeId).slots,
          (r.topo.dropHolding node.nodeId).slotFor node
                preferRange = some slot ∧
            slot.size ≤ node.capacityLayers ∧
              admission.assignment =
                some (slot.start, slot.stop) := by
  unfold register at hOk
  split at hOk
  · cases hOk
  split at hOk
  · cases hOk
  rw [hHolder] at hOk
  simp only [Bool.false_eq_true, if_false] at hOk
  split at hOk
  · cases hOk
  · rename_i slot topo hRegister
    rcases Topology.register_ok hRegister with ⟨hModel, hFor⟩
    have hMem := Topology.slotFor_mem hFor
    simp only [grant] at hOk
    cases hKey : cfg.deriveNodeKey node.nodeId with
    | none =>
        simp only [hKey] at hOk
        cases hOk
    | some key =>
        simp only [hKey] at hOk
        cases hOk
        exact
          ⟨hModel, by simp, slot, hMem.1, hFor, hMem.2, rfl⟩

/- The slots of a control plane are those of its layout. -/
theorem Reachable.hasSlot
    {r : Registry}
    (hReach : Reachable cfg r)
    {nodeId : String}
    {slot : Slot}
    (hSlot : slot ∈ (r.topo.dropHolding nodeId).slots)
    {capacity : Int}
    (hFits : slot.size ≤ capacity) :
    Topology.HasSlot cfg.layout (slot.start, slot.stop)
      capacity := by
  rcases hReach with ⟨r₀, ops, hInit, rfl⟩
  rcases create_ok hInit with ⟨t, hCreate, hR₀⟩
  have hLayers :
      ((r₀.run cfg ops).topo.dropHolding nodeId).layers =
        (cfg.layout.modelFp, t.slots) := by
    rw [Topology.layers_dropHolding]
    exact Reachable.layers ⟨r₀, ops, hInit, rfl⟩ hCreate
  refine ⟨t, hCreate, slot.bare, ?_, rfl, hFits⟩
  have hSlots := congrArg Prod.snd hLayers
  simp only [Topology.layers] at hSlots
  rw [← hSlots]
  exact List.mem_map_of_mem hSlot

end Registry

namespace Cluster

/- What a worker knows that was given these layers. -/
structure Fits
    (l : Layout)
    (derive : String → Option WireKey)
    (h : String)
    (body : Body)
    (layers : Int × Int) : Prop where
  model : body.modelFp = l.modelFp
  key : derive h ≠ none
  slot : Topology.HasSlot l layers body.capacityLayers

/- A control plane of that layout and secret. -/
structure Alike
    (l : Layout)
    (derive : String → Option WireKey)
    (plane : Plane) : Prop where
  layout : plane.cfg.layout = l
  derive : plane.cfg.deriveNodeKey = derive
  reachable : Registry.Reachable plane.cfg plane.registry

/- The planes, and what the worker asks them for. -/
structure Sound
    (l : Layout)
    (derive : String → Option WireKey)
    (h : String)
    (s : Cluster) : Prop where
  planes : ∀ plane ∈ s.planes, Alike l derive plane
  process :
    ∀ p ∈ s.process, ∀ layers ∈ p.phase.layers?,
      Fits l derive h p.body layers
  wire :
    ∀ packet ∈ s.wire, ∀ body layers,
      packet.request = .register body (some layers) →
        Fits l derive h body layers
  calls : ∀ packet ∈ s.wire, packet.call < s.calls
  /- a process that registers waits for its own request -/
  own :
    ∀ p ∈ s.process, ∀ packet ∈ s.wire,
      (p.posting packet.thread).call = some packet.call →
        p.phase.layers? = none →
          packet.request = .register p.body none

variable
  {l : Layout}
  {derive : String → Option WireKey}
  {h : String}

/- A plane that did one operation more. -/
theorem Alike.step
    {plane : Plane}
    (hAlike : Alike l derive plane)
    (op : RegistryOp) :
    Alike l derive
      { plane with
        registry := plane.registry.step plane.cfg op } := by
  refine ⟨hAlike.layout, hAlike.derive, ?_⟩
  rcases hAlike.reachable with ⟨r₀, ops, hCreate, hRun⟩
  refine ⟨r₀, ops ++ [op], hCreate, ?_⟩
  rw [hRun, Registry.run, Registry.run, List.foldl_append]
  rfl

/- The layers a plane assigns are layers the worker fits. -/
theorem fits_of_assignment
    {plane : Plane}
    (hAlike : Alike l derive plane)
    {now : ℚ}
    {body : Body}
    {loadedLayers : Option (Int × Int)}
    {layers : Int × Int}
    (hAnswer :
      (plane.handle h now (.register body loadedLayers)).1 =
        .assignment (some layers)) :
    Fits l derive h body layers := by
  simp only [Plane.handle] at hAnswer
  split at hAnswer
  · cases hAnswer
  · rename_i admission r hRegister
    simp only [Answer.assignment.injEq] at hAnswer
    have hHolder : (body.toNode h).orchestrator = false := rfl
    rcases Registry.register_assignment hHolder
        (congrArg Prod.fst hRegister) with
      ⟨hModel, hKey, slot, hSlot, _, hFits, hAssigned⟩
    rw [hAnswer] at hAssigned
    cases hAssigned
    have hHas := hAlike.reachable.hasSlot hSlot hFits
    rw [hAlike.layout] at hHas
    rw [hAlike.derive] at hKey
    refine ⟨?_, hKey, hHas⟩
    rcases hAlike.reachable with ⟨r₀, ops, hInit, hRun⟩
    rcases Registry.create_ok hInit with ⟨t, hCreate, _⟩
    have hLayers :=
      Registry.Reachable.layers ⟨r₀, ops, hInit, hRun⟩ hCreate
    rw [← hAlike.layout]
    exact hModel.trans (congrArg Prod.fst hLayers)

theorem sound_init
    {planes : List Plane}
    (hStarted : Started l derive planes) :
    Sound l derive h { planes := planes } where
  planes plane hPlane := by
    rcases hStarted plane hPlane with ⟨hLayout, hDerive, hCreate⟩
    exact ⟨hLayout, hDerive, plane.registry, [], hCreate, rfl⟩
  process p hP := by cases hP
  wire packet hPacket := by cases hPacket
  calls packet hPacket := by cases hPacket
  own p hP := by cases hP

/- The process goes on under the same body and layers. -/
theorem Sound.onProcess
    {s : Cluster}
    (hSound : Sound l derive h s)
    {f : Nat → Process → Process}
    (hKeep :
      ∀ n p, f n p = p ∨
        (f n p).body = p.body ∧
          ∃ layers, p.phase.layers? = some layers ∧
            (f n p).phase.layers? = some layers) :
    Sound l derive h (s.onProcess f) where
  planes := hSound.planes
  process p' hP' layers hLayers := by
    rcases Option.map_eq_some_iff.mp hP' with ⟨p, hP, rfl⟩
    rcases hKeep s.planes.length p with
      hSame | ⟨hBody, layers', hOld, hNew⟩
    · rw [hSame] at hLayers ⊢
      exact hSound.process p hP layers hLayers
    · rw [hNew] at hLayers
      cases hLayers
      rw [hBody]
      exact hSound.process p hP _ hOld
  wire := hSound.wire
  calls := hSound.calls
  own p' hP' packet hPacket hCall hNone := by
    rcases Option.map_eq_some_iff.mp hP' with ⟨p, hP, rfl⟩
    rcases hKeep s.planes.length p with
      hSame | ⟨hBody, layers', hOld, hNew⟩
    · rw [hSame] at hCall hNone ⊢
      exact hSound.own p hP packet hPacket hCall hNone
    · rw [hNew] at hNone
      cases hNone

/- One request fewer under way. -/
theorem Sound.erase
    {s : Cluster}
    (hSound : Sound l derive h s)
    (i : Nat) :
    Sound l derive h
      { s with wire := s.wire.eraseIdx i } where
  planes := hSound.planes
  process := hSound.process
  wire packet hPacket :=
    hSound.wire packet (List.mem_of_mem_eraseIdx hPacket)
  calls packet hPacket :=
    hSound.calls packet (List.mem_of_mem_eraseIdx hPacket)
  own p hP packet hPacket :=
    hSound.own p hP packet (List.mem_of_mem_eraseIdx hPacket)

/- Other registries on the same planes. -/
theorem Sound.setPlanes
    {s : Cluster}
    (hSound : Sound l derive h s)
    {planes : List Plane}
    (hPlanes : ∀ plane ∈ planes, Alike l derive plane) :
    Sound l derive h { s with planes := planes } where
  planes := hPlanes
  process := hSound.process
  wire := hSound.wire
  calls := hSound.calls
  own := hSound.own

/- A call returns or raises. -/
theorem Sound.resume
    {s : Cluster}
    (hSound : Sound l derive h s)
    {p : Process}
    (hP : s.process = some p)
    (thread : Thread)
    (answer : Option Answer)
    (hAnswer :
      ∀ layers,
        answer = some (.assignment (some layers)) →
          p.phase.layers? = none →
            Fits l derive h p.body layers) :
    Sound l derive h
      { s with
        process :=
          p.resume s.planes.length thread answer } where
  planes := hSound.planes
  process p' hP' layers hLayers := by
    rcases Process.resume_cases hP' with
      ⟨hBody, ⟨posting, rfl, _⟩ | ⟨joined, hGot, hNone, hJoined⟩⟩
    · rw [Process.setPosting_phase] at hLayers
      rw [hBody]
      exact hSound.process p hP layers hLayers
    · rw [hJoined] at hLayers
      cases hLayers
      rw [hBody]
      exact hAnswer _ hGot hNone
  wire := hSound.wire
  calls := hSound.calls
  own p' hP' packet hPacket hCall hNone := by
    rcases Process.resume_cases hP' with
      ⟨hBody, ⟨posting, rfl, hEmpty⟩ | ⟨joined, _, _, hJoined⟩⟩
    · rw [Process.setPosting_phase] at hNone
      rw [Process.posting_setPosting] at hCall
      split at hCall
      · rw [hEmpty] at hCall
        cases hCall
      · rw [hBody]
        exact hSound.own p hP packet hPacket hCall hNone
    · rw [hJoined] at hNone
      cases hNone

theorem Sound.post
    {s : Cluster}
    (hSound : Sound l derive h s)
    (thread : Thread) :
    Sound l derive h (s.post thread) := by
  unfold Cluster.post
  split
  · exact hSound
  · rename_i p hP
    split
    · exact hSound
    · split
      · exact hSound
      · rename_i plane request hNext
        refine
          { planes := hSound.planes
            process := fun p' hP' layers hLayers => ?_
            wire := fun packet hPacket body layers hReq => ?_
            calls := fun packet hPacket => ?_
            own := fun p' hP' packet hPacket hCall hNone => ?_ }
        · cases hP'
          rw [Process.setPosting_phase] at hLayers
          rw [Process.setPosting_body]
          exact hSound.process p hP layers hLayers
        · rcases List.mem_append.mp hPacket with hOld | hNew
          · exact hSound.wire packet hOld body layers hReq
          · rw [List.mem_singleton] at hNew
            rw [hNew] at hReq
            simp only at hReq
            unfold Process.next at hNext
            split at hNext
            · split at hNext
              · cases hNext
                cases hReq
              · cases hNext
            · rename_i layers' hLayers
              rcases Option.map_eq_some_iff.mp hNext with
                ⟨task, _, hEq⟩
              cases hEq
              cases task with
              | standby k =>
                  cases hReq
                  exact hSound.process p hP _ hLayers
              | ready k => cases hReq
              | heartbeat k => cases hReq
              | drain k => cases hReq
        · rcases List.mem_append.mp hPacket with hOld | hNew
          · have hLt := hSound.calls packet hOld
            exact hLt.trans (Nat.lt_succ_self _)
          · rw [List.mem_singleton] at hNew
            rw [hNew]
            exact Nat.lt_succ_self _
        · cases hP'
          rw [Process.setPosting_phase] at hNone
          rw [Process.posting_setPosting] at hCall
          rw [Process.setPosting_body]
          rcases List.mem_append.mp hPacket with hOld | hNew
          · split at hCall
            · -- the call is newer than the request
              have hLt := hSound.calls packet hOld
              simp only [Option.some.injEq] at hCall
              omega
            · exact hSound.own p hP packet hOld hCall hNone
          · rw [List.mem_singleton] at hNew
            rw [hNew]
            simp only [Process.next, hNone] at hNext
            split at hNext
            · cases hNext
              rfl
            · cases hNext

theorem Sound.handle
    {s : Cluster}
    (hSound : Sound l derive h s)
    (i : Nat)
    (now : ℚ)
    (answered : Bool) :
    Sound l derive h (s.handle h i now answered) := by
  unfold Cluster.handle
  split
  · exact hSound
  · rename_i packet hPacket
    simp only
    split
    · exact hSound.erase i
    · rename_i plane hPlane
      have hAlike :=
        hSound.planes plane (List.mem_of_getElem? hPlane)
      have hNew :
          Sound l derive h
            { s with
              wire := s.wire.eraseIdx i
              planes :=
                s.planes.set packet.plane
                  (plane.handle h now packet.request).2 } := by
        refine (hSound.erase i).setPlanes (fun q hQ => ?_)
        rcases List.mem_or_eq_of_mem_set hQ with hOld | rfl
        · exact hSound.planes q hOld
        · rw [Plane.handle_snd]
          exact hAlike.step _
      split
      · unfold Cluster.answer
        split
        · exact hNew
        · rename_i p hP
          split
          · rename_i hCall
            refine
              hNew.resume hP packet.thread _
                (fun layers hGot hNone => ?_)
            have hOwn :=
              hSound.own p hP packet
                (List.mem_of_getElem? hPacket) hCall hNone
            rw [hOwn] at hGot
            exact fits_of_assignment hAlike (Option.some.inj hGot)
          · exact hNew
      · exact hNew

theorem sound_step
    {s : Cluster}
    (hSound : Sound l derive h s)
    (e : Event) :
    Sound l derive h (s.step h e) := by
  cases e with
  | start body =>
      refine
        { planes := hSound.planes
          process := fun p hP layers hLayers => ?_
          wire := hSound.wire
          calls := hSound.calls
          own := fun p hP packet _ hCall _ => ?_ }
      · cases hP
        cases hLayers
      · cases hP
        cases hThread : packet.thread with
        | main => simp [hThread, Process.posting] at hCall
        | beat => simp [hThread, Process.posting] at hCall
  | post thread => exact hSound.post thread
  | handle i now answered => exact hSound.handle i now answered
  | lose i => exact hSound.erase i
  | giveUp thread =>
      simp only [step, giveUp]
      split
      · exact hSound
      · rename_i p hP
        split
        · exact hSound.resume hP thread none (by simp)
        · exact hSound
  | listen =>
      refine hSound.onProcess (fun n p => ?_)
      rcases p.listen_cases n with hSame | ⟨layers, hPhase, hEnd⟩
      · exact .inl hSame
      · refine .inr ⟨by rw [hEnd], layers, ?_, by rw [hEnd]; rfl⟩
        rw [hPhase]
        rfl
  | round =>
      refine hSound.onProcess (fun n p => ?_)
      rcases p.round_cases n with
        hSame | ⟨⟨layers, hLayers⟩, hEnd⟩
      · exact .inl hSame
      · rw [hEnd]
        exact .inr ⟨rfl, layers, hLayers, hLayers⟩
  | stop =>
      refine hSound.onProcess (fun n p => ?_)
      rcases p.stop_cases n with hSame | ⟨layers, hLayers, hEnd⟩
      · exact .inl hSame
      · rw [hEnd]
        exact .inr ⟨rfl, layers, hLayers, rfl⟩
  | kill =>
      exact
        { planes := hSound.planes
          process := fun p hP => by cases hP
          wire := hSound.wire
          calls := hSound.calls
          own := fun p hP => by cases hP }
  | control k op =>
      simp only [step]
      split
      · exact hSound
      · refine hSound.setPlanes (fun plane hPlane => ?_)
        rcases List.mem_iff_getElem?.mp hPlane with ⟨j, hJ⟩
        rw [List.getElem?_modify] at hJ
        rcases Option.map_eq_some_iff.mp hJ with
          ⟨old, hOld, rfl⟩
        have hAlike :=
          hSound.planes old (List.mem_of_getElem? hOld)
        split
        · exact hAlike.step op
        · exact hAlike

/- It holds in every state a cluster can reach. -/
theorem sound_run
    {planes : List Plane}
    (hStarted : Started l derive planes)
    (es : List Event) :
    Sound l derive h (run h { planes := planes } es) := by
  exact
    History.induction (step h) (fun _ s => Sound l derive h s)
      (sound_init hStarted)
      (fun _ _ e hSound => sound_step hSound e) es

end Cluster

end CircuitDllm
