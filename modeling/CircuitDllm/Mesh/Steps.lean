import CircuitDllm.Mesh.WellFormed

/-
  What one operation does to one node.

  A registration is refused before it changes anything, or
  after it dropped the node's holding, or it enters the node
  and may still fail on its key.  `Registry.nodeStep` says
  what every operation makes of a node's entry in the table.

  Main declarations:
    * `Registry.register_cases`
    * `Registry.nodeStep`
    * `Registry.get?_step`
-/

------------------------------------------------------------
-- Registrations
------------------------------------------------------------

namespace CircuitDllm

/- An orchestrator, or a holder of one slot, enters. -/
def Topology.enter
    (t : Topology)
    (node : Node)
    (slot : Option Nat)
    (now : ℚ) :
    Topology :=
  let t := t.dropHolding node.nodeId
  match slot with
  | some index => t.enroll node index now
  | none =>
    { t with
      nodes :=
        t.nodes.set node.nodeId
          { node with
            slot := none
            orchestrator := true
            state := .joining
            lastHb := now } }

namespace Registry

variable (cfg : RegistryConfig)

/- The registration gets as far as the topology's table. -/
def Reaches (r : Registry) (node : Node) : Prop :=
  node.nodeId ∉ r.banned ∧
    (∀ allowed ∈ cfg.allowlist, node.nodeId ∈ allowed) ∧
    node.modelFp = r.topo.modelFp

instance (r : Registry) (node : Node) :
    Decidable (r.Reaches cfg node) := by
  unfold Reaches
  infer_instance

/- Where the node enters: a slot, or none for its head. -/
def entry
    (r : Registry)
    (node : Node)
    (preferRange : Option PreferRange) :
    Option (Option Nat) :=
  if ¬ r.Reaches cfg node then none
  else if node.orchestrator then some none
  else if preferRange = some .malformed then none
  else
    ((r.topo.dropHolding node.nodeId).slotFor node
      preferRange).map (fun s => some s.index)

/- The entry of a node that was just registered. -/
def enteredNode
    (node : Node)
    (slot : Option Nat)
    (now : ℚ) :
    Node :=
  { node with
    slot := slot
    state := .joining
    lastHb := now
    trust :=
      if node.nodeId ∈ cfg.seedNodes then .trusted
      else node.trust
    wireKey :=
      match cfg.deriveNodeKey node.nodeId with
      | none => node.wireKey
      | some key => some key }

/- How a registration ends. -/
inductive Registered
    (node : Node)
    (now : ℚ)
    (preferRange : Option PreferRange)
    (r : Registry) : Prop where
  /- refused at once -/
  | refused
      (e : MeshError)
      (hReach : ¬ r.Reaches cfg node)
      (hEnd :
        r.register cfg node now preferRange = (.error e, r))
  /- no slot for it: its holding is gone -/
  | dropped
      (e : MeshError)
      (hReach : r.Reaches cfg node)
      (hHolder : node.orchestrator = false)
      (hEntry : r.entry cfg node preferRange = none)
      (hEnd :
        r.register cfg node now preferRange =
          (.error e,
            { r with
              topo := r.topo.dropHolding node.nodeId }))
  /- it entered -/
  | entered
      (slot : Option Nat)
      (assignment : Option (Int × Int))
      (orchIndex : Option Nat)
      (hReach : r.Reaches cfg node)
      (hEntry : r.entry cfg node preferRange = some slot)
      (hSlot : slot.isNone = node.orchestrator)
      (hEnd :
        r.register cfg node now preferRange =
          grant cfg node assignment orchIndex
            { r with
              topo := r.topo.enter node slot now
              orchSeq :=
                if node.orchestrator then r.orchSeq + 1
                else r.orchSeq })

theorem register_cases
    (node : Node)
    (now : ℚ)
    (preferRange : Option PreferRange)
    (r : Registry) :
    Registered cfg node now preferRange r := by
  by_cases hBanned : node.nodeId ∈ r.banned
  · exact .refused _ (fun h => h.1 hBanned)
      (by rw [register, if_pos hBanned])
  by_cases hAllowed :
      ∃ allowed ∈ cfg.allowlist, node.nodeId ∉ allowed
  · refine .refused (.notAllowed node.nodeId) (fun h => ?_)
      (by rw [register, if_neg hBanned, if_pos hAllowed])
    rcases hAllowed with ⟨allowed, hMem, hNot⟩
    exact hNot (h.2.1 allowed hMem)
  by_cases hModel : node.modelFp = r.topo.modelFp
  · have hReach : r.Reaches cfg node := by
      refine ⟨hBanned, fun allowed hMem => ?_, hModel⟩
      by_contra hNot
      exact hAllowed ⟨allowed, hMem, hNot⟩
    cases hOrch : node.orchestrator with
    | true =>
        refine .entered none none
          (some (r.orchSeq % 2 ^ 15)) hReach
          (by simp [entry, hReach, hOrch])
          (by simp [hOrch]) ?_
        rw [register, if_neg hBanned, if_neg hAllowed]
        simp [hOrch,
          Topology.registerOrchestrator, hModel,
          Topology.enter]
    | false =>
        by_cases hRange : preferRange = some .malformed
        · refine .dropped .preferRange hReach hOrch
            (by simp [entry, hReach, hOrch, hRange]) ?_
          rw [register, if_neg hBanned, if_neg hAllowed]
          simp [hOrch,
            Topology.register, hModel, hRange]
        · cases hFor :
              (r.topo.dropHolding node.nodeId).slotFor node
                preferRange with
          | none =>
              refine .dropped .noSlot hReach hOrch
                (by simp [entry, hReach, hOrch, hRange,
                  hFor]) ?_
              rw [register, if_neg hBanned, if_neg hAllowed]
              simp [hOrch,
                Topology.register, hModel, hRange, hFor]
          | some slot =>
              refine .entered (some slot.index)
                (some (slot.start, slot.stop)) none hReach
                (by simp [entry, hReach, hOrch, hRange,
                  hFor])
                (by simp [hOrch]) ?_
              rw [register, if_neg hBanned, if_neg hAllowed]
              simp [hOrch,
                Topology.register, hModel, hRange, hFor,
                Topology.enter]
  · refine .refused
      (.modelMismatch node.modelFp r.topo.modelFp)
      (fun h => hModel h.2.2) ?_
    cases hOrch : node.orchestrator with
    | true =>
        rw [register, if_neg hBanned, if_neg hAllowed]
        simp [hOrch,
          Topology.registerOrchestrator, hModel]
    | false =>
        rw [register, if_neg hBanned, if_neg hAllowed]
        simp [hOrch,
          Topology.register, hModel]

/- With a key for its id, a node that enters is admitted. -/
theorem register_ok_iff
    {node : Node}
    (hKey : cfg.deriveNodeKey node.nodeId ≠ none)
    (now : ℚ)
    (preferRange : Option PreferRange)
    (r : Registry) :
    (∃ admission,
        (r.register cfg node now preferRange).1 =
          .ok admission) ↔
      ∃ slot, r.entry cfg node preferRange = some slot := by
  cases register_cases cfg node now preferRange r with
  | refused e hReach hEnd => simp [hEnd, entry, hReach]
  | dropped e hReach hHolder hEntry hEnd =>
      simp [hEnd, hEntry]
  | entered slot assignment orchIndex hReach hEntry hSlot
      hEnd =>
      rcases Option.ne_none_iff_exists'.mp hKey with
        ⟨key, hKey⟩
      simp [hEnd, hEntry, grant, hKey]

/- Only an orchestrator enters without a slot. -/
theorem isNone_of_entry
    {r : Registry}
    {node : Node}
    {preferRange : Option PreferRange}
    {slot : Option Nat}
    (hEntry : r.entry cfg node preferRange = some slot) :
    slot.isNone = node.orchestrator := by
  cases register_cases cfg node 0 preferRange r with
  | refused e hReach hEnd =>
      simp [entry, hReach] at hEntry
  | dropped e hReach hHolder hNone hEnd =>
      rw [hNone] at hEntry
      cases hEntry
  | entered slot' assignment orchIndex hReach hEntry' hSlot
      hEnd =>
      rw [hEntry'] at hEntry
      cases hEntry
      exact hSlot

end Registry

end CircuitDllm

------------------------------------------------------------
-- Entries of the Node Table
------------------------------------------------------------

namespace CircuitDllm

namespace Topology

@[simp] theorem passCheck_slot
    (promoteAfter : Int)
    (n : Node) :
    (passCheck promoteAfter n).slot = n.slot := by
  unfold passCheck
  simp only
  split <;> rfl

@[simp] theorem passCheck_orchestrator
    (promoteAfter : Int)
    (n : Node) :
    (passCheck promoteAfter n).orchestrator =
      n.orchestrator := by
  unfold passCheck
  simp only
  split <;> rfl

/- A passed challenge does not move a node. -/
@[simp] theorem passCheck_state
    (promoteAfter : Int)
    (n : Node) :
    (passCheck promoteAfter n).state = n.state := by
  unfold passCheck
  simp only
  split <;> rfl

@[simp] theorem failCheck_slot
    (strikeMax : Int)
    (n : Node) :
    (failCheck strikeMax n).slot = n.slot := by
  unfold failCheck
  simp only
  split <;> rfl

@[simp] theorem failCheck_orchestrator
    (strikeMax : Int)
    (n : Node) :
    (failCheck strikeMax n).orchestrator =
      n.orchestrator := by
  unfold failCheck
  simp only
  split <;> rfl

@[simp] theorem failCheck_strikes
    (strikeMax : Int)
    (n : Node) :
    (failCheck strikeMax n).strikes = n.strikes + 1 := by
  unfold failCheck
  simp only
  split <;> rfl

/- A failed one kills it at the last strike. -/
theorem failCheck_state
    (strikeMax : Int)
    (n : Node) :
    (failCheck strikeMax n).state =
      if strikeMax ≤ (n.strikes + 1 : Nat) then .dead
      else n.state := by
  unfold failCheck
  simp only
  split <;> rfl

theorem get?_modifyNode
    (t : Topology)
    (nodeId : String)
    (f : Node → Node)
    (h : String) :
    (t.modifyNode nodeId f).nodes.get? h =
      if nodeId = h then (t.nodes.get? h).map f
      else t.nodes.get? h :=
  Dict.get?_modify _ _ _ _

theorem get?_enroll
    (t : Topology)
    (node : Node)
    (index : Nat)
    (now : ℚ)
    (h : String) :
    (t.enroll node index now).nodes.get? h =
      if node.nodeId = h then
        some
          { node with
            slot := some index
            state := .joining
            lastHb := now }
      else t.nodes.get? h :=
  Dict.get?_set _ _ _ _

theorem get?_enter
    (t : Topology)
    (node : Node)
    (slot : Option Nat)
    (now : ℚ)
    (hSlot : slot.isNone = node.orchestrator)
    (h : String) :
    (t.enter node slot now).nodes.get? h =
      if node.nodeId = h then
        some
          { node with
            slot := slot
            state := .joining
            lastHb := now }
      else t.nodes.get? h := by
  cases slot with
  | none =>
      have hOrch : node.orchestrator = true := hSlot.symm
      simp only [enter, Dict.get?_set, hOrch]
      rfl
  | some index => exact get?_enroll _ node index now h

theorem get?_remove
    (t : Topology)
    (nodeId h : String) :
    (t.remove nodeId).nodes.get? h =
      if nodeId = h then none else t.nodes.get? h :=
  Dict.get?_erase _ _ _

theorem get?_foldl_remove
    (t : Topology)
    (gone : List String)
    (h : String) :
    (gone.foldl remove t).nodes.get? h =
      if h ∈ gone then none else t.nodes.get? h := by
  induction gone generalizing t with
  | nil => simp
  | cons nodeId gone ih =>
      rw [List.foldl_cons, ih, get?_remove]
      by_cases hTail : h ∈ gone
      · simp [hTail]
      · by_cases hHead : nodeId = h
        · simp [hHead]
        · have hHead' : h ≠ nodeId := fun hEq => hHead hEq.symm
          simp [hTail, hHead, hHead']

/- DEAD for so long that it is purged. -/
def Gone (t : Topology) (now : ℚ) (n : Node) : Prop :=
  n.state = .dead ∧ 2 * t.deadAfterS < now - n.lastHb

instance (t : Topology) (now : ℚ) :
    DecidablePred (t.Gone now) := fun n => by
  unfold Gone
  infer_instance

theorem get?_purge
    (t : Topology)
    (now : ℚ)
    (h : String) :
    (t.purge now).2.nodes.get? h =
      (t.nodes.get? h).filter (fun n => ¬ t.Gone now n) := by
  unfold purge
  rw [get?_foldl_remove]
  have hMem :
      h ∈ (t.nodes.entries.filter (fun e =>
          e.2.state = .dead ∧
            2 * t.deadAfterS < now - e.2.lastHb)).map (·.1) ↔
        ∃ n, t.nodes.get? h = some n ∧ t.Gone now n := by
    simp only [List.mem_map, List.mem_filter,
      Dict.get?_eq_some, decide_eq_true_eq, Gone]
    constructor
    · rintro ⟨⟨_, n⟩, ⟨hEntry, hGone⟩, rfl⟩
      exact ⟨n, hEntry, hGone⟩
    · rintro ⟨n, hEntry, hGone⟩
      exact ⟨⟨h, n⟩, ⟨hEntry, hGone⟩, rfl⟩
  simp only [hMem]
  cases t.nodes.get? h with
  | none => simp
  | some n =>
      by_cases hGone : t.Gone now n
      · simp [Option.filter, hGone]
      · simp [Option.filter, hGone]

/- An overdue node is DEAD after the reaper came by. -/
def reaped (t : Topology) (now : ℚ) (n : Node) : Node :=
  if t.overdue now n then { n with state := .dead } else n

theorem get?_tick
    (t : Topology)
    (now : ℚ)
    (h : String) :
    ((t.reap now).2.purge now).2.nodes.get? h =
      ((t.nodes.get? h).map (t.reaped now)).filter (fun n =>
        ¬ t.Gone now n) := by
  rw [get?_purge]
  simp only [reap, Dict.get?_mapValues]
  rfl

theorem get?_recordCheck
    (t : Topology)
    (nodeId : String)
    (ok : Bool)
    (promoteAfter strikeMax : Int)
    (h : String) :
    (t.recordCheck nodeId ok promoteAfter
        strikeMax).2.nodes.get? h =
      if nodeId = h then
        (t.nodes.get? h).map
          (if ok then passCheck promoteAfter
            else failCheck strikeMax)
      else t.nodes.get? h := by
  unfold recordCheck
  cases hNode : t.nodes.get? nodeId with
  | none =>
      by_cases hEq : nodeId = h
      · rw [← hEq]
        simp [hNode]
      · simp [hEq]
  | some n =>
      cases ok <;> simp [get?_modifyNode]

end Topology

namespace Registry

variable (cfg : RegistryConfig)

/- What an operation makes of the entry of node `h`. -/
def nodeStep (r : Registry) (h : String) :
    RegistryOp → Option Node → Option Node
| .register node now preferRange, n =>
    if node.nodeId = h then
      match r.entry cfg node preferRange with
      | none => n
      | some slot => some (enteredNode cfg node slot now)
    else n
| .heartbeat nodeId now, n =>
    if nodeId = h then
      n.map (fun n =>
        if n.state = .dead then n
        else
          { n with
            lastHb := now
            state :=
              if n.state = .suspect then .ready
              else n.state })
    else n
| .drain nodeId, n =>
    if nodeId = h then
      n.map (fun n => { n with state := .draining })
    else n
| .markReady nodeId, n =>
    if nodeId = h then
      n.map (fun n =>
        if n.state = .joining then { n with state := .ready }
        else n)
    else n
| .markSuspect nodeId, n =>
    if nodeId = h then
      n.map (fun n =>
        if n.state = .ready then { n with state := .suspect }
        else n)
    else n
| .setTrusted nodeId, n =>
    if nodeId = h then
      n.map (fun n => { n with trust := .trusted })
    else n
| .recordCheck nodeId ok promoteAfter strikeMax, n =>
    if nodeId = h then
      n.map (if ok then Topology.passCheck promoteAfter
        else Topology.failCheck strikeMax)
    else n
| .tick now, n =>
    (n.map (r.topo.reaped now)).filter (fun n =>
      ¬ r.topo.Gone now n)
| .restart, n =>
    match r.restart cfg with
    | .error _ => n
    | .ok _ => none
| _, n => n

/- What every entry has, one changed entry still has. -/
theorem of_modified
    {P : Node → Prop}
    {f : Node → Node}
    {h nodeId : String}
    {entry : Option Node}
    (hOld : ∀ n, entry = some n → P n)
    (hChange : ∀ n, P n → P (f n))
    {n' : Node}
    (hN' :
      (if nodeId = h then entry.map f else entry) = some n') :
    P n' := by
  split at hN'
  · rcases Option.map_eq_some_iff.mp hN' with ⟨n, hN, rfl⟩
    exact hChange n (hOld n hN)
  · exact hOld n' hN'

/- A field the change leaves alone. -/
theorem elim_modified
    {A : Type}
    {field : Node → A}
    {f : Node → Node}
    (hSame : ∀ n, field (f n) = field n)
    (h nodeId : String)
    (entry : Option Node)
    (default : A) :
    (if nodeId = h then entry.map f else entry).elim default
        field =
      entry.elim default field := by
  split
  · cases entry with
    | none => rfl
    | some n => exact hSame n
  · rfl

theorem get?_grant
    (node : Node)
    (assignment : Option (Int × Int))
    (orchIndex : Option Nat)
    (r : Registry)
    (h : String) :
    (r.grant cfg node assignment
        orchIndex).2.topo.nodes.get? h =
      if node.nodeId = h then
        (r.topo.nodes.get? h).map (fun n =>
          { n with
            trust :=
              if node.nodeId ∈ cfg.seedNodes then .trusted
              else n.trust
            wireKey :=
              match cfg.deriveNodeKey node.nodeId with
              | none => n.wireKey
              | some key => some key })
      else r.topo.nodes.get? h := by
  have hSeed :
      (if node.nodeId ∈ cfg.seedNodes then
          r.topo.setTrusted node.nodeId
        else r.topo).nodes.get? h =
        if node.nodeId = h then
          (r.topo.nodes.get? h).map (fun n =>
            { n with
              trust :=
                if node.nodeId ∈ cfg.seedNodes then .trusted
                else n.trust })
        else r.topo.nodes.get? h := by
    by_cases hMem : node.nodeId ∈ cfg.seedNodes
    · simp only [hMem, if_true, Topology.setTrusted,
        Topology.get?_modifyNode]
    · simp only [hMem, if_false]
      split
      · cases r.topo.nodes.get? h <;> rfl
      · rfl
  unfold grant
  cases hKey : cfg.deriveNodeKey node.nodeId with
  | none => exact hSeed
  | some key =>
      simp only [saveState_topo, Topology.get?_modifyNode,
        hSeed]
      split
      · cases r.topo.nodes.get? h <;> rfl
      · rfl

theorem get?_register
    (node : Node)
    (now : ℚ)
    (preferRange : Option PreferRange)
    (r : Registry)
    (h : String) :
    (r.register cfg node now
        preferRange).2.topo.nodes.get? h =
      r.nodeStep cfg h (.register node now preferRange)
        (r.topo.nodes.get? h) := by
  simp only [nodeStep]
  cases register_cases cfg node now preferRange r with
  | refused e hReach hEnd =>
      simp [hEnd, entry, hReach]
  | dropped e hReach hHolder hEntry hEnd =>
      simp only [hEnd, hEntry, ite_self]
      rfl
  | entered slot assignment orchIndex hReach hEntry hSlot
      hEnd =>
      rw [hEnd, get?_grant, Topology.get?_enter _ _ _ _ hSlot,
        hEntry]
      split
      · rfl
      · rfl

theorem get?_recordCheck
    (nodeId : String)
    (ok : Bool)
    (promoteAfter strikeMax : Int)
    (r : Registry)
    (h : String) :
    (r.recordCheck cfg nodeId ok promoteAfter
        strikeMax).2.topo.nodes.get? h =
      r.nodeStep cfg h
        (.recordCheck nodeId ok promoteAfter strikeMax)
        (r.topo.nodes.get? h) := by
  have hTopo :
      (r.recordCheck cfg nodeId ok promoteAfter
          strikeMax).2.topo =
        (r.topo.recordCheck nodeId ok promoteAfter
          strikeMax).2 := by
    unfold recordCheck
    simp only
    split
    · simp
    · rfl
  rw [hTopo, Topology.get?_recordCheck]
  rfl

/- A new process has no nodes. -/
theorem nodes_restart
    {r r' : Registry}
    (hRestart : r.restart cfg = .ok r')
    {h : String} :
    r'.topo.nodes.get? h = none := by
  have hCreate := (restart_ok hRestart).1
  rw [Topology.create_nodes hCreate, Dict.get?_empty]

/- What one operation does to the entry of a node. -/
theorem get?_step
    (r : Registry)
    (op : RegistryOp)
    (h : String) :
    (r.step cfg op).topo.nodes.get? h =
      r.nodeStep cfg h op (r.topo.nodes.get? h) := by
  cases op with
  | register node now preferRange =>
      exact get?_register cfg node now preferRange r h
  | heartbeat nodeId now =>
      simp only [step, heartbeat, nodeStep,
        Topology.heartbeat]
      cases hNode : r.topo.nodes.get? nodeId with
      | none =>
          by_cases hEq : nodeId = h
          · rw [← hEq]
            simp [hNode]
          · simp [hEq]
      | some n =>
          by_cases hDead : n.state = .dead
          · by_cases hEq : nodeId = h
            · rw [← hEq]
              simp [hNode, hDead]
            · simp [hDead, hEq]
          · simp only [hDead, if_false,
              Topology.get?_modifyNode]
            by_cases hEq : nodeId = h
            · rw [← hEq]
              simp [hNode, hDead]
            · simp [hEq]
  | drain nodeId => exact Topology.get?_modifyNode _ _ _ _
  | markReady nodeId => exact Topology.get?_modifyNode _ _ _ _
  | markSuspect nodeId =>
      exact Topology.get?_modifyNode _ _ _ _
  | setTrusted nodeId => exact Topology.get?_modifyNode _ _ _ _
  | setRtt nodeId ms => rfl
  | recordCheck nodeId ok promoteAfter strikeMax =>
      exact get?_recordCheck cfg nodeId ok promoteAfter
        strikeMax r h
  | tick now => exact r.topo.get?_tick now h
  | acquireRoute session => simp [step, nodeStep]
  | releaseRoute session => rfl
  | acquireEntry session => simp [step, nodeStep]
  | releaseEntry session => simp [step, nodeStep]
  | recordWork route paidRaw => simp [step, nodeStep]
  | settle minPayoutRaw => simp [step, nodeStep]
  | restart =>
      simp only [step, nodeStep]
      cases hRestart : r.restart cfg with
      | error e => rfl
      | ok r' => rw [nodes_restart cfg hRestart]
  | disk up => rfl

end Registry

end CircuitDllm
