import CircuitDllm.Mesh.Bans
import CircuitDllm.Mesh.Representation

/-
  The trust of a node, from its last registration on.

  Trust, strikes and passed checks are fields of the node's
  entry, which a registration replaces.  What they say about
  the checks since then is kept by every operation of the
  registry and of its topology, whatever state the node is
  in when a result arrives.

  Main declarations:
    * `TableOp.nodeStep`, `TableOp.get?_step`
    * `TableOp.TrustKept`
    * `TableOp.trustKept_run`
-/

------------------------------------------------------------
-- One Node under One Operation
------------------------------------------------------------

namespace CircuitDllm

namespace TableOp

variable (cfg : RegistryConfig)

/- What an operation makes of the entry of node `h`. -/
def nodeStep (r : Registry) (h : String) :
    TableOp → Option Node → Option Node
| .registry op, n => r.nodeStep cfg h op n
| .register node now preferRange, n =>
    if node.nodeId = h then
      match (r.topo.register node now preferRange).1 with
      | .error _ => n
      | .ok slot =>
        some
          { node with
            slot := some slot.index
            state := .joining
            lastHb := now }
    else n
| .registerOrchestrator node now, n =>
    if node.nodeId = h then
      match (r.topo.registerOrchestrator node now).1 with
      | .error _ => n
      | .ok () =>
        some
          { node with
            slot := none
            orchestrator := true
            state := .joining
            lastHb := now }
    else n
| .recordCheck nodeId ok promoteAfter strikeMax, n =>
    if nodeId = h then
      n.map (if ok then Topology.passCheck promoteAfter
        else Topology.failCheck strikeMax)
    else n
| .reap now, n => n.map (r.topo.reaped now)
| .purge now, n => n.filter (fun n => ¬ r.topo.Gone now n)
| .remove nodeId, n => if nodeId = h then none else n

theorem get?_register
    (t : Topology)
    (node : Node)
    (now : ℚ)
    (preferRange : Option PreferRange)
    (h : String) :
    (t.register node now preferRange).2.nodes.get? h =
      if node.nodeId = h then
        match (t.register node now preferRange).1 with
        | .error _ => t.nodes.get? h
        | .ok slot =>
          some
            { node with
              slot := some slot.index
              state := .joining
              lastHb := now }
      else t.nodes.get? h := by
  unfold Topology.register
  split
  · simp only [ite_self]
  · simp only
    split
    · simp [Topology.dropHolding, Topology.mapHolders]
    · split
      · simp [Topology.dropHolding, Topology.mapHolders]
      · simp only [Topology.enroll, Topology.mapHolders,
          Dict.get?_set]
        rfl

theorem get?_registerOrchestrator
    (t : Topology)
    (node : Node)
    (now : ℚ)
    (h : String) :
    (t.registerOrchestrator node now).2.nodes.get? h =
      if node.nodeId = h then
        match (t.registerOrchestrator node now).1 with
        | .error _ => t.nodes.get? h
        | .ok () =>
          some
            { node with
              slot := none
              orchestrator := true
              state := .joining
              lastHb := now }
      else t.nodes.get? h := by
  unfold Topology.registerOrchestrator
  split
  · simp only [ite_self]
  · simp only [Dict.get?_set]
    rfl

/- What one operation does to the entry of a node. -/
theorem get?_step
    (r : Registry)
    (op : TableOp)
    (h : String) :
    (step cfg r op).topo.nodes.get? h =
      nodeStep cfg r h op (r.topo.nodes.get? h) := by
  cases op with
  | registry op => exact Registry.get?_step cfg r op h
  | register node now preferRange =>
      exact get?_register r.topo node now preferRange h
  | registerOrchestrator node now =>
      exact get?_registerOrchestrator r.topo node now h
  | recordCheck nodeId ok promoteAfter strikeMax =>
      exact
        Topology.get?_recordCheck r.topo nodeId ok
          promoteAfter strikeMax h
  | reap now => exact Dict.get?_mapValues _ _ _
  | purge now => exact r.topo.get?_purge now h
  | remove nodeId => exact r.topo.get?_remove nodeId h

end TableOp

end CircuitDllm

------------------------------------------------------------
-- Checks since the Last Registration
------------------------------------------------------------

namespace CircuitDllm

/- What health checks and the registry decide of a node. -/
def Node.trial (n : Node) : Nat × Trust × Nat :=
  (n.checksPassed, n.trust, n.strikes)

namespace TableOp

variable (cfg : RegistryConfig)

/- An operation of a run and the registry it met. -/
abbrev Event := Registry × TableOp

/- A registration put the node into the table. -/
def Enters (h : String) (e : Event) : Prop :=
  match e.2 with
  | .registry (.register node _ preferRange) =>
    node.nodeId = h ∧ e.1.entry cfg node preferRange ≠ none
  | .register node now preferRange =>
    node.nodeId = h ∧
      ∃ slot,
        (e.1.topo.register node now preferRange).1 = .ok slot
  | .registerOrchestrator node now =>
    node.nodeId = h ∧
      (e.1.topo.registerOrchestrator node now).1 = .ok ()
  | _ => False

/- The registry marks the bootstrap fleet as it enters. -/
def Seeds (h : String) (e : Event) : Prop :=
  match e.2 with
  | .registry (.register _ _ _) => h ∈ cfg.seedNodes
  | _ => False

/- set_trusted was applied to the node. -/
def setsTrust (h : String) (e : Event) : Bool :=
  match e.2 with
  | .registry (.setTrusted nodeId) => nodeId = h
  | _ => false

/- The node passed a check. -/
def passes (h : String) (e : Event) : Bool :=
  match e.2 with
  | .registry (.recordCheck nodeId ok _ _) => nodeId = h ∧ ok
  | .recordCheck nodeId ok _ _ => nodeId = h ∧ ok
  | _ => false

/- The check that was recorded did this to the node. -/
def ChecksTo
    (h : String)
    (action : CheckAction)
    (e : Event) : Prop :=
  match e.2 with
  | .registry (.recordCheck nodeId ok promoteAfter strikeMax) =>
    nodeId = h ∧
      (e.1.recordCheck cfg nodeId ok promoteAfter
        strikeMax).1 = some action
  | .recordCheck nodeId ok promoteAfter strikeMax =>
    nodeId = h ∧
      (e.1.topo.recordCheck nodeId ok promoteAfter
        strikeMax).1 = some action
  | _ => False

/- A node as the control server builds it. -/
def Fresh (node : Node) : Prop :=
  node.trust = .probation ∧ node.checksPassed = 0 ∧
    node.strikes = 0

/- Nodes register fresh, checks have these bounds. -/
def Regular (promoteAfter strikeMax : Int) : TableOp → Prop
| .registry (.register node _ _) => Fresh node
| .register node _ _ => Fresh node
| .registerOrchestrator node _ => Fresh node
| .registry (.recordCheck _ _ promote limit) =>
    promote = promoteAfter ∧ limit = strikeMax
| .recordCheck _ _ promote limit =>
    promote = promoteAfter ∧ limit = strikeMax
| _ => True

/- What makes a node TRUSTED since its registration. -/
def Earned
    (h : String)
    (promoteAfter : Int)
    (entered : Event)
    (after : List Event) : Prop :=
  Seeds cfg h entered ∨
    (∃ e ∈ after, setsTrust h e = true) ∨
    promoteAfter ≤ (after.countP (passes h) : Int)

/- What a run promises of trust, strikes and evictions. -/
structure TrustKept
    (promoteAfter strikeMax : Int)
    (past : List Event)
    (r : Registry) : Prop where
  earned :
    ∀ h n, r.topo.nodes.get? h = some n →
      n.trust = .trusted →
        History.From (Enters cfg h)
          (Earned cfg h promoteAfter) past
  strikes :
    ∀ h n, r.topo.nodes.get? h = some n →
      (n.state = .ready ∨ n.state = .suspect ∨
          n.state = .joining) →
        (n.strikes : Int) < strikeMax
  promoted :
    ∀ h e, e ∈ past → ChecksTo cfg h .promoted e →
      ∃ n, (step cfg e.1 e.2).topo.nodes.get? h = some n ∧
        n.strikes = 0
  evicted :
    ∀ h before e after,
      past = before ++ e :: after →
        ChecksTo cfg h .evicted e →
          (∀ e' ∈ after, ¬ Enters cfg h e') →
            ∀ n, r.topo.nodes.get? h = some n →
              n.state ≠ .ready

/-
  The entry of a node, by its last registration and what
  came after it.
-/
structure Deserves
    (h : String)
    (promoteAfter strikeMax : Int)
    (n : Node)
    (entered : Event)
    (after : List Event) : Prop where
  passed : n.checksPassed = after.countP (passes h)
  earned :
    n.trust = .trusted →
      Earned cfg h promoteAfter entered after
  strikes :
    Registry.OutOfService n ∨ (n.strikes : Int) < strikeMax
  evicted :
    (∃ e ∈ after, ChecksTo cfg h .evicted e) →
      Registry.OutOfService n

variable {cfg : RegistryConfig} {r : Registry}

theorem countP_snoc
    (h : String)
    (after : List Event)
    (e : Event) :
    (after ++ [e]).countP (passes h) =
      after.countP (passes h) + (passes h e).toNat := by
  rw [List.countP_append, List.countP_singleton]
  cases passes h e with
  | true => rfl
  | false => rfl

/- What was earned is not lost to later events. -/
theorem Earned.snoc
    {h : String}
    {promoteAfter : Int}
    {entered : Event}
    {after : List Event}
    (hEarned : Earned cfg h promoteAfter entered after)
    (e : Event) :
    Earned cfg h promoteAfter entered (after ++ [e]) := by
  rcases hEarned with hSeed | ⟨e', hMem, hSets⟩ | hPasses
  · exact Or.inl hSeed
  · exact
      Or.inr (Or.inl ⟨e', List.mem_append_left _ hMem, hSets⟩)
  · refine Or.inr (Or.inr ?_)
    rw [countP_snoc]
    push_cast
    omega

theorem not_evicted_snoc
    {h : String}
    {after : List Event}
    {e : Event}
    (hNot : ¬ ChecksTo cfg h .evicted e)
    (hEx : ∃ e' ∈ after ++ [e], ChecksTo cfg h .evicted e') :
    ∃ e' ∈ after, ChecksTo cfg h .evicted e' := by
  rcases hEx with ⟨e', hMem, hEvicts⟩
  rcases List.mem_append.mp hMem with hOld | hNew
  · exact ⟨e', hOld, hEvicts⟩
  · rw [List.mem_singleton.mp hNew] at hEvicts
    exact absurd hEvicts hNot

section Deserves

variable
  {h : String} {promoteAfter strikeMax : Int} {n n' : Node}
  {entered e : Event} {after : List Event}

/- An event that changes neither trust nor checks. -/
theorem Deserves.quiet
    (hDeserves :
      Deserves cfg h promoteAfter strikeMax n entered after)
    (hTrial : n'.trial = n.trial)
    (hOut :
      Registry.OutOfService n → Registry.OutOfService n')
    (hNoPass : passes h e = false)
    (hNoEvict : ¬ ChecksTo cfg h .evicted e) :
    Deserves cfg h promoteAfter strikeMax n' entered
      (after ++ [e]) := by
  simp only [Node.trial, Prod.mk.injEq] at hTrial
  rcases hTrial with ⟨hPassed, hTrust, hStrikes⟩
  refine ⟨?_, fun hTrusted => ?_, ?_, fun hEx => ?_⟩
  · rw [countP_snoc, hNoPass, hPassed, hDeserves.passed]
    rfl
  · apply Earned.snoc
    apply hDeserves.earned
    rw [← hTrust]
    exact hTrusted
  · rw [hStrikes]
    exact hDeserves.strikes.imp_left hOut
  · apply hOut
    exact hDeserves.evicted (not_evicted_snoc hNoEvict hEx)

/- set_trusted is applied. -/
theorem Deserves.setTrusted
    (hDeserves :
      Deserves cfg h promoteAfter strikeMax n entered after)
    (hSets : setsTrust h e = true)
    (hNoPass : passes h e = false)
    (hNoEvict : ¬ ChecksTo cfg h .evicted e) :
    Deserves cfg h promoteAfter strikeMax
      { n with trust := .trusted } entered
      (after ++ [e]) where
  passed := by
    rw [countP_snoc, hNoPass]
    exact hDeserves.passed
  earned _ := Or.inr (Or.inl ⟨e, by simp, hSets⟩)
  strikes := hDeserves.strikes
  evicted hEx :=
    hDeserves.evicted (not_evicted_snoc hNoEvict hEx)

/- A pass may promote the node: then it passed enough. -/
theorem Deserves.passCheck
    (hDeserves :
      Deserves cfg h promoteAfter strikeMax n entered after)
    (hPass : passes h e = true)
    (hNoEvict : ¬ ChecksTo cfg h .evicted e) :
    Deserves cfg h promoteAfter strikeMax
      (Topology.passCheck promoteAfter n) entered
      (after ++ [e]) := by
  have hOut :
      Registry.OutOfService
          (Topology.passCheck promoteAfter n) ↔
        Registry.OutOfService n := by
    simp [Registry.OutOfService]
  have hPassed :
      (Topology.passCheck promoteAfter n).checksPassed =
        (after ++ [e]).countP (passes h) := by
    rw [countP_snoc, hPass, ← hDeserves.passed]
    unfold Topology.passCheck
    simp only
    split
    · rfl
    · rfl
  have hStrikes :
      (Topology.passCheck promoteAfter n).strikes =
        n.strikes - 1 := by
    unfold Topology.passCheck
    simp only
    split
    · rfl
    · rfl
  refine ⟨hPassed, fun hTrusted => ?_, ?_, fun hEx => ?_⟩
  · by_cases hOld : n.trust = .trusted
    · exact (hDeserves.earned hOld).snoc e
    · -- this pass promoted it
      refine Or.inr (Or.inr ?_)
      rw [← hPassed]
      unfold Topology.passCheck at hTrusted ⊢
      simp only at hTrusted ⊢
      split at hTrusted
      next hPromote =>
        rw [if_pos hPromote]
        exact hPromote.2.1
      next => exact absurd hTrusted hOld
  · rw [hOut, hStrikes]
    rcases hDeserves.strikes with hGone | hLess
    · exact Or.inl hGone
    · right
      omega
  · rw [hOut]
    exact hDeserves.evicted (not_evicted_snoc hNoEvict hEx)

/- A fail adds a strike; the last one evicts. -/
theorem Deserves.failCheck
    (hDeserves :
      Deserves cfg h promoteAfter strikeMax n entered after)
    (hNoPass : passes h e = false)
    (hEvict :
      ChecksTo cfg h .evicted e →
        strikeMax ≤ (n.strikes + 1 : Nat)) :
    Deserves cfg h promoteAfter strikeMax
      (Topology.failCheck strikeMax n) entered
      (after ++ [e]) := by
  have hPassed :
      (Topology.failCheck strikeMax n).checksPassed =
        n.checksPassed := by
    unfold Topology.failCheck
    simp only
    split
    · rfl
    · rfl
  by_cases hMax : strikeMax ≤ (n.strikes + 1 : Nat)
  · have hDead :
        Registry.OutOfService
          (Topology.failCheck strikeMax n) := by
      left
      rw [Topology.failCheck_state, if_pos hMax]
    have hTrust :
        (Topology.failCheck strikeMax n).trust =
          .probation := by
      unfold Topology.failCheck
      simp only [hMax, if_true]
    refine ⟨?_, fun hTrusted => ?_, Or.inl hDead, fun _ => hDead⟩
    · rw [countP_snoc, hNoPass, hPassed]
      exact hDeserves.passed
    · rw [hTrust] at hTrusted
      cases hTrusted
  · have hSame :
        Topology.failCheck strikeMax n =
          { n with strikes := n.strikes + 1 } := by
      unfold Topology.failCheck
      simp only [hMax, if_false]
    have hOut :
        Registry.OutOfService n →
          Registry.OutOfService
            (Topology.failCheck strikeMax n) := by
      rw [hSame]
      exact id
    refine ⟨?_, fun hTrusted => ?_, ?_, fun hEx => ?_⟩
    · rw [countP_snoc, hNoPass, hPassed]
      exact hDeserves.passed
    · rw [hSame] at hTrusted
      exact (hDeserves.earned hTrusted).snoc e
    · right
      rw [Topology.failCheck_strikes]
      exact Int.not_le.mp hMax
    · apply hOut
      apply hDeserves.evicted
      exact not_evicted_snoc (fun h => hMax (hEvict h)) hEx

end Deserves

end TableOp

end CircuitDllm

------------------------------------------------------------
-- Steps and Runs
------------------------------------------------------------

namespace CircuitDllm

namespace TableOp

variable {cfg : RegistryConfig} {r : Registry}
variable {h : String} {promoteAfter strikeMax : Int}

/- The entry of a node is what it deserves. -/
def TrustLife
    (cfg : RegistryConfig)
    (h : String)
    (promoteAfter strikeMax : Int)
    (past : List Event)
    (n : Node) : Prop :=
  History.From (Enters cfg h)
    (Deserves cfg h promoteAfter strikeMax n) past

/- A fresh node has no checks, and no trust but a seed's. -/
theorem trustLife_enter
    (hMax : 1 ≤ strikeMax)
    (past : List Event)
    {e : Event}
    (hEnters : Enters cfg h e)
    {n : Node}
    (hPassed : n.checksPassed = 0)
    (hStrikes : n.strikes = 0)
    (hTrust : n.trust = .trusted → Seeds cfg h e) :
    TrustLife cfg h promoteAfter strikeMax (past ++ [e]) n := by
  apply History.from_start past hEnters
  refine ⟨hPassed, fun hTrusted => ?_, ?_, fun hEx => ?_⟩
  · exact Or.inl (hTrust hTrusted)
  · right
    rw [hStrikes]
    exact Int.lt_of_lt_of_le Int.zero_lt_one hMax
  · rcases hEx with ⟨_, hMem, _⟩
    exact absurd hMem List.not_mem_nil

/- An operation that leaves the entry as it was. -/
theorem TrustLife.other
    {past : List Event}
    {n : Node}
    (hLife : TrustLife cfg h promoteAfter strikeMax past n)
    {e : Event}
    (hNot : ¬ Enters cfg h e)
    (hNoPass : passes h e = false)
    (hNoEvict : ¬ ChecksTo cfg h .evicted e) :
    TrustLife cfg h promoteAfter strikeMax (past ++ [e]) n :=
  hLife.snoc hNot fun _ _ hDeserves =>
    hDeserves.quiet rfl id hNoPass hNoEvict

/- An operation that does `f` to one node of the table. -/
theorem trustLife_modify
    {past : List Event}
    (hLife :
      ∀ n, r.topo.nodes.get? h = some n →
        TrustLife cfg h promoteAfter strikeMax past n)
    {op : TableOp}
    {nodeId : String}
    {f : Node → Node}
    {n' : Node}
    (hN' :
      (if nodeId = h then (r.topo.nodes.get? h).map f
        else r.topo.nodes.get? h) = some n')
    (hNot : ¬ Enters cfg h (r, op))
    (hAway :
      nodeId ≠ h →
        passes h (r, op) = false ∧
          ¬ ChecksTo cfg h .evicted (r, op))
    (hHere :
      nodeId = h →
        ∀ n, r.topo.nodes.get? h = some n →
          ∀ entered after,
            Deserves cfg h promoteAfter strikeMax n entered
              after →
            Deserves cfg h promoteAfter strikeMax (f n)
              entered (after ++ [(r, op)])) :
    TrustLife cfg h promoteAfter strikeMax
      (past ++ [(r, op)]) n' := by
  by_cases hId : nodeId = h
  · rw [if_pos hId] at hN'
    rcases Option.map_eq_some_iff.mp hN' with ⟨n, hN, rfl⟩
    exact (hLife n hN).snoc hNot (hHere hId n hN)
  · rw [if_neg hId] at hN'
    exact
      (hLife n' hN').other hNot (hAway hId).1 (hAway hId).2

/- The last strike is what evicts. -/
theorem strikes_of_evicted
    {n : Node}
    (hN : r.topo.nodes.get? h = some n)
    {ok : Bool}
    (hEvicted :
      (r.topo.recordCheck h ok promoteAfter strikeMax).1 =
        some .evicted) :
    ok = false ∧ strikeMax ≤ (n.strikes + 1 : Nat) := by
  unfold Topology.recordCheck at hEvicted
  simp only [hN] at hEvicted
  cases ok with
  | true =>
      simp only [if_true] at hEvicted
      split at hEvicted
      · cases hEvicted
      · cases hEvicted
  | false =>
      simp only [Bool.false_eq_true, if_false] at hEvicted
      split at hEvicted
      next hMax => exact ⟨rfl, hMax⟩
      next => cases hEvicted

/- The registry passes on what its topology decides. -/
theorem recordCheck_action
    (r : Registry)
    (nodeId : String)
    (ok : Bool)
    (promote limit : Int) :
    (r.recordCheck cfg nodeId ok promote limit).1 =
      (r.topo.recordCheck nodeId ok promote limit).1 := by
  unfold Registry.recordCheck
  simp only
  split
  · rfl
  · rfl

/- A check of the node, recorded by either of the two. -/
theorem trustLife_check
    {past : List Event}
    (hLife :
      ∀ n, r.topo.nodes.get? h = some n →
        TrustLife cfg h promoteAfter strikeMax past n)
    {op : TableOp}
    {nodeId : String}
    {ok : Bool}
    {n' : Node}
    (hN' :
      (if nodeId = h then
          (r.topo.nodes.get? h).map
            (if ok then Topology.passCheck promoteAfter
              else Topology.failCheck strikeMax)
        else r.topo.nodes.get? h) = some n')
    (hNot : ¬ Enters cfg h (r, op))
    (hPasses :
      passes h (r, op) = decide (nodeId = h ∧ ok = true))
    (hEvicts :
      ChecksTo cfg h .evicted (r, op) ↔
        nodeId = h ∧
          (r.topo.recordCheck nodeId ok promoteAfter
            strikeMax).1 = some .evicted) :
    TrustLife cfg h promoteAfter strikeMax
      (past ++ [(r, op)]) n' := by
  refine
    trustLife_modify hLife hN' hNot (fun hId => ?_)
      (fun hId n hN entered after hDeserves => ?_)
  · exact ⟨by simp [hPasses, hId], fun h => hId (hEvicts.mp h).1⟩
  · subst hId
    cases ok with
    | true =>
        simp only [if_true]
        apply hDeserves.passCheck
        · simp [hPasses]
        · intro hEvicted
          have hFalse :=
            strikes_of_evicted hN (hEvicts.mp hEvicted).2
          cases hFalse.1
    | false =>
        simp only [Bool.false_eq_true, if_false]
        apply hDeserves.failCheck
        · simp [hPasses]
        · intro hEvicted
          exact
            (strikes_of_evicted hN (hEvicts.mp hEvicted).2).2

/- A registration enters the node, or is refused. -/
theorem trustLife_register
    {past : List Event}
    (hMax : 1 ≤ strikeMax)
    (hLife :
      ∀ n, r.topo.nodes.get? h = some n →
        TrustLife cfg h promoteAfter strikeMax past n)
    {node : Node}
    {now : ℚ}
    {preferRange : Option PreferRange}
    (hRegular :
      Regular promoteAfter strikeMax
        (.registry (.register node now preferRange)))
    {n' : Node}
    (hN' :
      r.nodeStep cfg h (.register node now preferRange)
          (r.topo.nodes.get? h) =
        some n') :
    TrustLife cfg h promoteAfter strikeMax
      (past ++
        [(r, .registry (.register node now preferRange))])
      n' := by
  rcases hRegular with ⟨hTrust, hPassed, hStrikes⟩
  simp only [Registry.nodeStep] at hN'
  by_cases hId : node.nodeId = h
  · rw [if_pos hId] at hN'
    cases hEntry : r.entry cfg node preferRange with
    | none =>
        simp only [hEntry] at hN'
        exact (hLife n' hN').other (fun h => h.2 hEntry) rfl id
    | some slot =>
        simp only [hEntry, Option.some.injEq] at hN'
        subst hN'
        have hEnters :
            Enters cfg h
              (r,
                .registry (.register node now preferRange)) :=
          ⟨hId, by simp [hEntry]⟩
        refine
          trustLife_enter hMax past hEnters hPassed hStrikes
            (fun hTrusted => ?_)
        simp only [Registry.enteredNode] at hTrusted
        split at hTrusted
        next hSeed => exact hId ▸ hSeed
        next =>
          rw [hTrust] at hTrusted
          cases hTrusted
  · rw [if_neg hId] at hN'
    exact (hLife n' hN').other (fun h => hId h.1) rfl id

/- Every operation of the registry keeps it. -/
theorem trustLife_registry
    {past : List Event}
    (hMax : 1 ≤ strikeMax)
    (hLife :
      ∀ n, r.topo.nodes.get? h = some n →
        TrustLife cfg h promoteAfter strikeMax past n)
    {op : RegistryOp}
    (hRegular : Regular promoteAfter strikeMax (.registry op))
    {n' : Node}
    (hN' :
      r.nodeStep cfg h op (r.topo.nodes.get? h) = some n') :
    TrustLife cfg h promoteAfter strikeMax
      (past ++ [(r, .registry op)]) n' := by
  cases op with
  | register node now preferRange =>
      exact trustLife_register hMax hLife hRegular hN'
  | heartbeat nodeId now =>
      refine
        trustLife_modify hLife hN' id (fun _ => ⟨rfl, id⟩)
          (fun _ n _ entered after hDeserves => ?_)
      split
      · exact hDeserves.quiet rfl id rfl id
      · refine hDeserves.quiet rfl (fun hOut => ?_)
          rfl id
        rcases hOut with hDead | hDraining
        · simp [Registry.OutOfService, hDead]
        · simp [Registry.OutOfService, hDraining]
  | drain nodeId =>
      refine
        trustLife_modify hLife hN' id (fun _ => ⟨rfl, id⟩)
          (fun _ n _ entered after hDeserves => ?_)
      exact
        hDeserves.quiet rfl (fun _ => Or.inr rfl) rfl
          id
  | markReady nodeId =>
      refine
        trustLife_modify hLife hN' id (fun _ => ⟨rfl, id⟩)
          (fun _ n _ entered after hDeserves => ?_)
      split
      next hJoining =>
        refine hDeserves.quiet rfl (fun hOut => ?_)
          rfl id
        rcases hOut with hDead | hDraining
        · rw [hJoining] at hDead
          cases hDead
        · rw [hJoining] at hDraining
          cases hDraining
      next => exact hDeserves.quiet rfl id rfl id
  | markSuspect nodeId =>
      refine
        trustLife_modify hLife hN' id (fun _ => ⟨rfl, id⟩)
          (fun _ n _ entered after hDeserves => ?_)
      split
      next hReady =>
        exact
          hDeserves.quiet rfl
            (fun hOut => absurd hReady hOut.not_ready) rfl id
      next => exact hDeserves.quiet rfl id rfl id
  | setTrusted nodeId =>
      refine
        trustLife_modify hLife hN' id (fun _ => ⟨rfl, id⟩)
          (fun hId n _ entered after hDeserves => ?_)
      exact
        hDeserves.setTrusted (by simp [setsTrust, hId]) rfl id
  | recordCheck nodeId ok promote limit =>
      rcases hRegular with ⟨rfl, rfl⟩
      refine trustLife_check hLife hN' id rfl ?_
      simp only [ChecksTo, recordCheck_action]
  | tick now =>
      have hMap := (Option.filter_eq_some_iff.mp hN').1
      rcases Option.map_eq_some_iff.mp hMap with ⟨n, hN, rfl⟩
      refine
        (hLife n hN).snoc id (fun entered after hDeserves => ?_)
      unfold Topology.reaped
      split
      · exact
          hDeserves.quiet rfl (fun _ => Or.inl rfl)
            rfl id
      · exact hDeserves.quiet rfl id rfl id
  | restart =>
      simp only [Registry.nodeStep] at hN'
      split at hN'
      · exact (hLife n' hN').other id rfl id
      · cases hN'
  | setRtt _ _ | acquireRoute _ | releaseRoute _
  | acquireEntry _ | releaseEntry _ | recordWork _ _
  | settle _ | disk _ =>
      exact (hLife n' hN').other id rfl id

/- Every operation keeps what the entries deserve. -/
theorem trustLife_step
    {past : List Event}
    (hMax : 1 ≤ strikeMax)
    (hLife :
      ∀ n, r.topo.nodes.get? h = some n →
        TrustLife cfg h promoteAfter strikeMax past n)
    {op : TableOp}
    (hRegular : Regular promoteAfter strikeMax op)
    {n' : Node}
    (hN' :
      (step cfg r op).topo.nodes.get? h = some n') :
    TrustLife cfg h promoteAfter strikeMax
      (past ++ [(r, op)]) n' := by
  rw [get?_step] at hN'
  cases op with
  | registry op =>
      exact trustLife_registry hMax hLife hRegular hN'
  | register node now preferRange =>
      rcases hRegular with ⟨hTrust, hPassed, hStrikes⟩
      simp only [nodeStep] at hN'
      by_cases hId : node.nodeId = h
      · rw [if_pos hId] at hN'
        split at hN'
        next e hError =>
          refine (hLife n' hN').other ?_ rfl id
          rintro ⟨_, slot, hOk⟩
          rw [hError] at hOk
          cases hOk
        next slot hOk =>
          cases hN'
          have hEnters :
              Enters cfg h
                (r, .register node now preferRange) :=
            ⟨hId, slot, hOk⟩
          refine
            trustLife_enter hMax past hEnters hPassed
              hStrikes (fun hTrusted => ?_)
          rw [hTrust] at hTrusted
          cases hTrusted
      · rw [if_neg hId] at hN'
        exact (hLife n' hN').other (fun h => hId h.1) rfl id
  | registerOrchestrator node now =>
      rcases hRegular with ⟨hTrust, hPassed, hStrikes⟩
      simp only [nodeStep] at hN'
      by_cases hId : node.nodeId = h
      · rw [if_pos hId] at hN'
        split at hN'
        next e hError =>
          refine (hLife n' hN').other ?_ rfl id
          rintro ⟨_, hOk⟩
          rw [hError] at hOk
          cases hOk
        next hOk =>
          cases hN'
          have hEnters :
              Enters cfg h
                (r, .registerOrchestrator node now) :=
            ⟨hId, hOk⟩
          refine
            trustLife_enter hMax past hEnters hPassed
              hStrikes (fun hTrusted => ?_)
          rw [hTrust] at hTrusted
          cases hTrusted
      · rw [if_neg hId] at hN'
        exact (hLife n' hN').other (fun h => hId h.1) rfl id
  | recordCheck nodeId ok promote limit =>
      rcases hRegular with ⟨rfl, rfl⟩
      exact trustLife_check hLife hN' id rfl Iff.rfl
  | reap now =>
      rcases Option.map_eq_some_iff.mp hN' with ⟨n, hN, rfl⟩
      refine
        (hLife n hN).snoc id (fun entered after hDeserves => ?_)
      unfold Topology.reaped
      split
      · exact
          hDeserves.quiet rfl (fun _ => Or.inl rfl)
            rfl id
      · exact hDeserves.quiet rfl id rfl id
  | purge now =>
      have hOld := (Option.filter_eq_some_iff.mp hN').1
      exact (hLife n' hOld).other id rfl id
  | remove nodeId =>
      simp only [nodeStep] at hN'
      split at hN'
      · cases hN'
      · exact (hLife n' hN').other id rfl id

/- A promotion leaves the node without strikes. -/
theorem strikes_of_promoted
    {e : Event}
    (hPromoted : ChecksTo cfg h .promoted e) :
    ∃ n, (step cfg e.1 e.2).topo.nodes.get? h = some n ∧
      n.strikes = 0 := by
  have hTopo
      (t : Topology)
      (ok : Bool)
      (promote limit : Int)
      (hAction :
        (t.recordCheck h ok promote limit).1 =
          some .promoted) :
      ∃ n,
        (t.nodes.get? h).map
            (if ok then Topology.passCheck promote
              else Topology.failCheck limit) = some n ∧
          n.strikes = 0 := by
    unfold Topology.recordCheck at hAction
    cases hN : t.nodes.get? h with
    | none =>
        simp only [hN] at hAction
        cases hAction
    | some n =>
        simp only [hN] at hAction
        cases ok with
        | false =>
            simp only [Bool.false_eq_true, if_false]
              at hAction
            split at hAction
            · cases hAction
            · cases hAction
        | true =>
            simp only [if_true] at hAction
            split at hAction
            next hPromote =>
              refine ⟨_, rfl, ?_⟩
              simp only [if_true]
              have hNew := hPromote.2
              unfold Topology.passCheck at hNew ⊢
              simp only at hNew ⊢
              split at hNew
              next hAll =>
                rw [if_pos hAll]
                exact hAll.2.2
              next => exact absurd hNew hPromote.1
            next => cases hAction
  rcases e with ⟨r, op⟩
  rw [get?_step]
  cases op with
  | registry op =>
      cases op with
      | recordCheck nodeId ok promote limit =>
          rcases hPromoted with ⟨rfl, hAction⟩
          rw [recordCheck_action] at hAction
          simp only [nodeStep, Registry.nodeStep, if_true]
          exact hTopo r.topo ok promote limit hAction
      | _ => exact hPromoted.elim
  | recordCheck nodeId ok promote limit =>
      rcases hPromoted with ⟨rfl, hAction⟩
      simp only [nodeStep, if_true]
      exact hTopo r.topo ok promote limit hAction
  | _ => exact hPromoted.elim

theorem not_enters_of_checksTo
    {action : CheckAction}
    {e : Event}
    (hCheck : ChecksTo cfg h action e) :
    ¬ Enters cfg h e := by
  rcases e with ⟨r, op⟩
  cases op with
  | registry op =>
      cases op with
      | recordCheck nodeId ok promote limit => exact id
      | _ => exact hCheck.elim
  | recordCheck nodeId ok promote limit => exact id
  | _ => exact hCheck.elim

/-
  However registrations, checks and liveness messages
  interleave, trust is earned and evictions are final.
-/
theorem trustKept_run
    {r₀ : Registry}
    (hCreate : Registry.create cfg = .ok r₀)
    (hMax : 1 ≤ strikeMax)
    {ops : List TableOp}
    (hRegular :
      ∀ op ∈ ops, Regular promoteAfter strikeMax op) :
    TrustKept cfg promoteAfter strikeMax (trail cfg r₀ ops)
      (run cfg r₀ ops) := by
  have hLife :
      ∀ h n, (run cfg r₀ ops).topo.nodes.get? h = some n →
        TrustLife cfg h promoteAfter strikeMax
          (trail cfg r₀ ops) n := by
    refine
      History.induction_of (step cfg)
        (fun e => Regular promoteAfter strikeMax e.2)
        (fun past r =>
          ∀ h n, r.topo.nodes.get? h = some n →
            TrustLife cfg h promoteAfter strikeMax past n)
        (fun h n hN => ?_)
        (fun past r op hOp hInv h n' hN' => ?_)
        (fun e hE => hRegular e.2 (History.mem_of_trail hE))
    · rcases Registry.create_ok hCreate with
        ⟨topo, hTopo, rfl⟩
      rw [Topology.create_nodes hTopo] at hN
      cases hN
    · exact trustLife_step hMax (hInv h) hOp hN'
  exact
    { earned := fun h n hN hTrusted =>
        (hLife h n hN).imp fun _ _ hDeserves =>
          hDeserves.earned hTrusted
      strikes := fun h n hN hState => by
        rcases hLife h n hN with
          ⟨_, _, _, _, _, _, hDeserves⟩
        rcases hDeserves.strikes with hOut | hLess
        · rcases hOut with hDead | hDraining
          · simp [hDead] at hState
          · simp [hDraining] at hState
        · exact hLess
      promoted := fun h e _ => strikes_of_promoted
      evicted := fun h before e after hPast hEvicts hNone n
          hN => by
        have hNot := not_enters_of_checksTo hEvicts
        rcases (hLife h n hN).of_split hPast hNot hNone with
          ⟨_, since, hDeserves, hMem⟩
        exact
          (hDeserves.evicted ⟨e, hMem, hEvicts⟩).not_ready }

/- A newcomer is promoted, and evicted after two fails. -/
def newcomer : List TableOp :=
  [.registry (.register (Registry.joining "new") 0 none),
    .registry (.markReady "new"),
    .registry (.recordCheck "new" true 1 2),
    .registry (.recordCheck "new" false 1 2),
    .recordCheck "new" false 1 2,
    .reap 100]

theorem trustKept_run_newcomer :
    ∃ r₀,
      Registry.create Registry.oneSlot = .ok r₀ ∧
        TrustKept Registry.oneSlot 1 2
          (trail Registry.oneSlot r₀ newcomer)
          (run Registry.oneSlot r₀ newcomer) := by
  refine ⟨_, rfl, trustKept_run rfl (by decide) ?_⟩
  intro op hOp
  simp only [newcomer, List.mem_cons, List.not_mem_nil,
    or_false] at hOp
  rcases hOp with rfl | rfl | rfl | rfl | rfl | rfl
  · exact ⟨rfl, rfl, rfl⟩
  · trivial
  · exact ⟨rfl, rfl⟩
  · exact ⟨rfl, rfl⟩
  · exact ⟨rfl, rfl⟩
  · trivial

end TableOp

end CircuitDllm
