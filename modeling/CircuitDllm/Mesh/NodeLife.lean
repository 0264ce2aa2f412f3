import CircuitDllm.Lib.History
import CircuitDllm.Mesh.Steps

/-
  The life of a node, from its last registration on.

  What a state says about the past: a READY node was marked
  ready, it was neither drained nor reaped nor evicted, and
  it was heard after every suspicion.  Each operation keeps
  this of every node in the table.

  Main declarations:
    * `Registry.trail`, `Registry.InService`
    * `Registry.Life`
    * `Registry.life_step`, `Registry.life_run`
-/

------------------------------------------------------------
-- The Life of a Node
------------------------------------------------------------

namespace CircuitDllm

namespace Registry

/- An operation of a run and the registry it met. -/
abbrev Event := Registry × RegistryOp

variable (cfg : RegistryConfig)

/- The events of a run, in order. -/
def trail (r : Registry) (ops : List RegistryOp) :
    List Event :=
  History.trail (step cfg) r ops

/- The node registered, and was not refused. -/
def Registers (h : String) (e : Event) : Prop :=
  ∃ node now preferRange admission,
    e.2 = .register node now preferRange ∧
      node.nodeId = h ∧
      (e.1.register cfg node now preferRange).1 =
        .ok admission

/- It was drained, reaped or evicted. -/
def Retires (h : String) (e : Event) : Prop :=
  e.2 = .drain h ∨
    (∃ now, e.2 = .tick now ∧ h ∈ (e.1.tick now).1.reaped) ∨
    ∃ ok promoteAfter strikeMax,
      e.2 = .recordCheck h ok promoteAfter strikeMax ∧
        (e.1.recordCheck cfg h ok promoteAfter
          strikeMax).1 = some .evicted

/- It was marked SUSPECT while it was READY. -/
def Suspects (h : String) (e : Event) : Prop :=
  e.2 = .markSuspect h ∧
    ∃ n, e.1.topo.nodes.get? h = some n ∧ n.state = .ready

/- It sent a heartbeat. -/
def Hears (h : String) (e : Event) : Prop :=
  ∃ now, e.2 = .heartbeat h now

/-
  Since its last registration the node was marked ready, it
  has not left, and it was heard after every suspicion.
-/
def InService (h : String) (past : List Event) : Prop :=
  History.Since (Registers cfg h)
    (fun after =>
      (∃ e ∈ after, e.2 = .markReady h) ∧
        (∀ e ∈ after, ¬ Retires cfg h e) ∧
        History.Answered (Suspects h) (Hears h) after)
    past

/- What a state says about the time since the registration. -/
def Fits (h : String) (state : NodeState)
    (after : List Event) : Prop :=
  match state with
  | .joining =>
    (∀ e ∈ after, ¬ Retires cfg h e) ∧
      History.Answered (Suspects h) (Hears h) after
  | .ready =>
    (∃ e ∈ after, e.2 = .markReady h) ∧
      (∀ e ∈ after, ¬ Retires cfg h e) ∧
      History.Answered (Suspects h) (Hears h) after
  | .suspect =>
    (∃ e ∈ after, e.2 = .markReady h) ∧
      ∀ e ∈ after, ¬ Retires cfg h e
  | .dead => True
  | .draining => True

/- The life of a node in the table. -/
def Life (h : String) (past : List Event) (n : Node) : Prop :=
  History.Since (Registers cfg h) (Fits cfg h n.state) past ∧
    (n.slot.isSome → n.orchestrator = false)

variable {cfg : RegistryConfig}

/- An event that is no retirement adds none. -/
theorem not_retires_snoc
    {h : String}
    {after : List Event}
    {e : Event}
    (hAfter : ∀ e ∈ after, ¬ Retires cfg h e)
    (hNot : ¬ Retires cfg h e) :
    ∀ e' ∈ after ++ [e], ¬ Retires cfg h e' := by
  intro e' hMem
  rcases List.mem_append.mp hMem with hOld | hNew
  · exact hAfter e' hOld
  · rw [List.mem_singleton] at hNew
    rw [hNew]
    exact hNot

theorem markedReady_snoc
    {h : String}
    {after : List Event}
    {e : Event}
    (hAfter : ∃ e ∈ after, e.2 = .markReady h) :
    ∃ e' ∈ after ++ [e], e'.2 = .markReady h := by
  rcases hAfter with ⟨e', hMem, hReady⟩
  exact ⟨e', List.mem_append_left _ hMem, hReady⟩

/- An event that concerns the node in none of these ways. -/
theorem Fits.snoc
    {h : String}
    {state : NodeState}
    {after : List Event}
    {e : Event}
    (hFits : Fits cfg h state after)
    (hRetires : ¬ Retires cfg h e)
    (hSuspects : ¬ Suspects h e) :
    Fits cfg h state (after ++ [e]) := by
  cases state with
  | joining =>
      exact
        ⟨not_retires_snoc hFits.1 hRetires,
          hFits.2.snoc hSuspects⟩
  | ready =>
      exact
        ⟨markedReady_snoc hFits.1,
          not_retires_snoc hFits.2.1 hRetires,
          hFits.2.2.snoc hSuspects⟩
  | suspect =>
      exact
        ⟨markedReady_snoc hFits.1,
          not_retires_snoc hFits.2 hRetires⟩
  | dead => trivial
  | draining => trivial

/- The node's own readiness, after joining or not. -/
theorem Fits.markReady
    {h : String}
    {state : NodeState}
    {after : List Event}
    {e : Event}
    (hFits : Fits cfg h state after)
    (hReady : e.2 = .markReady h)
    (hRetires : ¬ Retires cfg h e)
    (hSuspects : ¬ Suspects h e) :
    Fits cfg h
      (if state = .joining then .ready else state)
      (after ++ [e]) := by
  by_cases hJoining : state = .joining
  · subst hJoining
    exact
      ⟨⟨e, by simp, hReady⟩,
        not_retires_snoc hFits.1 hRetires,
        hFits.2.snoc hSuspects⟩
  · rw [if_neg hJoining]
    exact hFits.snoc hRetires hSuspects

/- A heartbeat clears a suspicion. -/
theorem Fits.heartbeat
    {h : String}
    {state : NodeState}
    {after : List Event}
    {e : Event}
    (hFits : Fits cfg h state after)
    (hHears : Hears h e)
    (hRetires : ¬ Retires cfg h e)
    (hSuspects : ¬ Suspects h e) :
    Fits cfg h
      (if state = .suspect then .ready else state)
      (after ++ [e]) := by
  by_cases hSuspect : state = .suspect
  · subst hSuspect
    exact
      ⟨markedReady_snoc hFits.1,
        not_retires_snoc hFits.2 hRetires,
        History.answered_of_answer after hHears hSuspects⟩
  · rw [if_neg hSuspect]
    exact hFits.snoc hRetires hSuspects

/- A suspicion that finds it READY. -/
theorem Fits.markSuspect
    {h : String}
    {after : List Event}
    {e : Event}
    (hFits : Fits cfg h .ready after)
    (hRetires : ¬ Retires cfg h e) :
    Fits cfg h .suspect (after ++ [e]) :=
  ⟨markedReady_snoc hFits.1,
    not_retires_snoc hFits.2.1 hRetires⟩

/- The life goes on over an event that is no registration. -/
theorem Life.snoc
    {h : String}
    {past : List Event}
    {e : Event}
    {n n' : Node}
    (hLife : Life cfg h past n)
    (hSlot : n'.slot = n.slot)
    (hOrch : n'.orchestrator = n.orchestrator)
    (hReg : ¬ Registers cfg h e)
    (hFits :
      ∀ after,
        Fits cfg h n.state after →
          Fits cfg h n'.state (after ++ [e])) :
    Life cfg h (past ++ [e]) n' := by
  refine ⟨hLife.1.snoc hReg hFits, fun hIs => ?_⟩
  rw [hOrch]
  exact hLife.2 (hSlot ▸ hIs)

/- An event that leaves state and slot of the node alone. -/
theorem Life.quiet
    {h : String}
    {past : List Event}
    {e : Event}
    {n n' : Node}
    (hLife : Life cfg h past n)
    (hSlot : n'.slot = n.slot)
    (hOrch : n'.orchestrator = n.orchestrator)
    (hState : n'.state = n.state)
    (hReg : ¬ Registers cfg h e)
    (hRetires : ¬ Retires cfg h e)
    (hSuspects : ¬ Suspects h e) :
    Life cfg h (past ++ [e]) n' := by
  refine hLife.snoc hSlot hOrch hReg (fun after hFits => ?_)
  rw [hState]
  exact hFits.snoc hRetires hSuspects

/- A registration starts a life, or was refused. -/
theorem life_register
    {r : Registry}
    {h : String}
    {past : List Event}
    (hKey : ∀ h, cfg.deriveNodeKey h ≠ none)
    (hLife :
      ∀ n, r.topo.nodes.get? h = some n →
        Life cfg h past n)
    (node : Node)
    (now : ℚ)
    (preferRange : Option PreferRange)
    {n' : Node}
    (hN' :
      r.nodeStep cfg h (.register node now preferRange)
        (r.topo.nodes.get? h) = some n') :
    Life cfg h
      (past ++ [(r, .register node now preferRange)]) n' := by
  have hRetires :
      ¬ Retires cfg h
        (r, .register node now preferRange) := by
    simp [Retires]
  have hSuspects :
      ¬ Suspects h (r, .register node now preferRange) := by
    simp [Suspects]
  have hOk :=
    register_ok_iff cfg (hKey node.nodeId) now preferRange r
  simp only [nodeStep] at hN'
  by_cases hId : node.nodeId = h
  · rw [if_pos hId] at hN'
    cases hEntry : r.entry cfg node preferRange with
    | none =>
        simp only [hEntry] at hN' hOk
        have hReg :
            ¬ Registers cfg h
              (r, .register node now preferRange) := by
          rintro ⟨node', now', range', a, hOp, _, hAdm⟩
          cases hOp
          simpa using hOk.mp ⟨a, hAdm⟩
        exact
          (hLife n' hN').quiet rfl rfl rfl hReg hRetires
            hSuspects
    | some slot =>
        simp only [hEntry, Option.some.injEq] at hN' hOk
        rcases hOk.mpr ⟨slot, rfl⟩ with ⟨a, hAdm⟩
        have hReg :
            Registers cfg h
              (r, .register node now preferRange) :=
          ⟨node, now, preferRange, a, rfl, hId, hAdm⟩
        have hNone := isNone_of_entry cfg hEntry
        subst hN'
        refine
          ⟨History.since_start past hReg ?_, fun hIs => ?_⟩
        · exact ⟨by simp, History.answered_nil⟩
        · simp only [enteredNode] at hIs ⊢
          rw [← hNone]
          cases slot with
          | none => simp at hIs
          | some index => rfl
  · rw [if_neg hId] at hN'
    have hReg :
        ¬ Registers cfg h
          (r, .register node now preferRange) := by
      rintro ⟨node', now', range', a, hOp, hId', _⟩
      cases hOp
      exact hId hId'
    exact
      (hLife n' hN').quiet rfl rfl rfl hReg hRetires hSuspects

/- The reaper names the nodes that are overdue. -/
theorem mem_reaped
    {r : Registry}
    (hWf : r.topo.WellFormed)
    {h : String}
    {n : Node}
    (hN : r.topo.nodes.get? h = some n)
    (now : ℚ) :
    h ∈ (r.tick now).1.reaped ↔
      r.topo.overdue now n = true := by
  simp only [tick, Topology.reap, List.mem_map,
    List.mem_filter, Dict.mem_values]
  constructor
  · rintro ⟨m, ⟨⟨k, hK⟩, hOver⟩, hId⟩
    rw [hWf.keyed k m hK] at hId
    subst hId
    rw [hN] at hK
    cases hK
    exact hOver
  · intro hOver
    exact ⟨n, ⟨⟨h, hN⟩, hOver⟩, hWf.keyed h n hN⟩

/- A tick ends the lives of the overdue nodes only. -/
theorem life_tick
    {r : Registry}
    (hWf : r.topo.WellFormed)
    {h : String}
    {past : List Event}
    (hLife :
      ∀ n, r.topo.nodes.get? h = some n →
        Life cfg h past n)
    (now : ℚ)
    {n' : Node}
    (hN' :
      r.nodeStep cfg h (.tick now)
        (r.topo.nodes.get? h) = some n') :
    Life cfg h (past ++ [(r, .tick now)]) n' := by
  have hReg : ¬ Registers cfg h (r, .tick now) := by
    simp [Registers]
  simp only [nodeStep, Option.filter_eq_some_iff,
    Option.map_eq_some_iff] at hN'
  rcases hN' with ⟨⟨n, hN, rfl⟩, _⟩
  by_cases hOver : r.topo.overdue now n = true
  · refine (hLife n hN).snoc ?_ ?_ hReg (fun after _ => ?_)
    · simp [Topology.reaped, hOver]
    · simp [Topology.reaped, hOver]
    · simp [Topology.reaped, hOver, Fits]
  · have hRetires : ¬ Retires cfg h (r, .tick now) := by
      rintro (hOp | ⟨now', hOp, hMem⟩ | ⟨_, _, _, hOp, _⟩)
      · cases hOp
      · cases hOp
        exact hOver ((mem_reaped hWf hN now).mp hMem)
      · cases hOp
    refine
      (hLife n hN).quiet ?_ ?_ ?_ hReg hRetires
        (by simp [Suspects])
    · simp [Topology.reaped, hOver]
    · simp [Topology.reaped, hOver]
    · simp [Topology.reaped, hOver]

/- An operation on another node, or on none. -/
theorem life_other
    {r : Registry}
    {h : String}
    {past : List Event}
    {op : RegistryOp}
    (hLife :
      ∀ n, r.topo.nodes.get? h = some n →
        Life cfg h past n)
    {n' : Node}
    (hN' : r.topo.nodes.get? h = some n')
    (hReg : ¬ Registers cfg h (r, op))
    (hRetires : ¬ Retires cfg h (r, op))
    (hSuspects : ¬ Suspects h (r, op)) :
    Life cfg h (past ++ [(r, op)]) n' :=
  (hLife n' hN').quiet rfl rfl rfl hReg hRetires hSuspects

/- An operation that does `f` to one node of the table. -/
theorem life_modify
    {r : Registry}
    {h nodeId : String}
    {past : List Event}
    {op : RegistryOp}
    {f : Node → Node}
    (hLife :
      ∀ n, r.topo.nodes.get? h = some n →
        Life cfg h past n)
    {n' : Node}
    (hN' :
      (if nodeId = h then (r.topo.nodes.get? h).map f
        else r.topo.nodes.get? h) = some n')
    (hReg : ¬ Registers cfg h (r, op))
    (hAway :
      nodeId ≠ h →
        ¬ Retires cfg h (r, op) ∧ ¬ Suspects h (r, op))
    (hHere :
      nodeId = h →
        ∀ n, r.topo.nodes.get? h = some n →
          Life cfg h (past ++ [(r, op)]) (f n)) :
    Life cfg h (past ++ [(r, op)]) n' := by
  by_cases hId : nodeId = h
  · rw [if_pos hId] at hN'
    rcases Option.map_eq_some_iff.mp hN' with ⟨n, hN, rfl⟩
    exact hHere hId n hN
  · rw [if_neg hId] at hN'
    exact
      life_other hLife hN' hReg (hAway hId).1
        (hAway hId).2

/- A failed challenge evicts at the last strike. -/
theorem recordCheck_action
    {r : Registry}
    {h : String}
    {n : Node}
    (hN : r.topo.nodes.get? h = some n)
    (promoteAfter strikeMax : Int) :
    (r.recordCheck cfg h false promoteAfter strikeMax).1 =
      if strikeMax ≤ (n.strikes + 1 : Nat) then some .evicted
      else none := by
  unfold recordCheck
  simp only [Topology.recordCheck, hN]
  by_cases hMax : strikeMax ≤ (n.strikes + 1 : Nat)
  · simp only [hMax, if_true]
    rfl
  · simp only [hMax, if_false]
    rfl

/- A passed one evicts nobody. -/
theorem recordCheck_pass
    (r : Registry)
    (h : String)
    (promoteAfter strikeMax : Int) :
    (r.recordCheck cfg h true promoteAfter strikeMax).1 ≠
      some .evicted := by
  unfold recordCheck
  simp only [Topology.recordCheck]
  cases r.topo.nodes.get? h with
  | none => simp
  | some n => split <;> simp_all

/- A challenge ends the life of a node it evicts only. -/
theorem life_recordCheck
    {r : Registry}
    {h : String}
    {past : List Event}
    (hLife :
      ∀ n, r.topo.nodes.get? h = some n →
        Life cfg h past n)
    (nodeId : String)
    (ok : Bool)
    (promoteAfter strikeMax : Int)
    {n' : Node}
    (hN' :
      r.nodeStep cfg h
        (.recordCheck nodeId ok promoteAfter strikeMax)
        (r.topo.nodes.get? h) = some n') :
    Life cfg h
      (past ++
        [(r, .recordCheck nodeId ok promoteAfter strikeMax)])
      n' := by
  have hReg :
      ¬ Registers cfg h
        (r, .recordCheck nodeId ok promoteAfter strikeMax) :=
    by simp [Registers]
  have hSuspects :
      ¬ Suspects h
        (r, .recordCheck nodeId ok promoteAfter strikeMax) :=
    by simp [Suspects]
  refine
    life_modify hLife hN' hReg
      (fun hId => ⟨?_, hSuspects⟩) (fun hId n hN => ?_)
  · rintro (hOp | ⟨_, hOp, _⟩ | ⟨_, _, _, hOp, _⟩)
    · cases hOp
    · cases hOp
    · cases hOp
      exact hId rfl
  subst hId
  have hLifeN := hLife n hN
  cases ok with
  | true =>
      have hRetires :
          ¬ Retires cfg nodeId
            (r, .recordCheck nodeId true promoteAfter
              strikeMax) := by
        rintro (hOp | ⟨_, hOp, _⟩ | ⟨_, _, _, hOp, hEv⟩)
        · cases hOp
        · cases hOp
        · cases hOp
          exact recordCheck_pass r nodeId _ _ hEv
      simp only [if_true]
      exact
        hLifeN.quiet (by simp) (by simp) (by simp) hReg
          hRetires hSuspects
  | false =>
      simp only [Bool.false_eq_true, if_false]
      by_cases hMax : strikeMax ≤ (n.strikes + 1 : Nat)
      · refine
          hLifeN.snoc (by simp) (by simp) hReg
            (fun after _ => ?_)
        rw [Topology.failCheck_state, if_pos hMax]
        trivial
      · have hRetires :
            ¬ Retires cfg nodeId
              (r, .recordCheck nodeId false promoteAfter
                strikeMax) := by
          rintro (hOp | ⟨_, hOp, _⟩ | ⟨_, _, _, hOp, hEv⟩)
          · cases hOp
          · cases hOp
          · cases hOp
            rw [recordCheck_action hN, if_neg hMax] at hEv
            cases hEv
        refine
          hLifeN.quiet (by simp) (by simp) ?_ hReg hRetires
            hSuspects
        rw [Topology.failCheck_state, if_neg hMax]

/- A heartbeat is heard by a node that is not DEAD. -/
theorem life_heartbeat
    {r : Registry}
    {h : String}
    {past : List Event}
    {n : Node}
    (hLife : Life cfg h past n)
    (now : ℚ) :
    Life cfg h (past ++ [(r, .heartbeat h now)])
      (if n.state = .dead then n
        else
          { n with
            lastHb := now
            state :=
              if n.state = .suspect then .ready
              else n.state }) := by
  have hReg : ¬ Registers cfg h (r, .heartbeat h now) := by
    simp [Registers]
  have hRetires :
      ¬ Retires cfg h (r, .heartbeat h now) := by
    simp [Retires]
  have hSuspects : ¬ Suspects h (r, .heartbeat h now) := by
    simp [Suspects]
  by_cases hDead : n.state = .dead
  · rw [if_pos hDead]
    exact hLife.quiet rfl rfl rfl hReg hRetires hSuspects
  · rw [if_neg hDead]
    refine hLife.snoc rfl rfl hReg (fun after hFits => ?_)
    exact hFits.heartbeat ⟨now, rfl⟩ hRetires hSuspects

/- A node that marks itself ready. -/
theorem life_markReady
    {r : Registry}
    {h : String}
    {past : List Event}
    {n : Node}
    (hLife : Life cfg h past n) :
    Life cfg h (past ++ [(r, .markReady h)])
      (if n.state = .joining then { n with state := .ready }
        else n) := by
  have hReg : ¬ Registers cfg h (r, .markReady h) := by
    simp [Registers]
  have hRetires : ¬ Retires cfg h (r, .markReady h) := by
    simp [Retires]
  have hSuspects : ¬ Suspects h (r, .markReady h) := by
    simp [Suspects]
  by_cases hJoining : n.state = .joining
  · rw [if_pos hJoining]
    refine hLife.snoc rfl rfl hReg (fun after hFits => ?_)
    have hNext := hFits.markReady rfl hRetires hSuspects
    rw [if_pos hJoining] at hNext
    exact hNext
  · rw [if_neg hJoining]
    exact hLife.quiet rfl rfl rfl hReg hRetires hSuspects

/- A node that a coordinator could not reach. -/
theorem life_markSuspect
    {r : Registry}
    {h : String}
    {past : List Event}
    {n : Node}
    (hN : r.topo.nodes.get? h = some n)
    (hLife : Life cfg h past n) :
    Life cfg h (past ++ [(r, .markSuspect h)])
      (if n.state = .ready then { n with state := .suspect }
        else n) := by
  have hReg : ¬ Registers cfg h (r, .markSuspect h) := by
    simp [Registers]
  have hRetires : ¬ Retires cfg h (r, .markSuspect h) := by
    simp [Retires]
  by_cases hReady : n.state = .ready
  · rw [if_pos hReady]
    refine hLife.snoc rfl rfl hReg (fun after hFits => ?_)
    rw [hReady] at hFits
    exact hFits.markSuspect hRetires
  · rw [if_neg hReady]
    refine hLife.quiet rfl rfl rfl hReg hRetires ?_
    rintro ⟨_, m, hM, hMReady⟩
    rw [hN] at hM
    cases hM
    exact hReady hMReady

/- Every operation keeps the lives of the nodes. -/
theorem life_step
    {r : Registry}
    (hWf : r.topo.WellFormed)
    {h : String}
    {past : List Event}
    (hKey : ∀ h, cfg.deriveNodeKey h ≠ none)
    (hLife :
      ∀ n, r.topo.nodes.get? h = some n →
        Life cfg h past n)
    (op : RegistryOp)
    {n' : Node}
    (hN' :
      (r.step cfg op).topo.nodes.get? h = some n') :
    Life cfg h (past ++ [(r, op)]) n' := by
  rw [get?_step] at hN'
  cases op with
  | register node now preferRange =>
      exact life_register hKey hLife node now preferRange hN'
  | heartbeat nodeId now =>
      refine
        life_modify hLife hN' (by simp [Registers])
          (fun _ => ⟨by simp [Retires], by simp [Suspects]⟩)
          (fun hId n hN => ?_)
      subst hId
      exact life_heartbeat (hLife n hN) now
  | drain nodeId =>
      refine
        life_modify hLife hN' (by simp [Registers])
          (fun hId =>
            ⟨by simp [Retires, hId], by simp [Suspects]⟩)
          (fun hId n hN => ?_)
      exact
        (hLife n hN).snoc rfl rfl (by simp [Registers])
          (fun _ _ => trivial)
  | markReady nodeId =>
      refine
        life_modify hLife hN' (by simp [Registers])
          (fun _ => ⟨by simp [Retires], by simp [Suspects]⟩)
          (fun hId n hN => ?_)
      subst hId
      exact life_markReady (hLife n hN)
  | markSuspect nodeId =>
      refine
        life_modify hLife hN' (by simp [Registers])
          (fun hId =>
            ⟨by simp [Retires], by simp [Suspects, hId]⟩)
          (fun hId n hN => ?_)
      subst hId
      exact life_markSuspect hN (hLife n hN)
  | setTrusted nodeId =>
      refine
        life_modify hLife hN' (by simp [Registers])
          (fun _ => ⟨by simp [Retires], by simp [Suspects]⟩)
          (fun hId n hN => ?_)
      exact
        (hLife n hN).quiet rfl rfl rfl (by simp [Registers])
          (by simp [Retires]) (by simp [Suspects])
  | recordCheck nodeId ok promoteAfter strikeMax =>
      exact
        life_recordCheck hLife nodeId ok promoteAfter
          strikeMax hN'
  | tick now => exact life_tick hWf hLife now hN'
  | restart =>
      simp only [nodeStep] at hN'
      split at hN'
      · exact
          life_other hLife hN' (by simp [Registers])
            (by simp [Retires]) (by simp [Suspects])
      · cases hN'
  | setRtt _ _ | acquireRoute _ | releaseRoute _
  | acquireEntry _ | releaseEntry _ | recordWork _ _
  | settle _ | disk _ =>
      exact
        life_other hLife hN' (by simp [Registers])
          (by simp [Retires]) (by simp [Suspects])

/- After any run, every node in the table lives its life. -/
theorem life_run
    {r₀ : Registry}
    (hKey : ∀ h, cfg.deriveNodeKey h ≠ none)
    (hCreate : create cfg = .ok r₀)
    (ops : List RegistryOp)
    {h : String}
    {n : Node}
    (hN : (r₀.run cfg ops).topo.nodes.get? h = some n) :
    Life cfg h (trail cfg r₀ ops) n := by
  have hRun :
      (r₀.run cfg ops).topo.WellFormed ∧
        ∀ n, (r₀.run cfg ops).topo.nodes.get? h = some n →
          Life cfg h (trail cfg r₀ ops) n := by
    refine
      History.induction (step cfg)
        (fun past r =>
          r.topo.WellFormed ∧
            ∀ n, r.topo.nodes.get? h = some n →
              Life cfg h past n)
        ?_ (fun past r op hInv => ?_) ops
    · refine ⟨wellFormed_create cfg hCreate, fun n hNone => ?_⟩
      rcases create_ok hCreate with ⟨topo, hTopo, rfl⟩
      rw [Topology.create_nodes hTopo] at hNone
      cases hNone
    · exact
        ⟨wellFormed_step cfg hInv.1 op, fun _ hN' =>
          life_step hInv.1 hKey hInv.2 op hN'⟩
  exact hRun.2 n hN

end Registry

end CircuitDllm
