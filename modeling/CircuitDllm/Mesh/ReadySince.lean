import CircuitDllm.Mesh.NodeLife

/-
  Which nodes are READY, from what happened to them.

  Only three states can lead back to READY without a new
  registration.  `standing` is the state of a node as long
  as it is one of these; what an operation makes of it
  depends on the kind of the event alone.  So a node that
  was READY is READY later on exactly where it did not leave
  and was heard after every suspicion, or came back and was
  marked ready since.

  Main declarations:
    * `Registry.standing`, `Registry.standing_step`
    * `Registry.ServesSince`
    * `Registry.ready_iff_servesSince`
-/

------------------------------------------------------------
-- Events of a Node
------------------------------------------------------------

namespace CircuitDllm

namespace Registry

variable (cfg : RegistryConfig)

/- A registration put it in the table as JOINING. -/
def Enters (h : String) (e : Event) : Prop :=
  ∃ node now preferRange slot,
    e.2 = .register node now preferRange ∧
      node.nodeId = h ∧
      e.1.entry cfg node preferRange = some slot

/- A new process of the control plane has no nodes. -/
def Wipes (e : Event) : Prop :=
  e.2 = .restart ∧ ∃ r', e.1.restart cfg = .ok r'

/- It was drained, reaped or evicted, or forgotten. -/
def Leaves (h : String) (e : Event) : Prop :=
  Retires cfg h e ∨ Wipes cfg e

/- The states that a node has until it leaves. -/
def NodeState.standing : NodeState → Option NodeState
| .joining => some .joining
| .ready => some .ready
| .suspect => some .suspect
| .dead => none
| .draining => none

/- Where a node stands that has not left. -/
def standing (r : Registry) (h : String) : Option NodeState :=
  (r.topo.nodes.get? h).bind (fun n =>
    NodeState.standing n.state)

theorem standing_ready_iff
    (r : Registry)
    (h : String) :
    r.standing h = some .ready ↔
      ∃ n,
        r.topo.nodes.get? h = some n ∧ n.state = .ready := by
  unfold standing
  cases r.topo.nodes.get? h with
  | none => simp
  | some n =>
      cases hState : n.state <;>
        simp [hState, NodeState.standing]

/- How an event changes where a node stands. -/
inductive Moves (h : String) (e : Event) :
    Option NodeState → Option NodeState → Prop where
  | enters {old} (hEnters : Enters cfg h e) :
      Moves h e old (some .joining)
  | leaves {old} (hLeaves : Leaves cfg h e) :
      Moves h e old none
  | marked {old} (hReady : e.2 = .markReady h) :
      Moves h e old
        (old.map (fun s =>
          if s = .joining then .ready else s))
  | heard {old} (hHears : Hears h e) :
      Moves h e old
        (old.map (fun s =>
          if s = .suspect then .ready else s))
  | suspected (hSuspects : Suspects h e) :
      Moves h e (some .ready) (some .suspect)
  | stays {old}
      (hEnters : ¬ Enters cfg h e)
      (hLeaves : ¬ Leaves cfg h e)
      (hReady : e.2 ≠ .markReady h)
      (hHears : ¬ Hears h e)
      (hSuspects : ¬ Suspects h e) :
      Moves h e old old

variable {cfg}

/- An event that concerns the node in no way. -/
theorem Moves.same
    {h : String}
    {e : Event}
    {old new : Option NodeState}
    (hSame : new = old)
    (hEnters : ¬ Enters cfg h e)
    (hLeaves : ¬ Leaves cfg h e)
    (hReady : e.2 ≠ .markReady h)
    (hHears : ¬ Hears h e)
    (hSuspects : ¬ Suspects h e) :
    Moves cfg h e old new := by
  rw [hSame]
  exact .stays hEnters hLeaves hReady hHears hSuspects

/- A registration, accepted or not. -/
theorem moves_register
    {r : Registry}
    {h : String}
    (node : Node)
    (now : ℚ)
    (preferRange : Option PreferRange) :
    Moves cfg h (r, .register node now preferRange)
      (r.standing h)
      ((r.step cfg
        (.register node now preferRange)).standing h) := by
  have hQuiet :
      ¬ Enters cfg h (r, .register node now preferRange) →
      (r.step cfg
          (.register node now preferRange)).standing h =
        r.standing h →
      Moves cfg h (r, .register node now preferRange)
        (r.standing h)
        ((r.step cfg
          (.register node now preferRange)).standing h) :=
    fun hEnters hSame =>
      .same hSame hEnters (by simp [Leaves, Retires, Wipes])
        (by simp) (by simp [Hears]) (by simp [Suspects])
  by_cases hId : node.nodeId = h
  · cases hEntry : r.entry cfg node preferRange with
    | none =>
        refine hQuiet ?_ ?_
        · rintro ⟨_, _, _, slot, hOp, _, hSlot⟩
          cases hOp
          rw [hEntry] at hSlot
          cases hSlot
        · unfold standing
          rw [get?_step]
          simp [nodeStep, hId, hEntry]
    | some slot =>
        have hNew :
            (r.step cfg
              (.register node now preferRange)).standing h =
              some .joining := by
          unfold standing
          rw [get?_step]
          simp [nodeStep, hId, hEntry, enteredNode,
            NodeState.standing]
        rw [hNew]
        exact .enters ⟨node, now, preferRange, slot, rfl, hId,
          hEntry⟩
  · refine hQuiet ?_ ?_
    · rintro ⟨_, _, _, _, hOp, hId', _⟩
      cases hOp
      exact hId hId'
    · unfold standing
      rw [get?_step]
      simp [nodeStep, hId]

/- A tick ends the standing of the overdue nodes only. -/
theorem moves_tick
    {r : Registry}
    (hWf : r.topo.WellFormed)
    {h : String}
    (now : ℚ) :
    Moves cfg h (r, .tick now) (r.standing h)
      ((r.step cfg (.tick now)).standing h) := by
  have hEntry := get?_step cfg r (.tick now) h
  simp only [nodeStep] at hEntry
  have hQuiet :
      ¬ Retires cfg h (r, .tick now) →
      (r.step cfg (.tick now)).standing h = r.standing h →
      Moves cfg h (r, .tick now) (r.standing h)
        ((r.step cfg (.tick now)).standing h) :=
    fun hRetires hSame =>
      .same hSame (by simp [Enters])
        (by simpa [Leaves, Wipes] using hRetires) (by simp)
        (by simp [Hears]) (by simp [Suspects])
  cases hN : r.topo.nodes.get? h with
  | none =>
      refine hQuiet ?_ ?_
      · rintro (hOp | ⟨now', hOp, hMem⟩ | ⟨_, _, _, hOp, _⟩)
        · cases hOp
        · cases hOp
          simp only [tick, Topology.reap, List.mem_map,
            List.mem_filter, Dict.mem_values] at hMem
          rcases hMem with ⟨m, ⟨⟨k, hK⟩, _⟩, hId⟩
          rw [hWf.keyed k m hK] at hId
          rw [hId, hN] at hK
          cases hK
        · cases hOp
      · unfold standing
        rw [hEntry, hN]
        rfl
  | some n =>
      by_cases hOver : r.topo.overdue now n = true
      · have hGone :
            (r.step cfg (.tick now)).standing h = none := by
          unfold standing
          rw [hEntry, hN]
          simp only [Option.map_some, Topology.reaped, hOver,
            if_true, Option.filter]
          split <;> rfl
        rw [hGone]
        exact
          .leaves
            (Or.inl (Or.inr (Or.inl
              ⟨now, rfl, (mem_reaped hWf hN now).mpr hOver⟩)))
      · refine hQuiet ?_ ?_
        · rintro
            (hOp | ⟨now', hOp, hMem⟩ | ⟨_, _, _, hOp, _⟩)
          · cases hOp
          · cases hOp
            exact hOver ((mem_reaped hWf hN now).mp hMem)
          · cases hOp
        · unfold standing
          rw [hEntry, hN]
          simp only [Option.map_some, Topology.reaped, hOver,
            Option.filter]
          cases hState : n.state <;>
            simp [Topology.Gone, hState, NodeState.standing]

/- A challenge ends the standing of a node it evicts only. -/
theorem moves_recordCheck
    {r : Registry}
    {h : String}
    (nodeId : String)
    (ok : Bool)
    (promoteAfter strikeMax : Int) :
    Moves cfg h
      (r, .recordCheck nodeId ok promoteAfter strikeMax)
      (r.standing h)
      ((r.step cfg
        (.recordCheck nodeId ok promoteAfter
          strikeMax)).standing h) := by
  have hEntry :=
    get?_step cfg r
      (.recordCheck nodeId ok promoteAfter strikeMax) h
  simp only [nodeStep] at hEntry
  have hQuiet :
      ¬ Retires cfg h
        (r, .recordCheck nodeId ok promoteAfter strikeMax) →
      (r.step cfg
          (.recordCheck nodeId ok promoteAfter
            strikeMax)).standing h = r.standing h →
      Moves cfg h
        (r, .recordCheck nodeId ok promoteAfter strikeMax)
        (r.standing h)
        ((r.step cfg
          (.recordCheck nodeId ok promoteAfter
            strikeMax)).standing h) :=
    fun hRetires hSame =>
      .same hSame (by simp [Enters])
        (by simpa [Leaves, Wipes] using hRetires) (by simp)
        (by simp [Hears]) (by simp [Suspects])
  by_cases hId : nodeId = h
  · subst hId
    rw [if_pos rfl] at hEntry
    cases hN : r.topo.nodes.get? nodeId with
    | none =>
        refine hQuiet ?_ ?_
        · rintro (hOp | ⟨_, hOp, _⟩ | ⟨_, _, _, hOp, hEv⟩)
          · cases hOp
          · cases hOp
          · cases hOp
            simp [recordCheck, Topology.recordCheck, hN]
              at hEv
        · unfold standing
          rw [hEntry, hN]
          rfl
    | some n =>
        cases ok with
        | true =>
            refine hQuiet ?_ ?_
            · rintro
                (hOp | ⟨_, hOp, _⟩ | ⟨_, _, _, hOp, hEv⟩)
              · cases hOp
              · cases hOp
              · cases hOp
                exact recordCheck_pass r nodeId _ _ hEv
            · unfold standing
              rw [hEntry, hN]
              simp
        | false =>
            by_cases hMax : strikeMax ≤ (n.strikes + 1 : Nat)
            · have hState :=
                Topology.failCheck_state strikeMax n
              rw [if_pos hMax] at hState
              have hGone :
                  (r.step cfg
                    (.recordCheck nodeId false promoteAfter
                      strikeMax)).standing nodeId = none := by
                unfold standing
                rw [hEntry, hN]
                simp [hState, NodeState.standing]
              rw [hGone]
              refine .leaves (Or.inl (Or.inr (Or.inr ?_)))
              refine ⟨false, promoteAfter, strikeMax, rfl, ?_⟩
              rw [recordCheck_action hN, if_pos hMax]
            · have hState :=
                Topology.failCheck_state strikeMax n
              rw [if_neg hMax] at hState
              refine hQuiet ?_ ?_
              · rintro
                  (hOp | ⟨_, hOp, _⟩ | ⟨_, _, _, hOp, hEv⟩)
                · cases hOp
                · cases hOp
                · cases hOp
                  rw [recordCheck_action hN, if_neg hMax]
                    at hEv
                  cases hEv
              · unfold standing
                rw [hEntry, hN]
                simp [hState]
  · refine hQuiet ?_ ?_
    · rintro (hOp | ⟨_, hOp, _⟩ | ⟨_, _, _, hOp, _⟩)
      · cases hOp
      · cases hOp
      · cases hOp
        exact hId rfl
    · unfold standing
      rw [hEntry, if_neg hId]

/- An operation that changes one node, or does not. -/
theorem standing_modify
    {r r' : Registry}
    {h nodeId : String}
    {f : Node → Node}
    {g : NodeState → NodeState}
    (hEntry :
      r'.topo.nodes.get? h =
        if nodeId = h then (r.topo.nodes.get? h).map f
        else r.topo.nodes.get? h)
    (hState :
      ∀ n,
        NodeState.standing (f n).state =
          (NodeState.standing n.state).map g) :
    r'.standing h =
      if nodeId = h then (r.standing h).map g
      else r.standing h := by
  unfold standing
  rw [hEntry]
  split
  · cases r.topo.nodes.get? h with
    | none => rfl
    | some n => exact hState n
  · rfl

section Moves

variable {r : Registry} {h : String}

theorem moves_heartbeat (nodeId : String) (now : ℚ) :
    Moves cfg h (r, .heartbeat nodeId now) (r.standing h)
      ((r.step cfg (.heartbeat nodeId now)).standing h) := by
  have hNew :=
    standing_modify
      (g := fun s => if s = .suspect then .ready else s)
      (get?_step cfg r (.heartbeat nodeId now) h)
      (fun n => by
        cases hState : n.state <;>
          simp [hState, NodeState.standing])
  by_cases hId : nodeId = h
  · rw [hNew, if_pos hId]
    exact .heard ⟨now, by rw [hId]⟩
  · rw [if_neg hId] at hNew
    exact
      .same hNew (by simp [Enters])
        (by simp [Leaves, Retires, Wipes]) (by simp)
        (by simp [Hears, hId]) (by simp [Suspects])

theorem moves_drain (nodeId : String) :
    Moves cfg h (r, .drain nodeId) (r.standing h)
      ((r.step cfg (.drain nodeId)).standing h) := by
  have hEntry := get?_step cfg r (.drain nodeId) h
  by_cases hId : nodeId = h
  · have hGone :
        (r.step cfg (.drain nodeId)).standing h = none := by
      unfold standing
      rw [hEntry]
      simp only [nodeStep, hId, if_true]
      cases r.topo.nodes.get? h <;> rfl
    rw [hGone]
    exact .leaves (Or.inl (Or.inl (by rw [hId])))
  · have hSame :
        (r.step cfg (.drain nodeId)).standing h =
          r.standing h := by
      unfold standing
      rw [hEntry]
      simp only [nodeStep, hId, if_false]
    exact
      .same hSame (by simp [Enters])
        (by simp [Leaves, Retires, Wipes, hId]) (by simp)
        (by simp [Hears]) (by simp [Suspects])

theorem moves_markReady (nodeId : String) :
    Moves cfg h (r, .markReady nodeId) (r.standing h)
      ((r.step cfg (.markReady nodeId)).standing h) := by
  have hNew :=
    standing_modify
      (g := fun s => if s = .joining then .ready else s)
      (get?_step cfg r (.markReady nodeId) h)
      (fun n => by
        cases hState : n.state <;>
          simp [hState, NodeState.standing])
  by_cases hId : nodeId = h
  · rw [hNew, if_pos hId]
    exact .marked (by rw [hId])
  · rw [if_neg hId] at hNew
    exact
      .same hNew (by simp [Enters])
        (by simp [Leaves, Retires, Wipes]) (by simp [hId])
        (by simp [Hears]) (by simp [Suspects])

/- Only a READY node becomes SUSPECT. -/
theorem moves_markSuspect (nodeId : String) :
    Moves cfg h (r, .markSuspect nodeId) (r.standing h)
      ((r.step cfg (.markSuspect nodeId)).standing h) := by
  have hNew :=
    standing_modify
      (g := fun s => if s = .ready then .suspect else s)
      (get?_step cfg r (.markSuspect nodeId) h)
      (fun n => by
        cases hState : n.state <;>
          simp [hState, NodeState.standing])
  by_cases hReady : nodeId = h ∧ r.standing h = some .ready
  · rcases hReady with ⟨hId, hOld⟩
    rw [hNew, if_pos hId, hOld]
    rcases (r.standing_ready_iff h).mp hOld with
      ⟨n, hN, hState⟩
    exact .suspected ⟨by rw [hId], n, hN, hState⟩
  · have hSame :
        (r.step cfg (.markSuspect nodeId)).standing h =
          r.standing h := by
      rw [hNew]
      split
      next hId =>
        cases hOld : r.standing h with
        | none => rfl
        | some state =>
            have hNe : state ≠ .ready := by
              rintro rfl
              exact hReady ⟨hId, hOld⟩
            simp [hNe]
      next => rfl
    refine
      .same hSame (by simp [Enters])
        (by simp [Leaves, Retires, Wipes]) (by simp)
        (by simp [Hears]) ?_
    rintro ⟨hOp, hOld⟩
    cases hOp
    exact hReady ⟨rfl, (r.standing_ready_iff _).mpr hOld⟩

/- A restart forgets every node. -/
theorem moves_restart :
    Moves cfg h (r, .restart) (r.standing h)
      ((r.step cfg .restart).standing h) := by
  have hEntry := get?_step cfg r .restart h
  cases hRestart : r.restart cfg with
  | error e =>
      refine
        .same ?_ (by simp [Enters])
          (by simp [Leaves, Retires, Wipes, hRestart])
          (by simp) (by simp [Hears]) (by simp [Suspects])
      unfold standing
      rw [hEntry]
      simp [nodeStep, hRestart]
  | ok r' =>
      have hGone :
          (r.step cfg .restart).standing h = none := by
        unfold standing
        rw [hEntry]
        simp [nodeStep, hRestart]
      rw [hGone]
      exact .leaves (Or.inr ⟨rfl, r', hRestart⟩)

/- What one operation does to where a node stands. -/
theorem standing_step
    (hWf : r.topo.WellFormed)
    (h : String)
    (op : RegistryOp) :
    Moves cfg h (r, op) (r.standing h)
      ((r.step cfg op).standing h) := by
  have hEntry := get?_step cfg r op h
  cases op with
  | register node now preferRange =>
      exact moves_register node now preferRange
  | heartbeat nodeId now => exact moves_heartbeat nodeId now
  | drain nodeId => exact moves_drain nodeId
  | markReady nodeId => exact moves_markReady nodeId
  | markSuspect nodeId => exact moves_markSuspect nodeId
  | recordCheck nodeId ok promoteAfter strikeMax =>
      exact moves_recordCheck nodeId ok promoteAfter strikeMax
  | tick now => exact moves_tick hWf now
  | restart => exact moves_restart
  | setTrusted nodeId =>
      have hNew :=
        standing_modify (g := id) hEntry (fun n => by simp)
      refine
        .same ?_ (by simp [Enters])
          (by simp [Leaves, Retires, Wipes]) (by simp)
          (by simp [Hears]) (by simp [Suspects])
      rw [hNew]
      simp
  | setRtt _ _ | acquireRoute _ | releaseRoute _
  | acquireEntry _ | releaseEntry _ | recordWork _ _
  | settle _ | disk _ =>
      refine
        .same ?_ (by simp [Enters])
          (by simp [Leaves, Retires, Wipes]) (by simp)
          (by simp [Hears]) (by simp [Suspects])
      unfold standing
      rw [hEntry]
      rfl

end Moves

end Registry

end CircuitDllm

------------------------------------------------------------
-- The Time Since
------------------------------------------------------------

namespace CircuitDllm

namespace Registry

variable (cfg : RegistryConfig)

/- It was marked ready. -/
def Marked (h : String) (after : List Event) : Prop :=
  ∃ e ∈ after, e.2 = .markReady h

/- It did not leave. -/
def Stays (h : String) (after : List Event) : Prop :=
  ∀ e ∈ after, ¬ Leaves cfg h e

/- Every suspicion was followed by a heartbeat. -/
def Heard (h : String) (after : List Event) : Prop :=
  History.Answered (Suspects h) (Hears h) after

/-
  The events since a moment at which the node was READY: it
  stayed and was heard after every suspicion, or it came
  back, was marked ready and did so since.
-/
def ServesSince (h : String) (since : List Event) : Prop :=
  ((∀ e ∈ since, ¬ Enters cfg h e) ∧
      Stays cfg h since ∧ Heard h since) ∨
    History.Since (Enters cfg h)
      (fun after =>
        Stays cfg h after ∧ Marked h after ∧ Heard h after)
      since

/-
  Where a node stands, from whether it stayed, was marked
  ready and was heard.
-/
structure Fate
    (stays marked heard : Prop)
    (state : Option NodeState) : Prop where
  ready : state = some .ready ↔ stays ∧ marked ∧ heard
  suspect : state = some .suspect ↔ stays ∧ marked ∧ ¬ heard
  joining : state = some .joining ↔ stays ∧ ¬ marked
  calm : state = some .joining → heard

section

variable {stays marked heard : Prop}
variable {state : Option NodeState}

theorem Fate.congr
    {stays' marked' heard' : Prop}
    (hFate : Fate stays marked heard state)
    (hStays : stays ↔ stays')
    (hMarked : marked ↔ marked')
    (hHeard : heard ↔ heard') :
    Fate stays' marked' heard' state := by
  rw [← hStays, ← hMarked, ← hHeard]
  exact hFate

theorem Fate.left : Fate False marked heard none := by
  constructor <;> simp

theorem Fate.marks
    (hFate : Fate stays marked heard state) :
    Fate stays True heard
      (state.map (fun s =>
        if s = .joining then .ready else s)) := by
  rcases hFate with ⟨hReady, hSuspect, hJoining, hCalm⟩
  rcases state with _ | s
  · constructor <;> simp_all
  · cases s <;> constructor <;> simp_all

theorem Fate.hears
    (hFate : Fate stays marked heard state) :
    Fate stays marked True
      (state.map (fun s =>
        if s = .suspect then .ready else s)) := by
  rcases hFate with ⟨hReady, hSuspect, hJoining, hCalm⟩
  rcases state with _ | s
  · constructor <;> simp_all
  · cases s <;> constructor <;> simp_all

theorem Fate.suspects
    (hFate : Fate stays marked heard (some .ready)) :
    Fate stays marked False (some .suspect) := by
  have hHad := hFate.ready.mp rfl
  constructor <;> simp [hHad]

end

variable {cfg}

theorem stays_snoc
    {h : String}
    {after : List Event}
    {e : Event} :
    Stays cfg h (after ++ [e]) ↔
      Stays cfg h after ∧ ¬ Leaves cfg h e := by
  simp [Stays, or_imp, forall_and]

theorem marked_snoc
    {h : String}
    {after : List Event}
    {e : Event} :
    Marked h (after ++ [e]) ↔
      Marked h after ∨ e.2 = .markReady h := by
  simp [Marked, or_and_right, exists_or]

/- A suspicion now is not answered yet. -/
theorem not_heard_snoc
    {h : String}
    {after : List Event}
    {e : Event}
    (hSuspects : Suspects h e) :
    ¬ Heard h (after ++ [e]) := by
  intro hHeard
  rcases hHeard after e [] rfl hSuspects with ⟨_, hMem, _⟩
  cases hMem

theorem heard_snoc
    {h : String}
    {after : List Event}
    {e : Event}
    (hSuspects : ¬ Suspects h e) :
    Heard h (after ++ [e]) ↔ Heard h after ∨ Hears h e := by
  constructor
  · intro hHeard
    by_cases hHears : Hears h e
    · exact Or.inr hHears
    · left
      intro before e' rest hEq hAsk
      rcases hHeard before e' (rest ++ [e]) (by simp [hEq])
          hAsk with
        ⟨x, hX, hAnswer⟩
      rcases List.mem_append.mp hX with hOld | hNew
      · exact ⟨x, hOld, hAnswer⟩
      · rw [List.mem_singleton] at hNew
        rw [hNew] at hAnswer
        exact absurd hAnswer hHears
  · rintro (hHeard | hHears)
    · exact hHeard.snoc hSuspects
    · exact
        History.answered_of_answer after hHears hSuspects

/- One more event that is no registration. -/
theorem Fate.step
    {h : String}
    {was : Prop}
    {after : List Event}
    {e : Event}
    {old new : Option NodeState}
    (hFate :
      Fate (Stays cfg h after) (was ∨ Marked h after)
        (Heard h after) old)
    (hMoves : Moves cfg h e old new)
    (hNot : ¬ Enters cfg h e) :
    Fate (Stays cfg h (after ++ [e]))
      (was ∨ Marked h (after ++ [e]))
      (Heard h (after ++ [e])) new := by
  rw [stays_snoc, marked_snoc]
  cases hMoves with
  | enters hEnters => exact absurd hEnters hNot
  | leaves hLeaves =>
      exact
        Fate.left.congr (by simp [hLeaves]) Iff.rfl Iff.rfl
  | marked hOp =>
      have hLeaves : ¬ Leaves cfg h e := by
        simp [Leaves, Retires, Wipes, hOp]
      have hSuspects : ¬ Suspects h e := by
        simp [Suspects, hOp]
      have hHears : ¬ Hears h e := by simp [Hears, hOp]
      refine
        hFate.marks.congr (by simp [hLeaves]) (by simp [hOp])
          ?_
      simp [heard_snoc hSuspects, hHears]
  | heard hHears =>
      rcases hHears with ⟨now, hOp⟩
      have hLeaves : ¬ Leaves cfg h e := by
        simp [Leaves, Retires, Wipes, hOp]
      have hSuspects : ¬ Suspects h e := by
        simp [Suspects, hOp]
      refine
        hFate.hears.congr (by simp [hLeaves]) (by simp [hOp])
          ?_
      simp [heard_snoc hSuspects, Hears, hOp]
  | suspected hSuspects =>
      have hLeaves : ¬ Leaves cfg h e := by
        simp [Leaves, Retires, Wipes, hSuspects.1]
      exact
        hFate.suspects.congr (by simp [hLeaves])
          (by simp [hSuspects.1])
          (by simp [not_heard_snoc hSuspects])
  | stays _ hLeaves hMark hHears hSuspects =>
      exact
        hFate.congr (by simp [hLeaves]) (by simp [hMark])
          (by simp [heard_snoc hSuspects, hHears])

/-
  Since a moment at which the node was READY: no
  registration of it came, or the last one started anew.
-/
theorem fate_since
    {r₀ : Registry}
    (hWf : r₀.topo.WellFormed)
    {h : String}
    (hReady : r₀.standing h = some .ready)
    (ops : List RegistryOp) :
    ((∀ e ∈ trail cfg r₀ ops, ¬ Enters cfg h e) ∧
        Fate (Stays cfg h (trail cfg r₀ ops))
          (True ∨ Marked h (trail cfg r₀ ops))
          (Heard h (trail cfg r₀ ops))
          ((r₀.run cfg ops).standing h)) ∨
      History.Since (Enters cfg h)
        (fun after =>
          Fate (Stays cfg h after) (False ∨ Marked h after)
            (Heard h after) ((r₀.run cfg ops).standing h))
        (trail cfg r₀ ops) := by
  have hRun :
      (r₀.run cfg ops).topo.WellFormed ∧
        (((∀ e ∈ trail cfg r₀ ops, ¬ Enters cfg h e) ∧
            Fate (Stays cfg h (trail cfg r₀ ops))
              (True ∨ Marked h (trail cfg r₀ ops))
              (Heard h (trail cfg r₀ ops))
              ((r₀.run cfg ops).standing h)) ∨
          History.Since (Enters cfg h)
            (fun after =>
              Fate (Stays cfg h after)
                (False ∨ Marked h after) (Heard h after)
                ((r₀.run cfg ops).standing h))
            (trail cfg r₀ ops)) := by
    refine
      History.induction (step cfg)
        (fun past r =>
          r.topo.WellFormed ∧
            (((∀ e ∈ past, ¬ Enters cfg h e) ∧
                Fate (Stays cfg h past)
                  (True ∨ Marked h past) (Heard h past)
                  (r.standing h)) ∨
              History.Since (Enters cfg h)
                (fun after =>
                  Fate (Stays cfg h after)
                    (False ∨ Marked h after)
                    (Heard h after) (r.standing h))
                past))
        ?_ (fun past r op hInv => ?_) ops
    · refine ⟨hWf, Or.inl ⟨by simp, ?_⟩⟩
      rw [hReady]
      have hHeard : Heard h [] := History.answered_nil
      constructor <;> simp [Stays, hHeard]
    · have hMoves :
          Moves cfg h (r, op) (r.standing h)
            ((r.step cfg op).standing h) :=
        standing_step hInv.1 h op
      refine ⟨wellFormed_step cfg hInv.1 op, ?_⟩
      by_cases hEnters : Enters cfg h (r, op)
      · right
        refine History.since_start past hEnters ?_
        have hNew :
            (r.step cfg op).standing h = some .joining := by
          rcases hEnters with
            ⟨node, now, range, slot, hOp, hId, hSlot⟩
          simp only at hOp
          subst hOp
          unfold standing
          rw [get?_step]
          simp [nodeStep, hId, hSlot, enteredNode,
            NodeState.standing]
        rw [hNew]
        have hHeard : Heard h [] := History.answered_nil
        constructor <;> simp [Stays, Marked, hHeard]
      · rcases hInv.2 with ⟨hNone, hFate⟩ | hSince
        · exact
            Or.inl
              ⟨History.none_snoc hNone hEnters,
                hFate.step hMoves hEnters⟩
        · exact
            Or.inr
              (hSince.snoc hEnters (fun after hFate =>
                hFate.step hMoves hEnters))
  exact hRun.2

/-
  A node that was READY is READY after any operations if and
  only if it serves since.
-/
theorem ready_iff_servesSince
    {r₀ : Registry}
    (hWf : r₀.topo.WellFormed)
    {h : String}
    {n₀ : Node}
    (hN₀ : r₀.topo.nodes.get? h = some n₀)
    (hReady : n₀.state = .ready)
    (ops : List RegistryOp) :
    (∃ n,
        (r₀.run cfg ops).topo.nodes.get? h = some n ∧
          n.state = .ready) ↔
      ServesSince cfg h (trail cfg r₀ ops) := by
  rw [← standing_ready_iff]
  have hStart : r₀.standing h = some .ready :=
    (r₀.standing_ready_iff h).mpr ⟨n₀, hN₀, hReady⟩
  rcases fate_since hWf hStart ops with
    ⟨hNone, hFate⟩ | hSince
  · rw [hFate.ready]
    constructor
    · rintro ⟨hStays, _, hHeard⟩
      exact Or.inl ⟨hNone, hStays, hHeard⟩
    · rintro (⟨_, hStays, hHeard⟩ | hSince)
      · exact ⟨hStays, Or.inl trivial, hHeard⟩
      · rcases hSince with ⟨before, e, after, hEq, hE, _⟩
        refine absurd hE (hNone e ?_)
        rw [hEq]
        simp
  · rcases hSince with
      ⟨before, e, after, hEq, hE, hLater, hFate⟩
    rw [hFate.ready, false_or]
    constructor
    · rintro ⟨hStays, hMarked, hHeard⟩
      exact
        Or.inr
          ⟨before, e, after, hEq, hE, hLater, hStays, hMarked,
            hHeard⟩
    · rintro (⟨hNone, _⟩ | hSince)
      · refine absurd hE (hNone e ?_)
        rw [hEq]
        simp
      · rcases hSince with
          ⟨before', e', after', hEq', hE', hLater', hServes⟩
        have hAfter : after' = after := by
          rw [hEq] at hEq'
          exact
            History.after_unique hEq' hE hE' hLater hLater'
        rw [hAfter] at hServes
        exact hServes

end Registry

end CircuitDllm
