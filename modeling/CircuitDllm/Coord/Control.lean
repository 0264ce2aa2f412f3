import CircuitDllm.Coord.Star

/-
  What KV_CTRL frames do to the sessions of the workers.

  A control operation acts on the KV of one session; a
  session that is not in the store is as good as an empty
  one.  Where every write succeeds, the workers with an open
  connection act and the others do not.

  Main declarations:
    * `KvOp.act`
    * `Worker.kv_control`
    * `controlConns_clean`
    * `Reached`, `controlConns_lenient`
-/

------------------------------------------------------------
-- Control Operations on a Session
------------------------------------------------------------

namespace CircuitDllm

/- What an operation makes of a session's KV. -/
def KvOp.act {H : Type} : KvOp → StageKV H → StageKV H
| .reset, _ => []
| .truncate length, kv => kv.truncateTo length
| .free, _ => []

variable {H : Type}

@[simp] theorem KvOp.act_nil (op : KvOp) :
    op.act ([] : StageKV H) = [] := by
  cases op with
  | reset => rfl
  | truncate length => rfl
  | free => rfl

/- Doing it twice is doing it once. -/
@[simp] theorem KvOp.act_act
    (op : KvOp)
    (kv : StageKV H) :
    op.act (op.act kv) = op.act kv := by
  cases op with
  | reset => rfl
  | truncate length =>
      simp [KvOp.act, StageKV.truncateTo_eq_take]
  | free => rfl

namespace Worker

@[simp] theorem kv_control
    (op : KvOp)
    (session : Nat)
    (now : ℚ)
    (w : Worker H) :
    (w.control op session now).kv session =
      op.act (w.kv session) := by
  cases hGet : w.sessions.get? session with
  | none =>
      cases op <;>
        simp [control, kv, hGet, KvOp.act, Dict.get?_erase,
          StageKV.truncateTo]
  | some old =>
      cases op <;>
        simp [control, kv, hGet, KvOp.act, Dict.get?_erase,
          StageKV.reset]

/- The other sessions are left alone. -/
theorem kv_control_ne
    (op : KvOp)
    {session other : Nat}
    (now : ℚ)
    (w : Worker H)
    (hNe : session ≠ other) :
    (w.control op session now).kv other = w.kv other := by
  cases hGet : w.sessions.get? session with
  | none =>
      cases op <;>
        simp [control, kv, hGet, Dict.get?_erase, hNe]
  | some old =>
      cases op <;>
        simp [control, kv, hGet, Dict.get?_erase,
          Dict.get?_set, hNe]

end Worker

end CircuitDllm

------------------------------------------------------------
-- Control Frames That Arrive
------------------------------------------------------------

namespace CircuitDllm

namespace CoordEnv

variable {Tok H P : Type} {env : CoordEnv Tok H P}

/- One worker acts on the frame. -/
theorem workerKv_control
    (s : CoordState Tok H P)
    (nodeId other : String)
    (op : KvOp)
    (session : Nat)
    (now : ℚ) :
    (s.modifyWorker nodeId
        (Worker.control op session now)).workerKv other
        session =
      if other = nodeId then op.act (s.workerKv other session)
      else s.workerKv other session := by
  unfold CoordState.workerKv CoordState.modifyWorker
  by_cases hEq : other = nodeId
  · subst hEq
    simp
  · simp [hEq]

/-
  Where every write succeeds, the connected workers act and
  nothing else changes.
-/
theorem controlConns_clean
    (hOutcome : ∀ n, env.outcome n = .ok)
    (active : Nat)
    (op : KvOp)
    (session : Nat)
    (strict : Bool)
    (nodeIds : List String)
    (s : CoordState Tok H P) :
    ∃ s',
      env.controlConns active op session strict nodeIds s =
        (.ok (), s') ∧
      (∀ w,
        s'.workerKv w session =
          if w ∈ nodeIds then op.act (s.workerKv w session)
          else s.workerKv w session) ∧
      s'.localCaches = s.localCaches ∧
      s'.sessionRoutes = s.sessionRoutes ∧
      s'.conn = s.conn ∧
      s'.provider = s.provider := by
  induction nodeIds generalizing s with
  | nil => exact ⟨s, rfl, by simp, rfl, rfl, rfl, rfl⟩
  | cons nodeId nodeIds ih =>
      simp only [controlConns, sendControl, hOutcome]
      rcases ih _ with
        ⟨s', hOk, hKv, hLocal, hPins, hConn, hProvider⟩
      refine ⟨s', hOk, fun w => ?_, hLocal, hPins, hConn,
        hProvider⟩
      rw [hKv w, workerKv_control]
      by_cases hHead : w = nodeId
      · by_cases hTail : w ∈ nodeIds
        · simp [hHead, hHead ▸ hTail]
          rfl
        · simp [hHead, hHead ▸ hTail]
          rfl
      · by_cases hTail : w ∈ nodeIds
        · simp [hHead, hTail]
          rfl
        · simp [hHead, hTail]
          rfl

end CoordEnv

end CircuitDllm

------------------------------------------------------------
-- Control Frames That Are Lost
------------------------------------------------------------

namespace CircuitDllm

namespace CoordEnv

variable {Tok H P : Type} (env : CoordEnv Tok H P)

/- One of the frames to a node is acted on. -/
def Reached
    (nodeIds : List String)
    (tick : Nat)
    (nodeId : String) : Prop :=
  ∃ i, nodeIds[i]? = some nodeId ∧
    env.outcome (tick + i) ≠ .failBefore

variable {env}

theorem reached_cons
    {nodeId : String}
    {nodeIds : List String}
    {tick : Nat}
    {w : String} :
    env.Reached (nodeId :: nodeIds) tick w ↔
      (w = nodeId ∧ env.outcome tick ≠ .failBefore) ∨
        env.Reached nodeIds (tick + 1) w := by
  constructor
  · rintro ⟨i, hNode, hOutcome⟩
    cases i with
    | zero =>
        exact Or.inl ⟨(Option.some.inj hNode).symm, hOutcome⟩
    | succ i =>
        refine Or.inr ⟨i, by simpa using hNode, ?_⟩
        rw [Nat.add_assoc, Nat.add_comm 1 i]
        exact hOutcome
  · rintro (⟨rfl, hOutcome⟩ | ⟨i, hNode, hOutcome⟩)
    · exact ⟨0, rfl, hOutcome⟩
    · refine ⟨i + 1, by simpa using hNode, ?_⟩
      rw [Nat.add_comm i 1, ← Nat.add_assoc]
      exact hOutcome

/- What the write of one frame has done. -/
theorem sendControl_effect
    (nodeId : String)
    (op : KvOp)
    (session : Nat)
    (s : CoordState Tok H P) :
    let s' := (env.sendControl nodeId op session s).2
    (∀ w,
      (w = nodeId ∧ env.outcome s.tick ≠ .failBefore →
        s'.workerKv w session =
          op.act (s.workerKv w session)) ∧
      (¬ (w = nodeId ∧ env.outcome s.tick ≠ .failBefore) →
        s'.workerKv w session = s.workerKv w session)) ∧
      s'.tick = s.tick + 1 ∧
      s'.localCaches = s.localCaches ∧
      s'.sessionRoutes = s.sessionRoutes := by
  have hActed :
      ∀ w,
        (({ s with tick := s.tick + 1 } :
            CoordState Tok H P).modifyWorker nodeId
          (Worker.control op session
            (env.clock s.tick))).workerKv w session =
          if w = nodeId then op.act (s.workerKv w session)
          else s.workerKv w session := by
    intro w
    rw [workerKv_control]
    rfl
  unfold sendControl
  cases hSent : env.outcome s.tick with
  | ok | failAfter =>
      refine ⟨fun w => ⟨?_, ?_⟩, rfl, rfl, rfl⟩
      · rintro ⟨rfl, _⟩
        exact (hActed w).trans (if_pos rfl)
      · intro hNot
        refine (hActed w).trans (if_neg ?_)
        rintro rfl
        exact hNot ⟨rfl, by simp⟩
  | failBefore =>
      refine ⟨fun w => ⟨?_, ?_⟩, rfl, rfl, rfl⟩
      · rintro ⟨_, hNot⟩
        exact absurd rfl hNot
      · intro _
        rfl

/-
  Control frames of a caller that is not strict: the nodes
  they reach act, the others keep what they have.
-/
theorem controlConns_lenient
    (active : Nat)
    (op : KvOp)
    (session : Nat)
    (nodeIds : List String)
    (s : CoordState Tok H P) :
    ∃ s',
      env.controlConns active op session false nodeIds s =
        (.ok (), s') ∧
      (∀ w,
        (env.Reached nodeIds s.tick w →
          s'.workerKv w session =
            op.act (s.workerKv w session)) ∧
        (¬ env.Reached nodeIds s.tick w →
          s'.workerKv w session = s.workerKv w session)) ∧
      s'.localCaches = s.localCaches ∧
      s'.sessionRoutes = s.sessionRoutes := by
  induction nodeIds generalizing s with
  | nil =>
      refine ⟨s, rfl, fun w => ⟨?_, fun _ => rfl⟩, rfl, rfl⟩
      rintro ⟨i, hNode, _⟩
      cases hNode
  | cons nodeId nodeIds ih =>
      rcases env.sendControl_effect nodeId op session s with
        ⟨hKv, hTick, hLocal, hPins⟩
      have hRest :
          ∀ s₁ : CoordState Tok H P,
            s₁.workers =
              (env.sendControl nodeId op session s).2.workers →
            s₁.tick = s.tick + 1 →
            s₁.localCaches = s.localCaches →
            s₁.sessionRoutes = s.sessionRoutes →
            ∃ s',
              env.controlConns active op session false
                  nodeIds s₁ = (.ok (), s') ∧
              (∀ w,
                (env.Reached (nodeId :: nodeIds) s.tick w →
                  s'.workerKv w session =
                    op.act (s.workerKv w session)) ∧
                (¬ env.Reached (nodeId :: nodeIds) s.tick w →
                  s'.workerKv w session =
                    s.workerKv w session)) ∧
              s'.localCaches = s.localCaches ∧
              s'.sessionRoutes = s.sessionRoutes := by
        intro s₁ hWorkers hTick₁ hLocal₁ hPins₁
        rcases ih s₁ with ⟨s', hOk, hKv', hLocal', hPins'⟩
        have hKv₁ :
            ∀ w, s₁.workerKv w session =
              (env.sendControl nodeId op session
                s).2.workerKv w session := by
          intro w
          unfold CoordState.workerKv
          rw [hWorkers]
        refine ⟨s', hOk, fun w => ?_, hLocal'.trans hLocal₁,
          hPins'.trans hPins₁⟩
        rcases hKv' w with ⟨hThere, hNotThere⟩
        rw [hTick₁, hKv₁ w] at hThere hNotThere
        rw [reached_cons]
        by_cases hHead :
            w = nodeId ∧ env.outcome s.tick ≠ .failBefore
        · rw [(hKv w).1 hHead] at hThere hNotThere
          refine ⟨fun _ => ?_, fun hNot => ?_⟩
          · by_cases hTail :
                env.Reached nodeIds (s.tick + 1) w
            · rw [hThere hTail, KvOp.act_act]
            · exact hNotThere hTail
          · exact absurd (Or.inl hHead) hNot
        · rw [(hKv w).2 hHead] at hThere hNotThere
          refine ⟨fun hOr => ?_, fun hNot => ?_⟩
          · rcases hOr with hHere | hTail
            · exact absurd hHere hHead
            · exact hThere hTail
          · exact hNotThere fun h => hNot (Or.inr h)
      unfold controlConns
      split
      next s₁ hSend =>
        have hEq :
            (env.sendControl nodeId op session s).2 = s₁ := by
          rw [hSend]
        rw [hEq] at hTick hLocal hPins
        exact hRest s₁ (by rw [hEq]) hTick hLocal hPins
      next e s₁ hSend =>
        have hEq :
            (env.sendControl nodeId op session s).2 = s₁ := by
          rw [hSend]
        rw [hEq] at hTick hLocal hPins
        exact hRest _ (by rw [hEq]; rfl) hTick hLocal hPins

end CoordEnv

end CircuitDllm
