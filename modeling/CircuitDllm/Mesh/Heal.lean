import CircuitDllm.Mesh.Agreement
import CircuitDllm.Mesh.Bans

/-
  What a round of heartbeats heals.

  A heartbeat clears a suspicion; where the node is unknown
  or DEAD the answer makes the worker register again and
  announce itself.  A node that is JOINING stays so: its
  announcement is not repeated.

  Main declarations:
    * `Cluster.Delivered`
    * `Cluster.Plane.Heals`
    * `Cluster.heals_iff`
    * `Cluster.exists_not_heals`
-/

------------------------------------------------------------
-- Complete Rounds
------------------------------------------------------------

namespace CircuitDllm

namespace Cluster

/- The operation does not concern node `h`. -/
def Quiet (h : String) : RegistryOp → Prop
| .register node _ _ => node.nodeId ≠ h
| .heartbeat nodeId _ => nodeId ≠ h
| .drain nodeId => nodeId ≠ h
| .markReady nodeId => nodeId ≠ h
| .markSuspect nodeId => nodeId ≠ h
| .setTrusted nodeId => nodeId ≠ h
| .recordCheck nodeId _ _ _ => nodeId ≠ h
| .tick _ => False
| .restart => False
| _ => True

/- The heartbeat thread's next request is answered. -/
def exchange (h : String) (now : ℚ) (s : Cluster) : Cluster :=
  (s.step h (.post .beat)).step h
    (.handle s.wire.length now true)

/-
  The rest of a round: every request is delivered and
  answered, and what else the planes do in the meantime does
  not concern the node.
-/
inductive Delivered (h : String) : Cluster → Cluster → Prop where
  | done {s : Cluster} :
      (∀ p ∈ s.process, p.beat = {}) → Delivered h s s
  | exchange {s s' : Cluster} (now : ℚ) :
      (∃ p ∈ s.process, p.beat.tasks ≠ []) →
        Delivered h (s.exchange h now) s' → Delivered h s s'
  | other {s s' : Cluster} (k : Nat) (op : RegistryOp) :
      Quiet h op →
        Delivered h (s.step h (.control k op)) s' →
          Delivered h s s'

variable {h : String}

/- One request of the round: its answer, and what it left. -/
theorem exchange_eq
    {s : Cluster}
    {p : Process}
    (hP : s.process = some p)
    {layers : Int × Int}
    (hLayers : p.phase.layers? = some layers)
    {task : Task}
    {tasks : List Task}
    (hBeat : p.beat = { tasks := task :: tasks })
    {plane : Plane}
    (hPlane : s.planes[task.plane]? = some plane)
    (now : ℚ) :
    s.exchange h now =
      { s with
        planes :=
          s.planes.set task.plane
            (plane.handle h now
              (task.request p.body layers)).2
        process :=
          some
            { p with
              beat :=
                { tasks :=
                    task.after
                        (some
                          (plane.handle h now
                            (task.request p.body layers)).1) ++
                      tasks } }
        calls := s.calls + 1 } := by
  have hPost :
      s.post .beat =
        { s with
          process :=
            some
              { p with
                beat :=
                  { tasks := task :: tasks
                    call := some s.calls } }
          wire :=
            s.wire ++
              [⟨.beat, s.calls, task.plane,
                task.request p.body layers⟩]
          calls := s.calls + 1 } := by
    simp [post, hP, Process.posting, Process.next, hLayers,
      hBeat, Process.setPosting]
  simp only [exchange, step, hPost]
  simp [handle, hPlane, answer, Process.posting,
    Process.resume, hLayers, Process.setPosting,
    List.eraseIdx_append_of_length_le]

end Cluster

end CircuitDllm

------------------------------------------------------------
-- What a Plane Has of the Node
------------------------------------------------------------

namespace CircuitDllm

namespace Registry

variable {cfg : RegistryConfig} {h : String}

/- What does not concern a node leaves its entry alone. -/
theorem get?_quiet
    (r : Registry)
    {op : RegistryOp}
    (hQuiet : Cluster.Quiet h op) :
    (r.step cfg op).topo.nodes.get? h =
      r.topo.nodes.get? h := by
  rw [get?_step]
  cases op with
  | tick now => exact hQuiet.elim
  | restart => exact hQuiet.elim
  | register node now preferRange => exact if_neg hQuiet
  | heartbeat nodeId now => exact if_neg hQuiet
  | drain nodeId => exact if_neg hQuiet
  | markReady nodeId => exact if_neg hQuiet
  | markSuspect nodeId => exact if_neg hQuiet
  | setTrusted nodeId => exact if_neg hQuiet
  | recordCheck nodeId ok promoteAfter strikeMax =>
      exact if_neg hQuiet
  | _ => rfl

/- Nor is it banned by one. -/
theorem banned_quiet
    (r : Registry)
    {op : RegistryOp}
    (hQuiet : Cluster.Quiet h op)
    (hFree : h ∉ r.banned) :
    h ∉ (r.step cfg op).banned := by
  cases op with
  | register node now preferRange =>
      rcases remembers_register cfg r node now preferRange with
        ⟨wallets, hRemembers⟩
      simp only [step, hRemembers.banned]
      exact hFree
  | recordCheck nodeId ok promoteAfter strikeMax =>
      have hBans :=
        (bans_recordCheck cfg r nodeId ok promoteAfter
          strikeMax h).2
      rw [hBans]
      have hNe : nodeId ≠ h := hQuiet
      simp [evicts, hNe, hFree]
  | heartbeat nodeId now => exact hFree
  | recordWork route paidRaw =>
      simp only [step, recordWork]
      split
      · exact hFree
      · rw [(remembers_saveState cfg _).banned]
        exact hFree
  | settle minPayoutRaw =>
      simp only [step, settle,
        (remembers_saveState cfg _).banned]
      exact hFree
  | acquireRoute session =>
      simp only [step, acquireRoute]
      split
      · exact hFree
      · split
        · exact hFree
        · exact hFree
  | acquireEntry session =>
      have hReleased : h ∉ (r.releaseEntry session).banned := by
        unfold releaseEntry
        split
        · exact hFree
        · exact hFree
      simp only [step, acquireEntry]
      split
      · exact hReleased
      · exact hReleased
  | releaseEntry session =>
      simp only [step, releaseEntry]
      split
      · exact hFree
      · exact hFree
  | tick now => exact hQuiet.elim
  | restart => exact hQuiet.elim
  | _ => exact hFree

end Registry

namespace Cluster

/- The plane's entry of node `h`. -/
def Plane.entry (h : String) (plane : Plane) : Option Node :=
  plane.registry.topo.nodes.get? h

/- It routes to the node. -/
def Plane.Ready (h : String) (plane : Plane) : Prop :=
  ∃ n, plane.entry h = some n ∧ n.state = .ready

/- It does not know the node, or has given it up. -/
def Plane.Forgot (h : String) (plane : Plane) : Prop :=
  ∀ n, plane.entry h = some n → n.state = .dead

/- It lets the node in. -/
def Plane.Allows (h : String) (plane : Plane) : Prop :=
  ∀ allowed ∈ plane.cfg.allowlist, h ∈ allowed

/-
  The node does not wait for an announcement that was lost,
  and a plane that forgot it would let it in again.
-/
def Plane.Heals (h : String) (plane : Plane) : Prop :=
  (∀ n, plane.entry h = some n → n.state ≠ .joining) ∧
    (plane.Forgot h → plane.Allows h)

variable
  {l : Layout}
  {derive : String → Option WireKey}
  {h : String}
  {plane : Plane}

/- No request bans a node, nor does one lift a ban. -/
theorem banned_handle
    (plane : Plane)
    (now : ℚ)
    (request : Request) :
    (plane.handle h now request).2.registry.banned =
      plane.registry.banned := by
  rw [Plane.handle_snd]
  cases request with
  | register body loadedLayers =>
      rcases Registry.remembers_register plane.cfg
          plane.registry (body.toNode h) now
          (loadedLayers.map (fun r => .layers r.1 r.2)) with
        ⟨wallets, hRemembers⟩
      exact hRemembers.banned
  | ready => rfl
  | heartbeat => rfl
  | drain => rfl

/- A heartbeat to a plane that forgot the node. -/
theorem heartbeat_forgot
    (hForgot : plane.Forgot h)
    (now : ℚ) :
    plane.handle h now .heartbeat =
      (.registered false, plane) := by
  simp only [Plane.handle, Registry.heartbeat,
    Topology.heartbeat]
  cases hN : plane.registry.topo.nodes.get? h with
  | none => rfl
  | some n => simp [hForgot n hN]

/- A heartbeat to one that knows it. -/
theorem heartbeat_known
    {n : Node}
    (hN : plane.entry h = some n)
    (hAlive : n.state ≠ .dead)
    (now : ℚ) :
    (plane.handle h now .heartbeat).1 = .registered true ∧
      (plane.handle h now .heartbeat).2.entry h =
        some
          { n with
            lastHb := now
            state :=
              if n.state = .suspect then .ready
              else n.state } := by
  constructor
  · unfold Plane.entry at hN
    simp [Plane.handle, Registry.heartbeat,
      Topology.heartbeat, hN, hAlive]
  · unfold Plane.entry at hN ⊢
    rw [Plane.handle_snd]
    simp only [Request.op, Registry.get?_step,
      Registry.nodeStep, if_true, hN, Option.map_some,
      hAlive, if_false]

/- One that gave the node up has no entry of it JOINING. -/
theorem heals_forgot
    (hForgot : plane.Forgot h) :
    plane.Heals h ↔ plane.Allows h := by
  constructor
  · intro hHeals
    exact hHeals.2 hForgot
  · intro hAllows
    refine ⟨fun n hN hJoining => ?_, fun _ => hAllows⟩
    rw [hForgot n hN] at hJoining
    cases hJoining

theorem not_ready_forgot
    (hForgot : plane.Forgot h) :
    ¬ plane.Ready h := by
  rintro ⟨n, hN, hReady⟩
  rw [hForgot n hN] at hReady
  cases hReady

/- A known node is READY after its heartbeat, or JOINING. -/
theorem ready_heartbeat
    {before : Plane}
    (hSame : plane.entry h = before.entry h)
    {n : Node}
    (hN : before.entry h = some n)
    (hAlive : n.state ≠ .dead)
    (hStays : n.state ≠ .draining)
    (now : ℚ) :
    (plane.handle h now .heartbeat).2.Ready h ↔
      before.Heals h := by
  have hKnown : ¬ before.Forgot h := by
    intro hForgot
    exact hAlive (hForgot n hN)
  have hBeat := heartbeat_known (hSame.trans hN) hAlive now
  rw [Plane.Ready, hBeat.2, Plane.Heals, hN]
  cases hState : n.state with
  | joining => simp [hState]
  | ready => simp [hState, hKnown]
  | suspect => simp [hState, hKnown]
  | dead => exact absurd hState hAlive
  | draining => exact absurd hState hStays

/- A worker that mirrors its slot enters, if it may. -/
theorem mirror_allowed
    (hAlike : Alike l derive plane)
    {body : Body}
    {layers : Int × Int}
    (hFits : Fits l derive h body layers)
    (hFree : h ∉ plane.registry.banned)
    (hAllows : plane.Allows h)
    (now : ℚ) :
    (∃ assigned,
        (plane.handle h now
          (.register body (some layers))).1 =
            .assignment assigned) ∧
      ∃ n,
        (plane.handle h now
            (.register body (some layers))).2.entry h =
          some n ∧ n.state = .joining := by
  have hModel :
      body.modelFp = plane.registry.topo.modelFp := by
    rcases hAlike.reachable with ⟨r₀, ops, hInit, hRun⟩
    rcases Registry.create_ok hInit with ⟨t, hCreate, _⟩
    have hLayers :=
      Registry.Reachable.layers ⟨r₀, ops, hInit, hRun⟩ hCreate
    have hSame := congrArg Prod.fst hLayers
    simp only [Topology.layers] at hSame
    rw [hSame, hAlike.layout]
    exact hFits.model
  have hReach :
      plane.registry.Reaches plane.cfg (body.toNode h) :=
    ⟨hFree, hAllows, hModel⟩
  have hSlot :
      ∃ slot ∈ (plane.registry.topo.dropHolding h).slots,
        (slot.start, slot.stop) = layers ∧
          slot.size ≤ (body.toNode h).capacityLayers := by
    rcases hAlike.exists_slot hFits.slot with
      ⟨slot, hMem, hRange, hSize⟩
    exact
      ⟨_, Topology.mem_mapHolders.mpr ⟨slot, hMem, rfl⟩,
        hRange, hSize⟩
  rcases Topology.slotFor_prefer hSlot with
    ⟨slot, _, hFor, _⟩
  have hEntry :
      plane.registry.entry plane.cfg (body.toNode h)
          (some (.layers layers.1 layers.2)) =
        some (some slot.index) := by
    have hDropped :
        (plane.registry.topo.dropHolding
            (body.toNode h).nodeId).slotFor (body.toNode h)
          (some (.layers layers.1 layers.2)) = some slot :=
      hFor
    have hHolder : (body.toNode h).orchestrator = false := rfl
    simp [Registry.entry, hReach, hHolder, hDropped]
  have hKey :
      plane.cfg.deriveNodeKey (body.toNode h).nodeId ≠ none := by
    rw [hAlike.derive]
    exact hFits.key
  constructor
  · rcases (Registry.register_ok_iff plane.cfg hKey now
        (some (.layers layers.1 layers.2))
        plane.registry).mpr ⟨_, hEntry⟩ with
      ⟨admission, hOk⟩
    refine ⟨admission.assignment, ?_⟩
    simp only [Plane.handle, Option.map_some]
    split
    · rename_i hError
      rw [hError] at hOk
      cases hOk
    · rename_i hRegister
      rw [hRegister] at hOk
      cases hOk
      rfl
  · refine
      ⟨Registry.enteredNode plane.cfg (body.toNode h)
        (some slot.index) now, ?_, rfl⟩
    unfold Plane.entry
    rw [Plane.handle_snd]
    simp only [Request.op, Option.map_some,
      Registry.get?_step, Registry.nodeStep, hEntry]
    exact if_pos rfl

/- A plane that may not let it in stays as it was. -/
theorem mirror_refused
    (hNot : ¬ plane.Allows h)
    (body : Body)
    (layers : Int × Int)
    (now : ℚ) :
    (plane.handle h now (.register body (some layers))).1 =
        .refused ∧
      (plane.handle h now
          (.register body (some layers))).2.entry h =
        plane.entry h := by
  have hReach :
      ¬ plane.registry.Reaches plane.cfg (body.toNode h) :=
    fun hReach => hNot hReach.2.1
  rcases Registry.register_cases plane.cfg (body.toNode h) now
      (some (.layers layers.1 layers.2)) plane.registry with
    ⟨e, _, hEnd⟩ | ⟨e, hReach', _⟩ | ⟨_, _, _, hReach', _⟩
  · simp [Plane.handle, hEnd, Plane.entry]
  · exact absurd hReach' hReach
  · exact absurd hReach' hReach

/- An announced node is READY. -/
theorem ready_joining
    {n : Node}
    (hN : plane.entry h = some n)
    (hJoining : n.state = .joining)
    (now : ℚ) :
    (plane.handle h now .ready).2.Ready h := by
  unfold Plane.entry at hN
  refine ⟨{ n with state := .ready }, ?_, rfl⟩
  unfold Plane.entry
  rw [Plane.handle_snd]
  simp only [Request.op, Registry.get?_step,
    Registry.nodeStep, if_true, hN, Option.map_some, hJoining]

end Cluster

end CircuitDllm

------------------------------------------------------------
-- The Stages of a Round
------------------------------------------------------------

namespace CircuitDllm

namespace Cluster

/- How far a round has come with plane `k`. -/
inductive Stage
    (h : String)
    (k : Nat)
    (before : Plane)
    (tasks : List Task)
    (plane : Plane) : Prop where
  | waiting
      (hTask : .heartbeat k ∈ tasks)
      (hSame : plane.entry h = before.entry h)
  | forgotten
      (hTask : .standby k ∈ tasks)
      (hSame : plane.entry h = before.entry h)
      (hForgot : before.Forgot h)
  | mirrored
      (hTask : .ready k ∈ tasks)
      (hJoining :
        ∃ n, plane.entry h = some n ∧ n.state = .joining)
      (hHeals : before.Heals h)
  | ended
      (hNone : ∀ task ∈ tasks, task.plane ≠ k)
      (hIff : plane.Ready h ↔ before.Heals h)

variable
  {l : Layout}
  {derive : String → Option WireKey}
  {h : String}
  {k : Nat}
  {before plane : Plane}
  {task : Task}
  {tasks : List Task}

/- A request is followed by one to the same plane, or none. -/
theorem after_cases (answer : Option Answer) (task : Task) :
    task.after answer = [] ∨
      ∃ next, task.after answer = [next] ∧
        next.plane = task.plane := by
  unfold Task.after
  split
  · split
    · exact .inr ⟨_, rfl, rfl⟩
    · exact .inl rfl
  · split
    · exact .inr ⟨_, rfl, rfl⟩
    · exact .inl rfl
  · exact .inl rfl
  · exact .inl rfl

theorem plane_of_after
    {answer : Option Answer}
    {next : Task}
    (hMem : next ∈ task.after answer) :
    next.plane = task.plane := by
  rcases after_cases answer task with hNone | ⟨t, hOne, hPlane⟩
  · rw [hNone] at hMem
    cases hMem
  · rw [hOne, List.mem_singleton] at hMem
    rw [hMem]
    exact hPlane

theorem nodup_after
    (hNodup : ((task :: tasks).map Task.plane).Nodup)
    (answer : Option Answer) :
    ((task.after answer ++ tasks).map Task.plane).Nodup := by
  rcases after_cases answer task with hNone | ⟨t, hOne, hPlane⟩
  · rw [hNone]
    exact (List.nodup_cons.mp hNodup).2
  · rw [hOne]
    simpa [hPlane] using hNodup

/- How many requests a task can still lead to. -/
def Task.weight : Task → Nat
| .heartbeat _ => 3
| .standby _ => 2
| .ready _ => 1
| .drain _ => 1

theorem weight_after (answer : Option Answer) (task : Task) :
    ((task.after answer).map Task.weight).sum < task.weight := by
  cases task with
  | standby plane =>
      simp only [Task.after]
      split <;> simp [Task.weight]
  | heartbeat plane =>
      simp only [Task.after]
      split <;> simp [Task.weight]
  | ready plane => simp [Task.after, Task.weight]
  | drain plane => simp [Task.after, Task.weight]

/- The round is at another plane. -/
theorem Stage.elsewhere
    (hStage : Stage h k before (task :: tasks) plane)
    (hOther : task.plane ≠ k)
    (answer : Option Answer) :
    Stage h k before (task.after answer ++ tasks) plane := by
  have hKept
      {t : Task}
      (hPlane : t.plane = k)
      (hMem : t ∈ task :: tasks) :
      t ∈ task.after answer ++ tasks := by
    rcases List.mem_cons.mp hMem with rfl | hRest
    · exact absurd hPlane hOther
    · exact List.mem_append_right _ hRest
  cases hStage with
  | waiting hTask hSame => exact .waiting (hKept rfl hTask) hSame
  | forgotten hTask hSame hForgot =>
      exact .forgotten (hKept rfl hTask) hSame hForgot
  | mirrored hTask hJoining hHeals =>
      exact .mirrored (hKept rfl hTask) hJoining hHeals
  | ended hNone hIff =>
      refine .ended (fun t hMem => ?_) hIff
      rcases List.mem_append.mp hMem with hAfter | hRest
      · rw [plane_of_after hAfter]
        exact hOther
      · exact hNone t (List.mem_cons_of_mem _ hRest)

/- The round takes its next step at plane `k`. -/
theorem Stage.exchange
    (hAlike : Alike l derive plane)
    {body : Body}
    {layers : Int × Int}
    (hFits : Fits l derive h body layers)
    (hFree : h ∉ plane.registry.banned)
    (hCfg : plane.cfg = before.cfg)
    (hStays :
      ∀ n, before.entry h = some n → n.state ≠ .draining)
    (hStage : Stage h k before (task :: tasks) plane)
    (hPlane : task.plane = k)
    (hNodup : ((task :: tasks).map Task.plane).Nodup)
    (now : ℚ) :
    Stage h k before
      (task.after
          (some
            (plane.handle h now (task.request body layers)).1) ++
        tasks)
      (plane.handle h now (task.request body layers)).2 := by
  have hRest : ∀ t ∈ tasks, t.plane ≠ k := by
    intro t hMem hEq
    apply (List.nodup_cons.mp hNodup).1
    rw [hPlane, ← hEq]
    exact List.mem_map_of_mem hMem
  have hOwn
      {t : Task}
      (hAt : t.plane = k)
      (hMem : t ∈ task :: tasks) :
      t = task := by
    rcases List.mem_cons.mp hMem with hEq | hLater
    · exact hEq
    · exact absurd hAt (hRest t hLater)
  have hAllows : plane.Allows h ↔ before.Allows h := by
    rw [Plane.Allows, hCfg]
    rfl
  cases hStage with
  | waiting hTask hSame =>
      have hEq := hOwn rfl hTask
      subst hEq
      by_cases hForgot : before.Forgot h
      · have hForgot' : plane.Forgot h := by
          intro n hN
          rw [hSame] at hN
          exact hForgot n hN
        have hBeat := heartbeat_forgot hForgot' now
        simp only [Task.request, hBeat]
        exact .forgotten (by simp [Task.after]) hSame hForgot
      · rcases not_forall.mp hForgot with ⟨n, hN⟩
        rcases Classical.not_imp.mp hN with ⟨hN, hAlive⟩
        have hBeat :=
          heartbeat_known (hSame.trans hN) hAlive now
        simp only [Task.request, hBeat.1]
        refine .ended (fun t hMem => ?_) ?_
        · exact hRest t (by simpa [Task.after] using hMem)
        · exact ready_heartbeat hSame hN hAlive (hStays n hN) now
  | forgotten hTask hSame hForgot =>
      have hEq := hOwn rfl hTask
      subst hEq
      by_cases hIn : before.Allows h
      · have hMirror :=
          mirror_allowed hAlike hFits hFree (hAllows.mpr hIn)
            now
        rcases hMirror with ⟨⟨assigned, hAnswer⟩, hJoining⟩
        simp only [Task.request, hAnswer]
        exact
          .mirrored (by simp [Task.after]) hJoining
            ((heals_forgot hForgot).mpr hIn)
      · have hOut : ¬ plane.Allows h :=
          fun hMay => hIn (hAllows.mp hMay)
        have hMirror := mirror_refused hOut body layers now
        simp only [Task.request, hMirror.1]
        refine .ended (fun t hMem => ?_) ?_
        · exact hRest t (by simpa [Task.after] using hMem)
        · rw [Plane.Ready, hMirror.2, hSame,
            heals_forgot hForgot]
          exact iff_of_false (not_ready_forgot hForgot) hIn
  | mirrored hTask hJoining hHeals =>
      have hEq := hOwn rfl hTask
      subst hEq
      rcases hJoining with ⟨n, hN, hState⟩
      refine .ended (fun t hMem => ?_) ?_
      · exact hRest t (by simpa [Task.after] using hMem)
      · exact iff_of_true (ready_joining hN hState now) hHeals
  | ended hNone hIff =>
      exact absurd hPlane (hNone task List.mem_cons_self)

/- The requests left in a round are at most that many. -/
def Process.left (p : Process) : Nat :=
  (p.beat.tasks.map Task.weight).sum

/- A round under way, seen from plane `k`. -/
structure During
    (h : String)
    (k : Nat)
    (before : Plane)
    (layers : Int × Int)
    (s : Cluster)
    (p : Process)
    (plane : Plane) : Prop where
  hasProcess : s.process = some p
  hasPlane : s.planes[k]? = some plane
  hasLayers : p.phase.layers? = some layers
  call : p.beat.call = none
  nodup : (p.beat.tasks.map Task.plane).Nodup
  bound : ∀ task ∈ p.beat.tasks, task.plane < s.planes.length
  cfg : plane.cfg = before.cfg
  free : h ∉ plane.registry.banned
  stage : Stage h k before p.beat.tasks plane

theorem During.exchange
    {s : Cluster}
    (hSound : Sound l derive h s)
    {p : Process}
    {layers : Int × Int}
    (hDuring : During h k before layers s p plane)
    (hStays :
      ∀ n, before.entry h = some n → n.state ≠ .draining)
    (hLeft : p.beat.tasks ≠ [])
    (now : ℚ) :
    ∃ p' plane',
      During h k before layers (s.exchange h now) p' plane' ∧
        p'.left < p.left := by
  rcases List.exists_cons_of_ne_nil hLeft with
    ⟨task, tasks, hTasks⟩
  have hBeat : p.beat = { tasks := task :: tasks } := by
    have hCall := hDuring.call
    cases hP : p.beat with
    | mk ts call =>
        rw [hP] at hTasks hCall
        simp only at hTasks hCall
        rw [hTasks, hCall]
  have hBound :=
    hDuring.bound task (by rw [hTasks]; exact List.mem_cons_self)
  have hAt := List.getElem?_eq_getElem hBound
  have hNodup := hDuring.nodup
  rw [hTasks] at hNodup
  have hStage := hDuring.stage
  rw [hTasks] at hStage
  rw [exchange_eq hDuring.hasProcess hDuring.hasLayers hBeat hAt now]
  have hBounds :
      ∀ answer, ∀ t ∈ task.after answer ++ tasks,
        t.plane < s.planes.length := by
    intro answer t hMem
    rcases List.mem_append.mp hMem with hAfter | hRest
    · rw [plane_of_after hAfter]
      exact hBound
    · apply hDuring.bound
      rw [hTasks]
      exact List.mem_cons_of_mem _ hRest
  have hLess :
      ∀ answer,
        ((task.after answer ++ tasks).map Task.weight).sum <
          p.left := by
    intro answer
    have hWeight := weight_after answer task
    rw [Process.left, hTasks, List.map_append,
      List.sum_append, List.map_cons, List.sum_cons]
    omega
  by_cases hHere : task.plane = k
  · have hSame : s.planes[task.plane] = plane := by
      have hK := hDuring.hasPlane
      rw [← hHere, hAt] at hK
      exact Option.some.inj hK
    rw [hSame]
    have hAlike :=
      hSound.planes plane
        (List.mem_of_getElem? hDuring.hasPlane)
    have hFits :=
      hSound.process p hDuring.hasProcess layers hDuring.hasLayers
    refine
      ⟨_, _,
        { hasProcess := rfl
          hasPlane := by rw [← hHere, List.getElem?_set_self hBound]
          hasLayers := hDuring.hasLayers
          call := rfl
          nodup := nodup_after hNodup _
          bound := fun t hMem => ?_
          cfg := ?_
          free := ?_
          stage :=
            hStage.exchange hAlike hFits hDuring.free
              hDuring.cfg hStays hHere hNodup now },
        hLess _⟩
    · rw [List.length_set]
      exact hBounds _ t hMem
    · rw [Plane.handle_snd]
      exact hDuring.cfg
    · rw [banned_handle]
      exact hDuring.free
  · refine
      ⟨_, plane,
        { hasProcess := rfl
          hasPlane := by
            rw [List.getElem?_set_ne hHere]
            exact hDuring.hasPlane
          hasLayers := hDuring.hasLayers
          call := rfl
          nodup := nodup_after hNodup _
          bound := fun t hMem => ?_
          cfg := hDuring.cfg
          free := hDuring.free
          stage := hStage.elsewhere hHere _ },
        hLess _⟩
    rw [List.length_set]
    exact hBounds _ t hMem

/- The plane's entry decides, and who is banned. -/
theorem Stage.of_entry
    {plane' : Plane}
    (hStage : Stage h k before tasks plane)
    (hEntry : plane'.entry h = plane.entry h) :
    Stage h k before tasks plane' := by
  cases hStage with
  | waiting hTask hSame =>
      exact .waiting hTask (hEntry.trans hSame)
  | forgotten hTask hSame hForgot =>
      exact .forgotten hTask (hEntry.trans hSame) hForgot
  | mirrored hTask hJoining hHeals =>
      rw [← hEntry] at hJoining
      exact .mirrored hTask hJoining hHeals
  | ended hNone hIff =>
      refine .ended hNone (Iff.trans ?_ hIff)
      rw [Plane.Ready, hEntry]
      rfl

theorem During.other
    {s : Cluster}
    {p : Process}
    {layers : Int × Int}
    (hDuring : During h k before layers s p plane)
    {j : Nat}
    {op : RegistryOp}
    (hQuiet : Quiet h op) :
    ∃ plane',
      During h k before layers (s.step h (.control j op)) p
        plane' := by
  simp only [step]
  split
  · exact ⟨plane, hDuring⟩
  · have hGet :
        (s.planes.modify j (fun plane =>
          { plane with
            registry :=
              plane.registry.step plane.cfg op }))[k]? =
          some
            (if j = k then
              { plane with
                registry := plane.registry.step plane.cfg op }
            else plane) := by
      rw [List.getElem?_modify, hDuring.hasPlane]
      rfl
    refine
      ⟨_,
        { hasProcess := hDuring.hasProcess
          hasPlane := hGet
          hasLayers := hDuring.hasLayers
          call := hDuring.call
          nodup := hDuring.nodup
          bound := fun t hMem => ?_
          cfg := ?_
          free := ?_
          stage := hDuring.stage.of_entry ?_ }⟩
    · rw [List.length_modify]
      exact hDuring.bound t hMem
    · split
      · exact hDuring.cfg
      · exact hDuring.cfg
    · split
      · exact Registry.banned_quiet _ hQuiet hDuring.free
      · exact hDuring.free
    · split
      · exact Registry.get?_quiet _ hQuiet
      · rfl

/- What a round leads to, once it is over. -/
theorem During.delivered
    {s s' : Cluster}
    (hDelivered : Delivered h s s')
    (hSound : Sound l derive h s)
    {p : Process}
    {layers : Int × Int}
    (hDuring : During h k before layers s p plane)
    (hStays :
      ∀ n, before.entry h = some n → n.state ≠ .draining) :
    ∃ plane', s'.planes[k]? = some plane' ∧
      (plane'.Ready h ↔ before.Heals h) := by
  induction hDelivered generalizing p plane with
  | done hIdle =>
      refine ⟨plane, hDuring.hasPlane, ?_⟩
      have hStage := hDuring.stage
      rw [hIdle p hDuring.hasProcess] at hStage
      cases hStage with
      | waiting hTask _ => cases hTask
      | forgotten hTask _ _ => cases hTask
      | mirrored hTask _ _ => cases hTask
      | ended _ hIff => exact hIff
  | exchange now hLeft _ ih =>
      rcases hLeft with ⟨q, hQ, hTasks⟩
      have hEq := hDuring.hasProcess.symm.trans hQ
      cases hEq
      rcases hDuring.exchange hSound hStays hTasks now with
        ⟨p', plane', hNext, _⟩
      exact ih (sound_step (sound_step hSound _) _) hNext
  | other j op hQuiet _ ih =>
      rcases hDuring.other hQuiet with ⟨plane', hNext⟩
      exact ih (sound_step hSound _) hNext

/- Answered requests come to an end. -/
theorem During.exists_delivered
    {s : Cluster}
    (hSound : Sound l derive h s)
    {p : Process}
    {layers : Int × Int}
    (hDuring : During h k before layers s p plane)
    (hStays :
      ∀ n, before.entry h = some n → n.state ≠ .draining) :
    ∃ s', Delivered h s s' := by
  generalize hLeft : p.left = left
  induction left using Nat.strong_induction_on
    generalizing s p plane with
  | _ left ih =>
      by_cases hTasks : p.beat.tasks = []
      · refine ⟨s, .done (fun q hQ => ?_)⟩
        have hEq := hDuring.hasProcess.symm.trans hQ
        cases hEq
        have hCall := hDuring.call
        cases hBeat : p.beat with
        | mk tasks call => simp_all
      · rcases hDuring.exchange hSound hStays hTasks 0 with
          ⟨p', plane', hNext, hLess⟩
        rcases ih p'.left (hLeft ▸ hLess)
            (sound_step (sound_step hSound _) _) hNext rfl with
          ⟨s', hDelivered⟩
        exact
          ⟨s', .exchange 0 ⟨p, hDuring.hasProcess, hTasks⟩
            hDelivered⟩

/- A listening worker starts a round. -/
theorem during_round
    {s : Cluster}
    {p : Process}
    (hP : s.process = some p)
    {layers : Int × Int}
    (hServing : p.phase = .serving layers)
    (hIdle : p.beat = {})
    (hPlane : s.planes[k]? = some plane)
    (hFree : h ∉ plane.registry.banned) :
    ∃ p', During h k plane layers (s.step h .round) p' plane := by
  have hRound :
      p.round s.planes.length =
        { p with
          beat :=
            { tasks :=
                (List.range s.planes.length).map
                  .heartbeat } } := by
    simp [Process.round, Process.beats, hServing, hIdle]
  have hPlanes :
      ((List.range s.planes.length).map Task.heartbeat).map
          Task.plane =
        List.range s.planes.length := by
    rw [List.map_map]
    exact List.map_id _
  have hLt := (List.getElem?_eq_some_iff.mp hPlane).1
  refine
    ⟨{ p with
        beat :=
          { tasks :=
              (List.range s.planes.length).map .heartbeat } },
      { hasProcess := by
          simp only [step, onProcess, hP, Option.map_some,
            hRound]
        hasPlane := hPlane
        hasLayers := by simp [hServing, Phase.layers?]
        call := rfl
        nodup := by
          rw [hPlanes]
          exact List.nodup_range
        bound := fun t hMem => ?_
        cfg := rfl
        free := hFree
        stage := .waiting ?_ rfl }⟩
  · rcases List.mem_map.mp hMem with ⟨j, hJ, rfl⟩
    exact List.mem_range.mp hJ
  · exact List.mem_map_of_mem (List.mem_range.mpr hLt)

/-
  Whatever was lost before, a complete round leaves the node
  READY exactly when it was not left JOINING and, where it
  was forgotten, may come back.
-/
theorem heals_iff
    {planes : List Plane}
    (hStarted : Started l derive planes)
    (es : List Event)
    {p : Process}
    (hP : (run h { planes := planes } es).process = some p)
    {layers : Int × Int}
    (hServing : p.phase = .serving layers)
    (hIdle : p.beat = {})
    (hPlane :
      (run h { planes := planes } es).planes[k]? = some plane)
    (hStays :
      ∀ n, plane.entry h = some n → n.state ≠ .draining)
    (hFree : h ∉ plane.registry.banned) :
    (∃ s',
        Delivered h
          ((run h { planes := planes } es).step h .round) s') ∧
      ∀ s',
        Delivered h
            ((run h { planes := planes } es).step h .round)
            s' →
          ∃ plane', s'.planes[k]? = some plane' ∧
            (plane'.Ready h ↔ plane.Heals h) := by
  have hSound :=
    sound_step (sound_run (h := h) hStarted es) .round
  rcases during_round hP hServing hIdle hPlane hFree with
    ⟨p', hDuring⟩
  refine
    ⟨hDuring.exists_delivered hSound hStays, fun s' hEnd => ?_⟩
  exact hDuring.delivered hEnd hSound hStays

/- The worker came up, and is suspected since. -/
def suspected : List Event :=
  comesUp ++ [.control 0 (.markSuspect "seed")]

/- It is READY again after a round of heartbeats. -/
theorem heals_iff_comesUp :
    ∃ plane,
      (run "seed" { planes := startAll [twoSlots] }
          suspected).planes[0]? = some plane ∧
        ¬ plane.Ready "seed" ∧
        (∃ s',
          Delivered "seed"
            ((run "seed" { planes := startAll [twoSlots] }
              suspected).step "seed" .round) s') ∧
        ∀ s',
          Delivered "seed"
              ((run "seed" { planes := startAll [twoSlots] }
                suspected).step "seed" .round) s' →
            ∃ plane', s'.planes[0]? = some plane' ∧
              plane'.Ready "seed" := by
  have hStarted :
      Started twoSlots.layout twoSlots.deriveNodeKey
        (startAll [twoSlots]) :=
    started_startAll (by simp)
  refine ⟨_, rfl, ?_, ?_⟩
  · rintro ⟨n, hN, hReady⟩
    cases hN
    cases hReady
  rcases heals_iff (h := "seed") (k := 0) hStarted suspected
      rfl rfl rfl rfl (fun n hN => by cases hN; decide)
      (by decide) with
    ⟨hEnds, hHeals⟩
  refine ⟨hEnds, ?_⟩
  intro s' hEnd
  rcases hHeals s' hEnd with ⟨plane', hPlane, hIff⟩
  refine ⟨plane', hPlane, hIff.mpr ⟨?_, ?_⟩⟩
  · intro n hN
    cases hN
    decide
  · intro _ allowed hAllowed
    cases hAllowed

/- The worker is listening; its announcement was lost. -/
def losesReady : List Event :=
  [.start smallBody, .post .main, .handle 0 0 true, .listen,
    .post .main, .lose 0, .giveUp .main]

/- Heartbeats do not always heal. -/
theorem exists_not_heals :
    ¬ ∀ (l : Layout) (derive : String → Option WireKey)
        (h : String) (planes : List Plane) (es : List Event)
        (p : Process) (layers : Int × Int) (k : Nat)
        (plane : Plane),
      Started l derive planes →
        (run h { planes := planes } es).process = some p →
          p.phase = .serving layers → p.beat = {} →
            (run h { planes := planes } es).planes[k]? =
                some plane →
              (∀ n, plane.entry h = some n →
                n.state ≠ .draining) →
                h ∉ plane.registry.banned →
                  ∀ s',
                    Delivered h
                        ((run h { planes := planes } es).step h
                          .round) s' →
                      ∃ plane', s'.planes[k]? = some plane' ∧
                        plane'.Ready h := by
  intro hAll
  have hReady :=
    hAll twoSlots.layout twoSlots.deriveNodeKey "seed"
      (startAll [twoSlots]) losesReady _ (0, 1) 0 _
      (started_startAll (by simp)) rfl rfl rfl rfl
      (fun n hN => by cases hN; decide) (by decide) _
      (.exchange 1 ⟨_, rfl, by decide⟩
        (.done (fun p hP => by cases hP; rfl)))
  rcases hReady with ⟨plane, hPlane, n, hN, hState⟩
  cases hPlane
  cases hN
  exact absurd hState (by decide)

end Cluster

end CircuitDllm
