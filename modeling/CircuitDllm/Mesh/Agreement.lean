import CircuitDllm.Mesh.Client

/-
  What control planes say of a worker and what it serves.

  Every control plane assigns slots on its own.  A mirrored
  registration names the slot the worker has, and gets it;
  but a plane the mirror does not reach keeps the slot of an
  earlier process, and heartbeats keep that entry alive.  So
  does a coordinator keep a route that it took before.

  A plane has the node in the slot of its last answer to a
  registration, so the answers, the routes held and the
  requests under way tell when all agree.

  Main declarations:
    * `Cluster.serving_step`, `Cluster.plane_step`
    * `Cluster.inPlace_step`, `Cluster.placed_of_handle`
    * `Views`, `Views.Agrees`, `Views.Drifts`
    * `Views.inView_step`
    * `Views.agrees_run`
    * `Views.exists_not_agrees`
-/

------------------------------------------------------------
-- Slots of a Node
------------------------------------------------------------

namespace CircuitDllm

namespace Topology

/- The node's slot has exactly these layers. -/
def Placed
    (t : Topology)
    (n : Node)
    (layers : Int × Int) : Prop :=
  ∃ slot ∈ t.slots,
    n.slot = some slot.index ∧
      (slot.start, slot.stop) = layers

instance (t : Topology) (n : Node) (layers : Int × Int) :
    Decidable (t.Placed n layers) := by
  unfold Placed
  infer_instance

variable {t t' : Topology}

/- The cuts decide, whatever the holders are. -/
theorem Placed.of_layers
    {n n' : Node}
    {layers : Int × Int}
    (hPlaced : t.Placed n layers)
    (hLayers : t'.layers = t.layers)
    (hSlot : n'.slot = n.slot) :
    t'.Placed n' layers := by
  rcases hPlaced with ⟨slot, hMem, hIndex, hRange⟩
  have hSlots := congrArg Prod.snd hLayers
  simp only [Topology.layers] at hSlots
  have hBare : slot.bare ∈ t'.slots.map Slot.bare := by
    rw [hSlots]
    exact List.mem_map_of_mem hMem
  rcases List.mem_map.mp hBare with ⟨slot', hMem', hEq⟩
  simp only [Slot.bare, Slot.mk.injEq, and_true] at hEq
  rcases hEq with ⟨hIndex', hStart, hStop⟩
  refine ⟨slot', hMem', ?_, ?_⟩
  · rw [hSlot, hIndex, hIndex']
  · rw [hStart, hStop, hRange]

/- A node is in one slot only. -/
theorem Placed.unique
    {n : Node}
    {layers layers' : Int × Int}
    (hPlaced : t.Placed n layers)
    (hPlaced' : t.Placed n layers') :
    layers = layers' := by
  rcases hPlaced with ⟨slot, hMem, hIndex, rfl⟩
  rcases hPlaced' with ⟨slot', hMem', hIndex', rfl⟩
  rw [hIndex] at hIndex'
  rcases List.mem_iff_getElem?.mp hMem with ⟨k, hK⟩
  rcases List.mem_iff_getElem?.mp hMem' with ⟨k', hK'⟩
  have hEq : slot.index = slot'.index :=
    Option.some.inj hIndex'
  rw [t.index_of_getElem? hK, t.index_of_getElem? hK'] at hEq
  rw [hEq, hK'] at hK
  rw [Option.some.inj hK]

/- A node that fits the slot it asks for gets its layers. -/
theorem slotFor_prefer
    {node : Node}
    {layers : Int × Int}
    (hSome :
      ∃ slot ∈ t.slots,
        (slot.start, slot.stop) = layers ∧
          slot.size ≤ node.capacityLayers) :
    ∃ slot ∈ t.slots,
      t.slotFor node (some (.layers layers.1 layers.2)) =
          some slot ∧
        (slot.start, slot.stop) = layers := by
  have hFound :
      (t.slots.find? (fun s =>
        PreferRange.names s (.layers layers.1 layers.2) ∧
          s.size ≤ node.capacityLayers)).isSome := by
    rcases hSome with ⟨slot, hMem, hRange, hFits⟩
    rw [List.find?_isSome]
    exact ⟨slot, hMem, by simp [PreferRange.names, hRange, hFits]⟩
  rcases Option.isSome_iff_exists.mp hFound with ⟨slot, hFind⟩
  have hNamed := List.find?_some hFind
  simp only [PreferRange.names, decide_eq_true_eq] at hNamed
  refine
    ⟨slot, List.mem_of_find?_eq_some hFind, ?_, hNamed.1⟩
  simp only [slotFor, Option.bind_some, hFind]
  rfl

end Topology

/- JOINING, READY or SUSPECT: heartbeats keep it so. -/
def Node.Active (n : Node) : Prop :=
  n.state = .joining ∨ n.state = .ready ∨ n.state = .suspect

instance (n : Node) : Decidable n.Active := by
  unfold Node.Active
  infer_instance

namespace Registry

variable {cfg : RegistryConfig}

/- A changed entry that was active, in the same slot. -/
theorem active_of_modified
    {f : Node → Node}
    (hSlot : ∀ n, (f n).slot = n.slot)
    (hActive : ∀ n, (f n).Active → n.Active)
    {h nodeId : String}
    {entry : Option Node}
    {n' : Node}
    (hN' :
      (if nodeId = h then entry.map f else entry) = some n')
    (hAfter : n'.Active) :
    ∃ n, entry = some n ∧ n.Active ∧ n'.slot = n.slot := by
  split at hN'
  · rcases Option.map_eq_some_iff.mp hN' with ⟨n, hN, rfl⟩
    exact ⟨n, hN, hActive n hAfter, hSlot n⟩
  · exact ⟨n', hN', hAfter, rfl⟩

/- Only a registration makes a node active or moves it. -/
theorem active_step
    {r : Registry}
    {op : RegistryOp}
    {h : String}
    (hOther : Cluster.registers h op = false)
    {n' : Node}
    (hN' : (r.step cfg op).topo.nodes.get? h = some n')
    (hAfter : n'.Active) :
    ∃ n, r.topo.nodes.get? h = some n ∧ n.Active ∧
      n'.slot = n.slot := by
  rw [get?_step] at hN'
  cases op with
  | register node now preferRange =>
      simp only [Cluster.registers, decide_eq_false_iff_not]
        at hOther
      simp only [nodeStep, hOther, if_false] at hN'
      exact ⟨n', hN', hAfter, rfl⟩
  | heartbeat nodeId now =>
      refine
        active_of_modified (fun n => ?_) (fun n hN => ?_) hN'
          hAfter
      · split <;> rfl
      · split at hN
        · exact hN
        · simp only [Node.Active] at hN ⊢
          split at hN
          · rename_i hSuspect
            exact .inr (.inr hSuspect)
          · exact hN
  | drain nodeId =>
      refine
        active_of_modified (fun n => ?_) (fun n hN => ?_) hN'
          hAfter
      · rfl
      · simp [Node.Active] at hN
  | markReady nodeId =>
      refine
        active_of_modified (fun n => ?_) (fun n hN => ?_) hN'
          hAfter
      · split <;> rfl
      · split at hN
        · rename_i hJoining
          exact .inl hJoining
        · exact hN
  | markSuspect nodeId =>
      refine
        active_of_modified (fun n => ?_) (fun n hN => ?_) hN'
          hAfter
      · split <;> rfl
      · split at hN
        · rename_i hReady
          exact .inr (.inl hReady)
        · exact hN
  | setTrusted nodeId =>
      refine
        active_of_modified (fun n => ?_) (fun n hN => ?_) hN'
          hAfter
      · rfl
      · exact hN
  | recordCheck nodeId ok promoteAfter strikeMax =>
      refine
        active_of_modified (fun n => ?_) (fun n hN => ?_) hN'
          hAfter
      · cases ok <;> simp
      · cases ok with
        | true => simpa [Node.Active] using hN
        | false =>
            simp only [Bool.false_eq_true, if_false,
              Node.Active, Topology.failCheck_state] at hN
            split at hN
            · simp at hN
            · exact hN
  | tick now =>
      simp only [nodeStep] at hN'
      have hMap := (Option.filter_eq_some_iff.mp hN').1
      rcases Option.map_eq_some_iff.mp hMap with ⟨n, hN, rfl⟩
      unfold Topology.reaped at hAfter ⊢
      split at hAfter
      · simp [Node.Active] at hAfter
      · rename_i hDue
        rw [if_neg hDue]
        exact ⟨n, hN, hAfter, rfl⟩
  | restart =>
      simp only [nodeStep] at hN'
      split at hN'
      · exact ⟨n', hN', hAfter, rfl⟩
      · cases hN'
  | setRtt nodeId ms => exact ⟨n', hN', hAfter, rfl⟩
  | acquireRoute session => exact ⟨n', hN', hAfter, rfl⟩
  | releaseRoute session => exact ⟨n', hN', hAfter, rfl⟩
  | acquireEntry session => exact ⟨n', hN', hAfter, rfl⟩
  | releaseEntry session => exact ⟨n', hN', hAfter, rfl⟩
  | recordWork route paidRaw => exact ⟨n', hN', hAfter, rfl⟩
  | settle minPayoutRaw => exact ⟨n', hN', hAfter, rfl⟩
  | disk up => exact ⟨n', hN', hAfter, rfl⟩

/- A node registered for its own layers has them, or it has
   what it had. -/
theorem placed_of_register
    {r : Registry}
    {node : Node}
    (hHolder : node.orchestrator = false)
    {layers : Int × Int}
    (hSome :
      ∃ slot ∈ r.topo.slots,
        (slot.start, slot.stop) = layers ∧
          slot.size ≤ node.capacityLayers)
    {now : ℚ}
    {n' : Node}
    (hN' :
      (r.step cfg
          (.register node now
            (some (.layers layers.1 layers.2)))).topo.nodes.get?
        node.nodeId = some n') :
    r.topo.nodes.get? node.nodeId = some n' ∨
      r.topo.Placed n' layers := by
  rw [get?_step] at hN'
  simp only [nodeStep, if_true] at hN'
  split at hN'
  · exact .inl hN'
  · rename_i index hEntry
    cases hN'
    right
    have hDrop :
        ∃ slot ∈ (r.topo.dropHolding node.nodeId).slots,
          (slot.start, slot.stop) = layers ∧
            slot.size ≤ node.capacityLayers := by
      rcases hSome with ⟨slot, hMem, hRange, hFits⟩
      exact
        ⟨_, Topology.mem_mapHolders.mpr ⟨slot, hMem, rfl⟩,
          hRange, hFits⟩
    rcases Topology.slotFor_prefer hDrop with
      ⟨slot, hSlot, hFor, hRange⟩
    simp only [entry, hHolder, Bool.false_eq_true, if_false,
      hFor] at hEntry
    split at hEntry
    · cases hEntry
    · cases hEntry
      have hPlaced :
          (r.topo.dropHolding node.nodeId).Placed
            (enteredNode cfg node (some slot.index) now)
            layers :=
        ⟨slot, hSlot, rfl, hRange⟩
      exact
        hPlaced.of_layers
          (Topology.layers_dropHolding _ _).symm rfl

end Registry

end CircuitDllm

------------------------------------------------------------
-- Agreement
------------------------------------------------------------

namespace CircuitDllm

namespace Cluster

/- The plane has node `h` READY for these layers. -/
def Plane.Lists
    (h : String)
    (plane : Plane)
    (layers : Int × Int) : Prop :=
  ∃ n, plane.registry.topo.nodes.get? h = some n ∧
    n.state = .ready ∧ plane.registry.topo.Placed n layers

instance (h : String) (plane : Plane) (layers : Int × Int) :
    Decidable (plane.Lists h layers) :=
  decidable_of_iff
    ((plane.registry.topo.nodes.get? h).any (fun n =>
      n.state = .ready ∧
        plane.registry.topo.Placed n layers))
    (by simp [Option.any_eq_true, Plane.Lists])

/- A worker process serves these layers. -/
def Serves (s : Cluster) (layers : Int × Int) : Prop :=
  ∃ p ∈ s.process, p.phase = .serving layers

instance (s : Cluster) (layers : Int × Int) :
    Decidable (s.Serves layers) := by
  unfold Serves
  infer_instance

/- What the plane has of node `h` is in the slot it has. -/
def Plane.Keeps
    (h : String)
    (layers : Int × Int)
    (plane : Plane) : Prop :=
  ∀ n, plane.registry.topo.nodes.get? h = some n →
    n.Active → plane.registry.topo.Placed n layers

instance (h : String) (layers : Int × Int) (plane : Plane) :
    Decidable (plane.Keeps h layers) :=
  decidable_of_iff
    ((plane.registry.topo.nodes.get? h).all (fun n =>
      n.Active → plane.registry.topo.Placed n layers))
    (by simp [Option.all_eq_true, Plane.Keeps, imp_iff_not_or])

/- Whatever the worker serves, every plane keeps to it. -/
def InPlace (h : String) (s : Cluster) : Prop :=
  ∀ layers, s.Serves layers →
    ∀ plane ∈ s.planes, plane.Keeps h layers

variable
  {l : Layout}
  {derive : String → Option WireKey}
  {h : String}

/- Two control planes of one layout have the same slots. -/
theorem Alike.layers
    {plane plane' : Plane}
    (hAlike : Alike l derive plane)
    (hAlike' : Alike l derive plane') :
    plane'.registry.topo.layers = plane.registry.topo.layers := by
  rcases hAlike.reachable with ⟨r₀, ops, hInit, hRun⟩
  rcases Registry.create_ok hInit with ⟨t, hCreate, _⟩
  rw [hAlike.layout] at hCreate
  rw [hAlike.reachable.layers (hAlike.layout ▸ hCreate),
    hAlike'.reachable.layers (hAlike'.layout ▸ hCreate),
    hAlike.layout, hAlike'.layout]

/- A slot of the layout is one of every control plane. -/
theorem Alike.exists_slot
    {plane : Plane}
    (hAlike : Alike l derive plane)
    {layers : Int × Int}
    {capacity : Int}
    (hHas : Topology.HasSlot l layers capacity) :
    ∃ slot ∈ plane.registry.topo.slots,
      (slot.start, slot.stop) = layers ∧
        slot.size ≤ capacity := by
  rcases hHas with ⟨t, hCreate, slot, hSlot, hRange, hFits⟩
  have hLayers :=
    hAlike.reachable.layers (hAlike.layout ▸ hCreate)
  have hSlots := congrArg Prod.snd hLayers
  simp only [Topology.layers] at hSlots
  rw [← hSlots] at hSlot
  rcases List.mem_map.mp hSlot with ⟨slot', hSlot', rfl⟩
  exact ⟨slot', hSlot', hRange, hFits⟩

/- An operation that is no registration of the worker. -/
theorem Plane.Keeps.step
    {plane : Plane}
    (hAlike : Alike l derive plane)
    {layers : Int × Int}
    (hKeeps : plane.Keeps h layers)
    {op : RegistryOp}
    (hOther : registers h op = false) :
    Plane.Keeps h layers
      { plane with
        registry := plane.registry.step plane.cfg op } := by
  intro n' hN' hAfter
  rcases Registry.active_step hOther hN' hAfter with
    ⟨n, hN, hActive, hSlot⟩
  exact
    (hKeeps n hN hActive).of_layers
      (hAlike.layers (hAlike.step op)) hSlot

/- Asked for the layers the worker serves, or for no slot. -/
theorem Plane.Keeps.handle
    {plane : Plane}
    (hAlike : Alike l derive plane)
    {layers : Int × Int}
    (hKeeps : plane.Keeps h layers)
    {request : Request}
    (hAsks :
      ∀ body loadedLayers,
        request = .register body loadedLayers →
          loadedLayers = some layers ∧
            Fits l derive h body layers)
    (now : ℚ) :
    Plane.Keeps h layers (plane.handle h now request).2 := by
  rw [Plane.handle_snd]
  cases request with
  | register body loadedLayers =>
      rcases hAsks body loadedLayers rfl with ⟨rfl, hFits⟩
      intro n' hN' hAfter
      rcases Registry.placed_of_register rfl
          (hAlike.exists_slot hFits.slot) hN' with
        hOld | hPlaced
      · exact
          (hKeeps n' hOld hAfter).of_layers
            (hAlike.layers (hAlike.step _)) rfl
      · exact
          hPlaced.of_layers (hAlike.layers (hAlike.step _)) rfl
  | ready => exact hKeeps.step hAlike rfl
  | heartbeat => exact hKeeps.step hAlike rfl
  | drain => exact hKeeps.step hAlike rfl

end Cluster

end CircuitDllm

------------------------------------------------------------
-- One Step
------------------------------------------------------------

namespace CircuitDllm

namespace Cluster

variable
  {l : Layout}
  {derive : String → Option WireKey}
  {h : String}

/- A thread that goes on does not start to serve. -/
theorem serving_of_resume
    {numPlanes : Nat}
    {thread : Thread}
    {answer : Option Answer}
    {p p' : Process}
    (hResume : p.resume numPlanes thread answer = some p')
    {layers : Int × Int}
    (hPhase : p'.phase = .serving layers) :
    p.phase = .serving layers ∧ p.body = p'.body := by
  rcases Process.resume_cases hResume with
    ⟨hBody, ⟨posting, rfl, _⟩ | ⟨joined, _, _, hJoined⟩⟩
  · rw [Process.setPosting_phase] at hPhase
    exact ⟨hPhase, hBody.symm⟩
  · rw [hJoined] at hPhase
    cases hPhase

/- A worker that serves did so before, or opened its port. -/
theorem serving_step
    {s : Cluster}
    {e : Event}
    {p' : Process}
    (hP' : (s.step h e).process = some p')
    {layers : Int × Int}
    (hPhase : p'.phase = .serving layers) :
    ∃ p, s.process = some p ∧ p.body = p'.body ∧
      (p.phase = .serving layers ∨
        e = .listen ∧ p.phase = .joined layers) := by
  cases e with
  | start body =>
      cases hP'
      cases hPhase
  | post thread =>
      simp only [step, post] at hP'
      split at hP'
      · rename_i hNone
        rw [hNone] at hP'
        cases hP'
      · rename_i p hP
        split at hP'
        · exact ⟨p', hP', rfl, .inl hPhase⟩
        · split at hP'
          · exact ⟨p', hP', rfl, .inl hPhase⟩
          · cases hP'
            rw [Process.setPosting_phase] at hPhase
            exact ⟨p, hP, by simp, .inl hPhase⟩
  | handle i now answered =>
      simp only [step, handle] at hP'
      split at hP'
      · exact ⟨p', hP', rfl, .inl hPhase⟩
      · split at hP'
        · exact ⟨p', hP', rfl, .inl hPhase⟩
        · split at hP'
          · unfold answer at hP'
            split at hP'
            · exact ⟨p', hP', rfl, .inl hPhase⟩
            · rename_i p hP
              split at hP'
              · rcases serving_of_resume hP' hPhase with
                  ⟨hServed, hBody⟩
                exact ⟨p, hP, hBody, .inl hServed⟩
              · exact ⟨p', hP', rfl, .inl hPhase⟩
          · exact ⟨p', hP', rfl, .inl hPhase⟩
  | lose i => exact ⟨p', hP', rfl, .inl hPhase⟩
  | giveUp thread =>
      simp only [step, giveUp] at hP'
      split at hP'
      · rename_i hNone
        rw [hNone] at hP'
        cases hP'
      · rename_i p hP
        split at hP'
        · have hResume :
              p.resume s.planes.length thread none =
                some p' := hP'
          rcases serving_of_resume hResume hPhase with
            ⟨hServed, hBody⟩
          exact ⟨p, hP, hBody, .inl hServed⟩
        · exact ⟨p', hP', rfl, .inl hPhase⟩
  | listen =>
      rcases Option.map_eq_some_iff.mp hP' with ⟨p, hP, rfl⟩
      rcases p.listen_cases s.planes.length with
        hSame | ⟨layers', hJoined, hEnd⟩
      · rw [hSame] at hPhase ⊢
        exact ⟨p, hP, rfl, .inl hPhase⟩
      · rw [hEnd] at hPhase ⊢
        cases hPhase
        exact ⟨p, hP, rfl, .inr ⟨rfl, hJoined⟩⟩
  | round =>
      rcases Option.map_eq_some_iff.mp hP' with ⟨p, hP, rfl⟩
      rcases p.round_cases s.planes.length with
        hSame | ⟨_, hEnd⟩
      · rw [hSame] at hPhase ⊢
        exact ⟨p, hP, rfl, .inl hPhase⟩
      · rw [hEnd] at hPhase ⊢
        exact ⟨p, hP, rfl, .inl hPhase⟩
  | stop =>
      rcases Option.map_eq_some_iff.mp hP' with ⟨p, hP, rfl⟩
      rcases p.stop_cases s.planes.length with
        hSame | ⟨layers', _, hEnd⟩
      · rw [hSame] at hPhase ⊢
        exact ⟨p, hP, rfl, .inl hPhase⟩
      · rw [hEnd] at hPhase
        cases hPhase
  | kill => cases hP'
  | control k op =>
      simp only [step] at hP'
      split at hP' <;> exact ⟨p', hP', rfl, .inl hPhase⟩

/- The layers a plane answers a registration with. -/
def answered (h : String) (s : Cluster) :
    Event → Option (Nat × (Int × Int))
| .handle i now _ =>
    match s.wire[i]? with
    | none => none
    | some packet =>
      match s.planes[packet.plane]? with
      | none => none
      | some plane =>
        match (plane.handle h now packet.request).1 with
        | .assignment (some layers) =>
          some (packet.plane, layers)
        | _ => none
| _ => none

/- What a plane did to its registry in one step. -/
inductive PlaneStep
    (h : String)
    (s : Cluster)
    (k : Nat)
    (plane : Plane) :
    Event → Plane → Prop where
  | same {e}
      (hSilent : ∀ layers, s.answered h e ≠ some (k, layers)) :
      PlaneStep h s k plane e plane
  | handled {i now toWorker packet}
      (hPacket : s.wire[i]? = some packet)
      (hPlane : packet.plane = k) :
      PlaneStep h s k plane (.handle i now toWorker)
        (plane.handle h now packet.request).2
  | control {op}
      (hOther : registers h op = false) :
      PlaneStep h s k plane (.control k op)
        { plane with
          registry := plane.registry.step plane.cfg op }

theorem plane_step
    {s : Cluster}
    {e : Event}
    {k : Nat}
    {plane' : Plane}
    (hPlane' : (s.step h e).planes[k]? = some plane') :
    ∃ plane, s.planes[k]? = some plane ∧
      PlaneStep h s k plane e plane' := by
  cases e with
  | handle i now toWorker =>
      simp only [step, handle] at hPlane'
      split at hPlane'
      · rename_i hNone
        refine ⟨plane', hPlane', .same (fun layers => ?_)⟩
        simp [answered, hNone]
      · rename_i packet hPacket
        split at hPlane'
        · rename_i hNone
          refine ⟨plane', hPlane', .same (fun layers => ?_)⟩
          simp [answered, hPacket, hNone]
        · rename_i plane hPlane
          have hSet :
              (s.planes.set packet.plane
                (plane.handle h now packet.request).2)[k]? =
                some plane' := by
            split at hPlane'
            · unfold answer at hPlane'
              split at hPlane'
              · exact hPlane'
              · split at hPlane' <;> exact hPlane'
            · exact hPlane'
          rw [List.getElem?_set] at hSet
          split at hSet
          · next hEq =>
              subst hEq
              split at hSet
              · cases hSet
                exact ⟨plane, hPlane, .handled hPacket rfl⟩
              · cases hSet
          · next hNe =>
              refine ⟨plane', hSet, .same (fun layers => ?_)⟩
              simp only [answered, hPacket, hPlane]
              split <;> simp [hNe]
  | control j op =>
      simp only [step] at hPlane'
      split at hPlane'
      · exact ⟨plane', hPlane', .same (by simp [answered])⟩
      · rename_i hOther
        rw [List.getElem?_modify] at hPlane'
        rcases Option.map_eq_some_iff.mp hPlane' with
          ⟨plane, hPlane, rfl⟩
        refine ⟨plane, hPlane, ?_⟩
        split
        · next hEq =>
            subst hEq
            exact .control (by simpa using hOther)
        · exact .same (by simp [answered])
  | post thread =>
      simp only [step, post] at hPlane'
      refine ⟨plane', ?_, .same (by simp [answered])⟩
      split at hPlane'
      · exact hPlane'
      · split at hPlane'
        · exact hPlane'
        · split at hPlane' <;> exact hPlane'
  | giveUp thread =>
      simp only [step, giveUp] at hPlane'
      refine ⟨plane', ?_, .same (by simp [answered])⟩
      split at hPlane'
      · exact hPlane'
      · split at hPlane' <;> exact hPlane'
  | start body | lose i | listen | round | stop | kill =>
      exact ⟨plane', hPlane', .same (by simp [answered])⟩

/- A registration of other layers than are served. -/
def Phase.Elsewhere : Phase → Request → Prop
| .serving layers, .register _ loadedLayers =>
    loadedLayers ≠ some layers
| _, _ => False

instance (phase : Phase) (request : Request) :
    Decidable (phase.Elsewhere request) := by
  unfold Phase.Elsewhere
  split <;> infer_instance

/- A plane takes one up. -/
def Strays (s : Cluster) : Event → Prop
| .handle i _ _ =>
    ∃ packet ∈ s.wire[i]?, ∃ p ∈ s.process,
      p.phase.Elsewhere packet.request
| _ => False

instance (s : Cluster) (e : Event) : Decidable (s.Strays e) := by
  unfold Strays
  split <;> infer_instance

/- While the worker serves, no plane takes up another slot. -/
theorem inPlace_step
    {s : Cluster}
    (hSound : Sound l derive h s)
    (hInPlace : InPlace h s)
    {e : Event}
    (hNot : ¬ s.Strays e)
    (hOpens :
      e = .listen →
        ∀ p ∈ s.process, ∀ layers, p.phase = .joined layers →
          ∀ plane ∈ s.planes, plane.Keeps h layers) :
    InPlace h (s.step h e) := by
  rintro layers ⟨p', hP', hPhase⟩ plane' hMem'
  rcases serving_step hP' hPhase with ⟨p, hP, _, hBefore⟩
  rcases List.mem_iff_getElem?.mp hMem' with ⟨k, hK⟩
  rcases plane_step hK with ⟨plane, hPlane, hStep⟩
  have hMem := List.mem_of_getElem? hPlane
  have hAlike := hSound.planes plane hMem
  rcases hBefore with hServed | ⟨rfl, hJoined⟩
  · have hKeeps := hInPlace layers ⟨p, hP, hServed⟩ plane hMem
    cases hStep with
    | same hSilent => exact hKeeps
    | @handled i now toWorker packet hPacket hTo =>
        refine
          hKeeps.handle hAlike
            (fun body loadedLayers hRequest => ?_) now
        have hAsks : loadedLayers = some layers := by
          by_contra hOther
          refine hNot ⟨packet, hPacket, p, hP, ?_⟩
          rw [hServed, hRequest]
          exact hOther
        subst hAsks
        exact
          ⟨rfl,
            hSound.wire packet (List.mem_of_getElem? hPacket)
              _ _ hRequest⟩
    | control hOther => exact hKeeps.step hAlike hOther
  · cases hStep with
    | same hSilent =>
        exact hOpens rfl p hP layers hJoined _ hMem

/- A plane that keeps to the layers routes for them only. -/
theorem InPlace.routed
    {s : Cluster}
    (hSound : Sound l derive h s)
    (hInPlace : InPlace h s)
    {plane : Plane}
    (hPlane : plane ∈ s.planes)
    {session : Nat}
    {route : List Node}
    (hOk :
      (plane.registry.acquireRoute session).1 = .ok route)
    {k : Nat}
    {n : Node}
    (hK : route[k]? = some n)
    (hId : n.nodeId = h)
    {slot : Slot}
    (hSlot : plane.registry.topo.slots[k]? = some slot)
    {layers : Int × Int}
    (hServes : s.Serves layers) :
    (slot.start, slot.stop) = layers := by
  have hWf := (hSound.planes plane hPlane).reachable.wellFormed
  rcases Registry.acquireRoute_slot hWf hOk hK with
    ⟨hN, hReady, hAt⟩
  rw [hId] at hN
  have hPlaced :
      plane.registry.topo.Placed n (slot.start, slot.stop) :=
    ⟨slot, List.mem_of_getElem? hSlot,
      by rw [hAt, plane.registry.topo.index_of_getElem? hSlot],
      rfl⟩
  apply hPlaced.unique
  exact
    hInPlace layers hServes plane hPlane n hN
      (.inr (.inl hReady))

/-
  What a plane takes up of the node, it answers for: the
  layers of its slot, or nothing has changed.
-/
theorem placed_of_handle
    {plane : Plane}
    (hAlike : Alike l derive plane)
    (hKey : derive h ≠ none)
    {now : ℚ}
    {request : Request}
    {n' : Node}
    (hN' :
      (plane.handle h now request).2.registry.topo.nodes.get?
        h = some n')
    (hAfter : n'.Active) :
    (∃ layers,
        (plane.handle h now request).1 =
            .assignment (some layers) ∧
          (plane.handle h now
            request).2.registry.topo.Placed n' layers) ∨
      (∀ layers,
          (plane.handle h now request).1 ≠
            .assignment (some layers)) ∧
        ∃ n, plane.registry.topo.nodes.get? h = some n ∧
          n.Active ∧ n'.slot = n.slot := by
  rw [Plane.handle_snd] at hN' ⊢
  have hLayers :
      (plane.registry.step plane.cfg
          (request.op h now)).topo.layers =
        plane.registry.topo.layers :=
    hAlike.layers (hAlike.step _)
  cases request with
  | ready =>
      exact .inr ⟨by simp [Plane.handle],
        Registry.active_step rfl hN' hAfter⟩
  | heartbeat =>
      exact .inr ⟨by simp [Plane.handle],
        Registry.active_step rfl hN' hAfter⟩
  | drain =>
      exact .inr ⟨by simp [Plane.handle],
        Registry.active_step rfl hN' hAfter⟩
  | register body loadedLayers =>
      have hNamed :
          plane.cfg.deriveNodeKey (body.toNode h).nodeId ≠
            none := by
        rw [hAlike.derive]
        exact hKey
      have hAdmits :=
        Registry.register_ok_iff plane.cfg hNamed now
          (loadedLayers.map (fun r => .layers r.1 r.2))
          plane.registry
      simp only [Request.op] at hN' hLayers ⊢
      rw [Registry.get?_step] at hN'
      have hId : (body.toNode h).nodeId = h := rfl
      simp only [Registry.nodeStep, hId, if_true] at hN'
      split at hN'
      · rename_i hNone
        right
        refine ⟨fun layers => ?_, n', hN', hAfter, rfl⟩
        rw [hNone] at hAdmits
        simp only [Plane.handle]
        split
        · simp
        · rename_i admission r hRegister
          have hSome :=
            hAdmits.mp ⟨admission, congrArg Prod.fst hRegister⟩
          rcases hSome with ⟨_, hSome⟩
          cases hSome
      · rename_i index hEntry
        cases hN'
        left
        rcases hAdmits.mpr ⟨index, hEntry⟩ with
          ⟨admission, hOk⟩
        rcases Registry.register_assignment rfl hOk with
          ⟨_, _, slot, hSlot, hFor, _, hAssigned⟩
        refine ⟨(slot.start, slot.stop), ?_, ?_⟩
        · simp only [Plane.handle]
          split
          · rename_i hRegister
            rw [hRegister] at hOk
            cases hOk
          · rename_i admission' r hRegister
            rw [hRegister] at hOk
            cases hOk
            rw [hAssigned]
        · have hHolder : (body.toNode h).orchestrator = false :=
            rfl
          simp only [Registry.entry, hHolder,
            Bool.false_eq_true, if_false, hId] at hEntry hFor
          rw [hFor] at hEntry
          split at hEntry
          · cases hEntry
          · split at hEntry
            · cases hEntry
            · cases hEntry
              have hPlaced :
                  (plane.registry.topo.dropHolding h).Placed
                    (Registry.enteredNode plane.cfg
                      (body.toNode h) (some slot.index) now)
                    (slot.start, slot.stop) :=
                ⟨slot, hSlot, rfl, rfl⟩
              refine hPlaced.of_layers ?_ rfl
              rw [hLayers]
              exact (Topology.layers_dropHolding _ _).symm

end Cluster

end CircuitDllm

------------------------------------------------------------
-- Agreement
------------------------------------------------------------

namespace CircuitDllm

namespace Cluster

/- A hop to the worker, for these layers. -/
structure Pin where
  endpoint : Endpoint
  layers : Int × Int
deriving DecidableEq, Repr

/- The hops of a route to node `h`. -/
def Plane.pins
    (h : String)
    (plane : Plane)
    (route : List Node) :
    List Pin :=
  (route.zip plane.registry.topo.slots).filterMap (fun hop =>
    if hop.1.nodeId = h then
      some ⟨hop.1.endpoint, (hop.2.start, hop.2.stop)⟩
    else none)

/- The hops to the worker in a route that a plane grants. -/
def granted (h : String) (s : Cluster) : Event → List Pin
| .control k (.acquireRoute session) =>
    match s.planes[k]? with
    | none => []
    | some plane =>
      match (plane.registry.acquireRoute session).1 with
      | .error _ => []
      | .ok route => plane.pins h route
| _ => []

end Cluster

/-
  The cluster, each plane's last answer to a registration of
  the worker, and the hops to it in the routes that
  coordinators hold, from whatever time they are.
-/
structure Views where
  cluster : Cluster
  told : Nat → Option (Int × Int) := fun _ => none
  pins : List Cluster.Pin := []

namespace Views

open Cluster

inductive ViewEvent where
  | event (e : Event)
  /- a coordinator drops a route -/
  | unpin (i : Nat)

def step (h : String) (v : Views) : ViewEvent → Views
| .event e =>
    { cluster := v.cluster.step h e
      told :=
        match v.cluster.answered h e with
        | none => v.told
        | some (k, layers) =>
          Function.update v.told k (some layers)
      pins := v.pins ++ v.cluster.granted h e }
| .unpin i => { v with pins := v.pins.eraseIdx i }

def run (h : String) (v : Views) (es : List ViewEvent) :
    Views :=
  es.foldl (step h) v

/-
  What control planes and the holders of their routes say,
  and what the worker serves.
-/
structure Agrees (h : String) (v : Views) : Prop where
  listed :
    ∀ plane ∈ v.cluster.planes, ∀ layers,
      plane.Lists h layers →
        ∀ layers', v.cluster.Serves layers' →
          layers = layers'
  /- no route sends the worker another slot's activations -/
  routed :
    ∀ plane ∈ v.cluster.planes,
      ∀ session (route : List Node),
        (plane.registry.acquireRoute session).1 = .ok route →
          ∀ (k : Nat) n, route[k]? = some n → n.nodeId = h →
            ∀ slot, plane.registry.topo.slots[k]? = some slot →
              ∀ layers', v.cluster.Serves layers' →
                (slot.start, slot.stop) = layers'
  /- nor does one that was taken some time ago -/
  pinned :
    ∀ pin ∈ v.pins, ∀ p ∈ v.cluster.process, ∀ layers',
      p.phase = .serving layers' →
        p.body.endpoint = pin.endpoint →
          pin.layers = layers'

/-
  The port is to open for these layers while a plane that has
  the node in use answered its last registration with others,
  or while a coordinator holds a route to that port for
  others.
-/
def Contested
    (h : String)
    (v : Views)
    (endpoint : Endpoint)
    (layers : Int × Int) : Prop :=
  (∃ k < v.cluster.planes.length,
    ∃ plane ∈ v.cluster.planes[k]?,
      ∃ n ∈ plane.registry.topo.nodes.get? h,
        n.Active ∧ v.told k ≠ some layers) ∨
    ∃ pin ∈ v.pins,
      pin.endpoint = endpoint ∧ pin.layers ≠ layers

instance
    (h : String)
    (v : Views)
    (endpoint : Endpoint)
    (layers : Int × Int) :
    Decidable (Contested h v endpoint layers) := by
  unfold Contested
  infer_instance

/-
  The port opens while its layers are contested, or a plane
  takes up a registration that does not ask for the layers
  the worker serves.
-/
def Drifts (h : String) (v : Views) : ViewEvent → Prop
| .event .listen =>
    ∃ p ∈ v.cluster.process, ∃ layers ∈ p.phase.layers?,
      p.phase = .joined layers ∧
        Contested h v p.body.endpoint layers
| .event e => v.cluster.Strays e
| .unpin _ => False

instance (h : String) (v : Views) (e : ViewEvent) :
    Decidable (Drifts h v e) := by
  unfold Drifts
  split <;> infer_instance

theorem not_strays
    {h : String}
    {v : Views}
    {e : Event}
    (hNot : ¬ Drifts h v (.event e)) :
    ¬ v.cluster.Strays e := by
  cases e with
  | listen => exact id
  | _ => exact hNot

theorem not_contested
    {h : String}
    {v : Views}
    (hNot : ¬ Drifts h v (.event .listen))
    {p : Cluster.Process}
    (hP : v.cluster.process = some p)
    {layers : Int × Int}
    (hJoined : p.phase = .joined layers) :
    ¬ Contested h v p.body.endpoint layers := by
  intro hContested
  refine hNot ⟨p, hP, layers, ?_, hJoined, hContested⟩
  simp [hJoined, Phase.layers?]

/- What is known between two steps. -/
structure InView (h : String) (v : Views) : Prop where
  inPlace : InPlace h v.cluster
  /- a plane has the node where it said, if in use -/
  told :
    ∀ k plane, v.cluster.planes[k]? = some plane →
      ∀ n, plane.registry.topo.nodes.get? h = some n →
        n.Active →
          ∃ layers,
            v.told k = some layers ∧
              plane.registry.topo.Placed n layers
  pinned :
    ∀ pin ∈ v.pins, ∀ p ∈ v.cluster.process, ∀ layers,
      p.phase = .serving layers →
        p.body.endpoint = pin.endpoint →
          pin.layers = layers

variable
  {l : Layout}
  {derive : String → Option WireKey}
  {h : String}

/- A plane's last answer tells where it has the node. -/
theorem told_step
    {v : Views}
    (hSound : Sound l derive h v.cluster)
    (hKey : derive h ≠ none)
    (hView : InView h v)
    (e : Event)
    {k : Nat}
    {plane' : Plane}
    (hPlane' :
      (v.cluster.step h e).planes[k]? = some plane')
    {n' : Node}
    (hN' : plane'.registry.topo.nodes.get? h = some n')
    (hAfter : n'.Active) :
    ∃ layers,
      (v.step h (.event e)).told k = some layers ∧
        plane'.registry.topo.Placed n' layers := by
  rcases plane_step hPlane' with ⟨plane, hPlane, hStep⟩
  have hAlike :=
    hSound.planes plane (List.mem_of_getElem? hPlane)
  -- a plane that gave no answer said what it said before
  have hSame :
      (∀ layers, v.cluster.answered h e ≠ some (k, layers)) →
        (v.step h (.event e)).told k = v.told k := by
    intro hSilent
    cases hAnswered : v.cluster.answered h e with
    | none => simp [step, hAnswered]
    | some said =>
        have hNe : k ≠ said.1 := by
          rintro rfl
          exact hSilent said.2 hAnswered
        simp [step, hAnswered, hNe]
  have hUnmoved :
      (∀ layers, v.cluster.answered h e ≠ some (k, layers)) →
      (∃ n, plane.registry.topo.nodes.get? h = some n ∧
        n.Active ∧ n'.slot = n.slot) →
      plane'.registry.topo.layers =
        plane.registry.topo.layers →
      ∃ layers,
        (v.step h (.event e)).told k = some layers ∧
          plane'.registry.topo.Placed n' layers := by
    rintro hSilent ⟨n, hN, hActive, hSlot⟩ hLayers
    rcases hView.told k plane hPlane n hN hActive with
      ⟨layers, hTold, hPlaced⟩
    exact
      ⟨layers, (hSame hSilent).trans hTold,
        hPlaced.of_layers hLayers hSlot⟩
  cases hStep with
  | same hSilent =>
      exact hUnmoved hSilent ⟨n', hN', hAfter, rfl⟩ rfl
  | @control op hOther =>
      exact
        hUnmoved (by simp [answered])
          (Registry.active_step hOther hN' hAfter)
          (hAlike.layers (hAlike.step op))
  | @handled i now toWorker packet hPacket hTo =>
      subst hTo
      rcases placed_of_handle hAlike hKey hN' hAfter with
        ⟨layers, hAnswer, hPlaced⟩ | ⟨hSilent, hOld⟩
      · refine ⟨layers, ?_, hPlaced⟩
        simp [step, answered, hPacket, hPlane, hAnswer]
      · refine hUnmoved (fun layers => ?_) hOld ?_
        · intro hAnswered
          simp only [answered, hPacket, hPlane] at hAnswered
          cases hAnswered
        · rw [Plane.handle_snd]
          exact hAlike.layers (hAlike.step _)

/- A hop of a granted route is one the plane routes. -/
theorem pin_of_granted
    {s : Cluster}
    {e : Event}
    {pin : Pin}
    (hPin : pin ∈ s.granted h e) :
    ∃ plane ∈ s.planes,
      ∃ (session k : Nat) (route : List Node) (n : Node)
        (slot : Slot),
      (plane.registry.acquireRoute session).1 = .ok route ∧
        route[k]? = some n ∧ n.nodeId = h ∧
          plane.registry.topo.slots[k]? = some slot ∧
            pin.layers = (slot.start, slot.stop) := by
  unfold granted at hPin
  split at hPin
  · rename_i j session
    cases hPlane : s.planes[j]? with
    | none => simp [hPlane] at hPin
    | some plane =>
      simp only [hPlane] at hPin
      split at hPin
      · exact absurd hPin List.not_mem_nil
      · rename_i route hOk
        rcases List.mem_filterMap.mp hPin with
          ⟨⟨n, slot⟩, hMem, hHop⟩
        rcases List.mem_iff_getElem?.mp hMem with ⟨k, hK⟩
        rw [List.getElem?_zip_eq_some] at hK
        split at hHop
        · rename_i hId
          cases hHop
          exact
            ⟨plane, List.mem_of_getElem? hPlane, session, k,
              route, n, slot, hOk, hK.1, hId, hK.2, rfl⟩
        · cases hHop
  · exact absurd hPin List.not_mem_nil

/- A held route, new or old, sends the worker its layers. -/
theorem pinned_step
    {v : Views}
    (hSound : Sound l derive h v.cluster)
    (hView : InView h v)
    {e : Event}
    (hNot : ¬ Drifts h v (.event e))
    {pin : Pin}
    (hPin : pin ∈ v.pins ++ v.cluster.granted h e)
    {p' : Cluster.Process}
    (hP' : (v.cluster.step h e).process = some p')
    {layers : Int × Int}
    (hPhase : p'.phase = .serving layers)
    (hPort : p'.body.endpoint = pin.endpoint) :
    pin.layers = layers := by
  rcases serving_step hP' hPhase with
    ⟨p, hP, hBody, hServed | ⟨rfl, hJoined⟩⟩
  · rcases List.mem_append.mp hPin with hOld | hNew
    · rw [← hBody] at hPort
      exact hView.pinned pin hOld p hP layers hServed hPort
    · rcases pin_of_granted hNew with
        ⟨plane, hPlane, session, k, route, n, slot, hOk, hK,
          hId, hSlot, hLayers⟩
      rw [hLayers]
      exact
        hView.inPlace.routed hSound hPlane hOk hK hId hSlot
          ⟨p, hP, hServed⟩
  · rcases List.mem_append.mp hPin with hOld | hNew
    · by_contra hOther
      refine
        not_contested hNot hP hJoined
          (.inr ⟨pin, hOld, ?_, hOther⟩)
      rw [hBody, hPort]
    · cases hNew

/- A step that does not drift. -/
theorem inView_step
    {v : Views}
    (hSound : Sound l derive h v.cluster)
    (hKey : derive h ≠ none)
    (hView : InView h v)
    {e : ViewEvent}
    (hNot : ¬ Drifts h v e) :
    InView h (v.step h e) := by
  cases e with
  | unpin i =>
      refine ⟨hView.inPlace, hView.told, ?_⟩
      intro pin hPin
      exact hView.pinned pin (List.mem_of_mem_eraseIdx hPin)
  | event e =>
      refine ⟨?_, ?_, ?_⟩
      · refine
          inPlace_step hSound hView.inPlace
            (not_strays hNot) ?_
        rintro rfl p hP layers hJoined plane hPlane n hN hActive
        rcases List.mem_iff_getElem?.mp hPlane with ⟨k, hK⟩
        rcases hView.told k plane hK n hN hActive with
          ⟨layers', hTold, hPlaced⟩
        have hSame : v.told k = some layers := by
          by_contra hOther
          refine
            not_contested hNot hP hJoined
              (.inl
                ⟨k, ?_, plane, hK, n, hN, hActive, hOther⟩)
          exact (List.getElem?_eq_some_iff.mp hK).1
        rw [hTold] at hSame
        cases hSame
        exact hPlaced
      · intro k plane hPlane n hN hActive
        exact told_step hSound hKey hView e hPlane hN hActive
      · intro pin hPin p hP layers hPhase hPort
        exact
          pinned_step hSound hView hNot hPin hP hPhase hPort

theorem sound_viewStep
    {v : Views}
    (hSound : Sound l derive h v.cluster)
    (e : ViewEvent) :
    Sound l derive h (v.step h e).cluster := by
  cases e with
  | event e => exact sound_step hSound e
  | unpin i => exact hSound

/- Planes that keep to what is served agree with it. -/
theorem InView.agrees
    {v : Views}
    (hSound : Sound l derive h v.cluster)
    (hView : InView h v) :
    Agrees h v where
  listed := by
    rintro plane hPlane layers ⟨n, hN, hReady, hPlaced⟩
      layers' hServes
    apply hPlaced.unique
    exact
      hView.inPlace layers' hServes plane hPlane n hN
        (.inr (.inl hReady))
  routed plane hPlane session route hOk k n hK hId slot hSlot
      layers' hServes :=
    hView.inPlace.routed hSound hPlane hOk hK hId hSlot hServes
  pinned := hView.pinned

/-
  In a run in which nothing drifts, what control planes say
  of the worker, what the routes taken from them say, and
  what it serves are the same layers.
-/
theorem agrees_run
    {planes : List Plane}
    (hStarted : Started l derive planes)
    {es : List ViewEvent}
    (hDrifts :
      ∀ e ∈
          History.trail (step h)
            { cluster := { planes := planes } } es,
        ¬ Drifts h e.1 e.2) :
    Agrees h (run h { cluster := { planes := planes } } es) := by
  by_cases hKey : derive h = none
  · -- no plane has a key for the node, so it never serves
    have hSound :
        Sound l derive h
          (run h { cluster := { planes := planes } }
            es).cluster :=
      History.induction (step h)
        (fun _ v => Sound l derive h v.cluster)
        (sound_init hStarted)
        (fun _ _ e hSound => sound_viewStep hSound e) es
    have hNever :
        ∀ p ∈
            (run h { cluster := { planes := planes } }
              es).cluster.process,
          ∀ layers, p.phase ≠ .serving layers := by
      intro p hP layers hPhase
      exact
        (hSound.process p hP layers
          (by simp [hPhase, Phase.layers?])).key hKey
    refine ⟨?_, ?_, ?_⟩
    · rintro plane _ layers _ layers' ⟨p, hP, hPhase⟩
      exact absurd hPhase (hNever p hP layers')
    · rintro plane _ _ _ _ _ _ _ _ _ _ layers' ⟨p, hP, hPhase⟩
      exact absurd hPhase (hNever p hP layers')
    · intro pin _ p hP layers' hPhase
      exact absurd hPhase (hNever p hP layers')
  · have hInv :
        Sound l derive h
            (run h { cluster := { planes := planes } }
              es).cluster ∧
          InView h
            (run h { cluster := { planes := planes } } es) := by
      refine
        History.induction_of (step h)
          (fun e => ¬ Drifts h e.1 e.2)
          (fun _ v => Sound l derive h v.cluster ∧ InView h v)
          ⟨sound_init hStarted, ?_, ?_, ?_⟩
          (fun _ v e hNot hInv =>
            ⟨sound_viewStep hInv.1 e,
              inView_step hInv.1 hKey hInv.2 hNot⟩)
          hDrifts
      · rintro layers ⟨p, hP, _⟩
        cases hP
      · intro k plane hPlane n hN hActive
        rcases hStarted plane (List.mem_of_getElem? hPlane) with
          ⟨_, _, hCreate⟩
        rcases Registry.create_ok hCreate with
          ⟨topo, hTopo, hEq⟩
        rw [hEq] at hN
        simp only at hN
        rw [Topology.create_nodes hTopo, Dict.get?_empty] at hN
        cases hN
      · intro pin hPin
        cases hPin
    exact hInv.2.agrees hInv.1

end Views

end CircuitDllm

------------------------------------------------------------
-- A Stale Standby
------------------------------------------------------------

namespace CircuitDllm

namespace Cluster

/- Control planes that have just started. -/
def startAll (cfgs : List RegistryConfig) : List Plane :=
  cfgs.filterMap (fun cfg =>
    match Registry.create cfg with
    | .error _ => none
    | .ok r => some ⟨cfg, r⟩)

theorem started_startAll
    {l : Layout}
    {derive : String → Option WireKey}
    {cfgs : List RegistryConfig}
    (hSame :
      ∀ cfg ∈ cfgs, cfg.layout = l ∧ cfg.deriveNodeKey = derive) :
    Started l derive (startAll cfgs) := by
  intro plane hPlane
  rcases List.mem_filterMap.mp hPlane with ⟨cfg, hCfg, hStart⟩
  split at hStart
  · cases hStart
  · rename_i r hCreate
    cases hStart
    exact ⟨(hSame cfg hCfg).1, (hSame cfg hCfg).2, hCreate⟩

/- A mesh of two slots of one layer. -/
def twoSlots : RegistryConfig where
  layout :=
    { numLayers := 2
      coordinatorEnd := 0
      numStages := 2
      modelFp := "m" }

/- A worker with room for one of them. -/
def smallBody : Body where
  endpoint := ⟨"h", 1⟩
  capacityLayers := 1
  modelFp := "m"

/- It registers, opens its port and is announced. -/
def comesUp : List Event :=
  [.start smallBody, .post .main, .handle 0 0 true, .listen,
    .post .main, .handle 0 1 true]

/-
  The worker had the first slot on both planes.  The active
  plane and the worker restart, another node has taken the
  slot, and the mirrored registration is lost.
-/
def losesMirror : List Event :=
  [.start smallBody, .post .main, .handle 0 0 true,
    .post .main, .handle 0 0 true,
    .post .main, .handle 0 0 true,
    .control 0 .restart,
    .control 0 (.register (smallBody.toNode "other") 1 none),
    .start smallBody, .post .main, .handle 0 1 true,
    .post .main, .lose 0, .giveUp .main, .listen]

end Cluster

namespace Views

open Cluster

/- Two control planes that have just started. -/
def twoPlanes : Views where
  cluster := { planes := startAll [twoSlots, twoSlots] }

/- It comes up on both: mirrored, announced, serving. -/
def comesUpOnBoth : List Event :=
  [.start smallBody, .post .main, .handle 0 0 true,
    .post .main, .handle 0 0 true,
    .post .main, .handle 0 0 true, .listen,
    .post .main, .handle 0 0 true]

/-
  The worker comes up, beside another node, and a coordinator
  takes a route; then the process restarts and comes up again.
-/
def comesBack : List Event :=
  comesUpOnBoth ++
    [.control 0 (.register (smallBody.toNode "other") 1 none),
      .control 0 (.markReady "other"),
      .control 0 (.acquireRoute 7), .kill] ++
    comesUpOnBoth

/- It serves what both planes, and the held route, say. -/
theorem agrees_run_comesBack :
    Agrees "seed"
        (run "seed" twoPlanes (comesBack.map .event)) ∧
      (run "seed" twoPlanes (comesBack.map .event)).pins =
        [⟨⟨"h", 1⟩, (0, 1)⟩] ∧
      (run "seed" twoPlanes
        (comesBack.map .event)).cluster.Serves (0, 1) := by
  have hStarted :
      Started twoSlots.layout twoSlots.deriveNodeKey
        (startAll [twoSlots, twoSlots]) :=
    started_startAll (by simp)
  refine ⟨agrees_run hStarted ?_, ?_, ?_⟩
  · decide
  · decide
  · decide

/- The standby lists the first slot, the second is served. -/
theorem losesMirror_stale :
    (run "seed" twoPlanes
        (losesMirror.map .event)).cluster.planes.any
          (fun plane => plane.Lists "seed" (0, 1)) ∧
      (run "seed" twoPlanes
          (losesMirror.map .event)).cluster.Serves (1, 2) := by
  decide

/- Control planes do not always agree with the worker. -/
theorem exists_not_agrees :
    ¬ ∀ (l : Layout) (derive : String → Option WireKey)
        (h : String) (planes : List Plane)
        (es : List ViewEvent),
      Started l derive planes →
        Agrees h
          (run h { cluster := { planes := planes } } es) := by
  intro hAll
  have hAgrees :=
    hAll twoSlots.layout twoSlots.deriveNodeKey "seed"
      (startAll [twoSlots, twoSlots])
      (losesMirror.map .event) (started_startAll (by simp))
  rcases losesMirror_stale with ⟨hLists, hServes⟩
  rcases List.any_eq_true.mp hLists with ⟨plane, hPlane, hOld⟩
  have hEq :=
    hAgrees.listed plane hPlane (0, 1) (by simpa using hOld)
      (1, 2) hServes
  exact absurd hEq (by decide)

end Views

end CircuitDllm
