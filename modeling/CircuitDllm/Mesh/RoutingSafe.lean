import CircuitDllm.Mesh.Layers
import CircuitDllm.Mesh.NodeLife
import CircuitDllm.Mesh.TrustRouting

/-
  Routing safety.

  A route names one holder for each slot.  The slots tile
  the layers after the coordinator's, and each node named is
  a holder of its slot alone, in service since its last
  registration.

  Main declarations:
    * `Tiles`, `Registry.tiled_run`
    * `Registry.RoutingSafety`
    * `Registry.routing_safe`
-/

------------------------------------------------------------
-- Slots That Tile the Layers
------------------------------------------------------------

namespace CircuitDllm

/- Consecutive slots from one layer to another. -/
def Tiles (start stop : Int) : List Slot → Prop
| [] => start = stop
| slot :: slots =>
    slot.start = start ∧ slot.start ≤ slot.stop ∧
      Tiles slot.stop stop slots

theorem tiles_layoutSlots
    (start : Int)
    (index : Nat)
    {sizes : List Int}
    (hSizes : ∀ size ∈ sizes, 0 ≤ size) :
    Tiles start (start + sizes.sum)
      (layoutSlots start index sizes) := by
  induction sizes generalizing start index with
  | nil => simp [layoutSlots, Tiles]
  | cons size sizes ih =>
      have hRest :=
        ih (start + size) (index + 1)
          (fun s hS => hSizes s (by simp [hS]))
      have hSize := hSizes size (by simp)
      rw [List.sum_cons, ← add_assoc]
      exact ⟨rfl, by simpa using hSize, hRest⟩

/- A size, and one more for the first `rem` stages. -/
theorem sum_balanced
    (per : Int)
    {rem : Int}
    (hRem : 0 ≤ rem)
    (n : Nat) :
    ((List.range n).map (fun i : Nat =>
        per + if (i : Int) < rem then 1 else 0)).sum =
      n * per + min (n : Int) rem := by
  induction n with
  | zero => simp [hRem]
  | succ n ih =>
      rw [List.range_succ, List.map_append, List.sum_append,
        ih, List.map_singleton, List.sum_singleton]
      push_cast
      rw [add_mul]
      split
      · omega
      · omega

namespace Topology

theorem sum_balancedSizes
    {budget : Int}
    {numStages : Nat}
    (hStages : 0 < numStages) :
    (balancedSizes budget numStages).sum = budget := by
  have hPos : (0 : Int) < numStages := by exact_mod_cast hStages
  have hRem := Int.emod_nonneg budget hPos.ne'
  have hLt := Int.emod_lt_of_pos budget hPos
  rw [balancedSizes, sum_balanced _ hRem,
    min_eq_right hLt.le]
  exact Int.mul_ediv_add_emod budget numStages

/- The sizes of the slots add up to the mesh's layers. -/
theorem sizesOf_ok
    {l : Layout}
    {sizes : List Int}
    (hOk : sizesOf l = .ok sizes) :
    sizes.sum = l.numLayers - l.coordinatorEnd ∧
      ∀ size ∈ sizes, 0 ≤ size := by
  unfold sizesOf at hOk
  simp only at hOk
  split at hOk
  · cases hOk
  · rename_i hStages
    split at hOk
    · cases hOk
    · rename_i hEnd
      split at hOk
      · cases hOk
        refine ⟨sum_balancedSizes (by omega), fun s hS => ?_⟩
        rcases List.mem_map.mp hS with ⟨i, _, rfl⟩
        have hPer :
            0 ≤ (l.numLayers - l.coordinatorEnd) /
              (l.numStages.toNat : Int) :=
          Int.ediv_nonneg (by omega) (by omega)
        split <;> omega
      · split at hOk
        · cases hOk
        · rename_i hSizes
          cases hOk
          simp only [not_or, not_exists, not_and,
            not_not] at hSizes
          refine ⟨hSizes.2.1, fun s hS => ?_⟩
          have hOne := hSizes.2.2 s hS
          omega

/- The slots tile the layers of the layout. -/
def Tiled (l : Layout) (t : Topology) : Prop :=
  Tiles l.coordinatorEnd l.numLayers t.slots

variable {l : Layout} {t : Topology}

theorem tiled_create
    (hCreate : create l = .ok t) :
    t.Tiled l := by
  unfold create at hCreate
  split at hCreate
  · cases hCreate
  · rename_i sizes hSizes
    cases hCreate
    rcases sizesOf_ok hSizes with ⟨hSum, hNonneg⟩
    have hTiles :=
      tiles_layoutSlots l.coordinatorEnd 0 hNonneg
    rw [hSum] at hTiles
    simpa [Tiled] using hTiles

/- The holders do not matter. -/
theorem tiles_bare
    (start stop : Int)
    (slots : List Slot) :
    Tiles start stop (slots.map Slot.bare) ↔
      Tiles start stop slots := by
  induction slots generalizing start with
  | nil => exact Iff.rfl
  | cons slot slots ih =>
      exact
        and_congr_right fun _ =>
          and_congr_right fun _ => ih slot.stop

end Topology

namespace Registry

variable {cfg : RegistryConfig}

theorem tiled_run
    {r₀ : Registry}
    (hCreate : create cfg = .ok r₀)
    (ops : List RegistryOp) :
    (r₀.run cfg ops).topo.Tiled cfg.layout := by
  have hInit : r₀.topo.Tiled cfg.layout := by
    rcases create_ok hCreate with ⟨topo, hTopo, rfl⟩
    exact Topology.tiled_create hTopo
  have hSlots :=
    congrArg Prod.snd (layers_run hCreate ops)
  simp only [Topology.layers] at hSlots
  rw [Topology.Tiled, ← Topology.tiles_bare, hSlots,
    Topology.tiles_bare]
  exact hInit

end Registry

end CircuitDllm

------------------------------------------------------------
-- Routing Safety
------------------------------------------------------------

namespace CircuitDllm

namespace Registry

variable (cfg : RegistryConfig)

/- A node a route may name for slot `k`. -/
structure Chosen
    (past : List Event)
    (r : Registry)
    (k : Nat)
    (n : Node) : Prop where
  held :
    ∀ slot ∈ r.topo.slots,
      n.nodeId ∈ slot.holders ↔ slot.index = k
  holder : n.orchestrator = false
  inService : InService cfg n.nodeId past

/- One such node for each slot, in slot order. -/
def SafeRoute
    (past : List Event)
    (r : Registry)
    (route : List Node) : Prop :=
  route.length = r.topo.slots.length ∧
    ∀ k n, route[k]? = some n → Chosen cfg past r k n

/- Some slot has no READY holder. -/
def Uncovered (r : Registry) : Prop :=
  ∃ slot ∈ r.topo.slots, ∀ h ∈ slot.holders, ∀ n,
    r.topo.nodes.get? h = some n → n.state ≠ .ready

/- What holds of routing in a registry with that past. -/
structure RoutingSafety
    (past : List Event)
    (r : Registry) : Prop where
  tiles :
    Tiles cfg.layout.coordinatorEnd cfg.layout.numLayers
      r.topo.slots
  route :
    ∀ plan, r.topo.route = .ok plan →
      plan.map (·.1) = r.topo.slots ∧
        ∀ p ∈ plan, p.2 ≠ [] ∧
          ∀ n ∈ p.2, Chosen cfg past r p.1.index n
  snapshot :
    ∀ route, r.routeSnapshot = .ok route →
      SafeRoute cfg past r route
  acquire :
    ∀ session route,
      (r.acquireRoute session).1 = .ok route →
        SafeRoute cfg past r route
  routeRaises :
    (∃ e, r.topo.route = .error e) ↔ r.Uncovered
  snapshotRaises :
    (∃ e, r.routeSnapshot = .error e) ↔ r.Uncovered
  acquireRaises :
    ∀ session,
      (∃ e, (r.acquireRoute session).1 = .error e) ↔
        r.Uncovered
  atomic :
    ∀ session e,
      (r.acquireRoute session).1 = .error e →
        (r.acquireRoute session).2 = r

variable {cfg}

/- A routable holder of a slot may be chosen for it. -/
theorem chosen_of_mem_holders
    {r : Registry}
    {past : List Event}
    (hWf : r.topo.WellFormed)
    (hLife :
      ∀ h n, r.topo.nodes.get? h = some n →
        Life cfg h past n)
    {slot : Slot}
    (hSlot : slot ∈ r.topo.slots)
    {n : Node}
    (hMem : n ∈ r.topo.holders slot.index) :
    Chosen cfg past r slot.index n := by
  rcases holder_slot hWf hSlot hMem with
    ⟨hHolder, hNode, hReady, hIndex⟩
  rcases hLife n.nodeId n hNode with ⟨hSince, hOrch⟩
  refine ⟨fun other hOther => ?_, hOrch (by simp [hIndex]), ?_⟩
  · constructor
    · intro hHolds
      have hEq := hWf.slotOf other hOther _ hHolds n hNode
      rw [hIndex] at hEq
      exact (Option.some.inj hEq).symm
    · intro hEq
      have hAt := r.topo.getElem?_index hSlot
      rw [← hEq, r.topo.getElem?_index hOther] at hAt
      cases hAt
      exact hHolder
  · rw [hReady] at hSince
    exact hSince

/- A slot without routable holders has no READY one. -/
theorem holders_eq_nil
    {r : Registry}
    {slot : Slot}
    (hSlot : slot ∈ r.topo.slots) :
    r.topo.holders slot.index = [] ↔
      ∀ h ∈ slot.holders, ∀ n,
        r.topo.nodes.get? h = some n → n.state ≠ .ready := by
  rw [List.eq_nil_iff_forall_not_mem]
  constructor
  · intro hNil h hHolder n hN hReady
    refine hNil n ?_
    rw [r.topo.mem_holders hSlot, Topology.mem_liveHolders]
    exact ⟨h, hHolder, hN, hReady⟩
  · intro hNone n hMem
    rw [r.topo.mem_holders hSlot,
      Topology.mem_liveHolders] at hMem
    rcases hMem with ⟨h, hHolder, hN, hReady⟩
    exact hNone h hHolder n hN hReady

theorem routeFrom_error
    (t : Topology)
    (slots : List Slot) :
    (∃ e, t.routeFrom slots = .error e) ↔
      ∃ s ∈ slots, t.holders s.index = [] := by
  induction slots with
  | nil => simp [Topology.routeFrom]
  | cons slot slots ih =>
      unfold Topology.routeFrom
      by_cases hNil : t.holders slot.index = []
      · simp [hNil]
      · simp only [hNil, if_false, List.mem_cons,
          exists_eq_or_imp, false_or]
        rw [← ih]
        cases t.routeFrom slots with
        | error e => simp
        | ok plan => simp

theorem route_error_iff (r : Registry) :
    (∃ e, r.topo.route = .error e) ↔ r.Uncovered := by
  rw [Topology.route, routeFrom_error]
  constructor
  · rintro ⟨slot, hSlot, hNil⟩
    exact ⟨slot, hSlot, (holders_eq_nil hSlot).mp hNil⟩
  · rintro ⟨slot, hSlot, hNone⟩
    exact ⟨slot, hSlot, (holders_eq_nil hSlot).mpr hNone⟩

/- A snapshot names the first holder of each slot. -/
theorem getElem?_routeSnapshot
    {r : Registry}
    {route : List Node}
    (hOk : r.routeSnapshot = .ok route)
    (k : Nat) :
    route[k]? =
      r.topo.slots[k]?.bind (fun s =>
        (r.topo.holders s.index).head?) := by
  unfold routeSnapshot at hOk
  cases hPlan : r.topo.route with
  | error e => simp [hPlan, Except.map] at hOk
  | ok plan =>
      rcases r.topo.route_ok hPlan with ⟨rfl, hAll⟩
      simp only [hPlan, Except.map, Except.ok.injEq] at hOk
      subst hOk
      have hHeads :
          ∀ slots : List Slot,
            (∀ s ∈ slots, r.topo.holders s.index ≠ []) →
            ∀ k : Nat,
              ((slots.map (fun s =>
                  (s, r.topo.holders s.index))).filterMap
                (fun p => p.2.head?))[k]? =
                slots[k]?.bind (fun s =>
                  (r.topo.holders s.index).head?) := by
        intro slots
        induction slots with
        | nil => simp
        | cons slot slots ih =>
            intro hNe k
            rcases List.exists_cons_of_ne_nil
              (hNe slot (by simp)) with ⟨n, rest, hEq⟩
            have hRest :=
              ih (fun s hS => hNe s (by simp [hS]))
            cases k with
            | zero => simp [hEq]
            | succ k => simpa [hEq] using hRest k
      exact hHeads _ hAll k

/- A list that has an element for each slot, and no more. -/
theorem length_eq_of_getElem?
    {α β : Type}
    {l : List α}
    {m : List β}
    (hSame :
      ∀ k : Nat, (l[k]?).isSome = (m[k]?).isSome) :
    l.length = m.length := by
  rcases Nat.lt_trichotomy l.length m.length with
    hLt | hEq | hGt
  · have hAt := hSame l.length
    simp [hLt] at hAt
  · exact hEq
  · have hAt := hSame m.length
    simp [hGt] at hAt

theorem safeRoute_snapshot
    {r : Registry}
    {past : List Event}
    (hWf : r.topo.WellFormed)
    (hLife :
      ∀ h n, r.topo.nodes.get? h = some n →
        Life cfg h past n)
    {route : List Node}
    (hOk : r.routeSnapshot = .ok route) :
    SafeRoute cfg past r route := by
  have hCovered : ¬ r.Uncovered := by
    rw [← route_error_iff]
    rintro ⟨e, hError⟩
    simp [routeSnapshot, hError, Except.map] at hOk
  refine ⟨length_eq_of_getElem? (fun k => ?_), ?_⟩
  · rw [getElem?_routeSnapshot hOk]
    cases hSlot : r.topo.slots[k]? with
    | none => rfl
    | some slot =>
        have hMem := List.mem_of_getElem? hSlot
        have hNe : r.topo.holders slot.index ≠ [] :=
          fun hNil =>
            hCovered
              ⟨slot, hMem, (holders_eq_nil hMem).mp hNil⟩
        rcases List.exists_cons_of_ne_nil hNe with
          ⟨n, rest, hEq⟩
        simp [hEq]
  · intro k n hK
    rw [getElem?_routeSnapshot hOk] at hK
    rcases Option.bind_eq_some_iff.mp hK with
      ⟨slot, hSlot, hHead⟩
    rw [← r.topo.index_of_getElem? hSlot]
    exact
      chosen_of_mem_holders hWf hLife
        (List.mem_of_getElem? hSlot)
        (List.mem_of_mem_head? hHead)

theorem safeRoute_acquire
    {r : Registry}
    {past : List Event}
    (hWf : r.topo.WellFormed)
    (hLife :
      ∀ h n, r.topo.nodes.get? h = some n →
        Life cfg h past n)
    {session : Nat}
    {route : List Node}
    (hOk : (r.acquireRoute session).1 = .ok route) :
    SafeRoute cfg past r route := by
  refine ⟨length_eq_of_getElem? (fun k => ?_), ?_⟩
  · cases hSlot : r.topo.slots[k]? with
    | none =>
        rw [r.getElem?_of_acquireRoute hOk, hSlot]
        rfl
    | some slot =>
        rcases r.exists_of_acquireRoute hOk
          (List.mem_of_getElem? hSlot) with ⟨n, hN, _⟩
        rw [r.topo.index_of_getElem? hSlot] at hN
        rw [hN]
        rfl
  · intro k n hK
    rcases r.holder_of_acquireRoute hOk hK with
      ⟨slot, hSlot, rfl, hMem⟩
    exact chosen_of_mem_holders hWf hLife hSlot hMem

/- Acquiring raises what the topology's route raises. -/
theorem acquireRoute_error
    {r : Registry}
    {session : Nat}
    {e : MeshError} :
    (r.acquireRoute session).1 = .error e ↔
      r.topo.route = .error e := by
  cases hPlan : r.topo.route with
  | error e' => simp [acquireRoute, hPlan]
  | ok plan =>
      cases hPins : r.sessionLoad.get? session with
      | none => simp [acquireRoute, hPlan, hPins]
      | some pinned => simp [acquireRoute, hPlan, hPins]

/- A raising acquire changes nothing. -/
theorem acquireRoute_atomic
    {r : Registry}
    {session : Nat}
    {e : MeshError}
    (hError : (r.acquireRoute session).1 = .error e) :
    (r.acquireRoute session).2 = r := by
  have hRoute := acquireRoute_error.mp hError
  unfold acquireRoute
  rw [hRoute]

/- After every run of the control plane routing is safe. -/
theorem routing_safe
    {r₀ : Registry}
    (hKey : ∀ h, cfg.deriveNodeKey h ≠ none)
    (hCreate : create cfg = .ok r₀)
    (ops : List RegistryOp) :
    RoutingSafety cfg (trail cfg r₀ ops) (r₀.run cfg ops) := by
  have hWf :=
    wellFormed_run cfg (wellFormed_create cfg hCreate) ops
  have hLife :
      ∀ h n,
        (r₀.run cfg ops).topo.nodes.get? h = some n →
          Life cfg h (trail cfg r₀ ops) n :=
    fun _ _ hN => life_run hKey hCreate ops hN
  refine
    { tiles := tiled_run hCreate ops
      route := fun plan hPlan => ?_
      snapshot := fun _ hOk =>
        safeRoute_snapshot hWf hLife hOk
      acquire := fun _ _ hOk => safeRoute_acquire hWf hLife hOk
      routeRaises := route_error_iff _
      snapshotRaises := ?_
      acquireRaises := fun session => ?_
      atomic := fun _ _ hError => acquireRoute_atomic hError }
  · rcases Topology.route_ok _ hPlan with ⟨rfl, hAll⟩
    refine ⟨by simp [Function.comp_def], fun p hP => ?_⟩
    rcases List.mem_map.mp hP with ⟨slot, hSlot, rfl⟩
    exact
      ⟨hAll slot hSlot, fun n hN =>
        chosen_of_mem_holders hWf hLife hSlot hN⟩
  · rw [← route_error_iff, routeSnapshot]
    cases (r₀.run cfg ops).topo.route with
    | error e => simp [Except.map]
    | ok plan => simp [Except.map]
  · simp only [acquireRoute_error]
    exact route_error_iff _

/- A mesh of one slot whose node came up. -/
theorem routing_safe_seed :
    ∃ r₀,
      create oneSlot = .ok r₀ ∧
        RoutingSafety oneSlot
          (trail oneSlot r₀
            [.register (joining "seed") 0 none,
              .markReady "seed"])
          (r₀.run oneSlot
            [.register (joining "seed") 0 none,
              .markReady "seed"]) :=
  ⟨_, rfl, routing_safe (by simp [oneSlot]) rfl _⟩

end Registry

end CircuitDllm
