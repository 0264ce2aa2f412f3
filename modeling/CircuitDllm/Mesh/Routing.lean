import CircuitDllm.Mesh.Registry

/-
  What a route is: one READY holder for each slot, in slot
  order.

  Main declarations:
    * `Topology.mem_holders`, `Topology.pairwise_holders`
    * `Topology.route_ok`
    * `Registry.acquireRoute_ok`
-/

------------------------------------------------------------
-- The Order of Holders
------------------------------------------------------------

namespace CircuitDllm

namespace Topology

variable (t : Topology)

instance : Std.Total t.holderLe where
  total := by
    intro m n
    unfold holderLe
    split
    · exact le_total _ _
    · exact le_total _ _

instance : IsTrans Node t.holderLe where
  trans := by
    intro l m n
    unfold holderLe
    split
    · exact le_trans
    · exact le_trans

/- The order puts trust before anything else. -/
theorem trank_le_of_holderLe
    {m n : Node}
    (hLe : t.holderLe m n) :
    trank m ≤ trank n := by
  unfold holderLe at hLe
  split at hLe
  · rcases Prod.Lex.toLex_le_toLex.mp hLe with hLt | hEq
    · exact le_of_lt hLt
    · exact le_of_eq hEq.1
  · rcases Prod.Lex.toLex_le_toLex.mp hLe with hLt | hEq
    · exact le_of_lt hLt
    · exact le_of_eq hEq.1

theorem mem_liveHolders
    {slot : Slot}
    {n : Node} :
    n ∈ t.liveHolders slot ↔
      ∃ h ∈ slot.holders,
        t.nodes.get? h = some n ∧ n.state = .ready := by
  simp [liveHolders, List.mem_filterMap,
    Option.filter_eq_some_iff]

/- The k-th slot has index k. -/
theorem index_of_getElem?
    {k : Nat}
    {slot : Slot}
    (hSlot : t.slots[k]? = some slot) :
    slot.index = k := by
  have hMap : (t.slots.map (·.index))[k]? = some slot.index :=
    by simp [hSlot]
  rw [t.indexed] at hMap
  rcases List.getElem?_eq_some_iff.mp hMap with ⟨_, hEq⟩
  simpa using hEq.symm

theorem getElem?_index
    {slot : Slot}
    (hMem : slot ∈ t.slots) :
    t.slots[slot.index]? = some slot := by
  rcases List.getElem?_of_mem hMem with ⟨k, hK⟩
  rw [t.index_of_getElem? hK]
  exact hK

theorem holders_of_mem
    {slot : Slot}
    (hMem : slot ∈ t.slots) :
    t.holders slot.index =
      (t.liveHolders slot).insertionSort t.holderLe := by
  unfold holders
  rw [t.getElem?_index hMem]

/- The routable holders are the READY ones. -/
theorem mem_holders
    {slot : Slot}
    {n : Node}
    (hMem : slot ∈ t.slots) :
    n ∈ t.holders slot.index ↔ n ∈ t.liveHolders slot := by
  rw [t.holders_of_mem hMem, List.mem_insertionSort]

theorem pairwise_holders (k : Nat) :
    (t.holders k).Pairwise t.holderLe := by
  unfold holders
  split
  · exact List.Pairwise.nil
  · exact List.pairwise_insertionSort t.holderLe _

theorem routeFrom_ok
    {slots : List Slot}
    {plan : List (Slot × List Node)}
    (hPlan : t.routeFrom slots = .ok plan) :
    plan = slots.map (fun s => (s, t.holders s.index)) ∧
      ∀ s ∈ slots, t.holders s.index ≠ [] := by
  induction slots generalizing plan with
  | nil =>
      cases hPlan
      simp
  | cons slot slots ih =>
      unfold routeFrom at hPlan
      by_cases hNe : t.holders slot.index = []
      · simp [hNe] at hPlan
      · simp only [hNe, if_false] at hPlan
        split at hPlan
        · cases hPlan
        · rename_i rest hRest
          cases hPlan
          rcases ih hRest with ⟨rfl, hAll⟩
          exact ⟨rfl, by simpa using ⟨hNe, hAll⟩⟩

/- A route names every slot with its routable holders. -/
theorem route_ok
    {plan : List (Slot × List Node)}
    (hPlan : t.route = .ok plan) :
    plan = t.slots.map (fun s => (s, t.holders s.index)) ∧
      ∀ s ∈ t.slots, t.holders s.index ≠ [] :=
  t.routeFrom_ok hPlan

end Topology

end CircuitDllm

------------------------------------------------------------
-- Acquired Routes
------------------------------------------------------------

namespace CircuitDllm

namespace Registry

variable (r : Registry)

/- The nodes a session is pinned to, in slot order. -/
def pins (session : Nat) : List String :=
  (r.sessionLoad.get? session).getD []

theorem leastLoaded_isSome
    {holders : List Node}
    (hNe : holders ≠ []) :
    (r.leastLoaded holders).isSome := by
  unfold leastLoaded
  rw [Option.isSome_iff_ne_none, Ne, List.argmin_eq_none]
  exact hNe

theorem pickHolder_isSome
    {holders : List Node}
    (pin : Option String)
    (hNe : holders ≠ []) :
    (r.pickHolder pin holders).isSome := by
  unfold pickHolder
  split
  · rfl
  · exact r.leastLoaded_isSome hNe

/- The pick for a slot is one of its routable holders. -/
theorem mem_of_pickHolder
    {pin : Option String}
    {holders : List Node}
    {n : Node}
    (hPick : r.pickHolder pin holders = some n) :
    n ∈ holders := by
  unfold pickHolder at hPick
  split at hPick
  · rename_i h hKept
    cases hPick
    rcases Option.bind_eq_some_iff.mp hKept with
      ⟨nodeId, _, hFind⟩
    exact List.mem_of_find?_eq_some hFind
  · exact List.argmin_mem hPick

/- The k-th node of a route is the pick for the k-th slot. -/
theorem getElem?_pickRoute
    {plan : List (Slot × List Node)}
    (hAll : ∀ p ∈ plan, p.2 ≠ [])
    (pinned : List String)
    (k : Nat) :
    (r.pickRoute plan pinned)[k]? =
      plan[k]?.bind (fun p =>
        r.pickHolder pinned[k]? p.2) := by
  induction plan generalizing pinned k with
  | nil => simp [pickRoute]
  | cons p plan ih =>
      have hNe : p.2 ≠ [] := hAll p (by simp)
      rcases Option.isSome_iff_exists.mp
        (r.pickHolder_isSome pinned.head? hNe) with ⟨n, hPick⟩
      have hCons :
          r.pickRoute (p :: plan) pinned =
            n :: r.pickRoute plan pinned.tail := by
        simp [pickRoute, hPick]
      rw [hCons]
      cases k with
      | zero =>
          rw [List.head?_eq_getElem?] at hPick
          simp [hPick]
      | succ k =>
          have hRest :=
            ih (fun q hQ => hAll q (by simp [hQ]))
              pinned.tail k
          simpa using hRest

/- Acquiring a route leaves the topology alone. -/
@[simp] theorem acquireRoute_topo (session : Nat) :
    (r.acquireRoute session).2.topo = r.topo := by
  unfold acquireRoute
  split
  · rfl
  · split <;> rfl

/- A route is the picks for a plan without gaps. -/
theorem acquireRoute_ok
    {session : Nat}
    {route : List Node}
    (hOk : (r.acquireRoute session).1 = .ok route) :
    ∃ plan,
      r.topo.route = .ok plan ∧
        route = r.pickRoute plan (r.pins session) := by
  unfold acquireRoute at hOk
  split at hOk
  · cases hOk
  · rename_i plan hPlan
    refine ⟨plan, hPlan, ?_⟩
    unfold pins
    split at hOk
    · rename_i hNew
      cases hOk
      simp [hNew]
    · rename_i pinned hOld
      cases hOk
      simp [hOld]

/- The node a session gets for each slot. -/
theorem getElem?_of_acquireRoute
    {session : Nat}
    {route : List Node}
    (hOk : (r.acquireRoute session).1 = .ok route)
    (k : Nat) :
    route[k]? =
      r.topo.slots[k]?.bind (fun _ =>
        r.pickHolder (r.pins session)[k]?
          (r.topo.holders k)) := by
  rcases r.acquireRoute_ok hOk with ⟨plan, hPlan, rfl⟩
  rcases r.topo.route_ok hPlan with ⟨rfl, hAll⟩
  rw [r.getElem?_pickRoute (by simpa using hAll)]
  cases hSlot : r.topo.slots[k]? with
  | none => simp [hSlot]
  | some slot =>
      simp [hSlot, r.topo.index_of_getElem? hSlot]

/- A route of one session leaves the others as they are. -/
theorem get?_acquireRoute_of_ne
    {s s' : Nat}
    (hNe : s ≠ s') :
    (r.acquireRoute s).2.sessionLoad.get? s' =
      r.sessionLoad.get? s' := by
  unfold acquireRoute
  split
  · rfl
  · split
    · simp [Dict.get?_set, hNe]
    · simp [Dict.get?_set, hNe]

/- A node of a route is a holder of the slot at its place. -/
theorem holder_of_acquireRoute
    {session : Nat}
    {route : List Node}
    (hOk : (r.acquireRoute session).1 = .ok route)
    {k : Nat}
    {n : Node}
    (hK : route[k]? = some n) :
    ∃ slot ∈ r.topo.slots,
      slot.index = k ∧ n ∈ r.topo.holders slot.index := by
  rw [r.getElem?_of_acquireRoute hOk] at hK
  rcases Option.bind_eq_some_iff.mp hK with
    ⟨slot, hSlot, hPick⟩
  have hMem := r.mem_of_pickHolder hPick
  have hIndex := r.topo.index_of_getElem? hSlot
  rw [← hIndex] at hMem
  exact ⟨slot, List.mem_of_getElem? hSlot, hIndex, hMem⟩

/- Every slot gets a node. -/
theorem exists_of_acquireRoute
    {session : Nat}
    {route : List Node}
    (hOk : (r.acquireRoute session).1 = .ok route)
    {slot : Slot}
    (hMem : slot ∈ r.topo.slots) :
    ∃ n,
      route[slot.index]? = some n ∧
        r.pickHolder (r.pins session)[slot.index]?
          (r.topo.holders slot.index) = some n := by
  have hAll := r.acquireRoute_ok hOk
  rcases hAll with ⟨plan, hPlan, _⟩
  have hNe := (r.topo.route_ok hPlan).2 slot hMem
  rcases Option.isSome_iff_exists.mp
    (r.pickHolder_isSome
      (r.pins session)[slot.index]? hNe) with ⟨n, hPick⟩
  refine ⟨n, ?_, hPick⟩
  rw [r.getElem?_of_acquireRoute hOk,
    r.topo.getElem?_index hMem]
  exact hPick

end Registry

end CircuitDllm
