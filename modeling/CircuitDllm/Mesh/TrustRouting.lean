import CircuitDllm.Mesh.Routing

/-
  Trust in the acquired routes.

  The order of the holders puts trusted nodes first, but a
  route is picked by load and keeps earlier pins, so it can
  go through a probation node while a trusted one is READY.
  A route prefers trust exactly when the pins and the loads
  it is picked from do.

  Main declarations:
    * `RouteTrusted`, `TrustedPreferred`
    * `acquisitions`
    * `acquireRoute_trusted_iff`
-/

------------------------------------------------------------
-- Routes Through Trusted Nodes
------------------------------------------------------------

namespace CircuitDllm

/- A slot has a READY TRUSTED holder. -/
def ReadyTrusted (t : Topology) (slot : Slot) : Prop :=
  ∃ n ∈ t.liveHolders slot, n.trust = .trusted

/-
  A route with a node for every slot, a TRUSTED one for each
  slot that has a READY TRUSTED holder.
-/
def RouteTrusted (t : Topology) (route : List Node) : Prop :=
  ∀ slot ∈ t.slots,
    ∃ n,
      route[slot.index]? = some n ∧
        (ReadyTrusted t slot → n.trust = .trusted)

namespace Registry

/- The pinned node of a slot, while it is routable. -/
def keptPin
    (r : Registry)
    (session : Nat)
    (slot : Slot) :
    Option Node :=
  (r.pins session)[slot.index]?.bind (fun nodeId =>
    (r.topo.holders slot.index).find? (fun h =>
      h.nodeId = nodeId))

/- No READY probation holder has less load than this one. -/
def NoLighterProbation
    (r : Registry)
    (slot : Slot)
    (n : Node) :
    Prop :=
  ∀ m ∈ r.topo.liveHolders slot,
    m.trust = .probation → r.loadOf n ≤ r.loadOf m

/-
  The pins and loads prefer trust: where a slot has a READY
  TRUSTED holder, a pin that is kept is TRUSTED, and without
  one some TRUSTED holder is least loaded.
-/
def TrustedPreferred (r : Registry) (session : Nat) : Prop :=
  ∀ slot ∈ r.topo.slots,
    ReadyTrusted r.topo slot →
      match r.keptPin session slot with
      | some n => n.trust = .trusted
      | none =>
        ∃ n ∈ r.topo.liveHolders slot,
          n.trust = .trusted ∧ r.NoLighterProbation slot n

variable (r : Registry)

theorem pickHolder_of_keptPin
    {session : Nat}
    {slot : Slot}
    {n : Node}
    (hKept : r.keptPin session slot = some n) :
    r.pickHolder (r.pins session)[slot.index]?
      (r.topo.holders slot.index) = some n := by
  unfold keptPin at hKept
  unfold pickHolder
  rw [hKept]

theorem pickHolder_of_no_keptPin
    {session : Nat}
    {slot : Slot}
    (hNone : r.keptPin session slot = none) :
    r.pickHolder (r.pins session)[slot.index]?
        (r.topo.holders slot.index) =
      r.leastLoaded (r.topo.holders slot.index) := by
  unfold keptPin at hNone
  unfold pickHolder
  rw [hNone]

theorem trank_trusted
    {n : Node}
    (hTrust : n.trust = .trusted) :
    Topology.trank n = 0 := by
  simp [Topology.trank, hTrust]

theorem trank_probation
    {n : Node}
    (hTrust : n.trust = .probation) :
    Topology.trank n = 1 := by
  simp [Topology.trank, hTrust]

/-
  Of two equally loaded holders the first is picked, and the
  trusted ones come first.
-/
theorem trusted_of_leastLoaded
    {k : Nat}
    {m n : Node}
    (hLeast : r.leastLoaded (r.topo.holders k) = some m)
    (hMem : n ∈ r.topo.holders k)
    (hTrust : n.trust = .trusted)
    (hLoad : m.trust = .probation →
      r.loadOf n ≤ r.loadOf m) :
    m.trust = .trusted := by
  cases hM : m.trust with
  | trusted => rfl
  | probation =>
      have hLe :
          (r.topo.holders k).idxOf m ≤
            (r.topo.holders k).idxOf n :=
        List.index_of_argmin hLeast hMem (hLoad hM)
      have hNe : m ≠ n := by
        rintro rfl
        simp [hM] at hTrust
      have hIdxM : (r.topo.holders k).idxOf m <
          (r.topo.holders k).length :=
        List.idxOf_lt_length_iff.mpr (List.argmin_mem hLeast)
      have hIdxN : (r.topo.holders k).idxOf n <
          (r.topo.holders k).length :=
        List.idxOf_lt_length_iff.mpr hMem
      have hLt :
          (r.topo.holders k).idxOf m <
            (r.topo.holders k).idxOf n := by
        refine lt_of_le_of_ne hLe (fun hEq => hNe ?_)
        rw [← List.getElem_idxOf hIdxM,
          ← List.getElem_idxOf hIdxN]
        simp only [hEq]
      have hOrder :=
        List.pairwise_iff_getElem.mp
          (r.topo.pairwise_holders k) _ _ hIdxM hIdxN hLt
      rw [List.getElem_idxOf, List.getElem_idxOf] at hOrder
      have hRank := r.topo.trank_le_of_holderLe hOrder
      rw [trank_probation hM, trank_trusted hTrust] at hRank
      omega

/- The least-loaded holder of a slot, by trust. -/
theorem trusted_leastLoaded_iff
    {slot : Slot}
    {m : Node}
    (hMem : slot ∈ r.topo.slots)
    (hLeast :
      r.leastLoaded (r.topo.holders slot.index) = some m) :
    m.trust = .trusted ↔
      ∃ n ∈ r.topo.liveHolders slot,
        n.trust = .trusted ∧ r.NoLighterProbation slot n := by
  constructor
  · intro hTrust
    have hHolder := List.argmin_mem hLeast
    refine ⟨m, (r.topo.mem_holders hMem).mp hHolder, hTrust,
      ?_⟩
    intro l hL _
    exact List.le_of_mem_argmin
      ((r.topo.mem_holders hMem).mpr hL) hLeast
  · rintro ⟨n, hN, hTrust, hLight⟩
    refine r.trusted_of_leastLoaded hLeast
      ((r.topo.mem_holders hMem).mpr hN) hTrust ?_
    intro hProbation
    exact hLight m
      ((r.topo.mem_holders hMem).mp
        (List.argmin_mem hLeast)) hProbation

/- One acquisition of a route. -/
theorem routeTrusted_iff
    {session : Nat}
    {route : List Node}
    (hOk : (r.acquireRoute session).1 = .ok route) :
    RouteTrusted r.topo route ↔
      r.TrustedPreferred session := by
  unfold RouteTrusted TrustedPreferred
  refine forall₂_congr (fun slot hMem => ?_)
  rcases r.exists_of_acquireRoute hOk hMem with
    ⟨n, hNode, hPick⟩
  rw [hNode]
  simp only [Option.some.injEq, exists_eq_left']
  refine imp_congr_right (fun _ => ?_)
  cases hKept : r.keptPin session slot with
  | some m =>
      rw [r.pickHolder_of_keptPin hKept] at hPick
      cases hPick
      exact Iff.rfl
  | none =>
      rw [r.pickHolder_of_no_keptPin hKept] at hPick
      exact r.trusted_leastLoaded_iff hMem hPick

end Registry

end CircuitDllm

------------------------------------------------------------
-- Runs
------------------------------------------------------------

namespace CircuitDllm

/- A route handed out: the registry it was picked from. -/
structure Acquisition where
  before : Registry
  session : Nat
  route : List Node

namespace Registry

variable (cfg : RegistryConfig)

/- What one operation hands out. -/
def acquisition (r : Registry) :
    RegistryOp → List Acquisition
| .acquireRoute session =>
    match (r.acquireRoute session).1 with
    | .ok route => [⟨r, session, route⟩]
    | .error _ => []
| _ => []

/- The routes handed out in a run. -/
def acquisitions (r : Registry) :
    List RegistryOp → List Acquisition
| [] => []
| op :: ops =>
    r.acquisition op ++ acquisitions (r.step cfg op) ops

theorem ok_of_mem_acquisition
    {r : Registry}
    {op : RegistryOp}
    {a : Acquisition}
    (hMem : a ∈ r.acquisition op) :
    (a.before.acquireRoute a.session).1 = .ok a.route := by
  unfold acquisition at hMem
  split at hMem
  · split at hMem
    · rename_i hOk
      rw [List.mem_singleton] at hMem
      rw [hMem]
      exact hOk
    · exact absurd hMem List.not_mem_nil
  · exact absurd hMem List.not_mem_nil

theorem ok_of_mem_acquisitions
    {r : Registry}
    {ops : List RegistryOp}
    {a : Acquisition}
    (hMem : a ∈ r.acquisitions cfg ops) :
    (a.before.acquireRoute a.session).1 = .ok a.route := by
  induction ops generalizing r with
  | nil => exact absurd hMem List.not_mem_nil
  | cons op ops ih =>
      rcases List.mem_append.mp hMem with hHere | hLater
      · exact ok_of_mem_acquisition hHere
      · exact ih hLater

/-
  In every run of the control plane, a route handed out goes
  through TRUSTED nodes wherever there are READY ones if and
  only if the pins and loads it was picked from prefer
  trust.
-/
theorem acquireRoute_trusted_iff
    (r : Registry)
    (ops : List RegistryOp)
    (a : Acquisition)
    (hMem : a ∈ r.acquisitions cfg ops) :
    RouteTrusted a.before.topo a.route ↔
      a.before.TrustedPreferred a.session :=
  a.before.routeTrusted_iff (ok_of_mem_acquisitions cfg hMem)

end Registry

end CircuitDllm

------------------------------------------------------------
-- A Probation Holder Beside a Trusted One
------------------------------------------------------------

namespace CircuitDllm

namespace Registry

/- One slot, one node of the bootstrap fleet. -/
def oneSlot : RegistryConfig where
  layout :=
    { numLayers := 2
      coordinatorEnd := 1
      numStages := 1
      modelFp := "m" }
  seedNodes := ["seed"]

def joining (nodeId : String) : Node where
  nodeId := nodeId
  endpoint := ⟨nodeId, 7000⟩
  capacityLayers := 1
  modelFp := "m"

/- The seed node and a newcomer hold the slot; two sessions. -/
def twoSessions : List RegistryOp :=
  [.register (joining "seed") 0 none,
    .register (joining "new") 0 none,
    .markReady "seed",
    .markReady "new",
    .acquireRoute 1,
    .acquireRoute 2]

/- The trust of a route, and of the READY holders it had. -/
def trustOf (a : Acquisition) :
    List Trust × List (List Trust) :=
  (a.route.map (·.trust),
    a.before.topo.slots.map (fun s =>
      (a.before.topo.liveHolders s).map (·.trust)))

/- The acquisitions of `twoSessions` from the first start. -/
def twoSessionsLog : List Acquisition :=
  match create oneSlot with
  | .ok r₀ => r₀.acquisitions oneSlot twoSessions
  | .error _ => []

theorem twoSessionsLog_trust :
    twoSessionsLog.map trustOf =
      [([.trusted], [[.trusted, .probation]]),
        ([.probation], [[.trusted, .probation]])] := by
  decide

/- A probation node alone on a slot with a TRUSTED holder. -/
theorem not_routeTrusted_of_trustOf
    {a : Acquisition}
    (hTrust :
      trustOf a = ([.probation], [[.trusted, .probation]])) :
    ¬ RouteTrusted a.before.topo a.route := by
  intro hRoute
  rcases Prod.mk.inj hTrust with ⟨hNodes, hSlots⟩
  rcases List.map_eq_singleton_iff.mp hSlots with
    ⟨slot, hSlot, hHolders⟩
  rcases List.map_eq_singleton_iff.mp hNodes with
    ⟨n, hNode, hProbation⟩
  have hIndex : slot.index = 0 :=
    a.before.topo.index_of_getElem? (by simp [hSlot])
  have hReady : ReadyTrusted a.before.topo slot := by
    have hMem : Trust.trusted ∈
        (a.before.topo.liveHolders slot).map (·.trust) := by
      simp [hHolders]
    exact List.mem_map.mp hMem
  rcases hRoute slot (by simp [hSlot]) with
    ⟨m, hGet, hImp⟩
  rw [hIndex, hNode] at hGet
  cases hGet
  have hTrusted := hImp hReady
  rw [hProbation] at hTrusted
  cases hTrusted

theorem exists_probation_acquisition :
    ∃ a ∈ twoSessionsLog,
      trustOf a =
        ([.probation], [[.trusted, .probation]]) := by
  have hMem :
      (([.probation], [[.trusted, .probation]]) :
          List Trust × List (List Trust)) ∈
        twoSessionsLog.map trustOf := by
    rw [twoSessionsLog_trust]
    simp
  exact List.mem_map.mp hMem

theorem create_oneSlot :
    ∃ r₀,
      create oneSlot = .ok r₀ ∧
        twoSessionsLog = r₀.acquisitions oneSlot twoSessions :=
  ⟨_, rfl, rfl⟩

/-
  With two sessions open the second one is routed through
  the newcomer, while the seed node is READY.
-/
theorem acquireRoute_probation :
    ¬ ∀ (cfg : RegistryConfig) (r₀ : Registry)
        (ops : List RegistryOp) (a : Acquisition),
      create cfg = .ok r₀ →
      a ∈ r₀.acquisitions cfg ops →
      RouteTrusted a.before.topo a.route := by
  intro hClaim
  rcases create_oneSlot with ⟨r₀, hCreate, hLog⟩
  rcases exists_probation_acquisition with ⟨a, hMem, hTrust⟩
  rw [hLog] at hMem
  exact not_routeTrusted_of_trustOf hTrust
    (hClaim oneSlot r₀ twoSessions a hCreate hMem)

theorem acquireRoute_trusted_iff_two :
    ∃ a ∈ twoSessionsLog,
      ¬ a.before.TrustedPreferred a.session := by
  rcases create_oneSlot with ⟨r₀, _, hLog⟩
  rcases exists_probation_acquisition with ⟨a, hMem, hTrust⟩
  refine ⟨a, hMem, fun hPreferred => ?_⟩
  rw [hLog] at hMem
  exact not_routeTrusted_of_trustOf hTrust
    ((acquireRoute_trusted_iff oneSlot r₀ twoSessions a
      hMem).mpr hPreferred)

end Registry

end CircuitDllm
