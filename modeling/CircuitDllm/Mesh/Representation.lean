import CircuitDllm.Mesh.RoutingSafe

/-
  Holder lists and the node table, and what a refused
  registration leaves of them.

  A holding is dropped before the registration knows whether
  it will succeed, and the node enters before its key is
  derived.  In a run without a refusal at those points the
  lists are the ones of the table, and whatever raises
  changes nothing.

  Main declarations:
    * `Topology.Represents`
    * `TableOp`, `TableOp.Disturbs`
    * `TableOp.representation_run`
-/

------------------------------------------------------------
-- The Representation
------------------------------------------------------------

namespace CircuitDllm

namespace Topology

/-
  Each id occurs once in all holder lists together, and it
  is in those of slot `k` exactly when the table has it with
  slot `k`.
-/
structure Represents (t : Topology) : Prop where
  once : (t.slots.flatMap (·.holders)).Nodup
  holds :
    ∀ k h,
      (∃ slot, t.slots[k]? = some slot ∧ h ∈ slot.holders) ↔
        ∃ n, t.nodes.get? h = some n ∧ n.slot = some k

/- The slot the table has for an id. -/
def tableSlot (t : Topology) (h : String) : Option Nat :=
  (t.nodes.get? h).bind (·.slot)

/- The second half, which implies the first. -/
def Tabled (t : Topology) : Prop :=
  ∀ k h,
    (∃ slot, t.slots[k]? = some slot ∧ h ∈ slot.holders) ↔
      t.tableSlot h = some k

variable {t : Topology}

theorem Tabled.represents
    (hTabled : t.Tabled)
    (hWf : t.WellFormed) :
    t.Represents := by
  refine ⟨?_, fun k h => ?_⟩
  case refine_2 =>
    rw [hTabled k h, tableSlot, Option.bind_eq_some_iff]
  rw [List.nodup_flatMap]
  refine ⟨hWf.nodup, ?_⟩
  rw [List.pairwise_iff_getElem]
  intro i j hI hJ hLt h hHolderI hHolderJ
  have hSlotI :=
    (hTabled i h).mp
      ⟨_, List.getElem?_eq_getElem hI, hHolderI⟩
  have hSlotJ :=
    (hTabled j h).mp
      ⟨_, List.getElem?_eq_getElem hJ, hHolderJ⟩
  rw [hSlotI] at hSlotJ
  have hEq := Option.some.inj hSlotJ
  omega

/- The same slots, and the same slot for each node. -/
theorem Tabled.of_nodes
    (hTabled : t.Tabled)
    {t' : Topology}
    (hSlots : t'.slots = t.slots)
    (hNodes : ∀ h, t'.tableSlot h = t.tableSlot h) :
    t'.Tabled := by
  intro k h
  rw [hSlots, hTabled k h, hNodes h]

theorem Tabled.modifyNode
    (hTabled : t.Tabled)
    (nodeId : String)
    {f : Node → Node}
    (hSlot : ∀ n, (f n).slot = n.slot) :
    (t.modifyNode nodeId f).Tabled := by
  refine hTabled.of_nodes rfl (fun h => ?_)
  rw [tableSlot, get?_modifyNode]
  split
  · cases hN : t.nodes.get? h with
    | none => simp [tableSlot, hN]
    | some n => simp [tableSlot, hN, hSlot]
  · rfl

/- The holders of slot `k` after a change of all holders. -/
theorem holds_mapHolders
    {f : Slot → List String}
    {k : Nat}
    {h : String} :
    (∃ slot, (t.mapHolders f).slots[k]? = some slot ∧
        h ∈ slot.holders) ↔
      ∃ slot, t.slots[k]? = some slot ∧ h ∈ f slot := by
  simp only [Topology.mapHolders, List.getElem?_map,
    Option.map_eq_some_iff]
  constructor
  · rintro ⟨_, ⟨slot, hSlot, rfl⟩, hMem⟩
    exact ⟨slot, hSlot, hMem⟩
  · rintro ⟨slot, hSlot, hMem⟩
    exact ⟨_, ⟨slot, hSlot, rfl⟩, hMem⟩

/- A node leaves the list of slot `k` and no other. -/
theorem mem_erase_holders
    (hWf : t.WellFormed)
    {k : Nat}
    {slot : Slot}
    (hSlot : t.slots[k]? = some slot)
    {nodeId h : String} :
    h ∈ slot.holders.erase nodeId ↔
      h ≠ nodeId ∧ h ∈ slot.holders :=
  (hWf.nodup slot (List.mem_of_getElem? hSlot)).mem_erase_iff

theorem tabled_create
    {l : Layout}
    (hCreate : create l = .ok t) :
    t.Tabled := by
  intro k h
  rw [tableSlot, create_nodes hCreate]
  constructor
  · rintro ⟨slot, hSlot, hMem⟩
    rw [create_holders hCreate
      (List.mem_of_getElem? hSlot)] at hMem
    exact absurd hMem List.not_mem_nil
  · intro hNone
    cases hNone

/- The table has the entered node with its slot. -/
theorem tableSlot_enter
    (node : Node)
    (slot : Option Nat)
    (now : ℚ)
    (h : String) :
    (t.enter node slot now).tableSlot h =
      if node.nodeId = h then slot else t.tableSlot h := by
  have hNodes :
      (t.dropHolding node.nodeId).nodes = t.nodes := rfl
  unfold tableSlot
  cases slot with
  | none =>
      simp only [enter, Dict.get?_set, hNodes]
      split
      · rfl
      · rfl
  | some index =>
      simp only [enter, enroll, Topology.mapHolders,
        Dict.get?_set]
      split
      · rfl
      · rfl

/- The lists after a node entered. -/
theorem holds_enter
    (hWf : t.WellFormed)
    (node : Node)
    {slot : Option Nat}
    (now : ℚ)
    (hIndex : ∀ index ∈ slot, index < t.slots.length)
    {k : Nat}
    {h : String} :
    (∃ s, (t.enter node slot now).slots[k]? = some s ∧
        h ∈ s.holders) ↔
      if node.nodeId = h then slot = some k
      else ∃ s, t.slots[k]? = some s ∧ h ∈ s.holders := by
  have hDrop :
      ∀ s, t.slots[k]? = some s →
        (h ∈ s.holders.erase node.nodeId ↔
          h ≠ node.nodeId ∧ h ∈ s.holders) :=
    fun s hS => mem_erase_holders hWf hS
  cases slot with
  | none =>
      have hHolds :
          (∃ s, (t.enter node none now).slots[k]? = some s ∧
              h ∈ s.holders) ↔
            ∃ s, t.slots[k]? = some s ∧
              h ∈ s.holders.erase node.nodeId :=
        holds_mapHolders
      rw [hHolds]
      split
      · rename_i hEq
        constructor
        · rintro ⟨s, hS, hMem⟩
          exact absurd hEq.symm ((hDrop s hS).mp hMem).1
        · intro hNone
          cases hNone
      · rename_i hNe
        constructor
        · rintro ⟨s, hS, hMem⟩
          exact ⟨s, hS, ((hDrop s hS).mp hMem).2⟩
        · rintro ⟨s, hS, hMem⟩
          exact
            ⟨s, hS, (hDrop s hS).mpr
              ⟨fun hEq => hNe hEq.symm, hMem⟩⟩
  | some index =>
      have hHolds :
          (∃ s, (t.enter node (some index) now).slots[k]? =
                some s ∧ h ∈ s.holders) ↔
            ∃ s, (t.dropHolding node.nodeId).slots[k]? =
                some s ∧
              h ∈ (if s.index = index
                then s.holders ++ [node.nodeId]
                else s.holders) :=
        holds_mapHolders
      rw [hHolds]
      simp only [dropHolding, Topology.mapHolders,
        List.getElem?_map, Option.map_eq_some_iff,
        exists_exists_and_eq_and]
      split
      · rename_i hEq
        subst hEq
        constructor
        · rintro ⟨s, hS, hMem⟩
          split at hMem
          · rename_i hAt
            rw [← hAt, t.index_of_getElem? hS]
          · exact absurd rfl ((hDrop s hS).mp hMem).1
        · intro hK
          have hLt := hIndex index rfl
          cases hK
          refine
            ⟨t.slots[k], List.getElem?_eq_getElem hLt, ?_⟩
          rw [if_pos (t.index_of_getElem?
            (List.getElem?_eq_getElem hLt))]
          simp
      · rename_i hNe
        have hNe' : h ≠ node.nodeId := fun hEq => hNe hEq.symm
        constructor
        · rintro ⟨s, hS, hMem⟩
          refine ⟨s, hS, ?_⟩
          split at hMem
          · rcases List.mem_append.mp hMem with hOld | hNew
            · exact ((hDrop s hS).mp hOld).2
            · exact absurd (List.mem_singleton.mp hNew) hNe'
          · exact ((hDrop s hS).mp hMem).2
        · rintro ⟨s, hS, hMem⟩
          have hKept := (hDrop s hS).mpr ⟨hNe', hMem⟩
          refine ⟨s, hS, ?_⟩
          split
          · exact List.mem_append_left _ hKept
          · exact hKept

theorem Tabled.enter
    (hTabled : t.Tabled)
    (hWf : t.WellFormed)
    (node : Node)
    {slot : Option Nat}
    (now : ℚ)
    (hIndex : ∀ index ∈ slot, index < t.slots.length) :
    (t.enter node slot now).Tabled := by
  intro k h
  rw [holds_enter hWf node now hIndex, tableSlot_enter]
  split
  · rfl
  · exact hTabled k h

/- A node leaves the table and the list the table names. -/
theorem Tabled.remove
    (hTabled : t.Tabled)
    (hWf : t.WellFormed)
    (nodeId : String) :
    (t.remove nodeId).Tabled := by
  intro k h
  have hSlotOf :
      (t.remove nodeId).tableSlot h =
        if nodeId = h then none else t.tableSlot h := by
    rw [tableSlot, get?_remove]
    split
    · rfl
    · rfl
  have hHolds :
      (∃ s, (t.remove nodeId).slots[k]? = some s ∧
          h ∈ s.holders) ↔
        ∃ s, t.slots[k]? = some s ∧
          h ∈ (if some s.index = t.tableSlot nodeId
            then s.holders.erase nodeId
            else s.holders) :=
    holds_mapHolders
  rw [hHolds, hSlotOf]
  split
  · rename_i hEq
    subst hEq
    constructor
    · rintro ⟨s, hS, hMem⟩
      split at hMem
      · exact
          absurd rfl ((mem_erase_holders hWf hS).mp hMem).1
      · rename_i hOther
        have hAt := (hTabled k nodeId).mp ⟨s, hS, hMem⟩
        rw [t.index_of_getElem? hS, hAt] at hOther
        exact absurd rfl hOther
    · intro hNone
      cases hNone
  · rename_i hNe
    have hNe' : h ≠ nodeId := fun hEq => hNe hEq.symm
    rw [← hTabled k h]
    constructor
    · rintro ⟨s, hS, hMem⟩
      refine ⟨s, hS, ?_⟩
      split at hMem
      · exact ((mem_erase_holders hWf hS).mp hMem).2
      · exact hMem
    · rintro ⟨s, hS, hMem⟩
      refine ⟨s, hS, ?_⟩
      split
      · exact (mem_erase_holders hWf hS).mpr ⟨hNe', hMem⟩
      · exact hMem

theorem Tabled.purge
    (hTabled : t.Tabled)
    (hWf : t.WellFormed)
    (now : ℚ) :
    (t.purge now).2.Tabled := by
  have hBoth :=
    Topology.purge_preserves (fun t => t.Tabled ∧ t.WellFormed)
      (fun t nodeId hT =>
        ⟨hT.1.remove hT.2 nodeId, hT.2.remove nodeId⟩)
      ⟨hTabled, hWf⟩ now
  exact hBoth.1

theorem Tabled.reap
    (hTabled : t.Tabled)
    (now : ℚ) :
    (t.reap now).2.Tabled := by
  refine hTabled.of_nodes rfl (fun h => ?_)
  have hNodes :
      (t.reap now).2.nodes.get? h =
        (t.nodes.get? h).map (t.reaped now) :=
    Dict.get?_mapValues _ _ _
  rw [tableSlot, hNodes, tableSlot]
  cases t.nodes.get? h with
  | none => rfl
  | some n =>
      simp only [Option.map_some, Option.bind_some, reaped]
      split
      · rfl
      · rfl

theorem Tabled.recordCheck
    (hTabled : t.Tabled)
    (nodeId : String)
    (ok : Bool)
    (promoteAfter strikeMax : Int) :
    (t.recordCheck nodeId ok promoteAfter
      strikeMax).2.Tabled := by
  unfold Topology.recordCheck
  split
  · exact hTabled
  · split
    · exact
        hTabled.modifyNode _ (passCheck_slot promoteAfter)
    · exact hTabled.modifyNode _ (failCheck_slot strikeMax)

/- A slot found for a node is one of the topology's. -/
theorem slotFor_mem
    {node : Node}
    {preferRange : Option PreferRange}
    {slot : Slot}
    (hFor : t.slotFor node preferRange = some slot) :
    slot ∈ t.slots ∧ slot.size ≤ node.capacityLayers := by
  simp only [slotFor, Option.orElse_eq_or] at hFor
  rcases Option.or_eq_some_iff.mp hFor with
    hPreferred | ⟨_, hPick⟩
  · rcases Option.bind_eq_some_iff.mp hPreferred with
      ⟨pr, _, hFind⟩
    have hFits := List.find?_some hFind
    simp only [decide_eq_true_eq] at hFits
    exact ⟨List.mem_of_find?_eq_some hFind, hFits.2⟩
  · have hMem := List.argmin_mem hPick
    rw [List.mem_filter, decide_eq_true_eq] at hMem
    exact hMem

/- Without one, every slot is too big. -/
theorem slotFor_eq_none
    {node : Node}
    {preferRange : Option PreferRange} :
    t.slotFor node preferRange = none ↔
      ∀ slot ∈ t.slots, node.capacityLayers < slot.size := by
  constructor
  · intro hNone slot hSlot
    simp only [slotFor, Option.orElse_eq_or] at hNone
    have hPick := (Option.or_eq_none_iff.mp hNone).2
    unfold pickSlot at hPick
    rw [List.argmin_eq_none, List.filter_eq_nil_iff] at hPick
    have hBig := hPick slot hSlot
    simp only [decide_eq_true_eq, not_le] at hBig
    exact hBig
  · intro hBig
    cases hFor : t.slotFor node preferRange with
    | none => rfl
    | some slot =>
        have hMem := slotFor_mem hFor
        exact absurd hMem.2 (not_le.mpr (hBig slot hMem.1))

/- No slot is for the node. -/
def Unplaced
    (t : Topology)
    (node : Node)
    (preferRange : Option PreferRange) : Prop :=
  preferRange = some .malformed ∨
    ∀ slot ∈ t.slots, node.capacityLayers < slot.size

/- The sizes of the slots stay when a holding is dropped. -/
theorem unplaced_dropHolding
    {node : Node}
    {preferRange : Option PreferRange} :
    (t.dropHolding node.nodeId).Unplaced node preferRange ↔
      t.Unplaced node preferRange := by
  refine or_congr Iff.rfl ?_
  constructor
  · intro hBig slot hSlot
    have hMem :
        { slot with
          holders := slot.holders.erase node.nodeId } ∈
            (t.dropHolding node.nodeId).slots :=
      mem_mapHolders.mpr ⟨slot, hSlot, rfl⟩
    have hSize := hBig _ hMem
    exact hSize
  · intro hBig slot hSlot
    rcases mem_mapHolders.mp hSlot with ⟨s, hS, rfl⟩
    exact hBig s hS

/- Where a slot is found the registration enters it. -/
theorem slotFor_dropHolding_lt
    {nodeId : String}
    {node : Node}
    {preferRange : Option PreferRange}
    {slot : Slot}
    (hFor :
      (t.dropHolding nodeId).slotFor node preferRange =
        some slot) :
    slot.index < t.slots.length := by
  rcases List.mem_iff_getElem?.mp (slotFor_mem hFor).1 with
    ⟨k, hK⟩
  have hAt := index_of_getElem? _ hK
  have hLt := (List.getElem?_eq_some_iff.mp hK).1
  rw [hAt]
  simpa [dropHolding, Topology.mapHolders] using hLt

/- A registration refused after its holding was dropped. -/
def Disturbs
    (t : Topology)
    (node : Node)
    (preferRange : Option PreferRange) : Prop :=
  node.modelFp = t.modelFp ∧ t.Unplaced node preferRange ∧
    ∃ slot ∈ t.slots, node.nodeId ∈ slot.holders

/- A quiet registration enters, or changes nothing. -/
theorem register_quiet
    {node : Node}
    {preferRange : Option PreferRange}
    (hQuiet : ¬ t.Disturbs node preferRange)
    (now : ℚ) :
    (∃ e, t.register node now preferRange = (.error e, t)) ∨
      ∃ slot,
        slot.index < t.slots.length ∧
          t.register node now preferRange =
            (.ok slot, t.enter node (some slot.index) now) := by
  have hDrop
      (hModel : node.modelFp = t.modelFp)
      (hUnplaced : t.Unplaced node preferRange) :
      t.dropHolding node.nodeId = t :=
    dropHolding_of_free fun slot hSlot hMem =>
      hQuiet ⟨hModel, hUnplaced, slot, hSlot, hMem⟩
  unfold Topology.register
  by_cases hModel : node.modelFp = t.modelFp
  · rw [if_neg (not_not_intro hModel)]
    by_cases hRange : preferRange = some .malformed
    · left
      exact
        ⟨.preferRange, by
          rw [if_pos hRange, hDrop hModel (Or.inl hRange)]⟩
    · rw [if_neg hRange]
      cases hFor :
          (t.dropHolding node.nodeId).slotFor node
            preferRange with
      | none =>
          left
          have hUnplaced : t.Unplaced node preferRange :=
            unplaced_dropHolding.mp
              (Or.inr (slotFor_eq_none.mp hFor))
          exact
            ⟨.noSlot, by
              simp only [hDrop hModel hUnplaced]⟩
      | some slot =>
          right
          exact ⟨slot, slotFor_dropHolding_lt hFor, rfl⟩
  · left
    rw [if_pos hModel]
    exact ⟨_, rfl⟩

/- A head-only orchestrator enters, or changes nothing. -/
theorem registerOrchestrator_cases
    (t : Topology)
    (node : Node)
    (now : ℚ) :
    (∃ e, t.registerOrchestrator node now = (.error e, t)) ∨
      t.registerOrchestrator node now =
        (.ok (), t.enter node none now) := by
  unfold Topology.registerOrchestrator
  split
  · exact Or.inl ⟨_, rfl⟩
  · exact Or.inr rfl

end Topology

end CircuitDllm

------------------------------------------------------------
-- Refused Registrations
------------------------------------------------------------

namespace CircuitDllm

namespace Registry

variable (cfg : RegistryConfig)

/- Node table, holder lists, wallets and counter agree. -/
def SameTables (r r' : Registry) : Prop :=
  r'.topo.nodes = r.topo.nodes ∧
    r'.topo.slots = r.topo.slots ∧
    r'.wallets = r.wallets ∧ r'.orchSeq = r.orchSeq

/- The operation raises. -/
def Raises (r : Registry) : RegistryOp → Prop
| .register node now preferRange =>
    ∃ e, (r.register cfg node now preferRange).1 = .error e
| .acquireRoute session =>
    ∃ e, (r.acquireRoute session).1 = .error e
| .restart => ∃ e, r.restart cfg = .error e
| _ => False

/-
  A registration that is refused after it took its node's
  holding away, or after the node entered.
-/
def Disturbs (r : Registry) : RegistryOp → Prop
| .register node _ preferRange =>
    r.Reaches cfg node ∧
      ((node.orchestrator = false ∧
          r.topo.Unplaced node preferRange ∧
          ∃ slot ∈ r.topo.slots,
            node.nodeId ∈ slot.holders) ∨
        (cfg.deriveNodeKey node.nodeId = none ∧
          (node.orchestrator = true ∨
            ¬ r.topo.Unplaced node preferRange)))
| _ => False

variable {cfg : RegistryConfig}

/- A holder that is let in enters unless it is unplaced. -/
theorem entry_eq_none
    {r : Registry}
    {node : Node}
    (hReach : r.Reaches cfg node)
    (hHolder : node.orchestrator = false)
    {preferRange : Option PreferRange} :
    r.entry cfg node preferRange = none ↔
      r.topo.Unplaced node preferRange := by
  rw [← Topology.unplaced_dropHolding]
  by_cases hRange : preferRange = some .malformed
  · simp [entry, hReach, hHolder, hRange, Topology.Unplaced]
  · have hUnplaced :
        (r.topo.dropHolding node.nodeId).Unplaced node
            preferRange ↔
          (r.topo.dropHolding node.nodeId).slotFor node
            preferRange = none := by
      rw [Topology.slotFor_eq_none]
      simp [Topology.Unplaced, hRange]
    rw [hUnplaced]
    simp [entry, hReach, hHolder, hRange]

/- Where a node enters is a slot of the topology. -/
theorem lt_of_entry
    {r : Registry}
    {node : Node}
    {preferRange : Option PreferRange}
    {slot : Option Nat}
    (hEntry : r.entry cfg node preferRange = some slot) :
    ∀ index ∈ slot, index < r.topo.slots.length := by
  intro index hIndex
  unfold entry at hEntry
  split at hEntry
  · cases hEntry
  · split at hEntry
    · cases hEntry
      cases hIndex
    · split at hEntry
      · cases hEntry
      · rcases Option.map_eq_some_iff.mp hEntry with
          ⟨s, hFor, hEq⟩
        rw [← hEq, Option.mem_some_iff] at hIndex
        rw [← hIndex]
        exact Topology.slotFor_dropHolding_lt hFor

/- A holder refused late that held nothing lost nothing. -/
theorem dropHolding_of_not_disturbs
    {r : Registry}
    {node : Node}
    {now : ℚ}
    {preferRange : Option PreferRange}
    (hQuiet :
      ¬ r.Disturbs cfg (.register node now preferRange))
    (hReach : r.Reaches cfg node)
    (hHolder : node.orchestrator = false)
    (hEntry : r.entry cfg node preferRange = none) :
    r.topo.dropHolding node.nodeId = r.topo := by
  apply Topology.dropHolding_of_free
  intro slot hSlot hMem
  exact
    hQuiet ⟨hReach, Or.inl
      ⟨hHolder, (entry_eq_none hReach hHolder).mp hEntry,
        slot, hSlot, hMem⟩⟩

/- A node that enters quietly has a key. -/
theorem key_of_not_disturbs
    {r : Registry}
    {node : Node}
    {now : ℚ}
    {preferRange : Option PreferRange}
    (hQuiet :
      ¬ r.Disturbs cfg (.register node now preferRange))
    (hReach : r.Reaches cfg node)
    {slot : Option Nat}
    (hEntry : r.entry cfg node preferRange = some slot) :
    cfg.deriveNodeKey node.nodeId ≠ none := by
  intro hKey
  refine hQuiet ⟨hReach, Or.inr ⟨hKey, ?_⟩⟩
  cases hOrch : node.orchestrator with
  | true => exact Or.inl rfl
  | false =>
      refine Or.inr (fun hUnplaced => ?_)
      rw [(entry_eq_none hReach hOrch).mpr hUnplaced] at hEntry
      cases hEntry

/- What raises without disturbing changes no table. -/
theorem sameTables_of_raises
    {r : Registry}
    {op : RegistryOp}
    (hQuiet : ¬ r.Disturbs cfg op)
    (hRaises : r.Raises cfg op) :
    SameTables r (r.step cfg op) := by
  have hSame : r.step cfg op = r := by
    cases op with
    | register node now preferRange =>
        rcases hRaises with ⟨e, hError⟩
        rw [step]
        cases register_cases cfg node now preferRange r with
        | refused e' hReach hEnd => rw [hEnd]
        | dropped e' hReach hHolder hEntry hEnd =>
            rw [hEnd,
              dropHolding_of_not_disturbs hQuiet hReach
                hHolder hEntry]
        | entered slot assignment orchIndex hReach hEntry
            hSlot hEnd =>
            rcases Option.ne_none_iff_exists'.mp
              (key_of_not_disturbs hQuiet hReach hEntry) with
              ⟨key, hKey⟩
            rw [hEnd] at hError
            simp [grant, hKey] at hError
    | acquireRoute session =>
        rcases hRaises with ⟨e, hError⟩
        exact acquireRoute_atomic hError
    | restart =>
        rcases hRaises with ⟨e, hError⟩
        simp only [step, hError]
    | _ => exact hRaises.elim
  rw [hSame]
  exact ⟨rfl, rfl, rfl, rfl⟩

end Registry

end CircuitDllm

------------------------------------------------------------
-- Runs
------------------------------------------------------------

namespace CircuitDllm

namespace Registry

variable {cfg : RegistryConfig}

theorem tabled_grant
    {r : Registry}
    (hTabled : r.topo.Tabled)
    (node : Node)
    (assignment : Option (Int × Int))
    (orchIndex : Option Nat) :
    (r.grant cfg node assignment orchIndex).2.topo.Tabled := by
  refine
    hTabled.of_nodes
      (slots_grant cfg r node assignment orchIndex) (fun h => ?_)
  rw [Topology.tableSlot, get?_grant]
  split
  · cases hN : r.topo.nodes.get? h with
    | none => simp [Topology.tableSlot, hN]
    | some n => simp [Topology.tableSlot, hN]
  · rfl

/- An undisturbed operation keeps lists and table together. -/
theorem tabled_step
    {r : Registry}
    (hWf : r.topo.WellFormed)
    (hTabled : r.topo.Tabled)
    {op : RegistryOp}
    (hQuiet : ¬ r.Disturbs cfg op) :
    (r.step cfg op).topo.Tabled := by
  cases op with
  | register node now preferRange =>
      rw [step]
      cases register_cases cfg node now preferRange r with
      | refused e hReach hEnd =>
          rw [hEnd]
          exact hTabled
      | dropped e hReach hHolder hEntry hEnd =>
          rw [hEnd,
            dropHolding_of_not_disturbs hQuiet hReach hHolder
              hEntry]
          exact hTabled
      | entered slot assignment orchIndex hReach hEntry hSlot
          hEnd =>
          rw [hEnd]
          exact
            tabled_grant
              (hTabled.enter hWf node now
                (lt_of_entry hEntry))
              node assignment orchIndex
  | heartbeat nodeId now =>
      simp only [step, heartbeat, Topology.heartbeat]
      split
      · exact hTabled
      · split
        · exact hTabled
        · exact hTabled.modifyNode _ (fun _ => rfl)
  | drain nodeId =>
      exact hTabled.modifyNode nodeId (fun _ => rfl)
  | markReady nodeId =>
      refine hTabled.modifyNode nodeId (fun n => ?_)
      split
      · rfl
      · rfl
  | markSuspect nodeId =>
      refine hTabled.modifyNode nodeId (fun n => ?_)
      split
      · rfl
      · rfl
  | setTrusted nodeId =>
      exact hTabled.modifyNode nodeId (fun _ => rfl)
  | recordCheck nodeId ok promoteAfter strikeMax =>
      have hTopo :=
        hTabled.recordCheck nodeId ok promoteAfter strikeMax
      simp only [step, recordCheck]
      split
      · simpa using hTopo
      · exact hTopo
  | tick now =>
      exact (hTabled.reap now).purge (hWf.reap now) now
  | restart =>
      simp only [step]
      split
      · exact hTabled
      · rename_i r' hRestart
        exact Topology.tabled_create (restart_ok hRestart).1
  | setRtt nodeId ms => exact hTabled
  | acquireRoute session => simpa [step] using hTabled
  | releaseRoute session => exact hTabled
  | acquireEntry session => simpa [step] using hTabled
  | releaseEntry session => simpa [step] using hTabled
  | recordWork route paidRaw => simpa [step] using hTabled
  | settle minPayoutRaw => simpa [step] using hTabled
  | disk up => exact hTabled

end Registry

end CircuitDllm

------------------------------------------------------------
-- Operations of the Registry and of the Topology
------------------------------------------------------------

namespace CircuitDllm

/-
  An operation of the registry, or one of its topology that
  the registry does not just pass on.
-/
inductive TableOp where
  | registry (op : RegistryOp)
  | register
      (node : Node)
      (now : ℚ)
      (preferRange : Option PreferRange)
  | registerOrchestrator (node : Node) (now : ℚ)
  | recordCheck
      (nodeId : String)
      (ok : Bool)
      (promoteAfter strikeMax : Int)
  | reap (now : ℚ)
  | purge (now : ℚ)
  | remove (nodeId : String)

namespace TableOp

variable (cfg : RegistryConfig)

def step (r : Registry) : TableOp → Registry
| .registry op => r.step cfg op
| .register node now preferRange =>
    { r with
      topo := (r.topo.register node now preferRange).2 }
| .registerOrchestrator node now =>
    { r with topo := (r.topo.registerOrchestrator node now).2 }
| .recordCheck nodeId ok promoteAfter strikeMax =>
    { r with
      topo :=
        (r.topo.recordCheck nodeId ok promoteAfter
          strikeMax).2 }
| .reap now => { r with topo := (r.topo.reap now).2 }
| .purge now => { r with topo := (r.topo.purge now).2 }
| .remove nodeId => { r with topo := r.topo.remove nodeId }

def run (r : Registry) (ops : List TableOp) : Registry :=
  ops.foldl (step cfg) r

/- The events of a run, in order. -/
def trail (r : Registry) (ops : List TableOp) :
    List (Registry × TableOp) :=
  History.trail (step cfg) r ops

def Raises (r : Registry) : TableOp → Prop
| .registry op => r.Raises cfg op
| .register node now preferRange =>
    ∃ e, (r.topo.register node now preferRange).1 = .error e
| .registerOrchestrator node now =>
    ∃ e, (r.topo.registerOrchestrator node now).1 = .error e
| _ => False

/- A registration that fails after it changed the tables. -/
def Disturbs (r : Registry) : TableOp → Prop
| .registry op => r.Disturbs cfg op
| .register node _ preferRange =>
    r.topo.Disturbs node preferRange
| _ => False

variable {cfg : RegistryConfig} {r : Registry}

theorem wellFormed_step
    (hWf : r.topo.WellFormed)
    (op : TableOp) :
    (step cfg r op).topo.WellFormed := by
  cases op with
  | registry op => exact Registry.wellFormed_step cfg hWf op
  | register node now preferRange =>
      exact hWf.register node now preferRange
  | registerOrchestrator node now =>
      exact hWf.registerOrchestrator node now
  | recordCheck nodeId ok promoteAfter strikeMax =>
      exact hWf.recordCheck nodeId ok promoteAfter strikeMax
  | reap now => exact hWf.reap now
  | purge now => exact hWf.purge now
  | remove nodeId => exact hWf.remove nodeId

/- A quiet operation keeps lists and table together. -/
theorem tabled_step
    (hWf : r.topo.WellFormed)
    (hTabled : r.topo.Tabled)
    {op : TableOp}
    (hQuiet : ¬ Disturbs cfg r op) :
    (step cfg r op).topo.Tabled := by
  cases op with
  | registry op =>
      exact Registry.tabled_step hWf hTabled hQuiet
  | register node now preferRange =>
      rcases Topology.register_quiet hQuiet now with
        ⟨e, hEnd⟩ | ⟨slot, hLt, hEnd⟩
      · rw [step, hEnd]
        exact hTabled
      · rw [step, hEnd]
        refine hTabled.enter hWf node now (fun index hIndex => ?_)
        cases hIndex
        exact hLt
  | registerOrchestrator node now =>
      rcases r.topo.registerOrchestrator_cases node now with
        ⟨e, hEnd⟩ | hEnd
      · rw [step, hEnd]
        exact hTabled
      · rw [step, hEnd]
        refine hTabled.enter hWf node now (fun index hIndex => ?_)
        cases hIndex
  | recordCheck nodeId ok promoteAfter strikeMax =>
      exact hTabled.recordCheck nodeId ok promoteAfter strikeMax
  | reap now => exact hTabled.reap now
  | purge now => exact hTabled.purge hWf now
  | remove nodeId => exact hTabled.remove hWf nodeId

/- What raises quietly changes no table. -/
theorem sameTables_of_raises
    {op : TableOp}
    (hQuiet : ¬ Disturbs cfg r op)
    (hRaises : Raises cfg r op) :
    Registry.SameTables r (step cfg r op) := by
  cases op with
  | registry op =>
      exact Registry.sameTables_of_raises hQuiet hRaises
  | register node now preferRange =>
      rcases hRaises with ⟨e, hError⟩
      rcases Topology.register_quiet hQuiet now with
        ⟨e', hEnd⟩ | ⟨slot, _, hEnd⟩
      · rw [step, hEnd]
        exact ⟨rfl, rfl, rfl, rfl⟩
      · rw [hEnd] at hError
        cases hError
  | registerOrchestrator node now =>
      rcases hRaises with ⟨e, hError⟩
      rcases r.topo.registerOrchestrator_cases node now with
        ⟨e', hEnd⟩ | hEnd
      · rw [step, hEnd]
        exact ⟨rfl, rfl, rfl, rfl⟩
      · rw [hEnd] at hError
        cases hError
  | _ => exact hRaises.elim

/- What a run promises of lists and table. -/
structure Representation
    (cfg : RegistryConfig)
    (past : List (Registry × TableOp))
    (r : Registry) : Prop where
  represents : r.topo.Represents
  atomic :
    ∀ e ∈ past, Raises cfg e.1 e.2 →
      Registry.SameTables e.1 (step cfg e.1 e.2)

/- In a run that no registration disturbs it is kept. -/
theorem representation_run
    {r₀ : Registry}
    (hCreate : Registry.create cfg = .ok r₀)
    (ops : List TableOp)
    (hQuiet :
      ∀ e ∈ trail cfg r₀ ops, ¬ Disturbs cfg e.1 e.2) :
    Representation cfg (trail cfg r₀ ops)
      (run cfg r₀ ops) := by
  have hTabled₀ : r₀.topo.Tabled := by
    rcases Registry.create_ok hCreate with ⟨topo, hTopo, rfl⟩
    exact Topology.tabled_create hTopo
  have hRun :
      (run cfg r₀ ops).topo.WellFormed ∧
        (run cfg r₀ ops).topo.Tabled :=
    History.induction_of (step cfg)
      (fun e => ¬ Disturbs cfg e.1 e.2)
      (fun _ r => r.topo.WellFormed ∧ r.topo.Tabled)
      ⟨Registry.wellFormed_create cfg hCreate, hTabled₀⟩
      (fun _ r op hOp hInv =>
        ⟨wellFormed_step hInv.1 op,
          tabled_step hInv.1 hInv.2 hOp⟩)
      hQuiet
  exact
    { represents := hRun.2.represents hRun.1
      atomic := fun e hE hRaises =>
        sameTables_of_raises (hQuiet e hE) hRaises }

/- The seed node without capacity. -/
def emptySeed : Node :=
  { Registry.joining "seed" with capacityLayers := 0 }

/- It registers as it should, and then without capacity. -/
def shrunkSeed : List TableOp :=
  [.registry (.register (Registry.joining "seed") 0 none),
    .registry (.register emptySeed 1 none)]

/- The seed node holds its slot; a newcomer has no room. -/
def smallNewcomer : List TableOp :=
  [.registry (.register (Registry.joining "seed") 0 none),
    .registry (.markReady "seed"),
    .registry
      (.register
        { Registry.joining "other" with capacityLayers := 0 }
        1 none)]

/- The refused registration leaves the placed holder alone. -/
theorem representation_run_small :
    ∃ r₀,
      Registry.create Registry.oneSlot = .ok r₀ ∧
        Representation Registry.oneSlot
          (trail Registry.oneSlot r₀ smallNewcomer)
          (run Registry.oneSlot r₀ smallNewcomer) ∧
        (run Registry.oneSlot r₀ smallNewcomer).topo.slots.map
          (·.holders) = [["seed"]] ∧
        (run Registry.oneSlot r₀
          smallNewcomer).topo.nodes.get? "other" = none := by
  refine ⟨_, rfl, representation_run rfl _ ?_, by decide,
    by decide⟩
  intro e hE
  simp only [trail, History.trail, smallNewcomer,
    List.mem_cons, List.not_mem_nil, or_false] at hE
  rcases hE with rfl | rfl | rfl
  · rintro ⟨_, ⟨_, _, slot, hSlot, hMem⟩ | ⟨hKey, _⟩⟩
    · rw [List.mem_singleton.mp hSlot] at hMem
      exact absurd hMem List.not_mem_nil
    · cases hKey
  · exact id
  · rintro ⟨_, ⟨_, _, slot, hSlot, hMem⟩ | ⟨hKey, _⟩⟩
    · rw [List.mem_singleton.mp hSlot] at hMem
      exact absurd (List.mem_singleton.mp hMem) (by decide)
    · cases hKey

/- After the second one the table has a slot, no list has. -/
theorem shrunkSeed_tables :
    ∃ r₀,
      Registry.create Registry.oneSlot = .ok r₀ ∧
        (((run Registry.oneSlot r₀
            shrunkSeed).topo.nodes.get? "seed").bind
              (·.slot) = some 0 ∧
          (run Registry.oneSlot r₀ shrunkSeed).topo.slots.map
            (·.holders) = [[]]) :=
  ⟨_, rfl, by decide⟩

/- Not every run keeps lists and table together. -/
theorem exists_not_representation :
    ¬ ∀ (cfg : RegistryConfig) (r₀ : Registry)
        (ops : List TableOp),
      Registry.create cfg = .ok r₀ →
        Representation cfg (trail cfg r₀ ops)
          (run cfg r₀ ops) := by
  intro hAll
  rcases shrunkSeed_tables with
    ⟨r₀, hCreate, hTable, hLists⟩
  have hRep :=
    (hAll Registry.oneSlot r₀ shrunkSeed hCreate).represents
  rcases Option.bind_eq_some_iff.mp hTable with ⟨n, hN, hSlot⟩
  rcases (hRep.holds 0 "seed").mpr ⟨n, hN, hSlot⟩ with
    ⟨slot, hAt, hMem⟩
  have hNone : slot.holders ∈ [([] : List String)] := by
    rw [← hLists]
    exact
      List.mem_map.mpr ⟨slot, List.mem_of_getElem? hAt, rfl⟩
  rw [List.mem_singleton.mp hNone] at hMem
  exact absurd hMem List.not_mem_nil

end TableOp

end CircuitDllm
