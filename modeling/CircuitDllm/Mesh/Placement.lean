import CircuitDllm.Lib.Balance
import CircuitDllm.Mesh.Churn

/-
  Which slot a joining node is given.

  `_pick_slot` takes the slot with the fewest committed
  holders.  While no node dies or drains this keeps the
  slots of a fleet that fits all of them level; a slot whose
  holders are all leaving may lose to one that is served.

  Main declarations:
    * `Topology.register_placed`, `Topology.pickSlot_spec`
    * `PlacementOp`, `Topology.placeAll`
    * `Topology.balanced_placeAll`
    * `Topology.fillsHole_iff`
-/

------------------------------------------------------------
-- The Slot That Is Picked
------------------------------------------------------------

namespace CircuitDllm

namespace Topology

variable {t : Topology} {node : Node} {now : ℚ}

/- The node can hold the slot. -/
def Fits (node : Node) (slot : Slot) : Prop :=
  slot.size ≤ node.capacityLayers

instance (node : Node) (slot : Slot) :
    Decidable (Fits node slot) := by
  unfold Fits
  infer_instance

/- The order in which slots are filled. -/
theorem pickSlot_spec
    {slot : Slot}
    (hPick : t.pickSlot node = some slot) :
    slot ∈ t.slots ∧ Fits node slot ∧
      ∀ s ∈ t.slots, Fits node s →
        toLex (t.committedCount slot, slot.index) ≤
          toLex (t.committedCount s, s.index) := by
  have hMem := List.mem_filter.mp (List.argmin_mem hPick)
  refine ⟨hMem.1, ?_, ?_⟩
  · simpa [Fits] using hMem.2
  · intro s hS hFits
    have hIn : s ∈ t.slots.filter (fun s =>
        s.size ≤ node.capacityLayers) := by
      refine List.mem_filter.mpr ⟨hS, ?_⟩
      simpa [Fits] using hFits
    exact
      List.le_of_mem_argmin
        (f := fun s => toLex (t.committedCount s, s.index))
        hIn hPick

theorem exists_pickSlot
    {slot : Slot}
    (hSlot : slot ∈ t.slots)
    (hFits : Fits node slot) :
    ∃ s, t.pickSlot node = some s := by
  apply Option.ne_none_iff_exists'.mp
  intro hNone
  rw [pickSlot, List.argmin_eq_none,
    List.filter_eq_nil_iff] at hNone
  apply hNone slot hSlot
  simpa [Fits] using hFits

/- A node of the model that asks for no range. -/
theorem register_placed
    (hModel : node.modelFp = t.modelFp)
    {slot : Slot}
    (hPick :
      (t.dropHolding node.nodeId).pickSlot node = some slot) :
    t.register node now none =
      (.ok slot,
        (t.dropHolding node.nodeId).enroll node slot.index
          now) := by
  simp [register, slotFor, hModel, hPick]

/- A refusal for capacity comes after the holding is gone. -/
theorem register_unplaced
    (hModel : node.modelFp = t.modelFp)
    (hPick :
      (t.dropHolding node.nodeId).pickSlot node = none) :
    t.register node now none =
      (.error .noSlot, t.dropHolding node.nodeId) := by
  simp [register, slotFor, hModel, hPick]

/- A node with another model is refused. -/
theorem register_mismatch
    (hModel : node.modelFp ≠ t.modelFp)
    (preferRange : Option PreferRange) :
    t.register node now preferRange =
      (.error (.modelMismatch node.modelFp t.modelFp), t) := by
  simp [register, hModel]

end Topology

end CircuitDllm

------------------------------------------------------------
-- Holders by Place
------------------------------------------------------------

namespace CircuitDllm

namespace Topology

variable {t : Topology} {node : Node}

/- The holders of the i-th slot. -/
def held (t : Topology) (i : Nat) : List String :=
  ((t.slots[i]?).map (·.holders)).getD []

/- How many they are. -/
def heldCount (t : Topology) (i : Nat) : Nat :=
  (t.held i).length

theorem held_index
    {slot : Slot}
    (hSlot : slot ∈ t.slots) :
    t.held slot.index = slot.holders := by
  rw [held, t.getElem?_index hSlot]
  rfl

theorem index_lt
    {slot : Slot}
    (hSlot : slot ∈ t.slots) :
    slot.index < t.slots.length :=
  (List.getElem?_eq_some_iff.mp (t.getElem?_index hSlot)).1

/- What is held is held by a slot of the topology. -/
theorem exists_slot_of_held
    {h : String}
    {i : Nat}
    (hHeld : h ∈ t.held i) :
    ∃ slot ∈ t.slots, slot.index = i ∧ h ∈ slot.holders := by
  rw [held] at hHeld
  cases hSlot : t.slots[i]? with
  | none =>
      rw [hSlot] at hHeld
      cases hHeld
  | some slot =>
      rw [hSlot] at hHeld
      exact
        ⟨slot, List.mem_of_getElem? hSlot,
          t.index_of_getElem? hSlot, hHeld⟩

theorem held_mapHolders
    (f : Slot → List String)
    (i : Nat) :
    (t.mapHolders f).held i =
      ((t.slots[i]?).map f).getD [] := by
  simp only [held, mapHolders, List.getElem?_map,
    Option.map_map]
  rfl

theorem held_dropHolding (nodeId : String) (i : Nat) :
    (t.dropHolding nodeId).held i =
      (t.held i).erase nodeId := by
  rw [dropHolding, held_mapHolders, held]
  cases t.slots[i]? with
  | none => rfl
  | some slot => rfl

theorem held_enroll
    (index : Nat)
    (now : ℚ)
    (i : Nat) :
    (t.enroll node index now).held i =
      if i = index ∧ i < t.slots.length then
        t.held i ++ [node.nodeId]
      else t.held i := by
  rw [enroll, held_mapHolders, held]
  cases hSlot : t.slots[i]? with
  | none =>
      have hOut := List.getElem?_eq_none_iff.mp hSlot
      simp [hOut]
  | some slot =>
      have hIn := (List.getElem?_eq_some_iff.mp hSlot).1
      have hIndex := t.index_of_getElem? hSlot
      simp only [Option.map_some, Option.getD_some, hIndex,
        hIn, and_true]

@[simp] theorem length_mapHolders (f : Slot → List String) :
    (t.mapHolders f).slots.length = t.slots.length :=
  List.length_map _

/- Two slots never share a holder that is known. -/
theorem WellFormed.held_unique
    (hWf : t.WellFormed)
    (hListed : t.Listed)
    {h : String}
    {i j : Nat}
    (hI : h ∈ t.held i)
    (hJ : h ∈ t.held j) :
    i = j := by
  rcases exists_slot_of_held hI with ⟨s, hS, rfl, hIn⟩
  rcases exists_slot_of_held hJ with ⟨s', hS', rfl, hIn'⟩
  rcases Option.isSome_iff_exists.mp (hListed s hS h hIn) with
    ⟨n, hN⟩
  have hOne := hWf.slotOf s hS h hIn n hN
  have hTwo := hWf.slotOf s' hS' h hIn' n hN
  exact Option.some.inj (hOne.symm.trans hTwo)

end Topology

end CircuitDllm

------------------------------------------------------------
-- Runs Without Deaths
------------------------------------------------------------

namespace CircuitDllm

/- Nodes join and rejoin, beat, come up and are suspected. -/
inductive PlacementOp where
  | register (node : Node) (now : ℚ)
  | heartbeat (nodeId : String) (now : ℚ)
  | markReady (nodeId : String)
  | markSuspect (nodeId : String)

namespace Topology

variable {t t₀ : Topology}

/- The topology an operation leaves. -/
def place (t : Topology) : PlacementOp → Topology
| .register node now => (t.register node now none).2
| .heartbeat nodeId now => (t.heartbeat nodeId now).2
| .markReady nodeId => t.markReady nodeId
| .markSuspect nodeId => t.markSuspect nodeId

def placeAll (t : Topology) (ops : List PlacementOp) :
    Topology :=
  ops.foldl place t

/- The node an operation admits, if it does. -/
def admitted (t : Topology) : PlacementOp → Option String
| .register node now =>
    match (t.register node now none).1 with
    | .ok _ => some node.nodeId
    | .error _ => none
| .heartbeat _ _ => none
| .markReady _ => none
| .markSuspect _ => none

/- The ids of the nodes that joined in a run. -/
def joined (t : Topology) : List PlacementOp → List String
| [] => []
| op :: ops => (t.admitted op).toList ++ (t.place op).joined ops

/- A node that registers can hold every slot. -/
def FitsAll (t : Topology) : PlacementOp → Prop
| .register node _ => ∀ slot ∈ t.slots, Fits node slot
| .heartbeat _ _ => True
| .markReady _ => True
| .markSuspect _ => True

/- No node of the table is DEAD. -/
def Alive (t : Topology) : Prop :=
  ∀ h n, t.nodes.get? h = some n → n.state ≠ .dead

/- What holds between the operations of such a run. -/
structure Seated (t₀ t : Topology) : Prop where
  wf : t.WellFormed
  listed : t.Listed
  alive : t.Alive
  sizes : t.slots.map (·.size) = t₀.slots.map (·.size)
  level :
    Balanced (Set.Iio t.slots.length) t.heldCount

/- All holders are committed while nobody is DEAD. -/
theorem committedCount_eq_length
    (hListed : t.Listed)
    (hAlive : t.Alive)
    {slot : Slot}
    (hSlot : slot ∈ t.slots) :
    t.committedCount slot = slot.holders.length := by
  apply List.countP_eq_length.mpr
  intro h hMem
  rcases Option.isSome_iff_exists.mp
      (hListed slot hSlot h hMem) with ⟨n, hN⟩
  simpa [hN] using hAlive h n hN

theorem seated_create
    {l : Layout}
    (hCreate : create l = .ok t) :
    Seated t t where
  wf := wellFormed_create hCreate
  listed := listed_create hCreate
  alive h n hN := by
    rw [create_nodes hCreate] at hN
    cases hN
  sizes := rfl
  level := by
    apply Balanced.of_zero
    intro i _
    rw [heldCount, List.length_eq_zero_iff,
      List.eq_nil_iff_forall_not_mem]
    intro h hHeld
    rcases exists_slot_of_held hHeld with ⟨s, hS, -, hIn⟩
    rw [create_holders hCreate hS] at hIn
    cases hIn

/- A change of the nodes that kills none leaves the slots. -/
theorem Seated.modifyNode
    (hSeated : Seated t₀ t)
    (nodeId : String)
    {f : Node → Node}
    (hId : ∀ n, (f n).nodeId = n.nodeId)
    (hSlot : ∀ n, (f n).slot = n.slot)
    (hState : ∀ n, n.state ≠ .dead → (f n).state ≠ .dead) :
    Seated t₀ (t.modifyNode nodeId f) where
  wf := hSeated.wf.modifyNode nodeId hId hSlot
  listed := hSeated.listed.modifyNode nodeId f
  alive h n hN := by
    rw [get?_modifyNode] at hN
    split at hN
    · rcases Option.map_eq_some_iff.mp hN with ⟨m, hM, rfl⟩
      exact hState m (hSeated.alive h m hM)
    · exact hSeated.alive h n hN
  sizes := hSeated.sizes
  level := hSeated.level

/- The slots keep their sizes, so a node still fits them. -/
theorem Seated.fitsAll
    (hSeated : Seated t₀ t)
    {node : Node}
    (hFits : ∀ slot ∈ t₀.slots, Fits node slot) :
    ∀ slot ∈ t.slots, Fits node slot := by
  intro slot hSlot
  have hSize : slot.size ∈ t.slots.map (·.size) :=
    List.mem_map_of_mem hSlot
  rw [hSeated.sizes] at hSize
  rcases List.mem_map.mp hSize with ⟨s, hS, hEq⟩
  have hFit := hFits s hS
  rw [Fits, hEq] at hFit
  exact hFit

theorem Seated.fitsAll_op
    (hSeated : Seated t₀ t)
    {op : PlacementOp}
    (hFits : t₀.FitsAll op) :
    t.FitsAll op := by
  cases op with
  | register node now => exact hSeated.fitsAll hFits
  | heartbeat nodeId now => trivial
  | markReady nodeId => trivial
  | markSuspect nodeId => trivial

/- With nobody DEAD the picked slot has the fewest holders. -/
theorem held_pickSlot_le
    (hListed : t.Listed)
    (hAlive : t.Alive)
    {node : Node}
    (hFits : ∀ slot ∈ t.slots, Fits node slot)
    {slot : Slot}
    (hPick : t.pickSlot node = some slot) :
    ∀ i ∈ Set.Iio t.slots.length,
      t.heldCount slot.index ≤ t.heldCount i := by
  intro i hI
  rcases pickSlot_spec hPick with ⟨hSlot, -, hLeast⟩
  have hAt : t.slots[i]? = some (t.slots.get ⟨i, hI⟩) :=
    List.getElem?_eq_getElem hI
  have hMem := List.mem_of_getElem? hAt
  have hLe := hLeast _ hMem (hFits _ hMem)
  rw [committedCount_eq_length hListed hAlive hSlot,
    committedCount_eq_length hListed hAlive hMem] at hLe
  rw [heldCount, heldCount, held_index hSlot,
    ← t.index_of_getElem? hAt, held_index hMem]
  rcases Prod.Lex.toLex_le_toLex.mp hLe with hLess | hSame
  · exact Nat.le_of_lt hLess
  · exact Nat.le_of_eq hSame.1

/- Dropping a holding takes one holder from its slot. -/
theorem heldCount_dropHolding
    (nodeId : String)
    (i : Nat) :
    (t.dropHolding nodeId).heldCount i =
      t.heldCount i -
        if nodeId ∈ t.held i then 1 else 0 := by
  rw [heldCount, held_dropHolding, List.length_erase]
  split
  · rfl
  · rfl

theorem heldCount_enroll
    (node : Node)
    {index : Nat}
    (hIndex : index < t.slots.length)
    (now : ℚ)
    (i : Nat) :
    (t.enroll node index now).heldCount i =
      t.heldCount i + if i = index then 1 else 0 := by
  rw [heldCount, heldCount, held_enroll]
  by_cases hEq : i = index
  · subst hEq
    simp [hIndex]
  · simp [hEq]

/-
  A node leaves its slot, if it held one, and is put on the
  slot with the fewest holders: the slots are level again.
-/
theorem Seated.enroll
    (hSeated : Seated t₀ t)
    {node : Node}
    (hFits : ∀ slot ∈ t₀.slots, Fits node slot)
    {slot : Slot}
    (hPick :
      (t.dropHolding node.nodeId).pickSlot node = some slot)
    (now : ℚ) :
    Seated t₀
      ((t.dropHolding node.nodeId).enroll node slot.index
        now) := by
  have hListed := hSeated.listed.dropHolding node.nodeId
  have hAlive : (t.dropHolding node.nodeId).Alive :=
    hSeated.alive
  have hFitsNow :
      ∀ s ∈ (t.dropHolding node.nodeId).slots,
        Fits node s := by
    intro s hS
    rcases mem_mapHolders.mp hS with ⟨s₀, hS₀, rfl⟩
    exact hSeated.fitsAll hFits s₀ hS₀
  have hLeast :=
    held_pickSlot_le hListed hAlive hFitsNow hPick
  have hIndex := index_lt (pickSlot_spec hPick).1
  have hLength :
      (t.dropHolding node.nodeId).slots.length =
        t.slots.length := length_mapHolders _
  refine ⟨?_, ?_, ?_, ?_, ?_⟩
  · exact
      (hSeated.wf.dropHolding node.nodeId).enroll node _ now
        (fun _ hSlot =>
          hSeated.wf.not_mem_dropHolding node.nodeId hSlot)
  · exact hListed.enroll node _ now
  · intro h n hN
    rw [get?_enroll] at hN
    split at hN
    · cases hN
      exact NodeState.noConfusion
    · exact hSeated.alive h n hN
  · simpa [Topology.enroll, dropHolding, mapHolders,
      Function.comp_def, Slot.size] using hSeated.sizes
  · have hNow :
        ((t.dropHolding node.nodeId).enroll node slot.index
          now).slots.length = t.slots.length :=
      (length_mapHolders _).trans hLength
    rw [hNow]
    rw [hLength] at hLeast hIndex
    have hPut := fun i =>
      heldCount_enroll node (hLength.symm ▸ hIndex) now i
    have hDrop := heldCount_dropHolding (t := t) node.nodeId
    by_cases hHeld :
        ∃ j, j < t.slots.length ∧ node.nodeId ∈ t.held j
    · rcases hHeld with ⟨j, hJ, hIn⟩
      refine hSeated.level.move hIndex hJ ?_ ?_ ?_ hLeast ?_ ?_
      · rw [hDrop j]
        split
        · omega
        · omega
      · rw [hDrop j]
        exact Nat.sub_le _ _
      · intro i _ hNe
        have hOut : node.nodeId ∉ t.held i := by
          intro hMem
          exact hNe (hSeated.wf.held_unique hSeated.listed
            hMem hIn)
        rw [hDrop i, if_neg hOut, Nat.sub_zero]
      · simpa using hPut slot.index
      · intro i _ hNe
        simpa [hNe] using hPut i
    · have hSame : ∀ i ∈ Set.Iio t.slots.length,
          (t.dropHolding node.nodeId).heldCount i =
            t.heldCount i := by
        intro i hI
        have hOut : node.nodeId ∉ t.held i := by
          intro hMem
          exact hHeld ⟨i, hI, hMem⟩
        rw [hDrop i, if_neg hOut, Nat.sub_zero]
      refine (hSeated.level.congr hSame).add hIndex hLeast ?_ ?_
      · simpa using hPut slot.index
      · intro i _ hNe
        simpa [hNe] using hPut i

/- Only a mesh without slots has none for such a node. -/
theorem slots_of_unplaced
    {node : Node}
    (hFits : ∀ slot ∈ t.slots, Fits node slot)
    (hPick :
      (t.dropHolding node.nodeId).pickSlot node = none) :
    t.slots = [] := by
  rw [List.eq_nil_iff_forall_not_mem]
  intro s hS
  have hMem :
      { s with holders := s.holders.erase node.nodeId } ∈
        (t.dropHolding node.nodeId).slots :=
    mem_mapHolders.mpr ⟨s, hS, rfl⟩
  rcases exists_pickSlot hMem (hFits s hS) with ⟨s', hSome⟩
  rw [hPick] at hSome
  cases hSome

/- A registration keeps the slots level. -/
theorem Seated.register
    (hSeated : Seated t₀ t)
    {node : Node}
    (hFits : ∀ slot ∈ t₀.slots, Fits node slot)
    (now : ℚ) :
    Seated t₀ (t.register node now none).2 := by
  by_cases hModel : node.modelFp = t.modelFp
  · cases hPick :
        (t.dropHolding node.nodeId).pickSlot node with
    | some slot =>
        rw [register_placed hModel hPick]
        exact hSeated.enroll hFits hPick now
    | none =>
        have hEmpty :=
          slots_of_unplaced (hSeated.fitsAll hFits) hPick
        rw [register_unplaced hModel hPick]
        refine ⟨?_, ?_, hSeated.alive, ?_, ?_⟩
        · exact hSeated.wf.dropHolding node.nodeId
        · exact hSeated.listed.dropHolding node.nodeId
        · simpa [dropHolding, mapHolders, Function.comp_def,
            Slot.size] using hSeated.sizes
        · intro i hI
          simp [dropHolding, mapHolders, hEmpty] at hI
  · rw [register_mismatch hModel]
    exact hSeated

theorem seated_place
    (hSeated : Seated t₀ t)
    (op : PlacementOp)
    (hFits : t₀.FitsAll op) :
    Seated t₀ (t.place op) := by
  cases op with
  | register node now => exact hSeated.register hFits now
  | heartbeat nodeId now =>
      simp only [place, heartbeat]
      split
      · exact hSeated
      · split
        · exact hSeated
        · apply hSeated.modifyNode
          · intro n
            rfl
          · intro n
            rfl
          · intro n hState
            simp only
            split
            · exact NodeState.noConfusion
            · exact hState
  | markReady nodeId =>
      apply hSeated.modifyNode
      · intro n
        split <;> rfl
      · intro n
        split <;> rfl
      · intro n hState
        split
        · exact NodeState.noConfusion
        · exact hState
  | markSuspect nodeId =>
      apply hSeated.modifyNode
      · intro n
        split <;> rfl
      · intro n
        split <;> rfl
      · intro n hState
        split
        · exact NodeState.noConfusion
        · exact hState

theorem seated_placeAll
    (hSeated : Seated t₀ t)
    (ops : List PlacementOp)
    (hFits : ∀ op ∈ ops, t₀.FitsAll op) :
    Seated t₀ (t.placeAll ops) := by
  induction ops generalizing t with
  | nil => exact hSeated
  | cons op ops ih =>
      have hStep :=
        seated_place hSeated op (hFits op List.mem_cons_self)
      apply ih hStep
      intro op' hMem
      exact hFits op' (List.mem_cons_of_mem _ hMem)

@[simp] theorem held_modifyNode
    (nodeId : String)
    (f : Node → Node)
    (i : Nat) :
    (t.modifyNode nodeId f).held i = t.held i := rfl

/- An admitted node holds a slot, the others keep theirs. -/
theorem exists_held_register
    {node : Node}
    (hFits : ∀ slot ∈ t.slots, Fits node slot)
    (now : ℚ)
    {h : String}
    (hHeld :
      (∃ i, h ∈ t.held i) ∨
        t.admitted (.register node now) = some h) :
    ∃ i, h ∈ (t.register node now none).2.held i := by
  by_cases hModel : node.modelFp = t.modelFp
  · cases hPick :
        (t.dropHolding node.nodeId).pickSlot node with
    | none =>
        -- nothing is held and nothing is admitted
        exfalso
        have hEmpty := slots_of_unplaced hFits hPick
        simp [held, hEmpty, admitted,
          register_unplaced hModel hPick] at hHeld
    | some slot =>
        have hIndex := index_lt (pickSlot_spec hPick).1
        rw [register_placed hModel hPick]
        by_cases hEq : h = node.nodeId
        · refine ⟨slot.index, ?_⟩
          rw [held_enroll, if_pos ⟨rfl, hIndex⟩, hEq]
          exact List.mem_append_right _ List.mem_cons_self
        · rcases hHeld with ⟨i, hOld⟩ | hNew
          · refine ⟨i, ?_⟩
            have hKept :
                h ∈ (t.dropHolding node.nodeId).held i := by
              rw [held_dropHolding]
              exact (List.mem_erase_of_ne hEq).mpr hOld
            rw [held_enroll]
            split
            · exact List.mem_append_left _ hKept
            · exact hKept
          · simp only [admitted,
              register_placed hModel hPick] at hNew
            exact absurd (Option.some.inj hNew).symm hEq
  · rw [register_mismatch hModel]
    simpa [admitted, register_mismatch hModel] using hHeld

theorem exists_held_place
    (op : PlacementOp)
    (hFits : t.FitsAll op)
    {h : String}
    (hHeld :
      (∃ i, h ∈ t.held i) ∨ t.admitted op = some h) :
    ∃ i, h ∈ (t.place op).held i := by
  cases op with
  | register node now =>
      exact exists_held_register hFits now hHeld
  | heartbeat nodeId now =>
      simp only [admitted, reduceCtorEq, or_false] at hHeld
      simp only [place, heartbeat]
      split
      · exact hHeld
      · split
        · exact hHeld
        · exact hHeld
  | markReady nodeId =>
      simpa [admitted, place, markReady] using hHeld
  | markSuspect nodeId =>
      simpa [admitted, place, markSuspect] using hHeld

/- Every node that joined in a run holds a slot at its end. -/
theorem exists_held_of_joined
    (hSeated : Seated t₀ t)
    (ops : List PlacementOp)
    (hFits : ∀ op ∈ ops, t₀.FitsAll op)
    {h : String}
    (hHeld : (∃ i, h ∈ t.held i) ∨ h ∈ t.joined ops) :
    ∃ i, h ∈ (t.placeAll ops).held i := by
  induction ops generalizing t with
  | nil => simpa [joined, placeAll] using hHeld
  | cons op ops ih =>
      have hFit := hFits op List.mem_cons_self
      have hRest : ∀ op' ∈ ops, t₀.FitsAll op' := by
        intro op' hMem
        exact hFits op' (List.mem_cons_of_mem _ hMem)
      apply ih (seated_place hSeated op hFit) hRest
      rw [joined, List.mem_append, Option.mem_toList,
        ← or_assoc] at hHeld
      rcases hHeld with hNow | hLater
      · exact Or.inl
          (exists_held_place op (hSeated.fitsAll_op hFit) hNow)
      · exact Or.inr hLater

theorem Seated.length_slots (hSeated : Seated t₀ t) :
    t.slots.length = t₀.slots.length := by
  simpa using congrArg List.length hSeated.sizes

/- The nodes that hold a slot are counted by the slots. -/
theorem card_le_sum_heldCount
    {ids : Finset String}
    (hHeld : ∀ h ∈ ids, ∃ i, h ∈ t.held i) :
    ids.card ≤
      ∑ i ∈ Finset.range t.slots.length, t.heldCount i := by
  have hCover :
      ids ⊆ (Finset.range t.slots.length).biUnion
        (fun i => (t.held i).toFinset) := by
    intro h hMem
    rcases hHeld h hMem with ⟨i, hIn⟩
    rcases exists_slot_of_held hIn with ⟨s, hS, rfl, -⟩
    rw [Finset.mem_biUnion]
    exact
      ⟨s.index, Finset.mem_range.mpr (index_lt hS),
        List.mem_toFinset.mpr hIn⟩
  calc
    ids.card ≤ _ := Finset.card_le_card hCover
    _ ≤ _ := Finset.card_biUnion_le
    _ ≤ _ := by
      apply Finset.sum_le_sum
      intro i _
      exact List.toFinset_card_le _

/-
  While no node dies or drains, the committed counts of two
  slots differ by at most one, and once `r` nodes for each
  slot have joined, every slot has at least `r` holders.
-/
theorem balanced_placeAll
    {l : Layout}
    (hCreate : create l = .ok t₀)
    (ops : List PlacementOp)
    (hFits : ∀ op ∈ ops, t₀.FitsAll op) :
    (∀ slot ∈ (t₀.placeAll ops).slots,
      ∀ slot' ∈ (t₀.placeAll ops).slots,
        (t₀.placeAll ops).committedCount slot ≤
          (t₀.placeAll ops).committedCount slot' + 1) ∧
      ∀ r,
        t₀.slots.length * r ≤ (t₀.joined ops).dedup.length →
          ∀ slot ∈ (t₀.placeAll ops).slots,
            r ≤ (t₀.placeAll ops).committedCount slot := by
  have hStart := seated_create hCreate
  have hSeated := seated_placeAll hStart ops hFits
  have hCount : ∀ slot ∈ (t₀.placeAll ops).slots,
      (t₀.placeAll ops).committedCount slot =
        (t₀.placeAll ops).heldCount slot.index := by
    intro slot hSlot
    rw [committedCount_eq_length hSeated.listed hSeated.alive
      hSlot, heldCount, held_index hSlot]
  refine ⟨?_, ?_⟩
  · intro slot hSlot slot' hSlot'
    rw [hCount slot hSlot, hCount slot' hSlot']
    exact
      hSeated.level _ (index_lt hSlot) _ (index_lt hSlot')
  · intro r hJoined slot hSlot
    rw [hCount slot hSlot]
    have hTotal :=
      @card_le_sum_heldCount (t₀.placeAll ops)
        (t₀.joined ops).toFinset (by
          intro h hMem
          exact
            exists_held_of_joined hStart ops hFits
              (Or.inr (List.mem_toFinset.mp hMem)))
    have hPlaces :
        Balanced
          (Finset.range (t₀.placeAll ops).slots.length)
          (t₀.placeAll ops).heldCount := by
      rw [Finset.coe_range]
      exact hSeated.level
    apply hPlaces.le_of_total
    · refine le_trans ?_ hTotal
      rw [Finset.card_range, hSeated.length_slots]
      exact hJoined
    · exact Finset.mem_range.mpr (index_lt hSlot)

open Registry

/- Two stages of one layer each. -/
def twoStages : Layout where
  numLayers := 2
  coordinatorEnd := 0
  numStages := 2
  modelFp := "m"

def twoSlots : Topology where
  numLayers := 2
  coordinatorEnd := 0
  modelFp := "m"
  replication := 2
  deadAfterS := 30
  coordinatorRegion := none
  routeByLatency := false
  rtts := .empty
  nodes := .empty
  slots := [⟨0, 0, 1, []⟩, ⟨1, 1, 2, []⟩]
  indexed := rfl

theorem create_twoStages :
    create twoStages = .ok twoSlots := rfl

/- Two nodes join, and one of them comes back. -/
def joinAndRejoin : List PlacementOp :=
  [.register (joining "a") 0, .register (joining "b") 1,
    .markReady "a", .register (joining "a") 2]

theorem balanced_joinAndRejoin :
    twoSlots.joined joinAndRejoin = ["a", "b", "a"] ∧
      ∀ slot ∈ (twoSlots.placeAll joinAndRejoin).slots,
        1 ≤ (twoSlots.placeAll joinAndRejoin).committedCount
          slot := by
  have hJoined :
      twoSlots.joined joinAndRejoin = ["a", "b", "a"] := by
    decide
  have hFits : ∀ op ∈ joinAndRejoin, twoSlots.FitsAll op := by
    intro op hOp
    simp only [joinAndRejoin, List.mem_cons,
      List.not_mem_nil, or_false] at hOp
    rcases hOp with rfl | rfl | rfl | rfl
    · simp [FitsAll, twoSlots, Fits, Slot.size, joining]
    · simp [FitsAll, twoSlots, Fits, Slot.size, joining]
    · trivial
    · simp [FitsAll, twoSlots, Fits, Slot.size, joining]
  refine ⟨hJoined, ?_⟩
  apply (balanced_placeAll create_twoStages joinAndRejoin
    hFits).2 1
  rw [hJoined]
  decide

end Topology

end CircuitDllm

------------------------------------------------------------
-- Slots Without a Server
------------------------------------------------------------

namespace CircuitDllm

namespace Topology

variable {t : Topology} {node : Node}

/- The node serves its slot, or is about to. -/
def Serves (n : Node) : Bool :=
  n.state = .joining ∨ n.state = .ready ∨ n.state = .suspect

/- The holders that serve the slot, or are about to. -/
def servingCount (t : Topology) (slot : Slot) : Nat :=
  slot.holders.countP (fun h => (t.nodes.get? h).any Serves)

/- The holders that are leaving it. -/
def drainingCount (t : Topology) (slot : Slot) : Nat :=
  slot.holders.countP (fun h =>
    (t.nodes.get? h).any (fun n => n.state = .draining))

/- The slot without a server goes before the other one. -/
def HoleFirst (t : Topology) (hole served : Slot) : Prop :=
  t.drainingCount hole <
      t.servingCount served + t.drainingCount served ∨
    t.drainingCount hole =
        t.servingCount served + t.drainingCount served ∧
      hole.index < served.index

instance (t : Topology) (hole served : Slot) :
    Decidable (t.HoleFirst hole served) := by
  unfold HoleFirst
  infer_instance

/- A slot without a server gets the node, if it fits one. -/
def FillsHole (t : Topology) (node : Node) (now : ℚ) : Prop :=
  (∃ slot ∈ t.slots, Fits node slot ∧
      t.servingCount slot = 0) →
    ∃ slot ∈ t.slots,
      (t.register node now none).1 = .ok slot ∧
        t.servingCount slot = 0

/- Leaving holders are committed too. -/
theorem committedCount_eq (t : Topology) (slot : Slot) :
    t.committedCount slot =
      t.servingCount slot + t.drainingCount slot := by
  unfold committedCount servingCount drainingCount
  induction slot.holders with
  | nil => rfl
  | cons h holders ih =>
      simp only [List.countP_cons, ih]
      cases t.nodes.get? h with
      | none =>
          simp only [Option.any_none, Bool.false_eq_true,
            if_false]
          omega
      | some n =>
          cases hState : n.state <;>
            simp [Serves, hState] <;> omega

/- A hole is before a served slot in the order of filling. -/
theorem holeFirst_iff
    {hole served : Slot}
    (hHole : t.servingCount hole = 0) :
    t.HoleFirst hole served ↔
      toLex (t.committedCount hole, hole.index) <
        toLex (t.committedCount served, served.index) := by
  rw [Prod.Lex.toLex_lt_toLex, committedCount_eq,
    committedCount_eq, hHole, Nat.zero_add, HoleFirst]

/-
  The node gets a slot without a server exactly when it fits
  none, or some such slot goes before every served one.
-/
theorem fillsHole_iff_of_free
    (hFree : ∀ slot ∈ t.slots, node.nodeId ∉ slot.holders)
    (hModel : node.modelFp = t.modelFp)
    (now : ℚ) :
    t.FillsHole node now ↔
      (∀ slot ∈ t.slots, Fits node slot →
        t.servingCount slot ≠ 0) ∨
      ∀ served ∈ t.slots, Fits node served →
        t.servingCount served ≠ 0 →
          ∃ hole ∈ t.slots, Fits node hole ∧
            t.servingCount hole = 0 ∧
            t.HoleFirst hole served := by
  have hDrop := dropHolding_of_free hFree
  refine ⟨?_, ?_⟩
  · intro hFills
    by_cases hHole : ∃ slot ∈ t.slots, Fits node slot ∧
        t.servingCount slot = 0
    · refine Or.inr ?_
      rcases hFills hHole with ⟨hole, hSlot, hOk, hZero⟩
      rcases hHole with ⟨hole', hSlot', hFits', -⟩
      rcases exists_pickSlot hSlot' hFits' with ⟨slot, hPick⟩
      rw [register_placed hModel (hDrop.symm ▸ hPick)] at hOk
      obtain rfl := Except.ok.inj hOk
      rcases pickSlot_spec hPick with ⟨-, hFit, hLeast⟩
      intro served hIn hFits hServed
      refine ⟨slot, hSlot, hFit, hZero, ?_⟩
      rw [holeFirst_iff hZero]
      apply lt_of_le_of_ne (hLeast served hIn hFits)
      -- the same place would be the same slot
      intro hSame
      have hIndex : slot.index = served.index :=
        congrArg (fun p => (ofLex p).2) hSame
      have hAt := t.getElem?_index hSlot
      rw [hIndex, t.getElem?_index hIn] at hAt
      obtain rfl := Option.some.inj hAt
      exact hServed hZero
    · refine Or.inl ?_
      intro slot hSlot hFits hZero
      exact hHole ⟨slot, hSlot, hFits, hZero⟩
  · intro hCond hHole
    rcases hHole with ⟨hole, hSlot, hFits, hZero⟩
    rcases exists_pickSlot hSlot hFits with ⟨slot, hPick⟩
    rcases pickSlot_spec hPick with ⟨hPicked, hFit, hLeast⟩
    have hOk : (t.register node now none).1 = .ok slot := by
      rw [register_placed hModel (hDrop.symm ▸ hPick)]
    refine ⟨slot, hPicked, hOk, ?_⟩
    by_contra hServed
    rcases hCond with hNone | hFirst
    · exact hNone hole hSlot hFits hZero
    · rcases hFirst slot hPicked hFit hServed with
        ⟨hole', hSlot', hFits', hZero', hBefore⟩
      rw [holeFirst_iff hZero'] at hBefore
      exact absurd (hLeast hole' hSlot' hFits')
        (not_le_of_gt hBefore)

end Topology

namespace Registry

variable (cfg : RegistryConfig)

/- A joiner of any control plane fills the hole, or not. -/
theorem fillsHole_iff
    {r : Registry}
    (hReach : Reachable cfg r)
    {node : Node}
    (hNew : r.topo.nodes.get? node.nodeId = none)
    (hModel : node.modelFp = r.topo.modelFp)
    (now : ℚ) :
    r.topo.FillsHole node now ↔
      (∀ slot ∈ r.topo.slots, Topology.Fits node slot →
        r.topo.servingCount slot ≠ 0) ∨
      ∀ served ∈ r.topo.slots, Topology.Fits node served →
        r.topo.servingCount served ≠ 0 →
          ∃ hole ∈ r.topo.slots, Topology.Fits node hole ∧
            r.topo.servingCount hole = 0 ∧
            r.topo.HoleFirst hole served := by
  apply Topology.fillsHole_iff_of_free
  · intro slot hSlot hMem
    have hSome := hReach.listed slot hSlot _ hMem
    rw [hNew] at hSome
    cases hSome
  · exact hModel

def twoStageMesh : RegistryConfig where
  layout := Topology.twoStages

/- Slot 1 is uncovered, slot 0 is served. -/
def oneServed : List RegistryOp :=
  [.register (joining "a") 0 none, .markReady "a"]

theorem fillsHole_oneServed :
    ∃ r₀, create twoStageMesh = .ok r₀ ∧
      (r₀.run twoStageMesh oneServed).topo.FillsHole
        (joining "c") 1 := by
  refine ⟨_, rfl, ?_⟩
  refine (fillsHole_iff twoStageMesh ⟨_, oneServed, rfl, rfl⟩
    ?_ ?_ 1).mpr ?_
  · decide
  · rfl
  · decide

/- Slot 0 is served, and the holder of slot 1 is leaving. -/
def oneLeaving : List RegistryOp :=
  [.register (joining "a") 0 none,
    .register (joining "b") 0 none, .markReady "a",
    .markReady "b", .drain "b"]

/- The joiner is the second server of slot 0. -/
theorem exists_not_fillsHole :
    ¬ ∀ (cfg : RegistryConfig) (r : Registry) (node : Node)
        (now : ℚ),
      Reachable cfg r → r.topo.nodes.get? node.nodeId = none →
        node.modelFp = r.topo.modelFp →
          r.topo.FillsHole node now := by
  intro hAll
  have hFills :=
    hAll twoStageMesh _ (joining "c") 1
      ⟨_, oneLeaving, rfl, rfl⟩ (by decide) rfl
  rw [Topology.fillsHole_iff_of_free (by decide) rfl]
    at hFills
  exact absurd hFills (by decide)

end Registry

end CircuitDllm
