import CircuitDllm.Mesh.TrustRouting
import CircuitDllm.Mesh.WellFormed

/-
  Which nodes are audited.

  The auditor is handed every PROBATION holder of a slot
  with a TRUSTED one, and no other node: once promoted a
  node is a reference, and nobody checks it any more.

  Main declarations:
    * `Registry.mem_auditPairs`
    * `Registry.Audited`, `Registry.audited_iff`
-/

------------------------------------------------------------
-- The Pairs
------------------------------------------------------------

namespace CircuitDllm

namespace Registry

variable {cfg : RegistryConfig} {r : Registry}

/- The reference is the first trusted holder of the slot. -/
def reference (r : Registry) (slot : Slot) : Option Node :=
  ((r.topo.holders slot.index).filter
    (fun n => n.trust = .trusted)).head?

theorem reference_eq_some
    {slot : Slot}
    {ref : Node}
    (hRef : r.reference slot = some ref) :
    ref ∈ r.topo.holders slot.index ∧ ref.trust = .trusted := by
  have hMem := List.mem_of_mem_head? hRef
  rw [List.mem_filter] at hMem
  exact ⟨hMem.1, of_decide_eq_true hMem.2⟩

theorem exists_reference
    {slot : Slot}
    {m : Node}
    (hMem : m ∈ r.topo.holders slot.index)
    (hTrust : m.trust = .trusted) :
    ∃ ref, r.reference slot = some ref := by
  have hIn : m ∈ (r.topo.holders slot.index).filter
      (fun n => n.trust = .trusted) :=
    List.mem_filter.mpr ⟨hMem, decide_eq_true hTrust⟩
  rw [reference, ← Option.isSome_iff_exists,
    List.isSome_head?]
  simpa using List.isEmpty_eq_false_iff.mpr
    (List.ne_nil_of_mem hIn)

/- A pair is a PROBATION holder and its slot's reference. -/
theorem mem_auditPairs
    {test ref : String}
    {index : Nat} :
    (test, ref, index) ∈ r.auditPairs ↔
      ∃ slot ∈ r.topo.slots, slot.index = index ∧
        ∃ p ∈ r.topo.holders slot.index,
          p.trust = .probation ∧ p.nodeId = test ∧
            ∃ m, r.reference slot = some m ∧
              m.nodeId = ref := by
  rw [auditPairs, List.mem_flatMap]
  apply exists_congr
  intro slot
  apply and_congr_right
  intro hSlot
  rw [reference]
  cases hTrusted : (r.topo.holders slot.index).filter
      (fun n => n.trust = .trusted) with
  | nil => simp [hTrusted]
  | cons m rest =>
      simp only [hTrusted, List.mem_map, List.mem_filter,
        decide_eq_true_eq, Prod.mk.injEq, List.head?_cons,
        Option.some.injEq, exists_eq_left']
      constructor
      · rintro ⟨p, ⟨hMem, hTrust⟩, hTest, hRef, hIndex⟩
        exact ⟨hIndex, p, hMem, hTrust, hTest, hRef⟩
      · rintro ⟨hIndex, p, hMem, hTrust, hTest, hRef⟩
        exact ⟨p, ⟨hMem, hTrust⟩, hTest, hRef, hIndex⟩

/- A holder is the table's entry for its id. -/
theorem holder_unique
    (hReach : Reachable cfg r)
    {slot slot' : Slot}
    (hSlot : slot ∈ r.topo.slots)
    (hSlot' : slot' ∈ r.topo.slots)
    {n m : Node}
    (hN : n ∈ r.topo.holders slot.index)
    (hM : m ∈ r.topo.holders slot'.index)
    (hId : n.nodeId = m.nodeId) :
    n = m := by
  have hWf := hReach.wellFormed
  have hGet := (holder_slot hWf hSlot hN).2.1
  have hGet' := (holder_slot hWf hSlot' hM).2.1
  rw [← hId, hGet] at hGet'
  exact Option.some.inj hGet'

end Registry

end CircuitDllm

------------------------------------------------------------
-- Who Keeps Being Checked
------------------------------------------------------------

namespace CircuitDllm

namespace Registry

/-
  Every READY holder of a slot with another READY TRUSTED
  holder is tested against a TRUSTED one.
-/
def Audited (r : Registry) : Prop :=
  ∀ slot ∈ r.topo.slots,
    ∀ n ∈ r.topo.holders slot.index,
      (∃ m ∈ r.topo.holders slot.index,
        m.nodeId ≠ n.nodeId ∧ m.trust = .trusted) →
      ∃ ref ∈ r.topo.holders slot.index,
        ref.nodeId ≠ n.nodeId ∧ ref.trust = .trusted ∧
          (n.nodeId, ref.nodeId, slot.index) ∈ r.auditPairs

/- Some slot has two READY TRUSTED holders. -/
def TwiceTrusted (r : Registry) : Prop :=
  ∃ slot ∈ r.topo.slots,
    ∃ n ∈ r.topo.holders slot.index,
      ∃ m ∈ r.topo.holders slot.index,
        n.nodeId ≠ m.nodeId ∧
          n.trust = .trusted ∧ m.trust = .trusted

variable {cfg : RegistryConfig} {r : Registry}

/- A trusted holder is never the tested node. -/
theorem not_tested_of_trusted
    (hReach : Reachable cfg r)
    {slot : Slot}
    (hSlot : slot ∈ r.topo.slots)
    {n : Node}
    (hN : n ∈ r.topo.holders slot.index)
    (hTrust : n.trust = .trusted)
    (ref : String)
    (index : Nat) :
    (n.nodeId, ref, index) ∉ r.auditPairs := by
  intro hPair
  rcases mem_auditPairs.mp hPair with
    ⟨slot', hSlot', -, p, hP, hProbation, hId, -⟩
  obtain rfl : p = n :=
    holder_unique hReach hSlot' hSlot hP hN hId
  rw [hTrust] at hProbation
  cases hProbation

/- A probation holder is tested if there is a reference. -/
theorem tested_of_probation
    {slot : Slot}
    (hSlot : slot ∈ r.topo.slots)
    {n m : Node}
    (hN : n ∈ r.topo.holders slot.index)
    (hProbation : n.trust = .probation)
    (hM : m ∈ r.topo.holders slot.index)
    (hTrust : m.trust = .trusted) :
    ∃ ref ∈ r.topo.holders slot.index,
      ref.trust = .trusted ∧
        (n.nodeId, ref.nodeId, slot.index) ∈ r.auditPairs := by
  rcases exists_reference hM hTrust with ⟨ref, hRef⟩
  rcases reference_eq_some hRef with ⟨hMem, hRefTrust⟩
  refine ⟨ref, hMem, hRefTrust, mem_auditPairs.mpr ?_⟩
  exact ⟨slot, hSlot, rfl, n, hN, hProbation, rfl, ref, hRef,
    rfl⟩

/- Two trusted holders would have to check each other. -/
theorem not_audited_of_twiceTrusted
    (hReach : Reachable cfg r)
    (hTwice : r.TwiceTrusted) :
    ¬ r.Audited := by
  rcases hTwice with ⟨slot, hSlot, n, hN, m, hM, hNe, hTn, hTm⟩
  intro hAudited
  rcases hAudited slot hSlot n hN ⟨m, hM, hNe.symm, hTm⟩ with
    ⟨ref, -, -, -, hPair⟩
  exact not_tested_of_trusted hReach hSlot hN hTn _ _ hPair

/-
  In a state the control plane can be in, holders keep being
  checked exactly when no slot has two trusted ones: those
  would have to check each other.
-/
theorem audited_iff
    {cfg : RegistryConfig}
    {r : Registry}
    (hReach : Reachable cfg r) :
    r.Audited ↔ ¬ r.TwiceTrusted := by
  constructor
  · intro hAudited hTwice
    exact not_audited_of_twiceTrusted hReach hTwice hAudited
  · intro hOnce slot hSlot n hN hOther
    rcases hOther with ⟨m, hM, hNe, hTm⟩
    cases hTn : n.trust with
    | trusted =>
        exact absurd ⟨slot, hSlot, n, hN, m, hM, hNe.symm, hTn,
          hTm⟩ hOnce
    | probation =>
        rcases tested_of_probation hSlot hN hTn hM hTm with
          ⟨ref, hRef, hTrust, hPair⟩
        refine ⟨ref, hRef, ?_, hTrust, hPair⟩
        intro hId
        obtain rfl : ref = n :=
          holder_unique hReach hSlot hSlot hRef hN hId
        rw [hTn] at hTrust
        cases hTrust

/- A newcomer beside the seed of the slot, both serving. -/
def newcomer : List RegistryOp :=
  [.register (joining "seed") 0 none,
    .register (joining "other") 0 none,
    .markReady "seed",
    .markReady "other"]

/- The seed checks the newcomer. -/
theorem audited_iff_seed :
    ∃ r₀,
      create oneSlot = .ok r₀ ∧
        (r₀.run oneSlot newcomer).auditPairs =
          [("other", "seed", 0)] ∧
        ((r₀.run oneSlot newcomer).Audited ↔
          ¬ (r₀.run oneSlot newcomer).TwiceTrusted) := by
  refine ⟨_, rfl, ?_, audited_iff ⟨_, newcomer, rfl, rfl⟩⟩
  decide +kernel

/- Two seeds on one slot, both serving. -/
def twoSeeds : List RegistryOp :=
  [.register (joining "seed") 0 none,
    .register (joining "other") 0 none,
    .markReady "seed",
    .markReady "other",
    .setTrusted "other"]

/- Nobody checks either of them. -/
theorem not_audited_twoSeeds :
    ∃ r, Reachable oneSlot r ∧ ¬ r.Audited := by
  refine ⟨_, ⟨_, twoSeeds, rfl, rfl⟩, ?_⟩
  apply @not_audited_of_twiceTrusted oneSlot
  · exact ⟨_, twoSeeds, rfl, rfl⟩
  · refine ⟨_, List.mem_cons_self, ?_⟩
    decide +kernel

end Registry

end CircuitDllm
