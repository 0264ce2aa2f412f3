import CircuitDllm.Lib.Tiling
import CircuitDllm.Onchain.AuditAuthority

/-
  The layouts the chain accepts
  (onchain/programs/mesh_registry/src/lib.rs).

  `validate_topology` sorts the slots and compares
  neighbours.  That accepts exactly the lists, in any order,
  that have every layer in one slot; every configuration on
  the ledger is such a list, and its version counts the
  updates.

  Main declarations:
    * `Partitions`, `validateTopology_ok_iff`
    * `ConfigChange`, `MeshChain.configChange_step`
    * `config_partitions`
-/

------------------------------------------------------------
-- Validation
------------------------------------------------------------

namespace CircuitDllm.Onchain

/- The slot holds the layer. -/
def SlotRange.Holds (s : SlotRange) (layer : Nat) : Prop :=
  s.start.toNat ≤ layer ∧ layer < s.stop.toNat

instance (s : SlotRange) (layer : Nat) :
    Decidable (s.Holds layer) := by
  unfold SlotRange.Holds
  infer_instance

/- The slots partition [0, num_layers), within the limits. -/
structure Partitions
    (modelFp : String)
    (numLayers : UInt16)
    (replication : UInt8)
    (slots : List SlotRange) :
    Prop where
  modelFp_le : modelFp.utf8ByteSize ≤ 64
  numLayers_pos : 0 < numLayers
  replication_pos : 0 < replication
  one_le : 1 ≤ slots.length
  le_max : slots.length ≤ 32
  inside :
    ∀ s ∈ slots, s.start < s.stop ∧ s.stop ≤ numLayers
  exact :
    ∀ layer, layer < numLayers.toNat →
      slots.countP (fun s => s.Holds layer) = 1

/- The slot as a range of integers. -/
def SlotRange.range (s : SlotRange) : Int × Int :=
  (s.start.toNat, s.stop.toNat)

instance : Std.Total
    (fun s s' : SlotRange => s.start ≤ s'.start) where
  total s s' := UInt16.le_total s.start s'.start

instance : IsTrans SlotRange
    (fun s s' => s.start ≤ s'.start) where
  trans _ _ _ := UInt16.le_trans

variable {numLayers : UInt16} {slots : List SlotRange}

theorem within_range (layer : Nat) (s : SlotRange) :
    Tiling.Within layer s.range ↔ s.Holds layer := by
  simp [Tiling.Within, SlotRange.range, SlotRange.Holds]

/- The sorted slots cover what the slots cover. -/
theorem covered_sorted_iff :
    Tiling.Covered 0 numLayers.toNat
        ((slots.insertionSort (·.start ≤ ·.start)).map
          SlotRange.range) ↔
      ∀ layer, layer < numLayers.toNat →
        slots.countP (fun s => s.Holds layer) = 1 := by
  have hPerm := List.perm_insertionSort
    (fun s s' : SlotRange => s.start ≤ s'.start) slots
  have hCount : ∀ layer : Nat,
      ((slots.insertionSort (·.start ≤ ·.start)).map
          SlotRange.range).countP
            (Tiling.Within layer) =
        slots.countP (fun s => s.Holds layer) := by
    intro layer
    rw [List.countP_map, hPerm.countP_eq]
    apply List.countP_congr
    intro s _
    simp [within_range]
  refine ⟨?_, ?_⟩
  · intro hCovered layer hLt
    rw [← hCount]
    exact hCovered layer ⟨by simp, by simpa using hLt⟩
  · rintro hExact x ⟨hLow, hHigh⟩
    obtain ⟨layer, rfl⟩ := Int.eq_ofNat_of_zero_le hLow
    rw [hCount]
    exact hExact layer (by simpa using hHigh)

theorem toNat_eq_iff (a b : UInt16) :
    (a.toNat : Int) = b.toNat ↔ a = b := by
  rw [Int.ofNat_inj, UInt16.toNat_inj]

/- The checks of the sorted list are those of a tiling. -/
theorem coverage_iff
    (hSome : slots ≠ [])
    (hInside :
      ∀ s ∈ slots, s.start < s.stop ∧ s.stop ≤ numLayers) :
    ((slots.insertionSort
          (·.start ≤ ·.start)).head?.map (·.start) = some 0 ∧
        (∀ pair ∈
            (slots.insertionSort (·.start ≤ ·.start)).zip
              (slots.insertionSort (·.start ≤ ·.start)).tail,
          pair.2.start = pair.1.stop) ∧
        (slots.insertionSort
            (·.start ≤ ·.start)).getLast?.map (·.stop) =
          some numLayers) ↔
      ∀ layer, layer < numLayers.toNat →
        slots.countP (fun s => s.Holds layer) = 1 := by
  rw [← covered_sorted_iff]
  have hMem : ∀ s : SlotRange,
      s ∈ slots.insertionSort (·.start ≤ ·.start) ↔
        s ∈ slots := fun s => List.mem_insertionSort _
  have hOrder := List.pairwise_insertionSort
    (fun s s' : SlotRange => s.start ≤ s'.start) slots
  generalize slots.insertionSort (·.start ≤ ·.start) = sorted
    at hMem hOrder ⊢
  have hNonempty : sorted.map SlotRange.range ≠ [] := by
    intro hNil
    rcases List.exists_mem_of_ne_nil slots hSome with ⟨s, hS⟩
    have hIn := (hMem s).mpr hS
    rw [List.map_eq_nil_iff.mp hNil] at hIn
    cases hIn
  have hRange : ∀ r ∈ sorted.map SlotRange.range,
      0 ≤ r.1 ∧ r.1 < r.2 ∧ r.2 ≤ numLayers.toNat := by
    intro r hR
    rcases List.mem_map.mp hR with ⟨s, hS, rfl⟩
    rcases hInside s ((hMem s).mp hS) with ⟨hLt, hLe⟩
    rw [UInt16.lt_iff_toNat_lt] at hLt
    rw [UInt16.le_iff_toNat_le] at hLe
    simp only [SlotRange.range]
    omega
  rw [← Tiling.tiles_iff_covered (by omega) ?_
    (fun r hR => (hRange r hR).2.1)
    (fun r hR => ⟨(hRange r hR).1, (hRange r hR).2.2⟩)]
  · rw [Tiling.tiles_iff_adjacent hNonempty
      (fun r hR => le_of_lt (hRange r hR).2.1),
      ← List.map_tail, List.zip_map]
    simp only [List.head?_map, List.getLast?_map,
      Option.map_map, List.forall_mem_map]
    refine and_congr ?_ (and_congr ?_ ?_)
    · cases sorted.head? with
      | none => simp
      | some s =>
          simpa [SlotRange.range] using (toNat_eq_iff s.start 0).symm
    · refine forall₂_congr ?_
      intro pair _
      exact (toNat_eq_iff pair.2.start pair.1.stop).symm
    · cases sorted.getLast? with
      | none => simp
      | some s =>
          simpa [SlotRange.range] using
            (toNat_eq_iff s.stop numLayers).symm
  · rw [List.pairwise_map]
    apply hOrder.imp
    intro s s' hLe
    rw [UInt16.le_iff_toNat_le] at hLe
    simpa [SlotRange.range] using hLe

/- A requirement is met before the rest is looked at. -/
theorem require_bind_ok_iff
    {A : Type}
    {p : Prop} [Decidable p]
    {e : MeshError}
    {f : Unit → Except TxError A}
    {a : A} :
    (require p e >>= f) = .ok a ↔ p ∧ f () = .ok a := by
  by_cases hMet : p
  · simp [require, hMet, bind, Except.bind]
  · simp [require, hMet, bind, Except.bind]

theorem validateTopology_ok_iff
    (modelFp : String)
    (numLayers : UInt16)
    (replication : UInt8)
    (slots : List SlotRange) :
    validateTopology modelFp numLayers replication slots =
        .ok () ↔
      Partitions modelFp numLayers replication slots := by
  unfold validateTopology
  simp only [require_bind_ok_iff, require_ok_iff]
  refine ⟨?_, ?_⟩
  · rintro ⟨hFp, hLayers, hReplication, hSome, hMax, hInside,
      hFirst, hNext, hLast⟩
    refine ⟨hFp, hLayers, hReplication, ?_, hMax, hInside, ?_⟩
    · exact List.length_pos_iff.mpr hSome
    · exact
        (coverage_iff hSome hInside).mp ⟨hFirst, hNext, hLast⟩
  · intro hPartitions
    have hSome : slots ≠ [] :=
      List.length_pos_iff.mp hPartitions.one_le
    have hCoverage := (coverage_iff hSome
      hPartitions.inside).mpr hPartitions.exact
    exact
      ⟨hPartitions.modelFp_le, hPartitions.numLayers_pos,
        hPartitions.replication_pos, hSome,
        hPartitions.le_max, hPartitions.inside, hCoverage⟩

end CircuitDllm.Onchain

------------------------------------------------------------
-- Configurations on the Ledger
------------------------------------------------------------

namespace CircuitDllm.Onchain

variable {Key : Type} [DecidableEq Key]
variable {canonical : Seeds Key → UInt8}

/- The layout of a configuration is a partition. -/
def MeshConfig.Partitioned (config : MeshConfig Key) : Prop :=
  Partitions config.modelFp config.numLayers
    config.replication config.slots

def RegistryInstruction.isUpdateConfig :
    RegistryInstruction Key → Bool
| .updateConfig _ _ _ _ _ _ => true
| _ => false

/- An update_config that is accepted. -/
def Updates
    (canonical : Seeds Key → UInt8)
    (e : MeshChain Key × ChainTx Key) :
    Bool :=
  e.2.instruction.isUpdateConfig &&
    (e.1.accounts.process canonical e.2).isOk

/- What a transaction does to the configuration. -/
inductive ConfigChange
    (canonical : Seeds Key → UInt8)
    (w : MeshChain Key)
    (tx : ChainTx Key) :
    MeshChain Key → Prop where
| kept (w' : MeshChain Key) :
    w'.config? canonical = w.config? canonical →
    Updates canonical (w, tx) = false →
    ConfigChange canonical w tx w'
| initialized (config : MeshConfig Key) (w' : MeshChain Key) :
    w.config? canonical = none →
    w'.config? canonical = some config →
    config.Partitioned →
    config.version = 1 →
    Updates canonical (w, tx) = false →
    ConfigChange canonical w tx w'
| updated (old config : MeshConfig Key) (w' : MeshChain Key) :
    w.config? canonical = some old →
    w'.config? canonical = some config →
    config.Partitioned →
    config.version.toNat = old.version.toNat + 1 →
    Updates canonical (w, tx) = true →
    ConfigChange canonical w tx w'
| administered
    (old config : MeshConfig Key) (w' : MeshChain Key) :
    w.config? canonical = some old →
    w'.config? canonical = some config →
    (old.Partitioned → config.Partitioned) →
    config.version = old.version →
    Updates canonical (w, tx) = false →
    ConfigChange canonical w tx w'

namespace MeshChain

variable {w : MeshChain Key} {tx : ChainTx Key}

theorem config?_set_config
    (accounts : Accounts Key)
    (given : Key → Standing)
    (config : MeshConfig Key) :
    config? canonical
        { accounts :=
            accounts.set (Seeds.meshConfig.address canonical)
              (some (.config config))
          given := given } = some config := by
  unfold config?
  dsimp only
  rw [Accounts.set_self]
  rfl

theorem config?_set_node
    (accounts : Accounts Key)
    (given : Key → Standing)
    (key : Key)
    (data : Option (AccountData Key)) :
    config? canonical
        { accounts :=
            accounts.set ((Seeds.node key).address canonical)
              data
          given := given } =
      (accounts (Seeds.meshConfig.address canonical)).bind
        AccountData.config? := by
  have hNe :
      (Seeds.meshConfig : Seeds Key).address canonical ≠
        (Seeds.node key).address canonical := by
    intro hAddress
    simp [Seeds.address] at hAddress
  unfold config?
  dsimp only
  rw [Accounts.set_ne _ _ hNe]

/- Writing an administered configuration back. -/
theorem configChange_admin
    (hPlace : w.accounts.InPlace canonical)
    {address : Address Key}
    {authority : Key}
    {old config : MeshConfig Key}
    (hAdmin :
      adminConfig w.accounts tx.signers address authority =
        .ok old)
    (hOther : tx.instruction.isUpdateConfig = false)
    (hLayout : old.Partitioned → config.Partitioned)
    (hVersion : config.version = old.version)
    (given : Key → Standing) :
    ConfigChange canonical w tx
      { accounts :=
          w.accounts.set address (some (.config config))
        given := given } := by
  rcases adminConfig_ok_iff.mp hAdmin with ⟨hLoad, _⟩
  rw [(hPlace.config address old hLoad).1]
  apply ConfigChange.administered old config
  · exact config?_of_inPlace hPlace hLoad
  · exact config?_set_config _ _ _
  · exact hLayout
  · exact hVersion
  · simp [Updates, hOther]

/- Writing or closing a record leaves the configuration. -/
theorem configChange_node
    {address : Address Key}
    {key : Key}
    (hAddress : address = (Seeds.node key).address canonical)
    (hOther : tx.instruction.isUpdateConfig = false)
    (data : Option (AccountData Key))
    (given : Key → Standing) :
    ConfigChange canonical w tx
      { accounts := w.accounts.set address data
        given := given } := by
  rw [hAddress]
  apply ConfigChange.kept
  · exact config?_set_node _ _ _ _
  · simp [Updates, hOther]

/- Creating the configuration. -/
theorem configChange_initialize
    {config : Address Key}
    {authority : Key}
    {modelFp : String}
    {numLayers : UInt16}
    {replication : UInt8}
    {slots : List SlotRange}
    {accounts : Accounts Key}
    {events : List (RegistryEvent Key)}
    (hOther : tx.instruction.isUpdateConfig = false)
    (hProcess :
      w.accounts.initializeConfig canonical tx.signers config
          authority modelFp numLayers replication slots =
        .ok (accounts, events))
    (given : Key → Standing) :
    ConfigChange canonical w tx
      { accounts := accounts, given := given } := by
  rcases Accounts.initializeConfig_ok hProcess with
    ⟨hAddress, hFree, hValid, hAccounts⟩
  rw [hAccounts, hAddress]
  rw [hAddress] at hFree
  refine .initialized _ _ ?_ (config?_set_config _ _ _) ?_ rfl ?_
  · rw [MeshChain.config?, hFree]
    rfl
  · exact (validateTopology_ok_iff _ _ _ _).mp hValid
  · simp [Updates, hOther]

/- A new topology, with the next version. -/
theorem configChange_update
    (hPlace : w.accounts.InPlace canonical)
    {config : Address Key}
    {authority : Key}
    {modelFp : String}
    {numLayers : UInt16}
    {replication : UInt8}
    {slots : List SlotRange}
    {accounts : Accounts Key}
    {events : List (RegistryEvent Key)}
    (hUpdates : Updates canonical (w, tx) = true)
    (hProcess :
      w.accounts.updateConfig tx.signers config authority
          modelFp numLayers replication slots =
        .ok (accounts, events))
    (given : Key → Standing) :
    ConfigChange canonical w tx
      { accounts := accounts, given := given } := by
  rcases Accounts.updateConfig_ok hProcess with
    ⟨old, hAdmin, hValid, hRoom, hAccounts⟩
  rcases adminConfig_ok_iff.mp hAdmin with ⟨hLoad, _⟩
  have hAddress := (hPlace.config config old hLoad).1
  rw [hAccounts, hAddress]
  refine .updated old _ _ (config?_of_inPlace hPlace hLoad)
    (config?_set_config _ _ _) ?_ ?_ hUpdates
  · exact (validateTopology_ok_iff _ _ _ _).mp hValid
  · simp only [UInt32.toNat_add, UInt32.toNat_one]
    omega

/- Of the nine instructions four write the configuration. -/
theorem configChange_step
    (w : MeshChain Key)
    (tx : ChainTx Key)
    (hPlace : w.accounts.InPlace canonical) :
    ConfigChange canonical w tx (w.step canonical tx) := by
  rcases hProcess : w.accounts.process canonical tx with
    e | ⟨accounts, events⟩
  · rw [step_error hProcess]
    apply ConfigChange.kept
    · rfl
    · simp [Updates, hProcess, Except.isOk, Except.toBool]
  rw [step_ok hProcess]
  have hOk : (w.accounts.process canonical tx).isOk = true := by
    rw [hProcess]
    rfl
  rcases hInstruction : tx.instruction with
    ⟨config, authority, modelFp, numLayers, replication, slots⟩ |
    ⟨config, authority, modelFp, numLayers, replication, slots⟩ |
    ⟨config, authority, newAuthority⟩ |
    ⟨config, authority, newAuditor⟩ |
    ⟨node, signer, role, payoutWallet, stakePool⟩ |
    ⟨node, signer, role, payoutWallet, stakePool⟩ |
    ⟨config, node, auditor, trust⟩ |
    ⟨config, node, auditor, banned⟩ |
    ⟨node, signer⟩ <;>
    simp only [Accounts.process, hInstruction] at hProcess
  case initializeConfig =>
    exact
      configChange_initialize (by rw [hInstruction]; rfl)
        hProcess _
  case updateConfig =>
    refine configChange_update hPlace ?_ hProcess _
    rw [Updates, hInstruction, hOk]
    rfl
  case setAuthority =>
    rcases Accounts.setAuthority_ok hProcess with
      ⟨old, hAdmin, hAccounts⟩
    rw [hAccounts]
    apply configChange_admin hPlace hAdmin
    · rw [hInstruction]
      rfl
    · exact fun hOld => hOld
    · rfl
  case setAuditor =>
    rcases Accounts.setAuditor_ok hProcess with
      ⟨old, hAdmin, hAccounts⟩
    rw [hAccounts]
    apply configChange_admin hPlace hAdmin
    · rw [hInstruction]
      rfl
    · exact fun hOld => hOld
    · rfl
  case registerNode =>
    rcases Accounts.registerNode_ok hProcess with
      ⟨hAddress, _, _, hAccounts⟩
    rw [hAccounts]
    exact
      configChange_node hAddress (by rw [hInstruction]; rfl) _ _
  case updateNode =>
    rcases Accounts.updateNode_ok hProcess with
      ⟨old, hOwn, hAccounts⟩
    rcases ownNode_ok_iff.mp hOwn with ⟨hLoad, _⟩
    rw [hAccounts]
    exact
      configChange_node (hPlace.node node old hLoad).1
        (by rw [hInstruction]; rfl) _ _
  case setTrust =>
    rcases Accounts.setTrust_ok hProcess with
      ⟨old, hAudit, hAccounts⟩
    rcases auditNode_ok_iff.mp hAudit with ⟨_, _, hLoad, _⟩
    rw [hAccounts]
    exact
      configChange_node (hPlace.node node old hLoad).1
        (by rw [hInstruction]; rfl) _ _
  case setBan =>
    rcases Accounts.setBan_ok hProcess with
      ⟨old, hAudit, hAccounts⟩
    rcases auditNode_ok_iff.mp hAudit with ⟨_, _, hLoad, _⟩
    rw [hAccounts]
    exact
      configChange_node (hPlace.node node old hLoad).1
        (by rw [hInstruction]; rfl) _ _
  case deregisterNode =>
    rcases Accounts.deregisterNode_ok hProcess with
      ⟨old, hOwn, hAccounts⟩
    rcases ownNode_ok_iff.mp hOwn with ⟨hLoad, _⟩
    rw [hAccounts]
    exact
      configChange_node (hPlace.node node old hLoad).1
        (by rw [hInstruction]; rfl) _ _

end MeshChain

/- The updates of a run make the version of what is stored. -/
def Versioned
    (canonical : Seeds Key → UInt8)
    (past : List (MeshChain Key × ChainTx Key))
    (w : MeshChain Key) :
    Prop :=
  match w.config? canonical with
  | none => past.countP (Updates canonical) = 0
  | some config =>
    config.Partitioned ∧
      config.version.toNat =
        1 + past.countP (Updates canonical)

theorem ConfigChange.versioned
    {w w' : MeshChain Key}
    {tx : ChainTx Key}
    (hChange : ConfigChange canonical w tx w')
    {past : List (MeshChain Key × ChainTx Key)}
    (hPast : Versioned canonical past w) :
    Versioned canonical (past ++ [(w, tx)]) w' := by
  unfold Versioned at hPast ⊢
  rw [List.countP_append, List.countP_singleton]
  cases hChange with
  | kept _ hSame hNo =>
      rw [hSame, hNo]
      simpa using hPast
  | initialized config _ hNone hSome hValid hOne hNo =>
      rw [hNone] at hPast
      rw [hSome, hNo]
      simp only at hPast
      refine ⟨hValid, ?_⟩
      rw [hOne, hPast]
      rfl
  | updated old config _ hOld hSome hValid hNext hYes =>
      rw [hOld] at hPast
      rw [hSome, hYes]
      refine ⟨hValid, ?_⟩
      rw [hNext, hPast.2, if_pos rfl]
      omega
  | administered old config _ hOld hSome hLayout hSame hNo =>
      rw [hOld] at hPast
      rw [hSome, hNo]
      refine ⟨hLayout hPast.1, ?_⟩
      rw [hSame, hPast.2]
      simp

/- No transaction takes the configuration away. -/
theorem ConfigChange.isSome
    {w w' : MeshChain Key}
    {tx : ChainTx Key}
    (hChange : ConfigChange canonical w tx w')
    (hSome : (w.config? canonical).isSome) :
    (w'.config? canonical).isSome := by
  cases hChange with
  | kept _ hSame _ =>
      rw [hSame]
      exact hSome
  | initialized config _ _ hNow => rw [hNow, Option.isSome_some]
  | updated _ config _ _ hNow => rw [hNow, Option.isSome_some]
  | administered _ config _ _ hNow =>
      rw [hNow, Option.isSome_some]

theorem MeshChain.config?_isSome_run
    {w : MeshChain Key}
    (hPlace : w.accounts.InPlace canonical)
    (hSome : (w.config? canonical).isSome)
    (txs : List (ChainTx Key)) :
    ((txs.foldl (MeshChain.step canonical) w).config?
      canonical).isSome := by
  induction txs generalizing w with
  | nil => exact hSome
  | cons tx txs ih =>
      apply ih
      · exact (MeshChain.step_effect w tx hPlace).inPlace hPlace
      · exact
          (MeshChain.configChange_step w tx hPlace).isSome hSome

omit [DecidableEq Key] in
theorem MeshChain.inPlace_start :
    (start : MeshChain Key).accounts.InPlace canonical where
  config _ _ hStored := by cases hStored
  node _ _ hStored := by cases hStored

theorem versioned_start :
    Versioned canonical []
      (MeshChain.start : MeshChain Key) := by
  simp [Versioned, MeshChain.config?, MeshChain.start]

/-
  validate_topology accepts the partitions, in any order.
  After any transactions a configuration on the ledger is
  one, its version is one more than the updates, and it
  stays on the ledger.
-/
theorem config_partitions
    (canonical : Seeds Key → UInt8)
    (txs : List (ChainTx Key)) :
    (∀ modelFp numLayers replication slots,
      validateTopology modelFp numLayers replication slots =
          .ok () ↔
        Partitions modelFp numLayers replication slots) ∧
    (∀ address config,
      (txs.foldl (MeshChain.step canonical) .start).accounts
          address = some (.config config) →
        config.Partitioned ∧
          config.version.toNat =
            1 + (History.trail (MeshChain.step canonical)
              .start txs).countP (Updates canonical)) ∧
    ∀ later,
      ((txs.foldl (MeshChain.step canonical) .start).config?
          canonical).isSome →
        (((txs ++ later).foldl (MeshChain.step canonical)
          .start).config? canonical).isSome := by
  have hRun :=
    History.induction (MeshChain.step canonical)
      (fun past w =>
        w.accounts.InPlace canonical ∧
          Versioned canonical past w)
      ⟨MeshChain.inPlace_start, versioned_start⟩
      (fun past w tx hPast =>
        ⟨(MeshChain.step_effect w tx hPast.1).inPlace hPast.1,
          (MeshChain.configChange_step w tx hPast.1).versioned
            hPast.2⟩)
      txs
  refine ⟨validateTopology_ok_iff, ?_, ?_⟩
  · intro address config hStored
    have hConfig := MeshChain.config?_of_inPlace hRun.1 hStored
    have hVersioned := hRun.2
    rw [Versioned, hConfig] at hVersioned
    exact hVersioned
  · intro later hSome
    rw [List.foldl_append]
    exact MeshChain.config?_isSome_run hRun.1 hSome later

end CircuitDllm.Onchain
