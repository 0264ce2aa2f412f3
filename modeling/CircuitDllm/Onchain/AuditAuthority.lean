import CircuitDllm.Lib.History
import CircuitDllm.Onchain.MeshRegistry

/-
  Who decides about trust and bans on chain
  (onchain/programs/mesh_registry/src/lib.rs,
  docs/ONCHAIN_CONTROL_PLANE.md).

  A record's trust level and ban are its standing.  The
  auditor sets them, and beside the ledger `MeshChain` keeps
  what the auditor gave an identity last, also while the
  identity has no record.  A closed record can be created
  again by its owner, with the standing of a new one: that
  is what `Revives` says of a transaction.

  Main declarations:
    * `Standing`, `MeshChain`
    * `Effect`, `step_effect`
    * `Authoritative`, `Revives`
    * `authoritative_iff`
-/

------------------------------------------------------------
-- Standings
------------------------------------------------------------

namespace CircuitDllm.Onchain

/- What the auditor decides about an identity. -/
structure Standing where
  trust : TrustLevel
  banned : Bool
deriving DecidableEq, Repr

/- The standing of a new record. -/
def Standing.fresh : Standing := ⟨.probation, false⟩

def NodeRecord.standing
    {Key : Type}
    (record : NodeRecord Key) :
    Standing :=
  ⟨record.trust, record.banned⟩

/- The ledger, and what the auditor gave each identity last. -/
structure MeshChain (Key : Type) where
  accounts : Accounts Key
  given : Key → Standing

/- The record an instruction decides about, and how. -/
def RegistryInstruction.verdict
    {Key : Type} :
    RegistryInstruction Key →
      Option (Address Key × (Standing → Standing))
| .setTrust _ node _ trust =>
    some (node, fun standing => { standing with trust := trust })
| .setBan _ node _ banned =>
    some (node, fun standing => { standing with banned := banned })
| _ => none

variable {Key : Type} [DecidableEq Key]

namespace MeshChain

/- Nothing is on the ledger. -/
def start : MeshChain Key where
  accounts := fun _ => none
  given := fun _ => .fresh

/- What an accepted instruction gives. -/
def give
    (w : MeshChain Key)
    (instruction : RegistryInstruction Key) :
    Key → Standing :=
  match instruction.verdict with
  | none => w.given
  | some (address, change) =>
    match w.accounts address with
    | some (.node record) => fun key =>
        if key = record.node then change (w.given key)
        else w.given key
    | _ => w.given

/- A transaction that fails changes nothing. -/
def step
    (canonical : Seeds Key → UInt8)
    (w : MeshChain Key)
    (tx : ChainTx Key) :
    MeshChain Key :=
  match w.accounts.process canonical tx with
  | .error _ => w
  | .ok (accounts, _) =>
      { accounts := accounts, given := w.give tx.instruction }

end MeshChain

/- The address `init` derives. -/
def Seeds.address
    (canonical : Seeds Key → UInt8)
    (seeds : Seeds Key) :
    Address Key :=
  .pda seeds (canonical seeds)

def AccountData.config? :
    AccountData Key → Option (MeshConfig Key)
| .config cfg => some cfg
| .node _ => none

def AccountData.node? :
    AccountData Key → Option (NodeRecord Key)
| .node record => some record
| .config _ => none

namespace MeshChain

variable (canonical : Seeds Key → UInt8)

def config? (w : MeshChain Key) : Option (MeshConfig Key) :=
  (w.accounts (Seeds.meshConfig.address canonical)).bind
    AccountData.config?

def record?
    (w : MeshChain Key)
    (key : Key) :
    Option (NodeRecord Key) :=
  (w.accounts ((Seeds.node key).address canonical)).bind
    AccountData.node?

/- An identity without a record keeps what it was given. -/
def standing (w : MeshChain Key) (key : Key) : Standing :=
  match w.record? canonical key with
  | some record => record.standing
  | none => w.given key

/- The current auditor signed. -/
def SignedByAuditor
    (w : MeshChain Key)
    (tx : ChainTx Key) :
    Prop :=
  ∃ config,
    w.config? canonical = some config ∧
      config.auditor ∈ tx.signers

end MeshChain

/-
  In a run, standings change only in transactions that the
  current auditor signed, and every record has the standing
  its identity was given last.  So a banned identity is
  recorded as banned until it is unbanned, and none becomes
  trusted by itself.
-/
structure Authoritative
    (canonical : Seeds Key → UInt8)
    (txs : List (ChainTx Key)) :
    Prop where
  changes :
    ∀ e ∈ History.trail (MeshChain.step canonical) .start txs,
      ∀ key,
        (e.1.step canonical e.2).standing canonical key ≠
            e.1.standing canonical key →
          e.1.SignedByAuditor canonical e.2
  given :
    ∀ e ∈ History.trail (MeshChain.step canonical) .start txs,
      ∀ key,
        (e.1.step canonical e.2).given key ≠ e.1.given key →
          e.1.SignedByAuditor canonical e.2
  recorded :
    ∀ e ∈ History.trail (MeshChain.step canonical) .start txs,
      ∀ key record,
        (e.1.step canonical e.2).record? canonical key =
            some record →
          record.standing =
            (e.1.step canonical e.2).given key

/-
  An identity that has no record, and was given another
  standing than a new one's, registers.
-/
def Revives
    (canonical : Seeds Key → UInt8)
    (w : MeshChain Key)
    (tx : ChainTx Key) :
    Prop :=
  ∃ key role payoutWallet stakePool,
    tx.instruction =
        .registerNode ((Seeds.node key).address canonical) key
          role payoutWallet stakePool ∧
      key ∈ tx.signers ∧
      w.accounts ((Seeds.node key).address canonical) = none ∧
      w.given key ≠ .fresh

end CircuitDllm.Onchain

------------------------------------------------------------
-- What the Checks Say
------------------------------------------------------------

namespace CircuitDllm.Onchain

/- A computation that does not fail, step by step. -/
theorem bind_ok_iff
    {E A B : Type}
    {x : Except E A}
    {f : A → Except E B}
    {b : B} :
    (x >>= f) = .ok b ↔ ∃ a, x = .ok a ∧ f a = .ok b := by
  cases x <;> simp [bind, Except.bind]

theorem pure_ok_iff
    {E A : Type}
    {a b : A} :
    (pure a : Except E A) = .ok b ↔ a = b := by
  simp [pure, Except.pure]

variable {Key : Type}

@[simp] theorem Accounts.loadConfig_ok_iff
    {accounts : Accounts Key}
    {address : Address Key}
    {config : MeshConfig Key} :
    accounts.loadConfig address = .ok config ↔
      accounts address = some (.config config) := by
  unfold Accounts.loadConfig
  split <;> simp [*]

@[simp] theorem Accounts.loadNode_ok_iff
    {accounts : Accounts Key}
    {address : Address Key}
    {record : NodeRecord Key} :
    accounts.loadNode address = .ok record ↔
      accounts address = some (.node record) := by
  unfold Accounts.loadNode
  split <;> simp [*]

variable [DecidableEq Key]

@[simp] theorem require_ok_iff
    {p : Prop} [Decidable p]
    {e : MeshError}
    {u : Unit} :
    require p e = .ok u ↔ p := by
  unfold require
  split <;> simp [*]

@[simp] theorem checkSigner_ok_iff
    {signers : List Key}
    {key : Key}
    {u : Unit} :
    checkSigner signers key = .ok u ↔ key ∈ signers := by
  unfold checkSigner
  split <;> simp [*]

@[simp] theorem checkSeeds_ok_iff
    {address : Address Key}
    {seeds : Seeds Key}
    {bump : UInt8}
    {u : Unit} :
    checkSeeds address seeds bump = .ok u ↔
      address = .pda seeds bump := by
  unfold checkSeeds
  split <;> simp [*]

@[simp] theorem checkInit_ok_iff
    {canonical : Seeds Key → UInt8}
    {accounts : Accounts Key}
    {address : Address Key}
    {seeds : Seeds Key}
    {u : Unit} :
    checkInit canonical accounts address seeds = .ok u ↔
      address = seeds.address canonical ∧
        accounts address = none := by
  unfold checkInit Seeds.address
  split
  · split
    · next hAddress _ hNone =>
        exact iff_of_true rfl ⟨hAddress, hNone⟩
    · next hAddress _ _ hSome =>
        simp [hSome]
  · next hAddress => simp [hAddress]

theorem adminConfig_ok_iff
    {accounts : Accounts Key}
    {signers : List Key}
    {address : Address Key}
    {authority : Key}
    {config : MeshConfig Key} :
    adminConfig accounts signers address authority =
        .ok config ↔
      accounts address = some (.config config) ∧
        authority ∈ signers ∧
        address = .pda .meshConfig config.bump ∧
        config.authority = authority := by
  simp only [adminConfig, bind_ok_iff, checkSigner_ok_iff,
    checkSeeds_ok_iff, require_ok_iff, pure_ok_iff,
    Accounts.loadConfig_ok_iff, exists_const]
  constructor
  · rintro ⟨config', hLoad, hSigned, hSeeds, hAuthority, rfl⟩
    exact ⟨hLoad, hSigned, hSeeds, hAuthority⟩
  · rintro ⟨hLoad, hSigned, hSeeds, hAuthority⟩
    exact ⟨config, hLoad, hSigned, hSeeds, hAuthority, rfl⟩

theorem ownNode_ok_iff
    {accounts : Accounts Key}
    {signers : List Key}
    {address : Address Key}
    {signer : Key}
    {record : NodeRecord Key} :
    ownNode accounts signers address signer = .ok record ↔
      accounts address = some (.node record) ∧
        signer ∈ signers ∧
        address = .pda (.node signer) record.bump := by
  simp only [ownNode, bind_ok_iff, checkSigner_ok_iff,
    checkSeeds_ok_iff, pure_ok_iff, Accounts.loadNode_ok_iff,
    exists_const]
  constructor
  · rintro ⟨record', hLoad, hSigned, hSeeds, rfl⟩
    exact ⟨hLoad, hSigned, hSeeds⟩
  · rintro ⟨hLoad, hSigned, hSeeds⟩
    exact ⟨record, hLoad, hSigned, hSeeds, rfl⟩

theorem auditNode_ok_iff
    {accounts : Accounts Key}
    {signers : List Key}
    {configAddress address : Address Key}
    {auditor : Key}
    {record : NodeRecord Key} :
    auditNode accounts signers configAddress address auditor =
        .ok record ↔
      ∃ config,
        accounts configAddress = some (.config config) ∧
          accounts address = some (.node record) ∧
          auditor ∈ signers ∧
          configAddress = .pda .meshConfig config.bump ∧
          address = .pda (.node record.node) record.bump ∧
          auditor = config.auditor := by
  simp only [auditNode, bind_ok_iff, checkSigner_ok_iff,
    checkSeeds_ok_iff, require_ok_iff, pure_ok_iff,
    Accounts.loadConfig_ok_iff, Accounts.loadNode_ok_iff,
    exists_const]
  constructor
  · rintro
      ⟨config, hConfig, record', hLoad, hSigned, hSeeds,
        hSeeds', hAuditor, rfl⟩
    exact
      ⟨config, hConfig, hLoad, hSigned, hSeeds, hSeeds',
        hAuditor⟩
  · rintro
      ⟨config, hConfig, hLoad, hSigned, hSeeds, hSeeds',
        hAuditor⟩
    exact
      ⟨config, hConfig, record, hLoad, hSigned, hSeeds,
        hSeeds', hAuditor, rfl⟩

namespace Accounts

variable
  {canonical : Seeds Key → UInt8}
  {accounts accounts' : Accounts Key}
  {signers : List Key}
  {now : Int64}
  {config node : Address Key}
  {events : List (RegistryEvent Key)}

/-
  What each instruction writes when it is accepted, and the
  checks it has passed.
-/
theorem initializeConfig_ok
    {authority : Key}
    {modelFp : String}
    {numLayers : UInt16}
    {replication : UInt8}
    {slots : List SlotRange}
    (hOk :
      accounts.initializeConfig canonical signers config
          authority modelFp numLayers replication slots =
        .ok (accounts', events)) :
    config = Seeds.meshConfig.address canonical ∧
      accounts config = none ∧
      validateTopology modelFp numLayers replication slots =
        .ok () ∧
      accounts' =
        accounts.set config
          (some
            (.config
              { authority := authority
                auditor := authority
                modelFp := modelFp
                numLayers := numLayers
                replication := replication
                slots := slots
                version := 1
                bump := canonical .meshConfig })) := by
  simp only [initializeConfig, bind_ok_iff,
    checkInit_ok_iff, checkSigner_ok_iff, pure_ok_iff,
    Prod.mk.injEq, exists_const] at hOk
  rcases hOk with
    ⟨⟨hAddress, hFree⟩, _, _, hValid, hAccounts, _⟩
  exact ⟨hAddress, hFree, hValid, hAccounts.symm⟩

theorem updateConfig_ok
    {authority : Key}
    {modelFp : String}
    {numLayers : UInt16}
    {replication : UInt8}
    {slots : List SlotRange}
    (hOk :
      accounts.updateConfig signers config authority modelFp
          numLayers replication slots =
        .ok (accounts', events)) :
    ∃ old,
      adminConfig accounts signers config authority =
          .ok old ∧
        validateTopology modelFp numLayers replication slots =
          .ok () ∧
        old.version.toNat + 1 < 2 ^ 32 ∧
        accounts' =
          accounts.set config
            (some
              (.config
                { old with
                  modelFp := modelFp
                  numLayers := numLayers
                  replication := replication
                  slots := slots
                  version := old.version + 1 })) := by
  simp only [updateConfig, bind_ok_iff, pure_ok_iff,
    require_ok_iff, Prod.mk.injEq, exists_const] at hOk
  rcases hOk with ⟨old, hAdmin, _, hValid, hRoom, hAccounts, _⟩
  exact ⟨old, hAdmin, hValid, hRoom, hAccounts.symm⟩

theorem setAuthority_ok
    {authority newAuthority : Key}
    (hOk :
      accounts.setAuthority signers config authority
          newAuthority =
        .ok (accounts', events)) :
    ∃ old,
      adminConfig accounts signers config authority =
          .ok old ∧
        accounts' =
          accounts.set config
            (some
              (.config
                { old with authority := newAuthority })) := by
  simp only [setAuthority, bind_ok_iff, pure_ok_iff,
    Prod.mk.injEq] at hOk
  rcases hOk with ⟨old, hAdmin, hAccounts, _⟩
  exact ⟨old, hAdmin, hAccounts.symm⟩

theorem setAuditor_ok
    {authority newAuditor : Key}
    (hOk :
      accounts.setAuditor signers config authority newAuditor =
        .ok (accounts', events)) :
    ∃ old,
      adminConfig accounts signers config authority =
          .ok old ∧
        accounts' =
          accounts.set config
            (some
              (.config { old with auditor := newAuditor })) := by
  simp only [setAuditor, bind_ok_iff, pure_ok_iff,
    Prod.mk.injEq] at hOk
  rcases hOk with ⟨old, hAdmin, hAccounts, _⟩
  exact ⟨old, hAdmin, hAccounts.symm⟩

theorem registerNode_ok
    {signer payoutWallet stakePool : Key}
    {role : NodeRole}
    (hOk :
      accounts.registerNode canonical signers now node signer
          role payoutWallet stakePool =
        .ok (accounts', events)) :
    node = (Seeds.node signer).address canonical ∧
      accounts node = none ∧
      signer ∈ signers ∧
      accounts' =
        accounts.set node
          (some
            (.node
              { node := signer
                role := role
                trust := .probation
                banned := false
                payoutWallet := payoutWallet
                stakePool := stakePool
                joinedAt := now
                updatedAt := now
                bump := canonical (.node signer) })) := by
  simp only [registerNode, bind_ok_iff, checkInit_ok_iff,
    checkSigner_ok_iff, pure_ok_iff, Prod.mk.injEq,
    exists_const] at hOk
  rcases hOk with ⟨⟨hAddress, hFree⟩, hSigned, hAccounts, _⟩
  exact ⟨hAddress, hFree, hSigned, hAccounts.symm⟩

theorem updateNode_ok
    {signer payoutWallet stakePool : Key}
    {role : NodeRole}
    (hOk :
      accounts.updateNode signers now node signer role
          payoutWallet stakePool =
        .ok (accounts', events)) :
    ∃ old,
      ownNode accounts signers node signer = .ok old ∧
        accounts' =
          accounts.set node
            (some
              (.node
                { old with
                  role := role
                  payoutWallet := payoutWallet
                  stakePool := stakePool
                  updatedAt := now })) := by
  simp only [updateNode, bind_ok_iff, pure_ok_iff,
    Prod.mk.injEq] at hOk
  rcases hOk with ⟨old, hOwn, hAccounts, _⟩
  exact ⟨old, hOwn, hAccounts.symm⟩

theorem setTrust_ok
    {auditor : Key}
    {trust : TrustLevel}
    (hOk :
      accounts.setTrust signers now config node auditor trust =
        .ok (accounts', events)) :
    ∃ old,
      auditNode accounts signers config node auditor =
          .ok old ∧
        accounts' =
          accounts.set node
            (some
              (.node
                { old with
                  trust := trust
                  updatedAt := now })) := by
  simp only [setTrust, bind_ok_iff, pure_ok_iff,
    Prod.mk.injEq] at hOk
  rcases hOk with ⟨old, hAudit, hAccounts, _⟩
  exact ⟨old, hAudit, hAccounts.symm⟩

theorem setBan_ok
    {auditor : Key}
    {banned : Bool}
    (hOk :
      accounts.setBan signers now config node auditor banned =
        .ok (accounts', events)) :
    ∃ old,
      auditNode accounts signers config node auditor =
          .ok old ∧
        accounts' =
          accounts.set node
            (some
              (.node
                { old with
                  banned := banned
                  updatedAt := now })) := by
  simp only [setBan, bind_ok_iff, pure_ok_iff,
    Prod.mk.injEq] at hOk
  rcases hOk with ⟨old, hAudit, hAccounts, _⟩
  exact ⟨old, hAudit, hAccounts.symm⟩

theorem deregisterNode_ok
    {signer : Key}
    (hOk :
      accounts.deregisterNode signers node signer =
        .ok (accounts', events)) :
    ∃ old,
      ownNode accounts signers node signer = .ok old ∧
        accounts' = accounts.set node none := by
  simp only [deregisterNode, bind_ok_iff, pure_ok_iff,
    Prod.mk.injEq] at hOk
  rcases hOk with ⟨old, hOwn, hAccounts, _⟩
  exact ⟨old, hOwn, hAccounts.symm⟩

end Accounts

end CircuitDllm.Onchain

------------------------------------------------------------
-- What a Transaction Does
------------------------------------------------------------

namespace CircuitDllm.Onchain

variable {Key : Type} [DecidableEq Key]
variable {canonical : Seeds Key → UInt8}

/- Every account is at the address its seeds derive. -/
structure Accounts.InPlace
    (canonical : Seeds Key → UInt8)
    (accounts : Accounts Key) :
    Prop where
  config :
    ∀ address config,
      accounts address = some (.config config) →
        address = Seeds.meshConfig.address canonical ∧
          config.bump = canonical .meshConfig
  node :
    ∀ address record,
      accounts address = some (.node record) →
        address = (Seeds.node record.node).address canonical ∧
          record.bump = canonical (.node record.node)

/- Where a transaction can take a ledger that is in place. -/
inductive Effect
    (canonical : Seeds Key → UInt8)
    (w : MeshChain Key)
    (tx : ChainTx Key) :
    MeshChain Key → Prop where
| failed : Effect canonical w tx w
| configured (config : MeshConfig Key) :
    config.bump = canonical .meshConfig →
    Effect canonical w tx
      { w with
        accounts :=
          w.accounts.set (Seeds.meshConfig.address canonical)
            (some (.config config)) }
| registered (record : NodeRecord Key) :
    (∃ role payoutWallet stakePool,
      tx.instruction =
        .registerNode
          ((Seeds.node record.node).address canonical)
          record.node role payoutWallet stakePool) →
    record.node ∈ tx.signers →
    w.accounts ((Seeds.node record.node).address canonical) =
      none →
    record.bump = canonical (.node record.node) →
    record.standing = .fresh →
    Effect canonical w tx
      { w with
        accounts :=
          w.accounts.set
            ((Seeds.node record.node).address canonical)
            (some (.node record)) }
| updated (old record : NodeRecord Key) :
    w.record? canonical record.node = some old →
    record.bump = canonical (.node record.node) →
    record.standing = old.standing →
    Effect canonical w tx
      { w with
        accounts :=
          w.accounts.set
            ((Seeds.node record.node).address canonical)
            (some (.node record)) }
| audited
    (old record : NodeRecord Key)
    (change : Standing → Standing) :
    w.SignedByAuditor canonical tx →
    w.record? canonical record.node = some old →
    record.bump = canonical (.node record.node) →
    record.standing = change old.standing →
    Effect canonical w tx
      { accounts :=
          w.accounts.set
            ((Seeds.node record.node).address canonical)
            (some (.node record))
        given := fun key =>
          if key = record.node then change (w.given key)
          else w.given key }
| closed (key : Key) :
    Effect canonical w tx
      { w with
        accounts :=
          w.accounts.set ((Seeds.node key).address canonical)
            none }

namespace MeshChain

theorem step_error
    {w : MeshChain Key}
    {tx : ChainTx Key}
    {e : TxError}
    (hProcess : w.accounts.process canonical tx = .error e) :
    w.step canonical tx = w := by
  simp [step, hProcess]

theorem step_ok
    {w : MeshChain Key}
    {tx : ChainTx Key}
    {accounts : Accounts Key}
    {events : List (RegistryEvent Key)}
    (hProcess :
      w.accounts.process canonical tx =
        .ok (accounts, events)) :
    w.step canonical tx =
      { accounts := accounts, given := w.give tx.instruction } := by
  simp [step, hProcess]

/- Only verdicts give a standing. -/
theorem give_of_no_verdict
    (w : MeshChain Key)
    {instruction : RegistryInstruction Key}
    (hVerdict : instruction.verdict = none) :
    w.give instruction = w.given := by
  simp [give, hVerdict]

theorem give_of_verdict
    {w : MeshChain Key}
    {instruction : RegistryInstruction Key}
    {address : Address Key}
    {change : Standing → Standing}
    {record : NodeRecord Key}
    (hVerdict : instruction.verdict = some (address, change))
    (hRecord : w.accounts address = some (.node record)) :
    w.give instruction = fun key =>
      if key = record.node then change (w.given key)
      else w.given key := by
  simp [give, hVerdict, hRecord]

omit [DecidableEq Key] in
/- The accounts of the checks, where they are. -/
theorem config?_of_inPlace
    {w : MeshChain Key}
    (hPlace : w.accounts.InPlace canonical)
    {address : Address Key}
    {config : MeshConfig Key}
    (hConfig : w.accounts address = some (.config config)) :
    w.config? canonical = some config := by
  rw [(hPlace.config address config hConfig).1] at hConfig
  simp [config?, hConfig, AccountData.config?]

omit [DecidableEq Key] in
theorem record?_of_inPlace
    {w : MeshChain Key}
    (hPlace : w.accounts.InPlace canonical)
    {address : Address Key}
    {record : NodeRecord Key}
    (hRecord : w.accounts address = some (.node record)) :
    w.record? canonical record.node = some record := by
  rw [(hPlace.node address record hRecord).1] at hRecord
  simp [record?, hRecord, AccountData.node?]

/- Writing an administered configuration back. -/
theorem effect_admin
    {w : MeshChain Key}
    {tx : ChainTx Key}
    (hPlace : w.accounts.InPlace canonical)
    {address : Address Key}
    {authority : Key}
    {old config : MeshConfig Key}
    (hAdmin :
      adminConfig w.accounts tx.signers address authority =
        .ok old)
    (hBump : config.bump = old.bump) :
    Effect canonical w tx
      { w with
        accounts :=
          w.accounts.set address (some (.config config)) } := by
  rcases adminConfig_ok_iff.mp hAdmin with ⟨hLoad, _⟩
  rcases hPlace.config address old hLoad with
    ⟨hAddress, hOld⟩
  rw [hAddress]
  exact .configured config (hBump.trans hOld)

/- Creating the record of a signer. -/
theorem effect_register
    {w : MeshChain Key}
    {tx : ChainTx Key}
    {address : Address Key}
    {signer payoutWallet stakePool : Key}
    {role : NodeRole}
    {record : NodeRecord Key}
    (hInstruction :
      tx.instruction =
        .registerNode address signer role payoutWallet stakePool)
    (hAddress : address = (Seeds.node signer).address canonical)
    (hNone : w.accounts address = none)
    (hSigned : signer ∈ tx.signers)
    (hNode : record.node = signer)
    (hBump : record.bump = canonical (.node signer))
    (hStanding : record.standing = .fresh) :
    Effect canonical w tx
      { w with
        accounts :=
          w.accounts.set address (some (.node record)) } := by
  rw [← hNode] at hInstruction hAddress hSigned hBump
  rw [hAddress] at hInstruction hNone ⊢
  exact
    .registered record ⟨role, payoutWallet, stakePool, hInstruction⟩
      hSigned hNone hBump hStanding

/- Writing a signer's own record back. -/
theorem effect_update
    {w : MeshChain Key}
    {tx : ChainTx Key}
    (hPlace : w.accounts.InPlace canonical)
    {address : Address Key}
    {signer : Key}
    {old record : NodeRecord Key}
    (hOwn :
      ownNode w.accounts tx.signers address signer = .ok old)
    (hNode : record.node = old.node)
    (hBump : record.bump = old.bump)
    (hStanding : record.standing = old.standing) :
    Effect canonical w tx
      { w with
        accounts :=
          w.accounts.set address (some (.node record)) } := by
  rcases ownNode_ok_iff.mp hOwn with ⟨hLoad, _⟩
  rcases hPlace.node address old hLoad with ⟨hAddress, hOld⟩
  have hRecord := record?_of_inPlace hPlace hLoad
  rw [hAddress, ← hNode]
  rw [← hNode] at hRecord hOld
  exact
    .updated old record hRecord (hBump.trans hOld) hStanding

/- Writing an audited record back. -/
theorem effect_audit
    {w : MeshChain Key}
    {tx : ChainTx Key}
    (hPlace : w.accounts.InPlace canonical)
    {configAddress address : Address Key}
    {auditor : Key}
    {old record : NodeRecord Key}
    {change : Standing → Standing}
    (hAudit :
      auditNode w.accounts tx.signers configAddress address
        auditor = .ok old)
    (hVerdict :
      tx.instruction.verdict = some (address, change))
    (hNode : record.node = old.node)
    (hBump : record.bump = old.bump)
    (hStanding : record.standing = change old.standing) :
    Effect canonical w tx
      { accounts :=
          w.accounts.set address (some (.node record))
        given := w.give tx.instruction } := by
  rcases auditNode_ok_iff.mp hAudit with
    ⟨config, hConfig, hLoad, hSigned, _, _, hAuditor⟩
  rcases hPlace.node address old hLoad with
    ⟨hAddress, hOld⟩
  have hRecord := record?_of_inPlace hPlace hLoad
  rw [give_of_verdict hVerdict hLoad, hAddress, ← hNode]
  rw [← hNode] at hRecord hOld
  refine
    .audited old record change ?_ hRecord (hBump.trans hOld)
      hStanding
  refine ⟨config, config?_of_inPlace hPlace hConfig, ?_⟩
  rw [← hAuditor]
  exact hSigned

/- A transaction has one of the effects. -/
theorem step_effect
    (w : MeshChain Key)
    (tx : ChainTx Key)
    (hPlace : w.accounts.InPlace canonical) :
    Effect canonical w tx (w.step canonical tx) := by
  rcases hProcess : w.accounts.process canonical tx with
    e | ⟨accounts, events⟩
  · rw [step_error hProcess]
    exact .failed
  rw [step_ok hProcess]
  rcases hInstruction : tx.instruction with
    ⟨config, authority, modelFp, numLayers, replication, slots⟩ |
    ⟨config, authority, modelFp, numLayers, replication, slots⟩ |
    ⟨config, authority, newAuthority⟩ |
    ⟨config, authority, newAuditor⟩ |
    ⟨node, signer, role, payoutWallet, stakePool⟩ |
    ⟨node, signer, role, payoutWallet, stakePool⟩ |
    ⟨config, node, auditor, trust⟩ |
    ⟨config, node, auditor, banned⟩ |
    ⟨node, signer⟩ <;>
    simp only [Accounts.process, hInstruction] at hProcess
  case initializeConfig =>
    rcases Accounts.initializeConfig_ok hProcess with
      ⟨hAddress, _, _, hAccounts⟩
    rw [give_of_no_verdict w rfl, hAccounts, hAddress]
    exact .configured _ rfl
  case updateConfig =>
    rcases Accounts.updateConfig_ok hProcess with
      ⟨old, hAdmin, _, _, hAccounts⟩
    rw [give_of_no_verdict w rfl, hAccounts]
    exact effect_admin hPlace hAdmin rfl
  case setAuthority =>
    rcases Accounts.setAuthority_ok hProcess with
      ⟨old, hAdmin, hAccounts⟩
    rw [give_of_no_verdict w rfl, hAccounts]
    exact effect_admin hPlace hAdmin rfl
  case setAuditor =>
    rcases Accounts.setAuditor_ok hProcess with
      ⟨old, hAdmin, hAccounts⟩
    rw [give_of_no_verdict w rfl, hAccounts]
    exact effect_admin hPlace hAdmin rfl
  case registerNode =>
    rcases Accounts.registerNode_ok hProcess with
      ⟨hAddress, hFree, hSigned, hAccounts⟩
    rw [give_of_no_verdict w rfl, hAccounts]
    exact
      effect_register hInstruction hAddress hFree hSigned rfl
        rfl rfl
  case updateNode =>
    rcases Accounts.updateNode_ok hProcess with
      ⟨old, hOwn, hAccounts⟩
    rw [give_of_no_verdict w rfl, hAccounts]
    exact effect_update hPlace hOwn rfl rfl rfl
  case setTrust =>
    rcases Accounts.setTrust_ok hProcess with
      ⟨old, hAudit, hAccounts⟩
    have hVerdict :
        tx.instruction.verdict =
          some (node, fun standing =>
            { standing with trust := trust }) := by
      rw [hInstruction]
      rfl
    rw [← hInstruction, hAccounts]
    exact effect_audit hPlace hAudit hVerdict rfl rfl rfl
  case setBan =>
    rcases Accounts.setBan_ok hProcess with
      ⟨old, hAudit, hAccounts⟩
    have hVerdict :
        tx.instruction.verdict =
          some (node, fun standing =>
            { standing with banned := banned }) := by
      rw [hInstruction]
      rfl
    rw [← hInstruction, hAccounts]
    exact effect_audit hPlace hAudit hVerdict rfl rfl rfl
  case deregisterNode =>
    rcases Accounts.deregisterNode_ok hProcess with
      ⟨old, hOwn, hAccounts⟩
    rcases ownNode_ok_iff.mp hOwn with ⟨hLoad, _⟩
    rcases hPlace.node node old hLoad with ⟨hAddress, _⟩
    rw [give_of_no_verdict w rfl, hAccounts, hAddress]
    exact .closed old.node

end MeshChain

end CircuitDllm.Onchain

------------------------------------------------------------
-- Invariants
------------------------------------------------------------

namespace CircuitDllm.Onchain

variable {Key : Type} [DecidableEq Key]
variable {canonical : Seeds Key → UInt8}

namespace Accounts

theorem set_self
    (accounts : Accounts Key)
    (address : Address Key)
    (data : Option (AccountData Key)) :
    accounts.set address data address = data := by
  simp [set]

theorem set_ne
    (accounts : Accounts Key)
    {address address' : Address Key}
    (data : Option (AccountData Key))
    (hNe : address' ≠ address) :
    accounts.set address data address' = accounts address' := by
  simp [set, hNe]

/- What is written must be in place. -/
theorem InPlace.set
    {accounts : Accounts Key}
    (hPlace : accounts.InPlace canonical)
    (address : Address Key)
    (data : Option (AccountData Key))
    (hConfig :
      ∀ config, data = some (.config config) →
        address = Seeds.meshConfig.address canonical ∧
          config.bump = canonical .meshConfig)
    (hNode :
      ∀ record, data = some (.node record) →
        address = (Seeds.node record.node).address canonical ∧
          record.bump = canonical (.node record.node)) :
    (accounts.set address data).InPlace canonical where
  config := by
    intro address' config hData
    by_cases hEq : address' = address
    · rw [hEq, set_self] at hData
      rw [hEq]
      exact hConfig config hData
    · rw [set_ne _ _ hEq] at hData
      exact hPlace.config address' config hData
  node := by
    intro address' record hData
    by_cases hEq : address' = address
    · rw [hEq, set_self] at hData
      rw [hEq]
      exact hNode record hData
    · rw [set_ne _ _ hEq] at hData
      exact hPlace.node address' record hData

theorem InPlace.set_node
    {accounts : Accounts Key}
    (hPlace : accounts.InPlace canonical)
    {record : NodeRecord Key}
    (hBump : record.bump = canonical (.node record.node)) :
    (accounts.set ((Seeds.node record.node).address canonical)
      (some (.node record))).InPlace canonical := by
  apply hPlace.set
  · intro config hData
    cases hData
  · intro record' hData
    cases hData
    exact ⟨rfl, hBump⟩

end Accounts

namespace MeshChain

variable {w w' : MeshChain Key} {tx : ChainTx Key}

/- Identities have addresses of their own. -/
theorem record?_set_node
    (w : MeshChain Key)
    (key : Key)
    (data : Option (AccountData Key))
    (given : Key → Standing)
    (key' : Key) :
    record? canonical
        { accounts :=
            w.accounts.set ((Seeds.node key).address canonical)
              data
          given := given } key' =
      if key' = key then data.bind AccountData.node?
      else w.record? canonical key' := by
  unfold record?
  by_cases hEq : key' = key
  · rw [if_pos hEq, hEq]
    dsimp only
    rw [Accounts.set_self]
  · have hNe :
        (Seeds.node key').address canonical ≠
          (Seeds.node key).address canonical := by
      intro hAddress
      simp only [Seeds.address, Address.pda.injEq,
        Seeds.node.injEq] at hAddress
      exact hEq hAddress.1
    rw [if_neg hEq]
    dsimp only
    rw [Accounts.set_ne _ _ hNe]

theorem record?_set_config
    (w : MeshChain Key)
    (data : Option (AccountData Key))
    (key : Key) :
    record? canonical
        { w with
          accounts :=
            w.accounts.set
              (Seeds.meshConfig.address canonical) data } key =
      w.record? canonical key := by
  have hNe :
      (Seeds.node key).address canonical ≠
        Seeds.meshConfig.address canonical := by
    intro hAddress
    simp [Seeds.address] at hAddress
  unfold record?
  dsimp only
  rw [Accounts.set_ne _ _ hNe]

/- Every record has the standing given last. -/
def Recorded
    (canonical : Seeds Key → UInt8)
    (w : MeshChain Key) :
    Prop :=
  ∀ key record,
    w.record? canonical key = some record →
      record.standing = w.given key

omit [DecidableEq Key] in
theorem Recorded.standing
    (hRecorded : w.Recorded canonical)
    (key : Key) :
    w.standing canonical key = w.given key := by
  unfold MeshChain.standing
  split
  · next record hRecord => exact hRecorded key record hRecord
  · rfl

end MeshChain

namespace Effect

variable {w w' : MeshChain Key} {tx : ChainTx Key}

theorem inPlace
    (hEffect : Effect canonical w tx w')
    (hPlace : w.accounts.InPlace canonical) :
    w'.accounts.InPlace canonical := by
  cases hEffect with
  | failed => exact hPlace
  | configured config hBump =>
      apply hPlace.set
      · intro config' hData
        cases hData
        exact ⟨rfl, hBump⟩
      · intro record hData
        cases hData
  | registered record _ _ _ hBump _ => exact hPlace.set_node hBump
  | updated old record _ hBump _ => exact hPlace.set_node hBump
  | audited old record change _ _ hBump _ =>
      exact hPlace.set_node hBump
  | closed key =>
      apply hPlace.set
      · intro config hData
        cases hData
      · intro record hData
        cases hData

/- What is given, the auditor gives. -/
theorem given
    (hEffect : Effect canonical w tx w')
    (key : Key)
    (hGiven : w'.given key ≠ w.given key) :
    w.SignedByAuditor canonical tx := by
  cases hEffect with
  | audited old record change hSigned => exact hSigned
  | failed => exact absurd rfl hGiven
  | configured => exact absurd rfl hGiven
  | registered => exact absurd rfl hGiven
  | updated => exact absurd rfl hGiven
  | closed => exact absurd rfl hGiven

theorem recorded
    (hEffect : Effect canonical w tx w')
    (hRecorded : w.Recorded canonical)
    (hRevives : ¬ Revives canonical w tx) :
    w'.Recorded canonical := by
  intro key record' hRecord
  cases hEffect with
  | failed => exact hRecorded key record' hRecord
  | configured config _ =>
      rw [MeshChain.record?_set_config] at hRecord
      exact hRecorded key record' hRecord
  | registered record hInstruction hSigned hNone _ hFresh =>
      rw [MeshChain.record?_set_node] at hRecord
      split at hRecord
      · next hEq =>
          rw [← Option.some.inj hRecord, hFresh, hEq]
          apply Classical.byContradiction
          intro hNe
          rcases hInstruction with
            ⟨role, payoutWallet, stakePool, hInstruction⟩
          exact
            hRevives
              ⟨record.node, role, payoutWallet, stakePool,
                hInstruction, hSigned, hNone, Ne.symm hNe⟩
      · exact hRecorded key record' hRecord
  | updated old record hOld _ hStanding =>
      rw [MeshChain.record?_set_node] at hRecord
      split at hRecord
      · next hEq =>
          rw [← Option.some.inj hRecord, hStanding, hEq]
          exact hRecorded record.node old hOld
      · exact hRecorded key record' hRecord
  | audited old record change _ hOld _ hStanding =>
      rw [MeshChain.record?_set_node] at hRecord
      dsimp only
      split at hRecord
      · next hEq =>
          rw [← Option.some.inj hRecord, if_pos hEq, hStanding,
            hEq, hRecorded record.node old hOld]
      · next hEq =>
          rw [if_neg hEq]
          exact hRecorded key record' hRecord
  | closed key' =>
      rw [MeshChain.record?_set_node] at hRecord
      split at hRecord
      · cases hRecord
      · exact hRecorded key record' hRecord

end Effect

end CircuitDllm.Onchain

------------------------------------------------------------
-- The Auditor's Authority
------------------------------------------------------------

namespace CircuitDllm.Onchain

variable {Key : Type} [DecidableEq Key]

/- A new record of an identity that was given another standing. -/
theorem Revives.recorded
    {canonical : Seeds Key → UInt8}
    {w : MeshChain Key}
    {tx : ChainTx Key}
    (hRevives : Revives canonical w tx) :
    ∃ key record,
      (w.step canonical tx).record? canonical key =
          some record ∧
        record.standing ≠ (w.step canonical tx).given key := by
  rcases hRevives with
    ⟨key, role, payoutWallet, stakePool, hInstruction, hSigned,
      hNone, hGiven⟩
  have hInit :
      checkInit canonical w.accounts
          ((Seeds.node key).address canonical) (.node key) =
        .ok () :=
    checkInit_ok_iff.mpr ⟨rfl, hNone⟩
  have hSigner : checkSigner tx.signers key = .ok () :=
    checkSigner_ok_iff.mpr hSigned
  rcases hProcess : w.accounts.process canonical tx with
    e | ⟨accounts, events⟩
  · simp [Accounts.process, hInstruction,
      Accounts.registerNode, hInit, hSigner, bind,
      Except.bind, pure, Except.pure] at hProcess
  · rw [MeshChain.step_ok hProcess, hInstruction,
      MeshChain.give_of_no_verdict w rfl]
    simp only [Accounts.process, hInstruction] at hProcess
    rcases Accounts.registerNode_ok hProcess with
      ⟨_, _, _, hAccounts⟩
    rw [hAccounts]
    refine
      ⟨key, _,
        (MeshChain.record?_set_node _ _ _ _ _).trans (if_pos rfl),
        ?_⟩
    intro hSame
    exact hGiven hSame.symm

/-
  The auditor alone decides about trust and bans in exactly
  the runs in which nobody revives a record.
-/
theorem authoritative_iff
    (canonical : Seeds Key → UInt8)
    (txs : List (ChainTx Key)) :
    Authoritative canonical txs ↔
      ∀ e ∈ History.trail (MeshChain.step canonical) .start txs,
        ¬ Revives canonical e.1 e.2 := by
  constructor
  · intro hAuthoritative e hMem hRevives
    rcases hRevives.recorded with
      ⟨key, record, hRecord, hStanding⟩
    exact
      hStanding (hAuthoritative.recorded e hMem key record hRecord)
  · intro hRevives
    have hRun :=
      History.induction_of (MeshChain.step canonical)
        (fun e => ¬ Revives canonical e.1 e.2)
        (fun past w =>
          (w.accounts.InPlace canonical ∧
            w.Recorded canonical) ∧
          ∀ e ∈ past,
            Effect canonical e.1 e.2 (e.1.step canonical e.2) ∧
              e.1.Recorded canonical ∧
              (e.1.step canonical e.2).Recorded canonical)
        ⟨⟨⟨by simp [MeshChain.start], by simp [MeshChain.start]⟩,
          by simp [MeshChain.Recorded, MeshChain.record?,
            MeshChain.start]⟩,
          by simp⟩
        (fun past w tx hAllowed hPast => by
          rcases hPast with ⟨⟨hPlace, hRecorded⟩, hPast⟩
          have hEffect := MeshChain.step_effect w tx hPlace
          have hNext := hEffect.recorded hRecorded hAllowed
          refine ⟨⟨hEffect.inPlace hPlace, hNext⟩, ?_⟩
          intro e hMem
          rcases List.mem_append.mp hMem with hOld | hNew
          · exact hPast e hOld
          · cases List.mem_singleton.mp hNew
            exact ⟨hEffect, hRecorded, hNext⟩)
        hRevives
    refine ⟨?_, ?_, ?_⟩
    · intro e hMem key hChange
      rcases hRun.2 e hMem with ⟨hEffect, hBefore, hAfter⟩
      rw [hAfter.standing, hBefore.standing] at hChange
      exact hEffect.given key hChange
    · intro e hMem key hGiven
      exact (hRun.2 e hMem).1.given key hGiven
    · intro e hMem
      exact (hRun.2 e hMem).2.2

theorem Authoritative.final
    {canonical : Seeds Key → UInt8}
    (txs : List (ChainTx Key))
    (tx : ChainTx Key)
    (hAuthoritative : Authoritative canonical (txs ++ [tx])) :
    ((txs ++ [tx]).foldl (MeshChain.step canonical)
      .start).Recorded canonical := by
  intro key record
  rw [List.foldl_append]
  apply hAuthoritative.recorded
    (txs.foldl (MeshChain.step canonical) .start, tx)
  rw [History.trail_append]
  apply List.mem_append_right
  exact List.mem_singleton.mpr rfl

/- One node is banned, leaves, and registers again. -/
def bannedReturns : List (ChainTx Nat) :=
  let slots : List SlotRange := [⟨0, 80⟩]
  let config := Seeds.meshConfig.address (fun _ => 255)
  let node := (Seeds.node 1).address (fun _ => 255)
  [⟨[0], 0, .initializeConfig config 0 "" 80 2 slots⟩,
    ⟨[1], 1, .registerNode node 1 .holder 1 1⟩,
    ⟨[0], 2, .setBan config node 0 true⟩,
    ⟨[1], 3, .deregisterNode node 1⟩,
    ⟨[1], 4, .registerNode node 1 .holder 1 1⟩]

/- The auditor banned it, and its record says it is not. -/
theorem exists_not_authoritative :
    let w :=
      bannedReturns.foldl (MeshChain.step (fun _ => 255)) .start
    w.given 1 = ⟨.probation, true⟩ ∧
      (w.record? (fun _ => 255) 1).map (·.standing) =
        some .fresh ∧
      ¬ Authoritative (fun _ => 255) bannedReturns := by
  intro w
  have hGiven : w.given 1 = ⟨.probation, true⟩ := by decide
  have hStanding :
      (w.record? (fun _ => 255) 1).map (·.standing) =
        some .fresh := by
    decide
  refine ⟨hGiven, hStanding, ?_⟩
  intro hAuthoritative
  have hRecorded : w.Recorded (fun _ => 255) :=
    Authoritative.final (bannedReturns.take 4) _
      hAuthoritative
  rcases Option.map_eq_some_iff.mp hStanding with
    ⟨record, hRecord, hFresh⟩
  have hSame := hRecorded 1 record hRecord
  rw [hFresh, hGiven] at hSame
  cases hSame

end CircuitDllm.Onchain
