import Mathlib.Algebra.Ring.Nat
import Mathlib.Data.List.Sort

/-
  The mesh_registry program
  (onchain/programs/mesh_registry/src/lib.rs).

  The ledger holds accounts at addresses.  An address of the
  program is derived from seeds and a bump; `init` derives
  with the canonical bump of the seeds, the other account
  checks with the bump stored in the account.  A transaction
  carries one instruction, and one that fails changes
  nothing.

  Main declarations:
    * `MeshConfig`, `NodeRecord`, `Accounts`
    * `validateTopology`
    * `RegistryInstruction`, `ChainTx`
    * `Accounts.process`
-/

------------------------------------------------------------
-- State
------------------------------------------------------------

namespace CircuitDllm.Onchain

/- A layer range [start, end) assigned to one slot. -/
structure SlotRange where
  start : UInt16
  stop : UInt16
deriving DecidableEq, Repr

inductive NodeRole where
  | orchestrator
  | holder
deriving DecidableEq, Repr

inductive TrustLevel where
  | probation
  | trusted
deriving DecidableEq, Repr

/- The topology contract. -/
structure MeshConfig (Key : Type) where
  authority : Key
  auditor : Key
  modelFp : String
  numLayers : UInt16
  replication : UInt8
  slots : List SlotRange
  version : UInt32
  bump : UInt8
deriving DecidableEq, Repr

/- The membership record of one identity. -/
structure NodeRecord (Key : Type) where
  node : Key
  role : NodeRole
  trust : TrustLevel
  banned : Bool
  payoutWallet : Key
  stakePool : Key
  joinedAt : Int64
  updatedAt : Int64
  bump : UInt8
deriving DecidableEq, Repr

/- b"mesh_config", or b"node" and a key. -/
inductive Seeds (Key : Type) where
  | meshConfig
  | node (key : Key)
deriving DecidableEq, Repr

inductive Address (Key : Type) where
  /- derived from seeds and a bump -/
  | pda (seeds : Seeds Key) (bump : UInt8)
  /- any other one -/
  | wallet (key : Key)
deriving DecidableEq, Repr

/- What an account of the program holds. -/
inductive AccountData (Key : Type) where
  | config (config : MeshConfig Key)
  | node (node : NodeRecord Key)
deriving DecidableEq, Repr

/- The accounts the program owns. -/
abbrev Accounts (Key : Type) :=
  Address Key → Option (AccountData Key)

inductive MeshError where
  | modelFpTooLong
  | badNumLayers
  | badReplication
  | noSlots
  | tooManySlots
  | badSlotRange
  | badCoverage
  | notAuthority
  | notAuditor
  | versionOverflow
deriving DecidableEq, Repr

/- Why a transaction fails. -/
inductive TxError where
  | mesh (e : MeshError)
  | accountNotInitialized
  | accountDiscriminatorMismatch
  | accountNotSigner
  | constraintSeeds
  | accountInUse
deriving DecidableEq, Repr

/- What a transaction emits. -/
inductive RegistryEvent (Key : Type) where
  | configUpdated
      (version : UInt32)
      (numLayers : UInt16)
      (replication slotCount : UInt8)
  | nodeRegistered (node : Key) (role : NodeRole)
  | nodeAudited (node : Key) (trust : TrustLevel) (banned : Bool)
deriving DecidableEq, Repr

end CircuitDllm.Onchain

------------------------------------------------------------
-- Validation
------------------------------------------------------------

namespace CircuitDllm.Onchain

/- The longest model fingerprint, and the most slots. -/
def maxModelFp : Nat := 64

def maxSlots : Nat := 32

/- require! -/
def require
    (p : Prop) [Decidable p]
    (e : MeshError) :
    Except TxError Unit :=
  if p then .ok () else .error (.mesh e)

/- A partition of [0, num_layers) into slots. -/
def validateTopology
    (modelFp : String)
    (numLayers : UInt16)
    (replication : UInt8)
    (slots : List SlotRange) :
    Except TxError Unit := do
  require (modelFp.utf8ByteSize ≤ maxModelFp) .modelFpTooLong
  require (0 < numLayers) .badNumLayers
  require (0 < replication) .badReplication
  require (slots ≠ []) .noSlots
  require (slots.length ≤ maxSlots) .tooManySlots
  require
    (∀ s ∈ slots, s.start < s.stop ∧ s.stop ≤ numLayers)
    .badSlotRange
  let sorted := slots.insertionSort (·.start ≤ ·.start)
  require (sorted.head?.map (·.start) = some 0) .badCoverage
  require
    (∀ pair ∈ sorted.zip sorted.tail,
      pair.2.start = pair.1.stop)
    .badCoverage
  require (sorted.getLast?.map (·.stop) = some numLayers)
    .badCoverage

end CircuitDllm.Onchain

------------------------------------------------------------
-- Account Checks
------------------------------------------------------------

namespace CircuitDllm.Onchain

variable {Key : Type} [DecidableEq Key]

namespace Accounts

/- Account<'info, MeshConfig> -/
def loadConfig
    (accounts : Accounts Key)
    (address : Address Key) :
    Except TxError (MeshConfig Key) :=
  match accounts address with
  | some (.config config) => .ok config
  | some (.node _) => .error .accountDiscriminatorMismatch
  | none => .error .accountNotInitialized

/- Account<'info, Node> -/
def loadNode
    (accounts : Accounts Key)
    (address : Address Key) :
    Except TxError (NodeRecord Key) :=
  match accounts address with
  | some (.node node) => .ok node
  | some (.config _) => .error .accountDiscriminatorMismatch
  | none => .error .accountNotInitialized

/- Write an account back, or close it. -/
def set
    (accounts : Accounts Key)
    (address : Address Key)
    (data : Option (AccountData Key)) :
    Accounts Key :=
  fun a => if a = address then data else accounts a

end Accounts

/- Signer<'info> -/
def checkSigner
    (signers : List Key)
    (key : Key) :
    Except TxError Unit :=
  if key ∈ signers then .ok () else .error .accountNotSigner

/- seeds = [..], bump = account.bump -/
def checkSeeds
    (address : Address Key)
    (seeds : Seeds Key)
    (bump : UInt8) :
    Except TxError Unit :=
  if address = .pda seeds bump then .ok ()
  else .error .constraintSeeds

/- init, seeds = [..], bump -/
def checkInit
    (canonical : Seeds Key → UInt8)
    (accounts : Accounts Key)
    (address : Address Key)
    (seeds : Seeds Key) :
    Except TxError Unit :=
  if address = .pda seeds (canonical seeds) then
    match accounts address with
    | none => .ok ()
    | some _ => .error .accountInUse
  else .error .constraintSeeds

/- UpdateConfig, and AdminConfig, whose checks are the same -/
def adminConfig
    (accounts : Accounts Key)
    (signers : List Key)
    (config : Address Key)
    (authority : Key) :
    Except TxError (MeshConfig Key) := do
  let cfg ← accounts.loadConfig config
  checkSigner signers authority
  checkSeeds config .meshConfig cfg.bump
  require (cfg.authority = authority) .notAuthority
  return cfg

/- UpdateNode, and the checks of DeregisterNode -/
def ownNode
    (accounts : Accounts Key)
    (signers : List Key)
    (node : Address Key)
    (signer : Key) :
    Except TxError (NodeRecord Key) := do
  let record ← accounts.loadNode node
  checkSigner signers signer
  checkSeeds node (.node signer) record.bump
  return record

/- AuditNode -/
def auditNode
    (accounts : Accounts Key)
    (signers : List Key)
    (config node : Address Key)
    (auditor : Key) :
    Except TxError (NodeRecord Key) := do
  let cfg ← accounts.loadConfig config
  let record ← accounts.loadNode node
  checkSigner signers auditor
  checkSeeds config .meshConfig cfg.bump
  checkSeeds node (.node record.node) record.bump
  require (auditor = cfg.auditor) .notAuditor
  return record

end CircuitDllm.Onchain

------------------------------------------------------------
-- Instructions
------------------------------------------------------------

namespace CircuitDllm.Onchain

variable {Key : Type} [DecidableEq Key]

/- The accounts after an instruction, and its events. -/
abbrev TxOutcome (Key : Type) :=
  Accounts Key × List (RegistryEvent Key)

namespace MeshConfig

def updated (cfg : MeshConfig Key) : RegistryEvent Key :=
  .configUpdated cfg.version cfg.numLayers cfg.replication
    (.ofNat cfg.slots.length)

end MeshConfig

namespace NodeRecord

def audited (node : NodeRecord Key) : RegistryEvent Key :=
  .nodeAudited node.node node.trust node.banned

end NodeRecord

namespace Accounts

def initializeConfig
    (canonical : Seeds Key → UInt8)
    (accounts : Accounts Key)
    (signers : List Key)
    (config : Address Key)
    (authority : Key)
    (modelFp : String)
    (numLayers : UInt16)
    (replication : UInt8)
    (slots : List SlotRange) :
    Except TxError (TxOutcome Key) := do
  checkInit canonical accounts config .meshConfig
  checkSigner signers authority
  validateTopology modelFp numLayers replication slots
  let cfg : MeshConfig Key :=
    { authority := authority
      auditor := authority
      modelFp := modelFp
      numLayers := numLayers
      replication := replication
      slots := slots
      version := 1
      bump := canonical .meshConfig }
  return (accounts.set config (some (.config cfg)),
    [cfg.updated])

def updateConfig
    (accounts : Accounts Key)
    (signers : List Key)
    (config : Address Key)
    (authority : Key)
    (modelFp : String)
    (numLayers : UInt16)
    (replication : UInt8)
    (slots : List SlotRange) :
    Except TxError (TxOutcome Key) := do
  let cfg ← adminConfig accounts signers config authority
  validateTopology modelFp numLayers replication slots
  -- checked_add
  require (cfg.version.toNat + 1 < 2 ^ 32) .versionOverflow
  let cfg :=
    { cfg with
      modelFp := modelFp
      numLayers := numLayers
      replication := replication
      slots := slots
      version := cfg.version + 1 }
  return (accounts.set config (some (.config cfg)),
    [cfg.updated])

def setAuthority
    (accounts : Accounts Key)
    (signers : List Key)
    (config : Address Key)
    (authority newAuthority : Key) :
    Except TxError (TxOutcome Key) := do
  let cfg ← adminConfig accounts signers config authority
  let cfg := { cfg with authority := newAuthority }
  return (accounts.set config (some (.config cfg)), [])

def setAuditor
    (accounts : Accounts Key)
    (signers : List Key)
    (config : Address Key)
    (authority newAuditor : Key) :
    Except TxError (TxOutcome Key) := do
  let cfg ← adminConfig accounts signers config authority
  let cfg := { cfg with auditor := newAuditor }
  return (accounts.set config (some (.config cfg)), [])

/- A new record is on probation and not banned. -/
def registerNode
    (canonical : Seeds Key → UInt8)
    (accounts : Accounts Key)
    (signers : List Key)
    (now : Int64)
    (node : Address Key)
    (signer : Key)
    (role : NodeRole)
    (payoutWallet stakePool : Key) :
    Except TxError (TxOutcome Key) := do
  checkInit canonical accounts node (.node signer)
  checkSigner signers signer
  let record : NodeRecord Key :=
    { node := signer
      role := role
      trust := .probation
      banned := false
      payoutWallet := payoutWallet
      stakePool := stakePool
      joinedAt := now
      updatedAt := now
      bump := canonical (.node signer) }
  return (accounts.set node (some (.node record)),
    [.nodeRegistered signer role])

def updateNode
    (accounts : Accounts Key)
    (signers : List Key)
    (now : Int64)
    (node : Address Key)
    (signer : Key)
    (role : NodeRole)
    (payoutWallet stakePool : Key) :
    Except TxError (TxOutcome Key) := do
  let record ← ownNode accounts signers node signer
  let record :=
    { record with
      role := role
      payoutWallet := payoutWallet
      stakePool := stakePool
      updatedAt := now }
  return (accounts.set node (some (.node record)), [])

def setTrust
    (accounts : Accounts Key)
    (signers : List Key)
    (now : Int64)
    (config node : Address Key)
    (auditor : Key)
    (trust : TrustLevel) :
    Except TxError (TxOutcome Key) := do
  let record ← auditNode accounts signers config node auditor
  let record :=
    { record with trust := trust, updatedAt := now }
  return (accounts.set node (some (.node record)),
    [record.audited])

def setBan
    (accounts : Accounts Key)
    (signers : List Key)
    (now : Int64)
    (config node : Address Key)
    (auditor : Key)
    (banned : Bool) :
    Except TxError (TxOutcome Key) := do
  let record ← auditNode accounts signers config node auditor
  let record :=
    { record with banned := banned, updatedAt := now }
  return (accounts.set node (some (.node record)),
    [record.audited])

/- close = signer -/
def deregisterNode
    (accounts : Accounts Key)
    (signers : List Key)
    (node : Address Key)
    (signer : Key) :
    Except TxError (TxOutcome Key) := do
  let _ ← ownNode accounts signers node signer
  return (accounts.set node none, [])

end Accounts

/- The nine instructions with the accounts they are given. -/
inductive RegistryInstruction (Key : Type) where
  | initializeConfig
      (config : Address Key) (authority : Key)
      (modelFp : String) (numLayers : UInt16)
      (replication : UInt8) (slots : List SlotRange)
  | updateConfig
      (config : Address Key) (authority : Key)
      (modelFp : String) (numLayers : UInt16)
      (replication : UInt8) (slots : List SlotRange)
  | setAuthority
      (config : Address Key) (authority newAuthority : Key)
  | setAuditor
      (config : Address Key) (authority newAuditor : Key)
  | registerNode
      (node : Address Key) (signer : Key)
      (role : NodeRole) (payoutWallet stakePool : Key)
  | updateNode
      (node : Address Key) (signer : Key)
      (role : NodeRole) (payoutWallet stakePool : Key)
  | setTrust
      (config node : Address Key) (auditor : Key)
      (trust : TrustLevel)
  | setBan
      (config node : Address Key) (auditor : Key)
      (banned : Bool)
  | deregisterNode (node : Address Key) (signer : Key)
deriving DecidableEq, Repr

/- `now` is the clock's unix_timestamp. -/
structure ChainTx (Key : Type) where
  signers : List Key
  now : Int64
  instruction : RegistryInstruction Key
deriving DecidableEq, Repr

def Accounts.process
    (canonical : Seeds Key → UInt8)
    (accounts : Accounts Key)
    (tx : ChainTx Key) :
    Except TxError (TxOutcome Key) :=
  match tx.instruction with
  | .initializeConfig config authority modelFp numLayers
      replication slots =>
    accounts.initializeConfig canonical tx.signers config
      authority modelFp numLayers replication slots
  | .updateConfig config authority modelFp numLayers
      replication slots =>
    accounts.updateConfig tx.signers config authority modelFp
      numLayers replication slots
  | .setAuthority config authority newAuthority =>
    accounts.setAuthority tx.signers config authority
      newAuthority
  | .setAuditor config authority newAuditor =>
    accounts.setAuditor tx.signers config authority newAuditor
  | .registerNode node signer role payoutWallet stakePool =>
    accounts.registerNode canonical tx.signers tx.now node
      signer role payoutWallet stakePool
  | .updateNode node signer role payoutWallet stakePool =>
    accounts.updateNode tx.signers tx.now node signer role
      payoutWallet stakePool
  | .setTrust config node auditor trust =>
    accounts.setTrust tx.signers tx.now config node auditor
      trust
  | .setBan config node auditor banned =>
    accounts.setBan tx.signers tx.now config node auditor
      banned
  | .deregisterNode node signer =>
    accounts.deregisterNode tx.signers node signer

end CircuitDllm.Onchain
