import CircuitDllm.Mesh.Steps

/-
  The state file.

  While writing it works, the file holds what a registry has
  to remember: a new process starts with the balances, the
  wallets and the bans of the old one.

  Main declarations:
    * `Registry.Synced`
    * `Registry.synced_step`, `Registry.synced_create`
    * `Registry.synced_restart`
-/

------------------------------------------------------------
-- What the File Holds
------------------------------------------------------------

namespace CircuitDllm

namespace Registry

/- What a new process would load. -/
def onDisk (r : Registry) : Saved :=
  r.file.getD
    { accrued := .empty
      wallets := .empty
      evictionCounts := .empty
      banned := []
      orchSeq := 0 }

/- The file can be written, and is up to date. -/
structure Synced (r : Registry) : Prop where
  diskUp : r.diskUp = true
  accrued : r.onDisk.accrued = r.accrued
  wallets : r.onDisk.wallets = r.wallets
  evictionCounts :
    r.onDisk.evictionCounts = r.evictionCounts
  banned : r.onDisk.banned = r.banned

/- Writing works, and a restart finds the file. -/
def Durable (cfg : RegistryConfig) : RegistryOp → Prop
| .restart => cfg.hasStateFile = true
| .disk up => up = true
| _ => True

variable {cfg : RegistryConfig} {r : Registry}

/- The file, and what belongs in it. -/
def record (r : Registry) :=
  (r.file, r.accrued, r.wallets, r.evictionCounts, r.banned)

theorem Synced.of_eq
    (hSynced : r.Synced)
    {r' : Registry}
    (hUp : r'.diskUp = r.diskUp)
    (hRecord : r'.record = r.record) :
    r'.Synced := by
  simp only [record, Prod.mk.injEq] at hRecord
  rcases hRecord with
    ⟨hFile, hAccrued, hWallets, hEvictions, hBanned⟩
  have hDisk : r'.onDisk = r.onDisk := by
    unfold onDisk
    rw [hFile]
  exact
    { diskUp := hUp.trans hSynced.diskUp
      accrued := by rw [hDisk, hAccrued, hSynced.accrued]
      wallets := by rw [hDisk, hWallets, hSynced.wallets]
      evictionCounts := by
        rw [hDisk, hEvictions, hSynced.evictionCounts]
      banned := by rw [hDisk, hBanned, hSynced.banned] }

/- A write makes the file current. -/
theorem synced_saveState
    (hFile : cfg.hasStateFile = true)
    (hUp : r.diskUp = true) :
    (r.saveState cfg).Synced := by
  unfold saveState
  rw [if_pos ⟨hFile, hUp⟩]
  exact ⟨hUp, rfl, rfl, rfl, rfl⟩

theorem synced_create
    (hCreate : create cfg = .ok r) :
    r.Synced := by
  rcases create_ok hCreate with ⟨topo, _, rfl⟩
  exact ⟨rfl, rfl, rfl, rfl, rfl⟩

/- The second registry remembers what the first one does. -/
structure Remembers (r r' : Registry) : Prop where
  accrued : r'.accrued = r.accrued
  wallets : r'.wallets = r.wallets
  evictionCounts : r'.evictionCounts = r.evictionCounts
  banned : r'.banned = r.banned

theorem synced_restart
    (hFile : cfg.hasStateFile = true)
    (hSynced : r.Synced)
    {r' : Registry}
    (hRestart : r.restart cfg = .ok r') :
    r'.Synced ∧ Remembers r r' := by
  have hAccrued := hSynced.accrued
  have hWallets := hSynced.wallets
  have hEvictions := hSynced.evictionCounts
  have hBanned := hSynced.banned
  unfold onDisk at hAccrued hWallets hEvictions hBanned
  unfold restart at hRestart
  rw [if_pos hFile] at hRestart
  split at hRestart
  · cases hRestart
  · split at hRestart
    · rename_i hNone
      cases hRestart
      rw [hNone] at hAccrued hWallets hEvictions hBanned
      refine
        ⟨⟨hSynced.diskUp, ?_, ?_, ?_, ?_⟩,
          ⟨hAccrued, hWallets, hEvictions, hBanned⟩⟩
      all_goals
        unfold onDisk
        rw [hNone]
        rfl
    · rename_i saved hSaved
      cases hRestart
      rw [hSaved] at hAccrued hWallets hEvictions hBanned
      refine
        ⟨⟨hSynced.diskUp, ?_, ?_, ?_, ?_⟩,
          ⟨hAccrued, hWallets, hEvictions, hBanned⟩⟩
      all_goals
        unfold onDisk
        rw [hSaved]
        rfl

end Registry

end CircuitDllm

------------------------------------------------------------
-- Every Operation Keeps It
------------------------------------------------------------

namespace CircuitDllm

namespace Registry

variable {cfg : RegistryConfig} {r : Registry}

theorem synced_register
    (hFile : cfg.hasStateFile = true)
    (hSynced : r.Synced)
    (node : Node)
    (now : ℚ)
    (preferRange : Option PreferRange) :
    (r.register cfg node now preferRange).2.Synced := by
  cases register_cases cfg node now preferRange r with
  | refused e hReach hEnd =>
      rw [hEnd]
      exact hSynced
  | dropped e hReach hHolder hEntry hEnd =>
      rw [hEnd]
      exact hSynced.of_eq rfl rfl
  | entered slot assignment orchIndex hReach hEntry hSlot
      hEnd =>
      rw [hEnd]
      unfold grant
      cases cfg.deriveNodeKey node.nodeId with
      | none => exact hSynced.of_eq rfl rfl
      | some key =>
          apply synced_saveState hFile
          exact hSynced.diskUp

theorem synced_recordCheck
    (hFile : cfg.hasStateFile = true)
    (hSynced : r.Synced)
    (nodeId : String)
    (ok : Bool)
    (promoteAfter strikeMax : Int) :
    (r.recordCheck cfg nodeId ok promoteAfter
      strikeMax).2.Synced := by
  unfold recordCheck
  simp only
  split
  · exact synced_saveState hFile hSynced.diskUp
  · exact hSynced.of_eq rfl rfl

theorem synced_recordWork
    (hFile : cfg.hasStateFile = true)
    (hSynced : r.Synced)
    (route : List (String × Int × Int))
    (paidRaw : Int) :
    (r.recordWork cfg route paidRaw).Synced := by
  unfold recordWork
  simp only
  split
  · exact hSynced
  · exact synced_saveState hFile hSynced.diskUp

theorem synced_acquireRoute
    (hSynced : r.Synced)
    (session : Nat) :
    (r.acquireRoute session).2.Synced := by
  unfold acquireRoute
  split
  · exact hSynced
  · split
    · exact hSynced.of_eq rfl rfl
    · exact hSynced.of_eq rfl rfl

theorem synced_releaseEntry
    (hSynced : r.Synced)
    (session : Nat) :
    (r.releaseEntry session).Synced := by
  unfold releaseEntry
  split
  · exact hSynced
  · exact hSynced.of_eq rfl rfl

theorem synced_acquireEntry
    (hSynced : r.Synced)
    (session : Nat) :
    (r.acquireEntry session).2.Synced := by
  have hReleased := synced_releaseEntry hSynced session
  unfold acquireEntry
  simp only
  split
  · exact hReleased
  · exact hReleased.of_eq rfl rfl

/- While writing works the file stays up to date. -/
theorem synced_step
    (hFile : cfg.hasStateFile = true)
    (hSynced : r.Synced)
    {op : RegistryOp}
    (hDurable : Durable cfg op) :
    (r.step cfg op).Synced := by
  cases op with
  | register node now preferRange =>
      exact synced_register hFile hSynced node now preferRange
  | recordCheck nodeId ok promoteAfter strikeMax =>
      exact
        synced_recordCheck hFile hSynced nodeId ok
          promoteAfter strikeMax
  | acquireRoute session =>
      exact synced_acquireRoute hSynced session
  | acquireEntry session =>
      exact synced_acquireEntry hSynced session
  | releaseEntry session =>
      exact synced_releaseEntry hSynced session
  | recordWork route paidRaw =>
      exact synced_recordWork hFile hSynced route paidRaw
  | settle minPayoutRaw =>
      exact synced_saveState hFile hSynced.diskUp
  | restart =>
      simp only [step]
      split
      · exact hSynced
      · rename_i r' hRestart
        exact (synced_restart hFile hSynced hRestart).1
  | disk up =>
      exact
        hSynced.of_eq (hDurable.trans hSynced.diskUp.symm) rfl
  | heartbeat nodeId now =>
      exact hSynced.of_eq rfl rfl
  | drain nodeId =>
      exact hSynced.of_eq rfl rfl
  | markReady nodeId =>
      exact hSynced.of_eq rfl rfl
  | markSuspect nodeId =>
      exact hSynced.of_eq rfl rfl
  | setTrusted nodeId =>
      exact hSynced.of_eq rfl rfl
  | setRtt nodeId ms =>
      exact hSynced.of_eq rfl rfl
  | tick now => exact hSynced.of_eq rfl rfl
  | releaseRoute session =>
      exact hSynced.of_eq rfl rfl

end Registry

end CircuitDllm

------------------------------------------------------------
-- What Operations Remember
------------------------------------------------------------

namespace CircuitDllm

namespace Registry

/- The operations that write the file. -/
def Writes : RegistryOp → Prop
| .register .. => True
| .recordCheck .. => True
| .recordWork .. => True
| .settle .. => True
| _ => False

variable {cfg : RegistryConfig} {r : Registry}

theorem Remembers.refl (r : Registry) : Remembers r r :=
  ⟨rfl, rfl, rfl, rfl⟩

/- Writing the file changes nothing else. -/
theorem remembers_saveState
    (cfg : RegistryConfig)
    (r : Registry) :
    Remembers r (r.saveState cfg) := by
  unfold saveState
  split
  · exact ⟨rfl, rfl, rfl, rfl⟩
  · exact Remembers.refl r

theorem remembers_acquireRoute (session : Nat) :
    Remembers r (r.acquireRoute session).2 := by
  unfold acquireRoute
  split
  · exact Remembers.refl r
  · split
    · exact ⟨rfl, rfl, rfl, rfl⟩
    · exact ⟨rfl, rfl, rfl, rfl⟩

theorem remembers_releaseEntry (session : Nat) :
    Remembers r (r.releaseEntry session) := by
  unfold releaseEntry
  split
  · exact Remembers.refl r
  · exact ⟨rfl, rfl, rfl, rfl⟩

theorem remembers_acquireEntry (session : Nat) :
    Remembers r (r.acquireEntry session).2 := by
  have hReleased := remembers_releaseEntry (r := r) session
  unfold acquireEntry
  simp only
  split
  · exact hReleased
  · exact
      ⟨hReleased.accrued, hReleased.wallets,
        hReleased.evictionCounts, hReleased.banned⟩

/- The others change nothing a registry remembers. -/
theorem remembers_step
    (hSynced : cfg.hasStateFile = true → r.Synced)
    {op : RegistryOp}
    (hDurable : Durable cfg op)
    (hQuiet : ¬ Writes op) :
    Remembers r (r.step cfg op) := by
  cases op with
  | register node now preferRange =>
      exact absurd trivial hQuiet
  | recordCheck nodeId ok promoteAfter strikeMax =>
      exact absurd trivial hQuiet
  | recordWork route paidRaw => exact absurd trivial hQuiet
  | settle minPayoutRaw => exact absurd trivial hQuiet
  | acquireRoute session =>
      exact remembers_acquireRoute session
  | acquireEntry session =>
      exact remembers_acquireEntry session
  | releaseEntry session =>
      exact remembers_releaseEntry session
  | restart =>
      simp only [step]
      split
      · exact Remembers.refl r
      · rename_i r' hRestart
        exact
          (synced_restart hDurable (hSynced hDurable)
            hRestart).2
  | _ => exact ⟨rfl, rfl, rfl, rfl⟩

/- A registration remembers all but the wallet it sets. -/
theorem remembers_register
    (cfg : RegistryConfig)
    (r : Registry)
    (node : Node)
    (now : ℚ)
    (preferRange : Option PreferRange) :
    ∃ wallets,
      Remembers { r with wallets := wallets }
        (r.register cfg node now preferRange).2 := by
  cases register_cases cfg node now preferRange r with
  | refused e hReach hEnd =>
      rw [hEnd]
      exact ⟨r.wallets, ⟨rfl, rfl, rfl, rfl⟩⟩
  | dropped e hReach hHolder hEntry hEnd =>
      rw [hEnd]
      exact ⟨r.wallets, ⟨rfl, rfl, rfl, rfl⟩⟩
  | entered slot assignment orchIndex hReach hEntry hSlot
      hEnd =>
      rw [hEnd]
      unfold grant
      cases cfg.deriveNodeKey node.nodeId with
      | none => exact ⟨r.wallets, ⟨rfl, rfl, rfl, rfl⟩⟩
      | some key =>
          refine
            ⟨r.wallets.set node.nodeId node.payoutWallet, ?_⟩
          simp only
          have hSaved :=
            fun r' => remembers_saveState cfg r'
          exact
            ⟨(hSaved _).accrued, (hSaved _).wallets,
              (hSaved _).evictionCounts, (hSaved _).banned⟩

end Registry

end CircuitDllm
