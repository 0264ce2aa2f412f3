import CircuitDllm.Mesh.RoutingSafe
import CircuitDllm.Mesh.StateFile
import Mathlib.Tactic.Linarith

/-
  Bans.

  A node is banned by its ban_after-th eviction.  A banned
  node cannot register, and what the table still has of it
  stays out of service, so that nothing routes to it again.

  Main declarations:
    * `Registry.OutOfService`, `Registry.out_step`
    * `Registry.evictions`, `Registry.bans_step`
    * `Registry.BanPermanent`, `Registry.banPermanent_run`
-/

------------------------------------------------------------
-- Nodes Out of Service
------------------------------------------------------------

namespace CircuitDllm

namespace Registry

/- DEAD or DRAINING: no message but a registration helps. -/
def OutOfService (n : Node) : Prop :=
  n.state = .dead ∨ n.state = .draining

variable {cfg : RegistryConfig} {r : Registry}

theorem OutOfService.not_ready
    {n : Node}
    (hOut : OutOfService n) :
    n.state ≠ .ready := by
  intro hReady
  rcases hOut with hDead | hDraining
  · rw [hDead] at hReady
    cases hReady
  · rw [hDraining] at hReady
    cases hReady

/- A banned node does not come back. -/
theorem out_step
    {h : String}
    (hBanned : h ∈ r.banned)
    (hOut :
      ∀ n, r.topo.nodes.get? h = some n → OutOfService n)
    (op : RegistryOp)
    {n' : Node}
    (hN' : (r.step cfg op).topo.nodes.get? h = some n') :
    OutOfService n' := by
  rw [get?_step] at hN'
  cases op with
  | register node now preferRange =>
      simp only [nodeStep] at hN'
      split at hN'
      · rename_i hId
        have hReach : ¬ r.Reaches cfg node := fun hReach =>
          hReach.1 (hId ▸ hBanned)
        simp only [entry, hReach, not_false_eq_true, if_true]
          at hN'
        exact hOut n' hN'
      · exact hOut n' hN'
  | heartbeat nodeId now =>
      refine of_modified hOut (fun n hN => ?_) hN'
      rcases hN with hDead | hDraining
      · simp [OutOfService, hDead]
      · simp [OutOfService, hDraining]
  | drain nodeId =>
      exact of_modified hOut (fun _ _ => Or.inr rfl) hN'
  | markReady nodeId =>
      refine of_modified hOut (fun n hN => ?_) hN'
      rcases hN with hDead | hDraining
      · simp [OutOfService, hDead]
      · simp [OutOfService, hDraining]
  | markSuspect nodeId =>
      refine of_modified hOut (fun n hN => ?_) hN'
      rcases hN with hDead | hDraining
      · simp [OutOfService, hDead]
      · simp [OutOfService, hDraining]
  | setTrusted nodeId =>
      refine of_modified hOut (fun n hN => ?_) hN'
      exact hN
  | recordCheck nodeId ok promoteAfter strikeMax =>
      refine of_modified hOut (fun n hN => ?_) hN'
      cases ok with
      | true =>
          simp only [if_true, OutOfService,
            Topology.passCheck_state]
          exact hN
      | false =>
          simp only [Bool.false_eq_true, if_false,
            OutOfService, Topology.failCheck_state]
          split
          · exact Or.inl rfl
          · exact hN
  | tick now =>
      simp only [nodeStep] at hN'
      have hMap := (Option.filter_eq_some_iff.mp hN').1
      rcases Option.map_eq_some_iff.mp hMap with ⟨n, hN, rfl⟩
      unfold Topology.reaped
      split
      · exact Or.inl rfl
      · exact hOut n hN
  | restart =>
      simp only [nodeStep] at hN'
      split at hN'
      · exact hOut n' hN'
      · cases hN'
  | _ => exact hOut n' hN'

end Registry

end CircuitDllm

------------------------------------------------------------
-- Evictions
------------------------------------------------------------

namespace CircuitDllm

namespace Registry

variable (cfg : RegistryConfig)

/- The event evicted the node. -/
def evicts (h : String) (e : Event) : Bool :=
  match e.2 with
  | .recordCheck nodeId ok promoteAfter strikeMax =>
    nodeId = h ∧
      (e.1.recordCheck cfg nodeId ok promoteAfter
        strikeMax).1 = some .evicted
  | _ => false

/- How often it has been evicted. -/
def evictions (h : String) (past : List Event) : Nat :=
  past.countP (evicts cfg h)

/- The count the registry keeps. -/
def evictionCount (r : Registry) (h : String) : Int :=
  (r.evictionCounts.get? h).getD 0

variable {cfg : RegistryConfig} {r : Registry}

/- A challenge counts an eviction, and bans after enough. -/
theorem bans_recordCheck
    (cfg : RegistryConfig)
    (r : Registry)
    (nodeId : String)
    (ok : Bool)
    (promoteAfter strikeMax : Int)
    (h : String) :
    let op := .recordCheck nodeId ok promoteAfter strikeMax
    (r.step cfg op).evictionCount h =
        r.evictionCount h +
          (evicts cfg h (r, op)).toNat ∧
      (h ∈ (r.step cfg op).banned ↔
        h ∈ r.banned ∨
          evicts cfg h (r, op) ∧
            cfg.banAfter ≤ r.evictionCount h + 1) := by
  have hAction :
      (r.recordCheck cfg nodeId ok promoteAfter
          strikeMax).1 =
        (r.topo.recordCheck nodeId ok promoteAfter
          strikeMax).1 := by
    unfold recordCheck
    simp only
    split
    · rfl
    · rfl
  simp only [evicts, hAction]
  by_cases hEvicted :
      (r.topo.recordCheck nodeId ok promoteAfter
        strikeMax).1 = some .evicted
  · have hSaved :=
      fun r' => remembers_saveState cfg r'
    simp only [step, recordCheck, hEvicted, if_true,
      evictionCount, (hSaved _).evictionCounts,
      (hSaved _).banned, Dict.get?_set]
    by_cases hEq : nodeId = h
    · subst hEq
      constructor
      · simp
      · split
        · simp_all
        · rename_i hNot
          by_cases hMem : nodeId ∈ r.banned
          · simp [hMem]
          · have hLess :
                ¬ cfg.banAfter ≤
                  (r.evictionCounts.get? nodeId).getD 0 + 1 :=
              fun hLe => hNot ⟨hLe, hMem⟩
            simp [hMem, hLess]
    · have hNe : h ≠ nodeId := fun hEq' => hEq hEq'.symm
      constructor
      · simp [hEq]
      · split
        · simp [hEq, hNe]
        · simp [hEq]
  · simp only [step, recordCheck, hEvicted, if_false,
      evictionCount]
    simp

/- Only challenges count and ban. -/
theorem bans_step
    (hSynced : cfg.hasStateFile = true → r.Synced)
    {op : RegistryOp}
    (hDurable : Durable cfg op)
    (h : String) :
    (r.step cfg op).evictionCount h =
        r.evictionCount h +
          (evicts cfg h (r, op)).toNat ∧
      (h ∈ (r.step cfg op).banned ↔
        h ∈ r.banned ∨
          evicts cfg h (r, op) ∧
            cfg.banAfter ≤ r.evictionCount h + 1) := by
  have hSame
      (hCounts :
        (r.step cfg op).evictionCounts = r.evictionCounts)
      (hBanned : (r.step cfg op).banned = r.banned)
      (hNone : evicts cfg h (r, op) = false) :
      (r.step cfg op).evictionCount h =
          r.evictionCount h +
            (evicts cfg h (r, op)).toNat ∧
        (h ∈ (r.step cfg op).banned ↔
          h ∈ r.banned ∨
            evicts cfg h (r, op) ∧
              cfg.banAfter ≤ r.evictionCount h + 1) := by
    unfold evictionCount
    simp [hCounts, hBanned, hNone]
  cases op with
  | recordCheck nodeId ok promoteAfter strikeMax =>
      exact
        bans_recordCheck cfg r nodeId ok promoteAfter strikeMax h
  | register node now preferRange =>
      have hRegister :=
        remembers_register cfg r node now
          preferRange
      rcases hRegister with ⟨wallets, hRemembers⟩
      exact
        hSame hRemembers.evictionCounts hRemembers.banned rfl
  | recordWork route paidRaw =>
      refine hSame ?_ ?_ rfl
      · simp only [step, recordWork]
        split
        · rfl
        · exact (remembers_saveState cfg _).evictionCounts
      · simp only [step, recordWork]
        split
        · rfl
        · exact (remembers_saveState cfg _).banned
  | settle minPayoutRaw =>
      exact
        hSame (remembers_saveState cfg _).evictionCounts
          (remembers_saveState cfg _).banned rfl
  | _ =>
      have hRemembers :=
        remembers_step hSynced hDurable not_false
      exact
        hSame hRemembers.evictionCounts hRemembers.banned rfl

/- What an eviction leaves of a node is out of service. -/
theorem out_of_evicts
    {op : RegistryOp}
    {h : String}
    (hEvicts : evicts cfg h (r, op) = true)
    {n' : Node}
    (hN' : (r.step cfg op).topo.nodes.get? h = some n') :
    OutOfService n' := by
  cases op with
  | recordCheck nodeId ok promoteAfter strikeMax =>
      simp only [evicts, decide_eq_true_eq] at hEvicts
      rcases hEvicts with ⟨rfl, hAction⟩
      rw [get?_step] at hN'
      simp only [nodeStep, if_true] at hN'
      rcases Option.map_eq_some_iff.mp hN' with ⟨n, hN, rfl⟩
      cases ok with
      | true => exact absurd hAction (recordCheck_pass _ _ _ _)
      | false =>
          rw [recordCheck_action hN] at hAction
          have hMax := (Option.ite_none_right_eq_some.mp hAction).1
          left
          simp only [Bool.false_eq_true, if_false,
            Topology.failCheck_state, if_pos hMax]
  | _ => cases hEvicts

end Registry

end CircuitDllm

------------------------------------------------------------
-- What Routing Returns
------------------------------------------------------------

namespace CircuitDllm

namespace Registry

variable {r : Registry}

/- A node of the table that is READY. -/
def Serving (r : Registry) (n : Node) : Prop :=
  r.topo.nodes.get? n.nodeId = some n ∧ n.state = .ready

theorem serving_of_snapshot
    (hWf : r.topo.WellFormed)
    {route : List Node}
    (hOk : r.routeSnapshot = .ok route)
    {n : Node}
    (hMem : n ∈ route) :
    Serving r n := by
  rcases List.getElem?_of_mem hMem with ⟨k, hK⟩
  rw [getElem?_routeSnapshot hOk] at hK
  rcases Option.bind_eq_some_iff.mp hK with
    ⟨slot, hSlot, hHead⟩
  have hHolder :=
    holder_slot hWf (List.mem_of_getElem? hSlot)
      (List.mem_of_mem_head? hHead)
  exact ⟨hHolder.2.1, hHolder.2.2.1⟩

theorem serving_of_acquireRoute
    (hWf : r.topo.WellFormed)
    {session : Nat}
    {route : List Node}
    (hOk : (r.acquireRoute session).1 = .ok route)
    {n : Node}
    (hMem : n ∈ route) :
    Serving r n := by
  rcases List.getElem?_of_mem hMem with ⟨k, hK⟩
  have hSlot := acquireRoute_slot hWf hOk hK
  exact ⟨hSlot.1, hSlot.2.1⟩

theorem serving_of_acquireEntry
    (hWf : r.topo.WellFormed)
    {session : Nat}
    {n : Node}
    (hPick : (r.acquireEntry session).1 = some n) :
    Serving r n := by
  unfold acquireEntry at hPick
  simp only [releaseEntry_topo] at hPick
  split at hPick
  · cases hPick
  · rename_i pick hArgmin
    cases hPick
    have hMem := List.argmin_mem hArgmin
    rw [List.mem_filter, Dict.mem_values] at hMem
    rcases hMem with ⟨⟨h, hN⟩, hReady⟩
    simp only [Bool.decide_and, Bool.and_eq_true,
      decide_eq_true_eq] at hReady
    refine ⟨?_, hReady.2⟩
    rw [hWf.keyed h n hN]
    exact hN

end Registry

end CircuitDllm

------------------------------------------------------------
-- Runs
------------------------------------------------------------

namespace CircuitDllm

namespace Registry

variable (cfg : RegistryConfig)

/- What every operation keeps of the bans. -/
structure BanInv (past : List Event) (r : Registry) : Prop where
  count : ∀ h, r.evictionCount h = evictions cfg h past
  banned :
    ∀ h, h ∈ r.banned ↔
      cfg.banAfter ≤ evictions cfg h past
  out :
    ∀ h ∈ r.banned, ∀ n,
      r.topo.nodes.get? h = some n → OutOfService n
  kept : ∀ e ∈ past, ∀ h ∈ e.1.banned, h ∈ r.banned

/- A ban is permanent. -/
structure BanPermanent
    (past : List Event)
    (r : Registry) : Prop where
  /- exactly those evicted often enough are banned -/
  banned :
    ∀ h, h ∈ r.banned ↔
      cfg.banAfter ≤ evictions cfg h past
  /- whoever was banned before still is -/
  kept : ∀ e ∈ past, ∀ h ∈ e.1.banned, h ∈ r.banned
  refused :
    ∀ node now preferRange, node.nodeId ∈ r.banned →
      r.register cfg node now preferRange =
        (.error (.banned node.nodeId cfg.banAfter), r)
  notReady :
    ∀ h ∈ r.banned, ∀ n,
      r.topo.nodes.get? h = some n → n.state ≠ .ready
  snapshot :
    ∀ route, r.routeSnapshot = .ok route →
      ∀ n ∈ route, n.nodeId ∉ r.banned
  route :
    ∀ session route,
      (r.acquireRoute session).1 = .ok route →
        ∀ n ∈ route, n.nodeId ∉ r.banned
  entry :
    ∀ session n,
      (r.acquireEntry session).1 = some n →
        n.nodeId ∉ r.banned

variable {cfg : RegistryConfig} {r : Registry}

theorem banInv_create
    (hBanAfter : 1 ≤ cfg.banAfter)
    (hCreate : create cfg = .ok r) :
    BanInv cfg [] r := by
  rcases create_ok hCreate with ⟨topo, _, rfl⟩
  refine
    { count := fun h => rfl
      banned := fun h => ?_
      out := fun h hMem => absurd hMem List.not_mem_nil
      kept := fun e hE => absurd hE List.not_mem_nil }
  constructor
  · exact fun hMem => absurd hMem List.not_mem_nil
  · intro hLe
    simp only [evictions, List.countP_nil, Nat.cast_zero]
      at hLe
    omega

theorem evictions_snoc
    (cfg : RegistryConfig)
    (h : String)
    (past : List Event)
    (e : Event) :
    evictions cfg h (past ++ [e]) =
      evictions cfg h past + (evicts cfg h e).toNat := by
  unfold evictions
  rw [List.countP_append, List.countP_singleton]
  cases evicts cfg h e with
  | true => rfl
  | false => rfl

/- Every operation keeps the bans. -/
theorem banInv_step
    (hSynced : cfg.hasStateFile = true → r.Synced)
    {past : List Event}
    (hInv : BanInv cfg past r)
    {op : RegistryOp}
    (hDurable : Durable cfg op) :
    BanInv cfg (past ++ [(r, op)]) (r.step cfg op) := by
  have hBans := bans_step hSynced hDurable
  have hKept (h : String) (hMem : h ∈ r.banned) :
      h ∈ (r.step cfg op).banned :=
    (hBans h).2.mpr (Or.inl hMem)
  refine
    { count := fun h => ?_
      banned := fun h => ?_
      out := fun h hMem n hN => ?_
      kept := fun e hE h hMem => ?_ }
  · rw [(hBans h).1, hInv.count, evictions_snoc]
    push_cast
    rfl
  · rw [(hBans h).2, hInv.banned, hInv.count,
      evictions_snoc]
    cases evicts cfg h (r, op) with
    | true =>
        simp only [true_and, Bool.toNat_true]
        push_cast
        constructor
        · rintro (hOld | hNow)
          · linarith
          · exact hNow
        · exact Or.inr
    | false => simp
  · rcases (hBans h).2.mp hMem with hOld | ⟨hEvicts, _⟩
    · exact out_step hOld (hInv.out h hOld) op hN
    · exact out_of_evicts hEvicts hN
  · rcases List.mem_append.mp hE with hOld | hNew
    · exact hKept h (hInv.kept e hOld h hMem)
    · rw [List.mem_singleton.mp hNew] at hMem
      exact hKept h hMem

theorem BanInv.permanent
    {past : List Event}
    (hInv : BanInv cfg past r)
    (hWf : r.topo.WellFormed) :
    BanPermanent cfg past r := by
  have hFree (n : Node) (hServing : Serving r n) :
      n.nodeId ∉ r.banned := fun hMem =>
    (hInv.out n.nodeId hMem n hServing.1).not_ready hServing.2
  exact
    { banned := hInv.banned
      kept := hInv.kept
      refused := fun node now preferRange hMem => by
        rw [register, if_pos hMem]
      notReady := fun h hMem n hN =>
        (hInv.out h hMem n hN).not_ready
      snapshot := fun _ hOk n hMem =>
        hFree n (serving_of_snapshot hWf hOk hMem)
      route := fun _ _ hOk n hMem =>
        hFree n (serving_of_acquireRoute hWf hOk hMem)
      entry := fun _ n hPick =>
        hFree n (serving_of_acquireEntry hWf hPick) }

theorem banInv_run
    (hBanAfter : 1 ≤ cfg.banAfter)
    {r₀ : Registry}
    (hCreate : create cfg = .ok r₀)
    {ops : List RegistryOp}
    (hDurable : ∀ op ∈ ops, Durable cfg op) :
    BanInv cfg (trail cfg r₀ ops) (r₀.run cfg ops) := by
  have hRun :
      (cfg.hasStateFile = true →
          (r₀.run cfg ops).Synced) ∧
        BanInv cfg (trail cfg r₀ ops) (r₀.run cfg ops) :=
    History.induction_of (step cfg)
      (fun e => Durable cfg e.2)
      (fun past r =>
        (cfg.hasStateFile = true → r.Synced) ∧
          BanInv cfg past r)
      ⟨fun _ => synced_create hCreate,
        banInv_create hBanAfter hCreate⟩
      (fun _ _ _ hOp hInv =>
        ⟨fun hFile => synced_step hFile (hInv.1 hFile) hOp,
          banInv_step hInv.1 hInv.2 hOp⟩)
      (fun _ hE => hDurable _ (History.mem_of_trail hE))
  exact hRun.2

/- In every run bans are permanent. -/
theorem banPermanent_run
    (hBanAfter : 1 ≤ cfg.banAfter)
    {r₀ : Registry}
    (hCreate : create cfg = .ok r₀)
    {ops : List RegistryOp}
    (hDurable : ∀ op ∈ ops, Durable cfg op) :
    BanPermanent cfg (trail cfg r₀ ops) (r₀.run cfg ops) :=
  (banInv_run hBanAfter hCreate hDurable).permanent
    (wellFormed_run cfg (wellFormed_create cfg hCreate) ops)

/- One failed challenge bans the seed, also after a restart. -/
def bannedSeed : List RegistryOp :=
  [.register (joining "seed") 0 none,
    .markReady "seed",
    .recordCheck "seed" false 3 1,
    .restart,
    .register (joining "seed") 1 none]

theorem banPermanent_run_seed :
    ∃ r₀,
      create
          { oneSlot with hasStateFile := true, banAfter := 1 } =
            .ok r₀ ∧
        BanPermanent
          { oneSlot with hasStateFile := true, banAfter := 1 }
          (trail
            { oneSlot with
              hasStateFile := true
              banAfter := 1 } r₀ bannedSeed)
          (r₀.run
            { oneSlot with
              hasStateFile := true
              banAfter := 1 } bannedSeed) := by
  refine ⟨_, rfl, banPermanent_run (by decide) rfl ?_⟩
  intro op hOp
  simp only [bannedSeed, List.mem_cons, List.not_mem_nil,
    or_false] at hOp
  rcases hOp with rfl | rfl | rfl | rfl | rfl
  · exact trivial
  · exact trivial
  · exact trivial
  · rfl
  · exact trivial

end Registry

end CircuitDllm
