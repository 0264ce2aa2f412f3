import CircuitDllm.Mesh.Bans
import CircuitDllm.Mesh.Representation

/-
  Strikes.

  The strikes of a node are part of its entry in the table,
  which a registration replaces and a purge or a restart
  drops.  As long as that happens to no node that has some
  strikes and not yet enough, failed challenges lead to
  evictions and bans at the rate they should.

  Main declarations:
    * `Registry.Launders`
    * `Registry.StrikesKept`
    * `Registry.strikesKept_run`
-/

------------------------------------------------------------
-- Failed Challenges
------------------------------------------------------------

namespace CircuitDllm

namespace Registry

variable (cfg : RegistryConfig)

/- The node failed a challenge. -/
def fails (h : String) (e : Event) : Bool :=
  match e.2 with
  | .recordCheck nodeId ok _ _ => nodeId = h ∧ ok = false
  | _ => false

def failures (h : String) (past : List Event) : Nat :=
  past.countP (fails h)

/- The challenges it failed since it was last evicted. -/
def failuresSince (h : String) (past : List Event) : Nat :=
  past.foldl
    (fun count e =>
      if evicts cfg h e then 0
      else if fails h e then count + 1
      else count)
    0

/- The node fails its challenges, with this limit. -/
def Fixed
    (h : String)
    (strikeMax : Int) : RegistryOp → Prop
| .recordCheck nodeId ok _ limit =>
    nodeId = h → ok = false ∧ limit = strikeMax
| _ => True

/- The node has strikes, but not enough. -/
def OnStrike
    (r : Registry)
    (h : String)
    (strikeMax : Int) : Prop :=
  ∃ n, r.topo.nodes.get? h = some n ∧
    0 < n.strikes ∧ (n.strikes : Int) < strikeMax

/-
  The strikes of the node are lost: it registers, it is
  purged or the control plane restarts while it has some,
  or a failure is recorded while it is not in the table.
-/
def Launders
    (h : String)
    (strikeMax : Int)
    (r : Registry) : RegistryOp → Prop
| .register node _ preferRange =>
    node.nodeId = h ∧ r.OnStrike h strikeMax ∧
      r.Reaches cfg node ∧
      (node.orchestrator = true ∨
        ¬ r.topo.Unplaced node preferRange)
| .tick now =>
    r.OnStrike h strikeMax ∧
      ∃ n, r.topo.nodes.get? h = some n ∧
        r.topo.Gone now (r.topo.reaped now n)
| .restart => r.OnStrike h strikeMax
| .recordCheck nodeId _ _ _ =>
    nodeId = h ∧ r.topo.nodes.get? h = none
| _ => False

/- What failed challenges lead to. -/
structure StrikesKept
    (h : String)
    (strikeMax : Int)
    (past : List Event)
    (r : Registry) : Prop where
  /- the strike_max-th since the last eviction evicts -/
  evicted :
    ∀ before e after,
      past = before ++ e :: after → fails h e = true →
        strikeMax ≤ failuresSince cfg h before + 1 →
          evicts cfg h e = true
  banned :
    strikeMax * cfg.banAfter ≤ failures h past →
      h ∈ r.banned

variable {cfg : RegistryConfig} {r : Registry}

theorem failuresSince_snoc
    (cfg : RegistryConfig)
    (h : String)
    (past : List Event)
    (e : Event) :
    failuresSince cfg h (past ++ [e]) =
      if evicts cfg h e then 0
      else if fails h e then failuresSince cfg h past + 1
      else failuresSince cfg h past := by
  unfold failuresSince
  rw [List.foldl_append]
  rfl

/- Only failed challenges evict. -/
theorem fails_of_evicts
    {h : String}
    {e : Event}
    (hEvicts : evicts cfg h e = true) :
    fails h e = true := by
  rcases e with ⟨r, op⟩
  cases op with
  | recordCheck nodeId ok promoteAfter strikeMax =>
      simp only [evicts, decide_eq_true_eq] at hEvicts
      rcases hEvicts with ⟨rfl, hAction⟩
      cases ok with
      | true => exact absurd hAction (recordCheck_pass _ _ _ _)
      | false => simp [fails]
  | _ => cases hEvicts

end Registry

end CircuitDllm

------------------------------------------------------------
-- Strikes in the Table
------------------------------------------------------------

namespace CircuitDllm

namespace Registry

variable {cfg : RegistryConfig} {r : Registry}

/- The strikes the table has for a node. -/
def strikesOf (r : Registry) (h : String) : Nat :=
  (r.topo.nodes.get? h).elim 0 (·.strikes)

/- The strikes of the table are those since the eviction. -/
structure StrikeInv
    (cfg : RegistryConfig)
    (h : String)
    (strikeMax : Int)
    (past : List Event)
    (r : Registry) : Prop where
  counted :
    failuresSince cfg h past ≤ r.strikesOf h
  enough :
    strikeMax ≤ r.strikesOf h →
      failuresSince cfg h past = 0

/- Without strikes to lose nothing was counted. -/
theorem StrikeInv.eq_zero
    {h : String}
    {strikeMax : Int}
    {past : List Event}
    (hInv : StrikeInv cfg h strikeMax past r)
    (hNot : ¬ r.OnStrike h strikeMax) :
    failuresSince cfg h past = 0 := by
  have hCounted := hInv.counted
  have hEnough := hInv.enough
  unfold strikesOf at hCounted hEnough
  cases hN : r.topo.nodes.get? h with
  | none =>
      rw [hN] at hCounted
      simpa using hCounted
  | some n =>
      rw [hN] at hCounted hEnough
      simp only [Option.elim_some] at hCounted hEnough
      by_cases hZero : n.strikes = 0
      · omega
      · apply hEnough
        by_contra hLess
        exact hNot ⟨n, hN, by omega, by omega⟩

/- Other operations keep the strikes, or launder them. -/
theorem strikesOf_step
    {h : String}
    {strikeMax : Int}
    {op : RegistryOp}
    (hQuiet : ¬ Launders cfg h strikeMax r op)
    (hOther : fails h (r, op) = false)
    (hFixed : Fixed h strikeMax op) :
    (r.step cfg op).strikesOf h = r.strikesOf h ∨
      ¬ r.OnStrike h strikeMax := by
  unfold strikesOf
  rw [get?_step]
  cases op with
  | register node now preferRange =>
      simp only [nodeStep]
      by_cases hId : node.nodeId = h
      · rw [if_pos hId]
        cases hEntry : r.entry cfg node preferRange with
        | none => exact Or.inl rfl
        | some slot =>
            right
            intro hStrike
            have hReach : r.Reaches cfg node := by
              by_contra hNot
              simp [entry, hNot] at hEntry
            refine hQuiet ⟨hId, hStrike, hReach, ?_⟩
            cases hOrch : node.orchestrator with
            | true => exact Or.inl rfl
            | false =>
                refine Or.inr (fun hUnplaced => ?_)
                rw [(entry_eq_none hReach hOrch).mpr hUnplaced]
                  at hEntry
                cases hEntry
      · rw [if_neg hId]
        exact Or.inl rfl
  | recordCheck nodeId ok promoteAfter limit =>
      simp only [nodeStep]
      by_cases hId : nodeId = h
      · have hFailed := (hFixed hId).1
        simp [fails, hId, hFailed] at hOther
      · rw [if_neg hId]
        exact Or.inl rfl
  | tick now =>
      simp only [nodeStep]
      cases hN : r.topo.nodes.get? h with
      | none => exact Or.inl rfl
      | some n =>
          by_cases hGone :
              r.topo.Gone now (r.topo.reaped now n)
          · right
            exact fun hStrike =>
              hQuiet ⟨hStrike, n, hN, hGone⟩
          · left
            have hStrikes :
                (r.topo.reaped now n).strikes = n.strikes := by
              unfold Topology.reaped
              split
              · rfl
              · rfl
            simp [Option.filter, hGone, hStrikes]
  | restart => exact Or.inr hQuiet
  | heartbeat nodeId now =>
      left
      refine elim_modified (fun n => ?_) _ _ _ _
      split
      · rfl
      · rfl
  | markReady nodeId =>
      left
      refine elim_modified (fun n => ?_) _ _ _ _
      split
      · rfl
      · rfl
  | markSuspect nodeId =>
      left
      refine elim_modified (fun n => ?_) _ _ _ _
      split
      · rfl
      · rfl
  | drain nodeId =>
      left
      refine elim_modified (fun n => ?_) _ _ _ _
      rfl
  | setTrusted nodeId =>
      left
      refine elim_modified (fun n => ?_) _ _ _ _
      rfl
  | _ => exact Or.inl rfl

end Registry

end CircuitDllm

------------------------------------------------------------
-- Runs
------------------------------------------------------------

namespace CircuitDllm

namespace Registry

variable {cfg : RegistryConfig} {r : Registry}

/- A failed challenge counts, or evicts. -/
theorem strikeInv_fails
    {h : String}
    {strikeMax : Int}
    {past : List Event}
    (hInv : StrikeInv cfg h strikeMax past r)
    {op : RegistryOp}
    (hQuiet : ¬ Launders cfg h strikeMax r op)
    (hFixed : Fixed h strikeMax op)
    (hFails : fails h (r, op) = true) :
    StrikeInv cfg h strikeMax (past ++ [(r, op)])
        (r.step cfg op) ∧
      (strikeMax ≤ failuresSince cfg h past + 1 →
        evicts cfg h (r, op) = true) := by
  cases op with
  | recordCheck nodeId ok promoteAfter limit =>
      simp only [fails, decide_eq_true_eq] at hFails
      rcases hFails with ⟨rfl, rfl⟩
      have hLimit := (hFixed rfl).2
      subst hLimit
      cases hN : r.topo.nodes.get? nodeId with
      | none => exact absurd ⟨rfl, hN⟩ hQuiet
      | some n =>
          have hStrikes :
              (r.step cfg
                (.recordCheck nodeId false promoteAfter
                  limit)).strikesOf nodeId =
                n.strikes + 1 := by
            unfold strikesOf
            rw [get?_step]
            simp [nodeStep, hN]
          have hAction :
              evicts cfg nodeId
                  (r, .recordCheck nodeId false promoteAfter
                    limit) =
                decide (limit ≤ (n.strikes + 1 : Nat)) := by
            simp only [evicts, recordCheck_action hN]
            simp
          have hCounted := hInv.counted
          have hEnough := hInv.enough
          unfold strikesOf at hCounted hEnough
          rw [hN] at hCounted hEnough
          simp only [Option.elim_some] at hCounted hEnough
          have hSince :=
            failuresSince_snoc cfg nodeId past
              (r, .recordCheck nodeId false promoteAfter limit)
          rw [hAction] at hSince ⊢
          by_cases hMax : limit ≤ (n.strikes + 1 : Nat)
          · simp only [hMax, decide_true, if_true] at hSince
            refine
              ⟨⟨?_, fun _ => hSince⟩,
                fun _ => decide_eq_true hMax⟩
            omega
          · have hFailed :
                fails nodeId
                  (r, .recordCheck nodeId false promoteAfter
                    limit) = true := by
              simp [fails]
            simp only [hMax, decide_false, Bool.false_eq_true,
              if_false, hFailed, if_true] at hSince
            refine ⟨⟨?_, fun hLe => ?_⟩, fun hLe => ?_⟩
            · rw [hSince, hStrikes]
              omega
            · rw [hStrikes] at hLe
              exact absurd hLe hMax
            · push_cast at hMax
              omega
  | _ => cases hFails

theorem strikeInv_step
    {h : String}
    {strikeMax : Int}
    {past : List Event}
    (hInv : StrikeInv cfg h strikeMax past r)
    {op : RegistryOp}
    (hQuiet : ¬ Launders cfg h strikeMax r op)
    (hFixed : Fixed h strikeMax op) :
    StrikeInv cfg h strikeMax (past ++ [(r, op)])
      (r.step cfg op) := by
  cases hFails : fails h (r, op) with
  | true =>
      exact (strikeInv_fails hInv hQuiet hFixed hFails).1
  | false =>
      have hEvicts : evicts cfg h (r, op) = false := by
        cases hEvicts : evicts cfg h (r, op) with
        | false => rfl
        | true =>
            rw [fails_of_evicts hEvicts] at hFails
            cases hFails
      have hSince :=
        failuresSince_snoc cfg h past (r, op)
      simp only [hEvicts, hFails, Bool.false_eq_true,
        if_false] at hSince
      rcases strikesOf_step hQuiet hFails hFixed with
        hSame | hNot
      · refine ⟨?_, fun hLe => ?_⟩
        · rw [hSince, hSame]
          exact hInv.counted
        · rw [hSame] at hLe
          rw [hSince]
          exact hInv.enough hLe
      · have hZero := hInv.eq_zero hNot
        refine ⟨?_, fun _ => ?_⟩
        · rw [hSince, hZero]
          exact Nat.zero_le _
        · rw [hSince, hZero]

/- Each eviction takes at most strike_max failures. -/
structure StrikeRate
    (cfg : RegistryConfig)
    (h : String)
    (strikeMax : Int)
    (past : List Event) : Prop where
  less : (failuresSince cfg h past : Int) < strikeMax
  rate :
    (failures h past : Int) ≤
      strikeMax * evictions cfg h past +
        failuresSince cfg h past
  evicted :
    ∀ before e after,
      past = before ++ e :: after → fails h e = true →
        strikeMax ≤ failuresSince cfg h before + 1 →
          evicts cfg h e = true

theorem strikeRate_nil
    (h : String)
    {strikeMax : Int}
    (hMax : 1 ≤ strikeMax) :
    StrikeRate cfg h strikeMax [] where
  less := by
    simp only [failuresSince, List.foldl_nil, Nat.cast_zero]
    omega
  rate := by simp [failures, evictions, failuresSince]
  evicted before e after hEq := absurd hEq (by simp)

theorem strikeRate_step
    {h : String}
    {strikeMax : Int}
    {past : List Event}
    (hInv : StrikeInv cfg h strikeMax past r)
    (hRate : StrikeRate cfg h strikeMax past)
    {op : RegistryOp}
    (hQuiet : ¬ Launders cfg h strikeMax r op)
    (hFixed : Fixed h strikeMax op) :
    StrikeRate cfg h strikeMax (past ++ [(r, op)]) := by
  have hLess := hRate.less
  have hOld := hRate.rate
  have hSince :=
    failuresSince_snoc cfg h past (r, op)
  have hFailures :
      failures h (past ++ [(r, op)]) =
        failures h past + (fails h (r, op)).toNat := by
    unfold failures
    rw [List.countP_append, List.countP_singleton]
    cases fails h (r, op) with
    | true => rfl
    | false => rfl
  have hEvictions :=
    evictions_snoc cfg h past (r, op)
  have hLast (hFails : fails h (r, op) = true)
      (hLe : strikeMax ≤ failuresSince cfg h past + 1) :
      evicts cfg h (r, op) = true :=
    (strikeInv_fails hInv hQuiet hFixed hFails).2 hLe
  have hEvicted :
      ∀ before e after,
        past ++ [(r, op)] = before ++ e :: after →
          fails h e = true →
            strikeMax ≤ failuresSince cfg h before + 1 →
              evicts cfg h e = true := by
    intro before e after hEq hFails hLe
    rcases History.last_or_before hEq with
      ⟨rfl, rfl⟩ | ⟨init, _, hPast⟩
    · exact hLast hFails hLe
    · exact hRate.evicted before e init hPast hFails hLe
  cases hEvicts : evicts cfg h (r, op) with
  | true =>
      have hFails := fails_of_evicts hEvicts
      rw [hEvicts] at hSince hEvictions
      rw [hFails] at hFailures
      simp only [if_true] at hSince
      refine ⟨?_, ?_, hEvicted⟩
      · rw [hSince, Nat.cast_zero]
        omega
      · rw [hFailures, hEvictions, hSince]
        simp only [Bool.toNat_true]
        push_cast
        rw [mul_add]
        linarith
  | false =>
      rw [hEvicts] at hSince hEvictions
      simp only [Bool.false_eq_true, if_false] at hSince
      simp only [Bool.toNat_false, add_zero] at hEvictions
      cases hFails : fails h (r, op) with
      | true =>
          rw [hFails] at hSince hFailures
          simp only [if_true] at hSince
          have hNot :
              ¬ strikeMax ≤ failuresSince cfg h past + 1 :=
            fun hLe => by
              rw [hLast hFails hLe] at hEvicts
              cases hEvicts
          refine ⟨?_, ?_, hEvicted⟩
          · rw [hSince]
            push_cast
            omega
          · rw [hFailures, hEvictions, hSince]
            simp only [Bool.toNat_true]
            push_cast
            linarith
      | false =>
          rw [hFails] at hSince hFailures
          simp only [Bool.false_eq_true, if_false] at hSince
          simp only [Bool.toNat_false, add_zero] at hFailures
          refine ⟨?_, ?_, hEvicted⟩
          · rw [hSince]
            exact hLess
          · rw [hFailures, hEvictions, hSince]
            exact hOld

/-
  In a run that launders no strikes of the node, failed
  challenges evict and ban it in time.
-/
theorem strikesKept_run
    {h : String}
    {strikeMax : Int}
    (hMax : 1 ≤ strikeMax)
    (hBanAfter : 1 ≤ cfg.banAfter)
    {r₀ : Registry}
    (hCreate : create cfg = .ok r₀)
    {ops : List RegistryOp}
    (hFixed : ∀ op ∈ ops, Fixed h strikeMax op)
    (hDurable : ∀ op ∈ ops, Durable cfg op)
    (hQuiet :
      ∀ e ∈ trail cfg r₀ ops,
        ¬ Launders cfg h strikeMax e.1 e.2) :
    StrikesKept cfg h strikeMax (trail cfg r₀ ops)
      (r₀.run cfg ops) := by
  have hNodes : r₀.strikesOf h = 0 := by
    rcases create_ok hCreate with ⟨topo, hTopo, rfl⟩
    unfold strikesOf
    rw [Topology.create_nodes hTopo]
    rfl
  have hRun :
      StrikeInv cfg h strikeMax (trail cfg r₀ ops)
          (r₀.run cfg ops) ∧
        StrikeRate cfg h strikeMax (trail cfg r₀ ops) :=
    History.induction_of (step cfg)
      (fun e =>
        Fixed h strikeMax e.2 ∧
          ¬ Launders cfg h strikeMax e.1 e.2)
      (fun past r =>
        StrikeInv cfg h strikeMax past r ∧
          StrikeRate cfg h strikeMax past)
      ⟨⟨Nat.zero_le _, fun _ => rfl⟩,
        strikeRate_nil h hMax⟩
      (fun _ _ _ hOp hInv =>
        ⟨strikeInv_step hInv.1 hOp.2 hOp.1,
          strikeRate_step hInv.1 hInv.2 hOp.2 hOp.1⟩)
      (fun e hE =>
        ⟨hFixed _ (History.mem_of_trail hE), hQuiet e hE⟩)
  have hBans := banInv_run hBanAfter hCreate hDurable
  refine ⟨hRun.2.evicted, fun hMany => ?_⟩
  rw [hBans.banned]
  have hRate := hRun.2.rate
  have hLess := hRun.2.less
  by_contra hFew
  have hProduct :
      strikeMax * (evictions cfg h (trail cfg r₀ ops) + 1) ≤
        strikeMax * cfg.banAfter :=
    mul_le_mul_of_nonneg_left (by omega) (by omega)
  rw [mul_add] at hProduct
  linarith

/- One eviction bans. -/
def strictSlot : RegistryConfig :=
  { oneSlot with banAfter := 1 }

/-
  The node registers again before it has a strike; then two
  failed challenges in a row.
-/
def failedTwice : List RegistryOp :=
  [.register (joining "seed") 0 none,
    .markReady "seed",
    .register (joining "seed") 1 none,
    .markReady "seed",
    .recordCheck "seed" false 3 2,
    .recordCheck "seed" false 3 2]

/- The node registers again between them. -/
def laundered : List RegistryOp :=
  [.register (joining "seed") 0 none,
    .markReady "seed",
    .recordCheck "seed" false 3 2,
    .register (joining "seed") 1 none,
    .markReady "seed",
    .recordCheck "seed" false 3 2]

theorem strikesKept_run_seed :
    ∃ r₀,
      create strictSlot = .ok r₀ ∧
        StrikesKept strictSlot "seed" 2
          (trail strictSlot r₀ failedTwice)
          (r₀.run strictSlot failedTwice) := by
  refine
    ⟨_, rfl,
      strikesKept_run (by decide) (by decide) rfl ?_ ?_ ?_⟩
  · intro op hOp
    simp only [failedTwice, List.mem_cons, List.not_mem_nil,
      or_false] at hOp
    rcases hOp with rfl | rfl | rfl | rfl | rfl | rfl
    · exact trivial
    · exact trivial
    · exact trivial
    · exact trivial
    · exact fun _ => ⟨rfl, rfl⟩
    · exact fun _ => ⟨rfl, rfl⟩
  · intro op hOp
    simp only [failedTwice, List.mem_cons, List.not_mem_nil,
      or_false] at hOp
    rcases hOp with rfl | rfl | rfl | rfl | rfl | rfl
    · exact trivial
    · exact trivial
    · exact trivial
    · exact trivial
    · exact trivial
    · exact trivial
  · intro e hE
    simp only [trail, History.trail, failedTwice,
      List.mem_cons, List.not_mem_nil, or_false] at hE
    rcases hE with rfl | rfl | rfl | rfl | rfl | rfl
    · rintro ⟨_, ⟨n, hN, _⟩, _⟩
      cases hN
    · exact id
    · rintro ⟨_, ⟨n, hN, hStrikes, _⟩, _⟩
      cases hN
      exact absurd hStrikes (by decide)
    · exact id
    · rintro ⟨_, hNone⟩
      exact absurd hNone (by decide)
    · rintro ⟨_, hNone⟩
      exact absurd hNone (by decide)

/- Registering again saved the node at its second failure. -/
theorem laundered_evicts :
    ∃ r₀ before e,
      create strictSlot = .ok r₀ ∧
        trail strictSlot r₀ laundered = before ++ e :: [] ∧
        fails "seed" e = true ∧
        (2 : Int) ≤ failuresSince strictSlot "seed" before + 1 ∧
        evicts strictSlot "seed" e = false :=
  ⟨_,
    (trail strictSlot _ laundered).take 5,
    ((trail strictSlot _ laundered).drop 5).head (by decide),
    rfl, rfl, by decide, by decide, by decide⟩

/- Not every node that fails is evicted in time. -/
theorem exists_not_strikesKept :
    ¬ ∀ (cfg : RegistryConfig) (h : String)
        (strikeMax : Int) (r₀ : Registry)
        (ops : List RegistryOp),
      1 ≤ strikeMax → 1 ≤ cfg.banAfter →
        create cfg = .ok r₀ →
          (∀ op ∈ ops, Fixed h strikeMax op) →
            (∀ op ∈ ops, Durable cfg op) →
              StrikesKept cfg h strikeMax (trail cfg r₀ ops)
                (r₀.run cfg ops) := by
  intro hAll
  rcases laundered_evicts with
    ⟨r₀, before, e, hCreate, hTrail, hFails, hLe, hEvicts⟩
  have hKept :=
    hAll strictSlot "seed" 2 r₀ laundered (by decide)
      (by decide) hCreate ?_ ?_
  · have hEvicted :=
      hKept.evicted before e [] hTrail hFails hLe
    rw [hEvicts] at hEvicted
    cases hEvicted
  · intro op hOp
    simp only [laundered, List.mem_cons, List.not_mem_nil,
      or_false] at hOp
    rcases hOp with rfl | rfl | rfl | rfl | rfl | rfl
    · exact trivial
    · exact trivial
    · exact fun _ => ⟨rfl, rfl⟩
    · exact trivial
    · exact trivial
    · exact fun _ => ⟨rfl, rfl⟩
  · intro op hOp
    simp only [laundered, List.mem_cons, List.not_mem_nil,
      or_false] at hOp
    rcases hOp with rfl | rfl | rfl | rfl | rfl | rfl
    · exact trivial
    · exact trivial
    · exact trivial
    · exact trivial
    · exact trivial
    · exact trivial

end Registry

end CircuitDllm
