import CircuitDllm.Mesh.NodeLife
import CircuitDllm.Mesh.StateFile
import CircuitDllm.Mesh.TrustRouting
import Mathlib.Tactic.Linarith
import Mathlib.Tactic.Ring

/-
  The payout ledger.

  A request's pool is split by weight, rounding down, and
  the last server gets the remainder.  What is recorded is
  either still accrued or was returned by a settlement.

  Main declarations:
    * `FairSplit`, `fairSplit_shares`
    * `Registry.Honest`
    * `Registry.Ledger`, `Registry.ledger_run`
-/

------------------------------------------------------------
-- Splitting a Pool
------------------------------------------------------------

namespace CircuitDllm

/- What each server gets but for the remainder. -/
def floors
    (pool total : Int)
    (weights : List (String × Int)) :
    List (String × Int) :=
  weights.map (fun e => (e.1, pool * e.2 / total))

/-
  All but the last server get the floor of their part, the
  last one less than a unit a server more than its floor.
-/
def FairSplit
    (pool total : Int)
    (weights result : List (String × Int)) : Prop :=
  ∃ init nodeId weight share,
    weights = init ++ [(nodeId, weight)] ∧
      result =
        floors pool total init ++ [(nodeId, share)] ∧
      pool * weight / total ≤ share ∧
      share < pool * weight / total + weights.length

/- The shares are the floors and what they leave. -/
theorem shares_snoc
    (pool total assigned : Int)
    (init : List (String × Int))
    (nodeId : String)
    (weight : Int) :
    Registry.shares pool total assigned
        (init ++ [(nodeId, weight)]) =
      floors pool total init ++
        [(nodeId,
          pool - assigned -
            ((floors pool total init).map (·.2)).sum)] := by
  induction init generalizing assigned with
  | nil => simp [Registry.shares, floors]
  | cons e init ih =>
      rcases e with ⟨nid, w⟩
      have hCons :
          Registry.shares pool total assigned
              ((nid, w) :: (init ++ [(nodeId, weight)])) =
            (nid, pool * w / total) ::
              Registry.shares pool total
                (assigned + pool * w / total)
                (init ++ [(nodeId, weight)]) := by
        cases init with
        | nil => rfl
        | cons e' init => rfl
      rw [List.cons_append, hCons, ih]
      simp only [floors, List.map_cons, List.sum_cons,
        List.cons_append]
      rw [show
        pool - (assigned + pool * w / total) -
            (List.map (·.2) (List.map
              (fun e : String × Int =>
                (e.1, pool * e.2 / total)) init)).sum =
          pool - assigned -
            (pool * w / total +
              (List.map (·.2) (List.map
                (fun e : String × Int =>
                  (e.1, pool * e.2 / total)) init)).sum)
        by ring]

/- Rounding down loses less than a unit a server. -/
theorem sum_floors
    (pool : Int)
    {total : Int}
    (hTotal : 0 < total)
    (weights : List (String × Int)) :
    total * ((floors pool total weights).map (·.2)).sum ≤
        pool * (weights.map (·.2)).sum ∧
      pool * (weights.map (·.2)).sum ≤
        total * ((floors pool total weights).map (·.2)).sum +
          weights.length * (total - 1) := by
  induction weights with
  | nil => simp [floors]
  | cons e weights ih =>
      have hDiv := Int.mul_ediv_add_emod (pool * e.2) total
      have hLow := Int.emod_nonneg (pool * e.2) hTotal.ne'
      have hHigh := Int.emod_lt_of_pos (pool * e.2) hTotal
      simp only [floors, List.map_cons, List.sum_cons,
        List.length_cons, Nat.cast_add, Nat.cast_one,
        mul_add, add_mul, one_mul] at ih ⊢
      constructor
      · linarith [ih.1]
      · linarith [ih.2]

/- The pool is split fairly. -/
theorem fairSplit_shares
    (pool : Int)
    {total : Int}
    (hTotal : 0 < total)
    {weights : List (String × Int)}
    (hSum : total = (weights.map (·.2)).sum) :
    FairSplit pool total weights
      (Registry.shares pool total 0 weights) := by
  rcases List.eq_nil_or_concat weights with
    rfl | ⟨init, ⟨nodeId, weight⟩, hSnoc⟩
  · simp at hSum
    omega
  rw [List.concat_eq_append] at hSnoc
  subst hSnoc
  have hBounds := sum_floors pool hTotal init
  generalize hFloors :
    ((floors pool total init).map (·.2)).sum = rounded
    at hBounds
  rw [List.map_append, List.sum_append] at hSum
  simp only [List.map_cons, List.map_nil, List.sum_singleton]
    at hSum
  have hPool :
      pool * total =
        pool * (init.map (·.2)).sum + pool * weight := by
    rw [hSum, mul_add]
  refine
    ⟨init, nodeId, weight, pool - rounded, rfl, ?_, ?_, ?_⟩
  · rw [shares_snoc, hFloors, sub_zero]
  · apply Int.ediv_le_of_le_mul hTotal
    linarith [hBounds.1, mul_comm total pool,
      sub_mul pool rounded total, mul_comm total rounded]
  · have hFloor :
        pool * weight <
          (pool * weight / total + 1) * total :=
      Int.lt_ediv_add_one_mul_self _ hTotal
    rw [List.length_append, List.length_singleton]
    apply Int.lt_of_mul_lt_mul_right _ hTotal.le
    push_cast
    have hLen : 0 ≤ (init.length : Int) := Int.natCast_nonneg _
    have hLess :
        (init.length : Int) * (total - 1) ≤
          init.length * total := by
      apply mul_le_mul_of_nonneg_left _ hLen
      omega
    linarith [hBounds.2, mul_comm total pool,
      sub_mul pool rounded total, mul_comm total rounded,
      add_mul (pool * weight / total) (init.length + 1 : Int)
        total,
      add_mul (pool * weight / total) 1 total,
      add_mul (init.length : Int) 1 total]

/- Fair shares add up to the pool. -/
theorem sum_shares
    {pool total : Int}
    {weights : List (String × Int)}
    (hNe : weights ≠ []) :
    ((Registry.shares pool total 0 weights).map (·.2)).sum =
      pool := by
  rcases List.eq_nil_or_concat weights with
    rfl | ⟨init, ⟨nodeId, weight⟩, hSnoc⟩
  · exact absurd rfl hNe
  · rw [hSnoc, List.concat_eq_append, shares_snoc,
      List.map_append, List.sum_append]
    simp

/- The shares of a pool that is no debt are none either. -/
theorem shares_nonneg
    {pool total : Int}
    (hPool : 0 ≤ pool)
    (hTotal : 0 < total)
    {weights : List (String × Int)}
    (hSum : total = (weights.map (·.2)).sum)
    (hWeights : ∀ e ∈ weights, 0 ≤ e.2)
    {e : String × Int}
    (hMem : e ∈ Registry.shares pool total 0 weights) :
    0 ≤ e.2 := by
  rcases fairSplit_shares pool hTotal hSum with
    ⟨init, nodeId, weight, share, hInit, hShares, hFloor, _⟩
  have hPart :
      ∀ e ∈ weights, 0 ≤ pool * e.2 / total := fun e hE =>
    Int.ediv_nonneg (mul_nonneg hPool (hWeights e hE))
      hTotal.le
  rw [hShares] at hMem
  rcases List.mem_append.mp hMem with hOther | hLast
  · rcases List.mem_map.mp hOther with ⟨e', hE', rfl⟩
    refine hPart e' ?_
    rw [hInit]
    exact List.mem_append_left _ hE'
  · rw [List.mem_singleton.mp hLast]
    refine le_trans (hPart (nodeId, weight) ?_) hFloor
    rw [hInit]
    simp

end CircuitDllm

------------------------------------------------------------
-- Balances
------------------------------------------------------------

namespace CircuitDllm

/- What a node is owed. -/
def balance (accrued : Dict String Int) (h : String) : Int :=
  (accrued.get? h).getD 0

/- No balance is negative. -/
def Solvent (accrued : Dict String Int) : Prop :=
  ∀ h v, accrued.get? h = some v → 0 ≤ v

/- The amounts of a list that are for one node. -/
def amountFor
    (h : String)
    (amounts : List (String × Int)) : Int :=
  ((amounts.filter (fun e => e.1 = h)).map (·.2)).sum

/- Where every node has one amount it is that one. -/
theorem amountFor_of_mem
    {amounts : List (String × Int)}
    (hNodup : (amounts.map (·.1)).Nodup)
    {e : String × Int}
    (hMem : e ∈ amounts) :
    amountFor e.1 amounts = e.2 := by
  unfold amountFor
  induction amounts with
  | nil => exact absurd hMem List.not_mem_nil
  | cons e' amounts ih =>
      rw [List.map_cons, List.nodup_cons] at hNodup
      rcases List.mem_cons.mp hMem with rfl | hRest
      · have hOthers :
            amounts.filter (fun e' => e'.1 = e.1) = [] := by
          rw [List.filter_eq_nil_iff]
          intro e' hE' hEq
          rw [decide_eq_true_eq] at hEq
          exact hNodup.1 (List.mem_map.mpr ⟨e', hE', hEq⟩)
        simp [hOthers]
      · have hNe : e'.1 ≠ e.1 := fun hEq =>
          hNodup.1 (List.mem_map.mpr ⟨e, hRest, hEq.symm⟩)
        rw [List.filter_cons_of_neg (by simp [hNe])]
        exact ih hNodup.2 hRest

theorem amountFor_of_not_mem
    {amounts : List (String × Int)}
    {h : String}
    (hNone : h ∉ amounts.map (·.1)) :
    amountFor h amounts = 0 := by
  have hFilter : amounts.filter (fun e => e.1 = h) = [] := by
    rw [List.filter_eq_nil_iff]
    intro e hE hEq
    rw [decide_eq_true_eq] at hEq
    exact hNone (List.mem_map.mpr ⟨e, hE, hEq⟩)
  unfold amountFor
  rw [hFilter]
  rfl

/- Add every share to its node's balance. -/
def credit
    (accrued : Dict String Int)
    (amounts : List (String × Int)) :
    Dict String Int :=
  amounts.foldl
    (fun accrued e =>
      accrued.set e.1 ((accrued.get? e.1).getD 0 + e.2))
    accrued

/- Zero the balances of some nodes. -/
def zero
    (accrued : Dict String Int)
    (ids : List String) :
    Dict String Int :=
  ids.foldl (fun accrued h => accrued.set h 0) accrued

variable (accrued : Dict String Int)

theorem balance_credit
    (amounts : List (String × Int))
    (h : String) :
    balance (credit accrued amounts) h =
      balance accrued h + amountFor h amounts := by
  unfold credit balance amountFor
  induction amounts generalizing accrued with
  | nil => simp
  | cons e amounts ih =>
      rw [List.foldl_cons, ih, Dict.get?_set]
      by_cases hEq : e.1 = h
      · simp [hEq, add_assoc]
      · simp [hEq]

theorem sum_credit (amounts : List (String × Int)) :
    (credit accrued amounts).values.sum =
      accrued.values.sum + (amounts.map (·.2)).sum := by
  unfold credit
  induction amounts generalizing accrued with
  | nil => simp
  | cons e amounts ih =>
      have hSet :=
        accrued.sum_set e.1
          ((accrued.get? e.1).getD 0 + e.2)
      rw [List.foldl_cons, ih, List.map_cons, List.sum_cons]
      linarith

theorem Solvent.credit
    {accrued : Dict String Int}
    (hSolvent : Solvent accrued)
    {amounts : List (String × Int)}
    (hAmounts : ∀ e ∈ amounts, 0 ≤ e.2) :
    Solvent (credit accrued amounts) := by
  unfold CircuitDllm.credit
  induction amounts generalizing accrued with
  | nil => exact hSolvent
  | cons e amounts ih =>
      rw [List.foldl_cons]
      refine
        ih (fun h v hV => ?_)
          (fun e' hE' => hAmounts e' (List.mem_cons_of_mem _ hE'))
      rw [Dict.get?_set] at hV
      split at hV
      · cases hV
        apply add_nonneg _ (hAmounts e List.mem_cons_self)
        cases hOld : accrued.get? e.1 with
        | none => exact le_refl 0
        | some old => exact hSolvent e.1 old hOld
      · exact hSolvent h v hV

theorem get?_zero
    (ids : List String)
    (h : String) :
    (zero accrued ids).get? h =
      if h ∈ ids then some 0 else accrued.get? h := by
  unfold zero
  induction ids generalizing accrued with
  | nil => simp
  | cons head ids ih =>
      rw [List.foldl_cons, ih, Dict.get?_set]
      by_cases hTail : h ∈ ids
      · simp [hTail]
      · by_cases hHead : head = h
        · simp [hHead]
        · have hHead' : h ≠ head := fun hEq => hHead hEq.symm
          simp [hTail, hHead, hHead']

/- Zeroing some nodes takes their balances out of the sum. -/
theorem sum_zero
    {ids : List String}
    (hNodup : ids.Nodup) :
    (zero accrued ids).values.sum +
        (ids.map (balance accrued)).sum =
      accrued.values.sum := by
  unfold zero
  induction ids generalizing accrued with
  | nil => simp
  | cons head ids ih =>
      rcases List.nodup_cons.mp hNodup with ⟨hFresh, hRest⟩
      have hSet := accrued.sum_set head 0
      have hTail := ih (accrued.set head 0) hRest
      have hOthers :
          ids.map (balance (accrued.set head 0)) =
            ids.map (balance accrued) := by
        apply List.map_congr_left
        intro h hMem
        have hNe : head ≠ h := fun hEq => hFresh (hEq ▸ hMem)
        unfold balance
        rw [Dict.get?_set, if_neg hNe]
      rw [hOthers] at hTail
      rw [List.foldl_cons, List.map_cons, List.sum_cons]
      unfold balance at hTail ⊢
      linarith

theorem Solvent.zero
    {accrued : Dict String Int}
    (hSolvent : Solvent accrued)
    (ids : List String) :
    Solvent (zero accrued ids) := by
  intro h v hV
  rw [get?_zero] at hV
  split at hV
  · cases hV
    exact le_refl 0
  · exact hSolvent h v hV

end CircuitDllm

------------------------------------------------------------
-- Requests and Settlements
------------------------------------------------------------

namespace CircuitDllm

namespace Registry

variable (cfg : RegistryConfig)

/- What a request pays out to its servers. -/
def pool (paidRaw : Int) : Int :=
  paidRaw - paidRaw * cfg.feeBps / 10000

def weightsOf
    (route : List (String × Int × Int)) :
    List (String × Int) :=
  route.map (fun e => (e.1, e.2.1 * e.2.2))

def totalWeight (route : List (String × Int × Int)) : Int :=
  ((weightsOf route).map (·.2)).sum

/- The shares one request is recorded with. -/
def workShares
    (route : List (String × Int × Int))
    (paidRaw : Int) :
    List (String × Int) :=
  if totalWeight route ≤ 0 then []
  else
    shares (pool cfg paidRaw) (totalWeight route) 0
      (weightsOf route)

/- The balances a settlement pays, each with its wallet. -/
def dues
    (minPayoutRaw : Int)
    (r : Registry) :
    List (String × String × Int) :=
  r.accrued.entries.filterMap (fun e =>
    if minPayoutRaw ≤ e.2 then
      (r.walletOf e.1).map (fun w => (e.1, w, e.2))
    else none)

/- The amounts of a settlement, by node. -/
def paid
    (minPayoutRaw : Int)
    (r : Registry) :
    List (String × Int) :=
  (r.dues minPayoutRaw).map (fun e => (e.1, e.2.2))

theorem recordWork_accrued
    (route : List (String × Int × Int))
    (paidRaw : Int)
    (r : Registry) :
    (r.recordWork cfg route paidRaw).accrued =
      credit r.accrued (workShares cfg route paidRaw) := by
  have hWork :
      r.recordWork cfg route paidRaw =
        if totalWeight route ≤ 0 then r
        else
          saveState cfg
            { r with
              accrued :=
                credit r.accrued
                  (shares (pool cfg paidRaw)
                    (totalWeight route) 0
                    (weightsOf route)) } := rfl
  rw [hWork]
  unfold workShares
  split
  · rfl
  · exact (remembers_saveState cfg _).accrued

theorem settle_accrued
    (minPayoutRaw : Int)
    (r : Registry) :
    (r.settle cfg minPayoutRaw).2.accrued =
      zero r.accrued ((r.paid minPayoutRaw).map (·.1)) := by
  unfold settle
  rw [(remembers_saveState cfg _).accrued]
  simp only [zero, paid, List.map_map, List.foldl_map]
  rfl

variable {cfg : RegistryConfig} {r : Registry}

theorem mem_dues
    {minPayoutRaw : Int}
    {h wallet : String}
    {amount : Int} :
    (h, wallet, amount) ∈ r.dues minPayoutRaw ↔
      r.accrued.get? h = some amount ∧
        minPayoutRaw ≤ amount ∧
        r.walletOf h = some wallet := by
  unfold dues
  rw [List.mem_filterMap]
  simp only [Option.ite_none_right_eq_some,
    Option.map_eq_some_iff, Dict.get?_eq_some]
  constructor
  · rintro ⟨⟨h', v⟩, hMem, hMin, w, hWallet, hEq⟩
    cases hEq
    exact ⟨hMem, hMin, hWallet⟩
  · rintro ⟨hMem, hMin, hWallet⟩
    exact ⟨(h, amount), hMem, hMin, wallet, hWallet, rfl⟩

/- A settlement pays each node once. -/
theorem nodup_paid (minPayoutRaw : Int) :
    ((r.paid minPayoutRaw).map (·.1)).Nodup := by
  have hSub :
      ∀ entries : List (String × Int),
        ((entries.filterMap (fun e =>
            if minPayoutRaw ≤ e.2 then
              (r.walletOf e.1).map (fun w => (e.1, w, e.2))
            else none)).map (·.1)).Sublist
          (entries.map (·.1)) := by
    intro entries
    induction entries with
    | nil => exact List.Sublist.slnil
    | cons e entries ih =>
        rw [List.filterMap_cons, List.map_cons]
        split
        · exact ih.cons _
        · rename_i due hDue
          rcases Option.ite_none_right_eq_some.mp hDue with
            ⟨_, hWallet⟩
          rcases Option.map_eq_some_iff.mp hWallet with
            ⟨w, _, rfl⟩
          exact ih.cons_cons _
  unfold paid
  rw [List.map_map]
  exact r.accrued.nodup.sublist (hSub _)

/- It pays a node its balance. -/
theorem balance_of_mem_paid
    {minPayoutRaw : Int}
    {e : String × Int}
    (hMem : e ∈ r.paid minPayoutRaw) :
    r.accrued.get? e.1 = some e.2 := by
  rcases List.mem_map.mp hMem with ⟨⟨h, w, a⟩, hDue, rfl⟩
  exact (mem_dues.mp hDue).1

theorem sum_paid (minPayoutRaw : Int) :
    (zero r.accrued
          ((r.paid minPayoutRaw).map (·.1))).values.sum +
        ((r.paid minPayoutRaw).map (·.2)).sum =
      r.accrued.values.sum := by
  have hBalances :
      ((r.paid minPayoutRaw).map (·.1)).map
          (balance r.accrued) =
        (r.paid minPayoutRaw).map (·.2) := by
    rw [List.map_map]
    apply List.map_congr_left
    intro e hE
    simp only [Function.comp, balance,
      balance_of_mem_paid hE, Option.getD_some]
  rw [← hBalances]
  exact sum_zero r.accrued (nodup_paid minPayoutRaw)

/- What a node is not paid stays its balance. -/
theorem balance_paid
    (minPayoutRaw : Int)
    (h : String) :
    balance
          (zero r.accrued
            ((r.paid minPayoutRaw).map (·.1))) h +
        amountFor h (r.paid minPayoutRaw) =
      balance r.accrued h := by
  unfold balance
  rw [get?_zero]
  by_cases hMem : h ∈ (r.paid minPayoutRaw).map (·.1)
  · rcases List.mem_map.mp hMem with ⟨e, hE, rfl⟩
    rw [if_pos hMem, amountFor_of_mem (nodup_paid _) hE,
      balance_of_mem_paid hE]
    simp
  · rw [if_neg hMem, amountFor_of_not_mem hMem, add_zero]

end Registry

end CircuitDllm

------------------------------------------------------------
-- Runs
------------------------------------------------------------

namespace CircuitDllm

namespace Registry

variable (cfg : RegistryConfig)

/- The shares an event records. -/
def workOf (e : Event) : List (String × Int) :=
  match e.2 with
  | .recordWork route paidRaw => workShares cfg route paidRaw
  | _ => []

/- The balances an event pays, by node. -/
def paidOf (e : Event) : List (String × Int) :=
  match e.2 with
  | .settle minPayoutRaw => e.1.paid minPayoutRaw
  | _ => []

/- What a settlement returns, by wallet. -/
def returned (e : Event) : List (String × Int) :=
  match e.2 with
  | .settle minPayoutRaw => (e.1.settle cfg minPayoutRaw).1
  | _ => []

/- The pool of a request of positive weight. -/
def earned (e : Event) : Int :=
  match e.2 with
  | .recordWork route paidRaw =>
    if 0 < totalWeight route then pool cfg paidRaw else 0
  | _ => 0

/- The inputs the ledger is meant for. -/
def Honest (op : RegistryOp) : Prop :=
  Durable cfg op ∧
    match op with
    | .recordWork route paidRaw =>
      0 ≤ paidRaw ∧ ∀ e ∈ route, 0 ≤ e.2.1 ∧ 0 ≤ e.2.2
    | .settle minPayoutRaw => 0 ≤ minPayoutRaw
    | _ => True

/- What the ledger promises of a run. -/
structure Ledger (past : List Event) (r : Registry) : Prop where
  conserved :
    r.accrued.values.sum +
        (past.map (fun e =>
          ((returned cfg e).map (·.2)).sum)).sum =
      (past.map (earned cfg)).sum
  /- unit for unit: what a node was credited is its balance
  or was paid -/
  credited :
    ∀ h,
      balance r.accrued h +
          (past.map (fun e => amountFor h (paidOf e))).sum =
        (past.map (fun e => amountFor h (workOf cfg e))).sum
  solvent : Solvent r.accrued
  split :
    ∀ r' route paidRaw,
      (r', .recordWork route paidRaw) ∈ past →
        0 < totalWeight route →
          FairSplit (pool cfg paidRaw) (totalWeight route)
            (weightsOf route) (workShares cfg route paidRaw)
  settled :
    ∀ r' minPayoutRaw,
      (r', .settle minPayoutRaw) ∈ past →
        ∀ p ∈ (r'.settle cfg minPayoutRaw).1,
          ∃ h,
            r'.wallets.get? h = some p.1 ∧ p.1 ≠ "" ∧
              r'.accrued.get? h = some p.2 ∧
              minPayoutRaw ≤ p.2 ∧
              (r'.settle cfg minPayoutRaw).2.accrued.get? h =
                some 0

variable {cfg : RegistryConfig} {r : Registry}

theorem recordCheck_accrued
    (nodeId : String)
    (ok : Bool)
    (promoteAfter strikeMax : Int) :
    (r.recordCheck cfg nodeId ok promoteAfter
      strikeMax).2.accrued = r.accrued := by
  unfold recordCheck
  simp only
  split
  · exact (remembers_saveState cfg _).accrued
  · rfl

/- Only requests and settlements change the balances. -/
theorem accrued_step
    (hSynced : cfg.hasStateFile = true → r.Synced)
    {op : RegistryOp}
    (hDurable : Durable cfg op) :
    (∃ route paidRaw,
        op = .recordWork route paidRaw ∧
          (r.step cfg op).accrued =
            credit r.accrued (workShares cfg route paidRaw)) ∨
      (∃ minPayoutRaw,
        op = .settle minPayoutRaw ∧
          (r.step cfg op).accrued =
            zero r.accrued
              ((r.paid minPayoutRaw).map (·.1))) ∨
      (workOf cfg (r, op) = [] ∧ paidOf (r, op) = [] ∧
        returned cfg (r, op) = [] ∧ earned cfg (r, op) = 0 ∧
        (r.step cfg op).accrued = r.accrued) := by
  cases op with
  | recordWork route paidRaw =>
      exact
        Or.inl
          ⟨route, paidRaw, rfl,
            recordWork_accrued cfg route paidRaw r⟩
  | settle minPayoutRaw =>
      exact
        Or.inr (Or.inl
          ⟨minPayoutRaw, rfl,
            settle_accrued cfg minPayoutRaw r⟩)
  | register node now preferRange =>
      have hRegister :=
        remembers_register cfg r node now
          preferRange
      rcases hRegister with ⟨wallets, hRemembers⟩
      exact
        Or.inr (Or.inr
          ⟨rfl, rfl, rfl, rfl, hRemembers.accrued⟩)
  | recordCheck nodeId ok promoteAfter strikeMax =>
      exact
        Or.inr (Or.inr
          ⟨rfl, rfl, rfl, rfl,
            recordCheck_accrued nodeId ok promoteAfter
              strikeMax⟩)
  | _ =>
      exact
        Or.inr (Or.inr
          ⟨rfl, rfl, rfl, rfl,
            (remembers_step hSynced hDurable not_false).accrued⟩)

/- A settlement returns the amounts it pays. -/
theorem settle_amounts (minPayoutRaw : Int) :
    (r.settle cfg minPayoutRaw).1.map (·.2) =
      (r.paid minPayoutRaw).map (·.2) := by
  unfold paid
  rw [List.map_map]
  unfold settle
  simp only [List.map_map]
  rfl

/- A payment goes to the wallet of a node that was owed it. -/
theorem settled_of_mem
    {minPayoutRaw : Int}
    {p : String × Int}
    (hMem : p ∈ (r.settle cfg minPayoutRaw).1) :
    ∃ h,
      r.wallets.get? h = some p.1 ∧ p.1 ≠ "" ∧
        r.accrued.get? h = some p.2 ∧ minPayoutRaw ≤ p.2 ∧
        (r.settle cfg minPayoutRaw).2.accrued.get? h =
          some 0 := by
  have hDues :
      (r.settle cfg minPayoutRaw).1 =
        (r.dues minPayoutRaw).map (·.2) := rfl
  rw [hDues] at hMem
  rcases List.mem_map.mp hMem with ⟨⟨h, w, a⟩, hDue, rfl⟩
  rcases mem_dues.mp hDue with ⟨hBalance, hMin, hWallet⟩
  rcases Option.filter_eq_some_iff.mp hWallet with
    ⟨hGet, hDeclared⟩
  rw [decide_eq_true_eq] at hDeclared
  refine ⟨h, hGet, hDeclared, hBalance, hMin, ?_⟩
  have hPaid : h ∈ (r.paid minPayoutRaw).map (·.1) :=
    List.mem_map.mpr
      ⟨(h, a), List.mem_map.mpr ⟨(h, w, a), hDue, rfl⟩, rfl⟩
  rw [settle_accrued, get?_zero, if_pos hPaid]

/- The pool of a request is no debt. -/
theorem pool_nonneg
    (hFee : 0 ≤ cfg.feeBps ∧ cfg.feeBps ≤ 10000)
    {paidRaw : Int}
    (hPaid : 0 ≤ paidRaw) :
    0 ≤ pool cfg paidRaw := by
  have hCost : paidRaw * cfg.feeBps ≤ paidRaw * 10000 :=
    mul_le_mul_of_nonneg_left hFee.2 hPaid
  unfold pool
  omega

/- Nor are its shares. -/
theorem workShares_nonneg
    (hFee : 0 ≤ cfg.feeBps ∧ cfg.feeBps ≤ 10000)
    {route : List (String × Int × Int)}
    {paidRaw : Int}
    (hPaid : 0 ≤ paidRaw)
    (hRoute : ∀ e ∈ route, 0 ≤ e.2.1 ∧ 0 ≤ e.2.2)
    {e : String × Int}
    (hMem : e ∈ workShares cfg route paidRaw) :
    0 ≤ e.2 := by
  unfold workShares at hMem
  split at hMem
  · exact absurd hMem List.not_mem_nil
  · rename_i hTotal
    refine
      shares_nonneg (pool_nonneg hFee hPaid)
        (not_le.mp hTotal) rfl (fun e' hE' => ?_) hMem
    rcases List.mem_map.mp hE' with ⟨e, hE, rfl⟩
    exact mul_nonneg (hRoute e hE).1 (hRoute e hE).2

/- They add up to what the request earned. -/
theorem sum_workShares
    (route : List (String × Int × Int))
    (paidRaw : Int) :
    ((workShares cfg route paidRaw).map (·.2)).sum =
      earned cfg (r, .recordWork route paidRaw) := by
  unfold workShares earned
  simp only
  by_cases hTotal : totalWeight route ≤ 0
  · rw [if_pos hTotal, if_neg (not_lt.mpr hTotal)]
    rfl
  · rw [if_neg hTotal, if_pos (not_le.mp hTotal)]
    apply sum_shares
    intro hNone
    unfold totalWeight at hTotal
    rw [hNone] at hTotal
    exact hTotal le_rfl

/- One more event that balances keeps the ledger. -/
theorem Ledger.snoc
    {past : List Event}
    (hLedger : Ledger cfg past r)
    {op : RegistryOp}
    {r' : Registry}
    (hTotal :
      r'.accrued.values.sum +
          ((returned cfg (r, op)).map (·.2)).sum =
        r.accrued.values.sum + earned cfg (r, op))
    (hEach :
      ∀ h,
        balance r'.accrued h + amountFor h (paidOf (r, op)) =
          balance r.accrued h +
            amountFor h (workOf cfg (r, op)))
    (hSolvent : Solvent r'.accrued) :
    Ledger cfg (past ++ [(r, op)]) r' where
  conserved := by
    simp only [List.map_append, List.sum_append,
      List.map_cons, List.map_nil, List.sum_singleton]
    linarith [hLedger.conserved]
  credited h := by
    simp only [List.map_append, List.sum_append,
      List.map_cons, List.map_nil, List.sum_singleton]
    linarith [hLedger.credited h, hEach h]
  solvent := hSolvent
  split r'' route paidRaw hMem hWeight := by
    rcases List.mem_append.mp hMem with hOld | _
    · exact hLedger.split r'' route paidRaw hOld hWeight
    · unfold workShares
      rw [if_neg (not_le.mpr hWeight)]
      exact fairSplit_shares _ hWeight rfl
  settled r'' minPayoutRaw hMem p hP := by
    rcases List.mem_append.mp hMem with hOld | _
    · exact hLedger.settled r'' minPayoutRaw hOld p hP
    · exact settled_of_mem hP

/- Every operation keeps the ledger. -/
theorem ledger_step
    (hFee : 0 ≤ cfg.feeBps ∧ cfg.feeBps ≤ 10000)
    (hSynced : cfg.hasStateFile = true → r.Synced)
    {past : List Event}
    (hLedger : Ledger cfg past r)
    {op : RegistryOp}
    (hHonest : Honest cfg op) :
    Ledger cfg (past ++ [(r, op)]) (r.step cfg op) := by
  rcases accrued_step hSynced hHonest.1 with
    ⟨route, paidRaw, rfl, hAccrued⟩ |
      ⟨minPayoutRaw, rfl, hAccrued⟩ |
      ⟨hWork, hPaid, hReturned, hEarned, hAccrued⟩
  · refine hLedger.snoc ?_ (fun h => ?_) ?_
    · rw [hAccrued, sum_credit, sum_workShares]
      exact add_zero _
    · rw [hAccrued, balance_credit]
      exact add_zero _
    · rw [hAccrued]
      exact
        hLedger.solvent.credit fun e hE =>
          workShares_nonneg hFee hHonest.2.1 hHonest.2.2 hE
  · refine hLedger.snoc ?_ (fun h => ?_) ?_
    · have hReturned :
          (returned cfg (r, .settle minPayoutRaw)).map
              (·.2) =
            (r.paid minPayoutRaw).map (·.2) :=
        settle_amounts minPayoutRaw
      rw [hAccrued, hReturned, sum_paid]
      exact (add_zero _).symm
    · have hBalance :=
        balance_paid (r := r) minPayoutRaw h
      rw [hAccrued]
      exact hBalance.trans (add_zero _).symm
    · rw [hAccrued]
      exact hLedger.solvent.zero _
  · refine hLedger.snoc ?_ (fun h => ?_) ?_
    · rw [hAccrued, hReturned, hEarned]
      rfl
    · rw [hAccrued, hPaid, hWork]
    · rw [hAccrued]
      exact hLedger.solvent

theorem ledger_create
    (hCreate : create cfg = .ok r) :
    Ledger cfg [] r := by
  have hAccrued : r.accrued = .empty := by
    rcases create_ok hCreate with ⟨topo, _, rfl⟩
    rfl
  refine
    { conserved := by rw [hAccrued]; rfl
      credited := fun h => by rw [hAccrued]; rfl
      solvent := fun h v hV => ?_
      split := fun _ _ _ hMem =>
        absurd hMem List.not_mem_nil
      settled := fun _ _ hMem =>
        absurd hMem List.not_mem_nil }
  rw [hAccrued, Dict.get?_empty] at hV
  cases hV

/- After every run the books balance. -/
theorem ledger_run
    (hFee : 0 ≤ cfg.feeBps ∧ cfg.feeBps ≤ 10000)
    {r₀ : Registry}
    (hCreate : create cfg = .ok r₀)
    {ops : List RegistryOp}
    (hHonest : ∀ op ∈ ops, Honest cfg op) :
    Ledger cfg (trail cfg r₀ ops) (r₀.run cfg ops) := by
  have hRun :
      (cfg.hasStateFile = true →
          (r₀.run cfg ops).Synced) ∧
        Ledger cfg (trail cfg r₀ ops) (r₀.run cfg ops) :=
    History.induction_of (step cfg)
      (fun e => Honest cfg e.2)
      (fun past r =>
        (cfg.hasStateFile = true → r.Synced) ∧
          Ledger cfg past r)
      ⟨fun _ => synced_create hCreate, ledger_create hCreate⟩
      (fun _ _ _ hOp hInv =>
        ⟨fun hFile => synced_step hFile (hInv.1 hFile) hOp.1,
          ledger_step hFee hInv.1 hInv.2 hOp⟩)
      (fun _ hE => hHonest _ (History.mem_of_trail hE))
  exact hRun.2

/- A request of one server, paid out after a restart. -/
def paidSeed : List RegistryOp :=
  [.register { joining "seed" with payoutWallet := "w" } 0
      none,
    .recordWork [("seed", 1, 3)] 100,
    .restart,
    .settle 1]

theorem ledger_run_seed :
    ∃ r₀,
      create { oneSlot with hasStateFile := true } = .ok r₀ ∧
        Ledger { oneSlot with hasStateFile := true }
          (trail { oneSlot with hasStateFile := true } r₀
            paidSeed)
          (r₀.run { oneSlot with hasStateFile := true }
            paidSeed) := by
  refine ⟨_, rfl, ledger_run (by decide) rfl ?_⟩
  intro op hOp
  simp only [paidSeed, List.mem_cons, List.not_mem_nil,
    or_false] at hOp
  rcases hOp with rfl | rfl | rfl | rfl
  · exact ⟨trivial, trivial⟩
  · exact ⟨trivial, by decide⟩
  · exact ⟨rfl, trivial⟩
  · exact ⟨trivial, by decide⟩

end Registry

end CircuitDllm
