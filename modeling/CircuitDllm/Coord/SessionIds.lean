import CircuitDllm.Mesh.TrustRouting
import CircuitDllm.Mesh.Steps
import CircuitDllm.Coord.Failover
import CircuitDllm.Lib.History

/-
  Session ids of a fleet of coordinators
  (engine/coordinator.py, engine/registry.py, engine/api.py).

  An id is a prefix and a counter.  The in-process
  coordinator has prefix 0, an orchestrator gets the next
  one of the control plane, masked to 15 bits, when its
  process starts; the counter is the process's own and
  wraps after 65535 ids.

  Main declarations:
    * `Process.nextId`, `Fleet.step`
    * `Fleet.Collides`
    * `Fleet.UniqueIds`, `Fleet.uniqueIds_run`
-/

------------------------------------------------------------
-- Processes and Sessions
------------------------------------------------------------

namespace CircuitDllm

/- The audits run under this id. -/
def auditSession : Nat := 2 ^ 30

/- The ids of batches count from here. -/
def firstBatchId : Nat := 2 ^ 31

/- A coordinator process and its id source. -/
structure Process where
  -- session_prefix & 0x7FFF
  sessionPrefix : Nat
  -- the counter of _make_session_ids
  count : Nat := 0
  -- how many ids it has drawn
  drawn : Nat := 0
deriving DecidableEq, Repr

/- A session and where its id comes from. -/
structure LiveSession where
  id : Nat
  sessionPrefix : Nat
  -- it was the number-th id of its process
  number : Nat
deriving DecidableEq, Repr

namespace Process

/-
  next(self._session_ids): the prefix and a counter, as a
  coordinator draws them (`nextSession_eq`).
-/
def nextId (p : Process) : Nat × Process :=
  let n := p.count % 0xFFFF + 1
  (p.sessionPrefix * 2 ^ 16 + n,
    { p with
      count := n
      drawn := p.drawn + 1 })

/- The id source of a coordinator draws the same ids. -/
theorem nextSession_eq
    {Tok H P : Type}
    (env : CoordEnv Tok H P)
    (s : CoordState Tok H P) :
    let p : Process :=
      { sessionPrefix := env.sessionPrefix % 2 ^ 15
        count := s.sessionCount }
    (env.nextSession s).1 = p.nextId.1 ∧
      (env.nextSession s).2.sessionCount =
        p.nextId.2.count :=
  ⟨rfl, rfl⟩

end Process

/-
  The control plane, the running coordinators by node id
  (none is the in-process one) and the live sessions.
-/
structure Fleet where
  registry : Registry
  procs : Dict (Option String) Process
  live : List LiveSession

/- What happens in the fleet. -/
inductive FleetOp where
  /- an operation of the control plane -/
  | control (op : RegistryOp)
  /- an orchestrator's process starts -/
  | start (node : Node) (now : ℚ)
  | stop (nodeId : String)
  /- a coordinator draws the id of a new session -/
  | draw (who : Option String)
  /- a live session is over, here and on the holders -/
  | finish (k : Nat)

namespace Fleet

variable (cfg : RegistryConfig)

/-
  A process registers for its prefix.  The in-process
  coordinator restarts with the control plane.
-/
def step (f : Fleet) : FleetOp → Fleet
| .control op =>
    { f with
      registry := f.registry.step cfg op
      procs :=
        match op with
        | .restart => f.procs.set none { sessionPrefix := 0 }
        | _ => f.procs }
| .start node now =>
    let node := { node with orchestrator := true }
    match f.registry.register cfg node now none with
    | (.error _, r) => { f with registry := r }
    | (.ok admission, r) =>
      { f with
        registry := r
        procs :=
          f.procs.set (some node.nodeId)
            { sessionPrefix :=
                admission.orchIndex.getD 0 % 2 ^ 15 } }
| .stop nodeId =>
    { f with procs := f.procs.erase (some nodeId) }
| .draw who =>
    match f.procs.get? who with
    | none => f
    | some p =>
      { f with
        procs := f.procs.set who p.nextId.2
        live :=
          f.live ++
            [⟨p.nextId.1, p.sessionPrefix, p.drawn + 1⟩] }
| .finish k => { f with live := f.live.eraseIdx k }

/- A control plane with its in-process coordinator. -/
def create : Except MeshError Fleet :=
  match Registry.create cfg with
  | .error e => .error e
  | .ok r =>
    .ok
      { registry := r
        procs := Dict.empty.set none { sessionPrefix := 0 }
        live := [] }

def run (f : Fleet) (ops : List FleetOp) : Fleet :=
  ops.foldl (step cfg) f

/- The events of a run, in order. -/
def trail (f : Fleet) (ops : List FleetOp) :
    List (Fleet × FleetOp) :=
  History.trail (step cfg) f ops

/-
  The next prefix is another process's or a live session's,
  or the counter comes round to a session that lives on.
-/
def Collides (f : Fleet) : FleetOp → Prop
| .control op =>
    op = .restart ∧ ∃ s ∈ f.live, s.sessionPrefix = 0
| .start node _ =>
    f.registry.Reaches cfg { node with orchestrator := true } ∧
      ((∃ who p,
          f.procs.get? who = some p ∧
            who ≠ some node.nodeId ∧
            p.sessionPrefix = f.registry.orchSeq % 2 ^ 15) ∨
        ∃ s ∈ f.live,
          s.sessionPrefix = f.registry.orchSeq % 2 ^ 15)
| .stop _ => False
| .draw who =>
    ∃ p,
      f.procs.get? who = some p ∧
        ∃ s ∈ f.live,
          s.sessionPrefix = p.sessionPrefix ∧
            s.number + 0xFFFF ≤ p.drawn + 1
| .finish _ => False

/- Live sessions have different ids, all of them sessions'. -/
structure UniqueIds (f : Fleet) : Prop where
  ids : (f.live.map (·.id)).Nodup
  reserved :
    ∀ s ∈ f.live,
      s.id ≠ auditSession ∧ s.id < firstBatchId
  prefixes :
    ∀ who who' p p',
      f.procs.get? who = some p →
        f.procs.get? who' = some p' →
          p.sessionPrefix = p'.sessionPrefix → who = who'

end Fleet

end CircuitDllm

------------------------------------------------------------
-- What One Step Keeps
------------------------------------------------------------

namespace CircuitDllm

/- The index an admitted orchestrator gets. -/
theorem Registry.orchIndex_of_register
    {cfg : RegistryConfig}
    {r r' : Registry}
    {node : Node}
    {now : ℚ}
    (hOrch : node.orchestrator = true)
    {admission : Admission}
    (hOk :
      r.register cfg node now none = (.ok admission, r')) :
    r.Reaches cfg node ∧
      admission.orchIndex = some (r.orchSeq % 2 ^ 15) := by
  have hReach : r.Reaches cfg node := by
    by_contra hNot
    cases register_cases cfg node now none r with
    | refused e hReach hEnd =>
        rw [hOk] at hEnd
        cases hEnd
    | dropped e hReach hHolder hEntry hEnd =>
        exact hNot hReach
    | entered slot assignment orchIndex hReach hEntry hSlot
        hEnd =>
        exact hNot hReach
  refine ⟨hReach, ?_⟩
  have hAllowed :
      ¬ ∃ allowed ∈ cfg.allowlist, node.nodeId ∉ allowed := by
    rintro ⟨allowed, hMem, hNot⟩
    exact hNot (hReach.2.1 allowed hMem)
  rw [register, if_neg hReach.1, if_neg hAllowed,
    if_pos hOrch] at hOk
  simp only [Topology.registerOrchestrator, hReach.2.2,
    ne_eq, not_true_eq_false, if_false] at hOk
  unfold grant at hOk
  cases hKey : cfg.deriveNodeKey node.nodeId with
  | none =>
      simp only [hKey] at hOk
      cases hOk
  | some key =>
      simp only [hKey] at hOk
      cases hOk
      rfl

namespace Fleet

/- Where ids come from. -/
structure IdInv (f : Fleet) : Prop where
  home :
    ∃ p, f.procs.get? none = some p ∧ p.sessionPrefix = 0
  small :
    ∀ who p, f.procs.get? who = some p →
      p.sessionPrefix < 2 ^ 15
  counted :
    ∀ who p, f.procs.get? who = some p →
      p.count % 0xFFFF = p.drawn % 0xFFFF
  prefixes :
    ∀ who who' p p',
      f.procs.get? who = some p →
        f.procs.get? who' = some p' →
          p.sessionPrefix = p'.sessionPrefix → who = who'
  numbered :
    ∀ s ∈ f.live,
      s.sessionPrefix < 2 ^ 15 ∧ 0 < s.number ∧
        s.id =
          s.sessionPrefix * 2 ^ 16 +
            ((s.number - 1) % 0xFFFF + 1)
  /- no session is ahead of the process of its prefix -/
  own :
    ∀ s ∈ f.live, ∀ who p,
      f.procs.get? who = some p →
        p.sessionPrefix = s.sessionPrefix →
          s.number ≤ p.drawn
  ids : (f.live.map (·.id)).Nodup

variable {cfg : RegistryConfig} {f : Fleet}

/- A process starts under a prefix nobody uses. -/
theorem IdInv.setProc
    (hInv : f.IdInv)
    (who : Option String)
    {p : Process}
    (hHome : who = none → p.sessionPrefix = 0)
    (hSmall : p.sessionPrefix < 2 ^ 15)
    (hCounted : p.count % 0xFFFF = p.drawn % 0xFFFF)
    (hOthers :
      ∀ who' p', f.procs.get? who' = some p' →
        who' ≠ who → p'.sessionPrefix ≠ p.sessionPrefix)
    (hOwn :
      ∀ s ∈ f.live, p.sessionPrefix = s.sessionPrefix →
        s.number ≤ p.drawn)
    (r : Registry) :
    IdInv
      { f with
        registry := r
        procs := f.procs.set who p } where
  home := by
    rcases hInv.home with ⟨p₀, hP₀, hZero⟩
    simp only [Dict.get?_set]
    split
    · rename_i hWho
      exact ⟨p, rfl, hHome hWho⟩
    · exact ⟨p₀, hP₀, hZero⟩
  small who' p' hP := by
    rw [Dict.get?_set] at hP
    split at hP
    · cases hP
      exact hSmall
    · exact hInv.small who' p' hP
  counted who' p' hP := by
    rw [Dict.get?_set] at hP
    split at hP
    · cases hP
      exact hCounted
    · exact hInv.counted who' p' hP
  prefixes who₁ who₂ p₁ p₂ hP₁ hP₂ hEq := by
    rw [Dict.get?_set] at hP₁ hP₂
    split at hP₁
    · rename_i h₁
      cases hP₁
      split at hP₂
      · rename_i h₂
        rw [← h₁, ← h₂]
      · rename_i h₂
        exact
          absurd hEq.symm
            (hOthers who₂ p₂ hP₂ (fun h => h₂ h.symm))
    · rename_i h₁
      split at hP₂
      · cases hP₂
        exact
          absurd hEq
            (hOthers who₁ p₁ hP₁ (fun h => h₁ h.symm))
      · exact hInv.prefixes who₁ who₂ p₁ p₂ hP₁ hP₂ hEq
  numbered := hInv.numbered
  own s hS who' p' hP hEq := by
    rw [Dict.get?_set] at hP
    split at hP
    · cases hP
      exact hOwn s hS hEq
    · exact hInv.own s hS who' p' hP hEq
  ids := hInv.ids

/- The id a process draws is no live session's. -/
theorem IdInv.draw
    (hInv : f.IdInv)
    {who : Option String}
    (hQuiet : ¬ f.Collides cfg (.draw who)) :
    (f.step cfg (.draw who)).IdInv := by
  simp only [step]
  cases hP : f.procs.get? who with
  | none => exact hInv
  | some p =>
      have hHome (hWho : who = none) :
          p.nextId.2.sessionPrefix = 0 := by
        rcases hInv.home with ⟨p₀, hP₀, hZero⟩
        rw [hWho, hP₀] at hP
        cases hP
        exact hZero
      have hSmall := hInv.small who p hP
      have hCounted := hInv.counted who p hP
      have hNext :
          p.count % 0xFFFF + 1 = p.drawn % 0xFFFF + 1 := by
        rw [hCounted]
      have hSet :=
        hInv.setProc who (p := p.nextId.2) hHome hSmall
          (by simp only [Process.nextId]; omega)
          (fun who' p' hP' hNe hEq =>
            hNe (hInv.prefixes who' who p' p hP' hP hEq))
          (fun s hS hEq => by
            have hOld := hInv.own s hS who p hP hEq
            simp only [Process.nextId]
            omega)
          f.registry
      refine
        { home := hSet.home
          small := hSet.small
          counted := hSet.counted
          prefixes := hSet.prefixes
          numbered := fun s hS => ?_
          own := fun s hS who' p' hP' hEq => ?_
          ids := ?_ }
      · rcases List.mem_append.mp hS with hOld | hNew
        · exact hInv.numbered s hOld
        · rw [List.mem_singleton.mp hNew]
          refine ⟨hSmall, Nat.succ_pos _, ?_⟩
          simp only [Process.nextId, Nat.add_sub_cancel, hNext]
      · rcases List.mem_append.mp hS with hOld | hNew
        · exact hSet.own s hOld who' p' hP' hEq
        · rw [List.mem_singleton.mp hNew] at hEq ⊢
          have hWho :=
            hSet.prefixes who' who p' p.nextId.2 hP'
              (Dict.get?_set_self _ _ _) hEq
          rw [hWho] at hP'
          have hSame :=
            (Dict.get?_set_self f.procs who p.nextId.2).symm.trans
              hP'
          cases hSame
          exact le_refl _
      · rw [List.map_append, List.nodup_append]
        refine ⟨hInv.ids, List.nodup_singleton _, ?_⟩
        intro id hId id' hId' hEq
        rw [List.map_singleton, List.mem_singleton] at hId'
        rcases List.mem_map.mp hId with ⟨s, hS, rfl⟩
        rcases hInv.numbered s hS with ⟨hBound, hPos, hForm⟩
        simp only [Process.nextId] at hId'
        rw [hId', hForm] at hEq
        by_cases hPrefix : p.sessionPrefix = s.sessionPrefix
        · have hOld := hInv.own s hS who p hP hPrefix
          have hRecent :
              ¬ s.number + 0xFFFF ≤ p.drawn + 1 := fun hLe =>
            hQuiet ⟨p, hP, s, hS, hPrefix.symm, hLe⟩
          omega
        · omega

/- The other steps draw nothing. -/
theorem IdInv.step
    (hInv : f.IdInv)
    {op : FleetOp}
    (hQuiet : ¬ f.Collides cfg op) :
    (f.step cfg op).IdInv := by
  cases op with
  | draw who => exact hInv.draw hQuiet
  | control op =>
      cases op with
      | restart =>
          have hHome :
              ∀ who' p', f.procs.get? who' = some p' →
                who' ≠ none → p'.sessionPrefix ≠ 0 := by
            intro who' p' hP' hNe hEq
            rcases hInv.home with ⟨p₀, hP₀, hZero⟩
            exact
              hNe
                (hInv.prefixes who' none p' p₀ hP' hP₀
                  (hEq.trans hZero.symm))
          exact
            hInv.setProc none (fun _ => rfl) (by decide) rfl
              hHome
              (fun s hS hEq =>
                absurd ⟨rfl, s, hS, hEq.symm⟩ hQuiet)
              _
      | _ =>
          exact
            ⟨hInv.home, hInv.small, hInv.counted,
              hInv.prefixes, hInv.numbered, hInv.own,
              hInv.ids⟩
  | start node now =>
      simp only [Fleet.step]
      cases hEnd :
          f.registry.register cfg
            { node with orchestrator := true } now none with
      | mk result r =>
          cases result with
          | error e =>
              exact
                ⟨hInv.home, hInv.small, hInv.counted,
                  hInv.prefixes, hInv.numbered, hInv.own,
                  hInv.ids⟩
          | ok admission =>
              rcases Registry.orchIndex_of_register rfl
                hEnd with ⟨hReach, hIndex⟩
              have hPrefix :
                  admission.orchIndex.getD 0 % 2 ^ 15 =
                    f.registry.orchSeq % 2 ^ 15 := by
                rw [hIndex, Option.getD_some, Nat.mod_mod]
              refine
                hInv.setProc (some node.nodeId)
                  (fun hEq => by cases hEq) ?_ rfl ?_ ?_ r
              · exact Nat.mod_lt _ (by decide)
              · intro who' p' hP' hNe hEq
                exact
                  hQuiet ⟨hReach, Or.inl
                    ⟨who', p', hP', hNe,
                      hEq.trans hPrefix⟩⟩
              · intro s hS hEq
                exact
                  absurd
                    ⟨hReach, Or.inr
                      ⟨s, hS, hEq.symm.trans hPrefix⟩⟩
                    hQuiet
  | stop nodeId =>
      have hOld :
          ∀ who p,
            (f.procs.erase (some nodeId)).get? who = some p →
              f.procs.get? who = some p := by
        intro who p hP
        rw [Dict.get?_erase] at hP
        split at hP
        · cases hP
        · exact hP
      have hHome :
          (f.procs.erase (some nodeId)).get? none =
            f.procs.get? none := by
        rw [Dict.get?_erase, if_neg (by simp)]
      exact
        { home := by
            simp only [Fleet.step, hHome]
            exact hInv.home
          small := fun who p hP =>
            hInv.small who p (hOld who p hP)
          counted := fun who p hP =>
            hInv.counted who p (hOld who p hP)
          prefixes := fun who who' p p' hP hP' =>
            hInv.prefixes who who' p p' (hOld who p hP)
              (hOld who' p' hP')
          numbered := hInv.numbered
          own := fun s hS who p hP =>
            hInv.own s hS who p (hOld who p hP)
          ids := hInv.ids }
  | finish k =>
      have hSub := List.eraseIdx_sublist f.live k
      exact
        { home := hInv.home
          small := hInv.small
          counted := hInv.counted
          prefixes := hInv.prefixes
          numbered := fun s hS =>
            hInv.numbered s (hSub.subset hS)
          own := fun s hS => hInv.own s (hSub.subset hS)
          ids := hInv.ids.sublist (hSub.map _) }

end Fleet

end CircuitDllm

------------------------------------------------------------
-- Runs
------------------------------------------------------------

namespace CircuitDllm

namespace Fleet

variable {cfg : RegistryConfig} {f : Fleet}

theorem IdInv.unique (hInv : f.IdInv) : f.UniqueIds where
  ids := hInv.ids
  reserved s hS := by
    rcases hInv.numbered s hS with ⟨hSmall, hPos, hForm⟩
    unfold auditSession firstBatchId
    constructor
    · omega
    · omega
  prefixes := hInv.prefixes

theorem idInv_create
    (hCreate : create cfg = .ok f) :
    f.IdInv := by
  unfold create at hCreate
  split at hCreate
  · cases hCreate
  · cases hCreate
    have hOnly :
        ∀ who p,
          ((Dict.empty : Dict (Option String) Process).set
              none { sessionPrefix := 0 }).get? who =
            some p →
            who = none ∧ p = { sessionPrefix := 0 } := by
      intro who p hP
      rw [Dict.get?_set, Dict.get?_empty] at hP
      split at hP
      · rename_i hWho
        cases hP
        exact ⟨hWho.symm, rfl⟩
      · cases hP
    exact
      { home := ⟨_, Dict.get?_set_self _ _ _, rfl⟩
        small := fun who p hP => by
          rw [(hOnly who p hP).2]
          decide
        counted := fun who p hP => by
          rw [(hOnly who p hP).2]
        prefixes := fun who who' p p' hP hP' _ =>
          (hOnly who p hP).1.trans (hOnly who' p' hP').1.symm
        numbered := fun s hS => absurd hS List.not_mem_nil
        own := fun s hS => absurd hS List.not_mem_nil
        ids := List.nodup_nil }

/- In a run without collisions session ids are unique. -/
theorem uniqueIds_run
    {f₀ : Fleet}
    (hCreate : create cfg = .ok f₀)
    {ops : List FleetOp}
    (hQuiet :
      ∀ e ∈ trail cfg f₀ ops, ¬ Collides cfg e.1 e.2) :
    (run cfg f₀ ops).UniqueIds := by
  have hRun :
      (run cfg f₀ ops).IdInv :=
    History.induction_of (step cfg)
      (fun e => ¬ Collides cfg e.1 e.2)
      (fun _ f => f.IdInv)
      (idInv_create hCreate)
      (fun _ _ _ hOp hInv => hInv.step hOp)
      hQuiet
  exact hRun.unique

/-
  The control plane has given prefix 0 away when an
  orchestrator's process starts under prefix 1; then it and
  the in-process coordinator draw ids in turn.
-/
def laterOrchestrator : List FleetOp :=
  [.draw none,
    .control
      (.register
        { Registry.joining "orch" with orchestrator := true }
        0 none),
    .start (Registry.joining "orch") 1,
    .draw (some "orch"),
    .draw none,
    .draw (some "orch"),
    .finish 1]

theorem uniqueIds_run_home :
    ∃ f₀,
      create Registry.oneSlot = .ok f₀ ∧
        (run Registry.oneSlot f₀ laterOrchestrator).UniqueIds ∧
        (run Registry.oneSlot f₀ laterOrchestrator).live.map
          (·.id) = [1, 2, 2 ^ 16 + 2] := by
  refine ⟨_, rfl, uniqueIds_run rfl ?_, by decide⟩
  intro e hE
  simp only [trail, History.trail, laterOrchestrator,
    List.mem_cons, List.not_mem_nil, or_false] at hE
  rcases hE with rfl | rfl | rfl | rfl | rfl | rfl | rfl
  · rintro ⟨p, _, s, hS, _⟩
    exact absurd hS List.not_mem_nil
  · rintro ⟨hRestart, _⟩
    cases hRestart
  · -- prefix 1: neither the other process nor its session
    rintro ⟨_, ⟨who, p, hP, _, hPrefix⟩ | ⟨s, hS, hPrefix⟩⟩
    · have hMem := Dict.get?_eq_some.mp hP
      cases List.mem_singleton.mp hMem
      exact absurd hPrefix (by decide)
    · cases List.mem_singleton.mp hS
      exact absurd hPrefix (by decide)
  · rintro ⟨p, hP, s, hS, _, hLe⟩
    have hDrawn : p.drawn = 0 := by
      cases hP
      rfl
    omega
  · rintro ⟨p, hP, s, hS, _, hLe⟩
    have hDrawn : p.drawn = 1 := by
      cases hP
      rfl
    omega
  · rintro ⟨p, hP, s, hS, _, hLe⟩
    have hDrawn : p.drawn = 1 := by
      cases hP
      rfl
    omega
  · exact id

/- The first orchestrator joins; both serve a request. -/
def firstOrchestrator : List FleetOp :=
  [.start (Registry.joining "orch") 0,
    .draw none,
    .draw (some "orch")]

/- Its first id is the other coordinator's first id. -/
theorem firstOrchestrator_ids :
    ∃ f₀,
      create Registry.oneSlot = .ok f₀ ∧
        (run Registry.oneSlot f₀ firstOrchestrator).live.map
          (·.id) = [1, 1] :=
  ⟨_, rfl, by decide⟩

/- Session ids are not unique in every run. -/
theorem exists_not_uniqueIds :
    ¬ ∀ (cfg : RegistryConfig) (f₀ : Fleet)
        (ops : List FleetOp),
      create cfg = .ok f₀ → (run cfg f₀ ops).UniqueIds := by
  intro hAll
  rcases firstOrchestrator_ids with ⟨f₀, hCreate, hIds⟩
  have hNodup :=
    (hAll Registry.oneSlot f₀ firstOrchestrator hCreate).ids
  rw [hIds] at hNodup
  exact absurd hNodup (by decide)

end Fleet

end CircuitDllm
