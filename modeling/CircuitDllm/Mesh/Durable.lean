import CircuitDllm.Lib.History
import CircuitDllm.Mesh.StateFile
import CircuitDllm.Wire.JsonBytes

/-
  Killing the control plane (engine/registry.py).

  An operation is a list of steps: changes of the memory,
  then, if it saves, the steps of writing a temporary file
  and renaming it.  Whatever the step it is killed before,
  a new registry starts from the state file.

  Main declarations:
    * `Registry.stateData`, `Registry.stateText`
    * `Registry.loadState`
    * `Machine`, `Registry.script`
    * `Machine.durable_run`
-/

------------------------------------------------------------
-- The Text of the State File
------------------------------------------------------------

namespace CircuitDllm

/-
  The state has no floats, and writing it succeeds: integers
  may have any number of digits.
-/
def stateJson : JsonOps Empty where
  ops :=
    { ofText := fun _ => .nan
      repr := Empty.elim
      isZero := Empty.elim }
  limits := { depth := 1000, digits := 0 }

namespace Registry

/- What has to survive. -/
def durable (r : Registry) : Saved :=
  { accrued := r.accrued
    wallets := r.wallets
    evictionCounts := r.evictionCounts
    banned := r.banned
    orchSeq := r.orchSeq }

/- The data of _save_state. -/
def stateData (r : Registry) : PyJson Empty :=
  .obj
    [member "accrued"
        (.obj (r.accrued.entries.map (fun e =>
          member e.1 (.int e.2)))),
      member "wallets"
        (.obj (r.wallets.entries.map (fun e =>
          member e.1 (jsonText e.2)))),
      member "eviction_counts"
        (.obj (r.evictionCounts.entries.map (fun e =>
          member e.1 (.int e.2)))),
      member "banned"
        (.arr ((r.banned.insertionSort (· ≤ ·)).map
          jsonText)),
      member "orch_seq" (.int r.orchSeq)]

/- The text json.dump makes of it; it does not raise. -/
def stateText (r : Registry) : List Char :=
  PyJson.encode stateJson.ops r.stateData

end Registry

/- int(v) of a loaded value; none if it raises. -/
def intOf (u : Numeral.Charset) : PyJson Empty → Option Int
| .int n => some n
| .bool b => some (if b then 1 else 0)
| .str s => Numeral.int u (s.map Char.ofNat)
| _ => none

/- The values of a loaded dict; none where it is no dict. -/
def dictOf
    {V : Type}
    (value : PyJson Empty → Option V) :
    PyJson Empty → Option (List (String × V))
| .obj members =>
    members.mapM (fun m => do
      let key ← textOf (.str m.1 : PyJson Empty)
      let v ← value m.2
      return (key, v))
| _ => none

/- The strings of a loaded list. -/
def listOf : PyJson Empty → Option (List String)
| .arr items => items.mapM textOf
| _ => none

/- data.get(key, default) -/
def getOr
    (members : List (List Nat × PyJson Empty))
    (key : String)
    (default : PyJson Empty) :
    PyJson Empty :=
  (PyJson.get? members key).getD default

/- set.update() -/
def addAll (set : List String) (items : List String) :
    List String :=
  items.foldl (fun set item =>
    if item ∈ set then set else set ++ [item]) set

/- Statements up to the first that raises. -/
def untilRaise
    {S : Type}
    (s : S) :
    List (S → Option S) → S
| [] => s
| f :: fs =>
  match f s with
  | none => s
  | some s => untilRaise s fs

namespace Registry

/- The statements of _load_state, on the data it has read. -/
def loadSteps
    (u : Numeral.Charset)
    (members : List (List Nat × PyJson Empty)) :
    List (Registry → Option Registry) :=
  [fun r =>
      (dictOf (intOf u) (getOr members "accrued" (.obj []))).map
        (fun es => { r with accrued := r.accrued.update es }),
    fun r =>
      (dictOf textOf (getOr members "wallets" (.obj []))).map
        (fun es => { r with wallets := r.wallets.update es }),
    fun r =>
      (dictOf (intOf u)
          (getOr members "eviction_counts" (.obj []))).map
        (fun es =>
          { r with
            evictionCounts := r.evictionCounts.update es }),
    fun r =>
      (listOf (getOr members "banned" (.arr []))).map
        (fun ids => { r with banned := addAll r.banned ids }),
    fun r =>
      (intOf u (getOr members "orch_seq" (.int 0))).map
        (fun n => { r with orchSeq := n.toNat })]

/- _load_state of a file with this text. -/
def loadState
    (u : Numeral.Charset)
    (text : List Char)
    (r : Registry) :
    Registry :=
  match
    PyJson.loads stateJson.ops stateJson.limits text with
  | some (.obj members) => untilRaise r (loadSteps u members)
  | _ => r

end Registry

end CircuitDllm

------------------------------------------------------------
-- What Is Saved Is Loaded
------------------------------------------------------------

namespace CircuitDllm

theorem mapM_map_some
    {A B : Type}
    {f : B → Option A}
    {g : A → B}
    (hBack : ∀ a, f (g a) = some a)
    (xs : List A) :
    (xs.map g).mapM f = some xs := by
  induction xs with
  | nil => rfl
  | cons x xs ih => simp [hBack, ih]

theorem dictOf_obj
    {V : Type}
    (value : PyJson Empty → Option V)
    (written : V → PyJson Empty)
    (hBack : ∀ v, value (written v) = some v)
    (d : Dict String V) :
    dictOf value
        (.obj (d.entries.map (fun e =>
          member e.1 (written e.2)))) =
      some d.entries := by
  rw [dictOf]
  apply mapM_map_some
  intro e
  have hKey := textOf_jsonText (F := Empty) e.1
  rw [jsonText] at hKey
  simp [member, hKey, hBack]

theorem mem_addAll
    {set items : List String}
    {x : String} :
    x ∈ addAll set items ↔ x ∈ set ∨ x ∈ items := by
  induction items generalizing set with
  | nil => simp [addAll]
  | cons item items ih =>
      rw [addAll, List.foldl_cons, ← addAll, ih,
        List.mem_cons]
      split
      next hMem =>
        constructor
        · rintro (hSet | hItems)
          · exact .inl hSet
          · exact .inr (.inr hItems)
        · rintro (hSet | rfl | hItems)
          · exact .inl hSet
          · exact .inl hMem
          · exact .inr hItems
      next =>
        rw [List.mem_append, List.mem_singleton, or_assoc]

/- The same state; the bans are a set. -/
structure Saved.Same (s s' : Saved) : Prop where
  accrued : s'.accrued = s.accrued
  wallets : s'.wallets = s.wallets
  evictionCounts : s'.evictionCounts = s.evictionCounts
  banned : ∀ nodeId, nodeId ∈ s'.banned ↔ nodeId ∈ s.banned
  orchSeq : s'.orchSeq = s.orchSeq

theorem Saved.Same.refl (s : Saved) : s.Same s :=
  ⟨rfl, rfl, rfl, fun _ => Iff.rfl, rfl⟩

section Entries

variable
  {V : Type}
  {limits : Limits}
  {depth : Nat}
  (written : V → PyJson Empty)

/- A dict is written and read back if its values are. -/
theorem fits_entries
    (hFits : ∀ v, PyJson.Fits limits depth (written v))
    (d : Dict String V) :
    PyJson.Fits limits (depth + 1)
      (.obj (d.entries.map (fun e =>
        member e.1 (written e.2)))) := by
  apply PyJson.Fits.obj
  intro m hM
  rcases List.mem_map.mp hM with ⟨e, -, rfl⟩
  exact hFits e.2

theorem dicts_entries
    (hDicts : ∀ v, (written v).Dicts)
    (d : Dict String V) :
    PyJson.Dicts
      (.obj (d.entries.map (fun e =>
        member e.1 (written e.2)))) := by
  apply PyJson.Dicts.obj
  · have hKeys :
        (d.entries.map (fun e =>
            member e.1 (written e.2))).map (·.1) =
          (d.entries.map (·.1)).map (fun key =>
            PyJson.codePoints key.toList) := by
      rw [List.map_map, List.map_map]
      rfl
    rw [hKeys]
    exact d.nodup.map fun _ _ => codePoints_injective
  · intro m hM
    rcases List.mem_map.mp hM with ⟨e, -, rfl⟩
    exact hDicts e.2

theorem scalars_entries
    (hScalars : ∀ v, (written v).scalars = true)
    (d : Dict String V) :
    PyJson.scalars
        (.obj (d.entries.map (fun e =>
          member e.1 (written e.2)))) = true := by
  apply PyJson.scalars_obj.mpr
  intro m hM
  rcases List.mem_map.mp hM with ⟨e, -, rfl⟩
  exact ⟨scalarText_codePoints _, hScalars e.2⟩

end Entries

theorem stateJson_lawful : stateJson.ops.Lawful where
  text := nofun
  ofText_repr := nofun

namespace Registry

/- No integer is too long to be written. -/
theorem fits_int {depth : Nat} (n : Int) :
    PyJson.Fits stateJson.limits depth
      (.int n : PyJson Empty) :=
  .int (by simp [stateJson, Limits.tooLong])

theorem sound_stateData (r : Registry) :
    PyJson.Sound stateJson.limits r.stateData where
  fits := by
    refine @PyJson.Fits.obj Empty stateJson.limits 999 _ ?_
    simp only [List.forall_mem_cons]
    refine
      ⟨fits_entries .int fits_int r.accrued,
        fits_entries jsonText (fun _ => .str) r.wallets,
        fits_entries .int fits_int r.evictionCounts,
        ?_, fits_int _, nofun⟩
    refine @PyJson.Fits.arr Empty stateJson.limits 998 _ ?_
    intro v hV
    rcases List.mem_map.mp hV with ⟨nodeId, -, rfl⟩
    exact .str
  dicts := by
    have hNames :
        (["accrued", "wallets", "eviction_counts", "banned",
            "orch_seq"].map (fun key : String =>
          PyJson.codePoints key.toList)).Nodup :=
      List.Nodup.map (fun _ _ => codePoints_injective)
        (by decide)
    refine .obj hNames ?_
    simp only [List.forall_mem_cons]
    refine
      ⟨dicts_entries .int (fun _ => .int) r.accrued,
        dicts_entries jsonText (fun _ => .str) r.wallets,
        dicts_entries .int (fun _ => .int) r.evictionCounts,
        .arr ?_, .int, nofun⟩
    intro v hV
    rcases List.mem_map.mp hV with ⟨nodeId, -, rfl⟩
    exact .str
  scalars := by
    apply PyJson.scalars_obj.mpr
    simp only [List.forall_mem_cons]
    refine
      ⟨⟨rfl, scalars_entries .int (fun _ => rfl) r.accrued⟩,
        ⟨rfl, scalars_entries jsonText
          (fun _ => scalarText_codePoints _) r.wallets⟩,
        ⟨rfl, scalars_entries .int (fun _ => rfl)
          r.evictionCounts⟩,
        ⟨rfl, PyJson.scalars_arr.mpr ?_⟩, ⟨rfl, rfl⟩, nofun⟩
    intro v hV
    rcases List.mem_map.mp hV with ⟨nodeId, -, rfl⟩
    exact scalarText_codePoints _

/- Writing the state does not raise, and it is read back. -/
theorem dumps_stateData (r : Registry) :
    PyJson.dumps stateJson.ops stateJson.limits r.stateData =
      .ok r.stateText :=
  PyJson.dumps_eq_encode r.sound_stateData.fits

theorem loads_stateText (r : Registry) :
    PyJson.loads stateJson.ops stateJson.limits r.stateText =
      some r.stateData :=
  PyJson.loads_dumps stateJson_lawful
    r.sound_stateData.dicts r.sound_stateData.scalars
    r.dumps_stateData

/-
  A registry without state of its own loads what another one
  has saved.
-/
theorem loadState_stateData
    (u : Numeral.Charset)
    (r : Registry)
    (topo : Topology) :
    r.durable.Same
      (loadState u r.stateText { topo := topo }).durable := by
  have hAccrued :=
    dictOf_obj (intOf u) .int (fun _ => rfl) r.accrued
  have hWallets :=
    dictOf_obj textOf jsonText textOf_jsonText r.wallets
  have hEvictions :=
    dictOf_obj (intOf u) .int (fun _ => rfl) r.evictionCounts
  have hBanned :
      listOf (.arr ((r.banned.insertionSort (· ≤ ·)).map
          jsonText)) =
        some (r.banned.insertionSort (· ≤ ·)) :=
    mapM_map_some textOf_jsonText _
  have hOrchSeq : intOf u (.int r.orchSeq) = some (r.orchSeq : Int) :=
    rfl
  rw [loadState, loads_stateText, stateData]
  simp only [loadSteps, getOr, get?_member, String.reduceEq,
    if_true, if_false, Option.getD_some]
  simp only [untilRaise, hAccrued, hWallets, hEvictions, hBanned,
    hOrchSeq, Option.map_some]
  refine ⟨?_, ?_, ?_, ?_, ?_⟩
  · exact Dict.update_empty r.accrued
  · exact Dict.update_empty r.wallets
  · exact Dict.update_empty r.evictionCounts
  · intro nodeId
    simp only [durable]
    rw [mem_addAll, List.mem_insertionSort]
    simp
  · exact Int.toNat_natCast r.orchSeq

end Registry

end CircuitDllm

------------------------------------------------------------
-- Steps
------------------------------------------------------------

namespace CircuitDllm

/- A change of the registry's memory. -/
inductive MemoryStep where
  | table (topo : Topology)
  | takeOrchIndex
  | setWallet (nodeId wallet : String)
  | accrue (nodeId : String) (share : Int)
  | countEviction (nodeId : String)
  | ban (nodeId : String)
  | zero (nodeId : String)
  /- an operation that changes nothing of what is saved -/
  | whole (op : RegistryOp)

/- The memory, the text at state_path and temporary files. -/
structure Machine where
  memory : Registry
  stateFile : Option (List Char) := none
  temps : List (List Char) := []

inductive MachineStep where
  | memory (s : MemoryStep)
  | makedirs
  | mkstemp
  | write (c : Char)
  /- os.replace -/
  | replace

namespace Registry

variable (cfg : RegistryConfig)

def applyStep (r : Registry) : MemoryStep → Registry
| .table topo => { r with topo := topo }
| .takeOrchIndex => { r with orchSeq := r.orchSeq + 1 }
| .setWallet nodeId wallet =>
    { r with wallets := r.wallets.set nodeId wallet }
| .accrue nodeId share =>
    { r with
      accrued :=
        r.accrued.set nodeId
          ((r.accrued.get? nodeId).getD 0 + share) }
| .countEviction nodeId =>
    { r with
      evictionCounts :=
        r.evictionCounts.set nodeId
          ((r.evictionCounts.get? nodeId).getD 0 + 1) }
| .ban nodeId =>
    { r with
      banned :=
        if nodeId ∉ r.banned then r.banned ++ [nodeId]
        else r.banned }
| .zero nodeId =>
    { r with accrued := r.accrued.set nodeId 0 }
| .whole op => r.step cfg op

/- The memory steps of an operation, and whether it saves. -/
abbrev Changes := List MemoryStep × Bool

/- The end of an admission, on the topology so far. -/
def grantSteps (node : Node) (topo : Topology) : Changes :=
  let topo :=
    if node.nodeId ∈ cfg.seedNodes then
      topo.setTrusted node.nodeId
    else topo
  match cfg.deriveNodeKey node.nodeId with
  | none => ([.table topo], false)
  | some key =>
    ([.table topo,
        .table (topo.modifyNode node.nodeId (fun n =>
          { n with wireKey := some key })),
        .setWallet node.nodeId node.payoutWallet],
      true)

def registerSteps
    (node : Node)
    (now : ℚ)
    (preferRange : Option PreferRange)
    (r : Registry) :
    Changes :=
  if node.nodeId ∈ r.banned then ([], false)
  else if ∃ allowed ∈ cfg.allowlist,
      node.nodeId ∉ allowed then
    ([], false)
  else if node.orchestrator then
    match r.topo.registerOrchestrator node now with
    | (.error _, topo) => ([.table topo], false)
    | (.ok (), topo) =>
      let granted := grantSteps cfg node topo
      (.table topo :: .takeOrchIndex :: granted.1, granted.2)
  else
    match r.topo.register node now preferRange with
    | (.error _, topo) => ([.table topo], false)
    | (.ok _, topo) =>
      let granted := grantSteps cfg node topo
      (.table topo :: granted.1, granted.2)

def recordCheckSteps
    (nodeId : String)
    (ok : Bool)
    (promoteAfter strikeMax : Int)
    (r : Registry) :
    Changes :=
  let (action, topo) :=
    r.topo.recordCheck nodeId ok promoteAfter strikeMax
  if action = some .evicted then
    (.table topo :: .countEviction nodeId ::
        (if cfg.banAfter ≤
            (r.evictionCounts.get? nodeId).getD 0 + 1 then
          [.ban nodeId]
        else []),
      true)
  else ([.table topo], false)

def recordWorkSteps
    (route : List (String × Int × Int))
    (paidRaw : Int) :
    Changes :=
  let fee := paidRaw * cfg.feeBps / 10000
  let pool := paidRaw - fee
  let weights := route.map (fun e => (e.1, e.2.1 * e.2.2))
  let total := (weights.map (·.2)).sum
  if total ≤ 0 then ([], false)
  else
    ((shares pool total 0 weights).map (fun e =>
        .accrue e.1 e.2),
      true)

def settleSteps (minPayoutRaw : Int) (r : Registry) : Changes :=
  ((r.accrued.entries.filterMap (fun e =>
      if minPayoutRaw ≤ e.2 then
        (r.walletOf e.1).map (fun _ => e.1)
      else none)).map .zero,
    true)

def changes (r : Registry) : RegistryOp → Changes
| .register node now preferRange =>
    r.registerSteps cfg node now preferRange
| .recordCheck nodeId ok promoteAfter strikeMax =>
    r.recordCheckSteps cfg nodeId ok promoteAfter strikeMax
| .recordWork route paidRaw => recordWorkSteps cfg route paidRaw
| .settle minPayoutRaw => r.settleSteps minPayoutRaw
-- these are no calls of a registry
| .restart => ([], false)
| .disk _ => ([], false)
| op => ([.whole op], false)

/- The steps of _save_state. -/
def saveScript (r : Registry) : List MachineStep :=
  if cfg.hasStateFile then
    .makedirs :: .mkstemp ::
      (r.stateText.map .write ++ [.replace])
  else []

/- The steps of an operation. -/
def script (r : Registry) (op : RegistryOp) :
    List MachineStep :=
  let (steps, saves) := r.changes cfg op
  steps.map .memory ++
    if saves then saveScript cfg (steps.foldl (applyStep cfg) r)
    else []

end Registry

namespace Machine

variable (cfg : RegistryConfig)

/-
  One step.  The renamed file is what `Registry.saveState`
  leaves in the registry's `file`.
-/
def step (m : Machine) : MachineStep → Machine
| .memory s => { m with memory := m.memory.applyStep cfg s }
| .makedirs => m
| .mkstemp => { m with temps := [] :: m.temps }
| .write c =>
    { m with
      temps :=
        match m.temps with
        | [] => []
        | text :: temps => (text ++ [c]) :: temps }
| .replace =>
    match m.temps with
    | [] => m
    | text :: temps =>
      { memory := m.memory.saveState cfg
        stateFile := some text
        temps := temps }

def steps (m : Machine) (ss : List MachineStep) : Machine :=
  ss.foldl (step cfg) m

/- A complete operation. -/
def perform (m : Machine) (op : RegistryOp) : Machine :=
  m.steps cfg (m.memory.script cfg op)

/- An operation killed after `k` steps. -/
def killed (m : Machine) (op : RegistryOp) (k : Nat) :
    Machine :=
  m.steps cfg ((m.memory.script cfg op).take k)

variable (u : Numeral.Charset)

/- What a registry with this topology loads. -/
def loaded (m : Machine) (topo : Topology) : Registry :=
  match (if cfg.hasStateFile then m.stateFile else none) with
  | none => { topo := topo }
  | some text => Registry.loadState u text { topo := topo }

/- A new Registry on the same state_path. -/
def newRegistry (m : Machine) : Except MeshError Registry :=
  match Topology.create cfg.layout with
  | .error e => .error e
  | .ok topo => .ok (m.loaded cfg u topo)

/- A machine whose process is gone starts it again. -/
def restarted (m : Machine) : Machine :=
  match m.newRegistry cfg u with
  | .error _ => m
  | .ok r => { m with memory := r }

/- What happens to a control plane's machine. -/
inductive Event where
  | perform (op : RegistryOp)
  /- killed before step `k`, and started again -/
  | kill (op : RegistryOp) (k : Nat)

def handle (m : Machine) : Event → Machine
| .perform op => m.perform cfg op
| .kill op k => (m.killed cfg op k).restarted cfg u

def run (m : Machine) (es : List Event) : Machine :=
  es.foldl (handle cfg u) m

/-
  The value of the counter from which a complete operation
  issued an orchestrator index.
-/
def issues (m : Machine) : Event → Option Nat
| .perform (.register node now preferRange) =>
    match (m.memory.register cfg node now preferRange).1 with
    | .error _ => none
    | .ok admission =>
      admission.orchIndex.map (fun _ => m.memory.orchSeq)
| _ => none

/- All the values from which a run issued indices. -/
def issued (m : Machine) (es : List Event) : List Nat :=
  (History.trail (handle cfg u) m es).filterMap (fun e =>
    e.1.issues cfg e.2)

end Machine

end CircuitDllm

------------------------------------------------------------
-- The Steps Are the Operation
------------------------------------------------------------

namespace CircuitDllm

namespace Registry

/- The operations that are calls of a registry. -/
def Calls : RegistryOp → Prop
| .restart => False
| .disk _ => False
| _ => True

variable {cfg : RegistryConfig} {r : Registry}

/- The memory after the steps, and the save after them. -/
def applyAll
    (cfg : RegistryConfig)
    (c : Changes)
    (r : Registry) :
    Registry :=
  let r := c.1.foldl (applyStep cfg) r
  if c.2 then r.saveState cfg else r

theorem applyAll_grantSteps
    (node : Node)
    (assignment : Option (Int × Int))
    (orchIndex : Option Nat) :
    applyAll cfg (grantSteps cfg node r.topo) r =
      (r.grant cfg node assignment orchIndex).2 := by
  unfold grantSteps grant
  cases cfg.deriveNodeKey node.nodeId with
  | none => rfl
  | some key => rfl

theorem applyAll_registerSteps
    (node : Node)
    (now : ℚ)
    (preferRange : Option PreferRange) :
    applyAll cfg (r.registerSteps cfg node now preferRange) r =
      (r.register cfg node now preferRange).2 := by
  unfold registerSteps register
  split
  · rfl
  · split
    · rfl
    · split
      · cases hTable : r.topo.registerOrchestrator node now with
        | mk result topo =>
            cases result with
            | error e => rfl
            | ok _ =>
                exact applyAll_grantSteps
                  (r := { r with
                    topo := topo
                    orchSeq := r.orchSeq + 1 })
                  node none _
      · cases hTable : r.topo.register node now preferRange with
        | mk result topo =>
            cases result with
            | error e => rfl
            | ok slot =>
                exact applyAll_grantSteps
                  (r := { r with topo := topo })
                  node _ none

theorem applyAll_recordCheckSteps
    (nodeId : String)
    (ok : Bool)
    (promoteAfter strikeMax : Int) :
    applyAll cfg
        (r.recordCheckSteps cfg nodeId ok promoteAfter
          strikeMax) r =
      (r.recordCheck cfg nodeId ok promoteAfter
        strikeMax).2 := by
  unfold recordCheckSteps recordCheck
  simp only
  split
  · by_cases hBan : cfg.banAfter ≤
        (r.evictionCounts.get? nodeId).getD 0 + 1
    · simp only [hBan, true_and, if_true]
      rfl
    · simp only [hBan, false_and, if_false]
      rfl
  · rfl

theorem foldl_accrue
    (cfg : RegistryConfig)
    (shared : List (String × Int))
    (r : Registry) :
    (shared.map (fun e => MemoryStep.accrue e.1 e.2)).foldl
        (applyStep cfg) r =
      { r with
        accrued :=
          shared.foldl (fun accrued e =>
            accrued.set e.1
              ((accrued.get? e.1).getD 0 + e.2)) r.accrued } := by
  induction shared generalizing r with
  | nil => rfl
  | cons e shared ih =>
      rw [List.map_cons, List.foldl_cons, ih]
      rfl

theorem foldl_zero
    (cfg : RegistryConfig)
    (nodeIds : List String)
    (r : Registry) :
    (nodeIds.map MemoryStep.zero).foldl (applyStep cfg) r =
      { r with
        accrued :=
          nodeIds.foldl (fun accrued nodeId =>
            accrued.set nodeId 0) r.accrued } := by
  induction nodeIds generalizing r with
  | nil => rfl
  | cons nodeId nodeIds ih =>
      rw [List.map_cons, List.foldl_cons, ih]
      rfl

theorem applyAll_settleSteps (minPayoutRaw : Int) :
    applyAll cfg (r.settleSteps minPayoutRaw) r =
      (r.settle cfg minPayoutRaw).2 := by
  have hDue :
      r.accrued.entries.filterMap (fun e =>
          if minPayoutRaw ≤ e.2 then
            (r.walletOf e.1).map (fun _ => e.1)
          else none) =
        (r.accrued.entries.filterMap (fun e =>
          if minPayoutRaw ≤ e.2 then
            (r.walletOf e.1).map (fun w => (e.1, w, e.2))
          else none)).map (·.1) := by
    rw [List.map_filterMap]
    congr 1
    funext e
    split
    · rw [Option.map_map]
      rfl
    · rfl
  unfold applyAll settleSteps settle
  simp only [if_true]
  rw [foldl_zero, hDue, List.foldl_map]

/- The steps of a call leave what the call leaves. -/
theorem applyAll_changes
    {op : RegistryOp}
    (hCalls : Calls op) :
    applyAll cfg (r.changes cfg op) r = r.step cfg op := by
  cases op with
  | register node now preferRange =>
      exact applyAll_registerSteps node now preferRange
  | recordCheck nodeId ok promoteAfter strikeMax =>
      exact applyAll_recordCheckSteps nodeId ok promoteAfter
        strikeMax
  | recordWork route paidRaw =>
      simp only [changes, recordWorkSteps, step, recordWork]
      split
      · rfl
      · rw [applyAll]
        simp only [foldl_accrue, if_true]
  | settle minPayoutRaw =>
      exact applyAll_settleSteps minPayoutRaw
  | restart => exact hCalls.elim
  | disk up => exact hCalls.elim
  | _ => rfl

end Registry

end CircuitDllm

------------------------------------------------------------
-- What Every Step Keeps
------------------------------------------------------------

namespace CircuitDllm

theorem Saved.Same.symm
    {s s' : Saved}
    (hSame : s.Same s') :
    s'.Same s :=
  ⟨hSame.accrued.symm, hSame.wallets.symm,
    hSame.evictionCounts.symm, fun nodeId =>
      (hSame.banned nodeId).symm, hSame.orchSeq.symm⟩

theorem Saved.Same.trans
    {s s' s'' : Saved}
    (hSame : s.Same s')
    (hSame' : s'.Same s'') :
    s.Same s'' :=
  ⟨hSame'.accrued.trans hSame.accrued,
    hSame'.wallets.trans hSame.wallets,
    hSame'.evictionCounts.trans hSame.evictionCounts,
    fun nodeId =>
      (hSame'.banned nodeId).trans (hSame.banned nodeId),
    hSame'.orchSeq.trans hSame.orchSeq⟩

namespace Registry

variable {cfg : RegistryConfig} {r : Registry}

@[simp] theorem durable_saveState (r : Registry) :
    (r.saveState cfg).durable = r.durable := by
  unfold saveState
  split
  · rfl
  · rfl

theorem durable_acquireRoute (session : Nat) :
    (r.acquireRoute session).2.durable = r.durable := by
  unfold acquireRoute
  split
  · rfl
  · split
    · rfl
    · rfl

theorem durable_releaseEntry (session : Nat) :
    (r.releaseEntry session).durable = r.durable := by
  unfold releaseEntry
  split
  · rfl
  · rfl

theorem durable_acquireEntry (session : Nat) :
    (r.acquireEntry session).2.durable = r.durable := by
  have hReleased := durable_releaseEntry (r := r) session
  unfold acquireEntry
  simp only
  split
  · exact hReleased
  · exact hReleased

/- A grant with a key always saves. -/
theorem grantSteps_saves
    (hKeys : ∀ nodeId, (cfg.deriveNodeKey nodeId).isSome)
    (node : Node)
    (topo : Topology) :
    (grantSteps cfg node topo).2 = true := by
  rcases Option.isSome_iff_exists.mp (hKeys node.nodeId) with
    ⟨key, hKey⟩
  simp only [grantSteps, hKey]

theorem durable_registerSteps
    (hKeys : ∀ nodeId, (cfg.deriveNodeKey nodeId).isSome)
    {node : Node}
    {now : ℚ}
    {preferRange : Option PreferRange}
    (hSaves :
      (r.registerSteps cfg node now preferRange).2 = false) :
    (applyAll cfg (r.registerSteps cfg node now preferRange)
      r).durable = r.durable := by
  unfold registerSteps at hSaves ⊢
  split
  · rfl
  · rename_i hBanned
    rw [if_neg hBanned] at hSaves
    split
    · rfl
    · rename_i hAllowed
      rw [if_neg hAllowed] at hSaves
      split
      · rename_i hOrch
        rw [if_pos hOrch] at hSaves
        split
        · rfl
        · rename_i topo hTable
          simp only [hTable, grantSteps_saves hKeys] at hSaves
          cases hSaves
      · rename_i hOrch
        rw [if_neg hOrch] at hSaves
        split
        · rfl
        · rename_i slot topo hTable
          simp only [hTable, grantSteps_saves hKeys] at hSaves
          cases hSaves

/- A call that does not save changes nothing that is saved. -/
theorem durable_of_not_saves
    (hKeys : ∀ nodeId, (cfg.deriveNodeKey nodeId).isSome)
    {op : RegistryOp}
    (hSaves : (r.changes cfg op).2 = false) :
    (applyAll cfg (r.changes cfg op) r).durable =
      r.durable := by
  cases op with
  | register node now preferRange =>
      exact durable_registerSteps hKeys hSaves
  | recordCheck nodeId ok promoteAfter strikeMax =>
      simp only [changes, recordCheckSteps] at hSaves ⊢
      split
      · rename_i hEvicted
        rw [if_pos hEvicted] at hSaves
        cases hSaves
      · rfl
  | recordWork route paidRaw =>
      simp only [changes, recordWorkSteps] at hSaves ⊢
      split
      · rfl
      · rename_i hTotal
        rw [if_neg hTotal] at hSaves
        cases hSaves
  | settle minPayoutRaw => cases hSaves
  | acquireRoute session => exact durable_acquireRoute session
  | acquireEntry session => exact durable_acquireEntry session
  | releaseEntry session => exact durable_releaseEntry session
  | _ => rfl

end Registry

namespace Machine

variable {cfg : RegistryConfig} {u : Numeral.Charset}
variable {m : Machine}

theorem steps_cons
    (m : Machine)
    (s : MachineStep)
    (ss : List MachineStep) :
    m.steps cfg (s :: ss) = (m.step cfg s).steps cfg ss :=
  rfl

theorem steps_append
    (m : Machine)
    (ss ss' : List MachineStep) :
    m.steps cfg (ss ++ ss') = (m.steps cfg ss).steps cfg ss' :=
  List.foldl_append

theorem steps_memory
    (m : Machine)
    (ss : List MemoryStep) :
    m.steps cfg (ss.map .memory) =
      { m with
        memory := ss.foldl (Registry.applyStep cfg) m.memory } := by
  induction ss generalizing m with
  | nil => rfl
  | cons s ss ih => exact ih _

theorem steps_write
    (m : Machine)
    (text cs : List Char)
    (temps : List (List Char)) :
    ({ m with temps := text :: temps } : Machine).steps cfg
        (cs.map .write) =
      { m with temps := (text ++ cs) :: temps } := by
  induction cs generalizing text with
  | nil => rw [List.append_nil]; rfl
  | cons c cs ih =>
      have hRest := ih (text ++ [c])
      rw [List.append_assoc, List.singleton_append] at hRest
      exact hRest

/- A complete save. -/
theorem steps_saveScript
    (hFile : cfg.hasStateFile = true)
    (m : Machine) :
    m.steps cfg (m.memory.saveScript cfg) =
      { m with
        memory := m.memory.saveState cfg
        stateFile := some m.memory.stateText } := by
  rw [Registry.saveScript, if_pos hFile]
  have hWritten :=
    @steps_write cfg m [] m.memory.stateText m.temps
  rw [List.nil_append] at hWritten
  rw [steps_cons, steps_cons, steps_append]
  simp only [step, hWritten]
  rw [steps_cons]
  rfl

/- The memory and the file after a complete call. -/
theorem perform_eq
    (hFile : cfg.hasStateFile = true)
    (m : Machine)
    (op : RegistryOp) :
    m.perform cfg op =
      { m with
        memory :=
          Registry.applyAll cfg (m.memory.changes cfg op)
            m.memory
        stateFile :=
          if (m.memory.changes cfg op).2 then
            some
              ((m.memory.changes cfg op).1.foldl
                (Registry.applyStep cfg) m.memory).stateText
          else m.stateFile } := by
  rw [perform, Registry.script]
  cases hChanges : m.memory.changes cfg op with
  | mk ss saves =>
      simp only [steps_append, steps_memory]
      cases saves with
      | false => rfl
      | true => exact steps_saveScript hFile _

/- A restart would find what the memory has. -/
def Current
    (cfg : RegistryConfig)
    (u : Numeral.Charset)
    (m : Machine) :
    Prop :=
  ∀ topo, m.memory.durable.Same (m.loaded cfg u topo).durable

theorem current_start
    {r : Registry}
    (hCreate : Registry.create cfg = .ok r) :
    Current cfg u { memory := r } := by
  intro topo
  rcases Registry.create_ok hCreate with ⟨topo', -, rfl⟩
  unfold loaded
  split
  · exact Saved.Same.refl _
  · rename_i text hText
    split at hText
    · cases hText
    · cases hText

theorem Current.perform
    (hFile : cfg.hasStateFile = true)
    (hKeys : ∀ nodeId, (cfg.deriveNodeKey nodeId).isSome)
    (hCurrent : m.Current cfg u)
    (op : RegistryOp) :
    (m.perform cfg op).Current cfg u := by
  rw [perform_eq hFile]
  intro topo
  cases hSaves : (m.memory.changes cfg op).2 with
  | false =>
      simp only [Bool.false_eq_true, if_false,
        Registry.durable_of_not_saves hKeys hSaves]
      exact hCurrent topo
  | true =>
      simp only [loaded, Registry.applyAll, hSaves, hFile,
        if_true, Registry.durable_saveState]
      exact Registry.loadState_stateData u _ topo

/- Only the rename touches the state file. -/
theorem stateFile_steps
    (m : Machine)
    {ss : List MachineStep}
    (hPlain : MachineStep.replace ∉ ss) :
    (m.steps cfg ss).stateFile = m.stateFile := by
  induction ss generalizing m with
  | nil => rfl
  | cons s ss ih =>
      rw [List.mem_cons, not_or] at hPlain
      rw [steps_cons, ih _ hPlain.2]
      cases s with
      | replace => exact absurd rfl hPlain.1
      | _ => rfl

/- The rename comes last. -/
theorem script_cases
    (r : Registry)
    (op : RegistryOp) :
    MachineStep.replace ∉ r.script cfg op ∨
      ∃ front, MachineStep.replace ∉ front ∧
        r.script cfg op = front ++ [.replace] := by
  rw [Registry.script]
  cases hChanges : r.changes cfg op with
  | mk ss saves =>
      cases saves with
      | false =>
          left
          simp
      | true =>
          simp only [if_true, Registry.saveScript]
          split
          · right
            refine ⟨ss.map .memory ++ .makedirs :: .mkstemp ::
              (ss.foldl (Registry.applyStep cfg)
                r).stateText.map .write, ?_, ?_⟩
            · simp
            · simp
          · left
            simp

/- A killed operation has left the file, or all is done. -/
theorem killed_cases
    (m : Machine)
    (op : RegistryOp)
    (k : Nat) :
    (m.killed cfg op k).stateFile = m.stateFile ∨
      m.killed cfg op k = m.perform cfg op := by
  unfold killed perform
  rcases @script_cases cfg m.memory op with
    hPlain | ⟨front, hPlain, hScript⟩
  · exact .inl (stateFile_steps m (fun hMem =>
      hPlain (List.mem_of_mem_take hMem)))
  · by_cases hShort : k ≤ front.length
    · left
      rw [hScript, List.take_append_of_le_length hShort]
      exact stateFile_steps m (fun hMem =>
        hPlain (List.mem_of_mem_take hMem))
    · right
      rw [List.take_of_length_le]
      rw [hScript, List.length_append, List.length_singleton]
      omega

theorem loaded_congr
    {m m' : Machine}
    (hFile : m'.stateFile = m.stateFile)
    (topo : Topology) :
    m'.loaded cfg u topo = m.loaded cfg u topo := by
  rw [loaded, loaded, hFile]

/- What is loaded is from before the operation or after it. -/
theorem same_killed
    (hFile : cfg.hasStateFile = true)
    (hKeys : ∀ nodeId, (cfg.deriveNodeKey nodeId).isSome)
    (hCurrent : m.Current cfg u)
    (op : RegistryOp)
    (k : Nat) :
    (∀ topo, m.memory.durable.Same
        ((m.killed cfg op k).loaded cfg u topo).durable) ∨
      ∀ topo, (m.perform cfg op).memory.durable.Same
        ((m.killed cfg op k).loaded cfg u topo).durable := by
  rcases @killed_cases cfg m op k with hSame | hDone
  · left
    intro topo
    rw [loaded_congr hSame]
    exact hCurrent topo
  · right
    rw [hDone]
    exact hCurrent.perform hFile hKeys op

theorem Current.kill
    (hFile : cfg.hasStateFile = true)
    (hKeys : ∀ nodeId, (cfg.deriveNodeKey nodeId).isSome)
    {topo : Topology}
    (hTopo : Topology.create cfg.layout = .ok topo)
    (hCurrent : m.Current cfg u)
    (op : RegistryOp)
    (k : Nat) :
    ((m.killed cfg op k).restarted cfg u).Current cfg u := by
  intro topo'
  simp only [restarted, newRegistry, hTopo]
  rcases same_killed hFile hKeys hCurrent op k with
    hBefore | hAfter
  · exact (hBefore topo).symm.trans (hBefore topo')
  · exact (hAfter topo).symm.trans (hAfter topo')

theorem current_run
    (hFile : cfg.hasStateFile = true)
    (hKeys : ∀ nodeId, (cfg.deriveNodeKey nodeId).isSome)
    {r₀ : Registry}
    (hCreate : Registry.create cfg = .ok r₀)
    (es : List Event) :
    (run cfg u { memory := r₀ } es).Current cfg u := by
  rcases Registry.create_ok hCreate with ⟨topo, hTopo, -⟩
  refine
    History.induction (handle cfg u)
      (fun _ m => m.Current cfg u) (current_start hCreate)
      (fun _ m e hOld => ?_) es
  cases e with
  | perform op => exact hOld.perform hFile hKeys op
  | kill op k => exact hOld.kill hFile hKeys hTopo op k

end Machine

end CircuitDllm

------------------------------------------------------------
-- Orchestrator Indices
------------------------------------------------------------

namespace CircuitDllm

namespace Registry

variable {cfg : RegistryConfig} {r : Registry}

@[simp] theorem orchSeq_saveState (r : Registry) :
    (r.saveState cfg).orchSeq = r.orchSeq :=
  congrArg Saved.orchSeq (durable_saveState r)

theorem orchSeq_grant
    (node : Node)
    (assignment : Option (Int × Int))
    (orchIndex : Option Nat) :
    (r.grant cfg node assignment orchIndex).2.orchSeq =
      r.orchSeq := by
  unfold grant
  cases cfg.deriveNodeKey node.nodeId with
  | none => rfl
  | some key => exact orchSeq_saveState _

theorem orchIndex_of_grant
    {node : Node}
    {assignment : Option (Int × Int)}
    {orchIndex : Option Nat}
    {admission : Admission}
    (hOk :
      (r.grant cfg node assignment orchIndex).1 =
        .ok admission) :
    admission.orchIndex = orchIndex := by
  unfold grant at hOk
  cases hKey : cfg.deriveNodeKey node.nodeId with
  | none =>
      rw [hKey] at hOk
      cases hOk
  | some key =>
      rw [hKey] at hOk
      cases hOk
      rfl

/- An operation never takes the counter back. -/
theorem orchSeq_le_applyAll
    (hKeys : ∀ nodeId, (cfg.deriveNodeKey nodeId).isSome)
    (op : RegistryOp) :
    r.orchSeq ≤
      (applyAll cfg (r.changes cfg op) r).orchSeq := by
  cases hSaves : (r.changes cfg op).2 with
  | false =>
      have hSame := durable_of_not_saves hKeys hSaves
      exact le_of_eq (congrArg Saved.orchSeq hSame).symm
  | true =>
      cases op with
      | register node now preferRange =>
          rw [changes, applyAll_registerSteps]
          cases register_cases cfg node now preferRange r with
          | refused e hReach hEnd => rw [hEnd]
          | dropped e hReach hHolder hEntry hEnd => rw [hEnd]
          | entered slot assignment orchIndex hReach hEntry
              hSlot hEnd =>
              rw [hEnd, orchSeq_grant]
              simp only
              split
              · exact Nat.le_succ _
              · exact le_refl _
      | recordCheck nodeId ok promoteAfter strikeMax =>
          rw [changes, applyAll_recordCheckSteps]
          unfold recordCheck
          simp only
          split
          · simp
          · exact le_refl _
      | recordWork route paidRaw =>
          have hStep :
              applyAll cfg
                  (r.changes cfg (.recordWork route paidRaw)) r =
                r.recordWork cfg route paidRaw :=
            applyAll_changes trivial
          rw [hStep]
          unfold recordWork
          simp only
          split
          · exact le_refl _
          · simp
      | settle minPayoutRaw =>
          rw [changes, applyAll_settleSteps, settle]
          simp
      | _ => cases hSaves

/- Who is issued an index moves the counter on. -/
theorem orchSeq_of_issued
    {node : Node}
    {now : ℚ}
    {preferRange : Option PreferRange}
    {admission : Admission}
    {index : Nat}
    (hOk :
      (r.register cfg node now preferRange).1 = .ok admission)
    (hIndex : admission.orchIndex = some index) :
    index = r.orchSeq % 2 ^ 15 ∧
      (r.register cfg node now preferRange).2.orchSeq =
        r.orchSeq + 1 := by
  unfold register at hOk ⊢
  split at hOk
  · cases hOk
  · rename_i hBanned
    rw [if_neg hBanned]
    split at hOk
    · cases hOk
    · rename_i hAllowed
      rw [if_neg hAllowed]
      split at hOk
      · rename_i hOrch
        rw [if_pos hOrch]
        split at hOk
        · cases hOk
        · rename_i topo hTable
          rw [orchIndex_of_grant hOk] at hIndex
          simp only [orchSeq_grant]
          exact ⟨(Option.some.inj hIndex).symm, trivial⟩
      · split at hOk
        · cases hOk
        · rw [orchIndex_of_grant hOk] at hIndex
          cases hIndex

end Registry

end CircuitDllm

namespace CircuitDllm

namespace Machine

variable {cfg : RegistryConfig} {u : Numeral.Charset}

/- What was issued is below the counter, in order. -/
structure Counted (m : Machine) (issued : List Nat) : Prop where
  below : ∀ n ∈ issued, n < m.memory.orchSeq
  sorted : issued.Pairwise (· < ·)

theorem Counted.mono
    {m m' : Machine}
    {issued : List Nat}
    (hCounted : m.Counted issued)
    (hLe : m.memory.orchSeq ≤ m'.memory.orchSeq) :
    m'.Counted issued where
  below := fun n hN => lt_of_lt_of_le (hCounted.below n hN) hLe
  sorted := hCounted.sorted

/- A complete operation, whether it issues or not. -/
theorem Counted.perform
    (hFile : cfg.hasStateFile = true)
    (hKeys : ∀ nodeId, (cfg.deriveNodeKey nodeId).isSome)
    {m : Machine}
    {issued : List Nat}
    (hCounted : m.Counted issued)
    (op : RegistryOp) :
    (m.perform cfg op).Counted
      (issued ++ (m.issues cfg (.perform op)).toList) := by
  have hMemory :
      (m.perform cfg op).memory =
        Registry.applyAll cfg (m.memory.changes cfg op)
          m.memory := by
    rw [perform_eq hFile]
  have hLe : m.memory.orchSeq ≤ (m.perform cfg op).memory.orchSeq := by
    rw [hMemory]
    exact Registry.orchSeq_le_applyAll hKeys op
  cases hIssues : m.issues cfg (.perform op) with
  | none =>
      rw [Option.toList_none, List.append_nil]
      exact hCounted.mono hLe
  | some n =>
      cases op with
      | register node now preferRange =>
          simp only [issues] at hIssues
          split at hIssues
          · cases hIssues
          · rename_i admission hOk
            rcases Option.map_eq_some_iff.mp hIssues with
              ⟨index, hIndex, rfl⟩
            have hNext :=
              (Registry.orchSeq_of_issued hOk hIndex).2
            rw [Registry.changes,
              Registry.applyAll_registerSteps] at hMemory
            rw [← hMemory] at hNext
            constructor
            · intro n hN
              rw [hNext]
              rcases List.mem_append.mp hN with hOld | hNew
              · exact Nat.lt_succ_of_lt (hCounted.below n hOld)
              · rw [Option.toList_some,
                  List.mem_singleton] at hNew
                rw [hNew]
                exact Nat.lt_succ_self _
            · rw [Option.toList_some, List.pairwise_append]
              refine ⟨hCounted.sorted,
                List.pairwise_singleton _ _, fun n hN n' hN' => ?_⟩
              rw [List.mem_singleton.mp hN']
              exact hCounted.below n hN
      | _ => cases hIssues

/- A killed operation has issued nothing. -/
theorem Counted.kill
    (hFile : cfg.hasStateFile = true)
    (hKeys : ∀ nodeId, (cfg.deriveNodeKey nodeId).isSome)
    {topo : Topology}
    (hTopo : Topology.create cfg.layout = .ok topo)
    {m : Machine}
    (hCurrent : m.Current cfg u)
    {issued : List Nat}
    (hCounted : m.Counted issued)
    (op : RegistryOp)
    (k : Nat) :
    ((m.killed cfg op k).restarted cfg u).Counted issued := by
  apply hCounted.mono
  simp only [restarted, newRegistry, hTopo]
  rcases same_killed hFile hKeys hCurrent op k with
    hBefore | hAfter
  · exact le_of_eq (hBefore topo).orchSeq.symm
  · have hSeq := (hAfter topo).orchSeq
    calc m.memory.orchSeq
        ≤ (m.perform cfg op).memory.orchSeq := by
          rw [perform_eq hFile]
          exact Registry.orchSeq_le_applyAll hKeys op
      _ = ((m.killed cfg op k).loaded cfg u topo).orchSeq :=
          hSeq.symm

theorem counted_run
    (hFile : cfg.hasStateFile = true)
    (hKeys : ∀ nodeId, (cfg.deriveNodeKey nodeId).isSome)
    {r₀ : Registry}
    (hCreate : Registry.create cfg = .ok r₀)
    (es : List Event) :
    (run cfg u { memory := r₀ } es).Counted
      (issued cfg u { memory := r₀ } es) := by
  rcases Registry.create_ok hCreate with ⟨topo, hTopo, -⟩
  have hBoth :
      (run cfg u { memory := r₀ } es).Current cfg u ∧
        (run cfg u { memory := r₀ } es).Counted
          (issued cfg u { memory := r₀ } es) := by
    refine
      History.induction (handle cfg u)
        (fun past m => m.Current cfg u ∧
          m.Counted (past.filterMap (fun e =>
            e.1.issues cfg e.2)))
        ⟨current_start hCreate, by simp, List.Pairwise.nil⟩
        (fun past m e hOld => ?_) es
    rcases hOld with ⟨hCurrent, hCounted⟩
    rw [List.filterMap_append]
    cases e with
    | perform op =>
        refine ⟨hCurrent.perform hFile hKeys op, ?_⟩
        have hNew := hCounted.perform hFile hKeys op
        rw [handle]
        cases hIssues : m.issues cfg (.perform op) with
        | none => simpa [hIssues] using hNew
        | some n => simpa [hIssues] using hNew
    | kill op k =>
        refine ⟨hCurrent.kill hFile hKeys hTopo op k, ?_⟩
        have hNew :=
          hCounted.kill hFile hKeys hTopo hCurrent op k
        have hNone : m.issues cfg (.kill op k) = none := rfl
        simpa [handle, hNone] using hNew
  exact hBoth.2

/-
  In every run, killed at any steps, the state file has what
  the registry has, a kill keeps what was there before the
  operation or what the operation leaves, and no counter
  value is issued twice.
-/
theorem durable_run
    {cfg : RegistryConfig}
    (u : Numeral.Charset)
    (hFile : cfg.hasStateFile = true)
    (hKeys : ∀ nodeId, (cfg.deriveNodeKey nodeId).isSome)
    {r₀ : Registry}
    (hCreate : Registry.create cfg = .ok r₀)
    (es : List Event) :
    (∃ r,
        (run cfg u { memory := r₀ } es).newRegistry cfg u =
            .ok r ∧
          (run cfg u { memory := r₀ } es).memory.durable.Same
            r.durable) ∧
      (∀ op k, ∃ r,
        ((run cfg u { memory := r₀ } es).killed cfg op
              k).newRegistry cfg u =
            .ok r ∧
          ((run cfg u
                { memory := r₀ } es).memory.durable.Same
              r.durable ∨
            ((run cfg u { memory := r₀ } es).memory.step cfg
                op).durable.Same
              r.durable)) ∧
      (issued cfg u { memory := r₀ } es).Pairwise (· < ·) := by
  rcases Registry.create_ok hCreate with ⟨topo, hTopo, -⟩
  have hCurrent := current_run (u := u) hFile hKeys hCreate es
  have hNew (m : Machine) :
      m.newRegistry cfg u = .ok (m.loaded cfg u topo) := by
    rw [newRegistry, hTopo]
  refine ⟨⟨_, hNew _, hCurrent topo⟩, fun op k => ?_,
    (counted_run hFile hKeys hCreate es).sorted⟩
  refine ⟨_, hNew _, ?_⟩
  rcases same_killed hFile hKeys hCurrent op k with
    hBefore | hAfter
  · exact .inl (hBefore topo)
  · have hSame := hAfter topo
    rw [perform_eq hFile] at hSame
    by_cases hCalls : Registry.Calls op
    · rw [Registry.applyAll_changes hCalls] at hSame
      exact .inr hSame
    · cases op with
      | restart => exact .inl hSame
      | disk up => exact .inl hSame
      | _ => exact absurd trivial hCalls

/- One slot, and a state file. -/
def savingSlot : RegistryConfig where
  layout :=
    { numLayers := 2
      coordinatorEnd := 1
      numStages := 1
      modelFp := "m" }
  hasStateFile := true

/- The registration of a head-only orchestrator. -/
def headJoins (nodeId : String) : RegistryOp :=
  .register
    { nodeId := nodeId
      endpoint := ⟨nodeId, 7000⟩
      capacityLayers := 0
      modelFp := "m"
      orchestrator := true }
    0 none

/- Killed when the second head is in the table only. -/
def killedHeads : List Event :=
  [.perform (headJoins "a"), .kill (headJoins "b") 2]

/-
  What is loaded after the kill is what was saved before it,
  and the second head gets the next index then.
-/
theorem durable_run_heads :
    ∃ r₀ r,
      Registry.create savingSlot = .ok r₀ ∧
        (run savingSlot .ascii { memory := r₀ }
          killedHeads).newRegistry savingSlot .ascii = .ok r ∧
        r.durable.orchSeq = 1 ∧
        (issued savingSlot .ascii { memory := r₀ }
          (killedHeads ++
            [.perform (headJoins "b")])).Pairwise (· < ·) := by
  have hKilled :=
    durable_run .ascii rfl (fun _ => rfl)
      (rfl : Registry.create savingSlot = .ok _) killedHeads
  have hAgain :=
    durable_run .ascii rfl (fun _ => rfl)
      (rfl : Registry.create savingSlot = .ok _)
      (killedHeads ++ [.perform (headJoins "b")])
  rcases hKilled.1 with ⟨r, hNew, hSame⟩
  refine ⟨_, r, rfl, hNew, ?_, hAgain.2.2⟩
  rw [hSame.orchSeq]
  rfl

end Machine

end CircuitDllm
