import CircuitDllm.Mesh.Staffing
import CircuitDllm.Shard.Catalog

/-
  The mesh an API process builds from its environment
  (engine/api.py).

  The stages come from a catalog, from the planner when the
  operator declares a capacity, or from CIRCUIT_MESH_STAGES
  as it stands.

  Main declarations:
    * `Env`, `meshStages`, `buildTopology`
    * `buildTopology_nonempty_iff`
    * `constructor_partition_iff`
-/

------------------------------------------------------------
-- The Environment
------------------------------------------------------------

namespace CircuitDllm

open Numeral

/- The environment variables that are set. -/
abbrev Env := String → Option String

/- A variable that is set to a non-empty text. -/
def Env.given (env : Env) (name : String) : Option String :=
  (env name).filter (fun text => text ≠ "")

inductive BuildError where
  /- a required variable is not set -/
  | missing (name : String)
  /- int() or float() refuses the text -/
  | malformed (name : String)
  | catalog (e : CatalogError)
  | plan (e : PlanError)
  | layout (e : MeshError)
deriving DecidableEq, Repr

/- What reading the environment depends on. -/
structure BuildContext where
  charset : Charset
  float : String → Option ℚ
  files : String → CatalogFile

variable (c : BuildContext) (env : Env)

/- int(os.environ.get(name, default)) -/
def envInt (name : String) (default : String) :
    Except BuildError Int :=
  match int c.charset ((env name).getD default).toList with
  | some n => .ok n
  | none => .error (.malformed name)

/- The end of CIRCUIT_LOCAL_LAYERS, 0 without it. -/
def localEnd : Except BuildError Int :=
  match env.given "CIRCUIT_LOCAL_LAYERS" with
  | none => .ok 0
  | some ll =>
    match ll.toList.splitOn ':' with
    | _ :: stop :: _ =>
      match int c.charset stop with
      | some n => .ok n
      | none => .error (.malformed "CIRCUIT_LOCAL_LAYERS")
    | _ => .error (.malformed "CIRCUIT_LOCAL_LAYERS")

/- CIRCUIT_MESH_LAYERS has no default. -/
def meshLayers : Except BuildError Int :=
  match env "CIRCUIT_MESH_LAYERS" with
  | none => .error (.missing "CIRCUIT_MESH_LAYERS")
  | some _ => envInt c env "CIRCUIT_MESH_LAYERS" ""

def meshStages : Except BuildError Int :=
  envInt c env "CIRCUIT_MESH_STAGES" "1"

/- CIRCUIT_MESH_DEAD_AFTER in seconds. -/
def deadAfter : Except BuildError ℚ :=
  match c.float
      ((env "CIRCUIT_MESH_DEAD_AFTER").getD "30") with
  | some seconds => .ok seconds
  | none => .error (.malformed "CIRCUIT_MESH_DEAD_AFTER")

end CircuitDllm

------------------------------------------------------------
-- The Stages
------------------------------------------------------------

namespace CircuitDllm

/- The fewest stages for nodes of one capacity. -/
def plannedStages
    (c : BuildContext)
    (layers coordinatorEnd : Int)
    (nodeCap : String) :
    Except BuildError Nat :=
  match Numeral.int c.charset nodeCap.toList with
  | none => .error (.malformed "CIRCUIT_MESH_NODE_CAP")
  | some cap =>
    let budget := layers - coordinatorEnd
    match planStages budget
        (List.replicate budget.toNat cap) 1 with
    | .error e => .error (.plan e)
    | .ok k => .ok k

/- The arguments a catalog gives. -/
def catalogStages
    (c : BuildContext)
    (layers : Int)
    (catalog : String) :
    Except BuildError TopologyArgs :=
  match catalogLayout c.charset c.files (.spec catalog) with
  | .error e => .error (.catalog e)
  | .ok ranges =>
    match topologyFromCatalog layers ranges with
    | .error e => .error (.catalog e)
    | .ok args => .ok args

/- The coordinator's end, the stages and their sizes. -/
def stageLayout
    (c : BuildContext)
    (env : Env)
    (layers coordinatorEnd numStages : Int) :
    Except BuildError (Int × Int × Option (List Int)) :=
  match env.given "CIRCUIT_MESH_CATALOG" with
  | some catalog =>
    match catalogStages c layers catalog with
    | .error e => .error e
    | .ok args =>
      .ok (args.coordinatorEnd, args.numStages,
        some args.slotSizes)
  | none =>
    match env.given "CIRCUIT_MESH_NODE_CAP" with
    | none => .ok (coordinatorEnd, numStages, none)
    | some nodeCap =>
      match plannedStages c layers coordinatorEnd nodeCap with
      | .error e => .error e
      | .ok k => .ok (coordinatorEnd, k, none)

/- The constructor's arguments from the environment. -/
def envLayout
    (c : BuildContext)
    (env : Env) :
    Except BuildError Layout :=
  match localEnd c env, meshLayers c env, meshStages c env with
  | .error e, _, _ => .error e
  | .ok _, .error e, _ => .error e
  | .ok _, .ok _, .error e => .error e
  | .ok coordinatorEnd, .ok layers, .ok numStages =>
    match stageLayout c env layers coordinatorEnd
        numStages with
    | .error e => .error e
    | .ok (coordinatorEnd, numStages, slotSizes) =>
      match envInt c env "CIRCUIT_MESH_REPLICATION" "1",
          deadAfter c env with
      | .error e, _ => .error e
      | .ok _, .error e => .error e
      | .ok replication, .ok deadAfterS =>
        .ok
          { numLayers := layers
            coordinatorEnd := coordinatorEnd
            numStages := numStages
            modelFp := (env "CIRCUIT_MESH_FP").getD ""
            replication := replication
            deadAfterS := deadAfterS
            slotSizes := slotSizes
            coordinatorRegion := env.given "CIRCUIT_REGION"
            routeByLatency :=
              env "CIRCUIT_ROUTE_LATENCY" = some "1" }

/-
  The mesh of an API process, none when mesh mode is off.
  The registry around it is left out.
-/
def buildTopology
    (c : BuildContext)
    (env : Env) :
    Except BuildError (Option Topology) :=
  if env "CIRCUIT_MESH" ≠ some "1" then .ok none
  else
    match envLayout c env with
    | .error e => .error e
    | .ok l =>
      match Topology.create l with
      | .error e => .error (.layout e)
      | .ok t => .ok (some t)

end CircuitDllm

------------------------------------------------------------
-- What It Accepts
------------------------------------------------------------

namespace CircuitDllm

variable {c : BuildContext} {env : Env}

theorem buildTopology_eq_ok
    {t : Topology}
    (hBuild : buildTopology c env = .ok (some t)) :
    ∃ l, envLayout c env = .ok l ∧
      Topology.create l = .ok t := by
  rw [buildTopology] at hBuild
  split_ifs at hBuild
  · cases Except.ok.inj hBuild
  · split at hBuild
    · cases hBuild
    · rename_i l hLayout
      refine ⟨l, hLayout, ?_⟩
      split at hBuild
      · cases hBuild
      · rename_i made hCreate
        obtain rfl : made = t := by simpa using hBuild
        exact hCreate

theorem envLayout_eq_ok
    {l : Layout}
    (hLayout : envLayout c env = .ok l) :
    ∃ coordinatorEnd layers numStages,
      localEnd c env = .ok coordinatorEnd ∧
        meshLayers c env = .ok layers ∧
        meshStages c env = .ok numStages ∧
        l.numLayers = layers ∧
        stageLayout c env layers coordinatorEnd numStages =
          .ok (l.coordinatorEnd, l.numStages, l.slotSizes) := by
  rw [envLayout] at hLayout
  split at hLayout
  · cases hLayout
  · cases hLayout
  · cases hLayout
  · rename_i coordinatorEnd layers numStages hEnd hLayers hStages
    refine ⟨coordinatorEnd, layers, numStages, hEnd, hLayers,
      hStages, ?_⟩
    split at hLayout
    · cases hLayout
    · rename_i stop count sizes hStageLayout
      split at hLayout
      · cases hLayout
      · cases hLayout
      · obtain rfl := Except.ok.inj hLayout
        exact ⟨rfl, hStageLayout⟩

/- A planned stage count has its layers. -/
theorem plannedStages_le
    {layers coordinatorEnd : Int}
    {nodeCap : String}
    {k : Nat}
    (hPlan : plannedStages c layers coordinatorEnd nodeCap =
      .ok k) :
    (k : Int) ≤ layers - coordinatorEnd := by
  rw [plannedStages] at hPlan
  split at hPlan
  · cases hPlan
  · dsimp only at hPlan
    split at hPlan
    · cases hPlan
    · rename_i cap hCap j hStages
      obtain rfl := Except.ok.inj hPlan
      rcases planStages_checks hStages with
        ⟨hBudget, hReplication⟩
      rcases (planStages_eq_ok_iff hBudget hReplication _).mp
        hStages with ⟨-, hLe, -⟩
      exact hLe

/-
  Every slot has a layer, unless the stages are those of
  CIRCUIT_MESH_STAGES and outnumber the layers.
-/
theorem buildTopology_nonempty_iff
    {t : Topology}
    (hBuild : buildTopology c env = .ok (some t)) :
    (∀ slot ∈ t.slots, slot.start < slot.stop) ↔
      env.given "CIRCUIT_MESH_CATALOG" ≠ none ∨
        env.given "CIRCUIT_MESH_NODE_CAP" ≠ none ∨
        ∃ coordinatorEnd layers numStages,
          localEnd c env = .ok coordinatorEnd ∧
            meshLayers c env = .ok layers ∧
            meshStages c env = .ok numStages ∧
            numStages ≤ layers - coordinatorEnd := by
  rcases buildTopology_eq_ok hBuild with ⟨l, hLayout, hCreate⟩
  rcases envLayout_eq_ok hLayout with
    ⟨coordinatorEnd, layers, numStages, hEnd, hLayers,
      hStages, hCount, hArgs⟩
  rw [Topology.create_nonempty_iff hCreate]
  rw [stageLayout] at hArgs
  split at hArgs
  · rename_i catalog hCatalog
    split at hArgs
    · cases hArgs
    · obtain ⟨-, hRest⟩ := Prod.mk.inj (Except.ok.inj hArgs)
      obtain ⟨-, hSizes⟩ := Prod.mk.inj hRest
      refine iff_of_true (Or.inl ?_) (Or.inl ?_)
      · simp [← hSizes]
      · simp [hCatalog]
  · rename_i hCatalog
    split at hArgs
    · rename_i hCap
      obtain ⟨hStop, hRest⟩ := Prod.mk.inj (Except.ok.inj hArgs)
      obtain ⟨hStageCount, hSizes⟩ := Prod.mk.inj hRest
      rw [hCatalog, hCap, ← hSizes, ← hStageCount, ← hStop,
        hCount, hEnd, hLayers, hStages]
      simp
    · rename_i nodeCap hCap
      split at hArgs
      · cases hArgs
      · rename_i k hPlan
        obtain ⟨hStop, hRest⟩ :=
          Prod.mk.inj (Except.ok.inj hArgs)
        obtain ⟨hStageCount, -⟩ := Prod.mk.inj hRest
        have hLe := plannedStages_le hPlan
        refine iff_of_true (Or.inr ?_) (Or.inr (Or.inl ?_))
        · omega
        · simp [hCap]

/-
  The constructor partitions the stage layers, and a mesh
  from the environment gives every slot a layer, exactly
  when no default split has more stages than layers.
-/
theorem constructor_partition_iff
    (l : Layout)
    (c : BuildContext)
    (env : Env) :
    (∀ t : Topology,
      Topology.create l = .ok t →
        (t.Partitioned l ↔
          l.slotSizes ≠ none ∨
            l.numStages ≤ l.numLayers - l.coordinatorEnd)) ∧
    (∀ t : Topology,
      buildTopology c env = .ok (some t) →
        ((∀ slot ∈ t.slots, slot.start < slot.stop) ↔
          env.given "CIRCUIT_MESH_CATALOG" ≠ none ∨
            env.given "CIRCUIT_MESH_NODE_CAP" ≠ none ∨
            ∃ coordinatorEnd layers numStages,
              localEnd c env = .ok coordinatorEnd ∧
                meshLayers c env = .ok layers ∧
                meshStages c env = .ok numStages ∧
                numStages ≤ layers - coordinatorEnd)) := by
  refine ⟨?_, ?_⟩
  · intro t hCreate
    exact Topology.partitioned_iff hCreate
  · intro t hBuild
    exact buildTopology_nonempty_iff hBuild

/- Five layers after the coordinator's, in two stages. -/
def twoStages : Layout where
  numLayers := 6
  coordinatorEnd := 1
  numStages := 2
  modelFp := "m"

/- The same from the environment. -/
def twoStagesEnv : Env := fun name =>
  [("CIRCUIT_MESH", "1"), ("CIRCUIT_LOCAL_LAYERS", "0:1"),
    ("CIRCUIT_MESH_LAYERS", "6"),
    ("CIRCUIT_MESH_STAGES", "2"),
    ("CIRCUIT_MESH_FP", "m")].lookup name

/- No files, and every float is 30. -/
def plainContext : BuildContext where
  charset := .ascii
  float := fun _ => some 30
  files := fun _ => .absent

theorem constructor_partition_twoStages :
    ∃ t t',
      Topology.create twoStages = .ok t ∧
        t.Partitioned twoStages ∧
        buildTopology plainContext twoStagesEnv =
          .ok (some t') ∧
        ∀ slot ∈ t'.slots, slot.start < slot.stop := by
  have hIff :=
    constructor_partition_iff twoStages plainContext
      twoStagesEnv
  refine ⟨_, _, rfl, ?_, rfl, ?_⟩
  · exact (hIff.1 _ rfl).mpr (Or.inr (by decide))
  · exact (hIff.2 _ rfl).mpr
      (Or.inr (Or.inr ⟨1, 6, 2, rfl, rfl, rfl, by decide⟩))

/- Two layers in three stages: the last slot is empty. -/
theorem not_partitioned_three :
    ∃ t, Topology.create
        { numLayers := 2, coordinatorEnd := 0
          numStages := 3, modelFp := "" } = .ok t ∧
      ¬ t.Partitioned
        { numLayers := 2, coordinatorEnd := 0
          numStages := 3, modelFp := "" } := by
  have hSizes : Topology.sizesOf
      { numLayers := 2, coordinatorEnd := 0
        numStages := 3, modelFp := "" } = .ok [1, 1, 0] := by
    decide
  rcases Topology.exists_create hSizes with ⟨t, hCreate⟩
  refine ⟨t, hCreate, ?_⟩
  intro hPartitioned
  have hBad := (Topology.create_nonempty_iff hCreate).mp
    hPartitioned.nonempty
  exact absurd hBad (by decide)

end CircuitDllm
