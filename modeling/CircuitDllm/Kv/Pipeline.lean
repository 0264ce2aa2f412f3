import CircuitDllm.Kv.StageKV

/-
  A model split into pipeline stages (engine/stage.py).

  A stage is a deterministic function of the entries one
  position attends to, its own entry last.  Stages compute
  on hidden states; only a hidden state crosses from one
  stage to the next.

  `Model.next` is the next-token function of the whole
  model: what its greedy head picks after a token prefix
  decoded linearly.  `runStages_linear` says that feeding a
  chunk after a linear history gives the outputs and caches
  that linear decoding of everything gives.

  Main declarations:
    * `Model.next`
    * `runStages_linear`
    * `Model.argmaxes_eq_feed_next`
-/

------------------------------------------------------------
-- Stages
------------------------------------------------------------

namespace CircuitDllm

/-
  The output at one position from the entries it attends to.
-/
abbrev Stage (H : Type) := List (H × Nat) → H

/- A language model cut into stages. -/
structure Model (Tok H : Type) where
  embed : Tok → H
  stages : List (Stage H)
  -- argmax of lm_head(norm(hidden)) at one position
  lmHead : H → Tok

namespace Stage

variable {H : Type}

/-
  One causal forward: the new positions are cached and each
  of them attends to everything before it.
-/
def forward
    (stage : Stage H)
    (hidden : List H)
    (startPos : Nat)
    (kv : StageKV H) :
    List H × StageKV H :=
  (Causal.feed stage kv (hidden.zipIdx startPos),
    kv ++ hidden.zipIdx startPos)

@[simp] theorem length_forward
    (stage : Stage H)
    (hidden : List H)
    (startPos : Nat)
    (kv : StageKV H) :
    (stage.forward hidden startPos kv).1.length =
      hidden.length := by
  simp [forward]

/- The outputs of a stage when its inputs came in order. -/
def outputs
    (stage : Stage H)
    (inputs : List H) :
    List H :=
  Causal.feed stage [] (StageKV.linear inputs)

@[simp] theorem length_outputs
    (stage : Stage H)
    (inputs : List H) :
    (stage.outputs inputs).length = inputs.length := by
  simp [outputs]

/- A forward after a linear cache is linear decoding. -/
theorem forward_linear
    (stage : Stage H)
    (inputs hidden : List H) :
    stage.forward hidden inputs.length
        (StageKV.linear inputs) =
      ((stage.outputs (inputs ++ hidden)).drop
          inputs.length,
        StageKV.linear (inputs ++ hidden)) := by
  have hOutputs :
      stage.outputs (inputs ++ hidden) =
        stage.outputs inputs ++
          Causal.feed stage (StageKV.linear inputs)
            (hidden.zipIdx inputs.length) := by
    rw [outputs, StageKV.linear_append,
      Causal.feed_append]
    simp [outputs]
  rw [hOutputs, List.drop_left' (by simp)]
  simp [forward, StageKV.linear_append]

/- Outputs in two chunks are outputs at once. -/
theorem outputs_append
    (stage : Stage H)
    (inputs hidden : List H) :
    stage.outputs (inputs ++ hidden) =
      stage.outputs inputs ++
        (stage.forward hidden inputs.length
          (StageKV.linear inputs)).1 := by
  rw [forward, outputs, StageKV.linear_append,
    Causal.feed_append]
  simp [outputs]

/- The output at the last position sees every input. -/
theorem outputs_snoc
    (stage : Stage H)
    (inputs : List H)
    (h : H) :
    stage.outputs (inputs ++ [h]) =
      stage.outputs inputs ++
        [stage (StageKV.linear (inputs ++ [h]))] := by
  rw [outputs_append, forward, StageKV.linear_append]
  simp [Causal.feed]

end Stage

end CircuitDllm

------------------------------------------------------------
-- Stage Lists
------------------------------------------------------------

namespace CircuitDllm

variable {H : Type}

/- Relay a chunk through the stages, each with its cache. -/
def runStages :
    List (Stage H) → List (StageKV H) → List H → Nat →
      List H × List (StageKV H)
| stage :: stages, kv :: kvs, hidden, startPos =>
    let (hidden, kv) := stage.forward hidden startPos kv
    let (hidden, kvs) :=
      runStages stages kvs hidden startPos
    (hidden, kv :: kvs)
| _, kvs, hidden, _ => (hidden, kvs)

/- Final hidden states of linear decoding. -/
def linearHidden :
    List (Stage H) → List H → List H
| [], inputs => inputs
| stage :: stages, inputs =>
    linearHidden stages (stage.outputs inputs)

/- Stage caches of linear decoding. -/
def linearKVs :
    List (Stage H) → List H → List (StageKV H)
| [], _ => []
| stage :: stages, inputs =>
    StageKV.linear inputs ::
      linearKVs stages (stage.outputs inputs)

@[simp] theorem length_linearHidden
    (stages : List (Stage H))
    (inputs : List H) :
    (linearHidden stages inputs).length =
      inputs.length := by
  induction stages generalizing inputs with
  | nil => rfl
  | cons stage stages ih => simp [linearHidden, ih]

@[simp] theorem length_linearKVs
    (stages : List (Stage H))
    (inputs : List H) :
    (linearKVs stages inputs).length =
      stages.length := by
  induction stages generalizing inputs with
  | nil => rfl
  | cons stage stages ih => simp [linearKVs, ih]

/-
  A chunk relayed after a linear history: the outputs and
  the caches are those of linear decoding.
-/
theorem runStages_linear
    (stages : List (Stage H))
    (inputs hidden : List H) :
    runStages stages (linearKVs stages inputs) hidden
        inputs.length =
      ((linearHidden stages (inputs ++ hidden)).drop
          inputs.length,
        linearKVs stages (inputs ++ hidden)) := by
  induction stages generalizing inputs hidden with
  | nil => simp [runStages, linearHidden, linearKVs]
  | cons stage stages ih =>
      have hStage := Stage.forward_linear stage inputs hidden
      have hRest :=
        ih (stage.outputs inputs)
          ((stage.outputs (inputs ++ hidden)).drop
            inputs.length)
      have hWhole :
          stage.outputs inputs ++
              (stage.outputs (inputs ++ hidden)).drop
                inputs.length =
            stage.outputs (inputs ++ hidden) := by
        rw [Stage.outputs_append, List.drop_left' (by simp)]
      rw [hWhole, Stage.length_outputs] at hRest
      simp only [runStages, linearKVs, linearHidden,
        hStage, hRest]

/- Linear outputs grow by appending. -/
theorem linearHidden_append
    (stages : List (Stage H))
    (inputs hidden : List H) :
    linearHidden stages (inputs ++ hidden) =
      linearHidden stages inputs ++
        (linearHidden stages (inputs ++ hidden)).drop
          inputs.length := by
  induction stages generalizing inputs hidden with
  | nil => simp [linearHidden]
  | cons stage stages ih =>
      have hNext :=
        ih (stage.outputs inputs)
          (stage.forward hidden inputs.length
            (StageKV.linear inputs)).1
      rw [← Stage.outputs_append,
        Stage.length_outputs] at hNext
      simpa [linearHidden] using hNext

/- Rolling every linear cache back rolls the inputs back. -/
theorem truncate_linearKVs
    (stages : List (Stage H))
    (inputs : List H)
    (length : Nat) :
    (linearKVs stages inputs).map
        (StageKV.truncateTo · length) =
      linearKVs stages (inputs.take length) := by
  induction stages generalizing inputs with
  | nil => rfl
  | cons stage stages ih =>
      have hOutputs :
          (stage.outputs inputs).take length =
            stage.outputs (inputs.take length) := by
        conv_lhs =>
          rw [← List.take_append_drop length inputs]
        rw [Stage.outputs_append]
        rcases Nat.le_total length inputs.length with
          hLe | hLe
        · rw [List.take_append_of_le_length (by simp [hLe])]
          rw [List.take_of_length_le
            (by simp)]
        · rw [List.drop_of_length_le hLe]
          simp [Stage.forward, Causal.feed, hLe]
      simp only [linearKVs, List.map_cons,
        StageKV.truncateTo_linear, ih, hOutputs]

end CircuitDllm

------------------------------------------------------------
-- Models
------------------------------------------------------------

namespace CircuitDllm

namespace Model

variable {Tok H : Type}

/- The greedy picks at every position of a prefix. -/
def linearArgmaxes
    (model : Model Tok H)
    (ids : List Tok) :
    List Tok :=
  (linearHidden model.stages
    (ids.map model.embed)).map model.lmHead

@[simp] theorem length_linearArgmaxes
    (model : Model Tok H)
    (ids : List Tok) :
    (model.linearArgmaxes ids).length = ids.length := by
  simp [linearArgmaxes]

/- The next token the model picks after a prefix. -/
def next
    [Inhabited Tok]
    (model : Model Tok H)
    (ids : List Tok) :
    Tok :=
  (model.linearArgmaxes ids).getLastD default

/- Stage caches after linear decoding of `ids`. -/
def linearKVs
    (model : Model Tok H)
    (ids : List Tok) :
    List (StageKV H) :=
  CircuitDllm.linearKVs model.stages
    (ids.map model.embed)

theorem linearArgmaxes_append
    (model : Model Tok H)
    (held ids : List Tok) :
    model.linearArgmaxes (held ++ ids) =
      model.linearArgmaxes held ++
        (model.linearArgmaxes (held ++ ids)).drop
          held.length := by
  have hHidden :=
    linearHidden_append model.stages
      (held.map model.embed) (ids.map model.embed)
  unfold linearArgmaxes
  rw [List.map_append, hHidden]
  simp [List.map_drop]

/- The picks on a chunk are next tokens of its prefixes. -/
theorem argmaxes_eq_feed_next
    [Inhabited Tok]
    (model : Model Tok H)
    (held ids : List Tok) :
    (model.linearArgmaxes (held ++ ids)).drop held.length =
      Causal.feed model.next held ids := by
  induction ids generalizing held with
  | nil =>
      rw [List.append_nil, Causal.feed,
        List.drop_of_length_le (by simp)]
  | cons t ids ih =>
      have hRest := ih (held ++ [t])
      rw [List.append_assoc, List.singleton_append]
        at hRest
      have hSplit :=
        linearArgmaxes_append model (held ++ [t]) ids
      rw [List.append_assoc, List.singleton_append]
        at hSplit
      have hHead :
          (model.linearArgmaxes (held ++ [t])).drop
              held.length =
            [model.next (held ++ [t])] := by
        have hLength :
            ((model.linearArgmaxes (held ++ [t])).drop
              held.length).length = 1 := by
          simp
        rcases List.length_eq_one_iff.mp hLength with
          ⟨x, hx⟩
        have hLast :
            (model.linearArgmaxes (held ++ [t])).getLastD
                default = x := by
          rw [← List.take_append_drop held.length
            (model.linearArgmaxes (held ++ [t])), hx]
          simp
        rw [hx, next, hLast]
      rw [hSplit, List.drop_append_of_le_length (by simp),
        hHead, hRest]
      rfl

/- Fresh caches are the linear caches of nothing. -/
theorem fresh_eq_linearKVs (model : Model Tok H) :
    model.stages.map (fun _ => ([] : StageKV H)) =
      model.linearKVs [] := by
  rw [Model.linearKVs]
  generalize model.stages = stages
  induction stages with
  | nil => rfl
  | cons stage stages ih =>
      simpa [CircuitDllm.linearKVs, Stage.outputs,
        Causal.feed] using ih

/- A relay on linear caches picks the next token. -/
theorem runStages_next
    [Inhabited Tok]
    (model : Model Tok H)
    (kv ids : List Tok)
    (hIds : ids ≠ []) :
    ∃ hidden,
      runStages model.stages (model.linearKVs kv)
          (ids.map model.embed) kv.length =
        (hidden, model.linearKVs (kv ++ ids)) ∧
      (hidden.map model.lmHead).getLast? =
        some (model.next (kv ++ ids)) := by
  have hRun :=
    runStages_linear model.stages (kv.map model.embed)
      (ids.map model.embed)
  rw [List.length_map, ← List.map_append] at hRun
  refine ⟨_, hRun, ?_⟩
  rw [List.map_drop,
    show
      (linearHidden model.stages
        ((kv ++ ids).map model.embed)).map model.lmHead =
        model.linearArgmaxes (kv ++ ids) from rfl,
    Model.argmaxes_eq_feed_next,
    Causal.getLast?_feed _ _ _ hIds]

end Model

end CircuitDllm
