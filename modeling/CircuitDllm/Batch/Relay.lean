import CircuitDllm.Kv.Pipeline
import CircuitDllm.SpecDecode.Loop

/-
  Batched relays (engine/coordinator.py, _relay_batch, and
  the worker's BATCH_ACTIVATION).

  A batch tensor is the list of its rows.  A row attends to
  the entries before it whose attention flag is set; what a
  stage outputs at a masked position is arbitrary.

  `visible` lists a row's unmasked entries.
  `relayRows_visible` says that a batched relay does to the
  unmasked entries of each row what an unbatched relay does
  to the row alone.

  Main declarations:
    * `relayBatch`
    * `visible`
    * `BatchKVs`
    * `relayRows_visible`
-/

------------------------------------------------------------
-- Batched Forwards
------------------------------------------------------------

namespace CircuitDllm

/- Row b of a batch's hidden, position_ids and 2D mask. -/
structure BatchRow (H : Type) where
  hidden : List H
  positionIds : List Nat
  attn : List Bool
deriving Repr

/- The entries whose flag is set. -/
def visible {A : Type} (entries : List (A × Bool)) : List A :=
  (entries.filter (·.2)).map (·.1)

variable {H : Type}

/-
  One row's output at its last entry: the stage on the
  unmasked entries, or anything when the entry is masked.
-/
def rowOutput
    (stage : Stage H)
    (padOut : StageKV H → H)
    (entries : List ((H × Nat) × Bool)) :
    H :=
  match entries.getLast? with
  | some (_, true) => stage (visible entries)
  | _ => padOut (entries.map (·.1))

/- One row of a batched forward. -/
def Stage.forwardRow
    (stage : Stage H)
    (padOut : StageKV H → H)
    (row : BatchRow H)
    (kv : StageKV H) :
    List H × StageKV H :=
  let entries := row.hidden.zip row.positionIds
  (Causal.feed (rowOutput stage padOut)
      (kv.zip (row.attn.take kv.length))
      (entries.zip (row.attn.drop kv.length)),
    kv ++ entries)

/- The mask is as wide as the cache and the new entries. -/
def BatchRow.Fits
    (row : BatchRow H)
    (kv : StageKV H) : Prop :=
  row.attn.length = kv.length + row.hidden.length ∧
    row.positionIds.length = row.hidden.length

instance
    (row : BatchRow H)
    (kv : StageKV H) :
    Decidable (row.Fits kv) :=
  inferInstanceAs (Decidable (_ ∧ _))

/- All rows; tensors whose shapes do not fit are refused. -/
def Stage.forwardBatch
    (stage : Stage H)
    (padOut : StageKV H → H)
    (rows : List (BatchRow H))
    (kvs : List (StageKV H)) :
    Except SpecError (List (List H) × List (StageKV H)) :=
  if rows.length = kvs.length ∧
      ∀ p ∈ rows.zip kvs, p.1.Fits p.2 then
    let outs :=
      (rows.zip kvs).map
        (fun p => stage.forwardRow padOut p.1 p.2)
    .ok (outs.map (·.1), outs.map (·.2))
  else .error .position

/- The rows of the next frame carry the new hidden. -/
def withHidden
    (rows : List (BatchRow H))
    (hidden : List (List H)) :
    List (BatchRow H) :=
  (rows.zip hidden).map
    (fun p => { p.1 with hidden := p.2 })

/- A batch through the stages, each with its rows' caches. -/
def relayRows
    (padOut : StageKV H → H) :
    List (Stage H) → List (List (StageKV H)) →
      List (BatchRow H) →
      Except SpecError
        (List (List H) × List (List (StageKV H)))
| stage :: stages, kvs :: caches, rows =>
    match stage.forwardBatch padOut rows kvs with
    | .error e => .error e
    | .ok (hidden, kvs) =>
      match relayRows padOut stages caches
          (withHidden rows hidden) with
      | .error e => .error e
      | .ok (hidden, caches) => .ok (hidden, kvs :: caches)
| _, caches, rows => .ok (rows.map (·.hidden), caches)

/- pos == 0 begins a fresh batch in every stage. -/
def relayBatch
    (padOut : StageKV H → H)
    (stages : List (Stage H))
    (pos : Nat)
    (rows : List (BatchRow H))
    (caches : List (List (StageKV H))) :
    Except SpecError
      (List (List H) × List (List (StageKV H))) :=
  let caches :=
    if pos = 0 then
      stages.map (fun _ => rows.map (fun _ => []))
    else caches
  relayRows padOut stages caches rows

end CircuitDllm

------------------------------------------------------------
-- Unmasked Entries
------------------------------------------------------------

namespace CircuitDllm

variable {A B H : Type}

@[simp] theorem visible_nil :
    visible ([] : List (A × Bool)) = [] := rfl

@[simp] theorem visible_append
    (xs ys : List (A × Bool)) :
    visible (xs ++ ys) = visible xs ++ visible ys := by
  simp [visible]

@[simp] theorem visible_cons_true
    (x : A)
    (xs : List (A × Bool)) :
    visible ((x, true) :: xs) = x :: visible xs := by
  simp [visible]

@[simp] theorem visible_cons_false
    (x : A)
    (xs : List (A × Bool)) :
    visible ((x, false) :: xs) = visible xs := by
  simp [visible]

/- Masking two columns together masks each of them. -/
theorem visible_zip
    (xs : List A)
    (ys : List B)
    (flags : List Bool)
    (hXs : xs.length = flags.length)
    (hYs : ys.length = flags.length) :
    visible ((xs.zip ys).zip flags) =
      (visible (xs.zip flags)).zip
        (visible (ys.zip flags)) := by
  induction flags generalizing xs ys with
  | nil => simp
  | cons flag flags ih =>
      cases xs with
      | nil => simp at hXs
      | cons x xs =>
          cases ys with
          | nil => simp at hYs
          | cons y ys =>
              have hRest :=
                ih xs ys (by simpa using hXs)
                  (by simpa using hYs)
              cases flag <;> simp [hRest]

/- All flags set: everything is visible. -/
theorem visible_replicate_true (xs : List A) :
    visible (xs.zip (List.replicate xs.length true)) =
      xs := by
  induction xs with
  | nil => rfl
  | cons x xs ih =>
      simpa [List.replicate_succ] using ih

/- No flag set: nothing is visible. -/
theorem visible_replicate_false
    (xs : List A)
    (n : Nat) :
    visible (xs.zip (List.replicate n false)) = [] := by
  induction xs generalizing n with
  | nil => rfl
  | cons x xs ih =>
      cases n with
      | zero => rfl
      | succ n => simpa [List.replicate_succ] using ih n

/- The last entry is visible when its flag is set. -/
theorem getLast?_visible
    (xs : List A)
    (flags : List Bool)
    (hLen : xs.length = flags.length)
    (hLast : flags.getLast? = some true) :
    (visible (xs.zip flags)).getLast? = xs.getLast? := by
  rcases List.getLast?_eq_some_iff.mp hLast with
    ⟨init, rfl⟩
  cases xs using List.reverseRecOn with
  | nil => simp at hLen
  | append_singleton xs x =>
      have hInit : xs.length = init.length := by
        simpa using hLen
      rw [List.zip_append hInit]
      simp

/- Masked feeding is feeding of the visible entries. -/
theorem visible_feed
    (stage : Stage H)
    (padOut : StageKV H → H)
    (held fed : List ((H × Nat) × Bool)) :
    visible
        ((Causal.feed (rowOutput stage padOut) held fed).zip
          (fed.map (·.2))) =
      Causal.feed stage (visible held) (visible fed) := by
  induction fed generalizing held with
  | nil => rfl
  | cons e fed ih =>
      rcases e with ⟨e, flag⟩
      have hRest := ih (held ++ [(e, flag)])
      cases flag with
      | false =>
          simpa [Causal.feed] using hRest
      | true =>
          simpa [Causal.feed, rowOutput] using hRest

end CircuitDllm

------------------------------------------------------------
-- One Row
------------------------------------------------------------

namespace CircuitDllm

variable {H : Type}

/-
  What one row of a frame shows: after the flags `held` of
  the cached columns come the flags `fresh` of the new ones,
  whose visible hidden is `real`, at the positions after
  `start` visible entries.
-/
structure RowShows
    (row : BatchRow H)
    (held fresh : List Bool)
    (start : Nat)
    (real : List H) : Prop where
  attn_eq : row.attn = held ++ fresh
  hidden_length : row.hidden.length = fresh.length
  positions_length : row.positionIds.length = fresh.length
  hidden_eq : visible (row.hidden.zip fresh) = real
  positions_eq :
    visible (row.positionIds.zip fresh) =
      List.range' start real.length

/- A row's cache: its visible entries are linear. -/
structure RowKV
    (kv : StageKV H)
    (held : List Bool)
    (inputs : List H) : Prop where
  length_eq : kv.length = held.length
  visible_eq :
    visible (kv.zip held) = StageKV.linear inputs

variable {row : BatchRow H} {kv : StageKV H}
variable {held fresh : List Bool} {inputs real : List H}

/- A row and its cache have fitting shapes. -/
theorem RowShows.fits
    (hRow : RowShows row held fresh inputs.length real)
    (hKV : RowKV kv held inputs) :
    row.Fits kv := by
  constructor
  · rw [hRow.attn_eq, hKV.length_eq, hRow.hidden_length,
      List.length_append]
  · rw [hRow.positions_length, hRow.hidden_length]

/-
  A row of a batched forward does to its visible entries
  what a forward after a linear cache does.
-/
theorem forwardRow_visible
    (stage : Stage H)
    (padOut : StageKV H → H)
    (hRow : RowShows row held fresh inputs.length real)
    (hKV : RowKV kv held inputs) :
    (stage.forwardRow padOut row kv).1.length =
        fresh.length ∧
      visible
          ((stage.forwardRow padOut row kv).1.zip fresh) =
        (stage.outputs (inputs ++ real)).drop
          inputs.length ∧
      RowKV (stage.forwardRow padOut row kv).2
        (held ++ fresh) (inputs ++ real) := by
  have hEntriesLen :
      (row.hidden.zip row.positionIds).length =
        fresh.length := by
    simp [hRow.hidden_length, hRow.positions_length]
  have hEntries :
      visible
          ((row.hidden.zip row.positionIds).zip fresh) =
        real.zipIdx inputs.length := by
    rw [visible_zip _ _ _ hRow.hidden_length
      hRow.positions_length, hRow.hidden_eq,
      hRow.positions_eq, List.zipIdx_eq_zip_range']
  have hTake : row.attn.take kv.length = held := by
    rw [hRow.attn_eq, hKV.length_eq, List.take_left]
  have hDrop : row.attn.drop kv.length = fresh := by
    rw [hRow.attn_eq, hKV.length_eq, List.drop_left]
  have hFlags :
      (((row.hidden.zip row.positionIds).zip fresh).map
        (·.2)) = fresh := by
    rw [List.map_snd_zip]
    omega
  unfold Stage.forwardRow
  rw [hTake, hDrop]
  refine ⟨by simp [hEntriesLen], ?_, ?_, ?_⟩
  · have hFeed :=
      visible_feed stage padOut (kv.zip held)
        ((row.hidden.zip row.positionIds).zip fresh)
    rw [hFlags, hKV.visible_eq, hEntries] at hFeed
    have hLinear :=
      congrArg Prod.fst
        (Stage.forward_linear stage inputs real)
    rw [hFeed]
    exact hLinear
  · simp only [List.length_append, hEntriesLen,
      hKV.length_eq]
  · rw [List.zip_append hKV.length_eq, visible_append,
      hKV.visible_eq, hEntries, StageKV.linear_append]

end CircuitDllm

------------------------------------------------------------
-- All Rows, All Stages
------------------------------------------------------------

namespace CircuitDllm

variable {H : Type}

/-
  Every stage holds one cache a row; row b's visible entries
  are those of linear decoding of `inputs b`.
-/
def BatchKVs
    (rowCount : Nat)
    (held : Nat → List Bool) :
    List (Stage H) → (Nat → List H) →
      List (List (StageKV H)) → Prop
| [], _, caches => caches = []
| stage :: stages, inputs, caches =>
    ∃ kvs rest,
      caches = kvs :: rest ∧
        kvs.length = rowCount ∧
        (∀ b kv, kvs[b]? = some kv →
          RowKV kv (held b) (inputs b)) ∧
        BatchKVs rowCount held stages
          (fun b => stage.outputs (inputs b)) rest

/- Every row shows its own new entries. -/
def RowsShow
    (rows : List (BatchRow H))
    (held fresh : Nat → List Bool)
    (start : Nat → Nat)
    (real : Nat → List H) : Prop :=
  ∀ b row, rows[b]? = some row →
    RowShows row (held b) (fresh b) (start b) (real b)

/-
  One stage on all rows: no shape is refused, and every row
  does what a forward after its linear cache does.
-/
theorem forwardBatch_visible
    (stage : Stage H)
    (padOut : StageKV H → H)
    {rows : List (BatchRow H)}
    {kvs : List (StageKV H)}
    {held fresh : Nat → List Bool}
    {inputs real : Nat → List H}
    (hLen : rows.length = kvs.length)
    (hRows :
      RowsShow rows held fresh (fun b => (inputs b).length)
        real)
    (hKVs :
      ∀ b kv, kvs[b]? = some kv →
        RowKV kv (held b) (inputs b)) :
    ∃ hidden kvs',
      stage.forwardBatch padOut rows kvs =
        .ok (hidden, kvs') ∧
      hidden.length = rows.length ∧
      kvs'.length = rows.length ∧
      (∀ b out, hidden[b]? = some out →
        out.length = (fresh b).length ∧
          visible (out.zip (fresh b)) =
            (stage.outputs (inputs b ++ real b)).drop
              (inputs b).length) ∧
      ∀ b kv, kvs'[b]? = some kv →
        RowKV kv (held b ++ fresh b)
          (inputs b ++ real b) := by
  have hFits :
      ∀ p ∈ rows.zip kvs, p.1.Fits p.2 := by
    intro p hp
    rcases List.mem_iff_getElem?.mp hp with ⟨b, hb⟩
    rw [List.getElem?_zip_eq_some] at hb
    exact (hRows b p.1 hb.1).fits (hKVs b p.2 hb.2)
  have hRow :
      ∀ b out,
        ((rows.zip kvs).map
          (fun p => stage.forwardRow padOut p.1 p.2))[b]? =
            some out →
        out.1.length = (fresh b).length ∧
          visible (out.1.zip (fresh b)) =
            (stage.outputs (inputs b ++ real b)).drop
              (inputs b).length ∧
          RowKV out.2 (held b ++ fresh b)
            (inputs b ++ real b) := by
    intro b out hb
    rw [List.getElem?_map, Option.map_eq_some_iff] at hb
    rcases hb with ⟨p, hp, rfl⟩
    rw [List.getElem?_zip_eq_some] at hp
    exact
      forwardRow_visible stage padOut (hRows b p.1 hp.1)
        (hKVs b p.2 hp.2)
  refine
    ⟨_, _, if_pos ⟨hLen, hFits⟩, by simp [hLen],
      by simp [hLen], ?_, ?_⟩
  · intro b out hb
    rw [List.getElem?_map, Option.map_eq_some_iff] at hb
    rcases hb with ⟨p, hp, rfl⟩
    rcases hRow b p hp with ⟨hOutLen, hVisible, _⟩
    exact ⟨hOutLen, hVisible⟩
  · intro b kv hb
    rw [List.getElem?_map, Option.map_eq_some_iff] at hb
    rcases hb with ⟨p, hp, rfl⟩
    exact (hRow b p hp).2.2

/- The next stage's rows show the outputs of this one. -/
theorem RowsShow.next
    {rows : List (BatchRow H)}
    {held fresh : Nat → List Bool}
    {start start' : Nat → Nat}
    {real real' : Nat → List H}
    {hidden : List (List H)}
    (hRows : RowsShow rows held fresh start real)
    (hHidden :
      ∀ b out, hidden[b]? = some out →
        out.length = (fresh b).length ∧
          visible (out.zip (fresh b)) = real' b)
    (hStart : ∀ b, start' b = start b)
    (hReal : ∀ b, (real' b).length = (real b).length) :
    RowsShow (withHidden rows hidden) held fresh start'
      real' := by
  intro b row hb
  rw [withHidden, List.getElem?_map,
    Option.map_eq_some_iff] at hb
  rcases hb with ⟨p, hp, rfl⟩
  rw [List.getElem?_zip_eq_some] at hp
  rcases hHidden b p.2 hp.2 with ⟨hOutLen, hVisible⟩
  have hShows := hRows b p.1 hp.1
  exact
    { attn_eq := hShows.attn_eq
      hidden_length := hOutLen
      positions_length := hShows.positions_length
      hidden_eq := hVisible
      positions_eq := by
        rw [hStart, hReal]
        exact hShows.positions_eq }

/-
  Through all stages, row b of the batch is relayed as it
  would be alone.
-/
theorem relayRows_visible
    (padOut : StageKV H → H)
    (stages : List (Stage H))
    {caches : List (List (StageKV H))}
    {rows : List (BatchRow H)}
    {held fresh : Nat → List Bool}
    {inputs real : Nat → List H}
    (hRows :
      RowsShow rows held fresh (fun b => (inputs b).length)
        real)
    (hKVs :
      BatchKVs rows.length held stages inputs caches) :
    ∃ hidden caches',
      relayRows padOut stages caches rows =
        .ok (hidden, caches') ∧
      hidden.length = rows.length ∧
      (∀ b out, hidden[b]? = some out →
        out.length = (fresh b).length ∧
          visible (out.zip (fresh b)) =
            (linearHidden stages (inputs b ++ real b)).drop
              (inputs b).length) ∧
      BatchKVs rows.length (fun b => held b ++ fresh b)
        stages (fun b => inputs b ++ real b) caches' := by
  induction stages generalizing caches rows inputs real with
  | nil =>
      obtain rfl : caches = [] := hKVs
      refine
        ⟨rows.map (·.hidden), [], rfl, by simp, ?_, rfl⟩
      intro b out hOut
      rw [List.getElem?_map, Option.map_eq_some_iff] at hOut
      rcases hOut with ⟨row, hRow, rfl⟩
      have hShows := hRows b row hRow
      refine ⟨hShows.hidden_length, ?_⟩
      rw [hShows.hidden_eq]
      simp [linearHidden]
  | cons stage stages ih =>
      rcases hKVs with ⟨kvs, rest, rfl, hLen, hKV, hRest⟩
      rcases forwardBatch_visible stage padOut hLen.symm
          hRows hKV with
        ⟨hidden₁, kvs₁, hForward, hLen₁, hKVLen₁, hHidden₁,
          hKV₁⟩
      have hOutputs :
          ∀ b,
            stage.outputs (inputs b) ++
                (stage.outputs (inputs b ++ real b)).drop
                  (inputs b).length =
              stage.outputs (inputs b ++ real b) := by
        intro b
        rw [Stage.outputs_append, List.drop_left' (by simp)]
      have hNextLen :
          (withHidden rows hidden₁).length =
            rows.length := by
        simp [withHidden, hLen₁]
      have hNext :
          RowsShow (withHidden rows hidden₁) held fresh
            (fun b => (stage.outputs (inputs b)).length)
            (fun b =>
              (stage.outputs (inputs b ++ real b)).drop
                (inputs b).length) :=
        hRows.next hHidden₁ (by simp) (by simp)
      rcases ih hNext (by rw [hNextLen]; exact hRest) with
        ⟨hidden, caches', hRelay, hHiddenLen, hHidden,
          hCaches⟩
      rw [hNextLen] at hHiddenLen hCaches
      refine
        ⟨hidden, kvs₁ :: caches', ?_, hHiddenLen, ?_, ?_⟩
      · simp only [relayRows, hForward, hRelay]
      · intro b out hb
        have hFinal := hHidden b out hb
        rw [hOutputs b, Stage.length_outputs] at hFinal
        exact hFinal
      · refine ⟨kvs₁, caches', rfl, hKVLen₁, hKV₁, ?_⟩
        simpa only [hOutputs] using hCaches

/- A fresh batch: nothing is cached for any row. -/
theorem batchKVs_fresh
    (stages : List (Stage H))
    (rows : List (BatchRow H)) :
    BatchKVs rows.length (fun _ => []) stages (fun _ => [])
      (stages.map (fun _ => rows.map (fun _ => []))) := by
  induction stages with
  | nil => rfl
  | cons stage stages ih =>
      refine ⟨_, _, rfl, by simp, ?_, ih⟩
      intro b kv hb
      rw [List.getElem?_map, Option.map_eq_some_iff] at hb
      rcases hb with ⟨_, _, rfl⟩
      exact ⟨rfl, rfl⟩

end CircuitDllm
