import Mathlib.Algebra.Ring.Nat
import CircuitDllm.Batch.Exact
import CircuitDllm.Decode.Static

/-
  The batch scheduler (engine/scheduler.py).

  Requests wait in one FIFO; the loop takes up to max_batch
  of them, decodes them together and puts every row's tokens
  on its own out queue.  An out queue is the list of
  everything ever put on it.

  `Serves` is a run of the scheduler: submissions and batches
  in any order, every batch taking any number of the waiting
  requests it may.  `batching_exact` says that each request
  receives what generate() returns for its prompt alone.

  Main declarations:
    * `Scheduler.submit`, `Scheduler.loopOnce`
    * `Serves`
    * `serves_inv`
    * `batching_exact`
-/

------------------------------------------------------------
-- The Scheduler
------------------------------------------------------------

namespace CircuitDllm

/- One submitted request. -/
structure Request (Prompt : Type) where
  prompt : Prompt
  maxTokens : Int
deriving DecidableEq, Repr

/- What an out queue carries. -/
inductive Item (Tok : Type) where
  | token (tok : Tok)
  | exc (e : SpecError)
  | done
deriving DecidableEq, Repr

/-
  `submitted` lists the requests as they came; `outs` are
  their out queues and `q` holds the waiting ones with the
  number of their queue.
-/
structure Scheduler (Prompt Tok : Type) where
  submitted : List (Request Prompt)
  outs : List (List (Item Tok))
  q : List (Request Prompt × Nat)
deriving Repr

/- What one turn of the loop served, and how it ended. -/
structure BatchRun where
  ids : List Nat
  fault : Nat → Option SpecError
  ended : Except SpecError Unit

namespace Scheduler

variable {Prompt Tok H : Type}

/- outs[i].put(item) -/
def put
    (outs : List (List (Item Tok)))
    (i : Nat)
    (item : Item Tok) :
    List (List (Item Tok)) :=
  outs.modify i (· ++ [item])

/- for o in outs: o.put(item) -/
def putAll
    (item : Item Tok) :
    List Nat → List (List (Item Tok)) →
      List (List (Item Tok))
| [], outs => outs
| i :: ids, outs => putAll item ids (put outs i item)

/- for b, tok in ...: outs[b].put(tok) -/
def stream
    (ids : List Nat) :
    List (Nat × Tok) → List (List (Item Tok)) →
      Except SpecError Unit × List (List (Item Tok))
| [], outs => (.ok (), outs)
| (b, tok) :: yielded, outs =>
    match ids[b]? with
    | none => (.error .index, outs)
    | some i => stream ids yielded (put outs i (.token tok))

/- The exception, if any, then DONE, on every queue. -/
def close
    (ids : List Nat)
    (ended : Except SpecError Unit)
    (outs : List (List (Item Tok))) :
    List (List (Item Tok)) :=
  match ended with
  | .error e => putAll .done ids (putAll (.exc e) ids outs)
  | .ok () => putAll .done ids outs

/- Enqueue a request with a fresh out queue. -/
def submit
    (s : Scheduler Prompt Tok)
    (r : Request Prompt) :
    Scheduler Prompt Tok where
  submitted := s.submitted ++ [r]
  outs := s.outs ++ [[]]
  q := s.q ++ [(r, s.outs.length)]

/-
  One turn of the loop on a batch of the first `n` waiting
  requests: its tokens, the exception if it raised, DONE.
-/
def loopOnce
    (model : Model Tok H)
    (padOut : StageKV H → H)
    (padToken : Tok)
    (encode : Prompt → List Tok)
    (eos : Tok → Bool)
    (n : Nat)
    (fault : Nat → Option SpecError)
    (s : Scheduler Prompt Tok) :
    BatchRun × Scheduler Prompt Tok :=
  let batch := s.q.take n
  let ids := batch.map (·.2)
  let decoded :=
    generateBatchStream model padOut padToken eos fault
      (batch.map (fun r => encode r.1.prompt))
      (batch.map (·.1.maxTokens))
  let streamed := stream ids decoded.1 s.outs
  let ended : Except SpecError Unit :=
    match streamed.1 with
    | .error e => .error e
    | .ok () => decoded.2
  (⟨ids, fault, ended⟩,
    { s with
      outs := close ids ended streamed.2
      q := s.q.drop n })

end Scheduler

/-
  A run of the scheduler, with the batches it served.  A
  batch has at least one request and at most max_batch, and
  its relays may raise anywhere.
-/
inductive Serves
    {Prompt Tok H : Type}
    (model : Model Tok H)
    (padOut : StageKV H → H)
    (padToken : Tok)
    (encode : Prompt → List Tok)
    (eos : Tok → Bool)
    (maxBatch : Nat) :
    List BatchRun → Scheduler Prompt Tok → Prop where
| init :
    Serves model padOut padToken encode eos maxBatch []
      ⟨[], [], []⟩
| submit {runs s} (r) :
    Serves model padOut padToken encode eos maxBatch runs s →
    Serves model padOut padToken encode eos maxBatch runs
      (s.submit r)
| batch {runs s run s'} (n fault) :
    Serves model padOut padToken encode eos maxBatch runs s →
    1 ≤ n → n ≤ max 1 maxBatch → n ≤ s.q.length →
    s.loopOnce model padOut padToken encode eos n fault =
      (run, s') →
    Serves model padOut padToken encode eos maxBatch
      (runs ++ [run]) s'

end CircuitDllm

------------------------------------------------------------
-- Out Queues
------------------------------------------------------------

namespace CircuitDllm

namespace Scheduler

variable {Prompt Tok H : Type}

theorem getElem?_put
    (outs : List (List (Item Tok)))
    (i j : Nat)
    (item : Item Tok) :
    (put outs i item)[j]? =
      if i = j then (outs[j]?).map (· ++ [item])
      else outs[j]? := by
  unfold put
  rw [List.getElem?_modify]
  split <;> simp

@[simp] theorem length_put
    (outs : List (List (Item Tok)))
    (i : Nat)
    (item : Item Tok) :
    (put outs i item).length = outs.length := by
  simp [put]

/- Putting on all of some queues leaves the others. -/
theorem getElem?_putAll
    (item : Item Tok)
    (ids : List Nat)
    (hNodup : ids.Nodup)
    (outs : List (List (Item Tok)))
    (j : Nat) :
    (putAll item ids outs)[j]? =
      if j ∈ ids then (outs[j]?).map (· ++ [item])
      else outs[j]? := by
  induction ids generalizing outs with
  | nil => simp [putAll]
  | cons i ids ih =>
      rcases List.nodup_cons.mp hNodup with ⟨hFresh, hRest⟩
      rw [putAll, ih hRest, getElem?_put]
      by_cases hEq : i = j
      · subst hEq
        simp [hFresh]
      · have hNe : j ≠ i := fun h => hEq h.symm
        simp [hEq, hNe]

@[simp] theorem length_putAll
    (item : Item Tok)
    (ids : List Nat)
    (outs : List (List (Item Tok))) :
    (putAll item ids outs).length = outs.length := by
  induction ids generalizing outs with
  | nil => rfl
  | cons i ids ih => simp [putAll, ih]

/-
  Streaming puts every row's tokens on the row's queue, in
  order, and touches no other queue.
-/
theorem stream_spec
    (ids : List Nat)
    (hNodup : ids.Nodup)
    (yielded : List (Nat × Tok))
    (hRows : ∀ q ∈ yielded, q.1 < ids.length)
    (outs : List (List (Item Tok))) :
    (stream ids yielded outs).1 = .ok () ∧
      (stream ids yielded outs).2.length = outs.length ∧
      (∀ b i, ids[b]? = some i →
        (stream ids yielded outs).2[i]? =
          (outs[i]?).map
            (· ++ (rowTokens yielded b).map Item.token)) ∧
      ∀ j, j ∉ ids →
        (stream ids yielded outs).2[j]? = outs[j]? := by
  induction yielded generalizing outs with
  | nil => simp [stream]
  | cons p yielded ih =>
      rcases p with ⟨c, tok⟩
      have hc : c < ids.length := hRows (c, tok) (by simp)
      have hAt := List.getElem?_eq_getElem hc
      rcases ih
          (fun q hq => hRows q (List.mem_cons_of_mem _ hq))
          (put outs ids[c] (.token tok)) with
        ⟨hOk, hLen, hQueues, hOthers⟩
      have hStream :
          stream ids ((c, tok) :: yielded) outs =
            stream ids yielded
              (put outs ids[c] (.token tok)) := by
        simp [stream, hAt]
      rw [hStream]
      refine ⟨hOk, by simpa using hLen, ?_, ?_⟩
      · intro b i hi
        rw [hQueues b i hi, getElem?_put]
        by_cases hEq : c = b
        · subst hEq
          rw [hAt] at hi
          rcases Option.some.inj hi with rfl
          rw [if_pos rfl, Option.map_map]
          congr 1
          funext items
          simp [rowTokens]
        · have hNe : ids[c] ≠ i := by
            intro hSame
            rw [← hSame] at hi
            rcases List.getElem?_eq_some_iff.mp hi with
              ⟨hb, hbc⟩
            exact
              hEq ((List.Nodup.getElem_inj_iff hNodup).mp
                hbc.symm)
          rw [if_neg hNe]
          simp [rowTokens, hEq]
      · intro j hj
        rw [hOthers j hj, getElem?_put, if_neg]
        intro hSame
        exact hj (hSame ▸ List.getElem_mem hc)

end Scheduler

end CircuitDllm

------------------------------------------------------------
-- One Turn
------------------------------------------------------------

namespace CircuitDllm

variable {Prompt Tok H : Type}

/- How an out queue ends. -/
def closing : Except SpecError Unit → List (Item Tok)
| .ok () => [.done]
| .error e => [.exc e, .done]

/-
  What a served request has received: tokens, then DONE once,
  after the exception if its batch raised.  The tokens are
  those generate() returns for its prompt alone, or a prefix
  of them when a relay of its batch raised.
-/
def Response
    (model : Model Tok H)
    (encode : Prompt → List Tok)
    (eos : Tok → Bool)
    (run : BatchRun)
    (r : Request Prompt)
    (items : List (Item Tok)) : Prop :=
  ∃ sent : List Tok,
    items = sent.map Item.token ++ closing run.ended ∧
      ∀ toks,
        generate model eos (encode r.prompt) r.maxTokens =
          .ok toks →
        (run.ended = .ok () ∧ sent = toks) ∨
          ∃ pos e,
            run.fault pos = some e ∧
              run.ended = .error e ∧ sent <+: toks

/- Closing the queues of a batch ends each of them once. -/
theorem Scheduler.getElem?_close
    (ids : List Nat)
    (hNodup : ids.Nodup)
    (ended : Except SpecError Unit)
    (outs : List (List (Item Tok)))
    (j : Nat) :
    (close ids ended outs)[j]? =
      if j ∈ ids then (outs[j]?).map (· ++ closing ended)
      else outs[j]? := by
  unfold close
  split
  next e =>
    rw [getElem?_putAll _ ids hNodup,
      getElem?_putAll _ ids hNodup]
    by_cases hj : j ∈ ids
    · simp only [hj, if_true, Option.map_map]
      congr 1
      funext items
      simp [closing]
    · simp [hj]
  next => exact getElem?_putAll _ ids hNodup outs j

@[simp] theorem Scheduler.length_close
    (ids : List Nat)
    (ended : Except SpecError Unit)
    (outs : List (List (Item Tok))) :
    (close ids ended outs).length = outs.length := by
  unfold close
  split <;> simp

variable [Inhabited Tok]

/-
  One turn answers the requests of its batch and leaves all
  other queues alone.
-/
theorem loopOnce_response
    (model : Model Tok H)
    (padOut : StageKV H → H)
    (padToken : Tok)
    (encode : Prompt → List Tok)
    (eos : Tok → Bool)
    (n : Nat)
    (fault : Nat → Option SpecError)
    (s : Scheduler Prompt Tok)
    (hNodup : ((s.q.take n).map (·.2)).Nodup) :
    let turn :=
      s.loopOnce model padOut padToken encode eos n fault
    turn.1.ids = (s.q.take n).map (·.2) ∧
      turn.2.submitted = s.submitted ∧
      turn.2.q = s.q.drop n ∧
      turn.2.outs.length = s.outs.length ∧
      (∀ r i,
        (r, i) ∈ s.q.take n →
        s.outs[i]? = some [] →
        ∃ items,
          turn.2.outs[i]? = some items ∧
            Response model encode eos turn.1 r items) ∧
      ∀ j, j ∉ (s.q.take n).map (·.2) →
        turn.2.outs[j]? = s.outs[j]? := by
  intro turn
  let batch := s.q.take n
  let prompts := batch.map (fun r => encode r.1.prompt)
  let caps := batch.map (·.1.maxTokens)
  let decoded :=
    generateBatchStream model padOut padToken eos fault
      prompts caps
  have hRows :
      ∀ q ∈ decoded.1, q.1 < (batch.map (·.2)).length := by
    have h :=
      generateBatchStream_rows model padOut padToken eos
        fault prompts caps
    simpa [prompts] using h
  rcases Scheduler.stream_spec (batch.map (·.2)) hNodup
      decoded.1 hRows s.outs with
    ⟨hOk, hLen, hQueues, hOthers⟩
  have hTurn :
      turn =
        (⟨batch.map (·.2), fault, decoded.2⟩,
          { s with
            outs :=
              Scheduler.close (batch.map (·.2)) decoded.2
                (Scheduler.stream (batch.map (·.2))
                  decoded.1 s.outs).2
            q := s.q.drop n }) := by
    simp only [turn, Scheduler.loopOnce]
    rw [show
      (Scheduler.stream ((s.q.take n).map (·.2))
        (generateBatchStream model padOut padToken eos fault
          ((s.q.take n).map (fun r => encode r.1.prompt))
          ((s.q.take n).map (·.1.maxTokens))).1
        s.outs).1 = .ok () from hOk]
  rw [hTurn]
  refine ⟨rfl, rfl, rfl, by simpa using hLen, ?_, ?_⟩
  · intro r i hMem hEmpty
    rcases List.mem_iff_getElem?.mp hMem with ⟨b, hb⟩
    have hId : (batch.map (·.2))[b]? = some i := by
      rw [List.getElem?_map, hb]
      rfl
    have hPrompt :
        prompts[b]? = some (encode r.prompt) := by
      rw [List.getElem?_map, hb]
      rfl
    have hCap : caps[b]? = some r.maxTokens := by
      rw [List.getElem?_map, hb]
      rfl
    refine
      ⟨(rowTokens decoded.1 b).map Item.token ++
          closing decoded.2, ?_,
        rowTokens decoded.1 b, rfl, ?_⟩
    · rw [Scheduler.getElem?_close _ hNodup,
        if_pos (List.mem_of_getElem? hId),
        hQueues b i hId, hEmpty]
      rfl
    · intro toks hToks
      have hNonempty : encode r.prompt ≠ [] := by
        intro hNil
        rw [hNil, generate_nil] at hToks
        cases hToks
      rw [generate_eq_greedyCut _ _ _ _ hNonempty] at hToks
      rcases Except.ok.inj hToks with rfl
      rcases generateBatchStream_outcome model padOut
          padToken eos fault prompts caps
          (by simp [prompts, caps])
          ⟨_, List.mem_of_getElem? hPrompt, hNonempty⟩ with
        ⟨hEnded, hAll⟩ | ⟨pos, e, hFault, hEnded, hAll⟩
      · left
        exact
          ⟨hEnded, hAll b _ _ hPrompt hNonempty hCap⟩
      · right
        exact
          ⟨pos, e, hFault, hEnded,
            hAll b _ _ hPrompt hNonempty hCap⟩
  · intro j hj
    rw [Scheduler.getElem?_close _ hNodup, if_neg hj]
    exact hOthers j hj

end CircuitDllm

------------------------------------------------------------
-- Runs of the Scheduler
------------------------------------------------------------

namespace CircuitDllm

variable {Prompt Tok H : Type} [Inhabited Tok]
variable {model : Model Tok H} {padOut : StageKV H → H}
variable {padToken : Tok} {encode : Prompt → List Tok}
variable {eos : Tok → Bool} {maxBatch : Nat}

/-
  After any run the first `served` requests have been
  answered, each by one batch, and the others wait in order.
-/
structure SchedInv
    (model : Model Tok H)
    (encode : Prompt → List Tok)
    (eos : Tok → Bool)
    (served : Nat)
    (runs : List BatchRun)
    (s : Scheduler Prompt Tok) : Prop where
  outs_length : s.outs.length = s.submitted.length
  served_le : served ≤ s.submitted.length
  ids_eq : (runs.map (·.ids)).flatten = List.range served
  q_eq : s.q = s.submitted.zipIdx.drop served
  waiting :
    ∀ i, served ≤ i → i < s.submitted.length →
      s.outs[i]? = some []
  answered :
    ∀ run ∈ runs, ∀ i ∈ run.ids, ∀ r,
      s.submitted[i]? = some r →
      ∃ items,
        s.outs[i]? = some items ∧
          Response model encode eos run r items

/- Submitting adds a waiting request at the end. -/
omit [Inhabited Tok] in
theorem SchedInv.submit
    {served : Nat}
    {runs : List BatchRun}
    {s : Scheduler Prompt Tok}
    (hInv : SchedInv model encode eos served runs s)
    (r : Request Prompt) :
    SchedInv model encode eos served runs (s.submit r) where
  outs_length := by
    simp [Scheduler.submit, hInv.outs_length]
  served_le := by
    have := hInv.served_le
    simp [Scheduler.submit]
    omega
  ids_eq := hInv.ids_eq
  q_eq := by
    have hLe := hInv.served_le
    simp only [Scheduler.submit, hInv.q_eq,
      hInv.outs_length, List.zipIdx_append]
    rw [List.drop_append_of_le_length (by simpa using hLe)]
    simp
  waiting := by
    intro i hServed hi
    simp only [Scheduler.submit, List.length_append,
      List.length_singleton] at hi
    simp only [Scheduler.submit]
    rw [List.getElem?_append, hInv.outs_length]
    split
    next hLt => exact hInv.waiting i hServed hLt
    next hGe =>
      have hEq : i = s.submitted.length := by omega
      simp [hEq]
  answered := by
    intro run hRun i hi r' hr
    have hMem :
        i ∈ (runs.map (·.ids)).flatten :=
      List.mem_flatten.mpr
        ⟨run.ids, List.mem_map_of_mem hRun, hi⟩
    rw [hInv.ids_eq, List.mem_range] at hMem
    have hLt : i < s.submitted.length :=
      Nat.lt_of_lt_of_le hMem hInv.served_le
    simp only [Scheduler.submit,
      List.getElem?_append_left hLt] at hr
    have hOut : i < s.outs.length := by
      rw [hInv.outs_length]
      exact hLt
    simp only [Scheduler.submit,
      List.getElem?_append_left hOut]
    exact hInv.answered run hRun i hi r' hr

/- The numbers of the waiting requests, in order. -/
omit [Inhabited Tok] in
theorem SchedInv.batch_ids
    {served : Nat}
    {runs : List BatchRun}
    {s : Scheduler Prompt Tok}
    (hInv : SchedInv model encode eos served runs s)
    {n : Nat}
    (hn : n ≤ s.q.length) :
    (s.q.take n).map (·.2) = List.range' served n := by
  rw [hInv.q_eq] at hn ⊢
  rw [List.map_take, List.map_drop, List.zipIdx_map_snd]
  rw [List.length_drop, List.length_zipIdx] at hn
  rw [List.drop_range']
  simpa using List.take_range'_of_length_ge hn

/- A turn answers the next waiting requests. -/
theorem SchedInv.batch
    {served n : Nat}
    {runs : List BatchRun}
    {run : BatchRun}
    {s s' : Scheduler Prompt Tok}
    (hInv : SchedInv model encode eos served runs s)
    (fault : Nat → Option SpecError)
    (hn : n ≤ s.q.length)
    (hTurn :
      s.loopOnce model padOut padToken encode eos n fault =
        (run, s')) :
    SchedInv model encode eos (served + n) (runs ++ [run])
      s' := by
  have hIds := hInv.batch_ids hn
  have hResponse :=
    loopOnce_response model padOut padToken encode eos n
      fault s (by rw [hIds]; exact List.nodup_range')
  rw [hTurn, hIds] at hResponse
  rcases hResponse with
    ⟨hRunIds, hSubmitted, hQ, hLen, hAnswer, hOthers⟩
  have hServed : served + n ≤ s.submitted.length := by
    have hLe := hInv.served_le
    rw [hInv.q_eq, List.length_drop, List.length_zipIdx]
      at hn
    omega
  constructor
  · rw [hLen, hSubmitted, hInv.outs_length]
  · rw [hSubmitted]
    exact hServed
  · have hRunIds' : run.ids = List.range' served n := hRunIds
    have hAppend :
        List.range' 0 served ++ List.range' (0 + served) n =
          List.range' 0 (served + n) :=
      List.range'_append_1
    rw [Nat.zero_add] at hAppend
    rw [List.map_append, List.flatten_append, hInv.ids_eq,
      List.range_eq_range', List.range_eq_range', ← hAppend]
    simp [hRunIds']
  · rw [hQ, hInv.q_eq, List.drop_drop, hSubmitted]
  · intro i hi hLt
    rw [hSubmitted] at hLt
    rw [hOthers i]
    · exact hInv.waiting i (by omega) hLt
    · simp
      omega
  · intro run' hRun' i hi r hr
    rw [hSubmitted] at hr
    rcases List.mem_append.mp hRun' with hOld | hNew
    · have hMem :
          i ∈ (runs.map (·.ids)).flatten :=
        List.mem_flatten.mpr
          ⟨run'.ids, List.mem_map_of_mem hOld, hi⟩
      rw [hInv.ids_eq, List.mem_range] at hMem
      rw [hOthers i]
      · exact hInv.answered run' hOld i hi r hr
      · simp
        omega
    · rcases List.mem_singleton.mp hNew with rfl
      rw [hRunIds] at hi
      have hBounds := List.mem_range'_1.mp hi
      have hLt : i < s.submitted.length := by omega
      have hEmpty := hInv.waiting i hBounds.1 hLt
      have hIn : (r, i) ∈ s.q.take n := by
        rw [hInv.q_eq, List.mem_iff_getElem?]
        refine ⟨i - served, ?_⟩
        rw [List.getElem?_take_of_lt (by omega),
          List.getElem?_drop,
          show served + (i - served) = i by omega]
        simp [hr]
      exact hAnswer r i hIn hEmpty

theorem serves_inv
    {runs : List BatchRun}
    {s : Scheduler Prompt Tok}
    (hServes :
      Serves model padOut padToken encode eos maxBatch runs
        s) :
    ∃ served, SchedInv model encode eos served runs s := by
  induction hServes with
  | init =>
      refine ⟨0, rfl, Nat.le_refl 0, rfl, rfl, ?_, ?_⟩
      · intro i _ hi
        simp at hi
      · simp
  | submit r _ ih =>
      rcases ih with ⟨served, hInv⟩
      exact ⟨served, hInv.submit r⟩
  | batch n fault _ _ _ hn hTurn ih =>
      rcases ih with ⟨served, hInv⟩
      exact ⟨served + n, hInv.batch fault hn hTurn⟩

/-
  In every run each request either still waits with nothing
  on its queue, or was served by exactly one batch and has
  its own response; no request is in two batches.
-/
theorem batching_exact
    {runs : List BatchRun}
    {s : Scheduler Prompt Tok}
    (hServes :
      Serves model padOut padToken encode eos maxBatch runs
        s) :
    (runs.map (·.ids)).flatten.Nodup ∧
      ∀ i r, s.submitted[i]? = some r →
        ((r, i) ∈ s.q ∧ s.outs[i]? = some [] ∧
          ∀ run ∈ runs, i ∉ run.ids) ∨
        ((∀ r', (r', i) ∉ s.q) ∧
          ∃ run ∈ runs, i ∈ run.ids ∧
            ∃ items,
              s.outs[i]? = some items ∧
                Response model encode eos run r items) := by
  rcases serves_inv hServes with ⟨served, hInv⟩
  constructor
  · rw [hInv.ids_eq]
    exact List.nodup_range
  · intro i r hr
    rcases List.getElem?_eq_some_iff.mp hr with ⟨hLt, _⟩
    by_cases hServed : i < served
    · right
      constructor
      · intro r' hMem
        rw [hInv.q_eq] at hMem
        rcases List.mem_iff_getElem?.mp hMem with ⟨k, hk⟩
        rw [List.getElem?_drop] at hk
        simp at hk
        omega
      · have hMem : i ∈ (runs.map (·.ids)).flatten := by
          rw [hInv.ids_eq]
          exact List.mem_range.mpr hServed
        rcases List.mem_flatten.mp hMem with
          ⟨ids, hIds, hi⟩
        rcases List.mem_map.mp hIds with ⟨run, hRun, rfl⟩
        exact
          ⟨run, hRun, hi, hInv.answered run hRun i hi r hr⟩
    · left
      refine
        ⟨?_, hInv.waiting i (by omega) hLt, ?_⟩
      · rw [hInv.q_eq, List.mem_iff_getElem?]
        refine ⟨i - served, ?_⟩
        rw [List.getElem?_drop,
          show served + (i - served) = i by omega]
        simp [hr]
      · intro run hRun hi
        have hMem : i ∈ (runs.map (·.ids)).flatten :=
          List.mem_flatten.mpr
            ⟨run.ids, List.mem_map_of_mem hRun, hi⟩
        rw [hInv.ids_eq, List.mem_range] at hMem
        exact hServed hMem

/- One stage that sums what it attends to. -/
def sumModel : Model Nat Nat where
  embed tok := tok
  stages := [fun kv => (kv.map (·.1)).sum]
  lmHead h := h % 5

/- Two requests of different lengths and caps, waiting. -/
def twoWaiting : Scheduler (List Nat) Nat :=
  (Scheduler.submit ⟨[], [], []⟩ ⟨[1, 2], 3⟩).submit
    ⟨[4], 2⟩

/- The turn that serves both. -/
def twoServed : BatchRun × Scheduler (List Nat) Nat :=
  twoWaiting.loopOnce sumModel (fun _ => 0) 0 (fun ids => ids)
    (fun tok => tok == 1) 2 (fun _ => none)

theorem batching_exact_two :
    ∃ run ∈ [twoServed.1], 1 ∈ run.ids ∧
      ∃ items,
        twoServed.2.outs[1]? = some items ∧
          Response sumModel (fun ids => ids)
            (fun tok => tok == 1) run ⟨[4], 2⟩ items := by
  have hServes :
      Serves sumModel (fun _ => 0) 0 (fun ids => ids)
        (fun tok => tok == 1) 8 [twoServed.1]
        twoServed.2 :=
    .batch 2 (fun _ => none)
      (.submit ⟨[4], 2⟩ (.submit ⟨[1, 2], 3⟩ .init))
      (by decide) (by decide) (by decide) rfl
  rcases (batching_exact hServes).2 1 ⟨[4], 2⟩ rfl with
    ⟨hWaiting, _⟩ | ⟨_, hServed⟩
  · exact absurd hWaiting (by decide)
  · exact hServed

end CircuitDllm
