import CircuitDllm.Batch.Relay
import CircuitDllm.Decode.Greedy

/-
  The static batch decode (engine/coordinator.py,
  generate_batch_stream).

  Prompts are left-padded to one length; every step relays
  one token a row with the row's own position and a mask
  that grows by a real column.  A finished row rides along
  until the batch drains.  `fault` says which relays raise
  and with what.

  Main declarations:
    * `batchInputs`
    * `emitRows`
    * `generateBatchStream`
-/

------------------------------------------------------------
-- Inputs
------------------------------------------------------------

namespace CircuitDllm

variable {Tok H : Type}

/- The ids and the padding mask of a batch. -/
structure BatchInputs (Tok : Type) where
  ids : List (List Tok)
  attn : List (List Bool)
deriving Repr

/- The longest prompt's length. -/
def batchWidth (prompts : List (List Tok)) : Nat :=
  (prompts.map (·.length)).foldr max 0

/- One row of the padding mask: 1 marks a real token. -/
def paddingMask (width : Nat) (ids : List Tok) : List Bool :=
  List.replicate (width - ids.length) false ++
    List.replicate ids.length true

/- LEFT-pad the tokenized prompts to the longest of them. -/
def batchInputs
    (padToken : Tok)
    (prompts : List (List Tok)) :
    BatchInputs Tok where
  ids :=
    prompts.map (fun ids =>
      List.replicate (batchWidth prompts - ids.length)
        padToken ++ ids)
  attn := prompts.map (paddingMask (batchWidth prompts))

/- (attn.cumsum(-1) - 1).clamp(min=0), after `seen` ones. -/
def maskPositions : Nat → List Bool → List Nat
| _, [] => []
| seen, flag :: attn =>
    let seen := seen + flag.toNat
    (seen - 1) :: maskPositions seen attn

/- Row b of the three tensors of a frame. -/
def batchRows
    (hidden : List (List H))
    (positionIds : List (List Nat))
    (attn : List (List Bool)) :
    List (BatchRow H) :=
  (hidden.zip (positionIds.zip attn)).map
    (fun r => ⟨r.1, r.2.1, r.2.2⟩)

/- The argmax at the last position of every row. -/
def lastPicks
    (model : Model Tok H)
    (hidden : List (List H)) :
    Option (List Tok) :=
  hidden.mapM (fun row => (row.map model.lmHead).getLast?)

end CircuitDllm

------------------------------------------------------------
-- Emission
------------------------------------------------------------

namespace CircuitDllm

variable {Tok : Type}

/- done[b] and count[b]. -/
structure RowProgress where
  done : Bool := false
  count : Nat := 0
deriving DecidableEq, Repr

/- The body of emit() for one row, and what it yields. -/
def emitRow
    (eos : Tok → Bool)
    (cap : Int)
    (nxt : Tok)
    (p : RowProgress) :
    Option Tok × RowProgress :=
  if p.done ∨ cap ≤ p.count then
    (none, { p with done := true })
  else if eos nxt then (none, { p with done := true })
  else
    let count := p.count + 1
    (some nxt,
      { done := decide (cap ≤ count), count := count })

/- for b in range(B): yield b, t. -/
def emitRows
    (eos : Tok → Bool) :
    Nat → List Int → List Tok → List RowProgress →
      List (Nat × Tok) × List RowProgress
| b, cap :: caps, t :: nxt, p :: progress =>
    let (tok, p) := emitRow eos cap t p
    let (yielded, progress) :=
      emitRows eos (b + 1) caps nxt progress
    ((tok.map (b, ·)).toList ++ yielded, p :: progress)
| _, _, _, progress => ([], progress)

end CircuitDllm

------------------------------------------------------------
-- The Batch Loop
------------------------------------------------------------

namespace CircuitDllm

variable {Tok H : Type}

/- What the batch carries from step to step. -/
structure BatchState (Tok H : Type) where
  caches : List (List (StageKV H))
  curAttn : List (List Bool)
  lengths : List Nat
  nxt : List Tok
  progress : List RowProgress
  -- (row, token) in the order they were yielded
  yielded : List (Nat × Tok)

/-
  One relay, the picks of its last rows, and emit(); `pos`
  also counts the relays.
-/
def batchStep
    (model : Model Tok H)
    (padOut : StageKV H → H)
    (eos : Tok → Bool)
    (caps : List Int)
    (fault : Nat → Option SpecError)
    (pos : Nat)
    (ids : List (List Tok))
    (positionIds : List (List Nat))
    (s : BatchState Tok H) :
    Except SpecError (BatchState Tok H) :=
  match fault pos with
  | some e => .error e
  | none =>
    match relayBatch padOut model.stages pos
        (batchRows (ids.map (·.map model.embed))
          positionIds s.curAttn) s.caches with
    | .error e => .error e
    | .ok (hidden, caches) =>
      match lastPicks model hidden with
      | none => .error .index
      | some nxt =>
        let (yielded, progress) :=
          emitRows eos 0 caps nxt s.progress
        .ok
          { s with
            caches := caches
            nxt := nxt
            progress := progress
            yielded := s.yielded ++ yielded }

/- for step in range(max(caps) - 1), until all are done. -/
def batchLoop
    (model : Model Tok H)
    (padOut : StageKV H → H)
    (eos : Tok → Bool)
    (caps : List Int)
    (fault : Nat → Option SpecError) :
    Nat → Nat → BatchState Tok H →
      Except SpecError Unit × BatchState Tok H
| 0, _, s => (.ok (), s)
| steps + 1, step, s =>
    if s.progress.all (·.done) then (.ok (), s)
    else
      -- the decode token is real, at the row's next position
      let grown :=
        { s with
          curAttn := s.curAttn.map (· ++ [true])
          lengths := s.lengths.map (· + 1) }
      match batchStep model padOut eos caps fault (step + 1)
          (s.nxt.map ([·])) (s.lengths.map ([·])) grown with
      | .error e => (.error e, s)
      | .ok s =>
        batchLoop model padOut eos caps fault steps
          (step + 1) s

/- The state before the prefill. -/
def batchStart
    (padToken : Tok)
    (prompts : List (List Tok)) :
    BatchState Tok H where
  caches := []
  curAttn := (batchInputs padToken prompts).attn
  lengths :=
    (batchInputs padToken prompts).attn.map (·.count true)
  nxt := []
  progress := prompts.map (fun _ => {})
  yielded := []

/-
  Decode a fixed batch of tokenized prompts: the (row,
  token) pairs yielded, and how the generator ended.
-/
def generateBatchStream
    (model : Model Tok H)
    (padOut : StageKV H → H)
    (padToken : Tok)
    (eos : Tok → Bool)
    (fault : Nat → Option SpecError)
    (prompts : List (List Tok))
    (caps : List Int) :
    List (Nat × Tok) × Except SpecError Unit :=
  let inputs := batchInputs padToken prompts
  match batchStep model padOut eos caps fault 0 inputs.ids
      (inputs.attn.map (maskPositions 0))
      (batchStart padToken prompts) with
  | .error e => ([], .error e)
  | .ok s =>
    match caps.max? with
    | none => (s.yielded, .error .index)
    | some cap =>
      match batchLoop model padOut eos caps fault
          (cap - 1).toNat 0 s with
      | (ended, s) => (s.yielded, ended)

end CircuitDllm
