import CircuitDllm.Batch.Loop

/-
  A batched decode gives every row its own greedy tokens.

  `BatchInv` ties the caches, masks, lengths and picks of a
  batch to the tokens each row has fed; `RowOk` ties a row's
  progress flags to what has been yielded for it.  Both are
  kept by every step, so the rows of a drained batch are the
  greedy runs of their prompts, and those of a batch that
  raised are initial segments of them.

  Main declarations:
    * `emitRow_ok`
    * `batchRelay_picks`
    * `batchStep_inv`
    * `generateBatchStream_rows`
-/

------------------------------------------------------------
-- Emission
------------------------------------------------------------

namespace CircuitDllm

variable {Tok : Type}

/- The tokens yielded for one row. -/
def rowTokens
    (yielded : List (Nat × Tok))
    (b : Nat) :
    List Tok :=
  (yielded.filter (fun p => p.1 = b)).map (·.2)

@[simp] theorem rowTokens_nil (b : Nat) :
    rowTokens ([] : List (Nat × Tok)) b = [] := rfl

@[simp] theorem rowTokens_append
    (xs ys : List (Nat × Tok))
    (b : Nat) :
    rowTokens (xs ++ ys) b =
      rowTokens xs b ++ rowTokens ys b := by
  simp [rowTokens]

@[simp] theorem rowTokens_same
    (tok : Option Tok)
    (b : Nat) :
    rowTokens (tok.map (b, ·)).toList b = tok.toList := by
  cases tok <;> simp [rowTokens]

theorem rowTokens_other
    (tok : Option Tok)
    {b c : Nat}
    (hNe : b ≠ c) :
    rowTokens (tok.map (b, ·)).toList c = [] := by
  cases tok <;> simp [rowTokens, hNe]

/- No token is yielded for a row outside the batch. -/
theorem emitRows_rows
    (eos : Tok → Bool)
    (b : Nat)
    (caps : List Int)
    (nxt : List Tok)
    (progress : List RowProgress) :
    ∀ p ∈ (emitRows eos b caps nxt progress).1,
      b ≤ p.1 ∧ p.1 < b + progress.length := by
  induction progress generalizing b caps nxt with
  | nil => simp [emitRows]
  | cons p progress ih =>
      cases caps with
      | nil => simp [emitRows]
      | cons cap caps =>
          cases nxt with
          | nil => simp [emitRows]
          | cons t nxt =>
              intro q hq
              simp only [emitRows, List.mem_append] at hq
              rcases hq with hq | hq
              · have hRow : q.1 = b := by
                  cases hTok : (emitRow eos cap t p).1 <;>
                    simp [hTok] at hq
                  simp [hq]
                simp [hRow]
              · have hRest := ih (b + 1) caps nxt q hq
                simp only [List.length_cons]
                omega

/- emit() treats every row by its own cap, pick and flags. -/
theorem emitRows_spec
    (eos : Tok → Bool)
    (b : Nat)
    (caps : List Int)
    (nxt : List Tok)
    (progress : List RowProgress)
    (hCaps : caps.length = progress.length)
    (hNxt : nxt.length = progress.length) :
    (emitRows eos b caps nxt progress).2.length =
        progress.length ∧
      ∀ i cap t p,
        caps[i]? = some cap →
        nxt[i]? = some t →
        progress[i]? = some p →
        rowTokens (emitRows eos b caps nxt progress).1
              (b + i) =
            (emitRow eos cap t p).1.toList ∧
          (emitRows eos b caps nxt progress).2[i]? =
            some (emitRow eos cap t p).2 := by
  induction progress generalizing b caps nxt with
  | nil => simp [emitRows]
  | cons p progress ih =>
      cases caps with
      | nil => simp at hCaps
      | cons cap caps =>
          cases nxt with
          | nil => simp at hNxt
          | cons t nxt =>
              rcases ih (b + 1) caps nxt
                  (by simpa using hCaps)
                  (by simpa using hNxt) with
                ⟨hLen, hRows⟩
              refine ⟨by simp [emitRows, hLen], ?_⟩
              intro i cap' t' p' hCap hT hP
              cases i with
              | zero =>
                  obtain rfl : cap = cap' := by
                    simpa using hCap
                  obtain rfl : t = t' := by simpa using hT
                  obtain rfl : p = p' := by simpa using hP
                  have hNone :
                      rowTokens
                          (emitRows eos (b + 1) caps nxt
                            progress).1 b = [] := by
                    unfold rowTokens
                    rw [List.map_eq_nil_iff,
                      List.filter_eq_nil_iff]
                    intro q hq
                    have hRow :=
                      emitRows_rows eos (b + 1) caps nxt
                        progress q hq
                    simp
                    omega
                  simp [emitRows, hNone]
              | succ i =>
                  have hNext :=
                    hRows i cap' t' p' (by simpa using hCap)
                      (by simpa using hT)
                      (by simpa using hP)
                  rw [show b + 1 + i = b + (i + 1) by omega]
                    at hNext
                  simp only [emitRows, rowTokens_append,
                    rowTokens_other
                      (emitRow eos cap t p).1
                      (show b ≠ b + (i + 1) by omega),
                    List.nil_append, List.getElem?_cons_succ]
                  exact hNext

end CircuitDllm

------------------------------------------------------------
-- One Row's Progress
------------------------------------------------------------

namespace CircuitDllm

variable {Tok : Type}

/-
  A row after `k` rounds of emit(): it is done with its cut
  greedy run, or it has `k` tokens and is going on.
-/
structure RowOk
    (f : List Tok → Tok)
    (eos : Tok → Bool)
    (ids : List Tok)
    (cap : Int)
    (k : Nat)
    (p : RowProgress)
    (out : List Tok) : Prop where
  finished :
    p.done = true → out = greedyCut f eos ids cap.toNat
  running :
    p.done = false →
      out = Causal.greedy f ids k ∧
        p.count = k ∧
        (∀ tok ∈ Causal.greedy f ids k, eos tok = false) ∧
        (0 < k → (k : Int) < cap)

variable {f : List Tok → Tok} {eos : Tok → Bool}
variable {ids out : List Tok} {cap : Int} {k : Nat}
variable {p : RowProgress}

/- What has been yielded starts the row's final tokens. -/
theorem RowOk.out_prefix
    (hRow : RowOk f eos ids cap k p out) :
    out <+: greedyCut f eos ids cap.toNat := by
  cases hDone : p.done with
  | true => rw [hRow.finished hDone]
  | false =>
      rcases hRow.running hDone with
        ⟨rfl, _, hEos, hLt⟩
      have hLe : k ≤ cap.toNat := by omega
      rcases Nat.exists_eq_add_of_le hLe with ⟨n, hn⟩
      rw [hn, greedyCut_add hEos]
      exact List.prefix_append _ _

/- A row that can take no more tokens has its final ones. -/
theorem RowOk.out_eq
    (hRow : RowOk f eos ids cap k p out)
    (hCap : p.done = false → cap ≤ k ∧ 0 < k) :
    out = greedyCut f eos ids cap.toNat := by
  cases hDone : p.done with
  | true => exact hRow.finished hDone
  | false =>
      rcases hRow.running hDone with ⟨_, _, _, hLt⟩
      have hLe := hCap hDone
      omega

/- emit() keeps a row right when its pick is the next one. -/
theorem emitRow_ok
    (hRow : RowOk f eos ids cap k p out) :
    RowOk f eos ids cap (k + 1)
      (emitRow eos cap (f (ids ++ Causal.greedy f ids k))
        p).2
      (out ++
        (emitRow eos cap (f (ids ++ Causal.greedy f ids k))
          p).1.toList) := by
  let nxt := f (ids ++ Causal.greedy f ids k)
  cases hDone : p.done with
  | true =>
      have hEmit :
          emitRow eos cap nxt p =
            (none, { p with done := true }) := by
        simp [emitRow, hDone]
      rw [hEmit]
      refine ⟨?_, by simp⟩
      intro _
      simpa using hRow.finished hDone
  | false =>
      rcases hRow.running hDone with
        ⟨rfl, hCount, hEos, hLt⟩
      by_cases hCap : cap ≤ k
      · have hZero : k = 0 := by omega
        have hEmit :
            emitRow eos cap nxt p =
              (none, { p with done := true }) := by
          simp [emitRow, hCount, hCap]
        rw [hEmit]
        refine ⟨?_, by simp⟩
        intro _
        have hNat : cap.toNat = 0 := by omega
        simp [hZero, hNat]
      · rcases Nat.exists_eq_add_of_le
            (show k + 1 ≤ cap.toNat by omega) with ⟨n, hn⟩
        have hFinal :
            greedyCut f eos ids cap.toNat =
              Causal.greedy f ids k ++
                greedyCut f eos
                  (ids ++ Causal.greedy f ids k)
                  (n + 1) := by
          rw [hn, show k + 1 + n = k + (n + 1) by omega,
            greedyCut_add hEos]
        by_cases hStop : eos nxt = true
        · have hEmit :
              emitRow eos cap nxt p =
                (none, { p with done := true }) := by
            simp [emitRow, hDone, hCount, hCap, hStop]
          rw [hEmit]
          refine ⟨?_, by simp⟩
          intro _
          rw [hFinal, greedyCut_succ, if_pos hStop]
          rfl
        · have hEmit :
              emitRow eos cap nxt p =
                (some nxt,
                  ⟨decide (cap ≤ (k + 1 : Nat)), k + 1⟩) := by
            simp [emitRow, hDone, hCount, hCap, hStop]
          have hOut :
              Causal.greedy f ids k ++ (some nxt).toList =
                Causal.greedy f ids (k + 1) := by
            rw [Causal.greedy_succ]
            rfl
          have hEos' :
              ∀ tok ∈ Causal.greedy f ids (k + 1),
                eos tok = false := by
            intro tok hTok
            rw [Causal.greedy_succ, List.mem_append,
              List.mem_singleton] at hTok
            rcases hTok with hTok | rfl
            · exact hEos tok hTok
            · simpa using hStop
          rw [hEmit, hOut]
          constructor
          · intro hFull
            have hCapEq : cap.toNat = k + 1 := by
              have := of_decide_eq_true hFull
              omega
            rw [hCapEq, greedyCut_eq_self hEos']
          · intro hOpen
            have hGt := of_decide_eq_false hOpen
            exact ⟨rfl, rfl, hEos', fun _ => by omega⟩

end CircuitDllm

------------------------------------------------------------
-- One Relay
------------------------------------------------------------

namespace CircuitDllm

variable {Tok H : Type}

theorem getElem?_batchRows
    {hidden : List (List H)}
    {positionIds : List (List Nat)}
    {attn : List (List Bool)}
    {b : Nat}
    {row : BatchRow H}
    (hRow : (batchRows hidden positionIds attn)[b]? = some row) :
    hidden[b]? = some row.hidden ∧
      positionIds[b]? = some row.positionIds ∧
      attn[b]? = some row.attn := by
  rw [batchRows, List.getElem?_map, Option.map_eq_some_iff]
    at hRow
  rcases hRow with ⟨p, hp, rfl⟩
  rwa [List.getElem?_zip_eq_some,
    List.getElem?_zip_eq_some] at hp

/- Rows that are not empty all have a last pick. -/
theorem lastPicks_spec
    (model : Model Tok H)
    (hidden : List (List H))
    (hRows : ∀ row ∈ hidden, row ≠ []) :
    ∃ nxt,
      lastPicks model hidden = some nxt ∧
        nxt.length = hidden.length ∧
        ∀ (b : Nat) (t : Tok), nxt[b]? = some t →
          ∃ row : List H, hidden[b]? = some row ∧
            (row.map model.lmHead).getLast? = some t := by
  induction hidden with
  | nil => exact ⟨[], rfl, rfl, by simp⟩
  | cons row hidden ih =>
      rcases ih
          (fun r hr => hRows r (List.mem_cons_of_mem _ hr))
        with ⟨nxt, hPicks, hLen, hAt⟩
      have hNonempty : row.map model.lmHead ≠ [] := by
        simpa using hRows row (by simp)
      rcases Option.ne_none_iff_exists'.mp
          (mt List.getLast?_eq_none_iff.mp hNonempty) with
        ⟨t, hT⟩
      refine ⟨t :: nxt, ?_, by simp [hLen], ?_⟩
      · unfold lastPicks at hPicks ⊢
        rw [List.mapM_cons, hT, hPicks]
        rfl
      · intro b t' hb
        cases b with
        | zero =>
            obtain rfl : t = t' := by simpa using hb
            exact ⟨row, rfl, hT⟩
        | succ b =>
            rcases hAt b t' (by simpa using hb) with
              ⟨row', hRow, hLast⟩
            exact ⟨row', by simpa using hRow, hLast⟩

variable [Inhabited Tok]

/-
  What a batch holds: row b's caches show the tokens
  `toks b`, behind a mask `held b`, and its pick is the next
  token after them.
-/
structure BatchInv
    (model : Model Tok H)
    (rowCount : Nat)
    (held : Nat → List Bool)
    (toks : Nat → List Tok)
    (s : BatchState Tok H) : Prop where
  attn_length : s.curAttn.length = rowCount
  attn_eq :
    ∀ b flags, s.curAttn[b]? = some flags → flags = held b
  lengths_length : s.lengths.length = rowCount
  lengths_eq :
    ∀ b n, s.lengths[b]? = some n → n = (toks b).length
  kvs :
    BatchKVs rowCount held model.stages
      (fun b => (toks b).map model.embed) s.caches
  nxt_length : s.nxt.length = rowCount
  nxt_eq :
    ∀ b t, s.nxt[b]? = some t → toks b ≠ [] →
      t = model.next (toks b)

/-
  A relay of the tokens `new` after `toks` answers with the
  next token of every row whose last new column is real.
-/
theorem batchRelay_picks
    (model : Model Tok H)
    (padOut : StageKV H → H)
    {rows : List (BatchRow H)}
    {caches : List (List (StageKV H))}
    {held fresh : Nat → List Bool}
    {toks new : Nat → List Tok}
    (hRows :
      RowsShow rows held fresh (fun b => (toks b).length)
        (fun b => (new b).map model.embed))
    (hFresh : ∀ b, b < rows.length → fresh b ≠ [])
    (hKVs :
      BatchKVs rows.length held model.stages
        (fun b => (toks b).map model.embed) caches) :
    ∃ hidden caches' nxt,
      relayRows padOut model.stages caches rows =
        .ok (hidden, caches') ∧
      lastPicks model hidden = some nxt ∧
      BatchKVs rows.length (fun b => held b ++ fresh b)
        model.stages
        (fun b => (toks b ++ new b).map model.embed)
        caches' ∧
      nxt.length = rows.length ∧
      ∀ b t, nxt[b]? = some t →
        (fresh b).getLast? = some true →
        t = model.next (toks b ++ new b) := by
  have hRows' :
      RowsShow rows held fresh
        (fun b => ((toks b).map model.embed).length)
        (fun b => (new b).map model.embed) := by
    simpa using hRows
  rcases relayRows_visible padOut model.stages hRows' hKVs
    with ⟨hidden, caches', hRelay, hLen, hHidden, hCaches⟩
  have hNonempty : ∀ row ∈ hidden, row ≠ [] := by
    intro row hRow
    rcases List.mem_iff_getElem?.mp hRow with ⟨b, hb⟩
    rcases List.getElem?_eq_some_iff.mp hb with ⟨hLt, _⟩
    have hRowLen := (hHidden b row hb).1
    intro hNil
    rw [hNil] at hRowLen
    exact
      hFresh b (hLen ▸ hLt)
        (List.length_eq_zero_iff.mp hRowLen.symm)
  rcases lastPicks_spec model hidden hNonempty with
    ⟨nxt, hPicks, hNxtLen, hAt⟩
  refine
    ⟨hidden, caches', nxt, hRelay, hPicks, ?_,
      by rw [hNxtLen, hLen], ?_⟩
  · simpa only [List.map_append] using hCaches
  · intro b t hb hReal
    rcases hAt b t hb with ⟨row, hRow, hLast⟩
    rcases hHidden b row hRow with ⟨hRowLen, hVisible⟩
    have hSame :=
      getLast?_visible row (fresh b) hRowLen hReal
    rw [hVisible, List.length_map] at hSame
    rw [List.getLast?_map, ← hSame, ← List.getLast?_map,
      List.map_drop] at hLast
    have hDrop :
        ((linearHidden model.stages
            ((toks b).map model.embed ++
              (new b).map model.embed)).map
            model.lmHead).drop (toks b).length =
          Causal.feed model.next (toks b) (new b) := by
      rw [← Model.argmaxes_eq_feed_next,
        Model.linearArgmaxes, List.map_append]
    rw [hDrop] at hLast
    by_cases hNew : new b = []
    · simp [hNew, Causal.feed] at hLast
    · rw [Causal.getLast?_feed _ _ _ hNew] at hLast
      exact (Option.some.inj hLast).symm

end CircuitDllm

------------------------------------------------------------
-- One Step
------------------------------------------------------------

namespace CircuitDllm

variable {Tok H : Type} [Inhabited Tok]
variable {model : Model Tok H}
variable {eos : Tok → Bool} {prompts : List (List Tok)}
variable {caps : List Int}
variable {fault : Nat → Option SpecError}

/- Every non-empty prompt's row is right after k rounds. -/
structure RowsOk
    (f : List Tok → Tok)
    (eos : Tok → Bool)
    (prompts : List (List Tok))
    (caps : List Int)
    (k : Nat)
    (progress : List RowProgress)
    (yielded : List (Nat × Tok)) : Prop where
  length_eq : progress.length = prompts.length
  row :
    ∀ b ids cap p,
      prompts[b]? = some ids →
      ids ≠ [] →
      caps[b]? = some cap →
      progress[b]? = some p →
      RowOk f eos ids cap k p (rowTokens yielded b)

/-
  `toks` are the prompts and the first `k` greedy tokens of
  each.
-/
def FedGreedy
    (f : List Tok → Tok)
    (prompts : List (List Tok))
    (k : Nat)
    (toks : Nat → List Tok) : Prop :=
  ∀ b ids, prompts[b]? = some ids → ids ≠ [] →
    toks b = ids ++ Causal.greedy f ids k

/- emit() on the next picks keeps all rows right. -/
omit [Inhabited Tok] in
theorem emitRows_ok
    {f : List Tok → Tok}
    {k : Nat}
    {toks : Nat → List Tok}
    {nxt : List Tok}
    {progress : List RowProgress}
    {yielded : List (Nat × Tok)}
    (hCaps : caps.length = prompts.length)
    (hNxt : nxt.length = prompts.length)
    (hNext :
      ∀ b t, nxt[b]? = some t → toks b ≠ [] → t = f (toks b))
    (hFed : FedGreedy f prompts k toks)
    (hRows : RowsOk f eos prompts caps k progress yielded) :
    RowsOk f eos prompts caps (k + 1)
      (emitRows eos 0 caps nxt progress).2
      (yielded ++ (emitRows eos 0 caps nxt progress).1) := by
  have hLen := hRows.length_eq
  rcases emitRows_spec eos 0 caps nxt progress
      (hCaps.trans hLen.symm) (hNxt.trans hLen.symm) with
    ⟨hEmitLen, hEmit⟩
  constructor
  · rw [hEmitLen, hLen]
  · intro b ids cap p' hIds hNonempty hCap hP'
    rcases List.getElem?_eq_some_iff.mp hIds with ⟨hLt, _⟩
    have hT :=
      List.getElem?_eq_getElem
        (show b < nxt.length by omega)
    have hP :=
      List.getElem?_eq_getElem
        (show b < progress.length by omega)
    rcases hEmit b cap _ _ hCap hT hP with ⟨hTokens, hAt⟩
    rw [Nat.zero_add] at hTokens
    rw [hAt] at hP'
    rcases Option.some.inj hP' with rfl
    have hToks := hFed b ids hIds hNonempty
    have hPick :=
      hNext b _ hT (by rw [hToks]; simp [hNonempty])
    rw [hToks] at hPick
    rw [rowTokens_append, hTokens, hPick]
    exact
      emitRow_ok (hRows.row b ids cap _ hIds hNonempty hCap hP)

/-
  A frame of the rows' new tokens: it shows `new` after
  `toks`, and the state it is sent from already counts the
  new columns.
-/
structure FrameInv
    (model : Model Tok H)
    (rowCount : Nat)
    (held fresh : Nat → List Bool)
    (toks new : Nat → List Tok)
    (rows : List (BatchRow H))
    (caches : List (List (StageKV H)))
    (s : BatchState Tok H) : Prop where
  rows_length : rows.length = rowCount
  shows :
    RowsShow rows held fresh (fun b => (toks b).length)
      (fun b => (new b).map model.embed)
  fresh_ne : ∀ b, b < rowCount → fresh b ≠ []
  real :
    ∀ b, toks b ++ new b ≠ [] → b < rowCount →
      (fresh b).getLast? = some true
  kvs :
    BatchKVs rowCount held model.stages
      (fun b => (toks b).map model.embed) caches
  attn_length : s.curAttn.length = rowCount
  attn_eq :
    ∀ b flags, s.curAttn[b]? = some flags →
      flags = held b ++ fresh b
  lengths_length : s.lengths.length = rowCount
  lengths_eq :
    ∀ b n, s.lengths[b]? = some n →
      n = (toks b ++ new b).length

/-
  The relay of a step, its picks and its emission: with no
  fault nothing raises and the invariants hold for one more
  round.
-/
theorem batchStep_inv
    (padOut : StageKV H → H)
    {pos k : Nat}
    {ids : List (List Tok)}
    {positionIds : List (List Nat)}
    {s : BatchState Tok H}
    {held fresh : Nat → List Bool}
    {toks new : Nat → List Tok}
    {rows : List (BatchRow H)}
    {caches : List (List (StageKV H))}
    (hCaps : caps.length = prompts.length)
    (hFault : fault pos = none)
    (hSent :
      batchRows (ids.map (·.map model.embed)) positionIds
        s.curAttn = rows)
    (hRelay :
      relayBatch padOut model.stages pos rows s.caches =
        relayRows padOut model.stages caches rows)
    (hFrame :
      FrameInv model prompts.length held fresh toks new rows
        caches s)
    (hFed :
      FedGreedy model.next prompts k
        (fun b => toks b ++ new b))
    (hRows :
      RowsOk model.next eos prompts caps k s.progress
        s.yielded) :
    ∃ s',
      batchStep model padOut eos caps fault pos ids
          positionIds s =
        .ok s' ∧
      BatchInv model prompts.length
        (fun b => held b ++ fresh b)
        (fun b => toks b ++ new b) s' ∧
      RowsOk model.next eos prompts caps (k + 1) s'.progress
        s'.yielded := by
  have hCount := hFrame.rows_length
  rcases batchRelay_picks model padOut hFrame.shows
      (by rw [hCount]; exact hFrame.fresh_ne)
      (by rw [hCount]; exact hFrame.kvs) with
    ⟨hidden, caches', nxt, hRun, hPicks, hKVs, hNxtLen,
      hNxt⟩
  rw [hCount] at hKVs hNxtLen
  have hNext :
      ∀ b t, nxt[b]? = some t → toks b ++ new b ≠ [] →
        t = model.next (toks b ++ new b) := by
    intro b t hb hNonempty
    rcases List.getElem?_eq_some_iff.mp hb with ⟨hLt, _⟩
    exact
      hNxt b t hb
        (hFrame.real b hNonempty (hNxtLen ▸ hLt))
  refine
    ⟨{ s with
        caches := caches'
        nxt := nxt
        progress :=
          (emitRows eos 0 caps nxt s.progress).2
        yielded :=
          s.yielded ++
            (emitRows eos 0 caps nxt s.progress).1 },
      ?_, ?_, ?_⟩
  · unfold batchStep
    rw [hSent, hRelay, hRun]
    simp only [hFault, hPicks]
  · exact
      { attn_length := hFrame.attn_length
        attn_eq := hFrame.attn_eq
        lengths_length := hFrame.lengths_length
        lengths_eq := hFrame.lengths_eq
        kvs := hKVs
        nxt_length := hNxtLen
        nxt_eq := hNext }
  · exact emitRows_ok hCaps hNxtLen hNext hFed hRows

end CircuitDllm

------------------------------------------------------------
-- The Prefill
------------------------------------------------------------

namespace CircuitDllm

variable {Tok : Type}

theorem le_batchWidth
    {prompts : List (List Tok)}
    {ids : List Tok}
    (hIds : ids ∈ prompts) :
    ids.length ≤ batchWidth prompts := by
  induction prompts with
  | nil => simp at hIds
  | cons p prompts ih =>
      simp only [batchWidth, List.map_cons, List.foldr_cons]
      rcases List.mem_cons.mp hIds with rfl | hIds
      · exact Nat.le_max_left _ _
      · exact Nat.le_trans (ih hIds) (Nat.le_max_right _ _)

theorem length_paddingMask
    {width : Nat}
    {ids : List Tok}
    (hLe : ids.length ≤ width) :
    (paddingMask width ids).length = width := by
  simp [paddingMask]
  omega

theorem count_paddingMask
    (width : Nat)
    (ids : List Tok) :
    (paddingMask width ids).count true = ids.length := by
  simp [paddingMask, List.count_replicate]

theorem getLast?_paddingMask
    (width : Nat)
    {ids : List Tok}
    (hIds : ids ≠ []) :
    (paddingMask width ids).getLast? = some true := by
  have hLen : ids.length ≠ 0 :=
    fun h => hIds (List.length_eq_zero_iff.mp h)
  simp [paddingMask, List.getLast?_append,
    List.getLast?_replicate, hLen]

/- The padding mask hides the padding and nothing else. -/
theorem visible_paddingMask
    {A : Type}
    (width : Nat)
    (ids : List Tok)
    (pads xs : List A)
    (hPads : pads.length = width - ids.length)
    (hXs : xs.length = ids.length) :
    visible ((pads ++ xs).zip (paddingMask width ids)) =
      xs := by
  unfold paddingMask
  rw [List.zip_append (by simp [hPads]), visible_append,
    visible_replicate_false, ← hXs, visible_replicate_true]
  rfl

@[simp] theorem length_maskPositions
    (seen : Nat)
    (attn : List Bool) :
    (maskPositions seen attn).length = attn.length := by
  induction attn generalizing seen with
  | nil => rfl
  | cons flag attn ih => simp [maskPositions, ih]

theorem maskPositions_false
    (seen n : Nat)
    (attn : List Bool) :
    maskPositions seen (List.replicate n false ++ attn) =
      List.replicate n (seen - 1) ++
        maskPositions seen attn := by
  induction n with
  | zero => rfl
  | succ n ih =>
      simp [List.replicate_succ, maskPositions, ih]

theorem maskPositions_true
    (seen n : Nat) :
    maskPositions seen (List.replicate n true) =
      List.range' seen n := by
  induction n generalizing seen with
  | zero => rfl
  | succ n ih =>
      simp [List.replicate_succ, maskPositions, ih,
        List.range'_succ]

/- The padded row of a prompt shows exactly the prompt. -/
theorem rowShows_prompt
    {H : Type}
    (model : Model Tok H)
    (padToken : Tok)
    {width : Nat}
    {ids : List Tok}
    (hLe : ids.length ≤ width) :
    RowShows
      ⟨(List.replicate (width - ids.length) padToken ++
          ids).map model.embed,
        maskPositions 0 (paddingMask width ids),
        paddingMask width ids⟩
      [] (paddingMask width ids) 0
      (ids.map model.embed) where
  attn_eq := rfl
  hidden_length := by
    rw [length_paddingMask hLe]
    simp
    omega
  positions_length := by simp
  hidden_eq := by
    rw [List.map_append]
    exact
      visible_paddingMask width ids _ _ (by simp) (by simp)
  positions_eq := by
    have hPositions :
        maskPositions 0 (paddingMask width ids) =
          List.replicate (width - ids.length) 0 ++
            List.range' 0 ids.length := by
      unfold paddingMask
      rw [maskPositions_false, maskPositions_true]
    rw [hPositions, List.length_map]
    exact
      visible_paddingMask width ids _ _ (by simp) (by simp)

/- The frame of the prefill. -/
theorem frameInv_prefill
    {H : Type}
    (model : Model Tok H)
    (padToken : Tok)
    (prompts : List (List Tok))
    (hSome : ∃ ids ∈ prompts, ids ≠ []) :
    let inputs := batchInputs padToken prompts
    let rows :=
      batchRows (inputs.ids.map (·.map model.embed))
        (inputs.attn.map (maskPositions 0)) inputs.attn
    FrameInv model prompts.length (fun _ => [])
      (fun b =>
        ((prompts[b]?).map
          (paddingMask (batchWidth prompts))).getD [])
      (fun _ => [])
      (fun b => (prompts[b]?).getD [])
      rows
      (model.stages.map (fun _ => rows.map (fun _ => [])))
      (batchStart padToken prompts : BatchState Tok H) := by
  intro inputs rows
  have hCount : rows.length = prompts.length := by
    simp [rows, batchRows, inputs, batchInputs]
  constructor
  · exact hCount
  · intro b row hRow
    rcases getElem?_batchRows hRow with
      ⟨hHidden, hPositions, hAttn⟩
    simp only [inputs, batchInputs, List.getElem?_map,
      Option.map_eq_some_iff] at hHidden hPositions hAttn
    rcases hAttn with ⟨ids, hIds, hAttn⟩
    rcases hPositions with ⟨_, ⟨_, hIds₁, rfl⟩, hPositions⟩
    rcases hHidden with ⟨_, ⟨_, hIds₂, rfl⟩, hHidden⟩
    rw [hIds] at hIds₁ hIds₂
    rcases Option.some.inj hIds₁ with rfl
    rcases Option.some.inj hIds₂ with rfl
    rcases row with ⟨hidden, positionIds, attn⟩
    simp only at hHidden hPositions hAttn
    subst hHidden hPositions hAttn
    simp only [hIds, Option.map_some, Option.getD_some]
    exact
      rowShows_prompt model padToken
        (le_batchWidth (List.mem_of_getElem? hIds))
  · intro b hb
    rcases hSome with ⟨ids, hMem, hIds⟩
    have hWidth : 0 < batchWidth prompts :=
      Nat.lt_of_lt_of_le (List.length_pos_iff.mpr hIds)
        (le_batchWidth hMem)
    have hLen :=
      length_paddingMask
        (le_batchWidth (List.getElem_mem hb))
    simp only [List.getElem?_eq_getElem hb, Option.map_some,
      Option.getD_some]
    rw [← List.length_pos_iff]
    omega
  · intro b hNonempty hb
    simp only [List.getElem?_eq_getElem hb, Option.map_some,
      Option.getD_some, List.nil_append] at hNonempty ⊢
    exact getLast?_paddingMask _ hNonempty
  · have hFresh := batchKVs_fresh model.stages rows
    rwa [hCount] at hFresh
  · simp [batchStart, batchInputs]
  · intro b flags hFlags
    simp only [batchStart, batchInputs, List.getElem?_map]
      at hFlags
    simp [hFlags]
  · simp [batchStart, batchInputs]
  · intro b n hn
    simp only [batchStart, batchInputs, List.getElem?_map,
      Option.map_eq_some_iff] at hn
    rcases hn with ⟨_, ⟨ids, hIds, rfl⟩, rfl⟩
    simp [hIds, count_paddingMask]

end CircuitDllm

------------------------------------------------------------
-- The Decode Steps
------------------------------------------------------------

namespace CircuitDllm

variable {Tok H : Type} [Inhabited Tok]
variable {model : Model Tok H}
variable {eos : Tok → Bool} {prompts : List (List Tok)}
variable {caps : List Int}
variable {fault : Nat → Option SpecError}

/- The token a row feeds next. -/
def feedOf (s : BatchState Tok H) (b : Nat) : List Tok :=
  [(s.nxt[b]?).getD default]

/- The state with a real column added to every row. -/
def grow (s : BatchState Tok H) : BatchState Tok H :=
  { s with
    curAttn := s.curAttn.map (· ++ [true])
    lengths := s.lengths.map (· + 1) }

/- The frame of a decode step. -/
theorem frameInv_decode
    {held : Nat → List Bool}
    {toks : Nat → List Tok}
    {s : BatchState Tok H}
    (hInv : BatchInv model prompts.length held toks s) :
    FrameInv model prompts.length held (fun _ => [true])
      toks (feedOf s)
      (batchRows
        ((s.nxt.map ([·])).map (·.map model.embed))
        (s.lengths.map ([·])) (grow s).curAttn)
      s.caches (grow s) := by
  constructor
  · simp [batchRows, grow, hInv.nxt_length,
      hInv.lengths_length, hInv.attn_length]
  · intro b row hRow
    rcases getElem?_batchRows hRow with
      ⟨hHidden, hPositions, hAttn⟩
    simp only [grow, List.getElem?_map,
      Option.map_eq_some_iff] at hHidden hPositions hAttn
    rcases hAttn with ⟨flags, hFlags, hAttn⟩
    rcases hPositions with ⟨n, hn, hPositions⟩
    rcases hHidden with ⟨_, ⟨t, hT, rfl⟩, hHidden⟩
    rcases row with ⟨hidden, positionIds, attn⟩
    simp only at hHidden hPositions hAttn
    subst hHidden hPositions hAttn
    exact
      { attn_eq := by rw [hInv.attn_eq b flags hFlags]
        hidden_length := rfl
        positions_length := rfl
        hidden_eq := by simp [feedOf, hT]
        positions_eq := by
          rw [hInv.lengths_eq b n hn]
          simp [feedOf] }
  · intro b _
    simp
  · intro b _ _
    rfl
  · exact hInv.kvs
  · simp [grow, hInv.attn_length]
  · intro b flags hFlags
    simp only [grow, List.getElem?_map,
      Option.map_eq_some_iff] at hFlags
    rcases hFlags with ⟨flags, hFlags, rfl⟩
    rw [hInv.attn_eq b flags hFlags]
  · simp [grow, hInv.lengths_length]
  · intro b n hn
    simp only [grow, List.getElem?_map,
      Option.map_eq_some_iff] at hn
    rcases hn with ⟨n, hn, rfl⟩
    rw [hInv.lengths_eq b n hn]
    simp [feedOf]

/- Feeding the picks feeds the next greedy token. -/
theorem FedGreedy.next
    {held : Nat → List Bool}
    {toks : Nat → List Tok}
    {s : BatchState Tok H}
    {k : Nat}
    (hFed : FedGreedy model.next prompts k toks)
    (hInv : BatchInv model prompts.length held toks s) :
    FedGreedy model.next prompts (k + 1)
      (fun b => toks b ++ feedOf s b) := by
  intro b ids hIds hNonempty
  have hToks := hFed b ids hIds hNonempty
  rcases List.getElem?_eq_some_iff.mp hIds with ⟨hLt, _⟩
  have hT :=
    List.getElem?_eq_getElem
      (show b < s.nxt.length by
        rw [hInv.nxt_length]
        exact hLt)
  have hPick :=
    hInv.nxt_eq b _ hT (by rw [hToks]; simp [hNonempty])
  rw [Causal.greedy_succ, ← List.append_assoc, ← hToks,
    ← hPick]
  simp [feedOf, hT]

/-
  What a batch has yielded when its generator ended: every
  non-empty prompt's greedy tokens, or, when a relay raised,
  initial segments of them.
-/
def BatchOutcome
    (f : List Tok → Tok)
    (eos : Tok → Bool)
    (fault : Nat → Option SpecError)
    (prompts : List (List Tok))
    (caps : List Int)
    (yielded : List (Nat × Tok))
    (ended : Except SpecError Unit) : Prop :=
  (ended = .ok () ∧
    ∀ b ids cap,
      prompts[b]? = some ids → ids ≠ [] →
      caps[b]? = some cap →
      rowTokens yielded b =
        greedyCut f eos ids cap.toNat) ∨
  (∃ pos e,
    fault pos = some e ∧ ended = .error e ∧
      ∀ b ids cap,
        prompts[b]? = some ids → ids ≠ [] →
        caps[b]? = some cap →
        rowTokens yielded b <+:
          greedyCut f eos ids cap.toNat)

/- A batch whose next relay raises ends in prefixes. -/
omit [Inhabited Tok] in
theorem RowsOk.raised
    {f : List Tok → Tok}
    {k pos : Nat}
    {e : SpecError}
    {progress : List RowProgress}
    {yielded : List (Nat × Tok)}
    (hRows : RowsOk f eos prompts caps k progress yielded)
    (hFault : fault pos = some e) :
    BatchOutcome f eos fault prompts caps yielded
      (.error e) := by
  right
  refine ⟨pos, e, hFault, rfl, ?_⟩
  intro b ids cap hIds hNonempty hCap
  rcases List.getElem?_eq_some_iff.mp hIds with ⟨hLt, _⟩
  have hP :=
    List.getElem?_eq_getElem
      (show b < progress.length by
        rw [hRows.length_eq]
        exact hLt)
  have hRow := hRows.row b ids cap _ hIds hNonempty hCap hP
  exact hRow.out_prefix

/- A batch with no row left to serve has all its tokens. -/
omit [Inhabited Tok] in
theorem RowsOk.drained
    {f : List Tok → Tok}
    {k : Nat}
    {progress : List RowProgress}
    {yielded : List (Nat × Tok)}
    (hRows :
      RowsOk f eos prompts caps (k + 1) progress yielded)
    (hStop :
      progress.all (·.done) = true ∨
        ∀ cap ∈ caps, cap ≤ ((k + 1 : Nat) : Int)) :
    BatchOutcome f eos fault prompts caps yielded
      (.ok ()) := by
  left
  refine ⟨rfl, ?_⟩
  intro b ids cap hIds hNonempty hCap
  rcases List.getElem?_eq_some_iff.mp hIds with ⟨hLt, _⟩
  have hP :=
    List.getElem?_eq_getElem
      (show b < progress.length by
        rw [hRows.length_eq]
        exact hLt)
  have hRow := hRows.row b ids cap _ hIds hNonempty hCap hP
  apply hRow.out_eq
  intro hOpen
  rcases hStop with hAll | hCaps
  · rw [List.all_eq_true] at hAll
    have hDone := hAll _ (List.mem_of_getElem? hP)
    rw [hDone] at hOpen
    cases hOpen
  · exact
      ⟨hCaps cap (List.mem_of_getElem? hCap),
        Nat.succ_pos k⟩

omit [Inhabited Tok] in
/- A step of the decode loop whose relay raises. -/
theorem batchLoop_error
    {padOut : StageKV H → H}
    {fault : Nat → Option SpecError}
    {steps step : Nat}
    {s : BatchState Tok H}
    {e : SpecError}
    (hOpen : s.progress.all (·.done) = false)
    (hStep :
      batchStep model padOut eos caps fault (step + 1)
          (s.nxt.map ([·])) (s.lengths.map ([·])) (grow s) =
        .error e) :
    batchLoop model padOut eos caps fault (steps + 1) step s =
      (.error e, s) := by
  unfold grow at hStep
  rw [batchLoop, if_neg (by simp [hOpen])]
  simp only [hStep]

omit [Inhabited Tok] in
/- A step that goes through, and what is left of the loop. -/
theorem batchLoop_ok
    {padOut : StageKV H → H}
    {fault : Nat → Option SpecError}
    {steps step : Nat}
    {s s' : BatchState Tok H}
    (hOpen : s.progress.all (·.done) = false)
    (hStep :
      batchStep model padOut eos caps fault (step + 1)
          (s.nxt.map ([·])) (s.lengths.map ([·])) (grow s) =
        .ok s') :
    batchLoop model padOut eos caps fault (steps + 1) step s =
      batchLoop model padOut eos caps fault steps (step + 1)
        s' := by
  unfold grow at hStep
  rw [batchLoop, if_neg (by simp [hOpen])]
  simp only [hStep]

/- The decode loop drains the batch unless a relay raises. -/
theorem batchLoop_outcome
    (padOut : StageKV H → H)
    (fault : Nat → Option SpecError)
    (hCaps : caps.length = prompts.length)
    (steps step : Nat)
    {held : Nat → List Bool}
    {toks : Nat → List Tok}
    {s : BatchState Tok H}
    (hInv : BatchInv model prompts.length held toks s)
    (hFed : FedGreedy model.next prompts step toks)
    (hRows :
      RowsOk model.next eos prompts caps (step + 1)
        s.progress s.yielded)
    (hSteps :
      ∀ cap ∈ caps,
        cap ≤ ((step + 1 + steps : Nat) : Int)) :
    ∃ ended s',
      batchLoop model padOut eos caps fault steps step s =
        (ended, s') ∧
      BatchOutcome model.next eos fault prompts caps
        s'.yielded ended := by
  induction steps generalizing step held toks s with
  | zero =>
      exact
        ⟨_, _, rfl, hRows.drained (Or.inr hSteps)⟩
  | succ steps ih =>
      cases hAll : s.progress.all (·.done) with
      | true =>
          refine ⟨.ok (), s, ?_, hRows.drained (.inl hAll)⟩
          rw [batchLoop, if_pos hAll]
      | false =>
          cases hFault : fault (step + 1) with
          | some e =>
              refine
                ⟨.error e, s, ?_, hRows.raised hFault⟩
              apply batchLoop_error hAll
              simp [batchStep, hFault]
          | none =>
              rcases batchStep_inv padOut hCaps hFault rfl
                  (by rw [relayBatch, if_neg (by omega)]; rfl)
                  (frameInv_decode hInv)
                  (hFed.next hInv) hRows with
                ⟨s₁, hStep, hInv₁, hRows₁⟩
              rcases ih (step + 1) hInv₁ (hFed.next hInv)
                  hRows₁
                  (by
                    intro cap hCap
                    have := hSteps cap hCap
                    omega) with
                ⟨ended, s', hRest, hOutcome⟩
              refine ⟨ended, s', ?_, hOutcome⟩
              rw [batchLoop_ok hAll hStep]
              exact hRest

/-
  A batch with a non-empty prompt: no shape is refused and
  nothing else raises, so it is drained, or the fault raised
  and the rows have prefixes.
-/
theorem generateBatchStream_outcome
    (model : Model Tok H)
    (padOut : StageKV H → H)
    (padToken : Tok)
    (eos : Tok → Bool)
    (fault : Nat → Option SpecError)
    (prompts : List (List Tok))
    (caps : List Int)
    (hCaps : caps.length = prompts.length)
    (hSome : ∃ ids ∈ prompts, ids ≠ []) :
    BatchOutcome model.next eos fault prompts caps
      (generateBatchStream model padOut padToken eos fault
        prompts caps).1
      (generateBatchStream model padOut padToken eos fault
        prompts caps).2 := by
  have hStart :
      RowsOk model.next eos prompts caps 0
        (batchStart padToken prompts :
          BatchState Tok H).progress
        (batchStart padToken prompts :
          BatchState Tok H).yielded := by
    constructor
    · simp [batchStart]
    · intro b ids cap p _ _ _ hP
      simp only [batchStart, List.getElem?_map,
        Option.map_eq_some_iff] at hP
      rcases hP with ⟨_, _, rfl⟩
      constructor
      · intro hDone
        cases hDone
      · intro _
        simp [batchStart]
  unfold generateBatchStream
  cases hFault : fault 0 with
  | some e =>
      simpa [batchStep, hFault, batchStart] using
        hStart.raised hFault
  | none =>
      have hFrame :=
        frameInv_prefill model padToken prompts hSome
      have hFed :
          FedGreedy model.next prompts 0
            (fun b => [] ++ (prompts[b]?).getD []) := by
        intro b ids hIds _
        simp [hIds]
      rcases batchStep_inv padOut hCaps hFault rfl rfl
          hFrame hFed hStart with
        ⟨s, hStep, hInv, hRows⟩
      simp only [hStep]
      cases hMax : caps.max? with
      | none =>
          rcases hSome with ⟨ids, hMem, _⟩
          rw [List.max?_eq_none_iff] at hMax
          rw [hMax] at hCaps
          have hNil :=
            List.length_eq_zero_iff.mp hCaps.symm
          simp [hNil] at hMem
      | some cap =>
          have hLe :
              ∀ c ∈ caps,
                c ≤ ((0 + 1 + (cap - 1).toNat : Nat) : Int) := by
            intro c hc
            have hMaxLe :=
              (List.max?_le_iff hMax).mp le_rfl c hc
            omega
          rcases batchLoop_outcome padOut fault hCaps
              (cap - 1).toNat 0 hInv hFed hRows hLe with
            ⟨ended, s', hLoop, hOutcome⟩
          simp only [hLoop]
          exact hOutcome

end CircuitDllm

------------------------------------------------------------
-- Rows of a Batch
------------------------------------------------------------

namespace CircuitDllm

variable {Tok H : Type}

@[simp] theorem length_emitRows
    (eos : Tok → Bool)
    (b : Nat)
    (caps : List Int)
    (nxt : List Tok)
    (progress : List RowProgress) :
    (emitRows eos b caps nxt progress).2.length =
      progress.length := by
  induction progress generalizing b caps nxt with
  | nil => simp [emitRows]
  | cons p progress ih =>
      cases caps with
      | nil => simp [emitRows]
      | cons cap caps =>
          cases nxt with
          | nil => simp [emitRows]
          | cons t nxt => simp [emitRows, ih]

/- The rows of a state are those of its batch. -/
def RowsIn
    (rowCount : Nat)
    (s : BatchState Tok H) : Prop :=
  s.progress.length = rowCount ∧
    ∀ q ∈ s.yielded, q.1 < rowCount

theorem batchStep_rows
    {model : Model Tok H}
    {padOut : StageKV H → H}
    {eos : Tok → Bool}
    {caps : List Int}
    {fault : Nat → Option SpecError}
    {pos rowCount : Nat}
    {ids : List (List Tok)}
    {positionIds : List (List Nat)}
    {s s' : BatchState Tok H}
    (hRows : RowsIn rowCount s)
    (hStep :
      batchStep model padOut eos caps fault pos ids
        positionIds s = .ok s') :
    RowsIn rowCount s' := by
  unfold batchStep at hStep
  split at hStep
  next => cases hStep
  next =>
    split at hStep
    next => cases hStep
    next hidden caches _ =>
      split at hStep
      next => cases hStep
      next nxt _ =>
        rcases Except.ok.inj hStep with rfl
        refine ⟨by simpa using hRows.1, ?_⟩
        intro q hq
        rcases List.mem_append.mp hq with hq | hq
        · exact hRows.2 q hq
        · have hRow :=
            (emitRows_rows eos 0 caps nxt s.progress q hq).2
          have hLen := hRows.1
          omega

theorem batchLoop_rows
    {model : Model Tok H}
    {padOut : StageKV H → H}
    {eos : Tok → Bool}
    {caps : List Int}
    {fault : Nat → Option SpecError}
    {rowCount : Nat}
    (steps step : Nat)
    {s : BatchState Tok H}
    (hRows : RowsIn rowCount s) :
    RowsIn rowCount
      (batchLoop model padOut eos caps fault steps step
        s).2 := by
  induction steps generalizing step s with
  | zero => exact hRows
  | succ steps ih =>
      unfold batchLoop
      split
      next => exact hRows
      next =>
        dsimp only
        split
        next => exact hRows
        next s₁ hStep =>
          have hGrown : RowsIn rowCount (grow s) := hRows
          exact ih (step + 1) (batchStep_rows hGrown hStep)

/- A batch yields tokens for its own rows only. -/
theorem generateBatchStream_rows
    (model : Model Tok H)
    (padOut : StageKV H → H)
    (padToken : Tok)
    (eos : Tok → Bool)
    (fault : Nat → Option SpecError)
    (prompts : List (List Tok))
    (caps : List Int) :
    ∀ q ∈ (generateBatchStream model padOut padToken eos
        fault prompts caps).1,
      q.1 < prompts.length := by
  have hStart :
      RowsIn prompts.length
        (batchStart padToken prompts :
          BatchState Tok H) := by
    constructor
    · simp [batchStart]
    · simp [batchStart]
  unfold generateBatchStream
  simp only
  split
  next => simp
  next s hStep =>
    have hRows := batchStep_rows hStart hStep
    split
    next => exact hRows.2
    next cap _ =>
      exact
        (batchLoop_rows (cap - 1).toNat 0 hRows).2

end CircuitDllm
