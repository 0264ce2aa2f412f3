import CircuitDllm.Kv.Pipeline

/-
  Greedy speculative decoding (engine/specdecode.py).

  The loops run against two protocols: a target that answers
  the greedy pick at every position of a forward, and a
  draft that proposes tokens.  Both carry their own state,
  and a call that raises leaves the state it had reached.

  Main declarations:
    * `Target`, `Draft`
    * `verifyRound`
    * `speculativeGreedy`
    * `speculativeGreedyStream`
    * `greedyDraft`, `kvTarget`, `splitTarget`
-/

------------------------------------------------------------
-- Protocols
------------------------------------------------------------

namespace CircuitDllm

/- What a decode loop can raise. -/
inductive SpecError where
  /- a relay failed on the wire or on a socket -/
  | wire
  /- GreedyDraft.propose: kv_len() == start_pos -/
  | assertion (kvLen startPos : Nat)
  /- a list was indexed past its end -/
  | index
  /- a forward at a position that is not the KV length -/
  | position
  /- tensors that do not fit, or one that is missing -/
  | tensor
  /- the loop counter of the model ran out -/
  | fuel
deriving DecidableEq, Repr

/- A stateful call that may raise. -/
abbrev Call (S A : Type) := S → Except SpecError A × S

/-
  forward_tokens returns, for each fed token, the argmax of
  its logits row; last_hidden is one feature a position.
-/
structure Target (S Tok Feat : Type) where
  forwardTokens : List Tok → Nat → Call S (List Tok)
  kvLen : S → Nat
  rollback : Nat → Call S Unit
  lastHidden : S → List Feat

/-
  A draft proposes K tokens after `head`.  The eagle hooks
  run only when `needsHidden` is set.
-/
structure Draft (S Tok Feat : Type) where
  needsHidden : Bool
  prefill : List Tok → S → S
  propose :
    Tok → Nat → Nat → Option (Nat → Tok → Tok) →
      Option (List Feat) → Call S (List Tok)
  rollback : Nat → S → S
  eaglePrefill : List Tok → List Feat → S → S
  eagleCommit : List Tok → List Feat → S → S

/- Draft statistics, with an optional recent window. -/
structure SpecStats where
  rounds : Nat := 0
  accepted : Nat := 0
  proposed : Nat := 0
  window : Option (List (Nat × Nat)) := none
deriving DecidableEq, Repr

/- Record one round of `m` accepted out of `K` proposed. -/
def SpecStats.bump
    (stats : SpecStats)
    (m K : Nat) :
    SpecStats where
  rounds := stats.rounds + 1
  accepted := stats.accepted + m
  proposed := stats.proposed + K
  window := stats.window.map (· ++ [(m, K)])

/- The state a decode loop carries from round to round. -/
structure SpecState (S D Tok : Type) where
  target : S
  draft : D
  -- the tokens committed (and yielded) so far
  out : List Tok
  head : Tok
  pos : Nat
  lastStats : SpecStats
  stats : Option SpecStats

end CircuitDllm

------------------------------------------------------------
-- One Verification Round
------------------------------------------------------------

namespace CircuitDllm

variable {S D Tok Feat : Type} [DecidableEq Tok]

/-
  The accept loop over j in range(K): how many leading
  drafts the target agrees with.  Indexing past the end of
  either list raises.
-/
def leadingMatches :
    Nat → List Tok → List Tok → Option Nat
| 0, _, _ => some 0
| K + 1, pick :: picks, draft :: drafts =>
    if pick = draft then
      (leadingMatches K picks drafts).map (· + 1)
    else some 0
| _ + 1, _, _ => none

/- The tokens one round commits, and what it measured. -/
structure RoundResult (Tok : Type) where
  committed : List Tok
  extra : Tok
  accepted : Nat

/-
  Propose, verify in one forward, roll both caches back to
  the accepted prefix.
-/
def verifyRound
    (target : Target S Tok Feat)
    (draft : Draft D Tok Feat)
    (K : Nat)
    (perturb : Option (Nat → Tok → Tok))
    (head : Tok)
    (pos : Nat)
    (t : S)
    (d : D) :
    Except SpecError (RoundResult Tok) × S × D :=
  let hidden :=
    if draft.needsHidden then some (target.lastHidden t)
    else none
  match draft.propose head K pos perturb hidden d with
  | (.error e, d) => (.error e, t, d)
  | (.ok drafts, d) =>
    match target.forwardTokens (head :: drafts) pos t with
    | (.error e, t) => (.error e, t, d)
    | (.ok tlogits, t) =>
      match leadingMatches K tlogits drafts with
      | none => (.error .index, t, d)
      | some m =>
        match tlogits[m]? with
        | none => (.error .index, t, d)
        | some extra =>
          let accepted := drafts.take m
          let d :=
            if draft.needsHidden then
              draft.eagleCommit (head :: accepted)
                ((target.lastHidden t).take (m + 1)) d
            else d
          let keep := pos + m + 1
          match target.rollback keep t with
          | (.error e, t) => (.error e, t, d)
          | (.ok (), t) =>
            (.ok
              { committed := accepted ++ [extra]
                extra := extra
                accepted := m },
              t, draft.rollback keep d)

end CircuitDllm

------------------------------------------------------------
-- The Two Loops
------------------------------------------------------------

namespace CircuitDllm

variable {S D Tok Feat : Type} [DecidableEq Tok]

/-
  Prefill the target and the draft; the first token comes
  from the last logits row.
-/
def specPrefill
    (target : Target S Tok Feat)
    (draft : Draft D Tok Feat)
    (prompt : List Tok)
    (t : S)
    (d : D) :
    Except SpecError Tok × S × D :=
  match target.forwardTokens prompt 0 t with
  | (.error e, t) => (.error e, t, d)
  | (.ok logits, t) =>
    let d := draft.prefill prompt d
    match logits.getLast? with
    | none => (.error .index, t, d)
    | some head => (.ok head, t, d)

/- The state before the first round. -/
def specStart
    (target : Target S Tok Feat)
    (draft : Draft D Tok Feat)
    (prompt : List Tok)
    (stats : Option SpecStats)
    (head : Tok)
    (t : S)
    (d : D) :
    SpecState S D Tok where
  target := t
  draft :=
    if draft.needsHidden then
      draft.eaglePrefill prompt (target.lastHidden t) d
    else d
  out := [head]
  head := head
  pos := target.kvLen t
  lastStats := {}
  stats := stats

/- One round of speculative_greedy. -/
def specRound
    (target : Target S Tok Feat)
    (draft : Draft D Tok Feat)
    (K : Nat)
    (perturb : Option (Nat → Tok → Tok))
    (s : SpecState S D Tok) :
    Except SpecError (RoundResult Tok) ×
      SpecState S D Tok :=
  match verifyRound target draft K perturb s.head s.pos
      s.target s.draft with
  | (.error e, t, d) =>
    (.error e, { s with target := t, draft := d })
  | (.ok r, t, d) =>
    (.ok r,
      { target := t
        draft := d
        out := s.out ++ r.committed
        head := r.extra
        pos := s.pos + r.accepted + 1
        lastStats := s.lastStats.bump r.accepted K
        stats := s.stats.map (·.bump r.accepted K) })

/-
  while len(out) < n_new.  Every round commits a token, so
  `n_new` rounds are enough.
-/
def specLoop
    (target : Target S Tok Feat)
    (draft : Draft D Tok Feat)
    (K : Nat)
    (perturb : Option (Nat → Tok → Tok))
    (nNew : Nat) :
    Nat → SpecState S D Tok →
      Except SpecError Unit × SpecState S D Tok
| 0, s =>
    (if s.out.length < nNew then .error .fuel else .ok (), s)
| fuel + 1, s =>
    if s.out.length < nNew then
      match specRound target draft K perturb s with
      | (.error e, s) => (.error e, s)
      | (.ok _, s) =>
        specLoop target draft K perturb nNew fuel s
    else (.ok (), s)

/-
  Returns the generated token ids with last_stats and the
  caller's accumulator, and the states it leaves.
-/
def speculativeGreedy
    (target : Target S Tok Feat)
    (draft : Draft D Tok Feat)
    (prompt : List Tok)
    (nNew K : Nat)
    (perturb : Option (Nat → Tok → Tok))
    (stats : Option SpecStats)
    (t : S)
    (d : D) :
    Except SpecError
      (List Tok × SpecStats × Option SpecStats) × S × D :=
  match specPrefill target draft prompt t d with
  | (.error e, t, d) => (.error e, t, d)
  | (.ok head, t, d) =>
    let start :=
      specStart target draft prompt stats head t d
    match specLoop target draft K perturb nNew nNew start with
    | (.error e, s) => (.error e, s.target, s.draft)
    | (.ok (), s) =>
      (.ok (s.out.take nNew, s.lastStats, s.stats),
        s.target, s.draft)

/-
  The inner loop over a round's committed tokens: what has
  been yielded after it, and whether the stream returned.
-/
def yieldCommitted
    (eos : Tok → Bool)
    (nNew : Nat)
    (out : List Tok) :
    List Tok → List Tok × Bool
| [] => (out, false)
| tok :: committed =>
    if eos tok ∨ nNew ≤ out.length then (out, true)
    else yieldCommitted eos nNew (out ++ [tok]) committed

/-
  while produced < n_new of the streaming variant; `out`
  holds the tokens yielded.
-/
def specStreamLoop
    (target : Target S Tok Feat)
    (draft : Draft D Tok Feat)
    (K : Nat)
    (perturb : Option (Nat → Tok → Tok))
    (eos : Tok → Bool)
    (nNew : Nat) :
    Nat → SpecState S D Tok →
      Except SpecError Unit × SpecState S D Tok
| 0, s =>
    (if s.out.length < nNew then .error .fuel else .ok (), s)
| fuel + 1, s =>
    if s.out.length < nNew then
      match specRound target draft K perturb s with
      | (.error e, s) => (.error e, s)
      | (.ok r, s') =>
        match yieldCommitted eos nNew s.out r.committed with
        | (out, true) => (.ok (), { s' with out := out })
        | (out, false) =>
          specStreamLoop target draft K perturb eos nNew
            fuel { s' with out := out }
    else (.ok (), s)

/- The tokens a stream yielded, and how it ended. -/
structure StreamResult (S D Tok : Type) where
  yielded : List Tok
  ended : Except SpecError Unit
  stats : Option SpecStats
  target : S
  draft : D

/- The streaming variant. -/
def speculativeGreedyStream
    (target : Target S Tok Feat)
    (draft : Draft D Tok Feat)
    (prompt : List Tok)
    (nNew K : Nat)
    (eos : Tok → Bool)
    (perturb : Option (Nat → Tok → Tok))
    (stats : Option SpecStats)
    (t : S)
    (d : D) :
    StreamResult S D Tok :=
  match specPrefill target draft prompt t d with
  | (.error e, t, d) => ⟨[], .error e, stats, t, d⟩
  | (.ok head, t, d) =>
    if eos head then ⟨[], .ok (), stats, t, d⟩
    else
      let start :=
        specStart target draft prompt stats head t d
      match specStreamLoop target draft K perturb eos nNew
          nNew start with
      | (ended, s) =>
        ⟨s.out, ended, s.stats, s.target, s.draft⟩

end CircuitDllm

------------------------------------------------------------
-- Prefills and Rounds That Return
------------------------------------------------------------

namespace CircuitDllm

variable {S D Tok Feat : Type}
variable {target : Target S Tok Feat}
variable {draft : Draft D Tok Feat}

/- What a prefill that returns has done. -/
theorem specPrefill_returns
    {prompt : List Tok}
    {first : Tok}
    {t₀ t : S}
    {d₀ d : D}
    (hPrefill :
      specPrefill target draft prompt t₀ d₀ =
        (.ok first, t, d)) :
    ∃ picks,
      target.forwardTokens prompt 0 t₀ = (.ok picks, t) ∧
        picks.getLast? = some first ∧
        d = draft.prefill prompt d₀ := by
  unfold specPrefill at hPrefill
  split at hPrefill
  · cases hPrefill
  · rename_i picks t' hForward
    split at hPrefill
    · cases hPrefill
    · rename_i first' hLast
      cases hPrefill
      exact ⟨picks, hForward, hLast, rfl⟩

variable [DecidableEq Tok]

/- What a round that returns has done. -/
theorem specRound_returns
    {K : Nat}
    {perturb : Option (Nat → Tok → Tok)}
    {s s' : SpecState S D Tok}
    {r : RoundResult Tok}
    (hRound :
      specRound target draft K perturb s = (.ok r, s')) :
    ∃ drafts picks t d t',
      draft.propose s.head K s.pos perturb
            (if draft.needsHidden then
              some (target.lastHidden s.target)
            else none) s.draft =
          (.ok drafts, d) ∧
        target.forwardTokens (s.head :: drafts) s.pos
            s.target = (.ok picks, t) ∧
        leadingMatches K picks drafts = some r.accepted ∧
        picks[r.accepted]? = some r.extra ∧
        target.rollback (s.pos + r.accepted + 1) t =
          (.ok (), t') ∧
        r.committed =
          drafts.take r.accepted ++ [r.extra] ∧
        s' =
          { target := t'
            draft :=
              draft.rollback (s.pos + r.accepted + 1)
                (if draft.needsHidden then
                  draft.eagleCommit
                    (s.head :: drafts.take r.accepted)
                    ((target.lastHidden t).take
                      (r.accepted + 1)) d
                else d)
            out := s.out ++ r.committed
            head := r.extra
            pos := s.pos + r.accepted + 1
            lastStats := s.lastStats.bump r.accepted K
            stats := s.stats.map (·.bump r.accepted K) } := by
  unfold specRound at hRound
  split at hRound
  · cases hRound
  · rename_i r' t' d' hVerify
    cases hRound
    unfold verifyRound at hVerify
    simp only at hVerify
    split at hVerify
    · cases hVerify
    · rename_i drafts d₁ hPropose
      split at hVerify
      · cases hVerify
      · rename_i picks t hForward
        split at hVerify
        · cases hVerify
        · rename_i m hMatches
          split at hVerify
          · cases hVerify
          · rename_i extra hExtra
            split at hVerify
            · cases hVerify
            · rename_i t₂ hRollback
              cases hVerify
              exact
                ⟨drafts, picks, t, d₁, _, hPropose, hForward,
                  hMatches, hExtra, hRollback, rfl, rfl⟩

end CircuitDllm

------------------------------------------------------------
-- Targets and Drafts
------------------------------------------------------------

namespace CircuitDllm

variable {Tok H Feat : Type} [DecidableEq Tok]

/-
  The abstract target: a next-token function and the list of
  the tokens fed so far.  It answers only forwards at the
  end of that list.
-/
def kvTarget
    (f : List Tok → Tok)
    (feature : List Tok → Feat) :
    Target (List Tok × List Feat) Tok Feat where
  forwardTokens ids startPos := fun (kv, hidden) =>
    if kv.length = startPos then
      (.ok (Causal.feed f kv ids),
        kv ++ ids, Causal.feed feature kv ids)
    else (.error .position, kv, hidden)
  kvLen s := s.1.length
  rollback length := fun (kv, hidden) =>
    (.ok (), kv.take length, hidden)
  lastHidden s := s.2

/- Embedding, split stages with a KV each, norm and head. -/
def splitTarget
    (model : Model Tok H) :
    Target (List (StageKV H) × List H) Tok H where
  forwardTokens ids startPos := fun (kvs, _) =>
    let (hidden, kvs) :=
      runStages model.stages kvs (ids.map model.embed)
        startPos
    (.ok (hidden.map model.lmHead), kvs, hidden)
  kvLen s := (s.1.head?.map (·.getSeqLength)).getD 0
  rollback length := fun (kvs, hidden) =>
    (.ok (), kvs.map (·.truncateTo length), hidden)
  lastHidden s := s.2

/- Feed `cur`, perturb and record the pick, K times over. -/
def greedyPropose
    (g : List (Tok × Nat) → Tok)
    (perturb : Option (Nat → Tok → Tok)) :
    Nat → Nat → Tok → StageKV Tok →
      List Tok × Tok × StageKV Tok
| 0, _, cur, cache => ([], cur, cache)
| n + 1, i, cur, cache =>
    let cache := cache ++ [(cur, cache.getSeqLength)]
    let nxt := g cache
    let nxt :=
      match perturb with
      | none => nxt
      | some perturb => perturb i nxt
    let (props, last, cache) :=
      greedyPropose g perturb n (i + 1) nxt cache
    (nxt :: props, last, cache)

/-
  A full model run greedily with its own KV.  The last
  proposal is processed too, so the draft's cache grows by
  K + 1.
-/
def greedyDraft
    (g : List (Tok × Nat) → Tok) :
    Draft (StageKV Tok) Tok Feat where
  needsHidden := false
  prefill prompt cache :=
    cache ++ prompt.zipIdx cache.getSeqLength
  propose head K startPos perturb _ := fun cache =>
    if cache.getSeqLength = startPos then
      let (props, last, cache) :=
        greedyPropose g perturb K 0 head cache
      (.ok props, cache ++ [(last, cache.getSeqLength)])
    else
      (.error (.assertion cache.getSeqLength startPos),
        cache)
  rollback length cache := cache.truncateTo length
  eaglePrefill _ _ cache := cache
  eagleCommit _ _ cache := cache

end CircuitDllm
