import Mathlib.Algebra.Ring.Nat
import CircuitDllm.SpecDecode.Exact

/-
  The targets and drafts of engine/specdecode.py obey the
  protocol laws, so speculative decoding over them is greedy
  decoding.

  Main declarations:
    * `kvTarget_spec`, `splitTarget_spec`
    * `totalDraft_spec`, `greedyDraft_spec`
    * `speculative_exact`
    * `splitTarget_exact`
-/

------------------------------------------------------------
-- Targets
------------------------------------------------------------

namespace CircuitDllm

variable {Tok H Feat : Type}

/- The abstract target holds the tokens fed so far. -/
theorem kvTarget_spec
    (f : List Tok → Tok)
    (feature : List Tok → Feat) :
    TargetSpec (kvTarget f feature) f
      (fun s kv => s.1 = kv) where
  forward := by
    rintro ⟨kv, hidden⟩ _ ids _ rfl
    refine
      ⟨(kv ++ ids, Causal.feed feature kv ids), ?_, rfl⟩
    simp [kvTarget]
  kvLen := by
    rintro ⟨kv, hidden⟩ _ rfl
    rfl
  rollback := by
    rintro ⟨kv, hidden⟩ _ length rfl _
    exact ⟨_, rfl, rfl⟩

/-
  The split target holds a token list when every stage's
  cache is the one linear decoding builds.
-/
theorem splitTarget_spec
    [Inhabited Tok]
    (model : Model Tok H)
    (hStages : model.stages ≠ []) :
    TargetSpec (splitTarget model) model.next
      (fun s kv => s.1 = model.linearKVs kv) where
  forward := by
    rintro ⟨kvs, hidden⟩ kv ids _ hKvs
    obtain rfl : kvs = model.linearKVs kv := hKvs
    have hRun :=
      runStages_linear model.stages (kv.map model.embed)
        (ids.map model.embed)
    rw [List.length_map, ← List.map_append] at hRun
    refine
      ⟨(model.linearKVs (kv ++ ids),
        (linearHidden model.stages
          ((kv ++ ids).map model.embed)).drop kv.length),
        ?_, rfl⟩
    simp only [splitTarget, Model.linearKVs, hRun]
    rw [← Model.argmaxes_eq_feed_next, List.map_drop]
    rfl
  kvLen := by
    rintro ⟨kvs, hidden⟩ kv hKvs
    obtain rfl : kvs = model.linearKVs kv := hKvs
    rcases List.exists_cons_of_ne_nil hStages with
      ⟨stage, stages, hCons⟩
    simp [splitTarget, Model.linearKVs, hCons, linearKVs]
  rollback := by
    rintro ⟨kvs, hidden⟩ kv length hKvs _
    obtain rfl : kvs = model.linearKVs kv := hKvs
    refine ⟨_, rfl, ?_⟩
    simp only [Model.linearKVs, truncate_linearKVs,
      List.map_take]

end CircuitDllm

------------------------------------------------------------
-- Drafts
------------------------------------------------------------

namespace CircuitDllm

variable {D Tok Feat : Type}

/- A draft that always proposes K tokens is always ready. -/
theorem totalDraft_spec
    (draft : Draft D Tok Feat)
    (K : Nat)
    (perturb : Option (Nat → Tok → Tok))
    (d₀ : D)
    (hPropose :
      ∀ head pos hidden d,
        ∃ drafts d',
          draft.propose head K pos perturb hidden d =
              (.ok drafts, d') ∧
            drafts.length = K) :
    DraftSpec draft K perturb d₀ (fun _ _ => True)
      (fun _ _ => True) where
  prefill _ := trivial
  eaglePrefill _ _ _ _ _ := trivial
  propose head pos hidden d _ := by
    rcases hPropose head pos hidden d with
      ⟨drafts, d', hOk, hLen⟩
    exact ⟨drafts, d', hOk, hLen, trivial⟩
  eagleCommit _ _ _ _ _ := trivial
  rollback _ _ _ _ _ := trivial

/- Proposing K tokens caches K positions. -/
theorem greedyPropose_length
    (g : List (Tok × Nat) → Tok)
    (perturb : Option (Nat → Tok → Tok))
    (n i : Nat)
    (cur : Tok)
    (cache : StageKV Tok) :
    (greedyPropose g perturb n i cur cache).1.length = n ∧
      (greedyPropose g perturb n i cur cache).2.2.length =
        cache.length + n := by
  induction n generalizing i cur cache with
  | zero => simp [greedyPropose]
  | succ n ih =>
      have hNext := fun nxt =>
        ih (i + 1) nxt
          (cache ++ [(cur, cache.getSeqLength)])
      simp only [greedyPropose]
      constructor
      · simp [(hNext _).1]
      · rw [(hNext _).2]
        simp
        omega

/-
  The greedy draft's cache ends at the round's position, so
  its assertion holds whenever it is asked.
-/
theorem greedyDraft_spec
    (g : List (Tok × Nat) → Tok)
    (K : Nat)
    (perturb : Option (Nat → Tok → Tok)) :
    DraftSpec
      (greedyDraft g : Draft (StageKV Tok) Tok Feat)
      K perturb []
      (fun cache pos => cache.getSeqLength = pos)
      (fun cache pos =>
        cache.getSeqLength = pos + K + 1) where
  prefill prompt := by
    simp [greedyDraft, StageKV.getSeqLength]
  eaglePrefill _ _ _ _ hReady := hReady
  propose head pos hidden cache hReady := by
    have hLen := greedyPropose_length g perturb K 0 head cache
    refine ⟨_, _, by simp [greedyDraft, hReady]; rfl,
      hLen.1, ?_⟩
    simp only [StageKV.getSeqLength] at hReady ⊢
    simp [hLen.2, hReady]
  eagleCommit _ _ _ _ hAsked := hAsked
  rollback cache pos m hAsked hm := by
    simp only [StageKV.getSeqLength] at hAsked
    simp only [greedyDraft, StageKV.truncateTo_eq_take,
      StageKV.getSeqLength, List.length_take, hAsked]
    omega

end CircuitDllm

------------------------------------------------------------
-- Speculative Decoding Is Greedy Decoding
------------------------------------------------------------

namespace CircuitDllm

variable {D Tok Feat : Type} [DecidableEq Tok]

/-
  Both loops over the abstract target give greedy decoding,
  and at the head of every round the target's KV is the
  prompt and everything committed but the last token.
-/
def SpecIsGreedy
    (f : List Tok → Tok)
    (feature : List Tok → Feat)
    (draft : Draft D Tok Feat)
    (d₀ : D)
    (prompt : List Tok)
    (nNew K : Nat)
    (eos : Tok → Bool)
    (perturb : Option (Nat → Tok → Tok))
    (stats : Option SpecStats) : Prop :=
  (∃ lastStats stats',
    (speculativeGreedy (kvTarget f feature) draft prompt
        nNew K perturb stats ([], []) d₀).1 =
      .ok (Causal.greedy f prompt nNew, lastStats,
        stats')) ∧
  (speculativeGreedyStream (kvTarget f feature) draft prompt
      nNew K eos perturb stats ([], []) d₀).ended =
    .ok () ∧
  (speculativeGreedyStream (kvTarget f feature) draft prompt
      nNew K eos perturb stats ([], []) d₀).yielded =
    (Causal.greedy f prompt nNew).takeWhile
      (fun tok => !eos tok) ∧
  ∀ s,
    RoundHead (kvTarget f feature) draft prompt nNew K
      perturb stats ([], []) d₀ s →
    s.target.1 = prompt ++ s.out.dropLast ∧
      s.target.1.length = s.pos

theorem specIsGreedy_of_draftSpec
    {f : List Tok → Tok}
    {draft : Draft D Tok Feat}
    {K : Nat}
    {perturb : Option (Nat → Tok → Tok)}
    {d₀ : D}
    {Ready Asked : D → Nat → Prop}
    (hDraft : DraftSpec draft K perturb d₀ Ready Asked)
    (feature : List Tok → Feat)
    (prompt : List Tok)
    (nNew : Nat)
    (eos : Tok → Bool)
    (stats : Option SpecStats)
    (hPrompt : prompt ≠ [])
    (hNew : 1 ≤ nNew) :
    SpecIsGreedy f feature draft d₀ prompt nNew K eos
      perturb stats := by
  have hTarget := kvTarget_spec f feature
  have hStream :=
    speculativeGreedyStream_eq hTarget hDraft prompt eos
      nNew stats ([], []) hPrompt hNew rfl
  refine ⟨?_, hStream.1, hStream.2, ?_⟩
  · exact
      speculativeGreedy_eq hTarget hDraft prompt nNew stats
        ([], []) hPrompt rfl
  · intro s hHead
    have hInv :=
      hHead.inv hTarget hDraft hPrompt rfl
    exact
      ⟨hInv.holds, by rw [hInv.holds, hInv.pos_eq]⟩

/-
  For every next-token function, prompt, K and draft that
  proposes K tokens, speculative decoding is greedy decoding;
  with the greedy draft nothing raises, so its assertion
  never fires.
-/
theorem speculative_exact
    (f : List Tok → Tok)
    (feature : List Tok → Feat)
    (prompt : List Tok)
    (nNew K : Nat)
    (eos : Tok → Bool)
    (perturb : Option (Nat → Tok → Tok))
    (stats : Option SpecStats)
    (hPrompt : prompt ≠ [])
    (hNew : 1 ≤ nNew) :
    (∀ (draft : Draft D Tok Feat) (d₀ : D),
      (∀ head pos hidden d,
        ∃ drafts d',
          draft.propose head K pos perturb hidden d =
              (.ok drafts, d') ∧
            drafts.length = K) →
      SpecIsGreedy f feature draft d₀ prompt nNew K eos
        perturb stats) ∧
    (∀ g : List (Tok × Nat) → Tok,
      SpecIsGreedy f feature (greedyDraft g) [] prompt nNew K
        eos perturb stats ∧
      ∀ s,
        RoundHead (kvTarget f feature) (greedyDraft g)
          prompt nNew K perturb stats ([], []) [] s →
        s.draft.getSeqLength = s.pos) := by
  constructor
  · intro draft d₀ hPropose
    exact
      specIsGreedy_of_draftSpec
        (totalDraft_spec draft K perturb d₀ hPropose)
        feature prompt nNew eos stats hPrompt hNew
  · intro g
    have hDraft :
        DraftSpec
          (greedyDraft g : Draft (StageKV Tok) Tok Feat)
          K perturb [] _ _ :=
      greedyDraft_spec g K perturb
    refine
      ⟨specIsGreedy_of_draftSpec hDraft feature prompt nNew
        eos stats hPrompt hNew, ?_⟩
    intro s hHead
    exact
      (hHead.inv (kvTarget_spec f feature) hDraft hPrompt
        rfl).ready

/- A draft that proposes the token 1 K times over. -/
def onesDraft : Draft Unit Nat Nat where
  needsHidden := true
  prefill _ d := d
  propose _ K _ _ _ := fun d => (.ok (List.replicate K 1), d)
  rollback _ d := d
  eaglePrefill _ _ d := d
  eagleCommit _ _ d := d

theorem speculative_exact_sum :
    SpecIsGreedy (fun ids : List Nat => ids.sum % 7)
        (fun ids => ids.length) onesDraft () [3, 5] 5 2
        (fun tok => tok == 6) none none ∧
      SpecIsGreedy (fun ids : List Nat => ids.sum % 7)
        (fun ids => ids.length)
        (greedyDraft (fun kv => kv.length % 3)) [] [3, 5]
        5 2 (fun tok => tok == 6) none none :=
  have hExact :=
    speculative_exact (D := Unit)
      (fun ids : List Nat => ids.sum % 7)
      (fun ids => ids.length) [3, 5] 5 2
      (fun tok => tok == 6) none none (by decide)
      (by decide)
  ⟨hExact.1 onesDraft ()
      (fun _ _ _ _ =>
        ⟨List.replicate 2 1, (), rfl, rfl⟩),
    (hExact.2 _).1⟩

/-
  Over the split pipeline the same holds for the model's own
  next-token function.
-/
theorem splitTarget_exact
    {H : Type}
    [Inhabited Tok]
    (model : Model Tok H)
    (draft : Draft D Tok H)
    (d₀ : D)
    (prompt : List Tok)
    (nNew K : Nat)
    (perturb : Option (Nat → Tok → Tok))
    (stats : Option SpecStats)
    (hStages : model.stages ≠ [])
    (hPrompt : prompt ≠ [])
    (hPropose :
      ∀ head pos hidden d,
        ∃ drafts d',
          draft.propose head K pos perturb hidden d =
              (.ok drafts, d') ∧
            drafts.length = K) :
    ∃ lastStats stats',
      (speculativeGreedy (splitTarget model) draft prompt
          nNew K perturb stats
          (model.linearKVs [], []) d₀).1 =
        .ok (Causal.greedy model.next prompt nNew,
          lastStats, stats') :=
  speculativeGreedy_eq (splitTarget_spec model hStages)
    (totalDraft_spec draft K perturb d₀ hPropose) prompt
    nNew stats _ hPrompt rfl

end CircuitDllm
