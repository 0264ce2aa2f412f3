import CircuitDllm.SpecDecode.Loop
import Mathlib.Data.List.TakeWhile

/-
  Speculative decoding returns the greedy tokens.

  `TargetSpec` says which KV a target state holds and what
  its calls do to it; `DraftSpec` says when a draft can be
  asked for K tokens.  One verification round preserves
  `RoundInv`, so both loops end in an initial segment of the
  greedy run.

  Main declarations:
    * `verifyRound_spec`
    * `specRound_inv`
    * `speculativeGreedy_eq`
    * `speculativeGreedyStream_eq`
-/

------------------------------------------------------------
-- Protocol Laws
------------------------------------------------------------

namespace CircuitDllm

variable {S D Tok Feat : Type}

/-
  `Holds t kv`: the KV behind the state `t` is `kv`.  A
  forward at its end answers `f` at every new position.
-/
structure TargetSpec
    (target : Target S Tok Feat)
    (f : List Tok → Tok)
    (Holds : S → List Tok → Prop) : Prop where
  forward :
    ∀ t kv ids, ids ≠ [] → Holds t kv →
      ∃ t',
        target.forwardTokens ids kv.length t =
            (.ok (Causal.feed f kv ids), t') ∧
          Holds t' (kv ++ ids)
  kvLen :
    ∀ t kv, Holds t kv → target.kvLen t = kv.length
  rollback :
    ∀ t kv length, Holds t kv → length ≤ kv.length →
      ∃ t',
        target.rollback length t = (.ok (), t') ∧
          Holds t' (kv.take length)

/-
  `Ready d pos`: the draft can propose at `pos`.
  `Asked d pos`: it has, and can be rolled back into the
  positions it proposed for.
-/
structure DraftSpec
    (draft : Draft D Tok Feat)
    (K : Nat)
    (perturb : Option (Nat → Tok → Tok))
    (d₀ : D)
    (Ready Asked : D → Nat → Prop) : Prop where
  prefill :
    ∀ prompt, Ready (draft.prefill prompt d₀) prompt.length
  eaglePrefill :
    ∀ prompt hidden d pos, Ready d pos →
      Ready (draft.eaglePrefill prompt hidden d) pos
  propose :
    ∀ head pos hidden d, Ready d pos →
      ∃ drafts d',
        draft.propose head K pos perturb hidden d =
            (.ok drafts, d') ∧
          drafts.length = K ∧ Asked d' pos
  eagleCommit :
    ∀ ids hidden d pos, Asked d pos →
      Asked (draft.eagleCommit ids hidden d) pos
  rollback :
    ∀ d pos m, Asked d pos → m ≤ K →
      Ready (draft.rollback (pos + m + 1) d) (pos + m + 1)

end CircuitDllm

------------------------------------------------------------
-- Accepting Drafts
------------------------------------------------------------

namespace CircuitDllm

variable {Tok : Type} [DecidableEq Tok]

/-
  With K drafts and at least K picks the accept loop stops
  inside the lists, and the accepted drafts are the picks.
-/
theorem leadingMatches_spec
    (K : Nat)
    (picks drafts : List Tok)
    (hPicks : K ≤ picks.length)
    (hDrafts : drafts.length = K) :
    ∃ m,
      leadingMatches K picks drafts = some m ∧
        m ≤ K ∧
        ∀ i, i < m → drafts[i]? = picks[i]? := by
  induction K generalizing picks drafts with
  | zero => exact ⟨0, by simp [leadingMatches], by simp⟩
  | succ K ih =>
      rcases List.exists_cons_of_length_eq_add_one hDrafts with
        ⟨draft, drafts, rfl⟩
      cases picks with
      | nil => simp at hPicks
      | cons pick picks =>
          by_cases hEq : pick = draft
          · rcases ih picks drafts (by simpa using hPicks)
                (by simpa using hDrafts) with
              ⟨m, hMatches, hLe, hAgree⟩
            refine ⟨m + 1, ?_, by omega, ?_⟩
            · simp [leadingMatches, hEq, hMatches]
            · intro i hi
              cases i with
              | zero => simp [hEq]
              | succ i =>
                  simpa using hAgree i (by omega)
          · exact
              ⟨0, by simp [leadingMatches, hEq],
                by omega, by simp⟩

/-
  Accepted drafts and the pick after them are the next
  greedy tokens.
-/
omit [DecidableEq Tok] in
theorem accepted_eq_greedy
    (f : List Tok → Tok)
    (kv : List Tok)
    (head : Tok)
    (drafts : List Tok)
    (m : Nat)
    (hm : m ≤ drafts.length)
    (hAgree :
      ∀ i, i < m →
        drafts[i]? =
          (Causal.feed f kv (head :: drafts))[i]?) :
    ∃ extra,
      (Causal.feed f kv (head :: drafts))[m]? =
          some extra ∧
        drafts.take m ++ [extra] =
          Causal.greedy f (kv ++ [head]) (m + 1) := by
  have hPick :
      ∀ i, i ≤ drafts.length →
        (Causal.feed f kv (head :: drafts))[i]? =
          some (f (kv ++ [head] ++ drafts.take i)) := by
    intro i hi
    rw [Causal.getElem?_feed f kv (head :: drafts) i
      (by simp; omega)]
    simp
  have hTake :
      drafts.take m = Causal.greedy f (kv ++ [head]) m := by
    apply Causal.agreeing_prefix_eq_greedy f _ _ m hm
    intro i hi
    rw [hAgree i hi, hPick i (by omega)]
  refine ⟨_, hPick m hm, ?_⟩
  rw [Causal.greedy_succ, hTake]

end CircuitDllm

------------------------------------------------------------
-- One Round
------------------------------------------------------------

namespace CircuitDllm

variable {S D Tok Feat : Type} [DecidableEq Tok]
variable {target : Target S Tok Feat}
variable {draft : Draft D Tok Feat}
variable {f : List Tok → Tok}
variable {Holds : S → List Tok → Prop}
variable {K : Nat} {perturb : Option (Nat → Tok → Tok)}
variable {d₀ : D} {Ready Asked : D → Nat → Prop}

/-
  A round on a KV that ends before `head` commits the next
  greedy tokens and leaves a KV that ends before its last.
-/
theorem verifyRound_spec
    (hTarget : TargetSpec target f Holds)
    (hDraft : DraftSpec draft K perturb d₀ Ready Asked)
    (kv : List Tok)
    (head : Tok)
    (t : S)
    (d : D)
    (hHolds : Holds t kv)
    (hReady : Ready d kv.length) :
    ∃ r t' d',
      verifyRound target draft K perturb head kv.length t d =
          (.ok r, t', d') ∧
        r.committed =
          Causal.greedy f (kv ++ [head])
            (r.accepted + 1) ∧
        r.committed.getLast? = some r.extra ∧
        Holds t'
          (kv ++ [head] ++ r.committed.dropLast) ∧
        Ready d' (kv.length + r.accepted + 1) := by
  rcases hDraft.propose head kv.length
      (if draft.needsHidden then some (target.lastHidden t)
        else none) d hReady with
    ⟨drafts, d₁, hPropose, hDrafts, hAsked⟩
  rcases hTarget.forward t kv (head :: drafts) (by simp) hHolds with
    ⟨t₁, hForward, hHolds₁⟩
  rcases leadingMatches_spec K
      (Causal.feed f kv (head :: drafts)) drafts
      (by simp; omega) hDrafts with
    ⟨m, hMatches, hmK, hAgree⟩
  rcases accepted_eq_greedy f kv head drafts m (by omega) hAgree with
    ⟨extra, hExtra, hGreedy⟩
  rcases hTarget.rollback t₁ (kv ++ head :: drafts)
      (kv.length + m + 1) hHolds₁ (by simp; omega) with
    ⟨t₂, hRollback, hHolds₂⟩
  have hKept :
      (kv ++ head :: drafts).take (kv.length + m + 1) =
        kv ++ [head] ++ drafts.take m := by
    rw [show kv.length + m + 1 = kv.length + (m + 1) by
      omega, List.take_length_add_append]
    simp
  simp only [verifyRound, hPropose, hForward, hMatches,
    hExtra, hRollback]
  refine ⟨_, _, _, rfl, hGreedy, by simp, ?_, ?_⟩
  · rw [hKept] at hHolds₂
    simpa using hHolds₂
  · apply hDraft.rollback _ _ m _ hmK
    split
    · exact hDraft.eagleCommit _ _ _ _ hAsked
    · exact hAsked

/- What holds at the head of every round. -/
structure RoundInv
    (f : List Tok → Tok)
    (Holds : S → List Tok → Prop)
    (Ready : D → Nat → Prop)
    (prompt : List Tok)
    (s : SpecState S D Tok) : Prop where
  out_eq : s.out = s.out.dropLast ++ [s.head]
  greedy_eq : s.out = Causal.greedy f prompt s.out.length
  holds : Holds s.target (prompt ++ s.out.dropLast)
  pos_eq : s.pos = (prompt ++ s.out.dropLast).length
  ready : Ready s.draft s.pos

/- One round preserves the invariant and commits tokens. -/
theorem specRound_inv
    (hTarget : TargetSpec target f Holds)
    (hDraft : DraftSpec draft K perturb d₀ Ready Asked)
    {prompt : List Tok}
    {s : SpecState S D Tok}
    (hInv : RoundInv f Holds Ready prompt s) :
    ∃ r s',
      specRound target draft K perturb s = (.ok r, s') ∧
        RoundInv f Holds Ready prompt s' ∧
        s'.out = s.out ++ r.committed ∧
        0 < r.committed.length := by
  have hReady := hInv.ready
  rw [hInv.pos_eq] at hReady
  rcases verifyRound_spec hTarget hDraft
      (prompt ++ s.out.dropLast) s.head s.target s.draft
      hInv.holds hReady with
    ⟨r, t, d, hRound, hGreedy, hLast, hHolds, hNext⟩
  have hOut :
      prompt ++ s.out.dropLast ++ [s.head] =
        prompt ++ s.out := by
    rw [List.append_assoc, ← hInv.out_eq]
  have hCommitted :
      r.committed.length = r.accepted + 1 := by
    rw [hGreedy, Causal.length_greedy]
  have hNe : r.committed ≠ [] := by
    intro hNil
    simp [hNil] at hCommitted
  have hSnoc :
      r.committed = r.committed.dropLast ++ [r.extra] := by
    rw [List.getLast?_eq_some_iff] at hLast
    rcases hLast with ⟨init, hInit⟩
    simp [hInit]
  have hDropLast :
      (s.out ++ r.committed).dropLast =
        s.out ++ r.committed.dropLast := by
    rw [List.dropLast_append_of_ne_nil hNe]
  rw [← hInv.pos_eq] at hRound
  refine ⟨r, _, by rw [specRound, hRound], ?_, rfl,
    by omega⟩
  constructor
  · simp only
    rw [hDropLast, List.append_assoc, ← hSnoc]
  · rw [hOut] at hGreedy
    simp only [List.length_append, hCommitted]
    rw [Causal.greedy_add, ← hInv.greedy_eq, ← hGreedy]
  · simp only
    rw [hDropLast, ← List.append_assoc, ← hOut]
    exact hHolds
  · have hLen := congrArg List.length hInv.out_eq
    have hPos := hInv.pos_eq
    simp only [List.length_append, List.length_singleton,
      hDropLast, List.length_dropLast] at hLen hPos ⊢
    omega
  · rw [← hInv.pos_eq] at hNext
    exact hNext

/- The state before the first round satisfies it. -/
omit [DecidableEq Tok] in
theorem specStart_inv
    (hTarget : TargetSpec target f Holds)
    (hDraft : DraftSpec draft K perturb d₀ Ready Asked)
    (prompt : List Tok)
    (stats : Option SpecStats)
    (t₀ : S)
    (hPrompt : prompt ≠ [])
    (hHolds : Holds t₀ []) :
    ∃ t d,
      specPrefill target draft prompt t₀ d₀ =
          (.ok (f prompt), t, d) ∧
        RoundInv f Holds Ready prompt
          (specStart target draft prompt stats
            (f prompt) t d) := by
  rcases hTarget.forward t₀ [] prompt hPrompt hHolds with
    ⟨t, hForward, hHolds'⟩
  have hLast := Causal.getLast?_feed f [] prompt hPrompt
  rw [List.nil_append] at hLast hHolds'
  rw [List.length_nil] at hForward
  refine ⟨t, draft.prefill prompt d₀, ?_, ?_⟩
  · simp only [specPrefill, hForward, hLast]
  · constructor
    · simp [specStart]
    · simp [specStart, Causal.greedy]
    · simpa [specStart] using hHolds'
    · simpa [specStart] using hTarget.kvLen t prompt hHolds'
    · have hReady := hDraft.prefill prompt
      simp only [specStart, hTarget.kvLen t prompt hHolds']
      split
      · exact hDraft.eaglePrefill _ _ _ _ hReady
      · exact hReady

end CircuitDllm

------------------------------------------------------------
-- Whole Runs
------------------------------------------------------------

namespace CircuitDllm

variable {S D Tok Feat : Type} [DecidableEq Tok]
variable {target : Target S Tok Feat}
variable {draft : Draft D Tok Feat}
variable {f : List Tok → Tok}
variable {Holds : S → List Tok → Prop}
variable {K : Nat} {perturb : Option (Nat → Tok → Tok)}
variable {d₀ : D} {Ready Asked : D → Nat → Prop}

/- The states a decode reaches at the head of its rounds. -/
inductive RoundHead
    (target : Target S Tok Feat)
    (draft : Draft D Tok Feat)
    (prompt : List Tok)
    (nNew K : Nat)
    (perturb : Option (Nat → Tok → Tok))
    (stats : Option SpecStats)
    (t₀ : S)
    (d₀ : D) :
    SpecState S D Tok → Prop where
| start {head t d} :
    specPrefill target draft prompt t₀ d₀ =
      (.ok head, t, d) →
    RoundHead target draft prompt nNew K perturb stats t₀ d₀
      (specStart target draft prompt stats head t d)
| next {s r s'} :
    RoundHead target draft prompt nNew K perturb stats
      t₀ d₀ s →
    s.out.length < nNew →
    specRound target draft K perturb s = (.ok r, s') →
    RoundHead target draft prompt nNew K perturb stats
      t₀ d₀ s'

/- The invariant holds at the head of every round. -/
theorem RoundHead.inv
    (hTarget : TargetSpec target f Holds)
    (hDraft : DraftSpec draft K perturb d₀ Ready Asked)
    {prompt : List Tok}
    {nNew : Nat}
    {stats : Option SpecStats}
    {t₀ : S}
    (hPrompt : prompt ≠ [])
    (hHolds : Holds t₀ [])
    {s : SpecState S D Tok}
    (hHead :
      RoundHead target draft prompt nNew K perturb stats
        t₀ d₀ s) :
    RoundInv f Holds Ready prompt s := by
  induction hHead with
  | start hPrefill =>
      rcases specStart_inv hTarget hDraft prompt stats t₀
          hPrompt hHolds with
        ⟨t, d, hOk, hInv⟩
      rw [hOk] at hPrefill
      cases hPrefill
      exact hInv
  | next _ _ hRound ih =>
      rcases specRound_inv hTarget hDraft ih with
        ⟨r, s', hOk, hInv, _, _⟩
      rw [hOk] at hRound
      cases hRound
      exact hInv

/- The loop ends in a state that has enough tokens. -/
theorem specLoop_inv
    (hTarget : TargetSpec target f Holds)
    (hDraft : DraftSpec draft K perturb d₀ Ready Asked)
    {prompt : List Tok}
    (nNew fuel : Nat)
    {s : SpecState S D Tok}
    (hInv : RoundInv f Holds Ready prompt s)
    (hFuel : nNew ≤ s.out.length + fuel) :
    ∃ s',
      specLoop target draft K perturb nNew fuel s =
          (.ok (), s') ∧
        RoundInv f Holds Ready prompt s' ∧
        nNew ≤ s'.out.length := by
  induction fuel generalizing s with
  | zero =>
      refine ⟨s, ?_, hInv, by omega⟩
      rw [specLoop, if_neg (by omega)]
  | succ fuel ih =>
      by_cases hLt : s.out.length < nNew
      · rcases specRound_inv hTarget hDraft hInv with
          ⟨r, s₁, hRound, hInv₁, hOut, hPos⟩
        have hLen := congrArg List.length hOut
        rw [List.length_append] at hLen
        rcases ih hInv₁ (by omega) with ⟨s', hLoop, hRest⟩
        refine ⟨s', ?_, hRest⟩
        simp only [specLoop, hLt, if_true, hRound, hLoop]
      · refine ⟨s, ?_, hInv, by omega⟩
        rw [specLoop, if_neg hLt]

/- speculative_greedy returns the first greedy tokens. -/
theorem speculativeGreedy_eq
    (hTarget : TargetSpec target f Holds)
    (hDraft : DraftSpec draft K perturb d₀ Ready Asked)
    (prompt : List Tok)
    (nNew : Nat)
    (stats : Option SpecStats)
    (t₀ : S)
    (hPrompt : prompt ≠ [])
    (hHolds : Holds t₀ []) :
    ∃ lastStats stats',
      (speculativeGreedy target draft prompt nNew K perturb
          stats t₀ d₀).1 =
        .ok (Causal.greedy f prompt nNew, lastStats,
          stats') := by
  rcases specStart_inv hTarget hDraft prompt stats t₀ hPrompt
      hHolds with
    ⟨t, d, hPrefill, hInv⟩
  rcases specLoop_inv hTarget hDraft nNew nNew hInv (by omega) with
    ⟨s, hLoop, hInv', hLen⟩
  refine ⟨s.lastStats, s.stats, ?_⟩
  simp only [speculativeGreedy, hPrefill, hLoop]
  rw [hInv'.greedy_eq, Causal.take_greedy f prompt hLen]

/-
  What the inner loop of the stream yields: everything, or a
  cut at the token limit or before the first EOS.
-/
omit [DecidableEq Tok] in
theorem yieldCommitted_spec
    (eos : Tok → Bool)
    (nNew : Nat)
    (out committed : List Tok)
    (hOut : ∀ tok ∈ out, eos tok = false)
    (hLen : out.length ≤ nNew) :
    (yieldCommitted eos nNew out committed =
        (out ++ committed, false) ∧
      (∀ tok ∈ out ++ committed, eos tok = false) ∧
      (out ++ committed).length ≤ nNew) ∨
    (yieldCommitted eos nNew out committed =
        (((out ++ committed).take nNew).takeWhile
          (fun tok => !eos tok), true) ∧
      (nNew ≤ (out ++ committed).length ∨
        ∃ tok ∈ out ++ committed, eos tok = true)) := by
  induction committed generalizing out with
  | nil =>
      left
      simpa [yieldCommitted] using ⟨hOut, hLen⟩
  | cons tok committed ih =>
      have hOutCut :
          out.takeWhile (fun tok => !eos tok) = out := by
        rw [List.takeWhile_eq_self_iff]
        simpa using hOut
      by_cases hFull : nNew ≤ out.length
      · right
        have hEq : nNew = out.length := by omega
        constructor
        · rw [yieldCommitted, if_pos (Or.inr hFull), hEq,
            List.take_left, hOutCut]
        · left
          simp only [List.length_append]
          omega
      · by_cases hEos : eos tok = true
        · right
          constructor
          · rw [yieldCommitted, if_pos (Or.inl hEos),
              List.take_append]
            rw [List.takeWhile_append_of_pos]
            · obtain ⟨k, hk⟩ :
                  ∃ k, nNew - out.length = k + 1 :=
                ⟨nNew - out.length - 1, by omega⟩
              rw [hk, List.take_of_length_le (by omega)]
              simp [hEos]
            · intro tok' hMem
              simpa using
                hOut tok' (List.mem_of_mem_take hMem)
          · right
            exact ⟨tok, by simp, hEos⟩
        · have hNext :=
            ih (out ++ [tok])
              (by
                intro tok' hMem
                rcases List.mem_append.mp hMem with h | h
                · exact hOut tok' h
                · simp only [List.mem_singleton] at h
                  simpa [h] using hEos)
              (by simp; omega)
          rw [List.append_assoc, List.singleton_append]
            at hNext
          rw [yieldCommitted,
            if_neg (by simp [hEos]; omega)]
          exact hNext

/-
  A cut greedy run that stopped at its limit or at an EOS is
  the cut of every greedy run of that limit.
-/
omit [DecidableEq Tok] in
theorem cut_greedy
    (f : List Tok → Tok)
    (prompt : List Tok)
    (eos : Tok → Bool)
    (nNew m : Nat)
    (hStop :
      nNew ≤ m ∨
        ∃ tok ∈ Causal.greedy f prompt m,
          eos tok = true) :
    ((Causal.greedy f prompt m).take nNew).takeWhile
        (fun tok => !eos tok) =
      (Causal.greedy f prompt nNew).takeWhile
        (fun tok => !eos tok) := by
  rcases Nat.le_total nNew m with hLe | hLe
  · rw [Causal.take_greedy f prompt hLe]
  · rcases hStop with hFull | ⟨tok, hMem, hEos⟩
    · obtain rfl : nNew = m := by omega
      rw [Causal.take_greedy f prompt (Nat.le_refl _)]
    · rcases Causal.greedy_prefix f prompt hLe with
        ⟨rest, hRest⟩
      rw [List.take_of_length_le (by simpa using hLe),
        ← hRest, List.takeWhile_append]
      rw [if_neg]
      intro hAll
      have hSelf :
          (Causal.greedy f prompt m).takeWhile
              (fun tok => !eos tok) =
            Causal.greedy f prompt m :=
        List.IsPrefix.eq_of_length
          (List.takeWhile_prefix _) hAll
      rw [List.takeWhile_eq_self_iff] at hSelf
      simpa [hEos] using hSelf tok hMem

/- Full output without an EOS is the cut greedy run. -/
omit [DecidableEq Tok] in
theorem RoundInv.out_eq_cut
    {prompt : List Tok}
    {s : SpecState S D Tok}
    {nNew : Nat}
    (hInv : RoundInv f Holds Ready prompt s)
    (eos : Tok → Bool)
    (hOut : ∀ tok ∈ s.out, eos tok = false)
    (hLen : s.out.length = nNew) :
    s.out =
      (Causal.greedy f prompt nNew).takeWhile
        (fun tok => !eos tok) := by
  have hGreedy := hInv.greedy_eq
  rw [hLen] at hGreedy
  rw [← hGreedy, eq_comm, List.takeWhile_eq_self_iff]
  simpa using hOut

/- The stream loop yields the greedy run cut before EOS. -/
theorem specStreamLoop_eq
    (hTarget : TargetSpec target f Holds)
    (hDraft : DraftSpec draft K perturb d₀ Ready Asked)
    {prompt : List Tok}
    (eos : Tok → Bool)
    (nNew fuel : Nat)
    {s : SpecState S D Tok}
    (hInv : RoundInv f Holds Ready prompt s)
    (hOut : ∀ tok ∈ s.out, eos tok = false)
    (hLen : s.out.length ≤ nNew)
    (hFuel : nNew ≤ s.out.length + fuel) :
    ∃ s',
      specStreamLoop target draft K perturb eos nNew fuel
          s = (.ok (), s') ∧
        s'.out =
          (Causal.greedy f prompt nNew).takeWhile
            (fun tok => !eos tok) := by
  induction fuel generalizing s with
  | zero =>
      refine ⟨s, ?_, ?_⟩
      · rw [specStreamLoop, if_neg (by omega)]
      · exact hInv.out_eq_cut eos hOut (by omega)
  | succ fuel ih =>
      by_cases hLt : s.out.length < nNew
      · rcases specRound_inv hTarget hDraft hInv with
          ⟨r, s₁, hRound, hInv₁, hOut₁, hPos⟩
        rcases yieldCommitted_spec eos nNew s.out
            r.committed hOut hLen with
          ⟨hYield, hNoEos, hLen₁⟩ | ⟨hYield, hStop⟩
        · rw [← hOut₁] at hYield hNoEos hLen₁
          obtain ⟨s', hLoop, hCut⟩ :=
            ih hInv₁ hNoEos hLen₁
              (by
                have := congrArg List.length hOut₁
                rw [List.length_append] at this
                omega)
          refine ⟨s', ?_, hCut⟩
          simp only [specStreamLoop, hLt, if_true, hRound,
            hYield, hLoop]
        · rw [← hOut₁, hInv₁.greedy_eq] at hYield hStop
          rw [Causal.length_greedy] at hStop
          refine
            ⟨{ s₁ with
                out :=
                  ((Causal.greedy f prompt
                    s₁.out.length).take nNew).takeWhile
                      (fun tok => !eos tok) },
              ?_, cut_greedy f prompt eos nNew _ hStop⟩
          simp only [specStreamLoop, hLt, if_true, hRound,
            hYield]
      · refine ⟨s, ?_, ?_⟩
        · rw [specStreamLoop, if_neg hLt]
        · exact hInv.out_eq_cut eos hOut (by omega)

/-
  speculative_greedy_stream yields the greedy tokens up to
  the limit, cut before the first EOS.
-/
theorem speculativeGreedyStream_eq
    (hTarget : TargetSpec target f Holds)
    (hDraft : DraftSpec draft K perturb d₀ Ready Asked)
    (prompt : List Tok)
    (eos : Tok → Bool)
    (nNew : Nat)
    (stats : Option SpecStats)
    (t₀ : S)
    (hPrompt : prompt ≠ [])
    (hNew : 1 ≤ nNew)
    (hHolds : Holds t₀ []) :
    let result :=
      speculativeGreedyStream target draft prompt nNew K eos
        perturb stats t₀ d₀
    result.ended = .ok () ∧
      result.yielded =
        (Causal.greedy f prompt nNew).takeWhile
          (fun tok => !eos tok) := by
  rcases specStart_inv hTarget hDraft prompt stats t₀ hPrompt
      hHolds with
    ⟨t, d, hPrefill, hInv⟩
  by_cases hEos : eos (f prompt) = true
  · rcases Nat.exists_eq_add_of_le hNew with ⟨n, rfl⟩
    simp [speculativeGreedyStream, hPrefill, hEos,
      Nat.add_comm 1 n, Causal.greedy]
  · rcases specStreamLoop_eq hTarget hDraft eos nNew nNew hInv
        (by simpa [specStart] using hEos)
        (by simpa [specStart] using hNew)
        (by omega) with
      ⟨s, hLoop, hCut⟩
    simp [speculativeGreedyStream, hPrefill, hEos, hLoop,
      hCut]

end CircuitDllm
