import CircuitDllm.SpecDecode.Exact

/-
  Speculative decoding over a target that can fail
  (engine/specdecode.py).

  A call of the target may raise, which ends the decode, or
  a rollback may be lost, which does not.  As long as none
  is lost before a further round, the decode emits greedy
  tokens only, wherever it is cut off.

  Main declarations:
    * `FailStopSpec`
    * `rollbackCall`, `Rounds`, `KeepsRollbacks`
    * `Rounds.sound`
    * `speculativeGreedy_failStop`
    * `speculativeGreedyStream_failStop`
-/

------------------------------------------------------------
-- Targets That Fail
------------------------------------------------------------

namespace CircuitDllm

variable {S D Tok Feat : Type}

/-
  What a call that returns has done.  `Lost t length`: the
  rollback to `length` does not reach all of the KV behind
  the state `t`.
-/
structure FailStopSpec
    (target : Target S Tok Feat)
    (f : List Tok → Tok)
    (Holds : S → List Tok → Prop)
    (Lost : S → Nat → Prop) : Prop where
  forward :
    ∀ t kv ids picks t', Holds t kv →
      target.forwardTokens ids kv.length t =
          (.ok picks, t') →
        picks = Causal.feed f kv ids ∧ Holds t' (kv ++ ids)
  rollback :
    ∀ t kv length t', Holds t kv → 0 < length →
      length ≤ kv.length → ¬ Lost t length →
        target.rollback length t = (.ok (), t') →
          Holds t' (kv.take length)

/- A prompt prefill that returns. -/
def Prefills
    (target : Target S Tok Feat)
    (f : List Tok → Tok)
    (Holds : S → List Tok → Prop)
    (prompt : List Tok)
    (t₀ : S) : Prop :=
  ∀ picks t head,
    target.forwardTokens prompt 0 t₀ = (.ok picks, t) →
      picks.getLast? = some head →
        head = f prompt ∧ Holds t prompt ∧
          target.kvLen t = prompt.length

variable [DecidableEq Tok]

/- The rollback a round asks for, and the state it meets. -/
def rollbackCall
    (target : Target S Tok Feat)
    (draft : Draft D Tok Feat)
    (K : Nat)
    (perturb : Option (Nat → Tok → Tok))
    (s : SpecState S D Tok) :
    Option (S × Nat) :=
  let hidden :=
    if draft.needsHidden then
      some (target.lastHidden s.target)
    else none
  match draft.propose s.head K s.pos perturb hidden
      s.draft with
  | (.error _, _) => none
  | (.ok drafts, _) =>
    match target.forwardTokens (s.head :: drafts) s.pos
        s.target with
    | (.error _, _) => none
    | (.ok tlogits, t) =>
      (leadingMatches K tlogits drafts).map
        (fun m => (t, s.pos + m + 1))

end CircuitDllm

------------------------------------------------------------
-- One Round
------------------------------------------------------------

namespace CircuitDllm

variable {S D Tok Feat : Type} [DecidableEq Tok]
variable {target : Target S Tok Feat}
variable {draft : Draft D Tok Feat}
variable {f : List Tok → Tok}
variable {Holds : S → List Tok → Prop}
variable {Lost : S → Nat → Prop}
variable {K : Nat} {perturb : Option (Nat → Tok → Tok)}

/- The accepted drafts are picks, for lists of any length. -/
theorem of_leadingMatches
    {K m : Nat}
    {picks drafts : List Tok}
    (hMatches : leadingMatches K picks drafts = some m) :
    m ≤ drafts.length ∧
      ∀ i, i < m → drafts[i]? = picks[i]? := by
  induction K generalizing m picks drafts with
  | zero =>
      rcases Option.some.inj hMatches with rfl
      exact ⟨Nat.zero_le _, by simp⟩
  | succ K ih =>
      cases picks with
      | nil => cases hMatches
      | cons pick picks =>
          cases drafts with
          | nil => cases hMatches
          | cons draft drafts =>
              unfold leadingMatches at hMatches
              split at hMatches
              next hEq =>
                rcases Option.map_eq_some_iff.mp hMatches with
                  ⟨n, hN, rfl⟩
                rcases ih hN with ⟨hLe, hAgree⟩
                refine ⟨by simpa using hLe, ?_⟩
                intro i hI
                cases i with
                | zero => simp [hEq]
                | succ i =>
                    simpa using
                      hAgree i (Nat.lt_of_succ_lt_succ hI)
              next =>
                rcases Option.some.inj hMatches with rfl
                exact ⟨Nat.zero_le _, by simp⟩

/- What a round that returns has done. -/
theorem specRound_ok
    {s s' : SpecState S D Tok}
    {r : RoundResult Tok}
    (hRound :
      specRound target draft K perturb s = (.ok r, s')) :
    ∃ drafts picks t,
      target.forwardTokens (s.head :: drafts) s.pos
          s.target = (.ok picks, t) ∧
        leadingMatches K picks drafts = some r.accepted ∧
        picks[r.accepted]? = some r.extra ∧
        r.committed =
          drafts.take r.accepted ++ [r.extra] ∧
        rollbackCall target draft K perturb s =
          some (t, s.pos + r.accepted + 1) ∧
        target.rollback (s.pos + r.accepted + 1) t =
          (.ok (), s'.target) ∧
        s'.out = s.out ++ r.committed ∧
        s'.head = r.extra ∧
        s'.pos = s.pos + r.accepted + 1 := by
  rcases specRound_returns hRound with
    ⟨drafts, picks, t, d, t', hPropose, hForward, hMatches,
      hExtra, hRollback, hCommitted, rfl⟩
  refine
    ⟨drafts, picks, t, hForward, hMatches, hExtra, hCommitted,
      ?_, hRollback, rfl, rfl, rfl⟩
  simp only [rollbackCall, hPropose, hForward, hMatches,
    Option.map_some]

/- The tokens emitted so far are greedy tokens. -/
structure Emitted
    (f : List Tok → Tok)
    (prompt : List Tok)
    (s : SpecState S D Tok) : Prop where
  out_eq : s.out = s.out.dropLast ++ [s.head]
  greedy_eq : s.out = Causal.greedy f prompt s.out.length
  pos_eq : s.pos = (prompt ++ s.out.dropLast).length

/-
  A round on the right KV commits greedy tokens.  If its
  rollback is not lost, the KV is right after it too.
-/
theorem specRound_emits
    (hSpec : FailStopSpec target f Holds Lost)
    {prompt : List Tok}
    {s s' : SpecState S D Tok}
    {r : RoundResult Tok}
    (hEmitted : Emitted f prompt s)
    (hHolds : Holds s.target (prompt ++ s.out.dropLast))
    (hRound :
      specRound target draft K perturb s = (.ok r, s')) :
    Emitted f prompt s' ∧
      s'.out = s.out ++ r.committed ∧
      r.committed ≠ [] ∧
      ∃ t length,
        rollbackCall target draft K perturb s =
            some (t, length) ∧
          (¬ Lost t length →
            Holds s'.target
              (prompt ++ s'.out.dropLast)) := by
  rcases specRound_ok hRound with
    ⟨drafts, picks, t, hForward, hMatches, hExtra,
      hCommitted, hCall, hRollback, hOut, hHead, hPos⟩
  rw [hEmitted.pos_eq] at hForward
  rcases hSpec.forward _ _ _ _ _ hHolds hForward with
    ⟨rfl, hHolds₁⟩
  rcases of_leadingMatches hMatches with ⟨hLe, hAgree⟩
  rcases accepted_eq_greedy f (prompt ++ s.out.dropLast)
      s.head drafts r.accepted hLe hAgree with
    ⟨extra, hPick, hGreedy⟩
  rcases Option.some.inj (hPick.symm.trans hExtra) with rfl
  have hFed :
      prompt ++ s.out.dropLast ++ [s.head] =
        prompt ++ s.out := by
    rw [List.append_assoc, ← hEmitted.out_eq]
  rw [← hCommitted, hFed] at hGreedy
  have hLen : r.committed.length = r.accepted + 1 := by
    rw [hGreedy, Causal.length_greedy]
  have hDropLast :
      s'.out.dropLast =
        s.out ++ drafts.take r.accepted := by
    rw [hOut, hCommitted, ← List.append_assoc,
      List.dropLast_concat]
  refine ⟨⟨?_, ?_, ?_⟩, hOut, ?_, t, _, hCall, ?_⟩
  · rw [hDropLast, hOut, hCommitted, hHead,
      List.append_assoc]
  · rw [hOut, List.length_append, hLen, Causal.greedy_add,
      ← hEmitted.greedy_eq, ← hGreedy]
  · rw [hPos, hEmitted.pos_eq, hDropLast,
      ← List.append_assoc, ← hFed]
    simp [List.length_take, Nat.min_eq_left hLe]
    omega
  · rw [hCommitted]
    simp
  · intro hKept
    have hFits :
        s.pos + r.accepted + 1 ≤
          (prompt ++ s.out.dropLast ++
            s.head :: drafts).length := by
      rw [hEmitted.pos_eq]
      simp only [List.length_append, List.length_cons]
      omega
    have hKeep :=
      hSpec.rollback _ _ _ _ hHolds₁ (Nat.succ_pos _)
        hFits hKept hRollback
    have hTaken :
        (prompt ++ s.out.dropLast ++ s.head :: drafts).take
            (s.pos + r.accepted + 1) =
          prompt ++ s'.out.dropLast := by
      rw [hEmitted.pos_eq, Nat.add_assoc,
        List.take_length_add_append, List.take_succ_cons,
        hDropLast, ← List.append_assoc, ← hFed]
      simp
    rw [hTaken] at hKeep
    exact hKeep

end CircuitDllm

------------------------------------------------------------
-- Runs
------------------------------------------------------------

namespace CircuitDllm

variable {S D Tok Feat : Type} [DecidableEq Tok]

/- A decode that has emitted `out` has a round to go. -/
def GoesOn
    (eos : Tok → Bool)
    (nNew : Nat)
    (out : List Tok) : Prop :=
  out.length < nNew ∧ ∀ tok ∈ out, eos tok = false

/-
  The states at the heads of the rounds of one decode that
  stops before an EOS or at `nNew` tokens.
-/
inductive Rounds
    (target : Target S Tok Feat)
    (draft : Draft D Tok Feat)
    (prompt : List Tok)
    (nNew K : Nat)
    (eos : Tok → Bool)
    (perturb : Option (Nat → Tok → Tok))
    (stats : Option SpecStats)
    (t₀ : S)
    (d₀ : D) :
    SpecState S D Tok → Prop where
| start {head t d} :
    specPrefill target draft prompt t₀ d₀ =
      (.ok head, t, d) →
    Rounds target draft prompt nNew K eos perturb stats
      t₀ d₀
      (specStart target draft prompt stats head t d)
| next {s r s'} :
    Rounds target draft prompt nNew K eos perturb stats
      t₀ d₀ s →
    GoesOn eos nNew s.out →
    specRound target draft K perturb s = (.ok r, s') →
    Rounds target draft prompt nNew K eos perturb stats
      t₀ d₀ s'

/- No rollback that a further round follows is lost. -/
def KeepsRollbacks
    (target : Target S Tok Feat)
    (draft : Draft D Tok Feat)
    (Lost : S → Nat → Prop)
    (prompt : List Tok)
    (nNew K : Nat)
    (eos : Tok → Bool)
    (perturb : Option (Nat → Tok → Tok))
    (stats : Option SpecStats)
    (t₀ : S)
    (d₀ : D) : Prop :=
  ∀ s r s' t length,
    Rounds target draft prompt nNew K eos perturb stats
      t₀ d₀ s →
    GoesOn eos nNew s.out →
    specRound target draft K perturb s = (.ok r, s') →
    GoesOn eos nNew s'.out →
    rollbackCall target draft K perturb s =
      some (t, length) →
    ¬ Lost t length

variable {target : Target S Tok Feat}
variable {draft : Draft D Tok Feat}
variable {f : List Tok → Tok}
variable {Holds : S → List Tok → Prop}
variable {Lost : S → Nat → Prop}
variable {nNew K : Nat} {eos : Tok → Bool}
variable {perturb : Option (Nat → Tok → Tok)}
variable {stats : Option SpecStats}
variable {prompt : List Tok} {t₀ : S} {d₀ : D}

/-
  At the head of every round the tokens emitted are greedy
  ones, and the forward to come runs on the KV of all of
  them but the last.
-/
theorem Rounds.sound
    (hSpec : FailStopSpec target f Holds Lost)
    (hPrefill : Prefills target f Holds prompt t₀)
    (hKept :
      KeepsRollbacks target draft Lost prompt nNew K eos
        perturb stats t₀ d₀)
    {s : SpecState S D Tok}
    (hRounds :
      Rounds target draft prompt nNew K eos perturb stats
        t₀ d₀ s) :
    Emitted f prompt s ∧
      (GoesOn eos nNew s.out →
        Holds s.target (prompt ++ s.out.dropLast)) := by
  induction hRounds with
  | @start head t d hOk =>
      rcases specPrefill_returns hOk with
        ⟨picks, hForward, hLast, rfl⟩
      rcases hPrefill _ _ _ hForward hLast with
        ⟨rfl, hHolds, hLen⟩
      refine ⟨⟨?_, ?_, ?_⟩, ?_⟩
      · simp [specStart]
      · simp [specStart, Causal.greedy]
      · simpa [specStart] using hLen
      · intro _
        simpa [specStart] using hHolds
  | @next s r s' hRounds hGoesOn hRound ih =>
      rcases ih with ⟨hEmitted, hHolds⟩
      rcases specRound_emits hSpec hEmitted
          (hHolds hGoesOn) hRound with
        ⟨hEmitted', _, _, t, length, hCall, hKeep⟩
      refine ⟨hEmitted', fun hMore => hKeep ?_⟩
      exact hKept s r s' t length hRounds hGoesOn hRound
        hMore hCall

/- The loop returns with enough greedy tokens. -/
theorem specLoop_emits
    (hSpec : FailStopSpec target f Holds Lost)
    (hPrefill : Prefills target f Holds prompt t₀)
    (hKept :
      KeepsRollbacks target draft Lost prompt nNew K
        (fun _ => false) perturb stats t₀ d₀)
    (fuel : Nat)
    {s s' : SpecState S D Tok}
    (hRounds :
      Rounds target draft prompt nNew K (fun _ => false)
        perturb stats t₀ d₀ s)
    (hLoop :
      specLoop target draft K perturb nNew fuel s =
        (.ok (), s')) :
    s'.out = Causal.greedy f prompt s'.out.length ∧
      nNew ≤ s'.out.length := by
  have hGreedy :=
    (hRounds.sound hSpec hPrefill hKept).1.greedy_eq
  induction fuel generalizing s with
  | zero =>
      unfold specLoop at hLoop
      split at hLoop
      · cases hLoop
      next hDone =>
        cases hLoop
        exact ⟨hGreedy, Nat.le_of_not_lt hDone⟩
  | succ fuel ih =>
      unfold specLoop at hLoop
      split at hLoop
      next hLt =>
        split at hLoop
        · cases hLoop
        · rename_i r s₁ hRound
          have hNext :=
            Rounds.next hRounds ⟨hLt, by simp⟩ hRound
          exact ih hNext hLoop
            (hNext.sound hSpec hPrefill hKept).1.greedy_eq
      next hDone =>
        cases hLoop
        exact ⟨hGreedy, Nat.le_of_not_lt hDone⟩

/- What speculative_greedy returns, if it returns. -/
theorem speculativeGreedy_failStop
    (hSpec : FailStopSpec target f Holds Lost)
    (hPrefill : Prefills target f Holds prompt t₀)
    (hKept :
      KeepsRollbacks target draft Lost prompt nNew K
        (fun _ => false) perturb stats t₀ d₀)
    {out : List Tok}
    {lastStats : SpecStats}
    {stats' : Option SpecStats}
    (hOk :
      (speculativeGreedy target draft prompt nNew K perturb
          stats t₀ d₀).1 =
        .ok (out, lastStats, stats')) :
    out = Causal.greedy f prompt nNew := by
  unfold speculativeGreedy at hOk
  split at hOk
  · cases hOk
  · rename_i head t d hStart
    simp only at hOk
    split at hOk
    · cases hOk
    · rename_i s hLoop
      cases hOk
      rcases specLoop_emits hSpec hPrefill hKept nNew
          (Rounds.start hStart) hLoop with
        ⟨hGreedy, hLen⟩
      rw [hGreedy]
      exact Causal.take_greedy f prompt hLen

/- Tokens without an EOS within the limit are a cut. -/
omit [DecidableEq Tok] in
theorem prefix_cut
    {out : List Tok}
    (hGreedy : out = Causal.greedy f prompt out.length)
    (hOut : ∀ tok ∈ out, eos tok = false)
    (hLen : out.length ≤ nNew) :
    out <+:
      (Causal.greedy f prompt nNew).takeWhile
        (fun tok => !eos tok) := by
  rcases Causal.greedy_prefix f prompt hLen with
    ⟨rest, hRest⟩
  rw [← hRest, ← hGreedy, List.takeWhile_append_of_pos]
  · exact List.prefix_append _ _
  · intro tok hTok
    simp [hOut tok hTok]

/- As many tokens as were asked for are the whole cut. -/
omit [DecidableEq Tok] in
theorem full_cut
    {out : List Tok}
    (hGreedy : out = Causal.greedy f prompt out.length)
    (hOut : ∀ tok ∈ out, eos tok = false)
    (hLen : out.length = nNew) :
    out =
      (Causal.greedy f prompt nNew).takeWhile
        (fun tok => !eos tok) := by
  rw [← hLen, ← hGreedy]
  symm
  rw [List.takeWhile_eq_self_iff]
  simpa using hOut

/-
  Wherever the stream loop ends, it has yielded a cut, and
  all of it unless it raised.
-/
theorem specStreamLoop_cuts
    (hSpec : FailStopSpec target f Holds Lost)
    (hPrefill : Prefills target f Holds prompt t₀)
    (hKept :
      KeepsRollbacks target draft Lost prompt nNew K eos
        perturb stats t₀ d₀)
    (fuel : Nat)
    {s : SpecState S D Tok}
    (hRounds :
      Rounds target draft prompt nNew K eos perturb stats
        t₀ d₀ s)
    (hOut : ∀ tok ∈ s.out, eos tok = false)
    (hLen : s.out.length ≤ nNew) :
    let r :=
      specStreamLoop target draft K perturb eos nNew fuel s
    let cut :=
      (Causal.greedy f prompt nNew).takeWhile
        (fun tok => !eos tok)
    r.2.out <+: cut ∧ (r.1 = .ok () → r.2.out = cut) := by
  have hSound := hRounds.sound hSpec hPrefill hKept
  have hCut : s.out <+: _ :=
    prefix_cut hSound.1.greedy_eq hOut hLen
  have hFull :
      ¬ s.out.length < nNew →
        s.out =
          (Causal.greedy f prompt nNew).takeWhile
            (fun tok => !eos tok) :=
    fun hNot =>
      full_cut hSound.1.greedy_eq hOut
        (Nat.le_antisymm hLen (Nat.le_of_not_lt hNot))
  induction fuel generalizing s with
  | zero =>
      refine ⟨hCut, fun hEnded => hFull fun hLt => ?_⟩
      simp only [specStreamLoop, hLt, if_true] at hEnded
      cases hEnded
  | succ fuel ih =>
      unfold specStreamLoop
      split
      next hLt =>
        split
        next e s₁ hRound =>
          -- a round that raises has emitted nothing
          have hSame : s₁.out = s.out := by
            unfold specRound at hRound
            split at hRound
            · cases hRound
              rfl
            · cases hRound
          refine ⟨?_, fun hEnded => by cases hEnded⟩
          rw [hSame]
          exact hCut
        next r s₁ hRound =>
          have hNext := Rounds.next hRounds ⟨hLt, hOut⟩ hRound
          have hSound₁ := hNext.sound hSpec hPrefill hKept
          have hAppend : s₁.out = s.out ++ r.committed := by
            rcases specRound_ok hRound with
              ⟨_, _, _, _, _, _, _, _, _, hAppend, _⟩
            exact hAppend
          rcases yieldCommitted_spec eos nNew s.out
              r.committed hOut hLen with
            ⟨hYield, hNoEos, hLen₁⟩ | ⟨hYield, hStop⟩
          · rw [hYield, ← hAppend]
            rw [← hAppend] at hNoEos hLen₁
            exact ih hNext hNoEos hLen₁ hSound₁
              (prefix_cut hSound₁.1.greedy_eq hNoEos hLen₁)
              (fun hNot =>
                full_cut hSound₁.1.greedy_eq hNoEos
                  (Nat.le_antisymm hLen₁
                    (Nat.le_of_not_lt hNot)))
          · rw [hYield]
            rw [← hAppend, hSound₁.1.greedy_eq] at hStop ⊢
            rw [Causal.length_greedy] at hStop
            simp only
            rw [cut_greedy f prompt eos nNew _ hStop]
            exact ⟨List.prefix_refl _, fun _ => rfl⟩
      next hDone => exact ⟨hCut, fun _ => hFull hDone⟩

/-
  What speculative_greedy_stream has yielded when it ends or
  raises: the greedy tokens before an EOS, or, if it raised,
  their start.
-/
theorem speculativeGreedyStream_cuts
    (hSpec : FailStopSpec target f Holds Lost)
    (hPrefill : Prefills target f Holds prompt t₀)
    (hKept :
      KeepsRollbacks target draft Lost prompt nNew K eos
        perturb stats t₀ d₀) :
    let r :=
      speculativeGreedyStream target draft prompt nNew K eos
        perturb stats t₀ d₀
    let cut :=
      (Causal.greedy f prompt (max 1 nNew)).takeWhile
        (fun tok => !eos tok)
    r.yielded <+: cut ∧ (r.ended = .ok () → r.yielded = cut)
      := by
  unfold speculativeGreedyStream
  split
  · exact ⟨List.nil_prefix, fun hEnded => by cases hEnded⟩
  · rename_i head t d hStart
    have hRounds :
        Rounds target draft prompt nNew K eos perturb stats
          t₀ d₀
          (specStart target draft prompt stats head t d) :=
      Rounds.start hStart
    have hSound := hRounds.sound hSpec hPrefill hKept
    split
    next hEos =>
      refine ⟨List.nil_prefix, fun _ => ?_⟩
      -- the first greedy token is an EOS
      have hHead : [head] = Causal.greedy f prompt 1 :=
        hSound.1.greedy_eq
      rcases Causal.greedy_prefix f prompt
          (Nat.le_max_left 1 nNew) with
        ⟨rest, hRest⟩
      rw [← hRest, ← hHead]
      simp [hEos]
    next hEos =>
      have hOut :
          ∀ tok ∈
            (specStart target draft prompt stats head t
              d).out, eos tok = false := by
        simpa [specStart] using hEos
      rcases Nat.eq_zero_or_pos nNew with rfl | hPos
      · -- the loop is not entered
        exact
          ⟨prefix_cut hSound.1.greedy_eq hOut
              (Nat.le_refl _),
            fun _ => full_cut hSound.1.greedy_eq hOut rfl⟩
      · rw [Nat.max_eq_right hPos]
        exact
          specStreamLoop_cuts hSpec hPrefill hKept nNew
            hRounds hOut hPos

/- Whatever happens, the tokens yielded start the cut. -/
theorem speculativeGreedyStream_failStop
    (hSpec : FailStopSpec target f Holds Lost)
    (hPrefill : Prefills target f Holds prompt t₀)
    (hKept :
      KeepsRollbacks target draft Lost prompt nNew K eos
        perturb stats t₀ d₀) :
    (speculativeGreedyStream target draft prompt nNew K eos
        perturb stats t₀ d₀).yielded <+:
      (Causal.greedy f prompt (max 1 nNew)).takeWhile
        (fun tok => !eos tok) :=
  (speculativeGreedyStream_cuts hSpec hPrefill hKept).1

end CircuitDllm
