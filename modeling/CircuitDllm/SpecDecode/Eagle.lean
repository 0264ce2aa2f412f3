import CircuitDllm.SpecDecode.FailStop

/-
  The EAGLE draft (engine/eagle.py) in the loops of
  engine/specdecode.py.

  The draft keeps the committed tokens and one feature of the
  target for each.  The loops seed both after the prompt
  prefill and extend both after every verify pass, from
  tensors the target returned; the two stay aligned as long
  as the target returns a row for every token it is fed.

  Main declarations:
    * `EagleHead`, `EagleState`, `eagleDraft`
    * `Target.traced`, `Rounds.traced`
    * `ContextAligned`
    * `Rounds.aligned`
-/

------------------------------------------------------------
-- The Draft
------------------------------------------------------------

namespace CircuitDllm

/-
  The head and what it borrows of the target: the embedding
  is part of `fuse`, the final norm makes a feature of a
  hidden state.
-/
structure EagleHead (Tok H F X : Type) where
  norm : H → F
  -- fc([embed(tok) ; feature]) at one position
  fuse : Tok → F → X
  -- the last row of the layer; its first row is at `base`
  layer : List X → Nat → F
  -- argmax of the target's lm_head
  lmHead : F → Tok

/- The running context, and the length. -/
structure EagleState (Tok F : Type) where
  len : Nat := 0
  toks : List Tok := []
  feats : Option (List F) := none

namespace EagleState

variable {Tok F : Type}

/- The tokens propose fuses: positions 1..start_pos. -/
def fuseToks
    (d : EagleState Tok F)
    (headTok : Tok)
    (startPos : Nat) :
    List Tok :=
  ((d.toks ++ [headTok]).take (startPos + 1)).drop 1

/- And the features: positions 0..start_pos-1. -/
def fuseFeats
    (d : EagleState Tok F)
    (startPos : Nat) :
    Option (List F) :=
  d.feats.map (·.take startPos)

/- rollback -/
def rollback
    (length : Nat)
    (d : EagleState Tok F) :
    EagleState Tok F :=
  let d := { d with len := length }
  if length < d.toks.length then
    { d with
      toks := d.toks.take length
      feats := d.feats.map (·.take length) }
  else d

end EagleState

namespace EagleHead

variable {Tok H F X : Type} (head : EagleHead Tok H F X)

/- eagle_prefill -/
def eaglePrefill
    (prompt : List Tok)
    (hidden : List H)
    (d : EagleState Tok F) :
    EagleState Tok F :=
  { d with
    toks := prompt
    feats := some (hidden.map head.norm) }

/- eagle_commit -/
def eagleCommit
    (tokens : List Tok)
    (hidden : List H)
    (d : EagleState Tok F) :
    EagleState Tok F :=
  let f := hidden.map head.norm
  { d with
    toks := d.toks ++ tokens
    feats :=
      match d.feats with
      | none => some f
      | some feats => some (feats ++ f) }

/- The fallback: the head token with the last feature. -/
def seed
    (headTok : Tok)
    (startPos : Nat)
    (targetHidden : Option (List H))
    (d : EagleState Tok F) :
    Except SpecError (List X × Nat) :=
  let f :=
    match targetHidden with
    | some hidden => hidden.getLast?.map head.norm
    | none => d.feats.bind List.getLast?
  match f with
  | none => .error .tensor
  | some f => .ok ([head.fuse headTok f], startPos)

/- The fused input, and the position of its first row. -/
def context
    (headTok : Tok)
    (startPos : Nat)
    (targetHidden : Option (List H))
    (d : EagleState Tok F) :
    Except SpecError (List X × Nat) :=
  match d.fuseFeats startPos with
  | none => head.seed headTok startPos targetHidden d
  | some feats =>
    if startPos < 1 then
      head.seed headTok startPos targetHidden d
    else
      let toks := d.fuseToks headTok startPos
      -- torch.cat takes tensors of one length
      if toks.length = feats.length then
        .ok (List.zipWith head.fuse toks feats, 1)
      else .error .tensor

/- The K steps on the predicted features. -/
def extend
    (perturb : Option (Nat → Tok → Tok))
    (base : Nat) :
    Nat → Nat → List X → List Tok
| 0, _, _ => []
| n + 1, i, x =>
    let g := head.layer x base
    let tok := head.lmHead g
    let tok :=
      match perturb with
      | none => tok
      | some perturb => perturb i tok
    tok :: extend perturb base n (i + 1) (x ++ [head.fuse tok g])

/- propose -/
def propose
    (headTok : Tok)
    (K startPos : Nat)
    (perturb : Option (Nat → Tok → Tok))
    (targetHidden : Option (List H)) :
    Call (EagleState Tok F) (List Tok) :=
  fun d =>
    let d := { d with len := startPos }
    match head.context headTok startPos targetHidden d with
    | .error e => (.error e, d)
    | .ok (x, base) =>
      if x.isEmpty ∧ 0 < K then (.error .index, d)
      else (.ok (head.extend perturb base K 0 x), d)

/- The draft protocol, with the hooks of the loops. -/
def eagleDraft : Draft (EagleState Tok F) Tok H where
  needsHidden := true
  prefill prompt d := { d with len := prompt.length }
  propose := head.propose
  rollback := EagleState.rollback
  eaglePrefill := head.eaglePrefill
  eagleCommit := head.eagleCommit

/- A proposal leaves the context as it is. -/
theorem propose_context
    (headTok : Tok)
    (K startPos : Nat)
    (perturb : Option (Nat → Tok → Tok))
    (targetHidden : Option (List H))
    (d : EagleState Tok F) :
    (head.propose headTok K startPos perturb targetHidden
        d).2 =
      { d with len := startPos } := by
  unfold propose
  simp only
  split
  · rfl
  · split <;> rfl

end EagleHead

end CircuitDllm

------------------------------------------------------------
-- The Rows a Target Returned
------------------------------------------------------------

namespace CircuitDllm

variable {S D Tok Feat : Type}

/-
  The tokens of a forward and the rows it returned: the rows
  belong to the last tokens, the others got none.
-/
def rowsFor
    (ids : List Tok)
    (hidden : List Feat) :
    List (Tok × Option Feat) :=
  ids.zip
    (List.replicate (ids.length - hidden.length) none ++
      hidden.map some)

theorem rowsFor_eq
    {ids : List Tok}
    {hidden : List Feat}
    (hLength : hidden.length = ids.length) :
    rowsFor ids hidden = ids.zip (hidden.map some) := by
  rw [rowsFor, hLength, Nat.sub_self, List.replicate_zero,
    List.nil_append]

/-
  A target that also keeps, for every position of its KV, the
  token and the row it last returned for it.
-/
def Target.traced
    (target : Target S Tok Feat) :
    Target (S × List (Tok × Option Feat)) Tok Feat where
  forwardTokens ids startPos := fun (t, rows) =>
    match target.forwardTokens ids startPos t with
    | (.error e, t) => (.error e, t, rows)
    | (.ok picks, t) =>
      (.ok picks, t,
        rows.take startPos ++ rowsFor ids (target.lastHidden t))
  kvLen s := target.kvLen s.1
  rollback length := fun (t, rows) =>
    match target.rollback length t with
    | (.error e, t) => (.error e, t, rows)
    | (.ok (), t) => (.ok (), t, rows.take length)
  lastHidden s := target.lastHidden s.1

/- A state of a decode with the rows beside the target. -/
def SpecState.withRows
    (s : SpecState S D Tok)
    (rows : List (Tok × Option Feat)) :
    SpecState (S × List (Tok × Option Feat)) D Tok where
  target := (s.target, rows)
  draft := s.draft
  out := s.out
  head := s.head
  pos := s.pos
  lastStats := s.lastStats
  stats := s.stats

variable [DecidableEq Tok]
variable {target : Target S Tok Feat}
variable {draft : Draft D Tok Feat}
variable {nNew K : Nat} {eos : Tok → Bool}
variable {perturb : Option (Nat → Tok → Tok)}
variable {stats : Option SpecStats}
variable {prompt : List Tok} {t₀ : S} {d₀ : D}

omit [DecidableEq Tok] in
/- A forward that returns replaces the rows it wrote. -/
theorem Target.traced_forward
    {ids picks : List Tok}
    {startPos : Nat}
    {t t' : S × List (Tok × Option Feat)}
    (hForward :
      target.traced.forwardTokens ids startPos t =
        (.ok picks, t')) :
    ∃ inner,
      target.forwardTokens ids startPos t.1 =
          (.ok picks, inner) ∧
        t' =
          (inner,
            t.2.take startPos ++
              rowsFor ids (target.lastHidden inner)) := by
  simp only [Target.traced] at hForward
  split at hForward
  · cases hForward
  · rename_i picks' inner hInner
    cases hForward
    exact ⟨inner, hInner, rfl⟩

omit [DecidableEq Tok] in
theorem Target.traced_rollback
    {length : Nat}
    {t t' : S × List (Tok × Option Feat)}
    (hRollback :
      target.traced.rollback length t = (.ok (), t')) :
    t'.2 = t.2.take length := by
  simp only [Target.traced] at hRollback
  split at hRollback
  · cases hRollback
  · cases hRollback
    rfl

theorem specRound_traced
    {s s' : SpecState S D Tok}
    {r : RoundResult Tok}
    (hRound :
      specRound target draft K perturb s = (.ok r, s'))
    (rows : List (Tok × Option Feat)) :
    ∃ rows',
      specRound target.traced draft K perturb
          (s.withRows rows) =
        (.ok r, s'.withRows rows') := by
  rcases specRound_returns hRound with
    ⟨drafts, picks, t, d, t', hPropose, hForward, hMatches,
      hExtra, hRollback, hCommitted, rfl⟩
  refine
    ⟨(rows.take s.pos ++
        rowsFor (s.head :: drafts) (target.lastHidden t)).take
      (s.pos + r.accepted + 1), ?_⟩
  simp only [specRound, verifyRound, SpecState.withRows,
    Target.traced, hPropose, hForward, hMatches, hExtra,
    hRollback]
  rw [← hCommitted]

/- The rows are kept beside the run and do not change it. -/
theorem Rounds.traced
    {s : SpecState S D Tok}
    (hRounds :
      Rounds target draft prompt nNew K eos perturb stats
        t₀ d₀ s)
    (rows : List (Tok × Option Feat)) :
    ∃ rows',
      Rounds target.traced draft prompt nNew K eos perturb
        stats (t₀, rows) d₀ (s.withRows rows') := by
  induction hRounds with
  | @start head t d hOk =>
      rcases specPrefill_returns hOk with
        ⟨picks, hForward, hLast, rfl⟩
      refine
        ⟨rows.take 0 ++ rowsFor prompt (target.lastHidden t), ?_⟩
      have hStart :
          specPrefill target.traced draft prompt (t₀, rows)
              d₀ =
            (.ok head,
              (t, rows.take 0 ++
                rowsFor prompt (target.lastHidden t)),
              draft.prefill prompt d₀) := by
        simp only [specPrefill, Target.traced, hForward,
          hLast]
      exact Rounds.start hStart
  | @next s r s' hRounds hGoesOn hRound ih =>
      rcases ih with ⟨rows', hTraced⟩
      rcases specRound_traced hRound rows' with
        ⟨rows'', hStep⟩
      exact ⟨rows'', Rounds.next hTraced hGoesOn hStep⟩

end CircuitDllm

------------------------------------------------------------
-- Alignment
------------------------------------------------------------

namespace CircuitDllm

variable {S Tok H F X : Type}

/- A row for every token of a forward. -/
def AnswersRows (target : Target S Tok H) : Prop :=
  ∀ ids startPos t picks t',
    target.forwardTokens ids startPos t = (.ok picks, t') →
      (target.lastHidden t').length = ids.length ∧
        target.kvLen t' = startPos + ids.length

/-
  What a draft that is asked for a proposal holds: the prompt
  and the committed tokens but the head, and the feature of
  each, which is the norm of the row the target returned for
  that token.
-/
structure ContextAligned
    (head : EagleHead Tok H F X)
    (prompt : List Tok)
    (s :
      SpecState (S × List (Tok × Option H))
        (EagleState Tok F) Tok) :
    Prop where
  committed : s.out = s.out.dropLast ++ [s.head]
  toks : s.draft.toks = prompt ++ s.out.dropLast
  toks_length : s.draft.toks.length = s.pos
  feats :
    ∃ hidden : List H, hidden.length = s.pos ∧
      s.target.2 = s.draft.toks.zip (hidden.map some) ∧
      s.draft.feats = some (hidden.map head.norm)

/- The two sequences that are fused are of one length. -/
def FusesEqual
    (s : SpecState S (EagleState Tok F) Tok) :
    Prop :=
  ∀ feats, s.draft.fuseFeats s.pos = some feats →
    (s.draft.fuseToks s.head s.pos).length = feats.length

theorem ContextAligned.fusesEqual
    {head : EagleHead Tok H F X}
    {prompt : List Tok}
    {s :
      SpecState (S × List (Tok × Option H))
        (EagleState Tok F) Tok}
    (hAligned : ContextAligned head prompt s) :
    FusesEqual s := by
  intro feats hFeats
  rcases hAligned.feats with ⟨hidden, hLength, -, hSome⟩
  rw [EagleState.fuseFeats, hSome, Option.map_some] at hFeats
  rw [← Option.some.inj hFeats]
  simp [EagleState.fuseToks, hAligned.toks_length, hLength]

variable [DecidableEq Tok]
variable {head : EagleHead Tok H F X}
variable {K : Nat} {perturb : Option (Nat → Tok → Tok)}

/- What a round did to the draft. -/
theorem specRound_draft
    {D : Type}
    {target : Target S Tok H}
    {draft : Draft D Tok H}
    (hNeeds : draft.needsHidden = true)
    {s s' : SpecState S D Tok}
    {r : RoundResult Tok}
    (hRound :
      specRound target draft K perturb s = (.ok r, s')) :
    ∃ drafts picks t d,
      draft.propose s.head K s.pos perturb
            (some (target.lastHidden s.target)) s.draft =
          (.ok drafts, d) ∧
        target.forwardTokens (s.head :: drafts) s.pos
            s.target = (.ok picks, t) ∧
        r.accepted ≤ drafts.length ∧
        target.rollback (s.pos + r.accepted + 1) t =
          (.ok (), s'.target) ∧
        s'.draft =
          draft.rollback (s.pos + r.accepted + 1)
            (draft.eagleCommit
              (s.head :: drafts.take r.accepted)
              ((target.lastHidden t).take (r.accepted + 1)) d) ∧
        s'.out =
          s.out ++ (drafts.take r.accepted ++ [r.extra]) ∧
        s'.head = r.extra ∧
        s'.pos = s.pos + r.accepted + 1 := by
  rcases specRound_returns hRound with
    ⟨drafts, picks, t, d, t', hPropose, hForward, hMatches, -,
      hRollback, hCommitted, rfl⟩
  rw [if_pos hNeeds] at hPropose
  rw [if_pos hNeeds, hCommitted]
  exact
    ⟨drafts, picks, t, d, hPropose, hForward,
      (of_leadingMatches hMatches).1, hRollback, rfl, rfl, rfl,
      rfl⟩

variable {target : Target S Tok H}

omit [DecidableEq Tok] in
/- The prompt and its features. -/
theorem ContextAligned.start
    (hRows : AnswersRows target)
    {prompt : List Tok}
    {stats : Option SpecStats}
    {first : Tok}
    {t₀ t : S × List (Tok × Option H)}
    {d₀ d : EagleState Tok F}
    (hPrefill :
      specPrefill target.traced head.eagleDraft prompt t₀ d₀ =
        (.ok first, t, d)) :
    ContextAligned head prompt
      (specStart target.traced head.eagleDraft prompt stats
        first t d) := by
  rcases specPrefill_returns hPrefill with
    ⟨picks, hForward, -, rfl⟩
  rcases Target.traced_forward hForward with
    ⟨inner, hInner, rfl⟩
  rcases hRows _ _ _ _ _ hInner with ⟨hLength, hKv⟩
  have hPos : prompt.length = target.kvLen inner := by
    rw [hKv, Nat.zero_add]
  refine ⟨rfl, ?_, hPos, ?_⟩
  · simp [specStart, EagleHead.eagleDraft,
      EagleHead.eaglePrefill]
  · refine
      ⟨target.lastHidden inner, hLength.trans hPos, ?_, rfl⟩
    simp [specStart, EagleHead.eagleDraft,
      EagleHead.eaglePrefill, rowsFor_eq hLength]

omit [DecidableEq Tok] in
/- The rows a round keeps. -/
theorem rows_committed
    {toks ids kept : List Tok}
    {hidden new : List H}
    {rows : List (Tok × Option H)}
    {pos m : Nat}
    (hToks : toks.length = pos)
    (hHidden : hidden.length = pos)
    (hRows : rows = toks.zip (hidden.map some))
    (hNew : new.length = ids.length)
    (hKept : ids.take (m + 1) = kept) :
    (rows.take pos ++ rowsFor ids new).take (pos + m + 1) =
      (toks ++ kept).zip
        ((hidden ++ new.take (m + 1)).map some) := by
  have hLength : rows.length = pos := by
    rw [hRows, List.length_zip, List.length_map, hToks,
      hHidden, Nat.min_self]
  rw [List.take_of_length_le (Nat.le_of_eq hLength),
    rowsFor_eq hNew, Nat.add_assoc, ← hLength,
    List.take_length_add_append, List.map_append,
    List.map_take, ← hKept, hRows]
  rw [List.zip_append (by simp [hToks, hHidden])]
  rw [List.zip_eq_zipWith, List.zip_eq_zipWith,
    List.zip_eq_zipWith, List.take_zipWith]

/- A round commits as many features as tokens. -/
theorem ContextAligned.round
    (hRows : AnswersRows target)
    {prompt : List Tok}
    {s s' :
      SpecState (S × List (Tok × Option H))
        (EagleState Tok F) Tok}
    {r : RoundResult Tok}
    (hAligned : ContextAligned head prompt s)
    (hRound :
      specRound target.traced head.eagleDraft K perturb s =
        (.ok r, s')) :
    ContextAligned head prompt s' := by
  rcases specRound_draft rfl hRound with
    ⟨drafts, picks, t, d, hPropose, hForward, hAccepted,
      hRollback, hDraft, hOut, hHead, hPos⟩
  rcases hAligned.feats with ⟨hidden, hLength, hOld, hFeats⟩
  -- the draft of the round, before it commits
  have hContext : d = { s.draft with len := s.pos } := by
    have hKept := head.propose_context s.head K s.pos perturb
      (some (target.lastHidden s.target.1)) s.draft
    rw [← hKept]
    exact (congrArg Prod.snd hPropose).symm
  -- the rows of the verify pass
  rcases Target.traced_forward hForward with
    ⟨inner, hInner, rfl⟩
  have hNew := (hRows _ _ _ _ _ hInner).1
  have hTarget := Target.traced_rollback hRollback
  have hTaken :
      (s.head :: drafts).take (r.accepted + 1) =
        s.head :: drafts.take r.accepted :=
    List.take_succ_cons
  have hToks :
      (s.draft.toks ++ s.head :: drafts.take r.accepted).length =
        s.pos + r.accepted + 1 := by
    rw [List.length_append, hAligned.toks_length,
      List.length_cons, List.length_take_of_le hAccepted]
    omega
  have hCommitted :
      s'.draft.toks =
          s.draft.toks ++ s.head :: drafts.take r.accepted ∧
        s'.draft.feats =
          some
            ((hidden ++
                (target.lastHidden inner).take
                  (r.accepted + 1)).map head.norm) := by
    rw [hDraft, hContext]
    simp [Target.traced, EagleHead.eagleDraft,
      EagleState.rollback, EagleHead.eagleCommit, hFeats,
      hToks]
  have hLast : s'.out.dropLast =
      s.out ++ drafts.take r.accepted := by
    rw [hOut, ← List.append_assoc, List.dropLast_concat]
  refine ⟨?_, ?_, ?_, ?_⟩
  · rw [hLast, hOut, hHead, List.append_assoc]
  · rw [hCommitted.1, hLast, hAligned.toks,
      List.append_assoc]
    conv => rhs; rw [hAligned.committed]
    simp
  · rw [hCommitted.1, hToks, hPos]
  · refine
      ⟨hidden ++
          (target.lastHidden inner).take (r.accepted + 1),
        ?_, ?_, hCommitted.2⟩
    · rw [List.length_append, hLength, List.length_take,
        hNew, hPos, List.length_cons]
      omega
    · rw [hTarget, hCommitted.1]
      exact
        rows_committed hAligned.toks_length hLength hOld
          hNew hTaken

/-
  Every draft that is asked for a proposal is aligned, when
  the target answers with a row for every token.
-/
theorem Rounds.aligned
    (hRows : AnswersRows target)
    {prompt : List Tok}
    {nNew : Nat}
    {eos : Tok → Bool}
    {stats : Option SpecStats}
    {t₀ : S × List (Tok × Option H)}
    {d₀ : EagleState Tok F}
    {s :
      SpecState (S × List (Tok × Option H))
        (EagleState Tok F) Tok}
    (hRounds :
      Rounds target.traced head.eagleDraft prompt nNew K eos
        perturb stats t₀ d₀ s) :
    ContextAligned head prompt s := by
  induction hRounds with
  | start hPrefill =>
      exact ContextAligned.start hRows hPrefill
  | next _ _ hRound ih => exact ih.round hRows hRound

end CircuitDllm
