import CircuitDllm.Lib.Replacing
import CircuitDllm.Decode.Stream
import CircuitDllm.TreeDecode.Loop
import CircuitDllm.Batch.Scheduler

/-
  Streamed text (engine/coordinator.py, engine/api.py).

  Four producers cut the text of the tokens so far by the
  length of the text before.  With a byte-level tokenizer a
  character may be split over several tokens; the text of
  the first of them ends in U+FFFD, and the text of all of
  them has the character in its place.

  Main declarations:
    * `Tokenizer`, `Tokenizer.Intact`
    * `streamProduced`, `speculativeStreamTexts`
    * `treeStreamTexts`, `serveBatched`
    * `StreamsExactly`
    * `streamsExactly_iff`
-/

------------------------------------------------------------
-- Tokenizers
------------------------------------------------------------

namespace CircuitDllm

open Replacing (utf8)

/- Every token is a byte string that is not empty. -/
structure Tokenizer (Tok : Type) where
  bytes : Tok → List UInt8
  nonempty : ∀ tok, bytes tok ≠ []

namespace Tokenizer

variable {Tok : Type} (tk : Tokenizer Tok)

def allBytes (toks : List Tok) : List UInt8 :=
  toks.flatMap tk.bytes

/- tok.decode -/
def decode (toks : List Tok) : List Char :=
  utf8.decode (tk.allBytes toks)

/- The decoder's state after some tokens. -/
def after (toks : List Tok) :
    Replacing.Decoder.State Replacing.Utf8Word Char :=
  utf8.run ([], none) (tk.allBytes toks)

/-
  Where one token ends and another begins, no character is
  under way that the following tokens complete; U+FFFD
  itself may be.
-/
def Intact (toks : List Tok) : Prop :=
  ∀ done rest, toks = done ++ rest →
    utf8.Keeps (tk.after done) (tk.allBytes rest)

end Tokenizer

end CircuitDllm

------------------------------------------------------------
-- Four Producers
------------------------------------------------------------

namespace CircuitDllm

variable {Tok S D E H Feat Prompt : Type}

/- `produced` when the loop of generate_stream ends. -/
def producedSteps
    (forward : Forward Tok S E)
    (stop : Tok → Bool) :
    Nat → List Tok → Tok → Nat → List Tok → S → List Tok
| 0, _, _, _, produced, _ => produced
| n + 1, seqIds, nxt, cur, produced, s =>
    if stop nxt then produced
    else
      let produced := produced ++ [nxt]
      match forward cur [nxt] seqIds s with
      | (.error _, _) => produced
      | (.ok pick, s) =>
        producedSteps forward stop n (seqIds ++ [nxt]) pick
          (cur + 1) produced s

/- The tokens generate_stream emits, also when it raises. -/
def streamProduced
    (forward : Forward Tok S E)
    (stop : Tok → Bool)
    (ids : List Tok)
    (nNew : Int)
    (s : S) :
    List Tok :=
  match forward 0 ids [] s with
  | (.error _, _) => []
  | (.ok nxt, s) =>
    producedSteps forward stop nNew.toNat ids nxt ids.length
      [] s

/- The loop of generate_speculative_stream on its tokens. -/
def speculativeStreamTexts
    (decode : List Tok → List Char)
    (r : StreamResult S D Tok) :
    List (List Char) :=
  streamTexts decode r.yielded [] []

/- The first text is yielded whatever its length is. -/
def treeStreamTexts
    (decode : List Tok → List Char) :
    List Tok → List (List Char)
| [] => []
| head :: toks =>
    let prevText := decode [head]
    prevText :: streamTexts decode toks [head] prevText

/-
  _serve_batched on what it gets from an out queue: the
  delta contents it writes, and its tokens.
-/
def serveBatched
    (decode : List Tok → List Char) :
    List (Item Tok) → List Tok → List Char →
      List (List Char) × List Tok
| .token tok :: items, produced, prevText =>
    let produced := produced ++ [tok]
    let (delta, prevText) := textDelta decode produced prevText
    let (written, produced) :=
      serveBatched decode items produced prevText
    (delta ++ written, produced)
| .exc _ :: _, produced, _ => ([], produced)
| .done :: _, produced, _ => ([], produced)
| [], produced, _ => ([], produced)

end CircuitDllm

------------------------------------------------------------
-- Pieces Cut by Length
------------------------------------------------------------

namespace CircuitDllm

variable {Tok S E : Type}

/- What is streamed of some tokens after others. -/
def pieces
    (decode : List Tok → List Char)
    (produced : List Tok) :
    List Tok → List Char
| [] => []
| tok :: toks =>
    (decode (produced ++ [tok])).drop (decode produced).length
      ++ pieces decode (produced ++ [tok]) toks

/- One more token, no shorter text. -/
def Grows (decode : List Tok → List Char) : Prop :=
  ∀ toks tok,
    (decode toks).length ≤ (decode (toks ++ [tok])).length

variable {decode : List Tok → List Char}

theorem textDelta_flatten
    (produced : List Tok)
    (prevText : List Char) :
    (textDelta decode produced prevText).1.flatten =
      (decode produced).drop prevText.length := by
  unfold textDelta
  dsimp only
  split
  · exact List.append_nil _
  · next hLonger =>
      exact
        (List.drop_eq_nil_of_le (Nat.not_lt.mp hLonger)).symm

theorem textDelta_length
    (produced : List Tok)
    (prevText : List Char)
    (hLength : prevText.length ≤ (decode produced).length) :
    (textDelta decode produced prevText).2.length =
      (decode produced).length := by
  unfold textDelta
  dsimp only
  split
  · rfl
  · next hLonger =>
      exact Nat.le_antisymm hLength (Nat.not_lt.mp hLonger)

/- Only the length of the text before counts. -/
theorem streamTexts_flatten
    (hGrows : Grows decode)
    (toks produced : List Tok)
    (prevText : List Char)
    (hPrev : prevText.length = (decode produced).length) :
    (streamTexts decode toks produced prevText).flatten =
      pieces decode produced toks := by
  induction toks generalizing produced prevText with
  | nil => rfl
  | cons tok toks ih =>
      have hLength := hGrows produced tok
      rw [← hPrev] at hLength
      have hRest :=
        ih (produced ++ [tok]) _ (textDelta_length _ _ hLength)
      simp only [streamTexts, pieces, List.flatten_append]
      rw [textDelta_flatten, hRest, hPrev]

theorem pieces_append
    (produced toks toks' : List Tok) :
    pieces decode produced (toks ++ toks') =
      pieces decode produced toks ++
        pieces decode (produced ++ toks) toks' := by
  induction toks generalizing produced with
  | nil => simp [pieces]
  | cons tok toks ih =>
      simp only [List.cons_append, pieces]
      rw [ih]
      simp

/- As much was streamed as the text is long. -/
theorem length_pieces
    (hGrows : Grows decode)
    (hNil : decode [] = [])
    (toks : List Tok) :
    (pieces decode [] toks).length = (decode toks).length := by
  induction toks using List.reverseRecOn with
  | nil => simp [pieces, hNil]
  | append_singleton toks tok ih =>
      have hLength := hGrows toks tok
      rw [pieces_append, List.length_append, ih]
      simp only [pieces, List.nil_append, List.append_nil,
        List.length_drop]
      omega

/- Texts that extend one another are streamed as they are. -/
theorem pieces_eq
    (hNil : decode [] = [])
    (toks : List Tok)
    (hExtends :
      ∀ done tok rest, toks = done ++ tok :: rest →
        decode done <+: decode (done ++ [tok])) :
    pieces decode [] toks = decode toks := by
  induction toks using List.reverseRecOn with
  | nil => exact hNil.symm
  | append_singleton toks tok ih =>
      have hBefore : pieces decode [] toks = decode toks := by
        apply ih
        intro done tok' rest hToks
        apply hExtends done tok' (rest ++ [tok])
        rw [hToks, List.append_assoc, List.cons_append]
      rcases hExtends toks tok [] rfl with ⟨text, hText⟩
      rw [pieces_append, hBefore]
      simp [pieces, ← hText]

end CircuitDllm

------------------------------------------------------------
-- Characters Split over Tokens
------------------------------------------------------------

namespace CircuitDllm

open Replacing

namespace Tokenizer

variable {Tok : Type} {tk : Tokenizer Tok}

theorem allBytes_append (toks toks' : List Tok) :
    tk.allBytes (toks ++ toks') =
      tk.allBytes toks ++ tk.allBytes toks' := by
  apply List.flatMap_append

theorem after_append (toks toks' : List Tok) :
    tk.after (toks ++ toks') =
      utf8.run (tk.after toks) (tk.allBytes toks') := by
  rw [after, allBytes_append, Decoder.run_append, after]

theorem decode_eq (toks : List Tok) :
    tk.decode toks = utf8.flush (tk.after toks) := by
  rfl

theorem decode_append (toks toks' : List Tok) :
    tk.decode (toks ++ toks') =
      utf8.flush
        (utf8.run (tk.after toks) (tk.allBytes toks')) := by
  rw [decode_eq, after_append]

theorem grows (tk : Tokenizer Tok) : Grows tk.decode := by
  intro toks tok
  rw [decode_append, decode_eq]
  exact Decoder.length_flush_le _ _

/- A character under way shows as one replacement. -/
theorem decode_pending
    {toks : List Tok}
    (hPending : (tk.after toks).2.isSome) :
    tk.decode toks =
      (tk.after toks).1 ++ [utf8.replacement] := by
  simp [decode_eq, Decoder.flush, hPending]

theorem decode_whole
    {toks : List Tok}
    (hWhole : ¬ (tk.after toks).2.isSome) :
    tk.decode toks = (tk.after toks).1 := by
  simp [decode_eq, Decoder.flush, hWhole]

theorem prefix_after
    (tk : Tokenizer Tok)
    (toks toks' : List Tok) :
    (tk.after toks).1 <+: tk.decode (toks ++ toks') := by
  rw [decode_append]
  exact Decoder.prefix_flush _ _

/-
  While a character is under way, the last thing streamed
  is a replacement.
-/
theorem pieces_pending
    (toks : List Tok)
    (hPending : (tk.after toks).2.isSome) :
    ∃ text,
      pieces tk.decode [] toks =
        text ++ [utf8.replacement] := by
  induction toks using List.reverseRecOn with
  | nil => cases hPending
  | append_singleton toks tok ih =>
      have hText := decode_pending hPending
      rw [pieces_append]
      simp only [pieces, List.nil_append, List.append_nil]
      by_cases hGrew :
          (tk.decode toks).length ≤
            (tk.after (toks ++ [tok])).1.length
      · -- the token's text ends in the replacement
        rw [hText, List.drop_append_of_le_length hGrew,
          ← List.append_assoc]
        exact ⟨_, rfl⟩
      · -- the text is no longer: one was under way before
        have hWritten :=
          (Decoder.prefix_run (d := utf8) (tk.after toks)
            (tk.allBytes [tok])).length_le
        rw [← after_append] at hWritten
        have hBefore : (tk.after toks).2.isSome := by
          apply Classical.byContradiction
          intro hWhole
          rw [decode_whole hWhole] at hGrew
          exact hGrew hWritten
        have hDrop :
            (tk.decode (toks ++ [tok])).drop
                (tk.decode toks).length = [] := by
          apply List.drop_eq_nil_of_le
          rw [hText, List.length_append, List.length_singleton]
          omega
        rw [hDrop, List.append_nil]
        exact ih hBefore

/-
  What was streamed of the first tokens is a prefix of the
  text of all of them only if their text is.
-/
theorem decode_prefix_of_pieces
    {toks toks' : List Tok}
    (hPieces :
      pieces tk.decode [] toks <+: tk.decode (toks ++ toks')) :
    tk.decode toks <+: tk.decode (toks ++ toks') := by
  have hPrefix := tk.prefix_after toks toks'
  by_cases hPending : (tk.after toks).2.isSome
  · have hLength :=
      length_pieces tk.grows rfl toks
    rcases pieces_pending toks hPending with ⟨text, hText⟩
    have hDecode := decode_pending hPending
    rw [hText, hDecode] at hLength
    rw [hText] at hPieces
    have hWritten : text = (tk.after toks).1 := by
      have hSame : text.length = (tk.after toks).1.length := by
        simpa using hLength
      have hBoth :=
        List.prefix_of_prefix_length_le
          ((List.prefix_append _ _).trans hPieces) hPrefix
          (Nat.le_of_eq hSame)
      exact hBoth.eq_of_length hSame
    rw [hDecode, ← hWritten]
    exact hPieces
  · rw [decode_whole hPending]
    exact hPrefix

theorem decode_prefix_iff (toks toks' : List Tok) :
    tk.decode toks <+: tk.decode (toks ++ toks') ↔
      utf8.Keeps (tk.after toks) (tk.allBytes toks') := by
  rw [decode_append, decode_eq]
  exact Decoder.flush_prefix_iff _ _

/-
  What is streamed is the text of all tokens exactly when no
  character is split.
-/
theorem pieces_eq_iff (toks : List Tok) :
    pieces tk.decode [] toks = tk.decode toks ↔
      tk.Intact toks := by
  constructor
  · intro hPieces done rest hToks
    rw [← decode_prefix_iff]
    apply decode_prefix_of_pieces
    rw [← hToks, ← hPieces, hToks, pieces_append]
    exact List.prefix_append _ _
  · intro hIntact
    refine pieces_eq rfl toks ?_
    intro done tok rest hToks
    have hDone : tk.decode done <+: tk.decode toks := by
      rw [hToks, decode_prefix_iff]
      exact hIntact done (tok :: rest) hToks
    have hNext :
        toks = (done ++ [tok]) ++ rest := by
      rw [hToks, List.append_assoc, List.singleton_append]
    have hTok : tk.decode (done ++ [tok]) <+: tk.decode toks := by
      rw [hNext, decode_prefix_iff]
      exact hIntact (done ++ [tok]) rest hNext
    exact
      List.prefix_of_prefix_length_le hDone hTok
        (tk.grows done tok)

theorem streamTexts_eq_iff (toks : List Tok) :
    (streamTexts tk.decode toks [] []).flatten =
        tk.decode toks ↔
      tk.Intact toks := by
  have hPieces :=
    streamTexts_flatten tk.grows toks [] [] rfl
  rw [hPieces, pieces_eq_iff]

end Tokenizer

end CircuitDllm

------------------------------------------------------------
-- The Producers Stream the Pieces
------------------------------------------------------------

namespace CircuitDllm

variable {Tok S E : Type}
variable {decode : List Tok → List Char}

theorem streamSteps_texts
    (decode : List Tok → List Char)
    (forward : Forward Tok S E)
    (stop : Tok → Bool)
    (n : Nat)
    (seqIds : List Tok)
    (nxt : Tok)
    (cur : Nat)
    (produced : List Tok)
    (prevText : List Char)
    (s : S) :
    ∃ toks,
      producedSteps forward stop n seqIds nxt cur produced s =
        produced ++ toks ∧
      (streamSteps forward stop decode n seqIds nxt cur produced
        prevText s).1.yielded =
        streamTexts decode toks produced prevText ∧
      ∀ out,
        (streamSteps forward stop decode n seqIds nxt cur
          produced prevText s).1.ended = .ok out →
        out = produced ++ toks := by
  induction n generalizing seqIds nxt cur produced prevText s with
  | zero =>
      refine ⟨[], (List.append_nil _).symm, rfl, ?_⟩
      intro out hEnded
      cases hEnded
      exact (List.append_nil _).symm
  | succ n ih =>
      simp only [producedSteps, streamSteps]
      by_cases hStop : stop nxt = true
      · simp only [hStop, ↓reduceIte]
        refine ⟨[], (List.append_nil _).symm, rfl, ?_⟩
        intro out hEnded
        cases hEnded
        exact (List.append_nil _).symm
      · simp only [hStop, ↓reduceIte, Bool.false_eq_true]
        rcases hForward : forward cur [nxt] seqIds s with
          ⟨picked, s'⟩
        cases picked with
        | error e =>
            refine ⟨[nxt], rfl, ?_, ?_⟩
            · exact (List.append_nil _).symm
            · intro out hEnded
              cases hEnded
        | ok pick =>
            rcases ih (seqIds ++ [nxt]) pick (cur + 1)
                (produced ++ [nxt])
                (textDelta decode (produced ++ [nxt])
                  prevText).2 s' with
              ⟨toks, hProduced, hYielded, hEnded⟩
            refine ⟨nxt :: toks, ?_, ?_, ?_⟩
            · dsimp only
              rw [hProduced, List.append_assoc,
                List.singleton_append]
            · dsimp only
              rw [hYielded, streamTexts]
            · intro out hOut
              rw [hEnded out hOut, List.append_assoc,
                List.singleton_append]

/- A stream yields the texts of the tokens it emits. -/
theorem generateStream_texts
    (decode : List Tok → List Char)
    (forward : Forward Tok S E)
    (stop : Tok → Bool)
    (ids : List Tok)
    (nNew : Int)
    (s : S) :
    (generateStream forward stop decode ids nNew s).1.yielded =
        streamTexts decode
          (streamProduced forward stop ids nNew s) [] [] ∧
      ∀ out,
        (generateStream forward stop decode ids nNew s).1.ended =
            .ok out →
          out = streamProduced forward stop ids nNew s := by
  unfold generateStream streamProduced
  rcases forward 0 ids [] s with ⟨picked, s'⟩
  cases picked with
  | error e => exact ⟨rfl, fun out hEnded => by cases hEnded⟩
  | ok nxt =>
      rcases streamSteps_texts decode forward stop
          nNew.toNat ids nxt ids.length [] [] s' with
        ⟨toks, hProduced, hYielded, hEnded⟩
      dsimp only
      rw [hProduced]
      exact ⟨hYielded, hEnded⟩

/- Tree decoding cuts its first text at nothing. -/
theorem treeStreamTexts_flatten
    (hGrows : Grows decode)
    (hNil : decode [] = [])
    (toks : List Tok) :
    (treeStreamTexts decode toks).flatten =
      pieces decode [] toks := by
  cases toks with
  | nil => rfl
  | cons head toks =>
      have hRest :=
        streamTexts_flatten hGrows toks [head] (decode [head]) rfl
      simp [treeStreamTexts, pieces, hRest, hNil]

/- A served queue's deltas are the texts of its tokens. -/
theorem serveBatched_texts
    (decode : List Tok → List Char)
    (items : List (Item Tok))
    (produced : List Tok)
    (prevText : List Char) :
    ∃ toks,
      serveBatched decode items produced prevText =
        (streamTexts decode toks produced prevText,
          produced ++ toks) := by
  induction items generalizing produced prevText with
  | nil => exact ⟨[], by simp [serveBatched, streamTexts]⟩
  | cons item items ih =>
      cases item with
      | token tok =>
          rcases ih (produced ++ [tok])
              (textDelta decode (produced ++ [tok])
                prevText).2 with
            ⟨toks, hItems⟩
          refine ⟨tok :: toks, ?_⟩
          simp [serveBatched, hItems, streamTexts]
      | exc e => exact ⟨[], by simp [serveBatched, streamTexts]⟩
      | done => exact ⟨[], by simp [serveBatched, streamTexts]⟩

end CircuitDllm

------------------------------------------------------------
-- Streamed Text Is Decoded Text
------------------------------------------------------------

namespace CircuitDllm

variable {Tok S D E H Feat : Type}

/-
  The concatenated pieces of every producer are the text of
  the tokens it emitted, when these are `Allowed`, and else
  they are not.
-/
structure StreamsExactly
    {Tok : Type} [DecidableEq Tok]
    (tk : Tokenizer Tok)
    (Allowed : List Tok → Prop) :
    Prop where
  greedy :
    ∀ {S E : Type} (forward : Forward Tok S E)
      (stop : Tok → Bool) (ids : List Tok) (nNew : Int) (s : S),
      let toks := streamProduced forward stop ids nNew s
      let r :=
        (generateStream forward stop tk.decode ids nNew s).1
      (∀ out, r.ended = .ok out → out = toks) ∧
        (r.yielded.flatten = tk.decode toks ↔ Allowed toks)
  speculative :
    ∀ {S D Feat : Type} (target : Target S Tok Feat)
      (draft : Draft D Tok Feat) (prompt : List Tok)
      (nNew K : Nat) (eos : Tok → Bool)
      (perturb : Option (Nat → Tok → Tok))
      (stats : Option SpecStats) (t : S) (d : D),
      let r :=
        speculativeGreedyStream target draft prompt nNew K eos
          perturb stats t d
      (speculativeStreamTexts tk.decode r).flatten =
          tk.decode r.yielded ↔
        Allowed r.yielded
  tree :
    ∀ {H : Type} (model : Model Tok H)
      (drafter : TreeDrafter Tok) (prompt : List Tok)
      (nNew : Nat) (eos : Tok → Bool),
      let toks :=
        (generateTreeStream model drafter prompt nNew eos).1
      (treeStreamTexts tk.decode toks).flatten =
          tk.decode toks ↔
        Allowed toks
  batched :
    ∀ items : List (Item Tok),
      let (written, toks) := serveBatched tk.decode items [] []
      written.flatten = tk.decode toks ↔ Allowed toks

/-
  Streamed text is decoded text exactly for tokens between
  which no character is split.
-/
theorem streamsExactly_iff
    [DecidableEq Tok]
    (tk : Tokenizer Tok) :
    StreamsExactly tk tk.Intact where
  greedy := by
    intro S E forward stop ids nNew s
    rcases generateStream_texts tk.decode forward
        stop ids nNew s with
      ⟨hYielded, hEnded⟩
    refine ⟨hEnded, ?_⟩
    rw [hYielded]
    apply Tokenizer.streamTexts_eq_iff
  speculative := by
    intro S D Feat target draft prompt nNew K eos perturb stats
      t d
    apply Tokenizer.streamTexts_eq_iff
  tree := by
    intro H model drafter prompt nNew eos
    dsimp only
    rw [treeStreamTexts_flatten tk.grows rfl]
    apply Tokenizer.pieces_eq_iff
  batched := by
    intro items
    rcases serveBatched_texts tk.decode items [] []
      with ⟨toks, hItems⟩
    rw [hItems]
    apply Tokenizer.streamTexts_eq_iff

/- Two tokens that are one character together. -/
def splitTokens : Tokenizer Bool where
  bytes second := if second then [0xA9] else [0xC3]
  nonempty := by decide

/- The first token, then the second one. -/
def splitForward : Forward Bool Unit Unit :=
  fun pos _ _ s => (.ok (pos != 0), s)

/-
  A stream of `é` yields U+FFFD and nothing more, and so
  does a served one.
-/
theorem exists_not_streamed :
    (generateStream splitForward (fun _ => false)
        splitTokens.decode [true] 2 ()).1.ended =
      .ok [false, true] ∧
    (generateStream splitForward (fun _ => false)
        splitTokens.decode [true] 2 ()).1.yielded =
      [[.ofNat 0xFFFD]] ∧
    (serveBatched splitTokens.decode
        [.token false, .token true, .done] [] []).1 =
      [[.ofNat 0xFFFD]] ∧
    splitTokens.decode [false, true] = ['é'] ∧
    ¬ StreamsExactly splitTokens (fun _ => True) := by
  refine ⟨rfl, by decide, by decide, by decide, ?_⟩
  intro hStreams
  have hServed :=
    hStreams.batched [.token false, .token true, .done]
  revert hServed
  decide

end CircuitDllm
