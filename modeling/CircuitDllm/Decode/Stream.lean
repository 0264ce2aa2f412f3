import CircuitDllm.Decode.Greedy

/-
  Streaming greedy decoding (engine/coordinator.py,
  generate_stream).

  A token is decoded and its text yielded before it is fed,
  so a stream that raises has yielded the text of a token
  whose forward failed.

  Main declarations:
    * `streamSteps`, `generateStream`
    * `generateStream_greedy`
-/

------------------------------------------------------------
-- The Stream
------------------------------------------------------------

namespace CircuitDllm

variable {Tok S E : Type}

/- The text not yet yielded, and the text yielded so far. -/
def textDelta
    (decode : List Tok → List Char)
    (produced : List Tok)
    (prevText : List Char) :
    List (List Char) × List Char :=
  let text := decode produced
  if prevText.length < text.length then
    ([text.drop prevText.length], text)
  else ([], prevText)

/- What was yielded, and the tokens or the error at the end. -/
structure StreamOut (Tok E : Type) where
  yielded : List (List Char)
  ended : Except E (List Tok)

/- The loop of generate_stream. -/
def streamSteps
    (forward : Forward Tok S E)
    (stop : Tok → Bool)
    (decode : List Tok → List Char) :
    Nat → List Tok → Tok → Nat → List Tok → List Char → S →
      StreamOut Tok E × S
| 0, _, _, _, produced, _, s => (⟨[], .ok produced⟩, s)
| n + 1, seqIds, nxt, cur, produced, prevText, s =>
    if stop nxt then (⟨[], .ok produced⟩, s)
    else
      let produced := produced ++ [nxt]
      let (delta, prevText) :=
        textDelta decode produced prevText
      match forward cur [nxt] seqIds s with
      | (.error e, s) => (⟨delta, .error e⟩, s)
      | (.ok pick, s) =>
        let (r, s) :=
          streamSteps forward stop decode n (seqIds ++ [nxt])
            pick (cur + 1) produced prevText s
        (⟨delta ++ r.yielded, r.ended⟩, s)

/- Prefill at position 0, then the streaming loop. -/
def generateStream
    (forward : Forward Tok S E)
    (stop : Tok → Bool)
    (decode : List Tok → List Char)
    (ids : List Tok)
    (nNew : Int)
    (s : S) :
    StreamOut Tok E × S :=
  match forward 0 ids [] s with
  | (.error e, s) => (⟨[], .error e⟩, s)
  | (.ok nxt, s) =>
    streamSteps forward stop decode nNew.toNat ids nxt
      ids.length [] [] s

/- The texts yielded for a list of tokens. -/
def streamTexts
    (decode : List Tok → List Char) :
    List Tok → List Tok → List Char → List (List Char)
| [], _, _ => []
| tok :: toks, produced, prevText =>
    let produced := produced ++ [tok]
    let (delta, prevText) := textDelta decode produced prevText
    delta ++ streamTexts decode toks produced prevText

end CircuitDllm

------------------------------------------------------------
-- Streaming Is Greedy Decoding
------------------------------------------------------------

namespace CircuitDllm

variable {Tok S E : Type}
variable {forward : Forward Tok S E}
variable {f : List Tok → Tok}
variable {Holds : S → List Tok → Prop}
variable {MayRaise : Prop}

/-
  The loop yields the texts of the cut greedy run, or it
  raises after the texts of some of its tokens.
-/
theorem streamSteps_greedy
    (hForward : ForwardSpec forward f Holds MayRaise)
    (stop : Tok → Bool)
    (decode : List Tok → List Char)
    (n : Nat)
    (kv produced : List Tok)
    (prevText : List Char)
    (s : S)
    (hHolds : Holds s kv) :
    (∃ s',
      let out := greedyCut f stop kv n
      streamSteps forward stop decode n kv (f kv) kv.length
          produced prevText s =
        (⟨streamTexts decode out produced prevText,
          .ok (produced ++ out)⟩, s') ∧
        Holds s' (kv ++ out)) ∨
      (MayRaise ∧
        ∃ yielded e s',
          streamSteps forward stop decode n kv (f kv)
              kv.length produced prevText s =
            (⟨yielded, .error e⟩, s') ∧
          yielded <+:
            streamTexts decode (greedyCut f stop kv n)
              produced prevText) := by
  induction n generalizing kv produced prevText s with
  | zero =>
      left
      refine ⟨s, ?_, by simpa using hHolds⟩
      simp [streamSteps, streamTexts]
  | succ n ih =>
      by_cases hStop : stop (f kv) = true
      · left
        refine ⟨s, ?_, ?_⟩
        · simp [streamSteps, greedyCut_succ, hStop,
            streamTexts]
        · simpa [greedyCut_succ, hStop] using hHolds
      · rcases hForward s kv [f kv] (by simp) hHolds with
          ⟨s₁, hOk, hHolds₁⟩ | ⟨hMay, e, s₁, hError⟩
        · have hNext :=
            ih (kv ++ [f kv]) (produced ++ [f kv])
              (textDelta decode (produced ++ [f kv])
                prevText).2 s₁ hHolds₁
          rw [List.length_append, List.length_singleton]
            at hNext
          rcases hNext with
            ⟨s', hSteps, hHolds'⟩ |
            ⟨hMay, yielded, e, s', hSteps, hPre⟩
          · left
            refine ⟨s', ?_, ?_⟩
            · simp [streamSteps, hStop, hOk, hSteps,
                greedyCut_succ, streamTexts]
            · simpa [greedyCut_succ, hStop] using hHolds'
          · right
            refine
              ⟨hMay,
                (textDelta decode (produced ++ [f kv])
                  prevText).1 ++ yielded, e, s', ?_, ?_⟩
            · simp [streamSteps, hStop, hOk, hSteps]
            · simp only [greedyCut_succ, hStop]
              exact (List.prefix_append_right_inj _).mpr hPre
        · right
          refine
            ⟨hMay,
              (textDelta decode (produced ++ [f kv])
                prevText).1, e, s₁, ?_, ?_⟩
          · simp [streamSteps, hStop, hError]
          · simp only [greedyCut_succ, hStop]
            exact List.prefix_append _ _

/-
  A stream of a prompt yields the texts of the greedy
  tokens, or raises.
-/
theorem generateStream_greedy
    (hForward : ForwardSpec forward f Holds MayRaise)
    (stop : Tok → Bool)
    (decode : List Tok → List Char)
    (ids : List Tok)
    (nNew : Int)
    (s : S)
    (hIds : ids ≠ [])
    (hHolds : Holds s []) :
    (∃ s',
      let out := greedyCut f stop ids nNew.toNat
      generateStream forward stop decode ids nNew s =
        (⟨streamTexts decode out [] [], .ok out⟩, s') ∧
        Holds s' (ids ++ out)) ∨
      (MayRaise ∧
        ∃ yielded e s',
          generateStream forward stop decode ids nNew s =
            (⟨yielded, .error e⟩, s') ∧
          yielded <+:
            streamTexts decode
              (greedyCut f stop ids nNew.toNat) [] []) := by
  rcases hForward s [] ids hIds hHolds with
    ⟨s₁, hOk, hHolds₁⟩ | ⟨hMay, e, s₁, hError⟩
  · simp only [List.length_nil, List.nil_append] at hOk
    have hSteps :=
      streamSteps_greedy hForward stop decode nNew.toNat ids
        [] [] s₁ hHolds₁
    unfold generateStream
    rw [hOk]
    simpa using hSteps
  · right
    simp only [List.length_nil] at hError
    refine ⟨hMay, [], e, s₁, ?_, List.nil_prefix⟩
    unfold generateStream
    rw [hError]

end CircuitDllm
