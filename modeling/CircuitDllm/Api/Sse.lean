import CircuitDllm.Decode.Text
import CircuitDllm.Lib.EventStream
import CircuitDllm.Wire.JsonBytes
import Mathlib.Data.List.ReduceOption

/-
  Streamed answers (engine/api.py: the streaming branches of
  do_POST and _serve_batched).

  Every piece of text is one `data:` event with a chunk; the
  end is a chunk without text and `[DONE]`.  A connection
  can break anywhere, and what raises while the answer is
  made ends the stream where it is.

  Main declarations:
    * `ChunkHead.piece`, `ChunkHead.stop`
    * `writeEvents`, `serveStream`, `batchedStream`
    * `received`, `finished`
    * `stream_cut`, `batchedStream_cut`
-/

------------------------------------------------------------
-- Chunks
------------------------------------------------------------

namespace CircuitDllm

open Wire (Bytes)

variable {F Tok : Type}

/- What all chunks of an answer carry. -/
structure ChunkHead where
  cid : String
  created : Int
  model : String

namespace ChunkHead

def chunk
    (head : ChunkHead)
    (delta : List (List Nat × PyJson F))
    (finishReason : PyJson F) :
    PyJson F :=
  .obj
    [member "id" (jsonText head.cid),
      member "object" (jsonText "chat.completion.chunk"),
      member "created" (.int head.created),
      member "model" (jsonText head.model),
      member "choices"
        (.arr
          [.obj
            [member "index" (.int 0),
              member "delta" (.obj delta),
              member "finish_reason" finishReason]])]

/- The chunk of a piece of text. -/
def piece (head : ChunkHead) (text : List Char) : PyJson F :=
  head.chunk
    [member "content" (.str (PyJson.codePoints text))] .null

/- The last chunk. -/
def stop (head : ChunkHead) : PyJson F :=
  head.chunk [] (jsonText "stop")

end ChunkHead

/- "[DONE]" -/
def doneText : Bytes := [91, 68, 79, 78, 69, 93]

/-
  The events of some values, up to one that json.dumps
  refuses, and whether all were written.
-/
def writeEvents (json : JsonOps F) :
    List (PyJson F) → Bytes × Bool
| [] => ([], true)
| v :: vs =>
    match dumpsBytes json v with
    | none => ([], false)
    | some data =>
      let (bytes, written) := writeEvents json vs
      (EventStream.event data ++ bytes, written)

/- The stream of an answer; `ended` unless it raised. -/
def serveStream
    (json : JsonOps F)
    (head : ChunkHead)
    (texts : List (List Char))
    (ended : Bool) :
    Bytes :=
  let (bytes, written) :=
    writeEvents json
      (texts.map head.piece ++
        if ended then [head.stop] else [])
  bytes ++
    if ended && written then EventStream.event doneText
    else []

/- The queue ends with DONE, and not with an exception. -/
def queueDone : List (Item Tok) → Bool
| .token _ :: items => queueDone items
| .done :: _ => true
| .exc _ :: _ => false
| [] => false

/- _serve_batched, streaming. -/
def batchedStream
    (json : JsonOps F)
    (head : ChunkHead)
    (decode : List Tok → List Char)
    (items : List (Item Tok)) :
    Bytes :=
  serveStream json head (serveBatched decode items [] []).1
    (queueDone items)

end CircuitDllm

------------------------------------------------------------
-- A Client
------------------------------------------------------------

namespace CircuitDllm

open Wire (Bytes)

variable {F : Type}

/- choices[0].delta.content of a chunk. -/
def contentOf (v : PyJson F) : Option (List Nat) := do
  let chunk ← membersOf v
  match PyJson.get? chunk "choices" with
  | some (.arr (choice :: _)) =>
    let choice ← membersOf choice
    let delta ← (PyJson.get? choice "delta").bind membersOf
    match PyJson.get? delta "content" with
    | some (.str text) => some text
    | _ => none
  | _ => none

/- The text in an event, if it has any. -/
def eventText (json : JsonOps F) (payload : Bytes) :
    Option (List Nat) :=
  if payload = doneText then none
  else (loadsBytes json payload).bind contentOf

/- The events in what has arrived. -/
def eventsIn (bs : Bytes) : List Bytes :=
  (({} : EventStream.Reader).feed bs).events

/- The text in what has arrived. -/
def received (json : JsonOps F) (bs : Bytes) : List Nat :=
  ((eventsIn bs).filterMap (eventText json)).flatten

def finished (bs : Bytes) : Bool :=
  (eventsIn bs).contains doneText

end CircuitDllm

------------------------------------------------------------
-- Chunks Are Read Back
------------------------------------------------------------

namespace CircuitDllm

open Wire (Bytes)

variable {F : Type} {json : JsonOps F}

/- A chunk can be read back if its delta can. -/
theorem dicts_chunk
    (head : ChunkHead)
    {delta : List (List Nat × PyJson F)}
    {finishReason : PyJson F}
    (hDelta : PyJson.Dicts (.obj delta))
    (hReason : finishReason.Dicts) :
    (head.chunk delta finishReason).Dicts := by
  have hNames :
      ∀ names : List String, names.Nodup →
        (names.map (fun name =>
          PyJson.codePoints name.toList)).Nodup :=
    fun _ => List.Nodup.map fun _ _ => codePoints_injective
  refine .obj (hNames
    ["id", "object", "created", "model", "choices"]
    (by decide)) ?_
  intro m hMem
  simp only [List.mem_cons, List.not_mem_nil, or_false] at hMem
  rcases hMem with rfl | rfl | rfl | rfl | rfl
  · exact .str
  · exact .str
  · exact .int
  · exact .str
  refine .arr fun v hV => ?_
  rw [List.mem_singleton] at hV
  subst hV
  refine .obj (hNames ["index", "delta", "finish_reason"]
    (by decide)) ?_
  intro m hMem
  simp only [List.mem_cons, List.not_mem_nil, or_false] at hMem
  rcases hMem with rfl | rfl | rfl
  · exact .int
  · exact hDelta
  · exact hReason

theorem scalars_chunk
    (head : ChunkHead)
    {delta : List (List Nat × PyJson F)}
    {finishReason : PyJson F}
    (hDelta : PyJson.scalars (.obj delta) = true)
    (hReason : finishReason.scalars = true) :
    (head.chunk delta finishReason).scalars = true := by
  simp only [ChunkHead.chunk, member, jsonText,
    PyJson.scalars, PyJson.scalarsMembers,
    PyJson.scalarsItems, scalarText_codePoints,
    Bool.and_true, Bool.true_and]
  rw [PyJson.scalars] at hDelta
  rw [hDelta, hReason]
  rfl

/- The chunk of a piece, or the last one. -/
def ChunkHead.value (head : ChunkHead) :
    Option (List Char) → PyJson F
| some text => head.piece text
| none => head.stop

theorem contentOf_value
    (head : ChunkHead)
    (text : Option (List Char)) :
    contentOf (head.value text : PyJson F) =
      text.map PyJson.codePoints := by
  cases text <;>
    simp [contentOf, ChunkHead.value, ChunkHead.piece,
      ChunkHead.stop, ChunkHead.chunk, membersOf, get?_member,
      get?_nil]

/- A written chunk is an event with its piece of text. -/
theorem eventText_value
    (hLawful : json.ops.Lawful)
    {head : ChunkHead}
    {text : Option (List Char)}
    {data : Bytes}
    (hData : dumpsBytes json (head.value text) = some data) :
    10 ∉ data ∧ data ≠ doneText ∧
      eventText json data = text.map PyJson.codePoints := by
  have hDicts : (head.value text : PyJson F).Dicts := by
    cases text with
    | none => exact dicts_chunk head (.obj .nil nofun) .str
    | some text =>
        refine dicts_chunk head
          (.obj (List.nodup_singleton _) ?_) .null
        intro m hMem
        rw [List.mem_singleton.mp hMem]
        exact .str
  have hScalars :
      (head.value text : PyJson F).scalars = true := by
    cases text with
    | none =>
        exact scalars_chunk head rfl (scalarText_codePoints _)
    | some text =>
        refine scalars_chunk head ?_ rfl
        simp [member, PyJson.scalars, PyJson.scalarsMembers,
          scalarText_codePoints]
  rcases dumpsBytes_plain hLawful hData with ⟨hLine, hText⟩
  have hNotDone : data ≠ doneText := by
    have hBrace : ∃ rest, data = 123 :: rest := by
      rw [hText]
      cases text <;> exact ⟨_, rfl⟩
    rcases hBrace with ⟨rest, rfl⟩
    intro hEq
    cases hEq
  refine ⟨hLine, hNotDone, ?_⟩
  rw [eventText, if_neg hNotDone,
    loadsBytes_dumpsBytes hLawful hDicts hScalars hData]
  exact contentOf_value head text

end CircuitDllm

------------------------------------------------------------
-- What Arrives Of A Stream
------------------------------------------------------------

namespace CircuitDllm

open Wire (Bytes)

variable {F Tok : Type} {json : JsonOps F}

/- The values are written in order, up to one of them. -/
theorem writeEvents_eq
    (json : JsonOps F)
    (vs : List (PyJson F)) :
    ∃ datas,
      (writeEvents json vs).1 =
          datas.flatMap EventStream.event ∧
        List.Forall₂
          (fun v data => dumpsBytes json v = some data)
          (vs.take datas.length) datas ∧
        ((writeEvents json vs).2 = true →
          datas.length = vs.length) := by
  induction vs with
  | nil => exact ⟨[], rfl, .nil, fun _ => rfl⟩
  | cons v vs ih =>
      rw [writeEvents]
      cases hData : dumpsBytes json v with
      | none => exact ⟨[], rfl, .nil, nofun⟩
      | some data =>
          rcases ih with ⟨datas, hBytes, hEach, hAll⟩
          refine ⟨data :: datas, ?_, .cons hData hEach, ?_⟩
          · simp [hBytes]
          · intro hWritten
            simp [hAll hWritten]

/- The texts of written chunks are those of the pieces. -/
theorem filterMap_eventText
    (hLawful : json.ops.Lawful)
    {head : ChunkHead}
    {texts : List (Option (List Char))}
    {datas : List Bytes}
    (hEach :
      List.Forall₂
        (fun v data => dumpsBytes json v = some data)
        (texts.map head.value) datas) :
    (∀ data ∈ datas, 10 ∉ data ∧ data ≠ doneText) ∧
      (datas.filterMap (eventText json)).flatten =
        PyJson.codePoints (texts.reduceOption).flatten := by
  induction texts generalizing datas with
  | nil =>
      cases hEach
      exact ⟨nofun, rfl⟩
  | cons text texts ih =>
      rw [List.map_cons] at hEach
      cases hEach with
      | cons hData hRest =>
          rename_i data datas
          rcases eventText_value hLawful hData with
            ⟨hLine, hNotDone, hText⟩
          rcases ih hRest with ⟨hAll, hTexts⟩
          refine ⟨?_, ?_⟩
          · intro d hMem
            rcases List.mem_cons.mp hMem with rfl | hLater
            · exact ⟨hLine, hNotDone⟩
            · exact hAll d hLater
          · cases text with
            | none =>
                rw [List.filterMap_cons_none hText, hTexts]
                rfl
            | some text =>
                rw [List.filterMap_cons_some hText,
                  List.flatten_cons, hTexts]
                simp [PyJson.codePoints,
                  List.reduceOption_cons_of_some]

/-
  A stream is made of the events of its first pieces; if it
  has `[DONE]`, that comes last and all pieces are there.
-/
theorem serveStream_events
    (hLawful : json.ops.Lawful)
    (head : ChunkHead)
    (texts : List (List Char))
    (ended : Bool) :
    ∃ datas last,
      serveStream json head texts ended =
          (datas ++ last).flatMap EventStream.event ∧
        (∀ data ∈ datas, 10 ∉ data ∧ data ≠ doneText) ∧
        (datas.filterMap (eventText json)).flatten <+:
          PyJson.codePoints texts.flatten ∧
        (last = [] ∨
          last = [doneText] ∧ ended = true ∧
            (datas.filterMap (eventText json)).flatten =
              PyJson.codePoints texts.flatten) := by
  let chunks : List (Option (List Char)) :=
    texts.map some ++ if ended then [none] else []
  have hValues :
      (texts.map head.piece ++
          if ended then [head.stop] else []) =
        chunks.map (head.value (F := F)) := by
    cases ended <;>
      simp [chunks, ChunkHead.value, Function.comp_def]
  have hTexts : chunks.reduceOption = texts := by
    cases ended <;> simp [chunks, List.reduceOption]
  rcases writeEvents_eq json (chunks.map head.value) with
    ⟨datas, hBytes, hEach, hAll⟩
  rw [← List.map_take] at hEach
  rcases filterMap_eventText hLawful hEach with
    ⟨hPlain, hSome⟩
  have hPrefix :
      (chunks.take datas.length).reduceOption <+: texts := by
    rw [← hTexts]
    exact (List.take_prefix _ _).filterMap id
  refine ⟨datas,
    if ended && (writeEvents json
      (chunks.map head.value)).2 then [doneText] else [],
    ?_, hPlain, ?_, ?_⟩
  · simp only [serveStream, hValues, hBytes]
    split <;> simp
  · rw [hSome]
    exact (hPrefix.flatten).map Char.toNat
  · split
    next hDone =>
        rw [Bool.and_eq_true] at hDone
        have hLength := hAll hDone.2
        rw [List.length_map] at hLength
        refine Or.inr ⟨rfl, hDone.1, ?_⟩
        rw [hSome, hLength, List.take_length, hTexts]
    next => exact Or.inl rfl

/-
  What has arrived of a stream is the start of its text, and
  all of it once `[DONE]` has.
-/
theorem stream_cut
    (hLawful : json.ops.Lawful)
    (head : ChunkHead)
    (texts : List (List Char))
    (ended : Bool)
    {bs : Bytes}
    (hCut : bs <+: serveStream json head texts ended) :
    received json bs <+: PyJson.codePoints texts.flatten ∧
      (finished bs = true →
        ended = true ∧
          received json bs =
            PyJson.codePoints texts.flatten) := by
  rcases serveStream_events hLawful head texts ended with
    ⟨datas, last, hStream, hPlain, hPrefix, hLast⟩
  have hLines : ∀ data ∈ datas ++ last, 10 ∉ data := by
    intro data hMem
    rcases List.mem_append.mp hMem with hData | hEnd
    · exact (hPlain data hData).1
    · rcases hLast with rfl | ⟨rfl, -⟩
      · cases hEnd
      · rw [List.mem_singleton.mp hEnd]
        decide
  rw [hStream] at hCut
  have hEvents : eventsIn bs <+: datas ++ last :=
    EventStream.events_prefix hLines hCut
  have hEnd :
      (last.filterMap (eventText json)).flatten = [] := by
    rcases hLast with rfl | ⟨rfl, -⟩
    · rfl
    · have hNone : eventText json doneText = none := if_pos rfl
      rw [List.filterMap_cons_none hNone]
      rfl
  have hReceived :
      received json bs <+:
        (datas.filterMap (eventText json)).flatten := by
    have hMore := (hEvents.filterMap (eventText json)).flatten
    rw [List.filterMap_append, List.flatten_append, hEnd,
      List.append_nil] at hMore
    exact hMore
  refine ⟨hReceived.trans hPrefix, ?_⟩
  intro hFinished
  rw [finished, List.contains_iff_mem] at hFinished
  -- only the last event is [DONE], so all events are there
  have hNotIn : doneText ∉ datas :=
    fun hMem => (hPlain doneText hMem).2 rfl
  have hIn := hEvents.subset hFinished
  rcases hLast with rfl | ⟨rfl, hEnded, hAll⟩
  · rw [List.append_nil] at hIn
    exact absurd hIn hNotIn
  refine ⟨hEnded, ?_⟩
  have hWhole : eventsIn bs = datas ++ [doneText] := by
    rcases List.prefix_concat_iff.mp hEvents with
      hEq | hBefore
    · exact hEq
    · exact absurd (hBefore.subset hFinished) hNotIn
  rw [received, hWhole, List.filterMap_append,
    List.flatten_append, hEnd, List.append_nil, hAll]

/-
  A client of the batch scheduler has read the start of what
  was streamed, and all of it once it has read `[DONE]`: the
  queue ended then, and this is the decoded text where
  tokens split no character, and only there.
-/
theorem batchedStream_cut
    (hLawful : json.ops.Lawful)
    (head : ChunkHead)
    (tk : Tokenizer Tok)
    (items : List (Item Tok))
    {bs : Bytes}
    (hCut : bs <+: batchedStream json head tk.decode items) :
    let (texts, produced) := serveBatched tk.decode items [] []
    received json bs <+: PyJson.codePoints texts.flatten ∧
      (finished bs = true →
        queueDone items = true ∧
          received json bs = PyJson.codePoints texts.flatten ∧
          (received json bs =
              PyJson.codePoints (tk.decode produced) ↔
            tk.Intact produced)) := by
  rcases serveBatched_texts tk.decode items [] [] with
    ⟨toks, hItems⟩
  rcases stream_cut hLawful head
      (serveBatched tk.decode items [] []).1
      (queueDone items) hCut with
    ⟨hStart, hDone⟩
  rw [hItems] at hStart hDone ⊢
  refine ⟨hStart, fun hFinished => ?_⟩
  rcases hDone hFinished with ⟨hEnded, hAll⟩
  refine ⟨hEnded, hAll, ?_⟩
  have hToNat : Function.Injective Char.toNat :=
    fun _ _ h => Char.toNat_inj.mp h
  rw [hAll]
  exact (List.map_injective_iff.mpr hToNat).eq_iff.trans
    (Tokenizer.streamTexts_eq_iff toks)

/- Tokens of one ASCII character each. -/
def asciiTokens : Tokenizer (Fin 128) where
  bytes tok := [.ofNat tok]
  nonempty := by decide

/- The stream of a queue that ends. -/
def asciiStream : Bytes :=
  batchedStream halvesJson ⟨"chatcmpl-1", 1, "m"⟩
    asciiTokens.decode [.token 72, .token 105, .done]

/- It is cut in the middle of its second event. -/
theorem batchedStream_cut_ascii :
    received halvesJson (asciiStream.take 200) <+:
        PyJson.codePoints ['H', 'i'] ∧
      (finished (asciiStream.take 200) = true →
        received halvesJson (asciiStream.take 200) =
          PyJson.codePoints ['H', 'i']) := by
  rcases batchedStream_cut halves_lawful
      ⟨"chatcmpl-1", 1, "m"⟩ asciiTokens
      [.token 72, .token 105, .done]
      (List.take_prefix 200 asciiStream) with
    ⟨hStart, hDone⟩
  exact ⟨hStart, fun hFinished => (hDone hFinished).2.1⟩

end CircuitDllm
