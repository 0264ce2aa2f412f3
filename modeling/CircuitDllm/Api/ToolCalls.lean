import CircuitDllm.Lib.PyJson
import CircuitDllm.Lib.Regex

/-
  The tool calls in a generated text (engine/api.py).

  A block stands between two tags; its body should be a JSON
  object with the name of a function and its arguments.
  What stands outside all blocks is the content.

  Main declarations:
    * `toolCallRe`, `parseToolCalls`, `choice`
    * `Blocks`, `Asks`, `Extracted`, `Lossless`
    * `parseToolCalls_lossless_iff`
-/

namespace CircuitDllm

------------------------------------------------------------
-- The Parser
------------------------------------------------------------

/- str.isspace, and \s in a pattern. -/
def isspace (c : Char) : Bool :=
  (9 ≤ c.toNat ∧ c.toNat ≤ 13) ∨
    (28 ≤ c.toNat ∧ c.toNat ≤ 32) ∨
    (8192 ≤ c.toNat ∧ c.toNat ≤ 8202) ∨
    c.toNat ∈ [133, 160, 5760, 8232, 8233, 8239, 8287, 12288]

def openTag : List Char := "<tool_call>".toList

def closeTag : List Char := "</tool_call>".toList

/- <tool_call>\s*(.*?)\s*</tool_call>, any letter for a dot -/
def toolCallRe : Regex Char :=
  Regex.between openTag isspace closeTag

/- A call of a function, as the response has it. -/
structure ToolCall (F : Type) where
  id : String
  name : PyJson F
  arguments : List Nat

/- What may be raised: obj.get of no dict, or json.dumps. -/
inductive ToolCallError where
  | attributeError
  | dumps (e : PyJson.DumpsError)
deriving DecidableEq, Repr

section

variable
  {F : Type}
  (ops : FloatOps F)
  (limits : Limits)
  (clock : Nat → Nat)

/- call_{ms}_{i} -/
def callId (ms i : Nat) : String :=
  "call_" ++ toString ms ++ "_" ++ toString i

/- One round of the loop; none where it continues. -/
def toolCall (i : Nat) (body : List Char) :
    Except ToolCallError (Option (ToolCall F)) :=
  match PyJson.loads ops limits body with
  | none => .ok none
  | some (.obj members) =>
    let name := (PyJson.get? members "name").getD .null
    if ¬ name.truthy ops then .ok none
    else
      match (PyJson.get? members "arguments").getD (.obj []) with
      | .str s => .ok (some ⟨callId (clock i) i, name, s⟩)
      | args =>
        match PyJson.dumps ops limits args with
        | .error e => .error (.dumps e)
        | .ok text =>
          .ok (some ⟨callId (clock i) i, name,
            PyJson.codePoints text⟩)
  | some _ => .error .attributeError

/- The loop over the matches from number `i` on. -/
def toolCalls :
    Nat → List (List Char) →
      Except ToolCallError (List (ToolCall F))
| _, [] => .ok []
| i, body :: bodies => do
    let call ← toolCall ops limits clock i body
    let calls ← toolCalls (i + 1) bodies
    return call.toList ++ calls

/- text.strip() or None -/
def stripped (text : List Char) : Option (List Char) :=
  if Regex.strip isspace text = [] then none
  else some (Regex.strip isspace text)

/- The content and the calls; `clock i` is read at match `i`. -/
def parseToolCalls (text : List Char) :
    Except ToolCallError
      (Option (List Char) × List (ToolCall F)) := do
  let calls ← toolCalls ops limits clock 0
    ((toolCallRe.finditer text).map (fun m => m.group 1))
  return (stripped (toolCallRe.sub [] text), calls)

inductive FinishReason where
  | stop
  | toolCalls
deriving DecidableEq, Repr

/- The assistant's message; no calls are no entry. -/
structure Message (F : Type) where
  content : Option (List Char)
  toolCalls : Option (List (ToolCall F))

/- The choice do_POST answers with; an error is its own. -/
def choice (tools : Bool) (text : List Char) :
    Except ToolCallError (Message F × FinishReason) :=
  if tools then do
    let (content, calls) ← parseToolCalls ops limits clock text
    if calls.isEmpty then return (⟨content, none⟩, .stop)
    else return (⟨content, some calls⟩, .toolCalls)
  else .ok (⟨some text, none⟩, .stop)

end

------------------------------------------------------------
-- Blocks
------------------------------------------------------------

/- A block in a text. -/
structure Block where
  before : List Char
  inner : List Char
  after : List Char

namespace Block

def text (b : Block) : List Char :=
  b.before ++ openTag ++ b.inner ++ closeTag ++ b.after

/-
  No block starts further left, and none that starts there
  is shorter.
-/
structure IsFirst (b : Block) (text : List Char) : Prop where
  text_eq : b.text = text
  leftmost : ∀ b' : Block, b'.text = text →
    b.before.length ≤ b'.before.length
  shortest : ∀ b' : Block, b'.text = text →
    b'.before.length = b.before.length →
      b.inner.length ≤ b'.inner.length

end Block

/-
  The bodies of the blocks of a text from left to right, and
  the text outside all of them.
-/
inductive Blocks :
    List Char → List (List Char) → List Char → Prop
| done
    {text : List Char}
    (hNone : ∀ b : Block, b.text ≠ text) :
    Blocks text [] text
| block
    {text outside : List Char}
    {bodies : List (List Char)}
    {b : Block}
    (hFirst : b.IsFirst text)
    (hRest : Blocks b.after bodies outside) :
    Blocks text (Regex.strip isspace b.inner :: bodies)
      (b.before ++ outside)

------------------------------------------------------------
-- What A Body Asks For
------------------------------------------------------------

section

variable {F : Type} (ops : FloatOps F) (limits : Limits)

/- A string is given as it is, other values are encoded. -/
inductive Given : PyJson F → List Nat → Prop
| str {s : List Nat} : Given (.str s) s
| encoded
    {v : PyJson F}
    (hOther : ∀ s, v ≠ .str s) :
    Given v (PyJson.codePoints (PyJson.encode ops v))

/- The body is an object with a name that is not empty. -/
inductive Asks (body : List Char) :
    PyJson F → List Nat → Prop
| call
    {members : List (List Nat × PyJson F)}
    {name : PyJson F}
    {arguments : List Nat}
    (hLoads : PyJson.loads ops limits body =
      some (.obj members))
    (hName : PyJson.get? members "name" = some name)
    (hTruthy : name.truthy ops)
    (hGiven : Given ops
      ((PyJson.get? members "arguments").getD (.obj []))
      arguments) :
    Asks body name arguments

/- One call for every body that asks for one, in order. -/
inductive Extracted :
    List (List Char) → List (ToolCall F) → Prop
| nil : Extracted [] []
| call
    {body : List Char}
    {bodies : List (List Char)}
    {call : ToolCall F}
    {calls : List (ToolCall F)}
    (hAsks : Asks ops limits body call.name call.arguments)
    (hRest : Extracted bodies calls) :
    Extracted (body :: bodies) (call :: calls)
| skip
    {body : List Char}
    {bodies : List (List Char)}
    {calls : List (ToolCall F)}
    (hNone : ∀ name arguments,
      ¬ Asks ops limits body name arguments)
    (hRest : Extracted bodies calls) :
    Extracted (body :: bodies) calls

/- Nothing of a text is lost in its content and its calls. -/
def Lossless
    (text : List Char)
    (content : Option (List Char))
    (calls : List (ToolCall F)) : Prop :=
  ∃ bodies outside,
    Blocks text bodies outside ∧
      Extracted ops limits bodies calls ∧
      content = stripped outside

end

------------------------------------------------------------
-- The Pattern
------------------------------------------------------------

theorem startsOutside_closeTag :
    Regex.StartsOutside isspace closeTag := by
  rintro c s hSpace ⟨rest, hEq⟩
  have hHead : '<' = c := by
    have hCons : closeTag = '<' :: closeTag.tail := by decide
    rw [hCons, List.cons_append, List.cons.injEq] at hEq
    exact hEq.1
  rw [← hHead] at hSpace
  revert hSpace
  decide

/- What is matched is a block, its group the stripped body. -/
theorem first_toolCallRe
    {text : List Char}
    {m : Regex.Match Char}
    (hFirst : toolCallRe.first text = some m) :
    ∃ inner,
      m.taken = openTag ++ (inner ++ closeTag) ∧
        m.group 1 = Regex.strip isspace inner ∧
        ∀ inner' after',
          text = openTag ++ inner' ++ closeTag ++ after' →
          inner.length ≤ inner'.length := by
  rw [toolCallRe, Regex.first_between startsOutside_closeTag]
    at hFirst
  split at hFirst
  · rcases Option.map_eq_some_iff.mp hFirst with
      ⟨f, hFound, rfl⟩
    refine ⟨f.1, rfl, rfl, ?_⟩
    intro inner' after' hText
    apply (Regex.upTo_eq_some hFound).2 inner' after'
    rw [hText, List.append_assoc, List.append_assoc,
      List.drop_left, List.append_assoc]
  · cases hFirst

/- Every block is matched by the pattern. -/
theorem first_toolCallRe_ne_none (inner after : List Char) :
    toolCallRe.first
      (openTag ++ inner ++ closeTag ++ after) ≠ none := by
  rw [toolCallRe, Regex.first_between startsOutside_closeTag,
    List.append_assoc, List.append_assoc,
    if_pos (List.prefix_append _ _), List.drop_left,
    ← List.append_assoc, Ne, Option.map_eq_none_iff]
  exact Regex.upTo_ne_none inner after

theorem toolCallRe_takesSome : toolCallRe.TakesSome := by
  intro text m hFirst
  rcases first_toolCallRe hFirst with ⟨inner, hTaken, -⟩
  rw [hTaken]
  exact List.append_ne_nil_of_left_ne_nil (by decide) _

theorem Block.text_eq (b : Block) :
    b.text =
      b.before ++ (openTag ++ b.inner ++ closeTag ++ b.after) :=
  by simp only [Block.text, List.append_assoc]

/- The match that is found is the first block. -/
theorem isFirst_of_search
    {text before : List Char}
    {m : Regex.Match Char}
    (hFound : toolCallRe.search text = some (before, m)) :
    ∃ inner,
      (Block.mk before inner m.rest).IsFirst text ∧
        m.group 1 = Regex.strip isspace inner := by
  rcases Regex.search_eq_some hFound with
    ⟨after, rfl, hFirst, hLeast⟩
  rcases first_toolCallRe hFirst with
    ⟨inner, hTaken, hGroup, hShortest⟩
  have hAfter := Regex.first_taken hFirst
  refine ⟨inner, ⟨?_, ?_, ?_⟩, hGroup⟩
  · rw [Block.text_eq, ← hAfter, hTaken]
    simp only [List.append_assoc]
  · intro b hText
    by_contra hLt
    rw [Block.text_eq] at hText
    have hNone := hLeast _ _ hText.symm (Nat.not_le.mp hLt)
    exact first_toolCallRe_ne_none b.inner b.after hNone
  · intro b hText hLength
    rw [Block.text_eq] at hText
    have hParts := List.append_inj hText hLength
    exact hShortest b.inner b.after hParts.2.symm

theorem no_block_of_search
    {text : List Char}
    (hNone : toolCallRe.search text = none)
    (b : Block) :
    b.text ≠ text := by
  intro hText
  rw [Block.text_eq] at hText
  exact first_toolCallRe_ne_none b.inner b.after
    (Regex.search_eq_none hNone hText.symm)

/- The matches and the text around them are the blocks. -/
theorem blocks_of_scans
    {text tail : List Char}
    {found : List (List Char × Regex.Match Char)}
    (hScans : toolCallRe.Scans text found tail) :
    Blocks text (found.map (fun f => f.2.group 1))
      (found.flatMap (fun f => f.1 ++ []) ++ tail) := by
  induction hScans with
  | done hNone => exact .done (no_block_of_search hNone)
  | step hFound hMore ih =>
      rcases isFirst_of_search hFound with
        ⟨inner, hFirst, hGroup⟩
      rw [List.map_cons, List.flatMap_cons, List.append_assoc,
        List.append_nil, hGroup]
      exact .block hFirst ih

theorem blocks_of_text (text : List Char) :
    Blocks text
      ((toolCallRe.finditer text).map (fun m => m.group 1))
      (toolCallRe.sub [] text) := by
  have hScans := Regex.scan_scans toolCallRe_takesSome
    (le_refl text.length)
  rw [Regex.finditer, List.map_map]
  exact blocks_of_scans hScans

/- A text has one first block only. -/
theorem Block.IsFirst.unique
    {text : List Char}
    {b b' : Block}
    (hFirst : b.IsFirst text)
    (hFirst' : b'.IsFirst text) :
    b = b' := by
  have hBefore : b.before.length = b'.before.length :=
    Nat.le_antisymm (hFirst.leftmost b' hFirst'.text_eq)
      (hFirst'.leftmost b hFirst.text_eq)
  have hInner : b.inner.length = b'.inner.length :=
    Nat.le_antisymm
      (hFirst.shortest b' hFirst'.text_eq hBefore.symm)
      (hFirst'.shortest b hFirst.text_eq hBefore)
  have hText : b.text = b'.text :=
    hFirst.text_eq.trans hFirst'.text_eq.symm
  rw [Block.text_eq, Block.text_eq] at hText
  have hParts := List.append_inj hText hBefore
  simp only [List.append_assoc, List.append_cancel_left_eq]
    at hParts
  have hRest := List.append_inj hParts.2 hInner
  rw [List.append_cancel_left_eq] at hRest
  cases b
  cases b'
  simp only [Block.mk.injEq]
  exact ⟨hParts.1, hRest.1, hRest.2⟩

theorem Blocks.unique
    {text outside outside' : List Char}
    {bodies bodies' : List (List Char)}
    (hBlocks : Blocks text bodies outside)
    (hBlocks' : Blocks text bodies' outside') :
    bodies = bodies' ∧ outside = outside' := by
  induction hBlocks generalizing bodies' outside' with
  | done hNone =>
      cases hBlocks' with
      | done => exact ⟨rfl, rfl⟩
      | block hFirst => exact absurd hFirst.text_eq (hNone _)
  | block hFirst hRest ih =>
      cases hBlocks' with
      | done hNone => exact absurd hFirst.text_eq (hNone _)
      | block hFirst' hRest' =>
          rcases hFirst.unique hFirst' with rfl
          rcases ih hRest' with ⟨rfl, rfl⟩
          exact ⟨rfl, rfl⟩

------------------------------------------------------------
-- The Calls
------------------------------------------------------------

section

variable
  {F : Type}
  {ops : FloatOps F}
  {limits : Limits}
  {clock : Nat → Nat}

/- json.loads makes an object of the body, if anything. -/
def ObjectOnly
    (ops : FloatOps F)
    (limits : Limits)
    (body : List Char) : Prop :=
  ∀ v, PyJson.loads ops limits body = some v → v.isObj

theorem asks_loads
    {body : List Char}
    {name : PyJson F}
    {arguments : List Nat}
    (hAsks : Asks ops limits body name arguments) :
    ∃ members,
      PyJson.loads ops limits body = some (.obj members) ∧
        PyJson.get? members "name" = some name ∧
        name.truthy ops := by
  cases hAsks with
  | call hLoads hName hTruthy hGiven =>
      exact ⟨_, hLoads, hName, hTruthy⟩

/- An object yields a call if its name is not empty. -/
theorem toolCall_obj
    {i : Nat}
    {body : List Char}
    {members : List (List Nat × PyJson F)}
    (hLoads : PyJson.loads ops limits body =
      some (.obj members)) :
    (∃ call,
      toolCall ops limits clock i body = .ok (some call) ∧
        Asks ops limits body call.name call.arguments) ∨
      toolCall ops limits clock i body = .ok none ∧
        ∀ name arguments,
          ¬ Asks ops limits body name arguments := by
  rw [toolCall, hLoads]
  simp only
  have hFits := PyJson.get?_getD_fits
    (PyJson.loads_fits hLoads) "arguments"
  cases hName : PyJson.get? members "name" with
  | none =>
      right
      refine ⟨if_pos (by simp [PyJson.truthy]), ?_⟩
      intro name arguments hAsks
      rcases asks_loads hAsks with
        ⟨members', hLoads', hGet, -⟩
      cases hLoads.symm.trans hLoads'
      cases hName.symm.trans hGet
  | some name =>
      rw [Option.getD_some]
      by_cases hTruthy : name.truthy ops
      · left
        rw [if_neg (not_not.mpr hTruthy)]
        split
        · rename_i s hArgs
          refine ⟨_, rfl, .call hLoads hName hTruthy ?_⟩
          rw [hArgs]
          exact .str
        · rename_i hOther
          rw [PyJson.dumps_eq_encode hFits]
          refine ⟨_, rfl, .call hLoads hName hTruthy ?_⟩
          exact .encoded hOther
      · right
        refine ⟨if_pos hTruthy, ?_⟩
        intro name' arguments hAsks
        rcases asks_loads hAsks with
          ⟨members', hLoads', hGet, hTruthy'⟩
        cases hLoads.symm.trans hLoads'
        cases hName.symm.trans hGet
        exact hTruthy hTruthy'

theorem toolCall_ok
    {i : Nat}
    {body : List Char}
    (hObject : ObjectOnly ops limits body) :
    (∃ call,
      toolCall ops limits clock i body = .ok (some call) ∧
        Asks ops limits body call.name call.arguments) ∨
      toolCall ops limits clock i body = .ok none ∧
        ∀ name arguments,
          ¬ Asks ops limits body name arguments := by
  cases hLoads : PyJson.loads ops limits body with
  | none =>
      right
      refine ⟨by rw [toolCall, hLoads], ?_⟩
      intro name arguments hAsks
      rcases asks_loads hAsks with ⟨members, hLoads', -⟩
      cases hLoads.symm.trans hLoads'
  | some v =>
      have hObj := hObject v hLoads
      cases v with
      | obj members => exact toolCall_obj hLoads
      | _ => cases hObj

/- Of a value that is no dict obj.get is an error. -/
theorem toolCall_error
    {i : Nat}
    {body : List Char}
    (hNot : ¬ ObjectOnly ops limits body) :
    toolCall ops limits clock i body =
      .error .attributeError := by
  unfold ObjectOnly at hNot
  push Not at hNot
  rcases hNot with ⟨v, hLoads, hOther⟩
  rw [toolCall, hLoads]
  cases v with
  | obj members => exact absurd rfl hOther
  | _ => rfl

/- Each body is done after those before it. -/
theorem toolCalls_extracted
    {i : Nat}
    {bodies : List (List Char)}
    (hObjects : ∀ body ∈ bodies,
      ObjectOnly ops limits body) :
    ∃ calls,
      toolCalls ops limits clock i bodies = .ok calls ∧
        Extracted ops limits bodies calls := by
  induction bodies generalizing i with
  | nil => exact ⟨[], rfl, .nil⟩
  | cons body bodies ih =>
      rcases @ih (i + 1) (fun body' hMem =>
        hObjects body' (List.mem_cons_of_mem body hMem)) with
        ⟨calls, hRest, hExtracted⟩
      have hObject := hObjects body List.mem_cons_self
      have hStep := @toolCall_ok F ops limits clock i body
        hObject
      rcases hStep with ⟨call, hCall, hAsks⟩ | ⟨hNone, hNo⟩
      · refine ⟨call :: calls, ?_, .call hAsks hExtracted⟩
        rw [toolCalls, hCall, hRest]
        rfl
      · refine ⟨calls, ?_, .skip hNo hExtracted⟩
        rw [toolCalls, hNone, hRest]
        rfl

/- The first body that is no object ends the loop. -/
theorem toolCalls_error
    {i : Nat}
    {bodies : List (List Char)}
    (hSome : ∃ body ∈ bodies, ¬ ObjectOnly ops limits body) :
    toolCalls ops limits clock i bodies =
      .error .attributeError := by
  induction bodies generalizing i with
  | nil =>
      rcases hSome with ⟨body, hMem, -⟩
      cases hMem
  | cons body bodies ih =>
      by_cases hObject : ObjectOnly ops limits body
      · have hRest :
            ∃ body ∈ bodies,
              ¬ ObjectOnly ops limits body := by
          rcases hSome with ⟨body', hMem, hNot⟩
          rcases List.mem_cons.mp hMem with rfl | hIn
          · exact absurd hObject hNot
          · exact ⟨body', hIn, hNot⟩
        rw [toolCalls, ih hRest]
        have hStep := @toolCall_ok F ops limits clock i body
          hObject
        rcases hStep with ⟨call, hCall, -⟩ | ⟨hNone, -⟩
        · rw [hCall]
          rfl
        · rw [hNone]
          rfl
      · rw [toolCalls, toolCall_error hObject]
        rfl

end

------------------------------------------------------------
-- Extraction
------------------------------------------------------------

section

variable
  {F : Type}
  (ops : FloatOps F)
  (limits : Limits)
  (clock : Nat → Nat)

theorem parseToolCalls_ok
    {text outside : List Char}
    {bodies : List (List Char)}
    (hBlocks : Blocks text bodies outside)
    (hObjects : ∀ body ∈ bodies,
      ObjectOnly ops limits body) :
    ∃ calls,
      parseToolCalls ops limits clock text =
          .ok (stripped outside, calls) ∧
        Extracted ops limits bodies calls := by
  rcases hBlocks.unique (blocks_of_text text) with ⟨rfl, rfl⟩
  have hLoop := @toolCalls_extracted F ops limits clock 0 _
    hObjects
  rcases hLoop with ⟨calls, hCalls, hExtracted⟩
  refine ⟨calls, ?_, hExtracted⟩
  rw [parseToolCalls, hCalls]
  rfl

theorem parseToolCalls_error
    {text outside : List Char}
    {bodies : List (List Char)}
    (hBlocks : Blocks text bodies outside)
    (hSome : ∃ body ∈ bodies, ¬ ObjectOnly ops limits body) :
    parseToolCalls ops limits clock text =
      .error .attributeError := by
  rcases hBlocks.unique (blocks_of_text text) with ⟨rfl, rfl⟩
  rw [parseToolCalls, toolCalls_error hSome]
  rfl

/- The request fails if one body is no object. -/
theorem choice_error_iff
    {text outside : List Char}
    {bodies : List (List Char)}
    (hBlocks : Blocks text bodies outside) :
    choice ops limits clock true text =
        .error .attributeError ↔
      ∃ body ∈ bodies, ¬ ObjectOnly ops limits body := by
  constructor
  · intro hError
    by_contra hNone
    have hObjects :
        ∀ body ∈ bodies, ObjectOnly ops limits body := by
      intro body hMem
      by_contra hNot
      exact hNone ⟨body, hMem, hNot⟩
    rcases parseToolCalls_ok ops limits clock hBlocks hObjects
      with ⟨calls, hParse, -⟩
    rw [choice, if_pos rfl, hParse] at hError
    cases calls with
    | nil => cases hError
    | cons call calls => cases hError
  · intro hSome
    rw [choice, if_pos rfl,
      parseToolCalls_error ops limits clock hBlocks hSome]
    rfl

/-
  The calls are extracted, and no text is lost, if and only
  if no body of a block is a JSON value that is no object.
-/
theorem parseToolCalls_lossless_iff (text : List Char) :
    (∃ content calls,
      parseToolCalls ops limits clock text =
          .ok (content, calls) ∧
        Lossless ops limits text content calls) ↔
      ∀ bodies outside, Blocks text bodies outside →
        ∀ body ∈ bodies, ∀ v,
          PyJson.loads ops limits body = some v → v.isObj := by
  constructor
  · rintro ⟨content, calls, hParse, -⟩ bodies outside hBlocks
    by_contra hNot
    push Not at hNot
    rcases hNot with ⟨body, hMem, v, hLoads, hOther⟩
    have hSome :
        ∃ body ∈ bodies, ¬ ObjectOnly ops limits body :=
      ⟨body, hMem, fun hObject => hOther (hObject v hLoads)⟩
    rw [parseToolCalls_error ops limits clock hBlocks hSome]
      at hParse
    cases hParse
  · intro hObjects
    have hBlocks := blocks_of_text text
    rcases parseToolCalls_ok ops limits clock hBlocks
      (hObjects _ _ hBlocks) with ⟨calls, hParse, hExtracted⟩
    exact ⟨_, calls, hParse, _, _, hBlocks, hExtracted, rfl⟩

end

/- A list of calls in one block ends the request. -/
theorem list_of_calls_raises :
    ¬ ∃ content calls,
      parseToolCalls
          ⟨fun _ => .finite (), fun _ => [], fun _ => true⟩
          ⟨900, 4300⟩ (fun _ => 0)
          "<tool_call>[\x7b\"name\": \"f\"\x7d]</tool_call>".toList =
        .ok (content, calls) ∧
      Lossless
          ⟨fun _ => .finite (), fun _ => [], fun _ => true⟩
          ⟨900, 4300⟩
          "<tool_call>[\x7b\"name\": \"f\"\x7d]</tool_call>".toList
          content calls := by
  rintro ⟨content, calls, hParse, -⟩
  cases hParse

end CircuitDllm
