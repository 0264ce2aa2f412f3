import CircuitDllm.Decode.Greedy
import CircuitDllm.Kv.Pipeline
import CircuitDllm.SpecDecode.Loop

/-
  generate() over the static pipeline (engine/coordinator.py,
  _relay): the local stage, then each remote stage, each with
  the session's cache.

  Main declarations:
    * `staticForward`
    * `generate`
    * `generate_eq_greedyCut`
-/

------------------------------------------------------------
-- The Static Relay
------------------------------------------------------------

namespace CircuitDllm

variable {Tok H : Type}

/-
  Relay a chunk and pick at its last row.  pos == 0 starts
  a fresh cache in every stage.
-/
def staticForward
    (model : Model Tok H) :
    Forward Tok (List (StageKV H)) SpecError :=
  fun pos ids _ kvs =>
    let kvs :=
      if pos = 0 then model.stages.map (fun _ => []) else kvs
    let (hidden, kvs) :=
      runStages model.stages kvs (ids.map model.embed) pos
    match (hidden.map model.lmHead).getLast? with
    | none => (.error .index, kvs)
    | some pick => (.ok pick, kvs)

/- Greedy generate on a fresh session. -/
def generate
    (model : Model Tok H)
    (eos : Tok → Bool)
    (ids : List Tok)
    (nNew : Int) :
    Except SpecError (List Tok) :=
  (generateState (staticForward model) eos ids nNew
    []).1.map (·.out)

variable [Inhabited Tok]

/- The static relay is a relay of the model. -/
theorem staticForward_spec (model : Model Tok H) :
    ForwardSpec (staticForward model) model.next
      (fun kvs kv => kv = [] ∨ kvs = model.linearKVs kv)
      False := by
  intro kvs kv ids hIds hHolds
  left
  have hKvs :
      (if kv.length = 0 then
        model.stages.map (fun _ => []) else kvs) =
        model.linearKVs kv := by
    rcases hHolds with rfl | rfl
    · simpa using model.fresh_eq_linearKVs
    · split
      next hZero =>
        rcases List.length_eq_zero_iff.mp hZero with rfl
        exact model.fresh_eq_linearKVs
      next => rfl
  rcases model.runStages_next kv ids hIds with
    ⟨hidden, hRun, hPick⟩
  refine ⟨model.linearKVs (kv ++ ids), ?_, Or.inr rfl⟩
  simp only [staticForward, hKvs, hRun, hPick]

/- generate() returns the greedy tokens cut before EOS. -/
theorem generate_eq_greedyCut
    (model : Model Tok H)
    (eos : Tok → Bool)
    (ids : List Tok)
    (nNew : Int)
    (hIds : ids ≠ []) :
    generate model eos ids nNew =
      .ok (greedyCut model.next eos ids nNew.toNat) := by
  rcases generateState_greedy (staticForward_spec model) eos
      ids nNew [] hIds (Or.inl rfl) with
    ⟨s', hState, _⟩ | ⟨hFalse, _⟩
  · unfold generate
    rw [hState]
    rfl
  · exact hFalse.elim

/- A prompt without tokens has no row to pick from. -/
omit [Inhabited Tok] in
theorem runStages_nil
    (stages : List (Stage H))
    (kvs : List (StageKV H))
    (pos : Nat) :
    (runStages stages kvs [] pos).1 = [] := by
  induction stages generalizing kvs with
  | nil => rfl
  | cons stage stages ih =>
      cases kvs with
      | nil => rfl
      | cons kv kvs =>
          simp [runStages, Stage.forward, Causal.feed, ih]

omit [Inhabited Tok] in
theorem generate_nil
    (model : Model Tok H)
    (eos : Tok → Bool)
    (nNew : Int) :
    generate model eos [] nNew = .error .index := by
  simp [generate, generateState, staticForward,
    runStages_nil, Except.map]

end CircuitDllm
