import Mathlib.Tactic.Common

/-
  A connection to a server that answers in order.

  The server answers every request once, in the order they
  were sent, and as late as it likes.  So the requests whose
  replies have not been read say what a read will return.

  Main declarations:
    * `Channel.send`, `Channel.serve`, `Channel.await`
    * `Channel.pending`
    * `Channel.pending_of_await`
-/

------------------------------------------------------------
-- Channels
------------------------------------------------------------

namespace CircuitDllm

/-
  The requests the server has not answered yet, and those
  whose replies are waiting to be read.
-/
structure Channel (F : Type) where
  asked : List F := []
  answered : List F := []
deriving DecidableEq, Repr

namespace Channel

variable {F : Type}

def send (f : F) (c : Channel F) : Channel F :=
  { c with asked := c.asked ++ [f] }

/- The server answers its oldest request. -/
def serve (c : Channel F) : Channel F :=
  match c.asked with
  | [] => c
  | f :: asked =>
      { asked := asked, answered := c.answered ++ [f] }

/- Read the reply that is there; it answers the request. -/
def receive (c : Channel F) : Option (F × Channel F) :=
  match c.answered with
  | [] => none
  | f :: answered => some (f, { c with answered := answered })

/- A blocking read that lasts until a reply is there. -/
def await (c : Channel F) : Option (F × Channel F) :=
  match c.receive with
  | some r => some r
  | none => c.serve.receive

/- The requests whose replies are unread, oldest first. -/
def pending (c : Channel F) : List F :=
  c.answered ++ c.asked

/- Nothing is under way. -/
def Quiet (c : Channel F) : Prop :=
  c.pending = []

theorem quiet_new : ({} : Channel F).Quiet := rfl

@[simp] theorem pending_send (f : F) (c : Channel F) :
    (c.send f).pending = c.pending ++ [f] := by
  simp [pending, send]

/- When the server answers does not matter. -/
@[simp] theorem pending_serve (c : Channel F) :
    c.serve.pending = c.pending := by
  unfold serve
  split
  next => exact rfl
  next f asked hAsked => simp [pending, hAsked]

theorem pending_of_receive
    {c c' : Channel F}
    {f : F}
    (hReceive : c.receive = some (f, c')) :
    c.pending = f :: c'.pending := by
  unfold receive at hReceive
  split at hReceive
  · cases hReceive
  next f' answered hAnswered =>
    rcases Prod.mk.inj (Option.some.inj hReceive) with
      ⟨rfl, rfl⟩
    simp [pending, hAnswered]

/- A read returns the reply to the oldest request. -/
theorem pending_of_await
    {c c' : Channel F}
    {f : F}
    (hAwait : c.await = some (f, c')) :
    c.pending = f :: c'.pending := by
  unfold await at hAwait
  split at hAwait
  next r hReceive =>
    rw [Option.some.inj hAwait] at hReceive
    exact pending_of_receive hReceive
  next =>
    rw [← pending_serve]
    exact pending_of_receive hAwait

/- Whoever has sent a request gets a reply. -/
theorem exists_await_send (f : F) (c : Channel F) :
    ∃ r, (c.send f).await = some r := by
  unfold await receive serve send
  cases c.answered with
  | nil => cases c.asked <;> exact ⟨_, rfl⟩
  | cons g answered => exact ⟨_, rfl⟩

/- On a quiet connection a request gets its own reply. -/
theorem Quiet.await_send
    {c c' : Channel F}
    (hQuiet : c.Quiet)
    {f g : F}
    (hAwait : (c.send f).await = some (g, c')) :
    g = f ∧ c'.Quiet := by
  have hPending := pending_of_await hAwait
  rw [pending_send, hQuiet, List.nil_append] at hPending
  rcases List.cons.inj hPending with ⟨rfl, hRest⟩
  exact ⟨rfl, hRest.symm⟩

end Channel

end CircuitDllm
