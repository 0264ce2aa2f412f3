import Mathlib.Logic.Function.Basic
import CircuitDllm.Lib.Dict
import CircuitDllm.Lib.History

/-
  Objects in a table under a lock, used outside of it.

  A thread looks its object up under the lock, and acts on
  it once it has released the lock.  Meanwhile other threads
  may replace or remove the table's entry.  While no two
  threads hold one object, every run has the results and
  the contents of a run in which each call is one step, in
  the order of the lookups.

  Main declarations:
    * `Access`, `Call`, `Objects`
    * `Store`, `Store.perform`, `Store.reap`
    * `Shared`, `Shared.step`, `Shared.Apart`
    * `Serial`, `Shared.log`
    * `Sim`, `linearizable`, `linearizable_sole`
-/

------------------------------------------------------------
-- One Call At A Time
------------------------------------------------------------

namespace CircuitDllm.LockedStore

variable {K V C R T : Type} [DecidableEq K]

/- How a call comes to its object. -/
inductive Access where
  /- a new object takes the entry -/
  | renew
  /- the object of the entry, or a new one -/
  | ensure
  /- the object of the entry, if there is one -/
  | find
  /- the entry is removed -/
  | drop
deriving DecidableEq, Repr

structure Call (K C : Type) where
  key : K
  access : Access
  code : C

/- What an object is at first, and what a call does to it. -/
structure Objects (V C R : Type) where
  new : V
  act : C → V → R × V

/- The objects, and when each was last looked up. -/
structure Store (K V T : Type) where
  objects : Dict K V := .empty
  touch : Dict K T := .empty

namespace Store

variable (obj : Objects V C R)

/- The call acts on an object that the entry will have. -/
def update
    (call : Call K C)
    (now : T)
    (v : V)
    (s : Store K V T) :
    Option R × Store K V T :=
  (some (obj.act call.code v).1,
    { objects :=
        s.objects.set call.key (obj.act call.code v).2
      touch := s.touch.set call.key now })

def perform
    (call : Call K C)
    (now : T)
    (s : Store K V T) :
    Option R × Store K V T :=
  match call.access, s.objects.get? call.key with
  | .renew, _ => s.update obj call now obj.new
  | .ensure, none => s.update obj call now obj.new
  | .ensure, some v => s.update obj call now v
  | .find, none => (none, s)
  | .find, some v => s.update obj call now v
  | .drop, _ =>
    (none,
      { objects := s.objects.erase call.key
        touch := s.touch.erase call.key })

/- The keys that were not looked up for long. -/
def staleKeys (stale : T → Bool) (touch : Dict K T) : List K :=
  (touch.entries.filter (fun e => stale e.2)).map (·.1)

def reap (stale : T → Bool) (s : Store K V T) : Store K V T where
  objects :=
    (staleKeys stale s.touch).foldl Dict.erase s.objects
  touch := (staleKeys stale s.touch).foldl Dict.erase s.touch

end Store

end CircuitDllm.LockedStore

------------------------------------------------------------
-- Threads
------------------------------------------------------------

namespace CircuitDllm.LockedStore

variable {K V C R T : Type} [DecidableEq K]

/- Where a thread is. -/
inductive Pc (K C : Type) where
  | idle
  | asked (call : Call K C)
  /- it has the object and is outside of the lock -/
  | holding (call : Call K C) (address : Nat)

/-
  The objects by address, the table under the lock, and what
  each thread got back.
-/
structure Shared (K V C R T : Type) where
  heap : Nat → V
  next : Nat := 0
  table : Dict K Nat := .empty
  touch : Dict K T := .empty
  pc : Nat → Pc K C := fun _ => .idle
  results : Nat → List (Option R) := fun _ => []

inductive Move (K C T : Type) where
  | ask (t : Nat) (call : Call K C)
  /- under the lock -/
  | lookup (t : Nat) (now : T)
  /- outside of the lock -/
  | act (t : Nat)
  /- under the lock -/
  | reap (stale : T → Bool)

namespace Shared

variable (obj : Objects V C R)

def goto (s : Shared K V C R T) (t : Nat) (pc : Pc K C) :
    Shared K V C R T :=
  { s with pc := Function.update s.pc t pc }

/- The thread is done. -/
def finish (s : Shared K V C R T) (t : Nat) (r : Option R) :
    Shared K V C R T :=
  { s.goto t .idle with
    results :=
      Function.update s.results t (s.results t ++ [r]) }

def hold
    (s : Shared K V C R T)
    (t : Nat)
    (call : Call K C)
    (address : Nat)
    (now : T) :
    Shared K V C R T :=
  { s.goto t (.holding call address) with
    touch := s.touch.set call.key now }

/- A new object takes the entry. -/
def place (s : Shared K V C R T) (key : K) :
    Shared K V C R T :=
  { s with
    heap := Function.update s.heap s.next obj.new
    table := s.table.set key s.next
    next := s.next + 1 }

def create
    (s : Shared K V C R T)
    (t : Nat)
    (call : Call K C)
    (now : T) :
    Shared K V C R T :=
  (s.place obj call.key).hold t call s.next now

def look
    (s : Shared K V C R T)
    (t : Nat)
    (call : Call K C)
    (now : T) :
    Shared K V C R T :=
  match call.access, s.table.get? call.key with
  | .renew, _ => s.create obj t call now
  | .ensure, none => s.create obj t call now
  | .ensure, some address => s.hold t call address now
  | .find, none => s.finish t none
  | .find, some address => s.hold t call address now
  | .drop, _ =>
    { s.finish t none with
      table := s.table.erase call.key
      touch := s.touch.erase call.key }

/- A step that cannot be taken does nothing. -/
def step (s : Shared K V C R T) :
    Move K C T → Shared K V C R T
| .ask t call =>
    match s.pc t with
    | .idle => s.goto t (.asked call)
    | _ => s
| .lookup t now =>
    match s.pc t with
    | .asked call => s.look obj t call now
    | _ => s
| .act t =>
    match s.pc t with
    | .holding call address =>
      { s.finish t
          (some (obj.act call.code (s.heap address)).1) with
        heap :=
          Function.update s.heap address
            (obj.act call.code (s.heap address)).2 }
    | _ => s
| .reap stale =>
    { s with
      table :=
        (Store.staleKeys stale s.touch).foldl Dict.erase
          s.table
      touch :=
        (Store.staleKeys stale s.touch).foldl Dict.erase
          s.touch }

/- No other thread holds the object that is looked up. -/
def Apart (s : Shared K V C R T) : Move K C T → Prop
| .lookup t _ =>
    ∀ call address,
      s.pc t = .asked call →
      call.access = .ensure ∨ call.access = .find →
      s.table.get? call.key = some address →
        ∀ t' call', s.pc t' ≠ .holding call' address
| _ => True

end Shared

/-
  The same for the keys of `P` only, and the threads of `Q`
  look no other keys up.
-/
def Shared.ApartOn
    (P : K → Prop)
    (Q : Nat → Prop)
    (s : Shared K V C R T) :
    Move K C T → Prop
| .lookup t now =>
    ∀ call,
      s.pc t = .asked call →
        (Q t → P call.key) ∧
          (P call.key → s.Apart (.lookup t now))
| _ => True

/- A call or a sweep as one step. -/
inductive Entry (K C T : Type) where
  | call (t : Nat) (call : Call K C) (now : T)
  | reap (stale : T → Bool)

/- A store with the results of each thread's calls. -/
structure Serial (K V R T : Type) where
  store : Store K V T := {}
  results : Nat → List (Option R) := fun _ => []

def Serial.step
    (obj : Objects V C R)
    (a : Serial K V R T) :
    Entry K C T → Serial K V R T
| .call t call now =>
    { store := (a.store.perform obj call now).2
      results :=
        Function.update a.results t
          (a.results t ++ [(a.store.perform obj call now).1]) }
| .reap stale => { a with store := a.store.reap stale }

/- The entry a step makes: calls count when looked up. -/
def Shared.entryOf (s : Shared K V C R T) :
    Move K C T → Option (Entry K C T)
| .lookup t now =>
    match s.pc t with
    | .asked call => some (.call t call now)
    | _ => none
| .reap stale => some (.reap stale)
| _ => none

/- The calls of a run in the order of their lookups. -/
def Shared.log
    (obj : Objects V C R)
    (s : Shared K V C R T)
    (moves : List (Move K C T)) :
    List (Entry K C T) :=
  (History.trail (Shared.step obj) s moves).filterMap
    (fun e => e.1.entryOf e.2)

end CircuitDllm.LockedStore

------------------------------------------------------------
-- The Two Agree
------------------------------------------------------------

namespace CircuitDllm.LockedStore

variable {K V C R T : Type} [DecidableEq K]

/-
  What an object is worth: what it will be once the thread
  that holds it has acted.
-/
structure Worth
    (obj : Objects V C R)
    (s : Shared K V C R T)
    (address : Nat)
    (v : V) :
    Prop where
  held :
    ∀ t call, s.pc t = .holding call address →
      v = (obj.act call.code (s.heap address)).2
  free :
    (∀ t call, s.pc t ≠ .holding call address) →
      v = s.heap address

/- The result a thread will get for the object it holds. -/
def Shared.owed
    (obj : Objects V C R)
    (s : Shared K V C R T)
    (t : Nat) :
    List (Option R) :=
  match s.pc t with
  | .holding call address =>
    [some (obj.act call.code (s.heap address)).1]
  | _ => []

/- Addresses are new, and an object has one key for good. -/
structure Placed (s : Shared K V C R T) : Prop where
  table :
    ∀ k address, s.table.get? k = some address →
      address < s.next
  entry :
    ∀ k k' address, s.table.get? k = some address →
      s.table.get? k' = some address → k = k'
  held :
    ∀ t call address, s.pc t = .holding call address →
      address < s.next
  named :
    ∀ t call address k, s.pc t = .holding call address →
      s.table.get? k = some address → call.key = k
  shared :
    ∀ t t' call call' address,
      s.pc t = .holding call address →
      s.pc t' = .holding call' address →
        call.key = call'.key

/-
  The threads' state stands for the serial one, as far as
  the keys of `P` and the threads of `Q` go.
-/
structure Sim
    (obj : Objects V C R)
    (P : K → Prop)
    (Q : Nat → Prop)
    (s : Shared K V C R T)
    (a : Serial K V R T) :
    Prop where
  placed : Placed s
  holder :
    ∀ t t' call call' address, P call.key →
      s.pc t = .holding call address →
      s.pc t' = .holding call' address → t = t'
  busy :
    ∀ t call address, Q t →
      s.pc t = .holding call address → P call.key
  touch : a.store.touch = s.touch
  keys :
    ∀ k, (a.store.objects.get? k).isSome =
      (s.table.get? k).isSome
  worth :
    ∀ k address v, P k → s.table.get? k = some address →
      a.store.objects.get? k = some v → Worth obj s address v
  results :
    ∀ t, Q t → a.results t = s.results t ++ s.owed obj t

variable {obj : Objects V C R} {s : Shared K V C R T}
  {a : Serial K V R T} {P : K → Prop} {Q : Nat → Prop}

theorem Shared.Apart.on
    {move : Move K C T}
    (hApart : s.Apart move) :
    s.ApartOn (fun _ => True) (fun _ => True) move := by
  cases move with
  | lookup t now =>
      intro call _
      exact ⟨fun _ => trivial, fun _ => hApart⟩
  | _ => trivial

theorem placed_new (heap : Nat → V) :
    Placed ({ heap := heap } : Shared K V C R T) where
  table := fun _ _ h => nomatch h
  entry := fun _ _ _ h => nomatch h
  held := fun _ _ _ h => nomatch h
  named := fun _ _ _ _ h => nomatch h
  shared := fun _ _ _ _ _ h => nomatch h

theorem sim_new (heap : Nat → V) :
    Sim obj P Q ({ heap := heap } : Shared K V C R T)
      ({} : Serial K V R T) where
  placed := placed_new heap
  holder := fun _ _ _ _ _ _ h => nomatch h
  busy := fun _ _ _ _ h => nomatch h
  touch := rfl
  keys := fun _ => rfl
  worth := fun _ _ _ _ h => nomatch h
  results := fun _ _ => rfl

/- Fewer entries and fewer holders are in place still. -/
theorem Placed.mono
    (hPlaced : Placed s)
    {s' : Shared K V C R T}
    (hNext : s'.next = s.next)
    (hTable :
      ∀ k address, s'.table.get? k = some address →
        s.table.get? k = some address)
    (hHeld :
      ∀ t call address, s'.pc t = .holding call address →
        s.pc t = .holding call address) :
    Placed s' where
  table := by
    intro k address hEntry
    rw [hNext]
    exact hPlaced.table k address (hTable _ _ hEntry)
  entry := by
    intro k k' address hEntry hEntry'
    exact hPlaced.entry k k' address
      (hTable _ _ hEntry) (hTable _ _ hEntry')
  held := by
    intro t call address hHolds
    rw [hNext]
    exact hPlaced.held t call address (hHeld _ _ _ hHolds)
  named := by
    intro t call address k hHolds hEntry
    exact hPlaced.named t call address k
      (hHeld _ _ _ hHolds) (hTable _ _ hEntry)
  shared := by
    intro t t' call call' address hHolds hHolds'
    exact hPlaced.shared t t' call call' address
      (hHeld _ _ _ hHolds) (hHeld _ _ _ hHolds')

omit [DecidableEq K] in
/- An object that nobody came near is worth the same. -/
theorem Worth.same
    {address : Nat}
    {v : V}
    (hWorth : Worth obj s address v)
    {s' : Shared K V C R T}
    (hHeap : s'.heap address = s.heap address)
    (hHeld :
      ∀ t call, s'.pc t = .holding call address ↔
        s.pc t = .holding call address) :
    Worth obj s' address v where
  held := by
    intro t call hHolds
    rw [hHeap]
    exact hWorth.held t call ((hHeld _ _).mp hHolds)
  free := by
    intro hFree
    rw [hHeap]
    refine hWorth.free ?_
    intro t call hHolds
    exact hFree t call ((hHeld _ _).mpr hHolds)

omit [DecidableEq K] in
/- A thread goes to a place where it has no object. -/
theorem goto_holding
    {t : Nat}
    {pc : Pc K C}
    (hBefore : ∀ call address, s.pc t ≠ .holding call address)
    (hAfter : ∀ call address, pc ≠ .holding call address)
    (t' : Nat)
    (call : Call K C)
    (address : Nat) :
    (s.goto t pc).pc t' = .holding call address ↔
      s.pc t' = .holding call address := by
  by_cases hEq : t' = t
  · subst hEq
    simp [Shared.goto, hBefore, hAfter]
  · simp [Shared.goto, hEq]

theorem hold_holding
    {t : Nat}
    {call : Call K C}
    {address : Nat}
    {now : T}
    {t' : Nat}
    {call' : Call K C}
    {address' : Nat} :
    (s.hold t call address now).pc t' =
        .holding call' address' ↔
      (t' = t ∧ call' = call ∧ address' = address) ∨
        (t' ≠ t ∧ s.pc t' = .holding call' address') := by
  by_cases hEq : t' = t
  · subst hEq
    simp [Shared.hold, Shared.goto, eq_comm]
  · simp [Shared.hold, Shared.goto, hEq]

/- An entry is the new object's, or was there before. -/
theorem Placed.entry_place
    (hPlaced : Placed s)
    {key k : K}
    {address : Nat}
    (hGet : (s.place obj key).table.get? k = some address) :
    (key = k ∧ address = s.next) ∨
      (key ≠ k ∧ address < s.next ∧
        s.table.get? k = some address) := by
  simp only [Shared.place, Dict.get?_set] at hGet
  by_cases hKey : key = k
  · rw [if_pos hKey] at hGet
    exact Or.inl ⟨hKey, (Option.some.inj hGet).symm⟩
  · rw [if_neg hKey] at hGet
    exact Or.inr ⟨hKey, hPlaced.table _ _ hGet, hGet⟩

theorem Placed.place
    (hPlaced : Placed s)
    (key : K) :
    Placed (s.place obj key) where
  table := by
    intro k address hGet
    change address < s.next + 1
    rcases hPlaced.entry_place hGet with
      ⟨_, rfl⟩ | ⟨_, hLt, _⟩
    · exact Nat.lt_succ_self _
    · exact Nat.lt_succ_of_lt hLt
  entry := by
    intro k k' address hGet hGet'
    rcases hPlaced.entry_place hGet with
      ⟨hKey, hAt⟩ | ⟨_, hLt, hBefore⟩ <;>
      rcases hPlaced.entry_place hGet' with
        ⟨hKey', hAt'⟩ | ⟨_, hLt', hBefore'⟩
    · exact hKey.symm.trans hKey'
    · omega
    · omega
    · exact hPlaced.entry _ _ _ hBefore hBefore'
  held := by
    intro t call address hHeld
    exact Nat.lt_succ_of_lt (hPlaced.held t call address hHeld)
  named := by
    intro t call address k hHeld hGet
    rcases hPlaced.entry_place hGet with
      ⟨_, rfl⟩ | ⟨_, _, hBefore⟩
    · exact absurd (hPlaced.held _ _ _ hHeld)
        (Nat.lt_irrefl _)
    · exact hPlaced.named t call address k hHeld hBefore
  shared := hPlaced.shared

theorem Placed.hold
    (hPlaced : Placed s)
    (t : Nat)
    {call : Call K C}
    {address : Nat}
    (now : T)
    (hEntry : s.table.get? call.key = some address) :
    Placed (s.hold t call address now) where
  table := hPlaced.table
  entry := hPlaced.entry
  held := by
    intro t' call' address' hHeld
    rcases hold_holding.mp hHeld with ⟨_, _, rfl⟩ | ⟨_, hOld⟩
    · exact hPlaced.table _ _ hEntry
    · exact hPlaced.held _ _ _ hOld
  named := by
    intro t' call' address' k hHeld hGet
    rcases hold_holding.mp hHeld with
      ⟨_, rfl, rfl⟩ | ⟨_, hOld⟩
    · exact hPlaced.entry _ _ _ hEntry hGet
    · exact hPlaced.named _ _ _ _ hOld hGet
  shared := by
    intro t₁ t₂ c₁ c₂ address' h₁ h₂
    rcases hold_holding.mp h₁ with
      ⟨_, rfl, rfl⟩ | ⟨_, hOld₁⟩ <;>
      rcases hold_holding.mp h₂ with
        ⟨_, hCall, hAt⟩ | ⟨_, hOld₂⟩
    · rw [hCall]
    · exact (hPlaced.named _ _ _ _ hOld₂ hEntry).symm
    · rw [hCall]
      exact hPlaced.named _ _ _ _ hOld₁ (hAt ▸ hEntry)
    · exact hPlaced.shared _ _ _ _ _ hOld₁ hOld₂

/- A thread goes to a place where it has no object. -/
theorem Placed.leave
    (hPlaced : Placed s)
    (t : Nat)
    (pc : Pc K C)
    (hAfter : ∀ call address, pc ≠ .holding call address) :
    Placed (s.goto t pc) := by
  refine hPlaced.mono rfl (fun _ _ h => h) ?_
  intro t' call address hHeld
  by_cases hEq : t' = t
  · subst hEq
    simp [Shared.goto, hAfter] at hHeld
  · simpa [Shared.goto, hEq] using hHeld

theorem Placed.erase
    (hPlaced : Placed s)
    (keys : List K)
    (touch : Dict K T) :
    Placed
      { s with
        table := keys.foldl Dict.erase s.table
        touch := touch } := by
  refine hPlaced.mono rfl ?_ (fun _ _ _ h => h)
  intro k address hEntry
  rcases Dict.get?_foldl_erase s.table keys k with
    hNone | hSame
  · rw [hNone] at hEntry
    cases hEntry
  · exact hSame ▸ hEntry

theorem Placed.look
    (hPlaced : Placed s)
    (t : Nat)
    (call : Call K C)
    (now : T) :
    Placed (s.look obj t call now) := by
  have hCreate : Placed (s.create obj t call now) :=
    (hPlaced.place call.key).hold t now
      (Dict.get?_set_self _ _ _)
  have hFinish : Placed (s.finish t (none : Option R)) :=
    (hPlaced.leave t .idle (by simp)).mono rfl
      (fun _ _ h => h) (fun _ _ _ h => h)
  cases hEntry : s.table.get? call.key with
  | none =>
      simp only [Shared.look, hEntry]
      cases call.access with
      | renew => exact hCreate
      | ensure => exact hCreate
      | find => exact hFinish
      | drop => exact hFinish.erase [call.key] _
  | some address =>
      simp only [Shared.look, hEntry]
      cases call.access with
      | renew => exact hCreate
      | ensure => exact hPlaced.hold t now hEntry
      | find => exact hPlaced.hold t now hEntry
      | drop => exact hFinish.erase [call.key] _

/- Whatever the threads do, objects stay in their place. -/
theorem Placed.step
    (hPlaced : Placed s)
    (move : Move K C T) :
    Placed (s.step obj move) := by
  cases move with
  | ask t call =>
      simp only [Shared.step]
      split
      · exact hPlaced.leave t _ (by simp)
      · exact hPlaced
  | lookup t now =>
      simp only [Shared.step]
      split
      · exact hPlaced.look t _ now
      · exact hPlaced
  | act t =>
      simp only [Shared.step]
      split
      · exact (hPlaced.leave t .idle (by simp)).mono
          rfl (fun _ _ h => h) (fun _ _ _ h => h)
      · exact hPlaced
  | reap stale => exact hPlaced.erase _ _

/- A thread that takes up a call changes nothing. -/
theorem Sim.ask
    (hSim : Sim obj P Q s a)
    {t : Nat}
    (call : Call K C)
    (hIdle : s.pc t = .idle) :
    Sim obj P Q (s.goto t (.asked call)) a := by
  have hHolds :
      ∀ t' call' address,
        (s.goto t (.asked call)).pc t' =
            .holding call' address ↔
          s.pc t' = .holding call' address :=
    goto_holding (by simp [hIdle]) (by simp)
  refine ⟨hSim.placed.leave t _ (by simp), ?_, ?_,
    hSim.touch, hSim.keys, ?_, ?_⟩
  · intro t₁ t₂ c₁ c₂ address hKey h₁ h₂
    exact hSim.holder t₁ t₂ c₁ c₂ address hKey
      ((hHolds _ _ _).mp h₁) ((hHolds _ _ _).mp h₂)
  · intro t' call' address hMine hHeld
    exact hSim.busy t' call' address hMine
      ((hHolds _ _ _).mp hHeld)
  · intro k address v hKey hEntry hObject
    exact (hSim.worth k address v hKey hEntry hObject).same
      rfl (fun _ _ => hHolds _ _ _)
  · intro t' hMine
    rw [hSim.results t' hMine]
    by_cases hEq : t' = t
    · subst hEq
      simp [Shared.goto, Shared.owed, hIdle]
    · simp [Shared.goto, Shared.owed, hEq]

/- The thread's action gives what its object was worth. -/
theorem Sim.act
    (hSim : Sim obj P Q s a)
    {t : Nat}
    {call : Call K C}
    {address : Nat}
    (hPc : s.pc t = .holding call address) :
    Sim obj P Q (s.step obj (.act t)) a := by
  have hPlaced : Placed (s.step obj (.act t)) :=
    hSim.placed.step _
  have hStep :
      s.step obj (.act t) =
        { s.finish t
            (some (obj.act call.code (s.heap address)).1) with
          heap :=
            Function.update s.heap address
              (obj.act call.code (s.heap address)).2 } := by
    simp only [Shared.step, hPc]
  rw [hStep] at hPlaced ⊢
  -- nobody else has an object of these keys
  have hOther :
      ∀ t' call', P call.key → t' ≠ t →
        s.pc t' ≠ .holding call' address := by
    intro t' call' hKey hNe hHolds
    exact hNe (hSim.holder _ _ _ _ _ hKey hPc hHolds).symm
  have hHolds :
      ∀ t' call' address',
        Function.update s.pc t .idle t' =
            .holding call' address' →
          t' ≠ t ∧ s.pc t' = .holding call' address' := by
    intro t' call' address' hHeld
    by_cases hEq : t' = t
    · subst hEq
      simp at hHeld
    · rw [Function.update_of_ne hEq] at hHeld
      exact ⟨hEq, hHeld⟩
  refine ⟨hPlaced, ?_, ?_, hSim.touch, hSim.keys, ?_, ?_⟩
  · intro t₁ t₂ c₁ c₂ address' hKey h₁ h₂
    exact hSim.holder t₁ t₂ c₁ c₂ address' hKey
      (hHolds _ _ _ h₁).2 (hHolds _ _ _ h₂).2
  · intro t' call' address' hMine hHeld
    exact hSim.busy t' call' address' hMine
      (hHolds _ _ _ hHeld).2
  · intro k address' v hKey hEntry hObject
    have hWorth :=
      hSim.worth k address' v hKey hEntry hObject
    by_cases hEq : address' = address
    · subst hEq
      have hCall : P call.key :=
        (hSim.placed.named _ _ _ _ hPc hEntry).symm ▸ hKey
      refine ⟨?_, ?_⟩
      · intro t' call' hHeld
        rcases hHolds _ _ _ hHeld with ⟨hNe, hOld⟩
        exact absurd hOld (hOther t' call' hCall hNe)
      · intro _
        rw [hWorth.held t call hPc]
        simp
    · refine hWorth.same (Function.update_of_ne hEq _ _) ?_
      intro t' call'
      refine ⟨fun hHeld => (hHolds _ _ _ hHeld).2, ?_⟩
      intro hOld
      have hNe : t' ≠ t := by
        intro hSame
        rw [hSame, hPc] at hOld
        cases hOld
        exact hEq rfl
      simpa [Shared.finish, Shared.goto, hNe] using hOld
  · intro t' hMine
    rw [hSim.results t' hMine]
    by_cases hEq : t' = t
    · subst hEq
      simp [Shared.finish, Shared.goto, Shared.owed, hPc]
    · simp only [Shared.finish, Shared.goto, Shared.owed,
        Function.update_of_ne hEq]
      cases hPc' : s.pc t' with
      | idle => rfl
      | asked call' => rfl
      | holding call' address' =>
          have hNe : address' ≠ address := by
            intro hSame
            rw [hSame] at hPc'
            exact hEq
              (hSim.holder _ _ _ _ _
                (hSim.busy _ _ _ hMine hPc') hPc' hPc)
          simp [Function.update_of_ne hNe]

/- Only what the store answers matters. -/
theorem Sim.congr
    (hSim : Sim obj P Q s a)
    {a' : Serial K V R T}
    (hTouch : a'.store.touch = a.store.touch)
    (hObjects :
      ∀ k, a'.store.objects.get? k = a.store.objects.get? k)
    (hResults : a'.results = a.results) :
    Sim obj P Q s a' where
  placed := hSim.placed
  holder := hSim.holder
  busy := hSim.busy
  touch := hTouch.trans hSim.touch
  keys := by
    intro k
    rw [hObjects, hSim.keys]
  worth := by
    intro k address v hKey hEntry hObject
    rw [hObjects] at hObject
    exact hSim.worth k address v hKey hEntry hObject
  results := by
    intro t hMine
    rw [hResults, hSim.results t hMine]

/- A new object takes the entry on both sides. -/
theorem Sim.place
    (hSim : Sim obj P Q s a)
    (key : K) :
    Sim obj P Q (s.place obj key)
      { a with
        store :=
          { a.store with
            objects := a.store.objects.set key obj.new } } := by
  refine ⟨hSim.placed.place key, hSim.holder, hSim.busy,
    hSim.touch, ?_, ?_, ?_⟩
  · intro k
    simp only [Shared.place, Dict.get?_set]
    by_cases hKey : key = k
    · simp [hKey]
    · simpa [hKey] using hSim.keys k
  · intro k address v hIn hGet hObject
    simp only [Dict.get?_set] at hObject
    rcases hSim.placed.entry_place hGet with
      ⟨hKey, hAt⟩ | ⟨hKey, hLt, hBefore⟩
    · rw [if_pos hKey] at hObject
      subst hAt
      refine ⟨?_, ?_⟩
      · intro t call hHeld
        exact absurd (hSim.placed.held _ _ _ hHeld)
          (Nat.lt_irrefl _)
      · intro _
        rw [← Option.some.inj hObject]
        simp [Shared.place]
    · rw [if_neg hKey] at hObject
      exact (hSim.worth k address v hIn hBefore hObject).same
        (Function.update_of_ne (Nat.ne_of_lt hLt) _ _)
        (fun _ _ => Iff.rfl)
  · intro t hMine
    rw [hSim.results t hMine]
    simp only [Shared.place, Shared.owed]
    cases hPc : s.pc t with
    | idle => rfl
    | asked call => rfl
    | holding call address =>
        have hLt := hSim.placed.held _ _ _ hPc
        simp [Function.update_of_ne (Nat.ne_of_lt hLt)]

/- The thread has the object of the entry to itself. -/
theorem Sim.hold
    (hSim : Sim obj P Q s a)
    {t : Nat}
    {call : Call K C}
    {address : Nat}
    {v : V}
    (now : T)
    (hPc : s.pc t = .asked call)
    (hEntry : s.table.get? call.key = some address)
    (hObject : a.store.objects.get? call.key = some v)
    (hBusy : Q t → P call.key)
    (hApart :
      P call.key →
        ∀ t' call', s.pc t' ≠ .holding call' address) :
    Sim obj P Q (s.hold t call address now)
      { store := (a.store.update obj call now v).2
        results :=
          Function.update a.results t
            (a.results t ++
              [(a.store.update obj call now v).1]) } := by
  have hWorth : P call.key → v = s.heap address := by
    intro hKey
    exact (hSim.worth _ _ _ hKey hEntry hObject).free
      (hApart hKey)
  refine ⟨hSim.placed.hold t now hEntry, ?_, ?_, ?_, ?_, ?_,
    ?_⟩
  · intro t₁ t₂ c₁ c₂ address' hKey h₁ h₂
    rcases hold_holding.mp h₁ with
      ⟨hT₁, rfl, rfl⟩ | ⟨_, hOld₁⟩ <;>
      rcases hold_holding.mp h₂ with
        ⟨hT₂, hCall, hAt⟩ | ⟨_, hOld₂⟩
    · exact hT₁.trans hT₂.symm
    · exact absurd hOld₂ (hApart hKey _ _)
    · subst hAt
      rw [hSim.placed.named _ _ _ _ hOld₁ hEntry] at hKey
      exact absurd hOld₁ (hApart hKey _ _)
    · exact hSim.holder _ _ _ _ _ hKey hOld₁ hOld₂
  · intro t' call' address' hMine hHeld
    rcases hold_holding.mp hHeld with
      ⟨rfl, rfl, _⟩ | ⟨_, hOld⟩
    · exact hBusy hMine
    · exact hSim.busy _ _ _ hMine hOld
  · change a.store.touch.set call.key now =
      s.touch.set call.key now
    rw [hSim.touch]
  · intro k
    simp only [Store.update, Dict.get?_set]
    by_cases hKey : call.key = k
    · rw [if_pos hKey]
      change _ = (s.table.get? k).isSome
      rw [← hKey, hEntry]
      rfl
    · rw [if_neg hKey]
      exact hSim.keys k
  · intro k address' v' hIn hEntry' hObject'
    change s.table.get? k = some address' at hEntry'
    simp only [Store.update, Dict.get?_set] at hObject'
    by_cases hKey : call.key = k
    · subst hKey
      rw [if_pos rfl] at hObject'
      rw [hEntry] at hEntry'
      cases Option.some.inj hEntry'
      refine ⟨?_, ?_⟩
      · intro t' call' hHeld
        rcases hold_holding.mp hHeld with
          ⟨_, rfl, _⟩ | ⟨_, hBefore⟩
        · rw [← Option.some.inj hObject', hWorth hIn]
          rfl
        · exact absurd hBefore (hApart hIn _ _)
      · intro hFree
        exact absurd
          (hold_holding.mpr (Or.inl ⟨rfl, rfl, rfl⟩))
          (hFree t call)
    · rw [if_neg hKey] at hObject'
      refine (hSim.worth k address' v' hIn hEntry'
        hObject').same rfl ?_
      intro t' call'
      rw [hold_holding]
      constructor
      · rintro (⟨_, _, rfl⟩ | ⟨_, hHeld⟩)
        · exact absurd
            (hSim.placed.entry _ _ _ hEntry hEntry') hKey
        · exact hHeld
      · intro hHeld
        refine Or.inr ⟨?_, hHeld⟩
        rintro rfl
        rw [hPc] at hHeld
        cases hHeld
  · intro t' hMine
    by_cases hEq : t' = t
    · subst hEq
      simp [Store.update, Shared.hold, Shared.goto,
        Shared.owed, hSim.results _ hMine, hPc,
        hWorth (hBusy hMine)]
    · simp [Shared.hold, Shared.goto, Shared.owed, hEq,
        hSim.results _ hMine]

/- A new object takes the entry, and the thread has it. -/
theorem Sim.create
    (hSim : Sim obj P Q s a)
    {t : Nat}
    {call : Call K C}
    (now : T)
    (hPc : s.pc t = .asked call)
    (hBusy : Q t → P call.key) :
    Sim obj P Q (s.create obj t call now)
      { store := (a.store.update obj call now obj.new).2
        results :=
          Function.update a.results t
            (a.results t ++
              [(a.store.update obj call now obj.new).1]) } := by
  have hApart :
      P call.key → ∀ t' call',
        (s.place obj call.key).pc t' ≠
          .holding call' s.next := by
    intro _ t' call' hHeld
    exact Nat.lt_irrefl _ (hSim.placed.held _ _ _ hHeld)
  have hPlace := hSim.place call.key
  have hHold := hPlace.hold now hPc (Dict.get?_set_self _ _ _)
    (Dict.get?_set_self _ _ _) hBusy hApart
  refine hHold.congr rfl ?_ rfl
  intro k
  simp only [Store.update, Dict.get?_set]
  split <;> rfl

/- The thread is done without an object. -/
theorem Sim.pass
    (hSim : Sim obj P Q s a)
    {t : Nat}
    {call : Call K C}
    (hPc : s.pc t = .asked call) :
    Sim obj P Q (s.finish t none)
      { a with
        results :=
          Function.update a.results t
            (a.results t ++ [none]) } := by
  have hHolds :
      ∀ t' call' address,
        (s.finish t (none : Option R)).pc t' =
            .holding call' address ↔
          s.pc t' = .holding call' address :=
    goto_holding (by simp [hPc]) (by simp)
  refine ⟨(hSim.placed.leave t .idle (by simp)).mono rfl
      (fun _ _ h => h) (fun _ _ _ h => h), ?_, ?_,
    hSim.touch, hSim.keys, ?_, ?_⟩
  · intro t₁ t₂ c₁ c₂ address hKey h₁ h₂
    exact hSim.holder t₁ t₂ c₁ c₂ address hKey
      ((hHolds _ _ _).mp h₁) ((hHolds _ _ _).mp h₂)
  · intro t' call' address hMine hHeld
    exact hSim.busy t' call' address hMine
      ((hHolds _ _ _).mp hHeld)
  · intro k address v hKey hEntry hObject
    exact (hSim.worth k address v hKey hEntry hObject).same
      rfl (fun _ _ => hHolds _ _ _)
  · intro t' hMine
    by_cases hEq : t' = t
    · subst hEq
      simp [Shared.finish, Shared.goto, Shared.owed,
        hSim.results _ hMine, hPc]
    · simp [Shared.finish, Shared.goto, Shared.owed, hEq,
        hSim.results _ hMine]

/- The same entries go on both sides. -/
theorem Sim.erase
    (hSim : Sim obj P Q s a)
    (keys : List K) :
    Sim obj P Q
      { s with
        table := keys.foldl Dict.erase s.table
        touch := keys.foldl Dict.erase s.touch }
      { a with
        store :=
          { objects := keys.foldl Dict.erase a.store.objects
            touch := keys.foldl Dict.erase a.store.touch } } where
  placed := hSim.placed.erase keys _
  holder := hSim.holder
  busy := hSim.busy
  touch := by
    change keys.foldl Dict.erase a.store.touch =
      keys.foldl Dict.erase s.touch
    rw [hSim.touch]
  keys := by
    intro k
    change ((keys.foldl Dict.erase a.store.objects).get?
        k).isSome =
      ((keys.foldl Dict.erase s.table).get? k).isSome
    by_cases hMem : k ∈ keys
    · rw [Dict.get?_foldl_erase_of_mem _ hMem,
        Dict.get?_foldl_erase_of_mem _ hMem]
      rfl
    · rw [Dict.get?_foldl_erase_of_not_mem _ hMem,
        Dict.get?_foldl_erase_of_not_mem _ hMem]
      exact hSim.keys k
  worth := by
    intro k address v hKey hEntry hObject
    change (keys.foldl Dict.erase s.table).get? k =
      some address at hEntry
    change (keys.foldl Dict.erase a.store.objects).get? k =
      some v at hObject
    by_cases hMem : k ∈ keys
    · rw [Dict.get?_foldl_erase_of_mem _ hMem] at hEntry
      cases hEntry
    · rw [Dict.get?_foldl_erase_of_not_mem _ hMem] at hEntry
      rw [Dict.get?_foldl_erase_of_not_mem _ hMem] at hObject
      exact (hSim.worth k address v hKey hEntry hObject).same
        rfl (fun _ _ => Iff.rfl)
  results := hSim.results

/- A key has an object on both sides, or on neither. -/
theorem Sim.objects
    (hSim : Sim obj P Q s a)
    (k : K) :
    (s.table.get? k = none ∧ a.store.objects.get? k = none) ∨
      ∃ address v,
        s.table.get? k = some address ∧
          a.store.objects.get? k = some v := by
  have hKeys := hSim.keys k
  cases hEntry : s.table.get? k with
  | none =>
      rw [hEntry, Option.isSome_none,
        Option.isSome_eq_false_iff, Option.isNone_iff_eq_none]
        at hKeys
      exact Or.inl ⟨rfl, hKeys⟩
  | some address =>
      rw [hEntry, Option.isSome_some, Option.isSome_iff_exists]
        at hKeys
      rcases hKeys with ⟨v, hObject⟩
      exact Or.inr ⟨address, v, rfl, hObject⟩

/- A lookup is the whole call, seen from the serial side. -/
theorem Sim.lookup
    (hSim : Sim obj P Q s a)
    {t : Nat}
    {call : Call K C}
    {now : T}
    (hPc : s.pc t = .asked call)
    (hBusy : Q t → P call.key)
    (hApart : P call.key → s.Apart (.lookup t now)) :
    Sim obj P Q (s.look obj t call now)
      (a.step obj (.call t call now)) := by
  rcases hSim.objects call.key with
    ⟨hEntry, hObject⟩ | ⟨address, v, hEntry, hObject⟩
  · simp only [Shared.look, Serial.step, Store.perform,
      hEntry, hObject]
    cases call.access with
    | renew => exact hSim.create now hPc hBusy
    | ensure => exact hSim.create now hPc hBusy
    | find => exact hSim.pass hPc
    | drop => exact (hSim.pass hPc).erase [call.key]
  · simp only [Shared.look, Serial.step, Store.perform,
      hEntry, hObject]
    cases hAccess : call.access with
    | renew => exact hSim.create now hPc hBusy
    | ensure =>
        refine hSim.hold now hPc hEntry hObject hBusy ?_
        intro hKey
        exact hApart hKey call address hPc (Or.inl hAccess)
          hEntry
    | find =>
        refine hSim.hold now hPc hEntry hObject hBusy ?_
        intro hKey
        exact hApart hKey call address hPc (Or.inr hAccess)
          hEntry
    | drop => exact (hSim.pass hPc).erase [call.key]

/- One step of a thread is at most one serial step. -/
theorem Sim.step
    (hSim : Sim obj P Q s a)
    (move : Move K C T)
    (hApart : s.ApartOn P Q move) :
    Sim obj P Q (s.step obj move)
      ((s.entryOf move).toList.foldl (Serial.step obj) a) := by
  cases move with
  | ask t call =>
      change Sim obj P Q (s.step obj (.ask t call)) a
      cases hPc : s.pc t with
      | idle =>
          simp only [Shared.step, hPc]
          exact hSim.ask call hPc
      | asked call' => simpa only [Shared.step, hPc] using hSim
      | holding call' address =>
          simpa only [Shared.step, hPc] using hSim
  | lookup t now =>
      cases hPc : s.pc t with
      | idle =>
          simpa [Shared.step, Shared.entryOf, hPc] using hSim
      | asked call =>
          simp only [Shared.step, Shared.entryOf, hPc]
          rcases hApart call hPc with ⟨hBusy, hOn⟩
          exact hSim.lookup hPc hBusy hOn
      | holding call address =>
          simpa [Shared.step, Shared.entryOf, hPc] using hSim
  | act t =>
      change Sim obj P Q (s.step obj (.act t)) a
      cases hPc : s.pc t with
      | idle => simpa only [Shared.step, hPc] using hSim
      | asked call => simpa only [Shared.step, hPc] using hSim
      | holding call address => exact hSim.act hPc
  | reap stale =>
      have hErase := hSim.erase
        (Store.staleKeys stale s.touch)
      simpa only [Shared.step, Shared.entryOf,
        Option.toList_some, List.foldl_cons, List.foldl_nil,
        Serial.step, Store.reap, hSim.touch] using hErase

/- The state of a run stands for that of its log. -/
theorem sim_run
    (heap : Nat → V)
    {moves : List (Move K C T)}
    (hApart :
      ∀ e ∈ History.trail (Shared.step obj)
          ({ heap := heap } : Shared K V C R T) moves,
        e.1.ApartOn P Q e.2) :
    Sim obj P Q
      (moves.foldl (Shared.step obj)
        ({ heap := heap } : Shared K V C R T))
      ((Shared.log obj { heap := heap } moves).foldl
        (Serial.step obj) {}) := by
  refine History.induction_of (Shared.step obj)
    (fun e => e.1.ApartOn P Q e.2)
    (fun past s =>
      Sim obj P Q s
        ((past.filterMap (fun e => e.1.entryOf e.2)).foldl
          (Serial.step obj) {}))
    (sim_new heap) ?_ hApart
  intro past s move hAllowed hSim
  rw [List.filterMap_append, List.foldl_append]
  have hStep := hSim.step move hAllowed
  cases hEntry : s.entryOf move with
  | none => simpa [hEntry] using hStep
  | some entry => simpa [hEntry] using hStep

/- What a thread was given, and what it will be given. -/
theorem Sim.answers
    (hSim : Sim obj P Q s a)
    {t : Nat}
    (hMine : Q t) :
    s.results t <+: a.results t ∧
      ((∀ call address, s.pc t ≠ .holding call address) →
        s.results t = a.results t) := by
  rw [hSim.results t hMine]
  refine ⟨List.prefix_append _ _, ?_⟩
  intro hDone
  cases hPc : s.pc t with
  | idle => simp [Shared.owed, hPc]
  | asked call => simp [Shared.owed, hPc]
  | holding call address => exact absurd hPc (hDone _ _)

/-
  Where no two threads come to hold one object, the threads
  got what the calls give one after another in the order of
  their lookups.  The times of the lookups agree always, and
  the contents once no thread is at work.
-/
theorem linearizable
    (heap : Nat → V)
    {moves : List (Move K C T)}
    (hApart :
      ∀ e ∈ History.trail (Shared.step obj)
          ({ heap := heap } : Shared K V C R T) moves,
        e.1.Apart e.2) :
    let s :=
      moves.foldl (Shared.step obj)
        ({ heap := heap } : Shared K V C R T)
    let a : Serial K V R T :=
      (Shared.log obj { heap := heap } moves).foldl
        (Serial.step obj) {}
    (∀ t, s.results t <+: a.results t) ∧
      (∀ t, (∀ call address, s.pc t ≠ .holding call address) →
        s.results t = a.results t) ∧
      s.touch = a.store.touch ∧
      ((∀ t call address, s.pc t ≠ .holding call address) →
        ∀ k, (s.table.get? k).map s.heap =
          a.store.objects.get? k) := by
  intro s a
  have hSim :
      Sim obj (fun _ => True) (fun _ => True) s a :=
    sim_run heap (fun e hMem => (hApart e hMem).on)
  refine ⟨fun t => (hSim.answers trivial).1,
    fun t => (hSim.answers trivial).2, hSim.touch.symm, ?_⟩
  intro hDone k
  rcases hSim.objects k with
    ⟨hEntry, hObject⟩ | ⟨address, v, hEntry, hObject⟩
  · rw [hEntry, hObject]
    rfl
  · rw [hEntry, hObject, Option.map_some]
    congr 1
    exact ((hSim.worth k address v trivial hEntry
      hObject).free (fun t call => hDone t call address)).symm

end CircuitDllm.LockedStore

------------------------------------------------------------
-- One Thread's Keys
------------------------------------------------------------

namespace CircuitDllm.LockedStore

variable {K V C R T : Type} [DecidableEq K]
  {obj : Objects V C R}

/- A step gives objects to a thread only at its lookup. -/
theorem holding_step
    {s : Shared K V C R T}
    {move : Move K C T}
    {t : Nat}
    {call : Call K C}
    {address : Nat}
    (hHeld : (s.step obj move).pc t = .holding call address) :
    s.pc t = .holding call address ∨
      ∃ now, s.entryOf move = some (.call t call now) := by
  have hGoto :
      ∀ (t' : Nat) (pc : Pc K C),
        pc ≠ .holding call address →
        Function.update s.pc t' pc t = .holding call address →
          s.pc t = .holding call address := by
    intro t' pc hNot hPc
    by_cases hEq : t = t'
    · rw [hEq, Function.update_self] at hPc
      exact absurd hPc hNot
    · rwa [Function.update_of_ne hEq] at hPc
  cases move with
  | ask t' call' =>
      simp only [Shared.step] at hHeld
      split at hHeld
      · exact Or.inl (hGoto t' _ (by simp) hHeld)
      · exact Or.inl hHeld
  | act t' =>
      simp only [Shared.step] at hHeld
      split at hHeld
      · exact Or.inl (hGoto t' .idle (by simp) hHeld)
      · exact Or.inl hHeld
  | reap stale => exact Or.inl hHeld
  | lookup t' now =>
      simp only [Shared.step, Shared.entryOf] at hHeld ⊢
      split at hHeld
      next call' hAsked =>
          have hFound :
              ∀ address',
                Function.update s.pc t'
                    (.holding call' address') t =
                  .holding call address →
                s.pc t = .holding call address ∨
                  t' = t ∧ call' = call := by
            intro address' hPc
            by_cases hEq : t = t'
            · rw [hEq, Function.update_self] at hPc
              cases hPc
              exact Or.inr ⟨hEq.symm, rfl⟩
            · rw [Function.update_of_ne hEq] at hPc
              exact Or.inl hPc
          have hLooked :
              s.pc t = .holding call address ∨
                t' = t ∧ call' = call := by
            unfold Shared.look at hHeld
            split at hHeld
            · exact hFound _ hHeld
            · exact hFound _ hHeld
            · exact hFound _ hHeld
            · exact Or.inl (hGoto t' .idle (by simp) hHeld)
            · exact hFound _ hHeld
            · exact Or.inl (hGoto t' .idle (by simp) hHeld)
          rcases hLooked with hBefore | ⟨rfl, rfl⟩
          · exact Or.inl hBefore
          · exact Or.inr ⟨now, rfl⟩
      next => exact Or.inl hHeld

/- Objects are in place, and who holds one looked it up. -/
theorem placed_run
    (obj : Objects V C R)
    (heap : Nat → V)
    (moves : List (Move K C T)) :
    let s :=
      moves.foldl (Shared.step obj)
        ({ heap := heap } : Shared K V C R T)
    Placed s ∧
      ∀ t call address, s.pc t = .holding call address →
        ∃ now,
          Entry.call t call now ∈
            Shared.log obj { heap := heap } moves := by
  refine History.induction (Shared.step obj)
    (fun past s =>
      Placed s ∧
        ∀ t call address, s.pc t = .holding call address →
          ∃ now,
            Entry.call t call now ∈
              past.filterMap (fun e => e.1.entryOf e.2))
    ⟨placed_new heap, fun _ _ _ h => nomatch h⟩ ?_ moves
  intro past s move ⟨hPlaced, hLooked⟩
  refine ⟨hPlaced.step move, ?_⟩
  intro t call address hHeld
  rw [List.filterMap_append]
  rcases holding_step hHeld with hBefore | ⟨now, hEntry⟩
  · rcases hLooked t call address hBefore with ⟨now, hMem⟩
    exact ⟨now, List.mem_append_left _ hMem⟩
  · exact ⟨now, List.mem_append_right _ (by simp [hEntry])⟩

/-
  A thread that is the only one to look its keys up has
  their objects to itself, and gets what the calls give one
  after another, whatever the other threads do.
-/
theorem linearizable_sole
    (heap : Nat → V)
    {moves : List (Move K C T)}
    {P : K → Prop}
    {t : Nat}
    (hOnly :
      ∀ call now,
        Entry.call t call now ∈
            Shared.log obj
              ({ heap := heap } : Shared K V C R T) moves →
          P call.key)
    (hSole :
      ∀ t' call now,
        Entry.call t' call now ∈
            Shared.log obj
              ({ heap := heap } : Shared K V C R T) moves →
          P call.key → t' = t) :
    let s :=
      moves.foldl (Shared.step obj)
        ({ heap := heap } : Shared K V C R T)
    let a : Serial K V R T :=
      (Shared.log obj { heap := heap } moves).foldl
        (Serial.step obj) {}
    s.results t <+: a.results t ∧
      ((∀ call address, s.pc t ≠ .holding call address) →
        s.results t = a.results t) := by
  intro s a
  have hApart :
      ∀ e ∈ History.trail (Shared.step obj)
          ({ heap := heap } : Shared K V C R T) moves,
        e.1.ApartOn P (· = t) e.2 := by
    intro ⟨s', move⟩ hMem
    cases move with
    | lookup t' now =>
        intro call hAsked
        have hOf :
            s'.entryOf (.lookup t' now) =
              some (.call t' call now) := by
          change s'.pc t' = .asked call at hAsked
          simp only [Shared.entryOf, hAsked]
        have hEntry :
            Entry.call t' call now ∈
              Shared.log obj
                ({ heap := heap } : Shared K V C R T)
                moves :=
          List.mem_filterMap.mpr ⟨_, hMem, hOf⟩
        refine ⟨?_, ?_⟩
        · rintro rfl
          exact hOnly call now hEntry
        · intro hKey call' address hAsked' _ hTable t₂ c₂ hHeld
          rw [hAsked] at hAsked'
          cases hAsked'
          rcases History.split_of_trail hMem with
            ⟨before, after, hMoves, hState⟩
          have hPast := placed_run obj heap before
          rw [hState] at hPast
          rcases hPast.2 t₂ c₂ address hHeld with
            ⟨now', hLog⟩
          have hBoth := hPast.1.named _ _ _ _ hHeld hTable
          -- the holder is the thread that asks
          have hT₂ : t₂ = t := by
            refine hSole t₂ c₂ now' ?_ (hBoth.symm ▸ hKey)
            rw [hMoves]
            unfold Shared.log
            rw [History.trail_append, List.filterMap_append]
            exact List.mem_append_left _ hLog
          rw [hT₂, ← hSole t' call now hEntry hKey, hAsked]
            at hHeld
          cases hHeld
    | _ => trivial
  have hSim : Sim obj P (· = t) s a := sim_run heap hApart
  exact hSim.answers rfl

end CircuitDllm.LockedStore
