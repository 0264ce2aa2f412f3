import Mathlib.Data.List.Basic

/-
  Event streams.

  An event is one or more `data:` lines and an empty line;
  what comes after the last empty line is no event yet.  A
  reader takes the stream byte by byte, so what it has made
  of a part is the start of what it makes of the whole.

  Main declarations:
    * `EventStream.event`
    * `EventStream.Reader`, `EventStream.Reader.feed`
    * `EventStream.feed_events`
    * `EventStream.events_prefix`
-/

------------------------------------------------------------
-- Writing And Reading
------------------------------------------------------------

namespace EventStream

abbrev Bytes := List UInt8

/- "data:" -/
def field : Bytes := [100, 97, 116, 97, 58]

/- An event of one line. -/
def event (payload : Bytes) : Bytes :=
  field ++ 32 :: (payload ++ [10, 10])

/-
  The line so far, the `data` of the event so far, and the
  events that are complete.
-/
structure Reader where
  line : Bytes := []
  data : List Bytes := []
  events : List Bytes := []
deriving DecidableEq, Repr

namespace Reader

/- The `data` of a line, without one space in front. -/
def dataOf (line : Bytes) : Option Bytes :=
  if field.isPrefixOf line then
    match line.drop field.length with
    | 32 :: value => some value
    | value => some value
  else none

/- An empty line ends the event, if it has any `data`. -/
def endLine (r : Reader) : Reader :=
  if r.line = [] then
    if r.data = [] then r
    else
      { r with
        data := []
        events := r.events ++ [[10].intercalate r.data] }
  else
    { r with
      line := []
      data := r.data ++ (dataOf r.line).toList }

def byte (r : Reader) (b : UInt8) : Reader :=
  if b = 10 then r.endLine
  else { r with line := r.line ++ [b] }

def feed (r : Reader) (bs : Bytes) : Reader :=
  bs.foldl byte r

end Reader

end EventStream

------------------------------------------------------------
-- Events Are Read Back
------------------------------------------------------------

namespace EventStream

open Reader

theorem feed_append (r : Reader) (bs cs : Bytes) :
    r.feed (bs ++ cs) = (r.feed bs).feed cs :=
  List.foldl_append

/- Bytes of a line are kept until it ends. -/
theorem feed_line
    {bs : Bytes}
    (hLine : 10 ∉ bs)
    (r : Reader) :
    r.feed bs = { r with line := r.line ++ bs } := by
  induction bs generalizing r with
  | nil => simp [feed]
  | cons b bs ih =>
      rw [List.mem_cons, not_or] at hLine
      have hByte :
          r.byte b = { r with line := r.line ++ [b] } :=
        if_neg (Ne.symm hLine.1)
      have hRest := ih hLine.2 (r.byte b)
      rw [feed, List.foldl_cons, ← feed, hRest, hByte]
      simp

theorem feed_event
    {payload : Bytes}
    (hLine : 10 ∉ payload)
    (events : List Bytes) :
    ({ events := events } : Reader).feed (event payload) =
      { events := events ++ [payload] } := by
  have hField : 10 ∉ field ++ 32 :: payload := by
    simp [field, hLine]
  have hSplit :
      event payload = (field ++ 32 :: payload) ++ [10, 10] := by
    simp [event]
  rw [hSplit, feed_append, feed_line hField]
  simp [feed, byte, endLine, dataOf, field,
    List.intercalate]

/- A stream of events is read as these events. -/
theorem feed_events
    {payloads : List Bytes}
    (hLines : ∀ payload ∈ payloads, 10 ∉ payload) :
    ({} : Reader).feed (payloads.flatMap event) =
      { events := payloads } := by
  have hAfter :
      ∀ events,
        ({ events := events } : Reader).feed
            (payloads.flatMap event) =
          { events := events ++ payloads } := by
    induction payloads with
    | nil => intro events; simp [feed]
    | cons payload payloads ih =>
        intro events
        rw [List.flatMap_cons, feed_append,
          feed_event (hLines payload (by simp)),
          ih (fun p hMem => hLines p (by simp [hMem]))]
        simp
  simpa using hAfter []

/- A byte takes no event back. -/
theorem events_byte (r : Reader) (b : UInt8) :
    r.events <+: (r.byte b).events := by
  unfold byte endLine
  repeat' split
  all_goals simp

theorem events_feed (r : Reader) (bs : Bytes) :
    r.events <+: (r.feed bs).events := by
  induction bs generalizing r with
  | nil => exact List.prefix_rfl
  | cons b bs ih =>
      exact (events_byte r b).trans (ih (r.byte b))

/- A stream that is cut gives the first of its events. -/
theorem events_prefix
    {payloads : List Bytes}
    (hLines : ∀ payload ∈ payloads, 10 ∉ payload)
    {bs : Bytes}
    (hCut : bs <+: payloads.flatMap event) :
    (({} : Reader).feed bs).events <+: payloads := by
  rcases hCut with ⟨rest, hWhole⟩
  have hMore := events_feed (({} : Reader).feed bs) rest
  rw [← feed_append, hWhole, feed_events hLines] at hMore
  exact hMore

end EventStream
