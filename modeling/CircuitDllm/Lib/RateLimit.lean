import Mathlib.Algebra.Order.Group.Defs

/-
  A sliding-window rate limit.

  The log holds the times that were admitted in the last
  `span`; a request is admitted while the log has room.  As
  long as the clock does not go back, every window of that
  length holds at most `limit` admissions.

  Main declarations:
    * `RateLimit.recent`, `RateLimit.allow`
    * `RateLimit.Bounded`
    * `RateLimit.Bounded.allow`
-/

------------------------------------------------------------
-- The Log
------------------------------------------------------------

namespace CircuitDllm

namespace RateLimit

variable {T : Type}
variable [AddCommGroup T] [LinearOrder T]

/- The times that are less than `span` ago. -/
def recent (span now : T) (times : List T) : List T :=
  times.filter (fun t => now - t < span)

/- The log with the request; none if there is no room. -/
def allow
    (span : T)
    (limit : Int)
    (now : T)
    (log : List T) :
    Option (List T) :=
  if limit ≤ ((recent span now log).length : Int) then none
  else some (recent span now log ++ [now])

/- The times in the window of length `span` up to `stop`. -/
def window (span stop : T) (times : List T) : List T :=
  times.filter (fun t => stop - span < t ∧ t ≤ stop)

/-
  The log knows of all admissions that still count, and no
  window has too many of them.
-/
structure Bounded
    (span : T)
    (limit : Int)
    (log admitted : List T)
    (last : T) :
    Prop where
  known :
    ∀ now, last ≤ now →
      recent span now admitted = recent span now log
  few :
    ∀ stop,
      ((window span stop admitted).length : Int) ≤ max limit 0

theorem bounded_new (span : T) (limit : Int) (last : T) :
    Bounded span limit [] [] last where
  known := fun _ _ => rfl
  few := fun _ => le_max_right _ _

variable {span last now : T} {limit : Int}
variable {log admitted : List T}

variable [IsOrderedAddMonoid T]

/- What is recent later is recent now. -/
theorem recent_recent
    {later : T}
    (hLater : now ≤ later) :
    recent span later (recent span now log) =
      recent span later log := by
  rw [recent, recent, recent, List.filter_filter]
  apply List.filter_congr
  intro t _
  rw [Bool.and_eq_left_iff_imp]
  intro hRecent
  rw [decide_eq_true_eq] at hRecent ⊢
  exact lt_of_le_of_lt (sub_le_sub_right hLater t) hRecent

/- A window that ends now holds what is recent. -/
theorem length_window_le
    {stop : T}
    (hStop : now ≤ stop) :
    (window span stop admitted).length ≤
      (recent span now admitted).length := by
  rw [window, recent, ← List.countP_eq_length_filter,
    ← List.countP_eq_length_filter]
  apply List.countP_mono_left
  intro t _ hWindow
  rw [decide_eq_true_eq] at hWindow ⊢
  have hSince : now - span < t :=
    lt_of_le_of_lt (sub_le_sub_right hStop span) hWindow.1
  rw [sub_lt_iff_lt_add] at hSince ⊢
  rwa [add_comm]

/- A request that found room. -/
theorem Bounded.allow
    (hBounded : Bounded span limit log admitted last)
    (hLater : last ≤ now)
    {log' : List T}
    (hAllow : allow span limit now log = some log') :
    Bounded span limit log' (admitted ++ [now]) now := by
  unfold RateLimit.allow at hAllow
  split at hAllow
  · cases hAllow
  rename_i hRoom
  cases hAllow
  have hKnown := hBounded.known now hLater
  refine ⟨?_, ?_⟩
  · intro later hNow
    have hOld := hBounded.known later (hLater.trans hNow)
    have hAgain :
        recent span later (recent span now log) =
          recent span later log := recent_recent hNow
    simp only [recent, List.filter_append] at hOld hAgain ⊢
    rw [hOld, hAgain]
  · intro stop
    have hFew := hBounded.few stop
    rw [window, List.filter_append, List.length_append,
      ← window]
    by_cases hNow : now ≤ stop
    · -- the window had only recent times, so there was room
      have hRecent :
          (window span stop admitted).length ≤
            (recent span now log).length := by
        rw [← hKnown]
        exact length_window_le hNow
      have hOne := List.length_filter_le
        (fun t => decide (stop - span < t ∧ t ≤ stop)) [now]
      rw [List.length_singleton] at hOne
      omega
    · have hNone :
          [now].filter (fun t =>
            decide (stop - span < t ∧ t ≤ stop)) = [] := by
        simp [hNow]
      rw [hNone]
      simpa using hFew

end RateLimit

end CircuitDllm
