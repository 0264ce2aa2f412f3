import Mathlib.Data.List.Basic
import Mathlib.Data.List.Sort
import Mathlib.Data.List.Induction

/-
  Selecting list entries by index and by a row of flags.

  `Select.pick xs is` is the list of the entries of `xs` at
  the indices `is`, in their order, when all of them exist.
  `Select.keep row xs` drops the entries whose flag is not
  set.

  Main declarations:
    * `Select.pick_append`, `Select.pick_shift`
    * `Select.pick_prefix`
    * `Select.keep_flags`
-/

------------------------------------------------------------
-- Selection by Index
------------------------------------------------------------

namespace Select

variable {A B : Type}

/- The entries at the given indices, if all exist. -/
def pick (xs : List A) : List Nat → Option (List A)
| [] => some []
| i :: is =>
    match xs[i]?, pick xs is with
    | some x, some ys => some (x :: ys)
    | _, _ => none

@[simp] theorem pick_nil (xs : List A) :
    pick xs [] = some [] := rfl

theorem pick_cons_eq_some
    {xs ys : List A}
    {i : Nat}
    {is : List Nat}
    (hPick : pick xs (i :: is) = some ys) :
    ∃ y rest,
      ys = y :: rest ∧
        xs[i]? = some y ∧ pick xs is = some rest := by
  cases hEntry : xs[i]? with
  | none => simp [pick, hEntry] at hPick
  | some y =>
      cases hRest : pick xs is with
      | none => simp [pick, hEntry, hRest] at hPick
      | some rest =>
          refine ⟨y, rest, ?_, rfl, rfl⟩
          simpa [pick, hEntry, hRest] using hPick.symm

theorem pick_cons
    {xs ys : List A}
    {i : Nat}
    {is : List Nat}
    {x : A}
    (hEntry : xs[i]? = some x)
    (hRest : pick xs is = some ys) :
    pick xs (i :: is) = some (x :: ys) := by
  simp [pick, hEntry, hRest]

theorem pick_append
    {xs ys zs : List A}
    {is js : List Nat}
    (hLeft : pick xs is = some ys)
    (hRight : pick xs js = some zs) :
    pick xs (is ++ js) = some (ys ++ zs) := by
  induction is generalizing ys with
  | nil =>
      obtain rfl : [] = ys := by simpa using hLeft
      simpa using hRight
  | cons i is ih =>
      rcases pick_cons_eq_some hLeft with
        ⟨y, rest, rfl, hEntry, hRest⟩
      exact pick_cons hEntry (ih hRest)

theorem pick_append_eq_some
    {xs zs : List A}
    {is js : List Nat}
    (hPick : pick xs (is ++ js) = some zs) :
    ∃ ys ys',
      zs = ys ++ ys' ∧
        pick xs is = some ys ∧ pick xs js = some ys' := by
  induction is generalizing zs with
  | nil => exact ⟨[], zs, rfl, rfl, by simpa using hPick⟩
  | cons i is ih =>
      rcases pick_cons_eq_some hPick with
        ⟨y, rest, rfl, hEntry, hRest⟩
      rcases ih hRest with ⟨ys, ys', rfl, hLeft, hRight⟩
      exact
        ⟨y :: ys, ys', rfl, pick_cons hEntry hLeft, hRight⟩

theorem pick_singleton
    (xs : List A)
    (i : Nat) :
    pick xs [i] = (xs[i]?).map ([·]) := by
  cases hEntry : xs[i]? <;> simp [pick, hEntry]

theorem length_of_pick
    {xs ys : List A}
    {is : List Nat}
    (hPick : pick xs is = some ys) :
    ys.length = is.length := by
  induction is generalizing ys with
  | nil =>
      obtain rfl : [] = ys := by simpa using hPick
      rfl
  | cons i is ih =>
      rcases pick_cons_eq_some hPick with
        ⟨y, rest, rfl, _, hRest⟩
      simp [ih hRest]

/- Indices inside the list can always be picked. -/
theorem exists_pick
    (xs : List A)
    (is : List Nat)
    (hBound : ∀ i ∈ is, i < xs.length) :
    ∃ ys, pick xs is = some ys := by
  induction is with
  | nil => exact ⟨[], rfl⟩
  | cons i is ih =>
      rcases ih (fun j hj => hBound j (List.mem_cons_of_mem _ hj)) with
        ⟨ys, hRest⟩
      have hi : i < xs.length := hBound i (by simp)
      exact
        ⟨_, pick_cons (List.getElem?_eq_getElem hi) hRest⟩

/- Picking past a prefix picks from what follows it. -/
theorem pick_shift
    (held fed : List A)
    (is : List Nat) :
    pick (held ++ fed) (is.map (held.length + ·)) =
      pick fed is := by
  induction is with
  | nil => rfl
  | cons i is ih =>
      have hEntry :
          (held ++ fed)[held.length + i]? = fed[i]? := by
        rw [List.getElem?_append_right (by omega)]
        congr 1
        omega
      simp only [List.map_cons, pick, ih, hEntry]

/- Picking the first indices picks the prefix. -/
theorem pick_prefix (held fed : List A) :
    pick (held ++ fed) (List.range held.length) =
      some held := by
  induction held using List.reverseRecOn
      generalizing fed with
  | nil => rfl
  | append_singleton held e ih =>
      have hLast :
          pick (held ++ [e] ++ fed) [held.length] =
            some [e] := by
        simp [pick]
      have hInit := ih (e :: fed)
      rw [show held ++ e :: fed = held ++ [e] ++ fed by
        simp] at hInit
      rw [List.length_append, List.length_singleton,
        List.range_succ]
      exact pick_append hInit hLast

theorem pick_map
    (g : A → B)
    {xs ys : List A}
    {is : List Nat}
    (hPick : pick xs is = some ys) :
    pick (xs.map g) is = some (ys.map g) := by
  induction is generalizing ys with
  | nil =>
      obtain rfl : [] = ys := by simpa using hPick
      rfl
  | cons i is ih =>
      rcases pick_cons_eq_some hPick with
        ⟨y, rest, rfl, hEntry, hRest⟩
      exact pick_cons (by simp [hEntry]) (ih hRest)

theorem pick_zip
    {xs xs' : List A}
    {ys ys' : List B}
    {is : List Nat}
    (hLeft : pick xs is = some xs')
    (hRight : pick ys is = some ys') :
    pick (xs.zip ys) is = some (xs'.zip ys') := by
  induction is generalizing xs' ys' with
  | nil =>
      obtain rfl : [] = xs' := by simpa using hLeft
      obtain rfl : [] = ys' := by simpa using hRight
      rfl
  | cons i is ih =>
      rcases pick_cons_eq_some hLeft with
        ⟨x, xs'', rfl, hx, hxs⟩
      rcases pick_cons_eq_some hRight with
        ⟨y, ys'', rfl, hy, hys⟩
      refine pick_cons ?_ (ih hxs hys)
      simp [List.getElem?_zip_eq_some, hx, hy]

end Select

------------------------------------------------------------
-- Selection by Flags
------------------------------------------------------------

namespace Select

variable {A : Type}

/- Keep the entries whose flag is set. -/
def keep : List Bool → List A → List A
| true :: row, x :: xs => x :: keep row xs
| false :: row, _ :: xs => keep row xs
| _, _ => []

theorem keep_append
    (row row' : List Bool)
    (xs xs' : List A)
    (hLen : row.length = xs.length) :
    keep (row ++ row') (xs ++ xs') =
      keep row xs ++ keep row' xs' := by
  induction row generalizing xs with
  | nil =>
      obtain rfl : xs = [] :=
        List.length_eq_zero_iff.mp hLen.symm
      cases row' <;> rfl
  | cons flag row ih =>
      cases xs with
      | nil => simp at hLen
      | cons x xs =>
          have hRest := ih xs (by simpa using hLen)
          cases flag <;> simp [keep, hRest]

/- Picking inside a prefix does not see what follows it. -/
theorem pick_append_left
    (xs ys : List A)
    (is : List Nat)
    (hBound : ∀ i ∈ is, i < xs.length) :
    pick (xs ++ ys) is = pick xs is := by
  induction is with
  | nil => rfl
  | cons i is ih =>
      have hi : i < xs.length := hBound i (by simp)
      have hRest :=
        ih (fun j hj => hBound j (List.mem_cons_of_mem _ hj))
      simp [pick, hRest, List.getElem?_append_left hi]

/- Flags given by a test keep what passes it. -/
theorem keep_map
    (p : Nat → Bool)
    (xs : List A) :
    pick xs ((List.range xs.length).filter p) =
      some (keep ((List.range xs.length).map p) xs) := by
  induction xs using List.reverseRecOn with
  | nil => rfl
  | append_singleton xs x ih =>
      rw [List.length_append, List.length_singleton,
        List.range_succ, List.filter_append, List.map_append,
        keep_append _ _ _ _ (by simp)]
      apply pick_append
      · rw [pick_append_left, ih]
        intro i hi
        simpa using (List.mem_filter.mp hi).1
      · cases hp : p xs.length <;> simp [hp, pick, keep]

/-
  Keeping the entries flagged by an increasing index list is
  picking them.
-/
theorem keep_flags
    (xs : List A)
    (is : List Nat)
    (hSorted : is.Pairwise (· < ·))
    (hBound : ∀ i ∈ is, i < xs.length) :
    pick xs is =
      some
        (keep
          ((List.range xs.length).map
            (fun i => decide (i ∈ is))) xs) := by
  have hFilter :
      (List.range xs.length).filter
          (fun i => decide (i ∈ is)) = is := by
    have hLeft :
        ((List.range xs.length).filter
          (fun i => decide (i ∈ is))).Pairwise (· < ·) :=
      List.Pairwise.filter _ List.pairwise_lt_range
    have hPerm :
        ((List.range xs.length).filter
          (fun i => decide (i ∈ is))).Perm is := by
      rw [List.perm_ext_iff_of_nodup
        (List.nodup_range.filter _)
        (hSorted.imp Nat.ne_of_lt)]
      intro i
      simp only [List.mem_filter, List.mem_range,
        decide_eq_true_eq, and_iff_right_iff_imp]
      exact hBound i
    exact hPerm.eq_of_pairwise' hLeft hSorted
  rw [← keep_map, hFilter]

end Select
