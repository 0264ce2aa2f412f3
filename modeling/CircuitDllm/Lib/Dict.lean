import Mathlib.Data.List.Basic
import Mathlib.Data.List.Nodup
import Mathlib.Algebra.BigOperators.Group.List.Basic

/-
  Insertion-ordered dictionaries.

  A `Dict K V` is a list of entries whose keys are distinct.
  Setting a key that is present keeps its place, setting a
  new one appends it.  `get?` is what a dictionary answers;
  every operation is characterised by it.

  Main declarations:
    * `Dict.set`, `Dict.erase`, `Dict.modify`
    * `Dict.get?_set`, `Dict.get?_erase`
    * `Dict.get?_modify`
    * `Dict.setAll`, `Dict.get?_setAll_eq_some`
    * `Dict.perm_set`, `Dict.perm_erase`
-/

------------------------------------------------------------
-- Dictionaries
------------------------------------------------------------

/- Entries in insertion order, each key once. -/
structure Dict (K V : Type) where
  entries : List (K × V)
  nodup : (entries.map (·.1)).Nodup

namespace Dict

variable {K V W : Type}

/- The keys in insertion order. -/
def keys (d : Dict K V) : List K :=
  d.entries.map (·.1)

/- The values in insertion order. -/
def values (d : Dict K V) : List V :=
  d.entries.map (·.2)

def empty : Dict K V where
  entries := []
  nodup := List.nodup_nil

instance : Inhabited (Dict K V) := ⟨empty⟩

instance [Repr K] [Repr V] : Repr (Dict K V) where
  reprPrec d n := reprPrec d.entries n

instance [DecidableEq K] [DecidableEq V] :
    DecidableEq (Dict K V) :=
  fun d d' =>
    decidable_of_iff (d.entries = d'.entries)
      ⟨fun h => by
        cases d
        cases d'
        simpa using h,
        fun h => by rw [h]⟩

/- Apply `f` to every value. -/
def mapValues (d : Dict K V) (f : V → W) : Dict K W where
  entries := d.entries.map (fun e => (e.1, f e.2))
  nodup := by
    rw [List.map_map]
    exact d.nodup

variable [DecidableEq K]

/- The value of a key. -/
def get? (d : Dict K V) (k : K) : Option V :=
  (d.entries.find? (fun e => e.1 = k)).map (·.2)

/- Apply `f` to the value of a key, if it is present. -/
def modify
    (d : Dict K V)
    (k : K)
    (f : V → V) :
    Dict K V where
  entries :=
    d.entries.map (fun e =>
      if e.1 = k then (e.1, f e.2) else e)
  nodup := by
    have hKeys :
        (d.entries.map (fun e =>
          if e.1 = k then (e.1, f e.2) else e)).map (·.1) =
          d.entries.map (·.1) := by
      rw [List.map_map]
      apply List.map_congr_left
      intro e _
      simp only [Function.comp]
      split <;> rfl
    rw [hKeys]
    exact d.nodup

/- Drop a key. -/
def erase (d : Dict K V) (k : K) : Dict K V where
  entries := d.entries.filter (fun e => e.1 ≠ k)
  nodup :=
    d.nodup.sublist (List.filter_sublist.map _)

/- Set the value of a key; a new key goes last. -/
def set (d : Dict K V) (k : K) (v : V) : Dict K V :=
  if hMem : k ∈ d.keys then d.modify k (fun _ => v)
  else
    { entries := d.entries ++ [(k, v)]
      nodup := by
        rw [List.map_append, List.nodup_append]
        refine ⟨d.nodup, by simp, ?_⟩
        intro a ha b hb
        simp at hb
        intro hEq
        exact hMem (hb ▸ hEq ▸ ha) }

end Dict

------------------------------------------------------------
-- Lookup Lemmas
------------------------------------------------------------

namespace Dict

variable {K V : Type} [DecidableEq K]

@[simp] theorem get?_empty (k : K) :
    (empty : Dict K V).get? k = none := rfl

/- An entry is found exactly by its key. -/
theorem get?_eq_some
    {d : Dict K V}
    {k : K}
    {v : V} :
    d.get? k = some v ↔ (k, v) ∈ d.entries := by
  rcases d with ⟨entries, hNodup⟩
  simp only [get?]
  induction entries with
  | nil => simp
  | cons e entries ih =>
      rw [List.map_cons, List.nodup_cons] at hNodup
      have hRest := ih hNodup.2
      rcases e with ⟨k', v'⟩
      by_cases hKey : k' = k
      · subst hKey
        have hFresh : (k', v) ∉ entries := fun hMem =>
          hNodup.1 (List.mem_map.mpr ⟨(k', v), hMem, rfl⟩)
        simp [hFresh, eq_comm]
      · have hKey' : k ≠ k' := fun h => hKey h.symm
        simp [hKey, hKey', hRest]

theorem mem_keys
    {d : Dict K V}
    {k : K} :
    k ∈ d.keys ↔ ∃ v, d.get? k = some v := by
  simp only [keys, get?_eq_some, List.mem_map]
  constructor
  · rintro ⟨⟨_, v⟩, hMem, rfl⟩
    exact ⟨v, hMem⟩
  · rintro ⟨v, hMem⟩
    exact ⟨(k, v), hMem, rfl⟩

theorem get?_eq_none
    {d : Dict K V}
    {k : K} :
    d.get? k = none ↔ k ∉ d.keys := by
  rw [mem_keys]
  cases d.get? k <;> simp

theorem mem_values
    {d : Dict K V}
    {v : V} :
    v ∈ d.values ↔ ∃ k, d.get? k = some v := by
  simp only [values, get?_eq_some, List.mem_map]
  constructor
  · rintro ⟨⟨k, _⟩, hMem, rfl⟩
    exact ⟨k, hMem⟩
  · rintro ⟨k, hMem⟩
    exact ⟨(k, v), hMem, rfl⟩

theorem get?_modify
    (d : Dict K V)
    (k k' : K)
    (f : V → V) :
    (d.modify k f).get? k' =
      if k = k' then (d.get? k').map f
      else d.get? k' := by
  rcases d with ⟨entries, hNodup⟩
  simp only [get?, modify]
  clear hNodup
  induction entries with
  | nil => simp
  | cons e entries ih =>
      rcases e with ⟨a, v⟩
      by_cases ha : a = k
      · subst ha
        by_cases hk : a = k'
        · simp [hk]
        · simpa [hk] using ih
      · by_cases hk : a = k'
        · have hNe : k ≠ k' := fun h => ha (hk.trans h.symm)
          simp [hk, hNe, hNe.symm]
        · simpa [ha, hk] using ih

/- An entry after a change is an old one, or it changed. -/
theorem of_get?_modify
    {d : Dict K V}
    {k k' : K}
    {f : V → V}
    {v' : V}
    (hGet : (d.modify k f).get? k' = some v') :
    ∃ v, d.get? k' = some v ∧
      (v' = v ∨ (k = k' ∧ v' = f v)) := by
  rw [get?_modify] at hGet
  split at hGet
  next hEq =>
    rcases Option.map_eq_some_iff.mp hGet with ⟨v, hV, rfl⟩
    exact ⟨v, hV, .inr ⟨hEq, rfl⟩⟩
  next => exact ⟨v', hGet, .inl rfl⟩

theorem get?_mapValues
    {W : Type}
    (d : Dict K V)
    (f : V → W)
    (k : K) :
    (d.mapValues f).get? k = (d.get? k).map f := by
  rcases d with ⟨entries, hNodup⟩
  simp only [get?, mapValues]
  clear hNodup
  induction entries with
  | nil => rfl
  | cons e entries ih =>
      by_cases hKey : e.1 = k
      · simp [hKey]
      · simpa [hKey] using ih

theorem get?_erase
    (d : Dict K V)
    (k k' : K) :
    (d.erase k).get? k' =
      if k = k' then none else d.get? k' := by
  by_cases hEq : k = k'
  · subst hEq
    rw [if_pos rfl, get?_eq_none]
    simp [keys, erase]
  · rw [if_neg hEq]
    apply Option.ext
    intro v
    rw [get?_eq_some, get?_eq_some]
    have hNe : k' ≠ k := fun h => hEq h.symm
    simp [erase, hNe]

theorem get?_set
    (d : Dict K V)
    (k k' : K)
    (v : V) :
    (d.set k v).get? k' =
      if k = k' then some v else d.get? k' := by
  unfold set
  split
  next hMem =>
    rw [get?_modify]
    rcases mem_keys.mp hMem with ⟨w, hw⟩
    by_cases hEq : k = k'
    · subst hEq
      simp [hw]
    · simp [hEq]
  next hFresh =>
    apply Option.ext
    intro w
    rw [get?_eq_some]
    by_cases hEq : k = k'
    · subst hEq
      have hNot : (k, w) ∉ d.entries := fun hMem =>
        hFresh (List.mem_map.mpr ⟨(k, w), hMem, rfl⟩)
      simp [hNot, eq_comm]
    · have hNe : k' ≠ k := fun h => hEq h.symm
      simp [hEq, hNe, get?_eq_some]

@[simp] theorem get?_set_self
    (d : Dict K V)
    (k : K)
    (v : V) :
    (d.set k v).get? k = some v := by
  simp [get?_set]

/- Erasing many keys drops an entry or leaves it. -/
theorem get?_foldl_erase
    (d : Dict K V)
    (keys : List K)
    (k : K) :
    (keys.foldl erase d).get? k = none ∨
      (keys.foldl erase d).get? k = d.get? k := by
  induction keys generalizing d with
  | nil => exact Or.inr rfl
  | cons k' keys ih =>
      rcases ih (d.erase k') with hNone | hSame
      · exact Or.inl hNone
      · rw [get?_erase] at hSame
        split at hSame
        · exact Or.inl hSame
        · exact Or.inr hSame

/- Erasing other keys leaves a key alone. -/
theorem get?_foldl_erase_of_not_mem
    (d : Dict K V)
    {keys : List K}
    {k : K}
    (hNot : k ∉ keys) :
    (keys.foldl erase d).get? k = d.get? k := by
  induction keys generalizing d with
  | nil => rfl
  | cons k' keys ih =>
      rw [List.mem_cons, not_or] at hNot
      rw [List.foldl_cons, ih _ hNot.2, get?_erase,
        if_neg (Ne.symm hNot.1)]

/- An erased key is gone. -/
theorem get?_foldl_erase_of_mem
    (d : Dict K V)
    {keys : List K}
    {k : K}
    (hMem : k ∈ keys) :
    (keys.foldl erase d).get? k = none := by
  induction keys generalizing d with
  | nil => exact absurd hMem List.not_mem_nil
  | cons k' keys ih =>
      rw [List.foldl_cons]
      by_cases hLater : k ∈ keys
      · exact ih _ hLater
      · have hFirst : k = k' :=
          (List.mem_cons.mp hMem).resolve_right hLater
        rw [get?_foldl_erase_of_not_mem _ hLater, get?_erase,
          if_pos hFirst.symm]

end Dict

------------------------------------------------------------
-- Setting Many Keys
------------------------------------------------------------

namespace Dict

variable {A K V : Type} [DecidableEq K]

/- Set an entry, if there is one. -/
def setEntry (d : Dict K V) : Option (K × V) → Dict K V
| none => d
| some (k, v) => d.set k v

/- Set what `f` makes of each item, if it makes anything. -/
def setAll
    (d : Dict K V)
    (f : A → Option (K × V))
    (xs : List A) : Dict K V :=
  xs.foldl (fun d x => d.setEntry (f x)) d

variable {f : A → Option (K × V)}

theorem setAll_cons (d : Dict K V) (x : A) (xs : List A) :
    d.setAll f (x :: xs) = (d.setEntry (f x)).setAll f xs := rfl

/- A key is set, or it was there before. -/
theorem setAll_isSome_iff
    {d : Dict K V}
    {xs : List A}
    {k : K} :
    ((d.setAll f xs).get? k).isSome ↔
      (d.get? k).isSome ∨ ∃ x ∈ xs, ∃ v, f x = some (k, v) := by
  induction xs generalizing d with
  | nil => simp [setAll]
  | cons x xs ih =>
      rw [setAll_cons, ih, List.exists_mem_cons_iff]
      cases hMade : f x with
      | none => simp [setEntry]
      | some made =>
          rcases made with ⟨key, v⟩
          simp only [setEntry, get?_set, Option.some.injEq,
            Prod.mk.injEq, exists_and_left]
          by_cases hEq : key = k
          · simp [hEq]
          · simp [hEq]

/- Items that agree on a key leave their value there. -/
theorem get?_setAll_eq_some
    {d : Dict K V}
    {xs : List A}
    {k : K}
    {v : V}
    (hAgree : ∀ x ∈ xs, ∀ w, f x = some (k, w) → w = v)
    (hSet : d.get? k = some v ∨
      ∃ x ∈ xs, f x = some (k, v)) :
    (d.setAll f xs).get? k = some v := by
  induction xs generalizing d with
  | nil =>
      rcases hSet with hOld | ⟨x, hMem, -⟩
      · exact hOld
      · simp at hMem
  | cons x xs ih =>
      rw [setAll_cons]
      rcases List.forall_mem_cons.mp hAgree with
        ⟨hHead, hTail⟩
      refine ih hTail ?_
      rw [List.exists_mem_cons_iff] at hSet
      cases hMade : f x with
      | none => simpa [hMade, setEntry] using hSet
      | some made =>
          rcases made with ⟨key, w⟩
          simp only [setEntry, get?_set]
          by_cases hEq : key = k
          · subst hEq
            rw [hHead w hMade]
            simp
          · simpa [hMade, hEq] using hSet

end Dict

------------------------------------------------------------
-- Merging
------------------------------------------------------------

namespace Dict

variable {K V : Type} [DecidableEq K]

/- dict.update() with these entries. -/
def update (d : Dict K V) (entries : List (K × V)) :
    Dict K V :=
  entries.foldl (fun d e => d.set e.1 e.2) d

/- Entries with new keys are appended. -/
theorem entries_update
    {d : Dict K V}
    {entries : List (K × V)}
    (hNodup : ((d.entries ++ entries).map (·.1)).Nodup) :
    (d.update entries).entries = d.entries ++ entries := by
  induction entries generalizing d with
  | nil => exact (List.append_nil _).symm
  | cons e entries ih =>
      have hFresh : e.1 ∉ d.keys := by
        rw [List.map_append, List.nodup_append] at hNodup
        intro hMem
        exact hNodup.2.2 e.1 hMem e.1
          (by simp) rfl
      have hSet : (d.set e.1 e.2).entries = d.entries ++ [e] := by
        rw [set, dif_neg hFresh]
      have hRest := ih (d := d.set e.1 e.2)
        (by rwa [hSet, List.append_assoc])
      rw [hSet, List.append_assoc] at hRest
      exact hRest

/- A dictionary is made of its entries. -/
theorem update_empty (d : Dict K V) :
    empty.update d.entries = d := by
  have hEntries := @entries_update _ _ _ empty d.entries d.nodup
  cases hUpdate : empty.update d.entries with
  | mk entries hNodup =>
      rw [hUpdate] at hEntries
      cases d
      simpa [empty] using hEntries

end Dict

------------------------------------------------------------
-- Entries as a Multiset
------------------------------------------------------------

namespace Dict

variable {K V : Type}

theorem nodup_entries (d : Dict K V) : d.entries.Nodup :=
  List.Nodup.of_map _ d.nodup

variable [DecidableEq K]

/- The entries of the set key come first, then the others. -/
theorem perm_set
    (d : Dict K V)
    (k : K)
    (v : V) :
    (d.set k v).entries.Perm
      ((k, v) :: (d.erase k).entries) := by
  have hFresh : (k, v) ∉ (d.erase k).entries := by
    rw [← get?_eq_some, get?_erase, if_pos rfl]
    exact nofun
  rw [List.perm_ext_iff_of_nodup (nodup_entries _)
    (List.nodup_cons.mpr ⟨hFresh, nodup_entries _⟩)]
  rintro ⟨k', w⟩
  rw [List.mem_cons, ← get?_eq_some, ← get?_eq_some,
    get?_set, get?_erase]
  by_cases hEq : k = k'
  · simp [hEq, eq_comm]
  · have hNe : k' ≠ k := fun h => hEq h.symm
    simp [hEq, hNe]

/- The entry of a key, if it has one, and the others. -/
theorem perm_erase
    (d : Dict K V)
    (k : K) :
    d.entries.Perm
      ((d.get? k).toList.map (fun v => (k, v)) ++
        (d.erase k).entries) := by
  cases hGet : d.get? k with
  | none =>
      rw [List.perm_ext_iff_of_nodup (nodup_entries _)
        (by simpa using nodup_entries (d.erase k))]
      rintro ⟨k', w⟩
      simp only [Option.toList_none, List.map_nil,
        List.nil_append]
      rw [← get?_eq_some, ← get?_eq_some, get?_erase]
      by_cases hEq : k = k'
      · rw [if_pos hEq, ← hEq, hGet]
      · rw [if_neg hEq]
  | some v =>
      have hFresh : (k, v) ∉ (d.erase k).entries := by
        rw [← get?_eq_some, get?_erase, if_pos rfl]
        exact nofun
      rw [List.perm_ext_iff_of_nodup (nodup_entries _)
        (by simpa using ⟨hFresh, nodup_entries (d.erase k)⟩)]
      rintro ⟨k', w⟩
      simp only [Option.toList_some, List.map_cons,
        List.map_nil, List.cons_append, List.nil_append]
      rw [List.mem_cons, ← get?_eq_some, ← get?_eq_some,
        get?_erase]
      by_cases hEq : k = k'
      · subst hEq
        simp [hGet, eq_comm]
      · have hNe : k' ≠ k := fun h => hEq h.symm
        simp [hEq, hNe]

/- Erasing a key takes its value out of a count. -/
theorem countP_erase
    (d : Dict K V)
    (k : K)
    (p : V → Bool) :
    (d.get? k).toList.countP p +
        (d.erase k).values.countP p =
      d.values.countP p := by
  have hPerm := (perm_erase d k).map (·.2)
  rw [values, values, hPerm.countP_eq, List.map_append,
    List.countP_append, List.map_map]
  simp [Function.comp_def]

/- Setting a key replaces its value in a count. -/
theorem countP_set
    (d : Dict K V)
    (k : K)
    (v : V)
    (p : V → Bool) :
    (d.get? k).toList.countP p + (d.set k v).values.countP p =
      [v].countP p + d.values.countP p := by
  have hPerm := (perm_set d k v).map (·.2)
  rw [← countP_erase d k p, values, hPerm.countP_eq,
    List.map_cons, List.countP_cons, List.countP_singleton]
  simp only [values]
  omega

/- Setting a key replaces its value in the sum. -/
theorem sum_set
    [AddCommMonoid V]
    (d : Dict K V)
    (k : K)
    (v : V) :
    (d.get? k).getD 0 + (d.set k v).values.sum =
      v + d.values.sum := by
  have hOld := (perm_erase d k).map (·.2)
  have hNew := (perm_set d k v).map (·.2)
  have hSet :
      (d.set k v).values.sum =
        v + (d.erase k).values.sum := by
    rw [values, hNew.sum_eq, List.map_cons, List.sum_cons]
    rfl
  have hErase :
      d.values.sum =
        (d.get? k).getD 0 + (d.erase k).values.sum := by
    rw [values, hOld.sum_eq, List.map_append, List.sum_append]
    cases d.get? k with
    | none => simp [values]
    | some w => simp [values]
  rw [hSet, hErase, add_left_comm]

/- Without a value for any key there are no entries. -/
theorem eq_empty
    {d : Dict K V}
    (hNone : ∀ k, d.get? k = none) :
    d = empty := by
  have hEntries : d.entries = [] := by
    rw [List.eq_nil_iff_forall_not_mem]
    rintro ⟨k, v⟩ hMem
    rw [← get?_eq_some, hNone k] at hMem
    cases hMem
  cases d
  cases hEntries
  rfl

end Dict
