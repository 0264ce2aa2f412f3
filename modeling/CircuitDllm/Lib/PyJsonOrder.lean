import Mathlib.Data.List.Lex
import Mathlib.Data.List.Sort
import CircuitDllm.Lib.PyJsonText

/-
  Values that differ only in the order of their members.

  With sort_keys a dict is written in the order of its keys.
  The text then determines the value up to the order of the
  members, which Python's == does not see.

  Main declarations:
    * `PyJson.sortKeys`, `PyJson.Equal`
    * `PyJson.equal_iff_sortKeys`
    * `PyJson.Sound`, `PyJson.sound_sortKeys`
-/

------------------------------------------------------------
-- Sorted Keys
------------------------------------------------------------

namespace PyJson

variable {F : Type}

/- sorted(items), where no key comes twice. -/
def sortMembers {α : Type} (members : List (List Nat × α)) :
    List (List Nat × α) :=
  members.insertionSort (fun m m' => m.1 ≤ m'.1)

mutual

/- The value with the members of every dict sorted. -/
def sortKeys : PyJson F → PyJson F
| .arr items => .arr (sortKeysItems items)
| .obj members => .obj (sortMembers (sortKeysMembers members))
| v => v

def sortKeysItems : List (PyJson F) → List (PyJson F)
| [] => []
| item :: items => sortKeys item :: sortKeysItems items

def sortKeysMembers :
    List (List Nat × PyJson F) → List (List Nat × PyJson F)
| [] => []
| (key, value) :: members =>
    (key, sortKeys value) :: sortKeysMembers members

end

/-
  Values with the same items and, under each key, the same
  value: the order of a dict's members does not count.
-/
inductive Equal : PyJson F → PyJson F → Prop
| null : Equal .null .null
| bool {b : Bool} : Equal (.bool b) (.bool b)
| int {n : Int} : Equal (.int n) (.int n)
| float {x : PyFloat F} : Equal (.float x) (.float x)
| str {s : List Nat} : Equal (.str s) (.str s)
| arr
    {items items' : List (PyJson F)}
    (hLength : items.length = items'.length)
    (hItems :
      ∀ (i : Nat) v v', items[i]? = some v →
        items'[i]? = some v' → Equal v v') :
    Equal (.arr items) (.arr items')
| obj
    {members members' : List (List Nat × PyJson F)}
    (hKeys :
      ∀ key, (members.lookup key).isSome =
        (members'.lookup key).isSome)
    (hValues :
      ∀ key v v', members.lookup key = some v →
        members'.lookup key = some v' → Equal v v') :
    Equal (.obj members) (.obj members')

theorem sortKeysItems_eq (items : List (PyJson F)) :
    sortKeysItems items = items.map sortKeys := by
  induction items with
  | nil => rw [sortKeysItems, List.map_nil]
  | cons item items ih =>
      rw [sortKeysItems, List.map_cons, ih]

theorem sortKeysMembers_eq
    (members : List (List Nat × PyJson F)) :
    sortKeysMembers members =
      members.map (fun m => (m.1, sortKeys m.2)) := by
  induction members with
  | nil => rw [sortKeysMembers, List.map_nil]
  | cons m members ih =>
      rw [sortKeysMembers, List.map_cons, ih]

theorem sortMembers_perm
    {α : Type}
    (members : List (List Nat × α)) :
    (sortMembers members).Perm members :=
  List.perm_insertionSort _ _

theorem sortMembers_pairwise
    {α : Type}
    (members : List (List Nat × α)) :
    (sortMembers members).Pairwise (fun m m' => m.1 ≤ m'.1) :=
  List.pairwise_insertionSort _ _

/- Members with new keys are sorted in one way only. -/
theorem sortMembers_congr
    {α : Type}
    {members members' : List (List Nat × α)}
    (hNodup : (members.map (·.1)).Nodup)
    (hPerm : members.Perm members') :
    sortMembers members = sortMembers members' := by
  have hSorted :
      (sortMembers members).Perm (sortMembers members') :=
    (sortMembers_perm members).trans
      (hPerm.trans (sortMembers_perm members').symm)
  apply List.Perm.eq_of_pairwise _
    (sortMembers_pairwise members)
    (sortMembers_pairwise members') hSorted
  intro m m' hM hM' hLe hGe
  have hKey : m.1 = m'.1 := le_antisymm hLe hGe
  have hMem := (sortMembers_perm members).subset hM
  have hMem' :=
    hPerm.symm.subset ((sortMembers_perm members').subset hM')
  exact List.inj_on_of_nodup_map hNodup hMem hMem' hKey

/- A dict has the value of a key once. -/
theorem lookup_eq_some_iff
    {α : Type}
    {members : List (List Nat × α)}
    (hNodup : (members.map (·.1)).Nodup)
    {key : List Nat}
    {v : α} :
    members.lookup key = some v ↔ (key, v) ∈ members := by
  induction members with
  | nil => simp
  | cons m members ih =>
      rcases m with ⟨k, w⟩
      rw [List.map_cons, List.nodup_cons] at hNodup
      by_cases hKey : key = k
      · subst hKey
        rw [List.lookup_cons_self, List.mem_cons,
          Option.some.injEq]
        constructor
        · rintro rfl
          exact .inl rfl
        · rintro (hEq | hMem)
          · exact (Prod.mk.injEq _ _ _ _ ▸ hEq).2.symm
          · exact absurd (List.mem_map_of_mem hMem) hNodup.1
      · have hFalse : (key == k) = false := by
          simpa using hKey
        rw [List.lookup_cons, hFalse, List.mem_cons]
        simp only [ih hNodup.2, Prod.mk.injEq, hKey, false_and,
          false_or]

theorem lookup_map
    {α β : Type}
    (f : α → β)
    (members : List (List Nat × α))
    (key : List Nat) :
    (members.map (fun m => (m.1, f m.2))).lookup key =
      (members.lookup key).map f := by
  induction members with
  | nil => rfl
  | cons m members ih =>
      rw [List.map_cons, List.lookup_cons, List.lookup_cons]
      cases key == m.1 with
      | false => exact ih
      | true => rfl

/- Dicts that answer alike have the same members. -/
theorem perm_of_lookup
    {α : Type}
    {members members' : List (List Nat × α)}
    (hNodup : (members.map (·.1)).Nodup)
    (hNodup' : (members'.map (·.1)).Nodup)
    (hLookup :
      ∀ key, members.lookup key = members'.lookup key) :
    members.Perm members' := by
  rw [List.perm_ext_iff_of_nodup hNodup.of_map hNodup'.of_map]
  rintro ⟨key, v⟩
  rw [← lookup_eq_some_iff hNodup, hLookup,
    lookup_eq_some_iff hNodup']

theorem lookup_of_perm
    {α : Type}
    {members members' : List (List Nat × α)}
    (hNodup : (members.map (·.1)).Nodup)
    (hPerm : members.Perm members')
    (key : List Nat) :
    members.lookup key = members'.lookup key := by
  have hNodup' : (members'.map (·.1)).Nodup :=
    (hPerm.map _).nodup_iff.mp hNodup
  apply Option.ext
  intro v
  rw [lookup_eq_some_iff hNodup, lookup_eq_some_iff hNodup']
  exact hPerm.mem_iff

theorem map_keys
    {α β : Type}
    (f : α → β)
    (members : List (List Nat × α)) :
    (members.map (fun m => (m.1, f m.2))).map (·.1) =
      members.map (·.1) := by
  rw [List.map_map]
  rfl

theorem sortKeys_eq_of_equal
    {v w : PyJson F}
    (hEqual : Equal v w)
    (hDicts : Dicts v)
    (hDicts' : Dicts w) :
    sortKeys v = sortKeys w := by
  induction hEqual with
  | null => rfl
  | bool => rfl
  | int => rfl
  | float => rfl
  | str => rfl
  | @arr items items' hLength hItems ih =>
      cases hDicts with
      | arr hParts =>
          cases hDicts' with
          | arr hParts' =>
              rw [sortKeys, sortKeys, sortKeysItems_eq,
                sortKeysItems_eq]
              congr 1
              apply List.ext_getElem
              · rw [List.length_map, List.length_map, hLength]
              · intro i hLt hLt'
                rw [List.getElem_map, List.getElem_map]
                rw [List.length_map] at hLt hLt'
                exact ih i _ _ (List.getElem?_eq_getElem hLt)
                  (List.getElem?_eq_getElem hLt')
                  (hParts _ (List.getElem_mem hLt))
                  (hParts' _ (List.getElem_mem hLt'))
  | @obj members members' hKeys hValues ih =>
      cases hDicts with
      | obj hNodup hParts =>
          cases hDicts' with
          | obj hNodup' hParts' =>
              rw [sortKeys, sortKeys, sortKeysMembers_eq,
                sortKeysMembers_eq]
              congr 1
              apply sortMembers_congr
              · rwa [map_keys]
              · apply perm_of_lookup
                · rwa [map_keys]
                · rwa [map_keys]
                intro key
                rw [lookup_map, lookup_map]
                have hKey := hKeys key
                cases hV : members.lookup key with
                | none =>
                    rw [hV] at hKey
                    have hNone : members'.lookup key = none := by
                      simpa using hKey
                    rw [hNone]
                | some v =>
                    rw [hV] at hKey
                    rcases Option.isSome_iff_exists.mp
                      hKey.symm with ⟨w, hW⟩
                    have hMem := (lookup_eq_some_iff hNodup).mp
                      hV
                    have hMem' :=
                      (lookup_eq_some_iff hNodup').mp hW
                    rw [hW, Option.map_some, Option.map_some,
                      ih key v w hV hW (hParts _ hMem)
                        (hParts' _ hMem')]

theorem equal_of_sortKeys_eq
    {v w : PyJson F}
    (hDicts : Dicts v)
    (hDicts' : Dicts w)
    (hEq : sortKeys v = sortKeys w) :
    Equal v w := by
  induction v using ind generalizing w with
  | null =>
      cases w with
      | null => exact .null
      | _ => simp [sortKeys] at hEq
  | bool b =>
      cases w with
      | bool b' =>
          simp only [sortKeys, bool.injEq] at hEq
          rw [hEq]
          exact .bool
      | _ => simp [sortKeys] at hEq
  | int n =>
      cases w with
      | int n' =>
          simp only [sortKeys, int.injEq] at hEq
          rw [hEq]
          exact .int
      | _ => simp [sortKeys] at hEq
  | float x =>
      cases w with
      | float x' =>
          simp only [sortKeys, float.injEq] at hEq
          rw [hEq]
          exact .float
      | _ => simp [sortKeys] at hEq
  | str s =>
      cases w with
      | str s' =>
          simp only [sortKeys, str.injEq] at hEq
          rw [hEq]
          exact .str
      | _ => simp [sortKeys] at hEq
  | arr items ih =>
      cases w with
      | arr items' =>
          cases hDicts with
          | arr hParts =>
              cases hDicts' with
              | arr hParts' =>
                  rw [sortKeys, sortKeys, arr.injEq,
                    sortKeysItems_eq, sortKeysItems_eq] at hEq
                  have hLength := congrArg List.length hEq
                  rw [List.length_map, List.length_map]
                    at hLength
                  refine .arr hLength ?_
                  intro i v v' hV hV'
                  have hAt := congrArg (·[i]?) hEq
                  simp only [List.getElem?_map, hV, hV',
                    Option.map_some, Option.some.injEq] at hAt
                  have hMem := List.mem_of_getElem? hV
                  exact ih v hMem (hParts v hMem)
                    (hParts' v' (List.mem_of_getElem? hV')) hAt
      | _ => simp [sortKeys] at hEq
  | obj members ih =>
      cases w with
      | obj members' =>
          cases hDicts with
          | obj hNodup hParts =>
              cases hDicts' with
              | obj hNodup' hParts' =>
                  rw [sortKeys, sortKeys, obj.injEq,
                    sortKeysMembers_eq, sortKeysMembers_eq]
                    at hEq
                  have hPerm := sortMembers_perm
                    (members.map (fun m => (m.1, sortKeys m.2)))
                  rw [hEq] at hPerm
                  have hLookup := lookup_of_perm
                    (by rwa [map_keys])
                    (hPerm.symm.trans (sortMembers_perm _))
                  simp only [lookup_map] at hLookup
                  refine .obj ?_ ?_
                  · intro key
                    have hKey :=
                      congrArg Option.isSome (hLookup key)
                    rwa [Option.isSome_map, Option.isSome_map]
                      at hKey
                  · intro key v v' hV hV'
                    have hKey := hLookup key
                    rw [hV, hV', Option.map_some,
                      Option.map_some, Option.some.injEq]
                      at hKey
                    have hMem :=
                      (lookup_eq_some_iff hNodup).mp hV
                    have hMem' :=
                      (lookup_eq_some_iff hNodup').mp hV'
                    exact ih (key, v) hMem (hParts _ hMem)
                      (hParts' _ hMem') hKey
      | _ => simp [sortKeys] at hEq

/- Sorting forgets the order of members, and only that. -/
theorem equal_iff_sortKeys
    {v w : PyJson F}
    (hDicts : Dicts v)
    (hDicts' : Dicts w) :
    Equal v w ↔ sortKeys v = sortKeys w :=
  ⟨fun hEqual => sortKeys_eq_of_equal hEqual hDicts hDicts',
    equal_of_sortKeys_eq hDicts hDicts'⟩

end PyJson

------------------------------------------------------------
-- Sorting And The Limits
------------------------------------------------------------

namespace PyJson

variable {F : Type} {limits : Limits}

/- A value that json.dumps writes and json.loads reads. -/
structure Sound (limits : Limits) (v : PyJson F) : Prop where
  fits : Fits limits limits.depth v
  dicts : Dicts v
  scalars : v.scalars = true

/- Every sorted member comes from one that was there. -/
theorem mem_sorted
    {members : List (List Nat × PyJson F)}
    {m : List Nat × PyJson F}
    (hMem : m ∈ sortMembers (sortKeysMembers members)) :
    ∃ m' ∈ members, m = (m'.1, sortKeys m'.2) := by
  have hIn := (sortMembers_perm _).subset hMem
  rw [sortKeysMembers_eq] at hIn
  rcases List.mem_map.mp hIn with ⟨m', hM', hEq⟩
  exact ⟨m', hM', hEq.symm⟩

/- Every member is still there after sorting. -/
theorem mem_of_mem_members
    {members : List (List Nat × PyJson F)}
    {m : List Nat × PyJson F}
    (hMem : m ∈ members) :
    (m.1, sortKeys m.2) ∈
      sortMembers (sortKeysMembers members) := by
  apply (sortMembers_perm _).symm.subset
  rw [sortKeysMembers_eq]
  exact List.mem_map_of_mem
    (f := fun m : List Nat × PyJson F => (m.1, sortKeys m.2))
    hMem

theorem fits_sortKeys
    {depth : Nat}
    {v : PyJson F} :
    Fits limits depth v.sortKeys ↔ Fits limits depth v := by
  induction v using ind generalizing depth with
  | null => exact Iff.rfl
  | bool b => exact Iff.rfl
  | int n => exact Iff.rfl
  | float x => exact Iff.rfl
  | str s => exact Iff.rfl
  | arr items ih =>
      rw [PyJson.sortKeys, sortKeysItems_eq]
      constructor
      · intro hFits
        cases hFits with
        | arr hItems =>
            apply Fits.arr
            intro item hItem
            exact (ih item hItem).mp
              (hItems _ (List.mem_map_of_mem hItem))
      · intro hFits
        cases hFits with
        | arr hItems =>
            apply Fits.arr
            intro v hV
            rcases List.mem_map.mp hV with ⟨item, hItem, rfl⟩
            exact (ih item hItem).mpr (hItems item hItem)
  | obj members ih =>
      rw [PyJson.sortKeys]
      constructor
      · intro hFits
        cases hFits with
        | obj hMembers =>
            apply Fits.obj
            intro m hM
            exact (ih m hM).mp
              (hMembers _ (mem_of_mem_members hM))
      · intro hFits
        cases hFits with
        | obj hMembers =>
            apply Fits.obj
            intro m hM
            rcases mem_sorted hM with ⟨m', hM', rfl⟩
            exact (ih m' hM').mpr (hMembers m' hM')

theorem Dicts.sortKeys
    {v : PyJson F}
    (hDicts : Dicts v) :
    Dicts v.sortKeys := by
  induction hDicts with
  | null => exact .null
  | bool => exact .bool
  | int => exact .int
  | float => exact .float
  | str => exact .str
  | arr hItems ih =>
      rw [PyJson.sortKeys, sortKeysItems_eq]
      apply Dicts.arr
      intro v hV
      rcases List.mem_map.mp hV with ⟨item, hItem, rfl⟩
      exact ih item hItem
  | @obj members hNodup hMembers ih =>
      rw [PyJson.sortKeys]
      refine .obj ?_ ?_
      · have hKeys :=
          (sortMembers_perm (sortKeysMembers members)).map
            (·.1)
        rw [hKeys.nodup_iff, sortKeysMembers_eq, map_keys]
        exact hNodup
      · intro m hM
        rcases mem_sorted hM with ⟨m', hM', rfl⟩
        exact ih m' hM'

theorem scalars_sortKeys {v : PyJson F} :
    v.sortKeys.scalars = true ↔ v.scalars = true := by
  induction v using ind with
  | null => exact Iff.rfl
  | bool b => exact Iff.rfl
  | int n => exact Iff.rfl
  | float x => exact Iff.rfl
  | str s => exact Iff.rfl
  | arr items ih =>
      rw [PyJson.sortKeys, sortKeysItems_eq, scalars_arr,
        scalars_arr, List.forall_mem_map]
      exact forall₂_congr ih
  | obj members ih =>
      rw [PyJson.sortKeys, scalars_obj, scalars_obj]
      constructor
      · intro hAll m hM
        rcases hAll _ (mem_of_mem_members hM) with
          ⟨hKey, hValue⟩
        exact ⟨hKey, (ih m hM).mp hValue⟩
      · intro hAll m hM
        rcases mem_sorted hM with ⟨m', hM', rfl⟩
        exact ⟨(hAll m' hM').1, (ih m' hM').mpr (hAll m' hM').2⟩

theorem sound_sortKeys
    {v : PyJson F}
    (hDicts : Dicts v) :
    Sound limits v.sortKeys ↔ Sound limits v := by
  constructor
  · rintro ⟨hFits, -, hScalars⟩
    exact ⟨fits_sortKeys.mp hFits, hDicts,
      scalars_sortKeys.mp hScalars⟩
  · rintro ⟨hFits, -, hScalars⟩
    exact ⟨fits_sortKeys.mpr hFits, hDicts.sortKeys,
      scalars_sortKeys.mpr hScalars⟩

end PyJson
