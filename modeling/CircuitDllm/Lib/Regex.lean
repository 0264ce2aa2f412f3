import Mathlib.Data.List.DropRight
import Mathlib.Data.List.Infix

/-
  Regular expressions as a backtracking matcher runs them.

  `ways` lists the ways an expression takes a front part of
  a text, in the order the matcher tries them: a greedy
  repeat tries the longest first, a lazy one the shortest.
  The first of them is the match.

  Main declarations:
    * `Regex`, `Regex.ways`, `Regex.first`
    * `Regex.search`, `Regex.search_eq_some`
    * `Regex.scan`, `Regex.scan_scans`
    * `Regex.upTo`, `Regex.first_between`
-/

------------------------------------------------------------
-- Expressions
------------------------------------------------------------

/- Letters are of any type. -/
inductive Regex (α : Type) where
  | word (w : List α)
  | many (p : α → Bool)
  | manyLazy (p : α → Bool)
  | group (r : Regex α)
  | seq (r t : Regex α)

namespace Regex

variable {α : Type}

/- What is taken, its groups, and the text after it. -/
structure Match (α : Type) where
  taken : List α
  groups : List (List α)
  rest : List α

namespace Match

/- Nothing of a text is taken. -/
def none (s : List α) : Match α where
  taken := []
  groups := []
  rest := s

/- One letter is taken before all others. -/
def cons (c : α) (m : Match α) : Match α :=
  { m with taken := c :: m.taken }

/- One match and the next one after it. -/
def append (m n : Match α) : Match α where
  taken := m.taken ++ n.taken
  groups := m.groups ++ n.groups
  rest := n.rest

/- What is taken is a group of its own. -/
def grouped (m : Match α) : Match α :=
  { m with groups := m.taken :: m.groups }

/- The text of a group, counted from one. -/
def group (m : Match α) (k : Nat) : List α :=
  (m.groups[k - 1]?).getD []

end Match

/- The longest first. -/
def manyWays (p : α → Bool) : List α → List (Match α)
| [] => [.none []]
| c :: s =>
    if p c then
      (manyWays p s).map (.cons c) ++ [.none (c :: s)]
    else [.none (c :: s)]

/- The shortest first. -/
def lazyWays (p : α → Bool) : List α → List (Match α)
| [] => [.none []]
| c :: s =>
    .none (c :: s) ::
      if p c then (lazyWays p s).map (.cons c) else []

variable [DecidableEq α]

def ways : Regex α → List α → List (Match α)
| word w, s =>
    if w <+: s then [⟨w, [], s.drop w.length⟩] else []
| many p, s => manyWays p s
| manyLazy p, s => lazyWays p s
| group r, s => (ways r s).map .grouped
| seq r t, s =>
    (ways r s).flatMap (fun m =>
      (ways t m.rest).map m.append)

/- The match at the start of a text. -/
def first (r : Regex α) (s : List α) : Option (Match α) :=
  (ways r s).head?

/- The leftmost match and the text before it. -/
def search (r : Regex α) :
    List α → Option (List α × Match α)
| [] => (r.first []).map (fun m => ([], m))
| c :: s =>
  match r.first (c :: s) with
  | some m => some ([], m)
  | none => (search r s).map (fun f => (c :: f.1, f.2))

/-
  The matches from left to right, each with the text before
  it, and the text after the last.  The expression takes
  something whenever it matches.
-/
def scan (r : Regex α) :
    Nat → List α → List (List α × Match α) × List α
| 0, s => ([], s)
| fuel + 1, s =>
  match r.search s with
  | none => ([], s)
  | some (before, m) =>
    let more := scan r fuel m.rest
    ((before, m) :: more.1, more.2)

def finditer (r : Regex α) (s : List α) : List (Match α) :=
  (r.scan s.length s).1.map (·.2)

/- Every match is replaced by `new`. -/
def sub (r : Regex α) (new s : List α) : List α :=
  (r.scan s.length s).1.flatMap (fun f => f.1 ++ new) ++
    (r.scan s.length s).2

end Regex

------------------------------------------------------------
-- What Is Taken
------------------------------------------------------------

namespace Regex

variable {α : Type}

theorem manyWays_taken
    {p : α → Bool}
    {s : List α}
    {m : Match α}
    (hMem : m ∈ manyWays p s) :
    m.taken ++ m.rest = s := by
  induction s generalizing m with
  | nil =>
      rw [manyWays, List.mem_singleton] at hMem
      rw [hMem]
      rfl
  | cons c s ih =>
      rw [manyWays] at hMem
      split at hMem
      · rcases List.mem_append.mp hMem with hMore | hNone
        · rcases List.mem_map.mp hMore with ⟨n, hN, rfl⟩
          exact congrArg (c :: ·) (ih hN)
        · rw [List.mem_singleton.mp hNone]
          rfl
      · rw [List.mem_singleton.mp hMem]
        rfl

theorem lazyWays_taken
    {p : α → Bool}
    {s : List α}
    {m : Match α}
    (hMem : m ∈ lazyWays p s) :
    m.taken ++ m.rest = s := by
  induction s generalizing m with
  | nil =>
      rw [lazyWays, List.mem_singleton] at hMem
      rw [hMem]
      rfl
  | cons c s ih =>
      rw [lazyWays] at hMem
      rcases List.mem_cons.mp hMem with rfl | hMore
      · rfl
      · split at hMore
        · rcases List.mem_map.mp hMore with ⟨n, hN, rfl⟩
          exact congrArg (c :: ·) (ih hN)
        · cases hMore

variable [DecidableEq α]

/- A match and the text after it make up the text. -/
theorem ways_taken
    {r : Regex α}
    {s : List α}
    {m : Match α}
    (hMem : m ∈ ways r s) :
    m.taken ++ m.rest = s := by
  induction r generalizing s m with
  | word w =>
      rw [ways] at hMem
      split at hMem
      · rename_i hPrefix
        rcases hPrefix with ⟨t, rfl⟩
        rw [List.mem_singleton.mp hMem]
        simp
      · cases hMem
  | many p => exact manyWays_taken hMem
  | manyLazy p => exact lazyWays_taken hMem
  | group r ih =>
      rcases List.mem_map.mp hMem with ⟨n, hN, rfl⟩
      have hTaken := ih hN
      exact hTaken
  | seq r t ihFirst ihNext =>
      rcases List.mem_flatMap.mp hMem with ⟨n, hN, hRest⟩
      rcases List.mem_map.mp hRest with ⟨n', hN', rfl⟩
      have hFirst := ihFirst hN
      have hNext := ihNext hN'
      simp only [Match.append, List.append_assoc, hNext, hFirst]

theorem first_taken
    {r : Regex α}
    {s : List α}
    {m : Match α}
    (hFirst : r.first s = some m) :
    m.taken ++ m.rest = s :=
  ways_taken (List.mem_of_mem_head? hFirst)

end Regex

------------------------------------------------------------
-- The Leftmost Match
------------------------------------------------------------

namespace Regex

variable {α : Type} [DecidableEq α] {r : Regex α}

theorem search_eq_none
    {s : List α}
    (hNone : r.search s = none)
    {before after : List α}
    (hEq : s = before ++ after) :
    r.first after = none := by
  induction s generalizing before with
  | nil =>
      rcases List.nil_eq_append_iff.mp hEq with ⟨-, rfl⟩
      rw [search, Option.map_eq_none_iff] at hNone
      exact hNone
  | cons c s ih =>
      rw [search] at hNone
      split at hNone
      · cases hNone
      · rename_i hHere
        rw [Option.map_eq_none_iff] at hNone
        cases before with
        | nil =>
            rw [List.nil_append] at hEq
            rw [← hEq]
            exact hHere
        | cons b before =>
            rw [List.cons_append, List.cons.injEq] at hEq
            exact ih hNone hEq.2

/- No match starts before the one that is found. -/
theorem search_eq_some
    {s before : List α}
    {m : Match α}
    (hFound : r.search s = some (before, m)) :
    ∃ after, s = before ++ after ∧ r.first after = some m ∧
      ∀ before' after', s = before' ++ after' →
        before'.length < before.length →
        r.first after' = none := by
  induction s generalizing before with
  | nil =>
      rw [search, Option.map_eq_some_iff] at hFound
      rcases hFound with ⟨n, hFirst, hEq⟩
      rw [Prod.mk.injEq] at hEq
      rcases hEq with ⟨rfl, rfl⟩
      exact ⟨[], rfl, hFirst,
        fun _ _ _ hLt => absurd hLt (Nat.not_lt_zero _)⟩
  | cons c s ih =>
      rw [search] at hFound
      split at hFound
      · rename_i n hFirst
        rw [Option.some.injEq, Prod.mk.injEq] at hFound
        rcases hFound with ⟨rfl, rfl⟩
        exact ⟨c :: s, rfl, hFirst,
          fun _ _ _ hLt => absurd hLt (Nat.not_lt_zero _)⟩
      · rename_i hHere
        rcases Option.map_eq_some_iff.mp hFound with
          ⟨f, hLater, hEq⟩
        rw [Prod.mk.injEq] at hEq
        rcases hEq with ⟨rfl, rfl⟩
        rcases ih hLater with ⟨after, hText, hFirst, hLeast⟩
        refine ⟨after, congrArg (c :: ·) hText, hFirst, ?_⟩
        intro before' after' hText' hLt
        cases before' with
        | nil =>
            rw [List.nil_append] at hText'
            rw [← hText']
            exact hHere
        | cons b before' =>
            rw [List.cons_append, List.cons.injEq] at hText'
            apply hLeast before' after' hText'.2
            exact Nat.lt_of_succ_lt_succ hLt

end Regex

------------------------------------------------------------
-- All Matches
------------------------------------------------------------

namespace Regex

variable {α : Type} [DecidableEq α]

/- Searching on after every match, as long as there is one. -/
inductive Scans (r : Regex α) :
    List α → List (List α × Match α) → List α → Prop
| done {s : List α} (hNone : r.search s = none) :
    Scans r s [] s
| step
    {s before tail : List α}
    {m : Match α}
    {found : List (List α × Match α)}
    (hFound : r.search s = some (before, m))
    (hMore : Scans r m.rest found tail) :
    Scans r s ((before, m) :: found) tail

/- It takes something whenever it matches. -/
def TakesSome (r : Regex α) : Prop :=
  ∀ s m, r.first s = some m → m.taken ≠ []

theorem TakesSome.rest_lt
    {r : Regex α}
    (hTakes : r.TakesSome)
    {s before : List α}
    {m : Match α}
    (hFound : r.search s = some (before, m)) :
    m.rest.length < s.length := by
  rcases search_eq_some hFound with ⟨after, rfl, hFirst, -⟩
  have hSome := List.length_pos_of_ne_nil (hTakes _ _ hFirst)
  rw [← first_taken hFirst, List.length_append,
    List.length_append]
  omega

theorem scan_scans
    {r : Regex α}
    (hTakes : r.TakesSome)
    {fuel : Nat}
    {s : List α}
    (hFuel : s.length ≤ fuel) :
    Scans r s (r.scan fuel s).1 (r.scan fuel s).2 := by
  induction fuel generalizing s with
  | zero =>
      apply Scans.done
      cases hSearch : r.search s with
      | none => rfl
      | some f =>
          have hLt := hTakes.rest_lt hSearch
          exact absurd (lt_of_lt_of_le hLt hFuel)
            (Nat.not_lt_zero _)
  | succ fuel ih =>
      rw [scan]
      split
      · rename_i hNone
        exact .done hNone
      · rename_i before m hFound
        have hLt := hTakes.rest_lt hFound
        exact .step hFound (ih (by omega))

end Regex

------------------------------------------------------------
-- The First Occurrence Of A Word
------------------------------------------------------------

namespace Regex

variable {α : Type} [DecidableEq α] {w : List α}

/- The text before the first `w` and the text after it. -/
def upTo (w : List α) : List α → Option (List α × List α)
| [] => if w = [] then some ([], []) else none
| c :: s =>
    if w <+: c :: s then
      some ([], (c :: s).drop w.length)
    else (upTo w s).map (fun f => (c :: f.1, f.2))

theorem upTo_here
    {s : List α}
    (hPrefix : w <+: s) :
    upTo w s = some ([], s.drop w.length) := by
  cases s with
  | nil =>
      rw [List.prefix_nil] at hPrefix
      rw [upTo, if_pos hPrefix, hPrefix]
      rfl
  | cons c s => rw [upTo, if_pos hPrefix]

theorem upTo_cons
    {c : α}
    {s : List α}
    (hNot : ¬ w <+: c :: s) :
    upTo w (c :: s) =
      (upTo w s).map (fun f => (c :: f.1, f.2)) := by
  rw [upTo, if_neg hNot]

theorem upTo_eq_some
    {s before after : List α}
    (hFound : upTo w s = some (before, after)) :
    s = before ++ w ++ after ∧
      ∀ before' after', s = before' ++ w ++ after' →
        before.length ≤ before'.length := by
  induction s generalizing before with
  | nil =>
      rw [upTo] at hFound
      split at hFound
      · rename_i hEmpty
        rw [Option.some.injEq, Prod.mk.injEq] at hFound
        rcases hFound with ⟨rfl, rfl⟩
        rw [hEmpty]
        exact ⟨rfl, fun _ _ _ => Nat.zero_le _⟩
      · cases hFound
  | cons c s ih =>
      by_cases hPrefix : w <+: c :: s
      · rw [upTo_here hPrefix, Option.some.injEq,
          Prod.mk.injEq] at hFound
        rcases hFound with ⟨rfl, rfl⟩
        rcases hPrefix with ⟨t, hT⟩
        rw [← hT, List.drop_left]
        exact ⟨rfl, fun _ _ _ => Nat.zero_le _⟩
      · rw [upTo_cons hPrefix, Option.map_eq_some_iff] at hFound
        rcases hFound with ⟨f, hLater, hEq⟩
        rw [Prod.mk.injEq] at hEq
        rcases hEq with ⟨rfl, rfl⟩
        rcases ih hLater with ⟨hText, hLeast⟩
        refine ⟨congrArg (c :: ·) hText, ?_⟩
        intro before' after' hText'
        cases before' with
        | nil =>
            rw [List.nil_append] at hText'
            exact absurd ⟨after', hText'.symm⟩ hPrefix
        | cons b before' =>
            rw [List.cons_append, List.cons_append,
              List.cons.injEq] at hText'
            apply Nat.succ_le_succ
            exact hLeast before' after' hText'.2

theorem upTo_ne_none
    (before after : List α) :
    upTo w (before ++ w ++ after) ≠ none := by
  induction before with
  | nil =>
      rw [List.nil_append,
        upTo_here (List.prefix_append w after)]
      exact Option.some_ne_none _
  | cons c before ih =>
      rw [List.cons_append, List.cons_append]
      by_cases hPrefix : w <+: c :: (before ++ w ++ after)
      · rw [upTo_here hPrefix]
        exact Option.some_ne_none _
      · rw [upTo_cons hPrefix, Ne, Option.map_eq_none_iff]
        exact ih

end Regex

------------------------------------------------------------
-- The First Way Through
------------------------------------------------------------

namespace Regex

variable {α : Type} [DecidableEq α] {p : α → Bool} {w : List α}

theorem first_word (s : List α) :
    (word w).first s =
      if w <+: s then some ⟨w, [], s.drop w.length⟩
      else none := by
  rw [first, ways]
  split <;> rfl

/- The first way of `r` that `t` goes on from. -/
theorem first_seq (r t : Regex α) (s : List α) :
    (seq r t).first s =
      (ways r s).findSome? (fun m =>
        (t.first m.rest).map m.append) := by
  rw [first, ways, List.head?_flatMap]
  congr 1
  funext m
  exact List.head?_map

theorem first_seq_word (t : Regex α) (s : List α) :
    (seq (word w) t).first s =
      if w <+: s then
        (t.first (s.drop w.length)).map (fun m =>
          ⟨w ++ m.taken, m.groups, m.rest⟩)
      else none := by
  rw [first_seq, ways]
  split
  · rw [List.findSome?_singleton]
    rfl
  · rfl

/- All of the class is taken where the next letter is not. -/
theorem first_many_cons_neg
    {t : Regex α}
    {c : α}
    {s : List α}
    (hNot : ¬ p c) :
    (seq (many p) t).first (c :: s) = t.first (c :: s) := by
  rw [first_seq, ways, manyWays, if_neg hNot,
    List.findSome?_singleton]
  exact Option.map_id'

theorem first_many_nil (t : Regex α) :
    (seq (many p) t).first [] = t.first [] := by
  rw [first_seq, ways, manyWays, List.findSome?_singleton]
  exact Option.map_id'

/- One more letter is tried before none is. -/
theorem first_many_cons
    {t : Regex α}
    {c : α}
    {s : List α}
    (hIs : p c) :
    (seq (many p) t).first (c :: s) =
      (((seq (many p) t).first s).map (.cons c)).or
        (t.first (c :: s)) := by
  rw [first_seq, first_seq, ways, ways, manyWays, if_pos hIs,
    List.findSome?_append, List.findSome?_map,
    List.findSome?_singleton, List.map_findSome?]
  congr 1
  · congr 1
    funext m
    simp only [Function.comp, Option.map_map]
    rfl
  · exact Option.map_id'

end Regex

------------------------------------------------------------
-- A Word After Letters Of A Class
------------------------------------------------------------

namespace Regex

variable {α : Type} [DecidableEq α] {p : α → Bool} {w : List α}

/- No letter of the class starts the word. -/
def StartsOutside (p : α → Bool) (w : List α) : Prop :=
  ∀ c s, p c → ¬ w <+: c :: s

/- The repeat takes the whole run of its class. -/
theorem first_many_word
    (hStart : StartsOutside p w)
    (s : List α) :
    (seq (many p) (word w)).first s =
      if w <+: s.dropWhile p then
        some ⟨s.takeWhile p ++ w, [],
          (s.dropWhile p).drop w.length⟩
      else none := by
  induction s with
  | nil =>
      rw [first_many_nil, first_word]
      rfl
  | cons c s ih =>
      by_cases hIs : p c
      · rw [first_many_cons hIs, ih, first_word,
          if_neg (hStart c s hIs), Option.or_none,
          List.dropWhile_cons_of_pos hIs,
          List.takeWhile_cons_of_pos hIs]
        split <;> rfl
      · rw [first_many_cons_neg hIs, first_word,
          List.dropWhile_cons_of_neg hIs,
          List.takeWhile_cons_of_neg hIs]
        rfl

omit [DecidableEq α] in
theorem prefix_dropWhile
    (hStart : StartsOutside p w)
    (s : List α) :
    w <+: (w ++ s).dropWhile p := by
  cases w with
  | nil => exact List.nil_prefix
  | cons d w =>
      have hNot : ¬ p d := by
        intro hIs
        exact hStart d w hIs (List.prefix_refl _)
      rw [List.cons_append, List.dropWhile_cons_of_neg hNot]
      exact List.prefix_append (d :: w) s

theorem upTo_dropWhile
    (hStart : StartsOutside p w)
    (s : List α)
    (hPrefix : w <+: s.dropWhile p) :
    upTo w s =
      some (s.takeWhile p, (s.dropWhile p).drop w.length) := by
  induction s with
  | nil => exact upTo_here hPrefix
  | cons c s ih =>
      by_cases hIs : p c
      · rw [List.dropWhile_cons_of_pos hIs] at hPrefix ⊢
        rw [upTo_cons (hStart c s hIs), ih hPrefix,
          List.takeWhile_cons_of_pos hIs]
        rfl
      · rw [List.dropWhile_cons_of_neg hIs] at hPrefix ⊢
        rw [upTo_here hPrefix,
          List.takeWhile_cons_of_neg hIs]

end Regex

------------------------------------------------------------
-- The Text Between Two Words
------------------------------------------------------------

namespace Regex

variable {α : Type} [DecidableEq α] {p : α → Bool} {w : List α}

/- A text without the letters of a class at its two ends. -/
def strip (p : α → Bool) (s : List α) : List α :=
  (s.dropWhile p).rdropWhile p

/- One more letter is taken, by the first group as well. -/
def Match.consGroup (c : α) (m : Match α) : Match α where
  taken := c :: m.taken
  groups := m.groups.modifyHead (c :: ·)
  rest := m.rest

/- No letter is taken lazily before one more is. -/
theorem first_lazy_cons
    (t : Regex α)
    (c : α)
    (s : List α) :
    (seq (group (manyLazy fun _ => true)) t).first (c :: s) =
      ((t.first (c :: s)).map (fun m =>
        ⟨m.taken, [] :: m.groups, m.rest⟩)).or
        (((seq (group (manyLazy fun _ => true)) t).first
          s).map (.consGroup c)) := by
  rw [first_seq, first_seq, ways, ways, ways, ways, lazyWays,
    if_pos rfl, List.map_cons, List.findSome?_cons,
    List.map_map, List.findSome?_map, List.findSome?_map,
    List.map_findSome?]
  have hMore :
      ((fun m => (t.first m.rest).map m.append) ∘
          (Match.grouped ∘ Match.cons c)) =
        Option.map (Match.consGroup c) ∘
          (fun m => (t.first m.rest).map m.append) ∘
            Match.grouped := by
    funext m
    simp only [Function.comp, Option.map_map]
    rfl
  rw [hMore]
  cases hFirst : t.first (c :: s) with
  | none =>
      simp only [Match.grouped, Match.none, hFirst,
        Option.map_none, Option.none_or]
  | some m =>
      simp only [Match.grouped, Match.none, hFirst,
        Option.map_some, Option.some_or]
      rfl

omit [DecidableEq α] in
theorem rdropWhile_cons
    {c : α}
    {s : List α}
    (hNot : ¬ ∀ d ∈ c :: s, p d) :
    (c :: s).rdropWhile p = c :: s.rdropWhile p := by
  rw [List.rdropWhile, List.rdropWhile, List.reverse_cons,
    List.dropWhile_append]
  split
  · rename_i hAll
    have hNil : s.reverse.dropWhile p = [] :=
      List.isEmpty_iff.mp hAll
    have hC : ¬ p c := by
      intro hIs
      apply hNot
      intro d hD
      rcases List.mem_cons.mp hD with rfl | hMem
      · exact hIs
      · exact List.dropWhile_eq_nil_iff.mp hNil d
          (List.mem_reverse.mpr hMem)
    rw [List.dropWhile_cons_of_neg hC, hNil]
    rfl
  · rw [List.reverse_append]
    rfl

/- The group stops before the class and the word. -/
theorem first_lazy_many_word
    (hStart : StartsOutside p w)
    (s : List α) :
    (seq (group (manyLazy fun _ => true))
        (seq (many p) (word w))).first s =
      (upTo w s).map (fun f =>
        ⟨f.1 ++ w, [f.1.rdropWhile p], f.2⟩) := by
  induction s with
  | nil =>
      rw [first_seq, ways, ways, lazyWays, List.map_singleton,
        List.findSome?_singleton, upTo]
      simp only [Match.grouped, Match.none,
        first_many_word hStart]
      by_cases hEmpty : w = []
      · simp [hEmpty, Match.append]
      · simp [hEmpty]
  | cons c s ih =>
      rw [first_lazy_cons, first_many_word hStart, ih]
      by_cases hHere : w <+: (c :: s).dropWhile p
      · have hAll : ∀ d ∈ (c :: s).takeWhile p, p d :=
          fun d hD => List.mem_takeWhile_imp hD
        rw [if_pos hHere, upTo_dropWhile hStart _ hHere,
          Option.map_some, Option.some_or, Option.map_some,
          List.rdropWhile_eq_nil_iff.mpr hAll]
      · have hNot : ¬ w <+: c :: s := by
          intro hPrefix
          apply hHere
          by_cases hIs : p c
          · exact absurd hPrefix (hStart c s hIs)
          · rwa [List.dropWhile_cons_of_neg hIs]
        rw [if_neg hHere, Option.map_none, Option.none_or,
          upTo_cons hNot]
        cases hLater : upTo w s with
        | none => rfl
        | some f =>
            rcases f with ⟨before, after⟩
            have hSome : ¬ ∀ d ∈ c :: before, p d := by
              intro hAll
              apply hHere
              rw [(upTo_eq_some hLater).1, ← List.cons_append,
                ← List.cons_append, List.append_assoc,
                List.dropWhile_append_of_pos hAll]
              exact prefix_dropWhile hStart after
            simp only [Option.map_some, Match.consGroup,
              List.modifyHead_cons, rdropWhile_cons hSome,
              List.cons_append]

/- Leading letters of the class are left out as well. -/
theorem first_strip
    (hStart : StartsOutside p w)
    (s : List α) :
    (seq (many p) (seq (group (manyLazy fun _ => true))
        (seq (many p) (word w)))).first s =
      (upTo w s).map (fun f =>
        ⟨f.1 ++ w, [strip p f.1], f.2⟩) := by
  induction s with
  | nil =>
      rw [first_many_nil, first_lazy_many_word hStart, upTo]
      by_cases hEmpty : w = []
      · simp [hEmpty, strip]
      · simp [hEmpty]
  | cons c s ih =>
      by_cases hIs : p c
      · rw [first_many_cons hIs, ih,
          first_lazy_many_word hStart,
          upTo_cons (hStart c s hIs)]
        cases upTo w s with
        | none => rfl
        | some f =>
            simp only [Option.map_some, Option.some_or,
              Match.cons, strip, List.cons_append,
              List.dropWhile_cons_of_pos hIs]
      · rw [first_many_cons_neg hIs,
          first_lazy_many_word hStart]
        apply Option.map_congr
        intro f hFound
        have hText := (upTo_eq_some hFound).1
        have hNone : f.1.dropWhile p = f.1 := by
          cases hBefore : f.1 with
          | nil => rfl
          | cons d before =>
              rw [hBefore, List.cons_append, List.cons_append,
                List.cons.injEq] at hText
              rw [hText.1] at hIs
              exact List.dropWhile_cons_of_neg hIs
        rw [strip, hNone]

/- The text between two words, without the class at its ends. -/
def between (w : List α) (p : α → Bool) (w' : List α) :
    Regex α :=
  seq (word w)
    (seq (many p)
      (seq (group (manyLazy fun _ => true))
        (seq (many p) (word w'))))

/- It goes up to the first word that ends it. -/
theorem first_between
    {w' : List α}
    (hStart : StartsOutside p w')
    (s : List α) :
    (between w p w').first s =
      if w <+: s then
        (upTo w' (s.drop w.length)).map (fun f =>
          ⟨w ++ (f.1 ++ w'), [strip p f.1], f.2⟩)
      else none := by
  rw [between, first_seq_word, first_strip hStart]
  simp only [Option.map_map]
  rfl

end Regex
