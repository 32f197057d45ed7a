import Mathlib.Data.List.Sort

/-!
# Sorting without a promise on ties

A sort of which only two things are known, as of `sort.Slice`: it returns the elements it
was given, and no element stands before one that is smaller. What such a sort puts in
front is then a matter of counting: a property whose holders are all smaller than the
others holds on a prefix. A sort may also favour a property among elements of the same
rank, so nothing more can be said of ties.
-/

namespace SliceSort

variable {α : Type*}

structure Sorter (α : Type*) (le : α → α → Prop) where
  sort : List α → List α
  perm : ∀ l, (sort l).Perm l
  sorted : ∀ l, (sort l).Pairwise le

def Sorter.insertion (le : α → α → Prop) [DecidableRel le] [Std.Total le] [IsTrans α le] :
    Sorter α le where
  sort := List.insertionSort le
  perm := List.perm_insertionSort le
  sorted := List.pairwise_insertionSort le

/-- On a list where `P` can only end, it holds at the indices below its count. -/
theorem getElem?_iff_lt_countP {P : α → Bool} {l : List α}
    (ends : l.Pairwise fun x y => P y = true → P x = true) {i : Nat} {x : α}
    (at_index : l[i]? = some x) : P x = true ↔ i < l.countP P := by
  induction l generalizing i with
  | nil => simp at at_index
  | cons a l ih =>
    obtain ⟨first, rest⟩ := List.pairwise_cons.mp ends
    by_cases holds : P a = true
    · rw [List.countP_cons_of_pos holds]
      cases i with
      | zero =>
        obtain rfl : a = x := by simpa using at_index
        simp [holds]
      | succ i =>
        rw [ih rest (by simpa using at_index)]
        omega
    · have none_holds : l.countP P = 0 := by
        rw [List.countP_eq_zero]
        intro y mem later
        exact holds (first y mem later)
      rw [List.countP_cons_of_neg holds, none_holds]
      cases i with
      | zero =>
        obtain rfl : a = x := by simpa using at_index
        simp [holds]
      | succ i =>
        have mem : x ∈ l := List.mem_of_getElem? (by simpa using at_index)
        have fails : ¬ P x = true := fun later => holds (first x mem later)
        simp [fails]

section
variable {le : α → α → Prop} (s : Sorter α le) {l : List α}

theorem Sorter.mem_sort {x : α} : x ∈ s.sort l ↔ x ∈ l := (s.perm l).mem_iff

/-- Nothing stands before a smaller element. -/
theorem Sorter.le_of_lt {i j : Nat} {x y : α} (first : (s.sort l)[i]? = some x)
    (second : (s.sort l)[j]? = some y) (before : i < j) : le x y := by
  obtain ⟨inside, rfl⟩ := List.getElem?_eq_some_iff.mp first
  obtain ⟨inside', rfl⟩ := List.getElem?_eq_some_iff.mp second
  exact List.pairwise_iff_getElem.mp (s.sorted l) i j inside inside' before

/-- A property of elements that are smaller than all others holds at the first indices. -/
theorem Sorter.getElem?_iff {P : α → Bool}
    (apart : ∀ x ∈ l, ∀ y ∈ l, P x = true → P y = false → ¬ le y x) {i : Nat} {x : α}
    (at_index : (s.sort l)[i]? = some x) : P x = true ↔ i < l.countP P := by
  rw [← (s.perm l).countP_eq]
  refine getElem?_iff_lt_countP ?_ at_index
  refine (s.sorted l).imp_of_mem ?_
  intro a b mem_a mem_b below holds
  by_contra fails
  exact apart b (s.mem_sort.mp mem_b) a (s.mem_sort.mp mem_a) holds (by simpa using fails) below

end

/-! ### A sort that favours a property among equals -/

/-- The order of `le`, where of two elements of the same rank one with `P` comes first. -/
def Favours (le : α → α → Prop) (P : α → Bool) (x y : α) : Prop :=
  le x y ∧ (le y x → P y = true → P x = true)

section
variable (le : α → α → Prop) (P : α → Bool)

instance [DecidableRel le] : DecidableRel (Favours le P) :=
  fun x y => inferInstanceAs (Decidable (le x y ∧ (le y x → P y = true → P x = true)))

instance [Std.Total le] : Std.Total (Favours le P) := by
  constructor
  intro x y
  by_cases forward : le x y
  · by_cases backward : le y x
    · -- the same rank
      by_cases favoured : P x = true
      · exact .inl ⟨forward, fun _ _ => favoured⟩
      · exact .inr ⟨backward, fun _ holds => absurd holds favoured⟩
    · exact .inl ⟨forward, fun above => absurd above backward⟩
  · have backward : le y x := (Std.Total.total x y).resolve_left forward
    exact .inr ⟨backward, fun above => absurd above forward⟩

instance [IsTrans α le] : IsTrans α (Favours le P) := by
  constructor
  intro x y z first second
  refine ⟨trans_of le first.1 second.1, ?_⟩
  intro back holds
  have middle : P y = true := second.2 (trans_of le back first.1) holds
  exact first.2 (trans_of le second.1 back) middle

/-- Sorting by the finer order is a sort by `le`. -/
def Sorter.favouring [DecidableRel le] [Std.Total le] [IsTrans α le] : Sorter α le where
  sort := List.insertionSort (Favours le P)
  perm := List.perm_insertionSort _
  sorted l := (List.pairwise_insertionSort (Favours le P) l).imp fun below => below.1

/-- If the elements with `P` are among the least, all of them come first. -/
theorem Sorter.favouring_getElem? [DecidableRel le] [Std.Total le] [IsTrans α le] {l : List α}
    (least : ∀ x ∈ l, P x = true → ∀ y ∈ l, le x y) {i : Nat} {x : α}
    (at_index : ((Sorter.favouring le P).sort l)[i]? = some x) :
    P x = true ↔ i < l.countP P := by
  refine (Sorter.insertion (Favours le P)).getElem?_iff ?_ at_index
  intro x mem y mem' holds fails below
  have both := below.2 (least x mem holds y mem') holds
  rw [fails] at both
  cases both

end

end SliceSort
