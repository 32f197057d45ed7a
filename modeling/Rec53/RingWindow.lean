import Mathlib.Data.List.Rotate
import Mathlib.Tactic.Basic

/-!
# A ring of the last writes

Writes go to the cells of a ring one after the other and start again at the first cell
after the last one. While the ring fills up, its first cells are everything written so
far; from then on, reading it from the next cell to write gives the last writes, as many
as there are cells. The rules below hold for every capacity and every kind of value.
-/

namespace RingWindow

variable {α : Type*}

/-- The cells are what the writes `xs` leave in a ring. -/
structure Holds (cells xs : List α) : Prop where
  filling : xs.length ≤ cells.length → cells.take xs.length = xs
  full : cells.length ≤ xs.length → cells.rotate xs.length = xs.drop (xs.length - cells.length)

theorem holds_nil (cells : List α) : Holds cells [] := by
  refine ⟨fun _ => rfl, ?_⟩
  intro small
  obtain rfl : cells = [] := List.eq_nil_of_length_eq_zero (Nat.le_zero.mp small)
  rfl

/-- A cell with what stands before and behind it. -/
lemma exists_at {cells : List α} {i : Nat} (inside : i < cells.length) :
    ∃ front old back, cells = front ++ old :: back ∧ front.length = i := by
  refine ⟨cells.take i, cells[i], cells.drop (i + 1), ?_, ?_⟩
  · rw [List.cons_getElem_drop_succ, List.take_append_drop]
  · rw [List.length_take]
    omega

/-- Reading a ring from the cell at `front.length`, which is where write number `n` goes. -/
lemma rotate_at {front back : List α} {x : α} {n : Nat}
    (here : n % (front ++ x :: back).length = front.length) :
    (front ++ x :: back).rotate n = x :: back ++ front := by
  rw [← List.rotate_mod, here, List.rotate_append_length_eq]

/-- The next write goes to the cell after the last one, modulo the capacity. -/
theorem Holds.write {cells xs : List α} (holds : Holds cells xs) (room : 0 < cells.length)
    (x : α) : Holds (cells.set (xs.length % cells.length) x) (xs ++ [x]) := by
  obtain ⟨front, old, back, rfl, here⟩ := exists_at (Nat.mod_lt xs.length room)
  have written : (front ++ old :: back).set (xs.length % (front ++ old :: back).length) x =
      front ++ x :: back := by
    rw [← here, List.set_append_right _ _ (Nat.le_refl _), Nat.sub_self, List.set_cons_zero]
  have size (y : α) : (front ++ y :: back).length = front.length + back.length + 1 := by
    rw [List.length_append, List.length_cons]
    omega
  have same_size : (front ++ x :: back).length = (front ++ old :: back).length := by
    rw [size, size]
  have unwrapped (filling : xs.length < (front ++ old :: back).length) : front = xs := by
    rw [Nat.mod_eq_of_lt filling] at here
    have kept := holds.filling (Nat.le_of_lt filling)
    rwa [← here, List.take_left] at kept
  have longer : (xs ++ [x]).length = xs.length + 1 := List.length_append
  rw [written]
  constructor
  · intro filling
    rw [longer, same_size] at filling
    obtain rfl := unwrapped filling
    rw [longer, List.take_length_add_append]
    rfl
  · intro full
    rw [longer, same_size] at full ⊢
    rcases Nat.lt_or_ge xs.length (front ++ old :: back).length with filling | wrapped
    · -- this write fills the last cell
      obtain rfl := unwrapped filling
      have last : back = [] := by
        rw [size] at full
        exact List.eq_nil_of_length_eq_zero (by omega)
      subst last
      rw [size, List.length_nil, Nat.add_zero, Nat.sub_self, List.drop_zero, ← longer]
      exact List.rotate_length (front ++ [x])
    · have before := holds.full wrapped
      rw [rotate_at here.symm] at before
      rw [← List.rotate_rotate, rotate_at (same_size ▸ here.symm)]
      have rest : xs.drop (xs.length + 1 - (front ++ old :: back).length) = back ++ front := by
        rw [Nat.succ_sub wrapped, ← List.tail_drop, ← before]
        rfl
      rw [List.drop_append_of_le_length (by omega), rest]
      simp

/-- The first cells, as many as were written, are the last writes in some order. -/
theorem Holds.perm {cells xs : List α} (holds : Holds cells xs) {m : Nat}
    (count : m = min xs.length cells.length) :
    (cells.take m).Perm (xs.drop (xs.length - m)) := by
  rcases Nat.le_total xs.length cells.length with filling | full
  · rw [Nat.min_eq_left filling] at count
    rw [count, holds.filling filling, Nat.sub_self, List.drop_zero]
  · rw [Nat.min_eq_right full] at count
    rw [count, List.take_length, ← holds.full full]
    exact (List.rotate_perm cells xs.length).symm

end RingWindow
