import Mathlib.Algebra.GroupWithZero.Nat
import Mathlib.Algebra.BigOperators.Group.List.Basic
import Mathlib.Data.List.Induction
import Mathlib.Data.Nat.ModEq
import Mathlib.Tactic.IntervalCases

/-!
# One's complement sums

Words run from zero to a largest word `m`. Addition takes the carry out of the highest
bit back in at the lowest. A sum is then determined by three facts: it is a word, it is
congruent to the exact sum modulo `m`, and it is zero only if the exact sum is. Zero has
a second form, `m` itself, and the difference between the two is what the last fact keeps.
-/

namespace OnesComplement

def add (m a b : Nat) : Nat := (a + b) % (m + 1) + (a + b) / (m + 1)

def sum (m : Nat) (words : List Nat) : Nat := words.foldl (add m) 0

/-- The word that stands for an exact sum. -/
structure Residue (m total word : Nat) : Prop where
  word_le : word ≤ m
  congruent : word ≡ total [MOD m]
  zero_iff : word = 0 ↔ total = 0

variable {m : Nat}

/-- A word that is congruent to zero is one of its two forms. -/
lemma eq_of_modEq {a b : Nat} (a_le : a ≤ m) (b_le : b ≤ m) (same : a ≡ b [MOD m])
    (zero : a = 0 ↔ b = 0) : a = b := by
  by_cases a_top : a = m
  · by_cases b_top : b = m
    · exact a_top.trans b_top.symm
    · have b_zero : b = 0 := by
        have b_lt := Nat.lt_of_le_of_ne b_le b_top
        rw [a_top, Nat.ModEq, Nat.mod_self, Nat.mod_eq_of_lt b_lt] at same
        exact same.symm
      exact (zero.mpr b_zero).trans b_zero.symm
  · have a_lt := Nat.lt_of_le_of_ne a_le a_top
    by_cases b_top : b = m
    · have a_zero : a = 0 := by
        rwa [b_top, Nat.ModEq, Nat.mod_self, Nat.mod_eq_of_lt a_lt] at same
      exact a_zero.trans (zero.mp a_zero).symm
    · exact same.eq_of_lt_of_lt a_lt (Nat.lt_of_le_of_ne b_le b_top)

theorem Residue.unique {total a b : Nat} (first : Residue m total a) (last : Residue m total b) :
    a = b :=
  eq_of_modEq first.word_le last.word_le (first.congruent.trans last.congruent.symm)
    (first.zero_iff.trans last.zero_iff.symm)

lemma fold_modEq (s : Nat) : s % (m + 1) + s / (m + 1) ≡ s [MOD m] := by
  have parts : s % (m + 1) + s / (m + 1) + m * (s / (m + 1)) = s := by
    have divided := Nat.mod_add_div s (m + 1)
    rw [Nat.add_mul, Nat.one_mul] at divided
    omega
  calc
    s % (m + 1) + s / (m + 1) ≡ s % (m + 1) + s / (m + 1) + m * (s / (m + 1)) [MOD m] :=
      (Nat.ModEq.symm (Nat.add_mul_mod_self_left _ _ _))
    _ = s := parts

lemma fold_eq_zero_iff (s : Nat) : s % (m + 1) + s / (m + 1) = 0 ↔ s = 0 := by
  constructor
  · intro none_left
    have divided := Nat.mod_add_div s (m + 1)
    obtain ⟨low, high⟩ := Nat.add_eq_zero_iff.mp none_left
    rw [low, high] at divided
    exact divided.symm
  · rintro rfl
    simp

/-- Two words have at most one carry, and there is room for it. -/
lemma add_le {a b : Nat} (a_le : a ≤ m) (b_le : b ≤ m) : add m a b ≤ m := by
  have divided := Nat.mod_add_div (a + b) (m + 1)
  have low : (a + b) % (m + 1) < m + 1 := Nat.mod_lt (a + b) (Nat.succ_pos m)
  have carry : (a + b) / (m + 1) < 2 := by
    apply Nat.div_lt_of_lt_mul
    omega
  rw [add]
  generalize (a + b) / (m + 1) = carried at divided carry ⊢
  interval_cases carried
  · omega
  · omega

lemma add_residue {total a b : Nat} (first : Residue m total a) (b_le : b ≤ m) :
    Residue m (total + b) (add m a b) := by
  refine ⟨add_le first.word_le b_le, ?_, ?_⟩
  · exact (fold_modEq (a + b)).trans (first.congruent.add_right b)
  · rw [add, fold_eq_zero_iff, Nat.add_eq_zero_iff, first.zero_iff, Nat.add_eq_zero_iff]

theorem sum_residue {words : List Nat} (bounded : ∀ w ∈ words, w ≤ m) :
    Residue m words.sum (sum m words) := by
  induction words using List.reverseRecOn with
  | nil => exact ⟨Nat.zero_le m, rfl, Iff.rfl⟩
  | append_singleton words w ih =>
    have before := ih fun w' mem => bounded w' (List.mem_append_left _ mem)
    rw [sum, List.foldl_append, List.sum_append, List.sum_singleton]
    exact add_residue before (bounded w (by simp))

/-- A sum is the largest word when the exact sum is a positive multiple of it. -/
theorem sum_eq_max {words : List Nat} (bounded : ∀ w ∈ words, w ≤ m) (divides : m ∣ words.sum)
    (positive : 0 < words.sum) : sum m words = m := by
  refine (sum_residue bounded).unique ⟨Nat.le_refl m, ?_, ?_⟩
  · rw [Nat.ModEq, Nat.mod_self, Nat.mod_eq_zero_of_dvd divides]
  · constructor
    · intro zero
      rw [zero, Nat.zero_dvd] at divides
      exact divides
    · intro zero
      omega

end OnesComplement
