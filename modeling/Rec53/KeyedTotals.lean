import Mathlib.Algebra.BigOperators.Group.List.Basic
import Mathlib.Algebra.GroupWithZero.Nat
import Mathlib.Data.List.AList

/-!
# Totals kept by key

A finite map from keys to amounts, where a key that is not there has the amount zero.
Adding to one key changes that amount and the total by what is added.
-/

namespace KeyedTotals

universe u
variable {K : Type u}

abbrev Totals (K : Type u) := AList (fun _ : K => Nat)

def total (m : Totals K) : Nat := (m.entries.map Sigma.snd).sum

@[simp] theorem total_empty : total (∅ : Totals K) = 0 := rfl

variable [DecidableEq K]

def amount (m : Totals K) (k : K) : Nat := (m.lookup k).getD 0

def add (m : Totals K) (k : K) (d : Nat) : Totals K := m.insert k (amount m k + d)

/-- Every entry of `m` added to `acc`. -/
def merge (acc m : Totals K) : Totals K := m.entries.foldl (fun acc e => add acc e.1 e.2) acc

@[simp] theorem amount_empty (k : K) : amount (∅ : Totals K) k = 0 := by
  simp [amount]

@[simp] theorem amount_add_self (m : Totals K) (k : K) (d : Nat) :
    amount (add m k d) k = amount m k + d := by
  simp [amount, add]

theorem amount_add_of_ne (m : Totals K) {k k' : K} (d : Nat) (ne : k' ≠ k) :
    amount (add m k d) k' = amount m k' := by
  simp [amount, add, AList.lookup_insert_ne ne]

/-- The total without one key, and the amount of that key. -/
lemma total_erase (m : Totals K) (k : K) :
    ((m.entries.kerase k).map Sigma.snd).sum + amount m k = total m := by
  by_cases listed : k ∈ m.entries.keys
  · obtain ⟨v, before, after, _, entries, erased⟩ := List.exists_of_kerase listed
    have held : ⟨k, v⟩ ∈ m.entries := by simp [entries]
    have found : m.lookup k = some v := AList.mem_lookup_iff.mpr held
    rw [erased, amount, found, total, entries]
    simp only [List.map_append, List.map_cons, List.sum_append, List.sum_cons, Option.getD_some]
    omega
  · have absent : m.lookup k = none := AList.lookup_eq_none.mpr listed
    rw [List.kerase_of_notMem_keys listed, amount, absent]
    rfl

@[simp] theorem total_add (m : Totals K) (k : K) (d : Nat) : total (add m k d) = total m + d := by
  have rest := total_erase m k
  rw [total, add, AList.entries_insert, List.map_cons, List.sum_cons]
  dsimp only
  omega

/-- Merging brings in no other keys. -/
theorem mem_or_mem_of_mem_merge {acc m : Totals K} {k : K} (mem : k ∈ merge acc m) :
    k ∈ acc ∨ k ∈ m := by
  have scan : ∀ (entries : List (Sigma fun _ : K => Nat)) (acc : Totals K),
      k ∈ entries.foldl (fun acc e => add acc e.1 e.2) acc → k ∈ acc ∨ k ∈ entries.keys := by
    intro entries
    induction entries with
    | nil => exact fun acc mem => .inl mem
    | cons e rest ih =>
      intro acc mem
      rcases ih _ mem with added | later
      · rcases (AList.mem_insert _).mp added with rfl | old
        · exact .inr List.mem_cons_self
        · exact .inl old
      · exact .inr (List.mem_cons_of_mem _ later)
  exact scan m.entries acc mem

end KeyedTotals
