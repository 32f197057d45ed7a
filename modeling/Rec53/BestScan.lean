import Mathlib.Data.List.Basic
import Mathlib.Order.Defs.Unbundled

/-!
# A scan for the best entry

The loop that keeps the best entry so far. Under a strict total order it finds the one that
nothing beats, so the order of the entries does not matter.
-/

namespace BestScan

universe u
variable {α : Type u} {beats : α → α → Prop} [DecidableRel beats]

/-- Start with a value, and take each entry that beats what there is. -/
def scan (beats : α → α → Prop) [DecidableRel beats] (start : α) (entries : List α) : α :=
  entries.foldl (fun best e => if beats e best then e else best) start

lemma scan_mem (beats : α → α → Prop) [DecidableRel beats] (start : α) (entries : List α) :
    scan beats start entries ∈ start :: entries := by
  induction entries generalizing start with
  | nil => exact List.mem_singleton.mpr rfl
  | cons e rest ih =>
    rw [scan, List.foldl_cons]
    split
    · exact List.mem_cons_of_mem start (ih e)
    · rcases List.mem_cons.mp (ih start) with first | later
      · exact List.mem_cons.mpr (.inl first)
      · exact List.mem_cons_of_mem start (List.mem_cons_of_mem e later)

variable [IsStrictTotalOrder α beats]

omit [DecidableRel beats] in
/-- What is not beaten by an entry is not beaten by what that entry is not beaten by. -/
lemma not_beats_trans {a b c : α} (first : ¬ beats b a) (next : ¬ beats c b) : ¬ beats c a := by
  intro above
  rcases trichotomous_of beats a b with below | same | over_b
  · exact next (trans_of beats above below)
  · exact next (same ▸ above)
  · exact first over_b

lemma scan_unbeaten (beats : α → α → Prop) [DecidableRel beats] [IsStrictTotalOrder α beats]
    (start : α) (entries : List α) :
    ∀ e ∈ start :: entries, ¬ beats e (scan beats start entries) := by
  induction entries generalizing start with
  | nil =>
    intro e mem
    rw [List.mem_singleton.mp mem]
    exact irrefl_of beats start
  | cons e rest ih =>
    rw [scan, List.foldl_cons]
    -- the value that goes on is the better of the two, and neither beats it
    generalize next_is : (if beats e start then e else start) = next
    have start_below : ¬ beats start next := by
      rw [← next_is]
      split
      · rename_i better
        exact asymm_of beats better
      · exact irrefl_of beats start
    have e_below : ¬ beats e next := by
      rw [← next_is]
      split
      · exact irrefl_of beats e
      · assumption
    have rest_below := ih next
    have next_below := rest_below next List.mem_cons_self
    intro e' mem
    rcases List.mem_cons.mp mem with rfl | mem
    · exact not_beats_trans next_below start_below
    rcases List.mem_cons.mp mem with rfl | mem
    · exact not_beats_trans next_below e_below
    · exact rest_below e' (List.mem_cons_of_mem next mem)

omit [DecidableRel beats] in
lemma unbeaten_unique {entries : List α} {a b : α} (listed_a : a ∈ entries)
    (listed_b : b ∈ entries) (unbeaten_a : ∀ e ∈ entries, ¬ beats e a)
    (unbeaten_b : ∀ e ∈ entries, ¬ beats e b) : a = b := by
  rcases trichotomous_of beats a b with above | same | below
  · exact absurd above (unbeaten_b a listed_a)
  · exact same
  · exact absurd below (unbeaten_a b listed_b)

/-- The scan finds the entry that nothing beats. -/
theorem scan_eq {start : α} {entries : List α} {best : α} (listed : best ∈ start :: entries)
    (unbeaten : ∀ e ∈ start :: entries, ¬ beats e best) : scan beats start entries = best :=
  unbeaten_unique (scan_mem beats start entries) listed (scan_unbeaten beats start entries) unbeaten

theorem scan_perm {start : α} {entries entries' : List α} (perm : entries.Perm entries') :
    scan beats start entries = scan beats start entries' := by
  have same := perm.cons start
  refine scan_eq (same.mem_iff.mpr (scan_mem beats start entries')) ?_
  intro e mem
  exact scan_unbeaten beats start entries' e (same.mem_iff.mp mem)

end BestScan
