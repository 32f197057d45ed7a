import Mathlib.Data.List.Basic
import Mathlib.Data.List.Induction
import Mathlib.Tactic.Basic

/-!
# Runs of a step function

A system is a total step function on states and events; an event that is not
enabled leaves the state as it is. A run is a list of events. `Along C` says that
every step of a run meets a condition on its event and on the state before it,
and `Throughout P` that every state reached, the first and the last included,
has a property. The rules below turn facts about one step into facts about runs.
-/

namespace StepRuns

universe u v
variable {S : Type u} {E : Type v} (step : S → E → S)

def run : S → List E → S
  | s, [] => s
  | s, e :: es => run (step s e) es

def Along (C : S → E → Prop) : S → List E → Prop
  | _, [] => True
  | s, e :: es => C s e ∧ Along C (step s e) es

def Throughout (P : S → Prop) : S → List E → Prop
  | s, [] => P s
  | s, e :: es => P s ∧ Throughout P (step s e) es

instance decidableAlong (C : S → E → Prop) [∀ s e, Decidable (C s e)] :
    ∀ s es, Decidable (Along step C s es)
  | _, [] => isTrue trivial
  | s, e :: es =>
    have := decidableAlong C (step s e) es
    inferInstanceAs (Decidable (C s e ∧ Along step C (step s e) es))

instance decidableThroughout (P : S → Prop) [∀ s, Decidable (P s)] :
    ∀ s es, Decidable (Throughout step P s es)
  | s, [] => inferInstanceAs (Decidable (P s))
  | s, e :: es =>
    have := decidableThroughout P (step s e) es
    inferInstanceAs (Decidable (P s ∧ Throughout step P (step s e) es))

theorem run_append (s : S) (xs ys : List E) :
    run step s (xs ++ ys) = run step (run step s xs) ys := by
  induction xs generalizing s with
  | nil => rfl
  | cons e es ih => exact ih (step s e)

theorem run_snoc (s : S) (es : List E) (e : E) :
    run step s (es ++ [e]) = step (run step s es) e := by
  rw [run_append]; rfl

/-- What every step keeps, a run keeps. -/
theorem run_preserves {P : S → Prop} (keeps : ∀ s e, P s → P (step s e)) {s : S}
    (start : P s) (es : List E) : P (run step s es) := by
  induction es generalizing s with
  | nil => exact start
  | cons e es ih => exact ih (keeps s e start)

/-- The steps of a run are those of its events. -/
theorem run_preserves_of_mem {P : S → Prop} {es : List E}
    (keeps : ∀ s, ∀ e ∈ es, P s → P (step s e)) {s : S} (start : P s) : P (run step s es) := by
  induction es generalizing s with
  | nil => exact start
  | cons e es ih =>
    apply ih
    · intro s' e' mem
      exact keeps s' e' (List.mem_cons_of_mem e mem)
    · exact keeps s e List.mem_cons_self start

/-- A measure that every step lowers bounds how long a run can go on. -/
theorem run_descends {μ : S → Nat} (lower : ∀ s e, μ (step s e) ≤ μ s - 1) (s : S)
    (es : List E) : μ (run step s es) ≤ μ s - es.length := by
  induction es generalizing s with
  | nil => exact Nat.le_refl _
  | cons e es ih =>
    have first := lower s e
    have rest := ih (step s e)
    simp only [run, List.length_cons]
    omega

/-- A run of steps that all change the state is no longer than a measure that they lower. -/
theorem length_le_of_moves {P : S → Prop} {μ : S → Nat} (keeps : ∀ s e, P s → P (step s e))
    (lowers : ∀ s e, P s → step s e = s ∨ μ (step s e) < μ s) {s : S} (start : P s) {es : List E}
    (moves : Along step (fun s e => step s e ≠ s) s es) : es.length ≤ μ s := by
  induction es generalizing s with
  | nil => exact Nat.zero_le _
  | cons e es ih =>
    have rest := ih (keeps s e start) moves.2
    have first := (lowers s e start).resolve_left moves.1
    rw [List.length_cons]
    omega

/-- One step keeps the invariant under the condition, so it holds throughout a run. -/
theorem throughout_invariant {C : S → E → Prop} {P : S → Prop}
    (keeps : ∀ s e, P s → C s e → P (step s e)) {s : S} {es : List E}
    (start : P s) (meets : Along step C s es) : Throughout step P s es := by
  induction es generalizing s with
  | nil => exact start
  | cons e es ih => exact ⟨start, ih (keeps s e start meets.1) meets.2⟩

theorem Throughout.mono {P Q : S → Prop} (weaker : ∀ s, P s → Q s) {s : S} {es : List E}
    (holds : Throughout step P s es) : Throughout step Q s es := by
  induction es generalizing s with
  | nil => exact weaker s holds
  | cons e es ih => exact ⟨weaker s holds.1, ih holds.2⟩

/-- A state reached on the way is one of the run. -/
theorem Throughout.at_prefix {P : S → Prop} {s : S} {es past : List E}
    (holds : Throughout step P s es) (within : past <+: es) : P (run step s past) := by
  induction es generalizing s past with
  | nil =>
    rw [List.prefix_nil.mp within]
    exact holds
  | cons e es ih =>
    cases past with
    | nil => exact holds.1
    | cons e' past =>
      obtain ⟨rfl, rest⟩ := List.cons_prefix_cons.mp within
      change P (run step (step s e') past)
      exact ih holds.2 rest

theorem Along.mono {C D : S → E → Prop} (weaker : ∀ s e, C s e → D s e) {s : S} {es : List E}
    (meets : Along step C s es) : Along step D s es := by
  induction es generalizing s with
  | nil => trivial
  | cons e es ih => exact ⟨weaker s e meets.1, ih meets.2⟩

/-- What the invariant and the condition give at each step, they give along a run. -/
theorem along_of_invariant {C D : S → E → Prop} {P : S → Prop}
    (keeps : ∀ s e, P s → C s e → P (step s e)) (gives : ∀ s e, P s → C s e → D s e) {s : S}
    {es : List E} (start : P s) (meets : Along step C s es) : Along step D s es := by
  induction es generalizing s with
  | nil => trivial
  | cons e es ih => exact ⟨gives s e start meets.1, ih (keeps s e start meets.1) meets.2⟩

theorem along_append {C : S → E → Prop} {s : S} {es later : List E} :
    Along step C s (es ++ later) ↔ Along step C s es ∧ Along step C (run step s es) later := by
  induction es generalizing s with
  | nil => simp [Along, run]
  | cons e es ih => simp only [List.cons_append, Along, run, ih, and_assoc]

theorem along_snoc {C : S → E → Prop} {s : S} {es : List E} {e : E} :
    Along step C s (es ++ [e]) ↔ Along step C s es ∧ C (run step s es) e := by
  rw [along_append]
  simp [Along]

/-- An invariant that speaks of the events so far. -/
theorem past_invariant {C : S → E → Prop} {P : List E → S → Prop} {s : S}
    (keeps : ∀ past e, P past (run step s past) → C (run step s past) e →
      P (past ++ [e]) (step (run step s past) e))
    (start : P [] s) {es : List E} (meets : Along step C s es) : P es (run step s es) := by
  induction es using List.reverseRecOn with
  | nil => exact start
  | append_singleton past e ih =>
    obtain ⟨before, now⟩ := (along_snoc step).mp meets
    rw [run_snoc]
    exact keeps past e (ih before) now

theorem past_preserves {P : List E → S → Prop}
    (keeps : ∀ past s e, P past s → P (past ++ [e]) (step s e)) {s : S} (start : P [] s)
    (es : List E) : P es (run step s es) := by
  induction es using List.reverseRecOn with
  | nil => exact start
  | append_singleton past e ih =>
    rw [run_snoc]
    exact keeps past _ e ih

/-- An invariant that speaks of the time of the last event, when no event is earlier than the
one before. -/
theorem timed_invariant {C : S → E → Prop} {P : Nat → S → Prop} (time : E → Nat) {es : List E}
    (keeps : ∀ t s, ∀ e ∈ es, P t s → t ≤ time e → C s e → P (time e) (step s e)) {s : S}
    (start : P 0 s) (ordered : (es.map time).Pairwise (· ≤ ·)) (meets : Along step C s es) :
    ∃ t, P t (run step s es) ∧ ∀ bound, (∀ e ∈ es, time e ≤ bound) → t ≤ bound := by
  induction es using List.reverseRecOn with
  | nil => exact ⟨0, start, fun _ _ => Nat.zero_le _⟩
  | append_singleton es e ih =>
    have last : e ∈ es ++ [e] := List.mem_append_right es List.mem_cons_self
    obtain ⟨before, now⟩ := (along_snoc step).mp meets
    rw [List.map_append, List.pairwise_append] at ordered
    obtain ⟨earlier, -, later⟩ := ordered
    obtain ⟨t, holds, least⟩ := ih
      (fun t s e' mem => keeps t s e' (List.mem_append_left _ mem)) earlier before
    have le : t ≤ time e := least _ fun e' mem =>
      later _ (List.mem_map_of_mem mem) _ List.mem_cons_self
    rw [run_snoc]
    exact ⟨time e, keeps t _ e last holds le now, fun _ all => all e last⟩

/-- What a step cannot bring about held already before the run. -/
theorem of_run {R : S → Prop} (earlier : ∀ s e, R (step s e) → R s) {s : S} {es : List E}
    (ends : R (run step s es)) : R s := by
  induction es generalizing s with
  | nil => exact ends
  | cons e es ih => exact earlier s e (ih ends)

theorem along_of_run {R : S → Prop} (earlier : ∀ s e, R (step s e) → R s) {s : S} {es : List E}
    (ends : R (run step s es)) : Along step (fun s e => R (step s e)) s es := by
  induction es generalizing s with
  | nil => trivial
  | cons e es ih => exact ⟨of_run step earlier ends, ih ends⟩

theorem along_of_preserves {P : S → Prop} (keeps : ∀ s e, P s → P (step s e)) {s : S}
    (start : P s) (es : List E) : Along step (fun s _ => P s) s es := by
  induction es generalizing s with
  | nil => trivial
  | cons e es ih => exact ⟨start, ih (keeps s e start)⟩

/-- When the condition is what a step needs to keep `Q`, a run has `Q` in every
state exactly when all its steps meet the condition. The steps may rely on `D`. -/
theorem throughout_iff_along_within {C D : S → E → Prop} {Q : S → Prop}
    (exact_step : ∀ s e, D s e → Q s → (Q (step s e) ↔ C s e)) {s : S} {es : List E}
    (meets : Along step D s es) (holds : Q s) :
    Throughout step Q s es ↔ Along step C s es := by
  induction es generalizing s with
  | nil => simp [Throughout, Along, holds]
  | cons e es ih =>
    simp only [Throughout, Along]
    constructor
    · rintro ⟨_, rest⟩
      have kept : Q (step s e) := by
        cases es with
        | nil => exact rest
        | cons _ _ => exact rest.1
      exact ⟨(exact_step s e meets.1 holds).mp kept, (ih meets.2 kept).mp rest⟩
    · rintro ⟨met, rest⟩
      have kept : Q (step s e) := (exact_step s e meets.1 holds).mpr met
      exact ⟨holds, (ih meets.2 kept).mpr rest⟩

theorem throughout_iff_along {C : S → E → Prop} {P Q : S → Prop}
    (keeps : ∀ s e, P s → P (step s e))
    (exact_step : ∀ s e, P s → Q s → (Q (step s e) ↔ C s e)) {s : S}
    (start : P s) (holds : Q s) (es : List E) : Throughout step Q s es ↔ Along step C s es :=
  throughout_iff_along_within step exact_step (along_of_preserves step keeps start es) holds

/-- When one step changes `Q` exactly by its condition, a run does so by all of
them. The invariant `P` carries what the step needs to know about the state. -/
theorem run_iff_along {C : S → E → Prop} {P Q : S → Prop}
    (keeps : ∀ s e, P s → P (step s e))
    (exact_step : ∀ s e, P s → (Q (step s e) ↔ Q s ∧ C s e)) {s : S}
    (start : P s) (es : List E) : Q (run step s es) ↔ Q s ∧ Along step C s es := by
  induction es generalizing s with
  | nil => simp [run, Along]
  | cons e es ih =>
    simp only [run, Along]
    rw [ih (keeps s e start), exact_step s e start, and_assoc]

/-- What every step keeps unless it breaks it is kept by a run, or broken by one of its steps. -/
theorem run_keeps_or {P R : S → Prop} {B : S → E → Prop} (keeps : ∀ s e, P s → P (step s e))
    (keeps_or : ∀ s e, P s → R s → R (step s e) ∨ B s e) {s : S} (start : P s) (holds : R s)
    (es : List E) :
    R (run step s es) ∨ ∃ past e later, es = past ++ e :: later ∧ B (run step s past) e := by
  induction es generalizing s with
  | nil => exact .inl holds
  | cons e es ih =>
    rcases keeps_or s e start holds with kept | broken
    · refine (ih (keeps s e start) kept).imp_right ?_
      rintro ⟨past, e', later, rfl, breaks⟩
      exact ⟨e :: past, e', later, rfl, breaks⟩
    · exact .inr ⟨[], e, es, rfl, broken⟩

/-! ### What is seen of a run -/

/-- Events that change nothing of what is seen may be left out, if a step makes of two states
that look alike two that look alike. -/
theorem seen_run_filter {T : Type*} (seen : S → T) (keep : E → Bool) {es : List E}
    (alike : ∀ s s' e, seen s = seen s' → seen (step s e) = seen (step s' e))
    (unseen : ∀ s, ∀ e ∈ es, keep e = false → seen (step s e) = seen s) {s s' : S}
    (start : seen s = seen s') :
    seen (run step s (es.filter keep)) = seen (run step s' es) := by
  induction es generalizing s s' with
  | nil => exact start
  | cons e es ih =>
    have later (s : S) (e' : E) (mem : e' ∈ es) := unseen s e' (List.mem_cons_of_mem e mem)
    cases kept : keep e with
    | true =>
      rw [List.filter_cons_of_pos kept]
      exact ih later (alike s s' e start)
    | false =>
      rw [List.filter_cons_of_neg (by simp [kept])]
      have skipped := unseen s' e List.mem_cons_self kept
      exact ih later (start.trans skipped.symm)

/-! ### Output -/

section
variable {R : Type*} (emit : S → E → List R)

/-- What the steps of a run put out, in order. -/
def emitted : S → List E → List R
  | _, [] => []
  | s, e :: es => emit s e ++ emitted (step s e) es

/-- An invariant that speaks of the output so far. -/
theorem emitted_invariant {P : List R → S → Prop}
    (keeps : ∀ out s e, P out s → P (out ++ emit s e) (step s e)) {out : List R} {s : S}
    (start : P out s) (es : List E) : P (out ++ emitted step emit s es) (run step s es) := by
  induction es generalizing out s with
  | nil =>
    rw [emitted, List.append_nil]
    exact start
  | cons e es ih =>
    rw [emitted, ← List.append_assoc]
    exact ih (keeps out s e start)

theorem emitted_snoc (s : S) (es : List E) (e : E) :
    emitted step emit s (es ++ [e]) = emitted step emit s es ++ emit (run step s es) e := by
  induction es generalizing s with
  | nil => simp [emitted, run]
  | cons e' es ih => simp only [List.cons_append, emitted, run, ih, List.append_assoc]

/-- The first `n` steps of a run lead to a state and put nothing out. -/
structure Silently (s : S) (es : List E) (n : Nat) (s' : S) : Prop where
  ends : run step s (es.take n) = s'
  quiet : emitted step emit s (es.take n) = []

theorem Silently.start (s : S) (es : List E) : Silently step emit s es 0 s := ⟨rfl, rfl⟩

variable {step emit} {s s₁ s₂ : S} {es : List E} {n : Nat}

theorem Silently.next (so_far : Silently step emit s es n s₁) (more : n < es.length)
    (moves : ∀ e ∈ es, step s₁ e = s₂ ∧ emit s₁ e = []) :
    Silently step emit s es (n + 1) s₂ := by
  obtain ⟨moved, silent⟩ := moves es[n] (List.getElem_mem more)
  have longer : es.take (n + 1) = es.take n ++ [es[n]] := List.take_succ_eq_append_getElem more
  constructor
  · rw [longer, run_snoc, so_far.ends, moved]
  · rw [longer, emitted_snoc, so_far.quiet, so_far.ends, silent, List.append_nil]

/-- A state that no event leaves is where the run ends. -/
theorem Silently.stays (reached : Silently step emit s es n s₁) (within : n ≤ es.length)
    (still : ∀ e ∈ es, step s₁ e = s₁ ∧ emit s₁ e = []) :
    run step s es = s₁ ∧ emitted step emit s es = [] := by
  have later : ∀ k, n + k ≤ es.length → Silently step emit s es (n + k) s₁ := by
    intro k
    induction k with
    | zero =>
      intro _
      exact reached
    | succ k ih =>
      intro more
      exact (ih (by omega)).next (by omega) still
  have whole := later (es.length - n) (by omega)
  rw [Nat.add_sub_cancel' within] at whole
  rw [← es.take_length]
  exact ⟨whole.ends, whole.quiet⟩

end

end StepRuns
