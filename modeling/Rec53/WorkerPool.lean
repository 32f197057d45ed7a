import Mathlib.Algebra.BigOperators.Group.List.Basic
import Mathlib.Algebra.GroupWithZero.Nat
import Mathlib.Tactic.Abel
import Mathlib.Data.List.Perm.Basic
import Rec53.StepRuns

/-!
# Workers that share a state

A pool is a shared state and a list of workers. In one action a worker reads and
writes the shared state, moves on itself and may start others. What each worker owns
is given by a weight, and the accounting rule says that a counter in the shared state
stays equal to what all workers own, as long as each action changes the counter by as
much as it changes what is owned. What workers hold may also be of another kind than a
number, such as the set of items each has still to deliver.
-/

namespace WorkerPool

universe u v
variable {S : Type u} {T : Type v}

/-! ### What workers own -/

/-- The sum of a weight over all workers. -/
def owned (w : T → Nat) (workers : List T) : Nat := (workers.map w).sum

section
variable (w : T → Nat)

@[simp] theorem owned_nil : owned w [] = 0 := rfl

@[simp] theorem owned_cons (t : T) (ts : List T) : owned w (t :: ts) = w t + owned w ts := by
  simp [owned]

@[simp] theorem owned_append (xs ys : List T) : owned w (xs ++ ys) = owned w xs + owned w ys := by
  simp [owned]

theorem owned_set {ts : List T} {i : Nat} {t : T} (at_i : ts[i]? = some t) (t' : T) :
    owned w (ts.set i t') + w t = owned w ts + w t' := by
  induction ts generalizing i with
  | nil => cases at_i
  | cons x xs ih =>
    cases i with
    | zero =>
      cases at_i
      simp only [List.set_cons_zero, owned_cons]
      omega
    | succ i =>
      have rest := ih at_i
      simp only [List.set_cons_succ, owned_cons]
      omega

theorem le_owned {ts : List T} {t : T} (mem : t ∈ ts) : w t ≤ owned w ts := by
  induction ts with
  | nil => cases mem
  | cons x xs ih =>
    rw [owned_cons]
    rcases List.mem_cons.mp mem with rfl | mem
    · omega
    · have rest := ih mem
      omega

/-- Two different workers own no more than all. -/
theorem le_owned_two [DecidableEq T] {ts : List T} {t t' : T} (mem : t ∈ ts) (mem' : t' ∈ ts)
    (ne : t ≠ t') : w t + w t' ≤ owned w ts := by
  have perm := List.perm_cons_erase mem
  have other : t' ∈ ts.erase t := (List.mem_erase_of_ne ne.symm).mpr mem'
  have sum : owned w ts = w t + owned w (ts.erase t) := by
    rw [owned, (perm.map w).sum_eq, List.map_cons, List.sum_cons, owned]
  have rest := le_owned w other
  omega

theorem owned_eq_zero_iff {ts : List T} : owned w ts = 0 ↔ ∀ t ∈ ts, w t = 0 := by
  induction ts with
  | nil => simp
  | cons x xs ih => simp [ih]

theorem exists_owner {ts : List T} (some_owned : owned w ts ≠ 0) : ∃ t ∈ ts, w t ≠ 0 := by
  by_contra nobody
  refine some_owned ((owned_eq_zero_iff w).mpr fun t mem => ?_)
  by_contra owns
  exact nobody ⟨t, mem, owns⟩

theorem owned_mono {w w' : T → Nat} (le : ∀ t, w t ≤ w' t) (ts : List T) :
    owned w ts ≤ owned w' ts := by
  induction ts with
  | nil => exact Nat.le_refl _
  | cons x xs ih =>
    rw [owned_cons, owned_cons]
    exact Nat.add_le_add (le x) ih

theorem owned_le_mul {bound : Nat} (le : ∀ t, w t ≤ bound) (ts : List T) :
    owned w ts ≤ bound * ts.length := by
  induction ts with
  | nil => exact Nat.le_refl _
  | cons x xs ih =>
    rw [owned_cons, List.length_cons, Nat.mul_succ, Nat.add_comm]
    exact Nat.add_le_add ih (le x)

theorem owned_add (w' : T → Nat) (ts : List T) :
    owned (fun t => w t + w' t) ts = owned w ts + owned w' ts := by
  induction ts with
  | nil => rfl
  | cons x xs ih =>
    simp only [owned_cons, ih]
    omega

end

/-! ### Actions -/

structure Pool (S : Type u) (T : Type v) where
  shared : S
  workers : List T

/-- What an action of a worker leaves: the shared state, the worker, new workers. -/
structure Acted (S : Type u) (T : Type v) where
  shared : S
  worker : T
  started : List T

def Pool.act (p : Pool S T) (i : Nat) (f : S → T → Acted S T) : Pool S T :=
  match p.workers[i]? with
  | none => p
  | some t =>
    ⟨(f p.shared t).shared, p.workers.set i (f p.shared t).worker ++ (f p.shared t).started⟩

def Pool.start (p : Pool S T) (t : T) : Pool S T := { p with workers := p.workers ++ [t] }

/-- The counter is what all workers own. -/
def Balanced (count : S → Nat) (w : T → Nat) (p : Pool S T) : Prop :=
  count p.shared = owned w p.workers

variable {count : S → Nat} {w : T → Nat} {p : Pool S T}

theorem Balanced.le (balanced : Balanced count w p) {t : T} (mem : t ∈ p.workers) :
    w t ≤ count p.shared := by
  rw [balanced]
  exact le_owned w mem

theorem start_balanced {t : T} (idle : w t = 0) (balanced : Balanced count w p) :
    Balanced count w (p.start t) := by
  rw [Balanced, Pool.start, owned_append, owned_cons, owned_nil, idle]
  exact balanced

/-- An action of a worker keeps the balance if and only if it pays for what it changes. -/
theorem act_balanced_iff {i : Nat} {t : T} {f : S → T → Acted S T} (at_i : p.workers[i]? = some t)
    (balanced : Balanced count w p) :
    Balanced count w (p.act i f) ↔ count (f p.shared t).shared + w t =
      count p.shared + w (f p.shared t).worker + owned w (f p.shared t).started := by
  have moved := owned_set w at_i (f p.shared t).worker
  rw [Balanced] at balanced
  simp only [Balanced, Pool.act, at_i, owned_append]
  omega

/-- The accounting rule. An action may rely on the counter covering what its worker owns. -/
theorem act_balanced {i : Nat} {f : S → T → Acted S T}
    (paid : ∀ t ∈ p.workers, w t ≤ count p.shared →
      count (f p.shared t).shared + w t =
        count p.shared + w (f p.shared t).worker + owned w (f p.shared t).started)
    (balanced : Balanced count w p) : Balanced count w (p.act i f) := by
  cases at_i : p.workers[i]? with
  | none =>
    rw [Pool.act, at_i]
    exact balanced
  | some t =>
    have mem : t ∈ p.workers := List.mem_of_getElem? at_i
    exact (act_balanced_iff at_i balanced).mpr (paid t mem (balanced.le mem))

variable (count) in
/-- What is used up and what is still to be used stays within the bound, if no action uses
more than its worker had. -/
theorem act_bounded {bound i : Nat} {f : S → T → Acted S T}
    (uses : ∀ t ∈ p.workers, count p.shared + owned w p.workers ≤ bound →
      count (f p.shared t).shared + w (f p.shared t).worker + owned w (f p.shared t).started ≤
        count p.shared + w t)
    (before : count p.shared + owned w p.workers ≤ bound) :
    count (p.act i f).shared + owned w (p.act i f).workers ≤ bound := by
  cases at_i : p.workers[i]? with
  | none =>
    rw [Pool.act, at_i]
    exact before
  | some t =>
    have moved := owned_set w at_i (f p.shared t).worker
    have used := uses t (List.mem_of_getElem? at_i) before
    simp only [Pool.act, at_i, owned_append]
    omega

/-- Rely and guarantee: what holds of every worker and the shared state is kept by an action
that does not disturb it for the others and brings it about for itself. -/
theorem act_relies {Q : S → T → Prop} {i : Nat} {f : S → T → Acted S T}
    (stable : ∀ t ∈ p.workers, ∀ t' ∈ p.workers, Q p.shared t' → Q (f p.shared t).shared t')
    (own : ∀ t ∈ p.workers, Q p.shared t → Q (f p.shared t).shared (f p.shared t).worker ∧
      ∀ t' ∈ (f p.shared t).started, Q (f p.shared t).shared t')
    (all : ∀ t ∈ p.workers, Q p.shared t) :
    ∀ t ∈ (p.act i f).workers, Q (p.act i f).shared t := by
  cases at_i : p.workers[i]? with
  | none =>
    rw [Pool.act, at_i]
    exact all
  | some t =>
    have mem : t ∈ p.workers := List.mem_of_getElem? at_i
    obtain ⟨moved, started⟩ := own t mem (all t mem)
    simp only [Pool.act, at_i]
    intro t' mem'
    rcases List.mem_append.mp mem' with old | new
    · rcases List.mem_or_eq_of_mem_set old with old | rfl
      · exact stable t mem t' old (all t' old)
      · exact moved
    · exact started t' new

/-- The shared state after the action of worker `i`. -/
theorem shared_act {i : Nat} {t : T} (f : S → T → Acted S T) (at_i : p.workers[i]? = some t) :
    (p.act i f).shared = (f p.shared t).shared := by
  rw [Pool.act, at_i]

/-- A worker after an action: one that was there, the one that acted, or a new one. -/
theorem mem_act {i : Nat} {f : S → T → Acted S T} {t' : T} (mem : t' ∈ (p.act i f).workers) :
    t' ∈ p.workers ∨ ∃ t ∈ p.workers, p.workers[i]? = some t ∧
      (t' = (f p.shared t).worker ∨ t' ∈ (f p.shared t).started) := by
  rw [Pool.act] at mem
  split at mem
  · exact .inl mem
  · rename_i t at_i
    have here := List.mem_of_getElem? at_i
    rcases List.mem_append.mp mem with old | new
    · rcases List.mem_or_eq_of_mem_set old with old | is
      · exact .inl old
      · exact .inr ⟨t, here, at_i, .inl is⟩
    · exact .inr ⟨t, here, at_i, .inr new⟩

/-- A worker that does not act is still there. -/
theorem mem_act_of_ne {i : Nat} {f : S → T → Acted S T} {t : T} (mem : t ∈ p.workers)
    (ne : p.workers[i]? ≠ some t) : t ∈ (p.act i f).workers := by
  obtain ⟨j, at_j⟩ := List.mem_iff_getElem?.mp mem
  have other : i ≠ j := by
    rintro rfl
    exact ne at_j
  rw [Pool.act]
  split
  · exact mem
  · refine List.mem_append_left _ (List.mem_of_getElem? (i := j) ?_)
    rw [List.getElem?_set_ne other]
    exact at_j

/-- The worker that acts, and those it starts, are there afterwards. -/
theorem worker_mem_act {i : Nat} {t : T} (f : S → T → Acted S T) (at_i : p.workers[i]? = some t) :
    (f p.shared t).worker ∈ (p.act i f).workers := by
  rw [Pool.act, at_i]
  exact List.mem_append_left _
    (List.mem_set (List.getElem?_eq_some_iff.mp at_i).1 _)

/-- What holds of every worker is kept by an action whose workers have it. -/
theorem act_workers {P : T → Prop} {i : Nat} {f : S → T → Acted S T}
    (keeps : ∀ t ∈ p.workers, P t →
      P (f p.shared t).worker ∧ ∀ t' ∈ (f p.shared t).started, P t')
    (all : ∀ t ∈ p.workers, P t) : ∀ t ∈ (p.act i f).workers, P t := by
  rw [Pool.act]
  split
  · exact all
  · rename_i t at_i
    have mem : t ∈ p.workers := List.mem_of_getElem? at_i
    obtain ⟨moved, started⟩ := keeps t mem (all t mem)
    intro t' mem'
    rcases List.mem_append.mp mem' with old | new
    · rcases List.mem_or_eq_of_mem_set old with old | rfl
      · exact all t' old
      · exact moved
    · exact started t' new

/-- What holds of worker `i` is kept when a worker starts that has it. -/
theorem start_worker {P : T → Prop} {i : Nat} {t : T} (fresh : P t)
    (before : ∀ t', p.workers[i]? = some t' → P t') :
    ∀ t', (p.start t).workers[i]? = some t' → P t' := by
  intro t' at_i
  rw [Pool.start, List.getElem?_append] at at_i
  split at at_i
  · exact before t' at_i
  · rw [List.mem_singleton.mp (List.mem_of_getElem? at_i)]
    exact fresh

/-- Worker `i` after an action of worker `j` that starts no other. -/
theorem act_worker {P : T → Prop} {i j : Nat} {f : S → T → Acted S T}
    (alone : ∀ t, (f p.shared t).started = [])
    (own : j = i → ∀ t, p.workers[i]? = some t → P (f p.shared t).worker)
    (other : j ≠ i → ∀ t, p.workers[i]? = some t → P t) :
    ∀ t, (p.act j f).workers[i]? = some t → P t := by
  intro t at_i
  rw [Pool.act] at at_i
  split at at_i
  · rename_i absent
    refine other ?_ t at_i
    rintro rfl
    rw [absent] at at_i
    cases at_i
  · rename_i t' at_j
    rw [alone, List.append_nil, List.getElem?_set] at at_i
    split at at_i
    · rename_i same
      subst same
      split at at_i
      · cases at_i
        exact own rfl t' at_j
      · cases at_i
    · rename_i ne
      exact other ne t at_i

/-- An action that changes nothing leaves its worker as it is. -/
theorem worker_of_act_eq_self {i : Nat} {t : T} {f : S → T → Acted S T}
    (at_i : p.workers[i]? = some t) (same : p.act i f = p) : (f p.shared t).worker = t := by
  have within := (List.getElem?_eq_some_iff.mp at_i).1
  have workers := congrArg (fun p : Pool S T => p.workers[i]?) same
  rw [Pool.act, at_i] at workers
  dsimp only at workers
  rw [List.getElem?_append_left (by rw [List.length_set]; exact within),
    List.getElem?_set_self within] at workers
  exact Option.some.inj workers

/-- What every action keeps of the shared state. -/
theorem act_shared {P : S → Prop} {i : Nat} {f : S → T → Acted S T}
    (keeps : ∀ t ∈ p.workers, P (f p.shared t).shared) (before : P p.shared) :
    P (p.act i f).shared := by
  rw [Pool.act]
  split
  · exact before
  · rename_i t at_i
    exact keeps t (List.mem_of_getElem? at_i)

/-! ### What workers hold -/

section
variable {M : Type*} [AddCommMonoid M] (w : T → M)

/-- What all workers hold together. -/
def held (workers : List T) : M := (workers.map w).sum

@[simp] theorem held_nil : held w [] = 0 := rfl

@[simp] theorem held_cons (t : T) (ts : List T) : held w (t :: ts) = w t + held w ts := by
  simp [held]

@[simp] theorem held_append (xs ys : List T) : held w (xs ++ ys) = held w xs + held w ys := by
  simp [held]

theorem held_set {ts : List T} {i : Nat} {t : T} (at_i : ts[i]? = some t) (t' : T) :
    held w (ts.set i t') + w t = held w ts + w t' := by
  induction ts generalizing i with
  | nil => cases at_i
  | cons x xs ih =>
    cases i with
    | zero =>
      cases at_i
      rw [List.set_cons_zero, held_cons, held_cons]
      abel
    | succ i =>
      rw [List.set_cons_succ, held_cons, held_cons, add_assoc, ih at_i, add_assoc]

theorem held_eq_zero {ts : List T} (none_held : ∀ t ∈ ts, w t = 0) : held w ts = 0 := by
  induction ts with
  | nil => rfl
  | cons x xs ih =>
    rw [held_cons, none_held x List.mem_cons_self, zero_add]
    exact ih fun t mem => none_held t (List.mem_cons_of_mem x mem)

theorem held_of_mem {ts : List T} {t : T} (mem : t ∈ ts) : ∃ others, held w ts = w t + others := by
  obtain ⟨before, later, rfl⟩ := List.append_of_mem mem
  refine ⟨held w before + held w later, ?_⟩
  rw [held_append, held_cons]
  abel

/-- An action changes what is held by what its worker and the workers it starts hold. -/
theorem act_held {p : Pool S T} {i : Nat} {t : T} (f : S → T → Acted S T)
    (at_i : p.workers[i]? = some t) :
    held w (p.act i f).workers + w t =
      held w p.workers + w (f p.shared t).worker + held w (f p.shared t).started := by
  rw [Pool.act, at_i]
  dsimp only
  rw [held_append, add_right_comm, held_set w at_i]

end

/-- A blocked worker changes nothing. -/
theorem act_blocked {p : Pool S T} {i : Nat} {t : T} {f : S → T → Acted S T}
    (at_i : p.workers[i]? = some t) (blocked : f p.shared t = ⟨p.shared, t, []⟩) :
    p.act i f = p := by
  obtain ⟨within, rfl⟩ := List.getElem?_eq_some_iff.mp at_i
  rw [Pool.act, at_i]
  dsimp only
  rw [blocked, List.append_nil, List.set_getElem_self]

/-- The budget rule: if no worker acts without spending, an action changes nothing or lowers
what is left of the budget, in the shared state and with the workers. -/
theorem act_spends {p : Pool S T} (count : S → Nat) {w : T → Nat} {i : Nat} {f : S → T → Acted S T}
    (spends : ∀ t ∈ p.workers, f p.shared t = ⟨p.shared, t, []⟩ ∨
      count (f p.shared t).shared + w (f p.shared t).worker + owned w (f p.shared t).started <
        count p.shared + w t) :
    p.act i f = p ∨ count (p.act i f).shared + owned w (p.act i f).workers <
      count p.shared + owned w p.workers := by
  cases at_i : p.workers[i]? with
  | none =>
    left
    rw [Pool.act, at_i]
  | some t =>
    rcases spends t (List.mem_of_getElem? at_i) with blocked | lower
    · exact .inl (act_blocked at_i blocked)
    · right
      have moved := owned_set w at_i (f p.shared t).worker
      simp only [Pool.act, at_i, owned_append]
      omega

/-- Worker `i` after its own action. -/
theorem act_self {p : Pool S T} {i : Nat} {t : T} (f : S → T → Acted S T)
    (at_i : p.workers[i]? = some t) :
    (p.act i f).workers[i]? = some (f p.shared t).worker := by
  have within := (List.getElem?_eq_some_iff.mp at_i).1
  rw [Pool.act, at_i]
  dsimp only
  rw [List.getElem?_append_left (by rw [List.length_set]; exact within),
    List.getElem?_set_self within]

/-- Worker `i` does not move when another acts. -/
theorem act_other {p : Pool S T} {i j : Nat} {t : T} (f : S → T → Acted S T) (ne : j ≠ i)
    (at_i : p.workers[i]? = some t) : (p.act j f).workers[i]? = some t := by
  have within := (List.getElem?_eq_some_iff.mp at_i).1
  rw [Pool.act]
  split
  · exact at_i
  · rw [List.getElem?_append_left (by rw [List.length_set]; exact within),
      List.getElem?_set_ne ne]
    exact at_i

/-- Two pools whose workers do the same to related states. -/
theorem act_corresponds {S' : Type*} {R : S → S' → Prop} {p : Pool S T} {p' : Pool S' T}
    {f : S → T → Acted S T} {f' : S' → T → Acted S' T}
    (acts : ∀ t ∈ p.workers, R (f p.shared t).shared (f' p'.shared t).shared ∧
      (f p.shared t).worker = (f' p'.shared t).worker ∧
      (f p.shared t).started = (f' p'.shared t).started)
    (related : R p.shared p'.shared) (same : p.workers = p'.workers) (i : Nat) :
    R (p.act i f).shared (p'.act i f').shared ∧ (p.act i f).workers = (p'.act i f').workers := by
  rw [Pool.act, Pool.act, ← same]
  cases at_i : p.workers[i]? with
  | none => exact ⟨related, same⟩
  | some t =>
    obtain ⟨shared, worker, started⟩ := acts t (List.mem_of_getElem? at_i)
    refine ⟨shared, ?_⟩
    dsimp only
    rw [worker, started]

end WorkerPool
