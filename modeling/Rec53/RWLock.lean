import Rec53.WorkerPool

/-!
# Readers and writers

A lock that any number of workers may hold to read, or one to write. A writer that finds
readers waits for them to leave, and from then on new readers wait behind it, so that the
readers cannot keep it out. The lock counts its readers; the rules below connect the count with
the workers that hold it, so that a worker that writes knows to be alone, and a worker that waits
knows that somebody else can go on. Who goes first of those that wait for a writer to leave is
left open.
-/

namespace RWLock

open WorkerPool

universe u v
variable {S : Type u} {T : Type v}

/-- `waiting`: a writer has called for the lock and is not in yet. -/
structure RWMutex where
  readers : Nat
  waiting : Bool
  writer : Bool
  deriving DecidableEq

namespace RWMutex

def unlocked : RWMutex := ⟨0, false, false⟩

/-- Some writer is in or waits. -/
def claimed (m : RWMutex) : Bool := m.writer || m.waiting

def tryRLock (m : RWMutex) : Option RWMutex :=
  if m.claimed then none else some { m with readers := m.readers + 1 }

def rUnlock (m : RWMutex) : RWMutex := { m with readers := m.readers - 1 }

/-- A writer calls for the lock; only one can have done so at a time. -/
def claim (m : RWMutex) : Option RWMutex :=
  if m.claimed then none else some { m with waiting := true }

/-- The writer that waits is let in when the lock is free. -/
def enter (m : RWMutex) : Option RWMutex :=
  if m.writer || m.readers ≠ 0 then none else some { m with waiting := false, writer := true }

def unlock (m : RWMutex) : RWMutex := { m with writer := false }

theorem claimed_eq_false {m : RWMutex} :
    m.claimed = false ↔ m.writer = false ∧ m.waiting = false := by
  rw [claimed, Bool.or_eq_false_iff]

theorem tryRLock_eq_some {m m' : RWMutex} :
    m.tryRLock = some m' ↔ m.claimed = false ∧ m' = { m with readers := m.readers + 1 } := by
  rw [tryRLock]
  split
  · rename_i held
    simp [held]
  · rename_i free
    simp only [Option.some.injEq, Bool.eq_false_iff.mpr free, true_and]
    exact eq_comm

theorem claim_eq_some {m m' : RWMutex} :
    m.claim = some m' ↔ m.claimed = false ∧ m' = { m with waiting := true } := by
  rw [claim]
  split
  · rename_i held
    simp [held]
  · rename_i free
    simp only [Option.some.injEq, Bool.eq_false_iff.mpr free, true_and]
    exact eq_comm

theorem enter_eq_some {m m' : RWMutex} :
    m.enter = some m' ↔ m.writer = false ∧ m.readers = 0 ∧
      m' = { m with waiting := false, writer := true } := by
  rw [enter]
  split
  · rename_i held
    rw [Bool.or_eq_true, decide_eq_true_eq] at held
    rcases held with writing | reading
    · simp [writing]
    · simp [reading]
  · rename_i free
    rw [Bool.or_eq_true, decide_eq_true_eq, not_or, not_not] at free
    simp only [Option.some.injEq, Bool.eq_false_iff.mpr free.1, free.2, true_and]
    exact eq_comm

end RWMutex

/-- What a worker owns of the lock. -/
structure Part where
  reads : Nat
  waits : Nat
  writes : Nat

/-- What a worker that owns a part of the lock does with it, and what it owns then. In
`passed` a writer that waits goes in and out. -/
inductive Moves (m : RWMutex) : RWMutex → Part → Part → Prop
  | none {part} : Moves m m part part
  | rLock (free : m.claimed = false) :
      Moves m { m with readers := m.readers + 1 } ⟨0, 0, 0⟩ ⟨1, 0, 0⟩
  | rUnlock : Moves m m.rUnlock ⟨1, 0, 0⟩ ⟨0, 0, 0⟩
  | claim (free : m.claimed = false) : Moves m { m with waiting := true } ⟨0, 0, 0⟩ ⟨0, 1, 0⟩
  | enter (free : m.writer = false) (unread : m.readers = 0) :
      Moves m { m with waiting := false, writer := true } ⟨0, 1, 0⟩ ⟨0, 0, 1⟩
  | passed (free : m.writer = false) :
      Moves m { m with waiting := false, writer := false } ⟨0, 1, 0⟩ ⟨0, 0, 0⟩
  | unlock : Moves m m.unlock ⟨0, 0, 1⟩ ⟨0, 0, 0⟩

section
variable {m m' : RWMutex} {part part' : Part}

theorem Moves.pays_readers (moves : Moves m m' part part') (covered : part.reads ≤ m.readers) :
    m'.readers + part.reads = m.readers + part'.reads := by
  cases moves with
  | none | rLock | claim | enter | passed | unlock => rfl
  | rUnlock =>
    dsimp only [RWMutex.rUnlock] at covered ⊢
    omega

theorem Moves.pays_waiting (moves : Moves m m' part part')
    (covered : part.waits ≤ m.waiting.toNat) :
    m'.waiting.toNat + part.waits = m.waiting.toNat + part'.waits := by
  have most := Bool.toNat_le m.waiting
  cases moves with
  | none | rLock | rUnlock | unlock => rfl
  | claim free => simp [(RWMutex.claimed_eq_false.mp free).2]
  | enter | passed =>
    simp only [Bool.toNat_false] at covered ⊢
    omega

theorem Moves.pays_writer (moves : Moves m m' part part')
    (covered : part.writes ≤ m.writer.toNat) :
    m'.writer.toNat + part.writes = m.writer.toNat + part'.writes := by
  cases moves with
  | none | rLock | rUnlock | claim => rfl
  | enter free => simp [free]
  | passed free => simp [free]
  | unlock =>
    have most := Bool.toNat_le m.writer
    simp only [RWMutex.unlock, Bool.toNat_false] at covered ⊢
    omega

/-- While a writer is in, nobody reads and no other writer waits. -/
def RWMutex.Apart (m : RWMutex) : Prop := m.writer = true → m.readers = 0 ∧ m.waiting = false

theorem Moves.apart (moves : Moves m m' part part') (apart : m.Apart) : m'.Apart := by
  cases moves with
  | none => exact apart
  | rLock free | claim free =>
    intro writing
    have unwritten := (RWMutex.claimed_eq_false.mp free).1
    rw [show m.writer = true from writing] at unwritten
    cases unwritten
  | rUnlock =>
    intro writing
    obtain ⟨unread, calm⟩ := apart writing
    refine ⟨?_, calm⟩
    dsimp only [RWMutex.rUnlock]
    omega
  | enter _ unread => exact fun _ => ⟨unread, rfl⟩
  | passed | unlock => exact fun writing => Bool.noConfusion writing

/-- Nobody begins to read while a writer waits. -/
theorem Moves.reads_le (moves : Moves m m' part part') (waits : m.waiting = true) :
    part'.reads ≤ part.reads := by
  cases moves with
  | none => exact Nat.le_refl _
  | rLock free =>
    rw [RWMutex.claimed, waits, Bool.or_true] at free
    cases free
  | rUnlock | claim | enter | passed | unlock => exact Nat.zero_le _

end

/-- The lock is held by the workers that own a part of it: by one to write or by all to read, and
one at most waits to write. -/
structure Guarded (lock : S → RWMutex) (part : T → Part) (p : Pool S T) : Prop where
  readers : Balanced (fun s => (lock s).readers) (fun t => (part t).reads) p
  waiting : Balanced (fun s => (lock s).waiting.toNat) (fun t => (part t).waits) p
  writer : Balanced (fun s => (lock s).writer.toNat) (fun t => (part t).writes) p
  apart : (lock p.shared).Apart

section
variable {lock : S → RWMutex} {part : T → Part} {p : Pool S T}

theorem act_guarded {i : Nat} {f : S → T → Acted S T}
    (moves : ∀ t ∈ p.workers, Moves (lock p.shared) (lock (f p.shared t).shared) (part t)
      (part (f p.shared t).worker))
    (idle : ∀ t ∈ p.workers, ∀ new ∈ (f p.shared t).started, part new = ⟨0, 0, 0⟩)
    (guarded : Guarded lock part p) : Guarded lock part (p.act i f) := by
  have nothing (w : Part → Nat) (unowned : w ⟨0, 0, 0⟩ = 0) (t : T) (mem : t ∈ p.workers) :
      owned (fun t => w (part t)) (f p.shared t).started = 0 := by
    refine (owned_eq_zero_iff _).mpr fun new started => ?_
    rw [idle t mem new started, unowned]
  constructor
  · refine act_balanced ?_ guarded.readers
    intro t mem covered
    rw [nothing Part.reads rfl t mem]
    exact (moves t mem).pays_readers covered
  · refine act_balanced ?_ guarded.waiting
    intro t mem covered
    rw [nothing Part.waits rfl t mem]
    exact (moves t mem).pays_waiting covered
  · refine act_balanced ?_ guarded.writer
    intro t mem covered
    rw [nothing Part.writes rfl t mem]
    exact (moves t mem).pays_writer covered
  · exact act_shared (P := fun s => (lock s).Apart)
      (fun t mem => (moves t mem).apart guarded.apart) guarded.apart

theorem start_guarded {t : T} (idle : part t = ⟨0, 0, 0⟩) (guarded : Guarded lock part p) :
    Guarded lock part (p.start t) :=
  ⟨start_balanced (by rw [idle]) guarded.readers, start_balanced (by rw [idle]) guarded.waiting,
    start_balanced (by rw [idle]) guarded.writer, guarded.apart⟩

/-- While a worker writes, the lock is held to write. -/
theorem Guarded.writing (guarded : Guarded lock part p) {t : T} (mem : t ∈ p.workers)
    (writes : (part t).writes ≠ 0) : (lock p.shared).writer = true := by
  have covered := guarded.writer.le mem
  cases held : (lock p.shared).writer with
  | true => rfl
  | false =>
    simp only [held, Bool.toNat_false] at covered
    omega

/-- When the lock is not free or a writer waits for it, then somebody holds it, or the writer
that waits can go in. -/
theorem Guarded.exists_next (guarded : Guarded lock part p)
    (held : (lock p.shared).claimed = true ∨ (lock p.shared).readers ≠ 0) :
    (∃ t ∈ p.workers, (part t).reads ≠ 0 ∨ (part t).writes ≠ 0) ∨
      ∃ t ∈ p.workers, (part t).waits ≠ 0 ∧ (lock p.shared).enter ≠ none := by
  have readers : (lock p.shared).readers = owned (fun t => (part t).reads) p.workers :=
    guarded.readers
  have waiting : (lock p.shared).waiting.toNat = owned (fun t => (part t).waits) p.workers :=
    guarded.waiting
  have writer : (lock p.shared).writer.toNat = owned (fun t => (part t).writes) p.workers :=
    guarded.writer
  by_cases writing : (lock p.shared).writer = true
  · rw [writing, Bool.toNat_true] at writer
    obtain ⟨t, mem, owns⟩ := exists_owner _
      (show owned (fun t => (part t).writes) p.workers ≠ 0 by omega)
    exact .inl ⟨t, mem, .inr owns⟩
  by_cases read : (lock p.shared).readers = 0
  · have waits : (lock p.shared).waiting = true := by
      rcases held with claimed | reading
      · rw [RWMutex.claimed, Bool.eq_false_iff.mpr writing, Bool.false_or] at claimed
        exact claimed
      · exact absurd read reading
    rw [waits, Bool.toNat_true] at waiting
    obtain ⟨t, mem, owns⟩ := exists_owner _
      (show owned (fun t => (part t).waits) p.workers ≠ 0 by omega)
    exact .inr ⟨t, mem, owns, by simp [RWMutex.enter, Bool.eq_false_iff.mpr writing, read]⟩
  · obtain ⟨t, mem, owns⟩ := exists_owner _
      (show owned (fun t => (part t).reads) p.workers ≠ 0 by omega)
    exact .inl ⟨t, mem, .inl owns⟩

end

end RWLock
