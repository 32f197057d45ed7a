import Rec53.WorkerPool

/-!
# Readiness phases

`monitor/runtime_state.go`. Each section of the code under the lock is one action, and
a call stands before its next section. `SetRuntimeServingPhase` has two sections: it
reads whether the warmup is done, and writes the phase it chose.
-/

namespace RuntimePhase

open WorkerPool

inductive Phase where
  | coldStart
  | warming
  | steady
  | shuttingDown
deriving DecidableEq, Repr

structure RuntimeState where
  ready : Bool
  phase : Phase
  warmupDone : Bool
deriving DecidableEq

structure Snapshot where
  readiness : Bool
  phase : Phase
deriving DecidableEq

def RuntimeState.snapshot (s : RuntimeState) : Snapshot := ⟨s.ready, s.phase⟩

def resetRuntimeState : RuntimeState := ⟨false, .coldStart, false⟩

def setRuntimeState (s : RuntimeState) (ready : Bool) (phase : Phase) : RuntimeState where
  ready := ready
  phase := phase
  warmupDone := if phase = .coldStart then false else s.warmupDone

def markRuntimeWarmupComplete (s : RuntimeState) : (Snapshot × Bool) × RuntimeState :=
  let done := { s with warmupDone := true }
  if s.ready = false ∨ s.phase ≠ .warming then ((done.snapshot, false), done)
  else
    let steady := { done with phase := .steady }
    ((steady.snapshot, true), steady)

inductive Call where
  | setRuntimeServingPhase (warmupEnabled : Bool)
  | markRuntimeShuttingDown
  | markRuntimeWarmupComplete
deriving DecidableEq

/-- The next section of a call, or what it returned. -/
inductive Place where
  | readWarmup
  | setServing (phase : Phase)
  | shutDown
  | completeWarmup
  | returned (snapshot : Snapshot) (changed : Option Bool)
deriving DecidableEq

def Call.start : Call → Place
  | .setRuntimeServingPhase true => .readWarmup
  -- without warmup the phase is chosen before any section
  | .setRuntimeServingPhase false => .setServing .steady
  | .markRuntimeShuttingDown => .shutDown
  | .markRuntimeWarmupComplete => .completeWarmup

def runSection (s : RuntimeState) : Place → Acted RuntimeState Place
  | .readWarmup => ⟨s, .setServing (if s.warmupDone then .steady else .warming), []⟩
  | .setServing phase => ⟨setRuntimeState s true phase, .returned ⟨true, phase⟩ none, []⟩
  | .shutDown =>
    ⟨setRuntimeState s false .shuttingDown, .returned ⟨false, .shuttingDown⟩ none, []⟩
  | .completeWarmup =>
    let ret := markRuntimeWarmupComplete s
    ⟨ret.2, .returned ret.1.1 ret.1.2, []⟩
  | .returned snapshot changed => ⟨s, .returned snapshot changed, []⟩

inductive Event where
  | call (c : Call)
  | go (i : Nat)
deriving DecidableEq

abbrev System := Pool RuntimeState Place

def step (p : System) : Event → System
  | .call c => p.start c.start
  | .go i => p.act i runSection

def afterReset : System := ⟨resetRuntimeState, []⟩

/-! ### One section -/

/-- A call that is about to set the serving phase chose one of the two. -/
def Place.Serves : Place → Prop
  | .setServing phase => phase = .warming ∨ phase = .steady
  | _ => True

lemma start_serves (c : Call) : c.start.Serves := by
  cases c with
  | setRuntimeServingPhase warmupEnabled =>
    cases warmupEnabled with
    | true => trivial
    | false => exact .inr rfl
  | markRuntimeShuttingDown => trivial
  | markRuntimeWarmupComplete => trivial

lemma runSection_serves (s : RuntimeState) (t : Place) : (runSection s t).worker.Serves := by
  cases t with
  | readWarmup =>
    rw [runSection]
    cases s.warmupDone with
    | true => exact .inr rfl
    | false => exact .inl rfl
  | setServing phase => trivial
  | shutDown => trivial
  | completeWarmup => trivial
  | returned snapshot changed => trivial

lemma runSection_started (s : RuntimeState) (t : Place) : (runSection s t).started = [] := by
  cases t with
  | readWarmup | setServing | shutDown | completeWarmup | returned => rfl

/-- Ready exactly in the two serving phases. -/
def ReadyIffServing (s : RuntimeState) : Prop :=
  s.ready = true ↔ s.phase = .warming ∨ s.phase = .steady

/-- The phase does not stay at warming when the warmup is done. -/
def WarmingUntilDone (s : RuntimeState) : Prop := s.phase = .warming → s.warmupDone = false

instance (s : RuntimeState) : Decidable (ReadyIffServing s) := inferInstanceAs (Decidable (_ ↔ _))

instance (s : RuntimeState) : Decidable (WarmingUntilDone s) := inferInstanceAs (Decidable (_ → _))

lemma markRuntimeWarmupComplete_ready {s : RuntimeState} (ready : ReadyIffServing s) :
    ReadyIffServing (markRuntimeWarmupComplete s).2 := by
  simp only [markRuntimeWarmupComplete]
  split
  · exact ready
  · rename_i warming
    simp only [not_or, not_not, Bool.not_eq_false] at warming
    simp [ReadyIffServing, warming.1]

lemma markRuntimeWarmupComplete_warming {s : RuntimeState} (ready : ReadyIffServing s) :
    WarmingUntilDone (markRuntimeWarmupComplete s).2 := by
  simp only [markRuntimeWarmupComplete]
  split
  · rename_i other
    intro warming
    rcases other with unready | phase
    · have serving : s.ready = true := ready.mpr (.inl warming)
      rw [unready] at serving
      cases serving
    · exact absurd warming phase
  · intro warming
    cases warming

lemma runSection_ready {s : RuntimeState} {t : Place} (serves : t.Serves)
    (ready : ReadyIffServing s) : ReadyIffServing (runSection s t).shared := by
  cases t with
  | readWarmup => exact ready
  | setServing phase =>
    rcases serves with rfl | rfl
    · simp [runSection, setRuntimeState, ReadyIffServing]
    · simp [runSection, setRuntimeState, ReadyIffServing]
  | shutDown => simp [runSection, setRuntimeState, ReadyIffServing]
  | completeWarmup => exact markRuntimeWarmupComplete_ready ready
  | returned snapshot changed => exact ready

/-- Only the write of `warming` can break the rule, when the warmup was completed
since it was read. -/
lemma runSection_warming_iff {s : RuntimeState} {t : Place} (ready : ReadyIffServing s)
    (until_done : WarmingUntilDone s) :
    WarmingUntilDone (runSection s t).shared ↔
      (t = .setServing .warming → s.warmupDone = false) := by
  cases t with
  | readWarmup => simpa [runSection] using until_done
  | setServing phase =>
    cases phase with
    | warming => simp [runSection, setRuntimeState, WarmingUntilDone]
    | coldStart | steady | shuttingDown => simp [runSection, setRuntimeState, WarmingUntilDone]
  | shutDown => simp [runSection, setRuntimeState, WarmingUntilDone]
  | completeWarmup => simpa [runSection] using markRuntimeWarmupComplete_warming ready
  | returned snapshot changed => simpa [runSection] using until_done

/-! ### Whole runs -/

structure Sound (p : System) : Prop where
  serves : ∀ t ∈ p.workers, t.Serves
  ready : ReadyIffServing p.shared

theorem step_sound (p : System) (e : Event) (sound : Sound p) : Sound (step p e) := by
  cases e with
  | call c =>
    refine ⟨?_, sound.ready⟩
    intro t mem
    rcases List.mem_append.mp mem with old | new
    · exact sound.serves t old
    · rw [List.mem_singleton.mp new]
      exact start_serves c
  | go i =>
    constructor
    · refine act_workers ?_ sound.serves
      intro t _ _
      refine ⟨runSection_serves p.shared t, ?_⟩
      rw [runSection_started]
      intro t' mem
      cases mem
    · exact act_shared (fun t mem => runSection_ready (sound.serves t mem) sound.ready) sound.ready

/-- The phase and the readiness agree with each other and with the warmup. -/
def Consistent (p : System) : Prop := WarmingUntilDone p.shared ∧ ReadyIffServing p.shared

/-- A section that writes `warming` finds the warmup not completed. -/
def Timely (p : System) : Event → Prop
  | .call _ => True
  | .go i => p.workers[i]? = some (.setServing .warming) → p.shared.warmupDone = false

instance (p : System) : Decidable (Consistent p) := inferInstanceAs (Decidable (_ ∧ _))

instance (p : System) : (e : Event) → Decidable (Timely p e)
  | .call _ => inferInstanceAs (Decidable True)
  | .go _ => inferInstanceAs (Decidable (_ → _))

theorem step_consistent_iff (p : System) (e : Event) (sound : Sound p) (before : Consistent p) :
    Consistent (step p e) ↔ Timely p e := by
  have ready := (step_sound p e sound).ready
  rw [Consistent, and_iff_left ready]
  cases e with
  | call c => simpa [step, Pool.start, Timely] using before.1
  | go i =>
    simp only [step, Pool.act, Timely]
    split
    · rename_i absent
      simpa [absent] using before.1
    · rename_i t at_i
      rw [at_i, Option.some.injEq]
      exact runSection_warming_iff sound.ready before.1

/-- Over any number of calls and any order of their sections after a reset: the phases
are consistent throughout exactly when no call writes `warming` after the warmup
completed. -/
theorem phases_consistent_iff (events : List Event) :
    StepRuns.Throughout step Consistent afterReset events ↔
      StepRuns.Along step Timely afterReset events := by
  have sound : Sound afterReset := by
    refine ⟨?_, by decide⟩
    intro t mem
    cases mem
  exact StepRuns.throughout_iff_along step step_sound step_consistent_iff sound (by decide) events

/-- Warmup completes after the serving phase was set. -/
theorem warmup_after_serving_consistent :
    StepRuns.Throughout step Consistent afterReset
      [.call (.setRuntimeServingPhase true), .go 0, .go 0, .call .markRuntimeWarmupComplete,
        .go 1, .call .markRuntimeShuttingDown, .go 2] :=
  (phases_consistent_iff _).mpr (by decide)

/-- The warmup completes between the read and the write of the call that starts the
service, and the phase stays at warming. -/
theorem phase_stuck_at_warming :
    (StepRuns.run step afterReset
      [.call (.setRuntimeServingPhase true), .call .markRuntimeWarmupComplete, .go 0, .go 1,
        .go 0]).shared = ⟨true, .warming, true⟩ := by
  decide

end RuntimePhase
