import Mathlib.Data.List.Sort
import Mathlib.Data.Rat.Defs
import Rec53.StepRuns

/-!
# The quality of an upstream address

`IPQualityV2` of `server/ip_pool_quality_v2.go`: a ring of the last 64 latencies, the
percentiles taken from it, and the count of failures that moves an address between its
states. Every method holds the lock of the tracker, so a history of a tracker is a list
of calls.

An int32 is kept as its value. The only arithmetic on one is the penalty of a failure;
what the platform makes of a penalty that does not fit an int32 is `convert`. The
products of that arithmetic and of the percentile indices with their decimal constants
are exact: rounding to a float64 does not move them across an integer.
-/

namespace IPQuality

inductive IPState where
  | active
  | degraded
  | suspect
  | recovered
deriving DecidableEq, Repr

def initIPLatency : Int := 1000

def maxIPLatency : Int := 10000

/-- The two counters of the ring stay in range; nothing outside the methods below
writes them. -/
structure IPQualityV2 where
  samples : Vector Int 64
  sampleCount : UInt8
  nextIdx : UInt8
  p50 : Int
  p95 : Int
  p99 : Int
  confidence : UInt8
  failCount : UInt8
  state : IPState
  lastUpdate : Nat
  lastFailure : Option Nat
  lastSeen : Nat
  count_le : sampleCount.toNat ≤ 64
  idx_lt : nextIdx.toNat < 64

def newIPQualityV2 (now : Nat) : IPQualityV2 where
  samples := Vector.replicate 64 0
  sampleCount := 0
  nextIdx := 0
  p50 := initIPLatency
  p95 := initIPLatency
  p99 := initIPLatency
  confidence := 0
  failCount := 0
  state := .active
  lastUpdate := now
  lastFailure := none
  lastSeen := now
  count_le := by decide
  idx_lt := by decide

lemma nextIdx_wraps (i : UInt8) : ((i + 1) % 64).toNat < 64 := by
  rw [UInt8.toNat_mod]
  exact Nat.mod_lt _ (by decide)

lemma sampleCount_grows {n : UInt8} (bounded : n.toNat ≤ 64) :
    (if n < 64 then n + 1 else n).toNat ≤ 64 := by
  split
  · rename_i room
    have below : n.toNat < 64 := UInt8.lt_iff_toNat_lt.mp room
    rw [UInt8.toNat_add]
    change (n.toNat + 1) % 256 ≤ 64
    omega
  · exact bounded

/-- The sample is written over the oldest one when the ring is full. -/
def pushSample (iq : IPQualityV2) (latency : Int) : IPQualityV2 :=
  { iq with
    samples := iq.samples.set iq.nextIdx.toNat latency iq.idx_lt
    nextIdx := (iq.nextIdx + 1) % 64
    sampleCount := if iq.sampleCount < 64 then iq.sampleCount + 1 else iq.sampleCount
    count_le := sampleCount_grows iq.count_le
    idx_lt := nextIdx_wraps iq.nextIdx }

def sortedSamples (iq : IPQualityV2) : List Int :=
  (iq.samples.toList.take iq.sampleCount.toNat).insertionSort (· ≤ ·)

/-- The index of a percentile, cut to the last sample. -/
def percentileIdx (percent count : Nat) : Nat :=
  let idx := count * percent / 100
  if count ≤ idx then count - 1 else idx

def updatePercentiles (iq : IPQualityV2) : IPQualityV2 :=
  if iq.sampleCount = 0 then iq
  else
    let sorted := sortedSamples iq
    let count := iq.sampleCount.toNat
    { iq with
      p50 := sorted.getD (count / 2) 0
      p95 := sorted.getD (percentileIdx 95 count) 0
      p99 := sorted.getD (percentileIdx 99 count) 0 }

def confidenceOf (sampleCount : UInt8) : UInt8 :=
  -- the product is converted to a uint8 before it is compared with the cap
  let confidence := UInt8.ofNat (sampleCount.toNat * 10)
  if 100 < confidence then 100 else confidence

def recordLatency (iq : IPQualityV2) (now : Nat) (latency : Int) : IPQualityV2 :=
  let pushed := pushSample iq latency
  updatePercentiles
    { pushed with
      confidence := confidenceOf pushed.sampleCount
      failCount := 0
      state := .active
      lastUpdate := now
      lastSeen := now }

def stateWeight : IPState → Rat
  | .active => 1
  | .degraded => 3 / 2
  | .suspect => 100
  | .recovered => 11 / 10

/-- GetScore in exact arithmetic; the subtraction is one of uint8 values. -/
def getScore (iq : IPQualityV2) : Rat :=
  let confidenceMult : Rat := 1 + (100 - iq.confidence).toNat * (1 / 100)
  iq.p50 * confidenceMult * stateWeight iq.state

section Calls

variable (convert : Int → Int)

/-- 20 per cent more, cut to the maximum. -/
def penalised (p50 : Int) : Int :=
  let raised := (6 * p50).tdiv 5
  let p50 :=
    if -2147483648 ≤ raised ∧ raised ≤ 2147483647 then raised else convert raised
  if maxIPLatency < p50 then maxIPLatency else p50

def recordFailure (iq : IPQualityV2) (now : Nat) : IPQualityV2 :=
  let iq := { iq with
    failCount := iq.failCount + 1
    lastFailure := some now
    lastSeen := now }
  if iq.failCount ≤ 3 then { iq with state := .degraded, p50 := penalised convert iq.p50 }
  else if iq.failCount ≤ 6 then
    { iq with state := .suspect, p50 := maxIPLatency, p95 := maxIPLatency, p99 := maxIPLatency }
  else { iq with state := .suspect }

def resetForProbe (iq : IPQualityV2) (now : Nat) : IPQualityV2 :=
  { iq with failCount := 0, state := .recovered, lastUpdate := now }

inductive Call where
  | recordLatency (now : Nat) (latency : Int)
  | recordFailure (now : Nat)
  | resetForProbe (now : Nat)
deriving DecidableEq, Repr

def Call.isFailure : Call → Bool
  | .recordFailure _ => true
  | _ => false

def perform (iq : IPQualityV2) : Call → IPQualityV2
  | .recordLatency now latency => recordLatency iq now latency
  | .recordFailure now => recordFailure convert iq now
  | .resetForProbe now => resetForProbe iq now

/-- The RecordFailure calls since the last call of another kind, or since the start. -/
def failuresSince (calls : List Call) : Nat := (calls.reverse.takeWhile Call.isFailure).length

@[simp] theorem failuresSince_nil : failuresSince [] = 0 := rfl

theorem failuresSince_snoc (calls : List Call) (c : Call) :
    failuresSince (calls ++ [c]) = if c.isFailure then failuresSince calls + 1 else 0 := by
  rw [failuresSince, List.reverse_append]
  change (List.takeWhile Call.isFailure (c :: calls.reverse)).length = _
  rw [List.takeWhile_cons]
  split
  · rfl
  · rfl

@[simp] theorem recordLatency_failCount (iq : IPQualityV2) (now : Nat) (latency : Int) :
    (recordLatency iq now latency).failCount = 0 := by
  rw [recordLatency, updatePercentiles]
  split
  · rfl
  · rfl

@[simp] theorem recordLatency_state (iq : IPQualityV2) (now : Nat) (latency : Int) :
    (recordLatency iq now latency).state = .active := by
  rw [recordLatency, updatePercentiles]
  split
  · rfl
  · rfl

@[simp] theorem recordFailure_failCount (iq : IPQualityV2) (now : Nat) :
    (recordFailure convert iq now).failCount = iq.failCount + 1 := by
  simp only [recordFailure]
  split
  · rfl
  split
  · rfl
  · rfl

/-- The state after a failure is a function of the count alone. -/
theorem recordFailure_state (iq : IPQualityV2) (now : Nat) :
    (recordFailure convert iq now).state =
      if iq.failCount + 1 ≤ 3 then .degraded else .suspect := by
  simp only [recordFailure]
  split
  · rfl
  split
  · rfl
  · rfl

/-- A tracker shows `n` failures in a row: the counter holds their number modulo 256,
and the state is that of the counter. -/
structure Shows (n : Nat) (iq : IPQualityV2) : Prop where
  count : iq.failCount = UInt8.ofNat n
  failing : 1 ≤ n → iq.state = if n % 256 ≤ 3 then .degraded else .suspect
  calm : n = 0 → iq.state = .active ∨ iq.state = .recovered

lemma shows_new (created : Nat) : Shows 0 (newIPQualityV2 created) :=
  ⟨rfl, fun positive => absurd positive (by decide), fun _ => .inl rfl⟩

/-- A latency sample and a reset start the count again, from any state. -/
lemma shows_restart (iq : IPQualityV2) {c : Call} (restart : c.isFailure = false) :
    Shows 0 (perform convert iq c) := by
  cases c with
  | recordLatency now latency =>
    exact ⟨recordLatency_failCount iq now latency, fun positive => absurd positive (by decide),
      fun _ => .inl (recordLatency_state iq now latency)⟩
  | resetForProbe now =>
    exact ⟨rfl, fun positive => absurd positive (by decide), fun _ => .inr rfl⟩
  | recordFailure now => cases restart

lemma shows_failure {n : Nat} {iq : IPQualityV2} (shows_n : Shows n iq) (now : Nat) :
    Shows (n + 1) (perform convert iq (.recordFailure now)) := by
  have counted : iq.failCount + 1 = UInt8.ofNat (n + 1) := by
    rw [shows_n.count, UInt8.ofNat_add, UInt8.ofNat_one]
  refine ⟨?_, ?_, fun zero => absurd zero (Nat.succ_ne_zero n)⟩
  · rw [perform, recordFailure_failCount, counted]
  · intro _
    rw [perform, recordFailure_state, counted]
    simp [UInt8.le_iff_toNat_le]

theorem run_shows {iq : IPQualityV2} (start : Shows 0 iq) (calls : List Call) :
    Shows (failuresSince calls) (StepRuns.run (perform convert) iq calls) := by
  refine StepRuns.past_preserves (perform convert)
    (P := fun past iq => Shows (failuresSince past) iq) ?_ start calls
  intro past iq c before
  rw [failuresSince_snoc]
  cases failure : c.isFailure with
  | false => exact shows_restart convert _ failure
  | true =>
    cases c with
    | recordFailure now => exact shows_failure convert before now
    | recordLatency now latency => cases failure
    | resetForProbe now => cases failure

theorem Shows.suspect_iff {n : Nat} {iq : IPQualityV2} (shows_n : Shows n iq) :
    iq.state = .suspect ↔ 4 ≤ n % 256 := by
  rcases Nat.eq_zero_or_pos n with rfl | positive
  · rcases shows_n.calm rfl with calm | calm
    · simp [calm]
    · simp [calm]
  · rw [shows_n.failing positive]
    split
    · rename_i low
      simp only [reduceCtorEq, false_iff]
      omega
    · rename_i high
      simp only [true_iff]
      omega

/-- The phases of RecordFailure: one to three failures in a row leave an address
degraded, four or more leave it suspect. -/
def InPhase (n : Nat) (state : IPState) : Prop :=
  (1 ≤ n ∧ n ≤ 3 → state = .degraded) ∧ (4 ≤ n → state = .suspect)

instance (n : Nat) (state : IPState) : Decidable (InPhase n state) :=
  inferInstanceAs (Decidable (_ ∧ _))

/-- An address is in the phase its failures in a row call for exactly when their
number is not one that leaves the uint8 counter at 3 or below. -/
theorem failure_phase_iff (created : Nat) (calls : List Call) :
    InPhase (failuresSince calls)
        (StepRuns.run (perform convert) (newIPQualityV2 created) calls).state ↔
      (4 ≤ failuresSince calls → 4 ≤ failuresSince calls % 256) := by
  have shown := run_shows convert (shows_new created) calls
  generalize failuresSince calls = n at shown ⊢
  constructor
  · intro phase many
    exact shown.suspect_iff.mp (phase.2 many)
  · intro unwrapped
    constructor
    · rintro ⟨positive, few⟩
      rw [shown.failing positive, if_pos (by omega)]
    · intro many
      exact shown.suspect_iff.mpr (unwrapped many)

end Calls

theorem seven_failures_in_phase :
    InPhase 7 (StepRuns.run (perform id) (newIPQualityV2 0)
      (List.replicate 7 (.recordFailure 1))).state :=
  (failure_phase_iff id 0 (List.replicate 7 (.recordFailure 1))).mpr (by decide)

/-- The 256th failure in a row takes a suspect address back to degraded. -/
theorem counter_wraps_to_degraded :
    let calls := List.replicate 256 (Call.recordFailure 1)
    failuresSince calls = 256 ∧
      (StepRuns.run (perform id) (newIPQualityV2 0) (calls.take 255)).state = .suspect ∧
      (StepRuns.run (perform id) (newIPQualityV2 0) calls).state = .degraded := by
  decide +kernel

end IPQuality
