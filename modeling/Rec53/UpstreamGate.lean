import Rec53.UpstreamQuery
import Rec53.WorkerPool

/-!
# The upstream concurrency gate

`server/upstream_concurrency_gate.go` and the two functions that take its slots,
`exchangeWithUpstreamGate` and `queryHappyEyeballs` of
`server/state_query_upstream.go`. Every goroutine is a worker whose place in the code is
a constructor of `Place`; each section of the code under the lock of the gate is one
action, and so is each start of a goroutine and each use of the result channel. The
goroutines of a race go on when the call that started them has returned.

Metrics and the rate-limited log of the gate are left out.
-/

namespace UpstreamGate

open StateHandlers UpstreamQuery WorkerPool

def normalizeUpstreamConcurrencyLimit (numCPU : Nat) (limit : Int) : Nat :=
  let limit := if limit ≤ 0 then numCPU else limit.toNat
  if limit < 1 then 1 else limit

structure Gate where
  limit : Nat
  inflight : Nat

def newUpstreamConcurrencyGate (numCPU : Nat) (limit : Int) : Gate :=
  ⟨normalizeUpstreamConcurrencyLimit numCPU limit, 0⟩

def Gate.tryAcquire (g : Gate) : Bool × Gate :=
  if g.limit ≤ g.inflight then (false, g) else (true, { g with inflight := g.inflight + 1 })

def Gate.release (g : Gate) : Gate :=
  if 0 < g.inflight then { g with inflight := g.inflight - 1 } else g

def Gate.shouldDegradeFanout (g : Gate) : Bool :=
  if g.limit ≤ 1 then true else g.limit - 1 ≤ g.inflight

abbrev Result := Except String Reply

/-- A place in the code before which a goroutine stands. `race` is the call that
started the goroutine, for the goroutines of a race. -/
inductive Place where
  -- exchangeWithUpstreamGate and exchangeWithHeldUpstreamGate
  | acquire (addr : String)
  | exchange (addr : String) (race : Option Nat)
  | release (addr : String) (race : Option Nat) (result : Result)
  | send (race : Nat) (addr : String) (result : Result)
  -- queryHappyEyeballs
  | begin (bestAddr secondAddr : String)
  | acquireFirst (bestAddr secondAddr : String)
  | acquireSecond (bestAddr secondAddr : String)
  | giveBack (bestAddr : String)
  | launchBest (bestAddr secondAddr : String)
  | launchSecond (secondAddr : String)
  | collect (round : Nat) (firstErr : Option String)
  -- the call has returned, the goroutine of a race has ended
  | returned (result : Except String (String × Reply))
  | ended

/-- The gate and the results sent on the channel of each race, in order. -/
structure Shared where
  gate : Gate
  sent : List (Nat × String × Result)

abbrev Gateway := Pool Shared Place

/-- The next result on the channel of call `i`, and what is left. -/
def receive (i : Nat) : List (Nat × String × Result) →
    Option ((String × Result) × List (Nat × String × Result))
  | [] => none
  | (j, result) :: rest =>
    if j = i then some (result, rest)
    else (receive i rest).map fun found => (found.1, (j, result) :: found.2)

/-- The body of the loop that collects the results of a race. -/
def collected (i round : Nat) (firstErr : Option String) (s : Shared) : Acted Shared Place :=
  match receive i s.sent with
  | none => ⟨s, .collect round firstErr, []⟩
  | some ((addr, .ok reply), rest) => ⟨{ s with sent := rest }, .returned (.ok (addr, reply)), []⟩
  | some ((_, .error err), rest) =>
    let firstErr := firstErr.getD err
    if round + 1 < 2 then ⟨{ s with sent := rest }, .collect (round + 1) (some firstErr), []⟩
    else
      ⟨{ s with sent := rest }, .returned (.error ("all upstream IPs failed: " ++ firstErr)), []⟩

/-- One action of goroutine `i`; `result` is what an exchange that ends now brings. -/
def advance (i : Nat) (result : Result) (s : Shared) : Place → Acted Shared Place
  | .acquire addr =>
    if s.gate.tryAcquire.1 then ⟨{ s with gate := s.gate.tryAcquire.2 }, .exchange addr none, []⟩
    else ⟨s, .returned (.error gateSaturated), []⟩
  | .exchange addr race => ⟨s, .release addr race result, []⟩
  | .release addr none result =>
    ⟨{ s with gate := s.gate.release }, .returned (result.map fun reply => (addr, reply)), []⟩
  | .release addr (some race) result =>
    ⟨{ s with gate := s.gate.release }, .send race addr result, []⟩
  | .send race addr result => ⟨{ s with sent := s.sent ++ [(race, addr, result)] }, .ended, []⟩
  | .begin bestAddr secondAddr =>
    if secondAddr = "" then ⟨s, .acquire bestAddr, []⟩
    else if s.gate.shouldDegradeFanout then ⟨s, .acquire bestAddr, []⟩
    else ⟨s, .acquireFirst bestAddr secondAddr, []⟩
  | .acquireFirst bestAddr secondAddr =>
    if s.gate.tryAcquire.1 then
      ⟨{ s with gate := s.gate.tryAcquire.2 }, .acquireSecond bestAddr secondAddr, []⟩
    else ⟨s, .returned (.error gateSaturated), []⟩
  | .acquireSecond bestAddr secondAddr =>
    if s.gate.tryAcquire.1 then
      ⟨{ s with gate := s.gate.tryAcquire.2 }, .launchBest bestAddr secondAddr, []⟩
    else ⟨s, .giveBack bestAddr, []⟩
  | .giveBack bestAddr => ⟨{ s with gate := s.gate.release }, .acquire bestAddr, []⟩
  | .launchBest bestAddr secondAddr =>
    ⟨s, .launchSecond secondAddr, [.exchange bestAddr (some i)]⟩
  | .launchSecond secondAddr => ⟨s, .collect 0 none, [.exchange secondAddr (some i)]⟩
  | .collect round firstErr => collected i round firstErr s
  | .returned result => ⟨s, .returned result, []⟩
  | .ended => ⟨s, .ended, []⟩

/-- A call of either function, or an action of a goroutine. -/
inductive Event where
  | exchangeWithUpstreamGate (addr : String)
  | queryHappyEyeballs (bestAddr secondAddr : String)
  | advance (i : Nat) (result : Result)

def step (p : Gateway) : Event → Gateway
  | .exchangeWithUpstreamGate addr => p.start (.acquire addr)
  | .queryHappyEyeballs bestAddr secondAddr => p.start (.begin bestAddr secondAddr)
  | .advance i result => p.act i (advance i result)

def initial (gate : Gate) : Gateway := ⟨⟨gate, []⟩, []⟩

/-- The gateway of a new gate after the given events. -/
def runFrom (gate : Gate) (events : List Event) : Gateway :=
  StepRuns.run step (initial gate) events

/-! ### Slots -/

/-- An exchange that was admitted and is not finished; the release is part of it. -/
def Place.exchanges : Place → Nat
  | .exchange _ _ | .release _ _ _ => 1
  | _ => 0

/-- Slots that were acquired and not yet handed to an exchange. -/
def Place.admissions : Place → Nat
  | .acquireSecond _ _ | .giveBack _ | .launchSecond _ => 1
  | .launchBest _ _ => 2
  | _ => 0

def Place.slots (place : Place) : Nat := place.exchanges + place.admissions

/-- The next action of the goroutine is a call of `release`. -/
def Place.releases : Place → Prop
  | .release _ _ _ | .giveBack _ => True
  | _ => False

/-- A slot is taken below the limit only. -/
lemma tryAcquire_eq (g : Gate) :
    (g.inflight < g.limit ∧ g.tryAcquire = (true, { g with inflight := g.inflight + 1 })) ∨
      g.tryAcquire = (false, g) := by
  rw [Gate.tryAcquire]
  by_cases full : g.limit ≤ g.inflight
  · exact .inr (if_pos full)
  · exact .inl ⟨Nat.lt_of_not_le full, if_neg full⟩

lemma release_inflight {g : Gate} (taken : 0 < g.inflight) :
    g.release.inflight + 1 = g.inflight := by
  rw [Gate.release, if_pos taken]
  exact Nat.sub_add_cancel taken

/-- Reading the channel leaves the gate alone and owns nothing. -/
lemma collected_spec (i round : Nat) (firstErr : Option String) (s : Shared) :
    (collected i round firstErr s).shared.gate = s.gate ∧
      (collected i round firstErr s).worker.slots = 0 ∧
      (collected i round firstErr s).started = [] := by
  rw [collected]
  split
  · exact ⟨rfl, rfl, rfl⟩
  · exact ⟨rfl, rfl, rfl⟩
  · dsimp only
    split
    · exact ⟨rfl, rfl, rfl⟩
    · exact ⟨rfl, rfl, rfl⟩

/-- Every action pays for the slots it takes over and gives up. -/
lemma advance_paid (i : Nat) (result : Result) (s : Shared) (place : Place)
    (covered : place.slots ≤ s.gate.inflight) :
    (advance i result s place).shared.gate.inflight + place.slots =
      s.gate.inflight + (advance i result s place).worker.slots +
        owned Place.slots (advance i result s place).started := by
  cases place with
  | acquire addr | acquireFirst bestAddr secondAddr | acquireSecond bestAddr secondAddr =>
    rcases tryAcquire_eq s.gate with ⟨_, taken⟩ | refused
    · simp [advance, taken, Place.slots, Place.exchanges, Place.admissions]
    · simp [advance, refused, Place.slots, Place.exchanges, Place.admissions]
  | release addr race result =>
    have given := release_inflight (show 0 < s.gate.inflight from covered)
    cases race with
    | none => exact given
    | some race => exact given
  | giveBack bestAddr => exact release_inflight (show 0 < s.gate.inflight from covered)
  | begin bestAddr secondAddr =>
    simp only [advance]
    split
    · rfl
    split
    · rfl
    · rfl
  | collect round firstErr =>
    obtain ⟨gate, worker, started⟩ := collected_spec i round firstErr s
    simp only [advance, gate, worker, started, owned_nil]
    rfl
  | exchange | send | launchBest | launchSecond | returned | ended => rfl

/-- The gate keeps its limit and stays within it. -/
structure Within (limit : Nat) (s : Shared) : Prop where
  fixed : s.gate.limit = limit
  bound : s.gate.inflight ≤ limit

lemma tryAcquire_within {limit : Nat} {s : Shared} (within : Within limit s) :
    Within limit { s with gate := s.gate.tryAcquire.2 } := by
  rcases tryAcquire_eq s.gate with ⟨below, taken⟩ | refused
  · rw [taken]
    exact ⟨within.fixed, within.fixed ▸ below⟩
  · rw [refused]
    exact within

lemma release_within {limit : Nat} {s : Shared} (within : Within limit s) :
    Within limit { s with gate := s.gate.release } := by
  rw [Gate.release]
  split
  · exact ⟨within.fixed, Nat.le_trans (Nat.sub_le _ _) within.bound⟩
  · exact within

lemma advance_within {limit : Nat} {s : Shared} (i : Nat) (result : Result) (place : Place)
    (within : Within limit s) : Within limit (advance i result s place).shared := by
  cases place with
  | acquire | acquireFirst | acquireSecond =>
    simp only [advance]
    split
    · exact tryAcquire_within within
    · exact within
  | release addr race result =>
    cases race with
    | none => exact release_within within
    | some race => exact release_within within
  | giveBack bestAddr => exact release_within within
  | begin bestAddr secondAddr =>
    simp only [advance]
    split
    · exact within
    split
    · exact within
    · exact within
  | collect round firstErr =>
    have gate := (collected_spec i round firstErr s).1
    exact ⟨(congrArg Gate.limit gate).trans within.fixed,
      (congrArg Gate.inflight gate).trans_le within.bound⟩
  | send => exact ⟨within.fixed, within.bound⟩
  | exchange | launchBest | launchSecond | returned | ended => exact within

/-- Slots and goroutines balance, within the limit. -/
structure Accounted (limit : Nat) (p : Gateway) : Prop where
  balanced : Balanced (fun s => s.gate.inflight) Place.slots p
  within : Within limit p.shared

theorem step_accounted {limit : Nat} (p : Gateway) (e : Event) (accounted : Accounted limit p) :
    Accounted limit (step p e) := by
  cases e with
  | exchangeWithUpstreamGate addr =>
    exact ⟨start_balanced rfl accounted.balanced, accounted.within⟩
  | queryHappyEyeballs bestAddr secondAddr =>
    exact ⟨start_balanced rfl accounted.balanced, accounted.within⟩
  | advance i result =>
    constructor
    · exact act_balanced (fun place _ => advance_paid i result p.shared place) accounted.balanced
    · exact act_shared (fun place _ => advance_within i result place accounted.within)
        accounted.within

theorem run_accounted (numCPU : Nat) (limit : Int) (events : List Event) :
    Accounted (normalizeUpstreamConcurrencyLimit numCPU limit)
      (runFrom (newUpstreamConcurrencyGate numCPU limit) events) := by
  refine StepRuns.run_preserves step step_accounted ?_ events
  exact ⟨rfl, rfl, Nat.zero_le _⟩

/-- In every interleaving of any number of calls, whatever their exchanges bring: the
gate counts the exchanges that were admitted and are not finished and the slots not yet
handed to one, it stays within the limit it was made with, `release` is called with a
slot taken only, and nothing is left when no exchange and no admission is open. -/
theorem gate_slots_exact (numCPU : Nat) (limit : Int) (events : List Event) :
    let p := runFrom (newUpstreamConcurrencyGate numCPU limit) events
    p.shared.gate.inflight = owned Place.exchanges p.workers + owned Place.admissions p.workers ∧
    p.shared.gate.inflight ≤ normalizeUpstreamConcurrencyLimit numCPU limit ∧
    (∀ place ∈ p.workers, place.releases → 0 < p.shared.gate.inflight) ∧
    ((∀ place ∈ p.workers, place.exchanges = 0 ∧ place.admissions = 0) →
      p.shared.gate.inflight = 0) := by
  intro p
  obtain ⟨balanced, within⟩ := run_accounted numCPU limit events
  have split : p.shared.gate.inflight =
      owned Place.exchanges p.workers + owned Place.admissions p.workers :=
    balanced.trans (owned_add Place.exchanges Place.admissions p.workers)
  refine ⟨split, within.bound, ?_, ?_⟩
  · intro place mem releasing
    have covered : place.slots ≤ p.shared.gate.inflight := balanced.le mem
    cases place with
    | release => exact covered
    | giveBack => exact covered
    | acquire | exchange | send | begin | acquireFirst | acquireSecond | launchBest
    | launchSecond | collect | returned | ended => cases releasing
  · intro finished
    have exchanged : owned Place.exchanges p.workers = 0 :=
      (owned_eq_zero_iff _).mpr fun place mem => (finished place mem).1
    have admitted : owned Place.admissions p.workers = 0 :=
      (owned_eq_zero_iff _).mpr fun place mem => (finished place mem).2
    omega

end UpstreamGate
