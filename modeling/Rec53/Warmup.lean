import Mathlib.Algebra.Order.Group.Multiset
import Rec53.WorkerPool

/-!
# The warm-up

`warmupNSOnStartup` of `server/server.go` and `WarmupNSRecords` of `server/warmup.go`: one query
for the root and one for each configured TLD, each in a goroutine that holds a slot of a
semaphore, and counters that every goroutine adds to under a lock. The call waits for a slot or
for the end of its context; a domain for which there is no slot by then counts as failed.

A query may end at any time, with success, with a failure or with a panic, which counts as a
failure. Making a channel of negative size panics before any query, and the caller recovers. The
duration in the result and the log lines are left out.
-/

namespace Warmup

open WorkerPool

structure WarmupConfig where
  concurrency : Int
  tlds : List String

structure WarmupStats where
  total : Nat
  succeeded : Nat
  failed : Nat
  deriving DecidableEq

inductive Place where
  -- the call, up to MarkRuntimeWarmupComplete
  | makeSem
  | loop (domains : List String)
  | select (domain : String) (domains : List String)
  | skip (domain : String) (domains : List String)
  | countSkipped (domain : String) (domains : List String)
  | wait
  | markComplete (stats : WarmupStats)
  | returned (stats : Option WarmupStats)
  -- the goroutine of a domain
  | query (domain : String)
  | count (domain : String) (ok : Bool)
  | release
  | done
  | ended
  deriving DecidableEq

/-- `sem` is the number of values in the channel of that name, `completed` the number of calls of
`MarkRuntimeWarmupComplete`. -/
structure Shared where
  total : Nat
  capacity : Nat
  sem : Nat
  wg : Nat
  successCount : Nat
  failureCount : Nat
  ctxDone : Bool
  completed : Nat
  panicked : Bool
  deriving DecidableEq

abbrev System := Pool Shared Place

inductive Outcome where
  | success
  | failure
  | panic
  deriving DecidableEq

/-- `giveUp`: the select takes the end of the context, if both cases are ready. -/
structure Choice where
  giveUp : Bool
  outcome : Outcome

def buildDomains (fqdn : String → String) (cfg : WarmupConfig) : List String :=
  "." :: cfg.tlds.map fqdn

section
variable (fqdn : String → String) (cfg : WarmupConfig) (c : Choice) (s : Shared)

def callStep : Place → Acted Shared Place
  | .makeSem =>
    if cfg.concurrency < 0 then ⟨s, .returned none, []⟩
    else ⟨{ s with capacity := cfg.concurrency.toNat }, .loop (buildDomains fqdn cfg), []⟩
  | .loop (domain :: domains) => ⟨{ s with wg := s.wg + 1 }, .select domain domains, []⟩
  | .loop [] => ⟨s, .wait, []⟩
  | .select domain domains =>
    if c.giveUp && s.ctxDone then ⟨s, .skip domain domains, []⟩
    else if s.sem < s.capacity then
      ⟨{ s with sem := s.sem + 1 }, .loop domains, [.query domain]⟩
    else ⟨s, .select domain domains, []⟩
  | .skip domain domains =>
    if s.wg = 0 then ⟨{ s with panicked := true }, .skip domain domains, []⟩
    else ⟨{ s with wg := s.wg - 1 }, .countSkipped domain domains, []⟩
  | .countSkipped _ domains => ⟨{ s with failureCount := s.failureCount + 1 }, .loop domains, []⟩
  | .wait =>
    if s.wg = 0 then ⟨s, .markComplete ⟨s.total, s.successCount, s.failureCount⟩, []⟩
    else ⟨s, .wait, []⟩
  | .markComplete stats => ⟨{ s with completed := s.completed + 1 }, .returned (some stats), []⟩
  | place => ⟨s, place, []⟩

def queryStep : Place → Acted Shared Place
  | .query domain => ⟨s, .count domain (c.outcome = .success), []⟩
  | .count _ true => ⟨{ s with successCount := s.successCount + 1 }, .release, []⟩
  | .count _ false => ⟨{ s with failureCount := s.failureCount + 1 }, .release, []⟩
  | .release => if s.sem = 0 then ⟨s, .release, []⟩ else ⟨{ s with sem := s.sem - 1 }, .done, []⟩
  | .done =>
    if s.wg = 0 then ⟨{ s with panicked := true }, .done, []⟩
    else ⟨{ s with wg := s.wg - 1 }, .ended, []⟩
  | place => ⟨s, place, []⟩

def advance (place : Place) : Acted Shared Place :=
  match place with
  | .makeSem | .loop _ | .select _ _ | .skip _ _ | .countSkipped _ _ | .wait | .markComplete _ =>
    callStep fqdn cfg c s place
  | .query _ | .count _ _ | .release | .done => queryStep c s place
  | .returned _ | .ended => ⟨s, place, []⟩

end

/-- An action of a goroutine, or the end of the context. -/
inductive Event where
  | advance (i : Nat) (c : Choice)
  | expire

section
variable (fqdn : String → String) (cfg : WarmupConfig)

def step (p : System) : Event → System
  | .advance i c => p.act i (advance fqdn cfg c)
  | .expire => { p with shared := { p.shared with ctxDone := true } }

def warmupNSOnStartup : System where
  shared := {
    total := (buildDomains fqdn cfg).length, capacity := 0, sem := 0, wg := 0, successCount := 0
    failureCount := 0, ctxDone := false, completed := 0, panicked := false }
  workers := [.makeSem]

def runFrom (events : List Event) : System :=
  StepRuns.run (step fqdn cfg) (warmupNSOnStartup fqdn cfg) events

end

/-- The domain that the next action of a goroutine counts, and whether as succeeded. -/
def Place.counts : Place → List (String × Bool)
  | .countSkipped domain _ => [(domain, false)]
  | .count domain ok => [(domain, ok)]
  | _ => []

def countsOf (p : System) : Event → List (String × Bool)
  | .advance i _ => (p.workers[i]?).elim [] Place.counts
  | .expire => []

/-- What a run counts, in order. -/
def counted (fqdn : String → String) (cfg : WarmupConfig) (events : List Event) :
    List (String × Bool) :=
  StepRuns.emitted (step fqdn cfg) countsOf (warmupNSOnStartup fqdn cfg) events

/-! ### What an action can do -/

inductive Acts (fqdn : String → String) (cfg : WarmupConfig) (s : Shared) :
    Place → Acted Shared Place → Prop
  | rest {place} (idle : place.counts = []) : Acts fqdn cfg s place ⟨s, place, []⟩
  | recovered (negative : cfg.concurrency < 0) : Acts fqdn cfg s .makeSem ⟨s, .returned none, []⟩
  | made (nonneg : 0 ≤ cfg.concurrency) : Acts fqdn cfg s .makeSem
      ⟨{ s with capacity := cfg.concurrency.toNat }, .loop (buildDomains fqdn cfg), []⟩
  | added {domain domains} : Acts fqdn cfg s (.loop (domain :: domains))
      ⟨{ s with wg := s.wg + 1 }, .select domain domains, []⟩
  | allStarted : Acts fqdn cfg s (.loop []) ⟨s, .wait, []⟩
  | gaveUp {domain domains} : Acts fqdn cfg s (.select domain domains) ⟨s, .skip domain domains, []⟩
  | started {domain domains} (free : s.sem < s.capacity) : Acts fqdn cfg s (.select domain domains)
      ⟨{ s with sem := s.sem + 1 }, .loop domains, [.query domain]⟩
  | skipped {domain domains} (counted : s.wg ≠ 0) : Acts fqdn cfg s (.skip domain domains)
      ⟨{ s with wg := s.wg - 1 }, .countSkipped domain domains, []⟩
  | skippedTwice {domain domains} (nobody : s.wg = 0) : Acts fqdn cfg s (.skip domain domains)
      ⟨{ s with panicked := true }, .skip domain domains, []⟩
  | skipCounted {domain domains} : Acts fqdn cfg s (.countSkipped domain domains)
      ⟨{ s with failureCount := s.failureCount + 1 }, .loop domains, []⟩
  | waited (nobody : s.wg = 0) : Acts fqdn cfg s .wait
      ⟨s, .markComplete ⟨s.total, s.successCount, s.failureCount⟩, []⟩
  | marked {stats} : Acts fqdn cfg s (.markComplete stats)
      ⟨{ s with completed := s.completed + 1 }, .returned (some stats), []⟩
  | queried {domain ok} : Acts fqdn cfg s (.query domain) ⟨s, .count domain ok, []⟩
  | succeeded {domain} : Acts fqdn cfg s (.count domain true)
      ⟨{ s with successCount := s.successCount + 1 }, .release, []⟩
  | failed {domain} : Acts fqdn cfg s (.count domain false)
      ⟨{ s with failureCount := s.failureCount + 1 }, .release, []⟩
  | released (held : s.sem ≠ 0) : Acts fqdn cfg s .release ⟨{ s with sem := s.sem - 1 }, .done, []⟩
  | finished (counted : s.wg ≠ 0) : Acts fqdn cfg s .done ⟨{ s with wg := s.wg - 1 }, .ended, []⟩
  | finishedTwice (nobody : s.wg = 0) : Acts fqdn cfg s .done
      ⟨{ s with panicked := true }, .done, []⟩

theorem advance_acts (fqdn : String → String) (cfg : WarmupConfig) (c : Choice) (s : Shared)
    (place : Place) : Acts fqdn cfg s place (advance fqdn cfg c s place) := by
  cases place with
  | makeSem =>
    simp only [advance, callStep]
    split
    · rename_i negative
      exact .recovered negative
    · rename_i nonneg
      exact .made (Int.not_lt.mp nonneg)
  | loop domains =>
    cases domains with
    | nil => exact .allStarted
    | cons domain domains => exact .added
  | select domain domains =>
    simp only [advance, callStep]
    split
    · exact .gaveUp
    split
    · rename_i free
      exact .started free
    · exact .rest rfl
  | skip domain domains =>
    simp only [advance, callStep]
    split
    · rename_i nobody
      exact .skippedTwice nobody
    · rename_i counted
      exact .skipped counted
  | countSkipped domain domains => exact .skipCounted
  | wait =>
    simp only [advance, callStep]
    split
    · rename_i nobody
      exact .waited nobody
    · exact .rest rfl
  | markComplete stats => exact .marked
  | query domain => exact .queried
  | count domain ok =>
    cases ok with
    | true => exact .succeeded
    | false => exact .failed
  | release =>
    simp only [advance, queryStep]
    split
    · exact .rest rfl
    · rename_i held
      exact .released held
  | done =>
    simp only [advance, queryStep]
    split
    · rename_i nobody
      exact .finishedTwice nobody
    · rename_i counted
      exact .finished counted
  | returned | ended => exact .rest rfl

/-! ### Counters -/

/-- The slot that a goroutine holds. -/
def Place.holds : Place → Nat
  | .query _ | .count _ _ | .release => 1
  | _ => 0

/-- The part of a goroutine in `wg`. -/
def Place.counted : Place → Nat
  | .select _ _ | .skip _ _ | .query _ | .count _ _ | .release | .done => 1
  | _ => 0

/-- The domains that a goroutine has still to count, or to hand over to the one that does. -/
def Place.uncounted (all : List String) : Place → Multiset String
  | .makeSem | .returned none => all
  | .loop domains => domains
  | .select domain domains | .skip domain domains | .countSkipped domain domains =>
    domain ::ₘ domains
  | .query domain | .count domain _ => {domain}
  | _ => 0

/-- The call itself, among the goroutines. -/
def Place.calls : Place → Nat
  | .makeSem | .loop _ | .select _ _ | .skip _ _ | .countSkipped _ _ | .wait | .markComplete _
  | .returned _ => 1
  | _ => 0

def Place.marked : Place → Nat
  | .returned (some _) => 1
  | _ => 0

lemma Place.marked_le_calls (place : Place) : place.marked ≤ place.calls := by
  cases place with
  | returned stats =>
    cases stats with
    | none => exact Nat.zero_le _
    | some => exact Nat.le_refl _
  | _ => exact Nat.zero_le _

section
variable {fqdn : String → String} {cfg : WarmupConfig} {s : Shared} {place : Place}
  {a : Acted Shared Place}

lemma Acts.holds (acts : Acts fqdn cfg s place a) (covered : place.holds ≤ s.sem) :
    a.shared.sem + place.holds = s.sem + a.worker.holds + owned Place.holds a.started := by
  cases acts with
  | started => rfl
  | released held =>
    simp only [Place.holds, owned_nil] at *
    omega
  | _ => rfl

lemma Acts.counted (acts : Acts fqdn cfg s place a) (covered : place.counted ≤ s.wg) :
    a.shared.wg + place.counted = s.wg + a.worker.counted + owned Place.counted a.started := by
  cases acts with
  | started => rfl
  | skipped | finished =>
    simp only [Place.counted, owned_nil] at *
    omega
  | _ => rfl

/-- A domain is counted or passed on. -/
lemma Acts.uncounted (acts : Acts fqdn cfg s place a) :
    (place.counts.map Prod.fst : Multiset String) +
        (a.worker.uncounted (buildDomains fqdn cfg) +
          held (Place.uncounted (buildDomains fqdn cfg)) a.started) =
      place.uncounted (buildDomains fqdn cfg) := by
  cases acts with
  | rest idle => simp [idle]
  | started =>
    simp only [Place.counts, Place.uncounted, List.map_nil, Multiset.coe_nil, zero_add, held_cons,
      held_nil, add_zero]
    rw [add_comm, Multiset.singleton_add]
  | _ => simp [Place.counts, Place.uncounted]

lemma Acts.counters (acts : Acts fqdn cfg s place a) :
    a.shared.successCount = s.successCount + place.counts.countP Prod.snd ∧
      a.shared.failureCount = s.failureCount + place.counts.countP fun one => !one.2 := by
  cases acts with
  | rest idle => simp [idle]
  | _ => exact ⟨rfl, rfl⟩

lemma Acts.calls (acts : Acts fqdn cfg s place a) :
    1 + place.calls = 1 + a.worker.calls + owned Place.calls a.started := by
  cases acts with
  | _ => rfl

lemma Acts.marks (acts : Acts fqdn cfg s place a) :
    a.shared.completed + place.marked =
      s.completed + a.worker.marked + owned Place.marked a.started := by
  cases acts with
  | rest => simp
  | _ => rfl

lemma Acts.total (acts : Acts fqdn cfg s place a) : a.shared.total = s.total := by
  cases acts with
  | _ => rfl

end

/-! ### What holds in every run -/

/-- The size of the channel, once the call has made it or has failed to. -/
def Sized (cfg : WarmupConfig) (s : Shared) : Place → Prop
  | .loop _ | .select _ _ | .skip _ _ | .countSkipped _ _ | .wait | .markComplete _
  | .returned (some _) => 0 ≤ cfg.concurrency ∧ s.capacity = cfg.concurrency.toNat
  | .returned none => cfg.concurrency < 0
  | _ => True

/-- After the wait nobody is counted in the wait group. -/
def Waited (s : Shared) : Place → Prop
  | .markComplete _ | .returned (some _) => s.wg = 0
  | _ => True

/-- The result is what the counters are. -/
def Reported (s : Shared) : Place → Prop
  | .markComplete stats | .returned (some stats) =>
    stats = ⟨s.total, s.successCount, s.failureCount⟩
  | _ => True

/-- A query's goroutine has no result. -/
lemma resultless_of_query {place : Place} (query : place.calls = 0) (s : Shared) :
    Waited s place ∧ Reported s place := by
  cases place with
  | markComplete | returned => cases query
  | _ => exact ⟨trivial, trivial⟩

/-- Nobody has a result as long as somebody is counted in the wait group. -/
lemma resultless_of_active {s : Shared} {place : Place} (waited : Waited s place)
    (active : s.wg ≠ 0) (s' : Shared) : Waited s' place ∧ Reported s' place := by
  cases place with
  | markComplete => exact absurd waited active
  | returned stats =>
    cases stats with
    | none => exact ⟨trivial, trivial⟩
    | some => exact absurd waited active
  | _ => exact ⟨trivial, trivial⟩

structure Accounted (fqdn : String → String) (cfg : WarmupConfig) (p : System) : Prop where
  sem : Balanced Shared.sem Place.holds p
  wg : Balanced Shared.wg Place.counted p
  call : Balanced (fun _ => 1) Place.calls p
  marks : Balanced Shared.completed Place.marked p
  total : p.shared.total = (buildDomains fqdn cfg).length
  within : p.shared.sem ≤ p.shared.capacity
  size : p.shared.capacity ≤ cfg.concurrency.toNat
  noneStarted : cfg.concurrency ≤ 0 → p.shared.successCount = 0
  sound : p.shared.panicked = false
  sized : ∀ t ∈ p.workers, Sized cfg p.shared t
  waited : ∀ t ∈ p.workers, Waited p.shared t
  reported : ∀ t ∈ p.workers, Reported p.shared t

section
variable {fqdn : String → String} {cfg : WarmupConfig} {p : System}

/-- There is one call: whoever else is there is a query's goroutine. -/
lemma Accounted.one_call (accounted : Accounted fqdn cfg p) {t t' : Place} (mem : t ∈ p.workers)
    (mem' : t' ∈ p.workers) (calls : t.calls = 1) : t' = t ∨ t'.calls = 0 := by
  by_cases same : t' = t
  · exact .inl same
  · have two := le_owned_two Place.calls mem mem' (Ne.symm same)
    have one : 1 = owned Place.calls p.workers := accounted.call
    omega

lemma Accounted.others_ended (accounted : Accounted fqdn cfg p) {t t' : Place} (mem : t ∈ p.workers)
    (mem' : t' ∈ p.workers) (calls : t.calls = 1) (nobody : p.shared.wg = 0) :
    t' = t ∨ t' = .ended := by
  refine (accounted.one_call mem mem' calls).imp_right fun other => ?_
  have free := accounted.wg.le mem'
  rw [nobody, Nat.le_zero] at free
  cases t' with
  | ended => rfl
  | query | count | release | done => cases free
  | _ => cases other

lemma Accounted.within_act (accounted : Accounted fqdn cfg p) (i : Nat) (c : Choice) :
    let s := (p.act i (advance fqdn cfg c)).shared
    s.sem ≤ s.capacity ∧ s.capacity ≤ cfg.concurrency.toNat := by
  have within := accounted.within
  have size := accounted.size
  refine act_shared (P := fun s : Shared => s.sem ≤ s.capacity ∧ s.capacity ≤ cfg.concurrency.toNat)
    (fun t _ => ?_) ⟨within, size⟩
  have acts := advance_acts fqdn cfg c p.shared t
  generalize advance fqdn cfg c p.shared t = a at acts ⊢
  cases acts with
  | made => exact ⟨within.trans size, Nat.le_refl _⟩
  | started free => exact ⟨free, size⟩
  | released => exact ⟨(Nat.sub_le _ _).trans within, size⟩
  | _ => exact ⟨within, size⟩

/-- Without a slot no query starts, so none succeeds. -/
lemma Accounted.noneStarted_act (accounted : Accounted fqdn cfg p) (i : Nat) (c : Choice)
    (none_allowed : cfg.concurrency ≤ 0) :
    (p.act i (advance fqdn cfg c)).shared.successCount = 0 := by
  have none_yet := accounted.noneStarted none_allowed
  refine act_shared (P := fun s : Shared => s.successCount = 0) (fun t mem => ?_) none_yet
  have slot := ((accounted.sem.le mem).trans accounted.within).trans accounted.size
  rw [Int.toNat_of_nonpos none_allowed] at slot
  have acts := advance_acts fqdn cfg c p.shared t
  generalize advance fqdn cfg c p.shared t = a at acts ⊢
  cases acts with
  | succeeded => cases slot
  | _ => exact none_yet

lemma Accounted.sound_act (accounted : Accounted fqdn cfg p) (i : Nat) (c : Choice) :
    (p.act i (advance fqdn cfg c)).shared.panicked = false := by
  refine act_shared (P := fun s : Shared => s.panicked = false) (fun t mem => ?_) accounted.sound
  have covered := accounted.wg.le mem
  have acts := advance_acts fqdn cfg c p.shared t
  generalize advance fqdn cfg c p.shared t = a at acts ⊢
  cases acts with
  | skippedTwice nobody | finishedTwice nobody =>
    rw [nobody] at covered
    cases covered
  | _ => exact accounted.sound

lemma Accounted.sized_act (accounted : Accounted fqdn cfg p) (i : Nat) (c : Choice) :
    ∀ t ∈ (p.act i (advance fqdn cfg c)).workers,
      Sized cfg (p.act i (advance fqdn cfg c)).shared t := by
  refine act_relies (fun t _ t' _ sized => ?_) (fun t _ sized => ?_) accounted.sized
  · have acts := advance_acts fqdn cfg c p.shared t
    generalize advance fqdn cfg c p.shared t = a at acts ⊢
    cases acts with
    | made nonneg =>
      cases t' with
      | returned stats =>
        cases stats with
        | none => exact sized
        | some => exact ⟨nonneg, rfl⟩
      | loop | select | skip | countSkipped | wait | markComplete => exact ⟨nonneg, rfl⟩
      | _ => trivial
    | _ => exact sized
  · have acts := advance_acts fqdn cfg c p.shared t
    generalize advance fqdn cfg c p.shared t = a at acts ⊢
    cases acts with
    | rest => exact ⟨sized, by simp⟩
    | made nonneg => exact ⟨⟨nonneg, rfl⟩, by simp⟩
    | started => exact ⟨sized, by simp [Sized]⟩
    | recovered negative => exact ⟨negative, by simp⟩
    | queried | succeeded | failed | released | finished | finishedTwice =>
      exact ⟨trivial, by simp⟩
    | _ => exact ⟨sized, by simp⟩

lemma Accounted.waited_act (accounted : Accounted fqdn cfg p) (i : Nat) (c : Choice) :
    ∀ t ∈ (p.act i (advance fqdn cfg c)).workers,
      Waited (p.act i (advance fqdn cfg c)).shared t := by
  refine act_relies (fun t mem t' mem' waited => ?_) (fun t _ waited => ?_) accounted.waited
  · have acts := advance_acts fqdn cfg c p.shared t
    generalize advance fqdn cfg c p.shared t = a at acts ⊢
    cases acts with
    | added =>
      rcases accounted.one_call mem mem' rfl with rfl | other
      · trivial
      · exact (resultless_of_query other _).1
    | skipped counted | finished counted => exact (resultless_of_active waited counted _).1
    | _ => exact waited
  · have acts := advance_acts fqdn cfg c p.shared t
    generalize advance fqdn cfg c p.shared t = a at acts ⊢
    cases acts with
    | rest => exact ⟨waited, by simp⟩
    | waited nobody => exact ⟨nobody, by simp⟩
    | marked => exact ⟨waited, by simp⟩
    | started => exact ⟨trivial, by simp [Waited]⟩
    | _ => exact ⟨trivial, by simp⟩

/-- Nobody counts a domain any more when the call has its result. -/
lemma Accounted.reported_act (accounted : Accounted fqdn cfg p) (i : Nat) (c : Choice) :
    ∀ t ∈ (p.act i (advance fqdn cfg c)).workers,
      Reported (p.act i (advance fqdn cfg c)).shared t := by
  refine act_relies (fun t mem t' mem' reported => ?_) (fun t _ reported => ?_) accounted.reported
  · have acts := advance_acts fqdn cfg c p.shared t
    have waited := accounted.waited t' mem'
    have covered := accounted.wg.le mem
    generalize advance fqdn cfg c p.shared t = a at acts ⊢
    cases acts with
    | skipCounted =>
      rcases accounted.one_call mem mem' rfl with rfl | other
      · trivial
      · exact (resultless_of_query other _).2
    | succeeded | failed => exact (resultless_of_active waited (Nat.ne_of_gt covered) _).2
    | _ => exact reported
  · have acts := advance_acts fqdn cfg c p.shared t
    generalize advance fqdn cfg c p.shared t = a at acts ⊢
    cases acts with
    | rest => exact ⟨reported, by simp⟩
    | waited => exact ⟨rfl, by simp⟩
    | marked => exact ⟨reported, by simp⟩
    | started => exact ⟨trivial, by simp [Reported]⟩
    | _ => exact ⟨trivial, by simp⟩

lemma Accounted.act (accounted : Accounted fqdn cfg p) (i : Nat) (c : Choice) :
    Accounted fqdn cfg (p.act i (advance fqdn cfg c)) := by
  have acts (t : Place) := advance_acts fqdn cfg c p.shared t
  exact {
    sem := act_balanced (fun t _ => (acts t).holds) accounted.sem
    wg := act_balanced (fun t _ => (acts t).counted) accounted.wg
    call := act_balanced (fun t _ _ => (acts t).calls) accounted.call
    marks := act_balanced (fun t _ _ => (acts t).marks) accounted.marks
    total := act_shared (P := fun s : Shared => s.total = _)
      (fun t _ => (acts t).total.trans accounted.total) accounted.total
    within := (accounted.within_act i c).1
    size := (accounted.within_act i c).2
    noneStarted := accounted.noneStarted_act i c
    sound := accounted.sound_act i c
    sized := accounted.sized_act i c
    waited := accounted.waited_act i c
    reported := accounted.reported_act i c }

lemma step_accounted (p : System) (e : Event) (accounted : Accounted fqdn cfg p) :
    Accounted fqdn cfg (step fqdn cfg p e) := by
  cases e with
  | advance i c => exact accounted.act i c
  | expire => exact { accounted with }

end

lemma warmupNSOnStartup_accounted (fqdn : String → String) (cfg : WarmupConfig) :
    Accounted fqdn cfg (warmupNSOnStartup fqdn cfg) where
  sem := rfl
  wg := rfl
  call := rfl
  marks := rfl
  total := rfl
  within := Nat.le_refl 0
  size := Nat.zero_le _
  noneStarted _ := rfl
  sound := rfl
  sized := by simp [warmupNSOnStartup, Sized]
  waited := by simp [warmupNSOnStartup, Waited]
  reported := by simp [warmupNSOnStartup, Reported]

theorem reachable_accounted (fqdn : String → String) (cfg : WarmupConfig) (events : List Event) :
    Accounted fqdn cfg (runFrom fqdn cfg events) :=
  StepRuns.run_preserves _ step_accounted (warmupNSOnStartup_accounted fqdn cfg) events

/-! ### What a run has counted -/

structure Tallied (fqdn : String → String) (cfg : WarmupConfig) (counted : List (String × Bool))
    (p : System) : Prop where
  domains : (counted.map Prod.fst : Multiset String) +
    held (Place.uncounted (buildDomains fqdn cfg)) p.workers = buildDomains fqdn cfg
  successes : p.shared.successCount = counted.countP Prod.snd
  failures : p.shared.failureCount = counted.countP fun one => !one.2

section
variable {fqdn : String → String} {cfg : WarmupConfig} {p : System}

lemma step_tallied (counted : List (String × Bool)) (p : System) (e : Event)
    (tallied : Tallied fqdn cfg counted p) :
    Tallied fqdn cfg (counted ++ countsOf p e) (step fqdn cfg p e) := by
  cases e with
  | expire =>
    rw [countsOf, List.append_nil]
    exact { tallied with }
  | advance i c =>
    cases at_i : p.workers[i]? with
    | none =>
      rw [countsOf, at_i, Option.elim_none, List.append_nil, step, Pool.act, at_i]
      exact tallied
    | some t =>
      have acts := advance_acts fqdn cfg c p.shared t
      have shared : (step fqdn cfg p (.advance i c)).shared =
          (advance fqdn cfg c p.shared t).shared := by
        rw [step, Pool.act, at_i]
      have passed := act_held (Place.uncounted (buildDomains fqdn cfg)) (advance fqdn cfg c) at_i
      rw [countsOf, at_i, Option.elim_some]
      refine ⟨?_, ?_, ?_⟩
      · rw [← acts.uncounted, ← add_assoc, add_assoc (held _ p.workers)] at passed
        rw [List.map_append, ← Multiset.coe_add, add_assoc,
          add_comm (t.counts.map Prod.fst : Multiset String)]
        rw [← tallied.domains, add_left_cancel_iff]
        exact add_right_cancel passed
      · rw [shared, acts.counters.1, tallied.successes, List.countP_append]
      · rw [shared, acts.counters.2, tallied.failures, List.countP_append]

/-- When the call has returned and the goroutines have ended, nothing is left to count. -/
lemma Tallied.once {counted : List (String × Bool)} (tallied : Tallied fqdn cfg counted p)
    {stats : WarmupStats} (ended : ∀ t ∈ p.workers, t = .returned (some stats) ∨ t = .ended) :
    (counted.map Prod.fst).Perm (buildDomains fqdn cfg) := by
  have nothing : held (Place.uncounted (buildDomains fqdn cfg)) p.workers = 0 := by
    refine held_eq_zero _ fun t mem => ?_
    rcases ended t mem with rfl | rfl
    · rfl
    · rfl
  have domains := tallied.domains
  rw [nothing, add_zero] at domains
  exact Multiset.coe_eq_coe.mp domains

lemma Tallied.all_counted {counted : List (String × Bool)} (tallied : Tallied fqdn cfg counted p)
    (once : (counted.map Prod.fst).Perm (buildDomains fqdn cfg)) :
    p.shared.successCount + p.shared.failureCount = (buildDomains fqdn cfg).length := by
  rw [← once.length_eq, List.length_map, tallied.successes, tallied.failures]
  simpa using (List.length_eq_countP_add_countP (l := counted) Prod.snd).symm

end

theorem reachable_tallied (fqdn : String → String) (cfg : WarmupConfig) (events : List Event) :
    Tallied fqdn cfg (counted fqdn cfg events) (runFrom fqdn cfg events) := by
  have start : Tallied fqdn cfg [] (warmupNSOnStartup fqdn cfg) :=
    ⟨by simp [warmupNSOnStartup, Place.uncounted], rfl, rfl⟩
  exact StepRuns.emitted_invariant _ _ step_tallied start events

/-- Whatever the order of the actions, no more queries run at once than the configuration allows,
and the wait group is never taken below zero. When the call returns a result, the root and each
TLD have been counted exactly once, as succeeded or as failed, and the result gives the number of
each; every goroutine has ended and the warm-up has been reported complete exactly once; without a
slot every domain counts as failed. With a negative concurrency the warm-up is never reported
complete. -/
theorem warmup_counts_every_domain (fqdn : String → String) (cfg : WarmupConfig)
    (events : List Event) :
    let p := runFrom fqdn cfg events
    owned Place.holds p.workers ≤ cfg.concurrency.toNat ∧ p.shared.panicked = false ∧
    (∀ stats, .returned (some stats) ∈ p.workers →
      ((counted fqdn cfg events).map Prod.fst).Perm (buildDomains fqdn cfg) ∧
      stats.succeeded = (counted fqdn cfg events).countP Prod.snd ∧
      stats.failed = ((counted fqdn cfg events).countP fun one => !one.2) ∧
      stats.total = cfg.tlds.length + 1 ∧ stats.succeeded + stats.failed = stats.total ∧
      (cfg.concurrency = 0 → stats.failed = stats.total) ∧
      (∀ t ∈ p.workers, t = .returned (some stats) ∨ t = .ended) ∧ p.shared.completed = 1) ∧
    (cfg.concurrency < 0 → p.shared.completed = 0) := by
  intro p
  have accounted : Accounted fqdn cfg p := reachable_accounted fqdn cfg events
  have tallied : Tallied fqdn cfg (counted fqdn cfg events) p := reachable_tallied fqdn cfg events
  have slots : p.shared.sem = owned Place.holds p.workers := accounted.sem
  have marks : p.shared.completed = owned Place.marked p.workers := accounted.marks
  refine ⟨?_, accounted.sound, ?_, ?_⟩
  · rw [← slots]
    exact accounted.within.trans accounted.size
  · intro stats returned
    have ended (t : Place) (mem : t ∈ p.workers) : t = .returned (some stats) ∨ t = .ended :=
      accounted.others_ended returned mem rfl (accounted.waited _ returned)
    have once := tallied.once ended
    have all := tallied.all_counted once
    have is : stats = ⟨_, _, _⟩ := accounted.reported _ returned
    subst is
    refine ⟨once, tallied.successes, tallied.failures, accounted.total.trans ?_,
      all.trans accounted.total.symm, fun zero => ?_, ended, ?_⟩
    · rw [buildDomains, List.length_cons, List.length_map]
    · have none_succeeded := accounted.noneStarted (Int.le_of_eq zero)
      have total := accounted.total
      dsimp only
      omega
    · have once : owned Place.marked p.workers ≤ owned Place.calls p.workers :=
        owned_mono Place.marked_le_calls _
      have one : 1 = owned Place.calls p.workers := accounted.call
      have some_marked := le_owned Place.marked returned
      have own (stats : WarmupStats) : Place.marked (.returned (some stats)) = 1 := rfl
      rw [own] at some_marked
      omega
  · intro negative
    rw [marks, owned_eq_zero_iff]
    intro t mem
    have sized := accounted.sized t mem
    cases t with
    | returned stats =>
      cases stats with
      | none => rfl
      | some => exact absurd sized.1 (Int.not_le.mpr negative)
    | _ => rfl

/-- The root and one TLD. -/
def withSlots (concurrency : Int) : WarmupConfig := ⟨concurrency, ["com"]⟩

def goes (i n : Nat) (c : Choice) : List Event := List.replicate n (.advance i c)

/-- One slot: the TLD waits for the root to be answered, and its query panics. -/
def rootThenPanic : List Event :=
  goes 0 3 ⟨false, .success⟩ ++ goes 1 3 ⟨false, .success⟩ ++ goes 0 3 ⟨false, .success⟩ ++
    goes 1 1 ⟨false, .success⟩ ++ goes 2 4 ⟨false, .panic⟩ ++ goes 0 2 ⟨false, .success⟩

/-- No slot: the call gives up both domains at the end of its context. -/
def noSlot : List Event := .expire :: goes 0 12 ⟨true, .failure⟩

theorem warmup_counts_every_domain_two :
    (let p := runFrom id (withSlots 1) rootThenPanic
     .returned (some ⟨2, 1, 1⟩) ∈ p.workers ∧
      counted id (withSlots 1) rootThenPanic = [(".", true), ("com", false)] ∧
      ((counted id (withSlots 1) rootThenPanic).map Prod.fst).Perm
        (buildDomains id (withSlots 1)) ∧
      (∀ t ∈ p.workers, t = .returned (some ⟨2, 1, 1⟩) ∨ t = .ended) ∧ p.shared.completed = 1) ∧
    (.returned (some ⟨2, 0, 2⟩) ∈ (runFrom id (withSlots 0) noSlot).workers ∧
      (⟨2, 0, 2⟩ : WarmupStats).failed = (⟨2, 0, 2⟩ : WarmupStats).total) ∧
    (runFrom id (withSlots (-1)) rootThenPanic).shared.completed = 0 := by
  have one : .returned (some ⟨2, 1, 1⟩) ∈ (runFrom id (withSlots 1) rootThenPanic).workers := by
    decide +kernel
  have zero : .returned (some ⟨2, 0, 2⟩) ∈ (runFrom id (withSlots 0) noSlot).workers := by
    decide +kernel
  obtain ⟨_, _, some_slots, _⟩ := warmup_counts_every_domain id (withSlots 1) rootThenPanic
  obtain ⟨_, _, no_slots, _⟩ := warmup_counts_every_domain id (withSlots 0) noSlot
  obtain ⟨_, _, _, negative⟩ := warmup_counts_every_domain id (withSlots (-1)) rootThenPanic
  obtain ⟨each, _, _, _, _, _, ended, once⟩ := some_slots _ one
  obtain ⟨_, _, _, _, _, all_failed, _⟩ := no_slots _ zero
  exact ⟨⟨one, rfl, each, ended, once⟩, ⟨zero, all_failed rfl⟩, negative (by decide)⟩

/-! ### The end of the warm-up -/

/-- No action changes anything, whatever a query brings. -/
def Stuck (fqdn : String → String) (cfg : WarmupConfig) (p : System) : Prop :=
  ∀ i c, step fqdn cfg p (.advance i c) = p

section
variable {fqdn : String → String} {cfg : WarmupConfig} {p : System}

lemma Stuck.stays (stuck : Stuck fqdn cfg p) {t : Place} (mem : t ∈ p.workers) (c : Choice) :
    (advance fqdn cfg c p.shared t).worker = t := by
  obtain ⟨i, at_i⟩ := List.mem_iff_getElem?.mp mem
  exact worker_of_act_eq_self at_i (stuck i c)

def giveUp : Choice := ⟨true, .failure⟩

/-- Every goroutine that was started has ended. -/
lemma Accounted.stuck_query (accounted : Accounted fqdn cfg p) (stuck : Stuck fqdn cfg p)
    {t : Place} (mem : t ∈ p.workers) (query : t.calls = 0) : t = .ended := by
  have stays := stuck.stays mem giveUp
  have slot := accounted.sem.le mem
  have member := accounted.wg.le mem
  cases t with
  | ended => rfl
  | query => cases stays
  | count domain ok =>
    cases ok with
    | true => cases stays
    | false => cases stays
  | release =>
    have held : p.shared.sem ≠ 0 := Nat.ne_of_gt slot
    simp [advance, queryStep, held] at stays
  | done =>
    have counted : p.shared.wg ≠ 0 := Nat.ne_of_gt member
    simp [advance, queryStep, counted] at stays
  | _ => cases query

lemma Accounted.stuck_free (accounted : Accounted fqdn cfg p) (stuck : Stuck fqdn cfg p) :
    p.shared.sem = 0 := by
  refine accounted.sem.trans ((owned_eq_zero_iff _).mpr fun t mem => ?_)
  cases t with
  | query | count | release => cases accounted.stuck_query stuck mem rfl
  | _ => rfl

lemma Accounted.stuck_wait (accounted : Accounted fqdn cfg p) (stuck : Stuck fqdn cfg p)
    (waits : .wait ∈ p.workers) : p.shared.wg = 0 := by
  refine accounted.wg.trans ((owned_eq_zero_iff _).mpr fun t mem => ?_)
  rcases accounted.one_call waits mem rfl with rfl | other
  · rfl
  · rw [accounted.stuck_query stuck mem other]
    rfl

/-- The call does not stop before it returns, unless it waits for a slot that there is not. -/
lemma Accounted.stuck_call (accounted : Accounted fqdn cfg p) (stuck : Stuck fqdn cfg p)
    (goes_on : 0 < cfg.concurrency ∨ p.shared.ctxDone = true) :
    ∃ stats, .returned stats ∈ p.workers := by
  have one : 1 = owned Place.calls p.workers := accounted.call
  have some_call : owned Place.calls p.workers ≠ 0 := one ▸ Nat.one_ne_zero
  obtain ⟨t, mem, calls⟩ := exists_owner Place.calls some_call
  have stays := stuck.stays mem giveUp
  cases t with
  | returned stats => exact ⟨stats, mem⟩
  | makeSem =>
    by_cases negative : cfg.concurrency < 0
    · simp [advance, callStep, negative] at stays
    · simp [advance, callStep, negative] at stays
  | loop domains =>
    cases domains with
    | nil => cases stays
    | cons => cases stays
  | select =>
    have free : p.shared.sem < p.shared.capacity ∨ p.shared.ctxDone = true := by
      refine goes_on.imp_left fun positive => ?_
      rw [accounted.stuck_free stuck, (accounted.sized _ mem).2]
      omega
    cases expired : p.shared.ctxDone with
    | true => simp [advance, callStep, giveUp, expired] at stays
    | false =>
      have slot : p.shared.sem < p.shared.capacity := by simpa [expired] using free
      simp [advance, callStep, giveUp, expired, slot] at stays
  | skip =>
    have counted : p.shared.wg ≠ 0 := Nat.ne_of_gt (accounted.wg.le mem)
    simp [advance, callStep, counted] at stays
  | countSkipped => cases stays
  | wait => simp [advance, callStep, accounted.stuck_wait stuck mem] at stays
  | markComplete => cases stays
  | _ => exact absurd rfl calls

/-- The actions that a goroutine can still take, with those of the goroutines it will start. -/
def actionsLeft (n : Nat) : Place → Nat
  | .makeSem => 6 * n + 4
  | .loop domains => 6 * domains.length + 3
  | .select _ domains => 6 * domains.length + 8
  | .skip _ domains => 6 * domains.length + 7
  | .countSkipped _ domains => 6 * domains.length + 6
  | .wait => 2
  | .markComplete _ => 1
  | .query _ => 4
  | .count _ _ => 3
  | .release => 2
  | .done => 1
  | .returned _ | .ended => 0

lemma Acts.spends {s : Shared} {place : Place} {a : Acted Shared Place}
    (acts : Acts fqdn cfg s place a) (covered : place.counted ≤ s.wg) :
    a = ⟨s, place, []⟩ ∨
      (!a.shared.ctxDone).toNat + actionsLeft (buildDomains fqdn cfg).length a.worker +
          owned (actionsLeft (buildDomains fqdn cfg).length) a.started <
        (!s.ctxDone).toNat + actionsLeft (buildDomains fqdn cfg).length place := by
  cases acts with
  | rest => exact .inl rfl
  | skippedTwice nobody | finishedTwice nobody =>
    rw [nobody] at covered
    cases covered
  | _ =>
    right
    simp [actionsLeft]
    try omega

/-- All that can still happen to the warm-up. -/
def eventsLeft (fqdn : String → String) (cfg : WarmupConfig) (p : System) : Nat :=
  (!p.shared.ctxDone).toNat + owned (actionsLeft (buildDomains fqdn cfg).length) p.workers

theorem step_lowers (p : System) (e : Event) (accounted : Accounted fqdn cfg p) :
    step fqdn cfg p e = p ∨ eventsLeft fqdn cfg (step fqdn cfg p e) < eventsLeft fqdn cfg p := by
  cases e with
  | advance i c =>
    exact act_spends (fun s : Shared => (!s.ctxDone).toNat) fun t mem =>
      (advance_acts fqdn cfg c p.shared t).spends (accounted.wg.le mem)
  | expire =>
    cases expired : p.shared.ctxDone with
    | true =>
      left
      obtain ⟨s, workers⟩ := p
      obtain ⟨_⟩ := s
      cases expired
      rfl
    | false =>
      right
      simp [eventsLeft, step, expired]

end

/-- At most `6 n + 5` events of a run change anything, where `n` is the number of domains. When
nothing moves any more, and there is a slot to wait for or the context is done, the call has
returned, without a result exactly if the concurrency is negative. -/
theorem warmup_ends (fqdn : String → String) (cfg : WarmupConfig) (events : List Event) :
    let p := runFrom fqdn cfg events
    (StepRuns.Along (step fqdn cfg) (fun p e => step fqdn cfg p e ≠ p)
        (warmupNSOnStartup fqdn cfg) events → events.length ≤ 6 * (cfg.tlds.length + 1) + 5) ∧
    (Stuck fqdn cfg p → 0 < cfg.concurrency ∨ p.shared.ctxDone = true →
      ∃ stats, .returned stats ∈ p.workers ∧ (stats = none ↔ cfg.concurrency < 0)) := by
  intro p
  refine ⟨fun moves => ?_, fun stuck goes_on => ?_⟩
  · have bounded := StepRuns.length_le_of_moves (step fqdn cfg) (P := Accounted fqdn cfg)
      (μ := eventsLeft fqdn cfg) step_accounted step_lowers (warmupNSOnStartup_accounted fqdn cfg)
      moves
    have budget :
        eventsLeft fqdn cfg (warmupNSOnStartup fqdn cfg) = 6 * (cfg.tlds.length + 1) + 5 := by
      simp only [eventsLeft, warmupNSOnStartup, owned_cons, owned_nil, actionsLeft, buildDomains,
        List.length_cons, List.length_map, Bool.not_false, Bool.toNat_true]
      omega
    omega
  · have accounted : Accounted fqdn cfg p := reachable_accounted fqdn cfg events
    obtain ⟨stats, returned⟩ := accounted.stuck_call stuck goes_on
    have sized := accounted.sized _ returned
    refine ⟨stats, returned, ?_⟩
    cases stats with
    | none => exact iff_of_true rfl sized
    | some => exact iff_of_false (by simp) (Int.not_lt.mpr sized.1)

/-- The first event of that run, and its end. -/
theorem warmup_ends_two :
    (goes 0 1 giveUp).length ≤ 6 * ((withSlots 1).tlds.length + 1) + 5 ∧
      ∃ stats, .returned stats ∈ (runFrom id (withSlots 1) rootThenPanic).workers ∧
        (stats = none ↔ (withSlots 1).concurrency < 0) := by
  have last : runFrom id (withSlots 1) rootThenPanic =
      ⟨⟨2, 1, 0, 0, 1, 1, false, 1, false⟩, [.returned (some ⟨2, 1, 1⟩), .ended, .ended]⟩ := rfl
  have stuck : Stuck id (withSlots 1) (runFrom id (withSlots 1) rootThenPanic) := by
    rw [last]
    rintro (_ | _ | _ | i) c
    all_goals rfl
  have moves : StepRuns.Along (step id (withSlots 1)) (fun p e => step id (withSlots 1) p e ≠ p)
      (warmupNSOnStartup id (withSlots 1)) (goes 0 1 giveUp) := by
    refine ⟨fun same => ?_, trivial⟩
    have capacity := congrArg (fun p : System => p.shared.capacity) same
    cases capacity
  exact ⟨(warmup_ends id (withSlots 1) (goes 0 1 giveUp)).1 moves,
    (warmup_ends id (withSlots 1) rootThenPanic).2 stuck (.inl (by decide))⟩

end Warmup
