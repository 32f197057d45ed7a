import Rec53.UpstreamQuery
import Rec53.WorkerPool

/-!
# Concurrent resolution of name-server names

`resolveNSIPsConcurrently` of `server/state_query_upstream.go`: a goroutine for each name, a
semaphore of `workerLimit` slots, a result channel with room for one result of each, a goroutine
that waits for all of them and closes the channel, and the loop that collects the results and
cancels the context after the first. The events are the actions of these goroutines in any
order. A goroutine that is blocked stays where it is, and a panic is noted in the state.

The context of the caller is never cancelled here, so the two calls of `cancel` are the only
cancellations. `wg.Add` and the start of the goroutine are one action, since nobody waits for
the group before all are started. The cache updates in the background are left out.
-/

namespace FanOut

open DnsMessage UpstreamQuery WorkerPool

def maxConcurrentNSQueries : Nat := 5

structure NsResult where
  nsName : String
  ips : List String
  deriving DecidableEq

/-- Where the goroutine of a name stands. -/
inductive Place where
  -- the select on the semaphore
  | acquire
  -- in `Change`
  | resolve
  -- the select on the result channel
  | send (ips : List String)
  -- the deferred receive on the semaphore and the deferred `wg.Done`
  | release
  | done
  | ended
  deriving DecidableEq

/-- `outcome` is what `Change` returned, the message or an error; no action reads it. -/
structure Worker where
  nsName : String
  place : Place
  outcome : Option (Option Msg)

/-- Where the caller stands. -/
inductive Main where
  | launch (nsNames : List String)
  | startCloser
  | collect
  | cancelRest
  -- the deferred `cancel`
  | leave
  | returned (ips : List String)
  deriving DecidableEq

/-- The goroutine that closes the result channel. -/
inductive Closer where
  | absent
  | waiting
  | closing
  | ended
  deriving DecidableEq

structure Shared where
  main : Main
  closer : Closer
  workerLimit : Nat
  semaphore : Nat
  capacity : Nat
  resultChan : List NsResult
  closed : Bool
  wg : Nat
  cancelled : Bool
  allResults : List NsResult
  panicked : Bool

abbrev System := Pool Shared Worker

/-- What the goroutine does after `Change`. -/
def afterChange : Option Msg → Place
  | none => .release
  | some result => if answerAddresses result = [] then .release else .send (answerAddresses result)

/-- The next action of a worker; `outcome` is what `Change` returns if it returns now. -/
def advance (outcome : Option Msg) (s : Shared) (t : Worker) : Acted Shared Worker :=
  match t.place with
  | .acquire =>
    if s.semaphore < s.workerLimit then
      ⟨{ s with semaphore := s.semaphore + 1 }, { t with place := .resolve }, []⟩
    else ⟨s, t, []⟩
  | .resolve => ⟨s, { t with place := afterChange outcome, outcome := some outcome }, []⟩
  | .send ips =>
    if s.closed then ⟨{ s with panicked := true }, t, []⟩
    else if s.resultChan.length < s.capacity then
      ⟨{ s with resultChan := s.resultChan ++ [⟨t.nsName, ips⟩] }, { t with place := .release }, []⟩
    else ⟨s, t, []⟩
  | .release =>
    if 0 < s.semaphore then
      ⟨{ s with semaphore := s.semaphore - 1 }, { t with place := .done }, []⟩
    else ⟨s, t, []⟩
  | .done =>
    if s.wg = 0 then ⟨{ s with panicked := true }, t, []⟩
    else ⟨{ s with wg := s.wg - 1 }, { t with place := .ended }, []⟩
  | .ended => ⟨s, t, []⟩

/-- The other case of the two selects: the context is done. -/
def giveUp (s : Shared) (t : Worker) : Acted Shared Worker :=
  match t.place with
  | .acquire => if s.cancelled then ⟨s, { t with place := .done }, []⟩ else ⟨s, t, []⟩
  | .send _ => if s.cancelled then ⟨s, { t with place := .release }, []⟩ else ⟨s, t, []⟩
  | _ => ⟨s, t, []⟩

def firstIPs (allResults : List NsResult) : List String :=
  match allResults with
  | [] => []
  | first :: _ => first.ips

/-- One round of the loop over the result channel. -/
def collect (s : Shared) : Shared :=
  match s.resultChan with
  | result :: rest =>
    let allResults := s.allResults ++ [result]
    { s with
      resultChan := rest
      allResults := allResults
      main := if allResults.length = 1 then .cancelRest else .collect }
  | [] => if s.closed then { s with main := .leave } else s

def mainStep (p : System) : System :=
  let s := p.shared
  match s.main with
  | .launch (nsName :: rest) =>
    Pool.start { p with shared := { s with wg := s.wg + 1, main := .launch rest } }
      ⟨nsName, .acquire, none⟩
  | .launch [] => { p with shared := { s with main := .startCloser } }
  | .startCloser => { p with shared := { s with closer := .waiting, main := .collect } }
  | .collect => { p with shared := collect s }
  | .cancelRest => { p with shared := { s with cancelled := true, main := .collect } }
  | .leave =>
    { p with shared := { s with cancelled := true, main := .returned (firstIPs s.allResults) } }
  | .returned _ => p

def closerStep (s : Shared) : Shared :=
  match s.closer with
  | .waiting => if s.wg = 0 then { s with closer := .closing } else s
  | .closing =>
    if s.closed then { s with panicked := true } else { s with closed := true, closer := .ended }
  | .absent | .ended => s

inductive Event where
  | main
  | closer
  | advance (i : Nat) (outcome : Option Msg)
  | giveUp (i : Nat)

def step (p : System) : Event → System
  | .main => mainStep p
  | .closer => { p with shared := closerStep p.shared }
  | .advance i outcome => p.act i (advance outcome)
  | .giveUp i => p.act i giveUp

/-- `degraded` is the answer of `shouldDegradeFanout`. -/
def workerLimit (nsNames : List String) (degraded : Bool) : Nat :=
  if 1 < nsNames.length && degraded then 1 else maxConcurrentNSQueries

/-- The state in which `resolveNSIPsConcurrently` has made its channels, or has returned. -/
def resolveNSIPsConcurrently (nsNames : List String) (depth : Nat) (degraded : Bool) : System :=
  let main :=
    if nsNames = [] then Main.returned []
    else if 0 < depth then Main.returned []
    else Main.launch nsNames
  ⟨⟨main, .absent, workerLimit nsNames degraded, 0, nsNames.length, [], false, 0, false, [], false⟩,
    []⟩

/-! ### What an action can do -/

inductive Worked (s : Shared) (t : Worker) : Shared → Worker → Prop
  | granted (place : t.place = .acquire) (free : s.semaphore < s.workerLimit) :
      Worked s t { s with semaphore := s.semaphore + 1 } { t with place := .resolve }
  | dismissed (place : t.place = .acquire) (cancelled : s.cancelled = true) :
      Worked s t s { t with place := .done }
  | resolved (place : t.place = .resolve) (outcome : Option Msg) :
      Worked s t s { t with place := afterChange outcome, outcome := some outcome }
  | sent {ips : List String} (place : t.place = .send ips) (is_open : s.closed = false)
      (room : s.resultChan.length < s.capacity) :
      Worked s t { s with resultChan := s.resultChan ++ [⟨t.nsName, ips⟩] }
        { t with place := .release }
  | sentLate {ips : List String} (place : t.place = .send ips) (late : s.closed = true) :
      Worked s t { s with panicked := true } t
  | dropped {ips : List String} (place : t.place = .send ips) (cancelled : s.cancelled = true) :
      Worked s t s { t with place := .release }
  | released (place : t.place = .release) (taken : 0 < s.semaphore) :
      Worked s t { s with semaphore := s.semaphore - 1 } { t with place := .done }
  | ended (place : t.place = .done) (waited : s.wg ≠ 0) :
      Worked s t { s with wg := s.wg - 1 } { t with place := .ended }
  | endedTwice (place : t.place = .done) (nobody : s.wg = 0) :
      Worked s t { s with panicked := true } t

inductive Moved (p : System) : System → Prop
  | stays : Moved p p
  | launched {nsName : String} {rest : List String}
      (main : p.shared.main = .launch (nsName :: rest)) :
      Moved p (Pool.start
        { p with shared := { p.shared with wg := p.shared.wg + 1, main := .launch rest } }
        ⟨nsName, .acquire, none⟩)
  | allLaunched (main : p.shared.main = .launch []) :
      Moved p { p with shared := { p.shared with main := .startCloser } }
  | closerStarted (main : p.shared.main = .startCloser) :
      Moved p { p with shared := { p.shared with closer := .waiting, main := .collect } }
  | received {result : NsResult} {rest : List NsResult} (main : p.shared.main = .collect)
      (chan : p.shared.resultChan = result :: rest) (next : Main)
      (is : next = if p.shared.allResults = [] then .cancelRest else .collect) :
      Moved p { p with shared := { p.shared with
        resultChan := rest, allResults := p.shared.allResults ++ [result], main := next } }
  | drained (main : p.shared.main = .collect) (chan : p.shared.resultChan = [])
      (closed : p.shared.closed = true) :
      Moved p { p with shared := { p.shared with main := .leave } }
  | cancelled (main : p.shared.main = .cancelRest) :
      Moved p { p with shared := { p.shared with cancelled := true, main := .collect } }
  | left (main : p.shared.main = .leave) :
      Moved p { p with shared := { p.shared with
        cancelled := true, main := .returned (firstIPs p.shared.allResults) } }
  | waited (closer : p.shared.closer = .waiting) (nobody : p.shared.wg = 0) :
      Moved p { p with shared := { p.shared with closer := .closing } }
  | closed (closer : p.shared.closer = .closing) (is_open : p.shared.closed = false) :
      Moved p { p with shared := { p.shared with closed := true, closer := .ended } }
  | closedTwice (closer : p.shared.closer = .closing) (closed : p.shared.closed = true) :
      Moved p { p with shared := { p.shared with panicked := true } }
  | worked {i : Nat} {t t' : Worker} {s : Shared} (at_i : p.workers[i]? = some t)
      (work : Worked p.shared t s t') : Moved p ⟨s, p.workers.set i t'⟩

lemma advance_worked (outcome : Option Msg) (s : Shared) (t : Worker) :
    advance outcome s t = ⟨s, t, []⟩ ∨ ∃ s' t', advance outcome s t = ⟨s', t', []⟩ ∧
      Worked s t s' t' := by
  rw [advance]
  cases place : t.place with
  | acquire =>
    dsimp only
    split
    · rename_i free
      exact .inr ⟨_, _, rfl, .granted place free⟩
    · exact .inl rfl
  | resolve => exact .inr ⟨_, _, rfl, .resolved place outcome⟩
  | send ips =>
    dsimp only
    split
    · rename_i late
      exact .inr ⟨_, _, rfl, .sentLate place late⟩
    split
    · rename_i is_open room
      exact .inr ⟨_, _, rfl, .sent place (Bool.eq_false_iff.mpr is_open) room⟩
    · exact .inl rfl
  | release =>
    dsimp only
    split
    · rename_i taken
      exact .inr ⟨_, _, rfl, .released place taken⟩
    · exact .inl rfl
  | done =>
    dsimp only
    split
    · rename_i nobody
      exact .inr ⟨_, _, rfl, .endedTwice place nobody⟩
    · rename_i waited
      exact .inr ⟨_, _, rfl, .ended place waited⟩
  | ended => exact .inl rfl

lemma giveUp_worked (s : Shared) (t : Worker) :
    giveUp s t = ⟨s, t, []⟩ ∨ ∃ s' t', giveUp s t = ⟨s', t', []⟩ ∧ Worked s t s' t' := by
  rw [giveUp]
  cases place : t.place with
  | acquire =>
    dsimp only
    split
    · rename_i cancelled
      exact .inr ⟨_, _, rfl, .dismissed place cancelled⟩
    · exact .inl rfl
  | send ips =>
    dsimp only
    split
    · rename_i cancelled
      exact .inr ⟨_, _, rfl, .dropped place cancelled⟩
    · exact .inl rfl
  | _ => exact .inl rfl

lemma act_moved (p : System) (i : Nat) {f : Shared → Worker → Acted Shared Worker}
    (works : ∀ s t, f s t = ⟨s, t, []⟩ ∨ ∃ s' t', f s t = ⟨s', t', []⟩ ∧ Worked s t s' t') :
    Moved p (p.act i f) := by
  rw [Pool.act]
  split
  · exact .stays
  · rename_i t at_i
    rcases works p.shared t with same | ⟨s', t', is, work⟩
    · rw [same]
      dsimp only
      obtain ⟨within, rfl⟩ := List.getElem?_eq_some_iff.mp at_i
      rw [List.append_nil, List.set_getElem_self]
      exact .stays
    · rw [is]
      dsimp only
      rw [List.append_nil]
      exact .worked at_i work

lemma mainStep_moved (p : System) : Moved p (mainStep p) := by
  rw [mainStep]
  cases main : p.shared.main with
  | launch nsNames =>
    cases nsNames with
    | nil => exact .allLaunched main
    | cons nsName rest => exact .launched main
  | startCloser => exact .closerStarted main
  | collect =>
    dsimp only
    rw [collect]
    split
    · rename_i result rest chan
      refine .received main chan _ ?_
      cases p.shared.allResults with
      | nil => rfl
      | cons first others => simp
    · rename_i chan
      split
      · rename_i closed
        exact .drained main chan closed
      · exact .stays
  | cancelRest => exact .cancelled main
  | leave => exact .left main
  | returned ips => exact .stays

lemma closerStep_moved (p : System) : Moved p { p with shared := closerStep p.shared } := by
  rw [closerStep]
  split
  · rename_i closer
    split
    · rename_i nobody
      exact .waited closer nobody
    · exact .stays
  · rename_i closer
    split
    · rename_i closed
      exact .closedTwice closer closed
    · rename_i is_open
      exact .closed closer (Bool.eq_false_iff.mpr is_open)
  · exact .stays
  · exact .stays

theorem step_moved (p : System) (e : Event) : Moved p (step p e) := by
  cases e with
  | main => exact mainStep_moved p
  | closer => exact closerStep_moved p
  | advance i outcome => exact act_moved p i (advance_worked outcome)
  | giveUp i => exact act_moved p i giveUp_worked

/-! ### The semaphore, the group and the room in the channel -/

namespace Place

/-- Slots of the semaphore that are the worker's. -/
def slots : Place → Nat
  | .resolve | .send _ | .release => 1
  | .acquire | .done | .ended => 0

def alive : Place → Nat
  | .ended => 0
  | _ => 1

/-- The worker may still send a result. -/
def unsent : Place → Nat
  | .acquire | .resolve | .send _ => 1
  | .release | .done | .ended => 0

/-- A nested resolution is in progress. -/
def resolving : Place → Nat
  | .resolve => 1
  | _ => 0

end Place

def count (weight : Place → Nat) (p : System) : Nat := owned (fun t => weight t.place) p.workers

def Main.pending : Main → List String
  | .launch nsNames => nsNames
  | _ => []

structure Counted (limit : Nat) (p : System) : Prop where
  limit : p.shared.workerLimit = limit
  slots : p.shared.semaphore = count Place.slots p
  within : p.shared.semaphore ≤ p.shared.workerLimit
  group : p.shared.wg = count Place.alive p
  room : p.shared.resultChan.length + count Place.unsent p + p.shared.main.pending.length ≤
    p.shared.capacity

/-- After a result the caller cancels the rest or goes on. -/
lemma next_cases {results : List NsResult} {next : Main}
    (is : next = if results = [] then .cancelRest else .collect) :
    next = .cancelRest ∨ next = .collect := by
  rw [is]
  split
  · exact .inl rfl
  · exact .inr rfl

lemma afterChange_cases (outcome : Option Msg) :
    afterChange outcome = .release ∨ ∃ m, outcome = some m ∧ answerAddresses m ≠ [] ∧
      afterChange outcome = .send (answerAddresses m) := by
  cases outcome with
  | none => exact .inl rfl
  | some m =>
    rw [afterChange]
    split
    · exact .inl rfl
    · rename_i some_address
      exact .inr ⟨m, rfl, some_address, rfl⟩

/-- The place after `Change` has the slot still, and may be one that sends. -/
lemma afterChange_weights (outcome : Option Msg) :
    (afterChange outcome).slots = 1 ∧ (afterChange outcome).alive = 1 ∧
      (afterChange outcome).unsent ≤ 1 := by
  rcases afterChange_cases outcome with is | ⟨m, _, _, is⟩
  · rw [is]
    decide
  · rw [is]
    exact ⟨rfl, rfl, Nat.le_refl _⟩

section Work

variable {s s' : Shared} {t t' : Worker} (work : Worked s t s' t')
include work

/-- What the worker takes and gives back. -/
lemma worked_counts :
    s'.semaphore + t.place.slots = s.semaphore + t'.place.slots ∧
      s'.wg + t.place.alive = s.wg + t'.place.alive ∧
      s'.resultChan.length + t'.place.unsent ≤ s.resultChan.length + t.place.unsent := by
  cases work with
  | granted place free =>
    rw [place]
    exact ⟨rfl, rfl, Nat.le_refl _⟩
  | dismissed place cancelled =>
    rw [place]
    exact ⟨rfl, rfl, Nat.le_succ _⟩
  | resolved place outcome =>
    obtain ⟨slots, alive, unsent⟩ := afterChange_weights outcome
    rw [place, slots, alive]
    exact ⟨rfl, rfl, Nat.add_le_add_left unsent _⟩
  | sent place is_open room =>
    rw [place, List.length_append]
    exact ⟨rfl, rfl, Nat.le_refl _⟩
  | sentLate place late => exact ⟨rfl, rfl, Nat.le_refl _⟩
  | dropped place cancelled =>
    rw [place]
    exact ⟨rfl, rfl, Nat.le_succ _⟩
  | released place taken =>
    rw [place]
    refine ⟨?_, rfl, Nat.le_refl _⟩
    change s.semaphore - 1 + 1 = s.semaphore
    omega
  | ended place waited =>
    rw [place]
    refine ⟨rfl, ?_, Nat.le_refl _⟩
    change s.wg - 1 + 1 = s.wg
    omega
  | endedTwice place nobody => exact ⟨rfl, rfl, Nat.le_refl _⟩

lemma worked_within (within : s.semaphore ≤ s.workerLimit) : s'.semaphore ≤ s'.workerLimit := by
  cases work with
  | granted place free => exact free
  | released place taken => exact Nat.le_trans (Nat.sub_le _ _) within
  | _ => exact within

/-- A worker leaves the caller, the closer and what was received alone. -/
lemma worked_frame : s'.main = s.main ∧ s'.closer = s.closer ∧ s'.workerLimit = s.workerLimit ∧
    s'.capacity = s.capacity ∧ s'.closed = s.closed ∧ s'.cancelled = s.cancelled ∧
    s'.allResults = s.allResults := by
  cases work <;> exact ⟨rfl, rfl, rfl, rfl, rfl, rfl, rfl⟩

lemma worked_alive : t.place.alive = 1 := by
  cases work with
  | sent place is_open room =>
    rw [place]
    rfl
  | granted place _ | dismissed place _ | resolved place _ | sentLate place _ | dropped place _
  | released place _ | ended place _ | endedTwice place _ =>
    rw [place]
    rfl

end Work

lemma count_set {p : System} {i : Nat} {t : Worker} (at_i : p.workers[i]? = some t)
    (weight : Place → Nat) (s : Shared) (t' : Worker) :
    count weight ⟨s, p.workers.set i t'⟩ + weight t.place = count weight p + weight t'.place :=
  owned_set (fun t : Worker => weight t.place) at_i t'

lemma count_start (weight : Place → Nat) (p : System) (t : Worker) :
    count weight (p.start t) = count weight p + weight t.place := by
  rw [count, Pool.start, owned_append]
  rfl

lemma counted_moved {limit : Nat} {p p' : System} (counted : Counted limit p) (moved : Moved p p') :
    Counted limit p' := by
  obtain ⟨is_limit, slots, within, group, room⟩ := counted
  cases moved with
  | launched main =>
    rename_i nsName rest
    rw [main] at room
    refine ⟨is_limit, ?_, within, ?_, ?_⟩
    · rw [count_start]
      exact slots
    · rw [count_start]
      exact congrArg (· + 1) group
    · rw [count_start]
      change p.shared.resultChan.length + count Place.unsent p + (rest.length + 1) ≤ _ at room
      change p.shared.resultChan.length + (count Place.unsent p + 1) + rest.length ≤
        p.shared.capacity
      omega
  | allLaunched main | closerStarted main | drained main _ _ | cancelled main | left main =>
    rw [main] at room
    exact ⟨is_limit, slots, within, group, room⟩
  | received main chan next is =>
    rename_i result rest
    have nothing : next.pending = [] := by
      rcases next_cases is with rfl | rfl <;> rfl
    rw [main, chan] at room
    refine ⟨is_limit, slots, within, group, ?_⟩
    dsimp only
    rw [nothing]
    change rest.length + 1 + count Place.unsent p + 0 ≤ _ at room
    change rest.length + count Place.unsent p + 0 ≤ p.shared.capacity
    omega
  | worked at_i work =>
    rename_i i t t' s
    obtain ⟨paid, counted, sent⟩ := worked_counts work
    obtain ⟨main, -, same_limit, capacity, -⟩ := worked_frame work
    have slots_set := count_set at_i Place.slots s t'
    have alive_set := count_set at_i Place.alive s t'
    have unsent_set := count_set at_i Place.unsent s t'
    refine ⟨same_limit.trans is_limit, ?_, worked_within work within, ?_, ?_⟩
    · dsimp only
      omega
    · dsimp only
      omega
    · dsimp only
      rw [main, capacity]
      omega
  | _ => exact ⟨is_limit, slots, within, group, room⟩

/-- A worker that acts is one the group waits for. -/
lemma worked_busy {limit : Nat} {p : System} (counted : Counted limit p) {i : Nat} {t t' : Worker}
    {s : Shared} (at_i : p.workers[i]? = some t) (work : Worked p.shared t s t') :
    p.shared.wg ≠ 0 := by
  have one := le_owned (fun t : Worker => t.place.alive) (List.mem_of_getElem? at_i)
  rw [worked_alive work] at one
  rw [counted.group, count]
  omega

/-! ### The closer and the caller -/

def Main.launching : Main → Bool
  | .launch _ | .startCloser => true
  | .collect | .cancelRest | .leave | .returned _ => false

def Main.finished : Main → Bool
  | .leave | .returned _ => true
  | .launch _ | .startCloser | .collect | .cancelRest => false

structure Phased (p : System) : Prop where
  quiet : p.shared.panicked = false
  launching : p.shared.main.launching = true → p.shared.closer = .absent
  started : p.shared.closer = .absent →
    p.shared.main.launching = true ∨ p.shared.main.finished = true
  waited : p.shared.closer = .closing ∨ p.shared.closer = .ended → p.shared.wg = 0
  closed : p.shared.closed = true ↔ p.shared.closer = .ended
  finished : p.shared.main.finished = true → p.shared.resultChan = [] ∧ p.shared.wg = 0

/-- While a worker is alive the channel is open and the caller is there. -/
lemma Phased.busy {p : System} (phased : Phased p) (busy : p.shared.wg ≠ 0) :
    p.shared.closed = false ∧ p.shared.main.finished = false ∧
      ¬ (p.shared.closer = .closing ∨ p.shared.closer = .ended) := by
  have waiting : ¬ (p.shared.closer = .closing ∨ p.shared.closer = .ended) :=
    fun over_ => busy (phased.waited over_)
  refine ⟨?_, ?_, waiting⟩
  · rw [Bool.eq_false_iff]
    exact fun closed => waiting (.inr (phased.closed.mp closed))
  · rw [Bool.eq_false_iff]
    exact fun finished => busy (phased.finished finished).2

/-- While the caller collects there is a closer. -/
lemma Phased.closer_started {p : System} (phased : Phased p)
    (launched : p.shared.main.launching = false) (unfinished : p.shared.main.finished = false) :
    p.shared.closer ≠ .absent := by
  intro absent
  have phase := phased.started absent
  rw [launched, unfinished] at phase
  simp at phase

/-- A closer is started when all the workers are. -/
lemma Phased.not_launching {p : System} (phased : Phased p) (started : p.shared.closer ≠ .absent) :
    ¬ p.shared.main.launching = true :=
  fun launching => started (phased.launching launching)

lemma worked_phased {p : System} (phased : Phased p) {i : Nat} {t t' : Worker} {s : Shared}
    (busy : p.shared.wg ≠ 0) (work : Worked p.shared t s t') :
    Phased ⟨s, p.workers.set i t'⟩ := by
  obtain ⟨is_open, unfinished, waiting⟩ := phased.busy busy
  obtain ⟨main, closer, -, -, closed, -⟩ := worked_frame work
  have quiet : s.panicked = false := by
    cases work with
    | sentLate place late =>
      rw [is_open] at late
      cases late
    | endedTwice place nobody => exact absurd nobody busy
    | _ => exact phased.quiet
  refine ⟨quiet, ?_, ?_, ?_, ?_, ?_⟩
  · dsimp only
    rw [main, closer]
    exact phased.launching
  · dsimp only
    rw [main, closer]
    exact phased.started
  · dsimp only
    rw [closer]
    exact fun over_ => absurd over_ waiting
  · dsimp only
    rw [closed, closer]
    exact phased.closed
  · dsimp only
    rw [main, unfinished]
    exact (nomatch ·)

lemma phased_moved {limit : Nat} {p p' : System} (counted : Counted limit p) (phased : Phased p)
    (moved : Moved p p') : Phased p' := by
  cases moved with
  | stays => exact phased
  | launched main =>
    have absent := phased.launching (by rw [main]; rfl)
    refine ⟨phased.quiet, fun _ => absent, fun _ => .inl rfl, ?_, phased.closed, (nomatch ·)⟩
    intro over_
    change p.shared.closer = .closing ∨ p.shared.closer = .ended at over_
    rw [absent] at over_
    simp at over_
  | allLaunched main =>
    have absent := phased.launching (by rw [main]; rfl)
    exact ⟨phased.quiet, fun _ => absent, fun _ => .inl rfl, phased.waited, phased.closed,
      (nomatch ·)⟩
  | closerStarted main =>
    have absent := phased.launching (by rw [main]; rfl)
    have is_open := phased.closed
    rw [absent] at is_open
    refine ⟨phased.quiet, (nomatch ·), (nomatch ·), ?_, ?_, (nomatch ·)⟩
    · rintro (no | no) <;> cases no
    · exact is_open.trans (by simp)
  | received main chan next is =>
    have started := phased.closer_started (by rw [main]; rfl) (by rw [main]; rfl)
    rcases next_cases is with rfl | rfl <;>
      exact ⟨phased.quiet, (nomatch ·), fun absent => absurd absent started, phased.waited,
        phased.closed, (nomatch ·)⟩
  | drained main chan closed =>
    have nobody := phased.waited (.inr (phased.closed.mp closed))
    exact ⟨phased.quiet, (nomatch ·), fun _ => .inr rfl, phased.waited, phased.closed,
      fun _ => ⟨chan, nobody⟩⟩
  | cancelled main =>
    have started := phased.closer_started (by rw [main]; rfl) (by rw [main]; rfl)
    exact ⟨phased.quiet, (nomatch ·), fun absent => absurd absent started, phased.waited,
      phased.closed, (nomatch ·)⟩
  | left main =>
    have finished := phased.finished (by rw [main]; rfl)
    exact ⟨phased.quiet, (nomatch ·), fun _ => .inr rfl, phased.waited, phased.closed,
      fun _ => finished⟩
  | waited closer nobody =>
    have launched := phased.not_launching (by rw [closer]; exact (nomatch ·))
    refine ⟨phased.quiet, fun launching => absurd launching launched, (nomatch ·),
      fun _ => nobody, ?_, phased.finished⟩
    have is_open := phased.closed
    rw [closer] at is_open
    exact is_open.trans (by simp)
  | closed closer is_open =>
    have nobody := phased.waited (.inl closer)
    have launched := phased.not_launching (by rw [closer]; exact (nomatch ·))
    exact ⟨phased.quiet, fun launching => absurd launching launched, (nomatch ·),
      fun _ => nobody, Iff.intro (fun _ => rfl) (fun _ => rfl), phased.finished⟩
  | closedTwice closer closed =>
    rw [phased.closed.mp closed] at closer
    cases closer
  | worked at_i work => exact worked_phased phased (worked_busy counted at_i work) work

/-! ### The results -/

/-- The nested resolution of the worker ended with these addresses. -/
def Produced (t : Worker) (ips : List String) : Prop :=
  ips ≠ [] ∧ ∃ m, t.outcome = some (some m) ∧ answerAddresses m = ips

structure Delivered (nsNames : List String) (p : System) : Prop where
  named : p.workers.map Worker.nsName ++ p.shared.main.pending = nsNames
  fresh : ∀ t ∈ p.workers, t.place = .acquire ∨ t.place = .resolve → t.outcome = none
  sending : ∀ t ∈ p.workers, ∀ ips, t.place = .send ips → Produced t ips
  genuine : ∀ r ∈ p.shared.allResults ++ p.shared.resultChan,
    ∃ t ∈ p.workers, t.nsName = r.nsName ∧ Produced t r.ips
  unlost : ∀ t ∈ p.workers, ∀ ips, Produced t ips → t.place = .send ips ∨
    ⟨t.nsName, ips⟩ ∈ p.shared.allResults ++ p.shared.resultChan ∨ p.shared.allResults ≠ []
  cancelled : p.shared.cancelled = true → p.shared.allResults ≠ [] ∨ p.shared.main.finished = true
  cancelling : p.shared.main = .cancelRest → p.shared.allResults ≠ []
  value : ∀ ips, p.shared.main = .returned ips → ips = firstIPs p.shared.allResults

/-- Until the caller is about to return only a result makes it cancel. -/
lemma Delivered.some_result {nsNames : List String} {p : System} (delivered : Delivered nsNames p)
    (unfinished : p.shared.main.finished = false) (cancelled : p.shared.cancelled = true) :
    p.shared.allResults ≠ [] := by
  rcases delivered.cancelled cancelled with some_result | finished
  · exact some_result
  · rw [unfinished] at finished
    cases finished

section Results

variable {s s' : Shared} {t t' : Worker}

lemma worked_name (work : Worked s t s' t') : t'.nsName = t.nsName := by
  cases work <;> rfl

/-- The outcome is written once. -/
lemma worked_produced (work : Worked s t s' t')
    (fresh : t.place = .acquire ∨ t.place = .resolve → t.outcome = none) {ips : List String}
    (produced : Produced t ips) : Produced t' ips := by
  cases work with
  | resolved place outcome =>
    obtain ⟨_, m, is, _⟩ := produced
    rw [fresh (.inr place)] at is
    cases is
  | _ => exact produced

lemma worked_fresh (work : Worked s t s' t')
    (fresh : t.place = .acquire ∨ t.place = .resolve → t.outcome = none) :
    t'.place = .acquire ∨ t'.place = .resolve → t'.outcome = none := by
  cases work with
  | granted place free => exact fun _ => fresh (.inl place)
  | resolved place outcome =>
    rcases afterChange_cases outcome with is | ⟨m, _, _, is⟩ <;> rw [is] <;> simp
  | sentLate place late => exact fresh
  | endedTwice place nobody => exact fresh
  | _ => rintro (no | no) <;> cases no

lemma worked_sending (work : Worked s t s' t')
    (sending : ∀ ips, t.place = .send ips → Produced t ips) :
    ∀ ips, t'.place = .send ips → Produced t' ips := by
  cases work with
  | resolved place outcome =>
    intro ips is
    rcases afterChange_cases outcome with released | ⟨m, rfl, some_address, sends⟩
    · cases released.symm.trans is
    · cases sends.symm.trans is
      exact ⟨some_address, m, rfl, rfl⟩
  | sentLate place late => exact sending
  | endedTwice place nobody => exact sending
  | _ =>
    intro ips no
    cases no

/-- A worker adds its own result or none. -/
lemma worked_results (work : Worked s t s' t') :
    ∀ r ∈ s'.allResults ++ s'.resultChan, r ∈ s.allResults ++ s.resultChan ∨
      ∃ ips, t.place = .send ips ∧ r = ⟨t.nsName, ips⟩ := by
  cases work with
  | sent place is_open room =>
    intro r listed
    dsimp only at listed
    rw [← List.append_assoc] at listed
    rcases List.mem_append.mp listed with old | new
    · exact .inl old
    · exact .inr ⟨_, place, List.mem_singleton.mp new⟩
  | _ => exact fun r listed => .inl listed

lemma worked_keeps (work : Worked s t s' t') {r : NsResult}
    (listed : r ∈ s.allResults ++ s.resultChan) : r ∈ s'.allResults ++ s'.resultChan := by
  cases work with
  | sent place is_open room =>
    dsimp only
    rw [← List.append_assoc]
    exact List.mem_append_left _ listed
  | _ => exact listed

lemma worked_unlost (work : Worked s t s' t')
    (cancelled : s.cancelled = true → s.allResults ≠ []) {ips : List String}
    (unlost : Produced t ips → t.place = .send ips ∨
      ⟨t.nsName, ips⟩ ∈ s.allResults ++ s.resultChan ∨ s.allResults ≠ [])
    (produced : Produced t' ips) : t'.place = .send ips ∨
      ⟨t'.nsName, ips⟩ ∈ s'.allResults ++ s'.resultChan ∨ s'.allResults ≠ [] := by
  cases work with
  | resolved place outcome =>
    obtain ⟨some_address, m, is, rfl⟩ := produced
    obtain rfl : outcome = some m := Option.some.inj is
    exact .inl (if_neg some_address)
  | sent place is_open room =>
    refine .inr ?_
    rcases unlost produced with sends | delivered | more
    · cases place.symm.trans sends
      exact .inl (List.mem_append_right _ (List.mem_append_right _ List.mem_cons_self))
    · exact .inl (worked_keeps (.sent place is_open room) delivered)
    · exact .inr more
  | dropped place is_cancelled => exact .inr (.inr (cancelled is_cancelled))
  | sentLate place late => exact unlost produced
  | endedTwice place nobody => exact unlost produced
  | granted place _ | dismissed place _ | released place _ | ended place _ =>
    rcases unlost produced with sends | delivered
    · cases place.symm.trans sends
    · exact .inr delivered

end Results

/-- After an action of worker `i` every worker is still there, with what it produced. -/
lemma exists_mem_set {p : System} {i : Nat} {t t' : Worker} {s : Shared}
    (at_i : p.workers[i]? = some t) (work : Worked p.shared t s t')
    (fresh : ∀ t ∈ p.workers, t.place = .acquire ∨ t.place = .resolve → t.outcome = none)
    {t₀ : Worker} (mem : t₀ ∈ p.workers) {ips : List String} (produced : Produced t₀ ips) :
    ∃ t₁ ∈ p.workers.set i t', t₁.nsName = t₀.nsName ∧ Produced t₁ ips := by
  obtain ⟨within, rfl⟩ := List.getElem?_eq_some_iff.mp at_i
  obtain ⟨j, there, rfl⟩ := List.mem_iff_getElem.mp mem
  by_cases same : i = j
  · subst same
    exact ⟨t', List.mem_set within t', worked_name work,
      worked_produced work (fresh _ (List.getElem_mem within)) produced⟩
  · refine ⟨p.workers[j], ?_, rfl, produced⟩
    rw [List.mem_iff_getElem]
    exact ⟨j, by rw [List.length_set]; exact there, List.getElem_set_of_ne same _ _⟩

lemma worked_delivered {nsNames : List String} {p : System} (delivered : Delivered nsNames p)
    (unfinished : p.shared.main.finished = false) {i : Nat} {t t' : Worker} {s : Shared}
    (at_i : p.workers[i]? = some t) (work : Worked p.shared t s t') :
    Delivered nsNames ⟨s, p.workers.set i t'⟩ := by
  have mem : t ∈ p.workers := List.mem_of_getElem? at_i
  obtain ⟨main, -, -, -, -, is_cancelled, received⟩ := worked_frame work
  constructor
  · dsimp only
    obtain ⟨within, rfl⟩ := List.getElem?_eq_some_iff.mp at_i
    rw [main, List.map_set, worked_name work, ← List.getElem_map Worker.nsName,
      List.set_getElem_self]
    · exact delivered.named
    · rw [List.length_map]
      exact within
  · intro t₀ mem₀
    rcases List.mem_or_eq_of_mem_set mem₀ with old | rfl
    · exact delivered.fresh t₀ old
    · exact worked_fresh work (delivered.fresh t mem)
  · intro t₀ mem₀
    rcases List.mem_or_eq_of_mem_set mem₀ with old | rfl
    · exact delivered.sending t₀ old
    · exact worked_sending work (delivered.sending t mem)
  · intro r listed
    rcases worked_results work r listed with old | ⟨ips, place, rfl⟩
    · obtain ⟨t₀, mem₀, name, produced⟩ := delivered.genuine r old
      obtain ⟨t₁, mem₁, same, kept⟩ := exists_mem_set at_i work delivered.fresh mem₀ produced
      exact ⟨t₁, mem₁, same.trans name, kept⟩
    · exact exists_mem_set at_i work delivered.fresh mem (delivered.sending t mem ips place)
  · intro t₀ mem₀ ips produced
    rcases List.mem_or_eq_of_mem_set mem₀ with old | rfl
    · dsimp only
      rw [received]
      rcases delivered.unlost t₀ old ips produced with sends | there | more
      · exact .inl sends
      · rw [← received]
        exact .inr (.inl (worked_keeps work there))
      · exact .inr (.inr more)
    · exact worked_unlost work (delivered.some_result unfinished) (delivered.unlost t mem ips)
        produced
  · dsimp only
    rw [main, is_cancelled, received]
    exact delivered.cancelled
  · dsimp only
    rw [main, received]
    exact delivered.cancelling
  · dsimp only
    rw [main, received]
    exact delivered.value

lemma Delivered.congr {nsNames : List String} {p p' : System} (delivered : Delivered nsNames p)
    (workers : p'.workers = p.workers) (pending : p'.shared.main.pending = p.shared.main.pending)
    (results : p'.shared.allResults ++ p'.shared.resultChan =
      p.shared.allResults ++ p.shared.resultChan)
    (received : p.shared.allResults ≠ [] → p'.shared.allResults ≠ [])
    (cancelled : p'.shared.cancelled = true →
      p'.shared.allResults ≠ [] ∨ p'.shared.main.finished = true)
    (cancelling : p'.shared.main = .cancelRest → p'.shared.allResults ≠ [])
    (value : ∀ ips, p'.shared.main = .returned ips → ips = firstIPs p'.shared.allResults) :
    Delivered nsNames p' := by
  refine ⟨?_, ?_, ?_, ?_, ?_, cancelled, cancelling, value⟩
  · rw [workers, pending]
    exact delivered.named
  · rw [workers]
    exact delivered.fresh
  · rw [workers]
    exact delivered.sending
  · rw [workers, results]
    exact delivered.genuine
  · rw [workers, results]
    intro t mem ips produced
    rcases delivered.unlost t mem ips produced with sends | there | more
    · exact .inl sends
    · exact .inr (.inl there)
    · exact .inr (.inr (received more))

/-- A new worker has produced nothing yet. -/
lemma launched_delivered {nsName : String} {rest nsNames : List String} {p : System}
    (delivered : Delivered nsNames p) (main : p.shared.main = .launch (nsName :: rest)) :
    Delivered nsNames (Pool.start
      { p with shared := { p.shared with wg := p.shared.wg + 1, main := .launch rest } }
      ⟨nsName, .acquire, none⟩) := by
  have named := delivered.named
  rw [main] at named
  have among : ∀ t ∈ p.workers ++ [⟨nsName, .acquire, none⟩], t ∈ p.workers ∨
      t = ⟨nsName, .acquire, none⟩ := by
    intro t mem
    rcases List.mem_append.mp mem with old | new
    · exact .inl old
    · exact .inr (List.mem_singleton.mp new)
  refine ⟨?_, ?_, ?_, ?_, ?_, ?_, (nomatch ·), fun _ => (nomatch ·)⟩
  · change (p.workers ++ [_]).map Worker.nsName ++ rest = nsNames
    rw [List.map_append, List.append_assoc]
    exact named
  · intro t mem
    rcases among t mem with old | rfl
    · exact delivered.fresh t old
    · exact fun _ => rfl
  · intro t mem
    rcases among t mem with old | rfl
    · exact delivered.sending t old
    · intro ips no
      cases no
  · intro r listed
    obtain ⟨t, mem, is⟩ := delivered.genuine r listed
    exact ⟨t, List.mem_append_left _ mem, is⟩
  · intro t mem ips produced
    rcases among t mem with old | rfl
    · exact delivered.unlost t old ips produced
    · obtain ⟨_, m, no, _⟩ := produced
      cases no
  · exact fun cancelled => .inl (delivered.some_result (by rw [main]; rfl) cancelled)

/-- A result that is received moves from the channel to the list. -/
lemma received_delivered {nsNames : List String} {p : System} {result : NsResult}
    {rest : List NsResult} (delivered : Delivered nsNames p) (main : p.shared.main = .collect)
    (chan : p.shared.resultChan = result :: rest) {next : Main}
    (collecting : next = .cancelRest ∨ next = .collect) :
    Delivered nsNames { p with shared := { p.shared with
      resultChan := rest, allResults := p.shared.allResults ++ [result], main := next } } := by
  have some_result : p.shared.allResults ++ [result] ≠ [] := by simp
  have pending : next.pending = [] := by
    rcases collecting with rfl | rfl <;> rfl
  refine delivered.congr rfl ?_ ?_ (fun _ => some_result) (fun _ => .inl some_result)
    (fun _ => some_result) ?_
  · rw [main]
    exact pending
  · rw [chan, List.append_assoc]
    rfl
  · intro ips returned
    rcases collecting with rfl | rfl <;> cases returned

lemma delivered_moved {limit : Nat} {nsNames : List String} {p p' : System}
    (counted : Counted limit p) (phased : Phased p) (delivered : Delivered nsNames p)
    (moved : Moved p p') : Delivered nsNames p' := by
  cases moved with
  | stays => exact delivered
  | launched main => exact launched_delivered delivered main
  | allLaunched main | closerStarted main =>
    have some_result := delivered.some_result (by rw [main]; rfl)
    exact delivered.congr rfl (by rw [main]; rfl) rfl id (fun is => .inl (some_result is))
      (nomatch ·) fun _ => (nomatch ·)
  | received main chan next is => exact received_delivered delivered main chan (next_cases is)
  | drained main chan closed =>
    exact delivered.congr rfl (by rw [main]; rfl) rfl id (fun _ => .inr rfl) (nomatch ·)
      fun _ => (nomatch ·)
  | cancelled main =>
    have some_result := delivered.cancelling main
    exact delivered.congr rfl (by rw [main]; rfl) rfl id (fun _ => .inl some_result) (nomatch ·)
      fun _ => (nomatch ·)
  | left main =>
    refine delivered.congr rfl (by rw [main]; rfl) rfl id (fun _ => .inr rfl) (nomatch ·) ?_
    intro ips returned
    exact (Main.returned.inj returned).symm
  | worked at_i work =>
    obtain ⟨-, unfinished, -⟩ := phased.busy (worked_busy counted at_i work)
    exact worked_delivered delivered unfinished at_i work
  | _ =>
    exact delivered.congr rfl rfl rfl id delivered.cancelled delivered.cancelling delivered.value

/-! ### Every run -/

structure Sound (nsNames : List String) (limit : Nat) (p : System) : Prop where
  counted : Counted limit p
  phased : Phased p
  delivered : Delivered nsNames p

theorem step_sound {nsNames : List String} {limit : Nat} (p : System) (e : Event)
    (sound : Sound nsNames limit p) : Sound nsNames limit (step p e) where
  counted := counted_moved sound.counted (step_moved p e)
  phased := phased_moved sound.counted sound.phased (step_moved p e)
  delivered := delivered_moved sound.counted sound.phased sound.delivered (step_moved p e)

/-- Before the first action nothing is there but the caller. -/
lemma idle_sound {nsNames : List String} (main : Main) (named : main.pending = nsNames)
    (phase : main.launching = true ∨ main.finished = true)
    (value : ∀ ips, main = .returned ips → ips = []) (limit : Nat) :
    Sound nsNames limit
      ⟨⟨main, .absent, limit, 0, nsNames.length, [], false, 0, false, [], false⟩, []⟩ where
  counted := ⟨rfl, rfl, Nat.zero_le _, rfl, by
    rw [named]
    exact Nat.le_of_eq (Nat.zero_add _)⟩
  phased := by
    refine ⟨rfl, fun _ => rfl, fun _ => phase, ?_, ?_, fun _ => ⟨rfl, rfl⟩⟩
    · rintro (no | no) <;> cases no
    · simp
  delivered := by
    refine ⟨named, ?_, ?_, ?_, ?_, (nomatch ·), ?_, value⟩
    · exact fun t mem => (nomatch mem)
    · exact fun t mem => (nomatch mem)
    · exact fun r mem => (nomatch mem)
    · exact fun t mem => (nomatch mem)
    · intro is
      change main = .cancelRest at is
      rw [is] at phase
      rcases phase with no | no <;> cases no

lemma start_sound (nsNames : List String) (degraded : Bool) :
    Sound nsNames (workerLimit nsNames degraded)
      (resolveNSIPsConcurrently nsNames 0 degraded) := by
  by_cases empty : nsNames = []
  · rw [resolveNSIPsConcurrently, if_pos empty]
    exact idle_sound (.returned []) empty.symm (.inr rfl)
      (fun _ is => (Main.returned.inj is).symm) _
  · rw [resolveNSIPsConcurrently, if_neg empty, if_neg (Nat.lt_irrefl 0)]
    exact idle_sound (.launch nsNames) rfl (.inl rfl) (fun _ => (nomatch ·)) _

/-! ### Every run ends -/

def Place.rank : Place → Nat
  | .acquire => 7
  | .resolve => 6
  | .send _ => 5
  | .release => 2
  | .done => 1
  | .ended => 0

def Main.rank : Main → Nat
  | .launch nsNames => 5 + 8 * nsNames.length
  | .startCloser => 4
  | .cancelRest => 3
  | .collect => 2
  | .leave => 1
  | .returned _ => 0

def Closer.rank : Closer → Nat
  | .absent => 3
  | .waiting => 2
  | .closing => 1
  | .ended => 0

/-- A bound on the actions that are left. A result in the channel is still to be received, and
the first one to be followed by a `cancel`. -/
def actionsLeft (p : System) : Nat :=
  count Place.rank p + p.shared.main.rank + p.shared.closer.rank + 2 * p.shared.resultChan.length

lemma worked_lowers {s s' : Shared} {t t' : Worker} (work : Worked s t s' t')
    (is_open : s.closed = false) (busy : s.wg ≠ 0) :
    t'.place.rank + 2 * s'.resultChan.length < t.place.rank + 2 * s.resultChan.length := by
  cases work with
  | granted place _ | dismissed place _ | dropped place _ | released place _ | ended place _ =>
    rw [place]
    exact Nat.add_lt_add_right (by simp [Place.rank]) _
  | resolved place outcome =>
    rw [place]
    refine Nat.add_lt_add_right ?_ _
    rcases afterChange_cases outcome with is | ⟨m, _, _, is⟩ <;> rw [is] <;> simp [Place.rank]
  | sent place _ room =>
    rw [place, List.length_append]
    change 2 + 2 * (s.resultChan.length + 1) < 5 + 2 * s.resultChan.length
    omega
  | sentLate place late =>
    rw [is_open] at late
    cases late
  | endedTwice place nobody => exact absurd nobody busy

/-- The caller or the closer has moved on. -/
lemma lowers_of_rank {p : System} {s : Shared} (chan : s.resultChan = p.shared.resultChan)
    (rank : s.main.rank + s.closer.rank < p.shared.main.rank + p.shared.closer.rank) :
    actionsLeft { p with shared := s } < actionsLeft p := by
  rw [actionsLeft, actionsLeft, chan]
  change count Place.rank p + s.main.rank + s.closer.rank + _ < _
  omega

/-- Every action that changes anything leaves fewer to do. -/
theorem moved_lowers {nsNames : List String} {limit : Nat} {p p' : System}
    (sound : Sound nsNames limit p) (moved : Moved p p') :
    p' = p ∨ actionsLeft p' < actionsLeft p := by
  cases moved with
  | stays => exact .inl rfl
  | launched main =>
    rename_i nsName rest
    refine .inr ?_
    rw [actionsLeft, actionsLeft, count_start, main]
    change count Place.rank p + 7 + (5 + 8 * rest.length) + p.shared.closer.rank +
        2 * p.shared.resultChan.length <
      count Place.rank p + (5 + 8 * (rest.length + 1)) + p.shared.closer.rank +
        2 * p.shared.resultChan.length
    omega
  | received main chan next is =>
    rename_i result rest
    refine .inr ?_
    have small : next.rank ≤ 3 := by
      rcases next_cases is with rfl | rfl <;> decide
    rw [actionsLeft, actionsLeft, main, chan]
    change count Place.rank p + next.rank + p.shared.closer.rank + 2 * rest.length <
      count Place.rank p + 2 + p.shared.closer.rank + 2 * (rest.length + 1)
    omega
  | closerStarted main =>
    have absent := sound.phased.launching (by rw [main]; rfl)
    refine .inr (lowers_of_rank rfl ?_)
    rw [main, absent]
    simp [Main.rank, Closer.rank]
  | allLaunched main | drained main _ _ | cancelled main | left main =>
    refine .inr (lowers_of_rank rfl ?_)
    rw [main]
    exact Nat.add_lt_add_right (by simp [Main.rank]) _
  | waited closer _ | closed closer _ =>
    refine .inr (lowers_of_rank rfl ?_)
    rw [closer]
    exact Nat.add_lt_add_left (by simp [Closer.rank]) _
  | closedTwice closer closed =>
    rw [sound.phased.closed.mp closed] at closer
    cases closer
  | worked at_i work =>
    rename_i i t t' s
    refine .inr ?_
    have busy := worked_busy sound.counted at_i work
    have lower := worked_lowers work (sound.phased.busy busy).1 busy
    have rank_set := count_set at_i Place.rank s t'
    obtain ⟨main, closer, -⟩ := worked_frame work
    rw [actionsLeft, actionsLeft]
    dsimp only
    rw [main, closer]
    omega

/-! ### Nobody waits for nothing -/

section Stuck

variable {nsNames : List String} {limit : Nat} {p : System}

/-- The caller is blocked on an open channel that is empty, or has returned. -/
lemma stuck_main (stuck : mainStep p = p) : (∃ ips, p.shared.main = .returned ips) ∨
    (p.shared.main = .collect ∧ p.shared.resultChan = [] ∧ p.shared.closed = false) := by
  have same := congrArg (fun p : System => p.shared.main) stuck
  rw [mainStep] at same
  cases main : p.shared.main with
  | launch nsNames =>
    rw [main] at same
    cases nsNames with
    | nil => cases same
    | cons nsName rest => exact absurd (congrArg List.length (Main.launch.inj same)) (by simp)
  | collect =>
    refine .inr ⟨rfl, ?_⟩
    rw [mainStep, main] at stuck
    have waits : collect p.shared = p.shared := congrArg Pool.shared stuck
    rw [collect] at waits
    split at waits
    · have longer := congrArg (fun s : Shared => s.allResults.length) waits
      simp at longer
    · rename_i chan
      refine ⟨chan, ?_⟩
      rw [Bool.eq_false_iff]
      intro closed
      rw [if_pos closed] at waits
      have leaves := congrArg Shared.main waits
      rw [main] at leaves
      cases leaves
  | returned ips => exact .inl ⟨ips, rfl⟩
  | _ =>
    rw [main] at same
    cases same

lemma stuck_closer (quiet : p.shared.panicked = false) (stuck : closerStep p.shared = p.shared) :
    p.shared.closer = .absent ∨ p.shared.closer = .ended ∨
      (p.shared.closer = .waiting ∧ p.shared.wg ≠ 0) := by
  rw [closerStep] at stuck
  split at stuck
  · rename_i closer
    refine .inr (.inr ⟨closer, ?_⟩)
    intro nobody
    rw [if_pos nobody] at stuck
    have moves := congrArg Shared.closer stuck
    rw [closer] at moves
    cases moves
  · rename_i closer
    split at stuck
    · have panics := congrArg Shared.panicked stuck
      rw [quiet] at panics
      cases panics
    · have moves := congrArg Shared.closer stuck
      rw [closer] at moves
      cases moves
  · rename_i closer
    exact .inl closer
  · rename_i closer
    exact .inr (.inl closer)

/-- A worker that cannot act has ended or waits for a slot. -/
lemma stuck_worker (sound : Sound nsNames limit p)
    (stuck : ∀ i outcome, p.act i (advance outcome) = p) {t : Worker} (mem : t ∈ p.workers) :
    t.place = .ended ∨ (t.place = .acquire ∧ limit ≤ p.shared.semaphore) := by
  obtain ⟨i, at_i⟩ := List.mem_iff_getElem?.mp mem
  have moves := congrArg Worker.place (worker_of_act_eq_self at_i (stuck i none))
  have mine (weight : Place → Nat) := le_owned (fun t : Worker => weight t.place) mem
  rw [advance] at moves
  cases place : t.place with
  | acquire =>
    refine .inr ⟨rfl, ?_⟩
    by_contra free
    rw [place, if_pos (by rw [sound.counted.limit]; exact Nat.lt_of_not_le free)] at moves
    cases moves
  | resolve =>
    rw [place] at moves
    cases moves
  | send ips =>
    have alive := mine Place.alive
    have unsent := mine Place.unsent
    rw [place] at alive unsent moves
    dsimp only at moves
    have busy : p.shared.wg ≠ 0 := by
      rw [sound.counted.group]
      exact Nat.ne_of_gt alive
    have room : p.shared.resultChan.length < p.shared.capacity := by
      have fits := sound.counted.room
      change 1 ≤ count Place.unsent p at unsent
      omega
    rw [(sound.phased.busy busy).1, if_neg Bool.false_ne_true, if_pos room] at moves
    cases moves
  | release =>
    have slots := mine Place.slots
    rw [place] at slots moves
    dsimp only at moves
    rw [if_pos (by rw [sound.counted.slots]; exact slots)] at moves
    cases moves
  | done =>
    have alive := mine Place.alive
    rw [place] at alive moves
    dsimp only at moves
    rw [if_neg (by rw [sound.counted.group]; exact Nat.ne_of_gt alive)] at moves
    cases moves
  | ended => exact .inl rfl

/-- If nobody can act, the caller has returned. -/
theorem stuck_returned (sound : Sound nsNames limit p) (some_slot : 0 < limit)
    (stuck : ∀ e, step p e = p) : ∃ ips, p.shared.main = .returned ips := by
  have workers : ∀ t ∈ p.workers, t.place = .ended ∨
      (t.place = .acquire ∧ limit ≤ p.shared.semaphore) :=
    fun t mem => stuck_worker sound (fun i outcome => stuck (.advance i outcome)) mem
  have unheld : p.shared.semaphore = 0 := by
    rw [sound.counted.slots, count, owned_eq_zero_iff]
    intro t mem
    rcases workers t mem with place | ⟨place, _⟩ <;> rw [place] <;> rfl
  have nobody : p.shared.wg = 0 := by
    rw [sound.counted.group, count, owned_eq_zero_iff]
    intro t mem
    rcases workers t mem with place | ⟨_, full⟩
    · rw [place]
      rfl
    · omega
  rcases stuck_main (stuck .main) with returned | ⟨main, chan, is_open⟩
  · exact returned
  · exfalso
    have waits : closerStep p.shared = p.shared := congrArg Pool.shared (stuck .closer)
    rcases stuck_closer sound.phased.quiet waits with absent | ended | ⟨_, busy⟩
    · exact sound.phased.closer_started (by rw [main]; rfl) (by rw [main]; rfl) absent
    · rw [sound.phased.closed.mpr ended] at is_open
      cases is_open
    · exact busy nobody

end Stuck

/-! ### The whole call -/

lemma workerLimit_pos (nsNames : List String) (degraded : Bool) :
    0 < workerLimit nsNames degraded := by
  rw [workerLimit]
  split
  · decide
  · decide

lemma run_sound (nsNames : List String) (degraded : Bool) (events : List Event) :
    Sound nsNames (workerLimit nsNames degraded)
      (StepRuns.run step (resolveNSIPsConcurrently nsNames 0 degraded) events) :=
  StepRuns.run_preserves step (fun p e => step_sound p e) (start_sound nsNames degraded) events

lemma actionsLeft_start (nsNames : List String) (degraded : Bool) :
    actionsLeft (resolveNSIPsConcurrently nsNames 0 degraded) ≤ 8 * nsNames.length + 8 := by
  rw [resolveNSIPsConcurrently]
  split
  · exact Nat.le_trans (by decide : 3 ≤ 8) (Nat.le_add_left _ _)
  · change 0 + (5 + 8 * nsNames.length) + 3 + 0 ≤ _
    omega

lemma ended_of_nobody {limit : Nat} {p : System} (counted : Counted limit p)
    (nobody : p.shared.wg = 0) : ∀ t ∈ p.workers, t.place = .ended := by
  rw [counted.group, count, owned_eq_zero_iff] at nobody
  intro t mem
  have dead := nobody t mem
  cases place : t.place with
  | ended => rfl
  | _ =>
    rw [place] at dead
    cases dead

/-- The slots bound the resolutions in progress. -/
lemma resolving_le_slots (p : System) : count Place.resolving p ≤ count Place.slots p := by
  refine owned_mono ?_ p.workers
  intro t
  cases t.place <;> simp [Place.resolving, Place.slots]

/-- What the caller returns. -/
lemma returned_genuine {nsNames : List String} {limit : Nat} {p : System}
    (sound : Sound nsNames limit p) {ips : List String} (main : p.shared.main = .returned ips) :
    (∃ t ∈ p.workers, Produced t ips) ∨
      (ips = [] ∧ ∀ t ∈ p.workers, ∀ ips', ¬ Produced t ips') := by
  have value := sound.delivered.value ips main
  obtain ⟨chan, nobody⟩ := sound.phased.finished (by rw [main]; rfl)
  cases received : p.shared.allResults with
  | nil =>
    rw [received] at value
    refine .inr ⟨value, ?_⟩
    intro t mem ips' produced
    have ended := ended_of_nobody sound.counted nobody t mem
    rcases sound.delivered.unlost t mem ips' produced with sends | there | more
    · cases ended.symm.trans sends
    · rw [received, chan] at there
      cases there
    · exact more received
  | cons first rest =>
    rw [received] at value
    have listed : first ∈ p.shared.allResults ++ p.shared.resultChan := by
      rw [received]
      exact List.mem_cons_self
    obtain ⟨t, mem, _, produced⟩ := sound.delivered.genuine first listed
    rw [value]
    exact .inl ⟨t, mem, produced⟩

/-- For every list of names, every answer of the nested resolutions and every order of the
actions, with a caller at depth zero whose context is not cancelled. At no time are more nested
resolutions in progress than the limit allows; nothing panics, and so nothing is sent on the
closed channel; after the channel is closed every worker has ended. When the caller returns
every name had its worker, all of them have ended, and what is returned are the addresses that
the nested resolution of one of the names produced, or nothing if none that ran to its end
produced any. And the caller returns: there are at most `8 n + 8` actions, and when nobody can
act any more it has. -/
theorem concurrent_resolution_complete (nsNames : List String) (degraded : Bool)
    (events : List Event) :
    let start := resolveNSIPsConcurrently nsNames 0 degraded
    let p := StepRuns.run step start events
    count Place.resolving p ≤ workerLimit nsNames degraded ∧
      p.shared.panicked = false ∧
      (p.shared.closed = true → ∀ t ∈ p.workers, t.place = .ended) ∧
      (∀ ips, p.shared.main = .returned ips →
        p.workers.map Worker.nsName = nsNames ∧ (∀ t ∈ p.workers, t.place = .ended) ∧
          ((∃ t ∈ p.workers, Produced t ips) ∨
            (ips = [] ∧ ∀ t ∈ p.workers, ∀ ips', ¬ Produced t ips'))) ∧
      (StepRuns.Along step (fun p e => step p e ≠ p) start events →
        events.length ≤ 8 * nsNames.length + 8) ∧
      ((∀ e, step p e = p) → ∃ ips, p.shared.main = .returned ips) := by
  intro start p
  have sound := run_sound nsNames degraded events
  refine ⟨?_, sound.phased.quiet, ?_, ?_, ?_, stuck_returned sound (workerLimit_pos _ _)⟩
  · calc count Place.resolving p ≤ count Place.slots p := resolving_le_slots p
      _ = p.shared.semaphore := sound.counted.slots.symm
      _ ≤ p.shared.workerLimit := sound.counted.within
      _ = workerLimit nsNames degraded := sound.counted.limit
  · intro closed
    have nobody := sound.phased.waited (.inr (sound.phased.closed.mp closed))
    exact ended_of_nobody sound.counted nobody
  · intro ips main
    obtain ⟨-, nobody⟩ := sound.phased.finished (by rw [main]; rfl)
    have named := sound.delivered.named
    rw [main] at named
    exact ⟨(List.append_nil _).symm.trans named, ended_of_nobody sound.counted nobody,
      returned_genuine sound main⟩
  · intro moves
    refine Nat.le_trans ?_ (actionsLeft_start nsNames degraded)
    exact StepRuns.length_le_of_moves step (P := Sound nsNames (workerLimit nsNames degraded))
      (fun p e => step_sound p e) (fun p e sound => moved_lowers sound (step_moved p e))
      (start_sound nsNames degraded) moves

/-- Two names; the resolution of the first fails while that of the second is in progress. -/
theorem second_name_returned :
    let answer : Msg := { answer := [⟨"ns2.test.", 1, 300, .a "192.0.2.53"⟩] }
    let p := StepRuns.run step (resolveNSIPsConcurrently ["ns1.test.", "ns2.test."] 0 false)
      [.main, .main, .main, .main, .advance 0 none, .advance 1 none, .advance 0 none,
        .advance 1 (some answer), .advance 1 none, .main, .main, .advance 0 none, .advance 0 none,
        .advance 1 none, .advance 1 none, .closer, .closer, .main, .main]
    p.shared.main = .returned ["192.0.2.53"] ∧ ∀ t ∈ p.workers, t.place = .ended :=
  ⟨by decide +kernel, ((concurrent_resolution_complete _ false _).2.2.2.1 ["192.0.2.53"]
    (by decide +kernel)).2.1⟩

end FanOut
