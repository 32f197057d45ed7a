import Mathlib.Algebra.Order.Group.Multiset
import Mathlib.Data.Multiset.Bind
import Mathlib.Tactic.Abel
import Rec53.UpstreamGate

/-!
# What a race for an answer comes to

The goroutines of `queryHappyEyeballs` run in any order among those of all other calls, while
the model of QUERY_UPSTREAM takes the call as one function of its inputs. Here the first is
shown to refine the second: whatever the order, a call that has returned has recorded the
failures and has the result of `UpstreamQuery.queryHappyEyeballs`, for inputs in which each
server has the answer that the exchange with it has brought. The queries are the same too, but
not their order, and one of the two may still be under way when the call returns.

The argument follows what a call still has to receive. Each of its goroutines holds the address
it asks, and from its exchange on the result, until the call takes it from the channel; handing
a result on changes nothing in the collection of these.
-/

namespace RaceOutcome

open DnsMessage StateHandlers UpstreamQuery WorkerPool UpstreamGate

/-! ### The results a race still has to receive -/

/-- Addresses that were asked for a call, each with the result if it has come. -/
abbrev Owed := Multiset (String × Option Result)

/-- What a goroutine will send on the channel of call `i`. -/
def owes (i : Nat) : Place → Owed
  | .exchange addr race => if race = some i then {(addr, none)} else 0
  | .release addr race result => if race = some i then {(addr, some result)} else 0
  | .send race addr result => if race = i then {(addr, some result)} else 0
  | _ => 0

/-- The same for a result that is on a channel. -/
def arrived (i : Nat) (sent : Nat × String × Result) : Owed :=
  if sent.1 = i then {(sent.2.1, some sent.2.2)} else 0

/-- What call `i` has not received. -/
def pending (i : Nat) (p : Gateway) : Owed :=
  held (owes i) p.workers + held (arrived i) p.shared.sent

def resultOf : String × Option Result → Multiset (String × Result)
  | (addr, some result) => {(addr, result)}
  | (_, none) => 0

def unansweredOf : String × Option Result → Multiset String
  | (_, some _) => 0
  | (addr, none) => {addr}

/-- The results that are there, and the addresses whose exchange has not ended. -/
def known (owed : Owed) : Multiset (String × Result) := owed.bind resultOf
def unanswered (owed : Owed) : Multiset String := owed.bind unansweredOf

@[simp] lemma known_some (addr : String) (result : Result) :
    known {(addr, some result)} = {(addr, result)} :=
  Multiset.singleton_bind _ resultOf

@[simp] lemma known_none (addr : String) : known {(addr, none)} = 0 :=
  Multiset.singleton_bind _ resultOf

lemma known_add (owed owed' : Owed) : known (owed + owed') = known owed + known owed' :=
  Multiset.add_bind owed owed' resultOf

lemma singleton_add_ne_zero (x : String × Option Result) (owed : Owed) : {x} + owed ≠ 0 := by
  intro nothing
  have card := congrArg Multiset.card nothing
  rw [Multiset.card_add, Multiset.card_singleton, Multiset.card_zero] at card
  omega

lemma receive_none {i : Nat} {sent : List (Nat × String × Result)} (empty : receive i sent = none) :
    held (arrived i) sent = 0 := by
  induction sent with
  | nil => rfl
  | cons x rest ih =>
    obtain ⟨j, result⟩ := x
    rw [receive] at empty
    split at empty
    · cases empty
    · rename_i ne
      rw [held_cons, ih (Option.map_eq_none_iff.mp empty), arrived, if_neg ne, zero_add]

/-- A receive takes one result off the channel of the call and leaves the other channels. -/
lemma receive_some {i : Nat} {sent rest : List (Nat × String × Result)} {addr : String}
    {result : Result} (found : receive i sent = some ((addr, result), rest)) :
    held (arrived i) sent = {(addr, some result)} + held (arrived i) rest ∧
      ∀ j, j ≠ i → held (arrived j) sent = held (arrived j) rest := by
  induction sent generalizing rest with
  | nil => cases found
  | cons x sent ih =>
    obtain ⟨k, r⟩ := x
    rw [receive] at found
    split at found
    · rename_i same
      cases found
      refine ⟨by rw [held_cons, arrived, if_pos same], ?_⟩
      intro j ne
      rw [held_cons, arrived, if_neg (fun here => ne (here.symm.trans same)), zero_add]
    · rename_i ne
      obtain ⟨⟨inner, rest'⟩, later, is⟩ := Option.map_eq_some_iff.mp found
      cases is
      obtain ⟨own, others⟩ := ih later
      constructor
      · rw [held_cons, held_cons, own]
        abel
      · intro j ne'
        rw [held_cons, held_cons, others j ne']

/-! ### One action, seen by one call -/

/-- What is noted of a call: an exchange that it or a goroutine of its race has made, with the
result, and a failure that it records. -/
inductive Note where
  | asked (addr : String) (result : Result)
  | failed (addr : String)

def Note.asked? : Note → Option (String × Result)
  | .asked addr result => some (addr, result)
  | .failed _ => none

def Note.failed? : Note → Option String
  | .asked _ _ => none
  | .failed addr => some addr

/-- The exchanges, and the recorded failures in order. -/
def asks (notes : List Note) : Multiset (String × Result) := notes.filterMap Note.asked?
def failures (notes : List Note) : List String := notes.filterMap Note.failed?

@[simp] lemma asks_nil : asks [] = 0 := rfl

@[simp] lemma asks_asked (notes : List Note) (addr : String) (result : Result) :
    asks (notes ++ [.asked addr result]) = asks notes + {(addr, result)} := by
  simp [asks, Note.asked?, ← Multiset.coe_add]

@[simp] lemma asks_failed (notes : List Note) (addr : String) :
    asks (notes ++ [.failed addr]) = asks notes := by
  rw [asks, List.filterMap_append]
  exact congrArg _ (List.append_nil _)

@[simp] lemma failures_asked (notes : List Note) (addr : String) (result : Result) :
    failures (notes ++ [.asked addr result]) = failures notes := by
  simp [failures, Note.failed?]

@[simp] lemma failures_failed (notes : List Note) (addr : String) :
    failures (notes ++ [.failed addr]) = failures notes ++ [addr] := by
  simp [failures, Note.failed?]

/-- The failure that the next action of call `i` records, when the gateway is as in `s`. -/
def recorded (i : Nat) (s : Shared) : Place → List Note
  | .release addr none (.error _) => [.failed addr]
  | .collect _ _ =>
    match receive i s.sent with
    | some ((addr, .error _), _) => [.failed addr]
    | _ => []
  | _ => []

/-- What an event adds to the notes of call `i`. A goroutine makes its exchange for the call
that started it, or for itself. -/
def notesOf (i : Nat) (p : Gateway) : Event → List Note
  | .advance j result =>
    match p.workers[j]? with
    | some (.exchange addr race) => if race.getD j = i then [.asked addr result] else []
    | some place => if j = i then recorded i p.shared place else []
    | none => []
  | _ => []

/-- One event, seen by the goroutine that has number `i`: what is noted of it as a call, its
place and what it has still to receive, before and after. -/
inductive Turn : List Note → Place → Owed → Place → Owed → Prop
  | rest {place owed} : Turn [] place owed place owed
  | heard {place addr result owed} :
      Turn [.asked addr result] place ({(addr, none)} + owed) place ({(addr, some result)} + owed)
  | alone {bestAddr secondAddr owed} :
      Turn [] (.begin bestAddr secondAddr) owed (.acquire bestAddr) owed
  | paired {bestAddr secondAddr owed} (two : secondAddr ≠ "") :
      Turn [] (.begin bestAddr secondAddr) owed (.acquireFirst bestAddr secondAddr) owed
  | admitted {addr owed} : Turn [] (.acquire addr) owed (.exchange addr none) owed
  | refused {addr owed} : Turn [] (.acquire addr) owed (.returned (.error gateSaturated)) owed
  | firstTaken {bestAddr secondAddr owed} :
      Turn [] (.acquireFirst bestAddr secondAddr) owed (.acquireSecond bestAddr secondAddr) owed
  | firstRefused {bestAddr secondAddr owed} :
      Turn [] (.acquireFirst bestAddr secondAddr) owed (.returned (.error gateSaturated)) owed
  | secondTaken {bestAddr secondAddr owed} :
      Turn [] (.acquireSecond bestAddr secondAddr) owed (.launchBest bestAddr secondAddr) owed
  | secondRefused {bestAddr secondAddr owed} :
      Turn [] (.acquireSecond bestAddr secondAddr) owed (.giveBack bestAddr) owed
  | gaveBack {bestAddr owed} : Turn [] (.giveBack bestAddr) owed (.acquire bestAddr) owed
  | launchedBest {bestAddr secondAddr owed} :
      Turn [] (.launchBest bestAddr secondAddr) owed (.launchSecond secondAddr)
        (owed + {(bestAddr, none)})
  | launchedSecond {secondAddr owed} :
      Turn [] (.launchSecond secondAddr) owed (.collect 0 none) (owed + {(secondAddr, none)})
  | exchanged {addr result owed} :
      Turn [.asked addr result] (.exchange addr none) owed (.release addr none result) owed
  | raced {notes addr race result owed owed'} (same : owed'.card = owed.card) :
      Turn notes (.exchange addr (some race)) owed (.release addr (some race) result) owed'
  | answered {addr reply owed} :
      Turn [] (.release addr none (.ok reply)) owed (.returned (.ok (addr, reply))) owed
  | failed {addr err owed} :
      Turn [.failed addr] (.release addr none (.error err)) owed (.returned (.error err)) owed
  | released {addr race result owed} :
      Turn [] (.release addr (some race) result) owed (.send race addr result) owed
  | sent {race addr result owed} : Turn [] (.send race addr result) owed .ended owed
  | won {round firstErr addr reply owed} :
      Turn [] (.collect round firstErr) ({(addr, some (.ok reply))} + owed)
        (.returned (.ok (addr, reply))) owed
  | lost {round firstErr addr err owed} (more : round + 1 < 2) :
      Turn [.failed addr] (.collect round firstErr) ({(addr, some (.error err))} + owed)
        (.collect (round + 1) (some (firstErr.getD err))) owed
  | lostAll {round firstErr addr err owed} (last : ¬ round + 1 < 2) :
      Turn [.failed addr] (.collect round firstErr) ({(addr, some (.error err))} + owed)
        (.returned (.error ("all upstream IPs failed: " ++ firstErr.getD err))) owed

/-- What an action of goroutine `j` does to the results that call `i` waits for. -/
lemma pending_act (i : Nat) {p : Gateway} {j : Nat} {place : Place} (result : Result)
    (at_j : p.workers[j]? = some place) :
    pending i (p.act j (advance j result)) + owes i place + held (arrived i) p.shared.sent =
      pending i p + owes i (advance j result p.shared place).worker +
        held (owes i) (advance j result p.shared place).started +
        held (arrived i) (advance j result p.shared place).shared.sent := by
  have workers := act_held (owes i) (advance j result) at_j
  have shared : (p.act j (advance j result)).shared = (advance j result p.shared place).shared := by
    rw [Pool.act, at_j]
  have moved : pending i (p.act j (advance j result)) + owes i place +
        held (arrived i) p.shared.sent =
      held (owes i) (p.act j (advance j result)).workers + owes i place +
        held (arrived i) (advance j result p.shared place).shared.sent +
        held (arrived i) p.shared.sent := by
    rw [pending, shared]
    abel
  rw [moved, workers, pending]
  abel

/-- The exchange of a goroutine of the race brings its result. -/
lemma pending_exchange {i j : Nat} {p : Gateway} {addr : String} (result : Result)
    (at_j : p.workers[j]? = some (.exchange addr (some i))) :
    ∃ others, pending i p = {(addr, none)} + others ∧
      pending i (p.act j (advance j result)) = {(addr, some result)} + others := by
  obtain ⟨others, split⟩ := held_of_mem (owes i) (List.mem_of_getElem? at_j)
  have before : pending i p = {(addr, none)} + (others + held (arrived i) p.shared.sent) := by
    rw [pending, split]
    simp only [owes, if_true]
    rw [add_assoc]
  have moved := pending_act i result at_j
  simp only [advance, owes, if_true, held_nil, add_zero] at moved
  have after := add_right_cancel moved
  refine ⟨_, before, add_right_cancel (b := {(addr, none)}) ?_⟩
  rw [after, before]
  abel

/-- The places at which a call deals with the goroutines of its race. -/
def Place.races : Place → Bool
  | .launchBest _ _ | .launchSecond _ | .collect _ _ => true
  | _ => false

/-- Handing a result on. An action other than those of call `i` on its race and the exchanges
made for it moves results between goroutines and channels, and neither adds nor removes one that
call `i` waits for. -/
lemma advance_hands_on {i j : Nat} {place : Place} (apart : j = i → Place.races place = false)
    (silent : ∀ addr, place ≠ .exchange addr (some i)) (result : Result) (s : Shared) :
    owes i (advance j result s place).worker + held (owes i) (advance j result s place).started +
        held (arrived i) (advance j result s place).shared.sent =
      owes i place + held (arrived i) s.sent := by
  cases place with
  | acquire | acquireFirst | acquireSecond =>
    simp only [advance]
    split
    · simp [owes]
    · simp [owes]
  | exchange addr race =>
    have other : race ≠ some i := fun mine => silent addr (mine ▸ rfl)
    simp [advance, owes, other]
  | release addr race result =>
    cases race with
    | none => simp [advance, owes]
    | some race => simp [advance, owes]
  | send race addr result =>
    simp only [advance, owes, arrived, held_append, held_cons, held_nil, add_zero, zero_add]
    exact add_comm _ _
  | begin bestAddr secondAddr =>
    simp only [advance]
    split
    · simp [owes]
    split
    · simp [owes]
    · simp [owes]
  | giveBack => simp [advance, owes]
  | launchBest | launchSecond =>
    have ne : j ≠ i := fun same => Bool.noConfusion (apart same)
    simp [advance, owes, ne]
  | collect round firstErr =>
    have ne : j ≠ i := fun same => Bool.noConfusion (apart same)
    simp only [advance, collected]
    split
    · simp [owes]
    · rename_i found
      simp [owes, (receive_some found).2 i ne.symm]
    · rename_i found
      split
      · simp [owes, (receive_some found).2 i ne.symm]
      · simp [owes, (receive_some found).2 i ne.symm]
  | returned | ended => simp [advance, owes]

lemma pending_act_apart {i j : Nat} {p : Gateway} {place : Place} (result : Result)
    (at_j : p.workers[j]? = some place) (silent : ∀ addr, place ≠ .exchange addr (some i))
    (apart : j = i → Place.races place = false) :
    pending i (p.act j (advance j result)) = pending i p := by
  have moved := pending_act i result at_j
  have handed := advance_hands_on apart silent result p.shared
  rw [add_assoc (pending i p), add_assoc (pending i p), handed, ← add_assoc] at moved
  exact add_right_cancel (add_right_cancel moved)

/-- An action cannot bring a result to a call that waits for none, unless it is its own. -/
lemma pending_act_zero {i j : Nat} (ne : j ≠ i) {p : Gateway} (nothing : pending i p = 0)
    (result : Result) : pending i (p.act j (advance j result)) = 0 := by
  cases at_j : p.workers[j]? with
  | none =>
    rw [Pool.act, at_j]
    exact nothing
  | some place =>
    refine (pending_act_apart result at_j ?_ fun same => absurd same ne).trans nothing
    rintro addr rfl
    obtain ⟨others, is, _⟩ := pending_exchange result at_j
    exact singleton_add_ne_zero _ _ (is.symm.trans nothing)

lemma pending_start (i : Nat) (p : Gateway) {place : Place} (idle : owes i place = 0) :
    pending i (p.start place) = pending i p := by
  simp [pending, Pool.start, idle]

/-- A receive of call `i`, whatever becomes of the result. -/
lemma pending_received {i : Nat} {p : Gateway} {round : Nat} {firstErr : Option String}
    (result : Result) {addr : String} {r : Result} {rest : List (Nat × String × Result)}
    (at_i : p.workers[i]? = some (.collect round firstErr))
    (found : receive i p.shared.sent = some ((addr, r), rest)) :
    pending i p = {(addr, some r)} + pending i (p.act i (advance i result)) := by
  have moved := pending_act i result at_i
  have idle : owes i (.collect round firstErr) = 0 := rfl
  have taken : owes i (advance i result p.shared (.collect round firstErr)).worker = 0 ∧
      (advance i result p.shared (.collect round firstErr)).started = [] ∧
      (advance i result p.shared (.collect round firstErr)).shared.sent = rest := by
    simp only [advance, collected, found]
    cases r with
    | ok reply => exact ⟨rfl, rfl, rfl⟩
    | error err =>
      dsimp only
      split
      · exact ⟨rfl, rfl, rfl⟩
      · exact ⟨rfl, rfl, rfl⟩
  obtain ⟨worker, started, sent⟩ := taken
  rw [worker, started, sent, (receive_some found).1, held_nil, idle, add_zero, add_zero, add_zero,
    ← add_assoc] at moved
  exact (add_right_cancel moved).symm.trans (add_comm _ _)

/-- An action of the call itself, its exchanges apart. -/
lemma advance_turn {i : Nat} {p : Gateway} {place : Place} (result : Result)
    (at_i : p.workers[i]? = some place) (silent : ∀ addr race, place ≠ .exchange addr race) :
    Turn (recorded i p.shared place) place (pending i p)
      (advance i result p.shared place).worker (pending i (p.act i (advance i result))) := by
  have apart := pending_act_apart (i := i) result at_i fun addr => silent addr (some i)
  cases place with
  | acquire addr =>
    rw [apart fun _ => rfl]
    simp only [advance, recorded]
    split
    · exact .admitted
    · exact .refused
  | acquireFirst =>
    rw [apart fun _ => rfl]
    simp only [advance, recorded]
    split
    · exact .firstTaken
    · exact .firstRefused
  | acquireSecond =>
    rw [apart fun _ => rfl]
    simp only [advance, recorded]
    split
    · exact .secondTaken
    · exact .secondRefused
  | exchange addr race => exact absurd rfl (silent addr race)
  | release addr race result =>
    rw [apart fun _ => rfl]
    cases race with
    | none =>
      cases result with
      | ok reply => exact .answered
      | error err => exact .failed
    | some race =>
      cases result with
      | ok reply => exact .released
      | error err => exact .released
  | send race addr result =>
    rw [apart fun _ => rfl]
    exact .sent
  | begin bestAddr secondAddr =>
    rw [apart fun _ => rfl]
    simp only [advance, recorded]
    split
    · exact .alone
    · rename_i two
      split
      · exact .alone
      · exact .paired two
  | giveBack =>
    rw [apart fun _ => rfl]
    exact .gaveBack
  | launchBest bestAddr secondAddr =>
    have moved := pending_act i result at_i
    simp only [advance, owes, held_cons, held_nil, if_true, add_zero] at moved
    rw [add_right_cancel moved]
    exact .launchedBest
  | launchSecond secondAddr =>
    have moved := pending_act i result at_i
    simp only [advance, owes, held_cons, held_nil, if_true, add_zero] at moved
    rw [add_right_cancel moved]
    exact .launchedSecond
  | collect round firstErr =>
    cases found : receive i p.shared.sent with
    | none =>
      have blocked : advance i result p.shared (.collect round firstErr) =
          ⟨p.shared, .collect round firstErr, []⟩ := by simp [advance, collected, found]
      rw [act_blocked at_i blocked, blocked]
      simp only [recorded, found]
      exact .rest
    | some taken =>
      obtain ⟨⟨addr, r⟩, rest⟩ := taken
      rw [pending_received result at_i found]
      simp only [advance, collected, recorded, found]
      cases r with
      | ok reply => exact .won
      | error err =>
        dsimp only
        split
        · rename_i more
          exact .lost more
        · rename_i last
          exact .lostAll last
  | returned | ended =>
    rw [apart fun _ => rfl]
    exact .rest

/-- An exchange, seen by the goroutine that has number `i`: it is made for a call, by the call
itself or by a goroutine of its race. -/
lemma exchange_turn {i j : Nat} {p : Gateway} {place : Place} {addr : String} {race : Option Nat}
    (result : Result) (at_i : p.workers[i]? = some place)
    (at_j : p.workers[j]? = some (.exchange addr race)) :
    ∃ place', (p.act j (advance j result)).workers[i]? = some place' ∧
      Turn (if race.getD j = i then [.asked addr result] else []) place (pending i p) place'
        (pending i (p.act j (advance j result))) := by
  by_cases mine : race = some i
  · subst mine
    obtain ⟨others, before, after⟩ := pending_exchange result at_j
    rw [before, after, Option.getD_some, if_pos rfl]
    by_cases same : j = i
    · subst same
      cases at_i.symm.trans at_j
      exact ⟨_, act_self _ at_i, .raced (by simp)⟩
    · exact ⟨place, act_other _ same at_i, .heard⟩
  · have kept : pending i (p.act j (advance j result)) = pending i p := by
      refine pending_act_apart result at_j ?_ fun _ => rfl
      intro addr' is
      cases is
      exact mine rfl
    rw [kept]
    by_cases same : j = i
    · subst same
      cases at_i.symm.trans at_j
      refine ⟨_, act_self _ at_i, ?_⟩
      cases race with
      | none =>
        rw [Option.getD_none, if_pos rfl]
        exact .exchanged
      | some k => exact .raced rfl
    · refine ⟨place, act_other _ same at_i, ?_⟩
      have elsewhere : race.getD j ≠ i := by
        cases race with
        | none => exact same
        | some k => exact fun is => mine (congrArg some is)
      rw [if_neg elsewhere]
      exact .rest

/-- Everything an event can mean for the goroutine that has number `i`. -/
theorem step_turn {i : Nat} {p : Gateway} {place : Place} (e : Event)
    (at_i : p.workers[i]? = some place) :
    ∃ place', (step p e).workers[i]? = some place' ∧
      Turn (notesOf i p e) place (pending i p) place' (pending i (step p e)) := by
  have within := (List.getElem?_eq_some_iff.mp at_i).1
  have stays (new : Place) : (p.start new).workers[i]? = some place := by
    rw [Pool.start, List.getElem?_append_left within]
    exact at_i
  cases e with
  | exchangeWithUpstreamGate addr =>
    refine ⟨place, stays _, ?_⟩
    rw [step, pending_start i p rfl]
    exact .rest
  | queryHappyEyeballs bestAddr secondAddr =>
    refine ⟨place, stays _, ?_⟩
    rw [step, pending_start i p rfl]
    exact .rest
  | advance j result =>
    rw [notesOf]
    split
    · rename_i addr race at_j
      exact exchange_turn result at_i at_j
    · rename_i place' silent at_j
      by_cases mine : j = i
      · subst mine
        cases at_i.symm.trans at_j
        rw [if_pos rfl]
        exact ⟨_, act_self _ at_i, advance_turn result at_i silent⟩
      · rw [if_neg mine, step, pending_act_apart result at_j (fun addr => silent addr (some i))
          fun same => absurd same mine]
        exact ⟨place, act_other _ mine at_i, .rest⟩
    · rename_i beyond
      rw [step, Pool.act, beyond]
      exact ⟨place, at_i, .rest⟩

/-! ### A number is used once -/

/-- No result is on the way to a number that is not given yet. -/
def Unused (p : Gateway) : Prop := ∀ i, p.workers.length ≤ i → pending i p = 0

lemma act_longer (p : Gateway) (j : Nat) (f : Shared → Place → Acted Shared Place) :
    p.workers.length ≤ (p.act j f).workers.length := by
  rw [Pool.act]
  split
  · exact Nat.le_refl _
  · simp

theorem step_unused {p : Gateway} (e : Event) (unused : Unused p) : Unused (step p e) := by
  intro i beyond
  cases e with
  | exchangeWithUpstreamGate addr =>
    rw [step, pending_start i p rfl]
    refine unused i (Nat.le_trans ?_ beyond)
    simp [step, Pool.start]
  | queryHappyEyeballs bestAddr secondAddr =>
    rw [step, pending_start i p rfl]
    refine unused i (Nat.le_trans ?_ beyond)
    simp [step, Pool.start]
  | advance j result =>
    have before : p.workers.length ≤ i := Nat.le_trans (act_longer p j _) beyond
    by_cases here : j = i
    · subst here
      rw [step, Pool.act, List.getElem?_eq_none before]
      exact unused j before
    · exact pending_act_zero here (unused i before) result

theorem run_unused (gate : Gate) (events : List Event) : Unused (runFrom gate events) := by
  refine StepRuns.run_preserves step (P := Unused) (fun p e => step_unused e) ?_ events
  intro i _
  rfl

/-! ### The course of one call -/

/-- The inputs of a call that goes on with one address. -/
def singleInput (admitted : Bool) (best : Result) : Input :=
  { Input.idle with degrade := true, gateSingle := admitted, best := best }

/-- The inputs of a race whose results are `best` and `second`. -/
def raceInput (best second : Result) (secondFirst : Bool) : Input :=
  { Input.idle with best := best, second := second, secondFirst := secondFirst }

lemma queryHappyEyeballs_single (admitted : Bool) (best : Result) (q : Question)
    (bestAddr secondAddr : String) :
    UpstreamQuery.queryHappyEyeballs (singleInput admitted best) q bestAddr secondAddr =
      querySingle (singleInput admitted best) q bestAddr := by
  rw [UpstreamQuery.queryHappyEyeballs]
  split
  · rfl
  · rfl

lemma queryHappyEyeballs_race {secondAddr : String} (two : secondAddr ≠ "") (best second : Result)
    (secondFirst : Bool) (q : Question) (bestAddr : String) :
    UpstreamQuery.queryHappyEyeballs (raceInput best second secondFirst) q bestAddr secondAddr =
      queryRace (raceInput best second secondFirst) q bestAddr secondAddr := by
  rw [UpstreamQuery.queryHappyEyeballs, if_neg two]
  rfl

def recordedFailure? : Effect → Option String
  | .recordFailure addr => some addr
  | _ => none

/-- The sequential description of a call that has returned: the result and the failures are
those of the function, each exchange brought the answer that the inputs have for its server, and
the queries of the function are the exchanges, with those that have not ended. -/
structure Explains (q : Question) (bestAddr secondAddr : String) (notes : List Note) (owed : Owed)
    (result : Except String (String × Reply)) (inp : Input) : Prop where
  result : (UpstreamQuery.queryHappyEyeballs inp q bestAddr secondAddr).2 = result
  failures : (UpstreamQuery.queryHappyEyeballs inp q bestAddr secondAddr).1.filterMap
    recordedFailure? = failures notes
  answers : asks notes ≤ {(bestAddr, inp.best)} + {(secondAddr, inp.second)}
  queries : (sentTo (UpstreamQuery.queryHappyEyeballs inp q bestAddr secondAddr).1 :
    Multiset String) = (asks notes).map Prod.fst + unanswered owed

/-- How far a call with the given addresses is: what is noted of it, its place, and what it
waits for. In the later stages `asked` says that the exchanges so far are those of the results
received and of the results on the way. -/
inductive Stage (q : Question) (bestAddr secondAddr : String) : List Note → Place → Owed → Prop
  | begun : Stage q bestAddr secondAddr [] (.begin bestAddr secondAddr) 0
  | single : Stage q bestAddr secondAddr [] (.acquire bestAddr) 0
  | asking : Stage q bestAddr secondAddr [] (.exchange bestAddr none) 0
  | answered (result : Result) : Stage q bestAddr secondAddr [.asked bestAddr result]
      (.release bestAddr none result) 0
  | first (two : secondAddr ≠ "") :
      Stage q bestAddr secondAddr [] (.acquireFirst bestAddr secondAddr) 0
  | second (two : secondAddr ≠ "") :
      Stage q bestAddr secondAddr [] (.acquireSecond bestAddr secondAddr) 0
  | backOut : Stage q bestAddr secondAddr [] (.giveBack bestAddr) 0
  | ready (two : secondAddr ≠ "") :
      Stage q bestAddr secondAddr [] (.launchBest bestAddr secondAddr) 0
  | oneOff {notes} (two : secondAddr ≠ "") (best : Option Result) (quiet : failures notes = [])
      (asked : asks notes = known {(bestAddr, best)}) :
      Stage q bestAddr secondAddr notes (.launchSecond secondAddr) {(bestAddr, best)}
  | racing {notes} (two : secondAddr ≠ "") (best second : Option Result)
      (quiet : failures notes = [])
      (asked : asks notes = known ({(bestAddr, best)} + {(secondAddr, second)})) :
      Stage q bestAddr secondAddr notes (.collect 0 none)
        ({(bestAddr, best)} + {(secondAddr, second)})
  | oneLost {notes} (two : secondAddr ≠ "") (err : String) (secondFirst : Bool)
      (last : Option Result)
      (recorded : failures notes = [if secondFirst then secondAddr else bestAddr])
      (asked : asks notes = {(if secondFirst then secondAddr else bestAddr, .error err)} +
        known {(if secondFirst then bestAddr else secondAddr, last)}) :
      Stage q bestAddr secondAddr notes (.collect 1 (some err))
        {(if secondFirst then bestAddr else secondAddr, last)}
  | ahead {notes} (two : secondAddr ≠ "") (reply : Reply) (secondFirst : Bool)
      (last : Option Result) (quiet : failures notes = [])
      (asked : asks notes = {(if secondFirst then secondAddr else bestAddr, .ok reply)} +
        known {(if secondFirst then bestAddr else secondAddr, last)}) :
      Stage q bestAddr secondAddr notes
        (.returned (.ok (if secondFirst then secondAddr else bestAddr, reply)))
        {(if secondFirst then bestAddr else secondAddr, last)}
  | settled {notes result} (inp : Input)
      (explains : Explains q bestAddr secondAddr notes 0 result inp) :
      Stage q bestAddr secondAddr notes (.returned result) 0

/-- One of two is the first, and the other one is left. -/
lemma first_of_two {α : Type*} {x y z : α} {owed : Multiset α}
    (both : ({x} + {y} : Multiset α) = {z} + owed) :
    (z = x ∧ owed = {y}) ∨ (z = y ∧ owed = {x}) := by
  have mem : z ∈ ({x} + {y} : Multiset α) := by
    rw [both]
    exact Multiset.mem_add.mpr (.inl (Multiset.mem_singleton_self z))
  rcases Multiset.mem_add.mp mem with mem | mem
  · have same := Multiset.mem_singleton.mp mem
    subst same
    exact .inl ⟨rfl, (add_left_cancel both).symm⟩
  · have same := Multiset.mem_singleton.mp mem
    subst same
    rw [add_comm] at both
    exact .inr ⟨rfl, (add_left_cancel both).symm⟩

lemma last_of_one {α : Type*} {x z : α} {owed : Multiset α}
    (one : ({x} : Multiset α) = {z} + owed) : z = x ∧ owed = 0 := by
  have mem : z ∈ ({x} : Multiset α) := by
    rw [one]
    exact Multiset.mem_add.mpr (.inl (Multiset.mem_singleton_self z))
  have same := Multiset.mem_singleton.mp mem
  subst same
  exact ⟨rfl, add_left_cancel (one.symm.trans (add_zero _).symm)⟩

section
variable {q : Question} {bestAddr secondAddr : String} {notes : List Note}

lemma explains_refused : Explains q bestAddr secondAddr [] 0 (.error gateSaturated)
    (singleInput false (.error gateSaturated)) := by
  constructor
  · rw [queryHappyEyeballs_single]
    rfl
  · rw [queryHappyEyeballs_single]
    rfl
  · exact Multiset.zero_le _
  · rw [queryHappyEyeballs_single]
    rfl

lemma explains_firstRefused (two : secondAddr ≠ "") :
    Explains q bestAddr secondAddr [] 0 (.error gateSaturated)
      { Input.idle with gateFirst := false } := by
  have is : UpstreamQuery.queryHappyEyeballs { Input.idle with gateFirst := false } q bestAddr
      secondAddr = ([], .error gateSaturated) := by
    rw [UpstreamQuery.queryHappyEyeballs, if_neg two]
    rfl
  constructor
  · rw [is]
  · rw [is]
    rfl
  · exact Multiset.zero_le _
  · rw [is]
    rfl

lemma explains_single_ok (reply : Reply) :
    Explains q bestAddr secondAddr [.asked bestAddr (.ok reply)] 0 (.ok (bestAddr, reply))
      (singleInput true (.ok reply)) := by
  constructor
  · rw [queryHappyEyeballs_single]
    rfl
  · rw [queryHappyEyeballs_single]
    rfl
  · exact Multiset.le_add_right _ _
  · rw [queryHappyEyeballs_single]
    rfl

lemma explains_single_error (err : String) :
    Explains q bestAddr secondAddr [.asked bestAddr (.error err), .failed bestAddr] 0 (.error err)
      (singleInput true (.error err)) := by
  constructor
  · rw [queryHappyEyeballs_single]
    rfl
  · rw [queryHappyEyeballs_single]
    rfl
  · exact Multiset.le_add_right _ _
  · rw [queryHappyEyeballs_single]
    rfl

lemma sentTo_queryRace (inp : Input) (q : Question) (bestAddr secondAddr : String) :
    sentTo (queryRace inp q bestAddr secondAddr).1 = [bestAddr, secondAddr] := by
  simp only [queryRace]
  split
  · rfl
  split
  · rfl
  · rfl

/-- A race is explained by its results, in the order in which they came. -/
lemma explains_race (q : Question) (bestAddr : String) {secondAddr : String}
    (two : secondAddr ≠ "") (best second : Result) (secondFirst : Bool) {owed : Owed}
    (failed : (queryRace (raceInput best second secondFirst) q bestAddr secondAddr).1.filterMap
      recordedFailure? = failures notes)
    (answers : asks notes ≤ {(bestAddr, best)} + {(secondAddr, second)})
    (queries : (asks notes).map Prod.fst + unanswered owed = {bestAddr} + {secondAddr}) :
    Explains q bestAddr secondAddr notes owed
      (queryRace (raceInput best second secondFirst) q bestAddr secondAddr).2
      (raceInput best second secondFirst) := by
  have is := queryHappyEyeballs_race two best second secondFirst q bestAddr
  constructor
  · rw [is]
  · rw [is, failed]
  · exact answers
  · rw [is, sentTo_queryRace, queries]
    rfl

/-- The first result was a failure, and then the other server answered. -/
lemma explains_lastWon (two : secondAddr ≠ "") {err : String} {secondFirst : Bool} {reply : Reply}
    (recorded : failures notes = [if secondFirst then secondAddr else bestAddr])
    (asked : asks notes = {(if secondFirst then secondAddr else bestAddr, .error err)} +
      {(if secondFirst then bestAddr else secondAddr, .ok reply)}) :
    ∃ inp, Explains q bestAddr secondAddr notes 0
      (.ok (if secondFirst then bestAddr else secondAddr, reply)) inp := by
  cases secondFirst with
  | false =>
    exact ⟨_, explains_race q bestAddr two (.error err) (.ok reply) false recorded.symm
      (le_of_eq asked) (by rw [asked]; rfl)⟩
  | true =>
    rw [add_comm] at asked
    exact ⟨_, explains_race q bestAddr two (.ok reply) (.error err) true recorded.symm
      (le_of_eq asked) (by rw [asked]; rfl)⟩

/-- Both servers failed. -/
lemma explains_allLost (two : secondAddr ≠ "") {err err' : String} {secondFirst : Bool}
    (recorded : failures notes = [if secondFirst then secondAddr else bestAddr,
      if secondFirst then bestAddr else secondAddr])
    (asked : asks notes = {(if secondFirst then secondAddr else bestAddr, .error err)} +
      {(if secondFirst then bestAddr else secondAddr, .error err')}) :
    ∃ inp, Explains q bestAddr secondAddr notes 0
      (.error ("all upstream IPs failed: " ++ err)) inp := by
  cases secondFirst with
  | false =>
    exact ⟨_, explains_race q bestAddr two (.error err) (.error err') false recorded.symm
      (le_of_eq asked) (by rw [asked]; rfl)⟩
  | true =>
    rw [add_comm] at asked
    exact ⟨_, explains_race q bestAddr two (.error err') (.error err) true recorded.symm
      (le_of_eq asked) (by rw [asked]; rfl)⟩

/-- The first result was an answer; the other one is still under way. -/
lemma explains_ahead (two : secondAddr ≠ "") {reply : Reply} {secondFirst : Bool}
    {last : Option Result} (quiet : failures notes = [])
    (asked : asks notes = {(if secondFirst then secondAddr else bestAddr, .ok reply)} +
      known {(if secondFirst then bestAddr else secondAddr, last)}) :
    ∃ inp, Explains q bestAddr secondAddr notes
      {(if secondFirst then bestAddr else secondAddr, last)}
      (.ok (if secondFirst then secondAddr else bestAddr, reply)) inp := by
  cases secondFirst with
  | false =>
    refine ⟨_, explains_race q bestAddr two (.ok reply) (last.getD (.error "")) false quiet.symm
      ?_ ?_⟩
    · rw [asked]
      cases last with
      | none => exact Multiset.le_add_right _ _
      | some r => exact le_refl _
    · rw [asked]
      cases last with
      | none => rfl
      | some r => rfl
  | true =>
    refine ⟨_, explains_race q bestAddr two (last.getD (.error "")) (.ok reply) true quiet.symm
      ?_ ?_⟩
    · rw [asked, add_comm]
      cases last with
      | none => exact Multiset.le_add_left _ _
      | some r => exact le_refl _
    · rw [asked, add_comm ({bestAddr} : Multiset String)]
      cases last with
      | none => rfl
      | some r => rfl

/-- The exchange of a goroutine of the race ends, and is noted. -/
lemma Stage.heard {place : Place} {addr : String} {owed : Owed}
    (stage : Stage q bestAddr secondAddr notes place ({(addr, none)} + owed)) (result : Result) :
    Stage q bestAddr secondAddr (notes ++ [.asked addr result]) place
      ({(addr, some result)} + owed) := by
  generalize is : ({(addr, none)} + owed : Owed) = total at stage
  cases stage with
  | oneOff two best quiet asked =>
    obtain ⟨same, rfl⟩ := last_of_one is.symm
    cases same
    rw [add_zero]
    refine .oneOff two (some result) (by simpa using quiet) ?_
    rw [asks_asked, asked, known_none, known_some, zero_add]
  | racing two best second quiet asked =>
    rcases first_of_two is.symm with ⟨same, rfl⟩ | ⟨same, rfl⟩
    · cases same
      refine .racing two (some result) second (by simpa using quiet) ?_
      rw [asks_asked, asked, known_add, known_add, known_none, known_some, zero_add, add_comm]
    · cases same
      rw [add_comm]
      refine .racing two best (some result) (by simpa using quiet) ?_
      rw [asks_asked, asked, known_add, known_add, known_none, known_some, add_zero]
  | oneLost two err secondFirst last recorded asked =>
    obtain ⟨same, rfl⟩ := last_of_one is.symm
    cases same
    rw [add_zero]
    refine .oneLost two err secondFirst (some result) (by simpa using recorded) ?_
    rw [asks_asked, asked, known_none, known_some, add_zero]
  | ahead two reply secondFirst last quiet asked =>
    obtain ⟨same, rfl⟩ := last_of_one is.symm
    cases same
    rw [add_zero]
    refine .ahead two reply secondFirst (some result) (by simpa using quiet) ?_
    rw [asks_asked, asked, known_none, known_some, add_zero]
  | _ => exact absurd is (singleton_add_ne_zero _ _)

/-- The call receives a result: the first of two, or the last one. -/
lemma Stage.received {round : Nat} {firstErr : Option String} {addr : String} {result : Result}
    {owed : Owed}
    (stage : Stage q bestAddr secondAddr notes (.collect round firstErr)
      ({(addr, some result)} + owed)) :
    (∃ (secondFirst : Bool) (last : Option Result), secondAddr ≠ "" ∧ round = 0 ∧ firstErr = none ∧
      addr = (if secondFirst then secondAddr else bestAddr) ∧
      owed = {(if secondFirst then bestAddr else secondAddr, last)} ∧ failures notes = [] ∧
      asks notes = {(addr, result)} +
        known {(if secondFirst then bestAddr else secondAddr, last)}) ∨
    ∃ (secondFirst : Bool) (err : String), secondAddr ≠ "" ∧ round = 1 ∧ firstErr = some err ∧
      addr = (if secondFirst then bestAddr else secondAddr) ∧ owed = 0 ∧
      failures notes = [if secondFirst then secondAddr else bestAddr] ∧
      asks notes = {(if secondFirst then secondAddr else bestAddr, .error err)} +
        {(addr, result)} := by
  generalize is : ({(addr, some result)} + owed : Owed) = total at stage
  cases stage with
  | racing two best second quiet asked =>
    rcases first_of_two is.symm with ⟨same, rfl⟩ | ⟨same, rfl⟩
    · cases same
      rw [known_add, known_some] at asked
      exact .inl ⟨false, second, two, rfl, rfl, rfl, rfl, quiet, asked⟩
    · cases same
      rw [known_add, known_some, add_comm] at asked
      exact .inl ⟨true, best, two, rfl, rfl, rfl, rfl, quiet, asked⟩
  | oneLost two err secondFirst last recorded asked =>
    obtain ⟨same, rfl⟩ := last_of_one is.symm
    cases same
    rw [known_some] at asked
    exact .inr ⟨secondFirst, err, two, rfl, rfl, rfl, rfl, recorded, asked⟩

theorem Stage.next {more : List Note} {place place' : Place} {owed owed' : Owed}
    (stage : Stage q bestAddr secondAddr notes place owed)
    (turn : Turn more place owed place' owed') :
    Stage q bestAddr secondAddr (notes ++ more) place' owed' := by
  cases turn with
  | rest =>
    rw [List.append_nil]
    exact stage
  | heard => exact stage.heard _
  | alone =>
    cases stage with
    | begun => exact .single
  | paired two =>
    cases stage with
    | begun => exact .first two
  | admitted =>
    cases stage with
    | single => exact .asking
  | refused =>
    cases stage with
    | single => exact .settled _ explains_refused
  | firstTaken =>
    cases stage with
    | first two => exact .second two
  | firstRefused =>
    cases stage with
    | first two => exact .settled _ (explains_firstRefused two)
  | secondTaken =>
    cases stage with
    | second two => exact .ready two
  | secondRefused =>
    cases stage with
    | second two => exact .backOut
  | gaveBack =>
    cases stage with
    | backOut => exact .single
  | launchedBest =>
    cases stage with
    | ready two =>
      rw [zero_add]
      exact .oneOff two none rfl (known_none _).symm
  | launchedSecond =>
    cases stage with
    | oneOff two best quiet asked =>
      rw [List.append_nil]
      refine .racing two best none quiet ?_
      rw [asked, known_add, known_none, add_zero]
  | exchanged =>
    cases stage with
    | asking => exact .answered _
  | raced => cases stage
  | answered =>
    cases stage with
    | answered => exact .settled _ (explains_single_ok _)
  | failed =>
    cases stage with
    | answered => exact .settled _ (explains_single_error _)
  | released => cases stage
  | sent => cases stage
  | won =>
    rw [List.append_nil]
    rcases stage.received with ⟨secondFirst, last, two, rfl, rfl, rfl, rfl, quiet, asked⟩ |
      ⟨secondFirst, err, two, rfl, rfl, rfl, rfl, recorded, asked⟩
    · exact .ahead two _ secondFirst last quiet asked
    · obtain ⟨inp, explains⟩ := explains_lastWon (q := q) two recorded asked
      exact .settled inp explains
  | lost more =>
    rcases stage.received with ⟨secondFirst, last, two, rfl, rfl, rfl, rfl, quiet, asked⟩ |
      ⟨secondFirst, err, two, rfl, rfl, rfl, rfl, recorded, asked⟩
    · exact .oneLost two _ secondFirst last (by simp [quiet]) (by simpa using asked)
    · exact absurd more (by decide)
  | lostAll last =>
    rcases stage.received with ⟨secondFirst, _, two, rfl, rfl, rfl, rfl, quiet, asked⟩ |
      ⟨secondFirst, err, two, rfl, rfl, rfl, rfl, recorded, asked⟩
    · exact absurd (by decide) last
    · obtain ⟨inp, explains⟩ := explains_allLost (q := q) two
        ((failures_failed _ _).trans (congrArg (· ++ [_]) recorded))
        ((asks_failed _ _).trans asked)
      exact .settled inp explains

lemma Stage.outcome {result : Except String (String × Reply)} {owed : Owed}
    (stage : Stage q bestAddr secondAddr notes (.returned result) owed) :
    ∃ inp, Explains q bestAddr secondAddr notes owed result inp := by
  cases stage with
  | ahead two reply secondFirst last quiet asked => exact explains_ahead two quiet asked
  | settled inp explains => exact ⟨inp, explains⟩

end

/-- Goroutine `i` is the call with the given addresses, of which the given is noted. -/
def Follows (q : Question) (bestAddr secondAddr : String) (i : Nat) (notes : List Note)
    (p : Gateway) : Prop :=
  ∃ place, p.workers[i]? = some place ∧ Stage q bestAddr secondAddr notes place (pending i p)

/-- A call takes a number that was not used. -/
lemma start_follows (q : Question) (bestAddr secondAddr : String) {p : Gateway}
    (unused : Unused p) :
    Follows q bestAddr secondAddr p.workers.length []
      (step p (.queryHappyEyeballs bestAddr secondAddr)) := by
  refine ⟨.begin bestAddr secondAddr, by simp [step, Pool.start], ?_⟩
  rw [step, pending_start _ p rfl, unused _ (Nat.le_refl _)]
  exact .begun

theorem run_follows {q : Question} {bestAddr secondAddr : String} {i : Nat} {p : Gateway}
    (start : Follows q bestAddr secondAddr i [] p) (later : List Event) :
    Follows q bestAddr secondAddr i (StepRuns.emitted step (notesOf i) p later)
      (StepRuns.run step p later) := by
  refine StepRuns.emitted_invariant step (notesOf i)
    (P := Follows q bestAddr secondAddr i) ?_ start later
  rintro notes p e ⟨place, at_i, stage⟩
  obtain ⟨place', at_i', turn⟩ := step_turn e at_i
  exact ⟨place', at_i', stage.next turn⟩

/-- The race refines the sequential description. Take any state that calls on a gate can
lead to, a call of `queryHappyEyeballs` in it, and any order of the actions that follow, with
any results and with any other calls among them. When the call has returned, there are inputs of
the function that QUERY_UPSTREAM is modelled with that explain it: its result is that of the
function; the failures it has recorded are the same, in order; each exchange that was made for
the call, whenever it was made, brought the answer that the inputs have for its server; and the
queries of the function are these exchanges and those still under way. -/
theorem race_refines_function (gate : Gate) (events later : List Event) (q : Question)
    (bestAddr secondAddr : String) :
    let p := runFrom gate events
    let called := step p (.queryHappyEyeballs bestAddr secondAddr)
    let after := StepRuns.run step called later
    ∀ result, after.workers[p.workers.length]? = some (.returned result) →
      ∃ inp, Explains q bestAddr secondAddr
        (StepRuns.emitted step (notesOf p.workers.length) called later)
        (pending p.workers.length after) result inp := by
  intro p called after result returned
  obtain ⟨place, at_i, stage⟩ :=
    run_follows (start_follows q bestAddr secondAddr (run_unused gate events)) later
  cases at_i.symm.trans returned
  exact stage.outcome

/-- A race in which the second server fails first and the preferred one answers. -/
def upset : List Event :=
  [.advance 0 (.error ""), .advance 0 (.error ""), .advance 0 (.error ""), .advance 0 (.error ""),
    .advance 0 (.error ""), .advance 2 (.error "timeout"), .advance 2 (.error ""),
    .advance 2 (.error ""), .advance 0 (.error ""), .advance 1 (.ok ⟨{}, 20⟩),
    .advance 1 (.error ""), .advance 1 (.error ""), .advance 0 (.error "")]

theorem race_refines_function_upset :
    ∃ inp, Explains ⟨"a.test.", typeA, classINET⟩ "192.0.2.1" "192.0.2.2"
      [.asked "192.0.2.2" (.error "timeout"), .failed "192.0.2.2",
        .asked "192.0.2.1" (.ok ⟨{}, 20⟩)] 0 (.ok ("192.0.2.1", ⟨{}, 20⟩)) inp :=
  race_refines_function ⟨4, 0⟩ [] upset ⟨"a.test.", typeA, classINET⟩ "192.0.2.1" "192.0.2.2"
    (.ok ("192.0.2.1", ⟨{}, 20⟩)) rfl

/-! ### No goroutine is left behind -/

/-- How many results a goroutine at the given place waits for. -/
def Awaits : Place → Owed → Prop
  | .collect round _, owed => owed.card + round = 2 ∧ round < 2
  | .launchSecond _, owed => owed.card = 1
  | .returned _, owed => owed.card ≤ 1
  | _, owed => owed = 0

lemma Awaits.of_card {place : Place} {owed owed' : Owed} (same : owed'.card = owed.card)
    (awaits : Awaits place owed) : Awaits place owed' := by
  cases place with
  | collect | launchSecond | returned =>
    rw [Awaits] at awaits ⊢
    rwa [same]
  | _ =>
    rw [show owed = 0 from awaits, Multiset.card_zero, Multiset.card_eq_zero] at same
    exact same

lemma Awaits.next {notes : List Note} {place place' : Place} {owed owed' : Owed}
    (awaits : Awaits place owed) (turn : Turn notes place owed place' owed') :
    Awaits place' owed' := by
  cases turn with
  | rest => exact awaits
  | heard => exact awaits.of_card (by simp)
  | raced same =>
    rw [show owed = 0 from awaits, Multiset.card_zero, Multiset.card_eq_zero] at same
    exact same
  | refused | firstRefused | answered | failed =>
    rw [show owed = 0 from awaits]
    exact Nat.zero_le _
  | launchedBest =>
    rw [show owed = 0 from awaits]
    rfl
  | launchedSecond =>
    have one : owed.card = 1 := awaits
    rw [Awaits, Multiset.card_add, one]
    exact ⟨rfl, Nat.two_pos⟩
  | won =>
    rw [Awaits, Multiset.card_add, Multiset.card_singleton] at awaits
    rw [Awaits]
    omega
  | lost =>
    rw [Awaits, Multiset.card_add, Multiset.card_singleton] at awaits
    rw [Awaits]
    omega
  | lostAll =>
    rw [Awaits, Multiset.card_add, Multiset.card_singleton] at awaits
    rw [Awaits]
    omega
  | alone | paired | admitted | firstTaken | secondTaken | secondRefused | gaveBack | exchanged
  | released | sent => exact awaits

lemma Awaits.card_le {place : Place} {owed : Owed} (awaits : Awaits place owed) :
    owed.card ≤ 2 := by
  cases place with
  | collect round =>
    rw [Awaits] at awaits
    omega
  | launchSecond =>
    rw [Awaits] at awaits
    omega
  | returned => exact Nat.le_succ_of_le awaits
  | _ =>
    rw [show owed = 0 from awaits]
    exact Nat.zero_le _

/-- Every goroutine waits for as many results as are on the way to it. -/
structure Orderly (p : Gateway) : Prop where
  unused : Unused p
  awaits : ∀ i place, p.workers[i]? = some place → Awaits place (pending i p)

lemma advance_started (j : Nat) (result : Result) (s : Shared) (place : Place) :
    ∀ new ∈ (advance j result s place).started, Awaits new 0 := by
  cases place with
  | acquire | acquireFirst | acquireSecond =>
    simp only [advance]
    split
    · simp
    · simp
  | release addr race result =>
    cases race with
    | none => simp [advance]
    | some race => simp [advance]
  | begin =>
    simp only [advance]
    split
    · simp
    split
    · simp
    · simp
  | collect round firstErr => simp [advance, (collected_spec j round firstErr s).2.2]
  | launchBest | launchSecond => simp [advance, Awaits]
  | _ => simp [advance]

/-- A goroutine that an event starts waits for nothing. -/
lemma step_new {p : Gateway} {e : Event} {i : Nat} {place : Place} (unused : Unused p)
    (beyond : p.workers.length ≤ i) (at_i : (step p e).workers[i]? = some place) :
    Awaits place (pending i (step p e)) := by
  have quiet : pending i (step p e) = 0 ∧ Awaits place 0 := by
    cases e with
    | exchangeWithUpstreamGate addr =>
      rw [step, Pool.start, List.getElem?_append_right beyond] at at_i
      rw [step, pending_start i p rfl, List.mem_singleton.mp (List.mem_of_getElem? at_i)]
      exact ⟨unused i beyond, rfl⟩
    | queryHappyEyeballs bestAddr secondAddr =>
      rw [step, Pool.start, List.getElem?_append_right beyond] at at_i
      rw [step, pending_start i p rfl, List.mem_singleton.mp (List.mem_of_getElem? at_i)]
      exact ⟨unused i beyond, rfl⟩
    | advance j result =>
      rw [step, Pool.act] at at_i
      split at at_i
      · rw [List.getElem?_eq_none beyond] at at_i
        cases at_i
      · rename_i t at_j
        have other : j ≠ i :=
          Nat.ne_of_lt (Nat.lt_of_lt_of_le (List.getElem?_eq_some_iff.mp at_j).1 beyond)
        rw [List.getElem?_append_right (by rw [List.length_set]; exact beyond)] at at_i
        exact ⟨pending_act_zero other (unused i beyond) result,
          advance_started j result p.shared t place (List.mem_of_getElem? at_i)⟩
  rw [quiet.1]
  exact quiet.2

theorem step_orderly (p : Gateway) (e : Event) (orderly : Orderly p) : Orderly (step p e) := by
  refine ⟨step_unused e orderly.unused, ?_⟩
  intro i place' at_i'
  cases at_i : p.workers[i]? with
  | none => exact step_new orderly.unused (List.getElem?_eq_none_iff.mp at_i) at_i'
  | some place =>
    obtain ⟨place'', at_i'', turn⟩ := step_turn e at_i
    cases at_i'.symm.trans at_i''
    exact (orderly.awaits i place at_i).next turn

theorem run_orderly (gate : Gate) (events : List Event) : Orderly (runFrom gate events) := by
  refine StepRuns.run_preserves step step_orderly ⟨?_, ?_⟩ events
  · intro i _
    rfl
  · intro i place at_i
    cases at_i

lemma Orderly.card_le {p : Gateway} (orderly : Orderly p) (i : Nat) : (pending i p).card ≤ 2 := by
  cases at_i : p.workers[i]? with
  | none =>
    rw [orderly.unused i (List.getElem?_eq_none_iff.mp at_i)]
    exact Nat.zero_le _
  | some place => exact (orderly.awaits i place at_i).card_le

/-- The results on the channel of call `i`. -/
def channel (i : Nat) (p : Gateway) : List (Nat × String × Result) :=
  p.shared.sent.filter fun sent => sent.1 = i

lemma card_arrived (i : Nat) (sent : List (Nat × String × Result)) :
    (held (arrived i) sent).card = (sent.filter fun x => x.1 = i).length := by
  induction sent with
  | nil => rfl
  | cons x rest ih =>
    rw [held_cons, Multiset.card_add, ih, arrived]
    by_cases here : x.1 = i
    · simp [here, Nat.add_comm]
    · simp [here]

/-- A goroutine that is about to send finds room in the buffer of two. -/
lemma Orderly.room {p : Gateway} (orderly : Orderly p) {race : Nat} {addr : String}
    {result : Result} (sends : .send race addr result ∈ p.workers) :
    (channel race p).length < 2 := by
  have total := orderly.card_le race
  obtain ⟨others, split⟩ := held_of_mem (owes race) sends
  have own : (owes race (.send race addr result)).card = 1 := by simp [owes]
  rw [pending, split, Multiset.card_add, Multiset.card_add, own, card_arrived] at total
  rw [channel]
  omega

/-! ### How long it can go on -/

/-- The actions that a goroutine can still take, those of the goroutines it will start
included. -/
def actionsLeft : Place → Nat
  | .acquire _ => 3
  | .exchange _ none => 2
  | .exchange _ (some _) => 3
  | .release _ none _ => 1
  | .release _ (some _) _ => 2
  | .send _ _ _ => 1
  | .begin _ _ => 13
  | .acquireFirst _ _ => 12
  | .acquireSecond _ _ => 11
  | .giveBack _ => 4
  | .launchBest _ _ => 10
  | .launchSecond _ => 6
  | .collect 0 _ => 2
  | .collect (_ + 1) _ => 1
  | .returned _ | .ended => 0

lemma actionsLeft_le (place : Place) : actionsLeft place ≤ 13 := by
  rw [actionsLeft.eq_def]
  split <;> omega

/-- An action uses up one, or the goroutine is blocked or at its end. -/
lemma advance_uses (i : Nat) (result : Result) (s : Shared) (place : Place) :
    advance i result s place = ⟨s, place, []⟩ ∨
      actionsLeft (advance i result s place).worker +
        owned actionsLeft (advance i result s place).started < actionsLeft place := by
  cases place with
  | acquire | acquireFirst | acquireSecond =>
    right
    simp only [advance]
    split
    · simp [actionsLeft]
    · simp [actionsLeft]
  | exchange addr race =>
    right
    cases race with
    | none => simp [advance, actionsLeft]
    | some race => simp [advance, actionsLeft]
  | release addr race result =>
    right
    cases race with
    | none => simp [advance, actionsLeft]
    | some race => simp [advance, actionsLeft]
  | begin =>
    right
    simp only [advance]
    split
    · simp [actionsLeft]
    split
    · simp [actionsLeft]
    · simp [actionsLeft]
  | collect round firstErr =>
    simp only [advance, collected]
    split
    · exact .inl rfl
    · right
      cases round with
      | zero => simp [actionsLeft]
      | succ round => simp [actionsLeft]
    · right
      cases round with
      | zero => simp [actionsLeft]
      | succ round =>
        rw [if_neg (by omega)]
        simp [actionsLeft]
  | returned | ended => exact .inl rfl
  | send | giveBack | launchBest | launchSecond =>
    right
    simp [advance, actionsLeft]

/-- The actions of a gateway to which no further call is made. -/
def act (p : Gateway) (a : Nat × Result) : Gateway := step p (.advance a.1 a.2)

lemma act_uses (p : Gateway) (a : Nat × Result) :
    act p a = p ∨ owned actionsLeft (act p a).workers < owned actionsLeft p.workers := by
  obtain ⟨i, result⟩ := a
  have spent := act_spends (p := p) (i := i) (f := advance i result) (fun _ => 0)
    (w := actionsLeft) fun place _ => by
      rw [Nat.zero_add, Nat.zero_add]
      exact advance_uses i result p.shared place
  rw [Nat.zero_add, Nat.zero_add] at spent
  exact spent

/-- The goroutine has nothing left to do. -/
def Place.over : Place → Prop
  | .returned _ | .ended => True
  | _ => False

/-- A goroutine that owes a result is not blocked. -/
lemma owes_moves {i k : Nat} {p : Gateway} {place : Place} (still : ∀ a, act p a = p)
    (at_k : p.workers[k]? = some place) : owes i place = 0 := by
  have stays := worker_of_act_eq_self at_k (still (k, .error ""))
  cases place with
  | exchange addr race => cases stays
  | release addr race result =>
    cases race with
    | none => cases stays
    | some race => cases stays
  | send => cases stays
  | _ => rfl

/-- A gateway in which no action changes anything has no goroutine under way. -/
lemma Orderly.all_over {p : Gateway} (orderly : Orderly p) (still : ∀ a, act p a = p) :
    ∀ place ∈ p.workers, Place.over place := by
  intro place mem
  obtain ⟨i, at_i⟩ := List.mem_iff_getElem?.mp mem
  have stays := worker_of_act_eq_self at_i (still (i, .error ""))
  cases place with
  | returned | ended => trivial
  | acquire | acquireFirst | acquireSecond =>
    simp only [advance] at stays
    split at stays
    · cases stays
    · cases stays
  | begin =>
    simp only [advance] at stays
    split at stays
    · cases stays
    split at stays
    · cases stays
    · cases stays
  | release addr race result =>
    cases race with
    | none => cases stays
    | some race => cases stays
  | collect round firstErr =>
    -- nobody owes a result, so those that are due are on the channel
    have nobody : held (owes i) p.workers = 0 := by
      refine held_eq_zero _ fun t mem => ?_
      obtain ⟨k, at_k⟩ := List.mem_iff_getElem?.mp mem
      exact owes_moves still at_k
    have due : (pending i p).card + round = 2 ∧ round < 2 := orderly.awaits i _ at_i
    rw [pending, nobody, zero_add] at due
    cases found : receive i p.shared.sent with
    | none =>
      rw [receive_none found, Multiset.card_zero] at due
      omega
    | some taken =>
      obtain ⟨⟨addr, r⟩, rest⟩ := taken
      simp only [advance, collected, found] at stays
      cases r with
      | ok reply => cases stays
      | error err =>
        dsimp only at stays
        split at stays
        · exact absurd (Place.collect.inj stays).1 (Nat.succ_ne_self round)
        · cases stays
  | exchange | send | giveBack | launchBest | launchSecond => cases stays

/-- Nothing of a race is left behind. In every interleaving of any number of calls: a
goroutine of a race finds room for its result in the channel of two, so it never blocks on
it; once no further call is made, at most thirteen actions for each goroutine change
anything; and when none does, every call has returned, every goroutine has ended and the
gate has all its slots. -/
theorem race_leaves_nothing_behind (numCPU : Nat) (limit : Int) (events : List Event) :
    let p := runFrom (newUpstreamConcurrencyGate numCPU limit) events
    (∀ race addr result, .send race addr result ∈ p.workers → (channel race p).length < 2) ∧
    (∀ later, StepRuns.Along act (fun p a => act p a ≠ p) p later →
      later.length ≤ 13 * p.workers.length) ∧
    ((∀ a, act p a = p) →
      (∀ place ∈ p.workers, Place.over place) ∧ p.shared.gate.inflight = 0) := by
  intro p
  have orderly : Orderly p := run_orderly _ events
  refine ⟨?_, ?_, ?_⟩
  · intro race addr result sends
    exact orderly.room sends
  · intro later moves
    have bounded : later.length ≤ owned actionsLeft p.workers :=
      StepRuns.length_le_of_moves act (P := fun _ => True)
        (μ := fun p : Gateway => owned actionsLeft p.workers)
        (fun _ _ _ => trivial) (fun p a _ => act_uses p a) trivial moves
    exact bounded.trans (owned_le_mul actionsLeft actionsLeft_le p.workers)
  · intro still
    have all_over := orderly.all_over still
    refine ⟨all_over, ?_⟩
    have accounted := run_accounted numCPU limit events
    rw [show p.shared.gate.inflight = owned Place.slots p.workers from accounted.balanced,
      owned_eq_zero_iff]
    intro place mem
    have ended := all_over place mem
    cases place with
    | returned | ended => rfl
    | _ => cases ended

/-- The first `n` actions of that race, on a gate of four slots. -/
def upsetRun (n : Nat) : Gateway :=
  runFrom (newUpstreamConcurrencyGate 2 4)
    (.queryHappyEyeballs "192.0.2.1" "192.0.2.2" :: upset.take n)

/-- Before the failed result is sent, in the last action of the race, and after it. -/
theorem race_leaves_nothing_behind_upset :
    (channel 0 (upsetRun 7)).length < 2 ∧
      [(0, (.error "" : Result))].length ≤ 13 * (upsetRun 12).workers.length ∧
      (∀ place ∈ (upsetRun 13).workers, Place.over place) ∧
      (upsetRun 13).shared.gate.inflight = 0 := by
  have fresh : newUpstreamConcurrencyGate 2 4 = ⟨4, 0⟩ := rfl
  have sends : upsetRun 7 = ⟨⟨⟨4, 1⟩, []⟩,
      [.collect 0 none, .exchange "192.0.2.1" (some 0),
        .send 0 "192.0.2.2" (.error "timeout")]⟩ := by
    simp [upsetRun, upset, fresh, runFrom, StepRuns.run, step, initial, Pool.start, Pool.act,
      advance, Gate.shouldDegradeFanout, Gate.tryAcquire, Gate.release]
  have last : upsetRun 12 = ⟨⟨⟨4, 0⟩, [(0, "192.0.2.1", .ok ⟨{}, 20⟩)]⟩,
      [.collect 1 (some "timeout"), .ended, .ended]⟩ := by
    simp [upsetRun, upset, fresh, runFrom, StepRuns.run, step, initial, Pool.start, Pool.act,
      advance, Gate.shouldDegradeFanout, Gate.tryAcquire, Gate.release, collected, receive]
  have done : upsetRun 13 = ⟨⟨⟨4, 0⟩, []⟩,
      [.returned (.ok ("192.0.2.1", ⟨{}, 20⟩)), .ended, .ended]⟩ := by
    simp [upsetRun, upset, fresh, runFrom, StepRuns.run, step, initial, Pool.start, Pool.act,
      advance, Gate.shouldDegradeFanout, Gate.tryAcquire, Gate.release, collected, receive]
  have left (n : Nat) := race_leaves_nothing_behind 2 4
    (.queryHappyEyeballs "192.0.2.1" "192.0.2.2" :: upset.take n)
  simp only [← upsetRun.eq_def] at left
  have moves : act (upsetRun 12) (0, .error "") ≠ upsetRun 12 := by
    rw [last]
    intro same
    have workers := congrArg (fun p : Gateway => p.workers[0]?) same
    simp [act, step, Pool.act, advance, collected, receive] at workers
  have still : ∀ a, act (upsetRun 13) a = upsetRun 13 := by
    rw [done]
    rintro ⟨_ | _ | _ | i, result⟩
    · rfl
    · rfl
    · rfl
    · rfl
  refine ⟨?_, (left 12).2.1 [(0, .error "")] ⟨moves, trivial⟩, (left 13).2.2 still⟩
  exact (left 7).1 0 "192.0.2.2" (.error "timeout") (by rw [sends]; simp)

end RaceOutcome
