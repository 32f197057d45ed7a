import Mathlib.Data.List.DropRight
import Rec53.IPQuality
import Rec53.UpstreamQuery

/-!
# Servers that answer with bad Rcodes

What visits of QUERY_UPSTREAM do to the tracker of one address that wins each of them
with a bad Rcode. A history lists the effects of those visits and, between them, the
calls that other goroutines make on the same tracker: other queries and the probe loop.
Each visit samples the address before it records the failure, so that only what others
record after the last sample can make the address suspect.
-/

namespace ServerDemotion

open DnsMessage Platform LocalConfig StateHandlers UpstreamQuery IPQuality

/-- A visit of QUERY_UPSTREAM once its addresses are known. -/
structure Visit where
  env : Env
  inp : Input
  request : Msg
  response : Msg
  ipList : List String

def Visit.out (v : Visit) : QueryOut :=
  queryUpstreamWith v.env v.inp v.request v.response v.ipList

def Visit.bestAddr (v : Visit) : String := (v.inp.bestIPs v.ipList).1

def Visit.secondAddr (v : Visit) : String := (v.inp.bestIPs v.ipList).2

def Visit.race (v : Visit) : List Effect × Except String (String × Reply) :=
  queryHappyEyeballs v.inp v.request.q0 v.bestAddr v.secondAddr

/-- `addr` is the winning address and answers with one of the bad Rcodes. -/
def Visit.BadFrom (addr : String) (v : Visit) : Prop :=
  v.ipList ≠ [] ∧ v.bestAddr ≠ "" ∧
    ∃ rep, v.race.2 = .ok (addr, rep) ∧ isBadRcode rep.msg.rcode = true

def callOn (addr : String) (now : Nat) : Effect → Option Call
  | .recordLatency a ms => if a = addr then some (.recordLatency now ms) else none
  | .recordFailure a => if a = addr then some (.recordFailure now) else none
  | .exchange _ _ _ | .received _ | .setByType _ _ _ _ | .setZone _ _ _ | .updateNSIPs _ _ _ => none

/-- `own` is an effect of one of the visits, `other` a call of another goroutine on
the tracker of the address. -/
inductive Event where
  | own (now : Nat) (effect : Effect)
  | other (call : Call)
deriving DecidableEq

def Event.own? : Event → Option Effect
  | .own _ effect => some effect
  | .other _ => none

def Event.call? (addr : String) : Event → Option Call
  | .own now effect => callOn addr now effect
  | .other call => some call

def Event.other? : Event → Option Call
  | .own _ _ => none
  | .other call => some call

/-- A visit records the latency of the address. -/
def Event.isOwnSample (addr : String) : Event → Bool
  | .own _ (.recordLatency a _) => a == addr
  | _ => false

/-- A visit records a failure of the address. -/
def Event.isOwnFailure (addr : String) : Event → Bool
  | .own _ (.recordFailure a) => a == addr
  | _ => false

def ownEffects (history : List Event) : List Effect := history.filterMap Event.own?

def callsOn (addr : String) (history : List Event) : List Call :=
  history.filterMap (Event.call? addr)

def others (history : List Event) : List Call := history.filterMap Event.other?

@[simp] lemma others_own (now : Nat) (effect : Effect) (history : List Event) :
    others (.own now effect :: history) = others history := rfl

@[simp] lemma others_other (call : Call) (history : List Event) :
    others (.other call :: history) = call :: others history := rfl

/-- What happens after the last latency of the address that a visit records. -/
def sinceSample (addr : String) (history : List Event) : List Event :=
  history.rtakeWhile fun e => !e.isOwnSample addr

/-- The calls of other goroutines between the last sample of the visits and their failure
that follows it. -/
def othersBetween (addr : String) (history : List Event) : List Call :=
  others ((sinceSample addr history).takeWhile fun e => !e.isOwnFailure addr)

/-- The calls of other goroutines after that failure. -/
def othersAfter (addr : String) (history : List Event) : List Call :=
  others ((sinceSample addr history).dropWhile fun e => !e.isOwnFailure addr)

/-- How many failures in a row there are after a sample when others make the calls
`between` before one more failure and the calls `after` behind it. -/
def failuresInRow (between after : List Call) : Nat :=
  if after.all Call.isFailure then failuresSince between + 1 + after.length
  else failuresSince after

def trackerAfter (convert : Int → Int) (addr : String) (iq : IPQualityV2) (history : List Event) :
    IPQualityV2 :=
  StepRuns.run (perform convert) iq (callsOn addr history)

/-! ### What one visit does to the tracker of its winner -/

/-- No call on the tracker of the address. -/
def Silent (addr : String) (effects : List Effect) : Prop :=
  ∀ e ∈ effects, ∀ now, callOn addr now e = none

lemma cacheEffects_silent (addr : String) (m : Msg) : Silent addr (cacheEffects m) := by
  intro e mem now
  rcases mem_cacheEffects mem with ⟨_, _, _, rfl⟩ | ⟨_, _, _, _, rfl⟩
  · rfl
  · rfl

lemma acceptResponse_silent (addr : String) (request response m : Msg) :
    Silent addr (acceptResponse request response m).effects := by
  rw [acceptResponse]
  split
  · simp [Silent]
  split
  · simp [Silent]
  · exact cacheEffects_silent addr m

/-- The failure is recorded first; what follows is about the alternate address. -/
lemma retryAlternate_calls (env : Env) (inp : Input) (request response : Msg)
    (bestAddr secondAddr theBestIP badRcode : String) :
    ∃ later, Silent theBestIP later ∧
      (retryAlternate env inp request response bestAddr secondAddr theBestIP badRcode).effects =
        .recordFailure theBestIP :: later := by
  simp only [retryAlternate]
  generalize (if theBestIP = secondAddr then bestAddr else secondAddr) = altAddr
  split
  · exact ⟨[], by simp [Silent], rfl⟩
  rename_i usable
  have another : altAddr ≠ theBestIP := fun same => usable (.inr same)
  split
  · exact ⟨[], by simp [Silent], rfl⟩
  cases inp.retry with
  | error e => exact ⟨_, by simp [Silent, callOn, another], rfl⟩
  | ok rep =>
    have noted : Silent theBestIP [.exchange altAddr request.q0.name request.q0.qtype,
        .received rep.msg, .recordLatency altAddr rep.rtt] := by
      simp [Silent, callOn, another]
    dsimp only
    split
    · refine ⟨_, ?_, rfl⟩
      intro e mem
      rcases List.mem_append.mp mem with first | accepted
      · exact noted e first
      · exact acceptResponse_silent theBestIP request _ rep.msg e accepted
    split
    · exact ⟨_, noted, rfl⟩
    · exact ⟨_, noted, rfl⟩

/-- A bad Rcode of the winner is a latency sample and then a failure, and nothing
more about that address. -/
theorem badFrom_effects {addr : String} {v : Visit} (bad : v.BadFrom addr) :
    ∃ earlier ms later, Silent addr later ∧
      v.out.effects = earlier ++ .recordLatency addr ms :: .recordFailure addr :: later := by
  obtain ⟨addresses, some_text, rep, won, badRcode⟩ := bad
  have raced : v.race = (v.race.1, .ok (addr, rep)) := Prod.ext rfl won
  have failing : rep.msg.rcode ≠ rcodeSuccess ∧ rep.msg.rcode ≠ rcodeNameError := by
    constructor
    · intro success
      rw [success] at badRcode
      cases badRcode
    · intro nameError
      rw [nameError] at badRcode
      cases badRcode
  obtain ⟨later, silent, retried⟩ := retryAlternate_calls v.env v.inp v.request
    (mergeRcode v.response rep.msg) v.bestAddr v.secondAddr addr
    (v.env.lib.rcodeToString rep.msg.rcode)
  refine ⟨v.race.1 ++ [.received rep.msg], rep.rtt, later, silent, ?_⟩
  rw [Visit.race, Visit.bestAddr, Visit.secondAddr] at raced
  rw [Visit.bestAddr] at some_text
  rw [Visit.out, queryUpstreamWith, if_neg addresses]
  dsimp only
  rw [if_neg some_text, raced]
  simp only [checkResponse, if_neg failing.1, if_neg failing.2, badRcode, if_true,
    QueryOut.after]
  rw [Visit.bestAddr, Visit.secondAddr] at retried
  rw [retried]
  simp [Visit.race, Visit.bestAddr, Visit.secondAddr]

/-! ### Histories -/

/-- The visits' effects on a tracker are split off where they stand in the history. -/
lemma split_at_own {history : List Event} {before after : List Effect} {e : Effect}
    (own : ownEffects history = before ++ e :: after) :
    ∃ xs now ys, history = xs ++ .own now e :: ys ∧ ownEffects xs = before ∧
      ownEffects ys = after := by
  obtain ⟨xs, rest, rfl, first, second⟩ := List.filterMap_eq_append_iff.mp own
  obtain ⟨others, event, ys, rfl, quiet, found, last⟩ := List.filterMap_eq_cons_iff.mp second
  cases event with
  | other call => cases found
  | own now effect =>
    cases found
    refine ⟨xs ++ others, now, ys, by simp, ?_, last⟩
    rw [ownEffects, List.filterMap_append, first, List.filterMap_eq_nil_iff.mpr quiet,
      List.append_nil]

/-- Where the visits do not call the tracker, its calls are those of others. -/
lemma callsOn_of_silent {addr : String} {history : List Event}
    (silent : Silent addr (ownEffects history)) : callsOn addr history = others history := by
  induction history with
  | nil => rfl
  | cons event history ih =>
    cases event with
    | other call =>
      rw [others_other, ← ih silent]
      rfl
    | own now effect =>
      have unseen : callOn addr now effect = none := silent effect List.mem_cons_self now
      rw [others_own, ← ih fun e mem => silent e (List.mem_cons_of_mem effect mem)]
      exact List.filterMap_cons_none unseen

/-- Where the visits do not call the tracker, they neither sample it nor record a failure. -/
lemma not_own_of_silent {addr : String} {history : List Event}
    (silent : Silent addr (ownEffects history)) :
    ∀ e ∈ history, e.isOwnSample addr = false ∧ e.isOwnFailure addr = false := by
  intro e mem
  cases e with
  | other call => exact ⟨rfl, rfl⟩
  | own now effect =>
    have unseen := silent effect (List.mem_filterMap.mpr ⟨_, mem, rfl⟩) now
    cases effect with
    | recordLatency a ms | recordFailure a =>
      have elsewhere : a ≠ addr := by
        intro here
        simp [callOn, here] at unseen
      simp [Event.isOwnSample, Event.isOwnFailure, elsewhere]
    | exchange | received | setByType | setZone | updateNSIPs => exact ⟨rfl, rfl⟩

/-- The last of the visits samples the address and then records a failure; in between and
afterwards the visits do not call its tracker. -/
lemma split_at_last_visit {addr : String} {visits : List Visit} {history : List Event}
    (visited : visits ≠ []) (bad : ∀ v ∈ visits, v.BadFrom addr)
    (own : ownEffects history = visits.flatMap (·.out.effects)) :
    ∃ xs sampled ms between failed after,
      history = xs ++ .own sampled (.recordLatency addr ms) ::
        (between ++ .own failed (.recordFailure addr) :: after) ∧
      Silent addr (ownEffects between) ∧ Silent addr (ownEffects after) := by
  obtain ⟨first, last, rfl⟩ : ∃ first last, visits = first ++ [last] := by
    cases visits using List.reverseRecOn with
    | nil => exact absurd rfl visited
    | append_singleton first last => exact ⟨first, last, rfl⟩
  obtain ⟨earlier, ms, later, silent, effects⟩ := badFrom_effects (bad last (by simp))
  have placed : ownEffects history =
      (first.flatMap (·.out.effects) ++ earlier) ++ .recordLatency addr ms ::
        ([] ++ .recordFailure addr :: later) := by
    rw [own]
    simp [effects]
  obtain ⟨xs, sampled, rest, rfl, _, ownRest⟩ := split_at_own placed
  obtain ⟨between, failed, after, rfl, ownBetween, ownAfter⟩ := split_at_own ownRest
  refine ⟨xs, sampled, ms, between, failed, after, rfl, ?_, ?_⟩
  · rw [ownBetween]
    simp [Silent]
  · rw [ownAfter]
    exact silent

/-- The last visit's sample and failure are found in the history where they stand. -/
lemma others_of_split {addr : String} (xs : List Event) (sampled ms : Nat)
    {between : List Event} (failed : Nat) {after : List Event}
    (silentBetween : Silent addr (ownEffects between))
    (silentAfter : Silent addr (ownEffects after)) :
    let history := xs ++ .own sampled (.recordLatency addr ms) ::
      (between ++ .own failed (.recordFailure addr) :: after)
    othersBetween addr history = others between ∧ othersAfter addr history = others after := by
  intro history
  have unsampled : ∀ e ∈ between ++ .own failed (.recordFailure addr) :: after,
      (!e.isOwnSample addr) = true := by
    intro e mem
    rcases List.mem_append.mp mem with early | late
    · simp [(not_own_of_silent silentBetween e early).1]
    · rcases List.mem_cons.mp late with rfl | late
      · rfl
      · simp [(not_own_of_silent silentAfter e late).1]
  have since : sinceSample addr history =
      between ++ .own failed (.recordFailure addr) :: after := by
    rw [sinceSample, List.rtakeWhile, List.reverse_append, List.reverse_cons, List.append_assoc,
      List.takeWhile_append_of_pos fun e mem => unsampled e (List.mem_reverse.mp mem)]
    simp [Event.isOwnSample]
  have unfailed : ∀ e ∈ between, (!e.isOwnFailure addr) = true := by
    intro e mem
    simp [(not_own_of_silent silentBetween e mem).2]
  rw [othersBetween, othersAfter, since, List.takeWhile_append_of_pos unfailed,
    List.dropWhile_append_of_pos unfailed]
  constructor
  · simp [Event.isOwnFailure]
  · simp [Event.isOwnFailure]

lemma failuresSince_append (xs ys : List Call) :
    failuresSince (xs ++ ys) =
      if ys.all Call.isFailure then failuresSince xs + ys.length else failuresSince ys := by
  induction ys using List.reverseRecOn with
  | nil => simp
  | append_singleton ys last ih =>
    rw [← List.append_assoc, failuresSince_snoc, failuresSince_snoc, ih]
    cases failure : last.isFailure with
    | false => simp [failure]
    | true =>
      cases all : ys.all Call.isFailure with
      | true => simp [failure, all, Nat.add_assoc]
      | false => simp [failure, all]

lemma failuresSince_row (between after : List Call) (failed : Nat) :
    failuresSince (between ++ .recordFailure failed :: after) = failuresInRow between after := by
  have own : (Call.recordFailure failed).isFailure = true := rfl
  rw [failuresSince_append, failuresInRow, List.all_cons, own, Bool.true_and]
  split
  · rw [List.length_cons]
    omega
  · rename_i mixed
    rw [show Call.recordFailure failed :: after = [.recordFailure failed] ++ after from rfl,
      failuresSince_append, if_neg mixed]

/-- After any number of visits that an address won with bad Rcodes, in any interleaving with
calls of other goroutines on its tracker: it is suspect exactly when those calls, after the
last visit's sample, make four or more failures in a row with the one failure that the visit
adds, modulo 256. -/
theorem bad_rcodes_suspect_iff (convert : Int → Int) (iq : IPQualityV2) {addr : String}
    {visits : List Visit} {history : List Event} (many : 4 ≤ visits.length)
    (bad : ∀ v ∈ visits, v.BadFrom addr)
    (own : ownEffects history = visits.flatMap (·.out.effects)) :
    (trackerAfter convert addr iq history).state = .suspect ↔
      4 ≤ failuresInRow (othersBetween addr history) (othersAfter addr history) % 256 := by
  have visited : visits ≠ [] := by
    rintro rfl
    simp at many
  obtain ⟨xs, sampled, ms, between, failed, after, rfl, silentBetween, silentAfter⟩ :=
    split_at_last_visit visited bad own
  obtain ⟨isBetween, isAfter⟩ := others_of_split xs sampled ms failed silentBetween silentAfter
  have calls : callsOn addr (xs ++ .own sampled (.recordLatency addr ms) ::
        (between ++ .own failed (.recordFailure addr) :: after)) =
      callsOn addr xs ++ Call.recordLatency sampled ms ::
        (others between ++ Call.recordFailure failed :: others after) := by
    rw [← callsOn_of_silent silentBetween, ← callsOn_of_silent silentAfter]
    simp [callsOn, Event.call?, callOn]
  have restart : (Call.recordLatency sampled ms).isFailure = false := rfl
  rw [trackerAfter, calls, isBetween, isAfter, ← failuresSince_row _ _ failed,
    StepRuns.run_append]
  exact (run_shows convert (shows_restart convert _ restart) _).suspect_iff

/-- A visit whose only server answers SERVFAIL. -/
def servfailVisit : Visit where
  env := ⟨plainLib, emptySnapshot⟩
  inp := .answered { id := 1, response := true, rcode := rcodeServerFailure }
  request := { id := 1, question := [⟨"a.example.", typeA, classINET⟩] }
  response := { id := 1 }
  ipList := ["192.0.2.1"]

lemma servfailVisits_bad : ∀ v ∈ List.replicate 4 servfailVisit, v.BadFrom "192.0.2.1" := by
  intro v mem
  rw [List.eq_of_mem_replicate mem]
  exact ⟨by decide, by decide, _, rfl, by decide⟩

def servfailHistory (between : List Call) : List Event :=
  (List.replicate 4 servfailVisit).flatMap fun v =>
    (v.out.effects.take 3).map (.own 1) ++ between.map .other ++
      (v.out.effects.drop 3).map (.own 2)

/-- Three timeouts of other queries between the sample and the failure of a visit
make the address suspect. -/
theorem contended_servfail_suspect :
    (trackerAfter id "192.0.2.1" (newIPQualityV2 0)
      (servfailHistory (List.replicate 3 (.recordFailure 1)))).state = .suspect :=
  (bad_rcodes_suspect_iff id (newIPQualityV2 0)
    (by decide) servfailVisits_bad (by decide +kernel)).mpr (by decide +kernel)

/-- Without calls of others four visits leave the address degraded, with one failure
in its counter. -/
theorem servfail_stays_degraded :
    (∀ v ∈ List.replicate 4 servfailVisit, v.BadFrom "192.0.2.1") ∧
      ownEffects (servfailHistory []) =
        (List.replicate 4 servfailVisit).flatMap (·.out.effects) ∧
      (trackerAfter id "192.0.2.1" (newIPQualityV2 0) (servfailHistory [])).state = .degraded ∧
      (trackerAfter id "192.0.2.1" (newIPQualityV2 0) (servfailHistory [])).failCount = 1 :=
  ⟨servfailVisits_bad, by decide +kernel⟩

end ServerDemotion
