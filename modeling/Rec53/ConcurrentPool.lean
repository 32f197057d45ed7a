import Rec53.IPPool
import Rec53.RWLock

/-!
# The pool of addresses, shared by all goroutines

`IPPool` of `server/ip_pool.go` as it is used at run time: calls of `GetBestIPsV2`, calls on a
tracker that was looked up before, and the loop that probes suspect addresses and prunes stale
ones. The map `poolV2` is read and written under the lock `l`, and a goroutine that is to write
it first keeps later readers out and then waits for those inside; a tracker has a lock of its own,
so that each call on it is one action, at any time, whoever holds `l`.

Trackers are in memory and a pointer is an index there: a tracker that was pruned can still be
called by a goroutine that had looked it up. `ip` of a tracker is the address it was made for;
the code does not keep it. The order in which a map is iterated, and what an exchange of the
prober brings, are decided outside, and so is how the floats of a score are rounded. Times are in
nanoseconds. The gauges that show the pool and
`SetIPQualityV2`, which only tests call, are left out.
-/

namespace ConcurrentPool

open IPPool IPQuality QueriedAddresses RWLock SliceSort WorkerPool

universe u
variable {α : Type u}

def second : Nat := 1000000000

def staleIPThreshold : Nat := 24 * 60 * 60 * second

def pruneInterval : Nat := 30 * 60 * second

structure Tracker where
  ip : String
  quality : IPQualityV2

structure Shared where
  now : Nat
  trackers : List Tracker
  poolV2 : AList (fun _ : String => Nat)
  l : RWMutex
  exemptIPs : List String
  lastPruneAt : Nat
  cancelled : Bool

inductive Record where
  | latency (value : Int)
  | failure
  deriving DecidableEq

def Record.call (now : Nat) : Record → Call
  | .latency value => .recordLatency now value
  | .failure => .recordFailure now

/-- `ips` is the argument of `GetBestIPsV2` and `todo` what its loop has still to visit. At
`enterCreate` and `enterPrune` the lock was called for and the readers have still to leave. -/
inductive Place (α : Type u) where
  -- GetBestIPsV2
  | rLock (ips : List String)
  | scan (ips todo : List String) (scores : List (String × α))
  | create (ips : List String) (ip : String) (todo : List String) (scores : List (String × α))
  | enterCreate (ips : List String) (ip : String) (todo : List String) (scores : List (String × α))
  | relock (ips : List String) (id : Nat) (ip : String) (todo : List String)
      (scores : List (String × α))
  | rescore (ips : List String) (id : Nat) (ip : String) (todo : List String)
      (scores : List (String × α))
  | chosen (ips : List String) (scores : List (String × α)) (best : String × String)
  -- GetIPQualityV2 and the call on the tracker
  | lookup (ip : String) (r : Record)
  | record (ip : String) (id : Nat) (r : Record)
  -- periodicProbeLoop
  | waitTick
  | startCollect
  | collect (todo candidates : List String)
  | probe (candidates : List String)
  | probed (ip : String) (ok : Bool) (candidates : List String)
  | reset (ip : String) (id : Nat) (candidates : List String)
  | checkPrune
  | startPrune
  | lockPrune (now : Nat)
  | enterPrune (now : Nat)
  | prune (now : Nat) (todo : List String)
  | setPruned
  | ended
  deriving DecidableEq

abbrev System (α : Type u) := Pool Shared (Place α)

/-- `pick`: the key an iteration visits next; `ok`: the exchange succeeds, or a tick comes before
the cancellation is seen. -/
structure Choice where
  pick : Nat
  ok : Bool

/-- ShouldProbe. -/
def shouldProbe (now : Nat) (iq : IPQualityV2) : Bool :=
  if iq.state ≠ .suspect then false
  else
    match iq.lastFailure with
    | none => true
    | some failed => !decide (now < failed + 5 * second)

namespace Shared

/-- A pointer always leads to a tracker. -/
def score (scoring : Scoring α) (s : Shared) (id : Nat) : α :=
  scoring.getScore (((s.trackers[id]?).map Tracker.quality).getD (newIPQualityV2 s.now))

def perform (convert : Int → Int) (s : Shared) (id : Nat) (call : Call) : Shared :=
  { s with
    trackers := s.trackers.modify id fun t =>
      { t with quality := IPQuality.perform convert t.quality call } }

/-- A new tracker goes into memory and into the map. -/
def add (s : Shared) (ip : String) : Shared :=
  { s with
    trackers := s.trackers ++ [⟨ip, newIPQualityV2 s.now⟩]
    poolV2 := s.poolV2.insert ip s.trackers.length }

/-- The tracker that the map has for the address is a candidate. -/
def isCandidate (s : Shared) (ip : String) : Bool :=
  match s.poolV2.lookup ip with
  | none => false
  | some id =>
    match s.trackers[id]? with
    | none => false
    | some t => shouldProbe s.now t.quality

/-- `now` is the time at which the pruning began. -/
def isStale (s : Shared) (now : Nat) (ip : String) : Bool :=
  match s.poolV2.lookup ip with
  | none => false
  | some id =>
    match s.trackers[id]? with
    | none => false
    | some t => decide (t.quality.lastSeen + staleIPThreshold < now)

end Shared

/-- One key of an iteration, and the others. -/
def visit (pick : Nat) (todo : List String) : String × List String :=
  (todo.getD (pick % todo.length) "", todo.eraseIdx (pick % todo.length))

section
variable [LinearOrder α] (scoring : Scoring α) (sorter : Sorter (String × α) LowerScore)
  (convert : Int → Int) (c : Choice) (s : Shared)

def callStep : Place α → Acted Shared (Place α)
  | .rLock ips =>
    match s.l.tryRLock with
    | none => ⟨s, .rLock ips, []⟩
    | some l => ⟨{ s with l }, .scan ips ips [], []⟩
  | .scan ips [] scores =>
    ⟨{ s with l := s.l.rUnlock },
      .chosen ips scores (bestTwo ((sorter.sort scores).map Prod.fst)), []⟩
  | .scan ips (ip :: todo) scores =>
    match s.poolV2.lookup ip with
    | some id => ⟨s, .scan ips todo (scores ++ [(ip, s.score scoring id)]), []⟩
    | none => ⟨{ s with l := s.l.rUnlock }, .create ips ip todo scores, []⟩
  | .create ips ip todo scores =>
    match s.l.claim with
    | none => ⟨s, .create ips ip todo scores, []⟩
    | some l => ⟨{ s with l }, .enterCreate ips ip todo scores, []⟩
  | .enterCreate ips ip todo scores =>
    match s.l.enter with
    | none => ⟨s, .enterCreate ips ip todo scores, []⟩
    | some l =>
      -- another goroutine may have made the tracker since
      match s.poolV2.lookup ip with
      | some id => ⟨{ s with l := l.unlock }, .relock ips id ip todo scores, []⟩
      | none =>
        ⟨{ s.add ip with l := l.unlock }, .relock ips s.trackers.length ip todo scores, []⟩
  | .relock ips id ip todo scores =>
    match s.l.tryRLock with
    | none => ⟨s, .relock ips id ip todo scores, []⟩
    | some l => ⟨{ s with l }, .rescore ips id ip todo scores, []⟩
  | .rescore ips id ip todo scores =>
    ⟨s, .scan ips todo (scores ++ [(ip, s.score scoring id)]), []⟩
  | .lookup ip r =>
    match s.l.tryRLock with
    | none => ⟨s, .lookup ip r, []⟩
    | some _ =>
      match s.poolV2.lookup ip with
      | none => ⟨s, .ended, []⟩
      | some id => ⟨s, .record ip id r, []⟩
  | .record _ id r => ⟨s.perform convert id (r.call s.now), .ended, []⟩
  | place => ⟨s, place, []⟩

def loopStep : Place α → Acted Shared (Place α)
  | .waitTick =>
    if c.ok then ⟨s, .startCollect, []⟩
    else if s.cancelled then ⟨s, .ended, []⟩
    else ⟨s, .waitTick, []⟩
  | .startCollect =>
    match s.l.tryRLock with
    | none => ⟨s, .startCollect, []⟩
    | some l => ⟨{ s with l }, .collect s.poolV2.keys [], []⟩
  | .collect [] candidates => ⟨{ s with l := s.l.rUnlock }, .probe candidates, []⟩
  | .collect (first :: others) candidates =>
    let (ip, todo) := visit c.pick (first :: others)
    ⟨s, .collect todo (if s.isCandidate ip then candidates ++ [ip] else candidates), []⟩
  | .probe [] => ⟨s, .checkPrune, []⟩
  | .probe (ip :: candidates) => ⟨s, .probed ip c.ok candidates, []⟩
  | .probed ip ok candidates =>
    match s.l.tryRLock with
    | none => ⟨s, .probed ip ok candidates, []⟩
    | some _ =>
      match s.poolV2.lookup ip with
      | none => ⟨s, .probe candidates, []⟩
      | some id => ⟨s, if ok then .reset ip id candidates else .probe candidates, []⟩
  | .reset _ id candidates => ⟨s.perform convert id (.resetForProbe s.now), .probe candidates, []⟩
  | .checkPrune =>
    ⟨s, if s.lastPruneAt + pruneInterval ≤ s.now then .startPrune else .waitTick, []⟩
  | .startPrune => ⟨s, .lockPrune s.now, []⟩
  | .lockPrune now =>
    match s.l.claim with
    | none => ⟨s, .lockPrune now, []⟩
    | some l => ⟨{ s with l }, .enterPrune now, []⟩
  | .enterPrune now =>
    match s.l.enter with
    | none => ⟨s, .enterPrune now, []⟩
    | some l => ⟨{ s with l }, .prune now s.poolV2.keys, []⟩
  | .prune _ [] => ⟨{ s with l := s.l.unlock }, .setPruned, []⟩
  | .prune now (first :: others) =>
    let (ip, todo) := visit c.pick (first :: others)
    if ip ∈ s.exemptIPs then ⟨s, .prune now todo, []⟩
    else if s.isStale now ip then ⟨{ s with poolV2 := s.poolV2.erase ip }, .prune now todo, []⟩
    else ⟨s, .prune now todo, []⟩
  | .setPruned => ⟨{ s with lastPruneAt := s.now }, .waitTick, []⟩
  | place => ⟨s, place, []⟩

def advance (place : Place α) : Acted Shared (Place α) :=
  match place with
  | .rLock _ | .scan _ _ _ | .create _ _ _ _ | .enterCreate _ _ _ _ | .relock _ _ _ _ _
  | .rescore _ _ _ _ _ | .lookup _ _ | .record _ _ _ => callStep scoring sorter convert s place
  | .waitTick | .startCollect | .collect _ _ | .probe _ | .probed _ _ _ | .reset _ _ _
  | .checkPrune | .startPrune | .lockPrune _ | .enterPrune _ | .prune _ _ | .setPruned =>
    loopStep convert c s place
  | .chosen _ _ _ | .ended => ⟨s, place, []⟩

end

/-- An action of a goroutine, a call that begins, or what comes from outside. -/
inductive Event where
  | advance (i : Nat) (c : Choice)
  | getBestIPsV2 (ips : List String)
  | record (ip : String) (r : Record)
  | pass (d : Nat)
  | cancel

section
variable [LinearOrder α] (scoring : Scoring α) (sorter : Sorter (String × α) LowerScore)
  (convert : Int → Int)

def step (p : System α) : Event → System α
  | .advance i c => p.act i (advance scoring sorter convert c)
  | .getBestIPsV2 ips => p.start (.rLock ips)
  | .record ip r => p.start (.lookup ip r)
  | .pass d => { p with shared := { p.shared with now := p.shared.now + d } }
  | .cancel => { p with shared := { p.shared with cancelled := true } }

end

/-- `StartProbeLoop` of a new pool, at the time `start`. -/
def startProbeLoop (start : Nat) (exemptIPs : List String) : System α where
  shared := {
    now := start, trackers := [], poolV2 := ∅, l := .unlocked, exemptIPs
    lastPruneAt := start, cancelled := false }
  workers := [.waitTick]

/-! ### What an action can do -/

lemma visit_perm (pick : Nat) {todo : List String} (some_left : todo ≠ []) :
    ((visit pick todo).1 :: (visit pick todo).2).Perm todo := by
  have within : pick % todo.length < todo.length :=
    Nat.mod_lt _ (List.length_pos_iff.mpr some_left)
  rw [visit, List.getD_eq_getElem _ _ within]
  exact List.getElem_cons_eraseIdx_perm within

inductive Acts [LinearOrder α] (scoring : Scoring α) (sorter : Sorter (String × α) LowerScore)
    (convert : Int → Int) (s : Shared) : Place α → Acted Shared (Place α) → Prop
  | rest {place} : Acts scoring sorter convert s place ⟨s, place, []⟩
  | scanBegun {ips} (free : s.l.claimed = false) : Acts scoring sorter convert s (.rLock ips)
      ⟨{ s with l := { s.l with readers := s.l.readers + 1 } }, .scan ips ips [], []⟩
  | scanEnded {ips scores} : Acts scoring sorter convert s (.scan ips [] scores)
      ⟨{ s with l := s.l.rUnlock },
        .chosen ips scores (bestTwo ((sorter.sort scores).map Prod.fst)), []⟩
  | scored {ips ip todo scores id} (known : s.poolV2.lookup ip = some id) :
      Acts scoring sorter convert s (.scan ips (ip :: todo) scores)
        ⟨s, .scan ips todo (scores ++ [(ip, s.score scoring id)]), []⟩
  | missed {ips ip todo scores} : Acts scoring sorter convert s (.scan ips (ip :: todo) scores)
      ⟨{ s with l := s.l.rUnlock }, .create ips ip todo scores, []⟩
  | createClaimed {ips ip todo scores} (free : s.l.claimed = false) :
      Acts scoring sorter convert s (.create ips ip todo scores)
        ⟨{ s with l := { s.l with waiting := true } }, .enterCreate ips ip todo scores, []⟩
  | found {ips ip todo scores id} (free : s.l.writer = false)
      (known : s.poolV2.lookup ip = some id) :
      Acts scoring sorter convert s (.enterCreate ips ip todo scores)
        ⟨{ s with l := { s.l with waiting := false, writer := false } },
          .relock ips id ip todo scores, []⟩
  | created {ips ip todo scores} (free : s.l.writer = false)
      (unknown : s.poolV2.lookup ip = none) :
      Acts scoring sorter convert s (.enterCreate ips ip todo scores)
        ⟨{ s.add ip with l := { s.l with waiting := false, writer := false } },
          .relock ips s.trackers.length ip todo scores, []⟩
  | relocked {ips id ip todo scores} (free : s.l.claimed = false) :
      Acts scoring sorter convert s (.relock ips id ip todo scores)
        ⟨{ s with l := { s.l with readers := s.l.readers + 1 } }, .rescore ips id ip todo scores,
          []⟩
  | rescored {ips id ip todo scores} :
      Acts scoring sorter convert s (.rescore ips id ip todo scores)
        ⟨s, .scan ips todo (scores ++ [(ip, s.score scoring id)]), []⟩
  | unknown {ip r} : Acts scoring sorter convert s (.lookup ip r) ⟨s, .ended, []⟩
  | lookedUp {ip r id} (known : s.poolV2.lookup ip = some id) :
      Acts scoring sorter convert s (.lookup ip r) ⟨s, .record ip id r, []⟩
  | recorded {ip id r} : Acts scoring sorter convert s (.record ip id r)
      ⟨s.perform convert id (r.call s.now), .ended, []⟩
  | ticked : Acts scoring sorter convert s .waitTick ⟨s, .startCollect, []⟩
  | loopEnded : Acts scoring sorter convert s .waitTick ⟨s, .ended, []⟩
  | collectBegun (free : s.l.claimed = false) : Acts scoring sorter convert s .startCollect
      ⟨{ s with l := { s.l with readers := s.l.readers + 1 } }, .collect s.poolV2.keys [], []⟩
  | collectEnded {candidates} : Acts scoring sorter convert s (.collect [] candidates)
      ⟨{ s with l := s.l.rUnlock }, .probe candidates, []⟩
  | collected {todo todo' candidates candidates'} :
      Acts scoring sorter convert s (.collect todo candidates) ⟨s, .collect todo' candidates', []⟩
  | allProbed : Acts scoring sorter convert s (.probe []) ⟨s, .checkPrune, []⟩
  | exchanged {ip ok candidates} :
      Acts scoring sorter convert s (.probe (ip :: candidates)) ⟨s, .probed ip ok candidates, []⟩
  | probeSkipped {ip ok candidates} :
      Acts scoring sorter convert s (.probed ip ok candidates) ⟨s, .probe candidates, []⟩
  | probeFound {ip candidates id} (known : s.poolV2.lookup ip = some id) :
      Acts scoring sorter convert s (.probed ip true candidates) ⟨s, .reset ip id candidates, []⟩
  | wasReset {ip id candidates} : Acts scoring sorter convert s (.reset ip id candidates)
      ⟨s.perform convert id (.resetForProbe s.now), .probe candidates, []⟩
  | pruneDue : Acts scoring sorter convert s .checkPrune ⟨s, .startPrune, []⟩
  | pruneNotDue : Acts scoring sorter convert s .checkPrune ⟨s, .waitTick, []⟩
  | pruneTimed : Acts scoring sorter convert s .startPrune ⟨s, .lockPrune s.now, []⟩
  | pruneClaimed {now} (free : s.l.claimed = false) :
      Acts scoring sorter convert s (.lockPrune now)
        ⟨{ s with l := { s.l with waiting := true } }, .enterPrune now, []⟩
  | pruneBegun {now} (free : s.l.writer = false) (unread : s.l.readers = 0) :
      Acts scoring sorter convert s (.enterPrune now)
        ⟨{ s with l := { s.l with waiting := false, writer := true } },
          .prune now s.poolV2.keys, []⟩
  | kept {now todo ip todo'} (perm : (ip :: todo').Perm todo)
      (fresh : ip ∈ s.exemptIPs ∨ s.isStale now ip = false) :
      Acts scoring sorter convert s (.prune now todo) ⟨s, .prune now todo', []⟩
  | pruned {now todo ip todo'} (perm : (ip :: todo').Perm todo) (subject : ip ∉ s.exemptIPs)
      (stale : s.isStale now ip = true) : Acts scoring sorter convert s (.prune now todo)
        ⟨{ s with poolV2 := s.poolV2.erase ip }, .prune now todo', []⟩
  | pruneEnded {now} : Acts scoring sorter convert s (.prune now [])
      ⟨{ s with l := s.l.unlock }, .setPruned, []⟩
  | pruneNoted : Acts scoring sorter convert s .setPruned
      ⟨{ s with lastPruneAt := s.now }, .waitTick, []⟩

section
variable [LinearOrder α] (scoring : Scoring α) (sorter : Sorter (String × α) LowerScore)
  (convert : Int → Int) (c : Choice) (s : Shared)

lemma callStep_acts (place : Place α) :
    Acts scoring sorter convert s place (callStep scoring sorter convert s place) := by
  cases place with
  | rLock ips =>
    rw [callStep]
    split
    · exact .rest
    · rename_i l taken
      obtain ⟨free, rfl⟩ := RWMutex.tryRLock_eq_some.mp taken
      exact .scanBegun free
  | scan ips todo scores =>
    cases todo with
    | nil => exact .scanEnded
    | cons ip todo =>
      rw [callStep]
      split
      · rename_i known
        exact .scored known
      · exact .missed
  | create ips ip todo scores =>
    rw [callStep]
    split
    · exact .rest
    · rename_i l called
      obtain ⟨free, rfl⟩ := RWMutex.claim_eq_some.mp called
      exact .createClaimed free
  | enterCreate ips ip todo scores =>
    rw [callStep]
    split
    · exact .rest
    · rename_i l entered
      obtain ⟨free, _, rfl⟩ := RWMutex.enter_eq_some.mp entered
      split
      · rename_i known
        exact .found free known
      · rename_i unknown
        exact .created free unknown
  | relock ips id ip todo scores =>
    rw [callStep]
    split
    · exact .rest
    · rename_i l taken
      obtain ⟨free, rfl⟩ := RWMutex.tryRLock_eq_some.mp taken
      exact .relocked free
  | rescore ips id ip todo scores => exact .rescored
  | lookup ip r =>
    rw [callStep]
    split
    · exact .rest
    split
    · exact .unknown
    · rename_i known
      exact .lookedUp known
  | record ip id r => exact .recorded
  | _ => exact .rest

lemma loopStep_acts (place : Place α) :
    Acts scoring sorter convert s place (loopStep convert c s place) := by
  cases place with
  | waitTick =>
    rw [loopStep]
    split
    · exact .ticked
    split
    · exact .loopEnded
    · exact .rest
  | startCollect =>
    rw [loopStep]
    split
    · exact .rest
    · rename_i l taken
      obtain ⟨free, rfl⟩ := RWMutex.tryRLock_eq_some.mp taken
      exact .collectBegun free
  | collect todo candidates =>
    cases todo with
    | nil => exact .collectEnded
    | cons first others => exact .collected
  | probe candidates =>
    cases candidates with
    | nil => exact .allProbed
    | cons ip candidates => exact .exchanged
  | probed ip ok candidates =>
    rw [loopStep]
    split
    · exact .rest
    split
    · exact .probeSkipped
    · rename_i known
      cases ok with
      | true => exact .probeFound known
      | false => exact .probeSkipped
  | reset ip id candidates => exact .wasReset
  | checkPrune =>
    rw [loopStep]
    split
    · exact .pruneDue
    · exact .pruneNotDue
  | startPrune => exact .pruneTimed
  | lockPrune now =>
    rw [loopStep]
    split
    · exact .rest
    · rename_i l called
      obtain ⟨free, rfl⟩ := RWMutex.claim_eq_some.mp called
      exact .pruneClaimed free
  | enterPrune now =>
    rw [loopStep]
    split
    · exact .rest
    · rename_i l entered
      obtain ⟨free, unread, rfl⟩ := RWMutex.enter_eq_some.mp entered
      exact .pruneBegun free unread
  | prune now todo =>
    cases todo with
    | nil => exact .pruneEnded
    | cons first others =>
      have perm := visit_perm c.pick (List.cons_ne_nil first others)
      rw [loopStep]
      dsimp only
      split
      · rename_i exempt
        exact .kept perm (.inl exempt)
      · rename_i subject
        split
        · rename_i stale
          exact .pruned perm subject stale
        · rename_i fresh
          exact .kept perm (.inr (Bool.eq_false_iff.mpr fresh))
  | setPruned => exact .pruneNoted
  | _ => exact .rest

theorem advance_acts (place : Place α) :
    Acts scoring sorter convert s place (advance scoring sorter convert c s place) := by
  rw [advance.eq_def]
  split
  all_goals first
    | exact callStep_acts scoring sorter convert s _
    | exact loopStep_acts scoring sorter convert c s _

end

end ConcurrentPool
