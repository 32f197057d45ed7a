import Rec53.WorkerPool
import Rec53.XdpBounds
import Rec53.XdpReply

/-!
# The fast path at work

The program of `server/xdp/dns_cache.c` with its counters, and the goroutines that keep its maps:
`syncToBPFMap` of `server/xdp_sync.go`, which reads the clock before it updates the map, and the
two loops of `server/xdp_metrics.go`. The cleanup collects expired keys first and deletes them
afterwards; packets and syncs may come in between. The iterator of a map that others change may
yield any key that is there, any number of times, and may stop early.

A counter has 64 bits. A gauge is the float64 of its total, which is exact below 2^53; the model
keeps the total. The map handle is taken away by `Shutdown` before the program is detached.
-/

namespace FastPathUpkeep

open DnsMessage Platform WorkerPool XdpBounds XdpCache XdpParser XdpReply

/-! ### The program with its counters -/

def size64 : Nat := 18446744073709551616

inductive Stat where
  | hit
  | miss
  | pass
  | error
  deriving DecidableEq

structure Counters where
  hit : Nat
  miss : Nat
  pass : Nat
  error : Nat
  deriving DecidableEq

namespace Counters

def zero : Counters := ⟨0, 0, 0, 0⟩

def get (c : Counters) : Stat → Nat
  | .hit => c.hit
  | .miss => c.miss
  | .pass => c.pass
  | .error => c.error

def set (c : Counters) (n : Nat) : Stat → Counters
  | .hit => { c with hit := n }
  | .miss => { c with miss := n }
  | .pass => { c with pass := n }
  | .error => { c with error := n }

/-- `stats_inc`. -/
def inc (c : Counters) (idx : Stat) : Counters := c.set ((c.get idx + 1) % size64) idx

lemma get_set (c : Counters) (n : Nat) (st st' : Stat) :
    (c.set n st).get st' = if st = st' then n else c.get st' := by
  cases st with
  | _ =>
    cases st' with
    | _ => rfl

end Counters

/-- Section 8 with its counters. -/
def countedReply (order : ByteOrder) (helpers : Helpers) (query response : Bytes) (c : Counters) :
    Verdict × Counters :=
  if helpers.adjustTail = false then (.pass query, c.inc .error)
  else
    let data := resize query (dnsStart + response.length)
    if ipStart > data.length then (.pass data, c.inc .error)
    else if udpStart > data.length then (.pass data, c.inc .error)
    else if dnsStart > data.length then (.pass data, c.inc .error)
    else if dnsStart + response.length > data.length then (.pass data, c.inc .error)
    else
      let data := rewriteHeaders order query response.length data
      if helpers.storeBytes = false then (.pass data, c.inc .error)
      else
        let data := writeAt data dnsStart response
        if dnsStart + 2 > data.length then (.pass data, c.inc .error)
        else (.tx (writeAt data dnsStart (readAt query dnsStart 2)), c.inc .hit)

/-- `xdp_dns_cache` with its counters. -/
def countedDnsCache (order : ByteOrder) (helpers : Helpers) (m : BpfMap) (mono : Nat) (pkt : Bytes)
    (c : Counters) : Verdict × Counters :=
  match extractKey pkt with
  | .error .pass => (.pass pkt, c.inc .pass)
  | .error .fault => (.fault, c)
  | .ok key =>
    match (lookupKey m key).bind m.lookup with
    | none => (.pass pkt, c.inc .miss)
    | some val =>
      if mono / second > val.expireTs then (.pass pkt, c.inc .miss)
      else if val.response.length = 0 ∨ val.response.length > maxDnsResponseLen then
        (.pass pkt, c.inc .error)
      else countedReply order helpers pkt val.response c

/-- The entry that the map has for the query of a packet. -/
def entryFor (m : BpfMap) (pkt : Bytes) : Option CacheValue :=
  match extractKey pkt with
  | .error _ => none
  | .ok key => (lookupKey m key).bind m.lookup

def Verdict.sent : Verdict → Bool
  | .tx _ => true
  | _ => false

/-- How a packet should count: it is answered, or it is no query, or there is no live entry for
it, or something fails. -/
def classify (order : ByteOrder) (helpers : Helpers) (m : BpfMap) (mono : Nat) (pkt : Bytes) :
    Stat :=
  if Verdict.sent (xdpDnsCache order helpers m mono pkt) then .hit
  else if (extractKey pkt).isOk = false then .pass
  else if (entryFor m pkt).all fun val => decide (mono / second > val.expireTs) then .miss
  else .error

lemma countedReply_eq (order : ByteOrder) (helpers : Helpers) (query response : Bytes)
    (c : Counters) :
    (countedReply order helpers query response c).1 = buildReply order helpers query response ∧
      (countedReply order helpers query response c).2 =
        c.inc (if Verdict.sent (buildReply order helpers query response) then .hit
            else .error) := by
  have length := length_resize query (dnsStart + response.length)
  have eth : ¬ ipStart > dnsStart + response.length := by
    have below : ipStart ≤ dnsStart := by decide
    omega
  have ip : ¬ udpStart > dnsStart + response.length := by
    have below : udpStart ≤ dnsStart := by decide
    omega
  have udp : ¬ dnsStart > dnsStart + response.length := by omega
  simp only [countedReply, buildReply, length, eth, ip, udp, gt_iff_lt, lt_self_iff_false, or_self,
    if_false]
  split
  · exact ⟨rfl, rfl⟩
  split
  · exact ⟨rfl, rfl⟩
  split
  · exact ⟨rfl, rfl⟩
  · exact ⟨rfl, rfl⟩

lemma extractKey_ne_fault (pkt : Bytes) : extractKey pkt ≠ .error .fault := by
  intro fault
  have passed := (extractKey_safe pkt).error _ ((result_extractKeyLogged pkt).trans fault)
  cases passed

/-- The counters do not change what the program does, and each packet counts once, in its
class. -/
theorem countedDnsCache_eq (order : ByteOrder) (helpers : Helpers) (m : BpfMap) (mono : Nat)
    (pkt : Bytes) (c : Counters) :
    (countedDnsCache order helpers m mono pkt c).1 = xdpDnsCache order helpers m mono pkt ∧
      (countedDnsCache order helpers m mono pkt c).2 =
        c.inc (classify order helpers m mono pkt) := by
  cases read : extractKey pkt with
  | error stop =>
    cases stop with
    | fault => exact absurd read (extractKey_ne_fault pkt)
    | pass => simp [countedDnsCache, classify, xdpDnsCache, read, Verdict.sent, Except.isOk,
        Except.toBool]
  | ok key =>
    simp only [countedDnsCache, classify, xdpDnsCache, entryFor, read]
    cases listed : lookupKey m key with
    | none => simp [Verdict.sent, Except.isOk, Except.toBool]
    | some k =>
      simp only [Option.bind_some, lookupResponse]
      rcases Option.eq_none_or_eq_some (m.lookup k) with held | ⟨val, held⟩
      · simp [held, Verdict.sent, Except.isOk, Except.toBool]
      · by_cases expired : mono / second > val.expireTs
        · simp [held, expired, Verdict.sent, Except.isOk, Except.toBool]
        · by_cases unfit : val.response.length = 0 ∨ val.response.length > maxDnsResponseLen
          · simp only [held, expired, unfit, if_true, if_false]
            simp [expired, Verdict.sent, Except.isOk, Except.toBool]
          · obtain ⟨verdict, counted⟩ := countedReply_eq order helpers pkt val.response c
            simp only [held, expired, unfit, if_false, verdict, counted, true_and]
            by_cases sent : Verdict.sent (buildReply order helpers pkt val.response) = true
            · simp [sent]
            · simp [sent, Except.isOk, Except.toBool, expired]

/-! ### The goroutines -/

/-- `attached`: the handle of the map is there to be loaded; `closed`: the program is detached and
its maps are closed. -/
structure Shared where
  mono : Nat
  map : BpfMap
  attached : Bool
  closed : Bool
  stats : List Counters
  gauges : Counters
  cleanupDeleted : Nat
  entries : Nat

inductive Place where
  -- syncToBPFMap
  | sync (name : String) (qtype : Nat) (msg : Msg) (ttlSeconds : Nat)
  | update (key : CacheKey) (val : CacheValue)
  -- startXDPCleanupLoop
  | cleanupWait
  | iterate (nowSec active : Nat) (toDelete : List CacheKey)
  | delete (toDelete : List CacheKey) (active deleted : Nat)
  -- startXDPMetricsLoop
  | statsWait
  | collect (todo : List Stat) (totals : Counters)
  | ended
  deriving DecidableEq

abbrev System := Pool Shared Place

/-- `key`: what the iterator yields; `ok`: the clock, the lookup or the update works, or a tick
comes. -/
structure Choice where
  key : Option CacheKey
  ok : Bool

/-- The value of one counter, summed over the CPUs in a uint64. -/
def perCPUTotal (stats : List Counters) (st : Stat) : Nat :=
  stats.foldl (fun total c => (total + c.get st) % size64) 0

/-- The entry that the iterator yields. -/
def Shared.yields (s : Shared) (c : Choice) : Option (CacheKey × CacheValue) :=
  if s.closed then none
  else
    match c.key with
    | none => none
    | some key => (s.map.lookup key).map fun val => (key, val)

section
variable (lib : Lib) (c : Choice) (s : Shared)

def syncStep : Place → Acted Shared Place
  | .sync name qtype msg ttlSeconds =>
    if s.attached = false then ⟨s, .ended, []⟩
    else
      match buildBPFCacheKey lib name qtype, buildBPFCacheValue lib s.mono msg ttlSeconds with
      | some key, some val => ⟨s, .update key val, []⟩
      | _, _ => ⟨s, .ended, []⟩
  | .update key val =>
    -- a failed update, also one that panics on a closed map, leaves the map as it is
    if s.closed = false ∧ lib.bpfAccepts s.map.keys key = true then
      ⟨{ s with map := s.map.insert key val }, .ended, []⟩
    else ⟨s, .ended, []⟩
  | place => ⟨s, place, []⟩

def cleanupStep : Place → Acted Shared Place
  | .cleanupWait =>
    if c.ok then ⟨s, .iterate (s.mono / second) 0 [], []⟩ else ⟨s, .cleanupWait, []⟩
  | .iterate nowSec active toDelete =>
    match s.yields c with
    | none => ⟨s, .delete toDelete active 0, []⟩
    | some (key, val) =>
      if val.expireTs ≤ nowSec then ⟨s, .iterate nowSec active (toDelete ++ [key]), []⟩
      else ⟨s, .iterate nowSec (active + 1) toDelete, []⟩
  | .delete (key :: toDelete) active deleted =>
    if s.closed = false ∧ (s.map.lookup key).isSome then
      ⟨{ s with map := s.map.erase key }, .delete toDelete active (deleted + 1), []⟩
    else ⟨s, .delete toDelete active deleted, []⟩
  | .delete [] active deleted =>
    ⟨{ s with cleanupDeleted := s.cleanupDeleted + deleted, entries := active }, .cleanupWait, []⟩
  | place => ⟨s, place, []⟩

def metricsStep : Place → Acted Shared Place
  | .statsWait =>
    if c.ok then ⟨s, .collect [.hit, .miss, .pass, .error] .zero, []⟩ else ⟨s, .statsWait, []⟩
  | .collect (st :: todo) totals =>
    if s.closed = false ∧ c.ok then ⟨s, .collect todo (totals.set (perCPUTotal s.stats st) st), []⟩
    else ⟨s, .collect todo totals, []⟩
  | .collect [] totals => ⟨{ s with gauges := totals }, .statsWait, []⟩
  | place => ⟨s, place, []⟩

def advance (place : Place) : Acted Shared Place :=
  match place with
  | .sync _ _ _ _ | .update _ _ => syncStep lib s place
  | .cleanupWait | .iterate _ _ _ | .delete _ _ _ => cleanupStep c s place
  | .statsWait | .collect _ _ => metricsStep c s place
  | .ended => ⟨s, place, []⟩

end

/-- An action of a goroutine, a write of the cache that is synced, a packet on some CPU, or what
comes from outside. -/
inductive Event where
  | advance (i : Nat) (c : Choice)
  | sync (name : String) (qtype : Nat) (msg : Msg) (ttlSeconds : Nat)
  | packet (cpu : Nat) (helpers : Helpers) (pkt : Bytes)
  | pass (d : Nat)
  | detach
  | close

def receive (order : ByteOrder) (s : Shared) (cpu : Nat) (helpers : Helpers) (pkt : Bytes) :
    Shared :=
  if s.closed then s
  else
    { s with
      stats := s.stats.modify (cpu % s.stats.length) fun c =>
        (countedDnsCache order helpers s.map s.mono pkt c).2 }

section
variable (lib : Lib) (order : ByteOrder)

def step (p : System) : Event → System
  | .advance i c => p.act i (advance lib c)
  | .sync name qtype msg ttlSeconds => p.start (.sync name qtype msg ttlSeconds)
  | .packet cpu helpers pkt => { p with shared := receive order p.shared cpu helpers pkt }
  | .pass d => { p with shared := { p.shared with mono := p.shared.mono + d } }
  | .detach => { p with shared := { p.shared with attached := false } }
  | .close => { p with shared := { p.shared with closed := true } }

/-- XDP is attached on a machine with `cpus + 1` CPUs. -/
def attach (mono cpus : Nat) : System where
  shared := {
    mono, map := ∅, attached := true, closed := false
    stats := List.replicate (cpus + 1) .zero, gauges := .zero, cleanupDeleted := 0, entries := 0 }
  workers := [.cleanupWait, .statsWait]

def runFrom (mono cpus : Nat) (events : List Event) : System :=
  StepRuns.run (step lib order) (attach mono cpus) events

end

/-! ### What an action can do -/

inductive Acts (lib : Lib) (s : Shared) : Place → Acted Shared Place → Prop
  | rest {place} : Acts lib s place ⟨s, place, []⟩
  | skipped {name qtype msg ttl} : Acts lib s (.sync name qtype msg ttl) ⟨s, .ended, []⟩
  | built {name qtype msg ttl key val} (keyed : buildBPFCacheKey lib name qtype = some key)
      (valued : buildBPFCacheValue lib s.mono msg ttl = some val) :
      Acts lib s (.sync name qtype msg ttl) ⟨s, .update key val, []⟩
  | updated {key val} (is_open : s.closed = false) : Acts lib s (.update key val)
      ⟨{ s with map := s.map.insert key val }, .ended, []⟩
  | refused {key val} : Acts lib s (.update key val) ⟨s, .ended, []⟩
  | cleanupBegun : Acts lib s .cleanupWait ⟨s, .iterate (s.mono / second) 0 [], []⟩
  | iterated {nowSec active toDelete} :
      Acts lib s (.iterate nowSec active toDelete) ⟨s, .delete toDelete active 0, []⟩
  | expired {nowSec active toDelete key val} (held : s.map.lookup key = some val)
      (past : val.expireTs ≤ nowSec) : Acts lib s (.iterate nowSec active toDelete)
        ⟨s, .iterate nowSec active (toDelete ++ [key]), []⟩
  | live {nowSec active toDelete} : Acts lib s (.iterate nowSec active toDelete)
      ⟨s, .iterate nowSec (active + 1) toDelete, []⟩
  | deleted {key toDelete active deleted} (held : (s.map.lookup key).isSome = true) :
      Acts lib s (.delete (key :: toDelete) active deleted)
        ⟨{ s with map := s.map.erase key }, .delete toDelete active (deleted + 1), []⟩
  | gone {key toDelete active deleted} : Acts lib s (.delete (key :: toDelete) active deleted)
      ⟨s, .delete toDelete active deleted, []⟩
  | cleaned {active deleted} : Acts lib s (.delete [] active deleted)
      ⟨{ s with cleanupDeleted := s.cleanupDeleted + deleted, entries := active }, .cleanupWait, []⟩
  | collectBegun : Acts lib s .statsWait ⟨s, .collect [.hit, .miss, .pass, .error] .zero, []⟩
  | summed {st todo totals} : Acts lib s (.collect (st :: todo) totals)
      ⟨s, .collect todo (totals.set (perCPUTotal s.stats st) st), []⟩
  | unread {st todo totals} :
      Acts lib s (.collect (st :: todo) totals) ⟨s, .collect todo totals, []⟩
  | published {totals} :
      Acts lib s (.collect [] totals) ⟨{ s with gauges := totals }, .statsWait, []⟩

theorem advance_acts (lib : Lib) (c : Choice) (s : Shared) (place : Place) :
    Acts lib s place (advance lib c s place) := by
  cases place with
  | sync name qtype msg ttl =>
    simp only [advance, syncStep]
    split
    · exact .skipped
    split
    · rename_i keyed valued
      exact .built keyed valued
    · exact .skipped
  | update key val =>
    simp only [advance, syncStep]
    split
    · rename_i accepted
      exact .updated accepted.1
    · exact .refused
  | cleanupWait =>
    simp only [advance, cleanupStep]
    split
    · exact .cleanupBegun
    · exact .rest
  | iterate nowSec active toDelete =>
    simp only [advance, cleanupStep]
    split
    · exact .iterated
    · rename_i key val yields
      have held : s.map.lookup key = some val := by
        rw [Shared.yields] at yields
        split at yields
        · cases yields
        split at yields
        · cases yields
        · obtain ⟨val', held, same⟩ := Option.map_eq_some_iff.mp yields
          cases same
          exact held
      split
      · rename_i past
        exact .expired held past
      · exact .live
  | delete toDelete active deleted =>
    cases toDelete with
    | nil => exact .cleaned
    | cons key toDelete =>
      simp only [advance, cleanupStep]
      split
      · rename_i there
        exact .deleted there.2
      · exact .gone
  | statsWait =>
    simp only [advance, metricsStep]
    split
    · exact .collectBegun
    · exact .rest
  | collect todo totals =>
    cases todo with
    | nil => exact .published
    | cons st todo =>
      simp only [advance, metricsStep]
      split
      · exact .summed
      · exact .unread
  | ended => exact .rest

section
variable {lib : Lib} {s : Shared} {place : Place} {a : Acted Shared Place}

lemma Acts.alone (acts : Acts lib s place a) : a.started = [] := by
  cases acts with
  | _ => rfl

/-- What the map has for a key after an action. -/
lemma Acts.lookup (acts : Acts lib s place a) (key : CacheKey) :
    a.shared.map.lookup key = s.map.lookup key ∨
      (∃ val, place = .update key val ∧ a.shared.map.lookup key = some val) ∨
      (∃ toDelete active deleted, place = .delete (key :: toDelete) active deleted ∧
        a.shared.map.lookup key = none) := by
  cases acts with
  | @updated key' val =>
    by_cases here : key = key'
    · subst here
      exact .inr (.inl ⟨val, rfl, AList.lookup_insert _⟩)
    · exact .inl (AList.lookup_insert_ne here)
  | @deleted key' toDelete active deleted =>
    by_cases here : key = key'
    · subst here
      exact .inr (.inr ⟨toDelete, active, deleted, rfl, AList.lookup_erase _ _⟩)
    · exact .inl (AList.lookup_erase_ne here)
  | _ => exact .inl rfl

end

/-! ### Counting packets -/

section
variable (lib : Lib) (order : ByteOrder)

/-- The class of the packet that an event brings. -/
def outcome (p : System) : Event → List Stat
  | .packet _ helpers pkt =>
    if p.shared.closed then [] else [classify order helpers p.shared.map p.shared.mono pkt]
  | _ => []

/-- The classes of all packets of a run. -/
def outcomes (mono cpus : Nat) (events : List Event) : List Stat :=
  StepRuns.emitted (step lib order) (outcome order) (attach mono cpus) events

end

lemma perCPUTotal_eq (stats : List Counters) (st : Stat) :
    perCPUTotal stats st = (stats.map fun c => c.get st).sum % size64 := by
  have from_total (total : Nat) (reduced : total % size64 = total) :
      stats.foldl (fun total c => (total + c.get st) % size64) total =
        (total + (stats.map fun c => c.get st).sum) % size64 := by
    induction stats generalizing total with
    | nil => simp [reduced]
    | cons c rest ih =>
      rw [List.foldl_cons, ih _ (Nat.mod_mod _ _), List.map_cons, List.sum_cons, Nat.mod_add_mod,
        Nat.add_assoc]
  rw [perCPUTotal, from_total 0 (Nat.zero_mod _), Nat.zero_add]

/-- The CPU on which a packet comes counts it. -/
lemma sum_inc {stats : List Counters} {cpu : Nat} (within : cpu < stats.length) (st st' : Stat) :
    ((stats.modify cpu fun c => c.inc st).map fun c => c.get st').sum % size64 =
      ((stats.map fun c => c.get st').sum + if st = st' then 1 else 0) % size64 := by
  induction stats generalizing cpu with
  | nil => cases within
  | cons c rest ih =>
    cases cpu with
    | zero =>
      rw [List.modify_zero_cons, List.map_cons, List.sum_cons, List.map_cons, List.sum_cons,
        Counters.inc, Counters.get_set]
      split
      · rename_i same
        subst same
        rw [Nat.mod_add_mod]
        congr 1
        omega
      · rw [Nat.add_zero]
    | succ cpu =>
      have later := ih (Nat.lt_of_succ_lt_succ within)
      rw [List.modify_succ_cons, List.map_cons, List.sum_cons, List.map_cons, List.sum_cons,
        Nat.add_mod, later, ← Nat.add_mod, Nat.add_assoc]

/-- The counters of all CPUs together are the numbers of packets of each class. -/
structure Tallied (out : List Stat) (p : System) : Prop where
  some_cpu : 0 < p.shared.stats.length
  counted : ∀ st, (p.shared.stats.map fun c => c.get st).sum % size64 = out.count st % size64

section
variable {lib : Lib} {order : ByteOrder}

lemma Acts.stats {s : Shared} {place : Place} {a : Acted Shared Place} (acts : Acts lib s place a) :
    a.shared.stats = s.stats := by
  cases acts with
  | _ => rfl

lemma step_tallied (out : List Stat) (p : System) (e : Event) (tallied : Tallied out p) :
    Tallied (out ++ outcome order p e) (step lib order p e) := by
  have quiet {p' : System} (same : p'.shared.stats = p.shared.stats) : Tallied (out ++ []) p' := by
    rw [List.append_nil]
    exact ⟨same ▸ tallied.some_cpu, same ▸ tallied.counted⟩
  cases e with
  | advance i c =>
    refine quiet ?_
    exact act_shared (P := fun s : Shared => s.stats = p.shared.stats)
      (fun t _ => (advance_acts lib c p.shared t).stats) rfl
  | sync | pass | detach | close => exact quiet rfl
  | packet cpu helpers pkt =>
    simp only [outcome, step, receive]
    split
    · exact quiet rfl
    · have counts : (fun c => (countedDnsCache order helpers p.shared.map p.shared.mono pkt c).2) =
          fun c => c.inc (classify order helpers p.shared.map p.shared.mono pkt) :=
        funext fun c => (countedDnsCache_eq order helpers p.shared.map p.shared.mono pkt c).2
      rw [counts]
      refine ⟨by simpa using tallied.some_cpu, fun st => ?_⟩
      dsimp only
      rw [sum_inc (Nat.mod_lt _ tallied.some_cpu), Nat.add_mod, tallied.counted, ← Nat.add_mod,
        List.count_append]
      congr 2
      by_cases same : classify order helpers p.shared.map p.shared.mono pkt = st
      · simp [same]
      · simp [same]

lemma runFrom_tallied (mono cpus : Nat) (events : List Event) :
    Tallied (outcomes lib order mono cpus events) (runFrom lib order mono cpus events) := by
  have start : Tallied [] (attach mono cpus) := by
    refine ⟨by simp [attach], fun st => ?_⟩
    cases st with
    | _ => simp [attach, Counters.zero, Counters.get]
  exact StepRuns.emitted_invariant (step lib order) (outcome order) step_tallied start events

lemma runFrom_snoc (mono cpus : Nat) (past : List Event) (e : Event) :
    runFrom lib order mono cpus (past ++ [e]) =
      step lib order (runFrom lib order mono cpus past) e :=
  StepRuns.run_snoc ..

end

section
variable {lib : Lib} {order : ByteOrder}

/-- Worker `i` after an event: it stood there before and did not act, it acted, or it has
begun. -/
lemma step_worker (p : System) (e : Event) {i : Nat} {t : Place}
    (at_i : (step lib order p e).workers[i]? = some t) :
    (p.workers[i]? = some t ∧ ∀ c, e ≠ .advance i c) ∨
      (∃ c place, e = .advance i c ∧ p.workers[i]? = some place ∧
        t = (advance lib c p.shared place).worker) ∨
      ∃ name qtype msg ttl, e = .sync name qtype msg ttl ∧ t = .sync name qtype msg ttl := by
  cases e with
  | advance j c =>
    cases at_j : p.workers[j]? with
    | none =>
      rw [step, Pool.act, at_j] at at_i
      refine .inl ⟨at_i, ?_⟩
      rintro c' ⟨rfl, rfl⟩
      rw [at_j] at at_i
      cases at_i
    | some place =>
      by_cases same : j = i
      · subst same
        rw [step, act_self _ at_j] at at_i
        cases at_i
        exact .inr (.inl ⟨c, place, rfl, at_j, rfl⟩)
      · rw [step, Pool.act, at_j] at at_i
        dsimp only at at_i
        rw [(advance_acts lib c p.shared place).alone, List.append_nil,
          List.getElem?_set_ne same] at at_i
        refine .inl ⟨at_i, ?_⟩
        rintro c' ⟨rfl, rfl⟩
        exact same rfl
  | sync name qtype msg ttl =>
    rw [step, Pool.start, List.getElem?_append] at at_i
    split at at_i
    · exact .inl ⟨at_i, fun _ => Event.noConfusion⟩
    · exact .inr (.inr ⟨name, qtype, msg, ttl, rfl,
        List.mem_singleton.mp (List.mem_of_getElem? at_i)⟩)
  | packet | pass | detach | close => exact .inl ⟨at_i, fun _ => Event.noConfusion⟩

end

section
variable (lib : Lib) (order : ByteOrder) (mono cpus : Nat)

/-- Goroutine `i` sets the gauges to the totals of its collection. -/
def Publishes (p : System) (e : Event) (i : Nat) : Prop :=
  (∃ c, e = .advance i c) ∧ ∃ totals, p.workers[i]? = some (.collect [] totals)

/-- Goroutine `i` publishes nothing in the events that come after `past`. -/
def Unpublished (past later : List Event) (i : Nat) : Prop :=
  ∀ pre e post, later = pre ++ e :: post →
    ¬ Publishes (runFrom lib order mono cpus (past ++ pre)) e i

/-- After `past`, goroutine `i` reads the counter of a class: what it gets is the number of
packets of the class so far, or zero when the map is closed or the lookup fails. -/
def Reads (past : List Event) (e : Event) (i : Nat) (st : Stat) (n : Nat) : Prop :=
  ∃ c todo totals, e = .advance i c ∧
    (runFrom lib order mono cpus past).workers[i]? = some (.collect (st :: todo) totals) ∧
    n = if (runFrom lib order mono cpus past).shared.closed = false ∧ c.ok = true then
      (outcomes lib order mono cpus past).count st % size64 else 0

/-- What goroutine `i` has read of a class in the collection it is at. -/
def Collected (events : List Event) (i : Nat) (st : Stat) (n : Nat) : Prop :=
  ∃ past e mid, events = past ++ e :: mid ∧ Reads lib order mono cpus past e i st n ∧
    Unpublished lib order mono cpus (past ++ [e]) mid i

/-- The gauge shows what the last collection that was published has read, and zero before there
was one. -/
def Shows (events : List Event) (st : Stat) (n : Nat) : Prop :=
  (n = 0 ∧ ∀ i, Unpublished lib order mono cpus [] events i) ∨
    ∃ past e later i, events = past ++ e :: later ∧
      Publishes (runFrom lib order mono cpus past) e i ∧
      Collected lib order mono cpus past i st n ∧
      ∀ j, Unpublished lib order mono cpus (past ++ [e]) later j

variable {lib order mono cpus} {events : List Event}

lemma Unpublished.nil {past : List Event} {i : Nat} :
    Unpublished lib order mono cpus past [] i := by
  intro pre e post nothing
  simp at nothing

lemma Unpublished.snoc {past later : List Event} {i : Nat}
    (unpublished : Unpublished lib order mono cpus past later i) {e : Event}
    (quiet : ¬ Publishes (runFrom lib order mono cpus (past ++ later)) e i) :
    Unpublished lib order mono cpus past (later ++ [e]) i := by
  intro pre e' post split
  cases post using List.reverseRecOn with
  | nil =>
    obtain ⟨rfl, same⟩ := List.append_inj' split rfl
    cases same
    exact quiet
  | append_singleton post last =>
    have regroup : pre ++ e' :: (post ++ [last]) = (pre ++ e' :: post) ++ [last] := by simp
    rw [regroup] at split
    exact unpublished pre e' post (List.append_inj' split rfl).1

lemma Collected.snoc {i : Nat} {st : Stat} {n : Nat}
    (collected : Collected lib order mono cpus events i st n) {e : Event}
    (quiet : ¬ Publishes (runFrom lib order mono cpus events) e i) :
    Collected lib order mono cpus (events ++ [e]) i st n := by
  obtain ⟨past, read, mid, rfl, reads, unpublished⟩ := collected
  refine ⟨past, read, mid ++ [e], by simp, reads, unpublished.snoc ?_⟩
  simpa using quiet

lemma Shows.snoc {st : Stat} {n : Nat} (shows : Shows lib order mono cpus events st n) {e : Event}
    (quiet : ∀ i, ¬ Publishes (runFrom lib order mono cpus events) e i) :
    Shows lib order mono cpus (events ++ [e]) st n := by
  rcases shows with ⟨none_yet, unpublished⟩ | ⟨past, e', later, i, rfl, publishes, read, since⟩
  · exact .inl ⟨none_yet, fun i => (unpublished i).snoc (quiet i)⟩
  · refine .inr ⟨past, e', later ++ [e], i, by simp, publishes, read, fun j => (since j).snoc ?_⟩
    simpa using quiet j

lemma get_zero (st : Stat) : Counters.zero.get st = 0 := by
  cases st with
  | _ => rfl

/-- The gauges show a collection, and a collection under way has read some of the counters. -/
structure Shown (lib : Lib) (order : ByteOrder) (mono cpus : Nat) (events : List Event)
    (p : System) : Prop where
  gauges : ∀ st, Shows lib order mono cpus events st (p.shared.gauges.get st)
  once : ∀ (i : Nat) todo totals, p.workers[i]? = some (.collect todo totals) → todo.Nodup
  unread : ∀ (i : Nat) todo totals, p.workers[i]? = some (.collect todo totals) →
    ∀ st ∈ todo, totals.get st = 0
  read : ∀ (i : Nat) todo totals, p.workers[i]? = some (.collect todo totals) →
    ∀ st, st ∉ todo → Collected lib order mono cpus events i st (totals.get st)

/-- The collections after an action: one begins with nothing read, or reads one counter. -/
lemma advance_collect {c : Choice} {s : Shared} {place : Place} {todo : List Stat}
    {totals : Counters} (is : .collect todo totals = (advance lib c s place).worker) :
    (todo = [.hit, .miss, .pass, .error] ∧ totals = .zero) ∨
      ∃ st totals', place = .collect (st :: todo) totals' ∧
        totals = if s.closed = false ∧ c.ok = true then totals'.set (perCPUTotal s.stats st) st
          else totals' := by
  have acts := advance_acts lib c s place
  cases place with
  | collect todo' totals' =>
    cases todo' with
    | nil => cases is
    | cons st todo' =>
      simp only [advance, metricsStep] at is
      split at is
      · rename_i readable
        cases is
        exact .inr ⟨st, totals', rfl, (if_pos readable).symm⟩
      · rename_i unreadable
        cases is
        exact .inr ⟨st, totals, rfl, (if_neg unreadable).symm⟩
  | statsWait =>
    simp only [advance, metricsStep] at is
    split at is
    · cases is
      exact .inl ⟨rfl, rfl⟩
    · cases is
  | _ =>
    generalize advance lib c s _ = a at acts is
    cases acts with
    | _ => cases is

/-- The gauges after an event: they are as before, or the event publishes what was collected. -/
lemma step_gauges (p : System) (e : Event) :
    ((step lib order p e).shared.gauges = p.shared.gauges ∧ ∀ i, ¬ Publishes p e i) ∨
      ∃ i c totals, e = .advance i c ∧ p.workers[i]? = some (.collect [] totals) ∧
        (step lib order p e).shared.gauges = totals := by
  cases e with
  | advance i c =>
    cases at_i : p.workers[i]? with
    | none =>
      refine .inl ⟨by rw [step, Pool.act, at_i], ?_⟩
      rintro j ⟨⟨_, rfl, rfl⟩, totals, here⟩
      rw [at_i] at here
      cases here
    | some place =>
      rw [step, shared_act _ at_i]
      by_cases publishes : ∃ totals, place = .collect [] totals
      · obtain ⟨totals, rfl⟩ := publishes
        exact .inr ⟨i, c, totals, rfl, at_i, rfl⟩
      · refine .inl ⟨?_, ?_⟩
        · have acts := advance_acts lib c p.shared place
          generalize advance lib c p.shared place = a at acts
          cases acts with
          | published => exact absurd ⟨_, rfl⟩ publishes
          | _ => rfl
        · rintro j ⟨⟨_, rfl, rfl⟩, totals, here⟩
          rw [at_i] at here
          cases here
          exact publishes ⟨totals, rfl⟩
  | packet cpu helpers pkt =>
    refine .inl ⟨?_, ?_⟩
    · simp only [step, receive]
      split
      · rfl
      · rfl
    · rintro i ⟨⟨c, is⟩, _⟩
      cases is
  | sync | pass | detach | close =>
    refine .inl ⟨rfl, ?_⟩
    rintro i ⟨⟨c, is⟩, _⟩
    cases is

/-- A collection after an event: it was there before, it begins, or it has read one more counter. -/
lemma step_collect {p : System} {e : Event} {i : Nat} {todo : List Stat} {totals : Counters}
    (here : (step lib order p e).workers[i]? = some (.collect todo totals)) :
    (p.workers[i]? = some (.collect todo totals) ∧ ∀ c, e ≠ .advance i c) ∨
      (todo = [.hit, .miss, .pass, .error] ∧ totals = .zero) ∨
      ∃ c st totals', e = .advance i c ∧ p.workers[i]? = some (.collect (st :: todo) totals') ∧
        totals = if p.shared.closed = false ∧ c.ok = true then
          totals'.set (perCPUTotal p.shared.stats st) st else totals' := by
  rcases step_worker _ e here with before | ⟨c, place, rfl, at_place, is⟩ | ⟨_, _, _, _, _, is⟩
  · exact .inl before
  · rcases advance_collect is with begun | ⟨st, totals', rfl, read⟩
    · exact .inr (.inl begun)
    · exact .inr (.inr ⟨c, st, totals', rfl, at_place, read⟩)
  · cases is

lemma start_shown (mono cpus : Nat) :
    Shown lib order mono cpus [] (runFrom lib order mono cpus []) := by
  have no_collection (i : Nat) (todo : List Stat) (totals : Counters) :
      (runFrom lib order mono cpus []).workers[i]? ≠ some (.collect todo totals) := by
    intro here
    rcases List.mem_pair.mp (List.mem_of_getElem? here) with is | is
    · cases is
    · cases is
  refine ⟨fun st => .inl ⟨get_zero st, fun i => .nil⟩, ?_, ?_, ?_⟩
  · intro i todo totals here
    exact absurd here (no_collection i todo totals)
  · intro i todo totals here
    exact absurd here (no_collection i todo totals)
  · intro i todo totals here
    exact absurd here (no_collection i todo totals)

/-- What a collection has read after an event is what it had read, or the counter of now. -/
lemma Shown.read_snoc {past : List Event} {e : Event}
    (shown : Shown lib order mono cpus past (runFrom lib order mono cpus past)) {i : Nat}
    {todo : List Stat} {totals : Counters}
    (here : (step lib order (runFrom lib order mono cpus past) e).workers[i]? =
      some (.collect todo totals)) {st : Stat} (unlisted : st ∉ todo) :
    Collected lib order mono cpus (past ++ [e]) i st (totals.get st) := by
  have tallied : Tallied (outcomes lib order mono cpus past) (runFrom lib order mono cpus past) :=
    runFrom_tallied mono cpus past
  rcases step_collect here with ⟨before, idle⟩ | ⟨rfl, _⟩ | ⟨c, st', totals', rfl, before, read⟩
  · refine (shown.read i todo totals before st unlisted).snoc ?_
    rintro ⟨⟨c, acts⟩, _⟩
    exact idle c acts
  · cases st with
    | _ => exact absurd (by decide) unlisted
  · by_cases now : st' = st
    · subst now
      refine ⟨past, _, [], rfl, ⟨c, todo, totals', rfl, before, ?_⟩, .nil⟩
      rw [read]
      split
      · rw [Counters.get_set, if_pos rfl, perCPUTotal_eq, tallied.counted]
      · exact shown.unread i _ totals' before st' List.mem_cons_self
    · have quiet : ¬ Publishes (runFrom lib order mono cpus past) (.advance i c) i := by
        rintro ⟨_, totals'', done⟩
        rw [before] at done
        cases done
      have earlier : st ∉ st' :: todo := by
        intro mem
        rcases List.mem_cons.mp mem with same | listed
        · exact now same.symm
        · exact unlisted listed
      have kept : totals.get st = totals'.get st := by
        rw [read]
        split
        · rw [Counters.get_set, if_neg now]
        · rfl
      rw [kept]
      exact (shown.read i _ totals' before st earlier).snoc quiet

theorem runFrom_shown (mono cpus : Nat) (events : List Event) :
    Shown lib order mono cpus events (runFrom lib order mono cpus events) := by
  induction events using List.reverseRecOn with
  | nil => exact start_shown mono cpus
  | append_singleton past e ih =>
    rw [runFrom_snoc]
    refine ⟨?_, ?_, ?_, fun i todo totals here st => ih.read_snoc here⟩
    · intro st
      rcases step_gauges (runFrom lib order mono cpus past) e with
        ⟨same, quiet⟩ | ⟨i, c, totals, rfl, at_i, published⟩
      · rw [same]
        exact (ih.gauges st).snoc quiet
      · rw [published]
        exact .inr ⟨past, _, [], i, rfl, ⟨⟨c, rfl⟩, totals, at_i⟩,
          ih.read i [] totals at_i st List.not_mem_nil, fun j => .nil⟩
    · intro i todo totals here
      rcases step_collect here with ⟨before, _⟩ | ⟨rfl, _⟩ | ⟨c, st, totals', _, before, _⟩
      · exact ih.once i todo totals before
      · decide
      · exact (List.nodup_cons.mp (ih.once i _ totals' before)).2
    · intro i todo totals here st mem
      rcases step_collect here with ⟨before, _⟩ | ⟨_, rfl⟩ | ⟨c, st', totals', _, before, read⟩
      · exact ih.unread i todo totals before st mem
      · exact get_zero st
      · have other : st' ≠ st := by
          rintro rfl
          exact (List.nodup_cons.mp (ih.once i _ totals' before)).1 mem
        have still := ih.unread i _ totals' before st (List.mem_cons_of_mem _ mem)
        rw [read]
        split
        · rw [Counters.get_set, if_neg other, still]
        · exact still

variable (lib order)

/-- The counters are exact. In every interleaving of packets on all CPUs with the goroutines,
the counters of each class add up to the number of packets of that class, modulo the size of a
uint64; and each gauge shows what the last collection that was published has read: the number of
packets of its class when that collection read the counter, or zero if the read failed. Before
there was a collection it shows zero. -/
theorem fast_path_counts (mono cpus : Nat) (events : List Event) (st : Stat) :
    let p := runFrom lib order mono cpus events
    perCPUTotal p.shared.stats st = (outcomes lib order mono cpus events).count st % size64 ∧
      Shows lib order mono cpus events st (p.shared.gauges.get st) := by
  intro p
  refine ⟨?_, (runFrom_shown mono cpus events).gauges st⟩
  rw [perCPUTotal_eq, (runFrom_tallied mono cpus events).counted]

end

/-! ### The entries of the map -/

section
variable (lib : Lib) (order : ByteOrder)

/-- The event is an update of the map that stores the value under the key. -/
def Writes (p : System) (e : Event) (key : CacheKey) (val : CacheValue) : Prop :=
  (∃ i c, e = .advance i c ∧ p.workers[i]? = some (.update key val)) ∧
    (step lib order p e).shared.map.lookup key = some val

variable {lib order}

/-- What the map has for a key after an event: what it had before, what the event writes, or
nothing. -/
lemma step_lookup (p : System) (e : Event) (key : CacheKey) :
    (step lib order p e).shared.map.lookup key = p.shared.map.lookup key ∨
      (∃ val, Writes lib order p e key val) ∨
      (step lib order p e).shared.map.lookup key = none := by
  cases e with
  | advance i c =>
    cases at_i : p.workers[i]? with
    | none =>
      left
      rw [step, Pool.act, at_i]
    | some place =>
      have acts := advance_acts lib c p.shared place
      have shared : (step lib order p (.advance i c)).shared = _ := shared_act _ at_i
      rcases acts.lookup key with same | ⟨val, rfl, written⟩ | ⟨_, _, _, rfl, gone⟩
      · left
        rw [shared]
        exact same
      · exact .inr (.inl ⟨val, ⟨i, c, rfl, at_i⟩, by rw [shared]; exact written⟩)
      · right
        right
        rw [shared]
        exact gone
  | packet cpu helpers pkt =>
    left
    simp only [step, receive]
    split
    · rfl
    · rfl
  | sync | pass | detach | close => exact .inl rfl

lemma step_mono (p : System) (e : Event) : p.shared.mono ≤ (step lib order p e).shared.mono := by
  cases e with
  | advance i c =>
    refine act_shared (P := fun s : Shared => p.shared.mono ≤ s.mono) (fun t _ => ?_)
      (Nat.le_refl _)
    have acts := advance_acts lib c p.shared t
    generalize advance lib c p.shared t = a at acts
    cases acts with
    | _ => exact Nat.le_refl _
  | packet cpu helpers pkt =>
    simp only [step, receive]
    split
    · exact Nat.le_refl _
    · exact Nat.le_refl _
  | pass d => exact Nat.le_add_right _ _
  | sync | detach | close => exact Nat.le_refl _

/-- The keys that a pass of the cleanup has collected and not yet deleted. -/
def Place.toDelete : Place → List CacheKey
  | .iterate _ _ toDelete | .delete toDelete _ _ => toDelete
  | _ => []

lemma Acts.toDelete {s : Shared} {place : Place} {a : Acted Shared Place}
    (acts : Acts lib s place a) {key : CacheKey} (mem : key ∈ a.worker.toDelete) :
    key ∈ place.toDelete ∨ ∃ nowSec active toDelete val, place = .iterate nowSec active toDelete ∧
      s.map.lookup key = some val ∧ val.expireTs ≤ nowSec ∧ a.shared = s := by
  cases acts with
  | rest | iterated | live => exact .inl mem
  | deleted | gone => exact .inl (List.mem_cons_of_mem _ mem)
  | @expired nowSec active toDelete key' val held past =>
    rcases List.mem_append.mp mem with old | new
    · exact .inl old
    · rw [List.mem_singleton.mp new]
      exact .inr ⟨nowSec, active, toDelete, val, rfl, held, past, rfl⟩
  | _ => cases mem

/-- A pass of the cleanup has read the clock before. -/
def Timely (s : Shared) : Place → Prop
  | .iterate nowSec _ _ => nowSec ≤ s.mono / second
  | _ => True

lemma step_timely (p : System) (e : Event) (timely : ∀ t ∈ p.workers, Timely p.shared t) :
    ∀ t ∈ (step lib order p e).workers, Timely (step lib order p e).shared t := by
  intro t mem
  obtain ⟨i, at_i⟩ := List.mem_iff_getElem?.mp mem
  have later : p.shared.mono / second ≤ (step lib order p e).shared.mono / second :=
    Nat.div_le_div_right (step_mono p e)
  have kept {t : Place} (before : Timely p.shared t) : Timely (step lib order p e).shared t := by
    cases t with
    | iterate nowSec active toDelete => exact Nat.le_trans before later
    | _ => trivial
  rcases step_worker p e at_i with
    ⟨before, _⟩ | ⟨c, place, rfl, at_place, rfl⟩ | ⟨_, _, _, _, _, rfl⟩
  · exact kept (timely t (List.mem_of_getElem? before))
  · refine kept ?_
    have before := timely place (List.mem_of_getElem? at_place)
    have acts := advance_acts lib c p.shared place
    generalize advance lib c p.shared place = a at acts
    cases acts with
    | rest | expired | live => exact before
    | cleanupBegun => exact Nat.le_refl _
    | _ => trivial
  · trivial

lemma runFrom_timely (mono cpus : Nat) (events : List Event) :
    ∀ t ∈ (runFrom lib order mono cpus events).workers,
      Timely (runFrom lib order mono cpus events).shared t := by
  refine StepRuns.run_preserves (step lib order)
    (P := fun p => ∀ t ∈ p.workers, Timely p.shared t) step_timely ?_ events
  simp [attach, Timely]

variable (lib order)

/-- The value was written after pass `i` of the cleanup had collected the key. -/
def WrittenSince (mono cpus : Nat) (events : List Event) (i : Nat) (key : CacheKey)
    (val : CacheValue) : Prop :=
  ∃ past e later, events = past ++ e :: later ∧
    Writes lib order (runFrom lib order mono cpus past) e key val ∧
    ∃ t, (runFrom lib order mono cpus past).workers[i]? = some t ∧ key ∈ t.toDelete

variable {lib order}

lemma WrittenSince.snoc {mono cpus : Nat} {events : List Event} {i : Nat} {key : CacheKey}
    {val : CacheValue} (written : WrittenSince lib order mono cpus events i key val) (e : Event) :
    WrittenSince lib order mono cpus (events ++ [e]) i key val := by
  obtain ⟨past, e', later, rfl, writes, collected⟩ := written
  exact ⟨past, e', later ++ [e], by simp, writes, collected⟩

variable (lib order)

/-- The cleanup deletes what is expired. In every interleaving, an entry that a pass of the
cleanup is about to delete has reached the second in which it expires, unless it was written
after that pass had collected its key. -/
theorem cleanup_deletes_expired (mono cpus : Nat) (events : List Event) :
    let p := runFrom lib order mono cpus events
    ∀ i t key val, p.workers[i]? = some t → key ∈ t.toDelete → p.shared.map.lookup key = some val →
      val.expireTs ≤ p.shared.mono / second ∨
        WrittenSince lib order mono cpus events i key val := by
  intro p i t key val at_i mem held
  induction events using List.reverseRecOn generalizing t val with
  | nil =>
    rcases List.mem_pair.mp (List.mem_of_getElem? at_i) with rfl | rfl
    · cases mem
    · cases mem
  | append_singleton past e ih =>
    have timely : ∀ t ∈ (runFrom lib order mono cpus past).workers, Timely _ t :=
      runFrom_timely mono cpus past
    have last : p = step lib order (runFrom lib order mono cpus past) e := runFrom_snoc ..
    rw [last] at at_i held ⊢
    have moved : (runFrom lib order mono cpus past).shared.mono ≤
        (step lib order (runFrom lib order mono cpus past) e).shared.mono := step_mono _ e
    have later := Nat.div_le_div_right (c := second) moved
    -- the key was collected before, or is collected now
    have collected : (∃ t', (runFrom lib order mono cpus past).workers[i]? = some t' ∧
        key ∈ t'.toDelete) ∨
        val.expireTs ≤ (runFrom lib order mono cpus past).shared.mono / second := by
      rcases step_worker _ e at_i with
        ⟨before, _⟩ | ⟨c, place, rfl, at_place, rfl⟩ | ⟨_, _, _, _, _, rfl⟩
      · exact .inl ⟨t, before, mem⟩
      · have acts := advance_acts lib c (runFrom lib order mono cpus past).shared place
        rcases acts.toDelete mem with
          old | ⟨nowSec, active, toDelete, val', rfl, held', expired, same⟩
        · exact .inl ⟨place, at_place, old⟩
        · right
          rw [step, shared_act _ at_place, same, held'] at held
          cases held
          exact Nat.le_trans expired (timely _ (List.mem_of_getElem? at_place))
      · cases mem
    rcases collected with ⟨t', before, old⟩ | expired
    · rcases step_lookup _ e key with same | ⟨val', writes⟩ | gone
      · rw [same] at held
        rcases ih t' val before old held with expired | written
        · exact .inl (Nat.le_trans expired later)
        · exact .inr (written.snoc e)
      · have stored := writes.2
        rw [held] at stored
        cases stored
        exact .inr ⟨past, e, [], rfl, writes, t', before, old⟩
      · rw [gone] at held
        cases held
    · exact .inl (Nat.le_trans expired later)

/-- A goroutine acts, with a good outcome and at the end of an iteration. -/
def goes (i : Nat) : Event := .advance i ⟨none, true⟩

/-- The answer to a query for `a.` is synced, with a TTL of a minute. -/
def syncA (i : Nat) : List Event := [.sync "a." typeA storedMsg 60, goes i, goes i]

def keyA : CacheKey := ⟨[1, 0x61, 0] ++ List.replicate 252 0, typeA⟩

/-- The entry expires and is collected, and is synced again before the cleanup deletes it. -/
def lateSync : List Event :=
  syncA 2 ++ [.pass (61 * second), goes 0, .advance 0 ⟨some keyA, true⟩] ++ syncA 3

/-- The cleanup is about to delete the new entry, and does so. -/
theorem cleanup_deletes_expired_late_sync :
    let run := runFrom storedLib .little 0 1
    (run lateSync).shared.mono / second = 61 ∧
      (run lateSync).shared.map.lookup keyA = some ⟨121, idBytes 0 ++ storedBytes⟩ ∧
      WrittenSince storedLib .little 0 1 lateSync 0 keyA ⟨121, idBytes 0 ++ storedBytes⟩ ∧
      (run (lateSync ++ [goes 0, goes 0])).shared.map.lookup keyA = none := by
  have held : (runFrom storedLib .little 0 1 lateSync).shared.map.lookup keyA =
      some ⟨121, idBytes 0 ++ storedBytes⟩ := by decide +kernel
  have collected : (runFrom storedLib .little 0 1 lateSync).workers[0]? =
      some (.iterate 61 0 [keyA]) := by decide +kernel
  refine ⟨by decide +kernel, held, ?_, by decide +kernel⟩
  refine (cleanup_deletes_expired storedLib .little 0 1 lateSync 0 (.iterate 61 0 [keyA]) keyA _
    collected List.mem_cons_self held).resolve_left ?_
  decide +kernel

/-! ### What is served -/

/-- Goroutine `i` reads the clock and builds key and value from what its sync was called with. -/
structure Builds (p : System) (e : Event) (i : Nat) (name : String) (qtype : Nat) (msg : Msg)
    (ttl : Nat) (key : CacheKey) (val : CacheValue) : Prop where
  acts : ∃ c, e = .advance i c
  called : p.workers[i]? = some (.sync name qtype msg ttl)
  keyed : buildBPFCacheKey lib name qtype = some key
  valued : buildBPFCacheValue lib p.shared.mono msg ttl = some val

/-- The value was built under the key by a sync of the run. -/
def FromSync (mono cpus : Nat) (events : List Event) (key : CacheKey) (val : CacheValue) : Prop :=
  ∃ past e later i name qtype msg ttl, events = past ++ e :: later ∧
    .sync name qtype msg ttl ∈ past ∧
    Builds lib (runFrom lib order mono cpus past) e i name qtype msg ttl key val

variable {lib order} {mono cpus : Nat}

lemma FromSync.snoc {events : List Event} {key : CacheKey} {val : CacheValue}
    (synced : FromSync lib order mono cpus events key val) (e : Event) :
    FromSync lib order mono cpus (events ++ [e]) key val := by
  obtain ⟨past, e', later, i, name, qtype, msg, ttl, rfl, called, builds⟩ := synced
  exact ⟨past, e', later ++ [e], i, name, qtype, msg, ttl, by simp, called, builds⟩

variable (lib order)

end

end FastPathUpkeep
