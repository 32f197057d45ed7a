import Rec53.LimiterAccounting

/-!
# The shards of the limiter

`expensiveRequestLimiter` keeps its clients in shards, each with a lock of its own, and the shard
of a client is found by a hash of the address. A section of a call locks one shard at most, that
of its client. Here the limiter is modelled with its shards, and shown to be the limiter with one
map in every interleaving of calls: a section sees the same entry, gives the same answer, and
leaves every other client alone. What is proved of the one map so holds of the shards.
-/

namespace ShardedLimiter

open HotZone WorkerPool RequestLimiter

universe u
variable {Addr : Type u} [DecidableEq Addr]

/-! ### The shard of an address -/

/-- The loop over the bytes in `expensiveRequestShardIndex`. -/
def shardHash (bytes : List UInt8) : UInt32 :=
  bytes.foldl (fun hash v => (hash ^^^ v.toUInt32) * 16777619) 2166136261

def expensiveRequestShardIndex (bytes : List UInt8) (shardCount : Nat) : Nat :=
  if shardCount ≤ 1 then 0 else (shardHash bytes % UInt32.ofNat shardCount).toNat

/-- The index is that of a shard, as long as the number of shards is one of 32 bits. -/
lemma expensiveRequestShardIndex_lt (bytes : List UInt8) {shardCount : Nat}
    (some_shard : 0 < shardCount) (few : shardCount < 4294967296) :
    expensiveRequestShardIndex bytes shardCount < shardCount := by
  rw [expensiveRequestShardIndex]
  split
  · exact some_shard
  · rw [UInt32.toNat_mod, UInt32.toNat_ofNat_of_lt' few]
    exact Nat.mod_lt _ some_shard

/-! ### The limiter and its calls -/

structure Limiter (Addr : Type u) where
  limit : Nat
  observeWouldRefuse : Bool
  shards : List (AList (fun _ : Addr => ClientState))
  hotZone : Controller

def newExpensiveRequestLimiter (lib : ZoneLib) (numCPU : Nat) (cfg : Config) :
    Option (Limiter Addr) :=
  if cfg.mode ≠ .enabled then none
  else
    some ⟨normalizeLimit numCPU cfg.limit, cfg.observeWouldRefuse,
      List.replicate (if numCPU < 1 then 1 else numCPU) ∅,
      newHotZoneController lib cfg.hotZoneBaseSuffixes⟩

structure Shared (Addr : Type u) where
  limiter : Limiter Addr
  counted : List (LimitEvent Addr)

section
variable (as16 : Addr → List UInt8)

def Limiter.shardFor (l : Limiter Addr) (clientIP : Addr) : Nat :=
  expensiveRequestShardIndex (as16 clientIP) l.shards.length

/-- The clients that a section may lock: those of the shard of its own client. -/
def Limiter.clientsFor (l : Limiter Addr) : Option Addr → AList (fun _ : Addr => ClientState)
  | none => ∅
  | some clientIP => l.shards.getD (l.shardFor as16 clientIP) ∅

/-- What a section reads. -/
def Shared.view (s : Shared Addr) (clientIP : Option Addr) : RequestLimiter.Shared Addr :=
  ⟨⟨s.limiter.limit, s.limiter.observeWouldRefuse, s.limiter.clientsFor as16 clientIP,
    s.limiter.hotZone⟩, s.counted⟩

/-- What a section leaves: the shard of its client, the controller and the counted events. -/
def Shared.update (s : Shared Addr) (clientIP : Option Addr) (out : RequestLimiter.Shared Addr) :
    Shared Addr :=
  let shards := match clientIP with
    | none => s.limiter.shards
    | some c => s.limiter.shards.set (s.limiter.shardFor as16 c) out.limiter.clients
  ⟨{ s.limiter with shards := shards, hotZone := out.limiter.hotZone }, out.counted⟩

def begin (place : Place) (s : Shared Addr) (r : Request Addr) :
    Acted (Shared Addr) (Request Addr) :=
  ⟨s, { r with calls := r.calls ++ [place] }, []⟩

/-- The code of a section is that of `callStep`, with the shard in place of the one map. -/
def advance (lib : ZoneLib) (tick : Tick) (k : Nat) (s : Shared Addr) (r : Request Addr) :
    Acted (Shared Addr) (Request Addr) :=
  match r.calls[k]? with
  | none => ⟨s, r, []⟩
  | some place =>
    let out := callStep lib tick (s.view as16 r.holder.clientIP) r.holder place
    ⟨s.update as16 r.holder.clientIP out.shared, ⟨out.holder, r.calls.set k out.place⟩, []⟩

def step (lib : ZoneLib) (p : Pool (Shared Addr) (Request Addr)) :
    Event Addr → Pool (Shared Addr) (Request Addr)
  | .arrive clientIP => p.start ⟨newExpensiveRequestHolder clientIP, []⟩
  | .tryAcquire i path qname matchedForwardZone =>
    p.act i (begin (.check path qname matchedForwardZone))
  | .releaseIfHeld i => p.act i (begin .takeOff)
  | .advance i k tick => p.act i (advance as16 lib tick k)

def runFrom (lib : ZoneLib) (l : Limiter Addr) (events : List (Event Addr)) :
    Pool (Shared Addr) (Request Addr) :=
  StepRuns.run (step as16 lib) ⟨⟨l, []⟩, []⟩ events

end

/-! ### A section is a matter of one client -/

section
variable {lib : ZoneLib} {tick : Tick} {h : Holder Addr}

/-- The two states are the same to the sections of the client. -/
structure Agree (client : Option Addr) (s t : RequestLimiter.Shared Addr) : Prop where
  limit : s.limiter.limit = t.limiter.limit
  observe : s.limiter.observeWouldRefuse = t.limiter.observeWouldRefuse
  hotZone : s.limiter.hotZone = t.limiter.hotZone
  counted : s.counted = t.counted
  clients : ∀ c ∈ client, s.limiter.clients.lookup c = t.limiter.clients.lookup c

/-- A section cannot tell the two states apart. -/
structure Alike (client : Option Addr) (out out' : Stepped Addr) : Prop where
  shared : Agree client out.shared out'.shared
  holder : out.holder = out'.holder
  place : out.place = out'.place

lemma lookup_setState (l : RequestLimiter.Limiter Addr) (c : Addr) (state : ClientState) :
    (l.setState c state).clients.lookup c = some state :=
  AList.lookup_insert _

/-- The answer, the event and the new entry depend on the entry of the client only. -/
lemma tryAcquire_alike (lib : ZoneLib) {l l' : RequestLimiter.Limiter Addr} {c : Addr}
    (limit : l.limit = l'.limit)
    (observe : l.observeWouldRefuse = l'.observeWouldRefuse)
    (entry : l.clients.lookup c = l'.clients.lookup c) (path : Path) (now : Nat) :
    ∃ allowed event state, l.tryAcquire lib c path now = (allowed, event, l.setState c state) ∧
      l'.tryAcquire lib c path now = (allowed, event, l'.setState c state) := by
  have state : l.stateOf c = l'.stateOf c := by
    rw [Limiter.stateOf, Limiter.stateOf, entry]
  have inflight : l.inflight c = l'.inflight c := by
    rw [Limiter.inflight, Limiter.inflight, state]
  rw [Limiter.tryAcquire, Limiter.tryAcquire, limit, observe, inflight, state]
  by_cases full : l'.limit ≤ l'.inflight c
  · rw [if_pos full, if_pos full]
    exact ⟨_, _, _, rfl, rfl⟩
  · rw [if_neg full, if_neg full]
    exact ⟨_, _, _, rfl, rfl⟩

lemma release_alike {l l' : RequestLimiter.Limiter Addr} {c : Addr}
    (entry : l.clients.lookup c = l'.clients.lookup c) :
    (l.release c).clients.lookup c = (l'.release c).clients.lookup c := by
  rw [Limiter.release, Limiter.release, entry]
  cases found : l'.clients.lookup c with
  | none => exact entry
  | some state =>
    dsimp only
    generalize (if 0 < state.inflight then { state with inflight := state.inflight - 1 }
      else state) = rest
    by_cases last : rest.inflight = 0
    · rw [if_pos last, if_pos last]
      simp
    · rw [if_neg last, if_neg last]
      exact (lookup_setState l c rest).trans (lookup_setState l' c rest).symm

/-- Only the hot-zone controller changes. -/
lemma Agree.zone {client : Option Addr} {s t : RequestLimiter.Shared Addr}
    (agree : Agree client s t) (hotZone : Controller) :
    Agree client (s.setLimiter { s.limiter with hotZone := hotZone })
      (t.setLimiter { t.limiter with hotZone := hotZone }) :=
  ⟨agree.limit, agree.observe, rfl, agree.counted, agree.clients⟩

lemma releaseHotZone_agree {client : Option Addr} {s t : RequestLimiter.Shared Addr}
    (agree : Agree client s t) (ticket : Nat) :
    Agree client (s.releaseHotZone lib tick ticket) (t.releaseHotZone lib tick ticket) := by
  rw [Shared.releaseHotZone, Shared.releaseHotZone, agree.hotZone]
  exact agree.zone _

lemma releaseSlot_agree {client : Option Addr} {s t : RequestLimiter.Shared Addr}
    (agree : Agree client s t) : Agree client (s.releaseSlot client) (t.releaseSlot client) := by
  obtain ⟨hotZone, limit, observe⟩ := LimiterAccounting.releaseSlot_frame s client
  obtain ⟨hotZone', limit', observe'⟩ := LimiterAccounting.releaseSlot_frame t client
  refine ⟨?_, ?_, ?_, ?_, ?_⟩
  · rw [limit, limit', agree.limit]
  · rw [observe, observe', agree.observe]
  · rw [hotZone, hotZone', agree.hotZone]
  · cases client with
    | none => exact agree.counted
    | some c => exact agree.counted
  · rintro c ⟨⟩
    exact release_alike (agree.clients c rfl)

lemma enterZone_alike {s t : RequestLimiter.Shared Addr} (agree : Agree h.clientIP s t)
    (path : Path) (qname zone : String) :
    Alike h.clientIP (enterZoneStep lib tick s h path qname zone)
      (enterZoneStep lib tick t h path qname zone) := by
  rw [enterZoneStep, enterZoneStep, agree.hotZone]
  split
  · exact ⟨agree.zone _, rfl, rfl⟩
  · exact ⟨agree.zone _, rfl, rfl⟩

lemma takeSlot_alike {s t : RequestLimiter.Shared Addr} (agree : Agree h.clientIP s t) (path : Path)
    (ticket : Nat) : Alike h.clientIP (takeSlotStep lib tick s h path ticket)
      (takeSlotStep lib tick t h path ticket) := by
  rw [takeSlotStep, takeSlotStep]
  cases client : h.clientIP with
  | none =>
    rw [client] at agree
    exact ⟨agree, rfl, rfl⟩
  | some c =>
    rw [client] at agree
    obtain ⟨allowed, event, state, taken, taken'⟩ := tryAcquire_alike lib agree.limit
      agree.observe (agree.clients c rfl) path tick.now
    simp only [taken, taken']
    refine ⟨⟨agree.limit, agree.observe, agree.hotZone, ?_, ?_⟩, rfl, rfl⟩
    · rw [agree.counted]
    · rintro _ ⟨⟩
      exact (lookup_setState _ _ _).trans (lookup_setState _ _ _).symm

theorem callStep_alike (lib : ZoneLib) (tick : Tick) {s t : RequestLimiter.Shared Addr}
    (agree : Agree h.clientIP s t) (place : Place) :
    Alike h.clientIP (callStep lib tick s h place) (callStep lib tick t h place) := by
  cases place with
  | check path qname zone =>
    simp only [callStep]
    split
    · exact ⟨agree, rfl, rfl⟩
    · split
      · exact ⟨agree, rfl, rfl⟩
      · exact ⟨agree, rfl, rfl⟩
  | enterZone path qname zone => exact enterZone_alike agree path qname zone
  | takeSlot path ticket => exact takeSlot_alike agree path ticket
  | dropTicket ticket => exact ⟨releaseHotZone_agree agree ticket, rfl, rfl⟩
  | commit ticket =>
    simp only [callStep]
    split
    · exact ⟨agree, rfl, rfl⟩
    · exact ⟨agree, rfl, rfl⟩
  | undoSlot ticket => exact ⟨releaseSlot_agree agree, rfl, rfl⟩
  | undoTicket ticket => exact ⟨releaseHotZone_agree agree ticket, rfl, rfl⟩
  | takeOff =>
    simp only [callStep]
    split
    · exact ⟨agree, rfl, rfl⟩
    · split
      · exact ⟨agree, rfl, rfl⟩
      · exact ⟨agree, rfl, rfl⟩
  | giveSlot hotZoneHeld ticket => exact ⟨releaseSlot_agree agree, rfl, rfl⟩
  | giveTicket ticket => exact ⟨releaseHotZone_agree agree ticket, rfl, rfl⟩
  | returned allowed => exact ⟨agree, rfl, rfl⟩
  | released => exact ⟨agree, rfl, rfl⟩

/-- What a section leaves alone. -/
structure Framed (client : Option Addr) (s t : RequestLimiter.Shared Addr) : Prop where
  limit : t.limiter.limit = s.limiter.limit
  observe : t.limiter.observeWouldRefuse = s.limiter.observeWouldRefuse
  others : ∀ c, c ∉ client → t.limiter.clients.lookup c = s.limiter.clients.lookup c

lemma setState_framed (s : RequestLimiter.Shared Addr) (c : Addr) (state : ClientState)
    (counted : List (LimitEvent Addr)) :
    Framed (some c) s ⟨s.limiter.setState c state, counted⟩ := by
  refine ⟨rfl, rfl, fun c' other => AList.lookup_insert_ne fun same => ?_⟩
  exact other (congrArg some same.symm)

lemma releaseSlot_framed (s : RequestLimiter.Shared Addr) (client : Option Addr) :
    Framed client s (s.releaseSlot client) := by
  cases client with
  | none => exact ⟨rfl, rfl, fun _ _ => rfl⟩
  | some c =>
    simp only [Shared.releaseSlot, Shared.setLimiter]
    rcases s.limiter.release_spec c with ⟨_, same⟩ | ⟨_, erased⟩ | ⟨_, state, _, kept⟩
    · rw [same]
      exact ⟨rfl, rfl, fun _ _ => rfl⟩
    · rw [erased]
      refine ⟨rfl, rfl, fun c' other => AList.lookup_erase_ne fun same => ?_⟩
      exact other (congrArg some same.symm)
    · rw [kept]
      exact setState_framed s c state _

theorem callStep_framed (s : RequestLimiter.Shared Addr) (place : Place) :
    Framed h.clientIP s (callStep lib tick s h place).shared := by
  have ran := callStep_ran lib tick s h place
  generalize callStep lib tick s h place = out at ran ⊢
  cases ran with
  | slotTaken client =>
    rw [client]
    exact setState_framed s _ _ _
  | slotFull client =>
    rw [client]
    exact setState_framed s _ _ _
  | slotUndone => exact releaseSlot_framed s h.clientIP
  | slotGiven => exact releaseSlot_framed s h.clientIP
  | _ => exact ⟨rfl, rfl, fun _ _ => rfl⟩

end

/-! ### The shards are one map -/

section
variable (as16 : Addr → List UInt8)

/-- The shards hold what the one map holds, each for the addresses that belong there. -/
structure Mirrors (s : Shared Addr) (t : RequestLimiter.Shared Addr) : Prop where
  limit : s.limiter.limit = t.limiter.limit
  observe : s.limiter.observeWouldRefuse = t.limiter.observeWouldRefuse
  hotZone : s.limiter.hotZone = t.limiter.hotZone
  counted : s.counted = t.counted
  shards : ∀ (k : Nat) clients, s.limiter.shards[k]? = some clients → ∀ c,
    clients.lookup c =
      if k = s.limiter.shardFor as16 c then t.limiter.clients.lookup c else none
  some_shard : 0 < s.limiter.shards.length
  few : s.limiter.shards.length < 4294967296

variable {as16} {s : Shared Addr} {t : RequestLimiter.Shared Addr}

/-- The shard of a client is there. -/
lemma Mirrors.shard (mirrors : Mirrors as16 s t) (c : Addr) :
    s.limiter.shards[s.limiter.shardFor as16 c]? = some (s.limiter.clientsFor as16 (some c)) := by
  have within := expensiveRequestShardIndex_lt (as16 c) mirrors.some_shard mirrors.few
  rw [Limiter.clientsFor, List.getD_eq_getElem?_getD, Limiter.shardFor,
    List.getElem?_eq_getElem within]
  rfl

lemma Mirrors.lookup (mirrors : Mirrors as16 s t) (c : Addr) :
    (s.limiter.clientsFor as16 (some c)).lookup c = t.limiter.clients.lookup c := by
  rw [mirrors.shards _ _ (mirrors.shard c) c, if_pos rfl]

lemma Mirrors.agree (mirrors : Mirrors as16 s t) (client : Option Addr) :
    Agree client (s.view as16 client) t := by
  refine ⟨mirrors.limit, mirrors.observe, mirrors.hotZone, mirrors.counted, ?_⟩
  rintro c ⟨⟩
  exact mirrors.lookup c

/-- What a section leaves in the shard of its client is what it leaves in the one map. -/
lemma Mirrors.updated (mirrors : Mirrors as16 s t) {client : Option Addr}
    {out out' : RequestLimiter.Shared Addr} (agree : Agree client out out')
    (framed : Framed client (s.view as16 client) out) (framed' : Framed client t out') :
    Mirrors as16 (s.update as16 client out) out' := by
  have length : (s.update as16 client out).limiter.shards.length = s.limiter.shards.length := by
    cases client with
    | none => rfl
    | some c => exact List.length_set
  have index (c : Addr) :
      (s.update as16 client out).limiter.shardFor as16 c = s.limiter.shardFor as16 c := by
    rw [Limiter.shardFor, length, Limiter.shardFor]
  refine ⟨?_, ?_, agree.hotZone, agree.counted, fun k clients at_k c => ?_, ?_, ?_⟩
  · exact mirrors.limit.trans framed'.limit.symm
  · exact mirrors.observe.trans framed'.observe.symm
  · rw [index]
    cases client with
    | none =>
      rw [framed'.others c (by simp)]
      exact mirrors.shards k clients at_k c
    | some c' =>
      change (s.limiter.shards.set (s.limiter.shardFor as16 c') out.limiter.clients)[k]? = _ at at_k
      by_cases own : s.limiter.shardFor as16 c' = k
      · -- the shard that was locked
        subst own
        rw [List.getElem?_set_self (List.getElem?_eq_some_iff.mp (mirrors.shard c')).1] at at_k
        cases at_k
        by_cases same : c = c'
        · subst same
          rw [if_pos rfl, agree.clients c rfl]
        · have other : c ∉ some c' := fun is => same (Option.some.inj is).symm
          rw [framed.others c other, framed'.others c other]
          exact mirrors.shards _ _ (mirrors.shard c') c
      · rw [List.getElem?_set_ne own] at at_k
        rw [mirrors.shards k clients at_k c]
        by_cases same : c = c'
        · subst same
          rw [if_neg (Ne.symm own), if_neg (Ne.symm own)]
        · rw [framed'.others c fun is => same (Option.some.inj is).symm]
  · rw [length]
    exact mirrors.some_shard
  · rw [length]
    exact mirrors.few

lemma advance_corresponds {lib : ZoneLib} {tick : Tick} {k : Nat} (mirrors : Mirrors as16 s t)
    (r : Request Addr) :
    Mirrors as16 (advance as16 lib tick k s r).shared (r.advance lib tick k t).shared ∧
      (advance as16 lib tick k s r).worker = (r.advance lib tick k t).worker ∧
      (advance as16 lib tick k s r).started = (r.advance lib tick k t).started := by
  rw [advance, Request.advance]
  cases r.calls[k]? with
  | none => exact ⟨mirrors, rfl, rfl⟩
  | some place =>
    have alike := callStep_alike lib tick (mirrors.agree r.holder.clientIP) place
    have mirrored := mirrors.updated alike.shared
      (callStep_framed _ place) (callStep_framed t place)
    refine ⟨mirrored, ?_, rfl⟩
    dsimp only
    rw [alike.holder, alike.place]

theorem step_corresponds {lib : ZoneLib} {p : Pool (Shared Addr) (Request Addr)} {p' : System Addr}
    (mirrors : Mirrors as16 p.shared p'.shared) (same : p.workers = p'.workers) (e : Event Addr) :
    Mirrors as16 (step as16 lib p e).shared (RequestLimiter.step lib p' e).shared ∧
      (step as16 lib p e).workers = (RequestLimiter.step lib p' e).workers := by
  cases e with
  | arrive clientIP =>
    refine ⟨mirrors, ?_⟩
    change p.workers ++ _ = p'.workers ++ _
    rw [same]
  | tryAcquire i path qname zone =>
    refine act_corresponds ?_ mirrors same i
    exact fun r _ => ⟨mirrors, rfl, rfl⟩
  | releaseIfHeld i =>
    refine act_corresponds ?_ mirrors same i
    exact fun r _ => ⟨mirrors, rfl, rfl⟩
  | advance i k tick =>
    refine act_corresponds ?_ mirrors same i
    exact fun r _ => advance_corresponds mirrors r

/-- A new limiter has no client in any shard. -/
lemma new_mirrors (as16 : Addr → List UInt8) {lib : ZoneLib} {numCPU : Nat} {cfg : Config}
    (few : numCPU < 4294967296)
    {sharded : Limiter Addr} (made : newExpensiveRequestLimiter lib numCPU cfg = some sharded) :
    ∃ l, RequestLimiter.newExpensiveRequestLimiter lib numCPU cfg = some l ∧
      Mirrors as16 ⟨sharded, []⟩ ⟨l, []⟩ := by
  rw [newExpensiveRequestLimiter] at made
  rw [RequestLimiter.newExpensiveRequestLimiter]
  split at made
  · cases made
  · rename_i enabled
    rw [if_neg enabled]
    cases made
    refine ⟨_, rfl, rfl, rfl, rfl, rfl, fun k clients at_k c => ?_, ?_, ?_⟩
    · rw [List.eq_of_mem_replicate (List.mem_of_getElem? at_k), AList.lookup_empty, ite_self]
    · change 0 < (List.replicate _ _).length
      rw [List.length_replicate]
      split
      · exact Nat.one_pos
      · omega
    · change (List.replicate _ _).length < _
      rw [List.length_replicate]
      split
      · decide
      · exact few

end

/-- Take any interleaving of the calls of any number of requests. With its clients in shards the
limiter does what it does with one map: every call is at the same place and has the same answer,
the same events are counted, the hot-zone controller is the same, and each shard has the entries
that the map has for the addresses of that shard, and no other. -/
theorem shards_are_one_map (as16 : Addr → List UInt8) (lib : ZoneLib) (numCPU : Nat) (cfg : Config)
    (few : numCPU < 4294967296) (sharded : Limiter Addr)
    (made : newExpensiveRequestLimiter lib numCPU cfg = some sharded) :
    ∃ l, RequestLimiter.newExpensiveRequestLimiter lib numCPU cfg = some l ∧
      ∀ events, (runFrom as16 lib sharded events).workers =
          (RequestLimiter.runFrom lib l events).workers ∧
        Mirrors as16 (runFrom as16 lib sharded events).shared
          (RequestLimiter.runFrom lib l events).shared := by
  obtain ⟨l, made', mirrors⟩ := new_mirrors as16 few made
  refine ⟨l, made', fun events => ?_⟩
  have corresponds := StepRuns.past_preserves (step as16 lib)
    (P := fun past p => p.workers = (RequestLimiter.runFrom lib l past).workers ∧
      Mirrors as16 p.shared (RequestLimiter.runFrom lib l past).shared)
    (fun past p e before => ?_) (s := ⟨⟨sharded, []⟩, []⟩) ⟨rfl, mirrors⟩ events
  · exact corresponds
  · rw [RequestLimiter.runFrom, StepRuns.run_snoc]
    exact (step_corresponds before.2 before.1 e).symm

section Witness

def lastByte (n : Nat) : List UInt8 := List.replicate 15 0 ++ [UInt8.ofNat n]

/-- The four shards of a new limiter with one slot for each client. -/
def fourShards : Limiter Nat :=
  ⟨1, false, [∅, ∅, ∅, ∅], newHotZoneController plainZoneLib []⟩

/-- A call of `TryAcquire` from its start to its end. -/
def asks (i : Nat) : List (Event Nat) :=
  .tryAcquire i .iterative "a." "" :: List.replicate 4 (.advance i 0 ⟨1, ⟨0, 4⟩⟩)

/-- Two clients in different shards, and the first of them again. -/
def twoClients : List (Event Nat) :=
  [.arrive (some 1), .arrive (some 2), .arrive (some 1)] ++ asks 0 ++ asks 1 ++ asks 2

theorem shards_are_one_map_two_clients :
    expensiveRequestShardIndex (lastByte 1) 4 ≠ expensiveRequestShardIndex (lastByte 2) 4 ∧
      ∃ l, RequestLimiter.newExpensiveRequestLimiter plainZoneLib 4 ⟨.enabled, 1, [], false⟩ =
          some l ∧
        (RequestLimiter.runFrom plainZoneLib l twoClients).workers.map Request.calls =
          [[.returned true], [.returned true], [.returned false]] := by
  have made : newExpensiveRequestLimiter plainZoneLib 4 ⟨.enabled, 1, [], false⟩ =
      some fourShards := rfl
  have answers : (runFrom lastByte plainZoneLib fourShards twoClients).workers.map Request.calls =
      [[.returned true], [.returned true], [.returned false]] := by decide +kernel
  obtain ⟨l, made', same⟩ := shards_are_one_map lastByte plainZoneLib 4 ⟨.enabled, 1, [], false⟩
    (by decide) fourShards made
  refine ⟨by decide, l, made', ?_⟩
  rw [← (same twoClients).1]
  exact answers

end Witness

end ShardedLimiter
