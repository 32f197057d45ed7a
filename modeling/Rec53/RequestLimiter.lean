import Rec53.HotZone
import Rec53.WorkerPool

/-!
# The limiter of expensive requests

`server/expensive_request_limiter.go`. A request may hold one slot of its client and one
ticket of the hot-zone controller; its holder notes both. `TryAcquire` takes them in
four critical sections, with two ways back, and `ReleaseIfHeld` gives them back in
three. A `Place` is where a call stands between two sections, and `callStep` runs the
next section.

A limiter exists in enabled mode only, since `newExpensiveRequestLimiter` returns none
otherwise. The shards are one map, which is what they are to a caller. A client address
that is not valid is none. Metrics are left out; the events that are counted in them
are kept in the shared state, where no step reads them.
-/

namespace RequestLimiter

open HotZone WorkerPool

universe u
variable {Addr : Type u} [DecidableEq Addr]

/-- The texts of the mode that are not "enabled" all mean disabled. -/
inductive Mode where
  | disabled
  | enabled
  deriving DecidableEq

structure Config where
  mode : Mode
  limit : Int
  hotZoneBaseSuffixes : List String
  observeWouldRefuse : Bool

inductive Path where
  | forward
  | iterative
  deriving DecidableEq

inductive Action where
  | refused
  | wouldRefuse
  deriving DecidableEq

structure ClientState where
  inflight : Nat
  lastLogAt : Nat
  suppressedCount : Nat

structure LimitEvent (Addr : Type u) where
  shouldLog : Bool
  action : Action
  path : Path
  inflight : Nat
  limit : Nat
  suppressedCount : Nat
  clientIP : Addr

structure Limiter (Addr : Type u) where
  limit : Nat
  observeWouldRefuse : Bool
  clients : AList (fun _ : Addr => ClientState)
  hotZone : Controller

def normalizeLimit (numCPU : Nat) (limit : Int) : Nat :=
  if limit ≤ 0 then (if numCPU < 1 then 1 else numCPU) else limit.toNat

def newExpensiveRequestLimiter (lib : ZoneLib) (numCPU : Nat) (cfg : Config) :
    Option (Limiter Addr) :=
  if cfg.mode ≠ .enabled then none
  else
    some ⟨normalizeLimit numCPU cfg.limit, cfg.observeWouldRefuse, ∅,
      newHotZoneController lib cfg.hotZoneBaseSuffixes⟩

/-- The clock and the load at the time of a section. -/
structure Tick where
  now : Nat
  reading : Reading

def expensiveRequestLogInterval (lib : ZoneLib) : Nat := 30 * lib.second

def buildExpensiveRequestLimitEvent (lib : ZoneLib) (state : ClientState) (clientIP : Addr)
    (path : Path) (action : Action) (limit now : Nat) : LimitEvent Addr × ClientState :=
  if state.lastLogAt = 0 ∨ expensiveRequestLogInterval lib ≤ now - state.lastLogAt then
    (⟨true, action, path, state.inflight, limit, state.suppressedCount, clientIP⟩,
      { state with lastLogAt := now, suppressedCount := 0 })
  else
    (⟨false, action, path, state.inflight, limit, 0, clientIP⟩,
      { state with suppressedCount := state.suppressedCount + 1 })

namespace Limiter

/-- The entry of a client, a new one if there is none. -/
def stateOf (l : Limiter Addr) (clientIP : Addr) : ClientState :=
  (l.clients.lookup clientIP).getD ⟨0, 0, 0⟩

def inflight (l : Limiter Addr) (clientIP : Addr) : Nat := (l.stateOf clientIP).inflight

def setState (l : Limiter Addr) (clientIP : Addr) (state : ClientState) : Limiter Addr :=
  { l with clients := l.clients.insert clientIP state }

/-- `TryAcquire` of the limiter: the answer, the event to be counted, the limiter. -/
def tryAcquire (lib : ZoneLib) (l : Limiter Addr) (clientIP : Addr) (path : Path) (now : Nat) :
    Bool × Option (LimitEvent Addr) × Limiter Addr :=
  if l.limit ≤ l.inflight clientIP then
    let action := if l.observeWouldRefuse then Action.wouldRefuse else Action.refused
    let built := buildExpensiveRequestLimitEvent lib (l.stateOf clientIP) clientIP path action
      l.limit now
    (l.observeWouldRefuse, some built.1, l.setState clientIP built.2)
  else
    (true, none, l.setState clientIP
      { l.stateOf clientIP with inflight := l.inflight clientIP + 1 })

def release (l : Limiter Addr) (clientIP : Addr) : Limiter Addr :=
  match l.clients.lookup clientIP with
  | none => l
  | some state =>
    let state :=
      if 0 < state.inflight then { state with inflight := state.inflight - 1 } else state
    if state.inflight = 0 then { l with clients := l.clients.erase clientIP }
    else l.setState clientIP state

end Limiter

structure Holder (Addr : Type u) where
  clientIP : Option Addr
  held : Bool
  hotZoneHeld : Bool
  hotZoneTicket : Nat

def newExpensiveRequestHolder (clientIP : Option Addr) : Holder Addr :=
  ⟨clientIP, false, false, 0⟩

/-- The next section of a call. -/
inductive Place where
  -- TryAcquire
  | check (path : Path) (qname matchedForwardZone : String)
  | enterZone (path : Path) (qname matchedForwardZone : String)
  | takeSlot (path : Path) (ticket : Nat)
  | dropTicket (ticket : Nat)
  | commit (ticket : Nat)
  | undoSlot (ticket : Nat)
  | undoTicket (ticket : Nat)
  | returned (allowed : Bool)
  -- ReleaseIfHeld
  | takeOff
  | giveSlot (hotZoneHeld : Bool) (ticket : Nat)
  | giveTicket (ticket : Nat)
  | released
  deriving DecidableEq

/-- The limiter with the events it has counted, in order. -/
structure Shared (Addr : Type u) where
  limiter : Limiter Addr
  counted : List (LimitEvent Addr)

namespace Shared

def setLimiter (s : Shared Addr) (l : Limiter Addr) : Shared Addr := { s with limiter := l }

def releaseSlot (s : Shared Addr) (clientIP : Option Addr) : Shared Addr :=
  match clientIP with
  | none => s
  | some clientIP => s.setLimiter (s.limiter.release clientIP)

def releaseHotZone (lib : ZoneLib) (tick : Tick) (s : Shared Addr) (ticket : Nat) :
    Shared Addr :=
  s.setLimiter { s.limiter with
    hotZone := s.limiter.hotZone.release lib tick.reading tick.now ticket }

end Shared

/-- What a section leaves: shared state, holder, and the place of the call. -/
structure Stepped (Addr : Type u) where
  shared : Shared Addr
  holder : Holder Addr
  place : Place

/-- Entering the hot-zone controller. -/
def enterZoneStep (lib : ZoneLib) (tick : Tick) (s : Shared Addr) (h : Holder Addr) (path : Path)
    (qname matchedForwardZone : String) : Stepped Addr :=
  match s.limiter.hotZone.tryEnter lib tick.reading tick.now qname matchedForwardZone with
  | (none, hotZone) =>
    ⟨s.setLimiter { s.limiter with hotZone := hotZone }, h, .returned false⟩
  | (some ticket, hotZone) =>
    ⟨s.setLimiter { s.limiter with hotZone := hotZone }, h, .takeSlot path ticket⟩

/-- Taking a slot of the client. -/
def takeSlotStep (lib : ZoneLib) (tick : Tick) (s : Shared Addr) (h : Holder Addr) (path : Path)
    (ticket : Nat) : Stepped Addr :=
  match h.clientIP with
  | none => ⟨s, h, .commit ticket⟩
  | some clientIP =>
    match s.limiter.tryAcquire lib clientIP path tick.now with
    | (allowed, event, limiter) =>
      ⟨⟨limiter, s.counted ++ event.toList⟩, h,
        if allowed then .commit ticket else .dropTicket ticket⟩

/-- One critical section of a call on the holder `h`. -/
def callStep (lib : ZoneLib) (tick : Tick) (s : Shared Addr) (h : Holder Addr) :
    Place → Stepped Addr
  | .check path qname matchedForwardZone =>
    if h.clientIP = none then ⟨s, h, .returned true⟩
    else if h.held || h.hotZoneHeld then ⟨s, h, .returned true⟩
    else ⟨s, h, .enterZone path qname matchedForwardZone⟩
  | .enterZone path qname matchedForwardZone =>
    enterZoneStep lib tick s h path qname matchedForwardZone
  | .takeSlot path ticket => takeSlotStep lib tick s h path ticket
  | .dropTicket ticket => ⟨s.releaseHotZone lib tick ticket, h, .returned false⟩
  | .commit ticket =>
    if h.held || h.hotZoneHeld then ⟨s, h, .undoSlot ticket⟩
    else ⟨s, { h with held := true, hotZoneHeld := true, hotZoneTicket := ticket }, .returned true⟩
  | .undoSlot ticket => ⟨s.releaseSlot h.clientIP, h, .undoTicket ticket⟩
  | .undoTicket ticket => ⟨s.releaseHotZone lib tick ticket, h, .returned true⟩
  | .takeOff =>
    if h.clientIP = none then ⟨s, h, .released⟩
    else if !h.held && !h.hotZoneHeld then ⟨s, h, .released⟩
    else
      ⟨s, { h with held := false, hotZoneHeld := false, hotZoneTicket := 0 },
        .giveSlot h.hotZoneHeld h.hotZoneTicket⟩
  | .giveSlot hotZoneHeld ticket =>
    ⟨s.releaseSlot h.clientIP, h, if hotZoneHeld then .giveTicket ticket else .released⟩
  | .giveTicket ticket => ⟨s.releaseHotZone lib tick ticket, h, .released⟩
  | .returned allowed => ⟨s, h, .returned allowed⟩
  | .released => ⟨s, h, .released⟩

/-! ### Any number of requests -/

/-- The holder of a request and the calls made on it, in the order of their start. -/
structure Request (Addr : Type u) where
  holder : Holder Addr
  calls : List Place

abbrev System (Addr : Type u) := Pool (Shared Addr) (Request Addr)

inductive Event (Addr : Type u) where
  | arrive (clientIP : Option Addr)
  | tryAcquire (i : Nat) (path : Path) (qname matchedForwardZone : String)
  | releaseIfHeld (i : Nat)
  | advance (i k : Nat) (tick : Tick)

/-- A call is made on the holder. -/
def Request.begin (place : Place) (s : Shared Addr) (r : Request Addr) :
    Acted (Shared Addr) (Request Addr) :=
  ⟨s, { r with calls := r.calls ++ [place] }, []⟩

/-- The k-th call runs its next section. -/
def Request.advance (lib : ZoneLib) (tick : Tick) (k : Nat) (s : Shared Addr)
    (r : Request Addr) : Acted (Shared Addr) (Request Addr) :=
  match r.calls[k]? with
  | none => ⟨s, r, []⟩
  | some place =>
    let out := callStep lib tick s r.holder place
    ⟨out.shared, ⟨out.holder, r.calls.set k out.place⟩, []⟩

def step (lib : ZoneLib) (p : System Addr) : Event Addr → System Addr
  | .arrive clientIP => p.start ⟨newExpensiveRequestHolder clientIP, []⟩
  | .tryAcquire i path qname matchedForwardZone =>
    p.act i (Request.begin (.check path qname matchedForwardZone))
  | .releaseIfHeld i => p.act i (Request.begin .takeOff)
  | .advance i k tick => p.act i (Request.advance lib tick k)

def initial (l : Limiter Addr) : System Addr := ⟨⟨l, []⟩, []⟩

def runFrom (lib : ZoneLib) (l : Limiter Addr) (events : List (Event Addr)) : System Addr :=
  StepRuns.run (step lib) (initial l) events

/-! ### What the limiter counts -/

namespace Limiter

@[simp] theorem inflight_setState_self (l : Limiter Addr) (c : Addr) (state : ClientState) :
    (l.setState c state).inflight c = state.inflight := by
  simp [inflight, stateOf, setState]

theorem inflight_setState_of_ne (l : Limiter Addr) {c c' : Addr} (state : ClientState)
    (ne : c' ≠ c) : (l.setState c state).inflight c' = l.inflight c' := by
  simp [inflight, stateOf, setState, AList.lookup_insert_ne ne]

omit [DecidableEq Addr] in
/-- An event names its action and leaves the count of the client alone. -/
lemma buildExpensiveRequestLimitEvent_spec (lib : ZoneLib) (state : ClientState)
    (clientIP : Addr) (path : Path) (action : Action) (limit now : Nat) :
    (buildExpensiveRequestLimitEvent lib state clientIP path action limit now).2.inflight =
        state.inflight ∧
      (buildExpensiveRequestLimitEvent lib state clientIP path action limit now).1.action =
        action := by
  rw [buildExpensiveRequestLimitEvent]
  split
  · exact ⟨rfl, rfl⟩
  · exact ⟨rfl, rfl⟩

/-- Below the limit a slot is counted and nothing is reported; at the limit the count
stays, the event is reported, and the answer is that of the mode. -/
theorem tryAcquire_spec (lib : ZoneLib) (l : Limiter Addr) (c : Addr) (path : Path)
    (now : Nat) :
    (l.inflight c < l.limit ∧ ∃ state, l.tryAcquire lib c path now =
        (true, none, l.setState c state) ∧ state.inflight = l.inflight c + 1) ∨
      (l.limit ≤ l.inflight c ∧ ∃ event state, l.tryAcquire lib c path now =
        (l.observeWouldRefuse, some event, l.setState c state) ∧
          state.inflight = l.inflight c ∧
          event.action = if l.observeWouldRefuse then .wouldRefuse else .refused) := by
  rw [tryAcquire]
  by_cases full : l.limit ≤ l.inflight c
  · rw [if_pos full]
    obtain ⟨inflight, action⟩ := buildExpensiveRequestLimitEvent_spec lib (l.stateOf c) c path
      (if l.observeWouldRefuse then .wouldRefuse else .refused) l.limit now
    exact .inr ⟨full, _, _, rfl, inflight, action⟩
  · rw [if_neg full]
    exact .inl ⟨Nat.lt_of_not_le full, _, rfl, rfl⟩

/-- The entry of a client goes with its last slot. -/
theorem release_spec (l : Limiter Addr) (c : Addr) :
    (l.clients.lookup c = none ∧ l.release c = l) ∨
      (l.inflight c ≤ 1 ∧ l.release c = { l with clients := l.clients.erase c }) ∨
      (1 < l.inflight c ∧ ∃ state, state.inflight = l.inflight c - 1 ∧
        l.release c = l.setState c state) := by
  rw [release]
  cases found : l.clients.lookup c with
  | none => exact .inl ⟨rfl, rfl⟩
  | some state =>
    have before : l.inflight c = state.inflight := by simp [inflight, stateOf, found]
    dsimp only
    rw [before]
    by_cases taken : 0 < state.inflight
    · rw [if_pos taken]
      dsimp only
      by_cases last : state.inflight - 1 = 0
      · rw [if_pos last]
        exact .inr (.inl ⟨by omega, rfl⟩)
      · rw [if_neg last]
        exact .inr (.inr ⟨by omega, _, rfl, rfl⟩)
    · rw [if_neg taken, if_pos (Nat.eq_zero_of_not_pos taken)]
      exact .inr (.inl ⟨by omega, rfl⟩)

theorem inflight_release_self (l : Limiter Addr) (c : Addr) :
    (l.release c).inflight c = l.inflight c - 1 := by
  rcases release_spec l c with ⟨absent, same⟩ | ⟨last, erased⟩ | ⟨_, state, less, kept⟩
  · simp [same, inflight, stateOf, absent]
  · have gone : (l.release c).inflight c = 0 := by simp [erased, inflight, stateOf]
    omega
  · rw [kept, inflight_setState_self, less]

theorem inflight_release_of_ne (l : Limiter Addr) {c c' : Addr} (ne : c' ≠ c) :
    (l.release c).inflight c' = l.inflight c' := by
  rcases release_spec l c with ⟨_, same⟩ | ⟨_, erased⟩ | ⟨_, state, _, kept⟩
  · rw [same]
  · simp [erased, inflight, stateOf, AList.lookup_erase_ne ne]
  · rw [kept, inflight_setState_of_ne l state ne]

end Limiter

/-! ### What a section does -/

/-- Nothing is left to do for the call. -/
def Place.over : Place → Bool
  | .returned _ | .released => true
  | _ => false

/-- One section of a call on `h`, by what it does to the limiter, the holder and the call. -/
inductive Ran (lib : ZoneLib) (tick : Tick) (s : Shared Addr) (h : Holder Addr) :
    Place → Stepped Addr → Prop
  | rest {place} (atEnd : place.over = true) : Ran lib tick s h place ⟨s, h, place⟩
  | pass {path qname zone} : Ran lib tick s h (.check path qname zone) ⟨s, h, .returned true⟩
  | proceed {path qname zone} (valid : h.clientIP ≠ none) :
      Ran lib tick s h (.check path qname zone) ⟨s, h, .enterZone path qname zone⟩
  | zoneRefused {path qname zone hotZone} (same : s.limiter.hotZone.SameTickets hotZone) :
      Ran lib tick s h (.enterZone path qname zone)
        ⟨s.setLimiter { s.limiter with hotZone := hotZone }, h, .returned false⟩
  | zoneEntered {path qname zone hotZone} (nextID : hotZone.nextID = s.limiter.hotZone.nextID + 1)
      (keys : hotZone.active.keys = hotZone.nextID ::
        s.limiter.hotZone.active.keys.erase hotZone.nextID) :
      Ran lib tick s h (.enterZone path qname zone)
        ⟨s.setLimiter { s.limiter with hotZone := hotZone }, h, .takeSlot path hotZone.nextID⟩
  | unmetered {path ticket} (invalid : h.clientIP = none) :
      Ran lib tick s h (.takeSlot path ticket) ⟨s, h, .commit ticket⟩
  | slotTaken {path ticket c state} (client : h.clientIP = some c)
      (below : s.limiter.inflight c < s.limiter.limit)
      (more : state.inflight = s.limiter.inflight c + 1) :
      Ran lib tick s h (.takeSlot path ticket)
        ⟨s.setLimiter (s.limiter.setState c state), h, .commit ticket⟩
  | slotFull {path ticket c state event} (client : h.clientIP = some c)
      (full : s.limiter.limit ≤ s.limiter.inflight c)
      (same : state.inflight = s.limiter.inflight c) :
      Ran lib tick s h (.takeSlot path ticket)
        ⟨⟨s.limiter.setState c state, s.counted ++ [event]⟩, h,
          if s.limiter.observeWouldRefuse then .commit ticket else .dropTicket ticket⟩
  | ticketDropped {ticket} : Ran lib tick s h (.dropTicket ticket)
      ⟨s.releaseHotZone lib tick ticket, h, .returned false⟩
  | committed {ticket} (free : h.held = false) (zoneFree : h.hotZoneHeld = false) :
      Ran lib tick s h (.commit ticket)
        ⟨s, { h with held := true, hotZoneHeld := true, hotZoneTicket := ticket },
          .returned true⟩
  | late {ticket} : Ran lib tick s h (.commit ticket) ⟨s, h, .undoSlot ticket⟩
  | slotUndone {ticket} : Ran lib tick s h (.undoSlot ticket)
      ⟨s.releaseSlot h.clientIP, h, .undoTicket ticket⟩
  | ticketUndone {ticket} : Ran lib tick s h (.undoTicket ticket)
      ⟨s.releaseHotZone lib tick ticket, h, .returned true⟩
  | nothingHeld (idle : h.clientIP = none ∨ h.held = false) :
      Ran lib tick s h .takeOff ⟨s, h, .released⟩
  | takenOff (valid : h.clientIP ≠ none) (holds : h.held = true ∨ h.hotZoneHeld = true) :
      Ran lib tick s h .takeOff
        ⟨s, { h with held := false, hotZoneHeld := false, hotZoneTicket := 0 },
          .giveSlot h.hotZoneHeld h.hotZoneTicket⟩
  | slotGiven {hotZoneHeld ticket} : Ran lib tick s h (.giveSlot hotZoneHeld ticket)
      ⟨s.releaseSlot h.clientIP, h, if hotZoneHeld then .giveTicket ticket else .released⟩
  | ticketGiven {ticket} : Ran lib tick s h (.giveTicket ticket)
      ⟨s.releaseHotZone lib tick ticket, h, .released⟩

lemma enterZoneStep_ran (lib : ZoneLib) (tick : Tick) (s : Shared Addr) (h : Holder Addr)
    (path : Path) (qname zone : String) :
    Ran lib tick s h (.enterZone path qname zone) (enterZoneStep lib tick s h path qname zone) := by
  rcases Controller.tryEnter_spec lib tick.reading s.limiter.hotZone tick.now qname zone with
    ⟨hotZone, refused, same⟩ | ⟨hotZone, entered, nextID, keys⟩
  · simp only [enterZoneStep, refused]
    exact .zoneRefused same
  · simp only [enterZoneStep, entered]
    rw [← nextID] at keys ⊢
    exact .zoneEntered nextID keys

lemma takeSlotStep_ran (lib : ZoneLib) (tick : Tick) (s : Shared Addr) (h : Holder Addr)
    (path : Path) (ticket : Nat) :
    Ran lib tick s h (.takeSlot path ticket) (takeSlotStep lib tick s h path ticket) := by
  rw [takeSlotStep]
  cases client : h.clientIP with
  | none => exact .unmetered client
  | some c =>
    rcases s.limiter.tryAcquire_spec lib c path tick.now with
      ⟨below, state, taken, more⟩ | ⟨full, event, state, refused, same, _⟩
    · simp only [taken, Option.toList_none, List.append_nil, if_true]
      exact .slotTaken client below more
    · simp only [refused, Option.toList_some]
      exact .slotFull client full same

theorem callStep_ran (lib : ZoneLib) (tick : Tick) (s : Shared Addr) (h : Holder Addr)
    (place : Place) : Ran lib tick s h place (callStep lib tick s h place) := by
  cases place with
  | check path qname zone =>
    rw [callStep]
    split
    · exact .pass
    · rename_i valid
      split
      · exact .pass
      · exact .proceed valid
  | enterZone path qname zone => exact enterZoneStep_ran lib tick s h path qname zone
  | takeSlot path ticket => exact takeSlotStep_ran lib tick s h path ticket
  | dropTicket => exact .ticketDropped
  | commit ticket =>
    rw [callStep]
    split
    · exact .late
    · rename_i free
      rw [Bool.or_eq_true, not_or, Bool.not_eq_true, Bool.not_eq_true] at free
      exact .committed free.1 free.2
  | undoSlot => exact .slotUndone
  | undoTicket => exact .ticketUndone
  | takeOff =>
    rw [callStep]
    split
    · rename_i invalid
      exact .nothingHeld (.inl invalid)
    · rename_i valid
      split
      · rename_i free
        rw [Bool.and_eq_true, Bool.not_eq_true', Bool.not_eq_true'] at free
        exact .nothingHeld (.inr free.1)
      · rename_i holds
        rw [Bool.and_eq_true, not_and_or, Bool.not_eq_true', Bool.not_eq_true',
          Bool.not_eq_false, Bool.not_eq_false] at holds
        exact .takenOff valid holds
  | giveSlot => exact .slotGiven
  | giveTicket => exact .ticketGiven
  | returned => exact .rest rfl
  | released => exact .rest rfl

end RequestLimiter
