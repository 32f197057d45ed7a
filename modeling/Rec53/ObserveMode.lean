import Rec53.LimiterAccounting

/-!
# The limiter in observe mode

With `observeWouldRefuse` a request at the limit is reported and let through. It does
not get a slot of its client, but its holder is marked held, so that its
`ReleaseIfHeld` gives back a slot of another request. Calls are taken one after the
other here, each run alone from its first section to its end; the count of a client
then agrees with its holders for as long as no request is let through at the limit.
-/

namespace ObserveMode

open HotZone Platform WorkerPool RequestLimiter LimiterAccounting

universe u
variable {Addr : Type u} [DecidableEq Addr]

/-! ### Calls that run alone -/

/-- The sections of a call with no other in between, one for each tick. -/
def runCall (lib : ZoneLib) (out : Stepped Addr) (ticks : List Tick) : Stepped Addr :=
  StepRuns.run (fun out tick => callStep lib tick out.shared out.holder out.place) out ticks

def tryAcquire (lib : ZoneLib) (path : Path) (qname matchedForwardZone : String)
    (zoneTick slotTick : Tick) (s : Shared Addr) (h : Holder Addr) : Stepped Addr :=
  runCall lib ⟨s, h, .check path qname matchedForwardZone⟩ [zoneTick, zoneTick, slotTick, slotTick]

def releaseIfHeld (lib : ZoneLib) (tick : Tick) (s : Shared Addr) (h : Holder Addr) :
    Stepped Addr :=
  runCall lib ⟨s, h, .takeOff⟩ [tick, tick, tick]

abbrev Holders (Addr : Type u) := Pool (Shared Addr) (Holder Addr)

inductive Event (Addr : Type u) where
  | arrive (clientIP : Option Addr)
  | tryAcquire (i : Nat) (path : Path) (qname matchedForwardZone : String)
      (zoneTick slotTick : Tick)
  | releaseIfHeld (i : Nat) (tick : Tick)

def left (out : Stepped Addr) : Acted (Shared Addr) (Holder Addr) := ⟨out.shared, out.holder, []⟩

def step (lib : ZoneLib) (p : Holders Addr) : Event Addr → Holders Addr
  | .arrive clientIP => p.start (newExpensiveRequestHolder clientIP)
  | .tryAcquire i path qname matchedForwardZone zoneTick slotTick =>
    p.act i fun s h => left (tryAcquire lib path qname matchedForwardZone zoneTick slotTick s h)
  | .releaseIfHeld i tick => p.act i fun s h => left (releaseIfHeld lib tick s h)

def initial (l : Limiter Addr) : Holders Addr := ⟨⟨l, []⟩, []⟩

/-! ### What a whole call does -/

/-- A free holder of client `c` that the hot-zone controller lets in. -/
structure Admitted (lib : ZoneLib) (tick : Tick) (qname matchedForwardZone : String)
    (s : Shared Addr) (h : Holder Addr) (c : Addr) : Prop where
  client : h.clientIP = some c
  free : h.held = false
  zoneFree : h.hotZoneHeld = false
  entered :
    (s.limiter.hotZone.tryEnter lib tick.reading tick.now qname matchedForwardZone).1 ≠ none

section
variable {lib : ZoneLib} {s : Shared Addr} {h : Holder Addr}

/-- A call that takes no slot: nothing is held by it and nothing counted. -/
structure PassedBy (s : Shared Addr) (h : Holder Addr) (out : Stepped Addr) : Prop where
  atEnd : out.place.over = true
  holder : out.holder = h
  inflight : ∀ c, out.shared.limiter.inflight c = s.limiter.inflight c
  counted : out.shared.counted = s.counted

/-- A call that marks its holder: counted below the limit, reported at the limit. -/
structure Marked (s : Shared Addr) (h : Holder Addr) (c : Addr) (out : Stepped Addr) :
    Prop where
  atEnd : out.place.over = true
  client : out.holder.clientIP = h.clientIP
  held : out.holder.held = true
  others : ∀ c', c' ≠ c → out.shared.limiter.inflight c' = s.limiter.inflight c'
  slot : (s.limiter.inflight c < s.limiter.limit ∧
      out.shared.limiter.inflight c = s.limiter.inflight c + 1 ∧
      out.shared.counted = s.counted) ∨
    (s.limiter.limit ≤ s.limiter.inflight c ∧
      out.shared.limiter.inflight c = s.limiter.inflight c ∧
      ∃ event, out.shared.counted = s.counted ++ [event])

lemma tryAcquire_busy {path : Path} {qname zone : String} {zoneTick slotTick : Tick}
    (busy : h.clientIP = none ∨ (h.held || h.hotZoneHeld) = true) :
    tryAcquire lib path qname zone zoneTick slotTick s h = ⟨s, h, .returned true⟩ := by
  have first : callStep lib zoneTick s h (.check path qname zone) = ⟨s, h, .returned true⟩ := by
    rw [callStep]
    split
    · rfl
    · rename_i valid
      rw [if_pos (busy.resolve_left valid)]
  simp only [tryAcquire, runCall, StepRuns.run, first]
  rfl

lemma tryAcquire_free {path : Path} {qname zone : String} {zoneTick slotTick : Tick} {c : Addr}
    (client : h.clientIP = some c) (free : h.held = false) (zoneFree : h.hotZoneHeld = false) :
    tryAcquire lib path qname zone zoneTick slotTick s h =
      runCall lib (enterZoneStep lib zoneTick s h path qname zone) [slotTick, slotTick] := by
  have first : callStep lib zoneTick s h (.check path qname zone) =
      ⟨s, h, .enterZone path qname zone⟩ := by
    simp [callStep, client, free, zoneFree]
  simp only [tryAcquire, runCall, StepRuns.run, first]
  rfl

/-- Taking a slot and committing it, in observe mode. -/
lemma takeSlot_commit_marked {path : Path} {ticket : Nat} {tick : Tick} {c : Addr}
    (observing : s.limiter.observeWouldRefuse = true) (client : h.clientIP = some c)
    (free : h.held = false) (zoneFree : h.hotZoneHeld = false) :
    Marked s h c (runCall lib ⟨s, h, .takeSlot path ticket⟩ [tick, tick]) := by
  have commit : ∀ s' : Shared Addr, callStep lib tick s' h (.commit ticket) =
      ⟨s', { h with held := true, hotZoneHeld := true, hotZoneTicket := ticket },
        .returned true⟩ := by
    intro s'
    simp [callStep, free, zoneFree]
  rcases s.limiter.tryAcquire_spec lib c path tick.now with
    ⟨below, state, taken, more⟩ | ⟨full, event, state, refused, same, _⟩
  · have take : callStep lib tick s h (.takeSlot path ticket) =
        ⟨⟨s.limiter.setState c state, s.counted⟩, h, .commit ticket⟩ := by
      simp [callStep, takeSlotStep, client, taken]
    simp only [runCall, StepRuns.run, take, commit]
    refine ⟨rfl, rfl, rfl, ?_, .inl ⟨below, ?_, rfl⟩⟩
    · intro c' ne
      exact Limiter.inflight_setState_of_ne _ _ ne
    · rw [Limiter.inflight_setState_self, more]
  · have take : callStep lib tick s h (.takeSlot path ticket) =
        ⟨⟨s.limiter.setState c state, s.counted ++ [event]⟩, h, .commit ticket⟩ := by
      simp [callStep, takeSlotStep, client, refused, observing]
    simp only [runCall, StepRuns.run, take, commit]
    refine ⟨rfl, rfl, rfl, fun c' ne => Limiter.inflight_setState_of_ne _ _ ne,
      .inr ⟨full, ?_, event, rfl⟩⟩
    rw [Limiter.inflight_setState_self, same]

theorem tryAcquire_spec (observing : s.limiter.observeWouldRefuse = true) (path : Path)
    (qname zone : String) (zoneTick slotTick : Tick) :
    ((∀ c, ¬ Admitted lib zoneTick qname zone s h c) ∧
        PassedBy s h (tryAcquire lib path qname zone zoneTick slotTick s h)) ∨
      ∃ c, Admitted lib zoneTick qname zone s h c ∧
        Marked s h c (tryAcquire lib path qname zone zoneTick slotTick s h) := by
  by_cases busy : h.clientIP = none ∨ (h.held || h.hotZoneHeld) = true
  · rw [tryAcquire_busy busy]
    refine .inl ⟨?_, rfl, rfl, fun _ => rfl, rfl⟩
    rintro c ⟨client, free, zoneFree, _⟩
    simp [client, free, zoneFree] at busy
  · rw [not_or, Bool.or_eq_true, not_or, Bool.not_eq_true, Bool.not_eq_true] at busy
    obtain ⟨valid, free, zoneFree⟩ := busy
    obtain ⟨c, client⟩ := Option.ne_none_iff_exists'.mp valid
    rw [tryAcquire_free client free zoneFree, enterZoneStep]
    rcases Controller.tryEnter_spec lib zoneTick.reading s.limiter.hotZone zoneTick.now qname
        zone with ⟨hotZone, refused, _⟩ | ⟨hotZone, entered, _, _⟩
    · refine .inl ⟨fun c admitted => admitted.entered (by rw [refused]), ?_⟩
      simp only [refused]
      exact ⟨rfl, rfl, fun _ => rfl, rfl⟩
    · refine .inr ⟨c, ⟨client, free, zoneFree, by simp [entered]⟩, ?_⟩
      simp only [entered]
      -- the controller is no part of what `Marked` says of the limiter
      obtain ⟨atEnd, client', held, others, slot⟩ := takeSlot_commit_marked
        (s := s.setLimiter { s.limiter with hotZone := hotZone }) observing client free zoneFree
      exact ⟨atEnd, client', held, others, slot⟩

/-- A call that frees its holder and gives a slot of its client back. -/
structure Freed (s : Shared Addr) (h : Holder Addr) (c : Addr) (out : Stepped Addr) :
    Prop where
  atEnd : out.place.over = true
  client : out.holder.clientIP = h.clientIP
  free : out.holder.held = false
  others : ∀ c', c' ≠ c → out.shared.limiter.inflight c' = s.limiter.inflight c'
  slot : out.shared.limiter.inflight c = s.limiter.inflight c - 1
  counted : out.shared.counted = s.counted

theorem releaseIfHeld_spec (lib : ZoneLib) (s : Shared Addr) (even : h.held = h.hotZoneHeld)
    (tick : Tick) :
    ((h.clientIP = none ∨ h.held = false) ∧ PassedBy s h (releaseIfHeld lib tick s h)) ∨
      ∃ c, h.clientIP = some c ∧ h.held = true ∧ Freed s h c (releaseIfHeld lib tick s h) := by
  by_cases idle : h.clientIP = none ∨ h.held = false
  · have first : callStep lib tick s h .takeOff = ⟨s, h, .released⟩ := by
      rcases idle with invalid | free
      · simp [callStep, invalid]
      · simp [callStep, free, even.symm.trans free]
    simp only [releaseIfHeld, runCall, StepRuns.run, first]
    exact .inl ⟨idle, rfl, rfl, fun _ => rfl, rfl⟩
  · rw [not_or, Bool.not_eq_false] at idle
    obtain ⟨c, client⟩ := Option.ne_none_iff_exists'.mp idle.1
    have zone : h.hotZoneHeld = true := even.symm.trans idle.2
    have first : callStep lib tick s h .takeOff =
        ⟨s, { h with held := false, hotZoneHeld := false, hotZoneTicket := 0 },
          .giveSlot true h.hotZoneTicket⟩ := by
      simp [callStep, client, idle.2, zone]
    simp only [releaseIfHeld, runCall, StepRuns.run, first]
    refine .inr ⟨c, client, idle.2, rfl, rfl, rfl, ?_, releaseSlot_inflight s client, ?_⟩
    · intro c' ne
      refine releaseSlot_inflight_of_ne s ?_
      rw [client]
      exact fun same => ne (Option.some.inj same).symm
    · simp [callStep, client, Shared.releaseSlot, Shared.releaseHotZone, Shared.setLimiter]

end

/-! ### Runs -/

/-- One for a holder of client `c` that holds an expensive request. -/
def holds (c : Addr) (h : Holder Addr) : Nat := if h.clientIP = some c then slotsHeld h else 0

/-- The count of every client is the number of its holders that hold. -/
def Exact (p : Holders Addr) : Prop := ∀ c, Balanced (fun s => s.limiter.inflight c) (holds c) p

/-- A call that is let in finds a slot of its client free. -/
def BelowLimit (lib : ZoneLib) (p : Holders Addr) : Event Addr → Prop
  | .tryAcquire i _ qname matchedForwardZone zoneTick _ =>
    ∀ h c, p.workers[i]? = some h → Admitted lib zoneTick qname matchedForwardZone p.shared h c →
      p.shared.limiter.inflight c < p.shared.limiter.limit
  | _ => True

/-- Enforcement would refuse the call: the holders of its client are at the limit. -/
def WouldBeRefused (lib : ZoneLib) (p : Holders Addr) : Event Addr → Prop
  | .tryAcquire i _ qname matchedForwardZone zoneTick _ =>
    ∃ h c, p.workers[i]? = some h ∧
      Admitted lib zoneTick qname matchedForwardZone p.shared h c ∧
      p.shared.limiter.limit ≤ owned (holds c) p.workers
  | _ => False

def ReportsExactly (lib : ZoneLib) (p : Holders Addr) (e : Event Addr) : Prop :=
  (step lib p e).shared.counted ≠ p.shared.counted ↔ WouldBeRefused lib p e

/-- The mode does not change, and the marks of every holder agree. -/
structure Observing (p : Holders Addr) : Prop where
  mode : p.shared.limiter.observeWouldRefuse = true
  even : ∀ h ∈ p.workers, h.held = h.hotZoneHeld

section
variable {lib : ZoneLib}

/-- No section changes the mode. -/
lemma ran_mode {tick : Tick} {s : Shared Addr} {h : Holder Addr} {place : Place}
    {out : Stepped Addr} (ran : Ran lib tick s h place out) :
    out.shared.limiter.observeWouldRefuse = s.limiter.observeWouldRefuse := by
  cases ran with
  | slotUndone | slotGiven => exact (releaseSlot_frame s h.clientIP).2.2
  | rest | pass | proceed | zoneRefused | zoneEntered | unmetered | slotTaken | slotFull
  | ticketDropped | committed | late | ticketUndone | nothingHeld | takenOff
  | ticketGiven => rfl

lemma runCall_observing {out : Stepped Addr} (ticks : List Tick)
    (before : out.shared.limiter.observeWouldRefuse = true ∧
      out.holder.held = out.holder.hotZoneHeld) :
    (runCall lib out ticks).shared.limiter.observeWouldRefuse = true ∧
      (runCall lib out ticks).holder.held = (runCall lib out ticks).holder.hotZoneHeld := by
  refine StepRuns.run_preserves _ (P := fun out : Stepped Addr =>
    out.shared.limiter.observeWouldRefuse = true ∧ out.holder.held = out.holder.hotZoneHeld)
    ?_ before ticks
  intro out tick kept
  have ran := callStep_ran lib tick out.shared out.holder out.place
  exact ⟨(ran_mode ran).trans kept.1, ran_even ran kept.2⟩

omit [DecidableEq Addr] in
lemma act_observing {p : Holders Addr} {i : Nat}
    {call : Shared Addr → Holder Addr → Stepped Addr}
    (kept : ∀ s h, s.limiter.observeWouldRefuse = true → h.held = h.hotZoneHeld →
      (call s h).shared.limiter.observeWouldRefuse = true ∧
        (call s h).holder.held = (call s h).holder.hotZoneHeld) (observing : Observing p) :
    Observing (p.act i fun s h => left (call s h)) := by
  constructor
  · refine act_shared (P := fun s : Shared Addr => s.limiter.observeWouldRefuse = true) ?_
      observing.mode
    intro h mem
    exact (kept _ h observing.mode (observing.even h mem)).1
  · refine act_workers ?_ observing.even
    intro h _ even
    refine ⟨(kept _ h observing.mode even).2, ?_⟩
    intro started none_started
    cases none_started

lemma step_observing (p : Holders Addr) (e : Event Addr) (observing : Observing p) :
    Observing (step lib p e) := by
  cases e with
  | arrive clientIP =>
    refine ⟨observing.mode, ?_⟩
    intro h mem
    rcases List.mem_append.mp mem with old | new
    · exact observing.even h old
    · rw [List.mem_singleton.mp new]
      rfl
  | tryAcquire i path qname zone zoneTick slotTick =>
    exact act_observing (fun _ _ mode even => runCall_observing _ ⟨mode, even⟩) observing
  | releaseIfHeld i tick =>
    exact act_observing (fun _ _ mode even => runCall_observing _ ⟨mode, even⟩) observing

lemma holds_eq_of_holder {h h' : Holder Addr} (client : h'.clientIP = h.clientIP) {c : Addr}
    (other : h.clientIP ≠ some c) : holds c h' = holds c h := by
  rw [holds, holds, client, if_neg other, if_neg other]

/-- A call at the limit is the one step that breaks the count. -/
lemma tryAcquire_exact_iff {p : Holders Addr} (observing : Observing p) (exact_count : Exact p)
    (i : Nat) (path : Path) (qname zone : String) (zoneTick slotTick : Tick) :
    Exact (step lib p (.tryAcquire i path qname zone zoneTick slotTick)) ↔
      BelowLimit lib p (.tryAcquire i path qname zone zoneTick slotTick) := by
  cases at_i : p.workers[i]? with
  | none =>
    simp only [step, Pool.act, at_i, BelowLimit]
    constructor
    · intro _ h c no_holder
      cases no_holder
    · intro _
      exact exact_count
  | some h =>
    have paid := fun c => act_balanced_iff (f := fun s h =>
      left (tryAcquire lib path qname zone zoneTick slotTick s h)) at_i (exact_count c)
    rcases tryAcquire_spec observing.mode path qname zone zoneTick slotTick with
      ⟨not_admitted, passed⟩ | ⟨c, admitted, marked⟩
    · constructor
      · intro _ h' c at_i' admitted
        cases at_i.symm.trans at_i'
        exact absurd admitted (not_admitted c)
      · intro _ c
        refine (paid c).mpr ?_
        simp only [left, passed.holder, passed.inflight, owned_nil]
        omega
    · have before : holds c h = 0 := by simp [holds, slotsHeld, admitted.free]
      have after : holds c (tryAcquire lib path qname zone zoneTick slotTick p.shared h).holder =
          1 := by
        simp [holds, slotsHeld, marked.client, admitted.client, marked.held]
      constructor
      · intro kept h' c' at_i' admitted'
        cases at_i.symm.trans at_i'
        obtain rfl : c' = c := Option.some.inj (admitted'.client.symm.trans admitted.client)
        have own := (paid c').mp (kept c')
        simp only [left, before, after, owned_nil] at own
        rcases marked.slot with ⟨below, _, _⟩ | ⟨_, same, _⟩
        · exact below
        · omega
      · intro below c'
        refine (paid c').mpr ?_
        simp only [left, owned_nil]
        by_cases same : c' = c
        · subst same
          have more := below h c' at_i admitted
          rcases marked.slot with ⟨_, counted, _⟩ | ⟨full, _, _⟩
          · omega
          · omega
        · have other : h.clientIP ≠ some c' := by
            rw [admitted.client]
            exact fun eq => same (Option.some.inj eq).symm
          rw [marked.others c' same, holds_eq_of_holder marked.client other]
          omega

lemma releaseIfHeld_exact {p : Holders Addr} (observing : Observing p) (exact_count : Exact p)
    (i : Nat) (tick : Tick) : Exact (step lib p (.releaseIfHeld i tick)) := by
  intro c
  refine act_balanced ?_ (exact_count c)
  intro h mem covered
  simp only [left, owned_nil]
  rcases releaseIfHeld_spec lib p.shared (observing.even h mem) tick with
    ⟨_, passed⟩ | ⟨c', client, held, freed⟩
  · rw [passed.holder, passed.inflight]
    rfl
  · by_cases same : c = c'
    · subst same
      have before : holds c h = 1 := by simp [holds, slotsHeld, client, held]
      have after : holds c (releaseIfHeld lib tick p.shared h).holder = 0 := by
        simp [holds, slotsHeld, freed.free]
      have slot := freed.slot
      omega
    · have other : h.clientIP ≠ some c := by
        rw [client]
        exact fun eq => same (Option.some.inj eq).symm
      rw [freed.others c same, holds_eq_of_holder freed.client other]
      rfl

lemma step_exact_iff (p : Holders Addr) (e : Event Addr) (observing : Observing p)
    (exact_count : Exact p) : Exact (step lib p e) ↔ BelowLimit lib p e := by
  cases e with
  | arrive clientIP =>
    refine ⟨fun _ => trivial, fun _ c => start_balanced ?_ (exact_count c)⟩
    rw [holds]
    split
    · rfl
    · rfl
  | tryAcquire i path qname zone zoneTick slotTick =>
    exact tryAcquire_exact_iff observing exact_count i path qname zone zoneTick slotTick
  | releaseIfHeld i tick =>
    exact ⟨fun _ => trivial, fun _ => releaseIfHeld_exact observing exact_count i tick⟩

/-- While the count is exact, so are the reports. -/
lemma step_reports (p : Holders Addr) (e : Event Addr) (observing : Observing p)
    (exact_count : Exact p) : ReportsExactly lib p e := by
  cases e with
  | arrive clientIP =>
    refine ⟨fun changed => changed rfl, ?_⟩
    intro refused
    cases refused
  | tryAcquire i path qname zone zoneTick slotTick =>
    rw [ReportsExactly, step, Pool.act]
    cases at_i : p.workers[i]? with
    | none =>
      refine ⟨fun changed => absurd rfl changed, ?_⟩
      rintro ⟨h, c, at_i', _⟩
      cases at_i.symm.trans at_i'
    | some h =>
      rcases tryAcquire_spec (h := h) observing.mode path qname zone zoneTick slotTick with
        ⟨not_admitted, passed⟩ | ⟨c, admitted, marked⟩
      · refine ⟨fun changed => absurd passed.counted changed, ?_⟩
        rintro ⟨h', c, at_i', admitted, _⟩
        cases at_i.symm.trans at_i'
        exact absurd admitted (not_admitted c)
      · have count : p.shared.limiter.inflight c = owned (holds c) p.workers := exact_count c
        rcases marked.slot with ⟨below, _, same⟩ | ⟨full, _, event, reported⟩
        · refine ⟨fun changed => absurd same changed, ?_⟩
          rintro ⟨h', c', at_i', admitted', refused⟩
          cases at_i.symm.trans at_i'
          obtain rfl : c' = c := Option.some.inj (admitted'.client.symm.trans admitted.client)
          omega
        · refine ⟨fun _ => ⟨h, c, at_i, admitted, count ▸ full⟩, fun _ => ?_⟩
          change (tryAcquire lib path qname zone zoneTick slotTick p.shared h).shared.counted ≠ _
          rw [reported]
          simp
  | releaseIfHeld i tick =>
    refine ⟨?_, False.elim⟩
    rw [step, Pool.act]
    cases at_i : p.workers[i]? with
    | none => exact fun changed => changed rfl
    | some h =>
      intro changed
      refine absurd ?_ changed
      rcases releaseIfHeld_spec lib p.shared (observing.even h (List.mem_of_getElem? at_i)) tick
        with ⟨_, passed⟩ | ⟨_, _, _, freed⟩
      · exact passed.counted
      · exact freed.counted

end

/-- In observe mode the count of every client is the number of its holders that hold, and
the reports are those of the requests that enforcement would refuse, throughout a
sequence of calls, if and only if no call is let through at the limit. -/
theorem observe_exact_iff {lib : ZoneLib} {numCPU : Nat} {cfg : Config} {l : Limiter Addr}
    (made : newExpensiveRequestLimiter lib numCPU cfg = some l)
    (observing : cfg.observeWouldRefuse = true) (events : List (Event Addr)) :
    (StepRuns.Throughout (step lib) Exact (initial l) events ∧
      StepRuns.Along (step lib) (ReportsExactly lib) (initial l) events) ↔
    StepRuns.Along (step lib) (BelowLimit lib) (initial l) events := by
  have start : Observing (initial l) ∧ Exact (initial l) := by
    rw [newExpensiveRequestLimiter] at made
    split at made
    · cases made
    · cases made
      refine ⟨⟨observing, ?_⟩, fun _ => rfl⟩
      intro h no_holder
      cases no_holder
  have counts := StepRuns.throughout_iff_along (step lib) step_observing step_exact_iff
    start.1 start.2 events
  constructor
  · intro both
    exact counts.mp both.1
  · intro below
    refine ⟨counts.mpr below, ?_⟩
    refine StepRuns.along_of_invariant (step lib) (P := fun p => Observing p ∧ Exact p) ?_ ?_ start
      below
    · intro p e kept met
      exact ⟨step_observing p e kept.1, (step_exact_iff p e kept.1 kept.2).mpr met⟩
    · intro p e kept _
      exact step_reports p e kept.1 kept.2

/-- One request at a limit of one. -/
theorem lone_request_exact :
    let l : Limiter Nat := ⟨1, true, ∅, newHotZoneController plainZoneLib []⟩
    let tick : Tick := ⟨second, idleReading⟩
    let events := [.arrive (some 7), .tryAcquire 0 .iterative "a." "" tick tick,
      .releaseIfHeld 0 tick]
    StepRuns.Throughout (step plainZoneLib) Exact (initial l) events ∧
      StepRuns.Along (step plainZoneLib) (ReportsExactly plainZoneLib) (initial l) events := by
  intro l tick events
  have made : newExpensiveRequestLimiter plainZoneLib 1 ⟨.enabled, 1, [], true⟩ = some l := rfl
  refine (observe_exact_iff made rfl events).mpr ⟨trivial, ?_, trivial, trivial⟩
  intro h c at_zero admitted
  cases at_zero
  cases admitted.client
  decide

/-- Two requests at a limit of one: both hold and one is counted. When the first has
released none is counted and the second still holds, so the third is let through
without a report. -/
theorem second_holder_not_counted :
    let l : Limiter Nat := ⟨1, true, ∅, newHotZoneController plainZoneLib []⟩
    let tick : Tick := ⟨second, idleReading⟩
    let start := StepRuns.run (step plainZoneLib) (initial l)
    let both := [.arrive (some 7), .arrive (some 7), .arrive (some 7),
      .tryAcquire 0 .iterative "a." "" tick tick, .tryAcquire 1 .iterative "b." "" tick tick]
    let third := both ++ [.releaseIfHeld 0 tick, .tryAcquire 2 .iterative "c." "" tick tick]
    newExpensiveRequestLimiter plainZoneLib 1 ⟨.enabled, 1, [], true⟩ = some l ∧
      (start both).shared.limiter.inflight 7 = 1 ∧ owned (holds 7) (start both).workers = 2 ∧
      (start third).shared.limiter.inflight 7 = 1 ∧ owned (holds 7) (start third).workers = 2 ∧
      (start both).shared.counted.length = 1 ∧ (start third).shared.counted.length = 1 := by
  refine ⟨rfl, ?_⟩
  decide +kernel

end ObserveMode
