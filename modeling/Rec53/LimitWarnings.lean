import Rec53.RequestLimiter

/-!
# The warnings of the limiter

`buildExpensiveRequestLimitEvent` marks a limit event for logging if the client's last logged
event is thirty seconds old, and counts the events in between. Both are kept in the client's
entry, and `Release` deletes the entry with the last slot of the client. Here the limit events
are written down beside the limiter, and what it remembers of a client is compared with them.

The operations are those of the limiter itself: a lock of the shard makes each of them one
step, and the clock is read under that lock.
-/

namespace LimitWarnings

open Platform HotZone RequestLimiter

universe u
variable {Addr : Type u} [DecidableEq Addr]

inductive Operation (Addr : Type u) where
  | tryAcquire (now : Nat) (clientIP : Option Addr) (path : Path)
  | release (now : Nat) (clientIP : Option Addr)
  | tryAcquireHotZone (tick : Tick) (qname matchedForwardZone : String)
  | releaseHotZone (tick : Tick) (ticket : Nat)

def Operation.now : Operation Addr → Nat
  | .tryAcquire now _ _ => now
  | .release now _ => now
  | .tryAcquireHotZone tick _ _ => tick.now
  | .releaseHotZone tick _ => tick.now

/-- A limit event and its time. -/
structure Noted (Addr : Type u) where
  now : Nat
  event : LimitEvent Addr

/-- The limiter and the limit events so far, the latest first. -/
structure Watched (Addr : Type u) where
  limiter : Limiter Addr
  events : List (Noted Addr)

namespace Watched

def acquire (lib : ZoneLib) (s : Watched Addr) (now : Nat) (clientIP : Addr) (path : Path) :
    Watched Addr :=
  let out := s.limiter.tryAcquire lib clientIP path now
  ⟨out.2.2, (out.2.1.map (Noted.mk now)).toList ++ s.events⟩

def setHotZone (s : Watched Addr) (hotZone : Controller) : Watched Addr :=
  { s with limiter := { s.limiter with hotZone := hotZone } }

end Watched

/-- An address that is not valid is let through and leaves nothing. -/
def step (lib : ZoneLib) (s : Watched Addr) : Operation Addr → Watched Addr
  | .tryAcquire _ none _ => s
  | .tryAcquire now (some clientIP) path => s.acquire lib now clientIP path
  | .release _ none => s
  | .release _ (some clientIP) => { s with limiter := s.limiter.release clientIP }
  | .tryAcquireHotZone tick qname matchedForwardZone =>
    s.setHotZone
      (s.limiter.hotZone.tryEnter lib tick.reading tick.now qname matchedForwardZone).2
  | .releaseHotZone tick ticket =>
    s.setHotZone (s.limiter.hotZone.release lib tick.reading tick.now ticket)

/-! ### The rate limit -/

/-- A logged event of the client. -/
def Logged (c : Addr) (w : Noted Addr) : Prop :=
  w.event.clientIP = c ∧ w.event.shouldLog = true

instance (c : Addr) (w : Noted Addr) : Decidable (Logged c w) :=
  inferInstanceAs (Decidable (_ ∧ _))

/-- The limit events of the client after its last logged one. -/
def sinceLogged (c : Addr) (events : List (Noted Addr)) : Nat :=
  ((events.filter fun w => w.event.clientIP = c).takeWhile fun w => !w.event.shouldLog).length

/-- Every logged event is thirty seconds after the client's earlier ones and has the number of
those in between. -/
def RateLimited (lib : ZoneLib) : List (Noted Addr) → Prop
  | [] => True
  | w :: earlier =>
    (w.event.shouldLog = true →
      (∀ w' ∈ earlier, Logged w.event.clientIP w' → w'.now + 30 * lib.second ≤ w.now) ∧
        w.event.suppressedCount = sinceLogged w.event.clientIP earlier) ∧
    RateLimited lib earlier

instance decidableRateLimited (lib : ZoneLib) :
    ∀ events : List (Noted Addr), Decidable (RateLimited lib events)
  | [] => isTrue trivial
  | w :: earlier =>
    have := decidableRateLimited lib earlier
    inferInstanceAs (Decidable ((w.event.shouldLog = true →
      (∀ w' ∈ earlier, Logged w.event.clientIP w' → w'.now + 30 * lib.second ≤ w.now) ∧
        w.event.suppressedCount = sinceLogged w.event.clientIP earlier) ∧ RateLimited lib earlier))

lemma sinceLogged_other {c : Addr} {w : Noted Addr} (other : w.event.clientIP ≠ c)
    (events : List (Noted Addr)) : sinceLogged c (w :: events) = sinceLogged c events := by
  rw [sinceLogged, List.filter_cons_of_neg (by simpa using other)]
  rfl

lemma sinceLogged_logged {c : Addr} {w : Noted Addr} (logged : Logged c w)
    (events : List (Noted Addr)) : sinceLogged c (w :: events) = 0 := by
  rw [sinceLogged, List.filter_cons_of_pos (by simpa using logged.1),
    List.takeWhile_cons_of_neg (by simpa using logged.2)]
  rfl

lemma sinceLogged_suppressed {c : Addr} {w : Noted Addr} (same : w.event.clientIP = c)
    (suppressed : w.event.shouldLog = false) (events : List (Noted Addr)) :
    sinceLogged c (w :: events) = sinceLogged c events + 1 := by
  rw [sinceLogged, List.filter_cons_of_pos (by simpa using same),
    List.takeWhile_cons_of_pos (by simpa using suppressed)]
  rfl

/-! ### What an operation does to the record of a client -/

/-- When the last event was logged, and how many have been suppressed since. -/
def record (l : Limiter Addr) (c : Addr) : Nat × Nat :=
  ((l.stateOf c).lastLogAt, (l.stateOf c).suppressedCount)

/-- The next limit event of the client is logged. -/
def Due (lib : ZoneLib) (r : Nat × Nat) (now : Nat) : Prop :=
  r.1 = 0 ∨ expensiveRequestLogInterval lib ≤ now - r.1

section Records

variable (lib : ZoneLib) (s : Watched Addr)

lemma record_setState_self (l : Limiter Addr) (c : Addr) (state : ClientState) :
    record (l.setState c state) c = (state.lastLogAt, state.suppressedCount) := by
  simp [record, Limiter.stateOf, Limiter.setState]

lemma record_setState_of_ne (l : Limiter Addr) {c c' : Addr} (state : ClientState)
    (ne : c' ≠ c) : record (l.setState c state) c' = record l c' := by
  simp [record, Limiter.stateOf, Limiter.setState, AList.lookup_insert_ne ne]

omit [DecidableEq Addr] in
lemma build_due {state : ClientState} {now : Nat}
    (due : Due lib (state.lastLogAt, state.suppressedCount) now) (c : Addr) (path : Path)
    (action : Action) (limit : Nat) :
    buildExpensiveRequestLimitEvent lib state c path action limit now =
      (⟨true, action, path, state.inflight, limit, state.suppressedCount, c⟩,
        { state with lastLogAt := now, suppressedCount := 0 }) :=
  if_pos due

omit [DecidableEq Addr] in
lemma build_early {state : ClientState} {now : Nat}
    (early : ¬ Due lib (state.lastLogAt, state.suppressedCount) now) (c : Addr) (path : Path)
    (action : Action) (limit : Nat) :
    buildExpensiveRequestLimitEvent lib state c path action limit now =
      (⟨false, action, path, state.inflight, limit, 0, c⟩,
        { state with suppressedCount := state.suppressedCount + 1 }) :=
  if_neg early

/-- Below the limit nothing is noted. At the limit the event is, and the record says whether it
is logged. -/
theorem acquire_cases (now : Nat) (c : Addr) (path : Path) :
    (s.limiter.inflight c < s.limiter.limit ∧
      (s.acquire lib now c path).limiter.inflight c = s.limiter.inflight c + 1 ∧
      (s.acquire lib now c path).events = s.events ∧
      record (s.acquire lib now c path).limiter c = record s.limiter c) ∨
    (s.limiter.limit ≤ s.limiter.inflight c ∧ ∃ event : LimitEvent Addr, event.clientIP = c ∧
      (s.acquire lib now c path).events = ⟨now, event⟩ :: s.events ∧
      ((Due lib (record s.limiter c) now ∧ event.shouldLog = true ∧
          event.suppressedCount = (record s.limiter c).2 ∧
          record (s.acquire lib now c path).limiter c = (now, 0)) ∨
        (¬ Due lib (record s.limiter c) now ∧ event.shouldLog = false ∧
          record (s.acquire lib now c path).limiter c =
            ((record s.limiter c).1, (record s.limiter c).2 + 1)))) := by
  rw [Watched.acquire, Limiter.tryAcquire]
  by_cases full : s.limiter.limit ≤ s.limiter.inflight c
  · rw [if_pos full]
    dsimp only
    refine .inr ⟨full, ?_⟩
    by_cases due : Due lib (record s.limiter c) now
    · rw [build_due lib due]
      exact ⟨_, rfl, rfl, .inl ⟨due, rfl, rfl, record_setState_self _ _ _⟩⟩
    · rw [build_early lib due]
      exact ⟨_, rfl, rfl, .inr ⟨due, rfl, record_setState_self _ _ _⟩⟩
  · rw [if_neg full]
    exact .inl ⟨Nat.lt_of_not_le full, Limiter.inflight_setState_self _ _ _, rfl,
      record_setState_self _ _ _⟩

lemma acquire_limit (now : Nat) (c : Addr) (path : Path) :
    (s.acquire lib now c path).limiter.limit = s.limiter.limit := by
  rw [Watched.acquire, Limiter.tryAcquire]
  split
  · rfl
  · rfl

lemma record_acquire_of_ne (now : Nat) {c c' : Addr} (path : Path) (ne : c' ≠ c) :
    record (s.acquire lib now c path).limiter c' = record s.limiter c' := by
  rw [Watched.acquire, Limiter.tryAcquire]
  split
  · exact record_setState_of_ne _ _ ne
  · exact record_setState_of_ne _ _ ne

lemma record_of_absent {l : Limiter Addr} {c : Addr} (absent : l.clients.lookup c = none) :
    record l c = (0, 0) := by
  simp [record, Limiter.stateOf, absent]

/-- The record goes with the entry. -/
theorem record_release_self (l : Limiter Addr) (c : Addr) :
    record (l.release c) c = if l.inflight c ≤ 1 then (0, 0) else record l c := by
  rw [Limiter.release]
  cases found : l.clients.lookup c with
  | none =>
    have idle : l.inflight c = 0 := by simp [Limiter.inflight, Limiter.stateOf, found]
    rw [if_pos (by omega)]
    exact record_of_absent found
  | some state =>
    have before : l.inflight c = state.inflight := by
      simp [Limiter.inflight, Limiter.stateOf, found]
    have noted : record l c = (state.lastLogAt, state.suppressedCount) := by
      simp [record, Limiter.stateOf, found]
    dsimp only
    rw [before, noted]
    by_cases last : state.inflight ≤ 1
    · have nothing : (if 0 < state.inflight then { state with inflight := state.inflight - 1 }
          else state).inflight = 0 := by
        split
        · dsimp only
          omega
        · omega
      rw [if_pos nothing, if_pos last]
      exact record_of_absent (AList.lookup_erase _ _)
    · have taken : 0 < state.inflight := by omega
      have more : state.inflight - 1 ≠ 0 := by omega
      rw [if_pos taken, if_neg more, if_neg last]
      exact record_setState_self _ _ _

lemma record_release_of_ne (l : Limiter Addr) {c c' : Addr} (ne : c' ≠ c) :
    record (l.release c) c' = record l c' := by
  rcases Limiter.release_spec l c with ⟨_, same⟩ | ⟨_, erased⟩ | ⟨_, state, _, kept⟩
  · rw [same]
  · simp [erased, record, Limiter.stateOf, AList.lookup_erase_ne ne]
  · rw [kept, record_setState_of_ne l state ne]

end Records

/-! ### Remembering -/

/-- The record of a client says what it needs of the events: when the last one was logged and
how many came after it; or it is new, and nothing that was logged is recent at `t`. -/
inductive Remembers (lib : ZoneLib) (t : Nat) (events : List (Noted Addr)) (c : Addr) :
    Nat × Nat → Prop
  | kept {last : Nat} (positive : last ≠ 0) (logged : ∃ w ∈ events, Logged c w ∧ w.now = last)
      (latest : ∀ w ∈ events, Logged c w → w.now ≤ last) :
      Remembers lib t events c (last, sinceLogged c events)
  | new (none_since : sinceLogged c events = 0)
      (past : ∀ w ∈ events, Logged c w → w.now + 30 * lib.second ≤ t) :
      Remembers lib t events c (0, 0)

/-- The release does not delete a record that still matters: the client has other slots, or no
event of it was logged, or none was suppressed and the thirty seconds are over. -/
def KeepsRecord (lib : ZoneLib) (s : Watched Addr) : Operation Addr → Prop
  | .release now (some c) =>
    1 < s.limiter.inflight c ∨ (record s.limiter c).1 = 0 ∨
      ((record s.limiter c).2 = 0 ∧ 30 * lib.second ≤ now - (record s.limiter c).1)
  | _ => True

instance (lib : ZoneLib) (s : Watched Addr) : ∀ o, Decidable (KeepsRecord lib s o)
  | .release _ (some _) => inferInstanceAs (Decidable (_ ∨ _))
  | .release _ none => isTrue trivial
  | .tryAcquire _ _ _ => isTrue trivial
  | .tryAcquireHotZone _ _ _ => isTrue trivial
  | .releaseHotZone _ _ => isTrue trivial

structure Sound (lib : ZoneLib) (t : Nat) (s : Watched Addr) : Prop where
  remembers : ∀ c, Remembers lib t s.events c (record s.limiter c)
  limited : RateLimited lib s.events

section Invariant

variable {lib : ZoneLib} {t : Nat} {s : Watched Addr}

omit [DecidableEq Addr] in
lemma second_pos (lib : ZoneLib) : 0 < 30 * lib.second :=
  Nat.mul_pos (by decide) lib.second_pos

lemma Remembers.later {events : List (Noted Addr)} {c : Addr} {r : Nat × Nat}
    (remembers : Remembers lib t events c r) {t' : Nat} (le : t ≤ t') :
    Remembers lib t' events c r := by
  cases remembers with
  | kept positive logged latest => exact .kept positive logged latest
  | new none_since past =>
    exact .new none_since fun w mem logged => Nat.le_trans (past w mem logged) le

lemma Sound.later (sound : Sound lib t s) {t' : Nat} (le : t ≤ t') : Sound lib t' s :=
  ⟨fun c => (sound.remembers c).later le, sound.limited⟩

/-- An event of another client changes nothing. -/
lemma Remembers.other {events : List (Noted Addr)} {c : Addr} {r : Nat × Nat}
    (remembers : Remembers lib t events c r) {w : Noted Addr} (other : w.event.clientIP ≠ c) :
    Remembers lib t (w :: events) c r := by
  have among : ∀ w' ∈ w :: events, Logged c w' → w' ∈ events := by
    intro w' mem logged
    rcases List.mem_cons.mp mem with rfl | mem
    · exact absurd logged.1 other
    · exact mem
  cases remembers with
  | kept positive logged latest =>
    obtain ⟨w', mem, is, at_last⟩ := logged
    rw [← sinceLogged_other other]
    exact .kept positive ⟨w', List.mem_cons_of_mem w mem, is, at_last⟩
      fun w' mem logged => latest w' (among w' mem logged) logged
  | new none_since past =>
    refine .new ?_ fun w' mem logged => past w' (among w' mem logged) logged
    rw [sinceLogged_other other]
    exact none_since

/-- A due event is logged in time and with the right count. -/
lemma Remembers.due {events : List (Noted Addr)} {c : Addr} {r : Nat × Nat}
    (remembers : Remembers lib t events c r) {now : Nat} (later : t ≤ now)
    (due : Due lib r now) :
    (∀ w ∈ events, Logged c w → w.now + 30 * lib.second ≤ now) ∧ r.2 = sinceLogged c events := by
  have interval := second_pos lib
  cases remembers with
  | kept positive logged latest =>
    refine ⟨?_, rfl⟩
    intro w mem is
    have before := latest w mem is
    rcases due with zero | long
    · exact absurd zero positive
    · rw [expensiveRequestLogInterval] at long
      dsimp only at long
      omega
  | new none_since past =>
    exact ⟨fun w mem is => Nat.le_trans (past w mem is) later, none_since.symm⟩

lemma Remembers.logged {events : List (Noted Addr)} {c : Addr} {now : Nat}
    {event : LimitEvent Addr} (positive : 0 < now) (logged : Logged c ⟨now, event⟩)
    (past : ∀ w ∈ events, Logged c w → w.now ≤ now) :
    Remembers lib now (⟨now, event⟩ :: events) c (now, 0) := by
  rw [← sinceLogged_logged logged events]
  refine .kept (Nat.ne_of_gt positive) ⟨_, List.mem_cons_self, logged, rfl⟩ ?_
  intro w mem is
  rcases List.mem_cons.mp mem with rfl | mem
  · exact Nat.le_refl _
  · exact past w mem is

lemma Remembers.suppressed {events : List (Noted Addr)} {c : Addr} {r : Nat × Nat}
    (remembers : Remembers lib t events c r) {now : Nat} (early : ¬ Due lib r now)
    {event : LimitEvent Addr} (same : event.clientIP = c) (unlogged : event.shouldLog = false) :
    Remembers lib now (⟨now, event⟩ :: events) c (r.1, r.2 + 1) := by
  cases remembers with
  | new none_since past => exact absurd (.inl rfl) early
  | kept positive logged latest =>
    obtain ⟨w, mem, is, at_last⟩ := logged
    have count := sinceLogged_suppressed (w := ⟨now, event⟩) same unlogged events
    dsimp only
    rw [← count]
    refine .kept positive ⟨w, List.mem_cons_of_mem _ mem, is, at_last⟩ ?_
    intro w' mem' is'
    rcases List.mem_cons.mp mem' with rfl | mem'
    · exact absurd is'.2 (by rw [unlogged]; exact Bool.false_ne_true)
    · exact latest w' mem' is'

/-- A limit event of `c` is noted that fits the earlier ones. -/
lemma Sound.noted (sound : Sound lib t s) {now : Nat} (later : t ≤ now) {c : Addr}
    {event : LimitEvent Addr} (client : event.clientIP = c) {s' : Watched Addr}
    (events : s'.events = ⟨now, event⟩ :: s.events)
    (others : ∀ c' ≠ c, record s'.limiter c' = record s.limiter c')
    (own : Remembers lib now (⟨now, event⟩ :: s.events) c (record s'.limiter c))
    (fits : event.shouldLog = true →
      (∀ w ∈ s.events, Logged c w → w.now + 30 * lib.second ≤ now) ∧
        event.suppressedCount = sinceLogged c s.events) : Sound lib now s' := by
  constructor
  · intro c'
    rw [events]
    by_cases is : c' = c
    · rw [is]
      exact own
    · have foreign : (⟨now, event⟩ : Noted Addr).event.clientIP ≠ c' :=
        fun same => is (same.symm.trans client)
      rw [others c' is]
      exact ((sound.remembers c').later later).other foreign
  · rw [events]
    refine ⟨?_, sound.limited⟩
    rw [client]
    exact fits

lemma acquire_sound (sound : Sound lib t s) {now : Nat} (positive : 0 < now) (later : t ≤ now)
    (c : Addr) (path : Path) : Sound lib now (s.acquire lib now c path) := by
  have others : ∀ c' ≠ c, record (s.acquire lib now c path).limiter c' = record s.limiter c' :=
    fun c' ne => record_acquire_of_ne lib s now path ne
  rcases acquire_cases lib s now c path with
    ⟨_, _, events, same⟩ | ⟨_, event, client, events, outcome⟩
  · refine ⟨?_, events ▸ sound.limited⟩
    intro c'
    have unchanged : record (s.acquire lib now c path).limiter c' = record s.limiter c' := by
      by_cases is : c' = c
      · rw [is, same]
      · exact others c' is
    rw [events, unchanged]
    exact (sound.remembers c').later later
  · rcases outcome with ⟨due, logs, count, after⟩ | ⟨early, unlogged, after⟩
    · obtain ⟨spaced, exact_count⟩ := (sound.remembers c).due later due
      refine sound.noted later client events others ?_ fun _ => ⟨spaced, count.trans exact_count⟩
      rw [after]
      refine .logged positive ⟨client, logs⟩ ?_
      intro w mem is
      exact Nat.le_trans (Nat.le_add_right _ _) (spaced w mem is)
    · refine sound.noted later client events others ?_ ?_
      · rw [after]
        exact (sound.remembers c).suppressed early client unlogged
      · intro logs
        rw [unlogged] at logs
        cases logs

lemma release_sound (sound : Sound lib t s) {now : Nat} (later : t ≤ now) {c : Addr}
    (keeps : KeepsRecord lib s (.release now (some c))) :
    Sound lib now { s with limiter := s.limiter.release c } := by
  refine ⟨?_, sound.limited⟩
  intro c'
  have before := (sound.remembers c').later later
  dsimp only
  by_cases is : c' = c
  · subst is
    rw [record_release_self]
    split
    · rename_i last
      change 1 < _ ∨ _ ∨ _ at keeps
      generalize record s.limiter c' = r at before keeps
      cases before with
      | new none_since past => exact .new none_since past
      | kept positive logged latest =>
        obtain more | zero | ⟨none_since, long⟩ := keeps
        · omega
        · exact absurd zero positive
        · refine .new none_since ?_
          intro w mem is
          have noted := latest w mem is
          have interval := second_pos lib
          dsimp only at long
          omega
    · exact before
  · rw [record_release_of_ne s.limiter is]
    exact before

lemma step_sound (sound : Sound lib t s) {o : Operation Addr} (positive : 0 < o.now)
    (later : t ≤ o.now) (keeps : KeepsRecord lib s o) : Sound lib o.now (step lib s o) := by
  have waited : Sound lib o.now s := sound.later later
  cases o with
  | tryAcquire now clientIP path =>
    cases clientIP with
    | none => exact waited
    | some c => exact acquire_sound sound positive later c path
  | release now clientIP =>
    cases clientIP with
    | none => exact waited
    | some c => exact release_sound sound later keeps
  | tryAcquireHotZone tick qname matchedForwardZone => exact ⟨waited.remembers, waited.limited⟩
  | releaseHotZone tick ticket => exact ⟨waited.remembers, waited.limited⟩

end Invariant

/-! ### Runs -/

/-- The clock does not go back, and does not read the zero time. -/
structure Timed (ops : List (Operation Addr)) : Prop where
  positive : ∀ o ∈ ops, 0 < o.now
  ordered : (ops.map Operation.now).Pairwise (· ≤ ·)

omit [DecidableEq Addr] in
lemma Timed.init {ops later : List (Operation Addr)} (timed : Timed (ops ++ later)) :
    Timed ops := by
  obtain ⟨positive, ordered⟩ := timed
  rw [List.map_append] at ordered
  exact ⟨fun o mem => positive o (List.mem_append_left _ mem), (List.pairwise_append.mp ordered).1⟩

omit [DecidableEq Addr] in
/-- More operations may follow at the time of the last one. -/
lemma Timed.append_replicate {ops : List (Operation Addr)} {o : Operation Addr}
    (timed : Timed (ops ++ [o])) (o' : Operation Addr) (same : o'.now = o.now) (k : Nat) :
    Timed (ops ++ [o] ++ List.replicate k o') := by
  have last : 0 < o.now := timed.positive o (List.mem_append_right _ List.mem_cons_self)
  have latest : ∀ o'' ∈ ops ++ [o], o''.now ≤ o.now := by
    have ordered := timed.ordered
    rw [List.map_append, List.pairwise_append] at ordered
    intro o'' mem
    rcases List.mem_append.mp mem with mem | mem
    · exact ordered.2.2 _ (List.mem_map_of_mem mem) _ List.mem_cons_self
    · rw [List.mem_singleton.mp mem]
  constructor
  · intro o'' mem
    rcases List.mem_append.mp mem with mem | mem
    · exact timed.positive o'' mem
    · rw [List.eq_of_mem_replicate mem, same]
      exact last
  · rw [List.map_append, List.pairwise_append, List.map_replicate, same]
    refine ⟨timed.ordered, List.pairwise_replicate_of_refl, ?_⟩
    intro t mem t' repeated
    obtain ⟨o'', earlier, rfl⟩ := List.mem_map.mp mem
    rw [List.eq_of_mem_replicate repeated]
    exact latest o'' earlier

def acquires : Operation Addr → Bool
  | .tryAcquire _ _ _ => true
  | _ => false

section Runs

variable {lib : ZoneLib} {numCPU : Nat} {cfg : Config} {l : Limiter Addr}

lemma initial_sound (made : newExpensiveRequestLimiter lib numCPU cfg = some l) (t : Nat) :
    Sound lib t ⟨l, []⟩ := by
  rw [newExpensiveRequestLimiter] at made
  split at made
  · cases made
  · cases made
    refine ⟨fun c => ?_, trivial⟩
    rw [record_of_absent rfl]
    exact .new rfl fun w mem => nomatch mem

/-- In a run whose releases keep the records that matter, every state is sound. -/
theorem run_sound (made : newExpensiveRequestLimiter lib numCPU cfg = some l)
    {ops : List (Operation Addr)} (timed : Timed ops)
    (keeps : StepRuns.Along (step lib) (KeepsRecord lib) ⟨l, []⟩ ops) :
    ∃ t, Sound lib t (StepRuns.run (step lib) ⟨l, []⟩ ops) := by
  obtain ⟨t, sound, -⟩ := StepRuns.timed_invariant (step lib) Operation.now
    (fun t s o mem sound later kept => step_sound sound (timed.positive o mem) later kept)
    (initial_sound made 0) timed.ordered keeps
  exact ⟨t, sound⟩

lemma along_acquires (s : Watched Addr) {later : List (Operation Addr)}
    (only : later.all acquires = true) : StepRuns.Along (step lib) (KeepsRecord lib) s later := by
  induction later generalizing s with
  | nil => trivial
  | cons o later ih =>
    rw [List.all_cons, Bool.and_eq_true] at only
    refine ⟨?_, ih (step lib s o) only.2⟩
    cases o with
    | tryAcquire now clientIP path => trivial
    | _ => cases only.1

end Runs

/-! ### A record that is deleted too early -/

section Deleted

variable (lib : ZoneLib) (now : Nat) (c : Addr) (path : Path)

/-- Acquisitions up to the limit note nothing. -/
lemma run_acquire_below (k : Nat) (s : Watched Addr)
    (room : s.limiter.inflight c + k ≤ s.limiter.limit) :
    let s' := StepRuns.run (step lib) s (List.replicate k (.tryAcquire now (some c) path))
    s'.limiter.limit = s.limiter.limit ∧ s'.limiter.inflight c = s.limiter.inflight c + k ∧
      s'.events = s.events ∧ record s'.limiter c = record s.limiter c := by
  induction k generalizing s with
  | zero => exact ⟨rfl, rfl, rfl, rfl⟩
  | succ k ih =>
    obtain ⟨_, more, events, same⟩ | ⟨full, _⟩ := acquire_cases lib s now c path
    · have limit := acquire_limit lib s now c path
      have rest := ih (s.acquire lib now c path) (by rw [more, limit]; omega)
      rw [limit, more, events, same, Nat.add_assoc, Nat.add_comm 1 k] at rest
      exact rest
    · omega

/-- A client without a record is logged as soon as it reaches the limit. -/
lemma run_acquire_logs (s : Watched Addr) (idle : s.limiter.inflight c = 0)
    (new : record s.limiter c = (0, 0)) :
    ∃ event : LimitEvent Addr, event.clientIP = c ∧ event.shouldLog = true ∧
      event.suppressedCount = 0 ∧
      (StepRuns.run (step lib) s (List.replicate (s.limiter.limit + 1)
        (.tryAcquire now (some c) path))).events = ⟨now, event⟩ :: s.events := by
  obtain ⟨limit, full, events, same⟩ :=
    run_acquire_below lib now c path s.limiter.limit s (by omega)
  rw [List.replicate_succ', StepRuns.run_snoc]
  generalize StepRuns.run (step lib) s (List.replicate s.limiter.limit
    (.tryAcquire now (some c) path)) = s' at limit full events same
  rw [step, ← events]
  rw [new] at same
  rcases acquire_cases lib s' now c path with ⟨below, _⟩ | ⟨_, event, client, noted, outcome⟩
  · omega
  rw [same] at outcome
  rcases outcome with ⟨_, logs, count, _⟩ | ⟨early, _⟩
  · exact ⟨event, client, logs, count, noted⟩
  · exact absurd (.inl rfl) early

/-- Only a release deletes a record. -/
lemma deletes_release {lib : ZoneLib} {s : Watched Addr} {o : Operation Addr}
    (deletes : ¬ KeepsRecord lib s o) : ∃ now c, o = .release now (some c) := by
  cases o with
  | release now clientIP =>
    cases clientIP with
    | none => exact absurd trivial deletes
    | some c => exact ⟨now, c, rfl⟩
  | _ => exact absurd trivial deletes

/-- After a release that deletes a record that matters, the next event that is logged breaks
the rate limit. -/
lemma deleted_breaks {t : Nat} {s : Watched Addr} (sound : Sound lib t s)
    (deletes : ¬ KeepsRecord lib s (.release now (some c))) :
    ¬ RateLimited lib (StepRuns.run (step lib) (step lib s (.release now (some c)))
      (List.replicate (s.limiter.limit + 1) (.tryAcquire now (some c) path))).events := by
  change ¬ (1 < _ ∨ _ ∨ _) at deletes
  rw [not_or, not_or] at deletes
  obtain ⟨last, logged_before, matters⟩ := deletes
  have limit : (s.limiter.release c).limit = s.limiter.limit := by
    rcases Limiter.release_spec s.limiter c with ⟨_, is⟩ | ⟨_, is⟩ | ⟨_, state, _, is⟩
    · rw [is]
    · rw [is]
    · rw [is]
      rfl
  have idle : (s.limiter.release c).inflight c = 0 := by
    rw [Limiter.inflight_release_self]
    omega
  have new : record (s.limiter.release c) c = (0, 0) := by
    rw [record_release_self, if_pos (by omega)]
  obtain ⟨event, client, logs, count, noted⟩ :=
    run_acquire_logs lib now c path { s with limiter := s.limiter.release c } idle new
  dsimp only at noted
  rw [limit] at noted
  rw [step, noted]
  rintro ⟨fits, -⟩
  obtain ⟨spaced, exact_count⟩ := fits logs
  rw [client] at spaced exact_count
  have remembers := sound.remembers c
  generalize record s.limiter c = r at remembers logged_before matters
  cases remembers with
  | new none_since past => exact logged_before rfl
  | kept positive logged latest =>
    obtain ⟨w, mem, is, rfl⟩ := logged
    have apart := spaced w mem is
    rw [count] at exact_count
    refine matters ⟨exact_count.symm, ?_⟩
    dsimp only at apart ⊢
    omega

end Deleted

/-- For every sequence of operations at times that do not go back. In a run whose releases keep
the records that matter the warnings are rate-limited. And no such release can be spared: after
a run of that kind, the operations so far and any acquisitions that follow are rate-limited if
and only if the next release keeps its record too. -/
theorem warnings_limited_iff {lib : ZoneLib} {numCPU : Nat} {cfg : Config} {l : Limiter Addr}
    (made : newExpensiveRequestLimiter lib numCPU cfg = some l) :
    (∀ ops, Timed ops → StepRuns.Along (step lib) (KeepsRecord lib) ⟨l, []⟩ ops →
      RateLimited lib (StepRuns.run (step lib) ⟨l, []⟩ ops).events) ∧
    ∀ ops o, Timed (ops ++ [o]) → StepRuns.Along (step lib) (KeepsRecord lib) ⟨l, []⟩ ops →
      (KeepsRecord lib (StepRuns.run (step lib) ⟨l, []⟩ ops) o ↔
        ∀ later, later.all acquires = true → Timed (ops ++ [o] ++ later) →
          RateLimited lib (StepRuns.run (step lib) ⟨l, []⟩ (ops ++ [o] ++ later)).events) := by
  constructor
  · intro ops timed keeps
    obtain ⟨t, sound⟩ := run_sound made timed keeps
    exact sound.limited
  · intro ops o timed keeps
    constructor
    · intro kept later only timed
      have along := (StepRuns.along_append (step lib)).mpr
        ⟨(StepRuns.along_snoc (step lib)).mpr ⟨keeps, kept⟩, along_acquires _ only⟩
      obtain ⟨t, sound⟩ := run_sound made timed along
      exact sound.limited
    · intro limited
      by_contra deletes
      obtain ⟨t, sound⟩ := run_sound made timed.init keeps
      obtain ⟨now, c, rfl⟩ := deletes_release deletes
      refine deleted_breaks lib now c .forward sound deletes ?_
      rw [← StepRuns.run_snoc (step lib), ← StepRuns.run_append]
      exact limited _ (by simp [acquires])
        (timed.append_replicate (.tryAcquire now (some c) .forward) rfl _)

/-- A client at a limit of one that asks three times more and gives its slot back when its last
logged event is more than thirty seconds old. -/
theorem patient_release_limited :
    let l : Limiter Nat := ⟨1, false, ∅, newHotZoneController plainZoneLib []⟩
    let ask (t : Nat) : Operation Nat := .tryAcquire (t * second) (some 7) .iterative
    let s := StepRuns.run (step plainZoneLib) ⟨l, []⟩ [ask 100, ask 101, ask 110, ask 131,
      .release (162 * second) (some 7), ask 163, ask 164]
    (s.events.map fun w => (w.now, w.event.shouldLog, w.event.suppressedCount)) =
        [(164 * second, true, 0), (131 * second, true, 1), (110 * second, false, 0),
          (101 * second, true, 0)] ∧
      RateLimited plainZoneLib s.events := by
  have made : newExpensiveRequestLimiter plainZoneLib 1 ⟨.enabled, 1, [], false⟩ =
      some (⟨1, false, ∅, newHotZoneController plainZoneLib []⟩ : Limiter Nat) := rfl
  refine ⟨by decide +kernel, (warnings_limited_iff made).1 _ ⟨by decide, by decide⟩ ?_⟩
  decide +kernel

/-- The client is refused and logged, gives its slot back one second later, and is logged again
when it next reaches the limit: two warnings three seconds apart, and the refusal between them
is not counted. -/
theorem early_release_logs_again :
    let l : Limiter Nat := ⟨1, false, ∅, newHotZoneController plainZoneLib []⟩
    let ask (t : Nat) : Operation Nat := .tryAcquire (t * second) (some 7) .iterative
    let ops := [ask 100, ask 101, ask 102, .release (102 * second) (some 7), ask 103, ask 104]
    let s := StepRuns.run (step plainZoneLib) ⟨l, []⟩ ops
    newExpensiveRequestLimiter plainZoneLib 1 ⟨.enabled, 1, [], false⟩ = some l ∧ Timed ops ∧
      (s.events.map fun w => (w.now, w.event.shouldLog, w.event.suppressedCount)) =
        [(104 * second, true, 0), (102 * second, false, 0), (101 * second, true, 0)] ∧
      ¬ RateLimited plainZoneLib s.events := by
  refine ⟨rfl, ⟨by decide, by decide⟩, ?_⟩
  decide +kernel

end LimitWarnings
