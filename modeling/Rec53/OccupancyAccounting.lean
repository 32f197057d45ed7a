import Rec53.HotZoneEvidence
import Rec53.WindowMeter

/-!
# The global occupancy is exact

The controller is a meter of the kind of `WindowMeter`: its windows are the frames, an active
request is an open stay whose mark is `accountedAt`, and a rotation turns to the next window
once for every boundary that was crossed. An evaluation changes the two maps of a window and
not its global occupancy.

Beside the controller the admissions are written down from what `TryEnter` returned and from
the calls of `Release`; the controller forgets a request when it is released.
-/

namespace OccupancyAccounting

open Platform HotZone HotZoneEvidence WindowMeter

/-- A request that was let in. -/
structure Admission where
  ticket : Nat
  startedAt : Nat
  releasedAt : Option Nat
  deriving DecidableEq

structure Books where
  controller : Controller
  admitted : List Admission

def eventTime : Event → Nat
  | .tryEnter now _ _ _ => now
  | .release now _ _ => now
  | .evaluate now _ => now

/-- The first release of a ticket ends its request. -/
def Admission.release (now id : Nat) (e : Admission) : Admission :=
  if e.ticket = id ∧ e.releasedAt = none then { e with releasedAt := some now } else e

def record (lib : ZoneLib) (b : Books) : Event → List Admission
  | .tryEnter now qname matchedForwardZone reading =>
    match (b.controller.tryEnter lib reading now qname matchedForwardZone).1 with
    | none => b.admitted
    | some id => ⟨id, now, none⟩ :: b.admitted
  | .release now id _ => b.admitted.map (Admission.release now id)
  | .evaluate _ _ => b.admitted

def bookStep (lib : ZoneLib) (b : Books) (e : Event) : Books :=
  ⟨step lib b.controller e, record lib b e⟩

/-! ### The controller as a meter -/

def frame (w : Window) : Frame := ⟨w.start, w.globalOccupancy⟩

def stay (a : ActiveRequest) : Nat × Nat := (a.startedAt, a.accountedAt)

def meter (c : Controller) (closed : List (Nat × Nat)) : Meter :=
  ⟨c.windows.map frame, c.requests.map stay, closed⟩

section Controllers

variable (lib : ZoneLib) {c : Controller} {closed : List (Nat × Nat)}

def ExactBooks (closed : List (Nat × Nat)) (c : Controller) : Prop :=
  Exact (hotZoneWindowDuration lib) hotZoneRecentWindowCount (meter c closed)

lemma requests_accountUntil (c : Controller) (boundary : Nat) :
    (c.accountUntil boundary).requests =
      c.requests.map fun a => { a with accountedAt := boundary } := by
  rw [Controller.requests, Controller.requests, Controller.accountUntil, List.map_map,
    List.map_map]
  rfl

/-- One round of the rotation turns the meter. -/
lemma meter_closeWindow (now : Nat) (opened : c.windows ≠ []) :
    meter (c.closeWindow lib now) closed =
      (meter c closed).turn (hotZoneWindowDuration lib) hotZoneRecentWindowCount := by
  obtain ⟨w, rest, windows⟩ := List.exists_cons_of_ne_nil opened
  have current : c.current lib now = w := by
    rw [Controller.current, windows]
  obtain ⟨start, sum, -⟩ := addSegments_spec lib (w.start + hotZoneWindowDuration lib) w c.requests
  have ended : frame (addSegments lib (w.start + hotZoneWindowDuration lib) w c.requests) =
      ⟨w.start, w.globalOccupancy +
        ((c.requests.map stay).map fun i => w.start + hotZoneWindowDuration lib - i.2).sum⟩ := by
    rw [frame, start, sum, unaccounted, List.map_map]
    rfl
  have stays : (c.closeWindow lib now).requests.map stay =
      (c.requests.map stay).map fun i => (i.1, w.start + hotZoneWindowDuration lib) := by
    rw [Controller.closeWindow, current]
    change ((Controller.accountUntil _ _).requests).map stay = _
    rw [requests_accountUntil, List.map_map, List.map_map]
    rfl
  have frames : (c.closeWindow lib now).windows.map frame =
      (⟨w.start + hotZoneWindowDuration lib, 0⟩ ::
        frame (addSegments lib (w.start + hotZoneWindowDuration lib) w c.requests) ::
        rest.map frame).take hotZoneRecentWindowCount := by
    rw [Controller.closeWindow, current, Controller.advanceWindowLocked]
    change ((newHotZoneWindow _ :: addSegments _ _ _ _ :: c.windows.tail).take _).map frame = _
    rw [List.map_take, windows]
    rfl
  rw [meter, frames, stays, ended, meter, windows, Meter.turn]
  rfl

/-- A window that is there is the current one. -/
lemma ensureCurrent_of_opened (now : Nat) (opened : c.windows ≠ []) :
    c.ensureCurrentWindowLocked lib now = c := by
  obtain ⟨w, rest, windows⟩ := List.exists_cons_of_ne_nil opened
  rw [Controller.ensureCurrentWindowLocked, Controller.setCurrent, Controller.current, windows]
  dsimp only
  rw [List.tail_cons, ← windows]

lemma exactBooks_ensureCurrent (now : Nat) (books : ExactBooks lib closed c) :
    ExactBooks lib closed (c.ensureCurrentWindowLocked lib now) := by
  by_cases opened : c.windows = []
  · have fresh : meter (c.ensureCurrentWindowLocked lib now) closed =
        (meter c closed).first (c.current lib now).start := by
      rw [Controller.ensureCurrentWindowLocked, Controller.setCurrent, Controller.current, opened]
      rfl
    rw [ExactBooks, fresh]
    exact books.first (by rw [meter, opened]; rfl) (by decide) _
  · rw [ensureCurrent_of_opened lib now opened]
    exact books

lemma exactBooks_rotateLocked (now : Nat) (books : ExactBooks lib closed c) :
    ExactBooks lib closed (c.rotateLocked lib now) ∧ (c.rotateLocked lib now).windows ≠ [] := by
  refine Controller.rotateLocked_keeps lib now
    (P := fun c => ExactBooks lib closed c ∧ c.windows ≠ []) ?_ ?_
  · intro c ⟨books, opened⟩
    refine ⟨?_, List.cons_ne_nil _ _⟩
    rw [ExactBooks, meter_closeWindow lib now opened]
    exact books.turn (by decide) (hotZoneWindowDuration_pos lib)
  · exact ⟨exactBooks_ensureCurrent lib now books, List.cons_ne_nil _ _⟩

/-- An evaluation ensures the current window and leaves the meter alone. -/
lemma meter_evaluateLocked (closed : List (Nat × Nat)) (reading : Reading) (c : Controller)
    (now : Nat) :
    meter (c.evaluateLocked lib reading now) closed =
      meter (c.ensureCurrentWindowLocked lib now) closed := by
  have judged := Controller.judge_sameBooks lib reading (c.snapshotLocked lib now).1
    (c.snapshotLocked lib now).2
  have requests : (c.evaluateLocked lib reading now).requests = c.requests :=
    congrArg (fun active => active.entries.map Sigma.snd) judged.active
  rw [meter, requests, evaluateLocked_windows]
  rfl

lemma evaluateLocked_active (reading : Reading) (c : Controller) (now : Nat) :
    (c.evaluateLocked lib reading now).active = c.active ∧
      (c.evaluateLocked lib reading now).nextID = c.nextID := by
  have judged := Controller.judge_sameBooks lib reading (c.snapshotLocked lib now).1
    (c.snapshotLocked lib now).2
  exact ⟨judged.active, judged.nextID⟩

/-- The fields of a controller that the books are about. -/
structure SameMeter (c c' : Controller) : Prop where
  windows : c'.windows.map frame = c.windows.map frame
  active : c'.active = c.active
  nextID : c'.nextID = c.nextID

lemma maybeEvaluateLocked_sameMeter (reading : Reading) (now : Nat) (rotated : Bool)
    (opened : c.windows ≠ []) :
    SameMeter c (c.maybeEvaluateLocked lib reading now rotated) := by
  rw [Controller.maybeEvaluateLocked]
  split
  · obtain ⟨active, nextID⟩ := evaluateLocked_active lib reading c now
    have frames := congrArg Meter.frames (meter_evaluateLocked lib [] reading c now)
    rw [ensureCurrent_of_opened lib now opened] at frames
    exact ⟨frames, active, nextID⟩
  · exact ⟨rfl, rfl, rfl⟩

/-! ### The clock -/

/-- The current window has started, and no request is accounted further than now. -/
structure Reached (now : Nat) (c : Controller) : Prop where
  started : ∀ w ∈ c.windows.head?, w.start ≤ now
  accounted : ∀ a ∈ c.requests, a.accountedAt ≤ now

/-- The current window is the one of now. -/
def Current (now : Nat) (c : Controller) : Prop :=
  ∃ w ∈ c.windows.head?, w.start ≤ now ∧ now < w.start + hotZoneWindowDuration lib

lemma rotateLoop_current {now n : Nat} {w : Window} (head : w ∈ c.windows.head?)
    (started : w.start ≤ now)
    (rounds : (now - w.start) / hotZoneWindowDuration lib = n) :
    Current lib now (c.rotateLoop lib now n) := by
  have positive := hotZoneWindowDuration_pos lib
  induction n generalizing c w with
  | zero =>
    have early := (Nat.div_eq_zero_iff_lt positive).mp rounds
    exact ⟨w, head, started, by omega⟩
  | succ n ih =>
    have current : c.current lib now = w := by
      obtain ⟨rest, windows⟩ := List.head?_eq_some_iff.mp head
      rw [Controller.current, windows]
    have long : hotZoneWindowDuration lib ≤ now - w.start := by
      by_contra short
      rw [Nat.div_eq_of_lt (Nat.lt_of_not_le short)] at rounds
      omega
    have due : w.start + hotZoneWindowDuration lib ≤ now := by omega
    rw [Nat.div_eq_sub_div positive long, Nat.sub_sub] at rounds
    rw [Controller.rotateLoop, current, if_pos due]
    refine ih (w := newHotZoneWindow (w.start + hotZoneWindowDuration lib)) ?_ due
      (Nat.succ.inj rounds)
    rw [Controller.closeWindow, current]
    rfl

lemma ensureCurrent_head (now : Nat) :
    c.current lib now ∈ (c.ensureCurrentWindowLocked lib now).windows.head? := rfl

/-- A first window starts by now. -/
lemma current_started {now : Nat} (reached : Reached now c) : (c.current lib now).start ≤ now := by
  cases windows : c.windows with
  | nil =>
    rw [Controller.current, windows]
    change (if _ then now else now - now % hotZoneWindowDuration lib) ≤ now
    split
    · exact Nat.le_refl _
    · exact Nat.sub_le _ _
  | cons w rest =>
    rw [Controller.current, windows]
    exact reached.started w (by rw [windows]; rfl)

lemma rotateLocked_current {now : Nat} (reached : Reached now c) :
    Current lib now (c.rotateLocked lib now) :=
  rotateLoop_current lib (ensureCurrent_head lib now) (current_started lib reached) rfl

lemma rotateLocked_accounted {now : Nat} (reached : Reached now c) :
    ∀ a ∈ (c.rotateLocked lib now).requests, a.accountedAt ≤ now := by
  have started := current_started lib reached
  intro a mem
  rw [Controller.requests] at mem
  cases due : c.rotationDue lib now with
  | false =>
    rw [rotateLocked_not_due lib due] at mem
    exact reached.accounted a mem
  | true =>
    rw [rotateLocked_due lib due, List.map_map] at mem
    obtain ⟨e, _, rfl⟩ := List.mem_map.mp mem
    have within := Nat.div_mul_le_self (now - (c.current lib now).start)
      (hotZoneWindowDuration lib)
    change (c.current lib now).start + _ ≤ now
    omega

/-- What a rotation leaves. -/
structure Rotated (now : Nat) (closed : List (Nat × Nat)) (c : Controller) : Prop where
  books : ExactBooks lib closed c
  current : Current lib now c
  accounted : ∀ a ∈ c.requests, a.accountedAt ≤ now

lemma rotateLocked_rotated {now : Nat} (books : ExactBooks lib closed c) (reached : Reached now c) :
    Rotated lib now closed (c.rotateLocked lib now) :=
  ⟨(exactBooks_rotateLocked lib now books).1, rotateLocked_current lib reached,
    rotateLocked_accounted lib reached⟩

variable {lib} {now : Nat}

lemma Rotated.opened (rotated : Rotated lib now closed c) : c.windows ≠ [] := by
  obtain ⟨w, head, -⟩ := rotated.current
  rintro empty
  rw [empty] at head
  cases head

lemma Current.reached (current : Current lib now c)
    (accounted : ∀ a ∈ c.requests, a.accountedAt ≤ now) : Reached now c := by
  obtain ⟨w, head, started, -⟩ := current
  refine ⟨?_, accounted⟩
  intro w' head'
  rw [Option.mem_unique head' head]
  exact started

lemma SameMeter.meter {c' : Controller} (same : SameMeter c c') (closed : List (Nat × Nat)) :
    meter c' closed = OccupancyAccounting.meter c closed := by
  rw [OccupancyAccounting.meter, OccupancyAccounting.meter, same.windows, Controller.requests,
    Controller.requests, same.active]

/-- The start of the current window can be read off the frames. -/
lemma current_iff_frame : Current lib now c ↔
    ∃ f ∈ (c.windows.map frame).head?, f.start ≤ now ∧
      now < f.start + hotZoneWindowDuration lib := by
  rw [Current, List.head?_map]
  constructor
  · rintro ⟨w, head, within⟩
    exact ⟨frame w, Option.mem_map_of_mem frame head, within⟩
  · rintro ⟨f, head, within⟩
    obtain ⟨w, first, rfl⟩ := Option.map_eq_some_iff.mp head
    exact ⟨w, first, within⟩

lemma Rotated.sameMeter {c' : Controller} (rotated : Rotated lib now closed c)
    (same : SameMeter c c') : Rotated lib now closed c' := by
  refine ⟨?_, ?_, ?_⟩
  · rw [ExactBooks, same.meter]
    exact rotated.books
  · rw [current_iff_frame, same.windows, ← current_iff_frame]
    exact rotated.current
  · rw [Controller.requests, same.active]
    exact rotated.accounted

end Controllers

/-! ### Entering and leaving -/

section Requests

variable {lib : ZoneLib} {now : Nat} {closed : List (Nat × Nat)} {c : Controller}

/-- The request of a ticket in front of the others. -/
lemma entries_perm_erase {active : AList fun _ : Nat => ActiveRequest} {id : Nat}
    {a : ActiveRequest} (found : active.lookup id = some a) :
    active.entries.Perm (⟨id, a⟩ :: (active.erase id).entries) := by
  have listed : (⟨id, a⟩ : (_ : Nat) × ActiveRequest) ∈ active.entries :=
    AList.mem_lookup_iff.mp found
  obtain ⟨b, before, after, -, entries, erased⟩ :=
    List.exists_of_kerase (List.mem_map_of_mem listed)
  have same : active.lookup id = some b := by
    apply AList.mem_lookup_iff.mpr
    rw [entries]
    exact List.mem_append_right _ List.mem_cons_self
  obtain rfl : a = b := Option.some.inj (found.symm.trans same)
  change active.entries.Perm (⟨id, a⟩ :: active.entries.kerase id)
  rw [erased, entries]
  exact List.perm_middle

lemma meter_enter {id : Nat} (new : id ∉ c.active.keys) (a : ActiveRequest)
    (starts : stay a = (now, now)) (closed : List (Nat × Nat)) :
    meter { c with nextID := id, active := c.active.insert id a } closed =
      (meter c closed).enter now := by
  have requests : ({ c with nextID := id, active := c.active.insert id a } : Controller).requests =
      a :: c.requests := by
    rw [Controller.requests, AList.entries_insert_of_notMem new]
    rfl
  rw [meter, requests, List.map_cons, starts]
  rfl

lemma Rotated.enter (rotated : Rotated lib now closed c) {id : Nat} (new : id ∉ c.active.keys)
    {a : ActiveRequest} (starts : stay a = (now, now)) :
    Rotated lib now closed { c with nextID := id, active := c.active.insert id a } := by
  have current := rotated.current
  refine ⟨?_, current, ?_⟩
  · obtain ⟨f, head, started, within⟩ := current_iff_frame.mp current
    rw [ExactBooks, meter_enter new a starts]
    exact rotated.books.enter head started within
  · intro a' mem
    rw [Controller.requests, AList.entries_insert_of_notMem new] at mem
    rcases List.mem_cons.mp mem with rfl | mem
    · exact Nat.le_of_eq (congrArg Prod.snd starts)
    · exact rotated.accounted a' mem

/-- A request that is released leaves the meter. -/
lemma meter_settle (rotated : Rotated lib now closed c) {id : Nat} {a : ActiveRequest}
    (found : c.active.lookup id = some a) :
    meter (c.settle lib now id) ((a.startedAt, now) :: closed) =
      (meter c closed).leave (stay a) (((c.active.erase id).entries.map Sigma.snd).map stay)
        now := by
  obtain ⟨w, rest, windows⟩ := List.exists_cons_of_ne_nil rotated.opened
  have current : c.current lib now = w := by
    rw [Controller.current, windows]
  have listed : a ∈ c.requests := List.mem_map_of_mem (AList.mem_lookup_iff.mp found)
  have before := rotated.accounted a listed
  obtain ⟨start, sum, -⟩ := addSampleSegmentLocked_spec lib w a now
  have frames : (c.settle lib now id).windows.map frame =
      ⟨w.start, w.globalOccupancy + (now - a.accountedAt)⟩ :: rest.map frame := by
    rw [Controller.settle, found]
    dsimp only
    split
    · have nothing : now - a.accountedAt = 0 := by omega
      rw [windows, nothing]
      rfl
    · rw [current]
      change (addSampleSegmentLocked lib w a now :: c.windows.tail).map frame = _
      rw [windows, List.map_cons, frame, start, sum]
      rfl
  have requests : (c.settle lib now id).requests = (c.active.erase id).entries.map Sigma.snd := by
    obtain ⟨_, settled, _⟩ := Controller.settle_spec lib c now id
    rw [Controller.requests, settled]
  rw [meter, frames, requests, meter, windows]
  rfl

lemma settle_windows_start (rotated : Rotated lib now closed c) (id : Nat) :
    Current lib now (c.settle lib now id) := by
  obtain ⟨w, rest, windows⟩ := List.exists_cons_of_ne_nil rotated.opened
  have current : c.current lib now = w := by
    rw [Controller.current, windows]
  obtain ⟨windows', settled, same | ⟨request, added⟩⟩ := Controller.settle_spec lib c now id
  · rw [settled, same]
    exact rotated.current
  · obtain ⟨w', head, started, within⟩ := rotated.current
    rw [windows] at head
    obtain rfl : w = w' := Option.some.inj head
    have start := (addSampleSegmentLocked_spec lib w request now).1
    rw [settled, added, current]
    refine ⟨_, rfl, ?_, ?_⟩
    · rw [start]
      exact started
    · rw [start]
      exact within

lemma settle_requests (c : Controller) (now id : Nat) :
    ∀ a ∈ (c.settle lib now id).requests, a ∈ c.requests := by
  obtain ⟨_, settled, _⟩ := Controller.settle_spec lib c now id
  intro a mem
  rw [settled] at mem
  obtain ⟨e, listed, rfl⟩ := List.mem_map.mp mem
  exact List.mem_map_of_mem (mem_erase_entries.mp listed).2

lemma Rotated.settle (rotated : Rotated lib now closed c) {id : Nat} {a : ActiveRequest}
    (found : c.active.lookup id = some a) :
    Rotated lib now ((a.startedAt, now) :: closed) (c.settle lib now id) := by
  refine ⟨?_, settle_windows_start rotated id, ?_⟩
  · obtain ⟨f, head, started, within⟩ := current_iff_frame.mp rotated.current
    have listed : a ∈ c.requests := List.mem_map_of_mem (AList.mem_lookup_iff.mp found)
    have perm := ((entries_perm_erase found).map Sigma.snd).map stay
    rw [ExactBooks, meter_settle rotated found]
    exact rotated.books.leave head perm (rotated.accounted a listed) (Nat.le_of_lt within)
  · intro a' mem
    exact rotated.accounted a' (settle_requests c now id a' mem)

/-- A ticket that is not in use is not settled. -/
lemma settle_of_absent {id : Nat} (absent : c.active.lookup id = none) :
    c.settle lib now id = c := by
  rw [Controller.settle, absent]

end Requests

/-! ### The admissions -/

/-- The interval of a request that is over. -/
def Admission.interval (e : Admission) : Option (Nat × Nat) :=
  e.releasedAt.map fun releasedAt => (e.startedAt, releasedAt)

def intervals (admitted : List Admission) : List (Nat × Nat) :=
  admitted.filterMap Admission.interval

/-- Up to when the request is accounted: its release, or `accountedAt` while it is active. -/
def Admission.upTo (c : Controller) (e : Admission) : Nat :=
  match e.releasedAt with
  | some releasedAt => releasedAt
  | none => ((c.active.lookup e.ticket).map ActiveRequest.accountedAt).getD e.startedAt

/-- The ticket is in use, for a request that started then. -/
def Started (c : Controller) (id startedAt : Nat) : Prop :=
  ∃ a, c.active.lookup id = some a ∧ a.startedAt = startedAt

/-- The admissions that are not over are the active requests. -/
structure Listed (b : Books) : Prop where
  active : ∀ id startedAt, ⟨id, startedAt, none⟩ ∈ b.admitted ↔ Started b.controller id startedAt
  numbered : ∀ e ∈ b.admitted, 0 < e.ticket ∧ e.ticket ≤ b.controller.nextID
  distinct : (b.admitted.map Admission.ticket).Nodup

lemma Listed.congr {b : Books} (listed : Listed b) {c : Controller}
    (same : ∀ id startedAt, Started c id startedAt ↔ Started b.controller id startedAt)
    (nextID : c.nextID = b.controller.nextID) : Listed ⟨c, b.admitted⟩ where
  active id startedAt := (listed.active id startedAt).trans (same id startedAt).symm
  numbered e mem := by
    rw [nextID]
    exact listed.numbered e mem
  distinct := listed.distinct

/-- Accounting moves the marks only. -/
lemma started_accountUntil (c : Controller) (boundary id startedAt : Nat) :
    Started (c.accountUntil boundary) id startedAt ↔ Started c id startedAt := by
  constructor
  · rintro ⟨a, found, since⟩
    obtain ⟨⟨id', a'⟩, mem, is⟩ := List.mem_map.mp (AList.mem_lookup_iff.mp found)
    obtain ⟨rfl, rfl⟩ : id' = id ∧ { a' with accountedAt := boundary } = a := by
      simpa using is
    exact ⟨a', AList.mem_lookup_iff.mpr mem, since⟩
  · rintro ⟨a, found, since⟩
    refine ⟨{ a with accountedAt := boundary }, AList.mem_lookup_iff.mpr ?_, since⟩
    exact List.mem_map.mpr ⟨⟨id, a⟩, AList.mem_lookup_iff.mp found, rfl⟩

lemma started_rotateLocked (lib : ZoneLib) (c : Controller) (now : Nat) :
    ∀ id startedAt, Started (c.rotateLocked lib now) id startedAt ↔ Started c id startedAt := by
  refine Controller.rotateLocked_keeps lib now
    (P := fun c' => ∀ id startedAt, Started c' id startedAt ↔ Started c id startedAt) ?_ ?_
  · intro c' same id startedAt
    exact (started_accountUntil c' _ id startedAt).trans (same id startedAt)
  · intro id startedAt
    exact Iff.rfl

lemma Listed.new {b : Books} (listed : Listed b) {id : Nat} (above : b.controller.nextID < id) :
    b.controller.active.lookup id = none := by
  by_contra present
  obtain ⟨a, found⟩ := Option.ne_none_iff_exists'.mp present
  have admitted := (listed.active id a.startedAt).mpr ⟨a, found, rfl⟩
  have small := (listed.numbered _ admitted).2
  dsimp only at small
  omega

lemma Listed.enter {b : Books} (listed : Listed b) {id : Nat}
    (next : id = b.controller.nextID + 1) (a : ActiveRequest) :
    Listed ⟨{ b.controller with nextID := id, active := b.controller.active.insert id a },
      ⟨id, a.startedAt, none⟩ :: b.admitted⟩ where
  active id' startedAt := by
    dsimp only
    by_cases same : id' = id
    · have unused : ⟨id', startedAt, none⟩ ∉ b.admitted := by
        intro mem
        have small := (listed.numbered _ mem).2
        dsimp only at small
        omega
      rw [same, List.mem_cons]
      rw [same] at unused
      simp only [Started, AList.lookup_insert, unused, or_false, Admission.mk.injEq, true_and,
        and_true, Option.some.injEq, exists_eq_left', eq_comm]
    · rw [Started, AList.lookup_insert_ne same, List.mem_cons, listed.active, Started]
      simp [same]
  numbered e mem := by
    rcases List.mem_cons.mp mem with rfl | mem
    · dsimp only
      omega
    · have small := listed.numbered e mem
      dsimp only
      omega
  distinct := by
    refine List.nodup_cons.mpr ⟨?_, listed.distinct⟩
    intro mem
    obtain ⟨e, earlier, same⟩ := List.mem_map.mp mem
    have small := (listed.numbered e earlier).2
    dsimp only at same
    omega

lemma release_of_ne {now id : Nat} {e : Admission} (other : e.ticket ≠ id) :
    e.release now id = e :=
  if_neg fun both => other both.1

lemma ticket_release (now id : Nat) (e : Admission) : (e.release now id).ticket = e.ticket := by
  rw [Admission.release]
  split
  · rfl
  · rfl

/-- Releasing a ticket ends the one request that has it. -/
lemma intervals_release {admitted : List Admission} {id startedAt : Nat}
    (distinct : (admitted.map Admission.ticket).Nodup)
    (mem : ⟨id, startedAt, none⟩ ∈ admitted) (now : Nat) :
    ((startedAt, now) :: intervals admitted).Perm
      (intervals (admitted.map (Admission.release now id))) := by
  obtain ⟨before, after, rfl⟩ := List.append_of_mem mem
  rw [List.map_append, List.map_cons, List.nodup_middle, List.nodup_cons,
    List.mem_append] at distinct
  have unchanged : ∀ part : List Admission, id ∉ part.map Admission.ticket →
      part.map (Admission.release now id) = part := by
    intro part absent
    refine (List.map_congr_left fun e listed => ?_).trans (List.map_id _)
    exact release_of_ne fun same => absent (same ▸ List.mem_map_of_mem listed)
  rw [not_or] at distinct
  rw [List.map_append, List.map_cons, unchanged before distinct.1.1, unchanged after distinct.1.2,
    Admission.release, if_pos ⟨rfl, rfl⟩, intervals, intervals, List.filterMap_append,
    List.filterMap_append]
  exact List.perm_middle.symm

/-- A ticket that is not in use ends nothing. -/
lemma release_of_absent {admitted : List Admission} {id : Nat}
    (absent : ∀ startedAt, ⟨id, startedAt, none⟩ ∉ admitted) (now : Nat) :
    admitted.map (Admission.release now id) = admitted := by
  refine (List.map_congr_left fun e mem => ?_).trans (List.map_id _)
  rw [Admission.release]
  split
  · rename_i both
    obtain ⟨ticket, startedAt, releasedAt⟩ := e
    obtain ⟨rfl, rfl⟩ : ticket = id ∧ releasedAt = none := both
    exact absurd mem (absent startedAt)
  · rfl

lemma Listed.release {b : Books} (listed : Listed b) (now id : Nat) {c : Controller}
    (erased : c.active = b.controller.active.erase id) (nextID : c.nextID = b.controller.nextID) :
    Listed ⟨c, b.admitted.map (Admission.release now id)⟩ where
  active id' startedAt := by
    dsimp only
    rw [Started, erased]
    by_cases same : id' = id
    · subst same
      rw [AList.lookup_erase]
      refine ⟨fun mem => ?_, fun ⟨a, found, _⟩ => nomatch found⟩
      obtain ⟨e, _, is⟩ := List.mem_map.mp mem
      rw [Admission.release] at is
      split at is
      · cases is
      · rename_i kept
        rw [is] at kept
        exact absurd ⟨rfl, rfl⟩ kept
    · rw [AList.lookup_erase_ne same, ← Started, ← listed.active]
      constructor
      · intro mem
        obtain ⟨e, earlier, is⟩ := List.mem_map.mp mem
        have ticket := ticket_release now id e
        rw [is] at ticket
        rw [release_of_ne (ticket ▸ same)] at is
        exact is ▸ earlier
      · intro mem
        refine List.mem_map.mpr ⟨_, mem, release_of_ne same⟩
  numbered e mem := by
    obtain ⟨e', earlier, rfl⟩ := List.mem_map.mp mem
    rw [ticket_release, nextID]
    exact listed.numbered e' earlier
  distinct := by
    rw [List.map_map]
    have tickets : Admission.ticket ∘ Admission.release now id = Admission.ticket :=
      funext (ticket_release now id)
    rw [tickets]
    exact listed.distinct

/-! ### Runs -/

/-- What holds after every call, with `t` no earlier than the calls. -/
structure Kept (lib : ZoneLib) (t : Nat) (b : Books) : Prop where
  listed : Listed b
  books : ExactBooks lib (intervals b.admitted) b.controller
  reached : Reached t b.controller

lemma Kept.later {lib : ZoneLib} {t t' : Nat} {b : Books} (kept : Kept lib t b) (le : t ≤ t') :
    Kept lib t' b where
  listed := kept.listed
  books := kept.books
  reached := ⟨fun w head => Nat.le_trans (kept.reached.started w head) le,
    fun a mem => Nat.le_trans (kept.reached.accounted a mem) le⟩

lemma kept_new (lib : ZoneLib) (baseSuffixes : List String) (t : Nat) :
    Kept lib t ⟨newHotZoneController lib baseSuffixes, []⟩ where
  listed := by
    refine ⟨fun id startedAt => ?_, fun e mem => (by cases mem), List.nodup_nil⟩
    exact ⟨fun mem => (by cases mem), fun ⟨a, found, _⟩ => nomatch found⟩
  books := by
    refine ⟨Nat.zero_le _, List.IsChain.nil, ?_, ?_, fun _ => ⟨rfl, rfl⟩, ?_⟩
    · intro f head
      cases head
    · intro f head
      cases head
    · intro f mem
      cases mem
  reached := ⟨fun w head => (by cases head), fun a mem => (by cases mem)⟩

lemma Rotated.kept {lib : ZoneLib} {now : Nat} {admitted : List Admission} {c : Controller}
    (rotated : Rotated lib now (intervals admitted) c) (listed : Listed ⟨c, admitted⟩) :
    Kept lib now ⟨c, admitted⟩ :=
  ⟨listed, rotated.books, rotated.current.reached rotated.accounted⟩

section Steps

variable {lib : ZoneLib} {now : Nat} {b : Books} (kept : Kept lib now b)

include kept in
/-- After the rotation and the evaluation that calls begin or end with. -/
lemma rotated_listed :
    Rotated lib now (intervals b.admitted) (b.controller.rotateLocked lib now) ∧
      Listed ⟨b.controller.rotateLocked lib now, b.admitted⟩ :=
  ⟨rotateLocked_rotated lib kept.books kept.reached,
    kept.listed.congr (started_rotateLocked lib b.controller now)
      (Controller.rotateLocked_sameTickets lib b.controller now).nextID⟩

lemma evaluated_listed {admitted : List Admission} {c : Controller} (reading : Reading)
    (due : Bool) (rotated : Rotated lib now (intervals admitted) c)
    (listed : Listed ⟨c, admitted⟩) :
    Rotated lib now (intervals admitted) (c.maybeEvaluateLocked lib reading now due) ∧
      Listed ⟨c.maybeEvaluateLocked lib reading now due, admitted⟩ := by
  have same := maybeEvaluateLocked_sameMeter lib reading now due rotated.opened
  refine ⟨rotated.sameMeter same, listed.congr ?_ same.nextID⟩
  intro id startedAt
  rw [Started, same.active]
  exact Iff.rfl

include kept in
lemma tryEnter_kept (qname matchedForwardZone : String) (reading : Reading) :
    Kept lib now (bookStep lib b (.tryEnter now qname matchedForwardZone reading)) := by
  obtain ⟨rotated, listed⟩ := rotated_listed kept
  obtain ⟨rotated, listed⟩ := evaluated_listed reading (b.controller.rotationDue lib now) rotated
    listed
  rw [bookStep, step, record, Controller.tryEnter]
  generalize (b.controller.rotateLocked lib now).maybeEvaluateLocked lib reading now
    (b.controller.rotationDue lib now) = c at rotated listed
  rw [Controller.enter]
  split
  · exact rotated.kept listed
  · have new : c.nextID + 1 ∉ c.active.keys :=
      AList.lookup_eq_none.mp (listed.new (Nat.lt_succ_self _))
    let request : ActiveRequest := ⟨lib.fqdn qname,
      hotZoneCoarseKey lib (lib.fqdn qname) matchedForwardZone c.baseSuffixes, now, now⟩
    have entered : Rotated lib now (intervals (⟨c.nextID + 1, now, none⟩ :: b.admitted))
        { c with nextID := c.nextID + 1, active := c.active.insert (c.nextID + 1) request } :=
      rotated.enter new rfl
    exact entered.kept (listed.enter rfl request)

include kept in
lemma release_kept (id : Nat) (reading : Reading) :
    Kept lib now (bookStep lib b (.release now id reading)) := by
  rw [bookStep, step, record, Controller.release]
  split
  · rename_i zero
    have absent : ∀ startedAt, ⟨id, startedAt, none⟩ ∉ b.admitted := by
      intro startedAt mem
      have positive := (kept.listed.numbered _ mem).1
      exact absurd zero (Nat.ne_of_gt positive)
    rw [release_of_absent absent]
    exact kept
  · obtain ⟨rotated, listed⟩ := rotated_listed kept
    generalize b.controller.rotateLocked lib now = c at rotated listed
    have gone : Listed ⟨c.settle lib now id, b.admitted.map (Admission.release now id)⟩ := by
      obtain ⟨_, settled, _⟩ := Controller.settle_spec lib c now id
      exact listed.release now id (by rw [settled]) (by rw [settled])
    have left : Rotated lib now (intervals (b.admitted.map (Admission.release now id)))
        (c.settle lib now id) := by
      cases found : c.active.lookup id with
      | none =>
        have absent : ∀ startedAt, ⟨id, startedAt, none⟩ ∉ b.admitted := by
          intro startedAt mem
          obtain ⟨a, present, _⟩ := (listed.active id startedAt).mp mem
          rw [found] at present
          cases present
        rw [release_of_absent absent, settle_of_absent found]
        exact rotated
      | some a =>
        have mem := (listed.active id a.startedAt).mpr ⟨a, found, rfl⟩
        have settled := rotated.settle found
        exact ⟨settled.books.perm (intervals_release listed.distinct mem now), settled.current,
          settled.accounted⟩
    obtain ⟨rotated, listed⟩ := evaluated_listed reading (b.controller.rotationDue lib now) left
      gone
    exact rotated.kept listed

include kept in
lemma evaluate_kept (reading : Reading) :
    Kept lib now (bookStep lib b (.evaluate now reading)) := by
  obtain ⟨active, nextID⟩ := evaluateLocked_active lib reading b.controller now
  rw [bookStep, step, record]
  refine ⟨kept.listed.congr ?_ nextID, ?_, ?_, ?_⟩
  · intro id startedAt
    rw [Started, active]
    exact Iff.rfl
  · rw [ExactBooks, meter_evaluateLocked]
    exact exactBooks_ensureCurrent lib now kept.books
  · intro w head
    rw [evaluateLocked_windows] at head
    obtain rfl := Option.some.inj head
    exact current_started lib kept.reached
  · rw [Controller.requests, active]
    exact kept.reached.accounted

end Steps

theorem bookStep_kept {lib : ZoneLib} {t : Nat} {b : Books} (kept : Kept lib t b) (e : Event)
    (later : t ≤ eventTime e) : Kept lib (eventTime e) (bookStep lib b e) := by
  have now := kept.later later
  cases e with
  | tryEnter now' qname matchedForwardZone reading =>
    exact tryEnter_kept now qname matchedForwardZone reading
  | release now' id reading => exact release_kept now id reading
  | evaluate now' reading => exact evaluate_kept now reading

theorem run_kept (lib : ZoneLib) (baseSuffixes : List String) (events : List Event)
    (ordered : (events.map eventTime).Pairwise (· ≤ ·)) :
    ∃ t, Kept lib t
      (StepRuns.run (bookStep lib) ⟨newHotZoneController lib baseSuffixes, []⟩ events) := by
  have always := StepRuns.along_of_preserves (bookStep lib) (P := fun _ => True)
    (fun _ _ _ => trivial) (s := ⟨newHotZoneController lib baseSuffixes, []⟩) trivial events
  obtain ⟨t, kept, -⟩ := StepRuns.timed_invariant (bookStep lib) (P := Kept lib) eventTime
    (fun t b e _ kept later _ => bookStep_kept kept e later)
    (kept_new lib baseSuffixes 0) ordered always
  exact ⟨t, kept⟩

/-! ### The sum over the admissions -/

/-- What is left of the interval of an active request can be looked up. -/
def activeInterval (c : Controller) (entry : Nat × Nat) : Nat × Nat :=
  (entry.2, ((c.active.lookup entry.1).map ActiveRequest.accountedAt).getD entry.2)

lemma open_perm {b : Books} (listed : Listed b) :
    ((b.admitted.filter fun e => e.releasedAt.isNone).map fun e => (e.ticket, e.startedAt)).Perm
      (b.controller.active.entries.map fun e => (e.1, e.2.startedAt)) := by
  rw [List.perm_ext_iff_of_nodup]
  · rintro ⟨id, startedAt⟩
    have admitted : (id, startedAt) ∈ (b.admitted.filter fun e => e.releasedAt.isNone).map
        (fun e => (e.ticket, e.startedAt)) ↔ ⟨id, startedAt, none⟩ ∈ b.admitted := by
      constructor
      · intro mem
        obtain ⟨⟨ticket, since, releasedAt⟩, kept, same⟩ := List.mem_map.mp mem
        obtain ⟨there, active⟩ := List.mem_filter.mp kept
        cases Option.isNone_iff_eq_none.mp active
        cases same
        exact there
      · intro mem
        exact List.mem_map.mpr ⟨_, List.mem_filter.mpr ⟨mem, rfl⟩, rfl⟩
    have active : (id, startedAt) ∈ (b.controller.active.entries.map fun e =>
        (e.1, e.2.startedAt)) ↔ Started b.controller id startedAt := by
      constructor
      · intro mem
        obtain ⟨e, there, same⟩ := List.mem_map.mp mem
        cases same
        exact ⟨e.2, AList.mem_lookup_iff.mpr there, rfl⟩
      · rintro ⟨a, found, rfl⟩
        exact List.mem_map.mpr ⟨⟨id, a⟩, AList.mem_lookup_iff.mp found, rfl⟩
    rw [admitted, active]
    exact listed.active id startedAt
  · have tickets := ((List.filter_sublist (p := fun e : Admission => e.releasedAt.isNone)).map
      Admission.ticket).nodup listed.distinct
    exact List.Nodup.of_map Prod.fst (by rw [List.map_map]; exact tickets)
  · have keys := b.controller.active.nodupKeys
    exact List.Nodup.of_map Prod.fst (by rw [List.map_map]; exact keys)

lemma intervals_eq_map (c : Controller) (admitted : List Admission) :
    (admitted.filter fun e => !e.releasedAt.isNone).map (fun e => (e.startedAt, e.upTo c)) =
      intervals admitted := by
  induction admitted with
  | nil => rfl
  | cons e rest ih =>
    obtain ⟨ticket, startedAt, releasedAt⟩ := e
    cases releasedAt with
    | none => exact ih
    | some releasedAt => exact congrArg ((startedAt, releasedAt) :: ·) ih

/-- The admissions, active and over, are the stays of the meter. -/
lemma upTo_perm {b : Books} (listed : Listed b) :
    (b.admitted.map fun e => (e.startedAt, e.upTo b.controller)).Perm
      (b.controller.requests.map stay ++ intervals b.admitted) := by
  have parts := (List.filter_append_perm (fun e : Admission => e.releasedAt.isNone)
    b.admitted).symm.map fun e => (e.startedAt, e.upTo b.controller)
  have active := (open_perm listed).map (activeInterval b.controller)
  have admitted : (b.admitted.filter fun e => e.releasedAt.isNone).map
      (fun e => (e.startedAt, e.upTo b.controller)) =
        ((b.admitted.filter fun e => e.releasedAt.isNone).map fun e =>
          (e.ticket, e.startedAt)).map (activeInterval b.controller) := by
    rw [List.map_map]
    refine List.map_congr_left ?_
    intro e mem
    have unreleased := Option.isNone_iff_eq_none.mp (List.mem_filter.mp mem).2
    rw [Admission.upTo, unreleased]
    rfl
  have stays : (b.controller.active.entries.map fun e => (e.1, e.2.startedAt)).map
      (activeInterval b.controller) = b.controller.requests.map stay := by
    rw [Controller.requests, List.map_map, List.map_map]
    refine List.map_congr_left ?_
    intro e mem
    have found : b.controller.active.lookup e.1 = some e.2 := AList.mem_lookup_iff.mpr mem
    change (e.2.startedAt, ((b.controller.active.lookup e.1).map _).getD _) = _
    rw [found]
    rfl
  rw [List.map_append, intervals_eq_map, admitted] at parts
  rw [stays] at active
  exact parts.trans (active.append_right _)

/-- For every sequence of calls at times that do not go back, with any gaps: at most three
windows are retained, five seconds apart; each holds the sum over all requests that were let
in of what their intervals have in common with it; and the active requests are accounted up to
an instant in the current window. -/
theorem occupancy_exact (lib : ZoneLib) (baseSuffixes : List String) (events : List Event)
    (ordered : (events.map eventTime).Pairwise (· ≤ ·)) :
    let b := StepRuns.run (bookStep lib) ⟨newHotZoneController lib baseSuffixes, []⟩ events
    let c := b.controller
    let length := 5 * lib.second
    c.windows.length ≤ 3 ∧
      c.windows.IsChain (fun w older => w.start = older.start + length) ∧
      (∀ w ∈ c.windows, w.globalOccupancy =
        (b.admitted.map fun e => overlap length w.start (e.startedAt, e.upTo c)).sum) ∧
      (∀ id a, c.active.lookup id = some a →
        ∃ w ∈ c.windows.head?, w.start ≤ a.accountedAt ∧ a.accountedAt < w.start + length) ∧
      ∀ id startedAt, ⟨id, startedAt, none⟩ ∈ b.admitted ↔ Started c id startedAt := by
  intro b c length
  obtain ⟨t, kept⟩ := run_kept lib baseSuffixes events ordered
  have few := kept.books.few
  have spaced := kept.books.spaced
  rw [meter, List.length_map] at few
  rw [meter, List.isChain_map] at spaced
  refine ⟨few, spaced, ?_, ?_, kept.listed.active⟩
  · intro w mem
    have total := kept.books.total (frame w) (List.mem_map_of_mem mem)
    rw [meter, ← spent_perm (upTo_perm kept.listed), spent, List.map_map] at total
    exact total
  · intro id a found
    have mem : a ∈ c.requests := List.mem_map_of_mem (AList.mem_lookup_iff.mp found)
    cases windows : c.windows with
    | nil =>
      have nobody := (kept.books.idle (by rw [meter]; exact List.map_eq_nil_iff.mpr windows)).1
      rw [meter, List.map_eq_nil_iff] at nobody
      rw [nobody] at mem
      cases mem
    | cons w rest =>
      have marked := kept.books.marked (frame w)
        (by change frame w ∈ (c.windows.map frame).head?; rw [windows]; rfl)
        (stay a) (List.mem_map_of_mem mem)
      exact ⟨w, rfl, marked.2⟩

/-- A request of six seconds that starts one second into a window. -/
theorem crossing_request_exact :
    let events : List Event := [.tryEnter (101 * second) "a." "" idleReading,
      .release (107 * second) 1 idleReading]
    let b := StepRuns.run (bookStep plainZoneLib) ⟨newHotZoneController plainZoneLib [], []⟩ events
    (b.controller.windows.map fun w => (w.start, w.globalOccupancy)) =
        [(105 * second, 2 * second), (100 * second, 4 * second)] ∧
      b.admitted = [⟨1, 101 * second, some (107 * second)⟩] ∧
      ∀ w ∈ b.controller.windows, w.globalOccupancy = (b.admitted.map fun e =>
        overlap (5 * plainZoneLib.second) w.start (e.startedAt, e.upTo b.controller)).sum :=
  ⟨by decide +kernel, by decide +kernel, (occupancy_exact plainZoneLib [] _ (by decide)).2.2.1⟩

end OccupancyAccounting
