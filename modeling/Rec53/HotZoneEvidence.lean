import Rec53.HotZone
import Rec53.StepRuns

/-!
# Occupancy is conserved while nothing is left to account

Every stretch of time that rotation and release account goes to the global, the coarse
and the child occupancy of a window alike. An evaluation adds the time of requests that
are still active to a copy of the current window, but the maps of the copy are those of
the window, so that this time stays in them and not in the global occupancy, and is
added again when it is accounted. The evidence stays what it should be exactly as long
as no evaluation finds such time.
-/

namespace HotZoneEvidence

open Platform KeyedTotals HotZone

/-! ### One window -/

/-- The children of a zone have no more than the zone. -/
def Nested (w : Window) : Prop :=
  ∀ key, total (w.child key) ≤ amount w.coarseOccupancy key

structure Conserved (w : Window) : Prop where
  sum : w.globalOccupancy = total w.coarseOccupancy
  nested : Nested w

/-- Time of the requests that is not accounted before `endAt`. -/
def unaccounted (endAt : Nat) (requests : List ActiveRequest) : Nat :=
  (requests.map fun a => endAt - a.accountedAt).sum

lemma unaccounted_eq_zero_iff {endAt : Nat} {requests : List ActiveRequest} :
    unaccounted endAt requests = 0 ↔ ∀ a ∈ requests, endAt ≤ a.accountedAt := by
  induction requests with
  | nil => simp [unaccounted]
  | cons a rest ih =>
    simp only [unaccounted, List.map_cons, List.sum_cons, List.forall_mem_cons] at ih ⊢
    rw [← ih]
    omega

lemma newHotZoneWindow_conserved (start : Nat) : Conserved (newHotZoneWindow start) := by
  refine ⟨rfl, ?_⟩
  intro key
  simp [newHotZoneWindow, Window.child]

lemma addOccupancy_child_of_ne (lib : ZoneLib) (w : Window) (a : ActiveRequest) (delta : Nat)
    {key : String} (ne : key ≠ a.coarseKey) :
    (w.addOccupancy lib a delta).child key = w.child key := by
  simp only [Window.addOccupancy, Window.child]
  split
  · rw [AList.lookup_insert_ne ne]
  · rfl

lemma addOccupancy_child_le (lib : ZoneLib) (w : Window) (a : ActiveRequest) (delta : Nat) :
    total ((w.addOccupancy lib a delta).child a.coarseKey) ≤
      total (w.child a.coarseKey) + delta := by
  simp only [Window.addOccupancy, Window.child]
  split
  · rw [AList.lookup_insert, Option.getD_some, total_add]
  · omega

lemma addOccupancy_nested (lib : ZoneLib) {w : Window} (a : ActiveRequest) (delta : Nat)
    (nested : Nested w) : Nested (w.addOccupancy lib a delta) := by
  intro key
  have before := nested key
  by_cases same : key = a.coarseKey
  · subst same
    have grown := addOccupancy_child_le lib w a delta
    simp only [Window.addOccupancy, amount_add_self]
    simp only [Window.addOccupancy] at grown
    omega
  · rw [addOccupancy_child_of_ne lib w a delta same]
    simp only [Window.addOccupancy, amount_add_of_ne _ _ same]
    exact before

/-- What a segment adds to the window, be it empty or not. -/
lemma addSampleSegmentLocked_spec (lib : ZoneLib) (w : Window) (a : ActiveRequest)
    (endAt : Nat) :
    (addSampleSegmentLocked lib w a endAt).start = w.start ∧
      (addSampleSegmentLocked lib w a endAt).globalOccupancy =
        w.globalOccupancy + (endAt - a.accountedAt) ∧
      total (addSampleSegmentLocked lib w a endAt).coarseOccupancy =
        total w.coarseOccupancy + (endAt - a.accountedAt) ∧
      (Nested w → Nested (addSampleSegmentLocked lib w a endAt)) := by
  rw [addSampleSegmentLocked]
  split
  · rename_i accounted
    have nothing : endAt - a.accountedAt = 0 := by omega
    rw [nothing]
    exact ⟨rfl, rfl, rfl, id⟩
  · exact ⟨rfl, rfl, total_add _ _ _, addOccupancy_nested lib a _⟩

lemma addSegments_spec (lib : ZoneLib) (endAt : Nat) (w : Window)
    (requests : List ActiveRequest) :
    (addSegments lib endAt w requests).start = w.start ∧
      (addSegments lib endAt w requests).globalOccupancy =
        w.globalOccupancy + unaccounted endAt requests ∧
      total (addSegments lib endAt w requests).coarseOccupancy =
        total w.coarseOccupancy + unaccounted endAt requests ∧
      (Nested w → Nested (addSegments lib endAt w requests)) := by
  induction requests generalizing w with
  | nil => exact ⟨rfl, rfl, rfl, id⟩
  | cons a rest ih =>
    obtain ⟨start, sum, coarse, nested⟩ := addSampleSegmentLocked_spec lib w a endAt
    obtain ⟨start', sum', coarse', nested'⟩ := ih (addSampleSegmentLocked lib w a endAt)
    simp only [addSegments, List.foldl_cons] at start' sum' coarse' nested' ⊢
    simp only [unaccounted, List.map_cons, List.sum_cons] at sum' coarse' ⊢
    refine ⟨start'.trans start, ?_, ?_, fun before => nested' (nested before)⟩
    · omega
    · omega

lemma conserved_accountable (lib : ZoneLib) : Controller.Accountable lib Conserved := by
  refine ⟨newHotZoneWindow_conserved, ?_⟩
  intro w a endAt conserved
  obtain ⟨_, sum, coarse, nested⟩ := addSampleSegmentLocked_spec lib w a endAt
  have before := conserved.sum
  exact ⟨by omega, nested conserved.nested⟩

/-- Requests accounted up to the end leave the window as it is. -/
lemma addSegments_eq_self (lib : ZoneLib) {endAt : Nat} (w : Window)
    {requests : List ActiveRequest} (accounted : ∀ a ∈ requests, endAt ≤ a.accountedAt) :
    addSegments lib endAt w requests = w := by
  induction requests with
  | nil => rfl
  | cons a rest ih =>
    have first : addSampleSegmentLocked lib w a endAt = w :=
      if_pos (accounted a List.mem_cons_self)
    simp only [addSegments, List.foldl_cons] at ih ⊢
    rw [first]
    exact ih fun a' mem => accounted a' (List.mem_cons_of_mem _ mem)

/-! ### The controller -/

def AllConserved (c : Controller) : Prop := ∀ w ∈ c.windows, Conserved w

/-- The windows after an evaluation: the current one has the maps of its copy. -/
lemma evaluateLocked_windows (lib : ZoneLib) (reading : Reading) (c : Controller) (now : Nat) :
    (c.evaluateLocked lib reading now).windows =
      { c.current lib now with
        coarseOccupancy := (addSegments lib now (c.current lib now) c.requests).coarseOccupancy
        childOccupancy := (addSegments lib now (c.current lib now) c.requests).childOccupancy } ::
        c.windows.tail :=
  (Controller.judge_sameBooks lib reading (c.snapshotLocked lib now).1
    (c.snapshotLocked lib now).2).windows

/-- No active request has time that is not accounted. -/
def Settled (c : Controller) (now : Nat) : Prop := ∀ a ∈ c.requests, now ≤ a.accountedAt

/-- An evaluation keeps the evidence exactly when nothing is left to account. -/
theorem evaluateLocked_conserved_iff (lib : ZoneLib) (reading : Reading) {c : Controller}
    (all : AllConserved c) (now : Nat) :
    AllConserved (c.evaluateLocked lib reading now) ↔ Settled c now := by
  obtain ⟨_, _, coarse, nested⟩ := addSegments_spec lib now (c.current lib now) c.requests
  obtain ⟨sum, before⟩ := (conserved_accountable lib).current all now
  rw [AllConserved, evaluateLocked_windows, Settled, ← unaccounted_eq_zero_iff]
  constructor
  · intro kept
    have after := (kept _ List.mem_cons_self).sum
    dsimp only at after
    omega
  · intro nothing w mem
    rcases List.mem_cons.mp mem with rfl | mem
    · exact ⟨by dsimp only; omega, nested before⟩
    · exact all w (List.mem_of_mem_tail mem)

/-- It then leaves every window as it is. -/
lemma evaluateLocked_unchanged (lib : ZoneLib) (reading : Reading) {c : Controller} {now : Nat}
    (settled : Settled c now) :
    c.windows <:+ (c.evaluateLocked lib reading now).windows := by
  rw [evaluateLocked_windows, addSegments_eq_self lib (c.current lib now) settled,
    Controller.current]
  split
  · rename_i w rest windows
    rw [windows]
    exact List.suffix_refl _
  · rename_i windows
    rw [windows]
    exact List.nil_suffix

/-! ### Rotation -/

/-- After some rounds all requests are accounted up to the start of the current window. -/
lemma rotateLoop_accounted (lib : ZoneLib) (now n : Nat) (c : Controller)
    (due : (c.current lib now).start + (n + 1) * hotZoneWindowDuration lib ≤ now) :
    (c.rotateLoop lib now (n + 1)).active.entries =
      c.active.entries.map fun e =>
        ⟨e.1, { e.2 with
          accountedAt := (c.current lib now).start + (n + 1) * hotZoneWindowDuration lib }⟩ := by
  induction n generalizing c with
  | zero =>
    rw [Controller.rotateLoop, if_pos (by omega), Controller.rotateLoop]
    simp only [Nat.zero_add, Nat.one_mul]
    rfl
  | succ n ih =>
    have start : ((c.closeWindow lib now).current lib now).start =
        (c.current lib now).start + hotZoneWindowDuration lib := rfl
    have first : (c.current lib now).start + hotZoneWindowDuration lib ≤ now := by
      have more : hotZoneWindowDuration lib ≤ (n + 1 + 1) * hotZoneWindowDuration lib :=
        Nat.le_mul_of_pos_left _ (Nat.succ_pos _)
      omega
    have rest : (c.current lib now).start + hotZoneWindowDuration lib +
        (n + 1) * hotZoneWindowDuration lib =
        (c.current lib now).start + (n + 1 + 1) * hotZoneWindowDuration lib := by
      rw [Nat.succ_mul (n + 1)]
      omega
    have closed : (c.closeWindow lib now).active.entries =
        c.active.entries.map fun e =>
          ⟨e.1, { e.2 with
            accountedAt := (c.current lib now).start + hotZoneWindowDuration lib }⟩ := rfl
    rw [Controller.rotateLoop, if_pos first, ih _ (by rw [start, rest]; exact due), start, rest,
      closed, List.map_map]
    rfl

lemma hotZoneWindowDuration_pos (lib : ZoneLib) : 0 < hotZoneWindowDuration lib := by
  have ticks := lib.second_pos
  rw [hotZoneWindowDuration]
  omega

/-- The request is accounted up to `now` when a call at that time has rotated: it was
so before, or the call comes at the very end of a window. -/
def Caught (lib : ZoneLib) (c : Controller) (now : Nat) (a : ActiveRequest) : Prop :=
  if c.rotationDue lib now then hotZoneWindowDuration lib ∣ now - (c.current lib now).start
  else now ≤ a.accountedAt

lemma rotateLocked_not_due (lib : ZoneLib) {c : Controller} {now : Nat}
    (due : c.rotationDue lib now = false) :
    (c.rotateLocked lib now).active.entries = c.active.entries := by
  have early : ¬ (c.current lib now).start + hotZoneWindowDuration lib ≤ now :=
    of_decide_eq_false due
  have positive := hotZoneWindowDuration_pos lib
  have rounds : (now - (c.current lib now).start) / hotZoneWindowDuration lib = 0 :=
    Nat.div_eq_of_lt (by omega)
  simp only [Controller.rotateLocked]
  change (Controller.rotateLoop lib now
    ((now - (c.current lib now).start) / hotZoneWindowDuration lib) _).active.entries = _
  rw [rounds]
  rfl

lemma rotateLocked_due (lib : ZoneLib) {c : Controller} {now : Nat}
    (due : c.rotationDue lib now = true) :
    (c.rotateLocked lib now).active.entries =
      c.active.entries.map fun e => ⟨e.1, { e.2 with
        accountedAt := (c.current lib now).start +
          (now - (c.current lib now).start) / hotZoneWindowDuration lib *
            hotZoneWindowDuration lib }⟩ := by
  have late : (c.current lib now).start + hotZoneWindowDuration lib ≤ now := of_decide_eq_true due
  have some_round : 0 < (now - (c.current lib now).start) / hotZoneWindowDuration lib :=
    Nat.div_pos (by omega) (hotZoneWindowDuration_pos lib)
  obtain ⟨n, rounds⟩ := Nat.exists_eq_succ_of_ne_zero (Nat.pos_iff_ne_zero.mp some_round)
  have within := Nat.div_mul_le_self (now - (c.current lib now).start)
    (hotZoneWindowDuration lib)
  rw [rounds] at within ⊢
  simp only [Controller.rotateLocked]
  change (Controller.rotateLoop lib now
    ((now - (c.current lib now).start) / hotZoneWindowDuration lib) _).active.entries = _
  rw [rounds]
  exact rotateLoop_accounted lib now n (c.ensureCurrentWindowLocked lib now) (by
    change (c.current lib now).start + n.succ * hotZoneWindowDuration lib ≤ now
    omega)

/-- Which requests rotation leaves with time to account, read off the state before. -/
lemma rotateLocked_caught_iff (lib : ZoneLib) (c : Controller) (now : Nat) (P : Nat → Prop) :
    (∀ e ∈ (c.rotateLocked lib now).active.entries, P e.1 → now ≤ e.2.accountedAt) ↔
      ∀ e ∈ c.active.entries, P e.1 → Caught lib c now e.2 := by
  cases due : c.rotationDue lib now with
  | false =>
    rw [rotateLocked_not_due lib due]
    simp [Caught, due]
  | true =>
    have late : (c.current lib now).start + hotZoneWindowDuration lib ≤ now := of_decide_eq_true due
    have rest := Nat.div_add_mod' (now - (c.current lib now).start)
      (hotZoneWindowDuration lib)
    have boundary : now ≤ (c.current lib now).start +
        (now - (c.current lib now).start) / hotZoneWindowDuration lib * hotZoneWindowDuration lib ↔
          hotZoneWindowDuration lib ∣ now - (c.current lib now).start := by
      rw [Nat.dvd_iff_mod_eq_zero]
      omega
    rw [rotateLocked_due lib due, List.forall_mem_map]
    simp only [Caught, due, if_true, boundary]

/-! ### Runs -/

inductive Event where
  | tryEnter (now : Nat) (qname matchedForwardZone : String) (reading : Reading)
  | release (now id : Nat) (reading : Reading)
  | evaluate (now : Nat) (reading : Reading)

def step (lib : ZoneLib) (c : Controller) : Event → Controller
  | .tryEnter now qname matchedForwardZone reading =>
    (c.tryEnter lib reading now qname matchedForwardZone).2
  | .release now id reading => c.release lib reading now id
  | .evaluate now reading => c.evaluateLocked lib reading now

/-- A call at `now` evaluates. -/
def evaluationDue (lib : ZoneLib) (c : Controller) (now : Nat) : Prop :=
  c.rotationDue lib now = true ∨ c.lastEvalAt = 0 ∨ c.evalInterval lib ≤ now - c.lastEvalAt

/-- The controller on which an event evaluates, if it does, with the time and reading. -/
def Evaluates (lib : ZoneLib) (c : Controller) : Event → Controller → Nat → Reading → Prop
  | .tryEnter now _ _ reading, c', now', reading' =>
    evaluationDue lib c now ∧ c' = c.rotateLocked lib now ∧ now' = now ∧ reading' = reading
  | .release now id reading, c', now', reading' =>
    id ≠ 0 ∧ evaluationDue lib c now ∧ c' = (c.rotateLocked lib now).settle lib now id ∧
      now' = now ∧ reading' = reading
  | .evaluate now reading, c', now', reading' => c' = c ∧ now' = now ∧ reading' = reading

/-- Evaluating changes no retained window. -/
def Neutral (lib : ZoneLib) (c : Controller) (e : Event) : Prop :=
  ∀ c' now reading, Evaluates lib c e c' now reading →
    c'.windows <:+ (c'.evaluateLocked lib reading now).windows

/-- An event evaluates only when all requests that stay active are accounted up to then. -/
def NothingPending (lib : ZoneLib) (c : Controller) : Event → Prop
  | .tryEnter now _ _ _ => evaluationDue lib c now → ∀ e ∈ c.active.entries, Caught lib c now e.2
  | .release now id _ =>
    id ≠ 0 → evaluationDue lib c now → ∀ e ∈ c.active.entries, e.1 ≠ id → Caught lib c now e.2
  | .evaluate now _ => Settled c now

lemma requests_settled_iff (c : Controller) (now : Nat) :
    Settled c now ↔ ∀ e ∈ c.active.entries, now ≤ e.2.accountedAt := by
  rw [Settled, Controller.requests, List.forall_mem_map]

lemma mem_erase_entries {active : AList (fun _ : Nat => ActiveRequest)} {id : Nat}
    {e : (_ : Nat) × ActiveRequest} :
    e ∈ (active.erase id).entries ↔ e.1 ≠ id ∧ e ∈ active.entries := by
  obtain ⟨k, a⟩ := e
  rw [← AList.mem_lookup_iff, ← AList.mem_lookup_iff]
  by_cases same : k = id
  · subst same
    simp
  · simp [AList.lookup_erase_ne same, same]

/-- What is left to account once a request is settled and gone. -/
lemma settle_settled_iff (lib : ZoneLib) (c : Controller) (now id : Nat) :
    Settled (c.settle lib now id) now ↔
      ∀ e ∈ c.active.entries, e.1 ≠ id → now ≤ e.2.accountedAt := by
  obtain ⟨windows, settled, _⟩ := Controller.settle_spec lib c now id
  have left : ∀ e, e ∈ (c.settle lib now id).active.entries ↔
      e.1 ≠ id ∧ e ∈ c.active.entries := by
    intro e
    rw [settled]
    exact mem_erase_entries
  rw [requests_settled_iff]
  constructor
  · intro settled e mem other
    exact settled e ((left e).mpr ⟨other, mem⟩)
  · intro settled e mem
    obtain ⟨other, mem⟩ := (left e).mp mem
    exact settled e mem other

/-- The due evaluation of a call, with what rotation leaves in place of its flags. -/
lemma maybeEvaluateLocked_conserved_iff (lib : ZoneLib) (reading : Reading) {c c' : Controller}
    (now : Nat) (all : AllConserved c') (evaluated : c'.lastEvalAt = c.lastEvalAt)
    (interval : c'.evalEvery = c.evalEvery) :
    AllConserved (c'.maybeEvaluateLocked lib reading now (c.rotationDue lib now)) ↔
      (evaluationDue lib c now → Settled c' now) := by
  have same : c'.evalInterval lib = c.evalInterval lib := by
    rw [Controller.evalInterval, Controller.evalInterval, interval]
  rw [Controller.maybeEvaluateLocked, evaluated, same]
  split
  · rename_i due
    have judged := evaluateLocked_conserved_iff lib reading all now
    constructor
    · intro kept _
      exact judged.mp kept
    · intro settled
      exact judged.mpr (settled due)
  · rename_i early
    exact ⟨fun _ due => absurd due early, fun _ => all⟩

lemma rotateLocked_schedule (lib : ZoneLib) (c : Controller) (now : Nat) :
    (c.rotateLocked lib now).lastEvalAt = c.lastEvalAt ∧
      (c.rotateLocked lib now).evalEvery = c.evalEvery := by
  refine Controller.rotateLocked_keeps lib now (P := fun c' =>
    c'.lastEvalAt = c.lastEvalAt ∧ c'.evalEvery = c.evalEvery) ?_ ⟨rfl, rfl⟩
  intro c' kept
  exact kept

lemma settle_schedule (lib : ZoneLib) (c : Controller) (now id : Nat) :
    (c.settle lib now id).lastEvalAt = c.lastEvalAt ∧
      (c.settle lib now id).evalEvery = c.evalEvery := by
  obtain ⟨windows, settled, _⟩ := Controller.settle_spec lib c now id
  rw [settled]
  exact ⟨rfl, rfl⟩

/-- One event keeps the evidence exactly when it finds nothing pending. -/
theorem step_conserved_iff (lib : ZoneLib) (c : Controller) (e : Event) (all : AllConserved c) :
    AllConserved (step lib c e) ↔ NothingPending lib c e := by
  cases e with
  | tryEnter now qname matchedForwardZone reading =>
    obtain ⟨evaluated, interval⟩ := rotateLocked_schedule lib c now
    have judged := maybeEvaluateLocked_conserved_iff lib reading now
      ((conserved_accountable lib).rotateLocked all now) evaluated interval
    have caught := rotateLocked_caught_iff lib c now fun _ => True
    rw [requests_settled_iff] at judged
    simp only [true_imp_iff] at caught
    rw [caught] at judged
    rw [AllConserved, step, Controller.tryEnter, Controller.enter_windows]
    exact judged
  | release now id reading =>
    by_cases none_held : id = 0
    · simp [step, Controller.release, NothingPending, none_held, all]
    · have rotated := rotateLocked_schedule lib c now
      have settled := settle_schedule lib (c.rotateLocked lib now) now id
      have rule := conserved_accountable lib
      have judged := maybeEvaluateLocked_conserved_iff lib reading now
        (rule.settle (rule.rotateLocked all now) now id)
        (settled.1.trans rotated.1) (settled.2.trans rotated.2)
      rw [settle_settled_iff, rotateLocked_caught_iff lib c now fun id' => id' ≠ id] at judged
      simp only [step, Controller.release, NothingPending, ne_eq, none_held, not_false_eq_true,
        true_imp_iff]
      exact judged
  | evaluate now reading => exact evaluateLocked_conserved_iff lib reading all now

/-- Nothing pending means that the controller that is evaluated is settled. -/
lemma neutral_of_nothingPending (lib : ZoneLib) (c : Controller) (e : Event)
    (nothing : NothingPending lib c e) : Neutral lib c e := by
  intro c' now reading evaluates
  cases e with
  | tryEnter =>
    obtain ⟨due, rfl, rfl, rfl⟩ := evaluates
    refine evaluateLocked_unchanged lib _ ((requests_settled_iff _ _).mpr ?_)
    have caught := rotateLocked_caught_iff lib c now fun _ => True
    simp only [true_imp_iff] at caught
    exact caught.mpr (nothing due)
  | release =>
    obtain ⟨ticket, due, rfl, rfl, rfl⟩ := evaluates
    refine evaluateLocked_unchanged lib _ ((settle_settled_iff lib _ _ _).mpr ?_)
    exact (rotateLocked_caught_iff lib c _ fun id' => id' ≠ _).mpr (nothing ticket due)
  | evaluate =>
    obtain ⟨rfl, rfl, rfl⟩ := evaluates
    exact evaluateLocked_unchanged lib _ nothing

/-- From a new controller, whatever the times of the calls: every retained window keeps
its sums and no evaluation changes one, exactly in the runs in which no evaluation finds
time of an active request that is not accounted. -/
theorem evidence_conserved_iff (lib : ZoneLib) (baseSuffixes : List String)
    (events : List Event) :
    let c := newHotZoneController lib baseSuffixes
    (StepRuns.Throughout (step lib) AllConserved c events ∧
        StepRuns.Along (step lib) (Neutral lib) c events) ↔
      StepRuns.Along (step lib) (NothingPending lib) c events := by
  intro c
  have fresh : AllConserved c := by
    intro w mem
    cases mem
  have kept := StepRuns.throughout_iff_along (step lib) (P := fun _ => True)
    (C := NothingPending lib) (Q := AllConserved) (fun _ _ _ => trivial)
    (fun c e _ all => step_conserved_iff lib c e all) trivial fresh events
  constructor
  · intro both
    exact kept.mp both.1
  · intro nothing
    exact ⟨kept.mpr nothing, nothing.mono (step lib) (neutral_of_nothingPending lib)⟩

lemma lone_release_nothingPending (lib : ZoneLib) {c : Controller} {id : Nat}
    (alone : c.active.keys = [id]) (now : Nat) (reading : Reading) :
    NothingPending lib c (.release now id reading) := by
  intro _ _ e mem other
  have listed : e.1 ∈ c.active.keys := List.mem_map_of_mem mem
  rw [alone] at listed
  exact absurd (List.mem_singleton.mp listed) other

/-- A request alone, released after two seconds. -/
theorem lone_request_conserved :
    let events : List Event := [.tryEnter (10 * second) "a." "" idleReading,
      .release (12 * second) 1 idleReading]
    StepRuns.Throughout (step plainZoneLib) AllConserved
        (newHotZoneController plainZoneLib []) events ∧
      StepRuns.Along (step plainZoneLib) (Neutral plainZoneLib)
        (newHotZoneController plainZoneLib []) events := by
  intro events
  refine (evidence_conserved_iff plainZoneLib [] events).mpr ⟨?_, ?_, trivial⟩
  · intro _ e mem
    cases mem
  · exact lone_release_nothingPending plainZoneLib (by decide +kernel) _ _

/-- A second request one second after the first: the evaluation leaves that second in
the coarse occupancy and not in the global one. -/
theorem second_request_breaks_sum :
    ¬ StepRuns.Throughout (step plainZoneLib) AllConserved (newHotZoneController plainZoneLib [])
      [.tryEnter (10 * second) "a." "" idleReading,
        .tryEnter (11 * second) "b." "" idleReading] := by
  rintro ⟨_, _, last⟩
  have sums : ∀ sum ∈ (step plainZoneLib (step plainZoneLib (newHotZoneController plainZoneLib [])
      (.tryEnter (10 * second) "a." "" idleReading))
      (.tryEnter (11 * second) "b." "" idleReading)).windows.map
        (fun w => (w.globalOccupancy, total w.coarseOccupancy)), sum.1 = sum.2 := by
    intro sum mem
    obtain ⟨w, held, rfl⟩ := List.mem_map.mp mem
    exact (last w held).sum
  exact absurd sums (by decide +kernel)

end HotZoneEvidence
