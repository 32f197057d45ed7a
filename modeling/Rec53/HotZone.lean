import Rec53.DomainName
import Rec53.KeyedTotals
import Rec53.Platform
import Mathlib.Data.Rat.Defs

/-!
# The hot-zone controller

`server/hot_zone_protection.go`: requests on the expensive path are counted per zone
in windows of five seconds, and a zone that stays hottest under pressure is protected.
Every method runs under the lock of the controller and is one step.

Instants and durations are counted in ticks of the clock, and instants from the zero
time of Go, so that `IsZero` is being zero. How many ticks a second has is left open; in
Go it is a thousand million. The list of windows is kept with the current one first.
Averages and thresholds are exact rationals where the source has floats. Logs and
metrics are left out. The reading of the CPU usage comes with the call; its sampler is in
`CpuSampler`.
-/

namespace HotZone

open Platform KeyedTotals

/-- The library with `SplitDomainName`, and the ticks in a second. -/
structure ZoneLib extends Lib where
  splitDomainName : String → List String
  second : Nat
  second_pos : 0 < second

def hotZoneWindowDuration (lib : ZoneLib) : Nat := 5 * lib.second
def hotZoneRecentWindowCount : Nat := 3
def hotZoneEvaluateInterval (lib : ZoneLib) : Nat := lib.second
def hotZoneObserveCPUThreshold : Rat := 70
def hotZoneObserveConcurrencyFactor : Rat := 3 / 4
def hotZoneChildDominanceThreshold : Rat := 4 / 5
def hotZoneProtectConfirmWindows : Nat := 3
def hotZoneExitBaselineFactor : Rat := 21 / 20

structure ActiveRequest where
  qname : String
  coarseKey : String
  startedAt : Nat
  accountedAt : Nat

structure Window where
  start : Nat
  globalOccupancy : Nat
  coarseOccupancy : Totals String
  childOccupancy : AList (fun _ : String => Totals String)

def newHotZoneWindow (start : Nat) : Window := ⟨start, 0, ∅, ∅⟩

def Window.child (w : Window) (key : String) : Totals String :=
  (w.childOccupancy.lookup key).getD ∅

structure Controller where
  evalEvery : Nat
  baseSuffixes : List String
  active : AList (fun _ : Nat => ActiveRequest)
  nextID : Nat
  windows : List Window
  lastEvalAt : Nat
  observeMode : Bool
  protectedZone : String
  candidateZone : String
  candidateStreak : Nat
  lastCandidateWindow : Nat
  lastNormalAvg : Rat
  preTriggerBaseline : Rat

/-- `baseSuffixes` are the suffixes as `normalizeHotZoneBaseSuffixes` leaves them. -/
def newHotZoneController (lib : ZoneLib) (baseSuffixes : List String) : Controller :=
  ⟨hotZoneEvaluateInterval lib, baseSuffixes, ∅, 0, [], 0, false, "", "", 0, 0, 0, 0⟩

/-! ### Keys -/

/-- `strings.Join(labels, ".") + "."`. -/
def joinLabels (labels : List String) : String := String.intercalate "." labels ++ "."

def hotZoneMatchedBaseSuffix (lib : ZoneLib) (qname : String) (baseSuffixes : List String) :
    String :=
  (baseSuffixes.find? fun suffix => lib.isSubDomain suffix qname).getD ""

def hotZoneBusinessRootAboveSuffix (lib : ZoneLib) (qname suffix : String) : String :=
  let labels := lib.splitDomainName qname
  let suffixLabels := lib.splitDomainName suffix
  if labels.length ≤ suffixLabels.length then lib.fqdn suffix
  else joinLabels (labels.drop (labels.length - suffixLabels.length - 1))

def hotZoneFallbackLevel3 (lib : ZoneLib) (qname : String) : String :=
  let labels := lib.splitDomainName qname
  if labels.length ≤ 2 then lib.fqdn qname else joinLabels (labels.drop (labels.length - 2))

def hotZoneCoarseKey (lib : ZoneLib) (qname matchedForwardZone : String)
    (baseSuffixes : List String) : String :=
  if matchedForwardZone ≠ "" then lib.fqdn matchedForwardZone
  else
    let fqdn := lib.fqdn qname
    let suffix := hotZoneMatchedBaseSuffix lib fqdn baseSuffixes
    if suffix ≠ "" then hotZoneBusinessRootAboveSuffix lib fqdn suffix
    else hotZoneFallbackLevel3 lib fqdn

def hotZoneDirectChild (lib : ZoneLib) (qname parent : String) : String :=
  let fqdn := lib.fqdn qname
  let parent := lib.fqdn parent
  if fqdn = parent ∨ lib.isSubDomain parent fqdn = false then ""
  else
    let labels := lib.splitDomainName fqdn
    let parentLabels := lib.splitDomainName parent
    if labels.length ≤ parentLabels.length then ""
    else joinLabels (labels.drop (labels.length - parentLabels.length - 1))

def hotZoneIsPublicSuffixLike (lib : ZoneLib) (zone : String) : Bool :=
  decide ((lib.splitDomainName zone).length ≤ 1)

/-! ### Windows -/

/-- A stretch of time of one request, added to a window. -/
def Window.addOccupancy (lib : ZoneLib) (w : Window) (a : ActiveRequest) (delta : Nat) : Window :=
  let child := hotZoneDirectChild lib a.qname a.coarseKey
  { w with
    globalOccupancy := w.globalOccupancy + delta
    coarseOccupancy := add w.coarseOccupancy a.coarseKey delta
    childOccupancy :=
      if child ≠ "" then
        w.childOccupancy.insert a.coarseKey (add (w.child a.coarseKey) child delta)
      else w.childOccupancy }

def addSampleSegmentLocked (lib : ZoneLib) (w : Window) (a : ActiveRequest) (endAt : Nat) :
    Window :=
  if endAt ≤ a.accountedAt then w else w.addOccupancy lib a (endAt - a.accountedAt)

def addSegments (lib : ZoneLib) (endAt : Nat) (w : Window) (requests : List ActiveRequest) :
    Window :=
  requests.foldl (fun w a => addSampleSegmentLocked lib w a endAt) w

namespace Controller

def requests (c : Controller) : List ActiveRequest := c.active.entries.map Sigma.snd

/-- The window that `ensureCurrentWindowLocked` returns. -/
def current (lib : ZoneLib) (c : Controller) (now : Nat) : Window :=
  match c.windows with
  | w :: _ => w
  | [] =>
    let start := now - now % hotZoneWindowDuration lib
    newHotZoneWindow (if start = 0 then now else start)

/-- The current window is there afterwards, as `w`. -/
def setCurrent (c : Controller) (w : Window) : Controller :=
  { c with windows := w :: c.windows.tail }

def ensureCurrentWindowLocked (lib : ZoneLib) (c : Controller) (now : Nat) : Controller :=
  c.setCurrent (c.current lib now)

def accountUntil (c : Controller) (boundary : Nat) : Controller :=
  { c with active := ⟨c.active.entries.map fun e => ⟨e.1, { e.2 with accountedAt := boundary }⟩,
      by
        have keys := c.active.nodupKeys
        simpa [List.NodupKeys, List.keys, Function.comp_def] using keys⟩ }

def advanceWindowLocked (c : Controller) (start : Nat) : Controller :=
  { c with windows := (newHotZoneWindow start :: c.windows).take hotZoneRecentWindowCount }

/-- One round of the loop of `rotateLocked`: every active request is accounted up to the
end of the current window. -/
def closeWindow (lib : ZoneLib) (c : Controller) (now : Nat) : Controller :=
  let current := c.current lib now
  let boundary := current.start + hotZoneWindowDuration lib
  ((c.setCurrent (addSegments lib boundary current c.requests)).accountUntil
    boundary).advanceWindowLocked boundary

/-- The loop; the count bounds its rounds. -/
def rotateLoop (lib : ZoneLib) (now : Nat) : Nat → Controller → Controller
  | 0, c => c
  | n + 1, c =>
    if (c.current lib now).start + hotZoneWindowDuration lib ≤ now then
      rotateLoop lib now n (c.closeWindow lib now)
    else c

/-- The current window is over. -/
def rotationDue (lib : ZoneLib) (c : Controller) (now : Nat) : Bool :=
  decide ((c.current lib now).start + hotZoneWindowDuration lib ≤ now)

def rotateLocked (lib : ZoneLib) (c : Controller) (now : Nat) : Controller :=
  let c := c.ensureCurrentWindowLocked lib now
  c.rotateLoop lib now ((now - (c.current lib now).start) / hotZoneWindowDuration lib)

end Controller

/-! ### Evaluation -/

structure Snapshot where
  currentWindowStart : Nat
  currentElapsed : Nat
  currentGlobalAvg : Rat
  aggregatedGlobal : Nat
  aggregatedCoarse : Totals String
  aggregatedChild : AList (fun _ : String => Totals String)

def mergeChild (acc : AList (fun _ : String => Totals String)) (w : Window) :
    AList (fun _ : String => Totals String) :=
  w.childOccupancy.entries.foldl
    (fun acc e => acc.insert e.1 (merge ((acc.lookup e.1).getD ∅) e.2)) acc

/-- The sums over the copied windows, the current one first. -/
def snapshotOf (lib : ZoneLib) (now : Nat) (current : Window) (earlier : List Window) :
    Snapshot :=
  let elapsed := if now ≤ current.start then lib.second else now - current.start
  let windows := earlier.reverse ++ [current]
  { currentWindowStart := current.start
    currentElapsed := elapsed
    currentGlobalAvg := current.globalOccupancy / elapsed
    aggregatedGlobal := (windows.map Window.globalOccupancy).sum
    aggregatedCoarse := windows.foldl (fun acc w => merge acc w.coarseOccupancy) ∅
    aggregatedChild := windows.foldl mergeChild ∅ }

/-- The scan of a map for its largest value; among equals the least key wins. -/
def largest (entries : List (String × Nat)) : String × Nat :=
  entries.foldl (fun best e =>
    if best.2 < e.2 ∨ e.2 = best.2 ∧ e.1 < best.1 then e else best) ("", 0)

def Snapshot.selectCandidate (lib : ZoneLib) (s : Snapshot) : String :=
  let hottest := largest ((s.aggregatedCoarse.entries.map fun e => (e.1, e.2)).filter
    fun e => 0 < e.2 ∧ hotZoneIsPublicSuffixLike lib e.1 = false)
  if hottest.1 = "" ∨ hottest.2 = 0 then ""
  else
    let children := (s.aggregatedChild.lookup hottest.1).getD ∅
    let child := largest (children.entries.map fun e => (e.1, e.2))
    if child.1 = "" ∨ child.2 = 0 then hottest.1
    else if hottest.2 * hotZoneChildDominanceThreshold ≤ (child.2 : Rat) then child.1
    else hottest.1

/-- What an evaluation reads outside the controller. -/
structure Reading where
  cpu : Rat
  numCPU : Nat

namespace Controller

/-- `snapshotLocked`. The windows are copied, but their maps are shared with the live
ones: what active requests have not been accounted for is added to the copy of the
current window, and of it the live window gets the additions to the two maps. -/
def snapshotLocked (lib : ZoneLib) (c : Controller) (now : Nat) : Snapshot × Controller :=
  let live := c.current lib now
  let copied := addSegments lib now live c.requests
  (snapshotOf lib now copied c.windows.tail,
    c.setCurrent { live with
      coarseOccupancy := copied.coarseOccupancy, childOccupancy := copied.childOccupancy })

/-- Protection or observation ends. -/
def leave (c : Controller) (avg : Rat) : Controller :=
  { c with
    observeMode := false, protectedZone := "", candidateZone := "", candidateStreak := 0
    lastCandidateWindow := 0, lastNormalAvg := avg }

def enterObserve (c : Controller) (avg : Rat) : Controller :=
  if c.observeMode then c
  else
    { c with
      observeMode := true
      preTriggerBaseline := if c.lastNormalAvg ≤ 0 then avg else c.lastNormalAvg }

/-- The streak of the candidate grows once a window. -/
def track (c : Controller) (candidate : String) (windowStart : Nat) : Controller :=
  if candidate ≠ c.candidateZone then
    { c with
      candidateZone := candidate, candidateStreak := 1, lastCandidateWindow := windowStart }
  else if windowStart ≠ c.lastCandidateWindow then
    { c with candidateStreak := c.candidateStreak + 1, lastCandidateWindow := windowStart }
  else c

/-- A long enough streak is protected. -/
def protect (c : Controller) : Controller :=
  if hotZoneProtectConfirmWindows ≤ c.candidateStreak then
    { c with protectedZone := c.candidateZone }
  else c

/-- What `evaluateLocked` does once the snapshot is taken. -/
def judge (lib : ZoneLib) (reading : Reading) (snapshot : Snapshot) (c : Controller) :
    Controller :=
  let avg := snapshot.currentGlobalAvg
  let threshold := hotZoneObserveConcurrencyFactor * (max 1 reading.numCPU : Nat)
  let pressure := decide (threshold ≤ avg ∧ hotZoneObserveCPUThreshold ≤ reading.cpu)
  if c.observeMode = false ∧ pressure = false then { c with lastNormalAvg := avg }
  else
    let c := c.enterObserve avg
    if c.protectedZone ≠ "" then
      if avg ≤ c.preTriggerBaseline * hotZoneExitBaselineFactor then c.leave avg else c
    else if pressure = false then c.leave avg
    else
      let candidate := snapshot.selectCandidate lib
      if candidate = "" then
        { c with
          candidateZone := "", candidateStreak := 0
          lastCandidateWindow := snapshot.currentWindowStart }
      else (c.track candidate snapshot.currentWindowStart).protect

def evaluateLocked (lib : ZoneLib) (reading : Reading) (c : Controller) (now : Nat) :
    Controller :=
  (c.snapshotLocked lib now).2.judge lib reading (c.snapshotLocked lib now).1

def evalInterval (lib : ZoneLib) (c : Controller) : Nat :=
  if c.evalEvery = 0 then hotZoneEvaluateInterval lib else c.evalEvery

def maybeEvaluateLocked (lib : ZoneLib) (reading : Reading) (c : Controller) (now : Nat)
    (rotated : Bool) : Controller :=
  if rotated = true ∨ c.lastEvalAt = 0 ∨ c.evalInterval lib ≤ now - c.lastEvalAt then
    { c.evaluateLocked lib reading now with lastEvalAt := now }
  else c

/-- The second half of `TryEnter`: the ticket, none when the zone is protected. -/
def enter (lib : ZoneLib) (c : Controller) (now : Nat) (qname matchedForwardZone : String) :
    Option Nat × Controller :=
  let fqdn := lib.fqdn qname
  if c.protectedZone ≠ "" ∧ lib.isSubDomain c.protectedZone fqdn = true then (none, c)
  else
    let id := c.nextID + 1
    let request : ActiveRequest :=
      ⟨fqdn, hotZoneCoarseKey lib fqdn matchedForwardZone c.baseSuffixes, now, now⟩
    (some id, { c with nextID := id, active := c.active.insert id request })

def tryEnter (lib : ZoneLib) (reading : Reading) (c : Controller) (now : Nat)
    (qname matchedForwardZone : String) : Option Nat × Controller :=
  ((c.rotateLocked lib now).maybeEvaluateLocked lib reading now (c.rotationDue lib now)).enter
    lib now qname matchedForwardZone

/-- `addSampleToCurrentWindowLocked` and the removal of the request. -/
def settle (lib : ZoneLib) (c : Controller) (now id : Nat) : Controller :=
  match c.active.lookup id with
  | none => c
  | some request =>
    let c :=
      if now ≤ request.accountedAt then c
      else c.setCurrent (addSampleSegmentLocked lib (c.current lib now) request now)
    { c with active := c.active.erase id }

def release (lib : ZoneLib) (reading : Reading) (c : Controller) (now id : Nat) : Controller :=
  if id = 0 then c
  else
    ((c.rotateLocked lib now).settle lib now id).maybeEvaluateLocked lib reading now
      (c.rotationDue lib now)

/-! ### Rotation and release -/

/-- What closing a window keeps, the rounds of the loop keep. -/
lemma rotateLoop_keeps (lib : ZoneLib) (now n : Nat) {P : Controller → Prop}
    (closes : ∀ c, P c → P (c.closeWindow lib now)) {c : Controller} (start : P c) :
    P (c.rotateLoop lib now n) := by
  induction n generalizing c with
  | zero => exact start
  | succ n ih =>
    rw [rotateLoop]
    split
    · exact ih (closes c start)
    · exact start

lemma rotateLocked_keeps (lib : ZoneLib) (now : Nat) {P : Controller → Prop}
    (closes : ∀ c, P c → P (c.closeWindow lib now)) {c : Controller}
    (ensured : P (c.ensureCurrentWindowLocked lib now)) : P (c.rotateLocked lib now) :=
  rotateLoop_keeps lib now _ closes ensured

/-- A request that is settled is gone, and its time is in the current window if there
was any left to account. -/
lemma settle_spec (lib : ZoneLib) (c : Controller) (now id : Nat) :
    ∃ windows, c.settle lib now id = { c with windows := windows, active := c.active.erase id } ∧
      (windows = c.windows ∨ ∃ request, windows =
        (c.setCurrent (addSampleSegmentLocked lib (c.current lib now) request now)).windows) := by
  rw [settle]
  split
  · rename_i absent
    have unlisted : id ∉ c.active.entries.keys := AList.lookup_eq_none.mp absent
    have same : c.active.erase id = c.active :=
      AList.ext (List.kerase_of_notMem_keys unlisted)
    refine ⟨c.windows, ?_, .inl rfl⟩
    rw [same]
  · rename_i request _
    dsimp only
    split
    · exact ⟨_, rfl, .inl rfl⟩
    · exact ⟨_, rfl, .inr ⟨request, rfl⟩⟩

/-- A property of windows that a new one has and that accounting time keeps. -/
structure Accountable (lib : ZoneLib) (Q : Window → Prop) : Prop where
  fresh : ∀ start, Q (newHotZoneWindow start)
  segment : ∀ w a endAt, Q w → Q (addSampleSegmentLocked lib w a endAt)

namespace Accountable

variable {lib : ZoneLib} {Q : Window → Prop} {c : Controller}

lemma segments (rule : Accountable lib Q) (endAt : Nat) {w : Window}
    (requests : List ActiveRequest) (holds : Q w) : Q (addSegments lib endAt w requests) := by
  induction requests generalizing w with
  | nil => exact holds
  | cons a rest ih => exact ih (rule.segment w a endAt holds)

lemma current (rule : Accountable lib Q) (all : ∀ w ∈ c.windows, Q w) (now : Nat) :
    Q (c.current lib now) := by
  rw [Controller.current]
  split
  · rename_i w rest windows
    exact all w (by simp [windows])
  · exact rule.fresh _

lemma setCurrent (all : ∀ w ∈ c.windows, Q w) {w : Window} (holds : Q w) :
    ∀ w' ∈ (c.setCurrent w).windows, Q w' := by
  intro w' mem
  rcases List.mem_cons.mp mem with rfl | mem
  · exact holds
  · exact all w' (List.mem_of_mem_tail mem)

lemma closeWindow (rule : Accountable lib Q) (now : Nat) (all : ∀ w ∈ c.windows, Q w) :
    ∀ w ∈ (c.closeWindow lib now).windows, Q w := by
  intro w mem
  rcases List.mem_cons.mp (List.mem_of_mem_take mem) with rfl | old
  · exact rule.fresh _
  · exact setCurrent all (rule.segments _ c.requests (rule.current all now)) w old

lemma rotateLocked (rule : Accountable lib Q) (all : ∀ w ∈ c.windows, Q w) (now : Nat) :
    ∀ w ∈ (c.rotateLocked lib now).windows, Q w :=
  rotateLocked_keeps lib now (P := fun c => ∀ w ∈ c.windows, Q w)
    (fun _ => rule.closeWindow now) (setCurrent all (rule.current all now))

lemma settle (rule : Accountable lib Q) (all : ∀ w ∈ c.windows, Q w) (now id : Nat) :
    ∀ w ∈ (c.settle lib now id).windows, Q w := by
  obtain ⟨windows, settled, same | ⟨request, added⟩⟩ := settle_spec lib c now id
  · rw [settled, same]
    exact all
  · rw [settled, added]
    exact setCurrent all (rule.segment _ request now (rule.current all now))

end Accountable

/-! ### Tickets -/

@[simp] theorem accountUntil_keys (c : Controller) (boundary : Nat) :
    (c.accountUntil boundary).active.keys = c.active.keys := by
  simp [accountUntil, AList.keys, List.keys, Function.comp_def]

/-- Nothing but time is accounted: the tickets stay. -/
structure SameTickets (c c' : Controller) : Prop where
  keys : c'.active.keys = c.active.keys
  nextID : c'.nextID = c.nextID

lemma SameTickets.trans {a b c : Controller} (first : SameTickets a b) (last : SameTickets b c) :
    SameTickets a c :=
  ⟨last.keys.trans first.keys, last.nextID.trans first.nextID⟩

lemma closeWindow_sameTickets (lib : ZoneLib) (c : Controller) (now : Nat) :
    SameTickets c (c.closeWindow lib now) :=
  ⟨accountUntil_keys _ _, rfl⟩

lemma rotateLocked_sameTickets (lib : ZoneLib) (c : Controller) (now : Nat) :
    SameTickets c (c.rotateLocked lib now) := by
  refine rotateLocked_keeps lib now (P := SameTickets c) ?_ ⟨rfl, rfl⟩
  intro c' kept
  exact kept.trans (closeWindow_sameTickets lib c' now)

/-- A judgement changes the protection state only. -/
structure SameBooks (c c' : Controller) : Prop where
  active : c'.active = c.active
  nextID : c'.nextID = c.nextID
  windows : c'.windows = c.windows

lemma SameBooks.trans {a b c : Controller} (first : SameBooks a b) (last : SameBooks b c) :
    SameBooks a c :=
  ⟨last.active.trans first.active, last.nextID.trans first.nextID,
    last.windows.trans first.windows⟩

lemma enterObserve_sameBooks (c : Controller) (avg : Rat) : SameBooks c (c.enterObserve avg) := by
  rw [enterObserve]
  split
  · exact ⟨rfl, rfl, rfl⟩
  · exact ⟨rfl, rfl, rfl⟩

lemma track_sameBooks (c : Controller) (candidate : String) (windowStart : Nat) :
    SameBooks c (c.track candidate windowStart) := by
  rw [track]
  split
  · exact ⟨rfl, rfl, rfl⟩
  split
  · exact ⟨rfl, rfl, rfl⟩
  · exact ⟨rfl, rfl, rfl⟩

lemma protect_sameBooks (c : Controller) : SameBooks c c.protect := by
  rw [protect]
  split
  · exact ⟨rfl, rfl, rfl⟩
  · exact ⟨rfl, rfl, rfl⟩

theorem judge_sameBooks (lib : ZoneLib) (reading : Reading) (snapshot : Snapshot)
    (c : Controller) : SameBooks c (c.judge lib reading snapshot) := by
  have observing := enterObserve_sameBooks c snapshot.currentGlobalAvg
  have left : SameBooks c ((c.enterObserve snapshot.currentGlobalAvg).leave
      snapshot.currentGlobalAvg) := ⟨observing.active, observing.nextID, observing.windows⟩
  simp only [judge]
  split
  · exact ⟨rfl, rfl, rfl⟩
  split
  · split
    · exact left
    · exact observing
  split
  · exact left
  split
  · exact ⟨observing.active, observing.nextID, observing.windows⟩
  · exact (observing.trans (track_sameBooks _ _ _)).trans (protect_sameBooks _)

lemma maybeEvaluateLocked_sameTickets (lib : ZoneLib) (reading : Reading) (c : Controller)
    (now : Nat) (rotated : Bool) :
    SameTickets c (c.maybeEvaluateLocked lib reading now rotated) := by
  rw [maybeEvaluateLocked]
  split
  · have judged := judge_sameBooks lib reading (c.snapshotLocked lib now).1
      (c.snapshotLocked lib now).2
    exact ⟨congrArg AList.keys judged.active, judged.nextID⟩
  · exact ⟨rfl, rfl⟩

lemma enter_spec (lib : ZoneLib) (c : Controller) (now : Nat)
    (qname matchedForwardZone : String) :
    (∃ c', c.enter lib now qname matchedForwardZone = (none, c') ∧ SameTickets c c') ∨
      (∃ c', c.enter lib now qname matchedForwardZone = (some (c.nextID + 1), c') ∧
        c'.nextID = c.nextID + 1 ∧
        c'.active.keys = (c.nextID + 1) :: c.active.keys.erase (c.nextID + 1)) := by
  rw [enter]
  dsimp only
  split
  · exact .inl ⟨c, rfl, rfl, rfl⟩
  · exact .inr ⟨_, rfl, rfl, AList.keys_insert _⟩

lemma enter_windows (lib : ZoneLib) (c : Controller) (now : Nat)
    (qname matchedForwardZone : String) :
    (c.enter lib now qname matchedForwardZone).2.windows = c.windows := by
  rw [enter]
  dsimp only
  split
  · rfl
  · rfl

/-- A request that enters gets the next number as its ticket. -/
theorem tryEnter_spec (lib : ZoneLib) (reading : Reading) (c : Controller) (now : Nat)
    (qname matchedForwardZone : String) :
    (∃ c', c.tryEnter lib reading now qname matchedForwardZone = (none, c') ∧
        SameTickets c c') ∨
      (∃ c', c.tryEnter lib reading now qname matchedForwardZone = (some (c.nextID + 1), c') ∧
        c'.nextID = c.nextID + 1 ∧
        c'.active.keys = (c.nextID + 1) :: c.active.keys.erase (c.nextID + 1)) := by
  have kept := (rotateLocked_sameTickets lib c now).trans
    (maybeEvaluateLocked_sameTickets lib reading (c.rotateLocked lib now) now
      (c.rotationDue lib now))
  rcases enter_spec lib ((c.rotateLocked lib now).maybeEvaluateLocked lib reading now
      (c.rotationDue lib now)) now qname matchedForwardZone with
    ⟨c', refused, same⟩ | ⟨c', entered, nextID, keys⟩
  · exact .inl ⟨c', refused, kept.trans same⟩
  · rw [kept.nextID] at entered nextID keys
    rw [kept.keys] at keys
    exact .inr ⟨c', entered, nextID, keys⟩

lemma settle_keys (lib : ZoneLib) (c : Controller) (now id : Nat) :
    (c.settle lib now id).active.keys = c.active.keys.erase id ∧
      (c.settle lib now id).nextID = c.nextID := by
  obtain ⟨windows, settled, _⟩ := settle_spec lib c now id
  rw [settled]
  exact ⟨AList.keys_erase _ _, rfl⟩

/-- A ticket that is given back leaves the active set; tickets start at one. -/
theorem release_spec (lib : ZoneLib) (reading : Reading) (c : Controller) (now : Nat) {id : Nat}
    (ticket : id ≠ 0) :
    (c.release lib reading now id).active.keys = c.active.keys.erase id ∧
      (c.release lib reading now id).nextID = c.nextID := by
  have rotated := rotateLocked_sameTickets lib c now
  obtain ⟨erased, counted⟩ := settle_keys lib (c.rotateLocked lib now) now id
  have evaluated := maybeEvaluateLocked_sameTickets lib reading
    ((c.rotateLocked lib now).settle lib now id) now (c.rotationDue lib now)
  rw [release, if_neg ticket]
  constructor
  · rw [evaluated.keys, erased, rotated.keys]
  · rw [evaluated.nextID, counted, rotated.nextID]

end Controller

/-- A small instance with the labels of the library and the clock of Go. -/
def plainZoneLib : ZoneLib where
  toLib := plainLib
  splitDomainName name := (DomainName.labelTexts name.toList).map String.ofList
  second := second
  second_pos := by decide

def idleReading : Reading := ⟨0, 1⟩

end HotZone
