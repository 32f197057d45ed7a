import Mathlib.Data.Finset.Card
import Rec53.HotZoneEvidence
import Rec53.ZoneKeys

/-!
# A zone is protected on sustained evidence

What the controller knows about a candidate is a streak and the window of the last
confirmation. Beside the states of a run the evaluations of it are listed here, each
with its window, the pressure it saw and the zone it selected. The streak of a candidate
stands for a stretch of evaluations at the end of that list which all saw pressure and
all selected the candidate, in as many windows as the streak says: windows only move
forward, so a window that is not the last one confirmed is a new one, whatever the
times of the calls.

A protected zone has two labels because candidates do. Of the coarse keys those with
fewer are passed over; a child key has one label more than its coarse key, which rests
on how the keys of the child occupancy are built.
-/

namespace ZoneProtection

open Platform DomainName KeyedTotals HotZone HotZoneEvidence ZoneKeys

/-! ### Keys of the child occupancy -/

/-- What the library keeps of the labels of a name. -/
structure LabelRules (lib : ZoneLib) : Prop where
  fqdn : ∀ zone, 2 ≤ (lib.splitDomainName zone).length →
    1 ≤ (lib.splitDomainName (lib.fqdn zone)).length
  join : ∀ name k, 2 ≤ ((lib.splitDomainName name).drop k).length →
    2 ≤ (lib.splitDomainName (joinLabels ((lib.splitDomainName name).drop k))).length

/-- Labels of a name from one of them on, joined, are its text from there on, with a dot after the
last label if it had none. -/
lemma joinLabels_labelTexts {name : List Char} {k : Nat} (text : name ≠ []) (proper : name ≠ ['.'])
    (some_label : (split false name).drop k ≠ []) :
    ∃ dot, joinLabels (((labelTexts name).drop k).map String.ofList) =
      String.ofList (((split false name).drop k).flatten ++ dot) := by
  rw [labelTexts, if_neg text, labels, if_neg proper]
  split
  · rename_i ended
    refine ⟨[], ?_⟩
    rw [← List.map_drop, joinLabels_dropLast some_label, List.append_nil]
    intro label mem
    exact exists_snoc_of_mem_split ended ((List.drop_suffix _ _).subset mem)
  · obtain ⟨front, last, is⟩ := (List.eq_nil_or_concat' (split false name)).resolve_left
      (split_ne_nil false name)
    have within : k ≤ front.length := by
      have counted := List.length_pos_of_ne_nil some_label
      rw [is, List.length_drop, List.length_append, List.length_singleton] at counted
      omega
    have texts : (split false name).dropLast.map List.dropLast ++
        (split false name).drop ((split false name).length - 1) =
          (front ++ [last ++ ['.']]).map List.dropLast := by
      simp [is]
    refine ⟨['.'], ?_⟩
    rw [texts, is, ← List.map_drop, List.drop_append_of_le_length within,
      List.drop_append_of_le_length within, joinLabels_dropLast (by simp)]
    · simp
    · intro label mem
      rcases List.mem_append.mp mem with before | at_end
      · have listed : label ∈ (split false name).dropLast := by
          rw [is, List.dropLast_concat]
          exact (List.drop_suffix _ _).subset before
        exact exists_snoc_of_mem_dropLast listed
      · exact ⟨last, List.mem_singleton.mp at_end⟩

/-- They have as many labels or more. -/
lemma length_labels_joinLabels {name : List Char} {k : Nat}
    (two : 2 ≤ ((labelTexts name).drop k).length) :
    2 ≤ (labels (joinLabels (((labelTexts name).drop k).map String.ofList)).toList).length := by
  have text : name ≠ [] := by
    rintro rfl
    simp [labelTexts] at two
  have proper : name ≠ ['.'] := by
    rintro rfl
    simp [labelTexts, labels] at two
  have counted : 2 ≤ ((split false name).drop k).length := by
    have same := length_labelTexts text
    rw [labels, if_neg proper] at same
    rw [List.length_drop] at two ⊢
    omega
  have some_label : (split false name).drop k ≠ [] := List.ne_nil_of_length_pos (by omega)
  have again : split false ((split false name).drop k).flatten = (split false name).drop k := by
    rcases split_flatten_suffix (List.drop_suffix k (split false name)) some_label with
      whole | again
    · rw [whole, flatten_split]
    · exact again
  obtain ⟨dot, is⟩ := joinLabels_labelTexts text proper some_label
  have more := length_split_le false ((split false name).drop k).flatten dot
  rw [again] at more
  rw [is, String.toList_ofList, labels]
  split
  · rename_i root
    have one : (split false ['.']).length = 1 := rfl
    rw [root] at more
    omega
  · omega

/-- A library that follows the rules for names keeps labels. -/
theorem labelRules_of_zoneRules {lib : ZoneLib} (rules : ZoneRules lib) : LabelRules lib := by
  constructor
  · intro zone two
    have named : zone ≠ "" := by
      rintro rfl
      rw [rules.splitDomainName] at two
      cases two
    rw [length_splitDomainName rules named] at two
    obtain ⟨front, ended⟩ := fqdn_eq_snoc zone.toList
    have full : lib.fqdn zone ≠ "" := by
      rw [rules.fqdn, ended]
      simp
    rw [length_splitDomainName rules full, ZoneWalk.labelCount, rules.fqdn, String.toList_ofList]
    refine List.length_pos_of_ne_nil fun none_left => ?_
    rw [labels_eq_nil_iff, DomainName.fqdn] at none_left
    split at none_left
    · rw [ZoneWalk.labelCount, labels_eq_nil_iff.mpr none_left] at two
      cases two
    · have empty : zone.toList = [] := by simpa using none_left
      exact named (String.toList_eq_nil_iff.mp empty)
  · intro name k two
    rw [rules.splitDomainName name, ← List.map_drop] at two ⊢
    rw [List.length_map] at two
    have joined := length_labels_joinLabels two
    have named : joinLabels (((labelTexts name.toList).drop k).map String.ofList) ≠ "" := by
      simp [joinLabels]
    rwa [length_splitDomainName rules named, ZoneWalk.labelCount]

def IsChild (lib : ZoneLib) (key child : String) : Prop :=
  child ≠ "" ∧ ∃ qname, hotZoneDirectChild lib qname key = child

lemma IsChild.labels {lib : ZoneLib} (rules : LabelRules lib) {key child : String}
    (is_child : IsChild lib key child) (parent : 2 ≤ (lib.splitDomainName key).length) :
    2 ≤ (lib.splitDomainName child).length := by
  obtain ⟨named, qname, built⟩ := is_child
  have above := rules.fqdn key parent
  simp only [hotZoneDirectChild] at built
  split at built
  · exact absurd built.symm named
  split at built
  · exact absurd built.symm named
  · rename_i more
    rw [← built]
    apply rules.join
    rw [List.length_drop]
    omega

/-- The keys under each coarse key are children of it. -/
def ChildMap (lib : ZoneLib) (m : AList (fun _ : String => Totals String)) : Prop :=
  ∀ key child, child ∈ (m.lookup key).getD ∅ → IsChild lib key child

lemma childMap_empty (lib : ZoneLib) : ChildMap lib ∅ := by
  intro key child mem
  rw [AList.lookup_empty] at mem
  exact absurd mem (AList.notMem_empty child)

lemma ChildMap.insert {lib : ZoneLib} {m : AList (fun _ : String => Totals String)}
    (children : ChildMap lib m) {key : String} {totals : Totals String}
    (new : ∀ child ∈ totals, IsChild lib key child) : ChildMap lib (m.insert key totals) := by
  intro key' child mem
  by_cases same : key' = key
  · subst same
    rw [AList.lookup_insert] at mem
    exact new child mem
  · rw [AList.lookup_insert_ne same] at mem
    exact children key' child mem

def ChildKeys (lib : ZoneLib) (w : Window) : Prop := ChildMap lib w.childOccupancy

lemma addOccupancy_childKeys {lib : ZoneLib} {w : Window} (children : ChildKeys lib w)
    (a : ActiveRequest) (delta : Nat) : ChildKeys lib (w.addOccupancy lib a delta) := by
  rw [ChildKeys, Window.addOccupancy]
  dsimp only
  split
  · rename_i named
    apply children.insert
    intro child mem
    rcases (AList.mem_insert _).mp mem with rfl | old
    · exact ⟨named, a.qname, rfl⟩
    · exact children a.coarseKey child old
  · exact children

lemma childKeys_accountable (lib : ZoneLib) : Controller.Accountable lib (ChildKeys lib) := by
  refine ⟨fun _ => childMap_empty lib, ?_⟩
  intro w a endAt children
  rw [addSampleSegmentLocked]
  split
  · exact children
  · exact addOccupancy_childKeys children a _

lemma mergeChild_childMap {lib : ZoneLib} {w : Window} (children : ChildKeys lib w)
    {acc : AList (fun _ : String => Totals String)} (before : ChildMap lib acc) :
    ChildMap lib (mergeChild acc w) := by
  have held : ∀ e ∈ w.childOccupancy.entries, ∀ child ∈ e.2, IsChild lib e.1 child := by
    intro e mem child listed
    have found : w.childOccupancy.lookup e.1 = some e.2 := AList.mem_lookup_iff.mpr mem
    exact children e.1 child (by rw [found]; exact listed)
  rw [mergeChild]
  -- the entries of the window are merged one after the other
  generalize w.childOccupancy.entries = entries at held
  induction entries generalizing acc with
  | nil => exact before
  | cons e rest ih =>
    apply ih
    · apply before.insert
      intro child mem
      rcases mem_or_mem_of_mem_merge mem with old | new
      · exact before e.1 child old
      · exact held e List.mem_cons_self child new
    · intro e' mem
      exact held e' (List.mem_cons_of_mem _ mem)

lemma snapshotOf_childMap {lib : ZoneLib} (now : Nat) {current : Window} {earlier : List Window}
    (children : ChildKeys lib current) (others : ∀ w ∈ earlier, ChildKeys lib w) :
    ChildMap lib (snapshotOf lib now current earlier).aggregatedChild := by
  have all : ∀ w ∈ earlier.reverse ++ [current], ChildKeys lib w := by
    intro w mem
    rcases List.mem_append.mp mem with old | last
    · exact others w (List.mem_reverse.mp old)
    · rw [List.mem_singleton.mp last]
      exact children
  change ChildMap lib ((earlier.reverse ++ [current]).foldl mergeChild ∅)
  refine List.foldlRecOn (earlier.reverse ++ [current]) mergeChild (childMap_empty lib) ?_
  intro acc before w mem
  exact mergeChild_childMap (all w mem) before

/-! ### The candidate -/

lemma largest_mem (entries : List (String × Nat)) :
    (largest entries).1 = "" ∨ largest entries ∈ entries := by
  have scan : largest entries = ("", 0) ∨ largest entries ∈ entries := by
    rw [largest]
    refine List.foldlRecOn entries _ (motive := fun best => best = ("", 0) ∨ best ∈ entries)
      (.inl rfl) ?_
    intro best before e mem
    split
    · exact .inr mem
    · exact before
  rcases scan with none_found | found
  · exact .inl (by rw [none_found])
  · exact .inr found

/-- A candidate has two labels. -/
theorem selectCandidate_labels {lib : ZoneLib} (rules : LabelRules lib) {s : Snapshot}
    (children : ChildMap lib s.aggregatedChild) (named : s.selectCandidate lib ≠ "") :
    2 ≤ (lib.splitDomainName (s.selectCandidate lib)).length := by
  simp only [Snapshot.selectCandidate] at named ⊢
  generalize hot : largest ((s.aggregatedCoarse.entries.map fun e => (e.1, e.2)).filter
    fun e => 0 < e.2 ∧ hotZoneIsPublicSuffixLike lib e.1 = false) = hottest at named ⊢
  split at named
  · exact absurd rfl named
  · rename_i found
    have kept : hottest ∈ (s.aggregatedCoarse.entries.map fun e => (e.1, e.2)).filter
        fun e => 0 < e.2 ∧ hotZoneIsPublicSuffixLike lib e.1 = false := by
      rw [← hot]
      exact (largest_mem _).resolve_left (by rw [hot]; exact fun empty => found (.inl empty))
    have wide : hotZoneIsPublicSuffixLike lib hottest.1 = false :=
      (of_decide_eq_true (List.mem_filter.mp kept).2).2
    have labels : 2 ≤ (lib.splitDomainName hottest.1).length := by
      have more := of_decide_eq_false wide
      omega
    rw [if_neg found]
    split
    · exact labels
    · rename_i child_found
      split
      · rcases largest_mem ((((s.aggregatedChild.lookup hottest.1).getD ∅).entries).map
            fun e => (e.1, e.2)) with empty | mem
        · exact absurd (.inl empty) child_found
        · obtain ⟨e, listed, same⟩ := List.mem_map.mp mem
          rw [← same]
          exact (children hottest.1 e.1 (List.mem_map_of_mem listed)).labels rules labels
      · exact labels

/-! ### Evaluations -/

structure Evaluation where
  window : Nat
  pressure : Bool
  selected : Option String
deriving DecidableEq

def pressure (reading : Reading) (avg : Rat) : Bool :=
  decide (hotZoneObserveConcurrencyFactor * (max 1 reading.numCPU : Nat) ≤ avg ∧
    hotZoneObserveCPUThreshold ≤ reading.cpu)

/-- A candidate is selected under pressure while no zone is protected. -/
def judgement (lib : ZoneLib) (reading : Reading) (snapshot : Snapshot) (c : Controller) :
    Evaluation where
  window := snapshot.currentWindowStart
  pressure := pressure reading snapshot.currentGlobalAvg
  selected :=
    if pressure reading snapshot.currentGlobalAvg = true ∧ c.protectedZone = "" then
      some (snapshot.selectCandidate lib)
    else none

def evaluation (lib : ZoneLib) (reading : Reading) (c : Controller) (now : Nat) : Evaluation :=
  judgement lib reading (c.snapshotLocked lib now).1 (c.snapshotLocked lib now).2

def dueEvaluations (lib : ZoneLib) (reading : Reading) (c : Controller) (now : Nat)
    (rotated : Bool) : List Evaluation :=
  if rotated = true ∨ c.lastEvalAt = 0 ∨ c.evalInterval lib ≤ now - c.lastEvalAt then
    [evaluation lib reading c now]
  else []

/-- The evaluation that an event makes, if it is due. -/
def evaluations (lib : ZoneLib) (c : Controller) : Event → List Evaluation
  | .tryEnter now _ _ reading =>
    dueEvaluations lib reading (c.rotateLocked lib now) now (c.rotationDue lib now)
  | .release now id reading =>
    if id = 0 then []
    else
      dueEvaluations lib reading ((c.rotateLocked lib now).settle lib now id) now
        (c.rotationDue lib now)
  | .evaluate now reading => [evaluation lib reading c now]

/-- Evaluations that all saw pressure and selected the zone, in at least `n` windows. -/
structure Agreeing (recent : List Evaluation) (zone : String) (n : Nat) : Prop where
  agree : ∀ ev ∈ recent, ev.pressure = true ∧ ev.selected = some zone
  windows : n ≤ (recent.map Evaluation.window).toFinset.card

/-- The history ends with evaluations that agree. -/
def Sustained (history : List Evaluation) (zone : String) (n : Nat) : Prop :=
  ∃ recent, recent <:+ history ∧ Agreeing recent zone n

lemma Agreeing.single {ev : Evaluation} {zone : String} (pressed : ev.pressure = true)
    (selected : ev.selected = some zone) : Agreeing [ev] zone 1 := by
  refine ⟨?_, ?_⟩
  · intro ev' mem
    rw [List.mem_singleton.mp mem]
    exact ⟨pressed, selected⟩
  · simp

/-- One more evaluation that agrees; in a later window it counts. -/
lemma Agreeing.snoc {recent : List Evaluation} {zone : String} {n : Nat}
    (before : Agreeing recent zone n) {ev : Evaluation} (pressed : ev.pressure = true)
    (selected : ev.selected = some zone) :
    Agreeing (recent ++ [ev]) zone n ∧
      ((∀ ev' ∈ recent, ev'.window < ev.window) → Agreeing (recent ++ [ev]) zone (n + 1)) := by
  have agree : ∀ ev' ∈ recent ++ [ev], ev'.pressure = true ∧ ev'.selected = some zone := by
    intro ev' mem
    rcases List.mem_append.mp mem with old | new
    · exact before.agree ev' old
    · rw [List.mem_singleton.mp new]
      exact ⟨pressed, selected⟩
  have grown : ((recent ++ [ev]).map Evaluation.window).toFinset =
      insert ev.window (recent.map Evaluation.window).toFinset := by
    ext w
    simp
  constructor
  · refine ⟨agree, ?_⟩
    rw [grown]
    exact before.windows.trans (Finset.card_le_card (Finset.subset_insert _ _))
  · intro later
    have new : ev.window ∉ (recent.map Evaluation.window).toFinset := by
      intro listed
      obtain ⟨ev', mem, same⟩ := List.mem_map.mp (List.mem_toFinset.mp listed)
      have earlier := later ev' mem
      omega
    refine ⟨agree, ?_⟩
    rw [grown, Finset.card_insert_of_notMem new]
    exact Nat.succ_le_succ before.windows

/-! ### The state -/

/-- The state of protection fits together. -/
structure Consistent (lib : ZoneLib) (c : Controller) : Prop where
  guarding : c.protectedZone ≠ "" → c.observeMode = true ∧ c.candidateZone = c.protectedZone ∧
    3 ≤ c.candidateStreak
  idle : c.observeMode = false → c.protectedZone = "" ∧ c.candidateZone = "" ∧
    c.candidateStreak = 0
  streak : 0 < c.candidateStreak ↔ c.candidateZone ≠ ""
  labels : c.protectedZone ≠ "" → 2 ≤ (lib.splitDomainName c.protectedZone).length

/-- The current window is there, and starts no earlier than `t`. -/
def StartsFrom (t : Nat) (c : Controller) : Prop := ∃ w ∈ c.windows.head?, t ≤ w.start

/-- The streak of the candidate is backed by the history. The windows of the agreeing
evaluations end with the one of the last confirmation, and that is no later than the
current one. -/
structure Backed (lib : ZoneLib) (history : List Evaluation) (c : Controller) : Prop
    extends Consistent lib c where
  candidate : c.candidateZone ≠ "" → 2 ≤ (lib.splitDomainName c.candidateZone).length
  children : ∀ w ∈ c.windows, ChildKeys lib w
  started : c.candidateZone ≠ "" → StartsFrom c.lastCandidateWindow c
  evidence : c.protectedZone = "" → c.candidateZone ≠ "" →
    ∃ recent, recent <:+ history ∧ Agreeing recent c.candidateZone c.candidateStreak ∧
      ∀ ev ∈ recent, ev.window ≤ c.lastCandidateWindow

lemma backed_new (lib : ZoneLib) (baseSuffixes : List String) :
    Backed lib [] (newHotZoneController lib baseSuffixes) where
  guarding := fun named => absurd rfl named
  idle := fun _ => ⟨rfl, rfl, rfl⟩
  streak := by simp [newHotZoneController]
  labels := fun named => absurd rfl named
  candidate := fun named => absurd rfl named
  children := by simp [newHotZoneController]
  started := fun named => absurd rfl named
  evidence := fun _ named => absurd rfl named

/-- The fields that an evaluation decides on. -/
structure Decision where
  observeMode : Bool
  protectedZone : String
  candidateZone : String
  candidateStreak : Nat
  lastCandidateWindow : Nat

def decision (c : Controller) : Decision where
  observeMode := c.observeMode
  protectedZone := c.protectedZone
  candidateZone := c.candidateZone
  candidateStreak := c.candidateStreak
  lastCandidateWindow := c.lastCandidateWindow

/-- Nothing is decided: the books may change, and the windows move forward. -/
structure Undecided (lib : ZoneLib) (c c' : Controller) : Prop where
  same : decision c' = decision c
  children : (∀ w ∈ c.windows, ChildKeys lib w) → ∀ w ∈ c'.windows, ChildKeys lib w
  starts : ∀ t, StartsFrom t c → StartsFrom t c'

lemma Undecided.protectedZone {lib : ZoneLib} {c c' : Controller} (undecided : Undecided lib c c') :
    c'.protectedZone = c.protectedZone :=
  congrArg Decision.protectedZone undecided.same

lemma Backed.undecided {lib : ZoneLib} {history : List Evaluation} {c c' : Controller}
    (backed : Backed lib history c) (undecided : Undecided lib c c') : Backed lib history c' := by
  obtain ⟨mode, zone, candidate, streak, window⟩ : c'.observeMode = c.observeMode ∧
      c'.protectedZone = c.protectedZone ∧ c'.candidateZone = c.candidateZone ∧
      c'.candidateStreak = c.candidateStreak ∧
      c'.lastCandidateWindow = c.lastCandidateWindow := by
    simpa [decision] using undecided.same
  exact {
    guarding := by
      rw [mode, zone, candidate, streak]
      exact backed.guarding
    idle := by
      rw [mode, zone, candidate, streak]
      exact backed.idle
    streak := by
      rw [candidate, streak]
      exact backed.streak
    labels := by
      rw [zone]
      exact backed.labels
    candidate := by
      rw [candidate]
      exact backed.candidate
    children := undecided.children backed.children
    started := by
      rw [candidate, window]
      intro named
      exact undecided.starts _ (backed.started named)
    evidence := by
      rw [zone, candidate, streak, window]
      exact backed.evidence }

lemma Undecided.trans {lib : ZoneLib} {a b c : Controller} (first : Undecided lib a b)
    (last : Undecided lib b c) : Undecided lib a c where
  same := last.same.trans first.same
  children := fun all => last.children (first.children all)
  starts := fun t starts => last.starts t (first.starts t starts)

lemma undecided_of_windows {lib : ZoneLib} {c c' : Controller} (same : decision c' = decision c)
    (windows : c'.windows = c.windows) : Undecided lib c c' := by
  refine ⟨same, ?_, ?_⟩
  · rw [windows]
    exact id
  · intro t
    rw [StartsFrom, StartsFrom, windows]
    exact id

lemma StartsFrom.current {t : Nat} {c : Controller} (starts : StartsFrom t c) (lib : ZoneLib)
    (now : Nat) : t ≤ (c.current lib now).start := by
  obtain ⟨w, head, le⟩ := starts
  rw [Controller.current]
  split
  · rename_i w' rest windows
    rw [windows] at head
    cases head
    exact le
  · rename_i windows
    rw [windows] at head
    cases head

/-- The current window is replaced by one that starts with it. -/
lemma setCurrent_undecided (lib : ZoneLib) (c : Controller) (now : Nat) {w : Window}
    (child : (∀ w' ∈ c.windows, ChildKeys lib w') → ChildKeys lib w)
    (start : w.start = (c.current lib now).start) : Undecided lib c (c.setCurrent w) where
  same := rfl
  children := fun all => Controller.Accountable.setCurrent all (child all)
  starts := by
    intro t starts
    refine ⟨w, rfl, ?_⟩
    rw [start]
    exact starts.current lib now

lemma closeWindow_undecided (lib : ZoneLib) (c : Controller) (now : Nat) :
    Undecided lib c (c.closeWindow lib now) where
  same := rfl
  children := fun all => (childKeys_accountable lib).closeWindow now all
  starts := by
    intro t starts
    refine ⟨_, rfl, ?_⟩
    have before := starts.current lib now
    change t ≤ (c.current lib now).start + hotZoneWindowDuration lib
    omega

lemma rotateLocked_undecided (lib : ZoneLib) (c : Controller) (now : Nat) :
    Undecided lib c (c.rotateLocked lib now) := by
  refine Controller.rotateLocked_keeps lib now (P := Undecided lib c) ?_ ?_
  · intro c' before
    exact before.trans (closeWindow_undecided lib c' now)
  · exact setCurrent_undecided lib c now
      (fun all => (childKeys_accountable lib).current all now) rfl

lemma settle_undecided (lib : ZoneLib) (c : Controller) (now id : Nat) :
    Undecided lib c (c.settle lib now id) := by
  obtain ⟨windows, settled, same | ⟨request, added⟩⟩ := Controller.settle_spec lib c now id
  · rw [settled]
    exact undecided_of_windows rfl same
  · have placed := setCurrent_undecided lib c now
      (w := addSampleSegmentLocked lib (c.current lib now) request now)
      (fun all => (childKeys_accountable lib).segment _ request now
        ((childKeys_accountable lib).current all now))
      (addSampleSegmentLocked_spec lib _ request now).1
    rw [settled]
    exact placed.trans (undecided_of_windows rfl added)

lemma snapshotLocked_undecided (lib : ZoneLib) (c : Controller) (now : Nat) :
    Undecided lib c (c.snapshotLocked lib now).2 :=
  setCurrent_undecided lib c now (fun all =>
    (childKeys_accountable lib).segments now c.requests
      ((childKeys_accountable lib).current all now)) rfl

lemma enter_undecided (lib : ZoneLib) (c : Controller) (now : Nat)
    (qname matchedForwardZone : String) :
    Undecided lib c (c.enter lib now qname matchedForwardZone).2 := by
  rw [Controller.enter]
  dsimp only
  split
  · exact undecided_of_windows rfl rfl
  · exact undecided_of_windows rfl rfl

/-! ### One evaluation -/

section Judging

variable {lib : ZoneLib} {history : List Evaluation} {c : Controller}

/-- Without a candidate, or with a zone protected, nothing has to back the streak. -/
lemma Backed.forget (backed : Backed lib history c)
    (settled : c.protectedZone = "" → c.candidateZone = "") (history' : List Evaluation) :
    Backed lib history' c :=
  { backed with evidence := fun free named => absurd (settled free) named }

lemma leave_backed (backed : Backed lib history c) (avg : Rat) (history' : List Evaluation) :
    Backed lib history' (c.leave avg) where
  guarding := fun named => absurd rfl named
  idle := fun _ => ⟨rfl, rfl, rfl⟩
  streak := by simp [Controller.leave]
  labels := fun named => absurd rfl named
  candidate := fun named => absurd rfl named
  children := backed.children
  started := fun named => absurd rfl named
  evidence := fun _ named => absurd rfl named

/-- What entering observe mode leaves: the mode is on, the rest is as it was. -/
lemma enterObserve_backed (backed : Backed lib history c) (avg : Rat) :
    Backed lib history (c.enterObserve avg) ∧ (c.enterObserve avg).observeMode = true ∧
      (c.enterObserve avg).protectedZone = c.protectedZone := by
  rw [Controller.enterObserve]
  split
  · rename_i on
    exact ⟨backed, on, rfl⟩
  · refine ⟨?_, rfl, rfl⟩
    exact { backed with
      guarding := fun named => ⟨rfl, (backed.guarding named).2⟩
      idle := by
        intro off
        cases off }

/-- An evaluation for the candidate again extends the evidence, by a window if it is not
in the one of the last confirmation. -/
lemma Backed.confirmed (backed : Backed lib history c) (free : c.protectedZone = "")
    (named : c.candidateZone ≠ "") {ev : Evaluation} (pressed : ev.pressure = true)
    (selected : ev.selected = some c.candidateZone)
    (current : ∃ w ∈ c.windows.head?, w.start = ev.window) :
    ∃ recent, recent <:+ history ++ [ev] ∧ (∀ ev' ∈ recent, ev'.window ≤ ev.window) ∧
      Agreeing recent c.candidateZone c.candidateStreak ∧
      (ev.window ≠ c.lastCandidateWindow →
        Agreeing recent c.candidateZone (c.candidateStreak + 1)) := by
  obtain ⟨recent, ⟨earlier, parts⟩, agreeing, bound⟩ := backed.evidence free named
  obtain ⟨more, counted⟩ := agreeing.snoc pressed selected
  have last : c.lastCandidateWindow ≤ ev.window := by
    obtain ⟨w, head, start⟩ := current
    obtain ⟨w', head', le⟩ := backed.started named
    cases head.symm.trans head'
    omega
  refine ⟨recent ++ [ev], ⟨earlier, ?_⟩, ?_, more, ?_⟩
  · rw [← parts, List.append_assoc]
  · intro ev' mem
    rcases List.mem_append.mp mem with old | new
    · exact (bound ev' old).trans last
    · rw [List.mem_singleton.mp new]
  · intro other
    apply counted
    intro ev' mem
    have le := bound ev' mem
    omega

/-- A candidate that is selected is tracked, and the evaluation backs its streak. -/
lemma track_backed (backed : Backed lib history c) (on : c.observeMode = true)
    (free : c.protectedZone = "") {ev : Evaluation} {zone : String} (pressed : ev.pressure = true)
    (selected : ev.selected = some zone) (named : zone ≠ "")
    (labels : 2 ≤ (lib.splitDomainName zone).length)
    (current : ∃ w ∈ c.windows.head?, w.start = ev.window) :
    Backed lib (history ++ [ev]) (c.track zone ev.window) ∧
      (c.track zone ev.window).observeMode = true ∧
      (c.track zone ev.window).protectedZone = "" ∧
      (c.track zone ev.window).candidateZone = zone := by
  have starts : StartsFrom ev.window c := by
    obtain ⟨w, head, start⟩ := current
    exact ⟨w, head, start.ge⟩
  rw [Controller.track]
  split
  · -- another candidate: the evaluation alone
    refine ⟨?_, on, free, rfl⟩
    exact {
      guarding := fun zoned => absurd free zoned
      idle := fun off => absurd (on.symm.trans off) (by decide)
      streak := ⟨fun _ => named, fun _ => Nat.one_pos⟩
      labels := fun zoned => absurd free zoned
      candidate := fun _ => labels
      children := backed.children
      started := fun _ => starts
      evidence := fun _ _ => ⟨[ev], List.suffix_append _ _, .single pressed selected, by simp⟩ }
  rename_i same
  obtain rfl : zone = c.candidateZone := not_not.mp same
  obtain ⟨recent, ends, before, again, more⟩ := backed.confirmed free named pressed selected current
  split
  · -- a new window: the streak grows
    rename_i other
    refine ⟨?_, on, free, rfl⟩
    exact { backed with
      guarding := fun zoned => absurd free zoned
      idle := fun off => absurd (on.symm.trans off) (by decide)
      streak := ⟨fun _ => named, fun _ => Nat.succ_pos _⟩
      started := fun _ => starts
      evidence := fun _ _ => ⟨recent, ends, more other, before⟩ }
  · -- the window of the last confirmation
    rename_i confirmed
    have window : ev.window = c.lastCandidateWindow := not_not.mp confirmed
    refine ⟨?_, on, free, rfl⟩
    exact { backed with
      evidence := fun _ _ => ⟨recent, ends, again, window ▸ before⟩ }

/-- A streak of three is protected, and it is backed. -/
lemma protect_backed (backed : Backed lib history c) (on : c.observeMode = true)
    (free : c.protectedZone = "") (named : c.candidateZone ≠ "") :
    Backed lib history c.protect ∧
      (c.protect.protectedZone ≠ "" → Sustained history c.protect.protectedZone 3) := by
  obtain ⟨recent, ends, agreeing, _⟩ := backed.evidence free named
  rw [Controller.protect]
  split
  · rename_i long
    refine ⟨?_, ?_⟩
    · exact { backed with
        guarding := fun _ => ⟨on, rfl, long⟩
        idle := fun off => absurd (on.symm.trans off) (by decide)
        labels := fun _ => backed.candidate named
        evidence := fun unprotected _ => absurd unprotected named }
    · intro _
      exact ⟨recent, ends, agreeing.agree, long.trans agreeing.windows⟩
  · exact ⟨backed, fun zoned => absurd free zoned⟩

/-- A judgement keeps the streak backed, and protects a zone only on sustained evidence. -/
theorem judge_backed (rules : LabelRules lib) (backed : Backed lib history c) (reading : Reading)
    {snapshot : Snapshot} (children : ChildMap lib snapshot.aggregatedChild)
    (current : ∃ w ∈ c.windows.head?, w.start = snapshot.currentWindowStart) :
    Backed lib (history ++ [judgement lib reading snapshot c]) (c.judge lib reading snapshot) ∧
      (c.protectedZone = "" → (c.judge lib reading snapshot).protectedZone ≠ "" →
        Sustained (history ++ [judgement lib reading snapshot c])
          (c.judge lib reading snapshot).protectedZone 3) := by
  obtain ⟨observed, on, zone⟩ := enterObserve_backed backed snapshot.currentGlobalAvg
  have books := Controller.enterObserve_sameBooks c snapshot.currentGlobalAvg
  simp only [Controller.judge]
  split
  · -- nothing to observe
    rename_i calm
    have idle := backed.idle calm.1
    have kept := backed.forget (fun _ => idle.2.1) (history ++ [judgement lib reading snapshot c])
    exact ⟨kept.undecided (undecided_of_windows rfl rfl),
      fun free zoned => absurd free zoned⟩
  split
  · -- a zone is protected
    rename_i zoned
    have guarded : c.protectedZone ≠ "" := by
      rw [← zone]
      exact zoned
    split
    · exact ⟨leave_backed observed _ _, fun _ left => absurd rfl left⟩
    · exact ⟨observed.forget (fun free => absurd free zoned) _, fun free => absurd free guarded⟩
  rename_i unzoned
  have free : c.protectedZone = "" := by
    rw [← zone]
    exact not_not.mp unzoned
  split
  · exact ⟨leave_backed observed _ _, fun _ left => absurd rfl left⟩
  rename_i pressed
  have pressed : pressure reading snapshot.currentGlobalAvg = true := by
    rw [Bool.not_eq_false] at pressed
    exact pressed
  split
  · -- no candidate
    refine ⟨?_, fun _ zoned => absurd (not_not.mp unzoned) zoned⟩
    exact { observed with
      guarding := fun zoned => absurd (not_not.mp unzoned) zoned
      idle := fun off => absurd (on.symm.trans off) (by decide)
      streak := by simp
      candidate := fun named => absurd rfl named
      started := fun named => absurd rfl named
      evidence := fun _ named => absurd rfl named }
  · rename_i named
    have selected : (judgement lib reading snapshot c).selected =
        some (snapshot.selectCandidate lib) := if_pos ⟨pressed, free⟩
    have window : ∃ w ∈ (c.enterObserve snapshot.currentGlobalAvg).windows.head?,
        w.start = (judgement lib reading snapshot c).window := by
      rw [books.windows]
      exact current
    obtain ⟨tracked, on', free', candidate⟩ := track_backed observed on (zone.trans free) pressed
      selected named (selectCandidate_labels rules children named) window
    have guarded := protect_backed tracked on' free' (by rw [candidate]; exact named)
    exact ⟨guarded.1, fun _ => guarded.2⟩

end Judging

/-! ### Runs -/

section Runs

variable {lib : ZoneLib} (rules : LabelRules lib)

/-- What one stretch of a run does: the new evaluations keep the streak backed, and a
zone that comes under protection has sustained evidence for it. -/
def Carries (lib : ZoneLib) (c : Controller) (new : List Evaluation) (c' : Controller) : Prop :=
  ∀ history, Backed lib history c → Backed lib (history ++ new) c' ∧
    (c.protectedZone = "" → c'.protectedZone ≠ "" →
      Sustained (history ++ new) c'.protectedZone 3)

lemma Undecided.carries {c c' : Controller} (same : Undecided lib c c') : Carries lib c [] c' := by
  intro history backed
  rw [List.append_nil]
  refine ⟨backed.undecided same, ?_⟩
  intro free zoned
  rw [same.protectedZone] at zoned
  exact absurd free zoned

/-- What is not decided before and after a stretch changes nothing of it. -/
lemma Carries.between {a b c d : Controller} {new : List Evaluation} (before : Undecided lib a b)
    (carries : Carries lib b new c) (after : Undecided lib c d) : Carries lib a new d := by
  intro history backed
  obtain ⟨kept, entered⟩ := carries history (backed.undecided before)
  refine ⟨kept.undecided after, ?_⟩
  intro free zoned
  rw [after.protectedZone] at zoned ⊢
  exact entered (before.protectedZone.trans free) zoned

include rules

lemma evaluateLocked_carries (reading : Reading) (c : Controller) (now : Nat) :
    Carries lib c [evaluation lib reading c now] (c.evaluateLocked lib reading now) := by
  intro history backed
  have same := snapshotLocked_undecided lib c now
  have current := (childKeys_accountable lib).current backed.children now
  have children : ChildMap lib (c.snapshotLocked lib now).1.aggregatedChild :=
    snapshotOf_childMap now ((childKeys_accountable lib).segments now c.requests current)
      fun w mem => backed.children w (List.mem_of_mem_tail mem)
  have start : (c.current lib now).start = (c.snapshotLocked lib now).1.currentWindowStart :=
    (addSegments_spec lib now (c.current lib now) c.requests).1.symm
  obtain ⟨kept, entered⟩ := judge_backed rules (backed.undecided same) reading children
    ⟨_, rfl, start⟩
  exact ⟨kept, fun free => entered (same.protectedZone.trans free)⟩

lemma maybeEvaluateLocked_carries (reading : Reading) (c : Controller) (now : Nat)
    (rotated : Bool) :
    Carries lib c (dueEvaluations lib reading c now rotated)
      (c.maybeEvaluateLocked lib reading now rotated) := by
  rw [dueEvaluations, Controller.maybeEvaluateLocked]
  split
  · have here : Undecided lib c c := undecided_of_windows rfl rfl
    exact (evaluateLocked_carries rules reading c now).between here
      (undecided_of_windows rfl rfl)
  · exact Undecided.carries (undecided_of_windows rfl rfl)

theorem step_carries (c : Controller) (e : Event) :
    Carries lib c (evaluations lib c e) (step lib c e) := by
  cases e with
  | tryEnter now qname matchedForwardZone reading =>
    exact (maybeEvaluateLocked_carries rules reading _ now _).between
      (rotateLocked_undecided lib c now) (enter_undecided lib _ now qname matchedForwardZone)
  | release now id reading =>
    rw [evaluations, step, Controller.release]
    split
    · exact Undecided.carries (undecided_of_windows rfl rfl)
    · exact (maybeEvaluateLocked_carries rules reading _ now _).between
        ((rotateLocked_undecided lib c now).trans (settle_undecided lib _ now id))
        (undecided_of_windows rfl rfl)
  | evaluate now reading => exact evaluateLocked_carries rules reading c now

end Runs

/-- In every state that calls reach from a new controller, at whatever times they come,
the state of protection is consistent. A call that protects a zone leaves a history that
ends with evaluations in three windows, all under pressure and all for that zone. -/
theorem protected_on_sustained_evidence {lib : ZoneLib} (rules : LabelRules lib)
    (baseSuffixes : List String) (events : List Event) :
    let new := newHotZoneController lib baseSuffixes
    let c := StepRuns.run (step lib) new events
    let history := StepRuns.emitted (step lib) (evaluations lib) new events
    Consistent lib c ∧ ∀ e, c.protectedZone = "" → (step lib c e).protectedZone ≠ "" →
      Sustained (history ++ evaluations lib c e) (step lib c e).protectedZone 3 := by
  intro new c history
  have backed : Backed lib history c :=
    StepRuns.emitted_invariant (step lib) (evaluations lib) (P := Backed lib)
      (fun past s e before => (step_carries rules s e past before).1)
      (backed_new lib baseSuffixes) events
  refine ⟨backed.toConsistent, ?_⟩
  intro e
  exact (step_carries rules c e history backed).2

/-- Requests for one zone that stay active under full load: the call in the third window
protects it. -/
theorem third_window_protects :
    let busy : Reading := ⟨100, 1⟩
    let new := newHotZoneController namesZoneLib []
    let events : List Event := [.tryEnter (10 * second) "x.y." "" busy,
      .tryEnter (12 * second) "x.y." "" busy, .tryEnter (16 * second) "x.y." "" busy]
    let c := StepRuns.run (step namesZoneLib) new events
    let last : Event := .tryEnter (21 * second) "x.y." "" busy
    c.protectedZone = "" ∧ (step namesZoneLib c last).protectedZone = "x.y." ∧
      Consistent namesZoneLib c ∧
      Sustained (StepRuns.emitted (step namesZoneLib) (evaluations namesZoneLib) new events ++
        evaluations namesZoneLib c last) (step namesZoneLib c last).protectedZone 3 := by
  intro busy new events c last
  have free : c.protectedZone = "" := by decide +kernel
  have zoned : (step namesZoneLib c last).protectedZone = "x.y." := by decide +kernel
  obtain ⟨consistent, sustained⟩ :=
    protected_on_sustained_evidence (labelRules_of_zoneRules namesZoneLib_rules) [] events
  exact ⟨free, zoned, consistent, sustained last free (by rw [zoned]; decide)⟩

end ZoneProtection
