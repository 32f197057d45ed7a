import Rec53.BestScan
import Rec53.ZoneProtection

/-!
# The hottest zone

`selectCandidate` scans two maps, and Go visits the entries of a map in any order. Both scans
keep the larger occupancy and the smaller key among equals, from an empty key with no
occupancy on. That start loses to every positive occupancy and wins against every other one,
so what the scan finds does not depend on the order.

No child has the empty name: `addSampleSegmentLocked` adds none under it.
-/

namespace HotspotChoice

open KeyedTotals HotZone HotZoneEvidence ZoneProtection BestScan

/-! ### One scan -/

/-- A larger occupancy, or the same one under a smaller key. -/
def Beats (e best : String × Nat) : Prop := best.2 < e.2 ∨ e.2 = best.2 ∧ e.1 < best.1

instance : DecidableRel Beats := fun e best =>
  inferInstanceAs (Decidable (best.2 < e.2 ∨ e.2 = best.2 ∧ e.1 < best.1))

instance : IsStrictTotalOrder (String × Nat) Beats where
  irrefl e := by
    rintro (more | ⟨-, less⟩)
    · exact Nat.lt_irrefl _ more
    · exact String.lt_irrefl _ less
  trans a b c := by
    rintro (more | ⟨same, less⟩) (more' | ⟨same', less'⟩)
    · exact .inl (Nat.lt_trans more' more)
    · exact .inl (same' ▸ more)
    · exact .inl (same ▸ more')
    · exact .inr ⟨same.trans same', String.lt_trans less less'⟩
  trichotomous a b := by
    intro unbeaten_a unbeaten_b
    rw [Beats, not_or, Nat.not_lt, not_and] at unbeaten_a unbeaten_b
    have same := Nat.le_antisymm unbeaten_a.1 unbeaten_b.1
    have le := String.not_lt.mp (unbeaten_a.2 same)
    have ge := String.not_lt.mp (unbeaten_b.2 same.symm)
    exact Prod.ext (String.le_antisymm ge le) same

lemma not_lt_empty (key : String) : ¬ key < "" := by
  rw [String.lt_iff]
  exact List.not_lt_nil _

lemma largest_eq_scan (entries : List (String × Nat)) :
    largest entries = scan Beats ("", 0) entries := rfl

lemma largest_perm {entries entries' : List (String × Nat)} (perm : entries.Perm entries') :
    largest entries = largest entries' := by
  rw [largest_eq_scan, largest_eq_scan]
  exact scan_perm perm

/-- The least of the keys with the largest occupancy. -/
structure Hottest (entries : List (String × Nat)) (key : String) (occupancy : Nat) : Prop where
  listed : (key, occupancy) ∈ entries
  maximal : ∀ e ∈ entries, e.2 ≤ occupancy
  least : ∀ e ∈ entries, e.2 = occupancy → key ≤ e.1

variable {entries : List (String × Nat)} {key : String} {occupancy : Nat}

lemma largest_of_hottest (hot : Hottest entries key occupancy) (positive : 0 < occupancy) :
    largest entries = (key, occupancy) := by
  rw [largest_eq_scan]
  apply scan_eq (List.mem_cons_of_mem _ hot.listed)
  intro e mem
  rcases List.mem_cons.mp mem with rfl | mem
  · rintro (more | ⟨same, -⟩)
    · exact Nat.not_lt_zero _ more
    · exact Nat.ne_of_lt positive same
  · rintro (more | ⟨same, less⟩)
    · exact Nat.not_lt.mpr (hot.maximal e mem) more
    · exact String.not_lt.mpr (hot.least e mem same) less

lemma largest_of_zero (zero : ∀ e ∈ entries, e.2 = 0) : largest entries = ("", 0) := by
  rw [largest_eq_scan]
  apply scan_eq List.mem_cons_self
  intro e mem
  rcases List.mem_cons.mp mem with rfl | mem
  · exact irrefl_of Beats _
  · rintro (more | ⟨-, less⟩)
    · exact Nat.lt_irrefl 0 (zero e mem ▸ more)
    · exact not_lt_empty _ less

/-- With some occupancy there is a hottest key. -/
lemma exists_hottest (some_hot : ∃ e ∈ entries, 0 < e.2) :
    ∃ key occupancy, Hottest entries key occupancy ∧ 0 < occupancy := by
  obtain ⟨e, mem, positive⟩ := some_hot
  have unbeaten := scan_unbeaten Beats ("", 0) entries
  have found := scan_mem Beats ("", 0) entries
  generalize scan Beats ("", 0) entries = best at unbeaten found
  have above : ∀ e ∈ entries, e.2 ≤ best.2 := fun e mem =>
    Nat.not_lt.mp fun more => unbeaten e (List.mem_cons_of_mem _ mem) (.inl more)
  have positive := Nat.lt_of_lt_of_le positive (above e mem)
  have listed : best ∈ entries := by
    rcases List.mem_cons.mp found with rfl | listed
    · exact absurd positive (Nat.lt_irrefl 0)
    · exact listed
  refine ⟨best.1, best.2, ⟨listed, above, ?_⟩, positive⟩
  intro e mem same
  exact String.not_lt.mp fun less => unbeaten e (List.mem_cons_of_mem _ mem) (.inr ⟨same, less⟩)

/-! ### The candidate of a snapshot -/

/-- The entries of the coarse map. -/
def coarse (s : Snapshot) : List (String × Nat) :=
  s.aggregatedCoarse.entries.map fun e => (e.1, e.2)

/-- The entries of the map of children of a key. -/
def children (s : Snapshot) (key : String) : List (String × Nat) :=
  ((s.aggregatedChild.lookup key).getD ∅).entries.map fun e => (e.1, e.2)

/-- The coarse keys of at least two labels. -/
def zones (lib : ZoneLib) (s : Snapshot) : List (String × Nat) :=
  (coarse s).filter fun e => 2 ≤ (lib.splitDomainName e.1).length

/-- The two snapshots have the same maps, each in some order. -/
structure SameMaps (s s' : Snapshot) : Prop where
  coarse : (coarse s).Perm (coarse s')
  children : ∀ key, (children s key).Perm (children s' key)

def NamedChildren (s : Snapshot) : Prop := ∀ key, ∀ e ∈ children s key, e.1 ≠ ""

/-- What the first loop considers. -/
def considered (lib : ZoneLib) (s : Snapshot) : List (String × Nat) :=
  (coarse s).filter fun e => 0 < e.2 ∧ hotZoneIsPublicSuffixLike lib e.1 = false

/-- The second half of `selectCandidate`: the hottest child, if it dominates. -/
def dominant (hottest child : String × Nat) : String :=
  if child.1 = "" ∨ child.2 = 0 then hottest.1
  else if hottest.2 * hotZoneChildDominanceThreshold ≤ (child.2 : Rat) then child.1
  else hottest.1

lemma selectCandidate_eq (lib : ZoneLib) (s : Snapshot) :
    s.selectCandidate lib =
      if (largest (considered lib s)).1 = "" ∨ (largest (considered lib s)).2 = 0 then ""
      else dominant (largest (considered lib s))
        (largest (children s (largest (considered lib s)).1)) := rfl

section Candidate

variable {lib : ZoneLib} {s : Snapshot}

lemma mem_considered {e : String × Nat} :
    e ∈ considered lib s ↔ e ∈ zones lib s ∧ 0 < e.2 := by
  have suffix : hotZoneIsPublicSuffixLike lib e.1 = false ↔
      2 ≤ (lib.splitDomainName e.1).length := by
    rw [hotZoneIsPublicSuffixLike, decide_eq_false_iff_not]
    omega
  rw [considered, zones, List.mem_filter, List.mem_filter, decide_eq_true_iff, decide_eq_true_iff,
    suffix]
  tauto

lemma hottest_considered (hot : Hottest (zones lib s) key occupancy) (positive : 0 < occupancy) :
    Hottest (considered lib s) key occupancy where
  listed := mem_considered.mpr ⟨hot.listed, positive⟩
  maximal e mem := hot.maximal e (mem_considered.mp mem).1
  least e mem := hot.least e (mem_considered.mp mem).1

/-- The empty name has no label. -/
lemma hottest_named (nameless : lib.splitDomainName "" = [])
    (hot : Hottest (zones lib s) key occupancy) : key ≠ "" := by
  have labels : 2 ≤ (lib.splitDomainName key).length :=
    of_decide_eq_true (List.mem_filter.mp hot.listed).2
  rintro rfl
  rw [nameless] at labels
  exact absurd labels (by decide)

lemma dominant_ne_empty {hottest child : String × Nat} (named : hottest.1 ≠ "") :
    dominant hottest child ≠ "" := by
  rw [dominant]
  split
  · exact named
  · rename_i found
    split
    · exact fun empty => found (.inl empty)
    · exact named

lemma selectCandidate_of_hottest (nameless : lib.splitDomainName "" = [])
    (hot : Hottest (zones lib s) key occupancy) (positive : 0 < occupancy) :
    s.selectCandidate lib = dominant (key, occupancy) (largest (children s key)) := by
  have named := hottest_named nameless hot
  have found := largest_of_hottest (hottest_considered hot positive) positive
  rw [selectCandidate_eq, found]
  dsimp only
  rw [if_neg (not_or.mpr ⟨named, Nat.ne_of_gt positive⟩)]

lemma selectCandidate_empty_iff (nameless : lib.splitDomainName "" = []) :
    s.selectCandidate lib = "" ↔ ∀ e ∈ zones lib s, e.2 = 0 := by
  by_cases some_hot : ∃ e ∈ zones lib s, 0 < e.2
  · obtain ⟨key, occupancy, hot, positive⟩ := exists_hottest some_hot
    have named := hottest_named nameless hot
    have chosen : s.selectCandidate lib ≠ "" := by
      rw [selectCandidate_of_hottest nameless hot positive]
      exact dominant_ne_empty named
    refine ⟨fun empty => absurd empty chosen, fun zero => ?_⟩
    exact absurd (zero _ hot.listed) (Nat.ne_of_gt positive)
  · have zero : ∀ e ∈ zones lib s, e.2 = 0 := by
      intro e mem
      exact Nat.eq_zero_of_not_pos fun positive => some_hot ⟨e, mem, positive⟩
    have none_left : ∀ e ∈ considered lib s, e.2 = 0 := fun e mem =>
      zero e (mem_considered.mp mem).1
    refine ⟨fun _ => zero, fun _ => ?_⟩
    rw [selectCandidate_eq, largest_of_zero none_left, if_pos (.inl rfl)]

/-- The order of the entries does not matter. -/
lemma selectCandidate_perm {s' : Snapshot} (same : SameMaps s s') :
    s'.selectCandidate lib = s.selectCandidate lib := by
  have first : largest (considered lib s') = largest (considered lib s) :=
    (largest_perm (same.coarse.filter _)).symm
  rw [selectCandidate_eq, selectCandidate_eq, first]
  generalize largest (considered lib s) = hottest
  have second : largest (children s' hottest.1) = largest (children s hottest.1) :=
    (largest_perm (same.children hottest.1)).symm
  rw [second]

lemma dominant_of_hottest {child : String} {childOccupancy : Nat} (named : child ≠ "")
    (hot : Hottest (children s key) child childOccupancy) :
    dominant (key, occupancy) (largest (children s key)) =
      if 0 < childOccupancy ∧ (occupancy : Rat) * (80 / 100) ≤ childOccupancy then child
      else key := by
  by_cases positive : 0 < childOccupancy
  · have found := largest_of_hottest hot positive
    have present : ¬ (child = "" ∨ childOccupancy = 0) :=
      not_or.mpr ⟨named, Nat.ne_of_gt positive⟩
    have threshold : hotZoneChildDominanceThreshold = 80 / 100 := by decide +kernel
    rw [found, dominant, if_neg present, threshold]
    simp only [positive, true_and]
  · have zero : ∀ e ∈ children s key, e.2 = 0 := by
      intro e mem
      have le := hot.maximal e mem
      omega
    rw [largest_of_zero zero, dominant, if_pos (.inl rfl), if_neg fun both => positive both.1]

end Candidate

/-! ### Snapshots of a run -/

lemma namedChildren_of_childMap {lib : ZoneLib} {s : Snapshot}
    (map : ChildMap lib s.aggregatedChild) : NamedChildren s := by
  intro key e mem
  obtain ⟨entry, listed, rfl⟩ := List.mem_map.mp mem
  exact (map key entry.1 (List.mem_map_of_mem listed)).1

def AllChildKeys (lib : ZoneLib) (c : Controller) : Prop := ∀ w ∈ c.windows, ChildKeys lib w

lemma evaluateLocked_childKeys {lib : ZoneLib} {c : Controller} (all : AllChildKeys lib c)
    (reading : Reading) (now : Nat) : AllChildKeys lib (c.evaluateLocked lib reading now) := by
  have judged := Controller.judge_sameBooks lib reading (c.snapshotLocked lib now).1
    (c.snapshotLocked lib now).2
  rw [AllChildKeys, Controller.evaluateLocked, judged.windows]
  exact (snapshotLocked_undecided lib c now).children all

lemma maybeEvaluateLocked_childKeys {lib : ZoneLib} {c : Controller} (all : AllChildKeys lib c)
    (reading : Reading) (now : Nat) (rotated : Bool) :
    AllChildKeys lib (c.maybeEvaluateLocked lib reading now rotated) := by
  rw [Controller.maybeEvaluateLocked]
  split
  · exact evaluateLocked_childKeys all reading now
  · exact all

lemma step_childKeys {lib : ZoneLib} {c : Controller} (e : Event) (all : AllChildKeys lib c) :
    AllChildKeys lib (step lib c e) := by
  cases e with
  | tryEnter now qname matchedForwardZone reading =>
    have rotated := (rotateLocked_undecided lib c now).children all
    exact (enter_undecided lib _ now qname matchedForwardZone).children
      (maybeEvaluateLocked_childKeys rotated reading now _)
  | release now id reading =>
    rw [step, Controller.release]
    split
    · exact all
    · have rotated := (rotateLocked_undecided lib c now).children all
      exact maybeEvaluateLocked_childKeys
        ((settle_undecided lib _ now id).children rotated) reading now _
  | evaluate now reading => exact evaluateLocked_childKeys all reading now

lemma evaluates_childKeys {lib : ZoneLib} {c c' : Controller} {e : Event} {now : Nat}
    {reading : Reading} (all : AllChildKeys lib c) (evaluates : Evaluates lib c e c' now reading) :
    AllChildKeys lib c' := by
  cases e with
  | tryEnter now' qname matchedForwardZone reading' =>
    obtain ⟨-, rfl, -, -⟩ := evaluates
    exact (rotateLocked_undecided lib c now').children all
  | release now' id reading' =>
    obtain ⟨-, -, rfl, -, -⟩ := evaluates
    have rotated := (rotateLocked_undecided lib c now').children all
    exact (settle_undecided lib _ now' id).children rotated
  | evaluate now' reading' =>
    obtain ⟨rfl, -, -⟩ := evaluates
    exact all

/-- Every snapshot that an evaluation takes names its children. -/
lemma snapshot_namedChildren {lib : ZoneLib} {c : Controller} (all : AllChildKeys lib c)
    (now : Nat) : NamedChildren (c.snapshotLocked lib now).1 := by
  apply namedChildren_of_childMap
  refine snapshotOf_childMap now ?_ fun w mem => all w (List.mem_of_mem_tail mem)
  exact (childKeys_accountable lib).segments now c.requests
    ((childKeys_accountable lib).current all now)

/-- For every snapshot. The candidate is the same in every order of the maps. It is empty exactly
when no key of two labels has any occupancy. Otherwise it is the least of the hottest children
of the least of the hottest keys if that child has some occupancy and 80% of the key's, and the
key if not. The child must have a name, as all children have in the snapshots of a run. -/
theorem selectCandidate_well_defined (lib : ZoneLib) (nameless : lib.splitDomainName "" = []) :
    (∀ s,
      (∀ s', SameMaps s s' → s'.selectCandidate lib = s.selectCandidate lib) ∧
      (s.selectCandidate lib = "" ↔ ∀ e ∈ zones lib s, e.2 = 0) ∧
      ∀ key occupancy, Hottest (zones lib s) key occupancy → 0 < occupancy →
        (children s key = [] → s.selectCandidate lib = key) ∧
        ∀ child childOccupancy, Hottest (children s key) child childOccupancy → child ≠ "" →
          s.selectCandidate lib =
            if 0 < childOccupancy ∧ (occupancy : Rat) * (80 / 100) ≤ childOccupancy then child
            else key) ∧
    ∀ baseSuffixes events e c now reading,
      Evaluates lib (StepRuns.run (step lib) (newHotZoneController lib baseSuffixes) events) e c now
        reading → NamedChildren (c.snapshotLocked lib now).1 := by
  constructor
  · intro s
    refine ⟨fun s' same => selectCandidate_perm same, selectCandidate_empty_iff nameless, ?_⟩
    intro key occupancy hot positive
    rw [selectCandidate_of_hottest nameless hot positive]
    constructor
    · intro childless
      rw [childless]
      rfl
    · intro child childOccupancy hot_child named
      exact dominant_of_hottest named hot_child
  · intro baseSuffixes events e c now reading evaluates
    have start : AllChildKeys lib (newHotZoneController lib baseSuffixes) := by
      intro w mem
      cases mem
    have reached := StepRuns.run_preserves (step lib) (P := AllChildKeys lib)
      (fun c e all => step_childKeys e all) start events
    exact snapshot_namedChildren (evaluates_childKeys reached evaluates) now

/-- Four fifths of the time of the zone went to one name in it. -/
def shopSnapshot : Snapshot where
  currentWindowStart := 0
  currentElapsed := 1
  currentGlobalAvg := 100
  aggregatedGlobal := 100
  aggregatedCoarse := add (add ∅ "test." 500) "shop.test." 100
  aggregatedChild := (∅ : AList fun _ : String => Totals String).insert "shop.test."
    (add ∅ "a.shop.test." 80)

theorem shop_child_chosen :
    Hottest (zones plainZoneLib shopSnapshot) "shop.test." 100 ∧
      Hottest (children shopSnapshot "shop.test.") "a.shop.test." 80 ∧
      shopSnapshot.selectCandidate plainZoneLib = "a.shop.test." := by
  have listed : children shopSnapshot "shop.test." = [("a.shop.test.", 80)] := by decide +kernel
  have considered : zones plainZoneLib shopSnapshot = [("shop.test.", 100)] := by decide +kernel
  have zone : Hottest (zones plainZoneLib shopSnapshot) "shop.test." 100 := by
    rw [considered]
    exact ⟨by simp, by simp, by simp⟩
  have child : Hottest (children shopSnapshot "shop.test.") "a.shop.test." 80 := by
    rw [listed]
    exact ⟨by simp, by simp, by simp⟩
  obtain ⟨-, -, chosen⟩ := (selectCandidate_well_defined plainZoneLib (by decide)).1 shopSnapshot
  refine ⟨zone, child, ((chosen _ _ zone (by decide)).2 _ _ child (by decide)).trans ?_⟩
  rw [if_pos]
  decide +kernel

end HotspotChoice
