import Rec53.IPQuality
import Rec53.RingWindow
import Mathlib.Algebra.Order.Ring.Rat
import Mathlib.Data.List.GetD
import Mathlib.Tactic.Linarith
import Mathlib.Tactic.NormNum

/-!
# What a tracker knows of the past

The ring of a tracker, its percentiles and its confidence against the list of all
latencies recorded so far. Failures and resets leave the ring alone, so after any history
it holds the last 64 latencies. The percentiles are those of the ring at the last
RecordLatency. The confidence is ten for each sample up to 100, but it goes through a
uint8 before it is cut, so it falls when the product passes a multiple of 256.
-/

namespace LatencyWindow

open IPQuality RingWindow

def latency? : Call → Option Int
  | .recordLatency _ latency => some latency
  | .recordFailure _ | .resetForProbe _ => none

/-- The latencies recorded, in order. -/
def latencies (calls : List Call) : List Int := calls.filterMap latency?

lemma latencies_snoc (calls : List Call) (c : Call) :
    latencies (calls ++ [c]) = latencies calls ++ (latency? c).toList := by
  rw [latencies, List.filterMap_append]
  cases c with
  | recordLatency | recordFailure | resetForProbe => rfl

/-- The last 64 of them. -/
def lastSamples (xs : List Int) : List Int := xs.drop (xs.length - 64)

/-! ### The ring over a history -/

structure SameWindow (iq iq' : IPQualityV2) : Prop where
  samples : iq'.samples = iq.samples
  nextIdx : iq'.nextIdx = iq.nextIdx
  sampleCount : iq'.sampleCount = iq.sampleCount
  confidence : iq'.confidence = iq.confidence

lemma updatePercentiles_sameWindow (iq : IPQualityV2) : SameWindow iq (updatePercentiles iq) := by
  rw [updatePercentiles]
  split
  · exact ⟨rfl, rfl, rfl, rfl⟩
  · exact ⟨rfl, rfl, rfl, rfl⟩

lemma recordFailure_sameWindow (convert : Int → Int) (iq : IPQualityV2) (now : Nat) :
    SameWindow iq (recordFailure convert iq now) := by
  simp only [recordFailure]
  split
  · exact ⟨rfl, rfl, rfl, rfl⟩
  split
  · exact ⟨rfl, rfl, rfl, rfl⟩
  · exact ⟨rfl, rfl, rfl, rfl⟩

/-- The ring of the tracker is what the latencies `xs` leave in it. -/
structure Tracks (xs : List Int) (iq : IPQualityV2) : Prop where
  ring : Holds iq.samples.toList xs
  nextIdx : iq.nextIdx.toNat = xs.length % 64
  sampleCount : iq.sampleCount.toNat = min xs.length 64
  confidence : iq.confidence = confidenceOf iq.sampleCount

lemma Tracks.of_same {xs : List Int} {iq iq' : IPQualityV2} (tracks : Tracks xs iq)
    (same : SameWindow iq iq') : Tracks xs iq' := by
  obtain ⟨samples, nextIdx, sampleCount, confidence⟩ := same
  refine ⟨?_, ?_, ?_, ?_⟩
  · rw [samples]
    exact tracks.ring
  · rw [nextIdx]
    exact tracks.nextIdx
  · rw [sampleCount]
    exact tracks.sampleCount
  · rw [confidence, sampleCount]
    exact tracks.confidence

lemma newIPQualityV2_tracks (created : Nat) : Tracks [] (newIPQualityV2 created) :=
  ⟨holds_nil _, rfl, rfl, rfl⟩

lemma sampleCount_next {n : UInt8} {k : Nat} (counts : n.toNat = min k 64) :
    (if n < 64 then n + 1 else n).toNat = min (k + 1) 64 := by
  split
  · rename_i room
    have below : n.toNat < 64 := UInt8.lt_iff_toNat_lt.mp room
    rw [UInt8.toNat_add]
    change (n.toNat + 1) % 256 = min (k + 1) 64
    omega
  · rename_i full
    have above : ¬ n.toNat < 64 := fun below => full (UInt8.lt_iff_toNat_lt.mpr below)
    omega

lemma nextIdx_next {i : UInt8} {k : Nat} (here : i.toNat = k % 64) :
    ((i + 1) % 64).toNat = (k + 1) % 64 := by
  rw [UInt8.toNat_mod, UInt8.toNat_add]
  change (i.toNat + 1) % 256 % 64 = (k + 1) % 64
  omega

/-- The ring and the confidence that RecordLatency leaves for `updatePercentiles`. -/
lemma pushSample_tracks {xs : List Int} {iq : IPQualityV2} (tracks : Tracks xs iq)
    (latency : Int) (now : Nat) :
    Tracks (xs ++ [latency])
      { pushSample iq latency with
        confidence := confidenceOf (pushSample iq latency).sampleCount
        failCount := 0
        state := .active
        lastUpdate := now
        lastSeen := now } := by
  have longer : (xs ++ [latency]).length = xs.length + 1 := List.length_append
  refine ⟨?_, ?_, ?_, rfl⟩
  · have written := tracks.ring.write (by simp) latency
    rw [Vector.length_toList, ← tracks.nextIdx] at written
    change Holds (iq.samples.set iq.nextIdx.toNat latency iq.idx_lt).toList (xs ++ [latency])
    rw [Vector.toList_set]
    exact written
  · rw [longer]
    exact nextIdx_next tracks.nextIdx
  · rw [longer]
    exact sampleCount_next tracks.sampleCount

lemma recordLatency_tracks {xs : List Int} {iq : IPQualityV2} (tracks : Tracks xs iq)
    (now : Nat) (latency : Int) : Tracks (xs ++ [latency]) (recordLatency iq now latency) :=
  (pushSample_tracks tracks latency now).of_same (updatePercentiles_sameWindow _)

theorem run_tracks (convert : Int → Int) (created : Nat) (calls : List Call) :
    Tracks (latencies calls)
      (StepRuns.run (perform convert) (newIPQualityV2 created) calls) := by
  refine StepRuns.past_preserves (perform convert)
    (P := fun past iq => Tracks (latencies past) iq) ?_ (newIPQualityV2_tracks created) calls
  intro past iq c tracks
  rw [latencies_snoc]
  cases c with
  | recordLatency now latency => exact recordLatency_tracks tracks now latency
  | recordFailure now =>
    rw [latency?, Option.toList_none, List.append_nil]
    exact tracks.of_same (recordFailure_sameWindow convert iq now)
  | resetForProbe now =>
    rw [latency?, Option.toList_none, List.append_nil]
    exact tracks.of_same ⟨rfl, rfl, rfl, rfl⟩

/-! ### The percentiles -/

/-- The element at an index of the last samples, sorted. -/
def sortedAt (xs : List Int) (i : Nat) : Option Int :=
  ((lastSamples xs).insertionSort (· ≤ ·))[i]?

/-- Slots, counter and percentiles of a tracker that has recorded the latencies `xs`; `m`
of them are still there. -/
structure ShowsLast (xs : List Int) (m : Nat) (iq : IPQualityV2) : Prop where
  sampleCount : iq.sampleCount.toNat = m
  slots : (iq.samples.toList.take m).Perm (lastSamples xs)
  p50 : sortedAt xs (m / 2) = some iq.p50
  p95 : sortedAt xs (min (m - 1) (m * 95 / 100)) = some iq.p95
  p99 : sortedAt xs (min (m - 1) (m * 99 / 100)) = some iq.p99
  ordered : iq.p50 ≤ iq.p95 ∧ iq.p95 ≤ iq.p99

lemma length_lastSamples (xs : List Int) : (lastSamples xs).length = min xs.length 64 := by
  rw [lastSamples, List.length_drop]
  omega

lemma Tracks.slots {xs : List Int} {iq : IPQualityV2} (tracks : Tracks xs iq) :
    (iq.samples.toList.take (min xs.length 64)).Perm (lastSamples xs) := by
  have window := tracks.ring.perm (m := min xs.length 64) (by rw [Vector.length_toList])
  rwa [show xs.length - min xs.length 64 = xs.length - 64 by omega] at window

lemma Tracks.sortedSamples_eq {xs : List Int} {iq : IPQualityV2} (tracks : Tracks xs iq) :
    sortedSamples iq = (lastSamples xs).insertionSort (· ≤ ·) := by
  rw [sortedSamples, tracks.sampleCount]
  have same := (List.perm_insertionSort (· ≤ ·) _).trans tracks.slots
  exact List.Perm.eq_of_pairwise' (List.pairwise_insertionSort _ _)
    (List.pairwise_insertionSort _ _) (same.trans (List.perm_insertionSort _ _).symm)

lemma percentileIdx_eq {percent count : Nat} (positive : 0 < count) :
    percentileIdx percent count = min (count - 1) (count * percent / 100) := by
  simp only [percentileIdx]
  split
  · omega
  · omega

lemma getElem?_eq_getD {l : List Int} {i : Nat} (inside : i < l.length) :
    l[i]? = some (l.getD i 0) := by
  rw [List.getElem?_eq_getElem inside, List.getD_eq_getElem _ _ inside]

lemma getD_le_getD {α : Type*} [Preorder α] {l : List α} (sorted : l.SortedLE) {i j : Nat}
    (before : i ≤ j) (inside : j < l.length) {d : α} : l.getD i d ≤ l.getD j d := by
  rw [List.getD_eq_getElem _ _ inside, List.getD_eq_getElem _ _ (Nat.lt_of_le_of_lt before inside)]
  exact sorted.getElem_le_getElem_of_le before

/-- The three indices are in range and in order. -/
lemma percentile_indices {m : Nat} (positive : 0 < m) :
    m / 2 ≤ min (m - 1) (m * 95 / 100) ∧
      min (m - 1) (m * 95 / 100) ≤ min (m - 1) (m * 99 / 100) ∧
      min (m - 1) (m * 99 / 100) < m := by
  refine ⟨?_, ?_, ?_⟩
  · omega
  · omega
  · omega

lemma updatePercentiles_shows {xs : List Int} {iq : IPQualityV2} (tracks : Tracks xs iq)
    (some_sample : 0 < xs.length) :
    ShowsLast xs (min xs.length 64) (updatePercentiles iq) := by
  have kept := tracks.of_same (updatePercentiles_sameWindow iq)
  have counted := tracks.sampleCount
  have sorted_eq := tracks.sortedSamples_eq
  have sized : ((lastSamples xs).insertionSort (· ≤ ·)).length = min xs.length 64 := by
    rw [List.length_insertionSort, length_lastSamples]
  have sorted : ((lastSamples xs).insertionSort (· ≤ ·)).SortedLE := List.sortedLE_insertionSort
  have positive : 0 < min xs.length 64 := by omega
  have slots := kept.slots
  have count := kept.sampleCount
  generalize min xs.length 64 = m at counted sized positive slots count ⊢
  have some_count : iq.sampleCount ≠ 0 := by
    intro zero
    rw [zero] at counted
    change 0 = m at counted
    omega
  obtain ⟨p50, p95, p99⟩ :
      (updatePercentiles iq).p50 = ((lastSamples xs).insertionSort (· ≤ ·)).getD (m / 2) 0 ∧
      (updatePercentiles iq).p95 =
        ((lastSamples xs).insertionSort (· ≤ ·)).getD (min (m - 1) (m * 95 / 100)) 0 ∧
      (updatePercentiles iq).p99 =
        ((lastSamples xs).insertionSort (· ≤ ·)).getD (min (m - 1) (m * 99 / 100)) 0 := by
    rw [updatePercentiles, if_neg some_count, ← percentileIdx_eq positive,
      ← percentileIdx_eq positive, ← sorted_eq, ← counted]
    exact ⟨rfl, rfl, rfl⟩
  obtain ⟨p50_le, p95_le, last⟩ := percentile_indices positive
  have p99_lt := Nat.lt_of_lt_of_eq last sized.symm
  have p95_lt := Nat.lt_of_le_of_lt p95_le p99_lt
  refine ⟨count, slots, ?_, ?_, ?_, ?_⟩
  · rw [p50]
    exact getElem?_eq_getD (Nat.lt_of_le_of_lt p50_le p95_lt)
  · rw [p95]
    exact getElem?_eq_getD p95_lt
  · rw [p99]
    exact getElem?_eq_getD p99_lt
  · rw [p50, p95, p99]
    exact ⟨getD_le_getD sorted p50_le p95_lt, getD_le_getD sorted p95_le p99_lt⟩

/-- After any history that ends with RecordLatency, whatever failures and resets came in
between: the used slots are the last 64 latencies in some order, and the percentiles are
the elements at their indices of these latencies sorted. -/
theorem window_is_last_samples (convert : Int → Int) (created : Nat) (past : List Call)
    (now : Nat) (latency : Int) :
    ShowsLast (latencies past ++ [latency]) (min (latencies past ++ [latency]).length 64)
      (StepRuns.run (perform convert) (newIPQualityV2 created)
        (past ++ [.recordLatency now latency])) := by
  rw [StepRuns.run_snoc]
  have tracks := pushSample_tracks (run_tracks convert created past) latency now
  refine updatePercentiles_shows tracks ?_
  rw [List.length_append]
  exact Nat.succ_pos _

/-! ### The confidence -/

lemma confidenceOf_toNat (n : UInt8) :
    (confidenceOf n).toNat = min 100 (n.toNat * 10 % 256) := by
  simp only [confidenceOf]
  split
  · rename_i high
    have above : 100 < (UInt8.ofNat (n.toNat * 10)).toNat := UInt8.lt_iff_toNat_lt.mp high
    rw [UInt8.toNat_ofNat'] at above
    change 100 = _
    omega
  · rename_i low
    have within : ¬ 100 < (UInt8.ofNat (n.toNat * 10)).toNat :=
      fun above => low (UInt8.lt_iff_toNat_lt.mpr above)
    rw [UInt8.toNat_ofNat'] at within ⊢
    omega

lemma Tracks.confidence_toNat {xs : List Int} {iq : IPQualityV2} (tracks : Tracks xs iq) :
    iq.confidence.toNat = min 100 (min xs.length 64 * 10 % 256) := by
  rw [tracks.confidence, confidenceOf_toNat, tracks.sampleCount]

lemma stateWeight_pos (state : IPState) : 0 < stateWeight state := by
  cases state with
  | active | degraded | suspect | recovered => norm_num [stateWeight]

/-- With the same percentile and state, the score falls as `p50` times the confidence grows. -/
lemma getScore_le_iff {iq iq' : IPQualityV2} (p50 : iq'.p50 = iq.p50)
    (state : iq'.state = iq.state) (bounded : iq.confidence.toNat ≤ 100)
    (bounded' : iq'.confidence.toNat ≤ 100) :
    getScore iq' ≤ getScore iq ↔
      iq.p50 * iq.confidence.toNat ≤ iq.p50 * iq'.confidence.toNat := by
  have mult {c : UInt8} (within : c.toNat ≤ 100) :
      ((100 - c).toNat : Rat) = 100 - (c.toNat : Rat) := by
    have below : c ≤ 100 := UInt8.le_iff_toNat_le.mpr within
    rw [UInt8.toNat_sub_of_le _ _ below]
    exact Nat.cast_sub within
  simp only [getScore, p50, state, mult bounded, mult bounded']
  rw [mul_le_mul_iff_left₀ (stateWeight_pos iq.state)]
  constructor
  · intro lower
    have scaled : (iq.p50 : Rat) * iq.confidence.toNat ≤ iq.p50 * iq'.confidence.toNat := by
      linarith
    exact_mod_cast scaled
  · intro higher
    have scaled : (iq.p50 : Rat) * iq.confidence.toNat ≤ iq.p50 * iq'.confidence.toNat := by
      exact_mod_cast higher
    linarith

lemma mul_le_mul_iff_sign (p : Int) (c c' : Nat) :
    p * c ≤ p * c' ↔ p = 0 ∨ 0 < p ∧ c ≤ c' ∨ p < 0 ∧ c' ≤ c := by
  rcases lt_trichotomy p 0 with negative | rfl | positive
  · rw [mul_le_mul_left_of_neg negative]
    omega
  · simp
  · rw [mul_le_mul_iff_right₀ positive]
    omega

/-- The number of samples is none at which the product of ten and the samples in the ring
has just passed a multiple of 256. -/
def Counts (n : Nat) : Prop := ¬ (26 ≤ n ∧ n ≤ 35) ∧ ¬ (52 ≤ n ∧ n ≤ 61)

instance (n : Nat) : Decidable (Counts n) := inferInstanceAs (Decidable (_ ∧ _))

/-- The numbers of samples with which the confidence is 100. -/
def Full (n : Nat) : Prop := (10 ≤ n ∧ n ≤ 25) ∨ (36 ≤ n ∧ n ≤ 51) ∨ 62 ≤ n

instance (n : Nat) : Decidable (Full n) := inferInstanceAs (Decidable (_ ∨ _))

lemma shown_eq_iff (n : Nat) :
    min 100 (min n 64 * 10 % 256) = min 100 (10 * min n 64) ↔ Counts n := by
  rcases Nat.lt_or_ge n 64 with filling | full
  · have while_filling : ∀ k < 64, min 100 (k * 10 % 256) = min 100 (10 * k) ↔ Counts k := by
      decide
    rw [Nat.min_eq_left (Nat.le_of_lt filling)]
    exact while_filling n filling
  · rw [Nat.min_eq_right full, Counts]
    omega

lemma shown_le_next_iff (n : Nat) :
    min 100 (min n 64 * 10 % 256) ≤ min 100 (min (n + 1) 64 * 10 % 256) ↔ n ≠ 25 ∧ n ≠ 51 := by
  rcases Nat.lt_or_ge n 64 with filling | full
  · have while_filling : ∀ k < 64, min 100 (k * 10 % 256) ≤ min 100 ((k + 1) * 10 % 256) ↔
        k ≠ 25 ∧ k ≠ 51 := by
      decide
    rw [Nat.min_eq_left (Nat.le_of_lt filling), Nat.min_eq_left filling]
    exact while_filling n filling
  · rw [Nat.min_eq_right full, Nat.min_eq_right (Nat.le_succ_of_le full)]
    omega

lemma next_le_shown_iff (n : Nat) :
    min 100 (min (n + 1) 64 * 10 % 256) ≤ min 100 (min n 64 * 10 % 256) ↔ Full n := by
  rcases Nat.lt_or_ge n 64 with filling | full
  · have while_filling : ∀ k < 64, min 100 ((k + 1) * 10 % 256) ≤ min 100 (k * 10 % 256) ↔
        Full k := by
      decide
    rw [Nat.min_eq_left (Nat.le_of_lt filling), Nat.min_eq_left filling]
    exact while_filling n filling
  · rw [Nat.min_eq_right full, Nat.min_eq_right (Nat.le_succ_of_le full), Full]
    omega

/-- For every history, with `n` latencies recorded: the confidence is ten for each sample
up to 100 exactly outside two ranges of `n`, the next RecordLatency lowers it exactly at
two numbers, and when it leaves percentile and state as they are, it raises the score of a
positive percentile exactly there, and that of a negative one exactly while the confidence
is below 100. -/
theorem confidence_grows_iff (convert : Int → Int) (created : Nat) (calls : List Call)
    (now : Nat) (latency : Int) (iq iq' : IPQualityV2) (n : Nat)
    (history : iq = StepRuns.run (perform convert) (newIPQualityV2 created) calls)
    (next : iq' = recordLatency iq now latency) (recorded : n = (latencies calls).length) :
    (iq.confidence.toNat = min 100 (10 * min n 64) ↔ Counts n) ∧
      (iq.confidence ≤ iq'.confidence ↔ n ≠ 25 ∧ n ≠ 51) ∧
      (iq'.p50 = iq.p50 → iq'.state = iq.state →
        (getScore iq' ≤ getScore iq ↔
          iq.p50 = 0 ∨ 0 < iq.p50 ∧ n ≠ 25 ∧ n ≠ 51 ∨
            iq.p50 < 0 ∧ Full n)) := by
  have tracks := run_tracks convert created calls
  rw [← history] at tracks
  have here := tracks.confidence_toNat
  have there := (recordLatency_tracks tracks now latency).confidence_toNat
  rw [← next, List.length_append, List.length_singleton] at there
  rw [← recorded] at here there
  have falls : iq.confidence ≤ iq'.confidence ↔ n ≠ 25 ∧ n ≠ 51 := by
    rw [UInt8.le_iff_toNat_le, here, there]
    exact shown_le_next_iff n
  have stays : iq'.confidence ≤ iq.confidence ↔ Full n := by
    rw [UInt8.le_iff_toNat_le, here, there]
    exact next_le_shown_iff n
  refine ⟨?_, falls, ?_⟩
  · rw [here]
    exact shown_eq_iff n
  · intro p50 state
    rw [getScore_le_iff p50 state (by omega) (by omega), mul_le_mul_iff_sign, ← falls, ← stays,
      UInt8.le_iff_toNat_le, UInt8.le_iff_toNat_le]

section Tens

/-- That many latencies of ten milliseconds, and the tracker after them. -/
def tens (n : Nat) : List Call := List.replicate n (.recordLatency 1 10)

def afterTens (n : Nat) : IPQualityV2 := StepRuns.run (perform id) (newIPQualityV2 0) (tens n)

lemma afterTens_succ (n : Nat) : afterTens (n + 1) = recordLatency (afterTens n) 1 10 := by
  rw [afterTens, tens, List.replicate_succ', StepRuns.run_snoc]
  rfl

theorem twelve_samples_confident :
    (afterTens 12).confidence.toNat = min 100 (10 * min 12 64) ∧
      (afterTens 12).confidence ≤ (recordLatency (afterTens 12) 1 10).confidence ∧
      getScore (recordLatency (afterTens 12) 1 10) ≤ getScore (afterTens 12) := by
  obtain ⟨counted, grows, score⟩ :=
    confidence_grows_iff id 0 (tens 12) 1 10 (afterTens 12) (recordLatency (afterTens 12) 1 10) 12
      rfl rfl rfl
  refine ⟨counted.mpr (by decide), grows.mpr (by decide), ?_⟩
  exact (score (by decide +kernel) (by decide +kernel)).mpr (.inr (.inl (by decide +kernel)))

/-- The 26th sample takes the confidence from 100 to 4 and nearly doubles the score. -/
theorem confidence_falls_at_twenty_six :
    (afterTens 25).confidence = 100 ∧ (afterTens 26).confidence = 4 ∧
      afterTens 26 = recordLatency (afterTens 25) 1 10 ∧
      (afterTens 26).p50 = (afterTens 25).p50 ∧ (afterTens 26).state = (afterTens 25).state ∧
      getScore (afterTens 25) = 10 ∧ getScore (afterTens 26) = 98 / 5 := by
  refine ⟨by decide +kernel, by decide +kernel, afterTens_succ 25, by decide +kernel,
    by decide +kernel, by decide +kernel, by decide +kernel⟩

end Tens

end LatencyWindow
