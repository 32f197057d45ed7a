import Rec53.HostsTable
import Mathlib.Algebra.Order.Field.Basic
import Mathlib.Algebra.Order.Field.Rat
import Mathlib.Tactic.Linarith

/-!
# The sampler of the CPU usage

`cpuUsageSampler` of `server/hot_zone_protection.go` with `readCPUStat`: the counters of
`/proc/stat` are 64-bit words that are added and subtracted modulo `2 ^ 64`, and the usage
is an exact rational where the source has a float. The total is known to grow when the two
differences are taken, so the quotient exists and the branch for NaN and infinity is never
taken. Idle time plus iowait may have gone down.

Instants are counted from the zero time of Go, and `lastReadAt` is zero before a reading.
-/

namespace CpuSampler

open Platform HostsTable

structure CPUStat where
  total : UInt64
  idle : UInt64
  deriving DecidableEq

inductive StatError where
  | readFile
  | unexpectedLine
  | parse
  deriving DecidableEq

/-- `strings.SplitN(data, "\n", 2)[0]`. -/
def firstLine (data : String) : List Char := data.toList.takeWhile (· ≠ '\n')

/-- `strings.Fields`. -/
def fields (line : List Char) : List (List Char) := (line.splitOnP isSpace).filter (· ≠ [])

/-- The number that a text of digits stands for. -/
def decimal (digits : List Char) : Nat :=
  digits.foldl (fun n c => 10 * n + (c.toNat - '0'.toNat)) 0

/-- `fmt.Sscanf` with `%d`: the digits in front, if there are any and their number fits. What
stands behind them is not read. -/
def scanUint (field : List Char) : Option UInt64 :=
  let digits := field.takeWhile Char.isDigit
  if digits = [] ∨ UInt64.size ≤ decimal digits then none else some (UInt64.ofNat (decimal digits))

/-- `readCPUStat`; no data is a failure of `os.ReadFile`. -/
def readCPUStat : Option String → Except StatError CPUStat
  | none => .error .readFile
  | some data =>
    match fields (firstLine data) with
    | [] => .error .unexpectedLine
    | name :: counters =>
      if counters.length < 4 ∨ name ≠ "cpu".toList then .error .unexpectedLine
      else
        -- values that are not in the line are zero
        match (counters.take 8).mapM scanUint with
        | none => .error .parse
        | some values => .ok ⟨values.foldl (· + ·) 0, values.getD 3 0 + values.getD 4 0⟩

structure CPUUsageSampler where
  lastReadAt : Nat
  lastTotal : UInt64
  lastIdle : UInt64
  lastValue : Rat

def newCPUUsageSampler : CPUUsageSampler := ⟨0, 0, 0, 0⟩

def clampUsage (usage : Rat) : Rat := if usage < 0 then 0 else if 100 < usage then 100 else usage

/-- `CPUUsage` at an instant, with what the file has there. -/
def cpuUsage (s : CPUUsageSampler) (now : Nat) (data : Option String) : CPUUsageSampler × Rat :=
  if s.lastReadAt ≠ 0 ∧ now - s.lastReadAt < second then (s, s.lastValue)
  else
    match readCPUStat data with
    | .error _ => (s, s.lastValue)
    | .ok stat =>
      if s.lastTotal = 0 ∨ stat.total ≤ s.lastTotal then
        (⟨now, stat.total, stat.idle, s.lastValue⟩, s.lastValue)
      else
        let totalDelta : Rat := (stat.total - s.lastTotal).toNat
        let idleDelta : Rat := (stat.idle - s.lastIdle).toNat
        let usage := clampUsage (100 * (1 - idleDelta / totalDelta))
        (⟨now, stat.total, stat.idle, usage⟩, usage)

/-! ### The counters of a line -/

/-- Words are added modulo their number. -/
lemma toNat_foldl_add (values : List UInt64) (start : UInt64) :
    (values.foldl (· + ·) start).toNat =
      (start.toNat + (values.map UInt64.toNat).sum) % UInt64.size := by
  induction values generalizing start with
  | nil => simp [Nat.mod_eq_of_lt start.toNat_lt]
  | cons v rest ih =>
    rw [List.foldl_cons, ih, UInt64.toNat_add, List.map_cons, List.sum_cons, Nat.mod_add_mod,
      Nat.add_assoc]

lemma idle_le_sum (values : List UInt64) :
    (values.getD 3 0).toNat + (values.getD 4 0).toNat ≤ (values.map UInt64.toNat).sum := by
  match values with
  | [] | [_] | [_, _] | [_, _, _] => simp
  | [_, _, _, idle] =>
    simp only [List.getD_cons_succ, List.getD_cons_zero, List.getD_nil, UInt64.toNat_zero,
      List.map_cons, List.sum_cons]
    omega
  | _ :: _ :: _ :: idle :: iowait :: rest =>
    simp only [List.getD_cons_succ, List.getD_cons_zero, List.map_cons, List.sum_cons]
    omega

/-- As long as the counters of the line add up to a word, the total is their sum and the idle
time the sum of the fourth and the fifth. -/
theorem readCPUStat_sums {data : String} {stat : CPUStat}
    (parsed : readCPUStat (some data) = .ok stat) :
    ∃ counters values, fields (firstLine data) = "cpu".toList :: counters ∧
      4 ≤ counters.length ∧ (counters.take 8).mapM scanUint = some values ∧
      ((values.map UInt64.toNat).sum < UInt64.size →
        stat.total.toNat = (values.map UInt64.toNat).sum ∧
        stat.idle.toNat = (values.getD 3 0).toNat + (values.getD 4 0).toNat) := by
  rw [readCPUStat] at parsed
  split at parsed
  · cases parsed
  rename_i name counters line
  split at parsed
  · cases parsed
  rename_i expected
  rw [not_or, Nat.not_lt, not_not] at expected
  split at parsed
  · cases parsed
  rename_i values scanned
  cases parsed
  refine ⟨counters, values, expected.2 ▸ line, expected.1, scanned, ?_⟩
  intro small
  constructor
  · rw [toNat_foldl_add, UInt64.toNat_zero, Nat.zero_add, Nat.mod_eq_of_lt small]
  · have within := Nat.lt_of_le_of_lt (idle_le_sum values) small
    rw [UInt64.toNat_add, Nat.mod_eq_of_lt within]

/-! ### Readings in a row -/

/-- A line of the file that is understood, and when it is read. -/
structure Reading where
  now : Nat
  data : String
  stat : CPUStat
  parsed : readCPUStat (some data) = .ok stat

/-- At least a second apart, and the total grows. -/
def Rising (readings : List Reading) : Prop :=
  readings.Pairwise fun a b => a.now + second ≤ b.now ∧ a.stat.total < b.stat.total

instance (readings : List Reading) : Decidable (Rising readings) :=
  inferInstanceAs (Decidable (readings.Pairwise _))

/-- The sampler after the readings. -/
def sampled (readings : List Reading) : CPUUsageSampler :=
  readings.foldl (fun s r => (cpuUsage s r.now (some r.data)).1) newCPUUsageSampler

/-- The share of the time between two readings that was not idle, in percent: the exact
quotient of the integer differences, held between 0 and 100. -/
def trueUsage (prev next : CPUStat) : Rat :=
  let dt : Int := next.total.toNat - prev.total.toNat
  let di : Int := next.idle.toNat - prev.idle.toNat
  max 0 (min 100 (100 * (1 - di / dt)))

/-- The idle time has not gone down; after a total of zero, which is taken for no reading,
all of the time must have been idle. -/
def DeltaKept (prev next : CPUStat) : Prop :=
  if prev.total = 0 then prev.idle.toNat + next.total.toNat ≤ next.idle.toNat
  else prev.idle ≤ next.idle

instance (prev next : CPUStat) : Decidable (DeltaKept prev next) :=
  inferInstanceAs (Decidable (if prev.total = 0 then _ else _))

lemma clampUsage_eq (usage : Rat) : clampUsage usage = max 0 (min 100 usage) := by
  rw [clampUsage]
  split
  · rename_i negative
    rw [min_eq_right (by linarith), max_eq_left (by linarith)]
  · split
    · rename_i large
      rw [min_eq_left large.le, max_eq_right (by norm_num)]
    · rename_i nonnegative small
      rw [min_eq_right (not_lt.mp small), max_eq_right (not_lt.mp nonnegative)]

/-- What the sampler keeps of the last reading. -/
structure Latest (s : CPUUsageSampler) (r : Reading) : Prop where
  readAt : s.lastReadAt = r.now
  total : s.lastTotal = r.stat.total
  idle : s.lastIdle = r.stat.idle
  unvalued : r.stat.total = 0 → s.lastValue = 0

/-- A reading is taken, since the last one is a second ago. -/
lemma cpuUsage_reading {s : CPUUsageSampler} {r : Reading}
    (due : s.lastReadAt = 0 ∨ s.lastReadAt + second ≤ r.now) :
    cpuUsage s r.now (some r.data) =
      if s.lastTotal = 0 ∨ r.stat.total ≤ s.lastTotal then
        (⟨r.now, r.stat.total, r.stat.idle, s.lastValue⟩, s.lastValue)
      else
        let usage := clampUsage (100 * (1 - ((r.stat.idle - s.lastIdle).toNat : Rat) /
          ((r.stat.total - s.lastTotal).toNat : Rat)))
        (⟨r.now, r.stat.total, r.stat.idle, usage⟩, usage) := by
  have taken : ¬ (s.lastReadAt ≠ 0 ∧ r.now - s.lastReadAt < second) := by omega
  rw [cpuUsage, if_neg taken, r.parsed]

/-- Within a second the last value is reported again. -/
lemma cpuUsage_again {s : CPUUsageSampler} {now : Nat} {data : Option String}
    (read : s.lastReadAt ≠ 0) (soon : now < s.lastReadAt + second) :
    cpuUsage s now data = (s, s.lastValue) := by
  have positive : 0 < second := by decide
  rw [cpuUsage, if_pos ⟨read, by omega⟩]

lemma latest_of_reading {s : CPUUsageSampler} {r : Reading}
    (due : s.lastReadAt = 0 ∨ s.lastReadAt + second ≤ r.now)
    (unvalued : r.stat.total = 0 → s.lastValue = 0) :
    Latest (cpuUsage s r.now (some r.data)).1 r := by
  rw [cpuUsage_reading due]
  split
  · exact ⟨rfl, rfl, rfl, unvalued⟩
  · rename_i grown
    refine ⟨rfl, rfl, rfl, ?_⟩
    intro zero
    rw [zero] at grown
    exact absurd (.inr (UInt64.zero_le)) grown

lemma sampled_append (readings : List Reading) (r : Reading) :
    sampled (readings ++ [r]) = (cpuUsage (sampled readings) r.now (some r.data)).1 := by
  rw [sampled, List.foldl_append]
  rfl

/-- After each of the readings the sampler has kept it. -/
lemma sampled_latest (readings : List Reading) (r : Reading)
    (rising : Rising (readings ++ [r])) : Latest (sampled (readings ++ [r])) r := by
  induction readings using List.reverseRecOn generalizing r with
  | nil => exact latest_of_reading (.inl rfl) fun _ => rfl
  | append_singleton earlier q ih =>
    obtain ⟨before, -, across⟩ := List.pairwise_append.mp rising
    obtain ⟨apart, grown⟩ := across q (by simp) r (by simp)
    have kept := ih q before
    rw [sampled_append]
    apply latest_of_reading
    · rw [kept.readAt]
      exact .inr apart
    · intro zero
      rw [zero] at grown
      exact absurd grown UInt64.not_lt_zero

/-! ### The differences -/

/-- A difference of words that does not go down is the one of the integers. -/
lemma delta_eq {before after : UInt64} (le : before ≤ after) :
    ((after - before).toNat : Rat) = ((after.toNat : Int) - before.toNat : Int) := by
  have toNat_le := UInt64.le_iff_toNat_le.mp le
  rw [UInt64.toNat_sub_of_le _ _ le]
  push_cast [Nat.cast_sub toNat_le]
  rfl

section Difference

variable {prev next : CPUStat}

lemma totalDelta_pos (grown : prev.total < next.total) :
    (0 : Rat) < ((next.total.toNat : Int) - prev.total.toNat : Int) := by
  have toNat_lt := UInt64.lt_iff_toNat_lt.mp grown
  exact_mod_cast (by omega : (0 : Int) < (next.total.toNat : Int) - prev.total.toNat)

/-- One that goes down wraps to something positive. -/
lemma idleDelta_pos (fallen : next.idle < prev.idle) : 0 < (next.idle - prev.idle).toNat := by
  have toNat_lt := UInt64.lt_iff_toNat_lt.mp fallen
  have bound := prev.idle.toNat_lt
  rw [UInt64.toNat_sub]
  omega

/-- Less idle time than before counts as full usage. -/
lemma trueUsage_of_fallen (grown : prev.total < next.total) (fallen : next.idle < prev.idle) :
    trueUsage prev next = 100 := by
  have positive := totalDelta_pos grown
  have toNat_lt := UInt64.lt_iff_toNat_lt.mp fallen
  have negative : (((next.idle.toNat : Int) - prev.idle.toNat : Int) : Rat) ≤ 0 := by
    exact_mod_cast (by omega : (next.idle.toNat : Int) - prev.idle.toNat ≤ 0)
  have quotient := div_nonpos_of_nonpos_of_nonneg negative positive.le
  rw [trueUsage, min_eq_left (by linarith), max_eq_right (by norm_num)]

lemma trueUsage_eq_zero_iff (grown : prev.total < next.total) :
    trueUsage prev next = 0 ↔
      (next.total.toNat : Int) - prev.total.toNat ≤ next.idle.toNat - prev.idle.toNat := by
  have positive := totalDelta_pos grown
  have quotient := one_le_div (b := (((next.total.toNat : Int) - prev.total.toNat : Int) : Rat))
    (a := (((next.idle.toNat : Int) - prev.idle.toNat : Int) : Rat)) positive
  rw [Int.cast_le] at quotient
  rw [trueUsage, max_eq_left_iff, ← quotient]
  constructor
  · intro small
    rcases min_le_iff.mp small with absurd | small
    · norm_num at absurd
    · linarith
  · intro one
    exact min_le_iff.mpr (.inr (by linarith))

/-- The usage with the difference as the sampler takes it. -/
lemma wrappedUsage_iff (grown : prev.total < next.total) :
    clampUsage (100 * (1 - ((next.idle - prev.idle).toNat : Rat) /
      ((next.total - prev.total).toNat : Rat))) = trueUsage prev next ↔
        prev.idle ≤ next.idle := by
  have positive := totalDelta_pos grown
  rw [clampUsage_eq, delta_eq (UInt64.le_of_lt grown)]
  constructor
  · intro same
    by_contra down
    have fallen := UInt64.not_le.mp down
    have wrapped : (0 : Rat) < ((next.idle - prev.idle).toNat : Rat) := by
      exact_mod_cast idleDelta_pos fallen
    have quotient := div_pos wrapped positive
    have below : max 0 (min 100 (100 * (1 - ((next.idle - prev.idle).toNat : Rat) /
        ((next.total.toNat : Int) - prev.total.toNat : Int)))) < 100 :=
      max_lt (by norm_num) (min_lt_iff.mpr (.inr (by linarith)))
    rw [same, trueUsage_of_fallen grown fallen] at below
    exact lt_irrefl _ below
  · intro kept
    rw [delta_eq kept, trueUsage]

end Difference

/-- For every row of readings from a new sampler on, the value after the last of them is the
true usage since the one before it exactly when the idle time has not gone down, or, after a
total of zero, when nothing was used. Every call within the next second reports it again. -/
theorem cpuUsage_true_iff (earlier : List Reading) (prev next : Reading)
    (rising : Rising (earlier ++ [prev] ++ [next])) :
    let reported := cpuUsage (sampled (earlier ++ [prev])) next.now (some next.data)
    (reported.2 = trueUsage prev.stat next.stat ↔ DeltaKept prev.stat next.stat) ∧
      ∀ now data, now < next.now + second → cpuUsage reported.1 now data = reported := by
  obtain ⟨before, -, across⟩ := List.pairwise_append.mp rising
  obtain ⟨apart, grown⟩ := across prev (by simp) next (by simp)
  have kept := sampled_latest earlier prev before
  have due : (sampled (earlier ++ [prev])).lastReadAt + second ≤ next.now := by
    rw [kept.readAt]
    exact apart
  have positive : 0 < second := by decide
  have later : next.now ≠ 0 := by omega
  dsimp only
  rw [cpuUsage_reading (.inr due), kept.total, kept.idle, DeltaKept]
  by_cases zero : prev.stat.total = 0
  · rw [if_pos (.inl zero), if_pos zero]
    refine ⟨?_, fun now data soon => cpuUsage_again later soon⟩
    rw [kept.unvalued zero, eq_comm, trueUsage_eq_zero_iff grown, zero, UInt64.toNat_zero]
    omega
  · have counted : ¬ (prev.stat.total = 0 ∨ next.stat.total ≤ prev.stat.total) :=
      not_or.mpr ⟨zero, UInt64.not_le.mpr grown⟩
    rw [if_neg counted, if_neg zero]
    exact ⟨wrappedUsage_iff grown, fun now data soon => cpuUsage_again later soon⟩

/-- `/proc/stat` with the first line only. -/
def busyReading : Reading := ⟨second, "cpu  100 0 0 700 200\n", ⟨1000, 900⟩, by decide +kernel⟩

/-- Half of the time since was idle. -/
def halfReading : Reading := ⟨2 * second, "cpu  150 0 0 750 200\n", ⟨1100, 950⟩, by decide +kernel⟩

/-- The iowait has gone down by more than the idle time has grown. -/
def fallenReading : Reading :=
  ⟨2 * second, "cpu  200 0 0 750 100\n", ⟨1050, 850⟩, by decide +kernel⟩

theorem half_reading_true :
    Rising [busyReading, halfReading] ∧
      (cpuUsage (sampled [busyReading]) halfReading.now (some halfReading.data)).2 =
        trueUsage busyReading.stat halfReading.stat := by
  have rising : Rising [busyReading, halfReading] := by decide
  exact ⟨rising, (cpuUsage_true_iff [] busyReading halfReading rising).1.mpr (by decide)⟩

/-- Full usage is reported as none. -/
theorem fallen_reading_zero :
    Rising [busyReading, fallenReading] ∧
      (cpuUsage (sampled [busyReading]) fallenReading.now (some fallenReading.data)).2 = 0 ∧
      trueUsage busyReading.stat fallenReading.stat = 100 := by
  refine ⟨by decide, by decide +kernel, by decide +kernel⟩

end CpuSampler
