import Rec53.LatencyWindow
import Rec53.QueriedAddresses
import Rec53.SliceSort

/-!
# The choice of upstream addresses

`IPPool` of `server/ip_pool.go`: a tracker for each address, and `GetBestIPsV2`, which
creates the trackers that are missing, sorts the listed addresses by their scores and
returns the first two. An address that is listed twice is scored twice. `GetScore` computes
in floating point; which scores it gives is left open where only their order matters, and
`exact` takes them without rounding. The sort is any that `sort.Slice` may be.

`created` gives the time at which the tracker of an address is created; the score does
not depend on it.
-/

namespace IPPool

open IPQuality LatencyWindow QueriedAddresses SliceSort StateHandlers

abbrev Pool := AList (fun _ : String => IPQualityV2)

def getOrCreate (created : String → Nat) (pool : Pool) (ip : String) : IPQualityV2 × Pool :=
  match pool.lookup ip with
  | some iqv2 => (iqv2, pool)
  | none =>
    let iqv2 := newIPQualityV2 (created ip)
    (iqv2, pool.insert ip iqv2)

/-- What `GetScore` gives for a tracker: however its floats round, it reads only the p50, the
confidence and the state. -/
structure Scoring (α : Type*) where
  getScore : IPQualityV2 → α
  reads : ∀ iq iq', iq.p50 = iq'.p50 → iq.confidence = iq'.confidence → iq.state = iq'.state →
    getScore iq = getScore iq'

def exact : Scoring Rat where
  getScore := getScore
  reads := by
    intro iq iq' p50 confidence state
    rw [getScore, getScore, p50, confidence, state]

section
variable {α : Type*} (scoring : Scoring α)

/-- The loop of GetBestIPsV2 over the candidates. -/
def scoreEntries (created : String → Nat) : Pool → List String → List (String × α) × Pool
  | pool, [] => ([], pool)
  | pool, ip :: ips =>
    let got := getOrCreate created pool ip
    let rest := scoreEntries created got.2 ips
    ((ip, scoring.getScore got.1) :: rest.1, rest.2)

/-- The tracker of an address; one that is missing is taken as it will be created. -/
def tracker (pool : Pool) (ip : String) : IPQualityV2 :=
  (pool.lookup ip).getD (newIPQualityV2 0)

def score (pool : Pool) (ip : String) : α := scoring.getScore (tracker pool ip)

/-- The addresses have the same states and scores, those without a tracker included. -/
structure SameChoice (pool pool' : Pool) : Prop where
  state : ∀ ip, (tracker pool' ip).state = (tracker pool ip).state
  score : ∀ ip, score scoring pool' ip = score scoring pool ip

lemma SameChoice.refl (pool : Pool) : SameChoice scoring pool pool := ⟨fun _ => rfl, fun _ => rfl⟩

variable {scoring} in
lemma SameChoice.trans {pool pool' pool'' : Pool} (first : SameChoice scoring pool pool')
    (second : SameChoice scoring pool' pool'') : SameChoice scoring pool pool'' :=
  ⟨fun ip => (second.state ip).trans (first.state ip),
    fun ip => (second.score ip).trans (first.score ip)⟩

/-- A tracker that is created does not change what an address looks like. -/
lemma getOrCreate_spec (created : String → Nat) (pool : Pool) (ip : String) :
    scoring.getScore (getOrCreate created pool ip).1 = score scoring pool ip ∧
      SameChoice scoring pool (getOrCreate created pool ip).2 := by
  rw [getOrCreate]
  cases known : pool.lookup ip with
  | some iqv2 =>
    refine ⟨?_, SameChoice.refl scoring pool⟩
    rw [score, tracker, known]
    rfl
  | none =>
    have fresh : scoring.getScore (newIPQualityV2 (created ip)) = score scoring pool ip := by
      rw [score, tracker, known]
      exact scoring.reads _ _ rfl rfl rfl
    have same (ip' : String) :
        tracker (pool.insert ip (newIPQualityV2 (created ip))) ip' = tracker pool ip' ∨
          ip' = ip ∧ tracker (pool.insert ip (newIPQualityV2 (created ip))) ip' =
            newIPQualityV2 (created ip) := by
      by_cases here : ip' = ip
      · right
        rw [here, tracker, AList.lookup_insert]
        exact ⟨rfl, rfl⟩
      · left
        rw [tracker, AList.lookup_insert_ne here, tracker]
    refine ⟨fresh, ?_, ?_⟩
    · intro ip'
      rcases same ip' with kept | ⟨rfl, made⟩
      · rw [kept]
      · rw [made, tracker, known]
        rfl
    · intro ip'
      rcases same ip' with kept | ⟨rfl, made⟩
      · rw [score, kept, score]
      · rw [score, made, fresh]

/-- The entries are the listed addresses with their scores, one for each position. -/
theorem scoreEntries_spec (created : String → Nat) (pool : Pool) (ips : List String) :
    (scoreEntries scoring created pool ips).1 = ips.map (fun ip => (ip, score scoring pool ip)) ∧
      SameChoice scoring pool (scoreEntries scoring created pool ips).2 := by
  induction ips generalizing pool with
  | nil => exact ⟨rfl, SameChoice.refl scoring pool⟩
  | cons ip ips ih =>
    obtain ⟨first, same⟩ := getOrCreate_spec scoring created pool ip
    obtain ⟨rest, same'⟩ := ih (getOrCreate created pool ip).2
    refine ⟨?_, same.trans same'⟩
    simp only [scoreEntries, first, rest, same.score, List.map_cons]

/-! ### The entries that are sorted -/

section
variable [LinearOrder α]

def LowerScore (x y : String × α) : Prop := x.2 ≤ y.2

instance : DecidableRel (LowerScore (α := α)) := fun x y => inferInstanceAs (Decidable (x.2 ≤ y.2))
instance : Std.Total (LowerScore (α := α)) := ⟨fun x y => le_total x.2 y.2⟩
instance : IsTrans (String × α) LowerScore := ⟨fun _ _ _ => le_trans⟩

def getBestIPsV2 (sorter : Sorter (String × α) LowerScore) (created : String → Nat) (pool : Pool)
    (ips : List String) : (String × String) × Pool :=
  let scored := scoreEntries scoring created pool ips
  (bestTwo ((sorter.sort scored.1).map Prod.fst), scored.2)

variable (sorter : Sorter (String × α) LowerScore) (created : String → Nat) (pool : Pool)
  (ips : List String)

/-- The addresses in the order of their scores. -/
def ranked : List (String × α) := sorter.sort (ips.map fun ip => (ip, score scoring pool ip))

lemma mem_ranked {ip : String} {x : α} :
    (ip, x) ∈ ranked scoring sorter pool ips ↔ ip ∈ ips ∧ x = score scoring pool ip := by
  rw [ranked, sorter.mem_sort, List.mem_map]
  constructor
  · rintro ⟨ip', mem, same⟩
    cases same
    exact ⟨mem, rfl⟩
  · rintro ⟨mem, rfl⟩
    exact ⟨ip, mem, rfl⟩

lemma length_ranked : (ranked scoring sorter pool ips).length = ips.length := by
  rw [ranked, (sorter.perm _).length_eq, List.length_map]

lemma getBestIPsV2_eq :
    (getBestIPsV2 scoring sorter created pool ips).1 =
      bestTwo ((ranked scoring sorter pool ips).map Prod.fst) := by
  rw [getBestIPsV2, (scoreEntries_spec scoring created pool ips).1]
  rfl

/-- What is returned for a list with at least one address, and with at least two. -/
lemma best_at (some_listed : ips ≠ []) : ∃ entry,
    (ranked scoring sorter pool ips)[0]? = some entry ∧
      (getBestIPsV2 scoring sorter created pool ips).1.1 = entry.1 := by
  have positive := List.length_pos_iff.mpr some_listed
  rw [← length_ranked scoring sorter pool] at positive
  rw [getBestIPsV2_eq]
  cases entries : ranked scoring sorter pool ips with
  | nil => simp [entries] at positive
  | cons entry rest => exact ⟨entry, rfl, rfl⟩

lemma second_at (two_listed : 2 ≤ ips.length) : ∃ entry,
    (ranked scoring sorter pool ips)[1]? = some entry ∧
      (getBestIPsV2 scoring sorter created pool ips).1.2 = entry.1 := by
  rw [← length_ranked scoring sorter pool] at two_listed
  rw [getBestIPsV2_eq]
  cases entries : ranked scoring sorter pool ips with
  | nil => simp [entries] at two_listed
  | cons entry rest =>
    cases rest with
    | nil => simp [entries] at two_listed
    | cons entry' rest => exact ⟨entry', rfl, rfl⟩

/-- The choices of the pool are among those the resolver is verified for; the place of an
address in the order serves as its score. -/
theorem poolChoice_of_pool {inp : Input}
    (chosen : ∀ ips, inp.bestIPs ips = (getBestIPsV2 scoring sorter created pool ips).1) :
    PoolChoice inp := by
  intro ips
  have listed := (sorter.perm (ips.map fun ip => (ip, score scoring pool ip))).map Prod.fst
  rw [List.map_map, show Prod.fst ∘ (fun ip => (ip, score scoring pool ip)) = id from rfl,
    List.map_id] at listed
  change ((ranked scoring sorter pool ips).map Prod.fst).Perm ips at listed
  generalize order : (ranked scoring sorter pool ips).map Prod.fst = sorted at listed
  have names : (sorted.zipIdx.map fun e => (e.1, (e.2 : Rat))).map Prod.fst = sorted := by
    rw [List.map_map]
    exact List.zipIdx_map_fst 0 sorted
  refine ⟨sorted.zipIdx.map fun e => (e.1, (e.2 : Rat)), ⟨?_, ?_⟩, ?_⟩
  · rw [names]
    exact listed
  · rw [List.pairwise_iff_getElem]
    intro i j inside inside' before
    simpa using Nat.le_of_lt before
  · rw [chosen, getBestIPsV2_eq, names, order]

end

/-- An address has an entry for each time it is listed. -/
lemma countP_entries (pool : Pool) (ips : List String) (ip : String) :
    (ips.map fun ip => (ip, score scoring pool ip)).countP (fun e => e.1 = ip) = ips.count ip := by
  rw [List.countP_map, List.count_eq_countP]
  congr 1

end

/-! ### A pool over time -/

inductive PoolCall where
  | tracker (ip : String) (call : Call)
  | getBestIPsV2 (created : String → Nat) (ips : List String)

/-- The callers look the tracker up first and do nothing when there is none. -/
def step (convert : Int → Int) (pool : Pool) : PoolCall → Pool
  | .tracker ip call =>
    match pool.lookup ip with
    | some iqv2 => pool.insert ip (perform convert iqv2 call)
    | none => pool
  | .getBestIPsV2 created ips => (scoreEntries exact created pool ips).2

/-- The latencies are between 0 and the maximum. -/
def PoolCall.InRange : PoolCall → Prop
  | .tracker _ (.recordLatency _ latency) => 0 ≤ latency ∧ latency ≤ maxIPLatency
  | .tracker _ (.recordFailure _) | .tracker _ (.resetForProbe _) | .getBestIPsV2 _ _ => True

/-- What keeps the scores of suspect addresses apart from all others. -/
structure Bounded (iq : IPQualityV2) : Prop where
  samples : ∀ x ∈ iq.samples.toList, 0 ≤ x ∧ x ≤ maxIPLatency
  p50 : 0 ≤ iq.p50 ∧ iq.p50 ≤ maxIPLatency
  confidence : iq.confidence.toNat ≤ 100
  failing : 4 ≤ iq.failCount → iq.p50 = maxIPLatency
  suspect : iq.state = .suspect → iq.p50 = maxIPLatency

/-- An address whose failures in a row were reset. -/
lemma bounded_of_calm {iq : IPQualityV2}
    (samples : ∀ x ∈ iq.samples.toList, 0 ≤ x ∧ x ≤ maxIPLatency)
    (p50 : 0 ≤ iq.p50 ∧ iq.p50 ≤ maxIPLatency) (confidence : iq.confidence.toNat ≤ 100)
    (reset : iq.failCount = 0) (calm : iq.state ≠ .suspect) : Bounded iq := by
  refine ⟨samples, p50, confidence, ?_, fun suspect => absurd suspect calm⟩
  rw [reset]
  intro many
  exact absurd many (by decide)

lemma newIPQualityV2_bounded (created : Nat) : Bounded (newIPQualityV2 created) := by
  refine bounded_of_calm ?_ ?_ (Nat.zero_le _) rfl IPState.noConfusion
  · intro x mem
    have zero : x = 0 := by simpa [newIPQualityV2] using mem
    subst zero
    decide
  · have start : 0 ≤ initIPLatency ∧ initIPLatency ≤ maxIPLatency := by decide
    exact start

lemma getD_inRange {l : List Int} (inRange : ∀ x ∈ l, 0 ≤ x ∧ x ≤ maxIPLatency) (i : Nat) :
    0 ≤ l.getD i 0 ∧ l.getD i 0 ≤ maxIPLatency := by
  by_cases inside : i < l.length
  · rw [List.getD_eq_getElem _ _ inside]
    exact inRange _ (List.getElem_mem inside)
  · rw [List.getD_eq_default _ _ (Nat.le_of_not_lt inside)]
    decide

lemma updatePercentiles_p50 {iq : IPQualityV2}
    (samples : ∀ x ∈ iq.samples.toList, 0 ≤ x ∧ x ≤ maxIPLatency)
    (p50 : 0 ≤ iq.p50 ∧ iq.p50 ≤ maxIPLatency) :
    0 ≤ (updatePercentiles iq).p50 ∧ (updatePercentiles iq).p50 ≤ maxIPLatency := by
  have sorted : ∀ x ∈ sortedSamples iq, 0 ≤ x ∧ x ≤ maxIPLatency := by
    intro x mem
    rw [sortedSamples, List.mem_insertionSort] at mem
    exact samples x (List.mem_of_mem_take mem)
  rw [updatePercentiles]
  split
  · exact p50
  · exact getD_inRange sorted _

lemma recordLatency_bounded {iq : IPQualityV2} (bounded : Bounded iq) (now : Nat) {latency : Int}
    (inRange : 0 ≤ latency ∧ latency ≤ maxIPLatency) :
    Bounded (recordLatency iq now latency) := by
  have samples : ∀ x ∈ (pushSample iq latency).samples.toList, 0 ≤ x ∧ x ≤ maxIPLatency := by
    intro x mem
    rw [pushSample, Vector.toList_set] at mem
    rcases List.mem_or_eq_of_mem_set mem with old | rfl
    · exact bounded.samples x old
    · exact inRange
  have window := updatePercentiles_sameWindow
    { pushSample iq latency with
      confidence := confidenceOf (pushSample iq latency).sampleCount
      failCount := 0
      state := .active
      lastUpdate := now
      lastSeen := now }
  refine bounded_of_calm ?_ ?_ ?_ (recordLatency_failCount iq now latency) ?_
  · change ∀ x ∈ (updatePercentiles _).samples.toList, _
    rw [window.samples]
    exact samples
  · exact updatePercentiles_p50 samples bounded.p50
  · change (updatePercentiles _).confidence.toNat ≤ 100
    rw [window.confidence, confidenceOf_toNat]
    exact Nat.min_le_left _ _
  · rw [recordLatency_state]
    exact IPState.noConfusion

lemma penalised_bounded (convert : Int → Int) {p50 : Int}
    (bounded : 0 ≤ p50 ∧ p50 ≤ maxIPLatency) :
    0 ≤ penalised convert p50 ∧ penalised convert p50 ≤ maxIPLatency := by
  have max_eq : maxIPLatency = 10000 := rfl
  have fits : -2147483648 ≤ 6 * p50 / 5 ∧ 6 * p50 / 5 ≤ 2147483647 := by omega
  simp only [penalised]
  rw [Int.tdiv_eq_ediv_of_nonneg (by omega), if_pos fits]
  by_cases high : maxIPLatency < 6 * p50 / 5
  · rw [if_pos high]
    decide
  · rw [if_neg high]
    omega

/-- A count above 6 was above 3 already, so the percentile is at its maximum. -/
lemma recordFailure_bounded (convert : Int → Int) {iq : IPQualityV2} (bounded : Bounded iq)
    (now : Nat) : Bounded (recordFailure convert iq now) := by
  simp only [recordFailure]
  split
  · rename_i few
    refine ⟨bounded.samples, penalised_bounded convert bounded.p50, bounded.confidence, ?_, ?_⟩
    · intro many
      exact absurd (UInt8.le_trans many few) (by decide)
    · intro suspect
      cases suspect
  split
  · have top : 0 ≤ maxIPLatency ∧ maxIPLatency ≤ maxIPLatency := by decide
    exact ⟨bounded.samples, top, bounded.confidence, fun _ => rfl, fun _ => rfl⟩
  · rename_i _ many
    have before : 4 ≤ iq.failCount := by
      rw [UInt8.le_iff_toNat_le, UInt8.toNat_add] at many
      rw [UInt8.le_iff_toNat_le]
      change ¬ (iq.failCount.toNat + 1) % 256 ≤ 6 at many
      change 4 ≤ iq.failCount.toNat
      omega
    exact ⟨bounded.samples, bounded.p50, bounded.confidence, fun _ => bounded.failing before,
      fun _ => bounded.failing before⟩

lemma perform_bounded (convert : Int → Int) {iq : IPQualityV2} (bounded : Bounded iq) {ip : String}
    {call : Call} (inRange : PoolCall.InRange (.tracker ip call)) :
    Bounded (perform convert iq call) := by
  cases call with
  | recordLatency now latency => exact recordLatency_bounded bounded now inRange
  | recordFailure now => exact recordFailure_bounded convert bounded now
  | resetForProbe now =>
    exact bounded_of_calm bounded.samples bounded.p50 bounded.confidence rfl IPState.noConfusion

/-- Every tracker of the pool is bounded. -/
def AllBounded (pool : Pool) : Prop := ∀ ip iq, pool.lookup ip = some iq → Bounded iq

lemma insert_allBounded {pool : Pool} (all : AllBounded pool) (ip : String) {iq : IPQualityV2}
    (bounded : Bounded iq) : AllBounded (pool.insert ip iq) := by
  intro ip' iq' found
  by_cases here : ip' = ip
  · rw [here, AList.lookup_insert] at found
    cases found
    exact bounded
  · rw [AList.lookup_insert_ne here] at found
    exact all ip' iq' found

lemma getOrCreate_allBounded (created : String → Nat) {pool : Pool} (all : AllBounded pool)
    (ip : String) : AllBounded (getOrCreate created pool ip).2 := by
  rw [getOrCreate]
  split
  · exact all
  · exact insert_allBounded all ip (newIPQualityV2_bounded _)

lemma scoreEntries_allBounded (created : String → Nat) {pool : Pool} (all : AllBounded pool)
    (ips : List String) : AllBounded (scoreEntries exact created pool ips).2 := by
  induction ips generalizing pool with
  | nil => exact all
  | cons ip ips ih => exact ih (getOrCreate_allBounded created all ip)

lemma step_allBounded (convert : Int → Int) {pool : Pool} {c : PoolCall} (inRange : c.InRange)
    (all : AllBounded pool) : AllBounded (step convert pool c) := by
  cases c with
  | tracker ip call =>
    simp only [step]
    split
    · rename_i iq found
      exact insert_allBounded all ip (perform_bounded convert (all ip iq found) inRange)
    · exact all
  | getBestIPsV2 created ips => exact scoreEntries_allBounded created all ips

theorem run_allBounded (convert : Int → Int) {calls : List PoolCall}
    (inRange : ∀ c ∈ calls, c.InRange) : AllBounded (StepRuns.run (step convert) ∅ calls) := by
  refine StepRuns.run_preserves_of_mem (step convert) ?_ ?_
  · intro pool c mem all
    exact step_allBounded convert (inRange c mem) all
  · intro ip iq found
    cases found

/-! ### Suspect addresses come last -/

lemma tracker_bounded {pool : Pool} (all : AllBounded pool) (ip : String) :
    Bounded (tracker pool ip) := by
  rw [tracker]
  cases found : pool.lookup ip with
  | some iq => exact all ip iq found
  | none => exact newIPQualityV2_bounded 0

/-- The factor for the confidence is between one and two. -/
lemma confidenceMult_bounds {c : UInt8} (within : c.toNat ≤ 100) :
    (1 : Rat) ≤ 1 + (100 - c).toNat * (1 / 100) ∧ 1 + (100 - c).toNat * (1 / 100) ≤ (2 : Rat) := by
  have below : c ≤ 100 := UInt8.le_iff_toNat_le.mpr within
  have top : (100 - c).toNat ≤ 100 := by
    rw [UInt8.toNat_sub_of_le _ _ below]
    exact Nat.sub_le _ _
  have low : (0 : Rat) ≤ (100 - c).toNat := Nat.cast_nonneg _
  have high : ((100 - c).toNat : Rat) ≤ 100 := by exact_mod_cast top
  constructor
  · linarith
  · linarith

lemma le_getScore_of_suspect {iq : IPQualityV2} (bounded : Bounded iq)
    (suspect : iq.state = .suspect) : 1000000 ≤ getScore iq := by
  obtain ⟨low, _⟩ := confidenceMult_bounds bounded.confidence
  simp only [getScore, suspect, bounded.suspect suspect, stateWeight, maxIPLatency]
  push_cast
  linarith

lemma stateWeight_le_of_calm {state : IPState} (calm : state ≠ .suspect) :
    stateWeight state ≤ 3 / 2 := by
  cases state with
  | suspect => exact absurd rfl calm
  | active | degraded | recovered => norm_num [stateWeight]

lemma getScore_le_of_calm {iq : IPQualityV2} (bounded : Bounded iq)
    (calm : iq.state ≠ .suspect) : getScore iq ≤ 30000 := by
  obtain ⟨low, high⟩ := confidenceMult_bounds bounded.confidence
  have p50_nonneg : (0 : Rat) ≤ iq.p50 := by exact_mod_cast bounded.p50.1
  have p50_le : (iq.p50 : Rat) ≤ 10000 := by exact_mod_cast bounded.p50.2
  have weight_nonneg := le_of_lt (stateWeight_pos iq.state)
  have weight_le := stateWeight_le_of_calm calm
  calc
    getScore iq ≤ 10000 * 2 * (3 / 2) := by
      rw [getScore]
      gcongr
    _ = 30000 := by norm_num

/-- A suspect tracker scores higher than all others. -/
def Scoring.SuspectLast {α : Type*} [LinearOrder α] (scoring : Scoring α) : Prop :=
  ∀ iq iq', Bounded iq → Bounded iq' → iq.state ≠ .suspect → iq'.state = .suspect →
    scoring.getScore iq < scoring.getScore iq'

lemma exact_suspectLast : exact.SuspectLast := by
  intro iq iq' bounded bounded' calm bad
  have low := getScore_le_of_calm bounded calm
  have high := le_getScore_of_suspect bounded' bad
  change getScore iq < getScore iq'
  linarith

/-- The pool has a tracker of the address, and it is suspect. -/
def suspect (pool : Pool) (ip : String) : Bool :=
  (pool.lookup ip).any fun iqv2 => iqv2.state = .suspect

lemma suspect_iff {pool : Pool} {ip : String} :
    suspect pool ip = true ↔ (tracker pool ip).state = .suspect := by
  rw [suspect, tracker]
  cases pool.lookup ip with
  | some iq => simp
  | none => simp [newIPQualityV2]

lemma suspect_after (created : String → Nat) (pool : Pool) (ips : List String) (ip : String) :
    suspect (scoreEntries exact created pool ips).2 ip = suspect pool ip := by
  rw [Bool.eq_iff_iff, suspect_iff, suspect_iff, (scoreEntries_spec exact created pool ips).2.state]

/-- An entry of a suspect address has a higher score than one of any other address. -/
lemma score_apart {pool : Pool} (all : AllBounded pool) {ip ip' : String}
    (calm : suspect pool ip = false) (bad : suspect pool ip' = true) :
    score exact pool ip < score exact pool ip' := by
  have calm_state : (tracker pool ip).state ≠ .suspect := by
    intro is
    rw [suspect_iff.mpr is] at calm
    cases calm
  exact exact_suspectLast _ _ (tracker_bounded all ip) (tracker_bounded all ip') calm_state
    (suspect_iff.mp bad)

/-- Among the ranked entries those of addresses that are not suspect come first. -/
lemma ranked_calm_iff (sorter : Sorter (String × Rat) LowerScore) {pool : Pool}
    (all : AllBounded pool) {ips : List String} {i : Nat} {entry : String × Rat}
    (at_index : (ranked exact sorter pool ips)[i]? = some entry) :
    suspect pool entry.1 = false ↔ i < ips.countP fun ip => !suspect pool ip := by
  have counted : (ips.map fun ip => (ip, score exact pool ip)).countP (fun e => !suspect pool e.1) =
      ips.countP fun ip => !suspect pool ip := List.countP_map
  rw [← counted, ← sorter.getElem?_iff ?_ at_index, Bool.not_eq_true']
  intro x mem y mem' calm bad below
  obtain ⟨ip, _, rfl⟩ := List.mem_map.mp mem
  obtain ⟨ip', _, rfl⟩ := List.mem_map.mp mem'
  have apart := score_apart all (by simpa using calm) (by simpa using bad)
  exact absurd below (not_le_of_gt apart)

/-- For every pool reached by calls with latencies in range, every candidate list and every
order of ties: the best address is not suspect if any candidate is not, and neither is the
second if two positions of the list are not. -/
theorem suspect_chosen_last (convert : Int → Int) (calls : List PoolCall)
    (inRange : ∀ c ∈ calls, c.InRange) (pool : Pool)
    (reached : pool = StepRuns.run (step convert) ∅ calls)
    (sorter : Sorter (String × Rat) LowerScore) (created : String → Nat) (ips : List String)
    (best second : String) (after : Pool)
    (chosen : getBestIPsV2 exact sorter created pool ips = ((best, second), after)) :
    ((∃ ip ∈ ips, suspect after ip = false) → suspect after best = false) ∧
      (2 ≤ ips.countP (fun ip => !suspect after ip) → suspect after second = false) := by
  have all : AllBounded pool := reached ▸ run_allBounded convert inRange
  obtain ⟨rfl, rfl⟩ : best = (getBestIPsV2 exact sorter created pool ips).1.1 ∧
      second = (getBestIPsV2 exact sorter created pool ips).1.2 := by
    rw [chosen]
    exact ⟨rfl, rfl⟩
  have same (ip : String) : suspect after ip = suspect pool ip := by
    have is : after = (getBestIPsV2 exact sorter created pool ips).2 := by rw [chosen]
    rw [is]
    exact suspect_after created pool ips ip
  simp only [same]
  constructor
  · rintro ⟨ip, mem, calm⟩
    obtain ⟨entry, at_index, is⟩ := best_at exact sorter created pool ips (List.ne_nil_of_mem mem)
    rw [is, ranked_calm_iff sorter all at_index, List.countP_pos_iff]
    exact ⟨ip, mem, by simp [calm]⟩
  · intro two
    have listed : 2 ≤ ips.length := Nat.le_trans two List.countP_le_length
    obtain ⟨entry, at_index, is⟩ := second_at exact sorter created pool ips listed
    rw [is, ranked_calm_iff sorter all at_index]
    exact two

section SuspectFirst

/-- Both addresses are known, and the first has failed four times. -/
def failingCalls : List PoolCall :=
  .getBestIPsV2 (fun _ => 0) ["192.0.2.1", "192.0.2.2"] ::
    List.replicate 4 (.tracker "192.0.2.1" (.recordFailure 1))

def failingPool : Pool := StepRuns.run (step id) ∅ failingCalls

lemma failingCalls_inRange : ∀ c ∈ failingCalls, c.InRange := by
  intro c mem
  rcases List.mem_cons.mp mem with rfl | failure
  · trivial
  · rw [List.eq_of_mem_replicate failure]
    trivial

theorem suspect_not_chosen :
    let chosen := getBestIPsV2 exact (Sorter.insertion LowerScore) (fun _ => 0) failingPool
      ["192.0.2.1", "192.0.2.2"]
    suspect chosen.2 "192.0.2.1" = true ∧ chosen.1.1 = "192.0.2.2" ∧
      suspect chosen.2 chosen.1.1 = false := by
  intro chosen
  refine ⟨by decide +kernel, by decide +kernel, ?_⟩
  refine (suspect_chosen_last id failingCalls failingCalls_inRange failingPool rfl
    (Sorter.insertion LowerScore) (fun _ => 0) ["192.0.2.1", "192.0.2.2"] chosen.1.1 chosen.1.2
    chosen.2 rfl).1 ?_
  exact ⟨"192.0.2.2", by decide, by decide +kernel⟩

end SuspectFirst

/-! ### Two addresses to race -/

/-- Two listed addresses, the first of the least score of all and the second of the least
score of the others. -/
structure RacedPair {α : Type*} [LinearOrder α] (score : String → α) (ips : List String)
    (best second : String) : Prop where
  best_mem : best ∈ ips
  second_mem : second ∈ ips
  different : second ≠ best
  best_least : ∀ ip ∈ ips, score best ≤ score ip
  second_least : ∀ ip ∈ ips, ip ≠ best → score second ≤ score ip

section
variable {α : Type*} [LinearOrder α] (scoring : Scoring α)
  (sorter : Sorter (String × α) LowerScore) (created : String → Nat) (pool : Pool)

/-- Where an address of the list stands among the ranked entries. -/
lemma exists_rank {ips : List String} {ip : String} (mem : ip ∈ ips) :
    ∃ i : Nat, (ranked scoring sorter pool ips)[i]? = some (ip, score scoring pool ip) :=
  List.mem_iff_getElem?.mp ((mem_ranked scoring sorter pool ips).mpr ⟨mem, rfl⟩)

lemma rank_entry {ips : List String} {i : Nat} {entry : String × α}
    (at_index : (ranked scoring sorter pool ips)[i]? = some entry) :
    entry.1 ∈ ips ∧ entry.2 = score scoring pool entry.1 :=
  (mem_ranked scoring sorter pool ips).mp (List.mem_of_getElem? at_index)

lemma score_le_of_rank {ips : List String} {i j : Nat} {entry : String × α} {ip : String}
    (at_index : (ranked scoring sorter pool ips)[i]? = some entry)
    (later : (ranked scoring sorter pool ips)[j]? = some (ip, score scoring pool ip)) (lt : i < j) :
    score scoring pool entry.1 ≤ score scoring pool ip := by
  have below : LowerScore entry (ip, score scoring pool ip) := sorter.le_of_lt at_index later lt
  rw [LowerScore, (rank_entry scoring sorter pool at_index).2] at below
  exact below

lemma score_le_of_first {ips : List String} {entry : String × α}
    (first : (ranked scoring sorter pool ips)[0]? = some entry) {ip : String} (mem : ip ∈ ips) :
    score scoring pool entry.1 ≤ score scoring pool ip := by
  obtain ⟨i, at_index⟩ := exists_rank scoring sorter pool mem
  cases i with
  | zero =>
    rw [first] at at_index
    cases at_index
    exact le_refl _
  | succ i => exact score_le_of_rank scoring sorter pool first at_index (Nat.succ_pos i)

/-- Where the two returned addresses differ, they are a pair to race. -/
lemma racedPair_of_ne {ips : List String} (two_listed : 2 ≤ ips.length)
    (different : (getBestIPsV2 scoring sorter created pool ips).1.2 ≠
      (getBestIPsV2 scoring sorter created pool ips).1.1) :
    RacedPair (score scoring pool) ips (getBestIPsV2 scoring sorter created pool ips).1.1
      (getBestIPsV2 scoring sorter created pool ips).1.2 := by
  obtain ⟨first, at_zero, best⟩ := best_at scoring sorter created pool ips
    (List.ne_nil_of_length_pos (by omega))
  obtain ⟨next, at_one, second⟩ := second_at scoring sorter created pool ips two_listed
  rw [best, second] at different ⊢
  refine ⟨(rank_entry scoring sorter pool at_zero).1, (rank_entry scoring sorter pool at_one).1,
    different, fun ip mem => score_le_of_first scoring sorter pool at_zero mem, ?_⟩
  intro ip mem other
  obtain ⟨i, at_index⟩ := exists_rank scoring sorter pool mem
  match i with
  | 0 =>
    rw [at_zero] at at_index
    cases at_index
    exact absurd rfl other
  | 1 =>
    rw [at_one] at at_index
    cases at_index
    exact le_refl _
  | i + 2 => exact score_le_of_rank scoring sorter pool at_one at_index (by omega)

/-- An address that is returned twice is listed twice. -/
lemma two_le_count {ips : List String} {first next : String × α}
    (at_zero : (ranked scoring sorter pool ips)[0]? = some first)
    (at_one : (ranked scoring sorter pool ips)[1]? = some next) (same : next.1 = first.1) :
    2 ≤ ips.count first.1 := by
  rw [← countP_entries scoring pool, ← (sorter.perm _).countP_eq]
  change 2 ≤ (ranked scoring sorter pool ips).countP _
  match entries : ranked scoring sorter pool ips with
  | [] => simp [entries] at at_zero
  | [_] => simp [entries] at at_one
  | e :: e' :: rest =>
    obtain rfl : e = first := by simpa [entries] using at_zero
    obtain rfl : e' = next := by simpa [entries] using at_one
    rw [List.countP_cons_of_pos (by simp), List.countP_cons_of_pos (by simp [same])]
    omega

/-- A sort that prefers the entries of one address among those of the same score. -/
def preferring (ip : String) : Sorter (String × α) LowerScore :=
  Sorter.favouring LowerScore fun e => e.1 = ip

/-- It puts all entries of an address of the least score in front. -/
lemma preferring_front {pool : Pool} {ips : List String} {ip : String}
    (least : ∀ ip' ∈ ips, score scoring pool ip ≤ score scoring pool ip') {i : Nat}
    {entry : String × α} (at_index : (ranked scoring (preferring ip) pool ips)[i]? = some entry)
    (early : i < ips.count ip) : entry.1 = ip := by
  rw [← countP_entries scoring pool] at early
  have front := (Sorter.favouring_getElem? LowerScore (fun e => e.1 = ip) ?_ at_index).mpr early
  · simpa using front
  · intro x mem named y mem'
    obtain ⟨a, _, rfl⟩ := List.mem_map.mp mem
    obtain ⟨b, listed, rfl⟩ := List.mem_map.mp mem'
    obtain rfl : a = ip := by simpa using named
    exact least b listed

/-- An address that is better than all others is in front as often as it is listed. -/
lemma strict_front (sorter : Sorter (String × α) LowerScore) {pool : Pool} {ips : List String}
    {ip : String} (better : ∀ ip' ∈ ips, ip' ≠ ip → score scoring pool ip < score scoring pool ip')
    {i : Nat} {entry : String × α} (at_index : (ranked scoring sorter pool ips)[i]? = some entry)
    (early : i < ips.count ip) : entry.1 = ip := by
  rw [← countP_entries scoring pool] at early
  have front := (sorter.getElem?_iff ?_ at_index).mpr early
  · simpa using front
  · intro x mem y mem' named other below
    obtain ⟨a, _, rfl⟩ := List.mem_map.mp mem
    obtain ⟨b, listed, rfl⟩ := List.mem_map.mp mem'
    obtain rfl : a = ip := by simpa using named
    exact absurd below (not_le_of_gt (better b listed (by simpa using other)))

lemma two_le_length {ips : List String} (two : ∃ a ∈ ips, ∃ b ∈ ips, a ≠ b) : 2 ≤ ips.length := by
  obtain ⟨a, mem_a, b, mem_b, differ⟩ := two
  match ips with
  | [] => cases mem_a
  | [x] =>
    rw [List.mem_singleton.mp mem_a, List.mem_singleton.mp mem_b] at differ
    exact absurd rfl differ
  | _ :: _ :: _ => simp

end

/-- For every pool, every list with two different addresses and every scoring: whatever the sort
does with ties, the pool returns two different addresses, the best and the best of the others,
exactly when no address of the least score is listed more than once. -/
theorem raced_pair_iff {α : Type*} [LinearOrder α] (scoring : Scoring α) (created : String → Nat)
    (pool : Pool) (ips : List String) (two : ∃ a ∈ ips, ∃ b ∈ ips, a ≠ b) :
    (∀ sorter, RacedPair (score scoring pool) ips (getBestIPsV2 scoring sorter created pool ips).1.1
        (getBestIPsV2 scoring sorter created pool ips).1.2) ↔
      ∀ ip ∈ ips, (∀ ip' ∈ ips, score scoring pool ip ≤ score scoring pool ip') →
        ips.count ip = 1 := by
  have listed := two_le_length two
  constructor
  · intro raced ip mem least
    by_contra repeated
    have twice : 2 ≤ ips.count ip := by
      have once := List.count_pos_iff.mpr mem
      omega
    obtain ⟨first, at_zero, best⟩ := best_at scoring (preferring ip) created pool ips
      (List.ne_nil_of_mem mem)
    obtain ⟨next, at_one, second⟩ := second_at scoring (preferring ip) created pool ips listed
    apply (raced (preferring ip)).different
    rw [best, second, preferring_front scoring least at_zero (by omega),
      preferring_front scoring least at_one (by omega)]
  · intro single sorter
    apply racedPair_of_ne scoring sorter created pool listed
    obtain ⟨first, at_zero, best⟩ := best_at scoring sorter created pool ips
      (List.ne_nil_of_length_pos (by omega))
    obtain ⟨next, at_one, second⟩ := second_at scoring sorter created pool ips listed
    rw [best, second]
    intro same
    have twice := two_le_count scoring sorter pool at_zero at_one same
    have once := single first.1 (rank_entry scoring sorter pool at_zero).1 fun ip mem =>
      score_le_of_first scoring sorter pool at_zero mem
    omega

section Repeated

theorem distinct_addresses_raced :
    RacedPair (score exact ∅) ["192.0.2.1", "192.0.2.2"] "192.0.2.1" "192.0.2.2" := by
  have pair := (raced_pair_iff exact (fun _ => 0) ∅ ["192.0.2.1", "192.0.2.2"]
    ⟨"192.0.2.1", by decide, "192.0.2.2", by decide, by decide⟩).mpr ?_
      (Sorter.insertion LowerScore)
  · have returned : (getBestIPsV2 exact (Sorter.insertion LowerScore) (fun _ => 0) ∅
        ["192.0.2.1", "192.0.2.2"]).1 = ("192.0.2.1", "192.0.2.2") := by
      decide +kernel
    rwa [returned] at pair
  · intro ip mem _
    have listed : ∀ ip ∈ ["192.0.2.1", "192.0.2.2"],
        ["192.0.2.1", "192.0.2.2"].count ip = 1 := by
      decide
    exact listed ip mem

/-- The second address has failed once. -/
def slowerPool : Pool :=
  StepRuns.run (step id) ∅ [.getBestIPsV2 (fun _ => 0) ["192.0.2.2"],
    .tracker "192.0.2.2" (.recordFailure 1)]

def repeatedList : List String := ["192.0.2.1", "192.0.2.2", "192.0.2.1"]

/-- The better address is listed twice and is raced against itself, whatever the sort. -/
theorem repeated_address_not_raced :
    ¬ ∃ sorter, RacedPair (score exact slowerPool) repeatedList
      (getBestIPsV2 exact sorter (fun _ => 0) slowerPool repeatedList).1.1
      (getBestIPsV2 exact sorter (fun _ => 0) slowerPool repeatedList).1.2 := by
  rintro ⟨sorter, pair⟩
  have better : ∀ ip ∈ repeatedList, ip ≠ "192.0.2.1" →
      score exact slowerPool "192.0.2.1" < score exact slowerPool ip := by
    decide +kernel
  have twice : repeatedList.count "192.0.2.1" = 2 := by decide
  obtain ⟨first, at_zero, best⟩ := best_at exact sorter (fun _ => 0) slowerPool repeatedList
    (by decide)
  obtain ⟨next, at_one, second⟩ := second_at exact sorter (fun _ => 0) slowerPool repeatedList
    (by decide)
  apply pair.different
  rw [best, second, strict_front exact sorter better at_zero (by omega),
    strict_front exact sorter better at_one (by omega)]

end Repeated

end IPPool
