import Rec53.ConcurrentPool

/-!
# What the shared pool keeps

Whatever the order of the actions: a tracker leaves the map only by being pruned, so what is
recorded through a pointer reaches the pool unless the tracker was pruned in the meantime; after a
pruning every address of the map is exempt or was seen in the 24 hours before the pruning began or
later; readers do not keep a writer out; and a choice of `GetBestIPsV2` is the one that the
candidates call for, each as it was at some moment of the call.
-/

namespace ConcurrentPool

open IPPool IPQuality QueriedAddresses RWLock SliceSort WorkerPool

universe u
variable {α : Type u}

/-! ### Memory -/

section
variable {convert : Int → Int} {s : Shared}

/-- The pointer leads to a tracker of the address. -/
def Points (s : Shared) (id : Nat) (ip : String) : Prop :=
  ∃ t, s.trackers[id]? = some t ∧ t.ip = ip

structure Sound (s : Shared) : Prop where
  points : ∀ ip id, s.poolV2.lookup ip = some id → Points s id ip
  seen : ∀ t ∈ s.trackers, t.quality.lastSeen ≤ s.now

/-- A tracker stays where it is in memory, and is seen later and later. -/
def Later (s s' : Shared) : Prop :=
  ∀ (id : Nat) (t : Tracker), s.trackers[id]? = some t →
    ∃ t' : Tracker, s'.trackers[id]? = some t' ∧ t'.ip = t.ip ∧
      t.quality.lastSeen ≤ t'.quality.lastSeen

lemma later_of_eq {s' : Shared} (same : s'.trackers = s.trackers) : Later s s' := by
  intro id t at_id
  exact ⟨t, same ▸ at_id, rfl, Nat.le_refl _⟩

lemma Points.later {s' : Shared} {id : Nat} {ip : String} (points : Points s id ip)
    (later : Later s s') : Points s' id ip := by
  obtain ⟨t, at_id, is⟩ := points
  obtain ⟨t', at_id', same, _⟩ := later id t at_id
  exact ⟨t', at_id', same.trans is⟩

/-- The call of a tracker that a goroutine is about to make. -/
def Place.call (now : Nat) : Place α → Option Call
  | .record _ _ r => some (r.call now)
  | .reset _ _ _ => some (.resetForProbe now)
  | _ => none

lemma lastSeen_perform {place : Place α} {now : Nat} {call : Call}
    (made : place.call now = some call) {iq : IPQualityV2} (seen : iq.lastSeen ≤ now) :
    iq.lastSeen ≤ (perform convert iq call).lastSeen ∧
      (perform convert iq call).lastSeen ≤ now := by
  cases place with
  | reset =>
    cases made
    exact ⟨Nat.le_refl _, seen⟩
  | record ip id r =>
    cases made
    have touched : (perform convert iq (r.call now)).lastSeen = now := by
      cases r with
      | latency value =>
        simp only [Record.call, perform, recordLatency, updatePercentiles]
        split
        · rfl
        · rfl
      | failure =>
        simp only [Record.call, perform, recordFailure]
        split
        · rfl
        split
        · rfl
        · rfl
    rw [touched]
    exact ⟨seen, Nat.le_refl _⟩
  | _ => cases made

lemma trackers_perform (id : Nat) (call : Call) (j : Nat) :
    (s.perform convert id call).trackers[j]? =
      (s.trackers[j]?).map fun t =>
        if id = j then { t with quality := perform convert t.quality call } else t := by
  rw [Shared.perform, List.getElem?_modify]
  split
  · rfl
  · simp

lemma later_perform (place : Place α) {id : Nat} {call : Call}
    (made : place.call s.now = some call) (sound : Sound s) :
    Later s (s.perform convert id call) := by
  intro j t at_j
  have seen := sound.seen t (List.mem_of_getElem? at_j)
  rw [trackers_perform, at_j]
  refine ⟨_, rfl, ?_⟩
  split
  · exact ⟨rfl, (lastSeen_perform made seen).1⟩
  · exact ⟨rfl, Nat.le_refl _⟩

end

/-! ### The lock -/

/-- What a goroutine owns of the lock of the map. -/
def Place.part : Place α → Part
  | .scan _ _ _ | .rescore _ _ _ _ _ | .collect _ _ => ⟨1, 0, 0⟩
  | .enterCreate _ _ _ _ | .enterPrune _ => ⟨0, 1, 0⟩
  | .prune _ _ => ⟨0, 0, 1⟩
  | _ => ⟨0, 0, 0⟩

/-- The actions for which a goroutine still holds the lock. -/
def Place.holdsFor : Place α → Nat
  | .scan _ todo _ => todo.length + 1
  | .rescore _ _ _ todo _ => todo.length + 2
  | .collect todo _ | .prune _ todo => todo.length + 1
  | _ => 0

lemma holdsFor_eq_zero {t : Place α} (reads : t.part.reads = 0) (writes : t.part.writes = 0) :
    t.holdsFor = 0 := by
  cases t with
  | scan | rescore | collect => cases reads
  | prune => cases writes
  | _ => rfl

section
variable [LinearOrder α] {scoring : Scoring α} {sorter : Sorter (String × α) LowerScore}
  {convert : Int → Int} {s : Shared} {place : Place α} {a : Acted Shared (Place α)}

lemma Acts.moves (acts : Acts scoring sorter convert s place a) :
    Moves s.l a.shared.l place.part a.worker.part := by
  cases acts with
  | scanBegun free | relocked free | collectBegun free => exact .rLock free
  | scanEnded | missed | collectEnded => exact .rUnlock
  | createClaimed free | pruneClaimed free => exact .claim free
  | found free | created free => exact .passed free
  | pruneBegun free unread => exact .enter free unread
  | pruneEnded => exact .unlock
  | _ => exact .none

lemma Acts.alone (acts : Acts scoring sorter convert s place a) : a.started = [] := by
  cases acts with
  | _ => rfl

/-- The trackers after an action: those from before, of which one may have been called, and one
that was made. -/
lemma Acts.trackers (acts : Acts scoring sorter convert s place a) {id : Nat} {t : Tracker}
    (at_id : a.shared.trackers[id]? = some t) :
    s.trackers[id]? = some t ∨
      (∃ old call, s.trackers[id]? = some old ∧ place.call s.now = some call ∧
        t = { old with quality := perform convert old.quality call }) ∨
      ∃ ip, t = ⟨ip, newIPQualityV2 s.now⟩ := by
  have called {j : Nat} {call : Call} (made : place.call s.now = some call)
      (at_id : (s.perform convert j call).trackers[id]? = some t) :
      s.trackers[id]? = some t ∨ ∃ old call, s.trackers[id]? = some old ∧
        place.call s.now = some call ∧
          t = { old with quality := perform convert old.quality call } := by
    rw [trackers_perform, Option.map_eq_some_iff] at at_id
    obtain ⟨old, at_old, is⟩ := at_id
    split at is
    · exact .inr ⟨old, call, at_old, made, is.symm⟩
    · exact .inl (is ▸ at_old)
  cases acts with
  | @created ips ip todo scores free unknown =>
    simp only [Shared.add] at at_id
    rcases List.mem_append.mp (List.mem_of_getElem? at_id) with _ | new
    · rw [List.getElem?_append] at at_id
      split at at_id
      · exact .inl at_id
      · rw [List.mem_singleton.mp (List.mem_of_getElem? at_id)]
        exact .inr (.inr ⟨ip, rfl⟩)
    · rw [List.mem_singleton.mp new]
      exact .inr (.inr ⟨ip, rfl⟩)
  | recorded | wasReset => exact (called rfl at_id).imp_right .inl
  | _ => exact .inl at_id

lemma Acts.later (acts : Acts scoring sorter convert s place a) (sound : Sound s) :
    Later s a.shared := by
  cases acts with
  | created =>
    intro id t at_id
    have within := (List.getElem?_eq_some_iff.mp at_id).1
    refine ⟨t, ?_, rfl, Nat.le_refl _⟩
    rw [Shared.add, List.getElem?_append_left within]
    exact at_id
  | @recorded ip id r => exact later_perform (Place.record (α := α) ip id r) rfl sound
  | @wasReset ip id candidates =>
    exact later_perform (Place.reset (α := α) ip id candidates) rfl sound
  | _ => exact later_of_eq rfl

/-! ### The map -/

/-- What the map has for an address after an action: what it had before, a new tracker, or
nothing any more. -/
lemma Acts.lookup (acts : Acts scoring sorter convert s place a) (ip : String) :
    a.shared.poolV2.lookup ip = s.poolV2.lookup ip ∨
      (s.l.writer = false ∧ s.poolV2.lookup ip = none ∧
        a.shared.trackers = (s.add ip).trackers ∧
        a.shared.poolV2.lookup ip = some s.trackers.length) ∨
      (∃ now todo, place = .prune now todo ∧ ip ∉ s.exemptIPs ∧ s.isStale now ip = true ∧
        a.shared.poolV2.lookup ip = none) := by
  cases acts with
  | @created ips ip' todo scores free unknown =>
    by_cases here : ip = ip'
    · subst here
      exact .inr (.inl ⟨free, unknown, rfl, AList.lookup_insert _⟩)
    · exact .inl (AList.lookup_insert_ne here)
  | @pruned now todo ip' todo' perm subject stale =>
    by_cases here : ip = ip'
    · subst here
      exact .inr (.inr ⟨now, todo, rfl, subject, stale, AList.lookup_erase _ _⟩)
    · exact .inl (AList.lookup_erase_ne here)
  | _ => exact .inl rfl

lemma Acts.exemptIPs (acts : Acts scoring sorter convert s place a) :
    a.shared.exemptIPs = s.exemptIPs := by
  cases acts with
  | _ => rfl

lemma Acts.now (acts : Acts scoring sorter convert s place a) : a.shared.now = s.now := by
  cases acts with
  | _ => rfl

lemma points_added (s : Shared) (ip : String) : Points (s.add ip) s.trackers.length ip :=
  ⟨⟨ip, newIPQualityV2 s.now⟩, by simp [Shared.add], rfl⟩

lemma Acts.sound (acts : Acts scoring sorter convert s place a) (sound : Sound s) :
    Sound a.shared := by
  constructor
  · intro ip id known
    rcases acts.lookup ip with same | ⟨_, _, added, new⟩ | ⟨_, _, _, _, _, gone⟩
    · exact (sound.points ip id (same ▸ known)).later (acts.later sound)
    · rw [new] at known
      cases known
      rw [Points, added]
      exact points_added s ip
    · rw [gone] at known
      cases known
  · intro t mem
    obtain ⟨id, at_id⟩ := List.mem_iff_getElem?.mp mem
    rw [acts.now]
    rcases acts.trackers at_id with same | ⟨old, call, at_old, made, rfl⟩ | ⟨ip, rfl⟩
    · exact sound.seen t (List.mem_of_getElem? same)
    · exact (lastSeen_perform made (sound.seen old (List.mem_of_getElem? at_old))).2
    · exact Nat.le_refl _

/-- The address is exempt, or its tracker was seen in the 24 hours before `now`. -/
def Fresh (s : Shared) (now : Nat) (ip : String) (id : Nat) : Prop :=
  ip ∈ s.exemptIPs ∨ ∃ t, s.trackers[id]? = some t ∧ now ≤ t.quality.lastSeen + staleIPThreshold

lemma fresh_of_not_stale {now : Nat} {ip : String} {id : Nat} (sound : Sound s)
    (known : s.poolV2.lookup ip = some id) (fresh : ip ∈ s.exemptIPs ∨ s.isStale now ip = false) :
    Fresh s now ip id := by
  refine fresh.imp_right fun recent => ?_
  obtain ⟨t, at_id, _⟩ := sound.points ip id known
  refine ⟨t, at_id, ?_⟩
  simpa [Shared.isStale, known, at_id] using recent

lemma Acts.fresh (acts : Acts scoring sorter convert s place a) (sound : Sound s) {now : Nat}
    {ip : String} {id : Nat} (fresh : Fresh s now ip id) : Fresh a.shared now ip id := by
  rcases fresh with exempt | ⟨t, at_id, recent⟩
  · left
    rw [acts.exemptIPs]
    exact exempt
  · right
    obtain ⟨t', at_id', _, more⟩ := acts.later sound id t at_id
    exact ⟨t', at_id', by omega⟩

/-- Every address of the map is fresh. -/
def AllFresh (s : Shared) (now : Nat) : Prop :=
  ∀ ip id, s.poolV2.lookup ip = some id → Fresh s now ip id

/-- A tracker that is made after `now` is fresh. -/
lemma Acts.allFresh (acts : Acts scoring sorter convert s place a) (sound : Sound s) {now : Nat}
    (begun : now ≤ s.now) (all : AllFresh s now) : AllFresh a.shared now := by
  intro ip id known
  rcases acts.lookup ip with same | ⟨_, _, added, new⟩ | ⟨_, _, _, _, _, gone⟩
  · exact acts.fresh sound (all ip id (same ▸ known))
  · rw [new] at known
    cases known
    refine .inr ⟨⟨ip, newIPQualityV2 s.now⟩, by simp [added, Shared.add], ?_⟩
    exact Nat.le_trans begun (Nat.le_add_right _ _)
  · rw [gone] at known
    cases known

/-! ### What a goroutine knows -/

/-- The pointer that a goroutine holds, and the address it was looked up for. -/
def Place.pointer : Place α → Option (String × Nat)
  | .relock _ id ip _ _ | .rescore _ id ip _ _ | .record ip id _ | .reset ip id _ => some (ip, id)
  | _ => none

def Place.scores : Place α → List (String × α)
  | .scan _ _ scores | .create _ _ _ scores | .enterCreate _ _ _ scores | .relock _ _ _ _ scores
  | .rescore _ _ _ _ scores | .chosen _ scores _ => scores
  | _ => []

/-- The loop of `GetBestIPsV2` scores the addresses one by one. -/
def Scanning (sorter : Sorter (String × α) LowerScore) : Place α → Prop
  | .scan ips todo scores => scores.map Prod.fst ++ todo = ips
  | .create ips ip todo scores | .enterCreate ips ip todo scores | .relock ips _ ip todo scores
  | .rescore ips _ ip todo scores => scores.map Prod.fst ++ ip :: todo = ips
  | .chosen ips scores best =>
    scores.map Prod.fst = ips ∧ best = bestTwo ((sorter.sort scores).map Prod.fst)
  | _ => True

lemma Acts.scanning (acts : Acts scoring sorter convert s place a)
    (scanning : Scanning sorter place) :
    Scanning sorter a.worker := by
  cases acts with
  | rest => exact scanning
  | scanBegun => rfl
  | scanEnded => exact ⟨(List.append_nil _).symm.trans scanning, rfl⟩
  | scored | rescored =>
    rw [Scanning, List.map_append, List.append_assoc]
    exact scanning
  | missed | createClaimed | found | created | relocked => exact scanning
  | _ => trivial

/-- A pruning has begun, and the addresses it has visited and left are fresh. -/
def Pruning (s : Shared) : Place α → Prop
  | .lockPrune now | .enterPrune now => now ≤ s.now
  | .prune now todo =>
    now ≤ s.now ∧ ∀ ip id, s.poolV2.lookup ip = some id → ip ∈ todo ∨ Fresh s now ip id
  | _ => True

lemma Acts.pruning_own (acts : Acts scoring sorter convert s place a) (sound : Sound s)
    (pruning : Pruning s place) : Pruning a.shared a.worker := by
  cases acts with
  | rest => exact pruning
  | pruneTimed => exact Nat.le_refl _
  | pruneClaimed => exact pruning
  | pruneBegun =>
    refine ⟨pruning, fun ip id known => .inl ?_⟩
    rw [← AList.mem_keys, ← AList.lookup_isSome, known]
    rfl
  | @kept now todo ip' todo' perm fresh =>
    refine ⟨pruning.1, fun ip id known => ?_⟩
    rcases pruning.2 ip id known with left | done
    · rcases List.mem_cons.mp (perm.mem_iff.mpr left) with rfl | left
      · exact .inr (fresh_of_not_stale sound known fresh)
      · exact .inl left
    · exact .inr done
  | @pruned now todo ip' todo' perm subject stale =>
    refine ⟨pruning.1, fun ip id known => ?_⟩
    have other : ip ≠ ip' := by
      rintro rfl
      rw [AList.lookup_erase] at known
      cases known
    rw [AList.lookup_erase_ne other] at known
    rcases pruning.2 ip id known with left | done
    · rcases List.mem_cons.mp (perm.mem_iff.mpr left) with here | left
      · exact absurd here other
      · exact .inl left
    · exact .inr done
  | _ => trivial

/-- While a pruning goes on, no other goroutine puts anything into the map. -/
lemma Acts.pruning_stable (acts : Acts scoring sorter convert s place a) (sound : Sound s)
    {other : Place α} (held : other.part.writes ≠ 0 → s.l.writer = true)
    (pruning : Pruning s other) : Pruning a.shared other := by
  cases other with
  | lockPrune now | enterPrune now =>
    change now ≤ a.shared.now
    rw [acts.now]
    exact pruning
  | prune now todo =>
    refine ⟨?_, ?_⟩
    · rw [acts.now]
      exact pruning.1
    · intro ip id known
      rcases acts.lookup ip with same | ⟨free, _⟩ | ⟨_, _, _, _, _, gone⟩
      · exact (pruning.2 ip id (same ▸ known)).imp_right (acts.fresh sound)
      · rw [held Nat.one_ne_zero] at free
        cases free
      · rw [gone] at known
        cases known
  | _ => trivial

/-- The pointers of a goroutine lead to trackers of the address. -/
def Holds (s : Shared) (place : Place α) : Prop :=
  ∀ ip id, place.pointer = some (ip, id) → Points s id ip

/-- A goroutine gets a pointer from the map. -/
lemma Acts.pointer (acts : Acts scoring sorter convert s place a) {ip : String} {id : Nat}
    (holds : a.worker.pointer = some (ip, id)) :
    place.pointer = some (ip, id) ∨ a.shared.poolV2.lookup ip = some id := by
  cases acts with
  | rest | relocked => exact .inl holds
  | found _ known | lookedUp known | probeFound known =>
    cases holds
    exact .inr known
  | created =>
    cases holds
    exact .inr (AList.lookup_insert _)
  | _ => cases holds

end

structure Orderly [LinearOrder α] (sorter : Sorter (String × α) LowerScore) (p : System α) :
    Prop where
  locked : Guarded Shared.l Place.part p
  sound : Sound p.shared
  scanning : ∀ t ∈ p.workers, Scanning sorter t
  pruning : ∀ t ∈ p.workers, Pruning p.shared t
  holds : ∀ t ∈ p.workers, Holds p.shared t

section
variable [LinearOrder α] {scoring : Scoring α} {sorter : Sorter (String × α) LowerScore}
  {convert : Int → Int}

/-- The places at which a call begins. -/
def Place.begins : Place α → Bool
  | .rLock _ | .lookup _ _ => true
  | _ => false

/-- An invariant of the pool is kept by the actions, by calls that begin, and by what comes from
outside. -/
theorem step_keeps {P : System α → Prop}
    (acts : ∀ p i f, (∀ t, Acts scoring sorter convert p.shared t (f p.shared t)) → P p →
      P (p.act i f))
    (starts : ∀ p t, Place.begins t = true → P p → P (p.start t))
    (outside : ∀ p d cancelled, P p → P { p with
      shared := { p.shared with now := p.shared.now + d, cancelled := cancelled } })
    (p : System α) (e : Event) (before : P p) : P (step scoring sorter convert p e) := by
  cases e with
  | advance i c => exact acts p i _ (advance_acts scoring sorter convert c p.shared) before
  | getBestIPsV2 ips => exact starts p _ rfl before
  | record ip r => exact starts p _ rfl before
  | pass d => exact outside p d p.shared.cancelled before
  | cancel => exact outside p 0 true before

lemma act_orderly {p : System α} {i : Nat} {f : Shared → Place α → Acted Shared (Place α)}
    (acts : ∀ t, Acts scoring sorter convert p.shared t (f p.shared t))
    (orderly : Orderly sorter p) :
    Orderly sorter (p.act i f) where
  locked := act_guarded (fun t _ => (acts t).moves) (fun t _ => by simp [(acts t).alone])
    orderly.locked
  sound := act_shared (fun t _ => (acts t).sound orderly.sound) orderly.sound
  scanning := act_workers
    (fun t _ scanning => ⟨(acts t).scanning scanning, by simp [(acts t).alone]⟩)
    orderly.scanning
  pruning := act_relies
    (fun t _ t' mem' => (acts t).pruning_stable orderly.sound (orderly.locked.writing mem'))
    (fun t _ pruning => ⟨(acts t).pruning_own orderly.sound pruning, by simp [(acts t).alone]⟩)
    orderly.pruning
  holds := by
    refine act_relies ?_ ?_ orderly.holds
    · intro t _ t' _ holds ip id is
      exact (holds ip id is).later ((acts t).later orderly.sound)
    · intro t _ holds
      refine ⟨fun ip id is => ?_, by simp [(acts t).alone]⟩
      rcases (acts t).pointer is with before | known
      · exact (holds ip id before).later ((acts t).later orderly.sound)
      · exact ((acts t).sound orderly.sound).points ip id known

lemma start_orderly {p : System α} {t : Place α} (begins : t.begins = true)
    (orderly : Orderly sorter p) :
    Orderly sorter (p.start t) := by
  have fresh : t.part = ⟨0, 0, 0⟩ ∧ Scanning sorter t ∧ Pruning p.shared t ∧
      Holds p.shared t := by
    cases t with
    | rLock | lookup => exact ⟨rfl, trivial, trivial, fun _ _ none_held => nomatch none_held⟩
    | _ => cases begins
  obtain ⟨idle, scanning, pruning, holds⟩ := fresh
  have both {P : Place α → Prop} (old : ∀ t ∈ p.workers, P t) (new : P t) :
      ∀ t' ∈ p.workers ++ [t], P t' := by
    intro t' mem
    rcases List.mem_append.mp mem with before | here
    · exact old t' before
    · rw [List.mem_singleton.mp here]
      exact new
  exact ⟨start_guarded idle orderly.locked, orderly.sound,
    both orderly.scanning scanning, both orderly.pruning pruning, both orderly.holds holds⟩

lemma pass_orderly {p : System α} (d : Nat) (cancelled : Bool) (orderly : Orderly sorter p) :
    Orderly sorter { p with
      shared := { p.shared with now := p.shared.now + d, cancelled := cancelled } } where
  locked := { orderly.locked with }
  sound := ⟨orderly.sound.points, fun t mem =>
    Nat.le_trans (orderly.sound.seen t mem) (Nat.le_add_right _ _)⟩
  scanning := orderly.scanning
  pruning := by
    intro t mem
    have before := orderly.pruning t mem
    cases t with
    | lockPrune now | enterPrune now => exact Nat.le_trans before (Nat.le_add_right _ _)
    | prune now todo => exact ⟨Nat.le_trans before.1 (Nat.le_add_right _ _), before.2⟩
    | _ => trivial
  holds := orderly.holds

theorem step_orderly (p : System α) (e : Event) (orderly : Orderly sorter p) :
    Orderly sorter (step scoring sorter convert p e) := by
  refine step_keeps ?_ ?_ ?_ p e orderly
  · intro p i f acts orderly
    exact act_orderly acts orderly
  · intro p t begins orderly
    exact start_orderly begins orderly
  · intro p d cancelled orderly
    exact pass_orderly d cancelled orderly

theorem startProbeLoop_orderly (start : Nat) (exemptIPs : List String) :
    Orderly sorter (startProbeLoop start exemptIPs) where
  locked := ⟨rfl, rfl, rfl, fun writing => Bool.noConfusion writing⟩
  sound := ⟨fun _ _ known => (nomatch known), fun _ mem => (nomatch mem)⟩
  scanning := by simp [startProbeLoop, Scanning]
  pruning := by simp [startProbeLoop, Pruning]
  holds := by simp [startProbeLoop, Holds, Place.pointer]

/-- A pruning removes no address but the one it visits. -/
lemma visited_of_erased {c : Choice} {s : Shared} {now : Nat} {todo : List String} {ip : String}
    (known : s.poolV2.lookup ip ≠ none)
    (gone : (advance scoring sorter convert c s (.prune now todo)).shared.poolV2.lookup ip = none) :
    (visit c.pick todo).1 = ip := by
  cases todo with
  | nil => exact absurd gone known
  | cons first others =>
    by_contra elsewhere
    simp only [advance, loopStep] at gone
    split at gone
    · exact known gone
    split at gone
    · rw [AList.lookup_erase_ne (Ne.symm elsewhere)] at gone
      exact known gone
    · exact known gone

variable (scoring sorter convert) in
/-- The action by which tracker `id` of the address leaves the map: a pruning that began at
`now` visits the address, finds that the tracker was not seen in the 24 hours before, and the
address is not exempt. -/
def Prunes (p : System α) (e : Event) (ip : String) (id : Nat) : Prop :=
  p.shared.poolV2.lookup ip = some id ∧
    (step scoring sorter convert p e).shared.poolV2.lookup ip = none ∧
    ∃ i c now todo t, e = .advance i c ∧ p.workers[i]? = some (.prune now todo) ∧
      (visit c.pick todo).1 = ip ∧ ip ∉ p.shared.exemptIPs ∧ p.shared.trackers[id]? = some t ∧
      t.quality.lastSeen + staleIPThreshold < now ∧ now ≤ p.shared.now

lemma step_kept_or_pruned (p : System α) (e : Event) (orderly : Orderly sorter p) {ip : String}
    {id : Nat} (known : p.shared.poolV2.lookup ip = some id) :
    (step scoring sorter convert p e).shared.poolV2.lookup ip = some id ∨
      Prunes scoring sorter convert p e ip id := by
  cases e with
  | advance i c =>
    cases at_i : p.workers[i]? with
    | none =>
      left
      rw [step, Pool.act, at_i]
      exact known
    | some place =>
      have acts := advance_acts scoring sorter convert c p.shared place
      rcases acts.lookup ip with same | ⟨_, unknown, _⟩ | ⟨now, todo, rfl, subject, stale, gone⟩
      · left
        rw [step, shared_act _ at_i]
        exact same.trans known
      · rw [known] at unknown
        cases unknown
      · right
        have leaves : (step scoring sorter convert p (.advance i c)).shared.poolV2.lookup ip =
            none := by
          rw [step, shared_act _ at_i]
          exact gone
        obtain ⟨t, at_id, _⟩ := orderly.sound.points ip id known
        refine ⟨known, leaves, i, c, now, todo, t, rfl, at_i, ?_, subject, at_id, ?_,
          (orderly.pruning _ (List.mem_of_getElem? at_i)).1⟩
        · exact visited_of_erased (by simp [known]) gone
        · simpa [Shared.isStale, known, at_id] using stale
  | getBestIPsV2 | record | pass | cancel => exact .inl known

/-- An address that is fresh stays so. -/
lemma step_allFresh {now : Nat} (p : System α) (e : Event)
    (before : Orderly sorter p ∧ now ≤ p.shared.now ∧ AllFresh p.shared now) :
    Orderly sorter (step scoring sorter convert p e) ∧
      now ≤ (step scoring sorter convert p e).shared.now ∧
      AllFresh (step scoring sorter convert p e).shared now := by
  obtain ⟨orderly, begun, all⟩ := before
  refine ⟨step_orderly p e orderly, ?_⟩
  cases e with
  | advance i c =>
    have acts := advance_acts scoring sorter convert c p.shared
    refine act_shared (P := fun s => now ≤ s.now ∧ AllFresh s now) ?_ ⟨begun, all⟩
    intro t _
    exact ⟨(acts t).now ▸ begun, (acts t).allFresh orderly.sound begun all⟩
  | getBestIPsV2 | record | cancel => exact ⟨begun, all⟩
  | pass d => exact ⟨Nat.le_trans begun (Nat.le_add_right _ _), all⟩

variable (scoring sorter convert)

def runFrom (start : Nat) (exemptIPs : List String) (events : List Event) : System α :=
  StepRuns.run (step scoring sorter convert) (startProbeLoop start exemptIPs) events

lemma runFrom_append (start : Nat) (exemptIPs : List String) (past later : List Event) :
    runFrom scoring sorter convert start exemptIPs (past ++ later) =
      StepRuns.run (step scoring sorter convert)
        (runFrom scoring sorter convert start exemptIPs past) later :=
  StepRuns.run_append _ _ _ _

theorem reachable_orderly (start : Nat) (exemptIPs : List String) (events : List Event) :
    Orderly sorter (runFrom scoring sorter convert start exemptIPs events) :=
  StepRuns.run_preserves _ step_orderly (startProbeLoop_orderly start exemptIPs) events

/-- A pruning removes only what is stale, and nothing else is ever removed. In every
interleaving, a tracker that the map has for an address stays there, unless a pruning visits the
address, finds the tracker unseen for more than 24 hours and the address not exempt; and when a
pruning that began at `now` has visited all addresses, then every address that is in the map at
that time or later is exempt or has a tracker that was seen in the 24 hours before `now`, or after
it. (An address that was stale at `now` is still there if it was seen before its visit, and may
come back later.) -/
theorem pruning_is_exact (start : Nat) (exemptIPs : List String) (past later : List Event) :
    let p := runFrom scoring sorter convert start exemptIPs past
    let q := runFrom scoring sorter convert start exemptIPs (past ++ later)
    (∀ ip id, p.shared.poolV2.lookup ip = some id → q.shared.poolV2.lookup ip = some id ∨
      ∃ mid e rest, later = mid ++ e :: rest ∧
        Prunes scoring sorter convert
          (runFrom scoring sorter convert start exemptIPs (past ++ mid)) e ip id) ∧
    ∀ now, .prune now [] ∈ p.workers → ∀ ip id, q.shared.poolV2.lookup ip = some id →
      Fresh q.shared now ip id := by
  intro p q
  have orderly : Orderly sorter p := reachable_orderly scoring sorter convert start exemptIPs past
  have q_eq : q = StepRuns.run (step scoring sorter convert) p later := runFrom_append ..
  refine ⟨?_, ?_⟩
  · intro ip id known
    rw [q_eq]
    simp only [runFrom_append]
    exact StepRuns.run_keeps_or (step scoring sorter convert)
      (R := fun p => p.shared.poolV2.lookup ip = some id) step_orderly
      (fun p e orderly known => step_kept_or_pruned p e orderly known) orderly known later
  · intro now visited
    obtain ⟨begun, all⟩ := orderly.pruning _ visited
    have fresh : AllFresh p.shared now := fun ip id known =>
      (all ip id known).resolve_left List.not_mem_nil
    rw [q_eq]
    exact (StepRuns.run_preserves (step scoring sorter convert)
      (P := fun p => Orderly sorter p ∧ now ≤ p.shared.now ∧ AllFresh p.shared now)
      step_allFresh ⟨orderly, begun, fresh⟩ later).2.2

/-- Goroutine `i` takes `n` actions, with the first key and a good outcome each time. -/
def goes (i n : Nat) : List Event := List.replicate n (.advance i ⟨0, true⟩)

/-- Two calls meet an address that has no tracker: both want to make one, and the second finds
that of the first. -/
def twoCalls : List Event :=
  [.getBestIPsV2 ["192.0.2.1", "192.0.2.2"], .getBestIPsV2 ["192.0.2.1"]] ++
    goes 1 2 ++ goes 2 2 ++ goes 1 2 ++ goes 2 5 ++ goes 1 8

/-- A tracker is made, a goroutine looks it up, and after a day the loop prunes it. -/
def firstDay : List Event := .getBestIPsV2 ["192.0.2.1"] :: (goes 1 7 ++
  [.record "192.0.2.1" .failure] ++ goes 2 1)

def nextDay : List Event := .pass (staleIPThreshold + 1) :: goes 0 10

/-- Before the pruning, and when it has visited all addresses. -/
theorem pruning_is_exact_next_day :
    let sorter := Sorter.insertion LowerScore
    let run := runFrom exact sorter id 0 ["198.41.0.4"]
    ((run (firstDay ++ nextDay)).shared.poolV2.lookup "192.0.2.1" = some 0 ∨
      ∃ mid e rest, nextDay = mid ++ e :: rest ∧
        Prunes exact sorter id (run (firstDay ++ mid)) e "192.0.2.1" 0) ∧
    ∀ ip id, (run ((firstDay ++ nextDay) ++ twoCalls)).shared.poolV2.lookup ip = some id →
      Fresh (run ((firstDay ++ nextDay) ++ twoCalls)).shared (staleIPThreshold + 1) ip id := by
  refine ⟨?_, ?_⟩
  · exact (pruning_is_exact exact (Sorter.insertion LowerScore) id 0 ["198.41.0.4"] firstDay
      nextDay).1 "192.0.2.1" 0 (by decide +kernel)
  · exact (pruning_is_exact exact (Sorter.insertion LowerScore) id 0 ["198.41.0.4"]
      (firstDay ++ nextDay) twoCalls).2 (staleIPThreshold + 1) (by decide +kernel)

/-- The tracker that goroutine `i` points to was pruned after the goroutine had looked it up. -/
def PrunedInUse (start : Nat) (exemptIPs : List String) (events : List Event) (i : Nat)
    (ip : String) (id : Nat) : Prop :=
  ∃ past e later, events = past ++ e :: later ∧
    Prunes scoring sorter convert (runFrom scoring sorter convert start exemptIPs past) e ip id ∧
    ∃ t, (runFrom scoring sorter convert start exemptIPs past).workers[i]? = some t ∧
      t.pointer = some (ip, id)

variable {scoring sorter convert}

lemma PrunedInUse.snoc {start : Nat} {exemptIPs : List String} {events : List Event} {i : Nat}
    {ip : String} {id : Nat}
    (pruned : PrunedInUse scoring sorter convert start exemptIPs events i ip id) (e : Event) :
    PrunedInUse scoring sorter convert start exemptIPs (events ++ [e]) i ip id := by
  obtain ⟨past, e', later, rfl, prunes, held⟩ := pruned
  exact ⟨past, e', later ++ [e], by simp, prunes, held⟩

/-- A pointer is held since before an event, or was taken from the map by it. -/
lemma step_pointer (p : System α) (e : Event) {i : Nat} {t : Place α} {ip : String} {id : Nat}
    (at_i : (step scoring sorter convert p e).workers[i]? = some t)
    (holds : t.pointer = some (ip, id)) :
    (∃ t', p.workers[i]? = some t' ∧ t'.pointer = some (ip, id)) ∨
      (step scoring sorter convert p e).shared.poolV2.lookup ip = some id := by
  have started (new : Place α) (begins : new.begins = true)
      (at_i : (p.start new).workers[i]? = some t) : p.workers[i]? = some t := by
    rw [Pool.start, List.getElem?_append] at at_i
    split at at_i
    · exact at_i
    · rw [List.mem_singleton.mp (List.mem_of_getElem? at_i)] at holds
      cases new with
      | rLock | lookup => cases holds
      | _ => cases begins
  cases e with
  | advance j c =>
    cases at_j : p.workers[j]? with
    | none =>
      rw [step, Pool.act, at_j] at at_i
      exact .inl ⟨t, at_i, holds⟩
    | some place =>
      have acts := advance_acts scoring sorter convert c p.shared place
      rw [step, shared_act _ at_j]
      by_cases same : j = i
      · subst same
        rw [step, act_self _ at_j] at at_i
        cases at_i
        exact (acts.pointer holds).imp_left fun before => ⟨place, at_j, before⟩
      · rw [step, Pool.act, at_j] at at_i
        dsimp only at at_i
        rw [acts.alone, List.append_nil, List.getElem?_set_ne same] at at_i
        exact .inl ⟨t, at_i, holds⟩
  | getBestIPsV2 ips => exact .inl ⟨t, started (.rLock ips) rfl at_i, holds⟩
  | record ip' r => exact .inl ⟨t, started (.lookup ip' r) rfl at_i, holds⟩
  | pass | cancel => exact .inl ⟨t, at_i, holds⟩

variable (scoring sorter convert)

/-- No update of a tracker is lost. In every interleaving, a goroutine that is about to call a
tracker (to record a latency or a failure, to reset it, to score it) points to a tracker of the
address it had looked up, and to the one that the map has for this address, so that everybody
sees the update; unless that tracker was pruned after the goroutine had looked it up. -/
theorem records_reach_the_pool (start : Nat) (exemptIPs : List String) (events : List Event) :
    let p := runFrom scoring sorter convert start exemptIPs events
    ∀ i t ip id, p.workers[i]? = some t → t.pointer = some (ip, id) →
      Points p.shared id ip ∧ (p.shared.poolV2.lookup ip = some id ∨
        PrunedInUse scoring sorter convert start exemptIPs events i ip id) := by
  intro p i t ip id at_i holds
  have orderly : Orderly sorter p := reachable_orderly scoring sorter convert start exemptIPs events
  refine ⟨orderly.holds t (List.mem_of_getElem? at_i) ip id holds, ?_⟩
  clear orderly
  induction events using List.reverseRecOn generalizing t with
  | nil =>
    have only : t = .waitTick := List.mem_singleton.mp (List.mem_of_getElem? at_i)
    rw [only] at holds
    cases holds
  | append_singleton past e ih =>
    have last : p = step scoring sorter convert
        (runFrom scoring sorter convert start exemptIPs past) e :=
      StepRuns.run_snoc ..
    rw [last] at at_i ⊢
    rcases step_pointer _ e at_i holds with ⟨t', before, held⟩ | known
    · rcases ih t' before held with known | pruned
      · have orderly := reachable_orderly scoring sorter convert start exemptIPs past
        refine (step_kept_or_pruned _ e orderly known).imp_right fun prunes => ?_
        exact ⟨past, e, [], by simp, prunes, t', before, held⟩
      · exact .inr (pruned.snoc e)
    · exact .inl known

/-- The failure of a day ago is about to be recorded. -/
theorem records_reach_the_pool_next_day :
    let sorter := Sorter.insertion LowerScore
    let p := runFrom exact sorter id 0 ["198.41.0.4"] (firstDay ++ nextDay)
    Points p.shared 0 "192.0.2.1" ∧ (p.shared.poolV2.lookup "192.0.2.1" = some 0 ∨
      PrunedInUse exact sorter id 0 ["198.41.0.4"] (firstDay ++ nextDay) 2 "192.0.2.1" 0) :=
  records_reach_the_pool exact (Sorter.insertion LowerScore) id 0 ["198.41.0.4"]
    (firstDay ++ nextDay) 2 (.record "192.0.2.1" 0 .failure) "192.0.2.1" 0 (by decide +kernel) rfl

/-! ### Waiting for the lock -/

/-- The call has returned, or the loop has ended. -/
def Place.over : Place α → Prop
  | .chosen _ _ _ | .ended => True
  | _ => False

/-- An action of a goroutine that holds the lock. -/
def Event.byHolder (p : System α) : Event → Bool
  | .advance i _ => (p.workers[i]?).any fun t => t.part.reads ≠ 0 ∨ t.part.writes ≠ 0
  | _ => false

def holderActions (p : System α) : List Event → Nat
  | [] => 0
  | e :: later => (e.byHolder p).toNat + holderActions (step scoring sorter convert p e) later

variable {scoring sorter convert}

lemma length_visit (pick : Nat) (first : String) (others : List String) :
    (visit pick (first :: others)).2.length = others.length := by
  have perm := (visit_perm pick (List.cons_ne_nil first others)).length_eq
  simpa using perm

/-- Whoever holds the lock goes on, and gives it back. -/
lemma advance_holder (c : Choice) (s : Shared) {t : Place α}
    (holds : t.part.reads ≠ 0 ∨ t.part.writes ≠ 0) :
    (advance scoring sorter convert c s t).worker.holdsFor < t.holdsFor := by
  cases t with
  | scan ips todo scores =>
    cases todo with
    | nil => exact Nat.zero_lt_succ _
    | cons ip todo =>
      simp only [advance, callStep]
      split
      · exact Nat.lt_succ_self _
      · exact Nat.zero_lt_succ _
  | rescore => exact Nat.lt_succ_self _
  | collect todo candidates =>
    cases todo with
    | nil => exact Nat.zero_lt_succ _
    | cons first others =>
      simp only [advance, loopStep, Place.holdsFor, length_visit]
      exact Nat.lt_succ_self _
  | prune now todo =>
    cases todo with
    | nil => exact Nat.zero_lt_succ _
    | cons first others =>
      simp only [advance, loopStep]
      split
      · simp [Place.holdsFor, length_visit]
      split
      · simp [Place.holdsFor, length_visit]
      · simp [Place.holdsFor, length_visit]
  | _ => simp [Place.part] at holds

/-- A writer that waits goes in when the lock is free. -/
lemma advance_enters (c : Choice) {s : Shared} {t : Place α} (waits : t.part.waits ≠ 0)
    (free : s.l.enter ≠ none) : (advance scoring sorter convert c s t).worker ≠ t := by
  obtain ⟨l, entered⟩ := Option.ne_none_iff_exists'.mp free
  cases t with
  | enterCreate ips ip todo scores =>
    simp only [advance, callStep, entered]
    split
    · simp
    · simp
  | enterPrune now =>
    simp [advance, loopStep, entered]
  | _ => simp [Place.part] at waits

/-- What keeps a goroutine from going on is the lock. -/
lemma held_of_blocked {s : Shared} {t : Place α}
    (blocked : ∀ c, (advance scoring sorter convert c s t).worker = t) :
    t.over ∨ s.l.claimed = true ∨ s.l.readers ≠ 0 := by
  have unreadable (waits : s.l.tryRLock = none) : s.l.claimed = true := by
    by_contra free
    simp [RWMutex.tryRLock, free] at waits
  have unclaimable (waits : s.l.claim = none) : s.l.claimed = true := by
    by_contra free
    simp [RWMutex.claim, free] at waits
  have closed (waits : s.l.enter = none) : s.l.claimed = true ∨ s.l.readers ≠ 0 := by
    by_contra free
    rw [not_or, not_not, Bool.not_eq_true, RWMutex.claimed_eq_false] at free
    simp [RWMutex.enter, free.1.1, free.2] at waits
  have stays := blocked ⟨0, true⟩
  have held (holds : t.part.reads ≠ 0 ∨ t.part.writes ≠ 0) : False := by
    have lower : (advance scoring sorter convert ⟨0, true⟩ s t).worker.holdsFor < t.holdsFor :=
      advance_holder _ s holds
    rw [stays] at lower
    exact Nat.lt_irrefl _ lower
  cases t with
  | chosen | ended => exact .inl trivial
  | scan | rescore | collect => exact (held (.inl Nat.one_ne_zero)).elim
  | prune => exact (held (.inr Nat.one_ne_zero)).elim
  | rLock | relock | startCollect =>
    simp only [advance, callStep, loopStep] at stays
    split at stays
    · rename_i waits
      exact .inr (.inl (unreadable waits))
    · cases stays
  | lookup =>
    simp only [advance, callStep] at stays
    split at stays
    · rename_i waits
      exact .inr (.inl (unreadable waits))
    split at stays
    · cases stays
    · cases stays
  | probed ip ok candidates =>
    simp only [advance, loopStep] at stays
    split at stays
    · rename_i waits
      exact .inr (.inl (unreadable waits))
    split at stays
    · cases stays
    · cases ok with
      | true | false => cases stays
  | create | lockPrune =>
    simp only [advance, callStep, loopStep] at stays
    split at stays
    · rename_i waits
      exact .inr (.inl (unclaimable waits))
    · cases stays
  | enterCreate =>
    simp only [advance, callStep] at stays
    split at stays
    · rename_i waits
      exact .inr (closed waits)
    split at stays
    · cases stays
    · cases stays
  | enterPrune =>
    simp only [advance, loopStep] at stays
    split at stays
    · rename_i waits
      exact .inr (closed waits)
    · cases stays
  | probe candidates =>
    cases candidates with
    | nil | cons => cases stays
  | checkPrune =>
    simp only [advance, loopStep] at stays
    split at stays
    · cases stays
    · cases stays
  | record | waitTick | reset | startPrune | setPruned => cases stays

/-- While a writer waits and is not let in, what the holders have still to do does not grow, and
every action of one of them is taken off it. -/
lemma step_holdsFor {p : System α} {e : Event} (orderly : Orderly sorter p)
    (waits : p.shared.l.waiting = true)
    (waits' : (step scoring sorter convert p e).shared.l.waiting = true) :
    (e.byHolder p).toNat + owned Place.holdsFor (step scoring sorter convert p e).workers ≤
      owned Place.holdsFor p.workers := by
  cases e with
  | advance i c =>
    cases at_i : p.workers[i]? with
    | none => simp [Event.byHolder, at_i, step, Pool.act]
    | some t =>
      have acts := advance_acts scoring sorter convert c p.shared t
      have after : (step scoring sorter convert p (.advance i c)).workers =
          p.workers.set i (advance scoring sorter convert c p.shared t).worker := by
        rw [step, Pool.act, at_i]
        dsimp only
        rw [acts.alone, List.append_nil]
      have sum := owned_set Place.holdsFor at_i (advance scoring sorter convert c p.shared t).worker
      rw [after]
      by_cases holds : t.part.reads ≠ 0 ∨ t.part.writes ≠ 0
      · have lower : (advance scoring sorter convert c p.shared t).worker.holdsFor < t.holdsFor :=
          advance_holder c p.shared holds
        have most := Bool.toNat_le (Event.byHolder p (.advance i c))
        omega
      · have none_held : Event.byHolder p (.advance i c) = false := by
          simpa [Event.byHolder, at_i] using holds
        obtain ⟨unread, unwritten⟩ := not_or.mp holds
        -- nobody begins to read, and a writer that was let in would not wait any more
        have reads := acts.moves.reads_le waits
        have writes : (advance scoring sorter convert c p.shared t).worker.part.writes = 0 := by
          by_contra writing
          have orderly' : Orderly sorter (step scoring sorter convert p (.advance i c)) :=
            step_orderly p _ orderly
          have mem : (advance scoring sorter convert c p.shared t).worker ∈
              (step scoring sorter convert p (.advance i c)).workers := by
            rw [after]
            exact List.mem_set (List.getElem?_eq_some_iff.mp at_i).1 _
          have calm := (orderly'.locked.apart (orderly'.locked.writing mem writing)).2
          rw [waits'] at calm
          cases calm
        have nothing := holdsFor_eq_zero
          (Nat.eq_zero_of_le_zero (Nat.le_trans reads (Nat.le_of_eq (not_not.mp unread)))) writes
        rw [none_held, Bool.toNat_false]
        omega
  | getBestIPsV2 | record => simp [Event.byHolder, step, Pool.start, Place.holdsFor]
  | pass | cancel => simp [Event.byHolder, step]

theorem holderActions_le {p : System α} (orderly : Orderly sorter p) (later : List Event)
    (waits : ∀ mid, mid <+: later →
      (StepRuns.run (step scoring sorter convert) p mid).shared.l.waiting = true) :
    holderActions scoring sorter convert p later ≤ owned Place.holdsFor p.workers := by
  induction later generalizing p with
  | nil => exact Nat.zero_le _
  | cons e later ih =>
    have first := step_holdsFor orderly (waits [] List.nil_prefix)
      (waits [e] (List.prefix_append [e] later))
    have rest := ih (step_orderly p e orderly)
      fun mid part => waits (e :: mid) (List.cons_prefix_cons.mpr ⟨rfl, part⟩)
    rw [holderActions]
    omega

variable (scoring sorter convert)

/-- The lock of the pool, in every interleaving. When a goroutine that has not returned cannot
go on, whatever the outside decides, then one that holds the lock can, and every action of it, in
whatever state of the pool, brings it closer to giving the lock back; or the writer whose turn it
is can go in. And readers do not keep a writer out: as long as one waits, those that hold the lock
take together no more actions than they had left when it came. -/
theorem pool_lock_comes_back (start : Nat) (exemptIPs : List String) (past later : List Event) :
    let p := runFrom scoring sorter convert start exemptIPs past
    (∀ t ∈ p.workers, (∀ c, (advance scoring sorter convert c p.shared t).worker = t) → ¬ t.over →
      (∃ holder ∈ p.workers, 0 < holder.holdsFor ∧
        ∀ c s, (advance scoring sorter convert c s holder).worker.holdsFor < holder.holdsFor) ∨
      ∃ writer ∈ p.workers, writer.part.waits ≠ 0 ∧
        ∀ c, (advance scoring sorter convert c p.shared writer).worker ≠ writer) ∧
    ((∀ mid, mid <+: later →
        (runFrom scoring sorter convert start exemptIPs (past ++ mid)).shared.l.waiting = true) →
      holderActions scoring sorter convert p later ≤ owned Place.holdsFor p.workers) := by
  intro p
  have orderly : Orderly sorter p := reachable_orderly scoring sorter convert start exemptIPs past
  refine ⟨?_, ?_⟩
  · intro t _ blocked unfinished
    have locked := (held_of_blocked blocked).resolve_left unfinished
    rcases orderly.locked.exists_next locked with ⟨holder, mem, holds⟩ | ⟨writer, mem, waits, free⟩
    · have lower (c : Choice) (s : Shared) :
          (advance scoring sorter convert c s holder).worker.holdsFor < holder.holdsFor :=
        advance_holder c s holds
      exact .inl ⟨holder, mem, Nat.zero_lt_of_lt (lower ⟨0, true⟩ p.shared), lower⟩
    · exact .inr ⟨writer, mem, waits, fun c => advance_enters c waits free⟩
  · intro waits
    refine holderActions_le orderly later fun mid part => ?_
    rw [← runFrom_append]
    exact waits mid part

/-- One call scans, a second waits to make a tracker, and a third has to wait behind it. -/
def behindWriter : List Event :=
  [.getBestIPsV2 ["192.0.2.1", "192.0.2.2"], .getBestIPsV2 ["192.0.2.1"],
    .getBestIPsV2 ["192.0.2.1"]] ++ goes 2 2 ++ goes 1 1 ++ goes 2 1

def waiting : System Rat := runFrom exact (Sorter.insertion LowerScore) id 0 [] behindWriter

theorem pool_lock_comes_back_waiting :
    .rLock ["192.0.2.1"] ∈ waiting.workers ∧ waiting.shared.l.writer = false ∧
    ((∃ holder ∈ waiting.workers, 0 < holder.holdsFor ∧
        ∀ c s, (advance exact (Sorter.insertion LowerScore) id c s holder).worker.holdsFor <
          holder.holdsFor) ∨
      ∃ writer ∈ waiting.workers, writer.part.waits ≠ 0 ∧
        ∀ c, (advance exact (Sorter.insertion LowerScore) id c waiting.shared writer).worker ≠
          writer) ∧
    holderActions exact (Sorter.insertion LowerScore) id waiting [.pass 1] ≤
      owned Place.holdsFor waiting.workers := by
  have comes_back := pool_lock_comes_back exact (Sorter.insertion LowerScore) id 0 [] behindWriter
    [.pass 1]
  simp only [← waiting.eq_def] at comes_back
  have waits : .rLock ["192.0.2.1"] ∈ waiting.workers := by decide +kernel
  have held : waiting.shared.l.tryRLock = none := by decide +kernel
  refine ⟨waits, by decide +kernel, comes_back.1 _ waits ?_ id, comes_back.2 ?_⟩
  · intro c
    simp only [advance, callStep, held]
  · intro mid part
    have either : mid ∈ [[], [Event.pass 1]] := by
      rw [← List.mem_inits] at part
      exact part
    rcases List.mem_cons.mp either with rfl | last
    · decide +kernel
    · rw [List.mem_singleton.mp last]
      decide +kernel

/-! ### The choice -/

/-- At some moment since call `i` began the map had a tracker for the address, and then or later
the tracker was of this quality. -/
def Moment (start : Nat) (exemptIPs : List String) (events : List Event) (i : Nat) (ip : String)
    (iq : IPQualityV2) : Prop :=
  ∃ before between after id t, events = before ++ between ++ after ∧
    i < (runFrom scoring sorter convert start exemptIPs before).workers.length ∧
    (runFrom scoring sorter convert start exemptIPs before).shared.poolV2.lookup ip = some id ∧
    (runFrom scoring sorter convert start exemptIPs (before ++ between)).shared.trackers[id]? =
      some t ∧ t.quality = iq

/-- The scores of a call were those of the addresses at some moments. -/
def Scored (start : Nat) (exemptIPs : List String) (events : List Event) (i : Nat)
    (scores : List (String × α)) : Prop :=
  ∃ seen : List IPQualityV2, List.Forall₂ (fun entry iq => entry.2 = scoring.getScore iq ∧
    Moment scoring sorter convert start exemptIPs events i entry.1 iq) scores seen

variable {scoring sorter convert}
variable {start : Nat} {exemptIPs : List String} {events : List Event} {i : Nat}

lemma Moment.snoc {ip : String} {iq : IPQualityV2}
    (moment : Moment scoring sorter convert start exemptIPs events i ip iq) (e : Event) :
    Moment scoring sorter convert start exemptIPs (events ++ [e]) i ip iq := by
  obtain ⟨before, between, after, id, t, rfl, begun, known, there⟩ := moment
  exact ⟨before, between, after ++ [e], id, t, by simp, begun, known, there⟩

lemma Scored.snoc {scores : List (String × α)}
    (scored : Scored scoring sorter convert start exemptIPs events i scores) (e : Event) :
    Scored scoring sorter convert start exemptIPs (events ++ [e]) i scores := by
  obtain ⟨seen, each⟩ := scored
  exact ⟨seen, each.imp fun _ _ ⟨score, moment⟩ => ⟨score, moment.snoc e⟩⟩

lemma Scored.nil : Scored scoring sorter convert start exemptIPs events i [] := ⟨[], .nil⟩

lemma Scored.append {scores : List (String × α)}
    (scored : Scored scoring sorter convert start exemptIPs events i scores) {ip : String}
    {iq : IPQualityV2}
    (moment : Moment scoring sorter convert start exemptIPs events i ip iq) :
    Scored scoring sorter convert start exemptIPs events i
      (scores ++ [(ip, scoring.getScore iq)]) := by
  obtain ⟨seen, each⟩ := scored
  exact ⟨seen ++ [iq], List.rel_append each (.cons ⟨rfl, moment⟩ .nil)⟩

lemma Acts.scores {s : Shared} {place : Place α} {a : Acted Shared (Place α)}
    (acts : Acts scoring sorter convert s place a) :
    a.worker.scores = place.scores ∨ a.worker.scores = [] ∨
      ∃ ip id, a.worker.scores = place.scores ++ [(ip, s.score scoring id)] ∧
        (s.poolV2.lookup ip = some id ∨ place.pointer = some (ip, id)) := by
  cases acts with
  | rest | scanEnded | missed | createClaimed | found | created | relocked => exact .inl rfl
  | @scored ips ip todo scores id known => exact .inr (.inr ⟨ip, id, rfl, .inl known⟩)
  | @rescored ips id ip => exact .inr (.inr ⟨ip, id, rfl, .inr rfl⟩)
  | _ => exact .inr (.inl rfl)

/-- A pointer that a call holds was in the map since the call began. -/
lemma reachable_pointer {t : Place α} {ip : String} {id : Nat}
    (at_i : (runFrom scoring sorter convert start exemptIPs events).workers[i]? = some t)
    (holds : t.pointer = some (ip, id)) :
    ∃ before between, events = before ++ between ∧
      i < (runFrom scoring sorter convert start exemptIPs before).workers.length ∧
      (runFrom scoring sorter convert start exemptIPs before).shared.poolV2.lookup ip =
        some id := by
  induction events using List.reverseRecOn generalizing t with
  | nil =>
    rw [List.mem_singleton.mp (List.mem_of_getElem? at_i)] at holds
    cases holds
  | append_singleton past e ih =>
    have last : runFrom scoring sorter convert start exemptIPs (past ++ [e]) =
        step scoring sorter convert (runFrom scoring sorter convert start exemptIPs past) e :=
      StepRuns.run_snoc ..
    have begun := (List.getElem?_eq_some_iff.mp at_i).1
    rw [last] at at_i
    rcases step_pointer _ e at_i holds with ⟨t', before, held⟩ | known
    · obtain ⟨first, between, rfl, started, known⟩ := ih before held
      exact ⟨first, between ++ [e], by simp, started, known⟩
    · rw [← last] at known
      exact ⟨past ++ [e], [], by simp, begun, known⟩

/-- What a call reads from a tracker is the score of the address at a moment since it began. -/
lemma score_moment {place : Place α} {ip : String} {id : Nat}
    (at_i : (runFrom scoring sorter convert start exemptIPs events).workers[i]? = some place)
    (whose : (runFrom scoring sorter convert start exemptIPs events).shared.poolV2.lookup ip =
      some id ∨ place.pointer = some (ip, id)) :
    ∃ iq, (runFrom scoring sorter convert start exemptIPs events).shared.score scoring id =
        scoring.getScore iq ∧
      Moment scoring sorter convert start exemptIPs events i ip iq := by
  have orderly := reachable_orderly scoring sorter convert start exemptIPs events
  have known : ∃ first between, events = first ++ between ∧
      i < (runFrom scoring sorter convert start exemptIPs first).workers.length ∧
      (runFrom scoring sorter convert start exemptIPs first).shared.poolV2.lookup ip =
        some id := by
    rcases whose with here | held
    · exact ⟨events, [], (List.append_nil _).symm, (List.getElem?_eq_some_iff.mp at_i).1, here⟩
    · exact reachable_pointer at_i held
  have points : Points (runFrom scoring sorter convert start exemptIPs events).shared id ip := by
    rcases whose with here | held
    · exact orderly.sound.points ip id here
    · exact orderly.holds place (List.mem_of_getElem? at_i) ip id held
  obtain ⟨first, between, whole, begun, mapped⟩ := known
  obtain ⟨t, at_id, _⟩ := points
  refine ⟨t.quality, ?_, first, between, [], id, t, ?_, begun, mapped, ?_, rfl⟩
  · rw [Shared.score, at_id]
    rfl
  · rw [List.append_nil, whole]
  · rw [← whole]
    exact at_id

theorem reachable_scored {t : Place α}
    (at_i : (runFrom scoring sorter convert start exemptIPs events).workers[i]? = some t) :
    Scored scoring sorter convert start exemptIPs events i t.scores := by
  induction events using List.reverseRecOn generalizing t with
  | nil =>
    rw [List.mem_singleton.mp (List.mem_of_getElem? at_i)]
    exact .nil
  | append_singleton past e ih =>
    have last : runFrom scoring sorter convert start exemptIPs (past ++ [e]) =
        step scoring sorter convert (runFrom scoring sorter convert start exemptIPs past) e :=
      StepRuns.run_snoc ..
    rw [last] at at_i
    have started (new : Place α) (begins : new.begins = true)
        (at_i : ((runFrom scoring sorter convert start exemptIPs past).start new).workers[i]? =
          some t) :
        Scored scoring sorter convert start exemptIPs (past ++ [e]) i t.scores := by
      rw [Pool.start, List.getElem?_append] at at_i
      split at at_i
      · exact (ih at_i).snoc e
      · rw [List.mem_singleton.mp (List.mem_of_getElem? at_i)]
        cases new with
        | rLock | lookup => exact .nil
        | _ => cases begins
    cases e with
    | advance j c =>
      cases at_j : (runFrom scoring sorter convert start exemptIPs past).workers[j]? with
      | none =>
        rw [step, Pool.act, at_j] at at_i
        exact (ih at_i).snoc _
      | some place =>
        have acts := advance_acts scoring sorter convert c
          (runFrom scoring sorter convert start exemptIPs past).shared place
        by_cases same : j = i
        · subst same
          have before := ih at_j
          rw [step, act_self _ at_j] at at_i
          cases at_i
          rcases acts.scores with kept | none_left | ⟨ip, id, more, whose⟩
          · rw [kept]
            exact before.snoc _
          · rw [none_left]
            exact .nil
          · obtain ⟨iq, score, moment⟩ := score_moment at_j whose
            rw [more, score]
            exact (before.append moment).snoc _
        · rw [step, Pool.act, at_j] at at_i
          dsimp only at at_i
          rw [acts.alone, List.append_nil, List.getElem?_set_ne same] at at_i
          exact (ih at_i).snoc _
    | getBestIPsV2 ips => exact started (.rLock ips) rfl at_i
    | record ip r => exact started (.lookup ip r) rfl at_i
    | pass | cancel => exact (ih at_i).snoc _

/-! ### Suspect addresses come last -/

def Record.InRange : Record → Prop
  | .latency value => 0 ≤ value ∧ value ≤ maxIPLatency
  | .failure => True

def Event.InRange : Event → Prop
  | .record _ r => r.InRange
  | _ => True

def Place.InRange : Place α → Prop
  | .lookup _ r | .record _ _ r => r.InRange
  | _ => True

/-- Every tracker in memory, whether or not the map still has it, keeps its bounds. -/
structure Ranged (p : System α) : Prop where
  bounded : ∀ t ∈ p.shared.trackers, Bounded t.quality
  inRange : ∀ t ∈ p.workers, t.InRange

lemma Acts.ranged {s : Shared} {place : Place α} {a : Acted Shared (Place α)}
    (acts : Acts scoring sorter convert s place a) (inRange : place.InRange)
    (bounded : ∀ t ∈ s.trackers, Bounded t.quality) :
    ∀ t ∈ a.shared.trackers, Bounded t.quality := by
  intro t mem
  obtain ⟨id, at_id⟩ := List.mem_iff_getElem?.mp mem
  rcases acts.trackers at_id with same | ⟨old, call, at_old, made, rfl⟩ | ⟨ip, rfl⟩
  · exact bounded t (List.mem_of_getElem? same)
  · have before := bounded old (List.mem_of_getElem? at_old)
    refine perform_bounded convert before (show PoolCall.InRange (.tracker old.ip call) from ?_)
    cases place with
    | record ip id r =>
      cases made
      cases r with
      | latency | failure => exact inRange
    | reset =>
      cases made
      trivial
    | _ => cases made
  · exact newIPQualityV2_bounded s.now

lemma Acts.inRange {s : Shared} {place : Place α} {a : Acted Shared (Place α)}
    (acts : Acts scoring sorter convert s place a) (inRange : place.InRange) :
    a.worker.InRange := by
  cases acts with
  | rest | lookedUp => exact inRange
  | _ => trivial

lemma step_ranged (p : System α) (e : Event) (inRange : e.InRange) (ranged : Ranged p) :
    Ranged (step scoring sorter convert p e) := by
  have both {t : Place α} (new : t.InRange) : ∀ t' ∈ p.workers ++ [t], t'.InRange := by
    intro t' mem
    rcases List.mem_append.mp mem with before | here
    · exact ranged.inRange t' before
    · rw [List.mem_singleton.mp here]
      exact new
  cases e with
  | advance i c =>
    have acts := advance_acts scoring sorter convert c p.shared
    constructor
    · exact act_shared (P := fun s => ∀ t ∈ s.trackers, Bounded t.quality)
        (fun t mem => (acts t).ranged (ranged.inRange t mem) ranged.bounded) ranged.bounded
    · exact act_workers (fun t _ inRange => ⟨(acts t).inRange inRange, by simp [(acts t).alone]⟩)
        ranged.inRange
  | getBestIPsV2 ips => exact ⟨ranged.bounded, both trivial⟩
  | record ip r => exact ⟨ranged.bounded, both inRange⟩
  | pass | cancel => exact ⟨ranged.bounded, ranged.inRange⟩

theorem reachable_ranged (inRange : ∀ e ∈ events, Event.InRange e) :
    Ranged (runFrom scoring sorter convert start exemptIPs events) := by
  refine StepRuns.run_preserves_of_mem (step scoring sorter convert) ?_ ⟨?_, ?_⟩
  · intro p e mem ranged
    exact step_ranged p e (inRange e mem) ranged
  · intro t mem
    cases mem
  · simp [startProbeLoop, Place.InRange]

/-- The first of the sorted entries has the least score. -/
lemma best_of_sort (sorter : Sorter (String × α) LowerScore) {l : List (String × α)}
    (some_listed : l ≠ []) :
    ∃ entry ∈ l, (bestTwo ((sorter.sort l).map Prod.fst)).1 = entry.1 ∧
      ∀ other ∈ l, entry.2 ≤ other.2 := by
  cases sorted : sorter.sort l with
  | nil =>
    have same := (sorter.perm l).length_eq
    rw [sorted] at same
    exact absurd (List.length_eq_zero_iff.mp same.symm) some_listed
  | cons entry rest =>
    have listed : entry ∈ l := sorter.mem_sort.mp (sorted ▸ List.mem_cons_self)
    refine ⟨entry, listed, rfl, ?_⟩
    intro other mem
    have pairs := sorter.sorted l
    rw [sorted, List.pairwise_cons] at pairs
    have among := sorter.mem_sort.mpr mem
    rw [sorted] at among
    rcases List.mem_cons.mp among with rfl | later
    · exact le_refl _
    · exact pairs.1 other later

variable (scoring sorter convert)

/-- A choice among addresses that others update at the same time. In every interleaving, when
a call of `GetBestIPsV2` returns, each candidate had at some moment since the call began a tracker
in the map, and then or later in the call a quality, such that the result is what these qualities
call for: the first two of the candidates in the order of their scores. If the latencies that are
recorded are between 0 and the maximum, suspect trackers score higher than others, and one of the
candidates was not suspect at its moment, then the first of the two was not suspect at its own. -/
theorem choice_of_moments (start : Nat) (exemptIPs : List String) (events : List Event) (i : Nat)
    (ips : List String) (scores : List (String × α)) (best : String × String)
    (returned : (runFrom scoring sorter convert start exemptIPs events).workers[i]? =
      some (.chosen ips scores best)) :
    ∃ seen : List IPQualityV2,
      List.Forall₂ (Moment scoring sorter convert start exemptIPs events i) ips seen ∧
      best = bestTwo ((sorter.sort (ips.zip (seen.map scoring.getScore))).map Prod.fst) ∧
      ((∀ e ∈ events, Event.InRange e) → scoring.SuspectLast →
        (∃ iq ∈ seen, iq.state ≠ .suspect) →
        ∃ (k : Nat) (iq : IPQualityV2), ips[k]? = some best.1 ∧ seen[k]? = some iq ∧
          iq.state ≠ .suspect) := by
  have orderly := reachable_orderly scoring sorter convert start exemptIPs events
  obtain ⟨listed, is⟩ := orderly.scanning _ (List.mem_of_getElem? returned)
  obtain ⟨seen, each⟩ := reachable_scored returned
  change List.Forall₂ _ scores seen at each
  have scores_eq : scores = ips.zip (seen.map scoring.getScore) := by
    rw [← listed]
    clear listed is returned
    induction each with
    | nil => rfl
    | cons here _ ih => rw [List.map_cons, List.map_cons, List.zip_cons_cons, ← ih, ← here.1]
  have moments :
      List.Forall₂ (Moment scoring sorter convert start exemptIPs events i) ips seen := by
    rw [← listed, List.forall₂_map_left_iff]
    exact each.imp fun _ _ both => both.2
  refine ⟨seen, moments, by rw [is, scores_eq], ?_⟩
  intro inRange suspectLast
  have bounded : ∀ iq ∈ seen, Bounded iq := by
    intro iq mem
    obtain ⟨k, within, rfl⟩ := List.mem_iff_getElem.mp mem
    obtain ⟨before, between, after, id, t, rfl, _, _, at_id, same⟩ :=
      moments.get (moments.length_eq ▸ within) within
    have ranged : Ranged (runFrom scoring sorter convert start exemptIPs (before ++ between)) :=
      reachable_ranged fun e earlier => inRange e (List.mem_append_left _ earlier)
    have within_bounds := ranged.bounded t (List.mem_of_getElem? at_id)
    rw [same] at within_bounds
    exact within_bounds
  rintro ⟨calm, mem, not_suspect⟩
  obtain ⟨k₀, within, rfl⟩ := List.mem_iff_getElem.mp mem
  have entered :
      (ips.get ⟨k₀, moments.length_eq ▸ within⟩, scoring.getScore seen[k₀]) ∈ scores := by
    rw [scores_eq]
    refine List.mem_of_getElem? (i := k₀) (List.getElem?_zip_eq_some.mpr ⟨?_, ?_⟩)
    · exact List.getElem?_eq_getElem _
    · rw [List.getElem?_map, List.getElem?_eq_getElem within]
      rfl
  obtain ⟨entry, listed', first, least⟩ := best_of_sort sorter (List.ne_nil_of_mem entered)
  have low := least _ entered
  obtain ⟨k, at_k⟩ := List.mem_iff_getElem?.mp listed'
  rw [scores_eq, List.getElem?_zip_eq_some, List.getElem?_map, Option.map_eq_some_iff] at at_k
  obtain ⟨at_ip, iq, at_iq, score⟩ := at_k
  refine ⟨k, iq, ?_, at_iq, ?_⟩
  · rw [is, first]
    exact at_ip
  · intro suspect
    have high := suspectLast _ _ (bounded _ mem) (bounded iq (List.mem_of_getElem? at_iq))
      not_suspect suspect
    rw [score] at high
    exact absurd low (not_le_of_gt high)

end

theorem choice_of_moments_two_calls :
    let sorter := Sorter.insertion LowerScore
    (runFrom exact sorter id 0 [] twoCalls).shared.trackers.length = 2 ∧
      ∃ seen : List IPQualityV2,
        List.Forall₂ (Moment exact sorter id 0 [] twoCalls 1) ["192.0.2.1", "192.0.2.2"] seen ∧
        ("192.0.2.1", "192.0.2.2") = bestTwo
          ((sorter.sort (["192.0.2.1", "192.0.2.2"].zip (seen.map getScore))).map Prod.fst) ∧
        ((∃ iq ∈ seen, iq.state ≠ .suspect) → ∃ (k : Nat) (iq : IPQualityV2),
          ["192.0.2.1", "192.0.2.2"][k]? = some "192.0.2.1" ∧ seen[k]? = some iq ∧
            iq.state ≠ .suspect) := by
  refine ⟨by decide +kernel, ?_⟩
  obtain ⟨seen, moments, called_for, calm⟩ := choice_of_moments exact (Sorter.insertion LowerScore)
    id 0 [] twoCalls 1 ["192.0.2.1", "192.0.2.2"] [("192.0.2.1", 2000), ("192.0.2.2", 2000)]
    ("192.0.2.1", "192.0.2.2") (by decide +kernel)
  exact ⟨seen, moments, called_for,
    calm (by simp [twoCalls, goes, Event.InRange]) exact_suspectLast⟩

end ConcurrentPool
