import Rec53.FastPathFeed

/-!
# How long the fast path serves an answer

A message with an answer and an NS record in its authority section is written twice,
under its question and under the owner of the NS record. Both writes are synced under
the question, so the entry of the map ends with the TTL of the NS record. To say when
this makes a difference, the events carry a record, which no step reads, of when and
with which message the entry of a key was stored.
-/

namespace FastPathExpiry

open DnsMessage Platform XdpCache DnsCache StateHandlers FastPathFeed

structure Feed where
  world : World
  stored : CacheKey → Option (Nat × Msg)

/-- XDP is attached with an empty map. -/
def fresh (wall mono : Nat) : Feed := ⟨World.initial (some ∅) wall mono, fun _ => none⟩

/-- The message and the TTL with which an event leaves its entry in the map. -/
def Stores (lib : Lib) (e : Write) (m : Msg) (ttl : Nat) : Prop :=
  match e with
  | .accepted m' => m = m' ∧ ttl = lastTTL m'
  | .addresses id nsName ips => m = nsAddressMsg lib id nsName ips ∧ ttl = nsAddressTTL
  | .negative _ _ _ _ _ | .advance _ | .cleanup => False

def recordEntry (lib : Lib) (s : Feed) (m : Msg) : CacheKey → Option (Nat × Msg) :=
  match s.world.xdp.bind (reachesMap lib · m) with
  | none => s.stored
  | some (key, _) => Function.update s.stored key (some (s.world.mono, m))

def feed (lib : Lib) (s : Feed) (e : Write) : Feed where
  world := feedWorld lib s.world e
  stored :=
    match e with
    | .accepted m => recordEntry lib s m
    | .addresses id nsName ips => recordEntry lib s (nsAddressMsg lib id nsName ips)
    | .negative _ _ _ _ _ | .advance _ | .cleanup => s.stored

/-! ### Where an entry comes from -/

/-- An entry of the map after an event was there before it, with the same record, or the
event stored it. -/
inductive Traced (lib : Lib) (s : Feed) (e : Write) (key : CacheKey) (val : CacheValue) : Prop where
  | kept (map : BpfMap) (attached : s.world.xdp = some map) (held : map.lookup key = some val)
      (same : (feed lib s e).stored key = s.stored key)
  | stored (map : BpfMap) (m : Msg) (ttl : Nat) (attached : s.world.xdp = some map)
      (stores : Stores lib e m ttl) (reaches : reachesMap lib map m = some (key, val.response))
      (expires : val.expireTs = s.world.mono / second + ttl)
      (recorded : (feed lib s e).stored key = some (s.world.mono, m))

lemma recordEntry_of_other {lib : Lib} {s : Feed} {m : Msg} {map : BpfMap}
    (attached : s.world.xdp = some map) {key : CacheKey}
    (other : ∀ packed, reachesMap lib map m ≠ some (key, packed)) :
    recordEntry lib s m key = s.stored key := by
  rw [recordEntry, attached, Option.bind_some]
  cases reaches : reachesMap lib map m with
  | none => rfl
  | some entry =>
    have ne : key ≠ entry.1 := by
      rintro rfl
      exact other entry.2 reaches
    exact Function.update_of_ne ne _ _

section Entries

variable {lib : Lib} (replaces : ReplacesHeld lib) {s : Feed} {e : Write}

include replaces

lemma feed_stores {m : Msg} {ttl : Nat} (stores : Stores lib e m ttl) :
    (feed lib s e).world.xdp = s.world.xdp.map (fastStore lib s.world.mono m ttl) ∧
      (feed lib s e).stored = recordEntry lib s m := by
  cases e with
  | accepted m' =>
    obtain ⟨rfl, rfl⟩ := stores
    exact ⟨accepted_xdp replaces s.world m, rfl⟩
  | addresses id nsName ips =>
    obtain ⟨rfl, rfl⟩ := stores
    exact ⟨setCacheCopy_xdp lib s.world _ _ _, rfl⟩
  | negative | advance | cleanup => cases stores

/-- After an event that stores a message its entry is there, with the record of it. -/
lemma feed_new {m : Msg} {ttl : Nat} (stores : Stores lib e m ttl) {map : BpfMap}
    (attached : s.world.xdp = some map) {key : CacheKey} {packed : Bytes}
    (reaches : reachesMap lib map m = some (key, packed)) :
    (feed lib s e).world.xdp = some (map.insert key ⟨s.world.mono / second + ttl, packed⟩) ∧
      (feed lib s e).stored = Function.update s.stored key (some (s.world.mono, m)) := by
  obtain ⟨xdp, stored⟩ := feed_stores replaces stores (s := s)
  rw [xdp, stored]
  simp [recordEntry, attached, fastStore, reaches]

lemma feed_traced {map' : BpfMap} (attached' : (feed lib s e).world.xdp = some map')
    {key : CacheKey} {val : CacheValue} (held : map'.lookup key = some val) :
    Traced lib s e key val := by
  have storing {m : Msg} {ttl : Nat} (stores : Stores lib e m ttl) : Traced lib s e key val := by
    obtain ⟨xdp, stored⟩ := feed_stores replaces stores (s := s)
    rw [attached'] at xdp
    obtain ⟨map, attached, is⟩ := Option.map_eq_some_iff.mp xdp.symm
    rw [← is] at held
    rcases lookup_fastStore held with ⟨reaches, expires⟩ | ⟨before, other⟩
    · obtain ⟨_, recorded⟩ := feed_new replaces stores attached reaches
      exact .stored map m ttl attached stores reaches expires
        (by rw [recorded, Function.update_self])
    · exact .kept map attached before (by rw [stored, recordEntry_of_other attached other])
  cases e with
  | accepted m => exact storing ⟨rfl, rfl⟩
  | addresses id nsName ips => exact storing ⟨rfl, rfl⟩
  | negative name qtype m ttl empty =>
    have xdp : (feed lib s (.negative name qtype m ttl empty)).world.xdp =
        s.world.xdp.map (fastStore lib s.world.mono m ttl) := setCacheCopy_xdp lib s.world _ _ _
    rw [attached'] at xdp
    obtain ⟨map, attached, is⟩ := Option.map_eq_some_iff.mp xdp.symm
    rw [fastStore_of_empty lib _ ttl map empty] at is
    exact .kept map attached (is ▸ held) rfl
  | advance d => exact .kept map' attached' held rfl
  | cleanup =>
    obtain ⟨map, attached, is⟩ := Option.map_eq_some_iff.mp attached'
    rw [← is] at held
    exact .kept map attached (lookup_of_lookup_cleanup held) rfl

end Entries

/-! ### The expiry of an entry -/

/-- Every entry of the map has a record: it holds the bytes of that message. -/
structure Recorded (lib : Lib) (s : Feed) : Prop where
  entries : ∀ map, s.world.xdp = some map → ∀ key val, map.lookup key = some val →
    ∃ t m, s.stored key = some (t, m) ∧ lib.pack (minimalMsg m) = some val.response ∧
      m.answer ≠ []

/-- Every entry expires by the TTL of the first answer record, counted from when the
answer was stored. -/
def OwnExpiry (s : Feed) : Prop :=
  ∀ map, s.world.xdp = some map → ∀ key val, map.lookup key = some val →
    ∀ t m, s.stored key = some (t, m) → ∀ first ∈ m.answer.head?,
      val.expireTs = t / second + first.ttl

/-- What the fast path serves is an answer that was stored no longer ago than the TTL of
its first record and the granularity of the clock. -/
def ServedInTime (lib : Lib) (s : Feed) : Prop :=
  ∀ map, s.world.xdp = some map → ∀ key bytes, lookupResponse map s.world.mono key = some bytes →
    ∃ t m first, s.stored key = some (t, m) ∧ lib.pack (minimalMsg m) = some bytes ∧
      m.answer.head? = some first ∧ s.world.mono < t + (first.ttl + 1) * second

/-- An accepted message that reaches the map with an answer, and starts its authority
section with an NS record, has the same TTL in both first records. -/
def SameTTL (lib : Lib) (s : Feed) (e : Write) : Prop :=
  ∀ m, e = .accepted m → ∀ map, s.world.xdp = some map → reachesMap lib map m ≠ none →
    ∀ first ∈ m.answer.head?, ∀ rr ∈ m.ns.head?, rr.isNS = true → rr.ttl = first.ttl

/-- The last write keeps the TTL of the answer unless a delegation comes with another. -/
lemma lastTTL_eq_iff {m : Msg} {first : RR} {rest : List RR} (answers : m.answer = first :: rest) :
    lastTTL m = first.ttl ↔ ∀ rr ∈ m.ns.head?, rr.isNS = true → rr.ttl = first.ttl := by
  cases delegates : m.ns with
  | nil => simp [lastTTL, delegates, answers]
  | cons rr others => by_cases is : rr.isNS = true <;> simp [lastTTL, delegates, answers, is]

theorem feed_recorded {lib : Lib} (replaces : ReplacesHeld lib) (s : Feed) (e : Write)
    (recorded : Recorded lib s) : Recorded lib (feed lib s e) := by
  refine ⟨?_⟩
  intro map' attached' key val held'
  cases feed_traced replaces attached' held' with
  | kept map attached held same =>
    rw [same]
    exact recorded.entries map attached key val held
  | stored map m ttl attached stores reaches expires now =>
    obtain ⟨synced, entry⟩ := reachesMap_eq_some.mp reaches
    exact ⟨s.world.mono, m, now, (fastEntry_eq_some.mp entry).2.1, synced.1⟩

/-- An event keeps the expiries right exactly when its message brings no other TTL. -/
theorem feed_ownExpiry_iff {lib : Lib} (replaces : ReplacesHeld lib) (s : Feed) (e : Write)
    (own : OwnExpiry s) : OwnExpiry (feed lib s e) ↔ SameTTL lib s e := by
  constructor
  · rintro own' m rfl map attached reached first head
    obtain ⟨⟨key, packed⟩, reaches⟩ := Option.ne_none_iff_exists'.mp reached
    have stores : Stores lib (.accepted m) m (lastTTL m) := ⟨rfl, rfl⟩
    obtain ⟨xdp, now⟩ := feed_new replaces stores attached reaches
    have expires := own' _ xdp key _ (AList.lookup_insert map) s.world.mono m
      (by rw [now, Function.update_self]) first head
    obtain ⟨rest, answers⟩ := List.head?_eq_some_iff.mp head
    exact (lastTTL_eq_iff answers).mp (Nat.add_left_cancel expires)
  · intro same map' attached' key val held' t m now first head
    cases feed_traced replaces attached' held' with
    | kept map attached held unchanged =>
      exact own map attached key val held t m (unchanged ▸ now) first head
    | stored map m' ttl attached stores reaches expires recorded =>
      cases recorded.symm.trans now
      rw [expires]
      obtain ⟨rest, answers⟩ := List.head?_eq_some_iff.mp head
      cases e with
      | accepted m' =>
        obtain ⟨rfl, rfl⟩ := stores
        have equal := same m rfl map attached (by simp [reaches]) first head
        rw [(lastTTL_eq_iff answers).mpr equal]
      | addresses id nsName ips =>
        obtain ⟨rfl, rfl⟩ := stores
        obtain ⟨ip, _, rfl⟩ := List.mem_map.mp (List.mem_of_mem_head? head)
        rfl
      | negative | advance | cleanup => cases stores

lemma served_in_time {lib : Lib} {s : Feed} (recorded : Recorded lib s) (own : OwnExpiry s) :
    ServedInTime lib s := by
  intro map attached key bytes served
  obtain ⟨val, held, rfl, live⟩ := lookupResponse_eq_some served
  obtain ⟨t, m, now, packs, answered⟩ := recorded.entries map attached key val held
  obtain ⟨first, rest, answers⟩ := List.exists_cons_of_ne_nil answered
  have head : m.answer.head? = some first := by rw [answers]; rfl
  refine ⟨t, m, first, now, packs, head, ?_⟩
  rw [own map attached key val held t m now first head] at live
  rw [second] at live ⊢
  omega

/-- For every sequence of cache writes and clock advances after XDP was attached, and for
every state it passes through: every expiry in the map is the one computed from the
answer's own TTL, and what is served was stored within that TTL and one second, if and
only if each accepted message that reaches the map with an answer, and with an NS record
at the start of its authority section, has the same TTL in both first records. -/
theorem own_expiry_iff (lib : Lib) (replaces : ReplacesHeld lib) (wall mono : Nat)
    (es : List Write) :
    StepRuns.Throughout (feed lib) (fun s => OwnExpiry s ∧ ServedInTime lib s)
        (fresh wall mono) es ↔
      StepRuns.Along (feed lib) (SameTTL lib) (fresh wall mono) es := by
  have start : Recorded lib (fresh wall mono) := by
    refine ⟨?_⟩
    intro map attached key val held
    cases attached
    simp at held
  have holds : OwnExpiry (fresh wall mono) := by
    intro map attached key val held
    cases attached
    simp at held
  refine StepRuns.throughout_iff_along (feed lib) (feed_recorded replaces) ?_ start
    ⟨holds, served_in_time start holds⟩ es
  intro s e recorded ⟨own, _⟩
  rw [← feed_ownExpiry_iff replaces s e own]
  constructor
  · exact And.left
  · intro own'
    exact ⟨own', served_in_time (feed_recorded replaces s e recorded) own'⟩

section Outlived

/-- An address for five seconds, with a delegation of the same name. -/
def delegatedAnswer (nsTTL : Nat) : Msg :=
  { response := true
    question := [⟨"a.", typeA, classINET⟩]
    answer := [⟨"a.", classINET, 5, .a "192.0.2.1"⟩]
    ns := [⟨"a.", classINET, nsTTL, .ns "n."⟩] }

/-- The wire format of question and answer, after the id. -/
def answerBytes : Bytes :=
  [0x80, 0, 0, 1, 0, 1, 0, 0, 0, 0, 1, 0x61, 0, 0, 1, 0, 1,
    0xc0, 0x0c, 0, 1, 0, 1, 0, 0, 0, 5, 0, 4, 192, 0, 2, 1]

def answerLib : Lib := tableLib [(minimalMsg (delegatedAnswer 0), answerBytes)]

theorem equal_ttls_in_time :
    StepRuns.Throughout (feed answerLib) (fun s => OwnExpiry s ∧ ServedInTime answerLib s)
      (fresh 1 0) [.accepted (delegatedAnswer 5), .advance second] := by
  refine (own_expiry_iff answerLib (fun _ _ _ => rfl) 1 0 _).mpr ⟨?_, ?_, trivial⟩
  · intro m is map attached reached first head rr delegates
    cases is
    cases head
    cases delegates
    intro is_ns
    rfl
  · intro m is
    cases is

/-- The delegation is for an hour; a minute later the fast path still serves the
address, which was stored for five seconds. -/
def lateFeed : Feed :=
  StepRuns.run (feed answerLib) (fresh 1 0)
    [.accepted (delegatedAnswer 3600), .advance (60 * second)]

/-- A query for `a.` that is answered so brings the caches to the same state. -/
def lateRun : ResolverSystem.Sys :=
  ResolverSystem.runFrom ⟨answerLib, LocalConfig.emptySnapshot⟩ (World.initial (some ∅) 1 0)
    (.query (newQuery 7 "a." typeA) :: (List.replicate 7 (.visit 0 .idle) ++
      [.visit 0 (.answered (delegatedAnswer 3600)), .advance (60 * second)]))

def aKey : CacheKey := ⟨[1, 0x61, 0] ++ List.replicate 252 0, typeA⟩

lemma lateFeed_entry :
    lateFeed.world.xdp = some (AList.insert aKey ⟨3600, idBytes 0 ++ answerBytes⟩ ∅) ∧
      lateFeed.stored = Function.update (fun _ => none) aKey (some (0, delegatedAnswer 3600)) := by
  have stores : Stores answerLib (.accepted (delegatedAnswer 3600)) (delegatedAnswer 3600) 3600 :=
    ⟨rfl, rfl⟩
  have reaches : reachesMap answerLib ∅ (delegatedAnswer 3600) =
      some (aKey, idBytes 0 ++ answerBytes) := rfl
  exact feed_new (fun _ _ _ => rfl) stores (s := fresh 1 0) rfl reaches

theorem answer_served_after_its_ttl :
    lateRun.world = lateFeed.world ∧
    ∃ map bytes, lateFeed.world.xdp = some map ∧
      buildBPFCacheKey answerLib "a." typeA = some aKey ∧
      lookupResponse map lateFeed.world.mono aKey = some bytes ∧
      answerLib.unpack bytes = some (minimalMsg (delegatedAnswer 3600)) ∧
      lateFeed.stored aKey = some (0, delegatedAnswer 3600) ∧
      0 + (5 + 1) * second ≤ lateFeed.world.mono := by
  refine ⟨rfl, _, idBytes 0 ++ answerBytes, lateFeed_entry.1, rfl, ?_, rfl, ?_, by decide⟩
  · simp only [lookupResponse, AList.lookup_insert]
    rfl
  · rw [lateFeed_entry.2, Function.update_self]

end Outlived

end FastPathExpiry
