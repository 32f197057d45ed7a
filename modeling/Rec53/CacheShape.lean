import Rec53.Provenance
import Rec53.CacheSnapshot

/-!
# The shape of cached messages

The cache has two families of keys. Under a question, `name:qtype`, it holds answers and
negative responses; under a bare zone name it holds delegations. Five places write it:
QUERY_UPSTREAM an answer and a delegation, CLASSIFY_RESP the response it has classified
as negative, the background update addresses of a name server, and a loaded snapshot
what another cache held. LOOKUP_NS_CACHE and CACHE_LOOKUP rely on the shape of what
they find, which every write keeps.
-/

namespace CacheShape

open DnsMessage Platform DnsCache ExpiringStore StateHandlers UpstreamQuery StateMachine
  ResolverSystem Provenance CacheSnapshot LocalConfig

/-- An answer, or a negative response with one of the two codes. -/
def TypedShape (m : Msg) : Prop :=
  m.answer ≠ [] ∨
    (hasSOAInAuthority m = true ∧ (m.rcode = rcodeSuccess ∨ m.rcode = rcodeNameError))

/-- The authority section starts with an NS record of the zone. -/
def ZoneShape (zone : String) (m : Msg) : Prop :=
  ∃ rr rest, m.ns = rr :: rest ∧ rr.isNS = true ∧ rr.name = zone

/-- What a message has that may stand under the key. -/
structure KeyShape (key : String) (m : Msg) : Prop where
  typed : ∀ name qtype, key = getCacheKey name qtype → TypedShape m
  bare : (∀ name qtype, key ≠ getCacheKey name qtype) → ZoneShape key m

lemma typed_keyShape {m : Msg} (shape : TypedShape m) (name : String) (qtype : Nat) :
    KeyShape (getCacheKey name qtype) m :=
  ⟨fun _ _ _ => shape, fun bare => absurd rfl (bare name qtype)⟩

lemma zone_keyShape {zone : String} {m : Msg} (shape : ZoneShape zone m) (rooted : Rooted zone) :
    KeyShape zone m := by
  constructor
  · intro name qtype same
    exact absurd same (ne_getCacheKey_of_rooted rooted name qtype)
  · intro _
    exact shape

/-- Stripping the OPT records is the last thing done to a message before it is stored. -/
lemma stripOPT_extra (m : Msg) : ∀ rr ∈ (stripOPT m).extra, rr.isOPT = false := by
  intro rr mem
  have kept := (List.mem_filter.mp mem).2
  simpa using kept

lemma stripOPT_keyShape {key : String} {m : Msg} (shape : KeyShape key m) :
    KeyShape key (stripOPT m) :=
  ⟨shape.typed, shape.bare⟩

/-! ### Every write keeps the shape -/

/-- The shape of what an effect writes. -/
def Shaped (lib : Lib) (e : Effect) : Prop :=
  ∀ key m ttl, entryOf lib e = some (key, m, ttl) → KeyShape key m

lemma shaped_of_readOnly {lib : Lib} {e : Effect} (quiet : e.writes = false) : Shaped lib e := by
  intro key m ttl entry
  rw [entryOf_of_not_writes quiet] at entry
  cases entry

lemma shaped_updateNSIPs (lib : Lib) (id : Nat) (nsName : String) {ips : List String}
    (some_address : ips ≠ []) : Shaped lib (.updateNSIPs id nsName ips) := by
  rintro _ _ _ ⟨⟩
  refine typed_keyShape (.inl ?_) nsName typeA
  simpa [nsAddressMsg] using some_address

/-- The effects of a visit, when the messages it received were unpacked by the library. -/
theorem visit_shaped (env : Env) (o : Outcome) (v : Visit)
    (unpacked : ∀ m, .received m ∈ (visitEffects env o v).1 → ∀ rr ∈ m.ns, Rooted rr.name) :
    ∀ e ∈ (visitEffects env o v).1, Shaped env.lib e := by
  have visited := visit_visited env o v
  generalize visit env o v = o', (visitEffects env o v).1 = effects at visited unpacked
  intro e mem
  cases visited with
  | ended => cases mem
  | resumed r source effects o' resumed =>
    cases resumed with
    | accepted earlier m addr before bad success echoes readOnly received sent =>
      rcases List.mem_append.mp mem with quiet | write
      · exact shaped_of_readOnly (readOnly e quiet)
      have came : .received m ∈ before := mem_receivedMsgs.mp (by simp [received])
      rcases mem_cacheEffects write with ⟨rr, rest, first, rfl⟩ | ⟨rr, rest, first, is, rfl⟩
      · rintro _ _ _ ⟨⟩
        exact typed_keyShape (.inl (by simp [first])) m.q0.name m.q0.qtype
      · rintro _ _ _ ⟨⟩
        have rooted : Rooted rr.name :=
          unpacked m (List.mem_append_left _ came) rr (by simp [first])
        exact zone_keyShape ⟨rr, rest, first, is, rfl⟩ rooted
    | nxdomain _ _ _ _ readOnly => exact shaped_of_readOnly (readOnly e mem)
    | failed _ _ readOnly => exact shaped_of_readOnly (readOnly e mem)
    | rejected _ _ _ _ readOnly => exact shaped_of_readOnly (readOnly e mem)
    | noServer => cases mem
  | round r effects o' moved =>
    cases moved with
    | negative here negative ttl soa =>
      obtain ⟨_, authority, code⟩ := isNegative_iff.mp negative
      rw [List.mem_singleton.mp mem]
      rintro _ _ _ ⟨⟩
      exact typed_keyShape (.inr ⟨authority, code.symm⟩) r.qname r.qtype
    | forwardHit _ _ _ readOnly => exact shaped_of_readOnly (readOnly e mem)
    | forwardEnd _ _ _ readOnly => exact shaped_of_readOnly (readOnly e mem)
    | _ => cases mem

/-! ### The shape of a cache -/

/-- Every item has the shape of its key and no OPT record. -/
structure WellShaped (w : World) : Prop where
  configured : Configured w
  plain : ∀ key it, w.cache.find key = some it → ∀ rr ∈ it.object.extra, rr.isOPT = false
  shape : ∀ key it, w.cache.find key = some it → KeyShape key it.object

lemma initial_wellShaped (xdp : Option BpfMap) (wall mono : Nat) :
    WellShaped (World.initial xdp wall mono) := by
  have nothing : ∀ key it, (World.initial xdp wall mono).cache.find key ≠ some it := by
    intro key it found
    simp [World.initial, newCache] at found
  exact ⟨rfl, fun key it found => absurd found (nothing key it),
    fun key it found => absurd found (nothing key it)⟩

theorem perform_wellShaped {lib : Lib} {w : World} {effects : List Effect}
    (shaped : ∀ e ∈ effects, Shaped lib e) (before : WellShaped w) :
    WellShaped (perform lib w effects) := by
  refine ⟨perform_configured before.configured, ?_, ?_⟩
  · intro key it found
    rcases perform_find before.configured found with ⟨e, _, m, ttl, _, rfl⟩ | earlier
    · exact stripOPT_extra m
    · exact before.plain key it earlier
  · intro key it found
    rcases perform_find before.configured found with ⟨e, mem, m, ttl, entry, rfl⟩ | earlier
    · exact stripOPT_keyShape (shaped e mem key m ttl entry)
    · exact before.shape key it earlier

/-! ### Snapshots -/

/-- What the entry of a file unpacks to has the shape of its key. -/
def EntryShaped (lib : Lib) (entry : SnapshotEntry) : Prop :=
  ∀ m, lib.unpack entry.msg = some m → KeyShape entry.key m

lemma saveSnapshot_shaped {lib : Lib} (roundTrips : RoundTrips lib) {cfg : SnapshotConfig}
    {w : World} {file : List SnapshotEntry} (saved : saveSnapshot lib cfg w = some file)
    (shape : ∀ key it, w.cache.find key = some it → KeyShape key it.object) :
    ∀ entry ∈ file, EntryShaped lib entry := by
  rw [saveSnapshot] at saved
  split at saved
  · cases saved
    intro entry mem m unpacked
    obtain ⟨⟨key, it⟩, live, entered⟩ := List.mem_filterMap.mp mem
    rw [saveEntry] at entered
    split at entered
    · cases entered
    · rename_i wire packed
      cases entered
      -- the bytes of the entry unpack to the message that was packed
      rw [roundTrips it.object wire packed] at unpacked
      cases unpacked
      exact shape key it (w.cache.mem_unexpired.mp live).1
  · cases saved

lemma loadEntry_wellShaped {lib : Lib} {w : World} {entry : SnapshotEntry}
    (shaped : EntryShaped lib entry) (before : WellShaped w) :
    WellShaped (loadEntry lib (w.wall / second) w entry) := by
  rcases loadEntry_find lib w entry with ⟨it, restored, find⟩ | ⟨_, unchanged⟩
  · obtain ⟨m, unpacked, _, rfl⟩ := restored
    refine ⟨?_, ?_, ?_⟩
    · rw [loadEntry, unpacked]
      dsimp only
      split
      · exact before.configured
      · simpa [Configured] using before.configured
    · intro key it found
      rw [find key] at found
      split at found
      · cases found
        exact stripOPT_extra m
      · exact before.plain key it found
    · intro key it found
      rw [find key] at found
      split at found
      · rename_i same
        cases found
        rw [same]
        exact stripOPT_keyShape (shaped m unpacked)
      · exact before.shape key it found
  · rw [unchanged]
    exact before

theorem loadSnapshot_wellShaped {lib : Lib} (cfg : SnapshotConfig) {file : List SnapshotEntry}
    (shaped : ∀ entry ∈ file, EntryShaped lib entry) {w : World} (before : WellShaped w) :
    WellShaped (loadSnapshot lib cfg (some file) w) := by
  rw [loadSnapshot]
  split
  · rw [Option.getD_some]
    generalize clock : w.wall / second = now
    induction file generalizing w with
    | nil => exact before
    | cons entry rest ih =>
      rw [List.foldl_cons]
      refine ih (fun later mem => shaped later (List.mem_cons_of_mem _ mem)) ?_ ?_
      · subst clock
        exact loadEntry_wellShaped (shaped entry List.mem_cons_self) before
      · rw [loadEntry_wall, clock]
  · exact before

/-! ### Runs -/

/-- Owners in received messages end with a dot, as in every message the library unpacks. -/
def Unpacked (s : Sys) : Prop :=
  ∀ t m, (t, .received m) ∈ s.log → ∀ rr ∈ m.ns, Rooted rr.name

/-- The systems of resolutions that start with an empty cache, under any configuration,
and may load a snapshot of any such system at any time. -/
inductive Reached (lib : Lib) : Sys → Prop where
  | started (xdp : Option BpfMap) (wall mono : Nat) :
      Reached lib (initial (World.initial xdp wall mono))
  | stepped {s : Sys} (snap : HostsForwardSnapshot) (e : Event) (reached : Reached lib s)
      (unpacked : Unpacked (step ⟨lib, snap⟩ s e)) : Reached lib (step ⟨lib, snap⟩ s e)
  | loaded {s saver : Sys} (cfg saverCfg : SnapshotConfig) (file : List SnapshotEntry)
      (reached : Reached lib s) (saverReached : Reached lib saver)
      (saved : saveSnapshot lib saverCfg saver.world = some file) :
      Reached lib { s with world := loadSnapshot lib cfg (some file) s.world }

/-- Addresses that wait to be written in the background are some. -/
def UpdatesFound (s : Sys) : Prop := ∀ update ∈ s.updates, update.2 ≠ []

lemma childResult_found {s : Sys} {i j : Nat} {result : String × List String}
    (found : s.childResult i j = some result) : result.2 ≠ [] := by
  rw [Sys.childResult] at found
  split at found
  · split at found
    · rename_i some_address
      cases found
      exact some_address.2
    · cases found
  · cases found

lemma step_updatesFound (env : Env) (s : Sys) (e : Event) (found : UpdatesFound s) :
    UpdatesFound (step env s e) := by
  cases e with
  | query request | advance d => exact found
  | visit i inp | spawn i id nsName =>
    simp only [step]
    split
    all_goals first | exact found | (split <;> exact found)
  | update k id =>
    simp only [step]
    split
    · intro update mem
      exact found update (List.mem_of_mem_eraseIdx mem)
    · exact found
  | collect i children inp =>
    simp only [step]
    split
    · intro update mem
      rcases List.mem_append.mp mem with old | new
      · exact found update old
      · obtain ⟨j, _, result⟩ := List.mem_filterMap.mp (List.mem_of_mem_tail new)
        exact childResult_found result
    · exact found

lemma visitProc_wellShaped {env : Env} {s : Sys} {i : Nat} {p : Proc} {inp : Input}
    (unpacked : Unpacked (s.visitProc env i p inp)) (before : WellShaped s.world) :
    WellShaped (s.visitProc env i p inp).world := by
  refine perform_wellShaped (visit_shaped env p.outcome ⟨s.world, inp⟩ ?_) before
  intro m received
  refine unpacked s.world.wall m (List.mem_append_right _ ?_)
  exact List.mem_map.mpr ⟨_, received, rfl⟩

theorem step_wellShaped (env : Env) (s : Sys) (e : Event) (unpacked : Unpacked (step env s e))
    (found : UpdatesFound s) (before : WellShaped s.world) :
    WellShaped (step env s e).world := by
  cases e with
  | query request => exact before
  | advance d => exact ⟨before.configured, before.plain, before.shape⟩
  | visit i inp =>
    simp only [step] at unpacked ⊢
    split at unpacked
    · exact visitProc_wellShaped unpacked before
    · exact visitProc_wellShaped unpacked before
    · exact before
  | spawn i id nsName =>
    simp only [step]
    split
    · split
      · exact before
      · exact before
    · exact before
  | collect i children inp =>
    simp only [step] at unpacked ⊢
    split at unpacked
    · exact visitProc_wellShaped unpacked before
    · exact before
  | update k id =>
    simp only [step]
    split
    · rename_i nsName ips pending
      refine perform_wellShaped ?_ before
      intro e mem
      rw [List.mem_singleton.mp mem]
      exact shaped_updateNSIPs env.lib id nsName (found _ (List.mem_of_getElem? pending))
    · exact before

theorem reached_wellShaped {lib : Lib} (roundTrips : RoundTrips lib) {s : Sys}
    (reached : Reached lib s) : UpdatesFound s ∧ WellShaped s.world := by
  induction reached with
  | started xdp wall mono => exact ⟨nofun, initial_wellShaped xdp wall mono⟩
  | stepped snap e reached unpacked ih =>
    constructor
    · exact step_updatesFound _ _ e ih.1
    · exact step_wellShaped _ _ e unpacked ih.1 ih.2
  | loaded cfg saverCfg file reached saverReached saved ih saverIh =>
    refine ⟨ih.1, loadSnapshot_wellShaped cfg ?_ ih.2⟩
    exact saveSnapshot_shaped roundTrips saved saverIh.2.shape

lemma unpacked_of_step {env : Env} {s : Sys} {e : Event} (unpacked : Unpacked (step env s e)) :
    Unpacked s :=
  fun t m received => unpacked t m (step_log env s e _ received)

/-- Every run of the resolver on an empty cache is among them. -/
theorem runFrom_reached {lib : Lib} (snap : HostsForwardSnapshot) (xdp : Option BpfMap)
    (wall mono : Nat) (events : List Event)
    (unpacked : Unpacked (runFrom ⟨lib, snap⟩ (World.initial xdp wall mono) events)) :
    Reached lib (runFrom ⟨lib, snap⟩ (World.initial xdp wall mono) events) := by
  induction events using List.reverseRecOn with
  | nil => exact .started xdp wall mono
  | append_singleton events e ih =>
    rw [runFrom, StepRuns.run_snoc] at unpacked ⊢
    exact .stepped snap e (ih (unpacked_of_step unpacked)) unpacked

/-- CACHE_LOOKUP misses only where there is no entry. -/
lemma cacheLookup_hit {w : World} (shaped : WellShaped w) {request : Msg} (response : Msg)
    (cached : getCacheCopyByType w request.q0.name request.q0.qtype ≠ none) :
    (cacheLookupHandle w request response).1 = .hit := by
  obtain ⟨m, found⟩ := Option.ne_none_iff_exists'.mp cached
  obtain ⟨it, held, _, rfl⟩ := getCacheCopy_eq_some.mp found
  simp only [cacheLookupHandle, found]
  rcases (shaped.shape _ it held).typed _ _ rfl with answered | ⟨authority, _⟩
  · rw [if_pos (show (shallowCopyMsg it.object).answer ≠ [] from answered)]
  · split
    · rfl
    · rw [if_pos (show hasSOAInAuthority (shallowCopyMsg it.object) = true from authority)]

/-- From an empty cache, after any resolutions, background updates and loads of snapshots
of such caches: no entry has an OPT record; an entry under a question has an answer or is
a negative response, so that CACHE_LOOKUP never finds one and misses; and an entry under
any other key starts its authority section with an NS record of that name. -/
theorem cache_shape_kept (lib : Lib) (roundTrips : RoundTrips lib) (s : Sys)
    (reached : Reached lib s) :
    (∀ key it, s.world.cache.find key = some it →
      (∀ rr ∈ it.object.extra, rr.isOPT = false) ∧
      (∀ name qtype, key = getCacheKey name qtype → it.object.answer ≠ [] ∨
        (hasSOAInAuthority it.object = true ∧
          (it.object.rcode = rcodeSuccess ∨ it.object.rcode = rcodeNameError))) ∧
      ((∀ name qtype, key ≠ getCacheKey name qtype) →
        ∃ rr rest, it.object.ns = rr :: rest ∧ rr.isNS = true ∧ rr.name = key)) ∧
    ∀ request response : Msg,
      getCacheCopyByType s.world request.q0.name request.q0.qtype ≠ none →
        (cacheLookupHandle s.world request response).1 = .hit := by
  have shaped := (reached_wellShaped roundTrips reached).2
  constructor
  · intro key it found
    exact ⟨shaped.plain key it found, (shaped.shape key it found).typed,
      (shaped.shape key it found).bare⟩
  · intro request response cached
    exact cacheLookup_hit shaped response cached

/-- An address is resolved and cached. -/
def answeredAddress : Sys :=
  runFrom ⟨addressLib, plainEnv.snap⟩ (World.initial none 1 0)
    (.query (newQuery 7 "a." typeA) :: (List.replicate 7 (.visit 0 .idle) ++
      [.visit 0 (.answered addressMsg)]))

/-- Another server loads its snapshot ten seconds later. -/
def restoredAddress : Sys :=
  let fresh := initial (World.initial none (10 * second) 0)
  { fresh with
    world := loadSnapshot addressLib snapshotConfig
      (saveSnapshot addressLib snapshotConfig answeredAddress.world) fresh.world }

lemma answeredAddress_reached : Reached addressLib answeredAddress := by
  refine runFrom_reached plainEnv.snap none 1 0 _ ?_
  intro t m received rr owner
  have only : ∀ x ∈ answeredAddress.log, ∀ m ∈ x.2.received?, m.ns = [] := by decide +kernel
  rw [only _ received m rfl] at owner
  cases owner

lemma restoredAddress_reached : Reached addressLib restoredAddress := by
  have saved : saveSnapshot addressLib snapshotConfig answeredAddress.world = some _ := if_pos rfl
  rw [restoredAddress, saved]
  exact .loaded snapshotConfig snapshotConfig _ (.started none (10 * second) 0)
    answeredAddress_reached saved

/-- The lookup of the restored address is a hit. -/
theorem restored_address_hit :
    getCacheCopyByType restoredAddress.world "a." typeA ≠ none ∧
      (cacheLookupHandle restoredAddress.world (newQuery 8 "a." typeA) {}).1 = .hit := by
  have cached : getCacheCopyByType restoredAddress.world "a." typeA ≠ none := by decide +kernel
  obtain ⟨_, hit⟩ := cache_shape_kept addressLib addressLib_roundTrips restoredAddress
    restoredAddress_reached
  exact ⟨cached, hit (newQuery 8 "a." typeA) {} cached⟩

end CacheShape
