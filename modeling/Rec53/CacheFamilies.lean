import Rec53.Delegations

/-!
# Two families of keys in one store

Answers are cached under the name and the type of a question with a colon between them,
delegations under the bare name of the zone, and both go into one store of strings
(`server/cache.go`, `server/state_query_upstream.go`). Nothing is escaped, and names may have
colons and digits. But a type stands behind the last colon of its key, and the key ends with a
digit where a zone ends with a dot or is empty. So CACHE_LOOKUP sees the writes of answers and
LOOKUP_NS_CACHE those of delegations, as if there were two caches.
-/

namespace CacheFamilies

open DnsMessage Platform DnsCache ExpiringStore StateHandlers StateMachine ResolverSystem
  Provenance Delegations

/-- A fully qualified name. -/
def EndsWithDot (name : String) : Prop := name.toList.getLast? = some '.'

instance : DecidablePred EndsWithDot := fun _ => inferInstanceAs (Decidable (_ = _))

lemma EndsWithDot.rooted {name : String} (dotted : EndsWithDot name) : Rooted name := by
  intro c last
  rw [dotted] at last
  exact (Option.some.inj last).symm

/-- A key of the delegations: a fully qualified name or a zone in the list of one, the empty
name at the end of that list included. -/
def ZoneKey (zone : String) : Prop := ∃ domain, EndsWithDot domain ∧ zone ∈ getZoneList domain

lemma EndsWithDot.zoneKey {name : String} (dotted : EndsWithDot name) : ZoneKey name :=
  ⟨name, dotted, List.mem_cons_self⟩

lemma ZoneKey.rooted {zone : String} (bare : ZoneKey zone) : Rooted zone := by
  obtain ⟨domain, dotted, listed⟩ := bare
  exact rooted_of_mem_getZoneList dotted.rooted listed

/-! ### Histories of the cache -/

/-- `deleteExpired` is the clean-up that go-cache runs on its own. -/
inductive CacheEvent where
  | effect (e : Effect)
  | advance (d : Nat)
  | deleteExpired

def cacheStep (lib : Lib) (w : World) : CacheEvent → World
  | .effect e => e.apply lib w
  | .advance d => w.advance d
  | .deleteExpired => { w with cache := w.cache.deleteExpired w.wall }

/-- The writes of `setCacheCopyByType`. -/
def writesTyped : Effect → Bool
  | .setByType _ _ _ _ | .updateNSIPs _ _ _ => true
  | _ => false

/-- The writes of a delegation. -/
def writesZone : Effect → Bool
  | .setZone _ _ _ => true
  | _ => false

def CacheEvent.effect? : CacheEvent → Option Effect
  | .effect e => some e
  | .advance _ | .deleteExpired => none

/-- The event is not a write of the family. -/
def CacheEvent.outside (family : Effect → Bool) (e : CacheEvent) : Bool :=
  !e.effect?.any family

/-- The history with the writes of a family left out. -/
def without (family : Effect → Bool) (es : List CacheEvent) : List CacheEvent :=
  es.filter (CacheEvent.outside family)

lemma filterMap_without (family : Effect → Bool) (es : List CacheEvent) :
    (without family es).filterMap CacheEvent.effect? =
      (es.filterMap CacheEvent.effect?).filter fun e => !family e := by
  rw [without, List.filterMap_filter, List.filter_filterMap]
  refine List.filterMap_congr ?_
  intro e _
  cases e with
  | effect e =>
    rw [CacheEvent.outside, CacheEvent.effect?, Option.filter_some]
    rfl
  | advance d => rfl
  | deleteExpired => rfl

/-! ### What a read of one key depends on -/

section Reads

variable {lib : Lib} {w w' : World} {key : String}

/-- The item of the key, the default expiration and the clock. -/
def held (key : String) (w : World) : Option (Item Msg) × Nat × Nat :=
  (w.cache.find key, w.cache.defaultExpiration, w.wall)

lemma held_eq_iff : held key w = held key w' ↔ w.cache.find key = w'.cache.find key ∧
    w.cache.defaultExpiration = w'.cache.defaultExpiration ∧ w.wall = w'.wall := by
  simp only [held, Prod.mk.injEq]

lemma getCacheCopy_of_held (same : held key w = held key w') :
    getCacheCopy w key = getCacheCopy w' key := by
  obtain ⟨item, -, wall⟩ := held_eq_iff.mp same
  rw [getCacheCopy, getCacheCopy, Store.get, Store.get, item, wall]

lemma held_setCacheCopy_of_ne {key' : String} (ne : key ≠ key') (value : Msg) (expire : Nat) :
    held key (setCacheCopy lib w key' value expire) = held key w := by
  rw [held_eq_iff, setCacheCopy_cache, setCacheCopy_wall]
  exact ⟨Store.find_set_of_ne _ ne, rfl, rfl⟩

lemma setCacheCopy_alike (same : held key w = held key w') (key' : String) (value : Msg)
    (expire : Nat) : held key (setCacheCopy lib w key' value expire) =
      held key (setCacheCopy lib w' key' value expire) := by
  by_cases here : key = key'
  · obtain ⟨-, default, wall⟩ := held_eq_iff.mp same
    rw [held_eq_iff, setCacheCopy_cache, setCacheCopy_cache, setCacheCopy_wall, setCacheCopy_wall,
      here, Store.find_set_self, Store.find_set_self, Store.deadline, Store.deadline, default, wall]
    exact ⟨rfl, default, rfl⟩
  · rw [held_setCacheCopy_of_ne here, held_setCacheCopy_of_ne here]
    exact same

lemma cacheStep_alike (same : held key w = held key w') (e : CacheEvent) :
    held key (cacheStep lib w e) = held key (cacheStep lib w' e) := by
  cases e with
  | effect e =>
    rw [cacheStep, cacheStep]
    cases entry : entryOf lib e with
    | none =>
      rw [apply_of_no_entry entry, apply_of_no_entry entry]
      exact same
    | some stored =>
      obtain ⟨key', m, ttl⟩ := stored
      rw [apply_of_entry entry, apply_of_entry entry]
      exact setCacheCopy_alike same key' m ttl
  | advance d =>
    obtain ⟨item, default, wall⟩ := held_eq_iff.mp same
    exact held_eq_iff.mpr ⟨item, default, congrArg (· + d) wall⟩
  | deleteExpired =>
    obtain ⟨item, default, wall⟩ := held_eq_iff.mp same
    refine held_eq_iff.mpr ⟨?_, default, wall⟩
    rw [cacheStep, cacheStep, Store.find_deleteExpired_eq_filter,
      Store.find_deleteExpired_eq_filter, item, wall]

/-- The event is a write under another key. -/
def WritesElsewhere (lib : Lib) (key : String) (e : CacheEvent) : Prop :=
  ∃ written key' m ttl, e = .effect written ∧ entryOf lib written = some (key', m, ttl) ∧ key ≠ key'

lemma cacheStep_elsewhere {e : CacheEvent} (elsewhere : WritesElsewhere lib key e) (w : World) :
    held key (cacheStep lib w e) = held key w := by
  obtain ⟨written, key', m, ttl, rfl, entry, ne⟩ := elsewhere
  rw [cacheStep, apply_of_entry entry]
  exact held_setCacheCopy_of_ne ne m ttl

/-- Writes under other keys may be left out of a history. -/
theorem getCacheCopy_run_without {family : Effect → Bool} {es : List CacheEvent}
    (elsewhere : ∀ e ∈ es, e.outside family = false → WritesElsewhere lib key e) (w : World) :
    getCacheCopy (StepRuns.run (cacheStep lib) w (without family es)) key =
      getCacheCopy (StepRuns.run (cacheStep lib) w es) key := by
  apply getCacheCopy_of_held
  exact StepRuns.seen_run_filter (cacheStep lib) (held key) (CacheEvent.outside family)
    (fun _ _ e same => cacheStep_alike same e)
    (fun w e mem left_out => cacheStep_elsewhere (elsewhere e mem left_out) w) rfl

end Reads

/-! ### The two families -/

section Families

variable (lib : Lib) (w : World) (es : List CacheEvent)

lemma typed_elsewhere {zone : String} (bare : ZoneKey zone) {e : CacheEvent}
    (typed : e.outside writesTyped = false) : WritesElsewhere lib zone e := by
  cases e with
  | effect e =>
    cases e with
    | setByType name qtype m ttl =>
      exact ⟨_, _, _, _, rfl, rfl, ne_getCacheKey_of_rooted bare.rooted name qtype⟩
    | updateNSIPs id nsName ips =>
      exact ⟨_, _, _, _, rfl, rfl, ne_getCacheKey_of_rooted bare.rooted nsName typeA⟩
    | _ => cases typed
  | _ => cases typed

lemma zone_elsewhere (name : String) (qtype : Nat) {e : CacheEvent}
    (bare : ∀ zone m ttl, e = .effect (.setZone zone m ttl) → ZoneKey zone)
    (written : e.outside writesZone = false) :
    WritesElsewhere lib (getCacheKey name qtype) e := by
  cases e with
  | effect e =>
    cases e with
    | setZone zone m ttl =>
      exact ⟨_, _, _, _, rfl, rfl,
        (ne_getCacheKey_of_rooted (bare zone m ttl rfl).rooted name qtype).symm⟩
    | _ => cases written
  | _ => cases written

/-- LOOKUP_NS_CACHE reads nothing but the copies under the zones of its list. -/
lemma cachedDelegation_congr {w w' : World} {zones : List String}
    (same : ∀ zone ∈ zones, getCacheCopy w zone = getCacheCopy w' zone) :
    cachedDelegation w zones = cachedDelegation w' zones := by
  induction zones with
  | nil => rfl
  | cons zone rest ih =>
    rw [cachedDelegation, cachedDelegation, same zone List.mem_cons_self,
      ih fun zone mem => same zone (List.mem_cons_of_mem _ mem)]

/-- The search for a delegation is the same without the writes of answers. -/
theorem cachedDelegation_without {name : String} (dotted : EndsWithDot name) :
    cachedDelegation (StepRuns.run (cacheStep lib) w (without writesTyped es)) (getZoneList name) =
      cachedDelegation (StepRuns.run (cacheStep lib) w es) (getZoneList name) := by
  apply cachedDelegation_congr
  intro zone listed
  have bare : ZoneKey zone := ⟨name, dotted, listed⟩
  exact getCacheCopy_run_without (fun e _ typed => typed_elsewhere lib bare typed) w

lemma lookupNSCache_without {request : Msg} (dotted : EndsWithDot request.q0.name)
    (response : Msg) :
    lookupNSCacheHandle (StepRuns.run (cacheStep lib) w (without writesTyped es)) request response =
      lookupNSCacheHandle (StepRuns.run (cacheStep lib) w es) request response := by
  rw [lookupNSCacheHandle, lookupNSCacheHandle, cachedDelegation_without lib w es dotted]

/-- The search for an answer is the same without the writes of delegations. -/
theorem cacheLookup_without
    (bare : ∀ zone m ttl, .effect (.setZone zone m ttl) ∈ es → ZoneKey zone)
    (request response : Msg) :
    cacheLookupHandle (StepRuns.run (cacheStep lib) w (without writesZone es)) request response =
      cacheLookupHandle (StepRuns.run (cacheStep lib) w es) request response := by
  have same : getCacheCopyByType (StepRuns.run (cacheStep lib) w (without writesZone es))
      request.q0.name request.q0.qtype = getCacheCopyByType (StepRuns.run (cacheStep lib) w es)
        request.q0.name request.q0.qtype := by
    refine getCacheCopy_run_without ?_ w
    intro e mem written
    refine zone_elsewhere lib _ _ ?_ written
    rintro zone m ttl rfl
    exact bare zone m ttl mem
  rw [cacheLookupHandle, cacheLookupHandle, same]

end Families

/-! ### The resolver -/

lemma run_effects (lib : Lib) (w : World) (effects : List Effect) :
    StepRuns.run (cacheStep lib) w (effects.map .effect) = perform lib w effects := by
  induction effects generalizing w with
  | nil => rfl
  | cons e effects ih => exact ih (e.apply lib w)

/-- The history has led from `w` to the present cache, by the effects in the log. -/
structure History (lib : Lib) (w : World) (s : Sys) (es : List CacheEvent) : Prop where
  world : s.world = StepRuns.run (cacheStep lib) w es
  log : es.filterMap CacheEvent.effect? = s.log.map Prod.snd

lemma History.emit {lib : Lib} {w : World} {s s' : Sys} {es : List CacheEvent}
    (history : History lib w s es) (effects : List Effect)
    (world : s'.world = perform lib s.world effects)
    (log : s'.log = s.log ++ effects.map fun e => (s.world.wall, e)) :
    History lib w s' (es ++ effects.map .effect) where
  world := by
    rw [world, StepRuns.run_append, run_effects, history.world]
  log := by
    have kept : (effects.map CacheEvent.effect).filterMap CacheEvent.effect? = effects := by
      rw [List.filterMap_map]
      exact List.filterMap_some
    rw [List.filterMap_append, kept, history.log, log, List.map_append, List.map_map]
    exact congrArg _ (List.map_id effects).symm

lemma step_history (env : Env) {w : World} {s : Sys} (e : Event)
    (before : ∃ es, History env.lib w s es) : ∃ es, History env.lib w (step env s e) es := by
  obtain ⟨es, history⟩ := before
  have stepped := step_stepped env s e
  generalize step env s e = s' at stepped
  cases stepped with
  | idle | started => exact ⟨es, history.world, history.log⟩
  | visited procs updates i p inp =>
    exact ⟨_, history.emit (visitEffects env p.outcome ⟨s.world, inp⟩).1 rfl rfl⟩
  | updated updates id nsName ips =>
    exact ⟨_, history.emit [.updateNSIPs id nsName ips] rfl rfl⟩
  | advanced d =>
    refine ⟨es ++ [.advance d], ?_, ?_⟩
    · rw [StepRuns.run_snoc, ← history.world]
      rfl
    · rw [List.filterMap_append, history.log]
      exact List.append_nil _

lemma run_history (env : Env) (w : World) (events : List Event) :
    ∃ es, History env.lib w (runFrom env w events) es :=
  StepRuns.run_preserves (step env) (P := fun s => ∃ es, History env.lib w s es)
    (fun _ e before => step_history env e before) ⟨[], rfl, rfl⟩ events

/-- In every run of the resolver whose delegations are written under fully qualified names or
zones of such, the shared cache is read like two: CACHE_LOOKUP finds what a cache has that
received the logged effects without the delegations, and LOOKUP_NS_CACHE what one has that
received them without the answers. -/
theorem resolver_reads_two_caches (env : Env) (w : World) (events : List Event) (s : Sys)
    (reached : s = runFrom env w events)
    (bare : ∀ t zone m ttl, (t, .setZone zone m ttl) ∈ s.log → ZoneKey zone) :
    ∃ answers delegations : List CacheEvent,
      answers.filterMap CacheEvent.effect? =
        (s.log.map Prod.snd).filter (fun e => !writesZone e) ∧
      delegations.filterMap CacheEvent.effect? =
        (s.log.map Prod.snd).filter (fun e => !writesTyped e) ∧
      ∀ request response,
        cacheLookupHandle s.world request response =
          cacheLookupHandle (StepRuns.run (cacheStep env.lib) w answers) request response ∧
        (EndsWithDot request.q0.name → lookupNSCacheHandle s.world request response =
          lookupNSCacheHandle (StepRuns.run (cacheStep env.lib) w delegations) request
            response) := by
  subst reached
  obtain ⟨es, history⟩ := run_history env w events
  refine ⟨without writesZone es, without writesTyped es, ?_, ?_, ?_⟩
  · rw [filterMap_without, history.log]
  · rw [filterMap_without, history.log]
  · intro request response
    rw [history.world]
    constructor
    · refine (cacheLookup_without env.lib w es ?_ request response).symm
      intro zone m ttl mem
      have logged : .setZone zone m ttl ∈ (runFrom env w events).log.map Prod.snd := by
        rw [← history.log]
        exact List.mem_filterMap.mpr ⟨_, mem, rfl⟩
      obtain ⟨⟨t, _⟩, listed, rfl⟩ := List.mem_map.mp logged
      exact bare t zone m ttl listed
    · intro dotted
      exact (lookupNSCache_without env.lib w es dotted response).symm

/-! ### The keys -/

/-- The key of a name and a type determines both, and is neither a fully qualified name nor in
the list of zones of one. So from any cache and over any history of it, LOOKUP_NS_CACHE finds for
a fully qualified name what it finds without the writes of answers, and CACHE_LOOKUP finds what
it finds without the writes of delegations under such names and their zones. -/
theorem cache_keys_never_collide (lib : Lib) :
    (∀ n m t u, getCacheKey n t = getCacheKey m u → n = m ∧ t = u) ∧
    (∀ n t zone, EndsWithDot zone → getCacheKey n t ≠ zone) ∧
    (∀ n t domain, EndsWithDot domain → ∀ zone ∈ getZoneList domain, getCacheKey n t ≠ zone) ∧
    ∀ w es request response,
      (EndsWithDot request.q0.name →
        cachedDelegation (StepRuns.run (cacheStep lib) w es) (getZoneList request.q0.name) =
          cachedDelegation (StepRuns.run (cacheStep lib) w (without writesTyped es))
            (getZoneList request.q0.name) ∧
        lookupNSCacheHandle (StepRuns.run (cacheStep lib) w es) request response =
          lookupNSCacheHandle (StepRuns.run (cacheStep lib) w (without writesTyped es)) request
            response) ∧
      ((∀ zone m ttl, .effect (.setZone zone m ttl) ∈ es → ZoneKey zone) →
        cacheLookupHandle (StepRuns.run (cacheStep lib) w es) request response =
          cacheLookupHandle (StepRuns.run (cacheStep lib) w (without writesZone es)) request
            response) := by
  refine ⟨fun n m t u same => getCacheKey_inj same, ?_, ?_, ?_⟩
  · intro n t zone dotted
    exact (ne_getCacheKey_of_rooted dotted.rooted n t).symm
  · intro n t domain dotted zone listed
    have bare : ZoneKey zone := ⟨domain, dotted, listed⟩
    exact (ne_getCacheKey_of_rooted bare.rooted n t).symm
  · intro w es request response
    constructor
    · intro dotted
      exact ⟨(cachedDelegation_without lib w es dotted).symm,
        (lookupNSCache_without lib w es dotted response).symm⟩
    · intro bare
      exact (cacheLookup_without lib w es bare request response).symm

/-- A delegation of a name with a colon and a digit, and answers for that name and for the one
whose key is a part of it. -/
def colonHistory : List CacheEvent :=
  [.effect (.setZone "a.:1." { ns := [⟨"a.:1.", classINET, 60, .ns "ns.test."⟩] } 60),
    .effect (.setByType "a.:1." typeA
      { answer := [⟨"a.:1.", classINET, 60, .a "192.0.2.1"⟩] } 60),
    .advance second,
    .effect (.setByType "a." typeA { answer := [⟨"a.", classINET, 60, .a "192.0.2.2"⟩] } 60)]

theorem colon_names_kept_apart :
    let w := World.initial none 1 0
    let request : Msg := { question := [⟨"a.:1.", typeA, classINET⟩] }
    getCacheKey "a." typeA ++ "." = "a.:1." ∧
      getCacheKey "a." typeA ≠ getCacheKey "a.:1." typeA ∧ getCacheKey "a." typeA ≠ "a.:1." ∧
      getCacheKey "a." typeA ∉ getZoneList "a.:1." ∧
      (cachedDelegation (StepRuns.run (cacheStep plainLib) w colonHistory)
        (getZoneList "a.:1.")).map Prod.fst = some "a.:1." ∧
      (cacheLookupHandle (StepRuns.run (cacheStep plainLib) w colonHistory) request {}).2.answer =
        [⟨"a.:1.", classINET, 60, .a "192.0.2.1"⟩] ∧
      lookupNSCacheHandle (StepRuns.run (cacheStep plainLib) w colonHistory) request {} =
        lookupNSCacheHandle (StepRuns.run (cacheStep plainLib) w
          (without writesTyped colonHistory)) request {} ∧
      cacheLookupHandle (StepRuns.run (cacheStep plainLib) w colonHistory) request {} =
        cacheLookupHandle (StepRuns.run (cacheStep plainLib) w
          (without writesZone colonHistory)) request {} := by
  intro w request
  obtain ⟨inj, fqdn, zones, reads⟩ := cache_keys_never_collide plainLib
  obtain ⟨delegations, answers⟩ := reads w colonHistory request {}
  have dotted : EndsWithDot "a.:1." := by decide
  refine ⟨by decide +kernel, ?_, fqdn _ _ _ dotted, ?_, by decide +kernel, by decide +kernel,
    (delegations dotted).2, answers ?_⟩
  · intro same
    exact absurd (inj _ _ _ _ same).1 (by decide)
  · intro listed
    exact zones _ _ _ dotted _ listed rfl
  · intro zone m ttl mem
    simp only [colonHistory, List.mem_cons, List.not_mem_nil, CacheEvent.effect.injEq,
      Effect.setZone.injEq, reduceCtorEq, or_false] at mem
    rw [mem.1]
    exact dotted.zoneKey

end CacheFamilies
