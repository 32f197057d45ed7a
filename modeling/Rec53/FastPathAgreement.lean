import Rec53.FastPathFeed

/-!
# The fast path and the Go path

The map holds what was packed from one message; the Go path looks its entry up under
the name as it was spelled, and then follows CNAME records. The two give the same
answer while the map mirrors the Go cache: an unexpired entry of the map and an
unexpired item for the same question hold the same message, and that message has a
record of the type asked.
-/

namespace FastPathAgreement

open DnsMessage Platform XdpCache DnsCache ExpiringStore LocalConfig StateHandlers UpstreamQuery
  StateMachine FastPathFeed

/-- Some record of the answer has the type. -/
def HasType (m : Msg) (qtype : Nat) : Prop :=
  (m.answer.any fun rr => rr.rrtype == qtype) = true

/-- The map has no unexpired entry for the question. -/
def Unserved (lib : Lib) (w : World) (name : String) (qtype : Nat) : Prop :=
  ∀ map, w.xdp = some map → ∀ key, buildBPFCacheKey lib name qtype = some key →
    ∀ val, map.lookup key = some val → val.expireTs < w.mono / second

/-- The message reaches the map, has a record of the type it was asked for, and no other
spelling of its name is in the Go cache; or it does not reach the map, and the map has
no older entry for the question. -/
structure Fits (lib : Lib) (w : World) (m : Msg) : Prop where
  reached : ∀ map, w.xdp = some map → reachesMap lib map m ≠ none →
    HasType m m.q0.qtype ∧ ∀ name, name ≠ m.q0.name →
      buildBPFCacheKey lib name m.q0.qtype = buildBPFCacheKey lib m.q0.name m.q0.qtype →
      ∀ it, w.cache.find (getCacheKey name m.q0.qtype) = some it → it.expired w.wall = true
  missed : (∀ map, w.xdp = some map → reachesMap lib map m = none) →
    Unserved lib w m.q0.name m.q0.qtype

/-- What an event has to meet: the messages it stores fit, the owners of delegations end
with a dot, and no negative response is stored for a question that is served. -/
def Aligned (lib : Lib) (w : World) : Write → Prop
  | .accepted m => (m.answer ≠ [] → Fits lib w m) ∧
      ∀ rr ∈ m.ns.head?, rr.isNS = true → Rooted rr.name
  | .addresses id nsName ips => Fits lib w (nsAddressMsg lib id nsName ips)
  | .negative name qtype _ _ _ => Unserved lib w name qtype
  | .advance _ | .cleanup => True

/-- An unexpired entry of the map and an unexpired item of the Go cache for the same
question hold the same message. -/
def Mirrors (lib : Lib) (w : World) : Prop :=
  ∀ map, w.xdp = some map → ∀ name qtype key, buildBPFCacheKey lib name qtype = some key →
    ∀ val, map.lookup key = some val → w.mono / second ≤ val.expireTs →
      ∀ it, w.cache.find (getCacheKey name qtype) = some it → it.expired w.wall = false →
        lib.pack (minimalMsg it.object) = some val.response ∧ HasType it.object qtype

lemma buildBPFCacheKey_qtype {lib : Lib} {name name' : String} {qtype qtype' : Nat} {key : CacheKey}
    (built : buildBPFCacheKey lib name qtype = some key)
    (built' : buildBPFCacheKey lib name' qtype' = some key) : qtype = qtype' := by
  have type_of {name : String} {qtype : Nat} (built : buildBPFCacheKey lib name qtype = some key) :
      key.qtype = qtype := by
    rw [buildBPFCacheKey] at built
    split at built
    · cases built
    · cases built
      rfl
  rw [← type_of built, type_of built']

/-- A write of a message under its question keeps the mirror. -/
lemma mirrors_of_typed {lib : Lib} {w w' : World} {m : Msg} {ttl : Nat}
    (mirrors : Mirrors lib w) (fits : Fits lib w m) (wall : w'.wall = w.wall)
    (mono : w'.mono = w.mono) (xdp : w'.xdp = w.xdp.map (fastStore lib w.mono m ttl))
    (mine : ∀ it, w'.cache.find (getCacheKey m.q0.name m.q0.qtype) = some it →
      it.object = stripOPT m)
    (others : ∀ name qtype, getCacheKey name qtype ≠ getCacheKey m.q0.name m.q0.qtype →
      w'.cache.find (getCacheKey name qtype) = w.cache.find (getCacheKey name qtype)) :
    Mirrors lib w' := by
  intro map' attached' name qtype key built val held live it found alive
  rw [wall] at alive
  rw [mono] at live
  rw [attached'] at xdp
  obtain ⟨map, attached, is⟩ := Option.map_eq_some_iff.mp xdp.symm
  by_cases same : getCacheKey name qtype = getCacheKey m.q0.name m.q0.qtype
  · obtain ⟨rfl, rfl⟩ := getCacheKey_inj same
    rw [mine it found]
    cases reaches : reachesMap lib map m with
    | none =>
      -- the entry is an older one, which the message was not to leave behind
      simp only [fastStore, reaches] at is
      have unserved := fits.missed (fun map' attached' => by
        cases attached.symm.trans attached'
        exact reaches)
      have expired := unserved map attached key built val (is ▸ held)
      omega
    | some entry =>
      obtain ⟨key', packed⟩ := entry
      simp only [fastStore, reaches] at is
      obtain ⟨built', packs, _⟩ := fastEntry_eq_some.mp (reachesMap_eq_some.mp reaches).2
      cases built.symm.trans built'
      rw [← is, AList.lookup_insert] at held
      cases held
      exact ⟨packs, (fits.reached map attached (by simp [reaches])).1⟩
  · rw [others name qtype same] at found
    cases reaches : reachesMap lib map m with
    | none =>
      simp only [fastStore, reaches] at is
      exact mirrors map attached name qtype key built val (is ▸ held) live it found alive
    | some entry =>
      obtain ⟨key', packed⟩ := entry
      simp only [fastStore, reaches] at is
      obtain ⟨built', _⟩ := fastEntry_eq_some.mp (reachesMap_eq_some.mp reaches).2
      by_cases here : key = key'
      · -- another spelling of the name, which the Go cache has no live item for
        subst here
        obtain rfl := buildBPFCacheKey_qtype built built'
        have respelled : name ≠ m.q0.name := by
          rintro rfl
          exact same rfl
        have expired := (fits.reached map attached (by simp [reaches])).2 name respelled
          (built.trans built'.symm) it found
        rw [expired] at alive
        cases alive
      · rw [← is, AList.lookup_insert_ne here] at held
        exact mirrors map attached name qtype key built val held live it found alive

/-- What leaves the clocks and the items of questions alone, and adds nothing to the map,
keeps the mirror. -/
lemma mirrors_of_unchanged {lib : Lib} {w w' : World} (mirrors : Mirrors lib w)
    (wall : w'.wall = w.wall) (mono : w'.mono = w.mono)
    (xdp : ∀ map', w'.xdp = some map' → ∃ map, w.xdp = some map ∧
      ∀ key val, map'.lookup key = some val → map.lookup key = some val)
    (items : ∀ name qtype, w'.cache.find (getCacheKey name qtype) =
      w.cache.find (getCacheKey name qtype)) : Mirrors lib w' := by
  intro map' attached' name qtype key built val held live it found alive
  obtain ⟨map, attached, before⟩ := xdp map' attached'
  rw [items] at found
  exact mirrors map attached name qtype key built val (before key val held) (mono ▸ live) it found
    (wall ▸ alive)

lemma find_setZone {lib : Lib} {w : World} {zone : String} (rooted : Rooted zone) (m : Msg)
    (ttl : Nat) (name : String) (qtype : Nat) :
    (setCacheCopy lib w zone m ttl).cache.find (getCacheKey name qtype) =
      w.cache.find (getCacheKey name qtype) := by
  rw [setCacheCopy_cache]
  exact Store.find_set_of_ne _ (ne_getCacheKey_of_rooted rooted name qtype).symm

/-- The items of questions after an accepted message: its own, and those before. -/
lemma accepted_items (lib : Lib) (w : World) {m : Msg}
    (rooted : ∀ rr ∈ m.ns.head?, rr.isNS = true → Rooted rr.name) (name : String) (qtype : Nat) :
    (perform lib w (cacheEffects m)).cache.find (getCacheKey name qtype) =
      (perform lib w (answerEffects m)).cache.find (getCacheKey name qtype) := by
  rw [cacheEffects, perform_append]
  cases delegates : m.ns with
  | nil => simp [delegationEffects, delegates]
  | cons rr rest =>
    by_cases is : rr.isNS = true
    · have dotted : Rooted rr.name := rooted rr (by simp [delegates]) is
      simp only [delegationEffects, delegates, is, if_true, perform_cons, perform_nil, Effect.apply,
        find_setZone dotted]
    · simp [delegationEffects, delegates, is]

lemma accepted_mirrors {lib : Lib} (replaces : ReplacesHeld lib) {w : World} {m : Msg}
    (mirrors : Mirrors lib w) (fits : m.answer ≠ [] → Fits lib w m)
    (rooted : ∀ rr ∈ m.ns.head?, rr.isNS = true → Rooted rr.name) :
    Mirrors lib (perform lib w (cacheEffects m)) := by
  have wall := perform_wall lib w (cacheEffects m)
  have mono := perform_mono lib w (cacheEffects m)
  have xdp := accepted_xdp replaces w m
  have items := accepted_items lib w rooted
  cases answers : m.answer with
  | nil =>
    refine mirrors_of_unchanged mirrors wall mono ?_ ?_
    · intro map' attached'
      rw [attached'] at xdp
      obtain ⟨map, attached, is⟩ := Option.map_eq_some_iff.mp xdp.symm
      rw [fastStore_of_empty lib _ _ map answers] at is
      exact ⟨map, attached, fun key val held => is ▸ held⟩
    · intro name qtype
      rw [items name qtype]
      simp [answerEffects, answers]
  | cons first rest =>
    have written : (perform lib w (answerEffects m)).cache =
        w.cache.set w.wall (getCacheKey m.q0.name m.q0.qtype) (stripOPT m)
          (first.ttl * second) := by
      simp [answerEffects, answers, Effect.apply, setCacheCopyByType]
    refine mirrors_of_typed mirrors (fits (by simp [answers])) wall mono xdp ?_ ?_
    · intro it found
      rw [items, written, Store.find_set_self] at found
      cases found
      rfl
    · intro name qtype other
      rw [items, written, Store.find_set_of_ne _ other]

lemma addresses_mirrors {lib : Lib} {w : World} {id : Nat} {nsName : String} {ips : List String}
    (mirrors : Mirrors lib w) (fits : Fits lib w (nsAddressMsg lib id nsName ips)) :
    Mirrors lib (perform lib w [.updateNSIPs id nsName ips]) := by
  have wall := perform_wall lib w [.updateNSIPs id nsName ips]
  have mono := perform_mono lib w [.updateNSIPs id nsName ips]
  have written : (perform lib w [.updateNSIPs id nsName ips]).cache =
      w.cache.set w.wall (getCacheKey nsName typeA) (stripOPT (nsAddressMsg lib id nsName ips))
        (nsAddressTTL * second) := setCacheCopy_cache lib w _ _ _
  refine mirrors_of_typed mirrors fits wall mono (setCacheCopy_xdp lib w _ _ _) ?_ ?_
  · intro it found
    rw [written] at found
    cases (Store.find_set_self _ _ _ _ _).symm.trans found
    rfl
  · intro name qtype other
    rw [written]
    exact Store.find_set_of_ne _ other

lemma negative_mirrors {lib : Lib} {w : World} {name : String} {qtype : Nat} {m : Msg} {ttl : Nat}
    (empty : m.answer = []) (mirrors : Mirrors lib w) (unserved : Unserved lib w name qtype) :
    Mirrors lib (perform lib w [.setByType name qtype m ttl]) := by
  intro map' attached' name' qtype' key built val held live it found alive
  have xdp : (perform lib w [.setByType name qtype m ttl]).xdp =
      w.xdp.map (fastStore lib w.mono m ttl) := setCacheCopy_xdp lib w _ _ _
  rw [attached'] at xdp
  obtain ⟨map, attached, is⟩ := Option.map_eq_some_iff.mp xdp.symm
  rw [fastStore_of_empty lib _ ttl map empty] at is
  subst is
  rw [perform_wall] at alive
  rw [perform_mono] at live
  have written : (perform lib w [.setByType name qtype m ttl]).cache =
      w.cache.set w.wall (getCacheKey name qtype) (stripOPT m) (ttl * second) :=
    setCacheCopy_cache lib w _ _ _
  rw [written] at found
  by_cases same : getCacheKey name' qtype' = getCacheKey name qtype
  · obtain ⟨rfl, rfl⟩ := getCacheKey_inj same
    have expired := unserved map attached key built val held
    omega
  · rw [Store.find_set_of_ne _ same] at found
    exact mirrors map attached name' qtype' key built val held live it found alive

/-- Time only takes entries and items away. -/
lemma advance_mirrors {lib : Lib} {w : World} (d : Nat) (mirrors : Mirrors lib w) :
    Mirrors lib (w.advance d) := by
  intro map attached name qtype key built val held live it found alive
  refine mirrors map attached name qtype key built val held ?_ it found ?_
  · have earlier : w.mono / second ≤ (w.mono + d) / second :=
      Nat.div_le_div_right (Nat.le_add_right _ _)
    exact Nat.le_trans earlier live
  · have alive' : ¬ (0 < it.expiration ∧ it.expiration < w.wall + d) := of_decide_eq_false alive
    refine decide_eq_false ?_
    omega

theorem feedWorld_mirrors {lib : Lib} (replaces : ReplacesHeld lib) (w : World) (e : Write)
    (mirrors : Mirrors lib w) (aligned : Aligned lib w e) : Mirrors lib (feedWorld lib w e) := by
  cases e with
  | accepted m => exact accepted_mirrors replaces mirrors aligned.1 aligned.2
  | addresses id nsName ips => exact addresses_mirrors mirrors aligned
  | negative name qtype m ttl empty => exact negative_mirrors empty mirrors aligned
  | advance d => exact advance_mirrors d mirrors
  | cleanup =>
    refine mirrors_of_unchanged mirrors rfl rfl ?_ fun _ _ => rfl
    intro map' attached'
    obtain ⟨map, attached, rfl⟩ := Option.map_eq_some_iff.mp attached'
    exact ⟨map, attached, fun key val held => lookup_of_lookup_cleanup held⟩

/-! ### The Go path on a cache hit -/

/-- Neither hosts nor a forwarding zone answers the question. -/
structure Uncovered (env : Env) (name : String) (qtype : Nat) : Prop where
  unmapped : env.snap.hostsMap.lookup (getCacheKey name qtype) = none
  unlisted : name ∉ env.snap.hostsNames
  outside : matchedZone env name = none

lemma classify_typed {request response : Msg} (typed : HasType response request.q0.qtype) :
    classifyRespHandle request response = (.getAns, []) := by
  have answered : response.answer ≠ [] := by
    intro empty
    simp [HasType, empty] at typed
  have positive : isNegative response = false := by
    simp [isNegative, answered]
  rw [classifyRespHandle]
  simp only [positive, Bool.false_eq_true, if_false, if_neg answered]
  exact if_pos typed

/-- A resolution that has followed no CNAME record. -/
def unaliased (request : Msg) (depth : Nat) (st : StateKind) (response : Msg) (iterations : Nat) :
    Resolution :=
  ⟨st, request, response, [], request.q0, [], iterations, depth⟩

/-- A question that local rules leave alone, with a live item that has a record of its
type, is answered with the records of that item in six rounds. -/
theorem resolve_hit (env : Env) {request : Msg} {q : Question} {w : World} {cached : Msg}
    (single : request.question = [q]) (query : request.opcode = opcodeQuery)
    (plain : request.response = false) (uncovered : Uncovered env q.name q.qtype)
    (found : getCacheCopyByType w q.name q.qtype = some cached) (typed : HasType cached q.qtype)
    (depth : Nat) (visits : List Visit) (six : visits.length = 6)
    (here : ∀ v ∈ visits, v.world = w) :
    ∃ r reply, resolve env request depth visits = .done r (.ok reply) ∧
      reply.answer = cached.answer := by
  obtain ⟨v₁, visits, rfl, five⟩ := List.length_eq_succ_iff.mp six
  obtain ⟨v₂, visits, rfl, four⟩ := List.length_eq_succ_iff.mp five
  obtain ⟨v₃, visits, rfl, three⟩ := List.length_eq_succ_iff.mp four
  obtain ⟨v₄, v₅, v₆, rfl⟩ := List.length_eq_three.mp three
  obtain rfl : request.q0 = q := by simp [Msg.q0, single]
  have answered : cached.answer ≠ [] := by
    intro empty
    simp [HasType, empty] at typed
  let at_state := unaliased request depth
  let response := ({} : Msg).setReply request
  let merged := mergePositive response cached
  have missed : HostsMissed env request request.q0 :=
    ⟨single, plain, query, uncovered.unmapped, uncovered.unlisted⟩
  have init : visit env (.next (start request depth)) v₁ =
      .next (at_state .hostsLookup response 2) := congrArg Prod.snd (visit_init missed depth v₁)
  have hosts : visit env (.next (at_state .hostsLookup response 2)) v₂ =
      .next (at_state .forwardLookup response 3) := congrArg Prod.snd (visit_hosts missed depth v₂)
  have forward : visit env (.next (at_state .forwardLookup response 3)) v₃ =
      .next (at_state .cacheLookup response 4) := by
    change (forwardRound env v₃.input (at_state .forwardLookup response 3)).2 = _
    simp only [forwardRound, forwardLookupHandle, at_state, unaliased, uncovered.outside]
    rfl
  have lookup : visit env (.next (at_state .cacheLookup response 4)) v₄ =
      .next (at_state .classifyResp merged 5) := by
    change (cacheRound v₄.world v₄.input (at_state .cacheLookup response 4)).2 = _
    have hit : cacheLookupHandle w request response = (.hit, merged) := by
      simp [cacheLookupHandle, found, answered, merged]
    simp only [cacheRound, at_state, unaliased, here v₄ (by simp), hit]
    rfl
  have classify : visit env (.next (at_state .classifyResp merged 5)) v₅ =
      .next (at_state .returnResp merged 6) := by
    change (classifyRound env (at_state .classifyResp merged 5)).2 = _
    have answer : classifyRespHandle request merged = (.getAns, []) := by
      refine classify_typed ?_
      simpa [HasType, merged, mergePositive, response] using typed
    simp only [classifyRound, at_state, unaliased, answer]
    rfl
  refine ⟨at_state .returnResp merged 6, buildFinalResponse (at_state .returnResp merged 6), ?_, ?_⟩
  · simp only [resolve, StepRuns.run, init, hosts, forward, lookup, classify]
    rfl
  · simp [buildFinalResponse, at_state, unaliased, merged, mergePositive, response]

/-! ### Agreement -/

/-- When the fast path serves the question, the Go path answers it too, on the same caches
and with the same answer section. -/
def Agrees (env : Env) (w : World) (q : Question) : Prop :=
  ∀ request map key reply, request.question = [q] → request.opcode = opcodeQuery →
    request.response = false → request.id < 65536 → w.xdp = some map →
    buildBPFCacheKey env.lib q.name q.qtype = some key →
    xdpReply env.lib map w.mono request.id key = some reply →
    ∀ depth visits, visits.length = 6 → (∀ v ∈ visits, v.world = w) →
      ∃ r go, resolve env request depth visits = .done r (.ok go) ∧ go.answer = reply.answer

lemma agrees_of_mirrors {env : Env} (inverse : PackInverse env.lib) {w : World}
    (mirrors : Mirrors env.lib w) {q : Question} (uncovered : Uncovered env q.name q.qtype)
    (cached : getCacheCopyByType w q.name q.qtype ≠ none) : Agrees env w q := by
  intro request map key reply single query plain small attached built served depth visits six here
  obtain ⟨copy, found⟩ := Option.ne_none_iff_exists'.mp cached
  obtain ⟨it, held_go, alive, rfl⟩ := getCacheCopy_eq_some.mp found
  rw [xdpReply] at served
  split at served
  · cases served
  · rename_i bytes response
    obtain ⟨val, held, rfl, live⟩ := lookupResponse_eq_some response
    obtain ⟨packs, typed⟩ := mirrors map attached q.name q.qtype key built val held live it held_go
      alive
    have unpacked := inverse _ _ request.id small packs
    cases unpacked.symm.trans served
    exact resolve_hit env single query plain uncovered found typed depth visits six here

/-- From an attached, empty map on, for every sequence of cache writes and clock advances
each of which is aligned, and in every state: the fast path and the Go path agree on each
question that local rules leave alone and that has a live item in the Go cache. -/
theorem fast_path_agrees (env : Env) (inverse : PackInverse env.lib)
    (replaces : ReplacesHeld env.lib) (wall mono : Nat) (es : List Write)
    (aligned : StepRuns.Along (feedWorld env.lib) (Aligned env.lib)
      (World.initial (some ∅) wall mono) es) :
    StepRuns.Throughout (feedWorld env.lib)
      (fun w => ∀ q, Uncovered env q.name q.qtype → getCacheCopyByType w q.name q.qtype ≠ none →
        Agrees env w q) (World.initial (some ∅) wall mono) es := by
  have start : Mirrors env.lib (World.initial (some ∅) wall mono) := by
    intro map attached name qtype key built val held
    cases attached
    simp at held
  refine StepRuns.Throughout.mono (feedWorld env.lib)
    (fun _ mirrors _ => agrees_of_mirrors inverse mirrors) ?_
  exact StepRuns.throughout_invariant (feedWorld env.lib) (feedWorld_mirrors replaces) start aligned

section Alias

def aliasMsg : Msg :=
  { response := true, question := [⟨"a.", typeA, classINET⟩],
    answer := [⟨"a.", classINET, 60, .cname "b."⟩] }

def targetMsg : Msg :=
  { response := true, question := [⟨"b.", typeA, classINET⟩],
    answer := [⟨"b.", classINET, 60, .a "192.0.2.1"⟩] }

/-- The wire format of the two messages, after the id. -/
def aliasBytes : Bytes :=
  [0x80, 0, 0, 1, 0, 1, 0, 0, 0, 0, 1, 0x61, 0, 0, 1, 0, 1,
    0xc0, 0x0c, 0, 5, 0, 1, 0, 0, 0, 60, 0, 3, 1, 0x62, 0]

def targetBytes : Bytes :=
  [0x80, 0, 0, 1, 0, 1, 0, 0, 0, 0, 1, 0x62, 0, 0, 1, 0, 1,
    0xc0, 0x0c, 0, 1, 0, 1, 0, 0, 0, 60, 0, 4, 192, 0, 2, 1]

def aliasLib : Lib := tableLib [(aliasMsg, aliasBytes), (targetMsg, targetBytes)]

def aliasEnv : Env := ⟨aliasLib, emptySnapshot⟩

lemma aliasLib_packInverse : PackInverse aliasLib := by
  refine tableLib_packInverse ?_
  decide

/-- The key of a name of one letter. -/
def nameKey (letter : UInt8) : CacheKey := ⟨[1, letter, 0] ++ List.replicate 252 0, typeA⟩

def targetCached : World := feedWorld aliasLib (World.initial (some ∅) 1 0) (.accepted targetMsg)

lemma targetMsg_aligned :
    Aligned aliasLib (World.initial (some ∅) 1 0) (.accepted targetMsg) := by
  have reaches : reachesMap aliasLib ∅ targetMsg = some (nameKey 0x62, idBytes 0 ++ targetBytes) :=
    rfl
  refine ⟨fun _ => ⟨?_, ?_⟩, fun rr delegates => by cases delegates⟩
  · intro map attached reached
    refine ⟨rfl, ?_⟩
    intro name respelled same it found
    simp [World.initial, newCache] at found
  · intro missed
    rw [missed ∅ rfl] at reaches
    cases reaches

theorem target_agrees :
    ∃ map reply r go, targetCached.xdp = some map ∧
      xdpReply aliasLib map targetCached.mono 7 (nameKey 0x62) = some reply ∧
      resolve aliasEnv (newQuery 7 "b." typeA) 0 (List.replicate 6 ⟨targetCached, .idle⟩) =
        .done r (.ok go) ∧ go.answer = reply.answer := by
  have attached : targetCached.xdp =
      some (AList.insert (nameKey 0x62) ⟨60, idBytes 0 ++ targetBytes⟩ ∅) := rfl
  have served : xdpReply aliasLib
      (AList.insert (nameKey 0x62) ⟨60, idBytes 0 ++ targetBytes⟩ ∅) targetCached.mono 7
      (nameKey 0x62) = some { targetMsg with id := 7 } := by
    simp only [xdpReply, lookupResponse, AList.lookup_insert]
    rfl
  have uncovered : Uncovered aliasEnv "b." typeA := ⟨rfl, List.not_mem_nil, rfl⟩
  have cached : getCacheCopyByType targetCached "b." typeA ≠ none := by
    intro missing
    cases missing
  have agrees : Agrees aliasEnv targetCached ⟨"b.", typeA, classINET⟩ :=
    (fast_path_agrees aliasEnv aliasLib_packInverse (fun _ _ _ => rfl) 1 0 [.accepted targetMsg]
      ⟨targetMsg_aligned, trivial⟩).2 _ uncovered cached
  obtain ⟨r, go, ended, same⟩ := agrees (newQuery 7 "b." typeA) _ _ _ rfl rfl rfl (by decide)
    attached rfl served 0 (List.replicate 6 ⟨targetCached, .idle⟩) rfl
    (fun v mem => by rw [List.eq_of_mem_replicate mem])
  exact ⟨_, _, r, go, attached, served, ended, same⟩

/-- The upstream answered `a.` with an alias only; the address of `b.` is cached as well. -/
def bothCached : World :=
  StepRuns.run (feedWorld aliasLib) (World.initial (some ∅) 1 0)
    [.accepted aliasMsg, .accepted targetMsg]

/-- The fast path sends the alias alone, the Go path the alias and the address. -/
theorem alias_answers_differ :
    PackInverse aliasLib ∧ ∃ map reply r go, bothCached.xdp = some map ∧
      buildBPFCacheKey aliasLib "a." typeA = some (nameKey 0x61) ∧
      xdpReply aliasLib map bothCached.mono 7 (nameKey 0x61) = some reply ∧
      resolve aliasEnv (newQuery 7 "a." typeA) 0 (List.replicate 8 ⟨bothCached, .idle⟩) =
        .done r (.ok go) ∧
      reply.answer = aliasMsg.answer ∧ go.answer = aliasMsg.answer ++ targetMsg.answer ∧
      reply.answer ≠ go.answer := by
  have attached : bothCached.xdp =
      some (AList.insert (nameKey 0x62) ⟨60, idBytes 0 ++ targetBytes⟩
        (AList.insert (nameKey 0x61) ⟨60, idBytes 0 ++ aliasBytes⟩ ∅)) := rfl
  have other : nameKey 0x61 ≠ nameKey 0x62 := by decide
  refine ⟨aliasLib_packInverse, _, { aliasMsg with id := 7 }, _, _, attached, rfl, ?_, rfl, rfl,
    rfl, by decide⟩
  simp only [xdpReply, lookupResponse, AList.lookup_insert_ne other, AList.lookup_insert]
  rfl

end Alias

end FastPathAgreement
