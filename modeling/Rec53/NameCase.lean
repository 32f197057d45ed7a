import Rec53.StateMachine

/-!
# Letter case in the lookups

HOSTS_LOOKUP and CACHE_LOOKUP look a name up by its text, under keys that were built
from the spelling of the configuration or of an earlier query. FORWARD_LOOKUP compares
labels with the dns library. Two requests that differ in the letter case of the name are
told apart by the first two whenever the tables are.
-/

namespace NameCase

open DnsMessage Platform DnsCache LocalConfig StateHandlers StateMachine

/-- What is compared of a record: all of it, with the owner in lower case. -/
def recordData (rr : RR) : RR := { rr with name := String.ofList (foldCase rr.name) }

def sectionData (rrs : List RR) : List RR := rrs.map recordData

/-- The three sections carry the same record data. -/
structure SameData (m m' : Msg) : Prop where
  answer : sectionData m.answer = sectionData m'.answer
  ns : sectionData m.ns = sectionData m'.ns
  extra : sectionData m.extra = sectionData m'.extra

lemma sectionData_append (xs ys : List RR) :
    sectionData (xs ++ ys) = sectionData xs ++ sectionData ys := List.map_append

lemma renameQuestion_sameData (m : Msg) (name : String) : SameData m (renameQuestion m name) := by
  rw [renameQuestion]
  split
  · exact ⟨rfl, rfl, rfl⟩
  · exact ⟨rfl, rfl, rfl⟩

/-! ### What each lookup finds -/

/-- Records for the answer and for the authority section. -/
abbrev Found := Option (List RR × List RR)

def Found.data (found : Found) : Found :=
  found.map fun records => (sectionData records.1, sectionData records.2)

/-- The records that hosts has for a question: none when the name is not listed. -/
def hostsRecords (snap : HostsForwardSnapshot) (name : String) (qtype : Nat) : Found :=
  match snap.hostsMap.lookup (getCacheKey name qtype) with
  | some cached => some (cached.answer, [])
  | none => if name ∈ snap.hostsNames then some ([], []) else none

/-- The records of a cache entry that can be used: the answer of a positive entry, the
authority section of a negative one. -/
def cachedRecords (w : World) (name : String) (qtype : Nat) : Found :=
  match getCacheCopyByType w name qtype with
  | none => none
  | some cached =>
    if cached.answer ≠ [] then some (cached.answer, [])
    else if hasSOAInAuthority cached then some ([], cached.ns)
    else none

/-- A lookup that hits exactly when something is found, and appends it. -/
structure LooksUp {R : Type} (hit miss : R) (response : Msg) (found : Found) (out : R × Msg) :
    Prop where
  branch : out.1 = if found.isSome then hit else miss
  answer : out.2.answer = response.answer ++ (found.map Prod.fst).getD []
  ns : out.2.ns = response.ns ++ (found.map Prod.snd).getD []
  extra : out.2.extra = response.extra

lemma hostsLookupHandle_looksUp (snap : HostsForwardSnapshot) (request response : Msg) :
    LooksUp .hit .miss response (hostsRecords snap request.q0.name request.q0.qtype)
      (hostsLookupHandle snap request response) := by
  have missed : LooksUp HostsRet.hit .miss response none (.miss, response) :=
    ⟨rfl, (List.append_nil _).symm, (List.append_nil _).symm, rfl⟩
  rw [hostsLookupHandle, hostsRecords]
  by_cases none_compiled : snap.hostsMap.keys = []
  · have absent : snap.hostsMap.lookup (getCacheKey request.q0.name request.q0.qtype) = none := by
      refine AList.lookup_eq_none.mpr ?_
      rw [AList.mem_keys, none_compiled]
      exact List.not_mem_nil
    rw [if_pos none_compiled, absent, snap.named none_compiled]
    exact missed
  rw [if_neg none_compiled]
  cases snap.hostsMap.lookup (getCacheKey request.q0.name request.q0.qtype) with
  | some cached => exact ⟨rfl, rfl, (List.append_nil _).symm, rfl⟩
  | none =>
    dsimp only
    split
    · exact ⟨rfl, (List.append_nil _).symm, (List.append_nil _).symm, rfl⟩
    · exact missed

lemma cacheLookupHandle_looksUp (w : World) (request response : Msg) :
    LooksUp .hit .miss response (cachedRecords w request.q0.name request.q0.qtype)
      (cacheLookupHandle w request response) := by
  have missed : LooksUp CacheRet.hit .miss response none (.miss, response) :=
    ⟨rfl, (List.append_nil _).symm, (List.append_nil _).symm, rfl⟩
  rw [cacheLookupHandle, cachedRecords]
  cases getCacheCopyByType w request.q0.name request.q0.qtype with
  | none => exact missed
  | some cached =>
    dsimp only
    split
    · exact ⟨rfl, rfl, (List.append_nil _).symm, rfl⟩
    split
    · exact ⟨rfl, (List.append_nil _).symm, rfl, rfl⟩
    · exact missed

/-- Two lookups agree exactly when they find the same record data. -/
theorem looksUp_same_iff {R : Type} {hit miss : R} (distinct : hit ≠ miss)
    {response response' : Msg} {found found' : Found} {out out' : R × Msg}
    (first : LooksUp hit miss response found out)
    (second : LooksUp hit miss response' found' out') (same : SameData response response') :
    (out.1 = out'.1 ∧ SameData out.2 out'.2) ↔ found.data = found'.data := by
  have answers : sectionData out.2.answer = sectionData out'.2.answer ↔
      sectionData ((found.map Prod.fst).getD []) = sectionData ((found'.map Prod.fst).getD []) := by
    rw [first.answer, second.answer, sectionData_append, sectionData_append, same.answer,
      List.append_cancel_left_eq]
  have authorities : sectionData out.2.ns = sectionData out'.2.ns ↔
      sectionData ((found.map Prod.snd).getD []) = sectionData ((found'.map Prod.snd).getD []) := by
    rw [first.ns, second.ns, sectionData_append, sectionData_append, same.ns,
      List.append_cancel_left_eq]
  have extras : sectionData out.2.extra = sectionData out'.2.extra := by
    rw [first.extra, second.extra, same.extra]
  have sections : SameData out.2 out'.2 ↔
      sectionData out.2.answer = sectionData out'.2.answer ∧
        sectionData out.2.ns = sectionData out'.2.ns := by
    constructor
    · intro data
      exact ⟨data.answer, data.ns⟩
    · rintro ⟨answer, ns⟩
      exact ⟨answer, ns, extras⟩
  rw [sections, answers, authorities, first.branch, second.branch]
  cases found with
  | none =>
    cases found' with
    | none => simp
    | some records' => simp [Found.data, distinct.symm]
  | some records =>
    cases found' with
    | none => simp [Found.data, distinct]
    | some records' => simp [Found.data]

/-- The loop over the upstreams does not look at the name. -/
lemma tryUpstreams_sameData (inp : Input) {request request' response response' : Msg}
    (same : SameData response response') (i : Nat) (ups : List String) :
    (tryUpstreams inp request response i ups).1 = (tryUpstreams inp request' response' i ups).1 ∧
      SameData (tryUpstreams inp request response i ups).2.1
        (tryUpstreams inp request' response' i ups).2.1 := by
  induction ups generalizing i with
  | nil => exact ⟨rfl, same⟩
  | cons upstream rest ih =>
    simp only [tryUpstreams]
    split
    · exact ⟨rfl, same⟩
    cases (inp.forward i).2 with
    | error e => exact ih (i + 1)
    | ok resp => exact ⟨rfl, rfl, rfl, rfl⟩

/-! ### Two spellings -/

/-- The dns library compares labels without regard to letter case. -/
def CaseInsensitive (lib : Lib) : Prop :=
  ∀ parent child child', SameName child child' →
    lib.isSubDomain parent child = lib.isSubDomain parent child'

/-- The same branch and the same record data for two requests in the three lookups. -/
structure SameLookups (env : Env) (w : World) (inp : Input)
    (request response request' response' : Msg) : Prop where
  hosts : (hostsLookupHandle env.snap request response).1 =
      (hostsLookupHandle env.snap request' response').1 ∧
    SameData (hostsLookupHandle env.snap request response).2
      (hostsLookupHandle env.snap request' response').2
  forward : (forwardLookupHandle env inp request response).1 =
      (forwardLookupHandle env inp request' response').1 ∧
    SameData (forwardLookupHandle env inp request response).2.1
      (forwardLookupHandle env inp request' response').2.1
  cache : (cacheLookupHandle w request response).1 = (cacheLookupHandle w request' response').1 ∧
    SameData (cacheLookupHandle w request response).2 (cacheLookupHandle w request' response').2

/-- Hosts has the same for both spellings. -/
def HostsAlike (snap : HostsForwardSnapshot) (name name' : String) (qtype : Nat) : Prop :=
  (hostsRecords snap name qtype).data = (hostsRecords snap name' qtype).data

instance (snap : HostsForwardSnapshot) (name name' : String) (qtype : Nat) :
    Decidable (HostsAlike snap name name' qtype) := inferInstanceAs (Decidable (_ = _))

/-- The cache has the same for both spellings. -/
def CacheAlike (w : World) (name name' : String) (qtype : Nat) : Prop :=
  (cachedRecords w name qtype).data = (cachedRecords w name' qtype).data

lemma forward_same {request response request' response' : Msg} {env : Env}
    (insensitive : CaseInsensitive env.lib) (inp : Input)
    (spelled : SameName request.q0.name request'.q0.name) (same : SameData response response') :
    (forwardLookupHandle env inp request response).1 =
        (forwardLookupHandle env inp request' response').1 ∧
      SameData (forwardLookupHandle env inp request response).2.1
        (forwardLookupHandle env inp request' response').2.1 := by
  have zone : matchedZone env request.q0.name = matchedZone env request'.q0.name := by
    rw [matchedZone, matchedZone]
    congr 1
    funext z
    exact insensitive z.zone _ _ spelled
  rw [forwardLookupHandle, forwardLookupHandle, zone]
  cases matchedZone env request'.q0.name with
  | none => exact ⟨rfl, same⟩
  | some z =>
    dsimp only
    split
    · exact tryUpstreams_sameData inp same 0 z.upstreams
    · exact ⟨rfl, same⟩

/-- For two requests that differ only in the letter case of the name: the three lookups
take the same branch and return the same record data exactly when hosts and the cache
have the same for both spellings. -/
theorem lookups_ignore_case_iff (env : Env) (w : World) (inp : Input) {request response : Msg}
    {name' : String} (insensitive : CaseInsensitive env.lib)
    (single : request.question.length = 1) (spelled : SameName request.q0.name name') :
    SameLookups env w inp request response (renameQuestion request name')
        (renameQuestion response name') ↔
      HostsAlike env.snap request.q0.name name' request.q0.qtype ∧
        CacheAlike w request.q0.name name' request.q0.qtype := by
  have name : (renameQuestion request name').q0.name = name' := renameQuestion_name single name'
  have type : (renameQuestion request name').q0.qtype = request.q0.qtype := by
    obtain ⟨q, is⟩ := List.length_eq_one_iff.mp single
    simp [renameQuestion, Msg.q0, is]
  have same := renameQuestion_sameData response name'
  have hosts := looksUp_same_iff (by intro h; cases h)
    (hostsLookupHandle_looksUp env.snap request response)
    (hostsLookupHandle_looksUp env.snap (renameQuestion request name')
      (renameQuestion response name')) same
  have cache := looksUp_same_iff (by intro h; cases h)
    (cacheLookupHandle_looksUp w request response)
    (cacheLookupHandle_looksUp w (renameQuestion request name')
      (renameQuestion response name')) same
  rw [name, type] at hosts cache
  constructor
  · intro lookups
    exact ⟨hosts.mp lookups.hosts, cache.mp lookups.cache⟩
  · rintro ⟨hostsAlike, cacheAlike⟩
    refine ⟨hosts.mpr hostsAlike, ?_, cache.mpr cacheAlike⟩
    exact forward_same insensitive inp (by rw [name]; exact spelled) same

lemma plainLib_caseInsensitive : CaseInsensitive plainLib := by
  intro parent child child' same
  have folded : foldCase child = foldCase child' := same
  simp only [plainLib, folded]

section Spellings

def routerEntry (name : String) : HostEntry := ⟨name, "A", "192.0.2.1", 60⟩

lemma routerEntries_supported (names : List String) :
    ∀ h ∈ names.map routerEntry, h.Supported := by
  intro h mem
  obtain ⟨name, _, rfl⟩ := List.mem_map.mp mem
  exact .inl (show toUpper "A" = "A" by decide)

/-- A configuration with the address of the router under the given spellings. -/
def routerEnv (names : List String) : Env :=
  ⟨plainLib, configSnapshot plainLib (names.map routerEntry) (routerEntries_supported names) []⟩

def routerRequest : Msg := { id := 1, question := [⟨"router.lan.", typeA, classINET⟩] }

/-- With both spellings listed, and nothing cached, the lookups agree. -/
theorem both_spellings_listed :
    SameLookups (routerEnv ["router.lan.", "Router.LAN."]) (World.initial none 1 0) .idle
      routerRequest {} (renameQuestion routerRequest "Router.LAN.")
      (renameQuestion {} "Router.LAN.") :=
  (lookups_ignore_case_iff (routerEnv ["router.lan.", "Router.LAN."]) (World.initial none 1 0) .idle
    plainLib_caseInsensitive rfl (by decide)).mpr ⟨by decide +kernel, rfl⟩

/-- A cached address of `a.example.` -/
def cachedWorld : World :=
  setCacheCopyByType plainLib (World.initial none 1 0) "a.example." typeA
    { answer := [⟨"a.example.", classINET, 60, .a "192.0.2.1"⟩] } 60

/-- A name that is listed or cached in one spelling is missed in another. -/
theorem other_spelling_missed :
    SameName "router.lan." "Router.LAN." ∧
      (hostsLookupHandle (routerEnv ["router.lan."]).snap routerRequest {}).1 = .hit ∧
      (hostsLookupHandle (routerEnv ["router.lan."]).snap
        (renameQuestion routerRequest "Router.LAN.") {}).1 = .miss ∧
      SameName "a.example." "A.example." ∧
      (cacheLookupHandle cachedWorld { question := [⟨"a.example.", typeA, classINET⟩] } {}).1 =
        .hit ∧
      (cacheLookupHandle cachedWorld { question := [⟨"A.example.", typeA, classINET⟩] } {}).1 =
        .miss :=
  ⟨by decide, rfl, rfl, by decide, rfl, rfl⟩

end Spellings

end NameCase
