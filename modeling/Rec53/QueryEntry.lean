import Rec53.StateMachine

/-!
# What a query is sent with

QUERY_UPSTREAM is entered from EXTRACT_GLUE with a delegation that was received, or
from LOOKUP_NS_CACHE with one from the cache or with the root glue. The invariant is
stated over a relation `Known` that holds of every cached message a visit can read,
so that it can be used with any account of what the cache contains.
-/

namespace QueryEntry

open DnsMessage Platform DnsCache StateHandlers UpstreamQuery StateMachine

variable (env : Env) (Known : String → Msg → Prop)

/-- The authority section starts with an NS record whose owner encloses the current
name, or it was read from the cache under a name of the zone list, or it is the root
glue. -/
def Delegation (r : Resolution) : Prop :=
  ∃ rr rest, r.response.ns = rr :: rest ∧ rr.isNS = true ∧
    (env.lib.isSubDomain rr.name r.qname = true ∨
      (∃ zone ∈ getZoneList r.qname, ∃ m, Known zone m ∧ r.response.ns = m.ns) ∨
      r.response.ns = rootGlue.1)

structure Guarded (o : Outcome) : Prop where
  searching : ∀ r, o = .next r → r.st = .lookupNSCache → r.response.ns = []
  asking : ∀ r, o = .next r → r.st = .queryUpstream → Delegation env Known r
  waiting : ∀ r source, o = .await r source → Delegation env Known r

lemma cachedDelegation_spec {w : World} {zones : List String} {zone : String} {m : Msg}
    (found : cachedDelegation w zones = some (zone, m)) :
    zone ∈ zones ∧ getCacheCopy w zone = some m ∧
      ∃ rr rest, m.ns = rr :: rest ∧ rr.isNS = true := by
  induction zones with
  | nil => cases found
  | cons z rest ih =>
    have later (found : cachedDelegation w rest = some (zone, m)) :
        zone ∈ z :: rest ∧ getCacheCopy w zone = some m ∧
          ∃ rr rest, m.ns = rr :: rest ∧ rr.isNS = true := by
      obtain ⟨mem, copy, first⟩ := ih found
      exact ⟨List.mem_cons_of_mem _ mem, copy, first⟩
    rw [cachedDelegation] at found
    split at found
    · exact later found
    · rename_i cached copy
      split at found
      · exact later found
      · rename_i rr rest' first
        split at found
        · rename_i delegation
          cases found
          exact ⟨List.mem_cons_self, copy, rr, rest', first, delegation⟩
        · exact later found

/-- LOOKUP_NS_CACHE on an empty authority section finds a delegation. -/
lemma lookupNSCache_delegation {w : World} {r r' : Resolution}
    (known : ∀ zone m, getCacheCopy w zone = some m → Known zone m)
    (empty : r.response.ns = []) (request : r'.request = r.request)
    (response : r'.response = lookupNSCacheHandle w r.request r.response) :
    Delegation env Known r' := by
  have qname : r'.qname = r.qname := congrArg (fun m => m.q0.name) request
  rw [lookupNSCacheHandle] at response
  split at response
  · rename_i zone m found
    obtain ⟨mem, copy, rr, rest, first, delegation⟩ := cachedDelegation_spec found
    have same : r'.response.ns = m.ns := by rw [response, empty]; rfl
    exact ⟨rr, rest, same.trans first, delegation,
      .inr (.inl ⟨zone, qname ▸ mem, m, known zone m copy, same⟩)⟩
  · have same : r'.response.ns = rootGlue.1 := by rw [response, empty]; rfl
    exact ⟨_, _, same, rfl, .inr (.inr same)⟩

lemma done_guarded (r : Resolution) (result : Except String Msg) :
    Guarded env Known (.done r result) :=
  ⟨fun r' is => (by cases is), fun r' is => (by cases is), fun r' s is => (by cases is)⟩

/-- A move is guarded when what its target state needs is there. -/
lemma goto_guarded (r : Resolution) (st : StateKind)
    (search : st = .lookupNSCache → r.response.ns = [])
    (ask : st = .queryUpstream → Delegation env Known r) : Guarded env Known (r.goto st) := by
  rcases r.goto_eq st with ⟨_, next⟩ | ⟨_, limit⟩
  · rw [next]
    refine ⟨?_, ?_, fun r' s is => (by cases is)⟩
    · intro r' is here
      cases is
      exact search here
    · intro r' is here
      cases is
      exact ask here
  · rw [limit]
    exact done_guarded env Known r _

theorem visit_guarded (o : Outcome) (v : Visit)
    (known : ∀ zone m, getCacheCopy v.world zone = some m → Known zone m)
    (guarded : Guarded env Known o) : Guarded env Known (visit env o v) := by
  have visited := visit_visited env o v
  generalize visit env o v = o', (visitEffects env o v).1 = effects at visited
  cases visited with
  | ended r result => exact guarded
  | resumed r source effects o' resumed =>
    cases resumed with
    | accepted | nxdomain => exact goto_guarded env Known _ _ (by simp) (by simp)
    | noServer | failed | rejected => exact done_guarded env Known _ _
  | round r effects o' moved =>
    cases moved with
    | glueExist here rr rest first delegation encloses =>
      refine goto_guarded env Known _ _ (by simp) ?_
      intro _
      exact ⟨rr, rest, first, delegation, .inl encloses⟩
    | glueKept here none_left =>
      exact goto_guarded env Known _ _ (fun _ => none_left) (by simp)
    | glueCleared here => exact goto_guarded env Known _ _ (fun _ => rfl) (by simp)
    | nsCache here =>
      refine goto_guarded env Known _ _ (by simp) ?_
      intro _
      exact lookupNSCache_delegation env Known known (guarded.searching r rfl here) rfl rfl
    | query here =>
      refine ⟨fun r' is => (by cases is), fun r' is => (by cases is), ?_⟩
      intro r' source is
      cases is
      exact guarded.asking r rfl here
    | formerr | forwardEnd | cacheRefused | cnameCycle | cancelled | finish =>
      exact done_guarded env Known _ _
    | _ => exact goto_guarded env Known _ _ (by simp) (by simp)

theorem start_guarded (request : Msg) (depth : Nat) :
    Guarded env Known (.next (start request depth)) := by
  refine ⟨?_, ?_, fun r s is => (by cases is)⟩
  · intro r is here
    cases is
    cases here
  · intro r is here
    cases is
    cases here

variable {Known} in
theorem Guarded.mono {Known' : String → Msg → Prop} {o : Outcome}
    (wider : ∀ zone m, Known zone m → Known' zone m) (guarded : Guarded env Known o) :
    Guarded env Known' o := by
  have widen {r : Resolution} (d : Delegation env Known r) : Delegation env Known' r := by
    obtain ⟨rr, rest, first, delegation, source⟩ := d
    refine ⟨rr, rest, first, delegation, ?_⟩
    rcases source with encloses | ⟨zone, mem, m, known, same⟩ | root
    · exact .inl encloses
    · exact .inr (.inl ⟨zone, mem, m, wider zone m known, same⟩)
    · exact .inr (.inr root)
  exact ⟨guarded.searching, fun r is here => widen (guarded.asking r is here),
    fun r s is => widen (guarded.waiting r s is)⟩

end QueryEntry
