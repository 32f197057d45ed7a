import Rec53.ResolverSystem

/-!
# Hosts and forwarding rules during a resolution

HOSTS_LOOKUP and FORWARD_LOOKUP look at the name that was asked. A followed CNAME
record sends the resolution back to CACHE_LOOKUP, so its target is not looked up in
the local rules. The results say exactly that: a query for a name under a local rule
is only sent out when that name is the target of the last CNAME record followed.
-/

namespace LocalRules

open DnsMessage Platform DnsCache LocalConfig StateHandlers UpstreamQuery StateMachine
  ResolverSystem

/-- The name is listed in hosts or enclosed by a forwarding zone. -/
def Covered (env : Env) (name : String) : Prop :=
  name ∈ env.snap.hostsNames ∨
    ∃ z ∈ env.snap.forwardZones, env.lib.isSubDomain z.zone name = true

/-- The states from CACHE_LOOKUP to QUERY_UPSTREAM. -/
def Iterative : StateKind → Bool
  | .cacheLookup | .classifyResp | .extractGlue | .lookupNSCache | .queryUpstream => true
  | .stateInit | .hostsLookup | .forwardLookup | .returnResp => false

/-- Before the first hop, an iterative state works on a name without a local rule. -/
structure Screened (env : Env) (o : Outcome) : Prop where
  unlisted : ∀ r, o = .next r → r.st = .forwardLookup → r.qname ∉ env.snap.hostsNames
  running : ∀ r, o = .next r → Iterative r.st = true → r.cnameChain = [] →
    ¬ Covered env r.qname
  waiting : ∀ r source, o = .await r source → r.cnameChain = [] → ¬ Covered env r.qname

lemma done_screened (env : Env) (r : Resolution) (result : Except String Msg) :
    Screened env (.done r result) :=
  ⟨fun r' is => (by cases is), fun r' is => (by cases is), fun r' s is => (by cases is)⟩

lemma goto_screened {env : Env} (r : Resolution) (st : StateKind)
    (unlisted : st = .forwardLookup → r.qname ∉ env.snap.hostsNames)
    (uncovered : Iterative st = true → r.cnameChain = [] → ¬ Covered env r.qname) :
    Screened env (r.goto st) := by
  rcases r.goto_eq st with ⟨_, next⟩ | ⟨_, limit⟩
  · rw [next]
    refine ⟨?_, ?_, fun r' s is => (by cases is)⟩
    · intro r' is here
      cases is
      exact unlisted here
    · intro r' is here
      cases is
      exact uncovered here
  · rw [limit]
    exact done_screened env r _

theorem start_screened (env : Env) (request : Msg) (depth : Nat) :
    Screened env (.next (start request depth)) := by
  refine ⟨?_, ?_, fun r s is => (by cases is)⟩
  · intro r is here
    cases is
    cases here
  · intro r is here
    cases is
    cases here

theorem visit_screened (env : Env) (o : Outcome) (v : Visit) (screened : Screened env o) :
    Screened env (visit env o v) := by
  have visited := visit_visited env o v
  generalize visit env o v = o', (visitEffects env o v).1 = effects at visited
  cases visited with
  | ended r result => exact screened
  | resumed r source effects o' resumed =>
    cases resumed with
    | accepted | nxdomain =>
      refine goto_screened _ _ (by simp) ?_
      intro _
      exact screened.waiting r source rfl
    | noServer | failed | rejected => exact done_screened env _ _
  | round r effects o' moved =>
    cases moved with
    | hostsMiss here unlisted => exact goto_screened _ _ (fun _ => unlisted) (by simp [Iterative])
    | forwardMiss here outside =>
      -- both lookups missed, so the name has no local rule
      refine goto_screened _ _ (by simp) ?_
      rintro _ _ (listed | ⟨z, mem, encloses⟩)
      · exact screened.unlisted r rfl here listed
      · rw [matchedZone_none_iff.mp outside z mem] at encloses
        cases encloses
    | cname here cname =>
      refine goto_screened _ _ (by simp) ?_
      intro _ empty
      simp [followTo] at empty
    | cacheHit here | cacheNegative here | cacheMiss here | noAnswer here | cnameIdle here
    | glueExist here | glueKept here | glueCleared here | nsCache here =>
      refine goto_screened _ _ (by simp) ?_
      intro _
      exact screened.running r rfl (by simp [here, Iterative])
    | query here =>
      refine ⟨fun r' is => (by cases is), fun r' is => (by cases is), ?_⟩
      intro r' source is
      cases is
      exact screened.running r rfl (by simp [here, Iterative])
    | formerr | forwardEnd | cacheRefused | cnameCycle | cancelled | finish =>
      exact done_screened env _ _
    | init | hostsHit | forwardHit | answer | negative =>
      exact goto_screened _ _ (by simp) (by simp [Iterative])

theorem resolve_screened (env : Env) (request : Msg) (depth : Nat) (visits : List Visit) :
    Screened env (resolve env request depth visits) :=
  StepRuns.run_preserves (visit env) (visit_screened env) (start_screened env request depth) visits

/-- In every run of the system, whatever the configuration, the caches and the servers:
a resolution, nested ones included, is at QUERY_UPSTREAM with a name that is listed in
hosts or enclosed by a forwarding zone only if it has followed a CNAME record whose
target is that name. -/
theorem covered_query_follows_cname (env : Env) (w : World) (events : List Event) :
    ∀ p ∈ (runFrom env w events).procs, ∀ r, AtQuery p.outcome r → Covered env r.qname →
      ∃ cname ∈ r.cnameChain.getLast?, cname.target = r.qname := by
  intro p mem r at_query covered
  obtain ⟨request, depth, visits, run⟩ := procs_are_runs env w events p mem
  have screened := resolve_screened env request depth visits
  have tracks := resolve_tracks env request depth visits
  rw [← run] at screened tracks
  have current : r.qname = r.expected := by
    rcases at_query with ⟨is, _⟩ | ⟨source, is⟩ <;> (rw [is] at tracks; exact tracks.name)
  have hopped : r.cnameChain ≠ [] := by
    intro empty
    rcases at_query with ⟨is, here⟩ | ⟨source, is⟩
    · exact screened.running r is (by simp [here, Iterative]) empty covered
    · exact screened.waiting r source is empty covered
  cases last : r.cnameChain.getLast? with
  | none => exact absurd (List.getLast?_eq_none_iff.mp last) hopped
  | some cname =>
    refine ⟨cname, rfl, ?_⟩
    rw [current, Resolution.expected, last]

section Alias

def listedHost : HostEntry := ⟨"h.", "A", "192.0.2.9", 0⟩

def hostsEnv : Env :=
  ⟨plainLib, configSnapshot plainLib [listedHost]
    (by rintro h (_ | ⟨_, ⟨⟩⟩); exact .inl (by decide)) []⟩

/-- The cache holds `a. CNAME h.`, and hosts lists an address of `h.`. -/
def aliasWorld : World :=
  setCacheCopyByType plainLib (World.initial none 1 0) "a." typeA
    { answer := [⟨"a.", classINET, 60, .cname "h."⟩] } 60

/-- A query for `a.`, followed until it is about to ask the root servers. -/
def aliasEvents : List Event :=
  .query (newQuery 7 "a." typeA) :: List.replicate 8 (.visit 0 .idle)

theorem alias_query_follows_cname :
    ∃ p ∈ (runFrom hostsEnv aliasWorld aliasEvents).procs, ∃ r, AtQuery p.outcome r ∧
      Covered hostsEnv r.qname ∧ ∃ cname ∈ r.cnameChain.getLast?, cname.target = r.qname :=
  ⟨_, List.mem_singleton.mpr rfl, _, .inl ⟨rfl, rfl⟩, .inl (by decide),
    covered_query_follows_cname hostsEnv aliasWorld aliasEvents _ (List.mem_singleton.mpr rfl) _
      (.inl ⟨rfl, rfl⟩) (.inl (by decide))⟩

/-- The listed name itself is then asked of the root servers. -/
theorem alias_target_is_queried :
    ∃ p ∈ (runFrom hostsEnv aliasWorld aliasEvents).procs, ∃ r, AtQuery p.outcome r ∧
      r.qname = "h." ∧ "h." ∈ hostsEnv.snap.hostsNames :=
  ⟨_, List.mem_singleton.mpr rfl, _, .inl ⟨rfl, rfl⟩, rfl, by decide⟩

end Alias

end LocalRules
