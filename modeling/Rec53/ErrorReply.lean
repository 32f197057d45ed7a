import Rec53.QueryEntry
import Rec53.ServeDns

/-!
# What an error reply carries

An error reply is built on the response object that the rounds of the resolution
have filled. Whether records are left in it depends on the round that failed:
QUERY_UPSTREAM is only entered with a delegation in the authority section, and most
other rounds that can be the last one leave records behind as well.
-/

namespace ErrorReply

open DnsMessage Platform DnsCache StateHandlers UpstreamQuery StateMachine QueryEntry
  ServeDns

/-- The first three states belong to the first three rounds. -/
def Early (o : Outcome) : Prop :=
  ∀ r, o = .next r → r.st = .stateInit ∨ r.st = .hostsLookup ∨ r.st = .forwardLookup →
    r.iterations ≤ r.st.number + 1

/-- A move is to a later state, or from one of the first two to the next. -/
lemma goto_early (r : Resolution) (st : StateKind)
    (placed : (st ≠ .stateInit ∧ st ≠ .hostsLookup ∧ st ≠ .forwardLookup) ∨
      (r.iterations ≤ r.st.number + 1 ∧ r.st.number + 1 = st.number)) : Early (r.goto st) := by
  intro r' is early
  rcases r.goto_eq st with ⟨_, next⟩ | ⟨_, limit⟩
  · rw [next] at is
    cases is
    rcases placed with ⟨not_init, not_hosts, not_forward⟩ | ⟨counted, follows⟩
    · rcases early with h | h | h
      · exact absurd h not_init
      · exact absurd h not_hosts
      · exact absurd h not_forward
    · change r.iterations + 1 ≤ st.number + 1
      omega
  · rw [limit] at is
    cases is

theorem visit_early (env : Env) (o : Outcome) (v : Visit) (early : Early o) :
    Early (visit env o v) := by
  have visited := visit_visited env o v
  generalize visit env o v = o', (visitEffects env o v).1 = effects at visited
  cases visited with
  | ended r result => exact early
  | resumed r source effects o' resumed =>
    cases resumed with
    | accepted | nxdomain => exact goto_early _ _ (.inl (by decide))
    | noServer | failed | rejected => intro r' is; cases is
  | round r effects o' moved =>
    cases moved with
    | init here =>
      exact goto_early _ _ (.inr ⟨early r rfl (.inl here), by simp [here, StateKind.number]⟩)
    | hostsMiss here =>
      exact goto_early _ _
        (.inr ⟨early r rfl (.inr (.inl here)), by simp [here, StateKind.number]⟩)
    | formerr | forwardEnd | cacheRefused | cnameCycle | cancelled | query | finish =>
      intro r' is
      cases is
    | _ => exact goto_early _ _ (.inl (by decide))

/-- What an unfinished resolution satisfies, whatever the visits have read. -/
structure Stocked (env : Env) (o : Outcome) : Prop where
  early : Early o
  guarded : Guarded env (fun _ _ => True) o

theorem resolve_stocked (env : Env) (request : Msg) (depth : Nat) (visits : List Visit) :
    Stocked env (resolve env request depth visits) := by
  refine StepRuns.run_preserves (visit env) ?_ ⟨?_, start_guarded env _ request depth⟩ visits
  · rintro o v ⟨early, guarded⟩
    exact ⟨visit_early env o v early, visit_guarded env _ o v (fun _ _ _ => trivial) guarded⟩
  · intro r is _
    cases is
    exact Nat.le_refl 1

/-! ### The round that failed -/

/-- A usable delegation heads the authority section. -/
def Delegates (env : Env) (r : Resolution) : Prop :=
  ∃ rr rest, r.response.ns = rr :: rest ∧ rr.isNS = true ∧
    env.lib.isSubDomain rr.name r.qname = true

/-- The state before the failing visit, and what it meets, leave no record behind. A
visit to CACHE_LOOKUP, CLASSIFY_RESP or EXTRACT_GLUE fails at the iteration limit
or on a CNAME cycle; QUERY_UPSTREAM keeps the old answers and, unless the last message
is accepted, the old additional records. -/
def FailsBare (env : Env) (o : Outcome) (v : Visit) : Prop :=
  match o with
  | .next r =>
    match r.st with
    | .cacheLookup =>
      r.response.Bare ∧ ∀ cached, getCacheCopyByType v.world r.qname r.qtype = some cached →
        cached.answer = [] ∧ hasSOAInAuthority cached = false
    | .classifyResp =>
      match r.hop with
      | some cname => isNSRelevantForCNAME env.lib r.response.ns cname.target = false
      | none => r.response.Bare
    | .extractGlue =>
      r.response.answer = [] ∧ (r.response.ns = [] → r.response.extra = []) ∧ ¬ Delegates env r
    | _ => False
  | .await r source =>
    let received := receivedMsgs (resume env v.input r source).1
    ∃ m, received.getLast? = some m ∧ r.response.answer = [] ∧ m.ns = [] ∧
      if m.rcode = rcodeSuccess ∧ Echoes r.qname m then m.answer = [] ∧ m.extra = []
      else r.response.extra = [] ∧ (m.rcode ≠ rcodeSuccess ∨ received ≠ [m])
  | .done _ _ => False

lemma bare_of_ns {m : Msg} (left : m.ns ≠ []) : ¬ m.Bare := fun bare => left bare.2.1

lemma bare_of_delegation {env : Env} {Known : String → Msg → Prop} {r : Resolution}
    (delegation : Delegation env Known r) : ¬ r.response.Bare := by
  obtain ⟨rr, rest, first, _⟩ := delegation
  exact bare_of_ns (by simp [first])

lemma mergePositive_not_bare {cached : Msg} (positive : cached.answer ≠ []) (response : Msg) :
    ¬ (mergePositive response cached).Bare := by
  rintro ⟨empty, _⟩
  exact positive (List.append_eq_nil_iff.mp empty).2

lemma mergeNegative_not_bare {cached : Msg} (soa : hasSOAInAuthority cached = true)
    (response : Msg) : ¬ (mergeNegative response cached).Bare := by
  rintro ⟨_, no_ns, _⟩
  rw [hasSOAInAuthority, (List.append_eq_nil_iff.mp no_ns).2] at soa
  cases soa

/-- A followed CNAME record empties the response unless the delegation stays. -/
lemma followTo_bare_iff (lib : Lib) (r : Resolution) (cname : RR) :
    (followTo lib r cname).response.Bare ↔
      isNSRelevantForCNAME lib r.response.ns cname.target = false := by
  by_cases relevant : isNSRelevantForCNAME lib r.response.ns cname.target = true
  · have left : r.response.ns ≠ [] := by
      intro empty
      rw [empty] at relevant
      cases relevant
    simp [followTo, relevant, Msg.Bare, left]
  · simp [followTo, relevant, Msg.Bare]

lemma classify_fails_iff {env : Env} {v : Visit} {r r' : Resolution} {err : String}
    (here : r.st = .classifyResp) (fails : visit env (.next r) v = .done r' (.error err)) :
    r'.response.Bare ↔ FailsBare env (.next r) v := by
  simp only [FailsBare, here]
  cases hop : r.hop with
  | some cname =>
    rw [(visit_of_hop env v hop).2.2] at fails
    rw [(goto_eq_error fails).1]
    exact followTo_bare_iff env.lib r cname
  | none =>
    obtain ⟨effects, o', listed, target⟩ := moved_of_visit fails
    cases listed with
    | cname _ cname classified first named fresh =>
      rw [hop_of_cname here classified first named fresh] at hop
      cases hop
    | answer | negative | cnameIdle | noAnswer => rw [(goto_eq_error target).1]
    | cnameCycle => cases target; rfl
    | formerr | forwardEnd | cacheRefused | query | finish => cases target
    | init elsewhere | hostsHit elsewhere | hostsMiss elsewhere | forwardHit elsewhere
    | forwardMiss elsewhere | cacheHit elsewhere | cacheNegative elsewhere | cacheMiss elsewhere
    | glueExist elsewhere | glueKept elsewhere | glueCleared elsewhere | nsCache elsewhere
    | cancelled elsewhere =>
      rw [elsewhere] at here
      cases here

/-- The first three rounds are far from the limit. -/
lemma early_below_limit {env : Env} {r : Resolution} (stocked : Stocked env (.next r))
    (st : r.st = .stateInit ∨ r.st = .hostsLookup ∨ r.st = .forwardLookup) :
    r.iterations < maxIterations := by
  have counted := stocked.early r rfl st
  have small : r.st.number ≤ 2 := by
    rcases st with h | h | h <;> simp [h, StateKind.number]
  simp only [maxIterations]
  omega

/-- The rounds before QUERY_UPSTREAM waits: each of them leaves what it found, adds
records, or clears the delegation. -/
lemma round_fails_iff {env : Env} {v : Visit} {r r' : Resolution} {err : String}
    (stocked : Stocked env (.next r)) (fails : visit env (.next r) v = .done r' (.error err)) :
    r'.response.Bare ↔ FailsBare env (.next r) v := by
  by_cases here : r.st = .classifyResp
  · exact classify_fails_iff here fails
  obtain ⟨effects, o', listed, target⟩ := moved_of_visit fails
  have early (st : r.st = .stateInit ∨ r.st = .hostsLookup ∨ r.st = .forwardLookup)
      (reached : maxIterations ≤ r.iterations) : False :=
    Nat.not_le.mpr (early_below_limit stocked st) reached
  cases listed with
  | formerr | forwardEnd | cacheRefused | query | finish => cases target
  | init at_init => exact (early (.inl at_init) (goto_eq_error target).2).elim
  | hostsHit at_hosts | hostsMiss at_hosts =>
    exact (early (.inr (.inl at_hosts)) (goto_eq_error target).2).elim
  | forwardHit at_fwd | forwardMiss at_fwd =>
    exact (early (.inr (.inr at_fwd)) (goto_eq_error target).2).elim
  | cacheHit at_cache cached found positive =>
    rw [(goto_eq_error target).1]
    simp only [FailsBare, at_cache]
    refine iff_of_false (mergePositive_not_bare positive r.response) ?_
    rintro ⟨_, missed⟩
    exact positive (missed cached found).1
  | cacheNegative at_cache cached found empty soa =>
    rw [(goto_eq_error target).1]
    simp only [FailsBare, at_cache]
    refine iff_of_false (mergeNegative_not_bare soa r.response) ?_
    rintro ⟨_, missed⟩
    rw [(missed cached found).2] at soa
    cases soa
  | cacheMiss at_cache missed =>
    rw [(goto_eq_error target).1]
    simp only [FailsBare, at_cache]
    exact ⟨fun bare => ⟨bare, missed⟩, fun both => both.1⟩
  | glueExist at_glue rr rest first delegation encloses =>
    rw [(goto_eq_error target).1]
    simp only [FailsBare, at_glue]
    refine iff_of_false (bare_of_ns (by simp [first])) ?_
    rintro ⟨_, _, undelegated⟩
    exact undelegated ⟨rr, rest, first, delegation, encloses⟩
  | glueKept at_glue none_left =>
    rw [(goto_eq_error target).1]
    have undelegated : ¬ Delegates env r := by
      rintro ⟨rr, rest, first, _⟩
      rw [none_left] at first
      cases first
    simp [FailsBare, at_glue, Msg.Bare, none_left, undelegated]
  | glueCleared at_glue some_left unusable =>
    rw [(goto_eq_error target).1]
    have undelegated : ¬ Delegates env r := by
      rintro ⟨rr, rest, first, usable⟩
      exact unusable rr rest first usable
    simp [FailsBare, at_glue, Msg.Bare, some_left, undelegated]
  | nsCache at_ns =>
    rw [(goto_eq_error target).1]
    simp only [FailsBare, at_ns, iff_false]
    exact bare_of_delegation (r := { r with response := _ })
      (lookupNSCache_delegation env (fun _ _ => True) (fun _ _ _ => trivial)
        (stocked.guarded.searching r rfl at_ns) rfl rfl)
  | cancelled at_query =>
    cases target
    simp only [FailsBare, at_query, iff_false]
    exact bare_of_delegation (stocked.guarded.asking r rfl at_query)
  | answer elsewhere | negative elsewhere | cname elsewhere | cnameIdle elsewhere
  | cnameCycle elsewhere | noAnswer elsewhere => exact absurd elsewhere here

/-- QUERY_UPSTREAM: the delegation it was entered with is only replaced by the
authority section of a message. -/
lemma resumed_fails_iff {env : Env} {v : Visit} {r r' : Resolution} {source : IPSource}
    {err : String} (stocked : Stocked env (.await r source))
    (fails : visit env (.await r source) v = .done r' (.error err)) :
    r'.response.Bare ↔ FailsBare env (.await r source) v := by
  obtain ⟨effects, o', listed, target, performed⟩ := resumed_of_visit fails
  simp only [FailsBare, performed]
  cases listed with
  | accepted earlier m addr before bad success echoes readOnly received sent =>
    rw [(goto_eq_error target).1, receivedMsgs_append, received, cacheEffects_receivedMsgs]
    have last : (earlier ++ [m] ++ []).getLast? = some m := by simp
    rw [last]
    simp only [Option.some.injEq, exists_eq_left', if_pos (And.intro success echoes)]
    have merged_answer : (mergeAccepted (if earlier = [] then r.response
        else mergeRcode r.response m) m).answer = r.response.answer ++ m.answer := by
      split <;> rfl
    constructor
    · rintro ⟨answers, no_ns, no_extra⟩
      obtain ⟨old, new⟩ := List.append_eq_nil_iff.mp (merged_answer ▸ answers)
      exact ⟨old, no_ns, new, no_extra⟩
    · rintro ⟨old, no_ns, new, no_extra⟩
      exact ⟨by rw [merged_answer, old, new]; rfl, no_ns, no_extra⟩
  | nxdomain earlier m effects nameError readOnly received =>
    have failure : m.rcode ≠ rcodeSuccess := by rw [nameError]; decide
    rw [(goto_eq_error target).1, received]
    simp [Msg.Bare, mergeRcode, failure]
  | noServer => cases target
  | failed err' effects readOnly received =>
    cases target
    have left : ¬ r.response.Bare :=
      bare_of_delegation (stocked.guarded.waiting r source rfl)
    rcases received with none_came | ⟨m, one_came, success, mute⟩
    · simp [none_came, left]
    · simp [one_came, left, success, mute]
  | rejected earlier m err' effects readOnly received refused =>
    cases target
    have unaccepted : ¬ (m.rcode = rcodeSuccess ∧ Echoes r.qname m) := by
      rintro ⟨success, echoes⟩
      rcases refused with failure | ⟨_, mute⟩
      · exact failure success
      · exact mute echoes
    have told : m.rcode ≠ rcodeSuccess ∨ earlier ++ [m] ≠ [m] := by
      rcases refused with failure | ⟨preceded, _⟩
      · exact .inl failure
      · exact .inr (by simpa using preceded)
    rw [received]
    simp only [List.getLast?_append, List.getLast?_singleton, Option.some_or, Option.some.injEq,
      exists_eq_left', if_neg unaccepted, told, and_true, Msg.Bare, mergeRcode]

/-- For every request with a question and every run of the state machine that ends in
an error, from any state and at any iteration: the SERVFAIL message written for it has
no record in any section if and only if the failing visit and the state before it leave
none behind, or the reply exceeds the client's UDP size and is cut down to nothing. -/
theorem error_reply_bare_iff (env : Env) (udp : Bool) (request : Msg) (visits : List Visit)
    (v : Visit) (r : Resolution) (err : String) (asked : request.question ≠ [])
    (running : ∀ r' result, resolve env request 0 visits ≠ .done r' result)
    (fails : resolve env request 0 (visits ++ [v]) = .done r (.error err)) :
    (serveDNS env.lib udp request r (.error err)).Bare ↔
      FailsBare env (resolve env request 0 visits) v ∨
        (udp = true ∧ CutToNothing env.lib (getMaxUDPSize request)
          (restoreQuestion request.q0 (r.response.setRcode r.request rcodeServerFailure))) := by
  rw [serveDNS_error_bare_iff env.lib udp r err asked]
  have stocked := resolve_stocked env request 0 visits
  rw [resolve_snoc] at fails
  have left_iff : r.response.Bare ↔ FailsBare env (resolve env request 0 visits) v := by
    cases before : resolve env request 0 visits with
    | next r' =>
      rw [before] at stocked fails
      exact round_fails_iff stocked fails
    | await r' source =>
      rw [before] at stocked fails
      exact resumed_fails_iff stocked fails
    | done r' result => exact absurd before (running r' result)
  rw [left_iff]

theorem timeout_reply_iff :
    ∃ r err, resolve plainEnv (newQuery 7 "a." typeA) 0
        (List.replicate 7 idleVisit ++ [idleVisit]) = .done r (.error err) ∧
      ((serveDNS plainLib false (newQuery 7 "a." typeA) r (.error err)).Bare ↔
        FailsBare plainEnv (resolve plainEnv (newQuery 7 "a." typeA) 0
            (List.replicate 7 idleVisit)) idleVisit ∨
          (false = true ∧ CutToNothing plainLib 512 (restoreQuestion ⟨"a.", typeA, classINET⟩
            (r.response.setRcode r.request rcodeServerFailure)))) :=
  ⟨_, _, rfl, error_reply_bare_iff plainEnv false (newQuery 7 "a." typeA)
    (List.replicate 7 idleVisit) idleVisit _ _ (by decide)
    (fun _ _ => Outcome.noConfusion) rfl⟩

/-- Every server times out: the reply lists the root servers with their addresses. -/
theorem timeout_reply_lists_root :
    ∃ r err, resolve plainEnv (newQuery 7 "a." typeA) 0 (List.replicate 8 idleVisit) =
        .done r (.error err) ∧
      (serveDNS plainLib false (newQuery 7 "a." typeA) r (.error err)).rcode =
        rcodeServerFailure ∧
      (serveDNS plainLib false (newQuery 7 "a." typeA) r (.error err)).ns = rootGlue.1 ∧
      (serveDNS plainLib false (newQuery 7 "a." typeA) r (.error err)).extra = rootGlue.2 ∧
      ¬ (serveDNS plainLib false (newQuery 7 "a." typeA) r (.error err)).Bare := by
  refine ⟨_, _, rfl, rfl, rfl, rfl, ?_⟩
  exact bare_of_ns (by decide)

end ErrorReply
