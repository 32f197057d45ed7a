import Rec53.StepRuns
import Rec53.UpstreamQuery

/-!
# The state machine of one resolution

The loop of `Change` in `server/state_machine.go`. `iterate` is one round of it,
`Moved` lists every transition a round can make, and a resolution is a run of
`visit`, each with the shared state and the outside decisions it meets. Nothing is
assumed about how the shared state changes between two visits, so what holds of
every run here holds under any interleaving with other resolutions.

A visit to QUERY_UPSTREAM has two halves, since other resolutions run while it
waits for nested resolutions and for the upstream server.
-/

namespace StateMachine

open DnsMessage Platform DnsCache LocalConfig StateHandlers UpstreamQuery

inductive StateKind where
  | stateInit
  | hostsLookup
  | forwardLookup
  | cacheLookup
  | classifyResp
  | extractGlue
  | lookupNSCache
  | queryUpstream
  | returnResp
  deriving DecidableEq

def StateKind.number : StateKind → Nat
  | .stateInit => 0
  | .hostsLookup => 1
  | .forwardLookup => 2
  | .cacheLookup => 3
  | .classifyResp => 4
  | .extractGlue => 5
  | .lookupNSCache => 6
  | .queryUpstream => 7
  | .returnResp => 8

def maxIterations : Nat := 50

/-- The current state with the local variables of `Change`; `iterations` is the
number of the round about to run, `depth` the NS-resolution depth of the context. -/
structure Resolution where
  st : StateKind
  request : Msg
  response : Msg
  visitedDomains : List String
  originalQuestion : Question
  cnameChain : List RR
  iterations : Nat
  depth : Nat

def Resolution.qname (r : Resolution) : String := r.request.q0.name
def Resolution.qtype (r : Resolution) : Nat := r.request.q0.qtype

def start (request : Msg) (depth : Nat) : Resolution :=
  ⟨.stateInit, request, {}, [], request.q0, [], 1, depth⟩

/-- What a round ends in; `await` is the wait inside QUERY_UPSTREAM. The resolution
in `done` holds the response object as the caller finds it. -/
inductive Outcome where
  | next (r : Resolution)
  | await (r : Resolution) (source : IPSource)
  | done (r : Resolution) (result : Except String Msg)

def maxIterationsError : String := "max iterations exceeded, possible CNAME loop"

def Resolution.goto (r : Resolution) (st : StateKind) : Outcome :=
  if r.iterations < maxIterations then
    .next { r with st := st, iterations := r.iterations + 1 }
  else .done r (.error maxIterationsError)

def Outcome.resolution : Outcome → Resolution
  | .next r => r
  | .await r _ => r
  | .done r _ => r

/-- A move starts the next round, or ends the resolution at the limit. -/
theorem Resolution.goto_eq (r : Resolution) (st : StateKind) :
    (r.iterations < maxIterations ∧
        r.goto st = .next { r with st := st, iterations := r.iterations + 1 }) ∨
      (maxIterations ≤ r.iterations ∧ r.goto st = .done r (.error maxIterationsError)) := by
  rw [Resolution.goto]
  by_cases more : r.iterations < maxIterations
  · exact .inl ⟨more, if_pos more⟩
  · exact .inr ⟨Nat.le_of_not_lt more, if_neg more⟩

lemma goto_eq_next {r r' : Resolution} {st : StateKind} (moved : r.goto st = .next r') :
    r' = { r with st := st, iterations := r.iterations + 1 } := by
  rcases r.goto_eq st with ⟨_, next⟩ | ⟨_, limit⟩
  · rw [next] at moved
    cases moved
    rfl
  · rw [limit] at moved
    cases moved

lemma goto_eq_error {r r' : Resolution} {st : StateKind} {err : String}
    (failed : r.goto st = .done r' (.error err)) : r' = r ∧ maxIterations ≤ r.iterations := by
  rcases r.goto_eq st with ⟨_, next⟩ | ⟨reached, limit⟩
  · rw [next] at failed
    cases failed
  · rw [limit] at failed
    cases failed
    exact ⟨rfl, reached⟩

/-- The wrapping of errors by `handleState`. -/
def Resolution.handleError (r : Resolution) (err : String) : Outcome :=
  .done r (.error ("handle state error " ++ toString r.st.number ++ " " ++ err))

/-- A new message with header and question of a reply and the given Rcode. -/
def freshRcode (request : Msg) (rcode : Nat) : Msg := ({} : Msg).setRcode request rcode

/-! ### CNAME following -/

def isNSRelevantForCNAME (lib : Lib) (nsRecords : List RR) (cnameTarget : String) : Bool :=
  match nsRecords with
  | [] => false
  | rr :: _ => lib.isSubDomain rr.name cnameTarget

/-- Assignment to `Question[0].Name`. -/
def renameQuestion (m : Msg) (name : String) : Msg :=
  match m.question with
  | [] => m
  | q :: qs => { m with question := { q with name := name } :: qs }

def followTo (lib : Lib) (r : Resolution) (cname : RR) : Resolution :=
  { r with
    visitedDomains := cname.target :: r.visitedDomains
    cnameChain := r.cnameChain ++ [cname]
    request := renameQuestion r.request cname.target
    response :=
      if isNSRelevantForCNAME lib r.response.ns cname.target then { r.response with answer := [] }
      else { r.response with answer := [], ns := [], extra := [] } }

def followCNAME (lib : Lib) (r : Resolution) : Except String Resolution :=
  match r.response.answer.find? RR.isCNAME with
  | none => .ok r
  | some cname =>
    if cname.target = "" then .ok r
    else if cname.target ∈ r.visitedDomains then
      .error ("CNAME cycle detected: " ++ cname.target)
    else .ok (followTo lib r cname)

def buildFinalResponse (r : Resolution) : Msg :=
  { r.response with
    question := r.originalQuestion :: r.response.question.tail
    answer := r.cnameChain ++ r.response.answer }

/-! ### One round -/

def initRound (r : Resolution) : List Effect × Outcome :=
  match stateInitHandle r.request r.response with
  | (.formerr, response) => ([], .done { r with response := response } (.ok response))
  | (.noError, response) => ([], { r with response := response }.goto .hostsLookup)

def hostsRound (env : Env) (r : Resolution) : List Effect × Outcome :=
  match hostsLookupHandle env.snap r.request r.response with
  | (.hit, response) => ([], { r with response := response }.goto .returnResp)
  | (.miss, response) => ([], { r with response := response }.goto .forwardLookup)

def forwardRound (env : Env) (inp : Input) (r : Resolution) : List Effect × Outcome :=
  match forwardLookupHandle env inp r.request r.response with
  | (.hit, response, effects) => (effects, { r with response := response }.goto .returnResp)
  | (.miss, response, effects) => (effects, { r with response := response }.goto .cacheLookup)
  | (.servfail, response, effects) =>
    (effects, .done { r with response := response }
      (.ok (freshRcode r.request rcodeServerFailure)))
  | (.refused, response, effects) =>
    (effects, .done { r with response := response } (.ok (freshRcode r.request rcodeRefused)))

def cacheRound (w : World) (inp : Input) (r : Resolution) : List Effect × Outcome :=
  match cacheLookupHandle w r.request r.response with
  | (.hit, response) => ([], { r with response := response }.goto .classifyResp)
  | (.miss, response) =>
    if inp.admitted then ([], { r with response := response }.goto .extractGlue)
    else ([], .done { r with response := response } (.ok (freshRcode r.request rcodeRefused)))

def classifyRound (env : Env) (r : Resolution) : List Effect × Outcome :=
  match classifyRespHandle r.request r.response with
  | (.getAns, effects) => (effects, r.goto .returnResp)
  | (.getNegative, effects) => (effects, r.goto .returnResp)
  | (.getCname, effects) =>
    match followCNAME env.lib r with
    | .error err => (effects, .done r (.error err))
    | .ok followed => (effects, followed.goto .cacheLookup)
  | (.getNs, effects) => (effects, r.goto .extractGlue)

def glueRound (env : Env) (r : Resolution) : List Effect × Outcome :=
  match extractGlueHandle env.lib r.request r.response with
  | (.exist, response) => ([], { r with response := response }.goto .queryUpstream)
  | (.notExist, response) => ([], { r with response := response }.goto .lookupNSCache)

def nsCacheRound (w : World) (r : Resolution) : List Effect × Outcome :=
  ([], { r with response := lookupNSCacheHandle w r.request r.response }.goto .queryUpstream)

/-- The first half of QUERY_UPSTREAM: the context and the addresses. -/
def queryRound (w : World) (inp : Input) (r : Resolution) : List Effect × Outcome :=
  match inp.ctxErr with
  | some err => ([], r.handleError err)
  | none => ([], .await r (collectIPs w r.depth r.response))

def iterate (env : Env) (w : World) (inp : Input) (r : Resolution) : List Effect × Outcome :=
  match r.st with
  | .stateInit => initRound r
  | .hostsLookup => hostsRound env r
  | .forwardLookup => forwardRound env inp r
  | .cacheLookup => cacheRound w inp r
  | .classifyResp => classifyRound env r
  | .extractGlue => glueRound env r
  | .lookupNSCache => nsCacheRound w r
  | .queryUpstream => queryRound w inp r
  | .returnResp => ([], .done r (.ok (buildFinalResponse r)))

/-- The second half of QUERY_UPSTREAM. -/
def resume (env : Env) (inp : Input) (r : Resolution) (source : IPSource) :
    List Effect × Outcome :=
  let ipList := match source with
    | .ips ipList => ipList
    | .resolve _ => inp.nsIPs
  let out := queryUpstreamWith env inp r.request r.response ipList
  let r' := { r with response := out.response }
  match out.ret with
  | .noError => (out.effects, r'.goto .classifyResp)
  | .servfail => (out.effects, .done r' (.ok (freshRcode r.request rcodeServerFailure)))
  | .error err => (out.effects, r'.handleError err)

/-- What the second half does is the query to the addresses it has. -/
lemma resume_effects (env : Env) (inp : Input) (r : Resolution) (source : IPSource) :
    ∃ ipList, (source = .ips ipList ∨ ipList = inp.nsIPs ∧ ∃ nsNames, source = .resolve nsNames) ∧
      (resume env inp r source).1 =
        (queryUpstreamWith env inp r.request r.response ipList).effects := by
  cases source with
  | ips ipList =>
    refine ⟨ipList, .inl rfl, ?_⟩
    simp only [resume]
    split
    · rfl
    · rfl
    · rfl
  | resolve nsNames =>
    refine ⟨inp.nsIPs, .inr ⟨rfl, nsNames, rfl⟩, ?_⟩
    simp only [resume]
    split
    · rfl
    · rfl
    · rfl

/-! ### Every transition of a round -/

/-- The transitions of one round with their guards. Round and handler definitions
are opened once, for `iterate_moved`. -/
inductive Moved (env : Env) (w : World) (inp : Input) (r : Resolution) :
    List Effect → Outcome → Prop where
  | formerr (here : r.st = .stateInit) :
      Moved env w inp r []
        (.done { r with response := r.response.setRcode r.request rcodeFormatError }
          (.ok (r.response.setRcode r.request rcodeFormatError)))
  | init (here : r.st = .stateInit) (single : r.request.question.length = 1) :
      Moved env w inp r []
        ({ r with response := r.response.setReply r.request }.goto .hostsLookup)
  | hostsHit (here : r.st = .hostsLookup) (answer : List RR) :
      Moved env w inp r []
        ({ r with response := { r.response with
            answer := r.response.answer ++ answer, authoritative := true,
            rcode := rcodeSuccess } }.goto .returnResp)
  | hostsMiss (here : r.st = .hostsLookup) (unlisted : r.qname ∉ env.snap.hostsNames) :
      Moved env w inp r [] (r.goto .forwardLookup)
  | forwardHit (here : r.st = .forwardLookup) (resp : Msg) (effects : List Effect)
      (readOnly : ReadOnly effects) :
      Moved env w inp r effects
        ({ r with response := copyForwarded r.request r.response resp }.goto .returnResp)
  | forwardMiss (here : r.st = .forwardLookup) (outside : matchedZone env r.qname = none) :
      Moved env w inp r [] (r.goto .cacheLookup)
  | forwardEnd (here : r.st = .forwardLookup) (rcode : Nat) (effects : List Effect)
      (readOnly : ReadOnly effects) :
      Moved env w inp r effects (.done r (.ok (freshRcode r.request rcode)))
  | cacheHit (here : r.st = .cacheLookup) (cached : Msg)
      (found : getCacheCopyByType w r.qname r.qtype = some cached)
      (positive : cached.answer ≠ []) :
      Moved env w inp r []
        ({ r with response := mergePositive r.response cached }.goto .classifyResp)
  | cacheNegative (here : r.st = .cacheLookup) (cached : Msg)
      (found : getCacheCopyByType w r.qname r.qtype = some cached)
      (empty : cached.answer = []) (soa : hasSOAInAuthority cached = true) :
      Moved env w inp r []
        ({ r with response := mergeNegative r.response cached }.goto .classifyResp)
  | cacheMiss (here : r.st = .cacheLookup)
      (missed : ∀ cached, getCacheCopyByType w r.qname r.qtype = some cached →
        cached.answer = [] ∧ hasSOAInAuthority cached = false) :
      Moved env w inp r [] (r.goto .extractGlue)
  | cacheRefused (here : r.st = .cacheLookup) :
      Moved env w inp r [] (.done r (.ok (freshRcode r.request rcodeRefused)))
  | answer (here : r.st = .classifyResp)
      (wanted : (r.response.answer.any fun rr => rr.rrtype == r.qtype) = true) :
      Moved env w inp r [] (r.goto .returnResp)
  | negative (here : r.st = .classifyResp) (negative : isNegative r.response = true)
      (ttl : Nat) (soa : extractSOAFromAuthority r.response.ns = some ttl) :
      Moved env w inp r [.setByType r.qname r.qtype r.response ttl] (r.goto .returnResp)
  | cname (here : r.st = .classifyResp) (cname : RR)
      (classified : classifyRespHandle r.request r.response = (.getCname, []))
      (first : r.response.answer.find? RR.isCNAME = some cname) (named : cname.target ≠ "")
      (fresh : cname.target ∉ r.visitedDomains) :
      Moved env w inp r [] ((followTo env.lib r cname).goto .cacheLookup)
  | cnameIdle (here : r.st = .classifyResp) (cname : RR)
      (first : r.response.answer.find? RR.isCNAME = some cname) (unnamed : cname.target = "") :
      Moved env w inp r [] (r.goto .cacheLookup)
  | cnameCycle (here : r.st = .classifyResp) (cname : RR)
      (first : r.response.answer.find? RR.isCNAME = some cname)
      (seen : cname.target ∈ r.visitedDomains) :
      Moved env w inp r [] (.done r (.error ("CNAME cycle detected: " ++ cname.target)))
  | noAnswer (here : r.st = .classifyResp) (pending : isNegative r.response = false) :
      Moved env w inp r [] (r.goto .extractGlue)
  | glueExist (here : r.st = .extractGlue) (rr : RR) (rest : List RR)
      (first : r.response.ns = rr :: rest) (delegation : rr.isNS = true)
      (encloses : env.lib.isSubDomain rr.name r.qname = true) :
      Moved env w inp r [] (r.goto .queryUpstream)
  | glueKept (here : r.st = .extractGlue) (none_left : r.response.ns = []) :
      Moved env w inp r [] (r.goto .lookupNSCache)
  | glueCleared (here : r.st = .extractGlue) (some_left : r.response.ns ≠ [])
      (unusable : ∀ rr rest, r.response.ns = rr :: rest →
        ¬ (rr.isNS = true ∧ env.lib.isSubDomain rr.name r.qname = true)) :
      Moved env w inp r []
        ({ r with response := { r.response with ns := [], extra := [] } }.goto .lookupNSCache)
  | nsCache (here : r.st = .lookupNSCache) :
      Moved env w inp r []
        ({ r with response := lookupNSCacheHandle w r.request r.response }.goto .queryUpstream)
  | cancelled (here : r.st = .queryUpstream) (err : String) :
      Moved env w inp r [] (r.handleError err)
  | query (here : r.st = .queryUpstream) :
      Moved env w inp r [] (.await r (collectIPs w r.depth r.response))
  | finish (here : r.st = .returnResp) :
      Moved env w inp r [] (.done r (.ok (buildFinalResponse r)))

lemma tryUpstreams_spec (inp : Input) (request response : Msg) (i : Nat) (ups : List String) :
    ReadOnly (tryUpstreams inp request response i ups).2.2 ∧
      ((∃ resp, (tryUpstreams inp request response i ups).1 = .hit ∧
          (tryUpstreams inp request response i ups).2.1 = copyForwarded request response resp) ∨
        ((tryUpstreams inp request response i ups).1 = .servfail ∧
          (tryUpstreams inp request response i ups).2.1 = response)) := by
  induction ups generalizing i with
  | nil => exact ⟨by simp [tryUpstreams, ReadOnly], .inr ⟨rfl, rfl⟩⟩
  | cons upstream rest ih =>
    obtain ⟨quiet, ends⟩ := ih (i + 1)
    simp only [tryUpstreams]
    split
    · exact ⟨by simp [ReadOnly], .inr ⟨rfl, rfl⟩⟩
    cases (inp.forward i).2 with
    | error e =>
      refine ⟨?_, ends⟩
      intro e' he'
      rcases List.mem_cons.mp he' with rfl | h
      · rfl
      · exact quiet e' h
    | ok resp => exact ⟨by simp [ReadOnly, Effect.writes], .inl ⟨resp, rfl, rfl⟩⟩

lemma extractSOAFromAuthority_isSome {ns : List RR} (soa : ns.any RR.isSOA = true) :
    ∃ ttl, extractSOAFromAuthority ns = some ttl := by
  induction ns with
  | nil => cases soa
  | cons rr rest ih =>
    rw [extractSOAFromAuthority]
    split
    · exact ⟨_, rfl⟩
    · rename_i other
      apply ih
      have first : rr.isSOA = false := by
        rw [RR.isSOA]
        split
        · rename_i minttl is
          exact absurd is (other minttl)
        · rfl
      simpa [first] using soa

lemma matchedZone_none_iff {env : Env} {qname : String} :
    matchedZone env qname = none ↔
      ∀ z ∈ env.snap.forwardZones, env.lib.isSubDomain z.zone qname = false := by
  simp [matchedZone]

lemma hostsLookupHandle_spec (snap : HostsForwardSnapshot) (request response : Msg) :
    (∃ answer, hostsLookupHandle snap request response = (.hit, { response with
        answer := response.answer ++ answer, authoritative := true, rcode := rcodeSuccess })) ∨
      (hostsLookupHandle snap request response = (.miss, response) ∧
        request.q0.name ∉ snap.hostsNames) := by
  rw [hostsLookupHandle]
  by_cases none_compiled : snap.hostsMap.keys = []
  · right
    rw [if_pos none_compiled, snap.named none_compiled]
    exact ⟨rfl, List.not_mem_nil⟩
  rw [if_neg none_compiled]
  cases snap.hostsMap.lookup (getCacheKey request.q0.name request.q0.qtype) with
  | some cached => exact .inl ⟨cached.answer, rfl⟩
  | none =>
    by_cases listed : request.q0.name ∈ snap.hostsNames
    · exact .inl ⟨[], by simp [listed]⟩
    · exact .inr ⟨by simp [listed], listed⟩

lemma initRound_moved (env : Env) (w : World) (inp : Input) (r : Resolution)
    (here : r.st = .stateInit) : Moved env w inp r (initRound r).1 (initRound r).2 := by
  by_cases bad : r.request.question.length ≠ 1 ∨ r.request.response = true ∨
      r.request.opcode ≠ opcodeQuery
  · simp only [initRound, stateInitHandle, if_pos bad]
    exact .formerr here
  · simp only [initRound, stateInitHandle, if_neg bad]
    exact .init here (by_contra fun h => bad (.inl h))

lemma hostsRound_moved (env : Env) (w : World) (inp : Input) (r : Resolution)
    (here : r.st = .hostsLookup) :
    Moved env w inp r (hostsRound env r).1 (hostsRound env r).2 := by
  rcases hostsLookupHandle_spec env.snap r.request r.response with ⟨answer, hit⟩ | ⟨miss, out⟩
  · simp only [hostsRound, hit]
    exact .hostsHit here answer
  · simp only [hostsRound, miss]
    exact .hostsMiss here out

lemma forwardRound_moved (env : Env) (w : World) (inp : Input) (r : Resolution)
    (here : r.st = .forwardLookup) :
    Moved env w inp r (forwardRound env inp r).1 (forwardRound env inp r).2 := by
  cases zone : matchedZone env r.request.q0.name with
  | none =>
    simp only [forwardRound, forwardLookupHandle, zone]
    exact .forwardMiss here zone
  | some z =>
    by_cases admitted : inp.admitted = true
    · obtain ⟨quiet, ends⟩ := tryUpstreams_spec inp r.request r.response 0 z.upstreams
      simp only [forwardRound, forwardLookupHandle, zone, if_pos admitted]
      generalize tryUpstreams inp r.request r.response 0 z.upstreams = tried at quiet ends
      obtain ⟨ret, response, effects⟩ := tried
      rcases ends with ⟨resp, rfl, rfl⟩ | ⟨rfl, rfl⟩
      · exact .forwardHit here resp effects quiet
      · exact .forwardEnd here rcodeServerFailure effects quiet
    · simp only [forwardRound, forwardLookupHandle, zone, if_neg admitted]
      exact .forwardEnd here rcodeRefused [] (by simp [ReadOnly])

lemma cacheRound_moved (env : Env) (w : World) (inp : Input) (r : Resolution)
    (here : r.st = .cacheLookup) :
    Moved env w inp r (cacheRound w inp r).1 (cacheRound w inp r).2 := by
  have missed : cacheLookupHandle w r.request r.response = (.miss, r.response) →
      (∀ cached, getCacheCopyByType w r.qname r.qtype = some cached →
        cached.answer = [] ∧ hasSOAInAuthority cached = false) →
      Moved env w inp r (cacheRound w inp r).1 (cacheRound w inp r).2 := by
    intro miss unusable
    by_cases admitted : inp.admitted = true
    · simp only [cacheRound, miss, if_pos admitted]
      exact .cacheMiss here unusable
    · simp only [cacheRound, miss, if_neg admitted]
      exact .cacheRefused here
  cases found : getCacheCopyByType w r.request.q0.name r.request.q0.qtype with
  | none =>
    refine missed (by simp [cacheLookupHandle, found]) ?_
    intro cached found'
    exact absurd (found.symm.trans found') (by simp)
  | some cached =>
    by_cases positive : cached.answer = []
    · by_cases soa : hasSOAInAuthority cached = true
      · have hit : cacheLookupHandle w r.request r.response =
            (.hit, mergeNegative r.response cached) := by
          simp [cacheLookupHandle, found, positive, soa]
        simp only [cacheRound, hit]
        exact .cacheNegative here cached found positive soa
      · refine missed (by simp [cacheLookupHandle, found, positive, soa]) ?_
        intro cached' found'
        cases found.symm.trans found'
        exact ⟨positive, Bool.not_eq_true _ ▸ soa⟩
    · have hit : cacheLookupHandle w r.request r.response =
          (.hit, mergePositive r.response cached) := by
        simp [cacheLookupHandle, found, positive]
      simp only [cacheRound, hit]
      exact .cacheHit here cached found positive

lemma getCname_moved (env : Env) (w : World) (inp : Input) (r : Resolution)
    (here : r.st = .classifyResp)
    (classified : classifyRespHandle r.request r.response = (.getCname, []))
    (has_cname : r.response.answer.any RR.isCNAME = true) :
    Moved env w inp r (classifyRound env r).1 (classifyRound env r).2 := by
  cases first : r.response.answer.find? RR.isCNAME with
  | none =>
    obtain ⟨rr, mem, is⟩ := List.any_eq_true.mp has_cname
    exact absurd is (List.find?_eq_none.mp first rr mem)
  | some cname =>
    by_cases unnamed : cname.target = ""
    · simp only [classifyRound, classified, followCNAME, first, if_pos unnamed]
      exact .cnameIdle here cname first unnamed
    by_cases seen : cname.target ∈ r.visitedDomains
    · simp only [classifyRound, classified, followCNAME, first, if_neg unnamed, if_pos seen]
      exact .cnameCycle here cname first seen
    · simp only [classifyRound, classified, followCNAME, first, if_neg unnamed, if_neg seen]
      exact .cname here cname classified first unnamed seen

lemma classifyRound_moved (env : Env) (w : World) (inp : Input) (r : Resolution)
    (here : r.st = .classifyResp) :
    Moved env w inp r (classifyRound env r).1 (classifyRound env r).2 := by
  by_cases negative : isNegative r.response = true
  · obtain ⟨_, soa, _⟩ := isNegative_iff.mp negative
    obtain ⟨ttl, httl⟩ := extractSOAFromAuthority_isSome soa
    simp only [classifyRound, classifyRespHandle, if_pos negative, httl]
    exact .negative here negative ttl httl
  by_cases empty : r.response.answer = []
  · simp only [classifyRound, classifyRespHandle, if_neg negative, if_pos empty]
    exact .noAnswer here (Bool.not_eq_true _ ▸ negative)
  by_cases wanted : (r.response.answer.any fun rr => rr.rrtype == r.request.q0.qtype) = true
  · simp only [classifyRound, classifyRespHandle, if_neg negative, if_neg empty, if_pos wanted]
    exact .answer here wanted
  by_cases aliased : r.request.q0.qtype ≠ typeCNAME ∧ r.response.answer.any RR.isCNAME = true
  · have classified : classifyRespHandle r.request r.response = (.getCname, []) := by
      simp only [classifyRespHandle, if_neg negative, if_neg empty, if_neg wanted, if_pos aliased]
    exact getCname_moved env w inp r here classified aliased.2
  · simp only [classifyRound, classifyRespHandle, if_neg negative, if_neg empty, if_neg wanted,
      if_neg aliased]
    exact .noAnswer here (Bool.not_eq_true _ ▸ negative)

lemma glueRound_moved (env : Env) (w : World) (inp : Input) (r : Resolution)
    (here : r.st = .extractGlue) :
    Moved env w inp r (glueRound env r).1 (glueRound env r).2 := by
  cases first : r.response.ns with
  | nil =>
    simp only [glueRound, extractGlueHandle, first]
    exact .glueKept here first
  | cons rr rest =>
    by_cases usable : (rr.isNS && env.lib.isSubDomain rr.name r.request.q0.name) = true
    · simp only [glueRound, extractGlueHandle, first, if_pos usable]
      rw [Bool.and_eq_true] at usable
      exact .glueExist here rr rest first usable.1 usable.2
    · simp only [glueRound, extractGlueHandle, first, if_neg usable]
      refine .glueCleared here (by simp [first]) ?_
      intro rr' rest' first'
      rw [first] at first'
      cases first'
      rwa [Bool.and_eq_true] at usable

lemma queryRound_moved (env : Env) (w : World) (inp : Input) (r : Resolution)
    (here : r.st = .queryUpstream) :
    Moved env w inp r (queryRound w inp r).1 (queryRound w inp r).2 := by
  cases ended : inp.ctxErr with
  | some err =>
    simp only [queryRound, ended]
    exact .cancelled here err
  | none =>
    simp only [queryRound, ended]
    exact .query here

/-- Inversion of a round: it makes one of the listed transitions. -/
theorem iterate_moved (env : Env) (w : World) (inp : Input) (r : Resolution) :
    Moved env w inp r (iterate env w inp r).1 (iterate env w inp r).2 := by
  rw [iterate]
  split
  · exact initRound_moved env w inp r ‹_›
  · exact hostsRound_moved env w inp r ‹_›
  · exact forwardRound_moved env w inp r ‹_›
  · exact cacheRound_moved env w inp r ‹_›
  · exact classifyRound_moved env w inp r ‹_›
  · exact glueRound_moved env w inp r ‹_›
  · exact .nsCache ‹_›
  · exact queryRound_moved env w inp r ‹_›
  · exact .finish ‹_›

/-- The transitions of the second half of QUERY_UPSTREAM. -/
inductive Resumed (r : Resolution) : List Effect → Outcome → Prop where
  | accepted (earlier : List Msg) (m : Msg) (addr : String) (before : List Effect)
      (bad : ∀ b ∈ earlier, b.rcode ≠ rcodeSuccess) (success : m.rcode = rcodeSuccess)
      (echoes : Echoes r.qname m) (readOnly : ReadOnly before)
      (received : receivedMsgs before = earlier ++ [m])
      (sent : .exchange addr r.qname r.qtype ∈ before) :
      Resumed r (before ++ cacheEffects m)
        ({ r with response :=
            mergeAccepted (if earlier = [] then r.response else mergeRcode r.response m) m
          }.goto .classifyResp)
  | nxdomain (earlier : List Msg) (m : Msg) (effects : List Effect)
      (nameError : m.rcode = rcodeNameError) (readOnly : ReadOnly effects)
      (received : receivedMsgs effects = earlier ++ [m]) :
      Resumed r effects ({ r with response := mergeRcode r.response m }.goto .classifyResp)
  | noServer : Resumed r [] (.done r (.ok (freshRcode r.request rcodeServerFailure)))
  | failed (err : String) (effects : List Effect) (readOnly : ReadOnly effects)
      (received : receivedMsgs effects = [] ∨ ∃ m, receivedMsgs effects = [m] ∧
        m.rcode = rcodeSuccess ∧ ¬ Echoes r.qname m) :
      Resumed r effects (r.handleError err)
  | rejected (earlier : List Msg) (m : Msg) (err : String) (effects : List Effect)
      (readOnly : ReadOnly effects) (received : receivedMsgs effects = earlier ++ [m])
      (refused : m.rcode ≠ rcodeSuccess ∨ earlier ≠ [] ∧ ¬ Echoes r.qname m) :
      Resumed r effects ({ r with response := mergeRcode r.response m }.handleError err)

theorem resume_resumed (env : Env) (inp : Input) (r : Resolution) (source : IPSource) :
    Resumed r (resume env inp r source).1 (resume env inp r source).2 := by
  simp only [resume]
  have ended := queryUpstreamWith_queried env inp r.request r.response
    (match source with
      | .ips ipList => ipList
      | .resolve _ => inp.nsIPs)
  generalize queryUpstreamWith env inp r.request r.response _ = out at ended
  cases ended with
  | accepted earlier m addr before bad success echoes readOnly received sent =>
    exact .accepted earlier m addr before bad success echoes readOnly received sent
  | nxdomain earlier m effects nameError readOnly received =>
    exact .nxdomain earlier m effects nameError readOnly received
  | noServer => exact .noServer
  | failed err effects readOnly received => exact .failed err effects readOnly received
  | rejected earlier m err effects readOnly received refused =>
    exact .rejected earlier m err effects readOnly received refused

/-- What one visit meets: the shared state and the decisions taken outside. -/
structure Visit where
  world : World
  input : Input

/-- A library instance, no local rules, and a visit to an empty cache: the runs
that theorems are tried on start from these. -/
def plainEnv : Env := ⟨plainLib, emptySnapshot⟩

def idleVisit : Visit := ⟨World.initial none 1 0, .idle⟩

def visitEffects (env : Env) (o : Outcome) (v : Visit) : List Effect × Outcome :=
  match o with
  | .next r => iterate env v.world v.input r
  | .await r source => resume env v.input r source
  | .done _ _ => ([], o)

def visit (env : Env) (o : Outcome) (v : Visit) : Outcome := (visitEffects env o v).2

/-- Everything a visit can do: a round, a resumed query, or nothing at the end. -/
inductive Visited (env : Env) (v : Visit) : Outcome → List Effect → Outcome → Prop where
  | round (r : Resolution) (effects : List Effect) (o : Outcome)
      (moved : Moved env v.world v.input r effects o) : Visited env v (.next r) effects o
  | resumed (r : Resolution) (source : IPSource) (effects : List Effect) (o : Outcome)
      (resumed : Resumed r effects o) : Visited env v (.await r source) effects o
  | ended (r : Resolution) (result : Except String Msg) :
      Visited env v (.done r result) [] (.done r result)

theorem visit_visited (env : Env) (o : Outcome) (v : Visit) :
    Visited env v o (visitEffects env o v).1 (visit env o v) := by
  cases o with
  | next r => exact .round r _ _ (iterate_moved env v.world v.input r)
  | await r source => exact .resumed r source _ _ (resume_resumed env v.input r source)
  | done r result => exact .ended r result

/-! The transition behind a visit whose outcome is known, with the outcome apart so
that the transitions can be gone through one by one. -/

lemma visited_of_visit {env : Env} {v : Visit} {o result : Outcome}
    (ends : visit env o v = result) :
    ∃ effects o', Visited env v o effects o' ∧ o' = result :=
  ⟨_, _, visit_visited env o v, ends⟩

lemma moved_of_visit {env : Env} {v : Visit} {r : Resolution} {result : Outcome}
    (ends : visit env (.next r) v = result) :
    ∃ effects o', Moved env v.world v.input r effects o' ∧ o' = result :=
  ⟨_, _, iterate_moved env v.world v.input r, ends⟩

lemma resumed_of_visit {env : Env} {v : Visit} {r : Resolution} {source : IPSource}
    {result : Outcome} (ends : visit env (.await r source) v = result) :
    ∃ effects o', Resumed r effects o' ∧ o' = result ∧
      (resume env v.input r source).1 = effects :=
  ⟨_, _, resume_resumed env v.input r source, ends, rfl⟩

/-- A resolution of `request` after the given visits. -/
def resolve (env : Env) (request : Msg) (depth : Nat) (visits : List Visit) : Outcome :=
  StepRuns.run (visit env) (.next (start request depth)) visits

theorem resolve_snoc (env : Env) (request : Msg) (depth : Nat) (visits : List Visit) (v : Visit) :
    resolve env request depth (visits ++ [v]) = visit env (resolve env request depth visits) v :=
  StepRuns.run_snoc (visit env) _ visits v

@[simp] theorem goto_depth (r : Resolution) (st : StateKind) :
    (r.goto st).resolution.depth = r.depth := by
  rcases r.goto_eq st with ⟨_, next⟩ | ⟨_, limit⟩
  · rw [next]
    rfl
  · rw [limit]
    rfl

/-- The NS-resolution depth is that of the context a resolution was started with. -/
theorem visit_depth (env : Env) (o : Outcome) (v : Visit) :
    (visit env o v).resolution.depth = o.resolution.depth := by
  have visited := visit_visited env o v
  generalize visit env o v = o', (visitEffects env o v).1 = effects at visited
  cases visited with
  | ended r result => rfl
  | resumed r source effects o' resumed =>
    cases resumed with
    | accepted | nxdomain => exact goto_depth _ _
    | noServer | failed | rejected => rfl
  | round r effects o' moved =>
    cases moved with
    | formerr | forwardEnd | cacheRefused | cnameCycle | cancelled | query | finish => rfl
    | _ => exact goto_depth _ _

/-! ### Every resolution ends -/

/-- A bound on the visits still to come: two for each round that is left. -/
def visitsLeft : Outcome → Nat
  | .next r => 2 * (maxIterations - r.iterations) + 2
  | .await r _ => 2 * (maxIterations - r.iterations) + 1
  | .done _ _ => 0

lemma goto_visitsLeft (r : Resolution) (st : StateKind) :
    visitsLeft (r.goto st) ≤ 2 * (maxIterations - r.iterations) := by
  rcases r.goto_eq st with ⟨more, next⟩ | ⟨_, limit⟩
  · rw [next]
    simp only [visitsLeft]
    omega
  · rw [limit]
    exact Nat.zero_le _

lemma visit_visitsLeft (env : Env) (o : Outcome) (v : Visit) :
    visitsLeft (visit env o v) ≤ visitsLeft o - 1 := by
  have visited := visit_visited env o v
  generalize visit env o v = o', (visitEffects env o v).1 = effects at visited
  cases visited with
  | ended r result => exact Nat.zero_le _
  | resumed r source effects o' resumed =>
    cases resumed with
    | accepted | nxdomain => exact goto_visitsLeft _ _
    | noServer | failed | rejected => exact Nat.zero_le _
  | round r effects o' moved =>
    cases moved with
    | formerr | forwardEnd | cacheRefused | cnameCycle | cancelled | finish => exact Nat.zero_le _
    | query => exact Nat.le_refl _
    | _ => exact Nat.le_succ_of_le (goto_visitsLeft _ _)

/-- Whatever its visits meet, a resolution is over after two for each round. -/
theorem resolve_ends (env : Env) (request : Msg) (depth : Nat) (visits : List Visit)
    (enough : 2 * maxIterations ≤ visits.length) :
    ∃ r result, resolve env request depth visits = .done r result := by
  have left := StepRuns.run_descends (visit env) (visit_visitsLeft env)
    (.next (start request depth)) visits
  change visitsLeft (resolve env request depth visits) ≤ 2 * (maxIterations - 1) + 2 - _ at left
  cases ended : resolve env request depth visits with
  | done r result => exact ⟨r, result, rfl⟩
  | next r =>
    rw [ended, visitsLeft, maxIterations] at left
    rw [maxIterations] at enough
    omega
  | await r source =>
    rw [ended, visitsLeft, maxIterations] at left
    rw [maxIterations] at enough
    omega

/-! ### The current name -/

/-- The CNAME record the next visit follows, if it follows one. -/
def Resolution.hop (r : Resolution) : Option RR :=
  if r.st = .classifyResp ∧ (classifyRespHandle r.request r.response).1 = .getCname then
    (r.response.answer.find? RR.isCNAME).filter fun c =>
      c.target ≠ "" ∧ c.target ∉ r.visitedDomains
  else none

/-- The name the next answer is wanted for: the last target, or the name asked. -/
def Resolution.expected (r : Resolution) : String :=
  match r.cnameChain.getLast? with
  | none => r.originalQuestion.name
  | some cname => cname.target

structure SameQuestion (r r' : Resolution) : Prop where
  request : r'.request = r.request
  chain : r'.cnameChain = r.cnameChain
  original : r'.originalQuestion = r.originalQuestion

lemma goto_sameQuestion (r : Resolution) (st : StateKind) :
    SameQuestion r (r.goto st).resolution := by
  rcases r.goto_eq st with ⟨_, next⟩ | ⟨_, limit⟩
  · rw [next]
    exact ⟨rfl, rfl, rfl⟩
  · rw [limit]
    exact ⟨rfl, rfl, rfl⟩

lemma goto_sameQuestion_of {r r' : Resolution} (same : SameQuestion r r') (st : StateKind) :
    SameQuestion r (r'.goto st).resolution := by
  have moved := goto_sameQuestion r' st
  exact ⟨moved.request.trans same.request, moved.chain.trans same.chain,
    moved.original.trans same.original⟩

lemma hop_of_cname {r : Resolution} {cname : RR} (here : r.st = .classifyResp)
    (classified : classifyRespHandle r.request r.response = (.getCname, []))
    (first : r.response.answer.find? RR.isCNAME = some cname) (named : cname.target ≠ "")
    (fresh : cname.target ∉ r.visitedDomains) : r.hop = some cname := by
  simp [Resolution.hop, here, classified, first, named, fresh]

/-- A visit that follows a CNAME record moves on to its target. -/
theorem visit_of_hop (env : Env) (v : Visit) {r : Resolution} {cname : RR}
    (hop : r.hop = some cname) :
    r.response.answer.find? RR.isCNAME = some cname ∧ cname.target ≠ "" ∧
      visit env (.next r) v = (followTo env.lib r cname).goto .cacheLookup := by
  rw [Resolution.hop] at hop
  split at hop
  · rename_i classified
    obtain ⟨first, named, fresh⟩ : r.response.answer.find? RR.isCNAME = some cname ∧
        cname.target ≠ "" ∧ cname.target ∉ r.visitedDomains := by
      simpa [Option.filter_eq_some_iff] using hop
    refine ⟨first, named, ?_⟩
    obtain ⟨here, code⟩ := classified
    have round : visit env (.next r) v = (classifyRound env r).2 := by
      simp [visit, visitEffects, iterate, here]
    rw [round]
    have followed : followCNAME env.lib r = .ok (followTo env.lib r cname) := by
      simp [followCNAME, first, named, fresh]
    rw [classifyRound]
    generalize classifyRespHandle r.request r.response = classified at code
    obtain ⟨ret, effects⟩ := classified
    cases code
    simp only [followed]
  · cases hop

/-- Every other visit leaves the question and the chain as they are. -/
theorem visit_sameQuestion (env : Env) (o : Outcome) (v : Visit)
    (stays : ∀ r, o = .next r → r.hop = none) :
    SameQuestion o.resolution (visit env o v).resolution := by
  have visited := visit_visited env o v
  generalize visit env o v = o', (visitEffects env o v).1 = effects at visited
  cases visited with
  | ended r result => exact ⟨rfl, rfl, rfl⟩
  | resumed r source effects o' resumed =>
    cases resumed with
    | accepted | nxdomain =>
      refine goto_sameQuestion_of ?_ _
      exact ⟨rfl, rfl, rfl⟩
    | noServer | failed | rejected => exact ⟨rfl, rfl, rfl⟩
  | round r effects o' moved =>
    cases moved with
    | cname here cname classified first named fresh =>
      have hop := hop_of_cname here classified first named fresh
      rw [stays r rfl] at hop
      cases hop
    | formerr | forwardEnd | cacheRefused | cnameCycle | cancelled | query | finish =>
      exact ⟨rfl, rfl, rfl⟩
    | _ =>
      refine goto_sameQuestion_of ?_ _
      exact ⟨rfl, rfl, rfl⟩

/-- What holds of every resolution: past STATE_INIT the request has one question,
the wait is inside QUERY_UPSTREAM, and the current name is the expected one. -/
structure Tracks (o : Outcome) : Prop where
  single : o.resolution.st ≠ .stateInit → o.resolution.request.question.length = 1
  waits : ∀ r source, o = .await r source → r.st = .queryUpstream
  name : o.resolution.qname = o.resolution.expected

theorem start_tracks (request : Msg) (depth : Nat) : Tracks (.next (start request depth)) := by
  refine ⟨fun past => absurd rfl past, ?_, rfl⟩
  intro r source waiting
  cases waiting

lemma goto_ne_await (r : Resolution) (st : StateKind) (r' : Resolution) (source : IPSource) :
    r.goto st ≠ .await r' source := by
  rcases r.goto_eq st with ⟨_, next⟩ | ⟨_, limit⟩
  · rw [next]
    exact Outcome.noConfusion
  · rw [limit]
    exact Outcome.noConfusion

/-- A visit ends in a wait only at QUERY_UPSTREAM. -/
lemma visit_await {env : Env} {o : Outcome} {v : Visit} {r : Resolution} {source : IPSource}
    (waits : visit env o v = .await r source) :
    o = .next r ∧ r.st = .queryUpstream ∧ source = collectIPs v.world r.depth r.response := by
  obtain ⟨effects, o', visited, pending⟩ := visited_of_visit waits
  cases visited with
  | ended => cases pending
  | resumed r' source' effects o' resumed =>
    cases resumed with
    | accepted | nxdomain => exact absurd pending (goto_ne_await _ _ _ _)
    | noServer | failed | rejected => cases pending
  | round r' effects o' moved =>
    cases moved with
    | query here =>
      cases pending
      exact ⟨rfl, here, rfl⟩
    | formerr | forwardEnd | cacheRefused | cnameCycle | cancelled | finish => cases pending
    | _ => exact absurd pending (goto_ne_await _ _ _ _)

lemma visit_waits (env : Env) (o : Outcome) (v : Visit) (r : Resolution) (source : IPSource)
    (waiting : visit env o v = .await r source) : r.st = .queryUpstream :=
  (visit_await waiting).2.1

/-- Leaving STATE_INIT requires exactly one question. -/
lemma visit_leaves_init (env : Env) (v : Visit) {r : Resolution} (here : r.st = .stateInit)
    (left : (visit env (.next r) v).resolution.st ≠ .stateInit) :
    r.request.question.length = 1 := by
  by_contra bad
  have round : visit env (.next r) v = (initRound r).2 := by
    simp [visit, visitEffects, iterate, here]
  have ended : stateInitHandle r.request r.response =
      (.formerr, r.response.setRcode r.request rcodeFormatError) := if_pos (.inl bad)
  rw [round] at left
  simp only [initRound, ended] at left
  exact left here

@[simp] theorem renameQuestion_length (m : Msg) (name : String) :
    (renameQuestion m name).question.length = m.question.length := by
  rw [renameQuestion]
  split <;> simp_all

lemma renameQuestion_name {m : Msg} (single : m.question.length = 1) (name : String) :
    (renameQuestion m name).q0.name = name := by
  obtain ⟨q, hq⟩ := List.length_eq_one_iff.mp single
  simp [renameQuestion, Msg.q0, hq]

/-- After a hop the current name is the target, and the chain ends with the record. -/
lemma followTo_expected (lib : Lib) (r : Resolution) (cname : RR) :
    (followTo lib r cname).expected = cname.target := by
  simp [followTo, Resolution.expected]

lemma SameQuestion.expected {r r' : Resolution} (same : SameQuestion r r') :
    r'.expected = r.expected := by
  simp only [Resolution.expected, same.chain, same.original]

theorem visit_tracks (env : Env) (o : Outcome) (v : Visit) (tracks : Tracks o) :
    Tracks (visit env o v) := by
  by_cases hops : ∃ r cname, o = .next r ∧ r.hop = some cname
  · obtain ⟨r, cname, rfl, hop⟩ := hops
    have here : r.st = .classifyResp := by
      by_contra elsewhere
      simp [Resolution.hop, elsewhere] at hop
    have single : r.request.question.length = 1 :=
      tracks.single (by simp [Outcome.resolution, here])
    have same := goto_sameQuestion (followTo env.lib r cname) .cacheLookup
    refine ⟨fun _ => ?_, visit_waits env _ v, ?_⟩
    · rw [(visit_of_hop env v hop).2.2, same.request]
      simpa [followTo] using single
    · rw [(visit_of_hop env v hop).2.2, same.expected, followTo_expected, Resolution.qname,
        same.request]
      exact renameQuestion_name single cname.target
  · have stays : ∀ r, o = .next r → r.hop = none := by
      intro r hr
      cases hop : r.hop with
      | none => rfl
      | some cname => exact absurd ⟨r, cname, hr, hop⟩ hops
    have same := visit_sameQuestion env o v stays
    refine ⟨?_, visit_waits env o v, ?_⟩
    · intro past
      rw [same.request]
      by_cases here : o.resolution.st = .stateInit
      · -- only a round leaves STATE_INIT, since a wait is inside QUERY_UPSTREAM
        cases o with
        | next r => exact visit_leaves_init env v here past
        | await r source =>
          rw [Outcome.resolution, tracks.waits r source rfl] at here
          cases here
        | done r result => exact absurd here past
      · exact tracks.single here
    · rw [same.expected, Resolution.qname, same.request]
      exact tracks.name

theorem resolve_tracks (env : Env) (request : Msg) (depth : Nat) (visits : List Visit) :
    Tracks (resolve env request depth visits) :=
  StepRuns.run_preserves (visit env) (visit_tracks env) (start_tracks request depth) visits

lemma goto_ne_done_ok (r : Resolution) (st : StateKind) (r' : Resolution) (reply : Msg) :
    r.goto st ≠ .done r' (.ok reply) := by
  rcases r.goto_eq st with ⟨_, next⟩ | ⟨_, limit⟩
  · rw [next]
    exact Outcome.noConfusion
  · rw [limit]
    intro ended
    cases ended

/-- A reply from RETURN_RESP is the response with question and chain put back. -/
def Finished (o : Outcome) : Prop :=
  ∀ r reply, o = .done r (.ok reply) → r.st = .returnResp → reply = buildFinalResponse r

lemma visit_finished (env : Env) (o : Outcome) (v : Visit) (tracks : Tracks o)
    (finished : Finished o) : Finished (visit env o v) := by
  intro r reply ended here
  obtain ⟨effects, o', visited, result⟩ := visited_of_visit ended
  cases visited with
  | ended r' result' => exact finished r reply result here
  | resumed r' source effects o' resumed =>
    cases resumed with
    | accepted | nxdomain => exact absurd result (goto_ne_done_ok _ _ _ _)
    | failed | rejected => cases result
    | noServer =>
      cases result
      rw [tracks.waits r source rfl] at here
      cases here
  | round r' effects o' moved =>
    cases moved with
    | finish => cases result; rfl
    | formerr elsewhere | forwardEnd elsewhere | cacheRefused elsewhere =>
      cases result
      rw [show _ = _ from elsewhere] at here
      cases here
    | cnameCycle | cancelled | query => cases result
    | _ => exact absurd result (goto_ne_done_ok _ _ _ _)

theorem resolve_finished (env : Env) (request : Msg) (depth : Nat) (visits : List Visit) :
    Finished (resolve env request depth visits) := by
  have both : Tracks (resolve env request depth visits) ∧
      Finished (resolve env request depth visits) := by
    refine StepRuns.run_preserves (visit env) (P := fun o => Tracks o ∧ Finished o) ?_ ?_ visits
    · rintro o v ⟨tracks, finished⟩
      exact ⟨visit_tracks env o v tracks, visit_finished env o v tracks finished⟩
    · refine ⟨start_tracks request depth, ?_⟩
      intro r reply ended
      cases ended
  exact both.2

/-! ### The first rounds -/

/-- Everything the visits do to the rest of the server, queries to upstreams included. -/
def effects (env : Env) (request : Msg) (depth : Nat) (visits : List Visit) : List Effect :=
  StepRuns.emitted (visit env) (fun o v => (visitEffects env o v).1)
    (.next (start request depth)) visits

lemma goto_of_lt {r : Resolution} {st : StateKind} (more : r.iterations < maxIterations) :
    r.goto st = .next { r with st := st, iterations := r.iterations + 1 } := if_pos more

/-- A well-formed request that the hosts table does not answer. -/
structure HostsMissed (env : Env) (request : Msg) (q : Question) : Prop where
  single : request.question = [q]
  query : request.response = false
  opcode : request.opcode = opcodeQuery
  uncompiled : env.snap.hostsMap.lookup (getCacheKey q.name q.qtype) = none
  unlisted : q.name ∉ env.snap.hostsNames

/-- The resolution after STATE_INIT, before anything was found. -/
def opened (request : Msg) (depth : Nat) (st : StateKind) (iterations : Nat) : Resolution :=
  { start request depth with
    st := st, response := ({} : Msg).setReply request, iterations := iterations }

section FirstRounds

variable {env : Env} {request : Msg} {q : Question} (missed : HostsMissed env request q)
  (depth : Nat) (v : Visit)

include missed

lemma HostsMissed.q0_eq : request.q0 = q := by
  rw [Msg.q0, missed.single]
  rfl

lemma visit_init : visitEffects env (.next (start request depth)) v =
    ([], .next (opened request depth .hostsLookup 2)) := by
  have formed : ¬ (request.question.length ≠ 1 ∨ request.response = true ∨
      request.opcode ≠ opcodeQuery) := by
    simp [missed.single, missed.query, missed.opcode]
  have replied : stateInitHandle request {} = (.noError, ({} : Msg).setReply request) := by
    rw [stateInitHandle, if_neg formed]
  simp only [visitEffects, iterate, start, initRound, replied]
  rfl

lemma visit_hosts : visitEffects env (.next (opened request depth .hostsLookup 2)) v =
    ([], .next (opened request depth .forwardLookup 3)) := by
  have miss : hostsLookupHandle env.snap request (({} : Msg).setReply request) =
      (.miss, ({} : Msg).setReply request) := by
    rw [hostsLookupHandle, missed.q0_eq, missed.uncompiled]
    simp only [if_neg missed.unlisted, ite_self]
  simp only [visitEffects, iterate, opened, start, hostsRound, miss]
  rfl

end FirstRounds

end StateMachine
