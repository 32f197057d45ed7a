import Rec53.TruthfulReplies
import Rec53.Delegations
import Rec53.QueriedAddresses

/-!
# Resolutions come to an answer

If every server that is asked also replies, refers to zones ever closer to the name and gives the
addresses of their servers, and nothing is refused on the way, then a resolution ends with an
answer, as long as the zones are not nested too deeply and the aliases are not too many for the
fifty rounds of `Change`. A plan says how deep and how many they are. Each state has a number of
rounds that are left from there, and what was said is known to be true, so that no reply can lead
astray.
-/

namespace ResolutionProgress

open DnsMessage Platform DnsCache ExpiringStore StateHandlers UpstreamQuery StateMachine
  ResolverSystem Provenance HonestServers TruthfulReplies

/-- How many referrals the servers of a zone are away from those that know the name, at most how
many those of any zone, and how many rounds it takes from there to the end. -/
structure Plan (dns : Dns) where
  level : String → String → Nat
  height : String → Nat
  tail : String → Nat
  level_le : ∀ zone name, level zone name ≤ height name
  tail_pos : ∀ name, 1 ≤ tail name
  aliases : ∀ name target, dns.data name (.cname target) →
    Rooted target ∧ 3 * height target + tail target + 5 ≤ tail name

namespace Plan

variable {dns : Dns} (plan : Plan dns)

/-- The rounds from QUERY_UPSTREAM to the end, when the servers of the zone are asked. -/
def ask (zone name : String) : Nat := 3 * plan.level zone name + plan.tail name + 2

def top (name : String) : Nat := 3 * plan.height name + plan.tail name + 2

/-- The rounds from CACHE_LOOKUP to the end. -/
def cost (name : String) : Nat := plan.top name + 3

end Plan

/-- If the message is a delegation, then it comes with an address. -/
def Usable (m : Msg) : Prop :=
  ∀ rr rest, m.ns = rr :: rest → rr.isNS = true → getIPListFromResponse m ≠ []

section
variable (env : Env) {dns : Dns} (plan : Plan dns)

/-- The authority section starts with a delegation that encloses the name. -/
structure Delegates (name : String) (m : Msg) (rr : RR) : Prop where
  first : ∃ rest, m.ns = rr :: rest
  is : rr.isNS = true
  encloses : env.lib.isSubDomain rr.name name = true

/-- The question can be resolved within the limit. -/
structure Feasible (q : Question) : Prop where
  uncovered : Uncovered env q
  rooted : Rooted q.name
  enough : plan.cost q.name + 3 ≤ maxIterations

structure WellFormed (request : Msg) : Prop where
  single : request.question.length = 1
  query : request.response = false
  opcode : request.opcode = opcodeQuery

/-! ### The rounds that are left -/

/-- No alias was followed to a name that is further from the end than this one. -/
structure Tracked (r : Resolution) : Prop where
  rooted : Rooted r.qname
  visited : ∀ name ∈ r.visitedDomains, plan.cost r.qname ≤ plan.cost name

/-- What holds of a resolution in round `i` that is about to visit the given state. -/
def Due (i : Nat) (request response : Msg) : StateKind → Prop
  | .stateInit =>
    WellFormed request ∧ Usable response ∧ i + plan.cost request.q0.name + 3 ≤ maxIterations + 1
  | .hostsLookup => Usable response ∧ i + plan.cost request.q0.name + 2 ≤ maxIterations + 1
  | .forwardLookup => Usable response ∧ i + plan.cost request.q0.name + 1 ≤ maxIterations + 1
  | .cacheLookup => Usable response ∧ i + plan.cost request.q0.name ≤ maxIterations + 1
  | .extractGlue => Usable response ∧ (i + plan.top request.q0.name + 2 ≤ maxIterations + 1 ∨
      ∃ rr, Delegates env request.q0.name response rr ∧
        i + plan.ask rr.name request.q0.name + 1 ≤ maxIterations + 1)
  | .lookupNSCache => response.ns = [] ∧ i + plan.top request.q0.name + 1 ≤ maxIterations + 1
  | .queryUpstream => getIPListFromResponse response ≠ [] ∧ ∃ rr rest, response.ns = rr :: rest ∧
      i + plan.ask rr.name request.q0.name ≤ maxIterations + 1
  | .classifyResp => i + plan.tail request.q0.name + 1 ≤ maxIterations + 1 ∧
      (isNegative response = false → Usable response) ∧
      (response.answer = [] → isNegative response = false → ∃ rr,
        Delegates env request.q0.name response rr ∧
          i + plan.ask rr.name request.q0.name + 2 ≤ maxIterations + 1)
  | .returnResp => i ≤ maxIterations

def OnTime : Outcome → Prop
  | .next r => Feasible env plan r.originalQuestion →
      Tracked plan r ∧ Due env plan r.iterations r.request r.response r.st
  | .await r source => Feasible env plan r.originalQuestion → Tracked plan r ∧
      (∃ rr rest, r.response.ns = rr :: rest ∧
        r.iterations + plan.ask rr.name r.qname ≤ maxIterations + 1) ∧
      ∃ ipList, source = .ips ipList ∧ ipList ≠ []
  | .done r (.ok reply) => Feasible env plan r.originalQuestion →
      reply.rcode = rcodeSuccess ∨ reply.rcode = rcodeNameError
  | .done r (.error _) => ¬ Feasible env plan r.originalQuestion

variable {env plan} {r : Resolution}

/-- The delegations in the cache come with addresses. -/
def UsableCache (w : World) : Prop :=
  ∀ zone it, Rooted zone → w.cache.find zone = some it → Usable it.object

/-- Only delegations that come with addresses are written as such. -/
def UsableEffect (e : Effect) : Prop := ∀ zone m ttl, e = .setZone zone m ttl → Usable m

lemma UsableEffect.readOnly {e : Effect} (quiet : e.writes = false) : UsableEffect e := by
  rintro zone m ttl rfl
  cases quiet

lemma UsableEffect.entry {lib : Lib} {e : Effect} {zone : String} {m : Msg} {ttl : Nat}
    (effect : UsableEffect e) (rooted : Rooted zone) (entry : entryOf lib e = some (zone, m, ttl)) :
    Usable m := by
  cases e with
  | setZone zone' m' ttl' =>
    cases entry
    exact effect _ _ _ rfl
  | setByType name qtype msg ttl' =>
    cases entry
    exact absurd rfl (ne_getCacheKey_of_rooted rooted name qtype)
  | updateNSIPs id nsName ips =>
    cases entry
    exact absurd rfl (ne_getCacheKey_of_rooted rooted nsName typeA)
  | _ => cases entry

end

/-! ### The system -/

section
variable (env : Env) {dns : Dns} (plan : Plan dns)

structure ProgressSys (s : Sys) : Prop where
  truth : TrueSys env dns s
  cache : UsableCache s.world
  procs : ∀ p ∈ s.procs, OnTime env plan p.outcome

variable {env plan} {s : Sys}

end

/-! ### One resolution among the others -/

section
variable {env : Env} {s : Sys} {i : Nat} {o : Outcome}

def outcomeAt (s : Sys) (i : Nat) : Option Outcome := (s.procs[i]?).map Proc.outcome

/-- The event is a visit of the given resolution. -/
def visitsAt (i : Nat) : Event → Bool
  | .visit j _ => i == j
  | _ => false

end

section
variable {env : Env} {dns : Dns} {plan : Plan dns}

/-- The resolution of the question is at its place, and each visit has brought it closer to the
end. -/
structure Advanced (env : Env) (plan : Plan dns) (i : Nat) (q : Question) (past : List Event)
    (s : Sys) : Prop where
  sys : ProgressSys env plan s
  here : ∃ o, outcomeAt s i = some o ∧ o.resolution.originalQuestion = q ∧
    visitsLeft o ≤ 2 * maxIterations - past.countP (visitsAt i)

/-- No visit is left, so the resolution has ended, and it was on time. -/
lemma Advanced.answered {i : Nat} {q : Question} {past : List Event} {s : Sys}
    (advanced : Advanced env plan i q past s) (feasible : Feasible env plan q)
    (visited : 2 * maxIterations ≤ past.countP (visitsAt i)) :
    ∃ r reply, outcomeAt s i = some (.done r (.ok reply)) ∧
      (reply.rcode = rcodeSuccess ∨ reply.rcode = rcodeNameError) ∧ Truthful dns q reply := by
  obtain ⟨o, here, rfl, left⟩ := advanced.here
  obtain ⟨p, at_i, rfl⟩ := Option.map_eq_some_iff.mp here
  have mem := List.mem_of_getElem? at_i
  have onTime := advanced.sys.procs p mem
  have truth := (advanced.sys.truth.procs p mem).outcome
  have none_left : visitsLeft p.outcome = 0 := by omega
  cases ended : p.outcome with
  | next r =>
    rw [ended] at none_left
    cases none_left
  | await r source =>
    rw [ended] at none_left
    cases none_left
  | done r result =>
    rw [ended] at onTime truth feasible here
    cases result with
    | error err => exact absurd feasible onTime
    | ok reply => exact ⟨r, reply, here, onTime feasible, truth feasible.uncovered⟩

end

section Witness

/-- The zone whose servers the resolution waits for. -/
def waitsFor : Outcome → Option String
  | .await r _ => r.response.ns.head?.map RR.name
  | _ => none

/-- The resolution is about the name, and if it waits, then for the servers of the zone. -/
def about (zone name : String) (o : Outcome) : Bool :=
  o.resolution.qname == name && o.resolution.qtype == typeA &&
    ((waitsFor o).isNone || waitsFor o == some zone)

def asks (zone name : String) (s : Sys) : Bool := (outcomeAt s 0).any (about zone name)

end Witness

end ResolutionProgress
