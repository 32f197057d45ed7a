import Rec53.LocalConfig

/-!
# The handlers before and after an upstream query

One function for each `handle` of `server/state_*.go` but QUERY_UPSTREAM, which has
a module of its own. A handler reads the shared
state and the objects of its resolution and returns its code, the response object
as it leaves it, and the effects it had on the rest of the server, in order. No
handler reads the cache after it has written to it, so applying the effects
afterwards gives the state the Go code leaves.

Everything decided outside the resolution during one visit is an `Input`: whether
the limiter and the upstream gate admit a request, the addresses the pool prefers,
what the servers answer and in which order, and whether the context has ended.
The nil checks and metrics of the Go handlers are left out.
-/

namespace StateHandlers

open DnsMessage Platform DnsCache LocalConfig

structure Env where
  lib : Lib
  snap : HostsForwardSnapshot

structure Reply where
  msg : Msg
  rtt : Nat

/-- `best` and `second` answer the two raced queries, `retry` the query to the
alternate address; `secondFirst` is the order in which the race ends. `forward i`
is the i-th attempt of a forwarding zone: its gate and its answer. `nsIPs` is what a
nested resolution of name-server names brought back. -/
structure Input where
  ctxErr : Option String
  admitted : Bool
  forward : Nat → Bool × Except String Msg
  bestIPs : List String → String × String
  degrade : Bool
  gateSingle : Bool
  gateFirst : Bool
  gateSecond : Bool
  best : Except String Reply
  second : Except String Reply
  secondFirst : Bool
  gateRetry : Bool
  retry : Except String Reply
  nsIPs : List String

/-- Everything is admitted, the first address is taken, and no server answers. -/
def Input.idle : Input where
  ctxErr := none
  admitted := true
  forward _ := (true, .error "timeout")
  bestIPs ipList := (ipList.headD "", "")
  degrade := false
  gateSingle := true
  gateFirst := true
  gateSecond := true
  best := .error "timeout"
  second := .error "timeout"
  secondFirst := false
  gateRetry := true
  retry := .error "timeout"
  nsIPs := []

/-- The same, but the preferred server answers with `m`. -/
def Input.answered (m : Msg) : Input := { Input.idle with best := .ok ⟨m, 1⟩ }

inductive Effect where
  | exchange (addr qname : String) (qtype : Nat)
  | received (msg : Msg)
  | setByType (name : String) (qtype : Nat) (msg : Msg) (ttl : Nat)
  | setZone (zone : String) (msg : Msg) (ttl : Nat)
  | updateNSIPs (id : Nat) (nsName : String) (ips : List String)
  | recordLatency (addr : String) (ms : Nat)
  | recordFailure (addr : String)
  deriving DecidableEq

def nsAddressTTL : Nat := 300

/-- The message `updateNSIPsCache` builds for one name server. -/
def nsAddressMsg (lib : Lib) (id : Nat) (nsName : String) (ips : List String) : Msg :=
  { id := id, response := true, recursionDesired := true,
    question := [⟨nsName, typeA, classINET⟩],
    answer := ips.map fun ip => ⟨nsName, classINET, nsAddressTTL, .a (lib.ipText ip)⟩ }

def Effect.apply (lib : Lib) (w : World) : Effect → World
  | .setByType name qtype msg ttl => setCacheCopyByType lib w name qtype msg ttl
  | .setZone zone msg ttl => setCacheCopy lib w zone msg ttl
  | .updateNSIPs id nsName ips =>
    setCacheCopyByType lib w nsName typeA (nsAddressMsg lib id nsName ips) nsAddressTTL
  | .exchange _ _ _ | .received _ | .recordLatency _ _ | .recordFailure _ => w

def perform (lib : Lib) (w : World) (effects : List Effect) : World :=
  effects.foldl (Effect.apply lib) w

def Effect.writes : Effect → Bool
  | .setByType _ _ _ _ | .setZone _ _ _ | .updateNSIPs _ _ _ => true
  | .exchange _ _ _ | .received _ | .recordLatency _ _ | .recordFailure _ => false

def Effect.received? : Effect → Option Msg
  | .received msg => some msg
  | _ => none

/-- The messages that arrived, in order. -/
def receivedMsgs (effects : List Effect) : List Msg := effects.filterMap Effect.received?

@[simp] theorem receivedMsgs_append (xs ys : List Effect) :
    receivedMsgs (xs ++ ys) = receivedMsgs xs ++ receivedMsgs ys := List.filterMap_append

theorem mem_receivedMsgs {effects : List Effect} {m : Msg} :
    m ∈ receivedMsgs effects ↔ .received m ∈ effects := by
  simp only [receivedMsgs, List.mem_filterMap]
  constructor
  · rintro ⟨e, mem, is⟩
    cases e <;> cases is
    exact mem
  · intro mem
    exact ⟨_, mem, rfl⟩

@[simp] theorem perform_nil (lib : Lib) (w : World) : perform lib w [] = w := rfl

@[simp] theorem perform_cons (lib : Lib) (w : World) (e : Effect) (es : List Effect) :
    perform lib w (e :: es) = perform lib (e.apply lib w) es := rfl

theorem perform_append (lib : Lib) (w : World) (xs ys : List Effect) :
    perform lib w (xs ++ ys) = perform lib (perform lib w xs) ys :=
  List.foldl_append

@[simp] theorem apply_wall (lib : Lib) (w : World) (e : Effect) :
    (e.apply lib w).wall = w.wall := by
  cases e <;> simp [Effect.apply, setCacheCopyByType]

@[simp] theorem apply_mono (lib : Lib) (w : World) (e : Effect) :
    (e.apply lib w).mono = w.mono := by
  cases e <;> simp [Effect.apply, setCacheCopyByType]

@[simp] theorem perform_wall (lib : Lib) (w : World) (es : List Effect) :
    (perform lib w es).wall = w.wall := by
  induction es generalizing w with
  | nil => rfl
  | cons e es ih => rw [perform_cons, ih, apply_wall]

@[simp] theorem perform_mono (lib : Lib) (w : World) (es : List Effect) :
    (perform lib w es).mono = w.mono := by
  induction es generalizing w with
  | nil => rfl
  | cons e es ih => rw [perform_cons, ih, apply_mono]

theorem apply_of_not_writes (lib : Lib) (w : World) {e : Effect} (pure : e.writes = false) :
    e.apply lib w = w := by
  cases e <;> first | rfl | cases pure

theorem perform_of_not_writes (lib : Lib) (w : World) {es : List Effect}
    (pure : ∀ e ∈ es, e.writes = false) : perform lib w es = w := by
  induction es with
  | nil => rfl
  | cons e es ih =>
    rw [perform_cons, apply_of_not_writes lib w (pure e (by simp))]
    exact ih fun e' he' => pure e' (by simp [he'])

/-! ### STATE_INIT, HOSTS_LOOKUP, FORWARD_LOOKUP -/

inductive InitRet where
  | noError
  | formerr

def stateInitHandle (request response : Msg) : InitRet × Msg :=
  if request.question.length ≠ 1 ∨ request.response = true ∨ request.opcode ≠ opcodeQuery then
    (.formerr, response.setRcode request rcodeFormatError)
  else (.noError, response.setReply request)

inductive HostsRet where
  | hit
  | miss

def hostsLookupHandle (snap : HostsForwardSnapshot) (request response : Msg) : HostsRet × Msg :=
  if snap.hostsMap.keys = [] then (.miss, response)
  else
    match snap.hostsMap.lookup (getCacheKey request.q0.name request.q0.qtype) with
    | some cached =>
      (.hit, { response with
        answer := response.answer ++ cached.answer, authoritative := true, rcode := rcodeSuccess })
    | none =>
      if request.q0.name ∈ snap.hostsNames then
        (.hit, { response with authoritative := true, rcode := rcodeSuccess })
      else (.miss, response)

inductive ForwardRet where
  | hit
  | miss
  | servfail
  | refused

/-- The first zone of the sorted list that encloses the name. -/
def matchedZone (env : Env) (qname : String) : Option ForwardZone :=
  env.snap.forwardZones.find? fun z => env.lib.isSubDomain z.zone qname

/-- Header, answer, authority and additional records of a forwarded answer. -/
def copyForwarded (request response resp : Msg) : Msg :=
  { resp with id := request.id, response := true, question := response.question }

/-- The loop over the upstreams of the zone; `i` counts the attempts. -/
def tryUpstreams (inp : Input) (request response : Msg) :
    Nat → List String → ForwardRet × Msg × List Effect
  | _, [] => (.servfail, response, [])
  | i, upstream :: rest =>
    if (inp.forward i).1 = false then (.servfail, response, [])
    else
      match (inp.forward i).2 with
      | .error _ =>
        let later := tryUpstreams inp request response (i + 1) rest
        (later.1, later.2.1,
          .exchange upstream request.q0.name request.q0.qtype :: later.2.2)
      | .ok resp =>
        (.hit, copyForwarded request response resp,
          [.exchange upstream request.q0.name request.q0.qtype, .received resp])

def forwardLookupHandle (env : Env) (inp : Input) (request response : Msg) :
    ForwardRet × Msg × List Effect :=
  match matchedZone env request.q0.name with
  | none => (.miss, response, [])
  | some zone =>
    if inp.admitted then tryUpstreams inp request response 0 zone.upstreams
    else (.refused, response, [])

/-! ### CACHE_LOOKUP and CLASSIFY_RESP -/

def hasSOAInAuthority (m : Msg) : Bool := m.ns.any RR.isSOA

def defaultNegativeCacheTTL : Nat := 60

def soaTTL (rr : RR) (minttl : Nat) : Nat :=
  let ttl := if minttl < rr.ttl then minttl else rr.ttl
  if ttl = 0 then defaultNegativeCacheTTL else ttl

/-- The TTL `extractSOAFromAuthority` computes from the first SOA record. -/
def extractSOAFromAuthority : List RR → Option Nat
  | [] => none
  | rr :: rest =>
    match rr.data with
    | .soa minttl => some (soaTTL rr minttl)
    | _ => extractSOAFromAuthority rest

inductive CacheRet where
  | hit
  | miss

def mergePositive (response cached : Msg) : Msg :=
  { response with answer := response.answer ++ cached.answer }

def mergeNegative (response cached : Msg) : Msg :=
  { response with rcode := cached.rcode, ns := response.ns ++ cached.ns }

def cacheLookupHandle (w : World) (request response : Msg) : CacheRet × Msg :=
  match getCacheCopyByType w request.q0.name request.q0.qtype with
  | none => (.miss, response)
  | some msgInCache =>
    if msgInCache.answer ≠ [] then (.hit, mergePositive response msgInCache)
    else if hasSOAInAuthority msgInCache then (.hit, mergeNegative response msgInCache)
    else (.miss, response)

inductive ClassifyRet where
  | getAns
  | getCname
  | getNs
  | getNegative
  deriving DecidableEq

/-- An empty answer with an SOA record and one of the two negative codes. -/
def isNegative (response : Msg) : Bool :=
  response.answer.isEmpty && hasSOAInAuthority response &&
    (response.rcode == rcodeNameError || response.rcode == rcodeSuccess)

theorem isNegative_iff {response : Msg} : isNegative response = true ↔
    response.answer = [] ∧ hasSOAInAuthority response = true ∧
      (response.rcode = rcodeNameError ∨ response.rcode = rcodeSuccess) := by
  simp [isNegative, and_assoc]

def classifyRespHandle (request response : Msg) : ClassifyRet × List Effect :=
  if isNegative response then
    match extractSOAFromAuthority response.ns with
    | some ttl => (.getNegative, [.setByType request.q0.name request.q0.qtype response ttl])
    | none => (.getNegative, [])
  else if response.answer = [] then (.getNs, [])
  else if response.answer.any fun rr => rr.rrtype == request.q0.qtype then (.getAns, [])
  else if request.q0.qtype ≠ typeCNAME ∧ response.answer.any RR.isCNAME then (.getCname, [])
  else (.getNs, [])

/-! ### EXTRACT_GLUE and LOOKUP_NS_CACHE -/

inductive GlueRet where
  | exist
  | notExist
  deriving DecidableEq

def extractGlueHandle (lib : Lib) (request response : Msg) : GlueRet × Msg :=
  match response.ns with
  | [] => (.notExist, response)
  | rr :: _ =>
    if rr.isNS && lib.isSubDomain rr.name request.q0.name then (.exist, response)
    else (.notExist, { response with ns := [], extra := [] })

/-- The suffix after each dot, in the order the loop of `GetZoneList` cuts them. -/
def zonesAbove : List Char → List (List Char)
  | [] => []
  | c :: rest => if c = '.' then rest :: zonesAbove rest else zonesAbove rest

def getZoneList (domain : String) : List String :=
  domain :: (zonesAbove domain.toList).map String.ofList

def rootServer (letter ip : String) : RR × RR :=
  (⟨".", classINET, 0, .ns (letter ++ ".root-servers.net.")⟩,
    ⟨letter ++ ".root-servers.net.", classINET, 0, .a ip⟩)

def rootServers : List (RR × RR) :=
  [rootServer "a" "198.41.0.4", rootServer "b" "199.9.14.201", rootServer "c" "192.33.4.12",
    rootServer "d" "199.7.91.13", rootServer "e" "192.203.230.10", rootServer "f" "192.5.5.241",
    rootServer "g" "192.112.36.4", rootServer "h" "198.97.190.53", rootServer "i" "192.36.148.17",
    rootServer "j" "192.58.128.30", rootServer "k" "193.0.14.129", rootServer "l" "199.7.83.42",
    rootServer "m" "202.12.27.33"]

/-- The authority and additional records of `GetRootGlue`. -/
def rootGlue : List RR × List RR := (rootServers.map Prod.fst, rootServers.map Prod.snd)

/-- The first cached delegation among the given zones. -/
def cachedDelegation (w : World) : List String → Option (String × Msg)
  | [] => none
  | zone :: rest =>
    match getCacheCopy w zone with
    | none => cachedDelegation w rest
    | some msgInCache =>
      match msgInCache.ns with
      | [] => cachedDelegation w rest
      | rr :: _ => if rr.isNS then some (zone, msgInCache) else cachedDelegation w rest

def lookupNSCacheHandle (w : World) (request response : Msg) : Msg :=
  match cachedDelegation w (getZoneList request.q0.name) with
  | some (_, m) => { response with ns := response.ns ++ m.ns, extra := response.extra ++ m.extra }
  | none =>
    { response with ns := response.ns ++ rootGlue.1, extra := response.extra ++ rootGlue.2 }

end StateHandlers
