import Rec53.HonestServers
import Rec53.CachedReplies
import Rec53.CnameChain
import Rec53.QueryEntry

/-!
# Honest servers make truthful replies

If every server that is asked is honest, then what the resolver keeps in its cache and what it
replies agrees with the data of the DNS, in every run of any number of resolutions that share
the cache, with their nested resolutions and the updates that follow in the background. Hosts
entries and forwarding zones may say something else; a question that one of them applies to is
left out.

The data of the DNS is fixed for the time of a run. Name servers, those of the root included, are
taken to have names of their own, as they have to in the DNS, and names that no local rule applies
to: `updateNSIPsCache` would store the addresses behind an alias, or those of a hosts entry, under
the name itself. Addresses are in the form in which `net.IP` prints them. A resolution that ends
with an error is left out: `ServeDNS` then sends SERVFAIL with what its message held by then.
-/

namespace TruthfulReplies

open DnsMessage Platform DnsCache ExpiringStore StateHandlers UpstreamQuery StateMachine
  ResolverSystem Provenance HonestServers

section
variable (env : Env) (dns : Dns)

/-- No local rule applies to the question. -/
structure Uncovered (q : Question) : Prop where
  unlisted : q.name ∉ env.snap.hostsNames
  uncompiled : env.snap.hostsMap.lookup (getCacheKey q.name q.qtype) = none
  outside : matchedZone env q.name = none

structure Server (nsName : String) : Prop where
  own : ¬ dns.IsAlias nsName
  uncovered : Uncovered env ⟨nsName, typeA, classINET⟩

def AllServers (m : Msg) : Prop := ∀ nsName ∈ getNSNamesFromResponse m, Server env dns nsName

/-! ### The cache -/

/-- What an entry by name and type says. -/
structure Entry (t : Nat) (name : String) (m : Msg) : Prop where
  positive : m.answer ≠ [] → dns.Leads t name m.answer .records ∨ dns.Leads t name m.answer .unsaid
  negative : m.answer = [] → hasSOAInAuthority m = true →
    m.rcode = rcodeSuccess ∧ dns.Empty t name ∨ m.rcode = rcodeNameError ∧ NoName dns t name

structure Kept (key : String) (m : Msg) : Prop where
  typed : ∀ name t, key = getCacheKey name t → Entry dns t name m
  servers : AllServers env dns m

def TrueCache (w : World) : Prop :=
  ∀ key it, w.cache.find key = some it → Kept env dns key it.object

def TrueEffect (e : Effect) : Prop :=
  ∀ key m ttl, entryOf env.lib e = some (key, m, ttl) → Kept env dns key m

variable {env dns}

lemma TrueEffect.readOnly {e : Effect} (quiet : e.writes = false) : TrueEffect env dns e := by
  intro key m ttl entry
  cases (entryOf_of_not_writes quiet).symm.trans entry

lemma Kept.stripped {key : String} {m : Msg} (kept : Kept env dns key m) :
    Kept env dns key (stripOPT m) := by
  refine ⟨fun name t is => ?_, kept.servers⟩
  obtain ⟨positive, negative⟩ := kept.typed name t is
  exact ⟨positive, negative⟩

/-- An entry by name and type. -/
lemma Kept.of_entry {name : String} {t : Nat} {m : Msg} (entry : Entry dns t name m)
    (servers : AllServers env dns m) : Kept env dns (getCacheKey name t) m := by
  refine ⟨fun name' t' same => ?_, servers⟩
  obtain ⟨rfl, rfl⟩ := getCacheKey_inj same
  exact entry

/-- What holds of every entry that is written holds of every entry of the cache. -/
lemma perform_entries {lib : Lib} {P : String → Msg → Prop}
    (stripped : ∀ key m, P key m → P key (stripOPT m)) {w : World}
    (cache : ∀ key it, w.cache.find key = some it → P key it.object) {effects : List Effect}
    (all : ∀ e ∈ effects, ∀ key m ttl, entryOf lib e = some (key, m, ttl) → P key m) :
    ∀ key it, (perform lib w effects).cache.find key = some it → P key it.object := by
  induction effects generalizing w with
  | nil => exact cache
  | cons e es ih =>
    rw [perform_cons]
    refine ih ?_ fun e' mem => all e' (List.mem_cons_of_mem e mem)
    cases entry : entryOf lib e with
    | none =>
      rw [apply_of_no_entry entry]
      exact cache
    | some stored =>
      obtain ⟨key, m, ttl⟩ := stored
      rw [apply_of_entry entry]
      intro key' it found
      rw [setCacheCopy_cache, Store.find_set] at found
      split at found
      · rename_i same
        cases found
        rw [← same] at entry
        exact stripped _ m (all e List.mem_cons_self _ m ttl entry)
      · exact cache key' it found

lemma perform_true {w : World} (cache : TrueCache env dns w) {effects : List Effect}
    (all : ∀ e ∈ effects, TrueEffect env dns e) :
    TrueCache env dns (perform env.lib w effects) :=
  perform_entries (fun _ _ kept => kept.stripped) cache all

/-- What a reader gets. -/
lemma TrueCache.read {w : World} (cache : TrueCache env dns w) {key : String} {m : Msg}
    (found : getCacheCopy w key = some m) : Kept env dns key m := by
  obtain ⟨it, stored, _, rfl⟩ := getCacheCopy_eq_some.mp found
  refine ⟨fun name t is => ?_, (cache key it stored).servers⟩
  obtain ⟨positive, negative⟩ := (cache key it stored).typed name t is
  exact ⟨positive, negative⟩

end

/-! ### The stages of a resolution -/

section
variable (env : Env) (dns : Dns)

/-- The records so far lead from the question to the name that is resolved now. -/
def OnPath (r : Resolution) : Prop :=
  dns.Follows r.originalQuestion.qtype r.originalQuestion.name r.cnameChain r.qname ∧
    r.qtype = r.originalQuestion.qtype

/-- Nothing is said about the name yet. -/
structure Blank (request response : Msg) : Prop where
  asked : request.question ≠ []
  answer : response.answer = []
  rcode : response.rcode = rcodeSuccess
  servers : AllServers env dns response

/-- Something was said about the name, and it is not classified yet. -/
structure Said (request response : Msg) : Prop where
  asked : request.question ≠ []
  success : response.rcode = rcodeSuccess → Says dns request.q0.qtype request.q0.name response
  nameError : response.rcode = rcodeNameError → response.answer = [] ∧
    hasSOAInAuthority response = true ∧ NoName dns request.q0.qtype request.q0.name
  rcode : response.rcode = rcodeSuccess ∨ response.rcode = rcodeNameError
  servers : AllServers env dns response

/-- What was said ends the resolution of the name. -/
inductive Settled (t : Nat) (name : String) (response : Msg) : Prop where
  | records (success : response.rcode = rcodeSuccess)
      (leads : dns.Leads t name response.answer .records)
  | noData (success : response.rcode = rcodeSuccess) (none_said : response.answer = [])
      (empty : dns.Empty t name)
  | noName (nameError : response.rcode = rcodeNameError) (none_said : response.answer = [])
      (missing : NoName dns t name)

/-- What holds of a resolution that is about to visit the given state. -/
def Stage (r : Resolution) : StateKind → Prop
  | .stateInit =>
    r.response.answer = [] ∧ AllServers env dns r.response ∧ r.request.q0 = r.originalQuestion
  | .hostsLookup => Blank env dns r.request r.response ∧ r.request.q0 = r.originalQuestion
  | .forwardLookup =>
    Blank env dns r.request r.response ∧ r.request.q0 = r.originalQuestion ∧
      (matchedZone env r.originalQuestion.name = none → Uncovered env r.originalQuestion)
  | .cacheLookup | .extractGlue | .lookupNSCache | .queryUpstream =>
    Blank env dns r.request r.response ∧ Uncovered env r.originalQuestion
  | .classifyResp => Said env dns r.request r.response ∧ Uncovered env r.originalQuestion
  | .returnResp =>
    Uncovered env r.originalQuestion → Settled dns r.request.q0.qtype r.request.q0.name r.response

/-- The reply agrees with the data, as far as it says anything. -/
structure Truthful (q : Question) (reply : Msg) : Prop where
  success : reply.rcode = rcodeSuccess → dns.Leads q.qtype q.name reply.answer .records ∨
    dns.Leads q.qtype q.name reply.answer .noData
  nameError : reply.rcode = rcodeNameError →
    ∃ rest, dns.Leads q.qtype q.name (reply.answer ++ rest) .noName
  failure : reply.rcode ≠ rcodeSuccess → reply.rcode ≠ rcodeNameError → reply.answer = []

def TrueOutcome : Outcome → Prop
  | .next r => OnPath dns r ∧ Stage env dns r r.st
  | .await r source =>
    OnPath dns r ∧ Blank env dns r.request r.response ∧ Uncovered env r.originalQuestion ∧
      ∀ nsNames, source = .resolve nsNames → ∀ nsName ∈ nsNames, Server env dns nsName
  | .done r (.ok reply) =>
    Uncovered env r.originalQuestion → Truthful dns r.originalQuestion reply
  | .done _ (.error _) => True

variable {env dns} {r : Resolution}

lemma goto_true {st : StateKind} (path : OnPath dns r) (stage : Stage env dns r st) :
    TrueOutcome env dns (r.goto st) := by
  rcases r.goto_eq st with ⟨_, next⟩ | ⟨_, limit⟩
  · rw [next]
    refine ⟨path, ?_⟩
    cases st with
    | _ => exact stage
  · rw [limit]
    trivial

lemma Truthful.of_failure {q : Question} {reply : Msg} (success : reply.rcode ≠ rcodeSuccess)
    (nameError : reply.rcode ≠ rcodeNameError) (none_said : reply.answer = []) :
    Truthful dns q reply :=
  ⟨fun is => absurd is success, fun is => absurd is nameError, fun _ _ => none_said⟩

lemma start_true (request : Msg) (depth : Nat) :
    TrueOutcome env dns (.next (start request depth)) := by
  refine ⟨⟨.refl, rfl⟩, rfl, ?_, rfl⟩
  intro nsName mem
  cases mem

/-! ### One round -/

lemma initRound_true (path : OnPath dns r) (stage : Stage env dns r .stateInit) :
    TrueOutcome env dns (initRound r).2 := by
  obtain ⟨none_said, servers, first⟩ := stage
  by_cases bad : r.request.question.length ≠ 1 ∨ r.request.response = true ∨
      r.request.opcode ≠ opcodeQuery
  · simp only [initRound, stateInitHandle, if_pos bad]
    intro _
    exact .of_failure (show rcodeFormatError ≠ rcodeSuccess by decide)
      (show rcodeFormatError ≠ rcodeNameError by decide) none_said
  · simp only [initRound, stateInitHandle, if_neg bad]
    refine goto_true path ⟨⟨?_, none_said, rfl, servers⟩, first⟩
    intro none_asked
    change r.request.question = [] at none_asked
    exact bad (.inl (by simp [none_asked]))

/-- HOSTS_LOOKUP hits exactly the questions that are listed. -/
lemma hostsLookupHandle_cases (env : Env) (request response : Msg) :
    (∃ response', hostsLookupHandle env.snap request response = (.hit, response') ∧
        ¬ Uncovered env request.q0) ∨
      (hostsLookupHandle env.snap request response = (.miss, response) ∧
        (matchedZone env request.q0.name = none → Uncovered env request.q0)) := by
  rw [hostsLookupHandle]
  by_cases none_compiled : env.snap.hostsMap.keys = []
  · right
    rw [if_pos none_compiled]
    refine ⟨rfl, fun outside => ⟨?_, ?_, outside⟩⟩
    · rw [env.snap.named none_compiled]
      exact List.not_mem_nil
    · rw [AList.lookup_eq_none, AList.mem_keys, none_compiled]
      exact List.not_mem_nil
  rw [if_neg none_compiled]
  rcases Option.eq_none_or_eq_some
      (env.snap.hostsMap.lookup (getCacheKey request.q0.name request.q0.qtype)) with
    absent | ⟨cached, compiled⟩
  · rw [absent]
    by_cases listed : request.q0.name ∈ env.snap.hostsNames
    · left
      exact ⟨_, if_pos listed, fun uncovered => uncovered.unlisted listed⟩
    · right
      exact ⟨if_neg listed, fun outside => ⟨listed, absent, outside⟩⟩
  · left
    rw [compiled]
    refine ⟨_, rfl, fun uncovered => ?_⟩
    cases compiled.symm.trans uncovered.uncompiled

lemma hostsRound_true (path : OnPath dns r) (stage : Stage env dns r .hostsLookup) :
    TrueOutcome env dns (hostsRound env r).2 := by
  obtain ⟨blank, first⟩ := stage
  rcases hostsLookupHandle_cases env r.request r.response with
    ⟨response, hit, covered⟩ | ⟨miss, unlisted⟩
  · simp only [hostsRound, hit]
    refine goto_true path fun uncovered => ?_
    change Uncovered env r.originalQuestion at uncovered
    rw [← first] at uncovered
    exact absurd uncovered covered
  · simp only [hostsRound, miss]
    refine goto_true path ⟨blank, first, ?_⟩
    change matchedZone env r.originalQuestion.name = none → Uncovered env r.originalQuestion
    rw [← first]
    exact unlisted

lemma forwardRound_true {inp : Input} (path : OnPath dns r)
    (stage : Stage env dns r .forwardLookup) : TrueOutcome env dns (forwardRound env inp r).2 := by
  obtain ⟨blank, first, unlisted⟩ := stage
  cases zone : matchedZone env r.request.q0.name with
  | none =>
    simp only [forwardRound, forwardLookupHandle, zone]
    rw [first] at zone
    exact goto_true path ⟨blank, unlisted zone⟩
  | some z =>
    -- the question is covered, whatever the upstreams answer
    have covered : ¬ Uncovered env r.originalQuestion := fun uncovered => by
      rw [first, uncovered.outside] at zone
      cases zone
    rw [forwardRound]
    split
    · exact goto_true path fun uncovered => absurd uncovered covered
    · rename_i missed
      rw [forwardLookupHandle, zone] at missed
      dsimp only at missed
      split at missed
      · have ends := (tryUpstreams_spec inp r.request r.response 0 z.upstreams).2
        rw [missed] at ends
        simp at ends
      · cases missed
    · exact fun uncovered => absurd uncovered covered
    · exact fun uncovered => absurd uncovered covered

lemma cacheRound_true {w : World} {inp : Input} (cache : TrueCache env dns w) (path : OnPath dns r)
    (stage : Stage env dns r .cacheLookup) : TrueOutcome env dns (cacheRound w inp r).2 := by
  obtain ⟨blank, uncovered⟩ := stage
  have missed : cacheLookupHandle w r.request r.response = (.miss, r.response) →
      TrueOutcome env dns (cacheRound w inp r).2 := by
    intro miss
    simp only [cacheRound, miss]
    split
    · exact goto_true path ⟨blank, uncovered⟩
    · exact fun _ => .of_failure (show rcodeRefused ≠ rcodeSuccess by decide)
        (show rcodeRefused ≠ rcodeNameError by decide) rfl
  cases found : getCacheCopyByType w r.request.q0.name r.request.q0.qtype with
  | none => exact missed (by simp only [cacheLookupHandle, found])
  | some cached =>
    have kept := cache.read found
    have entry : Entry dns r.request.q0.qtype r.request.q0.name cached := kept.typed _ _ rfl
    have rcode_here : r.response.rcode = rcodeSuccess := blank.rcode
    by_cases positive : cached.answer = []
    · by_cases soa : hasSOAInAuthority cached = true
      · have hit : cacheLookupHandle w r.request r.response =
            (.hit, mergeNegative r.response cached) := by
          simp [cacheLookupHandle, found, positive, soa]
        have merged : hasSOAInAuthority (mergeNegative r.response cached) = true := by
          change (r.response.ns ++ cached.ns).any RR.isSOA = true
          rw [List.any_append, show cached.ns.any RR.isSOA = true from soa, Bool.or_true]
        simp only [cacheRound, hit]
        refine goto_true path ⟨⟨blank.asked, ?_, ?_, ?_, ?_⟩, uncovered⟩
        · intro success
          rcases entry.negative positive soa with ⟨_, empty⟩ | ⟨nameError, _⟩
          · exact ⟨fun said => absurd blank.answer said, fun _ _ => empty⟩
          · cases nameError.symm.trans success
        · intro nameError
          rcases entry.negative positive soa with ⟨success, _⟩ | ⟨_, missing⟩
          · cases success.symm.trans nameError
          · exact ⟨blank.answer, merged, missing⟩
        · exact (entry.negative positive soa).imp And.left And.left
        · intro nsName mem
          rw [getNSNamesFromResponse] at mem
          change nsName ∈ (r.response.ns ++ cached.ns).filterMap RR.nsName? at mem
          rw [List.filterMap_append] at mem
          rcases List.mem_append.mp mem with old | new
          · exact blank.servers nsName old
          · exact kept.servers nsName new
      · exact missed (by simp [cacheLookupHandle, found, positive, soa])
    · have hit : cacheLookupHandle w r.request r.response =
          (.hit, mergePositive r.response cached) := by
        simp [cacheLookupHandle, found, positive]
      have answer : (mergePositive r.response cached).answer = cached.answer := by
        change r.response.answer ++ cached.answer = _
        rw [blank.answer, List.nil_append]
      simp only [cacheRound, hit]
      refine goto_true path ⟨⟨blank.asked, ?_, ?_, .inl rcode_here, blank.servers⟩, uncovered⟩
      · intro _
        refine ⟨fun _ => ?_, fun none_said => ?_⟩
        · change dns.Leads _ _ (mergePositive r.response cached).answer _ ∨
            dns.Leads _ _ (mergePositive r.response cached).answer _
          rw [answer]
          exact entry.positive positive
        · change (mergePositive r.response cached).answer = [] at none_said
          rw [answer] at none_said
          exact absurd none_said positive
      · intro nameError
        cases rcode_here.symm.trans nameError

/-- What CLASSIFY_RESP makes of something that was said truthfully. -/
inductive Classified (env : Env) (dns : Dns) (r : Resolution) : List Effect × Outcome → Prop where
  | settled (effects : List Effect) (settled : Settled dns r.qtype r.qname r.response)
      (writes : ∀ e ∈ effects, r.response.answer = [] ∧
        ∃ ttl, e = .setByType r.qname r.qtype r.response ttl) :
      Classified env dns r (effects, r.goto .returnResp)
  | referred (none_said : r.response.answer = []) (rcode : r.response.rcode = rcodeSuccess)
      (pending : isNegative r.response = false) :
      Classified env dns r ([], r.goto .extractGlue)
  | cycle (rr : RR) (aliased : dns.Aliases r.qtype r.qname rr) (seen : rr.target ∈ r.visitedDomains)
      (err : String) : Classified env dns r ([], .done r (.error err))
  | followed (rr : RR) (aliased : dns.Aliases r.qtype r.qname rr)
      (pending : isNegative r.response = false) (rcode : r.response.rcode = rcodeSuccess) :
      Classified env dns r ([], (followTo env.lib r rr).goto .cacheLookup)

theorem classifyRound_classified (said : Said env dns r.request r.response) :
    Classified env dns r (classifyRound env r) := by
  by_cases negative : isNegative r.response = true
  · obtain ⟨none_said, soa, rcode⟩ := isNegative_iff.mp negative
    obtain ⟨ttl, extracted⟩ := extractSOAFromAuthority_isSome soa
    simp only [classifyRound, classifyRespHandle, if_pos negative, extracted]
    refine .settled _ ?_ fun e mem => ⟨none_said, ttl, List.mem_singleton.mp mem⟩
    rcases rcode with nameError | success
    · exact .noName nameError none_said (said.nameError nameError).2.2
    · exact .noData success none_said ((said.success success).negative none_said soa)
  have pending : isNegative r.response = false := Bool.not_eq_true _ ▸ negative
  by_cases none_said : r.response.answer = []
  · simp only [classifyRound, classifyRespHandle, if_neg negative, if_pos none_said]
    refine .referred none_said (said.rcode.resolve_right fun nameError => negative ?_) pending
    exact isNegative_iff.mpr ⟨none_said, (said.nameError nameError).2.1, .inl nameError⟩
  have success : r.response.rcode = rcodeSuccess :=
    said.rcode.resolve_right fun nameError => none_said (said.nameError nameError).1
  have leads := (said.success success).positive none_said
  by_cases wanted : (r.response.answer.any fun rr => rr.rrtype == r.request.q0.qtype) = true
  · simp only [classifyRound, classifyRespHandle, if_neg negative, if_neg none_said, if_pos wanted]
    refine .settled [] (.records success (leads.resolve_right fun unsaid => ?_)) (by simp)
    obtain ⟨rr, mem, typed⟩ := List.any_eq_true.mp wanted
    exact unsaid.unwanted rr mem (beq_iff_eq.mp typed)
  -- no record of the type: the answer is a part of a chain of aliases
  have unsaid := leads.resolve_left fun records => by
    obtain ⟨rr, mem, typed⟩ := records.wanted
    exact wanted (List.any_eq_true.mpr ⟨rr, mem, beq_iff_eq.mpr typed⟩)
  obtain ⟨rr, rest, first, aliased⟩ := unsaid.unsaid_head none_said
  have is_alias : r.request.q0.qtype ≠ typeCNAME ∧ r.response.answer.any RR.isCNAME = true := by
    refine ⟨aliased.followed, ?_⟩
    rw [first, List.any_cons, aliased.is, Bool.true_or]
  have found : r.response.answer.find? RR.isCNAME = some rr := by
    rw [first, List.find?_cons_of_pos aliased.is]
  simp only [classifyRound, classifyRespHandle, if_neg negative, if_neg none_said, if_neg wanted,
    if_pos is_alias, followCNAME, found, if_neg aliased.named]
  by_cases seen : rr.target ∈ r.visitedDomains
  · simp only [if_pos seen]
    exact .cycle rr aliased seen _
  · simp only [if_neg seen]
    exact .followed rr aliased pending success

/-- The question after an alias was followed. -/
lemma followTo_q0 (env : Env) (rr : RR) (asked : r.request.question ≠ []) :
    (followTo env.lib r rr).request.question ≠ [] ∧
      (followTo env.lib r rr).request.q0 = { r.request.q0 with name := rr.target } := by
  obtain ⟨q, qs, is⟩ := List.exists_cons_of_ne_nil asked
  simp [followTo, renameQuestion, is, Msg.q0]

/-- The response after an alias was followed: the delegation is kept, or dropped with its glue. -/
lemma followTo_response (env : Env) (r : Resolution) (rr : RR) :
    (followTo env.lib r rr).response = { r.response with answer := [] } ∨
      (followTo env.lib r rr).response =
        { r.response with answer := [], ns := [], extra := [] } := by
  change (if _ then _ else _ : Msg) = _ ∨ (if _ then _ else _ : Msg) = _
  split
  · exact .inl rfl
  · exact .inr rfl

lemma followTo_blank {rr : RR} (said : Said env dns r.request r.response)
    (rcode : r.response.rcode = rcodeSuccess) :
    Blank env dns (followTo env.lib r rr).request (followTo env.lib r rr).response := by
  have asked := (followTo_q0 env rr said.asked).1
  rcases followTo_response env r rr with kept | dropped
  · rw [kept]
    exact ⟨asked, rfl, rcode, said.servers⟩
  · rw [dropped]
    refine ⟨asked, rfl, rcode, ?_⟩
    intro nsName mem
    cases mem

lemma followTo_path {rr : RR} (path : OnPath dns r) (asked : r.request.question ≠ [])
    (aliased : dns.Aliases r.qtype r.qname rr) : OnPath dns (followTo env.lib r rr) := by
  obtain ⟨follows, qtype⟩ := path
  have renamed := (followTo_q0 env rr asked).2
  refine ⟨?_, ?_⟩
  · change dns.Follows _ _ (r.cnameChain ++ [rr]) (followTo env.lib r rr).request.q0.name
    rw [renamed]
    exact follows.snoc (qtype ▸ aliased)
  · change (followTo env.lib r rr).request.q0.qtype = _
    rw [renamed]
    exact qtype

lemma classifyRound_true (path : OnPath dns r) (stage : Stage env dns r .classifyResp) :
    TrueOutcome env dns (classifyRound env r).2 ∧
      ∀ e ∈ (classifyRound env r).1, TrueEffect env dns e := by
  obtain ⟨said, uncovered⟩ := stage
  have classified := classifyRound_classified said
  generalize classifyRound env r = out at classified ⊢
  cases classified with
  | settled effects settled writes =>
    refine ⟨goto_true path fun _ => settled, fun e mem => ?_⟩
    obtain ⟨none_said, ttl, rfl⟩ := writes e mem
    intro key m ttl' entry
    cases entry
    refine .of_entry ⟨fun some_said => absurd none_said some_said, fun _ _ => ?_⟩ said.servers
    cases settled with
    | records success leads =>
      obtain ⟨rr, mem, _⟩ := leads.wanted
      rw [none_said] at mem
      cases mem
    | noData success _ empty => exact .inl ⟨success, empty⟩
    | noName nameError _ missing => exact .inr ⟨nameError, missing⟩
  | referred none_said rcode =>
    exact ⟨goto_true path ⟨⟨said.asked, none_said, rcode, said.servers⟩, uncovered⟩, by simp⟩
  | cycle => exact ⟨trivial, by simp⟩
  | followed rr aliased _ rcode =>
    exact ⟨goto_true (followTo_path path said.asked aliased)
      ⟨followTo_blank said rcode, uncovered⟩, by simp⟩

lemma glueRound_true (path : OnPath dns r) (stage : Stage env dns r .extractGlue) :
    TrueOutcome env dns (glueRound env r).2 := by
  obtain ⟨blank, uncovered⟩ := stage
  rw [glueRound, extractGlueHandle]
  cases r.response.ns with
  | nil => exact goto_true path ⟨blank, uncovered⟩
  | cons rr rest =>
    dsimp only
    split
    · rename_i kept
      split at kept
      · cases kept
        exact goto_true path ⟨blank, uncovered⟩
      · cases kept
    · rename_i cleared
      split at cleared
      · cases cleared
      · cases cleared
        refine goto_true path ⟨⟨blank.asked, blank.answer, blank.rcode, ?_⟩, uncovered⟩
        intro nsName mem
        cases mem

lemma allServers_append {response m : Msg} (servers : AllServers env dns response)
    {names : List RR} (more : ∀ nsName ∈ names.filterMap RR.nsName?, Server env dns nsName)
    (is : m.ns = response.ns ++ names) : AllServers env dns m := by
  intro nsName mem
  rw [getNSNamesFromResponse, is, List.filterMap_append] at mem
  rcases List.mem_append.mp mem with old | new
  · exact servers nsName old
  · exact more nsName new

/-- The root servers are name servers, too. -/
def RootServers (env : Env) (dns : Dns) : Prop :=
  ∀ nsName ∈ rootGlue.1.filterMap RR.nsName?, Server env dns nsName

lemma nsCacheRound_true {w : World} (roots : RootServers env dns) (cache : TrueCache env dns w)
    (path : OnPath dns r) (stage : Stage env dns r .lookupNSCache) :
    TrueOutcome env dns (nsCacheRound w r).2 := by
  obtain ⟨blank, uncovered⟩ := stage
  rw [nsCacheRound, lookupNSCacheHandle]
  split
  · rename_i zone m found
    have kept := cache.read (QueryEntry.cachedDelegation_spec found).2.1
    exact goto_true path ⟨⟨blank.asked, blank.answer, blank.rcode,
      allServers_append blank.servers kept.servers rfl⟩, uncovered⟩
  · exact goto_true path ⟨⟨blank.asked, blank.answer, blank.rcode,
      allServers_append blank.servers roots rfl⟩, uncovered⟩

lemma queryRound_true {w : World} {inp : Input} (path : OnPath dns r)
    (stage : Stage env dns r .queryUpstream) : TrueOutcome env dns (queryRound w inp r).2 := by
  obtain ⟨blank, uncovered⟩ := stage
  rw [queryRound]
  split
  · trivial
  · refine ⟨path, blank, uncovered, fun nsNames nests => ?_⟩
    rw [(collectIPs_resolve nests).2]
    exact blank.servers

lemma finish_true (path : OnPath dns r) (stage : Stage env dns r .returnResp) :
    TrueOutcome env dns (.done r (.ok (buildFinalResponse r))) := by
  intro uncovered
  obtain ⟨follows, qtype⟩ := path
  change r.request.q0.qtype = _ at qtype
  change dns.Follows _ _ _ r.request.q0.name at follows
  have answer : (buildFinalResponse r).answer = r.cnameChain ++ r.response.answer := rfl
  have rcode : (buildFinalResponse r).rcode = r.response.rcode := rfl
  have settled := stage uncovered
  rw [qtype] at settled
  refine ⟨?_, ?_, ?_⟩
  · intro success
    rw [answer]
    cases settled with
    | records _ leads => exact .inl (follows.leads leads)
    | noData _ none_said empty =>
      rw [none_said]
      exact .inr (follows.leads (.noData empty))
    | noName nameError => cases nameError.symm.trans (rcode.symm.trans success)
  · intro nameError
    cases settled with
    | records success | noData success => cases success.symm.trans (rcode.symm.trans nameError)
    | noName _ none_said missing =>
      obtain ⟨rest, leads⟩ := missing
      refine ⟨rest, ?_⟩
      rw [answer, none_said, List.append_nil]
      exact follows.leads leads
  · intro failed other
    cases settled with
    | records success | noData success => exact absurd (rcode.trans success) failed
    | noName nameError => exact absurd (rcode.trans nameError) other

/-- A round of the loop keeps to the truth. -/
theorem iterate_true {w : World} {inp : Input} (roots : RootServers env dns)
    (cache : TrueCache env dns w) (before : TrueOutcome env dns (.next r)) :
    TrueOutcome env dns (iterate env w inp r).2 ∧
      ∀ e ∈ (iterate env w inp r).1, TrueEffect env dns e := by
  obtain ⟨path, stage⟩ := before
  by_cases classify : r.st = .classifyResp
  · rw [classify] at stage
    rw [iterate, classify]
    exact classifyRound_true path stage
  refine ⟨?_, fun e mem => .readOnly (CachedReplies.iterate_readOnly (classify ·.1) e mem)⟩
  rw [iterate]
  cases here : r.st with
  | classifyResp => exact absurd here classify
  | stateInit =>
    rw [here] at stage
    exact initRound_true path stage
  | hostsLookup =>
    rw [here] at stage
    exact hostsRound_true path stage
  | forwardLookup =>
    rw [here] at stage
    exact forwardRound_true path stage
  | cacheLookup =>
    rw [here] at stage
    exact cacheRound_true cache path stage
  | extractGlue =>
    rw [here] at stage
    exact glueRound_true path stage
  | lookupNSCache =>
    rw [here] at stage
    exact nsCacheRound_true roots cache path stage
  | queryUpstream =>
    rw [here] at stage
    exact queryRound_true path stage
  | returnResp =>
    rw [here] at stage
    exact finish_true path stage

/-! ### The second half of a query -/

lemma cacheEffects_true {m : Msg} (honest : Honest dns (Server env dns) r.qtype r.qname m)
    (success : m.rcode = rcodeSuccess) (echoes : Echoes r.qname m) :
    ∀ e ∈ cacheEffects m, TrueEffect env dns e := by
  obtain ⟨qtype, about⟩ := honest.success success echoes
  intro e mem key m' ttl entry
  rcases mem_cacheEffects mem with ⟨rr, rest, first, rfl⟩ | ⟨rr, rest, first, _, rfl⟩
  · cases entry
    rw [qtype, echoes.2]
    refine .of_entry ⟨about.positive, fun none_said => ?_⟩ honest.servers
    rw [first] at none_said
    cases none_said
  · cases entry
    refine ⟨fun name t same => ?_, honest.servers⟩
    exact absurd same (ne_getCacheKey_of_rooted (honest.rooted rr (by simp [first])) name t)

lemma mergeAccepted_said {request response m : Msg} (asked : request.question ≠ [])
    (honest : Honest dns (Server env dns) request.q0.qtype request.q0.name m)
    (success : m.rcode = rcodeSuccess) (echoes : Echoes request.q0.name m)
    (answer : response.answer = []) (rcode : response.rcode = rcodeSuccess) :
    Said env dns request (mergeAccepted response m) := by
  obtain ⟨_, positive, negative⟩ := honest.success success echoes
  have same : (mergeAccepted response m).answer = m.answer := by
    change response.answer ++ m.answer = _
    rw [answer, List.nil_append]
  refine ⟨asked, fun _ => ⟨?_, ?_⟩, fun nameError => ?_, .inl rcode, honest.servers⟩
  · rw [same]
    exact positive
  · rw [same]
    exact negative
  · cases rcode.symm.trans nameError

theorem resume_true {inp : Input} {source : IPSource}
    (honest : HonestInput dns (Server env dns) r.qtype r.qname inp)
    (before : TrueOutcome env dns (.await r source)) :
    TrueOutcome env dns (resume env inp r source).2 ∧
      ∀ e ∈ (resume env inp r source).1, TrueEffect env dns e := by
  obtain ⟨path, blank, uncovered, _⟩ := before
  have sent : ∀ m ∈ receivedMsgs (resume env inp r source).1,
      Honest dns (Server env dns) r.qtype r.qname m := by
    intro m mem
    obtain ⟨ipList, _, effects⟩ := resume_effects env inp r source
    rw [effects] at mem
    obtain ⟨rep, sent, rfl⟩ := queryUpstreamWith_sent mem
    exact honest rep sent
  have resumed := resume_resumed env inp r source
  generalize resume env inp r source = out at sent resumed ⊢
  obtain ⟨effects, o⟩ := out
  cases resumed with
  | accepted earlier m addr asked bad success echoes readOnly received exchanged =>
    have honest_m := sent m (by simp [received])
    refine ⟨goto_true path
      ⟨mergeAccepted_said blank.asked honest_m success echoes ?_ ?_, uncovered⟩, ?_⟩
    · split
      · exact blank.answer
      · exact blank.answer
    · split
      · exact blank.rcode
      · exact success
    · intro e mem
      rcases List.mem_append.mp mem with quiet | write
      · exact .readOnly (readOnly e quiet)
      · exact cacheEffects_true honest_m success echoes e write
  | nxdomain earlier m effects nameError readOnly received =>
    have honest_m := sent m (by simp [received])
    obtain ⟨soa, missing⟩ := honest_m.nameError nameError
    refine ⟨goto_true path ⟨⟨blank.asked, fun success => ?_, fun _ => ⟨blank.answer, soa, missing⟩,
      .inr nameError, honest_m.servers⟩, uncovered⟩, fun e mem => .readOnly (readOnly e mem)⟩
    cases nameError.symm.trans success
  | noServer =>
    refine ⟨fun _ => .of_failure (show rcodeServerFailure ≠ rcodeSuccess by decide)
      (show rcodeServerFailure ≠ rcodeNameError by decide) rfl, ?_⟩
    intro e mem
    cases mem
  | failed err effects readOnly => exact ⟨trivial, fun e mem => .readOnly (readOnly e mem)⟩
  | rejected earlier m err effects readOnly =>
    exact ⟨trivial, fun e mem => .readOnly (readOnly e mem)⟩

/-- The servers asked in a visit are honest about the question of the resolution. -/
def HonestVisit (env : Env) (dns : Dns) (o : Outcome) (inp : Input) : Prop :=
  ∀ r source, o = .await r source → HonestInput dns (Server env dns) r.qtype r.qname inp

theorem visit_true {o : Outcome} {v : Visit} (roots : RootServers env dns)
    (cache : TrueCache env dns v.world) (honest : HonestVisit env dns o v.input)
    (before : TrueOutcome env dns o) :
    TrueOutcome env dns (visitEffects env o v).2 ∧
      ∀ e ∈ (visitEffects env o v).1, TrueEffect env dns e := by
  cases o with
  | next r => exact iterate_true roots cache before
  | await r source => exact resume_true (honest r source rfl) before
  | done r result =>
    refine ⟨before, ?_⟩
    intro e mem
    cases mem

end

/-! ### The system -/

section
variable (env : Env) (dns : Dns)

/-- Addresses of the name server, and all it has if no set is cut. -/
def Addresses (nsName : String) (ips : List String) : Prop :=
  ∀ id, dns.Holds typeA nsName (nsAddressMsg env.lib id nsName ips).answer

/-- A nested resolution asks for the addresses of a name server. -/
structure TrueProc (p : Proc) : Prop where
  outcome : TrueOutcome env dns p.outcome
  nested : ∀ i nsName, p.parent = some (i, nsName) → Server env dns nsName ∧
    p.outcome.resolution.originalQuestion = ⟨nsName, typeA, classINET⟩

structure TrueSys (s : Sys) : Prop where
  cache : TrueCache env dns s.world
  procs : ∀ p ∈ s.procs, TrueProc env dns p
  updates : ∀ x ∈ s.updates, Addresses env dns x.1 x.2

/-- The servers that an event hears from are honest. -/
def HonestEvent (s : Sys) : Event → Prop
  | .visit i inp | .collect i _ inp => ∀ p ∈ s.procs[i]?, HonestVisit env dns p.outcome inp
  | _ => True

variable {env dns} {s : Sys}

/-- The addresses in a truthful reply are those of the name. -/
lemma addresses_of_reply {nsName : String} {reply : Msg} (server : Server env dns nsName)
    (plain : ∀ name ip, dns.data name (.a ip) → env.lib.ipText ip = ip)
    (truthful : Truthful dns ⟨nsName, typeA, classINET⟩ reply)
    (some_there : answerAddresses reply ≠ []) :
    Addresses env dns nsName (answerAddresses reply) := by
  have answered : reply.answer ≠ [] := by
    intro none_said
    exact some_there (by rw [answerAddresses, none_said, List.filterMap_nil])
  have holds : dns.Holds typeA nsName reply.answer := by
    by_cases success : reply.rcode = rcodeSuccess
    · rcases truthful.success success with leads | leads
      · exact ((leads.own server.own).resolve_right answered).2
      · cases ((leads.own server.own).resolve_right answered).1
    · by_cases nameError : reply.rcode = rcodeNameError
      · obtain ⟨rest, leads⟩ := truthful.nameError nameError
        have more : reply.answer ++ rest ≠ [] := by simp [answered]
        cases ((leads.own server.own).resolve_right more).1
      · exact absurd (truthful.failure success nameError) answered
  -- all records of the answer are addresses, and the update writes them in their order
  have all_a : ∀ rr ∈ reply.answer, ∃ ip, rr.data = .a ip := by
    rintro ⟨owner, class_, ttl, data⟩ mem
    have typed := holds.typed _ mem
    cases data with
    | a ip => exact ⟨ip, rfl⟩
    | other type => exact absurd typed type.other.1
    | _ => cases typed
  have listed : ∀ ip, ip ∈ answerAddresses reply ↔ ∃ rr ∈ reply.answer, rr.data = .a ip := by
    intro ip
    rw [answerAddresses, List.mem_filterMap]
    refine exists_congr fun rr => and_congr_right fun mem => ?_
    obtain ⟨ip', is⟩ := all_a rr mem
    simp [RR.address?, is]
  have text {ip : String} (mem : ip ∈ answerAddresses reply) : env.lib.ipText ip = ip := by
    obtain ⟨rr, at_rr, is⟩ := (listed ip).mp mem
    exact plain nsName ip (is ▸ holds.held rr at_rr)
  intro id
  refine ⟨by simpa [nsAddressMsg] using some_there, ?_, ?_, ?_, ?_⟩
  · intro rr mem
    obtain ⟨ip, there, rfl⟩ := List.mem_map.mp mem
    obtain ⟨rr, at_rr, is⟩ := (listed ip).mp there
    dsimp only
    rw [text there, ← is]
    exact holds.held rr at_rr
  · intro rr mem
    obtain ⟨ip, _, rfl⟩ := List.mem_map.mp mem
    rfl
  · intro rr mem
    obtain ⟨ip, _, rfl⟩ := List.mem_map.mp mem
    rfl
  · intro whole d held typed
    obtain ⟨rr, mem, rfl⟩ := holds.complete whole d held typed
    obtain ⟨ip, is⟩ := all_a rr mem
    have there := (listed ip).mpr ⟨rr, mem, is⟩
    refine ⟨_, List.mem_map.mpr ⟨ip, there, rfl⟩, ?_⟩
    dsimp only
    rw [text there, is]

lemma childResult_true (sys : TrueSys env dns s)
    (plain : ∀ name ip, dns.data name (.a ip) → env.lib.ipText ip = ip) {i j : Nat}
    {x : String × List String} (found : s.childResult i j = some x) :
    Addresses env dns x.1 x.2 := by
  rw [Sys.childResult] at found
  split at found
  · rename_i i' nsName r reply at_j
    split at found
    · rename_i usable
      cases found
      obtain ⟨truthful, nested⟩ := sys.procs _ (List.mem_of_getElem? at_j)
      obtain ⟨server, asked⟩ := nested i' nsName rfl
      change Uncovered env r.originalQuestion → Truthful dns r.originalQuestion reply at truthful
      rw [show r.originalQuestion = ⟨nsName, typeA, classINET⟩ from asked] at truthful
      exact addresses_of_reply server plain (truthful server.uncovered) usable.2
    · cases found
  · cases found

lemma visitProc_true (roots : RootServers env dns) (sys : TrueSys env dns s) {i : Nat} {p : Proc}
    {inp : Input} (proc : TrueProc env dns p) (honest : HonestVisit env dns p.outcome inp) :
    TrueSys env dns (s.visitProc env i p inp) := by
  obtain ⟨visited, effects⟩ := visit_true (v := ⟨s.world, inp⟩) roots sys.cache honest proc.outcome
  refine ⟨perform_true sys.cache effects, fun q mem => ?_, sys.updates⟩
  rcases List.mem_or_eq_of_mem_set mem with old | rfl
  · exact sys.procs q old
  · refine ⟨visited, fun i' nsName child => ?_⟩
    obtain ⟨server, asked⟩ := proc.nested i' nsName child
    exact ⟨server, (CnameChain.visit_originalQuestion env p.outcome ⟨s.world, inp⟩).trans asked⟩

/-- The caller no longer waits for its nested resolutions, and keeps what they found. -/
lemma freed_true (sys : TrueSys env dns s)
    (plain : ∀ name ip, dns.data name (.a ip) → env.lib.ipText ip = ip) (i : Nat)
    (children : List Nat) :
    TrueSys env dns { s with
      procs := s.procs.map (orphan i)
      updates := s.updates ++ (children.filterMap (s.childResult i)).tail } := by
  refine ⟨sys.cache, fun q mem => ?_, ?_⟩
  · obtain ⟨p, mem', rfl⟩ := List.mem_map.mp mem
    refine ⟨?_, fun i' nsName child => ?_⟩
    · rw [orphan_outcome]
      exact (sys.procs p mem').outcome
    · rw [orphan_outcome]
      refine (sys.procs p mem').nested i' nsName ?_
      rw [orphan] at child
      split at child
      · split at child
        · cases child
        · exact child
      · exact child
  · intro x mem
    rcases List.mem_append.mp mem with old | new
    · exact sys.updates x old
    · obtain ⟨j, _, found⟩ := List.mem_filterMap.mp (List.mem_of_mem_tail new)
      exact childResult_true sys plain found

lemma start_sys (sys : TrueSys env dns s) {p : Proc} (proc : TrueProc env dns p) :
    TrueSys env dns { s with procs := s.procs ++ [p] } := by
  refine ⟨sys.cache, fun q mem => ?_, sys.updates⟩
  rcases List.mem_append.mp mem with old | new
  · exact sys.procs q old
  · rw [List.mem_singleton.mp new]
    exact proc

lemma initial_true (xdp : Option BpfMap) (wall mono : Nat) :
    TrueSys env dns (initial (World.initial xdp wall mono)) := by
  refine ⟨fun key it found => ?_, fun p mem => ?_, fun x mem => ?_⟩
  · simp [initial, World.initial, newCache] at found
  · cases mem
  · cases mem

theorem step_true (roots : RootServers env dns)
    (plain : ∀ name ip, dns.data name (.a ip) → env.lib.ipText ip = ip) (s : Sys) (e : Event)
    (sys : TrueSys env dns s) (honest : HonestEvent env dns s e) :
    TrueSys env dns (step env s e) := by
  cases e with
  | query request => exact start_sys sys ⟨start_true request 0, fun _ _ nested => by cases nested⟩
  | advance d => exact ⟨sys.cache, sys.procs, sys.updates⟩
  | visit i inp =>
    simp only [step]
    split
    · rename_i at_i
      exact visitProc_true roots sys (sys.procs _ (List.mem_of_getElem? at_i)) (honest _ at_i)
    · rename_i at_i
      exact visitProc_true roots sys (sys.procs _ (List.mem_of_getElem? at_i)) (honest _ at_i)
    · exact sys
  | spawn i id nsName =>
    simp only [step]
    split
    · rename_i r nsNames at_i
      split
      · rename_i named
        obtain ⟨_, _, _, servers⟩ := (sys.procs _ (List.mem_of_getElem? at_i)).outcome
        refine start_sys sys ⟨start_true _ _, fun i' name nested => ?_⟩
        cases nested
        exact ⟨servers nsNames rfl nsName named, rfl⟩
      · exact sys
    · exact sys
  | collect i children inp =>
    simp only [step]
    split
    · rename_i parent r nsNames at_i
      exact visitProc_true roots (freed_true sys plain i children)
        (sys.procs _ (List.mem_of_getElem? at_i)) (honest _ at_i)
    · exact sys
  | update k id =>
    simp only [step]
    split
    · rename_i nsName ips at_k
      have mem := List.mem_of_getElem? at_k
      refine ⟨perform_true sys.cache ?_, sys.procs, ?_⟩
      · intro e mem_e
        rw [List.mem_singleton.mp mem_e]
        intro key m ttl entry
        cases entry
        have holds := sys.updates _ mem id
        refine .of_entry ⟨fun _ => .inl (.records holds), fun none_said => ?_⟩ ?_
        · exact absurd none_said holds.nonempty
        · intro name mem'
          cases mem'
      · intro x mem'
        exact sys.updates x (List.mem_of_mem_eraseIdx mem')
    · exact sys

end

/-- Take any run from an empty cache in which every server that is asked is honest: any number of
resolutions, in any order, with any nested resolutions, failures, refusals and delays. A reply
that `Change` returns without an error, to a question that no local rule applies to, agrees with
the data of the DNS. With NOERROR its answer is the chain of aliases from the name of the question
to records of the type, to all of them if the servers cut no set, or to a name that has none.
With NXDOMAIN it is the beginning of a chain to a name that does not exist. With any other Rcode
it is empty. -/
theorem replies_agree_with_dns (env : Env) (dns : Dns) (xdp : Option BpfMap) (wall mono : Nat)
    (roots : RootServers env dns)
    (plain : ∀ name ip, dns.data name (.a ip) → env.lib.ipText ip = ip) (events : List Event)
    (honest : StepRuns.Along (step env) (HonestEvent env dns)
      (initial (World.initial xdp wall mono)) events) :
    ∀ p ∈ (runFrom env (World.initial xdp wall mono) events).procs, ∀ r reply,
      p.outcome = .done r (.ok reply) → Uncovered env r.originalQuestion →
        Truthful dns r.originalQuestion reply := by
  have sys : TrueSys env dns (runFrom env (World.initial xdp wall mono) events) := by
    refine StepRuns.past_invariant (step env) (P := fun _ => TrueSys env dns)
      (fun past e before now => step_true roots plain _ e before now) ?_ honest
    exact initial_true xdp wall mono
  intro p mem r reply ended uncovered
  have outcome := (sys.procs p mem).outcome
  rw [ended] at outcome
  exact outcome uncovered

section Witness

/-- Two names, one an alias of the other. -/
def twoNames : Dns where
  data name d := name = "a." ∧ d = .cname "b." ∨ name = "b." ∧ d = .a "192.0.2.1"
  missing name := name ≠ "a." ∧ name ≠ "b."
  whole := True
  not_missing := by
    rintro name d (⟨rfl, _⟩ | ⟨rfl, _⟩) absent
    · exact absent.1 rfl
    · exact absent.2 rfl

lemma uncovered_plainEnv (q : Question) : Uncovered plainEnv q := ⟨List.not_mem_nil, rfl, rfl⟩

lemma twoNames_roots : RootServers plainEnv twoNames := by
  intro nsName mem
  have other : ∀ nsName ∈ rootGlue.1.filterMap RR.nsName?, nsName ≠ "a." := by decide
  refine ⟨?_, uncovered_plainEnv _⟩
  rintro ⟨target, ⟨is, _⟩ | ⟨_, is⟩⟩
  · exact other nsName mem is
  · cases is

def aliasRR : RR := ⟨"a.", classINET, 60, .cname "b."⟩
def addressRR : RR := ⟨"b.", classINET, 60, .a "192.0.2.1"⟩

def aliasReply : Msg := { question := [⟨"a.", typeA, classINET⟩], answer := [aliasRR] }
def addressReply : Msg := { question := [⟨"b.", typeA, classINET⟩], answer := [addressRR] }

lemma positive_honest {name : String} {m : Msg} (success : m.rcode = rcodeSuccess)
    (typed : m.q0.qtype = typeA) (answered : m.answer ≠ []) (alone : m.ns = [])
    (leads : twoNames.Leads typeA name m.answer .records ∨
      twoNames.Leads typeA name m.answer .unsaid) :
    Honest twoNames (Server plainEnv twoNames) typeA name m where
  success _ _ := ⟨typed, fun _ => leads, fun none_said => absurd none_said answered⟩
  nameError is := by cases success.symm.trans is
  rooted := by simp [alone]
  servers := by simp [getNSNamesFromResponse, alone]

lemma aliasReply_honest : Honest twoNames (Server plainEnv twoNames) typeA "a." aliasReply := by
  refine positive_honest rfl rfl (by decide) rfl (.inr (.follow ?_ .unsaid))
  exact ⟨by decide, rfl, rfl, .inl ⟨rfl, rfl⟩, by decide⟩

lemma addressReply_honest : Honest twoNames (Server plainEnv twoNames) typeA "b." addressReply := by
  refine positive_honest rfl rfl (by decide) rfl (.inl (.records ⟨by decide, ?_, by decide,
    by decide, ?_⟩))
  · intro rr mem
    rw [List.mem_singleton.mp mem]
    exact .inr ⟨rfl, rfl⟩
  · rintro _ d (⟨same, _⟩ | ⟨_, rfl⟩) _
    · exact absurd same (by decide)
    · exact ⟨addressRR, List.mem_singleton.mpr rfl, rfl⟩

def untilAlias : List Event := .query (newQuery 7 "a." typeA) :: List.replicate 7 (.visit 0 .idle)

def untilAddress : List Event :=
  untilAlias ++ .visit 0 (.answered aliasReply) :: List.replicate 5 (.visit 0 .idle)

/-- The root server answers with the alias, and then with the address. -/
def aliasThenAddress : List Event :=
  untilAddress ++ .visit 0 (.answered addressReply) :: List.replicate 2 (.visit 0 .idle)

def startWorld : World := World.initial none 1 0

lemma idle_honest (s : Sys) (i : Nat) : HonestEvent plainEnv twoNames s (.visit i .idle) := by
  rintro p _ r source _ rep (answered | answered | answered)
  · cases answered
  · cases answered
  · cases answered

lemma idle_along (s : Sys) (n : Nat) :
    StepRuns.Along (step plainEnv) (HonestEvent plainEnv twoNames) s
      (List.replicate n (.visit 0 .idle)) := by
  induction n generalizing s with
  | zero => trivial
  | succ n ih => exact ⟨idle_honest s 0, ih _⟩

/-- An answer that is honest about the question that is asked then. -/
lemma answered_honest {s : Sys} {name : String} {m : Msg}
    (asks : (s.procs[0]?).map (fun p => (p.outcome.resolution.qname, p.outcome.resolution.qtype)) =
      some (name, typeA)) (honest : Honest twoNames (Server plainEnv twoNames) typeA name m) :
    HonestEvent plainEnv twoNames s (.visit 0 (.answered m)) := by
  rintro p at_0 r source waits rep (answered | answered | answered)
  · rw [at_0, Option.map_some, waits] at asks
    obtain ⟨named, typed⟩ := Prod.mk.inj (Option.some.inj asks)
    change r.qname = name at named
    change r.qtype = typeA at typed
    cases answered
    rw [named, typed]
    exact honest
  · cases answered
  · cases answered

/-- The answer section of the reply, if there is one. -/
def repliedWith : Outcome → Option (List RR)
  | .done _ (.ok reply) => some reply.answer
  | _ => none

lemma repliedWith_eq_some {o : Outcome} {rrs : List RR} (replied : repliedWith o = some rrs) :
    ∃ r reply, o = .done r (.ok reply) ∧ reply.answer = rrs := by
  rw [repliedWith.eq_def] at replied
  split at replied
  · exact ⟨_, _, rfl, Option.some.inj replied⟩
  · cases replied

theorem replies_agree_with_dns_alias :
    ∃ p ∈ (runFrom plainEnv startWorld aliasThenAddress).procs, ∃ r reply,
      p.outcome = .done r (.ok reply) ∧ reply.answer = [aliasRR, addressRR] ∧
        Truthful twoNames r.originalQuestion reply := by
  have honest : StepRuns.Along (step plainEnv) (HonestEvent plainEnv twoNames) (initial startWorld)
      aliasThenAddress := by
    rw [aliasThenAddress, untilAddress, StepRuns.along_append, StepRuns.along_append]
    refine ⟨⟨⟨trivial, idle_along _ 7⟩, answered_honest rfl aliasReply_honest, idle_along _ 5⟩,
      answered_honest rfl addressReply_honest, idle_along _ 2⟩
  have plain : ∀ name ip, twoNames.data name (.a ip) → plainEnv.lib.ipText ip = ip :=
    fun _ _ _ => rfl
  have truthful := replies_agree_with_dns plainEnv twoNames none 1 0 twoNames_roots plain
    aliasThenAddress honest
  have replied : (runFrom plainEnv startWorld aliasThenAddress).procs.map
      (fun p => repliedWith p.outcome) = [some [aliasRR, addressRR]] := rfl
  obtain ⟨p, mem, answer⟩ := List.mem_map.mp (replied ▸ List.mem_singleton.mpr rfl :
    some [aliasRR, addressRR] ∈ (runFrom plainEnv startWorld aliasThenAddress).procs.map
      fun p => repliedWith p.outcome)
  obtain ⟨r, reply, ended, is⟩ := repliedWith_eq_some answer
  exact ⟨p, mem, r, reply, ended, is, truthful p mem r reply ended (uncovered_plainEnv _)⟩

end Witness

end TruthfulReplies
