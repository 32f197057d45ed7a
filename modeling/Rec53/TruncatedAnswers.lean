import Rec53.ForwardChoice

/-!
# Truncated answers

A server that truncates its answer says so with the TC bit. Every record in the
answer of a reply is labelled here with the message it was taken from, and the labels
follow the records from round to round: records are added at the end of the answer,
the first CNAME record moves to the chain, and FORWARD_LOOKUP copies a message as a
whole. Only this last copy takes the TC bit along; on all other ways the records travel
without it.
-/

namespace TruncatedAnswers

open DnsMessage Platform DnsCache LocalConfig StateHandlers UpstreamQuery StateMachine
  ForwardChoice

/-- Where a record of the answer was taken from. -/
inductive Source where
  | hosts
  | forwarded (m : Msg)
  | cached (m : Msg)
  | fetched (m : Msg)
  deriving DecidableEq

/-- The source says that its answer is not complete. -/
def Source.truncated : Source → Bool
  | .hosts => false
  | .forwarded m | .cached m | .fetched m => m.truncated

/-- The record is one of the source's answer. -/
def Source.Holds (src : Source) (rr : RR) : Prop :=
  match src with
  | .hosts => True
  | .forwarded m | .cached m | .fetched m => rr ∈ m.answer

/-- Records of the cache and of the iterative path, or of the hosts table. -/
def Source.Piecewise (src : Source) : Prop := ∀ m, src ≠ .forwarded m

/-- What a visit reads records from: the copy in the cache, or the message that was
received last. -/
def visitSource (env : Env) (o : Outcome) (v : Visit) : Source :=
  match o with
  | .next r =>
    match r.st with
    | .forwardLookup =>
      match (receivedMsgs (visitEffects env o v).1).getLast? with
      | some m => .forwarded m
      | none => .hosts
    | .cacheLookup =>
      match getCacheCopyByType v.world r.qname r.qtype with
      | some m => .cached m
      | none => .hosts
    | _ => .hosts
  | .await _ _ =>
    match (receivedMsgs (visitEffects env o v).1).getLast? with
    | some m => .fetched m
    | none => .hosts
  | .done _ _ => .hosts

/-- The records of the answer and of the CNAME chain with their sources. -/
structure Labels where
  answer : List (RR × Source)
  chain : List (RR × Source)

/-- Records that were there keep their source and new ones get the one of the visit. -/
def relabel (src : Source) (old : List (RR × Source)) (new : List RR) : List (RR × Source) :=
  old ++ (new.drop old.length).map (·, src)

/-- The labels after a visit; a chain that has grown took the first CNAME record. -/
def Labels.next (t : Labels) (src : Source) (r r' : Resolution) : Labels :=
  if r'.cnameChain.length = r.cnameChain.length then
    { t with answer := relabel src t.answer r'.response.answer }
  else ⟨[], t.chain ++ (t.answer.find? fun p => p.1.isCNAME).toList⟩

def follow (env : Env) (s : Outcome × Labels) (v : Visit) : Outcome × Labels :=
  (visit env s.1 v, s.2.next (visitSource env s.1 v) s.1.resolution (visit env s.1 v).resolution)

/-- A resolution with the sources of its records. -/
def traced (env : Env) (request : Msg) (depth : Nat) (visits : List Visit) : Outcome × Labels :=
  StepRuns.run (follow env) (.next (start request depth), ⟨[], []⟩) visits

/-- The records in the answer of the reply with their sources. Replies that RETURN_RESP
does not build have no answer. -/
def replySources (env : Env) (request : Msg) (depth : Nat) (visits : List Visit) :
    List (RR × Source) :=
  match traced env request depth visits with
  | (.done r (.ok _), t) => if r.st = .returnResp then t.chain ++ t.answer else []
  | _ => []

/-! ### What one visit does to the answer -/

/-- The ways in which a visit changes answer, chain and TC bit. -/
inductive Flow (src : Source) (r r' : Resolution) : Prop where
  | added (new : List RR) (held : ∀ rr ∈ new, src.Holds rr ∧ src.Piecewise)
      (answer : r'.response.answer = r.response.answer ++ new)
      (chain : r'.cnameChain = r.cnameChain)
      (bit : r'.response.truncated = r.response.truncated)
  | hopped (cname : RR) (first : r.response.answer.find? RR.isCNAME = some cname)
      (answer : r'.response.answer = []) (chain : r'.cnameChain = r.cnameChain ++ [cname])
      (bit : r'.response.truncated = r.response.truncated)
  | copied (m : Msg) (source : src = .forwarded m) (answer : r'.response.answer = m.answer)
      (chain : r'.cnameChain = r.cnameChain) (bit : r'.response.truncated = m.truncated)

lemma Flow.kept {src : Source} {r r' : Resolution}
    (answer : r'.response.answer = r.response.answer) (chain : r'.cnameChain = r.cnameChain)
    (bit : r'.response.truncated = r.response.truncated) : Flow src r r' :=
  .added [] (fun _ mem => (by cases mem)) (by rw [answer, List.append_nil]) chain bit

lemma goto_flow {src : Source} {r r' : Resolution} (flow : Flow src r r') (st : StateKind) :
    Flow src r (r'.goto st).resolution := by
  rcases r'.goto_eq st with ⟨_, next⟩ | ⟨_, limit⟩
  · rw [next]
    cases flow with
    | added new held answer chain bit => exact .added new held answer chain bit
    | hopped cname first answer chain bit => exact .hopped cname first answer chain bit
    | copied m source answer chain bit => exact .copied m source answer chain bit
  · rw [limit]
    exact flow

lemma goto_kept (src : Source) (r : Resolution) (st : StateKind) :
    Flow src r (r.goto st).resolution := goto_flow (.kept rfl rfl rfl) st

lemma receivedMsgs_exchanges (q : Question) (ups : List String) :
    receivedMsgs (exchanges q ups) = [] := by
  apply List.filterMap_eq_nil_iff.mpr
  intro e mem
  obtain ⟨_, _, rfl⟩ := List.mem_map.mp mem
  rfl

/-- FORWARD_LOOKUP leaves the response alone or copies the message that was received. -/
lemma visit_forward (env : Env) (v : Visit) (r : Resolution) (here : r.st = .forwardLookup) :
    (visitSource env (.next r) v = .hosts ∧
      (visit env (.next r) v).resolution.response = r.response ∧
      (visit env (.next r) v).resolution.cnameChain = r.cnameChain) ∨
    ∃ resp, visitSource env (.next r) v = .forwarded resp ∧ visit env (.next r) v =
      { r with response := copyForwarded r.request r.response resp }.goto .returnResp := by
  have round : visitEffects env (.next r) v = forwardRound env v.input r := by
    simp only [visitEffects, iterate, here]
  have source : visitSource env (.next r) v =
      match (receivedMsgs (forwardRound env v.input r).1).getLast? with
      | some m => .forwarded m
      | none => .hosts := by
    simp only [visitSource, here, round]
  rw [visit, round, source, forwardRound, forwardLookupHandle]
  cases matchedZone env r.request.q0.name with
  | none =>
    refine .inl ⟨rfl, ?_, (goto_sameQuestion r .cacheLookup).chain⟩
    rcases r.goto_eq .cacheLookup with ⟨_, next⟩ | ⟨_, limit⟩
    · exact congrArg (fun o => o.resolution.response) next
    · exact congrArg (fun o => o.resolution.response) limit
  | some zone =>
    by_cases admitted : v.input.admitted = true
    · simp only [if_pos admitted]
      have tried := tryUpstreams_tried v.input r.request r.response zone.upstreams
      generalize tryUpstreams v.input r.request r.response 0 zone.upstreams = result at tried
      cases tried with
      | answered i resp there before answer =>
        have last : (receivedMsgs (exchanges r.request.q0 (zone.upstreams.take (i + 1)) ++
            [.received resp])).getLast? = some resp := by
          rw [receivedMsgs_append, receivedMsgs_exchanges]
          rfl
        simp only [last]
        exact .inr ⟨resp, rfl, rfl⟩
      | failed i before stopped =>
        rw [receivedMsgs_exchanges]
        exact .inl ⟨rfl, rfl, rfl⟩
    · simp only [if_neg admitted]
      exact .inl ⟨rfl, rfl, rfl⟩

/-- The second half of QUERY_UPSTREAM adds the answer of the message it accepts. -/
lemma resume_flow (env : Env) (v : Visit) (r : Resolution) (source : IPSource) :
    Flow (visitSource env (.await r source) v) r (visit env (.await r source) v).resolution := by
  have resumed := resume_resumed env v.input r source
  change Flow (match (receivedMsgs (resume env v.input r source).1).getLast? with
    | some m => .fetched m
    | none => .hosts) r (resume env v.input r source).2.resolution
  generalize (resume env v.input r source).1 = effects,
    (resume env v.input r source).2 = o' at resumed ⊢
  cases resumed with
  | accepted earlier m addr before bad success echoes readOnly received sent =>
    have last : (receivedMsgs (before ++ cacheEffects m)).getLast? = some m := by
      rw [receivedMsgs_append, cacheEffects_receivedMsgs, List.append_nil, received]
      exact List.getLast?_concat
    rw [last]
    apply goto_flow
    refine .added m.answer (fun rr mem => ⟨mem, fun _ => Source.noConfusion⟩) ?_ rfl ?_
    · split
      · rfl
      · rfl
    · split
      · rfl
      · rfl
  | nxdomain =>
    apply goto_flow
    exact .kept rfl rfl rfl
  | noServer | failed | rejected => exact .kept rfl rfl rfl

lemma lookupNSCache_frame (w : World) (request response : Msg) :
    (lookupNSCacheHandle w request response).answer = response.answer ∧
      (lookupNSCacheHandle w request response).truncated = response.truncated := by
  rw [lookupNSCacheHandle]
  split
  · exact ⟨rfl, rfl⟩
  · exact ⟨rfl, rfl⟩

theorem visit_flow (env : Env) (o : Outcome) (v : Visit) :
    Flow (visitSource env o v) o.resolution (visit env o v).resolution := by
  cases o with
  | done r result => exact .kept rfl rfl rfl
  | await r source => exact resume_flow env v r source
  | next r =>
    by_cases forward : r.st = .forwardLookup
    · rcases visit_forward env v r forward with ⟨_, response, chain⟩ | ⟨resp, source, copied⟩
      · exact .kept (congrArg Msg.answer response) chain (congrArg Msg.truncated response)
      · rw [source, copied]
        apply goto_flow
        exact .copied resp rfl rfl rfl rfl
    have moved := iterate_moved env v.world v.input r
    change Flow _ r (iterate env v.world v.input r).2.resolution
    generalize (iterate env v.world v.input r).1 = effects,
      (iterate env v.world v.input r).2 = o' at moved
    cases moved with
    | forwardHit here | forwardMiss here | forwardEnd here => exact absurd here forward
    | hostsHit here answer =>
      have source : visitSource env (.next r) v = .hosts := by simp only [visitSource, here]
      rw [source]
      apply goto_flow
      exact .added answer (fun rr _ => ⟨trivial, fun _ => Source.noConfusion⟩) rfl rfl rfl
    | cacheHit here cached found positive =>
      have source : visitSource env (.next r) v = .cached cached := by
        simp only [visitSource, here, found]
      rw [source]
      apply goto_flow
      exact .added cached.answer (fun rr mem => ⟨mem, fun _ => Source.noConfusion⟩) rfl rfl rfl
    | cname here cname classified first named fresh =>
      apply goto_flow
      refine .hopped cname first ?_ rfl ?_
      · simp only [followTo]
        split
        · rfl
        · rfl
      · simp only [followTo]
        split
        · rfl
        · rfl
    | formerr | cacheRefused | cnameCycle | cancelled | query | finish => exact .kept rfl rfl rfl
    | nsCache =>
      apply goto_flow
      obtain ⟨answer, bit⟩ := lookupNSCache_frame v.world r.request r.response
      exact .kept answer rfl bit
    | init | cacheNegative | glueCleared =>
      apply goto_flow
      exact .kept rfl rfl rfl
    | _ => exact goto_kept _ r _

/-! ### What a run does to the labels -/

/-- Nothing is left to do but to hand out the response. -/
def Over (o : Outcome) : Prop :=
  (∃ r, o = .next r ∧ r.st = .returnResp) ∨ ∃ r result, o = .done r result

lemma goto_over (r : Resolution) : Over (r.goto .returnResp) := by
  rcases r.goto_eq .returnResp with ⟨_, next⟩ | ⟨_, limit⟩
  · exact .inl ⟨_, next, rfl⟩
  · exact .inr ⟨_, _, limit⟩

/-- A visit to a resolution that is over changes no record. -/
lemma Over.visit {o : Outcome} (ended : Over o) (env : Env) (v : Visit) :
    ∃ result, StateMachine.visit env o v = .done o.resolution result := by
  rcases ended with ⟨r, rfl, here⟩ | ⟨r, result, rfl⟩
  · refine ⟨.ok (buildFinalResponse r), ?_⟩
    change (iterate env v.world v.input r).2 = _
    simp only [iterate, here]
    rfl
  · exact ⟨result, rfl⟩

/-- Before the first lookup in the cache there are no records. -/
def Fresh (o : Outcome) : Prop :=
  ∀ r, o = .next r → r.st = .stateInit ∨ r.st = .hostsLookup ∨ r.st = .forwardLookup →
    r.response.answer = [] ∧ r.cnameChain = []

/-- The TC bit of the response and the sources of its records: it was copied with all
of them, or it is not set and none of them was forwarded. -/
inductive Bit (o : Outcome) (t : Labels) : Prop where
  | piecewise (bit : o.resolution.response.truncated = false)
      (sources : ∀ p ∈ t.chain ++ t.answer, p.2.Piecewise)
  | copied (m : Msg) (bit : o.resolution.response.truncated = m.truncated)
      (sources : ∀ p ∈ t.chain ++ t.answer, p.2 = .forwarded m) (ended : Over o)

structure Traced (s : Outcome × Labels) : Prop where
  answer : s.2.answer.map Prod.fst = s.1.resolution.response.answer
  chain : s.2.chain.map Prod.fst = s.1.resolution.cnameChain
  held : ∀ p ∈ s.2.chain ++ s.2.answer, p.2.Holds p.1
  fresh : Fresh s.1
  bit : Bit s.1 s.2

lemma goto_fresh (r : Resolution) (st : StateKind)
    (placed : (st ≠ .stateInit ∧ st ≠ .hostsLookup ∧ st ≠ .forwardLookup) ∨
      (r.response.answer = [] ∧ r.cnameChain = [])) : Fresh (r.goto st) := by
  intro r' is early
  rw [goto_eq_next is] at early ⊢
  rcases placed with ⟨not_init, not_hosts, not_forward⟩ | empty
  · rcases early with h | h | h
    · exact absurd h not_init
    · exact absurd h not_hosts
    · exact absurd h not_forward
  · exact empty

lemma visit_fresh (env : Env) (o : Outcome) (v : Visit) (fresh : Fresh o) :
    Fresh (visit env o v) := by
  have visited := visit_visited env o v
  generalize visit env o v = o', (visitEffects env o v).1 = effects at visited
  cases visited with
  | ended r result => exact fresh
  | resumed r source effects o' resumed =>
    cases resumed with
    | accepted | nxdomain => exact goto_fresh _ _ (.inl (by decide))
    | noServer | failed | rejected => intro r' is; cases is
  | round r effects o' moved =>
    cases moved with
    | init here => exact goto_fresh _ _ (.inr (fresh r rfl (.inl here)))
    | hostsMiss here => exact goto_fresh _ _ (.inr (fresh r rfl (.inr (.inl here))))
    | formerr | forwardEnd | cacheRefused | cnameCycle | cancelled | query | finish =>
      intro r' is
      cases is
    | _ => exact goto_fresh _ _ (.inl (by decide))

lemma erase_label (src : Source) (rrs : List RR) : (rrs.map (·, src)).map Prod.fst = rrs := by
  rw [List.map_map]
  exact List.map_id rrs

lemma relabel_append {src : Source} {old : List (RR × Source)} {answer new : List RR}
    (erased : old.map Prod.fst = answer) :
    relabel src old (answer ++ new) = old ++ new.map (·, src) := by
  have same : answer.length = old.length := by rw [← erased, List.length_map]
  rw [relabel, ← same, List.drop_left]

/-- The first CNAME record with its source. -/
lemma find_labelled {old : List (RR × Source)} {answer : List RR} {cname : RR}
    (erased : old.map Prod.fst = answer) (first : answer.find? RR.isCNAME = some cname) :
    ∃ src, old.find? (fun p => p.1.isCNAME) = some (cname, src) ∧ (cname, src) ∈ old := by
  rw [← erased, List.find?_map] at first
  obtain ⟨⟨_, src⟩, found, rfl⟩ := Option.map_eq_some_iff.mp first
  exact ⟨src, found, List.mem_of_find?_eq_some found⟩

lemma next_of_chain {t : Labels} {src : Source} {r r' : Resolution}
    (chain : r'.cnameChain = r.cnameChain) :
    t.next src r r' = { t with answer := relabel src t.answer r'.response.answer } := by
  rw [Labels.next, if_pos (congrArg List.length chain)]

lemma next_of_hop {t : Labels} {src : Source} {r r' : Resolution} {cname : RR}
    (chain : r'.cnameChain = r.cnameChain ++ [cname]) :
    t.next src r r' = ⟨[], t.chain ++ (t.answer.find? fun p => p.1.isCNAME).toList⟩ := by
  rw [Labels.next, if_neg]
  rw [chain, List.length_append]
  simp

/-- Only FORWARD_LOOKUP reads a forwarded message, and it is then over. -/
lemma forwarded_visit {env : Env} {o : Outcome} {v : Visit} {m : Msg}
    (source : visitSource env o v = .forwarded m) :
    (∃ r, o = .next r ∧ r.st = .forwardLookup) ∧ Over (visit env o v) := by
  cases o with
  | done r result => cases source
  | await r ips =>
    simp only [visitSource] at source
    split at source
    · cases source
    · cases source
  | next r =>
    by_cases here : r.st = .forwardLookup
    · refine ⟨⟨r, rfl, here⟩, ?_⟩
      rcases visit_forward env v r here with ⟨local_rules, _⟩ | ⟨resp, _, copied⟩
      · rw [local_rules] at source
        cases source
      · rw [copied]
        exact goto_over _
    · simp only [visitSource] at source
      split at source
      · exact absurd ‹_› here
      · split at source
        · cases source
        · cases source
      · cases source

section Step

variable {env : Env} {o : Outcome} {t : Labels} {v : Visit} (before : Traced (o, t))

include before

lemma added_traced {new : List RR}
    (held : ∀ rr ∈ new, (visitSource env o v).Holds rr ∧ (visitSource env o v).Piecewise)
    (answer : (visit env o v).resolution.response.answer = o.resolution.response.answer ++ new)
    (chain : (visit env o v).resolution.cnameChain = o.resolution.cnameChain)
    (bit : (visit env o v).resolution.response.truncated = o.resolution.response.truncated) :
    Traced (follow env (o, t) v) := by
  have labels : t.next (visitSource env o v) o.resolution (visit env o v).resolution =
      { t with answer := t.answer ++ new.map (·, visitSource env o v) } := by
    rw [next_of_chain chain, answer, relabel_append before.answer]
  have cases_of {p : RR × Source}
      (mem : p ∈ t.chain ++ (t.answer ++ new.map (·, visitSource env o v))) :
      p ∈ t.chain ++ t.answer ∨ p.2 = visitSource env o v ∧ p.1 ∈ new := by
    rw [← List.append_assoc, List.mem_append] at mem
    rcases mem with old | added
    · exact .inl old
    · obtain ⟨rr, mem', rfl⟩ := List.mem_map.mp added
      exact .inr ⟨rfl, mem'⟩
  rw [follow, labels]
  refine ⟨?answer, ?chain, ?held, visit_fresh env o v before.fresh, ?bit⟩
  case answer =>
    rw [List.map_append, before.answer, erase_label, answer]
  case chain => exact before.chain.trans chain.symm
  case held =>
    intro p mem
    rcases cases_of mem with old | ⟨source, added⟩
    · exact before.held p old
    · rw [source]
      exact (held p.1 added).1
  case bit =>
    cases before.bit with
    | piecewise clear sources =>
      refine .piecewise (bit.trans clear) ?_
      intro p mem
      rcases cases_of mem with old | ⟨source, added⟩
      · exact sources p old
      · rw [source]
        exact (held p.1 added).2
    | copied m copied sources finished =>
      obtain ⟨result, ended⟩ := finished.visit env v
      rw [ended] at answer
      obtain rfl : new = [] := List.append_right_eq_self.mp answer.symm
      refine .copied m (bit.trans copied) ?_ (.inr ⟨_, result, ended⟩)
      intro p mem
      rcases cases_of mem with old | ⟨_, added⟩
      · exact sources p old
      · cases added

lemma hopped_traced {cname : RR}
    (first : o.resolution.response.answer.find? RR.isCNAME = some cname)
    (answer : (visit env o v).resolution.response.answer = [])
    (chain : (visit env o v).resolution.cnameChain = o.resolution.cnameChain ++ [cname])
    (bit : (visit env o v).resolution.response.truncated = o.resolution.response.truncated) :
    Traced (follow env (o, t) v) := by
  obtain ⟨src, found, taken⟩ := find_labelled before.answer first
  have labels : t.next (visitSource env o v) o.resolution (visit env o v).resolution =
      ⟨[], t.chain ++ [(cname, src)]⟩ := by
    rw [next_of_hop chain, found]
    rfl
  have was_there {p : RR × Source} (mem : p ∈ t.chain ++ [(cname, src)] ++ []) :
      p ∈ t.chain ++ t.answer := by
    rw [List.append_nil, List.mem_append] at mem
    rcases mem with old | last
    · exact List.mem_append_left _ old
    · rw [List.mem_singleton.mp last]
      exact List.mem_append_right _ taken
  rw [follow, labels]
  refine ⟨answer.symm, ?chain, ?held, visit_fresh env o v before.fresh, ?bit⟩
  case chain =>
    rw [List.map_append, before.chain, chain]
    rfl
  case held =>
    intro p mem
    exact before.held p (was_there mem)
  case bit =>
    cases before.bit with
    | piecewise clear sources =>
      exact .piecewise (bit.trans clear) fun p mem => sources p (was_there mem)
    | copied m copied sources finished =>
      obtain ⟨result, ended⟩ := finished.visit env v
      rw [ended] at chain
      exact absurd (List.append_right_eq_self.mp chain.symm) (List.cons_ne_nil _ _)

lemma copied_traced {m : Msg} (source : visitSource env o v = .forwarded m)
    (answer : (visit env o v).resolution.response.answer = m.answer)
    (chain : (visit env o v).resolution.cnameChain = o.resolution.cnameChain)
    (bit : (visit env o v).resolution.response.truncated = m.truncated) :
    Traced (follow env (o, t) v) := by
  obtain ⟨⟨r, rfl, here⟩, finished⟩ := forwarded_visit source
  obtain ⟨no_answer, no_chain⟩ := before.fresh r rfl (.inr (.inr here))
  have answer_none : t.answer = [] := List.map_eq_nil_iff.mp (before.answer.trans no_answer)
  have chain_none : t.chain = [] := List.map_eq_nil_iff.mp (before.chain.trans no_chain)
  have labels : t.next (visitSource env (.next r) v) (Outcome.next r).resolution
      (visit env (.next r) v).resolution = ⟨m.answer.map (·, .forwarded m), []⟩ := by
    rw [next_of_chain chain, answer, answer_none, chain_none, source]
    rfl
  have all {p : RR × Source} (mem : p ∈ [] ++ m.answer.map (·, Source.forwarded m)) :
      p.2 = .forwarded m ∧ p.1 ∈ m.answer := by
    obtain ⟨rr, mem', rfl⟩ := List.mem_map.mp mem
    exact ⟨rfl, mem'⟩
  rw [follow, labels]
  refine ⟨?answer, ?chain, ?held, visit_fresh env _ v before.fresh, ?bit⟩
  case answer =>
    rw [answer]
    exact erase_label _ _
  case chain =>
    rw [chain]
    exact no_chain.symm
  case held =>
    intro p mem
    rw [(all mem).1]
    exact (all mem).2
  case bit => exact .copied m bit (fun p mem => (all mem).1) finished

/-- A visit keeps the labels in step with the records. -/
theorem follow_traced : Traced (follow env (o, t) v) := by
  cases visit_flow env o v with
  | added new held answer chain bit => exact added_traced before held answer chain bit
  | hopped cname first answer chain bit => exact hopped_traced before first answer chain bit
  | copied m source answer chain bit => exact copied_traced before source answer chain bit

end Step

/-! ### Replies -/

/-- A reply that RETURN_RESP does not build has no answer. -/
def Unanswered (o : Outcome) : Prop :=
  ∀ r reply, o = .done r (.ok reply) → r.st ≠ .returnResp → reply.answer = []

lemma visit_unanswered (env : Env) (o : Outcome) (v : Visit) (fresh : Fresh o)
    (unanswered : Unanswered o) : Unanswered (visit env o v) := by
  intro r reply ended elsewhere
  obtain ⟨effects, o', visited, result⟩ := visited_of_visit ended
  cases visited with
  | ended r' result' => exact unanswered r reply result elsewhere
  | resumed r' source effects o' resumed =>
    cases resumed with
    | accepted | nxdomain => exact absurd result (goto_ne_done_ok _ _ _ _)
    | failed | rejected => cases result
    | noServer =>
      cases result
      rfl
  | round r' effects o' moved =>
    cases moved with
    | formerr here =>
      cases result
      exact (fresh r' rfl (.inl here)).1
    | forwardEnd | cacheRefused =>
      cases result
      rfl
    | finish here =>
      cases result
      exact absurd here elsewhere
    | cnameCycle | cancelled | query => cases result
    | _ => exact absurd result (goto_ne_done_ok _ _ _ _)

lemma follow_fst (env : Env) (s : Outcome × Labels) (visits : List Visit) :
    (StepRuns.run (follow env) s visits).1 = StepRuns.run (visit env) s.1 visits := by
  induction visits generalizing s with
  | nil => rfl
  | cons v rest ih => exact ih (follow env s v)

theorem traced_fst (env : Env) (request : Msg) (depth : Nat) (visits : List Visit) :
    (traced env request depth visits).1 = resolve env request depth visits :=
  follow_fst env _ visits

theorem run_traced (env : Env) (request : Msg) (depth : Nat) (visits : List Visit) :
    Traced (traced env request depth visits) ∧ Unanswered (traced env request depth visits).1 := by
  refine StepRuns.run_preserves (follow env) (P := fun s => Traced s ∧ Unanswered s.1) ?_ ?_ visits
  · rintro ⟨o, t⟩ v ⟨before, unanswered⟩
    exact ⟨follow_traced before, visit_unanswered env o v before.fresh unanswered⟩
  · refine ⟨⟨rfl, rfl, fun p mem => (by cases mem), ?_, .piecewise rfl fun p mem => (by cases mem)⟩,
      fun r reply ended => (by cases ended)⟩
    intro r is _
    cases is
    exact ⟨rfl, rfl⟩

/-- The labelled records are the answer of the reply, and the TC bit of a reply with
an answer is that of the message it was copied from, or not set. -/
lemma replySources_spec {env : Env} {request : Msg} {depth : Nat} {visits : List Visit}
    {r : Resolution} {reply : Msg}
    (ended : resolve env request depth visits = .done r (.ok reply)) :
    (replySources env request depth visits).map Prod.fst = reply.answer ∧
      (∀ p ∈ replySources env request depth visits, p.2.Holds p.1) ∧
      ((∃ m, reply.truncated = m.truncated ∧
          ∀ p ∈ replySources env request depth visits, p.2 = .forwarded m) ∨
        reply.truncated = false ∧
          ∀ p ∈ replySources env request depth visits, p.2.Piecewise) := by
  obtain ⟨run, unanswered⟩ := run_traced env request depth visits
  have finished := resolve_finished env request depth visits r reply ended
  have outcome := (traced_fst env request depth visits).trans ended
  rw [replySources]
  generalize traced env request depth visits = s at run unanswered outcome
  obtain ⟨o, t⟩ := s
  cases outcome
  by_cases here : r.st = .returnResp
  · simp only [if_pos here]
    have built := finished here
    refine ⟨?_, run.held, ?_⟩
    · rw [built, List.map_append, run.chain, run.answer]
      rfl
    · have bit : reply.truncated = r.response.truncated := by
        rw [built]
        rfl
      cases run.bit with
      | piecewise clear sources => exact .inr ⟨bit.trans clear, sources⟩
      | copied m copied sources => exact .inl ⟨m, bit.trans copied, sources⟩
  · simp only [if_neg here]
    refine ⟨(unanswered r reply rfl here).symm, fun p mem => (by cases mem), .inl ⟨reply, rfl, ?_⟩⟩
    intro p mem
    cases mem

/-! ### What was in the cache -/

lemma next_sources {t : Labels} {src : Source} {r r' : Resolution} {p : RR × Source}
    (mem : p ∈ (t.next src r r').chain ++ (t.next src r r').answer) :
    p ∈ t.chain ++ t.answer ∨ p.2 = src := by
  rw [Labels.next] at mem
  split at mem
  · rw [relabel, ← List.append_assoc, List.mem_append] at mem
    rcases mem with old | new
    · exact .inl old
    · obtain ⟨rr, _, rfl⟩ := List.mem_map.mp new
      exact .inr rfl
  · rw [List.append_nil, List.mem_append] at mem
    rcases mem with old | moved
    · exact .inl (List.mem_append_left _ old)
    · exact .inl (List.mem_append_right _ (List.mem_of_find?_eq_some (Option.mem_toList.mp moved)))

/-- Every record has the source of a visit. -/
theorem run_sources (env : Env) (request : Msg) (depth : Nat) (visits : List Visit) :
    ∀ p ∈ (traced env request depth visits).2.chain ++ (traced env request depth visits).2.answer,
      ∃ v ∈ visits, ∃ o, p.2 = visitSource env o v := by
  refine StepRuns.past_preserves (follow env) (P := fun visits s =>
    ∀ p ∈ s.2.chain ++ s.2.answer, ∃ v ∈ visits, ∃ o, p.2 = visitSource env o v) ?_ ?_ visits
  · rintro past ⟨o, t⟩ v all p mem
    rcases next_sources mem with old | is
    · obtain ⟨v', earlier, o', is⟩ := all p old
      exact ⟨v', List.mem_append_left _ earlier, o', is⟩
    · exact ⟨v, List.mem_append_right _ List.mem_cons_self, o, is⟩
  · intro p mem
    cases mem

lemma cached_of_visitSource {env : Env} {o : Outcome} {v : Visit} {m : Msg}
    (source : visitSource env o v = .cached m) :
    ∃ name qtype, getCacheCopyByType v.world name qtype = some m := by
  cases o with
  | done r result => cases source
  | await r ips =>
    simp only [visitSource] at source
    split at source
    · cases source
    · cases source
  | next r =>
    simp only [visitSource] at source
    split at source
    · split at source
      · cases source
      · cases source
    · split at source
      · rename_i found
        cases source
        exact ⟨_, _, found⟩
      · cases source
    · cases source

/-- The answer of an accepted message, with its TC bit, or a list of name-server addresses that
the resolver has built, in every run of the whole system that leads to this cache. -/
def FromUpstream (env : Env) (w : World) (m : Msg) : Prop :=
  ∀ xdp wall mono events,
    (ResolverSystem.runFrom env (World.initial xdp wall mono) events).world = w →
    (∃ t m', Provenance.Accepted
        (ResolverSystem.runFrom env (World.initial xdp wall mono) events).log t m' ∧
      m.answer = m'.answer ∧ m.truncated = m'.truncated) ∨
    ∃ id nsName ips, m.answer = (nsAddressMsg env.lib id nsName ips).answer ∧ m.truncated = false

theorem cached_answer_origin {env : Env} {w : World} {name : String} {qtype : Nat} {m : Msg}
    (read : getCacheCopyByType w name qtype = some m) (positive : m.answer ≠ []) :
    FromUpstream env w m := by
  rintro xdp wall mono events rfl
  have accounted := Provenance.run_accounted env xdp wall mono events
  obtain ⟨it, found, _, rfl⟩ := getCacheCopy_eq_some.mp read
  obtain ⟨⟨t, e⟩, logged, msg, ttl, entry, rfl⟩ := accounted.items _ it found
  have stored : (Provenance.entryOf env.lib e).map (fun entry => entry.2.1) = some msg :=
    congrArg (Option.map fun entry => entry.2.1) entry
  cases accounted.origins (t, e) logged with
  | readOnly _ quiet =>
    rw [Provenance.entryOf_of_not_writes quiet] at stored
    cases stored
  | answer m' _ _ accepted =>
    cases stored
    exact .inl ⟨t, m', accepted, rfl, rfl⟩
  | delegation m' _ _ accepted =>
    cases stored
    exact .inl ⟨t, m', accepted, rfl, rfl⟩
  | negative _ _ _ _ empty =>
    cases stored
    exact absurd empty positive
  | addresses id nsName ips =>
    cases stored
    exact .inr ⟨id, nsName, ips, rfl, rfl⟩

lemma mem_replySources {env : Env} {request : Msg} {depth : Nat} {visits : List Visit}
    {p : RR × Source} (mem : p ∈ replySources env request depth visits) :
    p ∈ (traced env request depth visits).2.chain ++
      (traced env request depth visits).2.answer := by
  rw [replySources] at mem
  split at mem
  · rename_i is
    rw [is]
    split at mem
    · exact mem
    · cases mem
  · cases mem

/-- A record from the cache was in the cache that a visit saw, and came there from upstream. -/
lemma replySources_cached {env : Env} {request : Msg} {depth : Nat} {visits : List Visit}
    {p : RR × Source} {m : Msg} (mem : p ∈ replySources env request depth visits)
    (held : p.2.Holds p.1) (cached : p.2 = .cached m) :
    ∃ v ∈ visits, (∃ name qtype, getCacheCopyByType v.world name qtype = some m) ∧
      FromUpstream env v.world m := by
  obtain ⟨v, visited, o, is⟩ := run_sources env request depth visits p (mem_replySources mem)
  obtain ⟨name, qtype, read⟩ := cached_of_visitSource (is.symm.trans cached)
  rw [cached] at held
  exact ⟨v, visited, ⟨name, qtype, read⟩, cached_answer_origin read (List.ne_nil_of_mem held)⟩

theorem truncation_reported_iff (env : Env) (request : Msg) (depth : Nat) (visits : List Visit)
    (r : Resolution) (reply : Msg)
    (ended : resolve env request depth visits = .done r (.ok reply)) :
    (replySources env request depth visits).map Prod.fst = reply.answer ∧
    (∀ p ∈ replySources env request depth visits, p.2.Holds p.1) ∧
    (∀ p ∈ replySources env request depth visits, ∀ m, p.2 = .cached m →
      ∃ v ∈ visits, (∃ name qtype, getCacheCopyByType v.world name qtype = some m) ∧
        FromUpstream env v.world m) ∧
    (((∃ p ∈ replySources env request depth visits, p.2.truncated = true) →
        reply.truncated = true) ↔
      ∀ p ∈ replySources env request depth visits, ∀ m,
        p.2 = .cached m ∨ p.2 = .fetched m → m.truncated = false) := by
  obtain ⟨erased, held, bit⟩ := replySources_spec ended
  refine ⟨erased, held, fun p mem m => replySources_cached mem (held p mem), ?_⟩
  rcases bit with ⟨m₀, copied, sources⟩ | ⟨clear, sources⟩
  · constructor
    · intro _ p mem m piecewise
      rw [sources p mem] at piecewise
      rcases piecewise with is | is
      · cases is
      · cases is
    · rintro _ ⟨p, mem, cut⟩
      rw [sources p mem] at cut
      exact copied.trans cut
  · rw [clear]
    constructor
    · intro law p mem m piecewise
      by_contra cut
      have source_cut : p.2.truncated = true := by
        rcases piecewise with is | is
        · rw [is]
          exact Bool.not_eq_false _ ▸ cut
        · rw [is]
          exact Bool.not_eq_false _ ▸ cut
      cases law ⟨p, mem, source_cut⟩
    · rintro complete ⟨p, mem, cut⟩
      cases source : p.2 with
      | hosts =>
        rw [source] at cut
        cases cut
      | forwarded m => exact absurd source (sources p mem m)
      | cached m =>
        rw [source] at cut
        exact absurd cut (by simp [Source.truncated, complete p mem m (.inl source)])
      | fetched m =>
        rw [source] at cut
        exact absurd cut (by simp [Source.truncated, complete p mem m (.inr source)])

/-- An answer that an upstream server has cut. -/
def cutMsg : Msg :=
  { response := true, truncated := true, question := [⟨"a.", typeA, classINET⟩],
    answer := [⟨"a.", classINET, 300, .a "192.0.2.1"⟩] }

def cutQuery : Msg := { question := [⟨"a.", typeA, classINET⟩] }

def rootForwarded : Env :=
  ⟨plainLib, { emptySnapshot with forwardZones := [⟨".", ["10.0.0.1:53"]⟩] }⟩

def forwardVisits : List Visit :=
  List.replicate 4 { idleVisit with
    input := { Input.idle with forward := fun _ => (true, .ok cutMsg) } }

theorem forwarded_cut_reported : ∃ r reply,
    resolve rootForwarded cutQuery 0 forwardVisits = .done r (.ok reply) ∧
      reply.answer = cutMsg.answer ∧ reply.truncated = true := by
  have sources : replySources rootForwarded cutQuery 0 forwardVisits =
      [(⟨"a.", classINET, 300, .a "192.0.2.1"⟩, .forwarded cutMsg)] := by
    decide +kernel
  obtain ⟨answer, _, _, law⟩ :=
    truncation_reported_iff rootForwarded cutQuery 0 forwardVisits _ _ rfl
  rw [sources] at answer law
  refine ⟨_, _, rfl, answer.symm, law.mpr ?_ ⟨_, List.mem_cons_self, rfl⟩⟩
  intro p mem m piecewise
  rw [List.mem_singleton.mp mem] at piecewise
  rcases piecewise with is | is
  · cases is
  · cases is

def fetchVisits : List Visit := List.replicate 10 { idleVisit with input := .answered cutMsg }

def afterFetch : World :=
  perform plainLib idleVisit.world (effects plainEnv cutQuery 0 fetchVisits)

def cachedVisits : List Visit := List.replicate 6 ⟨afterFetch, .idle⟩

def replyOf : Outcome → Option Msg
  | .done _ (.ok reply) => some reply
  | _ => none

/-- The iterative path and the cache hand the same records out as a complete answer. -/
theorem fetched_cut_not_reported :
    replySources plainEnv cutQuery 0 fetchVisits =
        [(⟨"a.", classINET, 300, .a "192.0.2.1"⟩, .fetched cutMsg)] ∧
      (replyOf (resolve plainEnv cutQuery 0 fetchVisits)).map Msg.truncated = some false ∧
      (replySources plainEnv cutQuery 0 cachedVisits).map (fun p => p.2.truncated) = [true] ∧
      (replyOf (resolve plainEnv cutQuery 0 cachedVisits)).map Msg.truncated = some false := by
  decide +kernel

end TruncatedAnswers
