import Rec53.StateMachine

/-!
# What a reply keeps of earlier messages

The response object is shared by all rounds of a resolution. CACHE_LOOKUP and
QUERY_UPSTREAM add the records of the message they consult to whatever is there,
and set the Rcode on some of their paths only. The reply has the Rcode and answer of
the last message consulted exactly when nothing was left from before.
-/

namespace LastMessage

open DnsMessage Platform DnsCache LocalConfig StateHandlers UpstreamQuery StateMachine

/-- The message a visit consults last. -/
def consulted (env : Env) (o : Outcome) (v : Visit) : Option Msg :=
  match o with
  | .next r => if r.st = .cacheLookup then getCacheCopyByType v.world r.qname r.qtype else none
  | .await r source => (receivedMsgs (resume env v.input r source).1).getLast?
  | .done _ _ => none

/-- Nothing is left over when `m` comes in: the answer section is empty, and the
Rcode is the one of `m` unless this path sets it. An NXDOMAIN message from a server
is the exception, as its answer section is not copied. -/
def CleanBefore (env : Env) (o : Outcome) (v : Visit) (m : Msg) : Prop :=
  match o with
  | .next r => r.response.answer = [] ∧ (m.answer ≠ [] → r.response.rcode = m.rcode)
  | .await r source =>
    if m.rcode = rcodeNameError then r.response.answer = m.answer
    else r.response.answer = [] ∧ (r.response.rcode = m.rcode ∨
      ∃ b ∈ receivedMsgs (resume env v.input r source).1, b.rcode ≠ rcodeSuccess)
  | .done _ _ => False

/-- The response agrees with the message in Rcode and answer section. -/
def Reflects (response m : Msg) : Prop := response.rcode = m.rcode ∧ response.answer = m.answer

lemma append_eq_right {xs ys : List RR} : xs ++ ys = ys ↔ xs = [] := by
  simp

/-- A cache hit: the answer is appended, and the Rcode is only set for a negative
entry. -/
lemma cacheLookup_reflects {env : Env} {v : Visit} {r r' : Resolution}
    (moved : visit env (.next r) v = .next r') (here : r'.st = .classifyResp) :
    ∃ m, consulted env (.next r) v = some m ∧
      (Reflects r'.response m ↔ CleanBefore env (.next r) v m) := by
  obtain ⟨effects, o', listed, target⟩ := moved_of_visit moved
  cases listed with
  | cacheHit at_cache cached found positive =>
    rw [goto_eq_next target]
    refine ⟨cached, by simp [consulted, at_cache, found], ?_⟩
    simp [Reflects, CleanBefore, mergePositive, positive, and_comm]
  | cacheNegative at_cache cached found empty soa =>
    rw [goto_eq_next target]
    refine ⟨cached, by simp [consulted, at_cache, found], ?_⟩
    simp [Reflects, CleanBefore, mergeNegative, empty]
  | formerr | forwardEnd | cacheRefused | cnameCycle | cancelled | query | finish => cases target
  | _ =>
    rw [goto_eq_next target] at here
    cases here

/-- A message from a server: its answer is appended, or dropped on NXDOMAIN, and its
Rcode is set unless the first server answered NOERROR. -/
lemma upstream_reflects {env : Env} {v : Visit} {r r' : Resolution} {source : IPSource}
    (moved : visit env (.await r source) v = .next r') :
    ∃ m, consulted env (.await r source) v = some m ∧
      (Reflects r'.response m ↔ CleanBefore env (.await r source) v m) := by
  obtain ⟨effects, o', listed, target, performed⟩ := resumed_of_visit moved
  simp only [consulted, CleanBefore, performed]
  cases listed with
  | accepted earlier m addr before bad success echoes readOnly received sent =>
    have messages : receivedMsgs (before ++ cacheEffects m) = earlier ++ [m] := by
      rw [receivedMsgs_append, received, cacheEffects_receivedMsgs, List.append_nil]
    rw [goto_eq_next target, messages]
    refine ⟨m, by simp, ?_⟩
    have ordinary : m.rcode ≠ rcodeNameError := by rw [success]; decide
    rw [if_neg ordinary]
    by_cases primary : earlier = []
    · simp [Reflects, mergeAccepted, primary, success, and_comm]
    · -- the alternate's Rcode was copied, so only the answer section matters
      obtain ⟨b, hb⟩ := List.exists_mem_of_ne_nil earlier primary
      have preceded : ∃ b ∈ earlier ++ [m], b.rcode ≠ rcodeSuccess :=
        ⟨b, List.mem_append_left _ hb, bad b hb⟩
      simp only [Reflects, mergeAccepted, if_neg primary, mergeRcode, preceded, or_true, and_true,
        true_and]
      exact append_eq_right
  | nxdomain earlier m effects nameError readOnly received =>
    rw [goto_eq_next target, received]
    refine ⟨m, by simp, ?_⟩
    simp [Reflects, mergeRcode, nameError]
  | noServer | failed | rejected => cases target

/-- CLASSIFY_RESP passes the response on to RETURN_RESP as it is. -/
lemma classify_passes {env : Env} {v : Visit} {r r' : Resolution}
    (moved : visit env (.next r) v = .next r') (from_classify : r.st = .classifyResp)
    (here : r'.st = .returnResp) :
    r'.response = r.response ∧ r'.cnameChain = r.cnameChain := by
  obtain ⟨effects, o', listed, target⟩ := moved_of_visit moved
  cases listed with
  | answer | negative =>
    rw [goto_eq_next target]
    exact ⟨rfl, rfl⟩
  | hostsHit elsewhere | forwardHit elsewhere =>
    rw [elsewhere] at from_classify
    cases from_classify
  | formerr | forwardEnd | cacheRefused | cnameCycle | cancelled | query | finish => cases target
  | _ =>
    rw [goto_eq_next target] at here
    cases here

/-- For every resolution that ends at RETURN_RESP through CLASSIFY_RESP, whatever the
caches and servers do: `merge` is the visit that enters CLASSIFY_RESP for the last
time, and it consults a message. The reply has the Rcode of that message, and the
CNAME chain followed by exactly its answer, if and only if the response was clean
before that visit. -/
theorem reply_reflects_last_iff (env : Env) (request : Msg) (depth : Nat) (before : List Visit)
    (merge classify finish : Visit) (merged classified ended : Resolution) (reply : Msg)
    (enters : resolve env request depth (before ++ [merge]) = .next merged)
    (at_classify : merged.st = .classifyResp)
    (leaves : resolve env request depth (before ++ [merge, classify]) = .next classified)
    (at_return : classified.st = .returnResp)
    (replies : resolve env request depth (before ++ [merge, classify, finish]) =
      .done ended (.ok reply)) :
    ∃ m, consulted env (resolve env request depth before) merge = some m ∧
      ((reply.rcode = m.rcode ∧ reply.answer = ended.cnameChain ++ m.answer) ↔
        CleanBefore env (resolve env request depth before) merge m) := by
  rw [resolve_snoc] at enters
  rw [List.append_cons, resolve_snoc, resolve_snoc, enters] at leaves
  rw [List.append_cons, List.append_cons, resolve_snoc, resolve_snoc, resolve_snoc, enters,
    leaves] at replies
  obtain ⟨same_response, same_chain⟩ := classify_passes leaves at_classify at_return
  -- RETURN_RESP puts the chain in front and changes nothing else of interest
  have final : visit env (.next classified) finish =
      .done classified (.ok (buildFinalResponse classified)) := by
    simp [visit, visitEffects, iterate, at_return]
  rw [final] at replies
  cases replies
  have reply_iff (m : Msg) : Reflects merged.response m ↔
      ((buildFinalResponse classified).rcode = m.rcode ∧
        (buildFinalResponse classified).answer = classified.cnameChain ++ m.answer) := by
    simp [Reflects, buildFinalResponse, same_response]
  cases origin : resolve env request depth before with
  | next r =>
    rw [origin] at enters
    obtain ⟨m, read, reflects⟩ := cacheLookup_reflects enters at_classify
    exact ⟨m, read, (reply_iff m).symm.trans reflects⟩
  | await r source =>
    rw [origin] at enters
    obtain ⟨m, read, reflects⟩ := upstream_reflects enters
    exact ⟨m, read, (reply_iff m).symm.trans reflects⟩
  | done r result =>
    rw [origin] at enters
    cases enters

section Leftover

/-- A server that answers `a.` with the given Rcode and records, and nothing else. -/
def answering (rcode : Nat) (answer : List RR) : Visit :=
  ⟨World.initial none 1 0,
    .answered { rcode := rcode, question := [⟨"a.", typeA, classINET⟩], answer := answer }⟩

/-- NXDOMAIN without an SOA record on the first query, then back to the root. -/
def afterNxdomain : List Visit :=
  List.replicate 7 idleVisit ++ answering rcodeNameError [] :: List.replicate 4 idleVisit

def addressOfA : Visit := answering rcodeSuccess [⟨"a.", classINET, 60, .a "192.0.2.1"⟩]

theorem nxdomain_then_answer_iff :
    ∃ ended reply, resolve plainEnv (newQuery 7 "a." typeA) 0
        (afterNxdomain ++ [addressOfA, idleVisit, idleVisit]) = .done ended (.ok reply) ∧
      ∃ m, consulted plainEnv (resolve plainEnv (newQuery 7 "a." typeA) 0 afterNxdomain)
          addressOfA = some m ∧
        ((reply.rcode = m.rcode ∧ reply.answer = ended.cnameChain ++ m.answer) ↔
          CleanBefore plainEnv (resolve plainEnv (newQuery 7 "a." typeA) 0 afterNxdomain)
            addressOfA m) :=
  ⟨_, _, rfl, reply_reflects_last_iff plainEnv (newQuery 7 "a." typeA) 0 afterNxdomain
    addressOfA idleVisit idleVisit _ _ _ _ rfl rfl rfl rfl rfl⟩

/-- The reply carries the address together with the NXDOMAIN of the first query. -/
theorem nxdomain_left_over :
    ∃ ended reply m, resolve plainEnv (newQuery 7 "a." typeA) 0
        (afterNxdomain ++ [addressOfA, idleVisit, idleVisit]) = .done ended (.ok reply) ∧
      ended.st = .returnResp ∧
      consulted plainEnv (resolve plainEnv (newQuery 7 "a." typeA) 0 afterNxdomain) addressOfA =
        some m ∧
      reply.rcode = rcodeNameError ∧ m.rcode = rcodeSuccess ∧ reply.answer = m.answer :=
  ⟨_, _, _, rfl, rfl, rfl, rfl, rfl, rfl⟩

end Leftover

end LastMessage
