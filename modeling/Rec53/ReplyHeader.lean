import Rec53.ServeDns

/-!
# Every reply is a reply to the query asked

The reply is built in many ways: from the response object that all states share, as
a new message from a request whose question has been rewritten on the way, or from
the header of a forwarded answer. The invariant says of each that it carries the Id
of the request, is marked as a response and has one question; `ServeDNS` then writes
the question it saved into that place.
-/

namespace ReplyHeader

open DnsMessage Platform StateHandlers UpstreamQuery StateMachine ServeDns

/-- The message handed to truncation. -/
def replyBeforeTruncation (request : Msg) (r : Resolution) (result : Except String Msg) : Msg :=
  restoreQuestion request.q0 (match result with
    | .error _ => r.response.setRcode r.request rcodeServerFailure
    | .ok msg => msg)

theorem serveDNS_eq (lib : Lib) (udp : Bool) {request : Msg} (r : Resolution)
    (result : Except String Msg) (asked : request.question ≠ []) :
    serveDNS lib udp request r result =
      if udp then
        truncateResponse lib (replyBeforeTruncation request r result) (getMaxUDPSize request)
      else replyBeforeTruncation request r result :=
  if_neg asked

/-- Header and number of questions of a reply to the request. -/
structure RepliesTo (request m : Msg) : Prop where
  id : m.id = request.id
  response : m.response = true
  single : m.question.length = 1

/-- What CNAME following leaves of the request. -/
structure ComesFrom (request : Msg) (r : Resolution) : Prop where
  id : r.request.id = request.id
  asked : r.request.question ≠ []

lemma setReply_repliesTo {request : Msg} {r : Resolution} (source : ComesFrom request r)
    (m : Msg) : RepliesTo request (m.setReply r.request) := by
  refine ⟨source.id, rfl, ?_⟩
  simp [Msg.setReply, source.asked]

lemma setRcode_repliesTo {request : Msg} {r : Resolution} (source : ComesFrom request r)
    (m : Msg) (rcode : Nat) : RepliesTo request (m.setRcode r.request rcode) := by
  obtain ⟨id, response, single⟩ := setReply_repliesTo source m
  exact ⟨id, response, single⟩

lemma buildFinalResponse_repliesTo {request : Msg} {r : Resolution}
    (replies : RepliesTo request r.response) : RepliesTo request (buildFinalResponse r) := by
  refine ⟨replies.id, replies.response, ?_⟩
  have single := replies.single
  simp only [buildFinalResponse, List.length_cons, List.length_tail]
  omega

lemma followTo_comesFrom {request : Msg} {r : Resolution} (source : ComesFrom request r)
    (lib : Lib) (cname : RR) : ComesFrom request (followTo lib r cname) := by
  obtain ⟨q, qs, first⟩ := List.exists_cons_of_ne_nil source.asked
  refine ⟨?_, ?_⟩
  · simpa [followTo, renameQuestion, first] using source.id
  · simp [followTo, renameQuestion, first]

lemma followTo_repliesTo {request : Msg} {r : Resolution}
    (replies : RepliesTo request r.response) (lib : Lib) (cname : RR) :
    RepliesTo request (followTo lib r cname).response := by
  obtain ⟨id, response, single⟩ := replies
  simp only [followTo]
  split
  · exact ⟨id, response, single⟩
  · exact ⟨id, response, single⟩

/-- Past STATE_INIT the response object is a reply to the request, and so is every
message a resolution ends with. -/
def Stamped (request : Msg) : Outcome → Prop
  | .next r => ComesFrom request r ∧ (r.st ≠ .stateInit → RepliesTo request r.response)
  | .await r _ => ComesFrom request r ∧ RepliesTo request r.response
  | .done r (.ok msg) => ComesFrom request r ∧ RepliesTo request msg
  | .done r (.error _) => ComesFrom request r

lemma goto_stamped {request : Msg} {r : Resolution} (source : ComesFrom request r)
    (replies : RepliesTo request r.response) (st : StateKind) : Stamped request (r.goto st) := by
  rcases r.goto_eq st with ⟨_, next⟩ | ⟨_, limit⟩
  · rw [next]
    exact ⟨⟨source.id, source.asked⟩, fun _ => replies⟩
  · rw [limit]
    exact source

lemma resumed_stamped {request : Msg} {r : Resolution} {effects : List Effect} {o : Outcome}
    (source : ComesFrom request r) (replies : RepliesTo request r.response)
    (resumed : Resumed r effects o) : Stamped request o := by
  have source' (response : Msg) : ComesFrom request { r with response := response } :=
    ⟨source.id, source.asked⟩
  obtain ⟨id, response, single⟩ := replies
  cases resumed with
  | accepted earlier m =>
    refine goto_stamped (source' _) ?_ _
    split
    · exact ⟨id, response, single⟩
    · exact ⟨id, response, single⟩
  | nxdomain =>
    refine goto_stamped (source' _) ?_ _
    exact ⟨id, response, single⟩
  | noServer => exact ⟨source, setRcode_repliesTo source _ _⟩
  | failed => exact source
  | rejected => exact source' _

lemma moved_stamped {env : Env} {v : Visit} {request : Msg} {r : Resolution}
    {effects : List Effect} {o : Outcome} (source : ComesFrom request r)
    (replies : r.st ≠ .stateInit → RepliesTo request r.response)
    (moved : Moved env v.world v.input r effects o) : Stamped request o := by
  have source' (response : Msg) : ComesFrom request { r with response := response } :=
    ⟨source.id, source.asked⟩
  have past {st : StateKind} (here : r.st = st) (later : st ≠ .stateInit) :
      RepliesTo request r.response := replies (here ▸ later)
  cases moved with
  | formerr => exact ⟨source' _, setRcode_repliesTo source _ _⟩
  | init => exact goto_stamped (source' _) (setReply_repliesTo source _) _
  | hostsHit here | cacheHit here | cacheNegative here | glueCleared here =>
    obtain ⟨id, response, single⟩ := past here (by decide)
    refine goto_stamped (source' _) ?_ _
    exact ⟨id, response, single⟩
  | forwardHit here resp =>
    -- the header of the forwarded answer, with the Id and the question of the client
    refine goto_stamped (source' _) ?_ _
    exact ⟨source.id, rfl, (past here (by decide)).single⟩
  | nsCache here =>
    obtain ⟨id, response, single⟩ := past here (by decide)
    refine goto_stamped (source' _) ?_ _
    simp only [lookupNSCacheHandle]
    split
    · exact ⟨id, response, single⟩
    · exact ⟨id, response, single⟩
  | forwardEnd | cacheRefused => exact ⟨source, setRcode_repliesTo source _ _⟩
  | cname here cname =>
    exact goto_stamped (followTo_comesFrom source _ _)
      (followTo_repliesTo (past here (by decide)) _ _) _
  | cnameCycle | cancelled => exact source
  | query here => exact ⟨source, past here (by decide)⟩
  | finish here => exact ⟨source, buildFinalResponse_repliesTo (past here (by decide))⟩
  | hostsMiss here | forwardMiss here | cacheMiss here | answer here | negative here
  | cnameIdle here | noAnswer here | glueExist here | glueKept here =>
    exact goto_stamped source (past here (by decide)) _

theorem visit_stamped (env : Env) (request : Msg) (o : Outcome) (v : Visit)
    (stamped : Stamped request o) : Stamped request (visit env o v) := by
  have visited := visit_visited env o v
  generalize visit env o v = o', (visitEffects env o v).1 = effects at visited
  cases visited with
  | ended r result => exact stamped
  | resumed r source effects o' resumed => exact resumed_stamped stamped.1 stamped.2 resumed
  | round r effects o' moved => exact moved_stamped stamped.1 stamped.2 moved

theorem resolve_stamped (env : Env) {request : Msg} (asked : request.question ≠ [])
    (depth : Nat) (visits : List Visit) :
    Stamped request (resolve env request depth visits) := by
  refine StepRuns.run_preserves (visit env) (visit_stamped env request) ?_ visits
  exact ⟨⟨rfl, asked⟩, fun past => absurd rfl past⟩

lemma restoreQuestion_header (q : Question) (m : Msg) :
    (restoreQuestion q m).id = m.id ∧ (restoreQuestion q m).response = m.response := by
  rw [restoreQuestion]
  split
  · exact ⟨rfl, rfl⟩
  · exact ⟨rfl, rfl⟩

/-- Writing the saved question over the only one there is. -/
lemma restoreQuestion_answers {request m : Msg} (named : request.q0.name ≠ "")
    (replies : RepliesTo request m) :
    (restoreQuestion request.q0 m).id = request.id ∧
      (restoreQuestion request.q0 m).response = true ∧
      (restoreQuestion request.q0 m).question = [request.q0] := by
  obtain ⟨id, response⟩ := restoreQuestion_header request.q0 m
  refine ⟨id.trans replies.id, response.trans replies.response, ?_⟩
  obtain ⟨old, only⟩ := List.length_eq_one_iff.mp replies.single
  simp [restoreQuestion, named, only]

/-- Every resolution of a client's request ends, and on every exit the message that
`ServeDNS` hands to truncation has the request's Id, is marked as a response and has the
request's first question as its only one. The dns library unpacks no empty name. -/
theorem reply_answers_request (env : Env) (request : Msg) (visits : List Visit)
    (asked : request.question ≠ []) (named : request.q0.name ≠ "") :
    (2 * maxIterations ≤ visits.length →
      ∃ r result, resolve env request 0 visits = .done r result) ∧
    ∀ r result, resolve env request 0 visits = .done r result →
      ∃ reply : Msg, reply.id = request.id ∧ reply.response = true ∧
        reply.question = [request.q0] ∧
        ∀ udp, serveDNS env.lib udp request r result =
          if udp then truncateResponse env.lib reply (getMaxUDPSize request) else reply := by
  refine ⟨resolve_ends env request 0 visits, ?_⟩
  intro r result ended
  have stamped := resolve_stamped env asked 0 visits
  rw [ended] at stamped
  have answers : (replyBeforeTruncation request r result).id = request.id ∧
      (replyBeforeTruncation request r result).response = true ∧
      (replyBeforeTruncation request r result).question = [request.q0] := by
    cases result with
    | error err => exact restoreQuestion_answers named (setRcode_repliesTo stamped _ _)
    | ok msg => exact restoreQuestion_answers named stamped.2
  obtain ⟨id, response, question⟩ := answers
  exact ⟨_, id, response, question, fun udp => serveDNS_eq env.lib udp r result asked⟩

/-- A query refused by the limiter at CACHE_LOOKUP. -/
theorem refused_reply_answers_request :
    let request : Msg := { id := 7, question := [⟨"www.example.", 1, 1⟩] }
    let refusing : Visit := { idleVisit with input := { Input.idle with admitted := false } }
    let visits := [idleVisit, idleVisit, idleVisit, refusing]
    ∃ r, resolve plainEnv request 0 visits = .done r (.ok (freshRcode request rcodeRefused)) ∧
      ∃ reply : Msg, reply.id = 7 ∧ reply.response = true ∧ reply.question = [request.q0] ∧
        serveDNS plainLib false request r (.ok (freshRcode request rcodeRefused)) = reply := by
  intro request refusing visits
  refine ⟨_, rfl, ?_⟩
  obtain ⟨reply, id, response, question, served⟩ :=
    (reply_answers_request plainEnv request visits (by simp [request]) (by decide)).2 _ _ rfl
  exact ⟨reply, id, response, question, served false⟩

end ReplyHeader
