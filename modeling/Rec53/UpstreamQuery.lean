import Rec53.StateHandlers

/-!
# QUERY_UPSTREAM

`server/state_query_upstream.go` in two parts: where the addresses of the name
servers come from, and the query once they are known. Between the two the handler
may wait for nested resolutions of name-server names. `Queried` lists everything
the second part can do, `Sends` bounds its queries, and later modules use these instead
of the definitions.
-/

namespace UpstreamQuery

open DnsMessage Platform DnsCache StateHandlers

def getIPListFromResponse (response : Msg) : List String := response.extra.filterMap RR.address?

def getNSNamesFromResponse (response : Msg) : List String := response.ns.filterMap RR.nsName?

def answerAddresses (m : Msg) : List String := m.answer.filterMap RR.address?

def resolveNSIPs (w : World) (nsNames : List String) : List String :=
  nsNames.flatMap fun nsName =>
    match getCacheCopyByType w nsName typeA with
    | some m => answerAddresses m
    | none => []

/-- Where QUERY_UPSTREAM takes its addresses from: a list, or a nested resolution
of the given names. `depth` is the NS-resolution depth of the context. -/
inductive IPSource where
  | ips (ipList : List String)
  | resolve (nsNames : List String)

def collectIPs (w : World) (depth : Nat) (response : Msg) : IPSource :=
  let ipList := getIPListFromResponse response
  if ipList = [] ∧ response.ns ≠ [] then
    let nsNames := getNSNamesFromResponse response
    let cached := resolveNSIPs w nsNames
    if cached ≠ [] then .ips cached
    else if nsNames = [] ∨ 0 < depth then .ips []
    else .resolve nsNames
  else .ips ipList

lemma collectIPs_resolve {w : World} {depth : Nat} {response : Msg} {nsNames : List String}
    (nests : collectIPs w depth response = .resolve nsNames) :
    depth = 0 ∧ nsNames = getNSNamesFromResponse response := by
  simp only [collectIPs] at nests
  split at nests
  · split at nests
    · cases nests
    split at nests
    · cases nests
    · rename_i shallow
      cases nests
      exact ⟨by omega, rfl⟩
  · cases nests

def gateSaturated : String := "upstream concurrency gate saturated"

/-- The single-path lane of `queryHappyEyeballs`. -/
def querySingle (inp : Input) (q : Question) (bestAddr : String) :
    List Effect × Except String (String × Reply) :=
  if inp.gateSingle then
    match inp.best with
    | .error e => ([.exchange bestAddr q.name q.qtype, .recordFailure bestAddr], .error e)
    | .ok rep => ([.exchange bestAddr q.name q.qtype], .ok (bestAddr, rep))
  else ([], .error gateSaturated)

/-- The race: the first success wins, failures before it are recorded. -/
def queryRace (inp : Input) (q : Question) (bestAddr secondAddr : String) :
    List Effect × Except String (String × Reply) :=
  let sent : List Effect :=
    [.exchange bestAddr q.name q.qtype, .exchange secondAddr q.name q.qtype]
  let first := if inp.secondFirst then (secondAddr, inp.second) else (bestAddr, inp.best)
  let last := if inp.secondFirst then (bestAddr, inp.best) else (secondAddr, inp.second)
  match first.2 with
  | .ok rep => (sent, .ok (first.1, rep))
  | .error firstErr =>
    match last.2 with
    | .ok rep => (sent ++ [.recordFailure first.1], .ok (last.1, rep))
    | .error _ =>
      (sent ++ [.recordFailure first.1, .recordFailure last.1],
        .error ("all upstream IPs failed: " ++ firstErr))

def queryHappyEyeballs (inp : Input) (q : Question) (bestAddr secondAddr : String) :
    List Effect × Except String (String × Reply) :=
  if secondAddr = "" then querySingle inp q bestAddr
  else if inp.degrade then querySingle inp q bestAddr
  else if inp.gateFirst = false then ([], .error gateSaturated)
  else if inp.gateSecond = false then querySingle inp q bestAddr
  else queryRace inp q bestAddr secondAddr

/-- `servfail` is QUERY_UPSTREAM_COMMON_ERROR without an error value. -/
inductive QueryRet where
  | noError
  | servfail
  | error (err : String)

structure QueryOut where
  response : Msg
  effects : List Effect
  ret : QueryRet

def answerEffects (m : Msg) : List Effect :=
  match m.answer with
  | [] => []
  | rr :: _ => [.setByType m.q0.name m.q0.qtype m rr.ttl]

def delegationEffects (m : Msg) : List Effect :=
  match m.ns with
  | [] => []
  | rr :: _ => if rr.isNS then [.setZone rr.name m rr.ttl] else []

/-- The cache writes for an accepted message: the answer under its question, and
the message as a delegation when the authority section starts with an NS record. -/
def cacheEffects (m : Msg) : List Effect := answerEffects m ++ delegationEffects m

/-- An accepted message is written in two ways at most. -/
theorem mem_cacheEffects {m : Msg} {e : Effect} (mem : e ∈ cacheEffects m) :
    (∃ rr rest, m.answer = rr :: rest ∧ e = .setByType m.q0.name m.q0.qtype m rr.ttl) ∨
      (∃ rr rest, m.ns = rr :: rest ∧ rr.isNS = true ∧ e = .setZone rr.name m rr.ttl) := by
  rcases List.mem_append.mp mem with mem | mem
  · left
    rw [answerEffects] at mem
    split at mem
    · cases mem
    · rename_i rr rest first
      exact ⟨rr, rest, first, List.mem_singleton.mp mem⟩
  · right
    rw [delegationEffects] at mem
    split at mem
    · cases mem
    · rename_i rr rest first
      split at mem
      · rename_i delegation
        exact ⟨rr, rest, first, delegation, List.mem_singleton.mp mem⟩
      · cases mem

theorem cacheEffects_receivedMsgs (m : Msg) : receivedMsgs (cacheEffects m) = [] := by
  refine List.filterMap_eq_nil_iff.mpr ?_
  intro e mem
  rcases mem_cacheEffects mem with ⟨_, _, _, rfl⟩ | ⟨_, _, _, _, rfl⟩
  · rfl
  · rfl

def mergeAccepted (response m : Msg) : Msg :=
  { response with answer := response.answer ++ m.answer, ns := m.ns, extra := m.extra }

/-- What is copied from every message whose Rcode is not NOERROR. -/
def mergeRcode (response m : Msg) : Msg := { response with rcode := m.rcode, ns := m.ns }

def acceptResponse (request response m : Msg) : QueryOut :=
  if m.question = [] then ⟨response, [], .error "response has no question"⟩
  else if m.q0.name ≠ request.q0.name then
    ⟨response, [], .error "response.Question is not the same as request"⟩
  else ⟨mergeAccepted response m, cacheEffects m, .noError⟩

def QueryOut.after (out : QueryOut) (effects : List Effect) : QueryOut :=
  { out with effects := effects ++ out.effects }

theorem QueryOut.after_after (out : QueryOut) (first last : List Effect) :
    (out.after last).after first = out.after (first ++ last) := by
  simp [QueryOut.after]

/-- The effects of a retry that was answered. -/
def retryEffects (q : Question) (theBestIP altAddr : String) (rep : Reply) : List Effect :=
  [.recordFailure theBestIP, .exchange altAddr q.name q.qtype, .received rep.msg,
    .recordLatency altAddr rep.rtt]

/-- The query to the alternate address after a bad Rcode from `theBestIP`. -/
def retryAlternate (env : Env) (inp : Input) (request response : Msg)
    (bestAddr secondAddr theBestIP badRcode : String) : QueryOut :=
  let altAddr := if theBestIP = secondAddr then bestAddr else secondAddr
  if altAddr = "" ∨ altAddr = theBestIP then
    ⟨response, [.recordFailure theBestIP],
      .error ("bad response rcode: " ++ badRcode ++ ", no alternate IP")⟩
  else if inp.gateRetry = false then
    ⟨response, [.recordFailure theBestIP],
      .error ("bad response rcode: " ++ badRcode ++ ", alternate IP also failed: " ++
        gateSaturated)⟩
  else
    match inp.retry with
    | .error e =>
      ⟨response, [.recordFailure theBestIP, .exchange altAddr request.q0.name request.q0.qtype,
          .recordFailure altAddr],
        .error ("bad response rcode: " ++ badRcode ++ ", alternate IP also failed: " ++ e)⟩
    | .ok rep =>
      let seen := retryEffects request.q0 theBestIP altAddr rep
      let merged := mergeRcode response rep.msg
      if rep.msg.rcode = rcodeSuccess then (acceptResponse request merged rep.msg).after seen
      else if rep.msg.rcode = rcodeNameError then ⟨merged, seen, .noError⟩
      else
        ⟨merged, seen, .error ("both primary and alternate IPs returned bad rcode: " ++
          env.lib.rcodeToString rep.msg.rcode)⟩

def isBadRcode (rcode : Nat) : Bool :=
  rcode == rcodeServerFailure || rcode == rcodeRefused || rcode == rcodeFormatError ||
    rcode == rcodeNotImplemented

def checkResponse (env : Env) (inp : Input) (request response : Msg)
    (bestAddr secondAddr theBestIP : String) (m : Msg) : QueryOut :=
  if m.rcode = rcodeSuccess then acceptResponse request response m
  else
    let merged := mergeRcode response m
    if m.rcode = rcodeNameError then ⟨merged, [], .noError⟩
    else if isBadRcode m.rcode then
      retryAlternate env inp request merged bestAddr secondAddr theBestIP
        (env.lib.rcodeToString m.rcode)
    else ⟨merged, [], .error ("response rcode: " ++ env.lib.rcodeToString m.rcode)⟩

/-- QUERY_UPSTREAM once its addresses are known. -/
def queryUpstreamWith (env : Env) (inp : Input) (request response : Msg)
    (ipList : List String) : QueryOut :=
  if ipList = [] then ⟨response, [], .error "no ip in extra"⟩
  else
    let bestAddr := (inp.bestIPs ipList).1
    let secondAddr := (inp.bestIPs ipList).2
    if bestAddr = "" then ⟨response, [], .servfail⟩
    else
      match queryHappyEyeballs inp request.q0 bestAddr secondAddr with
      | (sent, .error e) => ⟨response, sent, .error e⟩
      | (sent, .ok (theBestIP, rep)) =>
        (checkResponse env inp request response bestAddr secondAddr theBestIP rep.msg).after
          (sent ++ [.received rep.msg, .recordLatency theBestIP rep.rtt])

/-! ### Everything a query can do -/

/-- Effects that leave the cache alone. -/
def ReadOnly (effects : List Effect) : Prop := ∀ e ∈ effects, e.writes = false

/-- The message repeats the name that was asked for. -/
def Echoes (qname : String) (m : Msg) : Prop := m.question ≠ [] ∧ m.q0.name = qname

instance (qname : String) (m : Msg) : Decidable (Echoes qname m) :=
  inferInstanceAs (Decidable (_ ∧ _))

/-- The five ways QUERY_UPSTREAM ends once its addresses are known. `earlier` holds
the message of the first server when the accepted one is from the alternate; the
Rcode of the latter was then copied first. -/
inductive Queried (request response : Msg) : QueryOut → Prop where
  | accepted (earlier : List Msg) (m : Msg) (addr : String) (before : List Effect)
      (bad : ∀ b ∈ earlier, b.rcode ≠ rcodeSuccess)
      (success : m.rcode = rcodeSuccess) (echoes : Echoes request.q0.name m)
      (readOnly : ReadOnly before)
      (received : receivedMsgs before = earlier ++ [m])
      (sent : .exchange addr request.q0.name request.q0.qtype ∈ before) :
      Queried request response
        ⟨mergeAccepted (if earlier = [] then response else mergeRcode response m) m,
          before ++ cacheEffects m, .noError⟩
  | nxdomain (earlier : List Msg) (m : Msg) (effects : List Effect)
      (nameError : m.rcode = rcodeNameError) (readOnly : ReadOnly effects)
      (received : receivedMsgs effects = earlier ++ [m]) :
      Queried request response ⟨mergeRcode response m, effects, .noError⟩
  | noServer : Queried request response ⟨response, [], .servfail⟩
  | failed (err : String) (effects : List Effect) (readOnly : ReadOnly effects)
      (received : receivedMsgs effects = [] ∨ ∃ m, receivedMsgs effects = [m] ∧
        m.rcode = rcodeSuccess ∧ ¬ Echoes request.q0.name m) :
      Queried request response ⟨response, effects, .error err⟩
  | rejected (earlier : List Msg) (m : Msg) (err : String) (effects : List Effect)
      (readOnly : ReadOnly effects) (received : receivedMsgs effects = earlier ++ [m])
      (refused : m.rcode ≠ rcodeSuccess ∨ earlier ≠ [] ∧ ¬ Echoes request.q0.name m) :
      Queried request response ⟨mergeRcode response m, effects, .error err⟩

@[simp] theorem mergeRcode_twice (response m m' : Msg) :
    mergeRcode (mergeRcode response m) m' = mergeRcode response m' := rfl

theorem ReadOnly.append {xs ys : List Effect} (hx : ReadOnly xs) (hy : ReadOnly ys) :
    ReadOnly (xs ++ ys) := by
  intro e he
  rcases List.mem_append.mp he with h | h
  · exact hx e h
  · exact hy e h

/-- What is known of the effects of a lookup: no write, no message handed on yet,
and an exchange when there is an answer. -/
structure Lookup (q : Question) (looked : List Effect × Except String (String × Reply)) :
    Prop where
  readOnly : ReadOnly looked.1
  unread : receivedMsgs looked.1 = []
  sent : ∀ ans, looked.2 = .ok ans → ∃ addr, .exchange addr q.name q.qtype ∈ looked.1

lemma querySingle_lookup (inp : Input) (q : Question) (bestAddr : String) :
    Lookup q (querySingle inp q bestAddr) := by
  rw [querySingle]
  cases inp.gateSingle with
  | false => exact ⟨by simp [ReadOnly], rfl, by simp⟩
  | true =>
    cases inp.best with
    | error e => exact ⟨by simp [ReadOnly, Effect.writes], rfl, by simp⟩
    | ok rep => exact ⟨by simp [ReadOnly, Effect.writes], rfl, by simp⟩

lemma queryRace_lookup (inp : Input) (q : Question) (bestAddr secondAddr : String) :
    Lookup q (queryRace inp q bestAddr secondAddr) := by
  simp only [queryRace]
  generalize (if inp.secondFirst then (secondAddr, inp.second) else (bestAddr, inp.best)) = first
  generalize (if inp.secondFirst then (bestAddr, inp.best) else (secondAddr, inp.second)) = last
  cases first.2 with
  | ok rep => exact ⟨by simp [ReadOnly, Effect.writes], rfl, fun _ _ => ⟨bestAddr, by simp⟩⟩
  | error e =>
    cases last.2 with
    | ok rep => exact ⟨by simp [ReadOnly, Effect.writes], rfl, fun _ _ => ⟨bestAddr, by simp⟩⟩
    | error e' => exact ⟨by simp [ReadOnly, Effect.writes], rfl, fun _ _ => ⟨bestAddr, by simp⟩⟩

lemma queryHappyEyeballs_lookup (inp : Input) (q : Question) (bestAddr secondAddr : String) :
    Lookup q (queryHappyEyeballs inp q bestAddr secondAddr) := by
  rw [queryHappyEyeballs]
  have single := querySingle_lookup inp q bestAddr
  split
  · exact single
  split
  · exact single
  split
  · exact ⟨by simp [ReadOnly], rfl, by simp⟩
  split
  · exact single
  · exact queryRace_lookup inp q bestAddr secondAddr

lemma acceptResponse_queried {request response m : Msg} {earlier : List Msg} {addr : String}
    {before : List Effect} (bad : ∀ b ∈ earlier, b.rcode ≠ rcodeSuccess)
    (success : m.rcode = rcodeSuccess) (readOnly : ReadOnly before)
    (received : receivedMsgs before = earlier ++ [m])
    (sent : .exchange addr request.q0.name request.q0.qtype ∈ before) :
    Queried request response ((acceptResponse request
      (if earlier = [] then response else mergeRcode response m) m).after before) := by
  have turnedDown (err : String) (mute : ¬ Echoes request.q0.name m) : Queried request response
      ⟨if earlier = [] then response else mergeRcode response m, before, .error err⟩ := by
    by_cases primary : earlier = []
    · rw [if_pos primary]
      exact .failed err before readOnly (.inr ⟨m, by simpa [primary] using received, success, mute⟩)
    · rw [if_neg primary]
      exact .rejected earlier m err before readOnly received (.inr ⟨primary, mute⟩)
  rw [acceptResponse]
  by_cases asked : m.question = []
  · simpa only [if_pos asked, QueryOut.after, List.append_nil] using
      turnedDown _ fun echoes => echoes.1 asked
  by_cases same : m.q0.name = request.q0.name
  · simpa only [if_neg asked, ne_eq, same, not_true_eq_false, if_false, QueryOut.after] using
      Queried.accepted earlier m addr before bad success ⟨asked, same⟩ readOnly received sent
  · simpa only [if_neg asked, ne_eq, same, not_false_eq_true, if_true, QueryOut.after,
      List.append_nil] using turnedDown _ fun echoes => same echoes.2

lemma retryAlternate_queried (env : Env) (inp : Input) {request response m : Msg}
    (bestAddr secondAddr theBestIP badRcode : String) {before : List Effect}
    (bad : m.rcode ≠ rcodeSuccess) (readOnly : ReadOnly before)
    (received : receivedMsgs before = [m]) :
    Queried request response ((retryAlternate env inp request (mergeRcode response m)
      bestAddr secondAddr theBestIP badRcode).after before) := by
  have alone (err : String) (effects : List Effect) (quiet : ReadOnly effects)
      (unread : receivedMsgs effects = []) : Queried request response
        ((⟨mergeRcode response m, effects, .error err⟩ : QueryOut).after before) := by
    refine .rejected [] m err (before ++ effects) (readOnly.append quiet) ?_ (.inl bad)
    rw [receivedMsgs_append, received, unread]
    rfl
  simp only [retryAlternate]
  generalize (if theBestIP = secondAddr then bestAddr else secondAddr) = altAddr
  split
  · exact alone _ _ (by simp [ReadOnly, Effect.writes]) rfl
  split
  · exact alone _ _ (by simp [ReadOnly, Effect.writes]) rfl
  cases inp.retry with
  | error e => exact alone _ _ (by simp [ReadOnly, Effect.writes]) rfl
  | ok rep =>
    dsimp only
    rw [mergeRcode_twice]
    -- the alternate server answered: its Rcode decides
    have quiet : ReadOnly (retryEffects request.q0 theBestIP altAddr rep) := by
      simp [ReadOnly, retryEffects, Effect.writes]
    have both : receivedMsgs (before ++ retryEffects request.q0 theBestIP altAddr rep) =
        [m] ++ [rep.msg] := by
      rw [receivedMsgs_append, received]
      rfl
    have sent : .exchange altAddr request.q0.name request.q0.qtype ∈
        before ++ retryEffects request.q0 theBestIP altAddr rep := by
      simp [retryEffects]
    split
    · rename_i success
      rw [QueryOut.after_after]
      have accepted : Queried request response ((acceptResponse request
          (if [m] = [] then response else mergeRcode response rep.msg) rep.msg).after
            (before ++ retryEffects request.q0 theBestIP altAddr rep)) :=
        acceptResponse_queried (by simpa using bad) success (readOnly.append quiet) both sent
      simpa using accepted
    · rename_i refused
      split
      · rename_i nameError
        exact .nxdomain [m] rep.msg _ nameError (readOnly.append quiet) both
      · exact .rejected [m] rep.msg _ _ (readOnly.append quiet) both (.inl refused)

lemma checkResponse_queried (env : Env) (inp : Input) {request response m : Msg}
    (bestAddr secondAddr theBestIP : String) {addr : String} {before : List Effect}
    (readOnly : ReadOnly before) (received : receivedMsgs before = [m])
    (sent : .exchange addr request.q0.name request.q0.qtype ∈ before) :
    Queried request response ((checkResponse env inp request response
      bestAddr secondAddr theBestIP m).after before) := by
  simp only [checkResponse]
  split
  · rename_i success
    exact acceptResponse_queried (fun b none => absurd none List.not_mem_nil) success readOnly
      received sent
  · rename_i bad
    split
    · rename_i nameError
      simpa [QueryOut.after] using Queried.nxdomain [] m before nameError readOnly received
    split
    · exact retryAlternate_queried env inp bestAddr secondAddr theBestIP _ bad readOnly received
    · simpa [QueryOut.after] using Queried.rejected [] m _ before readOnly received (.inl bad)

/-- Inversion of QUERY_UPSTREAM once its addresses are known. -/
theorem queryUpstreamWith_queried (env : Env) (inp : Input) (request response : Msg)
    (ipList : List String) :
    Queried request response (queryUpstreamWith env inp request response ipList) := by
  simp only [queryUpstreamWith]
  split
  · exact .failed _ _ (by simp [ReadOnly]) (.inl rfl)
  split
  · exact .noServer
  have lookup := queryHappyEyeballs_lookup inp request.q0
    (inp.bestIPs ipList).1 (inp.bestIPs ipList).2
  cases race : queryHappyEyeballs inp request.q0
      (inp.bestIPs ipList).1 (inp.bestIPs ipList).2 with
  | mk sentEffects ans =>
    rw [race] at lookup
    cases ans with
    | error e => exact .failed e sentEffects lookup.readOnly (.inl lookup.unread)
    | ok winner =>
      obtain ⟨addr, sent⟩ := lookup.sent winner rfl
      have received : receivedMsgs (sentEffects ++
          [.received winner.2.msg, .recordLatency winner.1 winner.2.rtt]) = [winner.2.msg] := by
        rw [receivedMsgs_append, show receivedMsgs sentEffects = [] from lookup.unread]
        rfl
      exact checkResponse_queried env inp _ _ _
        (lookup.readOnly.append (by simp [ReadOnly, Effect.writes])) received
        (List.mem_append_left _ sent)

/-! ### Which addresses are queried -/

def sentTo? : Effect → Option String
  | .exchange addr _ _ => some addr
  | _ => none

/-- The addresses that queries go to, in order. -/
def sentTo (effects : List Effect) : List String := effects.filterMap sentTo?

@[simp] theorem sentTo_append (xs ys : List Effect) : sentTo (xs ++ ys) = sentTo xs ++ sentTo ys :=
  List.filterMap_append

lemma sentTo_cacheEffects (m : Msg) : sentTo (cacheEffects m) = [] := by
  refine List.filterMap_eq_nil_iff.mpr ?_
  intro e mem
  rcases mem_cacheEffects mem with ⟨_, _, _, rfl⟩ | ⟨_, _, _, _, rfl⟩
  · rfl
  · rfl

/-- At most `n` queries, each to one of the two addresses and none to an empty one. -/
structure Sends (n : Nat) (bestAddr secondAddr : String) (effects : List Effect) : Prop where
  count : (sentTo effects).length ≤ n
  only : ∀ addr ∈ sentTo effects, (addr = bestAddr ∨ addr = secondAddr) ∧ addr ≠ ""

section

variable {n : Nat} {bestAddr secondAddr : String} {effects : List Effect}

lemma sends_none (none_sent : sentTo effects = []) : Sends n bestAddr secondAddr effects := by
  constructor
  · rw [none_sent]
    exact Nat.zero_le n
  · intro addr mem
    rw [none_sent] at mem
    cases mem

lemma sends_one {addr : String} (given : addr = bestAddr ∨ addr = secondAddr)
    (some_text : addr ≠ "") (one_sent : sentTo effects = [addr]) :
    Sends 1 bestAddr secondAddr effects := by
  constructor
  · rw [one_sent]
    exact Nat.le_refl 1
  · intro addr' mem
    rw [one_sent] at mem
    rw [List.mem_singleton.mp mem]
    exact ⟨given, some_text⟩

lemma Sends.append {m : Nat} {later : List Effect} (first : Sends n bestAddr secondAddr effects)
    (last : Sends m bestAddr secondAddr later) :
    Sends (n + m) bestAddr secondAddr (effects ++ later) := by
  constructor
  · rw [sentTo_append, List.length_append]
    exact Nat.add_le_add first.count last.count
  · intro addr mem
    rw [sentTo_append] at mem
    rcases List.mem_append.mp mem with mem | mem
    · exact first.only addr mem
    · exact last.only addr mem

lemma Sends.mono {m : Nat} (sends : Sends n bestAddr secondAddr effects) (le : n ≤ m) :
    Sends m bestAddr secondAddr effects :=
  ⟨Nat.le_trans sends.count le, sends.only⟩

lemma querySingle_sends (inp : Input) (q : Question) (some_text : bestAddr ≠ "") :
    Sends 1 bestAddr secondAddr (querySingle inp q bestAddr).1 := by
  rw [querySingle]
  cases inp.gateSingle with
  | false => exact sends_none rfl
  | true =>
    cases inp.best with
    | error e => exact sends_one (.inl rfl) some_text rfl
    | ok rep => exact sends_one (.inl rfl) some_text rfl

lemma queryRace_sends (inp : Input) (q : Question) (some_text : bestAddr ≠ "")
    (second_text : secondAddr ≠ "") :
    Sends 2 bestAddr secondAddr (queryRace inp q bestAddr secondAddr).1 := by
  have both : sentTo (queryRace inp q bestAddr secondAddr).1 = [bestAddr, secondAddr] := by
    simp only [queryRace]
    split
    · rfl
    split
    · rfl
    · rfl
  constructor
  · rw [both]
    exact Nat.le_refl 2
  · intro addr mem
    rw [both] at mem
    rcases List.mem_pair.mp mem with rfl | rfl
    · exact ⟨.inl rfl, some_text⟩
    · exact ⟨.inr rfl, second_text⟩

lemma queryHappyEyeballs_sends (inp : Input) (q : Question) (some_text : bestAddr ≠ "") :
    Sends 2 bestAddr secondAddr (queryHappyEyeballs inp q bestAddr secondAddr).1 := by
  have single : Sends 2 bestAddr secondAddr (querySingle inp q bestAddr).1 :=
    (querySingle_sends inp q some_text).mono (Nat.le_succ 1)
  rw [queryHappyEyeballs]
  split
  · exact single
  rename_i second_text
  split
  · exact single
  split
  · exact sends_none rfl
  split
  · exact single
  · exact queryRace_sends inp q some_text second_text

lemma acceptResponse_sends (request response m : Msg) :
    Sends 0 bestAddr secondAddr (acceptResponse request response m).effects := by
  rw [acceptResponse]
  split
  · exact sends_none rfl
  split
  · exact sends_none rfl
  · exact sends_none (sentTo_cacheEffects m)

lemma retryAlternate_sends (env : Env) (inp : Input) (request response : Msg)
    (theBestIP badRcode : String) :
    Sends 1 bestAddr secondAddr
      (retryAlternate env inp request response bestAddr secondAddr theBestIP badRcode).effects := by
  have given : (if theBestIP = secondAddr then bestAddr else secondAddr) = bestAddr ∨
      (if theBestIP = secondAddr then bestAddr else secondAddr) = secondAddr := by
    split
    · exact .inl rfl
    · exact .inr rfl
  simp only [retryAlternate]
  generalize (if theBestIP = secondAddr then bestAddr else secondAddr) = altAddr at given
  split
  · exact sends_none rfl
  rename_i usable
  have some_text : altAddr ≠ "" := fun empty => usable (.inl empty)
  split
  · exact sends_none rfl
  cases inp.retry with
  | error e => exact sends_one given some_text rfl
  | ok rep =>
    have retried : Sends 1 bestAddr secondAddr (retryEffects request.q0 theBestIP altAddr rep) :=
      sends_one given some_text rfl
    dsimp only
    split
    · exact retried.append (acceptResponse_sends request _ rep.msg)
    split
    · exact retried
    · exact retried

lemma checkResponse_sends (env : Env) (inp : Input) (request response : Msg)
    (theBestIP : String) (m : Msg) :
    Sends 1 bestAddr secondAddr
      (checkResponse env inp request response bestAddr secondAddr theBestIP m).effects := by
  simp only [checkResponse]
  split
  · exact (acceptResponse_sends request response m).mono (Nat.zero_le 1)
  split
  · exact sends_none rfl
  split
  · exact retryAlternate_sends env inp request _ theBestIP _
  · exact sends_none rfl

end

/-- Two raced queries and one to the alternate address. -/
theorem queryUpstreamWith_sends (env : Env) (inp : Input) (request response : Msg)
    (ipList : List String) :
    Sends 3 (inp.bestIPs ipList).1 (inp.bestIPs ipList).2
      (queryUpstreamWith env inp request response ipList).effects := by
  simp only [queryUpstreamWith]
  split
  · exact sends_none rfl
  split
  · exact sends_none rfl
  rename_i some_text
  have raced : Sends 2 (inp.bestIPs ipList).1 (inp.bestIPs ipList).2 (queryHappyEyeballs inp
      request.q0 (inp.bestIPs ipList).1 (inp.bestIPs ipList).2).1 :=
    queryHappyEyeballs_sends inp request.q0 some_text
  split
  · rename_i sent e looked
    rw [looked] at raced
    exact raced.mono (Nat.le_succ 2)
  · rename_i sent theBestIP rep looked
    rw [looked] at raced
    have noted : Sends 0 (inp.bestIPs ipList).1 (inp.bestIPs ipList).2
        [.received rep.msg, .recordLatency theBestIP rep.rtt] := sends_none rfl
    exact (raced.append noted).append (checkResponse_sends env inp request response theBestIP _)

end UpstreamQuery
