import Rec53.StateMachine

/-!
# CNAME chains in the cache

A resolution that finds a CNAME record in the cache at every name it comes to. It
makes two visits for each record and never leaves CACHE_LOOKUP and CLASSIFY_RESP, so
the state it is in after any number of records can be written down: `atHop`. The
round limit is met in the lookup of the twenty-fourth name, and a cycle is noticed at
the first target that was a target before; the name that was asked is not among them.
-/

namespace CachedChain

open DnsMessage Platform DnsCache LocalConfig StateHandlers StateMachine

/-- The cache has an entry for the question, with this answer. -/
def Cached (w : World) (name : String) (qtype : Nat) (answer : List RR) : Prop :=
  ∃ cached, getCacheCopyByType w name qtype = some cached ∧ cached.answer = answer

/-- The CNAME record from the `i`-th name to the next. -/
def link (c : Nat → String) (class_ ttl : Nat → Nat) (i : Nat) : RR :=
  ⟨c i, class_ i, ttl i, .cname (c (i + 1))⟩

/-- A well-formed request that neither the hosts table nor a forwarding zone answers. -/
structure Asked (env : Env) (request : Msg) (q : Question) : Prop
    extends HostsMissed env request q where
  outside : matchedZone env q.name = none

/-- The targets of the first `i` records, the last one first. -/
def targets (c : Nat → String) : Nat → List String
  | 0 => []
  | i + 1 => c (i + 1) :: targets c i

lemma mem_targets {c : Nat → String} {i : Nat} {name : String} :
    name ∈ targets c i ↔ ∃ m < i, name = c (m + 1) := by
  induction i with
  | zero => simp [targets]
  | succ i ih =>
    rw [targets, List.mem_cons, ih]
    constructor
    · rintro (rfl | ⟨m, lt, rfl⟩)
      · exact ⟨i, Nat.lt_succ_self i, rfl⟩
      · exact ⟨m, Nat.lt_succ_of_lt lt, rfl⟩
    · rintro ⟨m, lt, rfl⟩
      rcases Nat.lt_succ_iff_lt_or_eq.mp lt with earlier | rfl
      · exact .inr ⟨m, earlier, rfl⟩
      · exact .inl rfl

section Hops

variable (env : Env) (request : Msg) (depth : Nat) (c : Nat → String) (class_ ttl : Nat → Nat)

/-- The resolution before the lookup of the `i`-th name. -/
def atHop (i : Nat) : Resolution where
  st := .cacheLookup
  request := renameQuestion request (c i)
  response := ({} : Msg).setReply request
  visitedDomains := targets c i
  originalQuestion := request.q0
  cnameChain := (List.range i).map (link c class_ ttl)
  iterations := 4 + 2 * i
  depth := depth

/-- The resolution with what the cache has for the `i`-th name. -/
def atAnswer (i : Nat) (answer : List RR) : Resolution :=
  { atHop request depth c class_ ttl i with
    st := .classifyResp
    response := { ({} : Msg).setReply request with answer := answer }
    iterations := 5 + 2 * i }

variable {env request} {q : Question} (asked : Asked env request q)

include asked

lemma q0_rename (name : String) : (renameQuestion request name).q0 = { q with name := name } := by
  simp only [renameQuestion, asked.single]
  rfl

lemma rename_rename (a b : String) :
    renameQuestion (renameQuestion request a) b = renameQuestion request b := by
  simp only [renameQuestion, asked.single]

lemma rename_self (first : c 0 = q.name) : renameQuestion request (c 0) = request := by
  simp only [renameQuestion, asked.single, first]
  rw [← asked.single]

variable (first : c 0 = q.name) (v : Visit)

include first in
lemma visit_forward : visitEffects env (.next (opened request depth .forwardLookup 3)) v =
    ([], .next (atHop request depth c class_ ttl 0)) := by
  have miss : forwardLookupHandle env v.input request (({} : Msg).setReply request) =
      (.miss, ({} : Msg).setReply request, []) := by
    simp [forwardLookupHandle, asked.q0_eq, asked.outside]
  simp only [visitEffects, iterate, opened, start, forwardRound, miss, atHop,
    rename_self c asked first]
  rfl

lemma cacheLookup_hit {i : Nat} {answer : List RR} (nonempty : answer ≠ [])
    (cached : Cached v.world (c i) q.qtype answer) :
    cacheLookupHandle v.world (renameQuestion request (c i)) (({} : Msg).setReply request) =
      (.hit, { ({} : Msg).setReply request with answer := answer }) := by
  obtain ⟨msg, found, rfl⟩ := cached
  simp only [cacheLookupHandle, q0_rename asked, found, if_pos nonempty]
  rfl

/-- The lookup of a cached name. -/
lemma visit_lookup {i : Nat} {answer : List RR} (early : i < 23) (nonempty : answer ≠ [])
    (cached : Cached v.world (c i) q.qtype answer) :
    visitEffects env (.next (atHop request depth c class_ ttl i)) v =
      ([], .next (atAnswer request depth c class_ ttl i answer)) := by
  have hit := cacheLookup_hit c asked v nonempty cached
  have more : 4 + 2 * i < maxIterations := by
    rw [maxIterations]
    omega
  simp only [visitEffects, iterate, atHop, cacheRound, hit]
  rw [goto_of_lt more, atAnswer, atHop, Nat.add_right_comm]

/-- The twenty-fourth name is looked up in the last round. -/
lemma visit_last {answer : List RR} (nonempty : answer ≠ [])
    (cached : Cached v.world (c 23) q.qtype answer) :
    visitEffects env (.next (atHop request depth c class_ ttl 23)) v =
      ([], .done { atHop request depth c class_ ttl 23 with
        response := { ({} : Msg).setReply request with answer := answer } }
          (.error maxIterationsError)) := by
  have hit := cacheLookup_hit c asked v nonempty cached
  simp only [visitEffects, iterate, atHop, cacheRound, hit]
  rfl

/-- A link is neither negative nor an answer of another type. -/
lemma classify_link {i : Nat} (other : q.qtype ≠ typeCNAME) :
    classifyRespHandle (atAnswer request depth c class_ ttl i [link c class_ ttl i]).request
        (atAnswer request depth c class_ ttl i [link c class_ ttl i]).response =
      (.getCname, []) := by
  change classifyRespHandle (renameQuestion request (c i))
    { ({} : Msg).setReply request with answer := [link c class_ ttl i] } = _
  have unasked : ¬ (([link c class_ ttl i].any fun rr => rr.rrtype == q.qtype) = true) := by
    simpa [link, RR.rrtype, RData.rrtype] using Ne.symm other
  have aliased : q.qtype ≠ typeCNAME ∧ [link c class_ ttl i].any RR.isCNAME = true :=
    ⟨other, rfl⟩
  rw [classifyRespHandle, q0_rename asked, if_neg (by simp [isNegative]), if_neg (by simp),
    if_neg unasked, if_pos aliased]

lemma visit_followed {i : Nat} {followed : Resolution} (other : q.qtype ≠ typeCNAME)
    (ok : followCNAME env.lib (atAnswer request depth c class_ ttl i [link c class_ ttl i]) =
      .ok followed) :
    visitEffects env (.next (atAnswer request depth c class_ ttl i [link c class_ ttl i])) v =
      ([], followed.goto .cacheLookup) := by
  change classifyRound env (atAnswer request depth c class_ ttl i [link c class_ ttl i]) = _
  simp only [classifyRound, classify_link depth c class_ ttl asked other, ok]

lemma visit_not_followed {i : Nat} {err : String} (other : q.qtype ≠ typeCNAME)
    (failed : followCNAME env.lib (atAnswer request depth c class_ ttl i [link c class_ ttl i]) =
      .error err) :
    visitEffects env (.next (atAnswer request depth c class_ ttl i [link c class_ ttl i])) v =
      ([], .done (atAnswer request depth c class_ ttl i [link c class_ ttl i]) (.error err)) := by
  change classifyRound env (atAnswer request depth c class_ ttl i [link c class_ ttl i]) = _
  simp only [classifyRound, classify_link depth c class_ ttl asked other, failed]

lemma visit_alias {i : Nat} (early : i < 23) (other : q.qtype ≠ typeCNAME)
    (named : c (i + 1) ≠ "") (fresh : c (i + 1) ∉ targets c i) :
    visitEffects env (.next (atAnswer request depth c class_ ttl i [link c class_ ttl i])) v =
      ([], .next (atHop request depth c class_ ttl (i + 1))) := by
  have followed : followCNAME env.lib
      (atAnswer request depth c class_ ttl i [link c class_ ttl i]) =
        .ok { atHop request depth c class_ ttl (i + 1) with
          st := .classifyResp, iterations := 5 + 2 * i } := by
    change (if c (i + 1) = "" then _ else if c (i + 1) ∈ targets c i then _ else _) = _
    rw [if_neg named, if_neg fresh]
    have renamed : renameQuestion (renameQuestion request (c i)) (c (i + 1)) =
        renameQuestion request (c (i + 1)) := rename_rename asked _ _
    have longer : (List.range i).map (link c class_ ttl) ++ [link c class_ ttl i] =
        (List.range (i + 1)).map (link c class_ ttl) := by
      rw [List.range_succ, List.map_append]
      rfl
    simp only [followTo, atAnswer, atHop, RR.target, link] at renamed longer ⊢
    rw [renamed, longer]
    rfl
  have more : 5 + 2 * i < maxIterations := by
    rw [maxIterations]
    omega
  rw [visit_followed depth c class_ ttl asked v other followed]
  have rounds : 5 + 2 * i + 1 = 4 + 2 * (i + 1) := by omega
  rw [goto_of_lt more, rounds, atHop]

lemma visit_cycle {i : Nat} (other : q.qtype ≠ typeCNAME)
    (named : c (i + 1) ≠ "") (seen : c (i + 1) ∈ targets c i) :
    visitEffects env
        (.next (atAnswer request depth c class_ ttl i [link c class_ ttl i])) v =
      ([], .done (atAnswer request depth c class_ ttl i [link c class_ ttl i])
        (.error ("CNAME cycle detected: " ++ c (i + 1)))) := by
  have failed : followCNAME env.lib
      (atAnswer request depth c class_ ttl i [link c class_ ttl i]) =
        .error ("CNAME cycle detected: " ++ c (i + 1)) := by
    change (if c (i + 1) = "" then _ else if c (i + 1) ∈ targets c i then _ else _) = _
    rw [if_neg named, if_pos seen]
    rfl
  exact visit_not_followed depth c class_ ttl asked v other failed

lemma visit_answer {i : Nat} {answer : List RR} (early : i < 23)
    (wanted : ∃ rr ∈ answer, rr.rrtype = q.qtype) :
    visitEffects env (.next (atAnswer request depth c class_ ttl i answer)) v =
      ([], .next { atAnswer request depth c class_ ttl i answer with
        st := .returnResp, iterations := 6 + 2 * i }) := by
  have any_wanted : (answer.any fun rr => rr.rrtype == q.qtype) = true := by
    simpa using wanted
  have nonempty : answer ≠ [] := by
    rintro rfl
    cases any_wanted
  have classified : classifyRespHandle (atAnswer request depth c class_ ttl i answer).request
      (atAnswer request depth c class_ ttl i answer).response = (.getAns, []) := by
    change classifyRespHandle (renameQuestion request (c i))
      { ({} : Msg).setReply request with answer := answer } = _
    rw [classifyRespHandle, q0_rename asked, if_neg (by simp [isNegative, nonempty]),
      if_neg nonempty, if_pos any_wanted]
  have more : 5 + 2 * i < maxIterations := by
    rw [maxIterations]
    omega
  change classifyRound env (atAnswer request depth c class_ ttl i answer) = _
  simp only [classifyRound, classified]
  rw [goto_of_lt more, atAnswer, Nat.add_right_comm]

/-! ### Runs -/

variable (visits : List Visit)

/-- The first `n` visits of the resolution lead to an outcome and have no effect. -/
def Reaches (env : Env) (request : Msg) (depth : Nat) (visits : List Visit) (n : Nat)
    (o : Outcome) : Prop :=
  StepRuns.Silently (visit env) (fun o v => (visitEffects env o v).1)
    (.next (start request depth)) visits n o

omit asked in
lemma Reaches.next {visits : List Visit} {n : Nat} {o o' : Outcome}
    (reached : Reaches env request depth visits n o) (more : n < visits.length)
    (moves : ∀ v ∈ visits, visitEffects env o v = ([], o')) :
    Reaches env request depth visits (n + 1) o' := by
  apply StepRuns.Silently.next reached more
  intro v mem
  exact ⟨congrArg Prod.snd (moves v mem), congrArg Prod.fst (moves v mem)⟩

include first in
lemma reaches_first (enough : 3 ≤ visits.length) :
    Reaches env request depth visits 3 (.next (atHop request depth c class_ ttl 0)) := by
  have started : Reaches env request depth visits 0 (.next (start request depth)) :=
    StepRuns.Silently.start _ _ _ _
  have at_hosts := started.next depth (by omega) fun v _ => visit_init asked.toHostsMissed depth v
  have at_forward := at_hosts.next depth (by omega) fun v _ =>
    visit_hosts asked.toHostsMissed depth v
  exact at_forward.next depth (by omega) fun v _ => visit_forward depth c class_ ttl asked first v

omit asked in
lemma Reaches.ended {visits : List Visit} {n : Nat} {r : Resolution} {result : Except String Msg}
    (reached : Reaches env request depth visits n (.done r result)) (within : n ≤ visits.length) :
    resolve env request depth visits = .done r result ∧ effects env request depth visits = [] :=
  StepRuns.Silently.stays reached within fun _ _ => ⟨rfl, rfl⟩

variable {visits} (enough : maxIterations ≤ visits.length) (other : q.qtype ≠ typeCNAME)

include first enough other in
/-- Each record takes two visits, unless its target was a target before. -/
lemma reaches_hop_or_cycle {i : Nat} (within : i ≤ 23) (named : ∀ m ≤ i, c m ≠ "")
    (aliased : ∀ v ∈ visits, ∀ m < i, Cached v.world (c m) q.qtype [link c class_ ttl m]) :
    Reaches env request depth visits (3 + 2 * i) (.next (atHop request depth c class_ ttl i)) ∨
      (∃ m < i, c (m + 1) ∈ targets c m) ∧
        ∃ r err, Reaches env request depth visits (3 + 2 * i) (.done r (.error err)) := by
  rw [maxIterations] at enough
  induction i with
  | zero => exact .inl (reaches_first depth c class_ ttl asked first visits (by omega))
  | succ i ih =>
    have before := ih (by omega) (fun m le => named m (by omega))
      fun v mem m lt => aliased v mem m (by omega)
    rcases before with hop | ⟨⟨m, lt, seen⟩, r, err, failed⟩
    · have looked_up := hop.next depth (by omega) fun v mem =>
        visit_lookup depth c class_ ttl asked v (by omega) (List.cons_ne_nil _ _)
          (aliased v mem i (by omega))
      by_cases seen : c (i + 1) ∈ targets c i
      · right
        have failed := looked_up.next depth (by omega) fun v _ =>
          visit_cycle depth c class_ ttl asked v other (named (i + 1) (by omega)) seen
        exact ⟨⟨i, by omega, seen⟩, _, _, failed⟩
      · left
        exact looked_up.next depth (by omega) fun v _ =>
          visit_alias depth c class_ ttl asked v (by omega) other (named (i + 1) (by omega)) seen
    · right
      refine ⟨⟨m, by omega, seen⟩, r, err, ?_⟩
      have still := failed.next depth (by omega) fun v _ => rfl
      exact still.next depth (by omega) fun v _ => rfl

include enough in
/-- The round limit ends the resolution at the twenty-fourth name. -/
lemma fails_at_limit
    (hop : Reaches env request depth visits 49 (.next (atHop request depth c class_ ttl 23)))
    {answer : List RR} (nonempty : answer ≠ [])
    (cached : ∀ v ∈ visits, Cached v.world (c 23) q.qtype answer) :
    (∃ r, resolve env request depth visits = .done r (.error maxIterationsError)) ∧
      effects env request depth visits = [] := by
  rw [maxIterations] at enough
  have failed := hop.next depth (by omega) fun v mem =>
    visit_last depth c class_ ttl asked v nonempty (cached v mem)
  obtain ⟨ended, quiet⟩ := failed.ended depth (by omega)
  exact ⟨⟨_, ended⟩, quiet⟩

include enough in
/-- A name with an answer ends it earlier, with the records on the way in front. -/
lemma serves_at_end {k : Nat} (early : k < 23)
    (hop : Reaches env request depth visits (3 + 2 * k)
      (.next (atHop request depth c class_ ttl k)))
    {answer : List RR} (wanted : ∃ rr ∈ answer, rr.rrtype = q.qtype)
    (cached : ∀ v ∈ visits, Cached v.world (c k) q.qtype answer) :
    (∃ r reply, resolve env request depth visits = .done r (.ok reply) ∧
      reply.rcode = rcodeSuccess ∧ reply.question = [q] ∧
      reply.answer = (List.range k).map (link c class_ ttl) ++ answer) ∧
      effects env request depth visits = [] := by
  have nonempty : answer ≠ [] := by
    obtain ⟨rr, mem, _⟩ := wanted
    exact List.ne_nil_of_mem mem
  rw [maxIterations] at enough
  have looked_up := hop.next depth (by omega) fun v mem =>
    visit_lookup depth c class_ ttl asked v early nonempty (cached v mem)
  have classified := looked_up.next depth (by omega) fun v _ =>
    visit_answer depth c class_ ttl asked v early wanted
  have returned := classified.next depth (by omega) fun v _ => rfl
  obtain ⟨ended, quiet⟩ := returned.ended depth (by omega)
  refine ⟨⟨_, _, ended, rfl, ?_, rfl⟩, quiet⟩
  have single : request.question ≠ [] := by
    rw [asked.single]
    exact List.cons_ne_nil q []
  change request.q0 :: (if request.question = [] then [] else [request.q0]).tail = [q]
  rw [if_neg single, asked.q0_eq]
  rfl

include first enough other in
/-- A chain without an end ends in an error, by a cycle or by the limit. -/
lemma endless_fails (named : ∀ m, c m ≠ "")
    (aliased : ∀ v ∈ visits, ∀ m, Cached v.world (c m) q.qtype [link c class_ ttl m]) :
    (∃ r err, resolve env request depth visits = .done r (.error err)) ∧
      effects env request depth visits = [] := by
  rcases reaches_hop_or_cycle depth c class_ ttl asked first enough other (i := 23) (by omega)
      (fun m _ => named m) (fun v mem m _ => aliased v mem m) with hop | ⟨_, r, err, failed⟩
  · obtain ⟨⟨r, ended⟩, quiet⟩ := fails_at_limit depth c class_ ttl asked enough hop
      (List.cons_ne_nil _ _) fun v mem => aliased v mem 23
    exact ⟨⟨r, _, ended⟩, quiet⟩
  · have within : 49 ≤ visits.length := by
      rw [maxIterations] at enough
      omega
    obtain ⟨ended, quiet⟩ := failed.ended depth within
    exact ⟨⟨r, err, ended⟩, quiet⟩

end Hops

/-! ### Cycles -/

/-- The position on a chain that goes on at `back` after `last` names. -/
def around (back last : Nat) : Nat → Nat
  | 0 => 0
  | m + 1 => if around back last m + 1 < last then around back last m + 1 else back

lemma around_lt {back last : Nat} (lt : back < last) (m : Nat) : around back last m < last := by
  induction m with
  | zero => exact Nat.zero_lt_of_lt lt
  | succ m ih =>
    rw [around]
    split
    · assumption
    · exact lt

lemma around_next {c : Nat → String} {back last : Nat} (closed : c back = c last) (lt : back < last)
    (m : Nat) : c (around back last (m + 1)) = c (around back last m + 1) := by
  rw [around]
  split
  · rfl
  · rename_i past
    have before := around_lt lt m
    have ends : around back last m + 1 = last := by omega
    rw [ends, closed]

lemma distinct_fresh {c : Nat → String} {k : Nat} (distinct : ∀ i j, i < j → j ≤ k → c i ≠ c j)
    {m : Nat} (lt : m < k) : c (m + 1) ∉ targets c m := by
  intro seen
  obtain ⟨i, earlier, same⟩ := mem_targets.mp seen
  exact distinct (i + 1) (m + 1) (by omega) (by omega) same.symm

theorem cached_chain_followed (env : Env) (request : Msg) (q : Question)
    (asked : Asked env request q) (other : q.qtype ≠ typeCNAME) (depth : Nat)
    (visits : List Visit) (enough : maxIterations ≤ visits.length) (c : Nat → String)
    (class_ ttl : Nat → Nat) (first : c 0 = q.name) :
    (∀ k answer, (∀ i ≤ k, c i ≠ "") → (∀ i j, i < j → j ≤ k → c i ≠ c j) →
      (∀ v ∈ visits, ∀ i < k, Cached v.world (c i) q.qtype [link c class_ ttl i]) →
      (∀ v ∈ visits, Cached v.world (c k) q.qtype answer) →
      (∃ rr ∈ answer, rr.rrtype = q.qtype) →
        effects env request depth visits = [] ∧
        (k ≤ 22 → ∃ r reply, resolve env request depth visits = .done r (.ok reply) ∧
          reply.rcode = rcodeSuccess ∧ reply.question = [q] ∧
          reply.answer = (List.range k).map (link c class_ ttl) ++ answer) ∧
        (23 ≤ k → ∃ r, resolve env request depth visits = .done r (.error maxIterationsError))) ∧
    (∀ back last, back < last → c back = c last → (∀ i ≤ last, c i ≠ "") →
      (∀ v ∈ visits, ∀ i < last, Cached v.world (c i) q.qtype [link c class_ ttl i]) →
        effects env request depth visits = [] ∧
        ∃ r err, resolve env request depth visits = .done r (.error err)) := by
  constructor
  · intro k answer named distinct aliased cached wanted
    have reaches (i : Nat) (le : i ≤ k) (within : i ≤ 23) : Reaches env request depth visits
        (3 + 2 * i) (.next (atHop request depth c class_ ttl i)) := by
      rcases reaches_hop_or_cycle depth c class_ ttl asked first enough other within
          (fun m before => named m (by omega))
          (fun v mem m before => aliased v mem m (by omega)) with hop | ⟨⟨m, before, seen⟩, _⟩
      · exact hop
      · exact absurd seen (distinct_fresh distinct (by omega))
    by_cases short : k ≤ 22
    · obtain ⟨served, quiet⟩ := serves_at_end depth c class_ ttl asked enough (by omega)
        (reaches k (Nat.le_refl k) (by omega)) wanted cached
      exact ⟨quiet, fun _ => served, fun long => by omega⟩
    · have limit : ∃ answer, answer ≠ [] ∧
          ∀ v ∈ visits, Cached v.world (c 23) q.qtype answer := by
        by_cases last : k = 23
        · obtain ⟨rr, mem, _⟩ := wanted
          exact ⟨answer, List.ne_nil_of_mem mem, last ▸ cached⟩
        · exact ⟨_, List.cons_ne_nil _ _, fun v mem => aliased v mem 23 (by omega)⟩
      obtain ⟨_, nonempty, there⟩ := limit
      obtain ⟨failed, quiet⟩ := fails_at_limit depth c class_ ttl asked enough
        (reaches 23 (by omega) (Nat.le_refl 23)) nonempty there
      exact ⟨quiet, fun short' => absurd short' short, fun _ => failed⟩
  · intro back last lt closed named aliased
    have wrapped (m : Nat) : link (fun m => c (around back last m))
        (fun m => class_ (around back last m)) (fun m => ttl (around back last m)) m =
          link c class_ ttl (around back last m) := by
      simp only [link, around_next closed lt m]
    obtain ⟨failed, quiet⟩ := endless_fails depth (fun m => c (around back last m))
      (fun m => class_ (around back last m)) (fun m => ttl (around back last m)) asked first
      enough other (fun m => named _ (Nat.le_of_lt (around_lt lt m))) fun v mem m => by
        rw [wrapped]
        exact aliased v mem _ (around_lt lt m)
    exact ⟨quiet, failed⟩

/-- The alias `a.` of `b.`, and two names that are aliases of each other. -/
def aliasWorld : World :=
  perform plainLib (World.initial none 1 0)
    [.setByType "a." typeA { answer := [⟨"a.", classINET, 300, .cname "b."⟩] } 300,
      .setByType "b." typeA { answer := [⟨"b.", classINET, 300, .a "192.0.2.1"⟩] } 300,
      .setByType "x." typeA { answer := [⟨"x.", classINET, 300, .cname "y."⟩] } 300,
      .setByType "y." typeA { answer := [⟨"y.", classINET, 300, .cname "x."⟩] } 300]

def aliasVisits : List Visit := List.replicate 50 ⟨aliasWorld, .idle⟩

def addressQuery (name : String) : Msg := { question := [⟨name, typeA, classINET⟩] }

lemma addressQuery_asked (name : String) :
    Asked plainEnv (addressQuery name) ⟨name, typeA, classINET⟩ where
  single := rfl
  query := rfl
  opcode := rfl
  uncompiled := rfl
  unlisted := List.not_mem_nil
  outside := rfl

/-- Two names in turn. -/
def between (even odd : String) (i : Nat) : String := if i % 2 = 0 then even else odd

lemma cached_everywhere {name : String} {answer : List RR}
    (cached : (getCacheCopyByType aliasWorld name typeA).map Msg.answer = some answer) :
    ∀ v ∈ aliasVisits, Cached v.world name typeA answer := by
  intro v mem
  rw [List.eq_of_mem_replicate mem]
  exact Option.map_eq_some_iff.mp cached

theorem alias_resolved_and_cycle_refused :
    (∃ r reply, resolve plainEnv (addressQuery "a.") 0 aliasVisits = .done r (.ok reply) ∧
      reply.answer = [⟨"a.", classINET, 300, .cname "b."⟩,
        ⟨"b.", classINET, 300, .a "192.0.2.1"⟩]) ∧
    ∃ r err, resolve plainEnv (addressQuery "x.") 0 aliasVisits = .done r (.error err) := by
  constructor
  · have followed := (cached_chain_followed plainEnv (addressQuery "a.") ⟨"a.", typeA, classINET⟩
      (addressQuery_asked "a.") (by decide) 0 aliasVisits (by decide) (between "a." "b.")
      (fun _ => classINET) (fun _ => 300) rfl).1 1 [⟨"b.", classINET, 300, .a "192.0.2.1"⟩]
    have linked : ∀ v ∈ aliasVisits, ∀ i < 1, Cached v.world (between "a." "b." i) typeA
        [link (between "a." "b.") (fun _ => classINET) (fun _ => 300) i] := by
      intro v mem i lt
      obtain rfl : i = 0 := by omega
      exact cached_everywhere (by decide +kernel) v mem
    have distinct : ∀ i j, i < j → j ≤ 1 → between "a." "b." i ≠ between "a." "b." j := by
      intro i j lt le
      obtain ⟨rfl, rfl⟩ : i = 0 ∧ j = 1 := by omega
      decide
    obtain ⟨_, served, _⟩ := followed (by decide) distinct linked
      (cached_everywhere (by decide +kernel)) (by decide)
    obtain ⟨r, reply, ended, _, _, answers⟩ := served (by decide)
    exact ⟨r, reply, ended, answers⟩
  · have refused := (cached_chain_followed plainEnv (addressQuery "x.") ⟨"x.", typeA, classINET⟩
      (addressQuery_asked "x.") (by decide) 0 aliasVisits (by decide) (between "x." "y.")
      (fun _ => classINET) (fun _ => 300) rfl).2 0 2 (by decide) rfl (by decide)
    have linked : ∀ v ∈ aliasVisits, ∀ i < 2, Cached v.world (between "x." "y." i) typeA
        [link (between "x." "y.") (fun _ => classINET) (fun _ => 300) i] := by
      intro v mem i lt
      rcases Nat.lt_succ_iff_lt_or_eq.mp lt with zero | rfl
      · obtain rfl : i = 0 := by omega
        exact cached_everywhere (by decide +kernel) v mem
      · exact cached_everywhere (by decide +kernel) v mem
    exact (refused linked).2

end CachedChain
