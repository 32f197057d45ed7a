import Rec53.StateMachine
import Mathlib.Algebra.Group.Action.Defs
import Mathlib.Algebra.GroupWithZero.Nat
import Mathlib.Algebra.Order.BigOperators.Group.List
import Mathlib.Algebra.Order.Group.Nat

/-!
# The work done for one client query

The run of `Change` for a client may start nested runs for name-server names, in
`resolveNSIPsConcurrently`, which waits for all of them before it returns. The runs of
one client query are modelled together, the client's first. Each keeps a record of its
work that no step reads. Nothing in the step forbids a nested run to start further
ones; that none does is proved.

The shortest way from one query to the next is QUERY_UPSTREAM, CLASSIFY_RESP,
EXTRACT_GLUE, and the first query is in the seventh round at the earliest.
-/

namespace QueryWork

open DnsMessage Platform DnsCache StateHandlers UpstreamQuery StateMachine

/-! ### Exchanges of one query -/

def isExchange : Effect → Bool
  | .exchange _ _ _ => true
  | _ => false

def exchangesSent (effects : List Effect) : Nat := effects.countP isExchange

lemma exchangesSent_eq_length (effects : List Effect) :
    exchangesSent effects = (sentTo effects).length := by
  rw [exchangesSent, sentTo, List.length_filterMap_eq_countP]
  refine congrArg (effects.countP ·) (funext fun e => ?_)
  cases e with
  | exchange | received | recordFailure | recordLatency | setByType | setZone | updateNSIPs => rfl

theorem resume_exchangesSent (env : Env) (inp : Input) (r : Resolution) (source : IPSource) :
    exchangesSent (resume env inp r source).1 ≤ 3 := by
  obtain ⟨ipList, _, same⟩ := resume_effects env inp r source
  rw [same, exchangesSent_eq_length]
  exact (queryUpstreamWith_sends env inp r.request r.response ipList).count

/-! ### Rounds between queries -/

/-- The earliest round in which a state can be reached after `c` queries. Before the
first query the authority section is empty unless it came from a cached message, which
costs a round more. -/
def Reached (r : Resolution) (c : Nat) : Prop :=
  match r.st with
  | .stateInit => c = 0 ∧ 1 ≤ r.iterations ∧ r.response.ns = []
  | .hostsLookup => c = 0 ∧ 2 ≤ r.iterations ∧ r.response.ns = []
  | .forwardLookup => c = 0 ∧ 3 ≤ r.iterations ∧ r.response.ns = []
  | .cacheLookup =>
    6 + 3 * c ≤ r.iterations ∨ c = 0 ∧ 4 ≤ r.iterations ∧ r.response.ns = []
  | .classifyResp => 5 + 3 * c ≤ r.iterations
  | .extractGlue =>
    6 + 3 * c ≤ r.iterations ∨ c = 0 ∧ 5 ≤ r.iterations ∧ r.response.ns = []
  | .lookupNSCache => 6 + 3 * c ≤ r.iterations
  | .queryUpstream => 7 + 3 * c ≤ r.iterations
  | .returnResp => 5 + 3 * c ≤ r.iterations ∨ c = 0

/-- A run that has executed `handlers` handlers, `queries` of them QUERY_UPSTREAM. -/
def Paced (handlers queries : Nat) : Outcome → Prop
  | .next r => handlers + 1 = r.iterations ∧ r.iterations ≤ maxIterations ∧ Reached r queries
  | .await r _ =>
    handlers = r.iterations ∧ r.iterations ≤ maxIterations ∧ 4 + 3 * queries ≤ r.iterations
  | .done _ _ => handlers ≤ maxIterations ∧ queries ≤ 15

lemma Reached.queries_le {r : Resolution} {c : Nat} (reached : Reached r c)
    (within : r.iterations ≤ maxIterations) : c ≤ 15 := by
  rw [maxIterations] at within
  rw [Reached] at reached
  split at reached <;> omega

lemma Paced.bounds {handlers queries : Nat} {o : Outcome} (paced : Paced handlers queries o) :
    handlers ≤ maxIterations ∧ queries ≤ 15 := by
  cases o with
  | next r =>
    obtain ⟨count, within, reached⟩ := paced
    exact ⟨by omega, reached.queries_le within⟩
  | await r source =>
    obtain ⟨count, within, late⟩ := paced
    refine ⟨by omega, ?_⟩
    rw [maxIterations] at within
    omega
  | done r result => exact paced

lemma goto_paced {r : Resolution} {handlers queries : Nat} {st : StateKind}
    (count : handlers = r.iterations) (within : r.iterations ≤ maxIterations)
    (few : queries ≤ 15)
    (reached : Reached { r with st := st, iterations := r.iterations + 1 } queries) :
    Paced handlers queries (r.goto st) := by
  rcases r.goto_eq st with ⟨more, next⟩ | ⟨_, limit⟩
  · rw [next]
    exact ⟨congrArg (· + 1) count, more, reached⟩
  · rw [limit]
    exact ⟨by omega, few⟩

/-- One round executes one handler, and QUERY_UPSTREAM is counted when it begins. -/
lemma moved_paced {env : Env} {w : World} {inp : Input} {r : Resolution} {effects : List Effect}
    {o : Outcome} {handlers queries : Nat} (paced : Paced handlers queries (.next r))
    (moved : Moved env w inp r effects o) :
    Paced (handlers + 1) (if r.st = .queryUpstream then queries + 1 else queries) o := by
  obtain ⟨count, within, reached⟩ := paced
  have few := reached.queries_le within
  have limit := within
  rw [maxIterations] at limit
  cases moved with
  | query here =>
    simp only [Reached, here] at reached
    simp only [here, if_true]
    exact ⟨count, within, by omega⟩
  | cancelled here =>
    simp only [Reached, here] at reached
    simp only [here, if_true]
    exact ⟨by omega, by omega⟩
  | formerr here | forwardEnd here | cacheRefused here | cnameCycle here | finish here =>
    simp only [here, reduceCtorEq, if_false]
    exact ⟨by omega, few⟩
  | glueExist here rr rest first =>
    -- an authority section that is not empty took a round more
    simp only [Reached, here, first, reduceCtorEq, and_false, or_false] at reached
    simp only [here, reduceCtorEq, if_false]
    refine goto_paced count within few ?_
    simp only [Reached]
    omega
  | cname here | cnameIdle here | noAnswer here =>
    simp only [Reached, here] at reached
    simp only [here, reduceCtorEq, if_false]
    refine goto_paced count within few ?_
    exact .inl (show 6 + 3 * queries ≤ r.iterations + 1 by omega)
  | hostsHit here | forwardHit here | answer here | negative here | cacheHit here
  | cacheNegative here | nsCache here | glueKept here | glueCleared here =>
    simp only [Reached, here] at reached
    simp only [here, reduceCtorEq, if_false]
    refine goto_paced count within few ?_
    simp only [Reached]
    omega
  | init here | hostsMiss here =>
    simp only [Reached, here] at reached
    simp only [here, reduceCtorEq, if_false]
    refine goto_paced count within few ?_
    exact ⟨reached.1, Nat.succ_le_succ reached.2.1, reached.2.2⟩
  | forwardMiss here =>
    simp only [Reached, here] at reached
    simp only [here, reduceCtorEq, if_false]
    refine goto_paced count within few ?_
    exact .inr ⟨reached.1, Nat.succ_le_succ reached.2.1, reached.2.2⟩
  | cacheMiss here =>
    simp only [Reached, here] at reached
    simp only [here, reduceCtorEq, if_false]
    refine goto_paced count within few ?_
    rcases reached with late | ⟨first, early, empty⟩
    · exact .inl (Nat.le_succ_of_le late)
    · exact .inr ⟨first, Nat.succ_le_succ early, empty⟩

lemma resumed_paced {r : Resolution} {source : IPSource} {effects : List Effect} {o : Outcome}
    {handlers queries : Nat} (paced : Paced handlers queries (.await r source))
    (resumed : Resumed r effects o) : Paced handlers queries o := by
  have bounds := paced.bounds
  obtain ⟨count, within, late⟩ := paced
  cases resumed with
  | accepted | nxdomain =>
    refine goto_paced count within bounds.2 ?_
    simp only [Reached]
    omega
  | noServer | failed | rejected => exact bounds

lemma resume_paced {env : Env} {v : Visit} {r : Resolution} {source : IPSource}
    {handlers queries : Nat} (paced : Paced handlers queries (.await r source)) :
    Paced handlers queries (resume env v.input r source).2 :=
  resumed_paced paced (resume_resumed env v.input r source)

/-! ### The runs of one client query -/

/-- One run of `Change`. While it waits for nested runs, `pending` are the names whose
goroutine has not begun and `begun` the others. The rest records its work: the handlers
executed, the exchanges of each QUERY_UPSTREAM with the last one first, and the number
of names handed to `resolveNSIPsConcurrently`. -/
structure Run where
  parent : Option Nat
  outcome : Outcome
  pending : List String
  begun : List String
  handlers : Nat
  queried : List Nat
  handed : Nat

def Run.depth (run : Run) : Nat := run.outcome.resolution.depth

def Run.begin (parent : Option Nat) (request : Msg) (depth : Nat) : Run :=
  ⟨parent, .next (start request depth), [], [], 0, [], 0⟩

/-- A handler has been executed and the run has come to `outcome`. -/
def Run.entered (run : Run) (r : Resolution) (outcome : Outcome) : Run :=
  let run' := { run with
    outcome := outcome
    handlers := run.handlers + 1
    queried := if r.st = .queryUpstream then 0 :: run.queried else run.queried }
  match outcome with
  | .await _ (.resolve nsNames) =>
    { run' with pending := nsNames, begun := [], handed := run.handed + nsNames.length }
  | _ => run'

/-- The wait inside QUERY_UPSTREAM is over. -/
def Run.resumed (run : Run) (effects : List Effect) (outcome : Outcome) : Run :=
  { run with
    outcome := outcome
    pending := []
    begun := []
    queried := exchangesSent effects :: run.queried.tail }

def Run.visit (env : Env) (run : Run) (v : Visit) : Run :=
  match run.outcome with
  | .next r => run.entered r (iterate env v.world v.input r).2
  | .await r source =>
    run.resumed (resume env v.input r source).1 (resume env v.input r source).2
  | .done _ _ => run

def isDone : Outcome → Bool
  | .done _ _ => true
  | _ => false

/-- No nested run of `i` is still going on. -/
def nestedOver (runs : List Run) (i : Nat) : Bool :=
  runs.all fun run => run.parent != some i || isDone run.outcome

inductive Event where
  | visit (i : Nat) (v : Visit)
  | nest (i k id : Nat)

/-- `nest` is a goroutine of `resolveNSIPsConcurrently` that gets its slot; the run
that waits goes on when all that have begun are over. -/
def step (env : Env) (runs : List Run) : Event → List Run
  | .visit i v =>
    match runs[i]? with
    | none => runs
    | some run =>
      match run.outcome with
      | .await _ (.resolve _) => if nestedOver runs i then runs.set i (run.visit env v) else runs
      | _ => runs.set i (run.visit env v)
  | .nest i k id =>
    match runs[i]? with
    | none => runs
    | some run =>
      match run.outcome, run.pending[k]? with
      | .await r (.resolve _), some nsName =>
        runs.set i { run with
            pending := run.pending.eraseIdx k, begun := nsName :: run.begun } ++
          [.begin (some i) (newQuery id nsName typeA) (r.depth + 1)]
      | _, _ => runs

def clientQuery (env : Env) (request : Msg) (events : List Event) : List Run :=
  StepRuns.run (step env) [.begin none request 0] events

/-- What one event does: a visit of one run, or the start of a nested run. -/
inductive Stepped (env : Env) (runs : List Run) : List Run → Prop where
  | idle : Stepped env runs runs
  | visited (i : Nat) (v : Visit) (run : Run) (at_i : runs[i]? = some run) :
      Stepped env runs (runs.set i (run.visit env v))
  | nested (i k id : Nat) (run : Run) (r : Resolution) (nsNames : List String)
      (nsName : String) (at_i : runs[i]? = some run)
      (waits : run.outcome = .await r (.resolve nsNames))
      (picked : run.pending[k]? = some nsName) :
      Stepped env runs
        (runs.set i { run with
            pending := run.pending.eraseIdx k, begun := nsName :: run.begun } ++
          [.begin (some i) (newQuery id nsName typeA) (r.depth + 1)])

theorem step_stepped (env : Env) (runs : List Run) (e : Event) :
    Stepped env runs (step env runs e) := by
  cases e with
  | visit i v =>
    simp only [step]
    split
    · exact .idle
    · rename_i run at_i
      split
      · split
        · exact .visited i v run at_i
        · exact .idle
      · exact .visited i v run at_i
  | nest i k id =>
    simp only [step]
    split
    · exact .idle
    · rename_i run at_i
      split
      · rename_i waits picked
        exact .nested i k id run _ _ _ at_i waits picked
      · exact .idle

/-! ### What holds of every run -/

/-- A round ends in a wait only at QUERY_UPSTREAM. -/
lemma iterate_await {env : Env} {v : Visit} {r r' : Resolution} {source : IPSource}
    (waits : (iterate env v.world v.input r).2 = .await r' source) :
    r' = r ∧ r.st = .queryUpstream ∧ source = collectIPs v.world r.depth r.response := by
  have visited : visit env (.next r) v = .await r' source := waits
  obtain ⟨same, here, gathered⟩ := visit_await visited
  cases same
  exact ⟨rfl, here, gathered⟩

/-- Pace and exchanges of a run, and the names it waits for: those of the referral it
holds, each begun or still to begin once. -/
structure Run.Sound (run : Run) : Prop where
  paced : Paced run.handlers run.queried.length run.outcome
  few : ∀ n ∈ run.queried, n ≤ 3
  asked : ∀ r source, run.outcome = .await r source → run.queried ≠ []
  names : ∀ r nsNames, run.outcome = .await r (.resolve nsNames) →
    r.depth = 0 ∧ nsNames = getNSNamesFromResponse r.response ∧
      (run.begun ++ run.pending).Perm nsNames

lemma begin_sound (parent : Option Nat) (request : Msg) (depth : Nat) :
    (Run.begin parent request depth).Sound := by
  have within : 1 ≤ maxIterations := by decide
  refine ⟨⟨rfl, within, rfl, Nat.le_refl 1, rfl⟩, ?_, ?_, ?_⟩
  · intro n mem
    cases mem
  · intro r source waits
    cases waits
  · intro r nsNames waits
    cases waits

lemma Run.entered_queried (run : Run) (r : Resolution) (o : Outcome) :
    (run.entered r o).queried =
      if r.st = .queryUpstream then 0 :: run.queried else run.queried := by
  simp only [Run.entered]
  split <;> rfl

lemma Run.entered_handlers (run : Run) (r : Resolution) (o : Outcome) :
    (run.entered r o).handlers = run.handlers + 1 := by
  simp only [Run.entered]
  split <;> rfl

lemma Run.entered_outcome (run : Run) (r : Resolution) (o : Outcome) :
    (run.entered r o).outcome = o := by
  simp only [Run.entered]
  split <;> rfl

lemma entered_sound {env : Env} {run : Run} {r : Resolution} (v : Visit) (sound : run.Sound)
    (here : run.outcome = .next r) :
    (run.entered r (iterate env v.world v.input r).2).Sound := by
  have paced := sound.paced
  rw [here] at paced
  refine ⟨?_, ?_, ?_, ?_⟩
  · rw [Run.entered_queried, Run.entered_handlers, Run.entered_outcome]
    have moved := moved_paced paced (iterate_moved env v.world v.input r)
    by_cases asks : r.st = .queryUpstream
    · simpa [asks] using moved
    · simpa [asks] using moved
  · intro n mem
    rw [Run.entered_queried] at mem
    split at mem
    · rcases List.mem_cons.mp mem with rfl | old
      · exact Nat.zero_le 3
      · exact sound.few n old
    · exact sound.few n mem
  · intro r' source waits
    rw [Run.entered_outcome] at waits
    rw [Run.entered_queried, if_pos (iterate_await waits).2.1]
    exact List.cons_ne_nil _ _
  · intro r' nsNames waits
    rw [Run.entered_outcome] at waits
    obtain ⟨rfl, _, source⟩ := iterate_await waits
    obtain ⟨shallow, names⟩ := collectIPs_resolve source.symm
    rw [waits]
    exact ⟨shallow, names, List.Perm.refl _⟩

lemma resumed_sound {env : Env} {run : Run} {r : Resolution} {source : IPSource} (v : Visit)
    (sound : run.Sound) (here : run.outcome = .await r source) :
    (run.resumed (resume env v.input r source).1 (resume env v.input r source).2).Sound := by
  have paced := sound.paced
  rw [here] at paced
  have counted : (exchangesSent (resume env v.input r source).1 :: run.queried.tail).length =
      run.queried.length := by
    have asked : 0 < run.queried.length := List.length_pos_iff.mpr (sound.asked r source here)
    simp only [List.length_cons, List.length_tail]
    omega
  have woken (r' : Resolution) (source' : IPSource) :
      (resume env v.input r source).2 ≠ .await r' source' := by
    intro waits
    have visited : visit env (.await r source) v = .await r' source' := waits
    obtain ⟨effects, o', resumed, ended, _⟩ := resumed_of_visit visited
    cases resumed with
    | accepted | nxdomain => exact absurd ended (goto_ne_await _ _ _ _)
    | noServer | failed | rejected => cases ended
  refine ⟨?_, ?_, ?_, ?_⟩
  · change Paced run.handlers (_ :: _).length _
    rw [counted]
    exact resume_paced paced
  · intro n mem
    rcases List.mem_cons.mp mem with rfl | old
    · exact resume_exchangesSent env v.input r source
    · exact sound.few n (List.mem_of_mem_tail old)
  · intro r' source' waits
    exact absurd waits (woken r' source')
  · intro r' nsNames waits
    exact absurd waits (woken r' _)

lemma visit_sound (env : Env) {run : Run} (v : Visit) (sound : run.Sound) :
    (run.visit env v).Sound := by
  rw [Run.visit]
  split
  · rename_i here
    exact entered_sound v sound here
  · rename_i here
    exact resumed_sound v sound here
  · exact sound

lemma nest_sound {run : Run} {k : Nat} {nsName : String} (sound : run.Sound)
    (picked : run.pending[k]? = some nsName) :
    { run with pending := run.pending.eraseIdx k, begun := nsName :: run.begun }.Sound := by
  refine ⟨sound.paced, sound.few, sound.asked, ?_⟩
  intro r nsNames waits
  obtain ⟨shallow, names, perm⟩ := sound.names r nsNames waits
  refine ⟨shallow, names, ?_⟩
  obtain ⟨within, rfl⟩ := List.getElem?_eq_some_iff.mp picked
  have moved : (run.pending[k] :: run.pending.eraseIdx k).Perm run.pending :=
    List.getElem_cons_eraseIdx_perm within
  exact (List.perm_middle.symm.trans (moved.append_left run.begun)).trans perm

/-! ### The tree of runs -/

lemma visit_parent (env : Env) (run : Run) (v : Visit) :
    (run.visit env v).parent = run.parent := by
  rw [Run.visit]
  split
  · simp only [Run.entered]
    split <;> rfl
  · rfl
  · rfl

lemma visit_outcome (env : Env) (run : Run) (v : Visit) :
    (run.visit env v).outcome = StateMachine.visit env run.outcome v := by
  rw [Run.visit]
  split
  · rename_i here
    rw [Run.entered_outcome, here]
    rfl
  · rename_i here
    rw [here]
    rfl
  · rename_i here
    rw [here]
    rfl

@[simp] theorem visit_run_depth (env : Env) (run : Run) (v : Visit) :
    (run.visit env v).depth = run.depth := by
  rw [Run.depth, visit_outcome, visit_depth]
  rfl

/-- Names that become pending have just been handed over. -/
lemma visit_pending (env : Env) (run : Run) (v : Visit) :
    (run.visit env v).pending.length + run.handed ≤
      (run.visit env v).handed + run.pending.length := by
  rw [Run.visit]
  split
  · simp only [Run.entered]
    split
    · simp only
      omega
    · simp only
      omega
  · simp only [Run.resumed, List.length_nil]
    omega
  · omega

/-- Inside a nested run no name is handed over. -/
lemma visit_handed (env : Env) {run : Run} (v : Visit) (nested : run.depth ≠ 0) :
    (run.visit env v).handed = run.handed := by
  rw [Run.visit]
  split
  · rename_i r here
    simp only [Run.entered]
    split
    · rename_i r' nsNames waits
      obtain ⟨rfl, _, source⟩ := iterate_await waits
      rw [Run.depth, here] at nested
      exact absurd (collectIPs_resolve source.symm).1 nested
    · rfl
  · rfl
  · rfl

/-- The client's run comes first; all others were started by it. -/
structure Lawful (main : Run) (nested : List Run) : Prop where
  main_sound : main.Sound
  main_depth : main.depth = 0
  main_parent : main.parent = none
  sound : ∀ run ∈ nested, run.Sound
  depth : ∀ run ∈ nested, run.depth = 1
  parent : ∀ run ∈ nested, run.parent = some 0
  quiet : ∀ run ∈ nested, run.handed = 0
  handed : nested.length + main.pending.length ≤ main.handed

lemma main_visit_lawful (env : Env) {main : Run} {nested : List Run} (v : Visit)
    (lawful : Lawful main nested) : Lawful (main.visit env v) nested where
  main_sound := visit_sound env v lawful.main_sound
  main_depth := (visit_run_depth env main v).trans lawful.main_depth
  main_parent := (visit_parent env main v).trans lawful.main_parent
  sound := lawful.sound
  depth := lawful.depth
  parent := lawful.parent
  quiet := lawful.quiet
  handed := by
    have handed := lawful.handed
    have pending := visit_pending env main v
    omega

lemma nested_visit_lawful (env : Env) {main run : Run} {nested : List Run} {k : Nat} (v : Visit)
    (lawful : Lawful main nested) (at_k : nested[k]? = some run) :
    Lawful main (nested.set k (run.visit env v)) := by
  have mem : run ∈ nested := List.mem_of_getElem? at_k
  have each {P : Run → Prop} (all : ∀ run ∈ nested, P run) (kept : P (run.visit env v)) :
      ∀ run' ∈ nested.set k (run.visit env v), P run' := by
    intro run' mem'
    rcases List.mem_or_eq_of_mem_set mem' with old | rfl
    · exact all run' old
    · exact kept
  have deep : run.depth ≠ 0 := by
    rw [lawful.depth run mem]
    exact Nat.one_ne_zero
  refine ⟨lawful.main_sound, lawful.main_depth, lawful.main_parent, ?_, ?_, ?_, ?_, ?_⟩
  · exact each lawful.sound (visit_sound env v (lawful.sound run mem))
  · exact each lawful.depth ((visit_run_depth env run v).trans (lawful.depth run mem))
  · exact each lawful.parent ((visit_parent env run v).trans (lawful.parent run mem))
  · exact each lawful.quiet ((visit_handed env v deep).trans (lawful.quiet run mem))
  · rw [List.length_set]
    exact lawful.handed

lemma nest_lawful {main : Run} {nested : List Run} {k id : Nat} {nsName : String}
    (lawful : Lawful main nested) (picked : main.pending[k]? = some nsName) :
    Lawful { main with pending := main.pending.eraseIdx k, begun := nsName :: main.begun }
      (nested ++ [.begin (some 0) (newQuery id nsName typeA) 1]) := by
  have each {P : Run → Prop} (all : ∀ run ∈ nested, P run)
      (first : P (.begin (some 0) (newQuery id nsName typeA) 1)) :
      ∀ run ∈ nested ++ [.begin (some 0) (newQuery id nsName typeA) 1], P run := by
    intro run mem
    rcases List.mem_append.mp mem with old | new
    · exact all run old
    · rw [List.mem_singleton.mp new]
      exact first
  refine ⟨nest_sound lawful.main_sound picked, lawful.main_depth, lawful.main_parent,
    ?_, ?_, ?_, ?_, ?_⟩
  · exact each lawful.sound (begin_sound _ _ _)
  · exact each lawful.depth rfl
  · exact each lawful.parent rfl
  · exact each lawful.quiet rfl
  · -- the name leaves the pending ones as its run joins the nested ones
    obtain ⟨within, _⟩ := List.getElem?_eq_some_iff.mp picked
    have handed := lawful.handed
    simp only [List.length_append, List.length_singleton, List.length_eraseIdx_of_lt within]
    omega

/-- A nested run does not wait for name servers. -/
lemma Lawful.not_waiting {main : Run} {nested : List Run} (lawful : Lawful main nested) {run : Run}
    (mem : run ∈ nested) (r : Resolution) (nsNames : List String) :
    run.outcome ≠ .await r (.resolve nsNames) := by
  intro waits
  obtain ⟨shallow, _, _⟩ := (lawful.sound run mem).names r nsNames waits
  have deep := lawful.depth run mem
  rw [Run.depth, waits] at deep
  exact absurd (shallow.symm.trans deep) (by decide)

theorem step_lawful (env : Env) (runs : List Run) (e : Event)
    (lawful : ∃ main nested, runs = main :: nested ∧ Lawful main nested) :
    ∃ main nested, step env runs e = main :: nested ∧ Lawful main nested := by
  obtain ⟨main, nested, rfl, lawful⟩ := lawful
  have stepped := step_stepped env (main :: nested) e
  generalize step env (main :: nested) e = runs' at stepped
  cases stepped with
  | idle => exact ⟨main, nested, rfl, lawful⟩
  | visited i v run at_i =>
    cases i with
    | zero =>
      cases at_i
      exact ⟨_, _, rfl, main_visit_lawful env v lawful⟩
    | succ k => exact ⟨_, _, rfl, nested_visit_lawful env v lawful at_i⟩
  | nested i k id run r nsNames nsName at_i waits picked =>
    cases i with
    | zero =>
      cases at_i
      obtain ⟨shallow, _, _⟩ := lawful.main_sound.names r nsNames waits
      rw [shallow]
      exact ⟨_, _, rfl, nest_lawful lawful picked⟩
    | succ i => exact absurd waits (lawful.not_waiting (List.mem_of_getElem? at_i) r nsNames)

lemma begin_lawful (request : Msg) : Lawful (.begin none request 0) [] := by
  refine ⟨begin_sound none request 0, rfl, rfl, ?_, ?_, ?_, ?_, Nat.zero_le _⟩
  all_goals
    intro run mem
    cases mem

theorem clientQuery_lawful (env : Env) (request : Msg) (events : List Event) :
    ∃ main nested, clientQuery env request events = main :: nested ∧ Lawful main nested :=
  StepRuns.run_preserves (step env)
    (P := fun runs => ∃ main nested, runs = main :: nested ∧ Lawful main nested)
    (step_lawful env) ⟨_, [], rfl, begin_lawful request⟩ events

/-! ### The bound -/

lemma Run.Sound.sent_le {run : Run} (sound : run.Sound) : run.queried.sum ≤ 45 := by
  have each := List.sum_le_card_nsmul run.queried 3 sound.few
  have few := sound.paced.bounds.2
  rw [smul_eq_mul] at each
  omega

/-- Queries sent by all runs of a client query. -/
def totalSent (runs : List Run) : Nat := (runs.map fun run => run.queried.sum).sum

/-- Names handed to `resolveNSIPsConcurrently` by all runs of a client query. -/
def totalHanded (runs : List Run) : Nat := (runs.map Run.handed).sum

lemma totalSent_le {runs : List Run} (sound : ∀ run ∈ runs, run.Sound) :
    totalSent runs ≤ 45 * runs.length := by
  have each : ∀ n ∈ runs.map fun run => run.queried.sum, n ≤ 45 := by
    intro n mem
    obtain ⟨run, listed, rfl⟩ := List.mem_map.mp mem
    exact (sound run listed).sent_le
  have total := List.sum_le_card_nsmul _ 45 each
  rw [smul_eq_mul, List.length_map] at total
  rw [totalSent]
  omega

lemma Lawful.all_sound {main : Run} {nested : List Run} (lawful : Lawful main nested) :
    ∀ run ∈ main :: nested, run.Sound := by
  intro run mem
  rcases List.mem_cons.mp mem with rfl | mem
  · exact lawful.main_sound
  · exact lawful.sound run mem

/-- Whatever servers and cache hold, in every interleaving of the runs of one client
query: each run executes at most 50 handlers, at most 15 of them QUERY_UPSTREAM with at
most three queries each; a nested run was started by a run at depth 0 and is at depth 1
itself; a wait begins each NS name of the referral at most once; and the queries of all
runs are at most 45 and 45 for each name handed over. -/
theorem work_bounded (env : Env) (request : Msg) (events : List Event) :
    (∀ run ∈ clientQuery env request events,
      run.handlers ≤ 50 ∧ run.queried.length ≤ 15 ∧ ∀ n ∈ run.queried, n ≤ 3) ∧
    (∀ run ∈ clientQuery env request events, ∀ i, run.parent = some i →
      run.depth = 1 ∧
        ∃ starter, (clientQuery env request events)[i]? = some starter ∧ starter.depth = 0) ∧
    (∀ run ∈ clientQuery env request events, ∀ r nsNames,
      run.outcome = .await r (.resolve nsNames) →
        nsNames = getNSNamesFromResponse r.response ∧
          (run.begun ++ run.pending).Perm nsNames) ∧
    totalSent (clientQuery env request events) ≤
      45 + 45 * totalHanded (clientQuery env request events) := by
  obtain ⟨main, nested, runs, lawful⟩ := clientQuery_lawful env request events
  rw [runs]
  refine ⟨?_, ?_, ?_, ?_⟩
  · intro run mem
    have sound := lawful.all_sound run mem
    obtain ⟨handlers, queries⟩ := sound.paced.bounds
    exact ⟨handlers, queries, sound.few⟩
  · intro run mem i started
    rcases List.mem_cons.mp mem with rfl | mem
    · rw [lawful.main_parent] at started
      cases started
    · rw [lawful.parent run mem] at started
      cases started
      exact ⟨lawful.depth run mem, main, rfl, lawful.main_depth⟩
  · intro run mem r nsNames waits
    exact ((lawful.all_sound run mem).names r nsNames waits).2
  · have sent := totalSent_le lawful.all_sound
    have handed := lawful.handed
    simp only [totalHanded, List.map_cons, List.sum_cons, List.length_cons] at sent ⊢
    omega

end QueryWork
