import Mathlib.Data.List.Chain
import Rec53.StateMachine

/-!
# The transition metrics of a resolution

What one run of `Change` records: a stage at the start of every round, and a transition
or a terminal exit where the round ends. The records of each round are written beside the
round of `StateMachine`, branch by branch, with the states that the code names there; that
they fit together is what is proved. Metrics are taken to be registered.

A round at QUERY_UPSTREAM records its stage in the first half and its transition in the
second. In the last round the loop ends after the transition, and the exit is recorded for
the state that would have run next.
-/

namespace TransitionMetrics

open DnsMessage Platform DnsCache StateHandlers UpstreamQuery StateMachine

/-- The terminal nodes. -/
inductive Exit where
  | success
  | formerr
  | servfail
  | refused
  | error
  | maxIters
deriving DecidableEq

inductive Node where
  | state (st : StateKind)
  | exit (exit : Exit)
deriving DecidableEq

structure Edge where
  src : StateKind
  dst : Node
deriving DecidableEq

inductive Record where
  | stage (st : StateKind)
  | transition (edge : Edge)
deriving DecidableEq

def recordStateTransition (src dst : StateKind) : Record := .transition ⟨src, .state dst⟩

def recordTerminalExit (src : StateKind) (exit : Exit) : Record := .transition ⟨src, .exit exit⟩

/-- The transition out of a round, and the exit after the last one. -/
def moveRecords (r : Resolution) (dst : StateKind) : List Record :=
  recordStateTransition r.st dst ::
    if r.iterations < maxIterations then [] else [recordTerminalExit dst .maxIters]

/-! ### What a round records after its stage -/

def initRecords (r : Resolution) : List Record :=
  match stateInitHandle r.request r.response with
  | (.formerr, _) => [recordTerminalExit r.st .formerr]
  | (.noError, _) => moveRecords r .hostsLookup

def hostsRecords (env : Env) (r : Resolution) : List Record :=
  match hostsLookupHandle env.snap r.request r.response with
  | (.hit, _) => moveRecords r .returnResp
  | (.miss, _) => moveRecords r .forwardLookup

def forwardRecords (env : Env) (inp : Input) (r : Resolution) : List Record :=
  match forwardLookupHandle env inp r.request r.response with
  | (.hit, _, _) => moveRecords r .returnResp
  | (.miss, _, _) => moveRecords r .cacheLookup
  | (.servfail, _, _) => [recordTerminalExit r.st .servfail]
  | (.refused, _, _) => [recordTerminalExit r.st .refused]

def cacheRecords (w : World) (inp : Input) (r : Resolution) : List Record :=
  match cacheLookupHandle w r.request r.response with
  | (.hit, _) => moveRecords r .classifyResp
  | (.miss, _) =>
    if inp.admitted then moveRecords r .extractGlue else [recordTerminalExit r.st .refused]

def classifyRecords (env : Env) (r : Resolution) : List Record :=
  match classifyRespHandle r.request r.response with
  | (.getAns, _) => moveRecords r .returnResp
  | (.getNegative, _) => moveRecords r .returnResp
  | (.getCname, _) =>
    match followCNAME env.lib r with
    | .error _ => [recordTerminalExit r.st .error]
    | .ok _ => moveRecords r .cacheLookup
  | (.getNs, _) => moveRecords r .extractGlue

def glueRecords (env : Env) (r : Resolution) : List Record :=
  match extractGlueHandle env.lib r.request r.response with
  | (.exist, _) => moveRecords r .queryUpstream
  | (.notExist, _) => moveRecords r .lookupNSCache

def nsCacheRecords (r : Resolution) : List Record := moveRecords r .queryUpstream

def queryRecords (inp : Input) (r : Resolution) : List Record :=
  match inp.ctxErr with
  | some _ => [recordTerminalExit r.st .error]
  | none => []

def roundRecords (env : Env) (w : World) (inp : Input) (r : Resolution) : List Record :=
  match r.st with
  | .stateInit => initRecords r
  | .hostsLookup => hostsRecords env r
  | .forwardLookup => forwardRecords env inp r
  | .cacheLookup => cacheRecords w inp r
  | .classifyResp => classifyRecords env r
  | .extractGlue => glueRecords env r
  | .lookupNSCache => nsCacheRecords r
  | .queryUpstream => queryRecords inp r
  | .returnResp => [recordTerminalExit r.st .success]

def resumeRecords (env : Env) (inp : Input) (r : Resolution) (source : IPSource) : List Record :=
  let ipList := match source with
    | .ips ipList => ipList
    | .resolve _ => inp.nsIPs
  match (queryUpstreamWith env inp r.request r.response ipList).ret with
  | .noError => moveRecords r .classifyResp
  | .servfail => [recordTerminalExit r.st .servfail]
  | .error _ => [recordTerminalExit r.st .error]

def visitRecords (env : Env) (o : Outcome) (v : Visit) : List Record :=
  match o with
  | .next r => .stage r.st :: roundRecords env v.world v.input r
  | .await r source => resumeRecords env v.input r source
  | .done _ _ => []

def changeRecords (env : Env) (request : Msg) (depth : Nat) (visits : List Visit) : List Record :=
  StepRuns.emitted (visit env) (visitRecords env) (.next (start request depth)) visits

/-! ### One visit -/

/-- The ways out of a state: on to the state that runs next, to an exit, or on and then
to the exit of the limit. -/
inductive Leaves (st : StateKind) : List Record → Outcome → Prop where
  | moved (r : Resolution) : Leaves st [recordStateTransition st r.st] (.next r)
  | ended (exit : Exit) (early : exit ≠ .maxIters) (r : Resolution) (result : Except String Msg) :
      Leaves st [recordTerminalExit st exit] (.done r result)
  | limit (dst : StateKind) (r : Resolution) (result : Except String Msg) :
      Leaves st [recordStateTransition st dst, recordTerminalExit dst .maxIters] (.done r result)

/-- The machine that is created is the one the transition names. -/
lemma goto_leaves {r s : Resolution} (same : s.iterations = r.iterations) (dst : StateKind) :
    Leaves r.st (moveRecords r dst) (s.goto dst) := by
  rw [moveRecords, ← same]
  rcases s.goto_eq dst with ⟨more, next⟩ | ⟨reached, limit⟩
  · rw [next, if_pos more]
    exact .moved { s with st := dst, iterations := s.iterations + 1 }
  · rw [limit, if_neg (Nat.not_lt.mpr reached)]
    exact .limit dst s _

lemma followCNAME_iterations {lib : Lib} {r followed : Resolution}
    (follows : followCNAME lib r = .ok followed) : followed.iterations = r.iterations := by
  rw [followCNAME] at follows
  split at follows
  · cases follows
    rfl
  split at follows
  · cases follows
    rfl
  split at follows
  · cases follows
  · cases follows
    rfl

section Rounds

variable (r : Resolution)

lemma initRound_leaves : Leaves r.st (initRecords r) (initRound r).2 := by
  rw [initRecords, initRound]
  cases stateInitHandle r.request r.response with
  | mk ret response =>
    cases ret with
    | formerr => exact .ended .formerr (by decide) _ _
    | noError => exact goto_leaves (s := { r with response := response }) rfl .hostsLookup

lemma hostsRound_leaves (env : Env) : Leaves r.st (hostsRecords env r) (hostsRound env r).2 := by
  rw [hostsRecords, hostsRound]
  cases hostsLookupHandle env.snap r.request r.response with
  | mk ret response =>
    cases ret with
    | hit => exact goto_leaves (s := { r with response := response }) rfl .returnResp
    | miss => exact goto_leaves (s := { r with response := response }) rfl .forwardLookup

lemma forwardRound_leaves (env : Env) (inp : Input) :
    Leaves r.st (forwardRecords env inp r) (forwardRound env inp r).2 := by
  rw [forwardRecords, forwardRound]
  cases forwardLookupHandle env inp r.request r.response with
  | mk ret rest =>
    cases ret with
    | hit => exact goto_leaves (s := { r with response := rest.1 }) rfl .returnResp
    | miss => exact goto_leaves (s := { r with response := rest.1 }) rfl .cacheLookup
    | servfail => exact .ended .servfail (by decide) _ _
    | refused => exact .ended .refused (by decide) _ _

lemma cacheRound_leaves (w : World) (inp : Input) :
    Leaves r.st (cacheRecords w inp r) (cacheRound w inp r).2 := by
  rw [cacheRecords, cacheRound]
  cases cacheLookupHandle w r.request r.response with
  | mk ret response =>
    cases ret with
    | hit => exact goto_leaves (s := { r with response := response }) rfl .classifyResp
    | miss =>
      dsimp only
      split
      · exact goto_leaves (s := { r with response := response }) rfl .extractGlue
      · exact .ended .refused (by decide) _ _

lemma classifyRound_leaves (env : Env) :
    Leaves r.st (classifyRecords env r) (classifyRound env r).2 := by
  rw [classifyRecords, classifyRound]
  cases classifyRespHandle r.request r.response with
  | mk ret effects =>
    cases ret with
    | getAns => exact goto_leaves (s := r) rfl .returnResp
    | getNegative => exact goto_leaves (s := r) rfl .returnResp
    | getNs => exact goto_leaves (s := r) rfl .extractGlue
    | getCname =>
      dsimp only
      cases follows : followCNAME env.lib r with
      | error err => exact .ended .error (by decide) _ _
      | ok followed => exact goto_leaves (followCNAME_iterations follows) .cacheLookup

lemma glueRound_leaves (env : Env) : Leaves r.st (glueRecords env r) (glueRound env r).2 := by
  rw [glueRecords, glueRound]
  cases extractGlueHandle env.lib r.request r.response with
  | mk ret response =>
    cases ret with
    | exist => exact goto_leaves (s := { r with response := response }) rfl .queryUpstream
    | notExist => exact goto_leaves (s := { r with response := response }) rfl .lookupNSCache

lemma nsCacheRound_leaves (w : World) : Leaves r.st (nsCacheRecords r) (nsCacheRound w r).2 :=
  goto_leaves (s := { r with response := lookupNSCacheHandle w r.request r.response }) rfl
    .queryUpstream

lemma queryRound_leaves (w : World) (inp : Input) :
    (queryRecords inp r = [] ∧ ∃ source, (queryRound w inp r).2 = .await r source) ∨
      Leaves r.st (queryRecords inp r) (queryRound w inp r).2 := by
  rw [queryRecords, queryRound]
  cases inp.ctxErr with
  | some err => exact .inr (.ended .error (by decide) _ _)
  | none => exact .inl ⟨rfl, _, rfl⟩

/-- A round waits inside QUERY_UPSTREAM without a transition, or leaves its state. -/
theorem iterate_leaves (env : Env) (w : World) (inp : Input) :
    (roundRecords env w inp r = [] ∧ ∃ source, (iterate env w inp r).2 = .await r source) ∨
      Leaves r.st (roundRecords env w inp r) (iterate env w inp r).2 := by
  rw [roundRecords, iterate]
  cases here : r.st with
  | stateInit => exact .inr (by simpa only [here] using initRound_leaves r)
  | hostsLookup => exact .inr (by simpa only [here] using hostsRound_leaves r env)
  | forwardLookup => exact .inr (by simpa only [here] using forwardRound_leaves r env inp)
  | cacheLookup => exact .inr (by simpa only [here] using cacheRound_leaves r w inp)
  | classifyResp => exact .inr (by simpa only [here] using classifyRound_leaves r env)
  | extractGlue => exact .inr (by simpa only [here] using glueRound_leaves r env)
  | lookupNSCache => exact .inr (by simpa only [here] using nsCacheRound_leaves r w)
  | queryUpstream => simpa only [here] using queryRound_leaves r w inp
  | returnResp => exact .inr (.ended .success (by decide) _ _)

theorem resume_leaves (env : Env) (inp : Input) (source : IPSource) :
    Leaves r.st (resumeRecords env inp r source) (resume env inp r source).2 := by
  simp only [resumeRecords, resume]
  generalize queryUpstreamWith env inp r.request r.response _ = out
  cases out.ret with
  | noError => exact goto_leaves (s := { r with response := out.response }) rfl .classifyResp
  | servfail => exact .ended .servfail (by decide) _ _
  | error err => exact .ended .error (by decide) _ _

end Rounds

/-! ### Whole runs -/

def Record.edge? : Record → Option Edge
  | .stage _ => none
  | .transition edge => some edge

def Record.isStage : Record → Bool
  | .stage _ => true
  | .transition _ => false

def transitions (records : List Record) : List Edge := records.filterMap Record.edge?

def stages (records : List Record) : Nat := records.countP Record.isStage

@[simp] theorem transitions_append (xs ys : List Record) :
    transitions (xs ++ ys) = transitions xs ++ transitions ys := List.filterMap_append

@[simp] theorem stages_append (xs ys : List Record) :
    stages (xs ++ ys) = stages xs + stages ys := List.countP_append

@[simp] theorem transitions_nil : transitions [] = [] := rfl
@[simp] theorem stages_nil : stages [] = 0 := rfl

@[simp] theorem transitions_stage (st : StateKind) (rest : List Record) :
    transitions (.stage st :: rest) = transitions rest := rfl

@[simp] theorem stages_stage (st : StateKind) (rest : List Record) :
    stages (.stage st :: rest) = stages rest + 1 := List.countP_cons_of_pos rfl

@[simp] theorem transitions_move (src dst : StateKind) (rest : List Record) :
    transitions (recordStateTransition src dst :: rest) =
      ⟨src, .state dst⟩ :: transitions rest := rfl

@[simp] theorem stages_move (src dst : StateKind) (rest : List Record) :
    stages (recordStateTransition src dst :: rest) = stages rest :=
  List.countP_cons_of_neg Bool.false_ne_true

@[simp] theorem transitions_exit (src : StateKind) (exit : Exit) (rest : List Record) :
    transitions (recordTerminalExit src exit :: rest) = ⟨src, .exit exit⟩ :: transitions rest := rfl

@[simp] theorem stages_exit (src : StateKind) (exit : Exit) (rest : List Record) :
    stages (recordTerminalExit src exit :: rest) = stages rest :=
  List.countP_cons_of_neg Bool.false_ne_true

/-- Transitions that lead from STATE_INIT to a state, one after the other. -/
inductive Trail : List Edge → StateKind → Prop where
  | start : Trail [] .stateInit
  | move {edges : List Edge} {st : StateKind} (trail : Trail edges st) (dst : StateKind) :
      Trail (edges ++ [⟨st, .state dst⟩]) dst

/-- One path from STATE_INIT to a terminal node. -/
structure OnePath (edges : List Edge) (exit : Exit) : Prop where
  starts : edges.head?.map Edge.src = some .stateInit
  chained : edges.IsChain fun a b => a.dst = .state b.src
  ends : edges.getLast?.map Edge.dst = some (.exit exit)
  inner : ∀ e ∈ edges.dropLast, ∃ st, e.dst = .state st

lemma Trail.chained {edges : List Edge} {st : StateKind} (trail : Trail edges st) :
    edges.IsChain (fun a b => a.dst = .state b.src) ∧ ∀ e ∈ edges.getLast?, e.dst = .state st := by
  induction trail with
  | start => simp
  | @move edges st trail dst ih =>
    refine ⟨List.isChain_append.mpr ⟨ih.1, by simp, ?_⟩, by simp⟩
    intro a last b first
    simp only [List.head?_cons, Option.mem_some_iff] at first
    rw [← first]
    exact ih.2 a last

lemma Trail.inner {edges : List Edge} {st : StateKind} (trail : Trail edges st) :
    ∀ e ∈ edges, ∃ st', e.dst = .state st' := by
  induction trail with
  | start => simp
  | @move edges st trail dst ih =>
    intro e mem
    rcases List.mem_append.mp mem with old | new
    · exact ih e old
    · rw [List.mem_singleton.mp new]
      exact ⟨dst, rfl⟩

lemma Trail.starts {edges : List Edge} {st : StateKind} (trail : Trail edges st) (dst : Node) :
    (edges ++ [(⟨st, dst⟩ : Edge)]).head?.map Edge.src = some .stateInit := by
  induction trail generalizing dst with
  | start => rfl
  | @move edges st trail dst' ih =>
    have before := ih (.state dst')
    simpa using before

/-- A trail and an exit from where it ends are one path. -/
theorem Trail.exit {edges : List Edge} {st : StateKind} (trail : Trail edges st) (exit : Exit) :
    OnePath (edges ++ [⟨st, .exit exit⟩]) exit := by
  refine ⟨trail.starts _, ?_, by simp, ?_⟩
  · refine List.isChain_append.mpr ⟨trail.chained.1, by simp, ?_⟩
    intro a last b first
    simp only [List.head?_cons, Option.mem_some_iff] at first
    rw [← first]
    exact trail.chained.2 a last
  · rw [List.dropLast_concat]
    exact trail.inner

/-- The transitions of the last round are one more than its stage at the limit. -/
def expectedTransitions (stages : Nat) (exit : Exit) : Nat :=
  if exit = .maxIters then stages + 1 else stages

/-- What has been recorded when a resolution stands at an outcome. -/
inductive Recorded (records : List Record) : Outcome → Prop where
  | next (r : Resolution) (trail : Trail (transitions records) r.st)
      (paired : stages records = (transitions records).length) : Recorded records (.next r)
  | await (r : Resolution) (source : IPSource) (trail : Trail (transitions records) r.st)
      (paired : stages records = (transitions records).length + 1) :
      Recorded records (.await r source)
  | done (r : Resolution) (result : Except String Msg) (exit : Exit)
      (path : OnePath (transitions records) exit)
      (counted : (transitions records).length = expectedTransitions (stages records) exit) :
      Recorded records (.done r result)

/-- The records of a state that is left, after its stage was recorded. -/
lemma Leaves.recorded {records recs : List Record} {st : StateKind} {o : Outcome}
    (leaves : Leaves st recs o) (trail : Trail (transitions records) st)
    (paired : stages records = (transitions records).length + 1) :
    Recorded (records ++ recs) o := by
  cases leaves with
  | moved r =>
    refine .next r ?_ ?_
    · simpa using trail.move r.st
    · simp only [transitions_append, transitions_move, transitions_nil, stages_append, stages_move,
        stages_nil, List.length_append, List.length_cons, List.length_nil]
      omega
  | ended exit early r result =>
    refine .done r result exit ?_ ?_
    · simpa using trail.exit exit
    · simp only [transitions_append, transitions_exit, transitions_nil, stages_append, stages_exit,
        stages_nil, List.length_append, List.length_cons, List.length_nil, expectedTransitions,
        if_neg early]
      omega
  | limit dst r result =>
    refine .done r result .maxIters ?_ ?_
    · simpa using (trail.move dst).exit .maxIters
    · simp only [transitions_append, transitions_move, transitions_exit, transitions_nil,
        stages_append, stages_move, stages_exit, stages_nil, List.length_append, List.length_cons,
        List.length_nil, expectedTransitions, if_true]
      omega

lemma visit_recorded (env : Env) (records : List Record) (o : Outcome) (v : Visit)
    (before : Recorded records o) : Recorded (records ++ visitRecords env o v) (visit env o v) := by
  cases before with
  | done r result exit path counted =>
    rw [visitRecords, List.append_nil]
    exact .done r result exit path counted
  | await r source trail paired =>
    exact (resume_leaves r env v.input source).recorded trail paired
  | next r trail paired =>
    have staged : Trail (transitions (records ++ [.stage r.st])) r.st ∧
        stages (records ++ [.stage r.st]) =
          (transitions (records ++ [.stage r.st])).length + 1 := by
      simpa using And.intro trail paired
    rw [visitRecords, List.append_cons]
    rcases iterate_leaves r env v.world v.input with ⟨none, source, waits⟩ | leaves
    · rw [none, List.append_nil, visit, visitEffects, waits]
      exact .await r source staged.1 staged.2
    · exact leaves.recorded staged.1 staged.2

theorem resolve_recorded (env : Env) (request : Msg) (depth : Nat) (visits : List Visit) :
    Recorded (changeRecords env request depth visits) (resolve env request depth visits) := by
  have fresh : Recorded [] (.next (start request depth)) := .next _ .start rfl
  exact StepRuns.emitted_invariant (visit env) (visitRecords env) (visit_recorded env) fresh visits

/-- Every run of `Change` ends, and when it has, its transitions are one path from
STATE_INIT to the only terminal node, as many as its stages, with one more when it ended at
the limit of iterations. -/
theorem transitions_form_one_path (env : Env) (request : Msg) (depth : Nat) :
    (∀ visits, 2 * maxIterations ≤ visits.length →
      ∃ r result, resolve env request depth visits = .done r result) ∧
    ∀ visits r result, resolve env request depth visits = .done r result →
      ∃ exit, OnePath (transitions (changeRecords env request depth visits)) exit ∧
        (transitions (changeRecords env request depth visits)).length =
          expectedTransitions (stages (changeRecords env request depth visits)) exit := by
  refine ⟨resolve_ends env request depth, ?_⟩
  intro visits r result ended
  have recorded := resolve_recorded env request depth visits
  rw [ended] at recorded
  cases recorded with
  | done _ _ exit path counted => exact ⟨exit, path, counted⟩

/-- A resolution from an empty cache whose query to a root server times out. -/
theorem timeout_run_one_path :
    let records := changeRecords plainEnv { question := [⟨"a.", typeA, classINET⟩] } 0
      (List.replicate 8 idleVisit)
    ∃ exit, OnePath (transitions records) exit ∧
      (transitions records).length = expectedTransitions (stages records) exit ∧
      stages records = 7 :=
  have ⟨exit, path, counted⟩ := (transitions_form_one_path plainEnv
    { question := [⟨"a.", typeA, classINET⟩] } 0).2 (List.replicate 8 idleVisit) _ _ rfl
  ⟨exit, path, counted, by decide +kernel⟩

end TransitionMetrics
