import Rec53.QueryWork
import Rec53.TransitionMetrics

/-!
# The trace of a domain

`server/resolution_trace.go`. `TraceDomain` puts a recorder into the context of a run of
`Change`, and `Change` tells the recorder of its context the state of every round and the
terminal exit. The contexts of nested runs are derived from that context, so they tell the same
recorder.

The runs are those of `QueryWork`. Beside the recorder stands a log of what it was told, with
the number of the run; run zero is the run for the domain. A round tells its state when it
begins and its exit when it ends; the model has both at once, which leaves the order of the
states as it is, and a run that others wait for has ended either way.
-/

namespace DomainTrace

open DnsMessage Platform DnsCache StateHandlers UpstreamQuery
open StateMachine TransitionMetrics QueryWork

def maxTraceStates : Nat := 128

def stateMetricName : StateKind → String
  | .stateInit => "state_init"
  | .hostsLookup => "hosts_lookup"
  | .forwardLookup => "forward_lookup"
  | .cacheLookup => "cache_lookup"
  | .classifyResp => "classify_resp"
  | .extractGlue => "extract_glue"
  | .lookupNSCache => "lookup_ns_cache"
  | .queryUpstream => "query_upstream"
  | .returnResp => "return_resp"

def exitMetricName : Exit → String
  | .success => "success_exit"
  | .formerr => "formerr_exit"
  | .servfail => "servfail_exit"
  | .refused => "refused_exit"
  | .error => "error_exit"
  | .maxIters => "max_iterations_exit"

/-- The tables of names in the DNS library; a number without a name has the empty one. -/
structure NameTables where
  typeToString : Nat → String
  rcodeToString : Nat → String

structure ResolutionTrace where
  queryName : String
  queryType : String
  states : List String
  terminal : String
  rcode : String
  error : String
  truncated : Bool

structure Recorder where
  queryName : String
  queryType : String
  states : List String
  terminal : String
  truncated : Bool

def newResolutionTraceRecorder (tables : NameTables) (queryName : String) (qtype : Nat) :
    Recorder :=
  let queryType := tables.typeToString qtype
  ⟨queryName, if queryType = "" then "UNKNOWN" else queryType, [], "", false⟩

namespace Recorder

def recordState (r : Recorder) (state : String) : Recorder :=
  if state = "" then r
  else if maxTraceStates ≤ r.states.length then { r with truncated := true }
  else { r with states := r.states ++ [state] }

def recordTerminal (r : Recorder) (exit : String) : Recorder :=
  if exit = "" then r else { r with terminal := exit }

def snapshot (tables : NameTables) (r : Recorder) : Except String Msg → ResolutionTrace
  | .ok response =>
    let rcode := tables.rcodeToString response.rcode
    ⟨r.queryName, r.queryType, r.states, r.terminal, if rcode = "" then "UNKNOWN" else rcode, "",
      r.truncated⟩
  | .error err => ⟨r.queryName, r.queryType, r.states, r.terminal, "", err, r.truncated⟩

/-- What `Change` tells the recorder: `recordTraceState` at a stage and `recordTraceTerminal`
at an exit. -/
def tell (r : Recorder) : Record → Recorder
  | .stage st => r.recordState (stateMetricName st)
  | .transition ⟨_, .exit exit⟩ => r.recordTerminal (exitMetricName exit)
  | .transition ⟨_, .state _⟩ => r

end Recorder

/-- `log` is what the recorder was told and by which run, and `visits` are those of the run for
the domain; no step reads them. -/
structure Traced where
  runs : List Run
  recorder : Recorder
  log : List (Nat × Record)
  visits : List Visit

def Traced.visitRun (env : Env) (s : Traced) (i : Nat) (run : Run) (v : Visit) : Traced :=
  let records := visitRecords env run.outcome v
  { runs := s.runs.set i (run.visit env v)
    recorder := records.foldl Recorder.tell s.recorder
    log := s.log ++ records.map (Prod.mk i)
    visits := if i = 0 then s.visits ++ [v] else s.visits }

def step (env : Env) (s : Traced) : QueryWork.Event → Traced
  | .visit i v =>
    match s.runs[i]? with
    | none => s
    | some run =>
      match run.outcome with
      | .await _ (.resolve _) => if nestedOver s.runs i then s.visitRun env i run v else s
      | _ => s.visitRun env i run v
  | .nest i k id => { s with runs := QueryWork.step env s.runs (.nest i k id) }

/-- `SetQuestion` on a new message. -/
def traceRequest (lib : Lib) (id : Nat) (domain : String) (qtype : Nat) : Msg :=
  { id := id, recursionDesired := true, question := [⟨lib.fqdn domain, qtype, classINET⟩] }

/-- `TraceDomain` up to the call of `Change`. -/
def traceDomain (tables : NameTables) (lib : Lib) (id : Nat) (domain : String) (qtype : Nat) :
    Traced :=
  ⟨[.begin none (traceRequest lib id domain qtype) 0],
    newResolutionTraceRecorder tables (lib.fqdn domain) qtype, [], []⟩

/-- A goroutine of `resolveNSIPsConcurrently` gets its slot and begins a nested run. -/
def StartsNested (s : Traced) : QueryWork.Event → Prop
  | .nest i k _ => ∃ run r nsNames nsName, s.runs[i]? = some run ∧
      run.outcome = .await r (.resolve nsNames) ∧ run.pending[k]? = some nsName
  | .visit _ _ => False

/-! ### What the recorder keeps -/

def stateName? : Record → Option String
  | .stage st => some (stateMetricName st)
  | .transition _ => none

/-- The states that are told, in order. -/
def stateNames (records : List Record) : List String := records.filterMap stateName?

def exit? : Record → Option Exit
  | .transition ⟨_, .exit exit⟩ => some exit
  | _ => none

def lastExit (records : List Record) : Option Exit := (records.filterMap exit?).getLast?

/-- The recorder has the first states and the last exit of what it was told. -/
structure Keeps (r : Recorder) (told : List Record) : Prop where
  states : r.states = (stateNames told).take maxTraceStates
  terminal : r.terminal = (lastExit told).elim "" exitMetricName

lemma stateMetricName_ne (st : StateKind) : stateMetricName st ≠ "" := by
  cases st <;> decide

lemma exitMetricName_ne (exit : Exit) : exitMetricName exit ≠ "" := by
  cases exit <;> decide

lemma lastExit_append_other (told : List Record) {record : Record} (other : exit? record = none) :
    lastExit (told ++ [record]) = lastExit told := by
  rw [lastExit, List.filterMap_append, List.filterMap_cons_none other]
  exact congrArg List.getLast? (List.append_nil _)

lemma recordState_keeps {r : Recorder} {told : List Record} (keeps : Keeps r told)
    (st : StateKind) : Keeps (r.recordState (stateMetricName st)) (told ++ [.stage st]) := by
  have names : stateNames (told ++ [.stage st]) = stateNames told ++ [stateMetricName st] :=
    List.filterMap_append
  have exits : lastExit (told ++ [.stage st]) = lastExit told := lastExit_append_other told rfl
  have states := keeps.states
  rw [Recorder.recordState, if_neg (stateMetricName_ne st)]
  split
  · rename_i full
    refine ⟨?_, by rw [exits]; exact keeps.terminal⟩
    rw [states, List.length_take] at full
    rw [names, List.take_append_of_le_length (by omega)]
    exact states
  · rename_i room
    refine ⟨?_, by rw [exits]; exact keeps.terminal⟩
    rw [states, List.length_take] at room
    have short : (stateNames told).length < maxTraceStates := by omega
    dsimp only
    rw [names, states, List.take_of_length_le (Nat.le_of_lt short), List.take_of_length_le]
    rw [List.length_append]
    exact short

lemma tell_keeps {r : Recorder} {told : List Record} (keeps : Keeps r told) (record : Record) :
    Keeps (r.tell record) (told ++ [record]) := by
  cases record with
  | stage st => exact recordState_keeps keeps st
  | transition edge =>
    obtain ⟨src, dst⟩ := edge
    have names : stateNames (told ++ [.transition ⟨src, dst⟩]) = stateNames told := by
      rw [stateNames, List.filterMap_append]
      exact List.append_nil _
    cases dst with
    | state st =>
      refine ⟨by rw [names]; exact keeps.states, ?_⟩
      rw [lastExit_append_other told rfl]
      exact keeps.terminal
    | exit exit =>
      have last : lastExit (told ++ [.transition ⟨src, .exit exit⟩]) = some exit := by
        rw [lastExit, List.filterMap_append]
        exact List.getLast?_concat
      rw [Recorder.tell, Recorder.recordTerminal, if_neg (exitMetricName_ne exit)]
      refine ⟨by rw [names]; exact keeps.states, ?_⟩
      rw [last]
      rfl

lemma tellAll_keeps {r : Recorder} {told : List Record} (keeps : Keeps r told)
    (records : List Record) : Keeps (records.foldl Recorder.tell r) (told ++ records) := by
  induction records generalizing r told with
  | nil =>
    rw [List.append_nil]
    exact keeps
  | cons record records ih =>
    rw [List.append_cons]
    exact ih (tell_keeps keeps record)

/-! ### What a step does -/

inductive Stepped (env : Env) (s : Traced) : Traced → Prop
  | idle : Stepped env s s
  | visited (i : Nat) (v : Visit) (run : Run) (at_i : s.runs[i]? = some run)
      (alone : ∀ r nsNames, run.outcome = .await r (.resolve nsNames) →
        nestedOver s.runs i = true) :
      Stepped env s (s.visitRun env i run v)
  | nested (i k id : Nat) (run : Run) (r : Resolution) (nsNames : List String) (nsName : String)
      (at_i : s.runs[i]? = some run) (waits : run.outcome = .await r (.resolve nsNames))
      (picked : run.pending[k]? = some nsName) :
      Stepped env s { s with
        runs := s.runs.set i { run with
            pending := run.pending.eraseIdx k, begun := nsName :: run.begun } ++
          [.begin (some i) (newQuery id nsName typeA) (r.depth + 1)] }

lemma length_visitRun (env : Env) (s : Traced) (i : Nat) (run : Run) (v : Visit) :
    (s.visitRun env i run v).runs.length = s.runs.length :=
  List.length_set

/-- A nested run is begun, or nothing happens. -/
lemma nest_cases (env : Env) (s : Traced) (i k id : Nat) :
    (¬ StartsNested s (.nest i k id) ∧ QueryWork.step env s.runs (.nest i k id) = s.runs) ∨
    ∃ run r nsNames nsName, s.runs[i]? = some run ∧ run.outcome = .await r (.resolve nsNames) ∧
      run.pending[k]? = some nsName ∧ StartsNested s (.nest i k id) ∧
      QueryWork.step env s.runs (.nest i k id) =
        s.runs.set i { run with
            pending := run.pending.eraseIdx k, begun := nsName :: run.begun } ++
          [.begin (some i) (newQuery id nsName typeA) (r.depth + 1)] := by
  by_cases starts : StartsNested s (.nest i k id)
  · obtain ⟨run, r, nsNames, nsName, at_i, waits, picked⟩ := starts
    refine .inr ⟨run, r, nsNames, nsName, at_i, waits, picked,
      ⟨run, r, nsNames, nsName, at_i, waits, picked⟩, ?_⟩
    rw [QueryWork.step, at_i]
    dsimp only
    rw [waits, picked]
  · refine .inl ⟨starts, ?_⟩
    rw [QueryWork.step]
    split
    · rfl
    · rename_i run at_i
      split
      · rename_i r nsNames nsName waits picked
        exact absurd ⟨run, r, nsNames, nsName, at_i, waits, picked⟩ starts
      · rfl

/-- A run is visited unless it waits for nested runs. -/
lemma visit_cases (env : Env) (s : Traced) (i : Nat) (v : Visit) :
    step env s (.visit i v) = s ∨ ∃ run, s.runs[i]? = some run ∧
      (∀ r nsNames, run.outcome = .await r (.resolve nsNames) → nestedOver s.runs i = true) ∧
      step env s (.visit i v) = s.visitRun env i run v := by
  rw [step]
  split
  · exact .inl rfl
  · rename_i run at_i
    split
    · split
      · rename_i alone
        exact .inr ⟨run, at_i, fun _ _ _ => alone, rfl⟩
      · exact .inl rfl
    · rename_i waits_not
      refine .inr ⟨run, at_i, ?_, rfl⟩
      intro r nsNames waits
      exact absurd waits (waits_not r nsNames)

theorem step_stepped (env : Env) (s : Traced) (e : QueryWork.Event) :
    Stepped env s (step env s e) := by
  cases e with
  | nest i k id =>
    rw [step]
    rcases nest_cases env s i k id with
      ⟨_, same⟩ | ⟨run, r, nsNames, nsName, at_i, waits, picked, _, is⟩
    · rw [same]
      exact .idle
    · rw [is]
      exact .nested i k id run r nsNames nsName at_i waits picked
  | visit i v =>
    rcases visit_cases env s i v with same | ⟨run, at_i, alone, is⟩
    · rw [same]
      exact .idle
    · rw [is]
      exact .visited i v run at_i alone

/-- The run for the domain stays alone until a nested run is begun. -/
lemma step_alone_iff (env : Env) (s : Traced) (e : QueryWork.Event) (some_run : s.runs ≠ []) :
    (step env s e).runs.length = 1 ↔ s.runs.length = 1 ∧ ¬ StartsNested s e := by
  cases e with
  | nest i k id =>
    rw [step]
    rcases nest_cases env s i k id with ⟨none_starts, same⟩ | ⟨_, _, _, _, _, _, _, starts, is⟩
    · rw [same]
      exact (and_iff_left none_starts).symm
    · have longer : 0 < s.runs.length := List.length_pos_iff.mpr some_run
      dsimp only
      rw [is, List.length_append, List.length_set]
      constructor
      · intro one
        simp only [List.length_cons, List.length_nil] at one
        omega
      · intro both
        exact absurd starts both.2
  | visit i v =>
    have same : (step env s (.visit i v)).runs.length = s.runs.length := by
      rcases visit_cases env s i v with same | ⟨run, _, _, is⟩
      · rw [same]
      · rw [is, length_visitRun]
    rw [same]
    exact (and_iff_left id).symm

/-! ### The records of a visit -/

lemma leaves_stages {st : StateKind} {records : List Record} {o : Outcome}
    (leaves : Leaves st records o) : stages records = 0 := by
  cases leaves <;> rfl

/-- A run that comes to its end has told its exit last. -/
lemma leaves_exit {st : StateKind} {records : List Record} {o : Outcome}
    (leaves : Leaves st records o) (ends : isDone o = true) :
    ∃ before src exit, records = before ++ [recordTerminalExit src exit] := by
  cases leaves with
  | moved r => cases ends
  | ended exit early r result => exact ⟨[], st, exit, rfl⟩
  | limit dst r result => exact ⟨[_], dst, .maxIters, rfl⟩

lemma visit_handlers (env : Env) (run : Run) (v : Visit) :
    (run.visit env v).handlers = run.handlers + stages (visitRecords env run.outcome v) := by
  rw [Run.visit]
  cases run.outcome with
  | next r =>
    have none_more : stages (roundRecords env v.world v.input r) = 0 := by
      rcases iterate_leaves r env v.world v.input with ⟨none, _⟩ | leaves
      · rw [none]
        rfl
      · exact leaves_stages leaves
    dsimp only
    rw [Run.entered_handlers, visitRecords, stages_stage, none_more]
  | await r source =>
    rw [visitRecords, leaves_stages (resume_leaves r env v.input source)]
    rfl
  | done r result => rfl

lemma visit_exit (env : Env) {o : Outcome} (v : Visit) (going : isDone o = false)
    (ends : isDone (visit env o v) = true) :
    ∃ before src exit, visitRecords env o v = before ++ [recordTerminalExit src exit] := by
  cases o with
  | done r result => cases going
  | await r source => exact leaves_exit (resume_leaves r env v.input source) ends
  | next r =>
    rcases iterate_leaves r env v.world v.input with ⟨_, source, waits⟩ | leaves
    · rw [visit, visitEffects, waits] at ends
      cases ends
    · obtain ⟨before, src, exit, is⟩ := leaves_exit leaves ends
      exact ⟨.stage r.st :: before, src, exit, by rw [visitRecords, is]; rfl⟩

lemma lastExit_exit (told before : List Record) (src : StateKind) (exit : Exit) :
    lastExit (told ++ (before ++ [recordTerminalExit src exit])) = some exit := by
  rw [lastExit, ← List.append_assoc, List.filterMap_append]
  exact List.getLast?_concat

lemma changeRecords_snoc (env : Env) (request : Msg) (visits : List Visit) (v : Visit) :
    changeRecords env request 0 (visits ++ [v]) = changeRecords env request 0 visits ++
      visitRecords env (resolve env request 0 visits) v :=
  StepRuns.emitted_snoc (visit env) (visitRecords env) _ visits v

/-! ### The log -/

/-- The recorder was told a state by a nested run. -/
def Overheard (log : List (Nat × Record)) : Prop := ∃ e ∈ log, e.1 ≠ 0 ∧ e.2.isStage = true

/-- What the run for the domain told. -/
def own (log : List (Nat × Record)) : List Record :=
  (log.filter fun e => e.1 = 0).map Prod.snd

lemma own_append_own (log : List (Nat × Record)) (records : List Record) :
    own (log ++ records.map (Prod.mk 0)) = own log ++ records := by
  have all : (records.map (Prod.mk 0)).filter (fun e => e.1 = 0) = records.map (Prod.mk 0) := by
    refine List.filter_eq_self.mpr ?_
    intro e mem
    obtain ⟨record, _, rfl⟩ := List.mem_map.mp mem
    rfl
  rw [own, List.filter_append, List.map_append, all, List.map_map]
  exact congrArg (own log ++ ·) (List.map_id _)

lemma own_append_other (log : List (Nat × Record)) (records : List Record) (k : Nat) :
    own (log ++ records.map (Prod.mk (k + 1))) = own log := by
  have none : (records.map (Prod.mk (k + 1))).filter (fun e => e.1 = 0) = [] := by
    refine List.filter_eq_nil_iff.mpr ?_
    intro e mem
    obtain ⟨record, _, rfl⟩ := List.mem_map.mp mem
    simp
  rw [own, List.filter_append, none, List.append_nil]
  rfl

lemma own_eq_of_tagged {log : List (Nat × Record)} (tagged : ∀ e ∈ log, e.1 < 1) :
    own log = log.map Prod.snd := by
  have all : log.filter (fun e => e.1 = 0) = log := by
    refine List.filter_eq_self.mpr ?_
    intro e mem
    exact decide_eq_true (Nat.lt_one_iff.mp (tagged e mem))
  rw [own, all]

lemma map_snd_append (log : List (Nat × Record)) (i : Nat) (records : List Record) :
    (log ++ records.map (Prod.mk i)).map Prod.snd = log.map Prod.snd ++ records := by
  rw [List.map_append, List.map_map]
  exact congrArg (log.map Prod.snd ++ ·) (List.map_id _)

lemma stages_own_lt {log : List (Nat × Record)} (overheard : Overheard log) :
    stages (own log) < stages (log.map Prod.snd) := by
  obtain ⟨e, mem, nested, stage⟩ := overheard
  have split := List.countP_eq_countP_filter_add log (fun e => e.2.isStage) (fun e => e.1 = 0)
  have some_nested : 0 < (log.filter fun e => !decide (e.1 = 0)).countP (fun e => e.2.isStage) := by
    rw [List.countP_pos_iff]
    refine ⟨e, List.mem_filter.mpr ⟨mem, ?_⟩, stage⟩
    rw [decide_eq_false nested]
    rfl
  rw [stages, stages, own, List.countP_map, List.countP_map]
  change List.countP (fun e : Nat × Record => e.2.isStage) _ <
    List.countP (fun e : Nat × Record => e.2.isStage) _
  omega

lemma length_stateNames (records : List Record) : (stateNames records).length = stages records := by
  induction records with
  | nil => rfl
  | cons record records ih =>
    cases record with
    | stage st =>
      rw [stages_stage, ← ih]
      rfl
    | transition edge => exact ih

/-! ### Every run -/

/-- What holds of the run for the domain and of those it has begun. -/
structure Faithful (env : Env) (request : Msg) (s : Traced) (main : Run) (nested : List Run) :
    Prop where
  runs : s.runs = main :: nested
  lawful : Lawful main nested
  outcome : main.outcome = resolve env request 0 s.visits
  handlers : main.handlers = stages (changeRecords env request 0 s.visits)
  own : own s.log = changeRecords env request 0 s.visits
  kept : Keeps s.recorder (s.log.map Prod.snd)
  tagged : ∀ e ∈ s.log, e.1 < s.runs.length
  waited : (∃ r nsNames, main.outcome = .await r (.resolve nsNames)) ∨
    ∀ run ∈ nested, isDone run.outcome = true
  heard : ∀ run ∈ nested, (∃ r, run.outcome = .next r) ∨ Overheard s.log
  last : isDone main.outcome = true →
    lastExit (s.log.map Prod.snd) = lastExit (changeRecords env request 0 s.visits)

section Steps

variable {env : Env} {request : Msg} {s : Traced} {main : Run} {nested : List Run}

lemma Overheard.append {log : List (Nat × Record)} (overheard : Overheard log)
    (more : List (Nat × Record)) : Overheard (log ++ more) := by
  obtain ⟨e, mem, is⟩ := overheard
  exact ⟨e, List.mem_append_left _ mem, is⟩

lemma tagged_append {log : List (Nat × Record)} {n i : Nat} (tagged : ∀ e ∈ log, e.1 < n)
    (within : i < n) (records : List Record) :
    ∀ e ∈ log ++ records.map (Prod.mk i), e.1 < n := by
  intro e mem
  rcases List.mem_append.mp mem with old | new
  · exact tagged e old
  · obtain ⟨record, _, rfl⟩ := List.mem_map.mp new
    exact within

/-- The run for the domain goes on when the nested runs are over. -/
lemma Faithful.nested_over (faithful : Faithful env request s main nested)
    (alone : ∀ r nsNames, main.outcome = .await r (.resolve nsNames) →
      nestedOver s.runs 0 = true) : ∀ run ∈ nested, isDone run.outcome = true := by
  rcases faithful.waited with ⟨r, nsNames, waits⟩ | over_
  · have all := List.all_eq_true.mp (alone r nsNames waits)
    intro run mem
    have done := all run (by rw [faithful.runs]; exact List.mem_cons_of_mem main mem)
    rw [faithful.lawful.parent run mem] at done
    simpa using done
  · exact over_

/-- When the run for the domain has ended, so have the nested ones. -/
lemma Faithful.nested_done (faithful : Faithful env request s main nested)
    (done : isDone main.outcome = true) : ∀ run ∈ nested, isDone run.outcome = true := by
  refine faithful.nested_over ?_
  intro r nsNames waits
  rw [waits] at done
  cases done

lemma done_visit {o : Outcome} (done : isDone o = true) (v : Visit) :
    visit env o v = o ∧ visitRecords env o v = [] := by
  cases o with
  | done r result => exact ⟨rfl, rfl⟩
  | _ => cases done

lemma main_visit_faithful (faithful : Faithful env request s main nested) (v : Visit)
    (alone : ∀ r nsNames, main.outcome = .await r (.resolve nsNames) →
      nestedOver s.runs 0 = true) :
    Faithful env request (s.visitRun env 0 main v) (main.visit env v) nested where
  runs := by
    change s.runs.set 0 _ = _
    rw [faithful.runs]
    rfl
  lawful := main_visit_lawful env v faithful.lawful
  outcome := by
    change _ = resolve env request 0 (s.visits ++ [v])
    rw [visit_outcome, resolve_snoc, faithful.outcome]
  handlers := by
    change _ = stages (changeRecords env request 0 (s.visits ++ [v]))
    rw [visit_handlers, changeRecords_snoc, stages_append, faithful.handlers, faithful.outcome]
  own := by
    change own (s.log ++ _) = changeRecords env request 0 (s.visits ++ [v])
    rw [own_append_own, changeRecords_snoc, faithful.own, faithful.outcome]
  kept := by
    change Keeps _ ((s.log ++ _).map Prod.snd)
    rw [map_snd_append]
    exact tellAll_keeps faithful.kept _
  tagged := by
    have first : 0 < s.runs.length := by
      rw [faithful.runs]
      exact Nat.succ_pos _
    rw [length_visitRun]
    exact tagged_append faithful.tagged first _
  waited := .inr (faithful.nested_over alone)
  heard run mem := (faithful.heard run mem).imp_right fun overheard => overheard.append _
  last ends := by
    change lastExit ((s.log ++ _).map Prod.snd) =
      lastExit (changeRecords env request 0 (s.visits ++ [v]))
    rw [map_snd_append, changeRecords_snoc, ← faithful.outcome]
    cases going : isDone main.outcome with
    | true =>
      rw [(done_visit going v).2, List.append_nil, List.append_nil]
      exact faithful.last going
    | false =>
      rw [visit_outcome] at ends
      obtain ⟨before, src, exit, is⟩ := visit_exit env v going ends
      rw [is, lastExit_exit, lastExit_exit]

lemma nested_visit_faithful (faithful : Faithful env request s main nested) {k : Nat} {run : Run}
    (at_k : nested[k]? = some run) (v : Visit) :
    Faithful env request (s.visitRun env (k + 1) run v) main (nested.set k (run.visit env v)) where
  runs := by
    change s.runs.set (k + 1) _ = _
    rw [faithful.runs]
    rfl
  lawful := nested_visit_lawful env v faithful.lawful at_k
  outcome := faithful.outcome
  handlers := faithful.handlers
  own := (own_append_other _ _ _).trans faithful.own
  kept := by
    change Keeps _ ((s.log ++ _).map Prod.snd)
    rw [map_snd_append]
    exact tellAll_keeps faithful.kept _
  tagged := by
    have within : k + 1 < s.runs.length := by
      rw [faithful.runs]
      exact Nat.succ_lt_succ (List.getElem?_eq_some_iff.mp at_k).1
    rw [length_visitRun]
    exact tagged_append faithful.tagged within _
  waited := by
    refine faithful.waited.imp_right fun over_ => ?_
    intro run' mem
    rcases List.mem_or_eq_of_mem_set mem with old | rfl
    · exact over_ run' old
    · have done := over_ run (List.mem_of_getElem? at_k)
      rw [visit_outcome, (done_visit done v).1]
      exact done
  heard run' mem := by
    rcases List.mem_or_eq_of_mem_set mem with old | rfl
    · exact (faithful.heard run' old).imp_right fun overheard => overheard.append _
    · refine .inr ?_
      rcases faithful.heard run (List.mem_of_getElem? at_k) with ⟨r, fresh⟩ | overheard
      · -- the first round of a nested run tells its state
        refine ⟨(k + 1, .stage r.st), List.mem_append_right _ ?_, Nat.succ_ne_zero k, rfl⟩
        rw [fresh]
        exact List.mem_map_of_mem List.mem_cons_self
      · exact overheard.append _
  last ends := by
    have over_ := faithful.nested_done ends run (List.mem_of_getElem? at_k)
    have silent : visitRecords env run.outcome v = [] := (done_visit over_ v).2
    change lastExit ((s.log ++ _).map Prod.snd) = _
    rw [map_snd_append, silent, List.append_nil]
    exact faithful.last ends

lemma nest_faithful (faithful : Faithful env request s main nested) {k id : Nat} {r : Resolution}
    {nsNames : List String} {nsName : String} (waits : main.outcome = .await r (.resolve nsNames))
    (picked : main.pending[k]? = some nsName) :
    Faithful env request { s with
        runs := s.runs.set 0 { main with
            pending := main.pending.eraseIdx k, begun := nsName :: main.begun } ++
          [.begin (some 0) (newQuery id nsName typeA) 1] }
      { main with pending := main.pending.eraseIdx k, begun := nsName :: main.begun }
      (nested ++ [.begin (some 0) (newQuery id nsName typeA) 1]) where
  runs := by
    dsimp only
    rw [faithful.runs]
    rfl
  lawful := nest_lawful faithful.lawful picked
  outcome := faithful.outcome
  handlers := faithful.handlers
  own := faithful.own
  kept := faithful.kept
  tagged e mem := by
    have before := faithful.tagged e mem
    dsimp only
    rw [List.length_append, List.length_set]
    omega
  waited := .inl ⟨r, nsNames, waits⟩
  heard run mem := by
    rcases List.mem_append.mp mem with old | new
    · exact faithful.heard run old
    · rw [List.mem_singleton.mp new]
      exact .inl ⟨_, rfl⟩
  last ends := by
    change isDone main.outcome = true at ends
    rw [waits] at ends
    cases ends

end Steps

theorem step_faithful (env : Env) (request : Msg) (s : Traced) (e : QueryWork.Event)
    (faithful : ∃ main nested, Faithful env request s main nested) :
    ∃ main nested, Faithful env request (step env s e) main nested := by
  obtain ⟨main, nested, faithful⟩ := faithful
  have stepped := step_stepped env s e
  generalize step env s e = s' at stepped
  cases stepped with
  | idle => exact ⟨main, nested, faithful⟩
  | visited i v run at_i alone =>
    rw [faithful.runs] at at_i
    cases i with
    | zero =>
      cases at_i
      exact ⟨_, _, main_visit_faithful faithful v alone⟩
    | succ k => exact ⟨_, _, nested_visit_faithful faithful at_i v⟩
  | nested i k id run r nsNames nsName at_i waits picked =>
    rw [faithful.runs] at at_i
    cases i with
    | zero =>
      cases at_i
      obtain ⟨shallow, _, _⟩ := faithful.lawful.main_sound.names r nsNames waits
      rw [shallow]
      exact ⟨_, _, nest_faithful faithful waits picked⟩
    | succ i =>
      exact absurd waits (faithful.lawful.not_waiting (List.mem_of_getElem? at_i) r nsNames)

lemma traceDomain_faithful (tables : NameTables) (env : Env) (id : Nat) (domain : String)
    (qtype : Nat) :
    Faithful env (traceRequest env.lib id domain qtype)
      (traceDomain tables env.lib id domain qtype)
      (.begin none (traceRequest env.lib id domain qtype) 0) [] where
  runs := rfl
  lawful := begin_lawful _
  outcome := rfl
  handlers := rfl
  own := rfl
  kept := ⟨rfl, rfl⟩
  tagged := fun _ mem => nomatch mem
  waited := .inr fun _ mem => nomatch mem
  heard := fun _ mem => nomatch mem
  last := (nomatch ·)

lemma Faithful.stages_le {env : Env} {request : Msg} {s : Traced} {main : Run} {nested : List Run}
    (faithful : Faithful env request s main nested) :
    stages (changeRecords env request 0 s.visits) ≤ 50 := by
  rw [← faithful.handlers]
  exact faithful.lawful.main_sound.paced.bounds.1

/-- The recorded states are those of the run for the domain as long as it was alone. -/
theorem Faithful.states_iff {env : Env} {request : Msg} {s : Traced} {main : Run}
    {nested : List Run} (faithful : Faithful env request s main nested)
    (done : isDone main.outcome = true) :
    s.recorder.states = (stateNames (changeRecords env request 0 s.visits)).take maxTraceStates ↔
      s.runs.length = 1 := by
  rw [faithful.kept.states]
  constructor
  · intro same
    have lengths := congrArg List.length same
    rw [List.length_take, List.length_take, length_stateNames, length_stateNames] at lengths
    have short := faithful.stages_le
    rw [faithful.runs]
    cases nested with
    | nil => rfl
    | cons run rest =>
      -- a nested run that is over has told at least one state
      exfalso
      have overheard : Overheard s.log := by
        rcases faithful.heard run List.mem_cons_self with ⟨r, fresh⟩ | overheard
        · have ended := faithful.nested_done done run List.mem_cons_self
          rw [fresh] at ended
          cases ended
        · exact overheard
      have more := stages_own_lt overheard
      rw [faithful.own] at more
      rw [maxTraceStates] at lengths
      omega
  · intro alone
    have tagged := faithful.tagged
    rw [alone] at tagged
    rw [← own_eq_of_tagged tagged, faithful.own]

/-- The exit of a path is the last one that is told. -/
lemma onePath_lastExit {records : List Record} {exit : Exit}
    (path : OnePath (transitions records) exit) : lastExit records = some exit := by
  have through : records.filterMap exit? =
      (transitions records).filterMap fun edge => exit? (.transition edge) := by
    rw [transitions, List.filterMap_filterMap]
    refine List.filterMap_congr ?_
    intro record _
    cases record with
    | stage st => rfl
    | transition edge => rfl
  obtain ⟨edge, last, is_exit⟩ := Option.map_eq_some_iff.mp path.ends
  obtain ⟨before, edges⟩ := List.getLast?_eq_some_iff.mp last
  have told : exit? (.transition edge) = some exit := by
    obtain ⟨src, dst⟩ := edge
    cases is_exit
    rfl
  rw [lastExit, through, edges, List.filterMap_append,
    List.filterMap_cons_some (f := fun edge => exit? (.transition edge)) told]
  exact List.getLast?_concat

lemma snapshot_kept (tables : NameTables) (r : Recorder) (result : Except String Msg) :
    (r.snapshot tables result).states = r.states ∧
      (r.snapshot tables result).terminal = r.terminal := by
  cases result with
  | ok response => exact ⟨rfl, rfl⟩
  | error err => exact ⟨rfl, rfl⟩

/-- For every domain, type, configuration, cache and upstream behaviour and every order of the
steps. The first run is a run of `Change` and ends. When it has, `Terminal` is its terminal; and
`States` are its states if and only if no nested run was begun. -/
theorem trace_is_path_iff (tables : NameTables) (env : Env) (id : Nat) (domain : String)
    (qtype : Nat) (events : List QueryWork.Event) :
    let request := traceRequest env.lib id domain qtype
    let start := traceDomain tables env.lib id domain qtype
    let s := StepRuns.run (step env) start events
    let run := resolve env request 0 s.visits
    let records := changeRecords env request 0 s.visits
    s.runs.head?.map Run.outcome = some run ∧
      (2 * maxIterations ≤ s.visits.length → ∃ r result, run = .done r result) ∧
      ∀ r result, run = .done r result →
        (∃ exit, OnePath (transitions records) exit ∧
          (s.recorder.snapshot tables result).terminal = exitMetricName exit) ∧
        ((s.recorder.snapshot tables result).states = (stateNames records).take 128 ↔
          StepRuns.Along (step env) (fun s e => ¬ StartsNested s e) start events) := by
  intro request start s run records
  have first : ∃ main nested, Faithful env request start main nested :=
    ⟨_, _, traceDomain_faithful tables env id domain qtype⟩
  obtain ⟨main, nested, faithful⟩ :=
    StepRuns.run_preserves (step env) (step_faithful env request) first events
  refine ⟨?_, resolve_ends env request 0 s.visits, ?_⟩
  · change (StepRuns.run (step env) start events).runs.head?.map Run.outcome = _
    rw [faithful.runs, List.head?_cons, Option.map_some, faithful.outcome]
  · intro r result ended
    have done : isDone main.outcome = true := by
      rw [faithful.outcome]
      exact congrArg isDone ended
    obtain ⟨states, terminal⟩ := snapshot_kept tables s.recorder result
    constructor
    · have recorded := resolve_recorded env request 0 s.visits
      have is_done : resolve env request 0 s.visits = .done r result := ended
      rw [is_done] at recorded
      cases recorded with
      | done _ _ exit path _ =>
        refine ⟨exit, path, ?_⟩
        rw [terminal, faithful.kept.terminal, faithful.last done, onePath_lastExit path]
        rfl
    · rw [states]
      refine (faithful.states_iff done).trans ?_
      have alone := StepRuns.run_iff_along (step env) (Q := fun s => s.runs.length = 1)
        (step_faithful env request) (fun s e ⟨_, _, faithful⟩ =>
          step_alone_iff env s e (faithful.runs ▸ List.cons_ne_nil _ _)) first events
      exact alone.trans (and_iff_right rfl)

lemma exists_of_isDone {o : Outcome} (done : isDone o = true) :
    ∃ r result, o = .done r result := by
  cases o with
  | done r result => exact ⟨r, result, rfl⟩
  | _ => cases done

def plainTables : NameTables := ⟨fun _ => "", fun _ => ""⟩

/-- The rounds of a resolution whose query gets no answer. -/
def silentRounds : List String :=
  ["state_init", "hosts_lookup", "forward_lookup", "cache_lookup", "extract_glue",
    "lookup_ns_cache", "query_upstream"]

/-- A resolution from an empty cache whose query to a root server times out. -/
theorem lone_run_traced :
    let s := StepRuns.run (step plainEnv) (traceDomain plainTables plainEnv.lib 1 "a." typeA)
      (List.replicate 8 (.visit 0 idleVisit))
    let request := traceRequest plainEnv.lib 1 "a." typeA
    s.recorder.states = silentRounds ∧ s.recorder.terminal = "error_exit" ∧
      ∃ r result, resolve plainEnv request 0 s.visits = .done r result ∧
        (s.recorder.snapshot plainTables result).states =
          (stateNames (changeRecords plainEnv request 0 s.visits)).take 128 := by
  refine ⟨by decide +kernel, by decide +kernel, ?_⟩
  obtain ⟨r, result, ended⟩ := exists_of_isDone (o := resolve plainEnv
    (traceRequest plainEnv.lib 1 "a." typeA) 0 (StepRuns.run (step plainEnv)
      (traceDomain plainTables plainEnv.lib 1 "a." typeA)
        (List.replicate 8 (.visit 0 idleVisit))).visits) (by decide +kernel)
  have path := (trace_is_path_iff plainTables plainEnv 1 "a." typeA
    (List.replicate 8 (.visit 0 idleVisit))).2.2 r result ended
  exact ⟨r, result, ended, path.2.mpr ⟨id, id, id, id, id, id, id, id, trivial⟩⟩

/-- A cached delegation without an address of its server. -/
def referredWorld : World :=
  setCacheCopy plainLib (World.initial none 1 0) "a."
    { response := true, ns := [⟨"a.", classINET, 60, .ns "ns.b."⟩] } 60

/-- The server's name is resolved by a nested run, and its rounds are in the trace. -/
theorem nested_run_in_trace :
    let referred : Visit := ⟨referredWorld, .idle⟩
    let s := StepRuns.run (step plainEnv) (traceDomain plainTables plainEnv.lib 1 "a." typeA)
      (List.replicate 7 (.visit 0 referred) ++ [.nest 0 0 2] ++
        List.replicate 8 (.visit 1 idleVisit) ++ [.visit 0 referred])
    let request := traceRequest plainEnv.lib 1 "a." typeA
    isDone (resolve plainEnv request 0 s.visits) = true ∧
      stateNames (changeRecords plainEnv request 0 s.visits) = silentRounds ∧
      s.recorder.states = silentRounds ++ silentRounds ∧
      s.recorder.states ≠ (stateNames (changeRecords plainEnv request 0 s.visits)).take 128 := by
  decide +kernel

end DomainTrace
