import Rec53.StateMachine

/-!
# The resolver as a system of resolutions

Any number of resolutions share the cache and the clocks. A resolution that waits
for name-server addresses has nested resolutions of its own, and what they find
beyond the first result is written to the cache later, in the background. Events are
taken one at a time in any order; one that is not enabled changes nothing. The log of
effects with the time of each is not read by any step.

Loading a snapshot and warming up the cache are not among the events.
-/

namespace ResolverSystem

open DnsMessage Platform DnsCache StateHandlers UpstreamQuery StateMachine

/-- A resolution; a nested one knows who waits for it and for which name. -/
structure Proc where
  parent : Option (Nat × String)
  outcome : Outcome

structure Sys where
  world : World
  procs : List Proc
  updates : List (String × List String)
  log : List (Nat × Effect)

inductive Event where
  | query (request : Msg)
  | visit (i : Nat) (inp : Input)
  | spawn (i : Nat) (id : Nat) (nsName : String)
  | collect (i : Nat) (children : List Nat) (inp : Input)
  | update (k id : Nat)
  | advance (d : Nat)

def initial (w : World) : Sys := ⟨w, [], [], []⟩

def Sys.emit (lib : Lib) (s : Sys) (effects : List Effect) : Sys :=
  { s with
    world := perform lib s.world effects
    log := s.log ++ effects.map fun e => (s.world.wall, e) }

def Sys.visitProc (env : Env) (s : Sys) (i : Nat) (p : Proc) (inp : Input) : Sys :=
  let out := visitEffects env p.outcome ⟨s.world, inp⟩
  { s.emit env.lib out.1 with procs := s.procs.set i { p with outcome := out.2 } }

/-- The addresses a finished nested resolution of `i` found for its name. -/
def Sys.childResult (s : Sys) (i j : Nat) : Option (String × List String) :=
  match s.procs[j]? with
  | some ⟨some (i', nsName), .done _ (.ok msg)⟩ =>
    if i' = i ∧ answerAddresses msg ≠ [] then some (nsName, answerAddresses msg) else none
  | _ => none

def orphan (i : Nat) (p : Proc) : Proc :=
  match p.parent with
  | some (i', _) => if i' = i then { p with parent := none } else p
  | none => p

/-- `collect` ends the wait for nested resolutions: the first result is used, the
others are left for the background, and no child is collected twice. -/
def step (env : Env) (s : Sys) : Event → Sys
  | .query request => { s with procs := s.procs ++ [⟨none, .next (start request 0)⟩] }
  | .visit i inp =>
    match s.procs[i]? with
    | some ⟨parent, .next r⟩ => s.visitProc env i ⟨parent, .next r⟩ inp
    | some ⟨parent, .await r (.ips ipList)⟩ =>
      s.visitProc env i ⟨parent, .await r (.ips ipList)⟩ inp
    | _ => s
  | .spawn i id nsName =>
    match s.procs[i]? with
    | some ⟨_, .await r (.resolve nsNames)⟩ =>
      if nsName ∈ nsNames then
        { s with procs := s.procs ++
          [⟨some (i, nsName), .next (start (newQuery id nsName typeA) (r.depth + 1))⟩] }
      else s
    | _ => s
  | .collect i children inp =>
    match s.procs[i]? with
    | some ⟨parent, .await r (.resolve nsNames)⟩ =>
      let results := children.filterMap (s.childResult i)
      let nsIPs := (results.head?.map Prod.snd).getD []
      let freed := { s with
        procs := s.procs.map (orphan i), updates := s.updates ++ results.tail }
      freed.visitProc env i ⟨parent, .await r (.resolve nsNames)⟩ { inp with nsIPs := nsIPs }
    | _ => s
  | .update k id =>
    match s.updates[k]? with
    | some (nsName, ips) =>
      { s.emit env.lib [.updateNSIPs id nsName ips] with updates := s.updates.eraseIdx k }
    | none => s
  | .advance d => { s with world := s.world.advance d }

def runFrom (env : Env) (w : World) (events : List Event) : Sys :=
  StepRuns.run (step env) (initial w) events

/-! ### What one event does -/

/-- The ways an event changes the system. Each resolution in it starts, makes a visit,
or stays as it is, and every change of the shared state is an effect in the log. -/
inductive Stepped (env : Env) (s : Sys) : Sys → Prop where
  | idle : Stepped env s s
  | started (p : Proc) (request : Msg) (depth : Nat)
      (fresh : p.outcome = .next (start request depth)) :
      Stepped env s { s with procs := s.procs ++ [p] }
  | visited (procs : List Proc) (updates : List (String × List String)) (i : Nat) (p : Proc)
      (inp : Input) (before : ∀ q ∈ procs, ∃ q' ∈ s.procs, q.outcome = q'.outcome)
      (mine : ∃ q' ∈ s.procs, p.outcome = q'.outcome) :
      Stepped env s
        ({ s with procs := procs, updates := updates }.visitProc env i p inp)
  | updated (updates : List (String × List String)) (id : Nat) (nsName : String)
      (ips : List String) :
      Stepped env s { s.emit env.lib [.updateNSIPs id nsName ips] with updates := updates }
  | advanced (d : Nat) : Stepped env s { s with world := s.world.advance d }

lemma orphan_outcome (i : Nat) (p : Proc) : (orphan i p).outcome = p.outcome := by
  rw [orphan]
  split
  · split <;> rfl
  · rfl

theorem step_stepped (env : Env) (s : Sys) (e : Event) : Stepped env s (step env s e) := by
  have same : ∀ q ∈ s.procs, ∃ q' ∈ s.procs, q.outcome = q'.outcome :=
    fun q mem => ⟨q, mem, rfl⟩
  cases e with
  | query request => exact .started _ request 0 rfl
  | advance d => exact .advanced d
  | visit i inp =>
    simp only [step]
    split
    · rename_i found
      exact .visited s.procs s.updates i _ inp same ⟨_, List.mem_of_getElem? found, rfl⟩
    · rename_i found
      exact .visited s.procs s.updates i _ inp same ⟨_, List.mem_of_getElem? found, rfl⟩
    · exact .idle
  | spawn i id nsName =>
    simp only [step]
    split
    · split
      · exact .started _ _ _ rfl
      · exact .idle
    · exact .idle
  | collect i children inp =>
    simp only [step]
    split
    · rename_i found
      refine .visited _ _ i _ _ ?_ ⟨_, List.mem_of_getElem? found, rfl⟩
      intro q mem
      obtain ⟨q', mem', rfl⟩ := List.mem_map.mp mem
      exact ⟨q', mem', orphan_outcome i q'⟩
    · exact .idle
  | update k id =>
    simp only [step]
    split
    · exact .updated _ id _ _
    · exact .idle

/-- The log only grows. -/
theorem step_log (env : Env) (s : Sys) (e : Event) : ∀ x ∈ s.log, x ∈ (step env s e).log := by
  have stepped := step_stepped env s e
  generalize step env s e = s' at stepped
  intro x mem
  cases stepped with
  | idle | started | advanced => exact mem
  | visited | updated => exact List.mem_append_left _ mem

/-! ### Every resolution is a run of the state machine -/

/-- The resolution is at QUERY_UPSTREAM, about to query or waiting in it. -/
def AtQuery (o : Outcome) (r : Resolution) : Prop :=
  (o = .next r ∧ r.st = .queryUpstream) ∨ ∃ source, o = .await r source

def IsRun (env : Env) (o : Outcome) : Prop :=
  ∃ request depth visits, o = resolve env request depth visits

lemma visitProc_procs {env : Env} {s : Sys} {i : Nat} {p q : Proc} {inp : Input}
    (mem : q ∈ (s.visitProc env i p inp).procs) :
    q ∈ s.procs ∨ q.outcome = visit env p.outcome ⟨s.world, inp⟩ := by
  rcases List.mem_or_eq_of_mem_set mem with old | rfl
  · exact .inl old
  · exact .inr rfl

/-- What holds of every resolution when it starts and is kept by every visit holds of
every resolution of the system. -/
theorem step_procs {env : Env} {s : Sys} {e : Event} {P : Outcome → Prop}
    (starts : ∀ request depth, P (.next (start request depth)))
    (keeps : ∀ o inp, P o → P (visit env o ⟨s.world, inp⟩))
    (all : ∀ p ∈ s.procs, P p.outcome) : ∀ p ∈ (step env s e).procs, P p.outcome := by
  have stepped := step_stepped env s e
  generalize step env s e = s' at stepped
  cases stepped with
  | idle => exact all
  | started p request depth fresh =>
    intro q mem
    rcases List.mem_append.mp mem with old | new
    · exact all q old
    · rw [List.mem_singleton.mp new, fresh]
      exact starts request depth
  | visited procs updates i p inp before mine =>
    intro q mem
    rcases visitProc_procs mem with old | new
    · obtain ⟨q', mem', same⟩ := before q old
      rw [same]
      exact all q' mem'
    · obtain ⟨q', mem', same⟩ := mine
      rw [new, same]
      exact keeps _ inp (all q' mem')
  | updated updates id nsName ips => exact all
  | advanced d => exact all

theorem procs_are_runs (env : Env) (w : World) (events : List Event) :
    ∀ p ∈ (runFrom env w events).procs, IsRun env p.outcome := by
  refine StepRuns.run_preserves (step env)
    (P := fun s => ∀ p ∈ s.procs, IsRun env p.outcome) ?_ ?_ events
  · intro s e all
    refine step_procs ?_ ?_ all
    · intro request depth
      exact ⟨request, depth, [], rfl⟩
    · rintro o inp ⟨request, depth, visits, rfl⟩
      exact ⟨request, depth, visits ++ [⟨s.world, inp⟩], (resolve_snoc env _ _ _ _).symm⟩
  · intro p mem
    cases mem

end ResolverSystem
