import Rec53.ResolverSystem

/-!
# What feeds the fast path

Seen from the caches, a run of the resolver is a sequence of few kinds of writes: an
accepted message, addresses of a name server, a negative response; besides them only
time passes and expired entries of the map are deleted. The fast path reads nothing but
the map and the clock, so its results are stated over runs of these.
-/

namespace FastPathFeed

open DnsMessage Platform XdpCache DnsCache StateHandlers UpstreamQuery StateMachine
  ResolverSystem

inductive Write where
  | accepted (m : Msg)
  | addresses (id : Nat) (nsName : String) (ips : List String)
  | negative (name : String) (qtype : Nat) (m : Msg) (ttl : Nat) (empty : m.answer = [])
  | advance (d : Nat)
  | cleanup

def Write.effects : Write → List Effect
  | .accepted m => cacheEffects m
  | .addresses id nsName ips => [.updateNSIPs id nsName ips]
  | .negative name qtype m ttl _ => [.setByType name qtype m ttl]
  | .advance _ | .cleanup => []

/-- One event at the caches. -/
def feedWorld (lib : Lib) (w : World) (e : Write) : World :=
  match e with
  | .advance d => w.advance d
  | .cleanup => { w with xdp := w.xdp.map (cleanupExpiredBPFEntries w.mono) }
  | .accepted _ | .addresses _ _ _ | .negative _ _ _ _ _ => perform lib w e.effects

/-! ### The resolver feeds the caches in no other way -/

/-- The shared state `w'` is reached from `w` by these events, and every message accepted
among them is one that `Came` lists. -/
def FedBy (lib : Lib) (Came : Msg → Prop) (w w' : World) : Prop :=
  ∃ es, w' = StepRuns.run (feedWorld lib) w es ∧ ∀ m, .accepted m ∈ es → Came m

lemma FedBy.refl (lib : Lib) (Came : Msg → Prop) (w : World) : FedBy lib Came w w :=
  ⟨[], rfl, fun m mem => by cases mem⟩

lemma FedBy.one {lib : Lib} {Came : Msg → Prop} (w : World) {e : Write}
    (came : ∀ m, e = .accepted m → Came m) : FedBy lib Came w (feedWorld lib w e) := by
  refine ⟨[e], rfl, ?_⟩
  intro m mem
  exact came m (List.mem_singleton.mp mem).symm

lemma FedBy.trans {lib : Lib} {Came Came' : Msg → Prop} {w w' w'' : World}
    (fed : FedBy lib Came w w') (wider : ∀ m, Came m → Came' m) (more : FedBy lib Came' w' w'') :
    FedBy lib Came' w w'' := by
  obtain ⟨es, rfl, came⟩ := fed
  obtain ⟨es', rfl, came'⟩ := more
  refine ⟨es ++ es', by rw [StepRuns.run_append], ?_⟩
  intro m mem
  rcases List.mem_append.mp mem with earlier | later
  · exact wider m (came m earlier)
  · exact came' m later

/-- A visit feeds the shared state at most one event, with a message received in it. -/
theorem visit_feeds (env : Env) (o : Outcome) (v : Visit) (w : World) :
    FedBy env.lib (fun m => .received m ∈ (visitEffects env o v).1) w
      (perform env.lib w (visitEffects env o v).1) := by
  have visited := visit_visited env o v
  generalize visit env o v = o', (visitEffects env o v).1 = effects at visited
  have quiet {effects : List Effect} (readOnly : ReadOnly effects) :
      FedBy env.lib (fun m => .received m ∈ effects) w (perform env.lib w effects) := by
    rw [perform_of_not_writes env.lib w readOnly]
    exact FedBy.refl _ _ w
  cases visited with
  | ended => exact FedBy.refl _ _ w
  | resumed r source effects o' resumed =>
    cases resumed with
    | accepted earlier m addr before bad success echoes readOnly received =>
      have came : .received m ∈ before := mem_receivedMsgs.mp (by simp [received])
      rw [perform_append, perform_of_not_writes env.lib w readOnly]
      refine FedBy.one w (e := .accepted m) ?_
      rintro _ ⟨⟩
      exact List.mem_append_left _ came
    | nxdomain _ _ _ _ readOnly => exact quiet readOnly
    | failed _ _ readOnly => exact quiet readOnly
    | rejected _ _ _ _ readOnly => exact quiet readOnly
    | noServer => exact FedBy.refl _ _ w
  | round r effects o' moved =>
    cases moved with
    | negative here negative ttl soa =>
      have empty : r.response.answer = [] := (isNegative_iff.mp negative).1
      refine FedBy.one w (e := .negative r.qname r.qtype r.response ttl empty) ?_
      rintro _ ⟨⟩
    | forwardHit _ _ _ readOnly => exact quiet readOnly
    | forwardEnd _ _ _ readOnly => exact quiet readOnly
    | _ => exact FedBy.refl _ _ w

/-- The message was received. -/
def Arrived (log : List (Nat × Effect)) (m : Msg) : Prop := ∃ t, (t, .received m) ∈ log

theorem step_feeds (env : Env) (s : Sys) (e : Event) :
    FedBy env.lib (Arrived (step env s e).log) s.world (step env s e).world := by
  have stepped := step_stepped env s e
  generalize step env s e = s' at stepped
  cases stepped with
  | idle | started => exact FedBy.refl _ _ s.world
  | visited procs updates i p inp =>
    obtain ⟨es, fed, came⟩ := visit_feeds env p.outcome ⟨s.world, inp⟩ s.world
    refine ⟨es, fed, ?_⟩
    intro m mem
    exact ⟨s.world.wall, List.mem_append_right _ (List.mem_map.mpr ⟨_, came m mem, rfl⟩)⟩
  | updated updates id nsName ips =>
    refine FedBy.one s.world (e := .addresses id nsName ips) ?_
    rintro _ ⟨⟩
  | advanced d =>
    refine FedBy.one s.world (e := .advance d) ?_
    rintro _ ⟨⟩

/-- Every run of the resolver is a run of these events at the caches, and accepts only
messages that it received. -/
theorem run_feeds (env : Env) (w : World) (events : List Event) :
    FedBy env.lib (Arrived (runFrom env w events).log) w (runFrom env w events).world := by
  refine StepRuns.run_preserves (step env)
    (P := fun s => FedBy env.lib (Arrived s.log) w s.world) ?_ (FedBy.refl _ _ w) events
  intro s e fed
  refine fed.trans ?_ (step_feeds env s e)
  rintro m ⟨t, mem⟩
  exact ⟨t, step_log env s e _ mem⟩

/-! ### The map after an event -/

/-- The kernel replaces the value of a key that a hash map holds, also when it is full. -/
def ReplacesHeld (lib : Lib) : Prop :=
  ∀ keys key, key ∈ keys → lib.bpfAccepts keys key = true

/-- The TTL of the last write of an accepted message that has an answer. -/
def lastTTL (m : Msg) : Nat :=
  match m.ns with
  | [] => (m.answer.head?.map RR.ttl).getD 0
  | rr :: _ => if rr.isNS then rr.ttl else (m.answer.head?.map RR.ttl).getD 0

lemma reachesMap_insert {lib : Lib} (replaces : ReplacesHeld lib) {map : BpfMap} {m : Msg}
    {key : CacheKey} {packed : Bytes} (reaches : reachesMap lib map m = some (key, packed))
    (val : CacheValue) : reachesMap lib (map.insert key val) m = some (key, packed) := by
  rw [reachesMap_eq_some, fastEntry_eq_some] at reaches ⊢
  obtain ⟨synced, built, packs, fits, _⟩ := reaches
  refine ⟨synced, built, packs, fits, replaces _ _ ?_⟩
  simp

/-- The delegation write of a message repeats the sync of its answer with another TTL. -/
lemma fastStore_fastStore {lib : Lib} (replaces : ReplacesHeld lib) (mono : Nat) (m : Msg)
    (ttl ttl' : Nat) (map : BpfMap) :
    fastStore lib mono m ttl' (fastStore lib mono m ttl map) = fastStore lib mono m ttl' map := by
  cases reaches : reachesMap lib map m with
  | none => simp only [fastStore, reaches]
  | some entry =>
    obtain ⟨key, packed⟩ := entry
    simp only [fastStore, reaches, reachesMap_insert replaces reaches, AList.insert_insert]

theorem accepted_xdp {lib : Lib} (replaces : ReplacesHeld lib) (w : World) (m : Msg) :
    (perform lib w (cacheEffects m)).xdp =
      w.xdp.map (fastStore lib w.mono m (lastTTL m)) := by
  have unchanged (empty : m.answer = []) (ttl : Nat) :
      w.xdp.map (fastStore lib w.mono m ttl) = w.xdp := by
    cases w.xdp with
    | none => rfl
    | some map => rw [Option.map_some, fastStore_of_empty lib w.mono ttl map empty]
  cases answers : m.answer with
  | nil =>
    cases delegates : m.ns with
    | nil => simp [cacheEffects, answerEffects, delegationEffects, answers, delegates, unchanged]
    | cons rr rest =>
      by_cases is : rr.isNS = true <;>
        simp [cacheEffects, answerEffects, delegationEffects, answers, delegates, is, unchanged,
          Effect.apply]
  | cons first rest =>
    have answered : (perform lib w (answerEffects m)).xdp =
        w.xdp.map (fastStore lib w.mono m first.ttl) := by
      simp [answerEffects, answers, Effect.apply, setCacheCopyByType]
    have same_clock : (perform lib w (answerEffects m)).mono = w.mono := by
      simp [answerEffects, answers, Effect.apply, setCacheCopyByType]
    rw [cacheEffects, perform_append]
    cases delegates : m.ns with
    | nil => simp [delegationEffects, delegates, answered, lastTTL, answers]
    | cons rr rest' =>
      by_cases is : rr.isNS = true
      · simp only [delegationEffects, delegates, is, if_true, perform_cons, perform_nil,
          Effect.apply, setCacheCopy_xdp, same_clock, answered, lastTTL]
        cases w.xdp with
        | none => rfl
        | some map => simp only [Option.map_some, fastStore_fastStore replaces]
      · simp [delegationEffects, delegates, is, answered, lastTTL, answers]

end FastPathFeed
