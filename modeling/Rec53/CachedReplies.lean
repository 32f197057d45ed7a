import Rec53.ResolverSystem

/-!
# Runs without an upstream exchange

A resolution that finds its answer in the cache goes through CLASSIFY_RESP like one
that was answered from upstream. CLASSIFY_RESP stores every negative response it sees,
so a negative entry that is served is also written again, with the TTL of its SOA
record counted from now. All other states leave the cache alone as long as nothing is
exchanged.
-/

namespace CachedReplies

open DnsMessage Platform DnsCache ExpiringStore StateHandlers UpstreamQuery StateMachine
  ResolverSystem

/-- No query was sent. -/
def Offline (log : List (Nat × Effect)) : Prop :=
  ∀ t addr qname qtype, (t, .exchange addr qname qtype) ∉ log

/-- The response at CLASSIFY_RESP is negative. -/
def AtNegative (o : Outcome) (r : Resolution) : Prop :=
  o = .next r ∧ r.st = .classifyResp ∧ isNegative r.response = true

/-! ### One visit -/

lemma iterate_negative (env : Env) (w : World) (inp : Input) {r : Resolution}
    (here : r.st = .classifyResp) (negative : isNegative r.response = true) :
    ∃ ttl, extractSOAFromAuthority r.response.ns = some ttl ∧
      (iterate env w inp r).1 = [.setByType r.qname r.qtype r.response ttl] := by
  obtain ⟨_, soa, _⟩ := isNegative_iff.mp negative
  obtain ⟨ttl, extracted⟩ := extractSOAFromAuthority_isSome soa
  refine ⟨ttl, extracted, ?_⟩
  simp only [iterate, here, classifyRound, classifyRespHandle, if_pos negative, extracted]
  rfl

lemma iterate_readOnly {env : Env} {w : World} {inp : Input} {r : Resolution}
    (other : ¬ (r.st = .classifyResp ∧ isNegative r.response = true)) :
    ReadOnly (iterate env w inp r).1 := by
  have moved := iterate_moved env w inp r
  generalize (iterate env w inp r).1 = effects, (iterate env w inp r).2 = o at moved
  cases moved with
  | negative here negative => exact absurd ⟨here, negative⟩ other
  | forwardHit _ _ _ readOnly => exact readOnly
  | forwardEnd _ _ _ readOnly => exact readOnly
  | _ =>
    intro e mem
    cases mem

lemma resume_readOnly {env : Env} {inp : Input} {r : Resolution} {source : IPSource}
    (offline : ∀ addr qname qtype, .exchange addr qname qtype ∉ (resume env inp r source).1) :
    ReadOnly (resume env inp r source).1 := by
  have resumed := resume_resumed env inp r source
  generalize (resume env inp r source).1 = effects, (resume env inp r source).2 = o
    at resumed offline
  cases resumed with
  | accepted earlier m addr before bad success echoes readOnly received sent =>
    exact absurd (List.mem_append_left _ sent) (offline _ _ _)
  | nxdomain _ _ _ _ readOnly => exact readOnly
  | failed _ _ readOnly => exact readOnly
  | rejected _ _ _ _ readOnly => exact readOnly
  | noServer =>
    intro e mem
    cases mem

/-! ### One event -/

/-- The two writes left in a run without exchange store what the cache already holds: a
visit to CLASSIFY_RESP with a negative response, and an update in the background. -/
def Quiet (env : Env) (s : Sys) : Event → Prop
  | .visit i _ => ∀ p, s.procs[i]? = some p → ∀ r, AtNegative p.outcome r →
      ∀ ttl, extractSOAFromAuthority r.response.ns = some ttl →
        s.world.cache.find (getCacheKey r.qname r.qtype) =
          some ⟨stripOPT r.response, s.world.cache.deadline s.world.wall (ttl * second)⟩
  | .update k id => ∀ nsName ips, s.updates[k]? = some (nsName, ips) →
      s.world.cache.find (getCacheKey nsName typeA) =
        some ⟨stripOPT (nsAddressMsg env.lib id nsName ips),
          s.world.cache.deadline s.world.wall (nsAddressTTL * second)⟩
  | .query _ | .spawn _ _ _ | .collect _ _ _ | .advance _ => True

/-- Every key has the same message and the same expiry in both. -/
def SameItems (c c' : Store String Msg) : Prop := ∀ key, c'.find key = c.find key

lemma sameItems_set_iff {c c₀ : Store String Msg} (same : SameItems c₀ c) {now d : Nat}
    {key : String} {m : Msg} :
    SameItems c₀ (c.set now key m d) ↔ c.find key = some ⟨m, c.deadline now d⟩ := by
  rw [← c.find_set_eq_find_iff]
  constructor
  · intro kept key'
    rw [kept key', same key']
  · intro kept key'
    rw [kept key', same key']

lemma offline_of_emit (lib : Lib) {s : Sys} {effects : List Effect}
    (offline : Offline (s.emit lib effects).log) (addr qname : String) (qtype : Nat) :
    .exchange addr qname qtype ∉ effects := by
  intro mem
  refine offline s.world.wall addr qname qtype ?_
  exact List.mem_append_right _ (List.mem_map.mpr ⟨_, mem, rfl⟩)

lemma visitProc_sameItems {env : Env} {c : Store String Msg} {s : Sys} {i : Nat} {p : Proc}
    {inp : Input} (same : SameItems c s.world.cache)
    (readOnly : ReadOnly (visitEffects env p.outcome ⟨s.world, inp⟩).1) :
    SameItems c (s.visitProc env i p inp).world.cache := by
  have unchanged : (s.visitProc env i p inp).world = s.world :=
    perform_of_not_writes env.lib s.world readOnly
  rw [unchanged]
  exact same

/-- A visit to a round keeps the items exactly when it does not store a negative response,
or stores what is there. -/
lemma visitProc_next_iff {env : Env} {c : Store String Msg} {s : Sys} {i : Nat}
    {parent : Option (Nat × String)} {r : Resolution} {inp : Input}
    (same : SameItems c s.world.cache) :
    SameItems c (s.visitProc env i ⟨parent, .next r⟩ inp).world.cache ↔
      (r.st = .classifyResp ∧ isNegative r.response = true →
        ∀ ttl, extractSOAFromAuthority r.response.ns = some ttl →
          s.world.cache.find (getCacheKey r.qname r.qtype) =
            some ⟨stripOPT r.response, s.world.cache.deadline s.world.wall (ttl * second)⟩) := by
  by_cases negative : r.st = .classifyResp ∧ isNegative r.response = true
  · obtain ⟨ttl, extracted, effects⟩ :=
      iterate_negative env s.world inp negative.1 negative.2
    have written : (s.visitProc env i ⟨parent, .next r⟩ inp).world.cache =
        s.world.cache.set s.world.wall (getCacheKey r.qname r.qtype) (stripOPT r.response)
          (ttl * second) := by
      change (perform env.lib s.world (iterate env s.world inp r).1).cache = _
      rw [effects]
      exact setCacheCopy_cache env.lib s.world _ _ _
    rw [written, sameItems_set_iff same]
    constructor
    · intro held _ ttl' extracted'
      cases extracted.symm.trans extracted'
      exact held
    · intro held
      exact held negative ttl extracted
  · refine iff_of_true ?_ fun now => absurd now negative
    exact visitProc_sameItems same (iterate_readOnly negative)

lemma visitProc_await {env : Env} {c : Store String Msg} {s : Sys} {i : Nat}
    {parent : Option (Nat × String)} {r : Resolution} {source : IPSource} {inp : Input}
    (offline : Offline (s.visitProc env i ⟨parent, .await r source⟩ inp).log)
    (same : SameItems c s.world.cache) :
    SameItems c (s.visitProc env i ⟨parent, .await r source⟩ inp).world.cache :=
  visitProc_sameItems same (resume_readOnly (offline_of_emit env.lib offline))

/-- A background update keeps the items exactly when it stores what is there. -/
lemma emit_updateNSIPs_iff {lib : Lib} {c : Store String Msg} {s : Sys}
    (same : SameItems c s.world.cache) (id : Nat) (nsName : String) (ips : List String) :
    SameItems c (s.emit lib [.updateNSIPs id nsName ips]).world.cache ↔
      s.world.cache.find (getCacheKey nsName typeA) =
        some ⟨stripOPT (nsAddressMsg lib id nsName ips),
          s.world.cache.deadline s.world.wall (nsAddressTTL * second)⟩ := by
  have written : (s.emit lib [.updateNSIPs id nsName ips]).world.cache =
      s.world.cache.set s.world.wall (getCacheKey nsName typeA)
        (stripOPT (nsAddressMsg lib id nsName ips)) (nsAddressTTL * second) :=
    setCacheCopy_cache lib s.world _ _ _
  rw [written, sameItems_set_iff same]

/-- An event without exchange keeps the items of the cache exactly when it is quiet. -/
theorem step_sameItems_iff (env : Env) (c : Store String Msg) (s : Sys) (e : Event)
    (offline : Offline (step env s e).log) (same : SameItems c s.world.cache) :
    SameItems c (step env s e).world.cache ↔ Quiet env s e := by
  cases e with
  | query | advance => exact iff_of_true same trivial
  | spawn i id nsName =>
    refine iff_of_true ?_ trivial
    simp only [step]
    split
    · split <;> exact same
    · exact same
  | update k id =>
    simp only [step, Quiet] at offline ⊢
    cases found : s.updates[k]? with
    | none =>
      refine iff_of_true same ?_
      intro nsName ips there
      cases there
    | some update =>
      obtain ⟨nsName, ips⟩ := update
      simp only [emit_updateNSIPs_iff same]
      constructor
      · rintro held _ _ ⟨⟩
        exact held
      · intro held
        exact held nsName ips rfl
  | visit i inp =>
    simp only [step, Quiet] at offline ⊢
    cases found : s.procs[i]? with
    | none =>
      refine iff_of_true same ?_
      intro p there
      cases there
    | some p =>
      obtain ⟨parent, outcome⟩ := p
      rw [found] at offline
      cases outcome with
      | next r =>
        simp only [visitProc_next_iff same]
        constructor
        · rintro held _ ⟨⟩ _ ⟨⟨⟩, negative⟩
          exact held negative
        · intro held negative
          exact held _ rfl r ⟨rfl, negative⟩
      | await r source =>
        refine iff_of_true ?_ (by rintro _ ⟨⟩ _ ⟨⟨⟩, _⟩)
        cases source with
        | ips ipList => exact visitProc_await offline same
        | resolve nsNames => exact same
      | done r result =>
        exact iff_of_true same (by rintro _ ⟨⟩ _ ⟨⟨⟩, _⟩)
  | collect i children inp =>
    refine iff_of_true ?_ trivial
    simp only [step] at offline ⊢
    split at offline
    · exact visitProc_await offline same
    · exact same

/-! ### Runs -/

/-- The items of the cache are those of `w`, and what is served is served no later than
its expiry in `w`. -/
structure Kept (w : World) (s : Sys) : Prop where
  items : SameItems w.cache s.world.cache
  served : ∀ key m, getCacheCopy s.world key = some m → ∃ it, w.cache.find key = some it ∧
    m = shallowCopyMsg it.object ∧ (0 < it.expiration → s.world.wall ≤ it.expiration)

lemma kept_iff {w : World} {s : Sys} : Kept w s ↔ SameItems w.cache s.world.cache := by
  refine ⟨Kept.items, fun same => ⟨same, ?_⟩⟩
  intro key m read
  obtain ⟨it, found, live, rfl⟩ := getCacheCopy_eq_some.mp read
  rw [same key] at found
  exact ⟨it, found, rfl, Store.le_expiration_of_live live⟩

/-- For every content of the caches, any queries and any times: in a run of the system in
which nothing is exchanged, the cache keeps every message and every expiry, and serves
no entry after its expiry, if and only if no visit to CLASSIFY_RESP finds a negative
response, and no background update runs, other than one that stores what is there. -/
theorem cache_kept_iff (env : Env) (w : World) (events : List Event)
    (offline : Offline (runFrom env w events).log) :
    StepRuns.Throughout (step env) (Kept w) (initial w) events ↔
      StepRuns.Along (step env) (Quiet env) (initial w) events := by
  have earlier : ∀ s e, Offline (step env s e).log → Offline s.log := by
    intro s e offline' t addr qname qtype sent
    exact offline' t addr qname qtype (step_log env s e _ sent)
  have each := StepRuns.along_of_run (step env) (R := fun s => Offline s.log) earlier offline
  refine StepRuns.throughout_iff_along_within (step env) ?_ each (kept_iff.mpr fun _ => rfl)
  intro s e offline' kept
  rw [kept_iff]
  exact step_sameItems_iff env w.cache s e offline' kept.items

section Refreshed

/-- A name that does not exist, for a minute. -/
def nameErrorMsg : Msg :=
  { rcode := rcodeNameError, ns := [⟨".", classINET, 60, .soa 60⟩] }

def nameErrorWorld : World :=
  setCacheCopyByType plainLib (World.initial none 1 0) "n." typeA nameErrorMsg 60

/-- The name is asked for once, 50 seconds later, and then 50 seconds pass. -/
def askedLater : List Event :=
  .advance (50 * second) :: .query (newQuery 7 "n." typeA) ::
    (List.replicate 6 (.visit 0 .idle) ++ [.advance (50 * second)])

def refreshed : Sys := runFrom plainEnv nameErrorWorld askedLater

lemma refreshed_offline : Offline refreshed.log := by
  have log : ∃ m, refreshed.log = [(1 + 50 * second, .setByType "n." typeA m 60)] := ⟨_, rfl⟩
  obtain ⟨m, log⟩ := log
  intro t addr qname qtype sent
  rw [log] at sent
  simp at sent

theorem refreshed_kept_iff :
    StepRuns.Throughout (step plainEnv) (Kept nameErrorWorld) (initial nameErrorWorld) askedLater ↔
      StepRuns.Along (step plainEnv) (Quiet plainEnv) (initial nameErrorWorld) askedLater :=
  cache_kept_iff plainEnv nameErrorWorld askedLater refreshed_offline

/-- Answering from the cache has moved the expiry from 60 to 110 seconds, and the entry is
served after 100. -/
theorem negative_entry_lives_on :
    Offline refreshed.log ∧
    nameErrorWorld.cache.find (getCacheKey "n." typeA) = some ⟨nameErrorMsg, 1 + 60 * second⟩ ∧
    (∃ it, refreshed.world.cache.find (getCacheKey "n." typeA) = some it ∧
      it.expiration = 1 + 110 * second) ∧
    (∃ m, getCacheCopyByType refreshed.world "n." typeA = some m) ∧
    refreshed.world.wall = 1 + 100 * second :=
  ⟨refreshed_offline, rfl, ⟨_, rfl, rfl⟩, ⟨_, rfl⟩, rfl⟩

end Refreshed

end CachedReplies
