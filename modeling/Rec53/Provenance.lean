import Rec53.ResolverSystem

/-!
# Where the contents of the cache come from

Every item of the cache was stored by an effect in the log, and every write in the
log has one of four origins: an accepted message as an answer or as a delegation, a
negative response, or addresses that nested resolutions found. What is said here about
one visit is lifted to runs of the whole system.
-/

namespace Provenance

open DnsMessage Platform DnsCache ExpiringStore StateHandlers UpstreamQuery StateMachine
  ResolverSystem

/-- Key, message and TTL of a write. -/
def entryOf (lib : Lib) : Effect → Option (String × Msg × Nat)
  | .setByType name qtype msg ttl => some (getCacheKey name qtype, msg, ttl)
  | .setZone zone msg ttl => some (zone, msg, ttl)
  | .updateNSIPs id nsName ips =>
    some (getCacheKey nsName typeA, nsAddressMsg lib id nsName ips, nsAddressTTL)
  | .exchange _ _ _ | .received _ | .recordLatency _ _ | .recordFailure _ => none

lemma entryOf_of_not_writes {lib : Lib} {e : Effect} (quiet : e.writes = false) :
    entryOf lib e = none := by
  cases e with
  | setByType | setZone | updateNSIPs => cases quiet
  | exchange | received | recordLatency | recordFailure => rfl

lemma apply_of_entry {lib : Lib} {e : Effect} {key : String} {m : Msg} {ttl : Nat}
    (entry : entryOf lib e = some (key, m, ttl)) (w : World) :
    e.apply lib w = setCacheCopy lib w key m ttl := by
  cases e <;> cases entry <;> rfl

lemma apply_of_no_entry {lib : Lib} {e : Effect} (entry : entryOf lib e = none) (w : World) :
    e.apply lib w = w := by
  cases e <;> first | rfl | cases entry

/-- The item is what the logged effect stored under the key. -/
def Stored (lib : Lib) (entry : Nat × Effect) (key : String) (it : Item Msg) : Prop :=
  ∃ m ttl, entryOf lib entry.2 = some (key, m, ttl) ∧
    it = ⟨stripOPT m, newCache.deadline entry.1 (ttl * second)⟩

/-- The shared state has the expiration that `newCache` sets up. -/
def Configured (w : World) : Prop :=
  w.cache.defaultExpiration = newCache.defaultExpiration

lemma Configured.deadline {w : World} (configured : Configured w) (now d : Nat) :
    w.cache.deadline now d = newCache.deadline now d := by
  simp only [Store.deadline, show w.cache.defaultExpiration = _ from configured]

lemma apply_configured {lib : Lib} {w : World} {e : Effect} (configured : Configured w) :
    Configured (e.apply lib w) := by
  cases entry : entryOf lib e with
  | none =>
    rw [apply_of_no_entry entry w]
    exact configured
  | some entry' =>
    obtain ⟨key, m, ttl⟩ := entry'
    rw [apply_of_entry entry w]
    simpa [Configured] using configured

lemma apply_find {lib : Lib} {w : World} {e : Effect} (configured : Configured w) {key : String}
    {it : Item Msg} (found : (e.apply lib w).cache.find key = some it) :
    Stored lib (w.wall, e) key it ∨ w.cache.find key = some it := by
  cases entry : entryOf lib e with
  | none =>
    rw [apply_of_no_entry entry w] at found
    exact .inr found
  | some entry' =>
    obtain ⟨key', m, ttl⟩ := entry'
    rw [apply_of_entry entry w, setCacheCopy_cache, Store.find_set] at found
    split at found
    · rename_i same
      cases found
      exact .inl ⟨m, ttl, same ▸ entry, by rw [configured.deadline]⟩
    · exact .inr found

lemma perform_configured {lib : Lib} {w : World} {effects : List Effect}
    (configured : Configured w) : Configured (perform lib w effects) := by
  induction effects generalizing w with
  | nil => exact configured
  | cons e es ih => exact ih (apply_configured configured)

lemma perform_find {lib : Lib} {w : World} {effects : List Effect} (configured : Configured w)
    {key : String} {it : Item Msg}
    (found : (perform lib w effects).cache.find key = some it) :
    (∃ e ∈ effects, Stored lib (w.wall, e) key it) ∨ w.cache.find key = some it := by
  induction effects generalizing w with
  | nil => exact .inr found
  | cons e es ih =>
    rcases ih (apply_configured configured) found with ⟨e', mem, stored⟩ | earlier
    · rw [apply_wall] at stored
      exact .inl ⟨e', List.mem_cons_of_mem _ mem, stored⟩
    · rcases apply_find configured earlier with stored | earlier
      · exact .inl ⟨e, List.mem_cons_self, stored⟩
      · exact .inr earlier

/-! ### The origin of writes -/

/-- The message came in at time `t` with NOERROR, on a query for the name it repeats. -/
structure Accepted (log : List (Nat × Effect)) (t : Nat) (m : Msg) : Prop where
  success : m.rcode = rcodeSuccess
  received : (t, .received m) ∈ log
  asked : ∃ addr qtype, (t, .exchange addr m.q0.name qtype) ∈ log

inductive Origin (log : List (Nat × Effect)) (t : Nat) : Effect → Prop where
  | readOnly (e : Effect) (quiet : e.writes = false) : Origin log t e
  | answer (m : Msg) (rr : RR) (rest : List RR) (accepted : Accepted log t m)
      (first : m.answer = rr :: rest) :
      Origin log t (.setByType m.q0.name m.q0.qtype m rr.ttl)
  | delegation (m : Msg) (rr : RR) (rest : List RR) (accepted : Accepted log t m)
      (first : m.ns = rr :: rest) (is : rr.isNS = true) :
      Origin log t (.setZone rr.name m rr.ttl)
  | negative (name : String) (qtype : Nat) (m : Msg) (ttl : Nat) (empty : m.answer = []) :
      Origin log t (.setByType name qtype m ttl)
  | addresses (id : Nat) (nsName : String) (ips : List String) :
      Origin log t (.updateNSIPs id nsName ips)

lemma Origin.mono {log log' : List (Nat × Effect)} {t : Nat} {e : Effect}
    (grows : ∀ x ∈ log, x ∈ log') (origin : Origin log t e) : Origin log' t e := by
  have wider {m : Msg} (accepted : Accepted log t m) : Accepted log' t m := by
    obtain ⟨addr, qtype, sent⟩ := accepted.asked
    exact ⟨accepted.success, grows _ accepted.received, addr, qtype, grows _ sent⟩
  cases origin with
  | readOnly e quiet => exact .readOnly e quiet
  | answer m rr rest accepted first => exact .answer m rr rest (wider accepted) first
  | delegation m rr rest accepted first is => exact .delegation m rr rest (wider accepted) first is
  | negative name qtype m ttl empty => exact .negative name qtype m ttl empty
  | addresses id nsName ips => exact .addresses id nsName ips

/-- The effects of one visit account for each other. -/
theorem visit_origin (env : Env) (o : Outcome) (v : Visit) (t : Nat) :
    ∀ e ∈ (visitEffects env o v).1,
      Origin ((visitEffects env o v).1.map fun e => (t, e)) t e := by
  have visited := visit_visited env o v
  generalize visit env o v = o', (visitEffects env o v).1 = effects at visited
  intro e mem
  cases visited with
  | ended => cases mem
  | resumed r source effects o' resumed =>
    cases resumed with
    | accepted earlier m addr before bad success echoes readOnly received sent =>
      rcases List.mem_append.mp mem with quiet | write
      · exact .readOnly e (readOnly e quiet)
      have came : .received m ∈ before := mem_receivedMsgs.mp (by simp [received])
      have accepted : Accepted ((before ++ cacheEffects m).map fun e => (t, e)) t m := by
        refine ⟨success, ?_, addr, r.qtype, ?_⟩
        · exact List.mem_map.mpr ⟨_, List.mem_append_left _ came, rfl⟩
        · rw [echoes.2]
          exact List.mem_map.mpr ⟨_, List.mem_append_left _ sent, rfl⟩
      rcases mem_cacheEffects write with ⟨rr, rest, first, rfl⟩ | ⟨rr, rest, first, is, rfl⟩
      · exact .answer m rr rest accepted first
      · exact .delegation m rr rest accepted first is
    | nxdomain _ _ _ _ readOnly => exact .readOnly e (readOnly e mem)
    | failed _ _ readOnly => exact .readOnly e (readOnly e mem)
    | rejected _ _ _ _ readOnly => exact .readOnly e (readOnly e mem)
    | noServer => cases mem
  | round r effects o' moved =>
    cases moved with
    | negative here negative ttl soa =>
      have empty : r.response.answer = [] := (isNegative_iff.mp negative).1
      rw [List.mem_singleton.mp mem]
      exact .negative _ _ _ _ empty
    | forwardHit _ _ _ readOnly => exact .readOnly e (readOnly e mem)
    | forwardEnd _ _ _ readOnly => exact .readOnly e (readOnly e mem)
    | _ => cases mem

/-! ### Runs of the system -/

/-- The log accounts for itself and for every item of the cache. -/
structure Accounted (lib : Lib) (s : Sys) : Prop where
  configured : Configured s.world
  items : ∀ key it, s.world.cache.find key = some it → ∃ x ∈ s.log, Stored lib x key it
  origins : ∀ x ∈ s.log, Origin s.log x.1 x.2
  past : ∀ x ∈ s.log, x.1 ≤ s.world.wall

lemma emit_accounted {lib : Lib} {s : Sys} {effects : List Effect} (accounted : Accounted lib s)
    (origins : ∀ e ∈ effects,
      Origin (effects.map fun e => (s.world.wall, e)) s.world.wall e) :
    Accounted lib (s.emit lib effects) := by
  refine ⟨perform_configured accounted.configured, ?_, ?_, ?_⟩
  · intro key it found
    rcases perform_find accounted.configured found with ⟨e, mem, stored⟩ | earlier
    · exact ⟨_, List.mem_append_right _ (List.mem_map.mpr ⟨e, mem, rfl⟩), stored⟩
    · obtain ⟨x, mem, stored⟩ := accounted.items key it earlier
      exact ⟨x, List.mem_append_left _ mem, stored⟩
  · intro x mem
    rcases List.mem_append.mp mem with old | new
    · exact (accounted.origins x old).mono fun _ h => List.mem_append_left _ h
    · obtain ⟨e, from_visit, rfl⟩ := List.mem_map.mp new
      exact (origins e from_visit).mono fun _ h => List.mem_append_right _ h
  · intro x mem
    change x.1 ≤ (perform lib s.world effects).wall
    rw [perform_wall]
    rcases List.mem_append.mp mem with old | new
    · exact accounted.past x old
    · obtain ⟨e, _, rfl⟩ := List.mem_map.mp new
      exact Nat.le_refl _

theorem step_accounted (env : Env) (s : Sys) (e : Event) (accounted : Accounted env.lib s) :
    Accounted env.lib (step env s e) := by
  have stepped := step_stepped env s e
  generalize step env s e = s' at stepped
  cases stepped with
  | idle => exact accounted
  | started p request depth fresh =>
    exact ⟨accounted.configured, accounted.items, accounted.origins, accounted.past⟩
  | visited procs updates i p inp before mine =>
    have emitted := emit_accounted accounted
      (visit_origin env p.outcome ⟨s.world, inp⟩ s.world.wall)
    exact ⟨emitted.configured, emitted.items, emitted.origins, emitted.past⟩
  | updated updates id nsName ips =>
    have emitted : Accounted env.lib (s.emit env.lib [.updateNSIPs id nsName ips]) := by
      refine emit_accounted accounted ?_
      intro e mem
      rw [List.mem_singleton.mp mem]
      exact .addresses id nsName ips
    exact ⟨emitted.configured, emitted.items, emitted.origins, emitted.past⟩
  | advanced d =>
    refine ⟨accounted.configured, accounted.items, accounted.origins, ?_⟩
    intro x mem
    have := accounted.past x mem
    change x.1 ≤ s.world.wall + d
    omega

theorem run_accounted (env : Env) (xdp : Option BpfMap) (wall mono : Nat) (events : List Event) :
    Accounted env.lib (runFrom env (World.initial xdp wall mono) events) := by
  refine StepRuns.run_preserves (step env) (step_accounted env) ?_ events
  refine ⟨rfl, ?_, fun x mem => (by cases mem), fun x mem => (by cases mem)⟩
  intro key it found
  simp [initial, World.initial, newCache] at found

end Provenance
