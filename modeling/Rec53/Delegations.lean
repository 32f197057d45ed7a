import Rec53.Provenance
import Rec53.QueryEntry

/-!
# Delegations in the cache and in use

QUERY_UPSTREAM stores the authority section of every accepted message whose first
record is an NS record, under the owner of that record. The owner is not compared with
the zone whose servers were asked. What is checked is the use of a delegation: one that
was received has to enclose the current name, and one from the cache is only looked up
under the names of the zone list of the current name.
-/

namespace Delegations

open DnsMessage Platform DnsCache LocalConfig StateHandlers UpstreamQuery StateMachine
  ResolverSystem Provenance QueryEntry

/-- The log has a write under the key with this authority section. -/
def LoggedNs (lib : Lib) (log : List (Nat × Effect)) (key : String) (m : Msg) : Prop :=
  ∃ x ∈ log, ∃ msg ttl, entryOf lib x.2 = some (key, msg, ttl) ∧ m.ns = msg.ns

lemma LoggedNs.mono {lib : Lib} {log log' : List (Nat × Effect)} {key : String} {m : Msg}
    (grows : ∀ x ∈ log, x ∈ log') (logged : LoggedNs lib log key m) : LoggedNs lib log' key m := by
  obtain ⟨x, mem, entry⟩ := logged
  exact ⟨x, grows x mem, entry⟩

/-- What a reader finds in the cache was written by a logged effect. -/
lemma logged_of_read {lib : Lib} {s : Sys} (accounted : Accounted lib s) {key : String} {m : Msg}
    (read : getCacheCopy s.world key = some m) : LoggedNs lib s.log key m := by
  obtain ⟨it, found, _, rfl⟩ := getCacheCopy_eq_some.mp read
  obtain ⟨x, mem, msg, ttl, entry, rfl⟩ := accounted.items key it found
  exact ⟨x, mem, msg, ttl, entry, rfl⟩

structure Supervised (env : Env) (s : Sys) : Prop where
  accounted : Accounted env.lib s
  guarded : ∀ p ∈ s.procs, Guarded env (LoggedNs env.lib s.log) p.outcome

theorem step_supervised (env : Env) (s : Sys) (e : Event) (supervised : Supervised env s) :
    Supervised env (step env s e) := by
  refine ⟨step_accounted env s e supervised.accounted, ?_⟩
  have grows {key : String} {m : Msg} (logged : LoggedNs env.lib s.log key m) :
      LoggedNs env.lib (step env s e).log key m := logged.mono (step_log env s e)
  refine step_procs (fun request depth => start_guarded env _ request depth) ?_ ?_
  · intro o inp guarded
    refine visit_guarded env _ o ⟨s.world, inp⟩ ?_ guarded
    intro zone m read
    exact grows (logged_of_read supervised.accounted read)
  · intro p mem
    exact (supervised.guarded p mem).mono env fun _ _ => grows

theorem run_supervised (env : Env) (xdp : Option BpfMap) (wall mono : Nat) (events : List Event) :
    Supervised env (runFrom env (World.initial xdp wall mono) events) := by
  refine StepRuns.run_preserves (step env) (step_supervised env) ?_ events
  exact ⟨run_accounted env xdp wall mono [], fun p mem => (by cases mem)⟩

/-! ### Keys and zone lists -/

lemma zonesAbove_suffix {s zone : List Char} (mem : zone ∈ zonesAbove s) : zone <:+ s := by
  induction s with
  | nil => cases mem
  | cons c rest ih =>
    rw [zonesAbove] at mem
    split at mem
    · rcases List.mem_cons.mp mem with rfl | later
      · exact List.suffix_cons c zone
      · exact (ih later).trans (List.suffix_cons c rest)
    · exact (ih mem).trans (List.suffix_cons c rest)

/-- Every zone of the list of a rooted name is rooted. -/
lemma rooted_of_mem_getZoneList {name zone : String} (rooted : Rooted name)
    (mem : zone ∈ getZoneList name) : Rooted zone := by
  rcases List.mem_cons.mp mem with rfl | above
  · exact rooted
  · obtain ⟨chars, suffix, rfl⟩ := List.mem_map.mp above
    obtain ⟨front, whole⟩ := zonesAbove_suffix suffix
    intro c last
    rw [String.toList_ofList] at last
    refine rooted c ?_
    have nonempty : chars ≠ [] := by
      intro empty
      rw [empty] at last
      cases last
    rw [← whole, List.getLast?_append_of_ne_nil front nonempty]
    exact last

/-- A write under a rooted key is a delegation of an accepted message. -/
lemma delegation_of_rooted_key {lib : Lib} {s : Sys} (accounted : Accounted lib s) {key : String}
    {m : Msg} (rooted : Rooted key) (logged : LoggedNs lib s.log key m) :
    ∃ rr rest, m.ns = rr :: rest ∧ rr.name = key := by
  obtain ⟨⟨t, e⟩, mem, msg, ttl, entry, same⟩ := logged
  have origin := accounted.origins _ mem
  have typed {name : String} {qtype : Nat} (is : getCacheKey name qtype = key) : False :=
    ne_getCacheKey_of_rooted rooted name qtype is.symm
  generalize is : (t, e).2 = e' at origin entry
  cases origin with
  | readOnly e quiet => cases (entryOf_of_not_writes quiet).symm.trans entry
  | answer => cases entry; exact (typed rfl).elim
  | negative => cases entry; exact (typed rfl).elim
  | addresses => cases entry; exact (typed rfl).elim
  | delegation received rr rest accepted first =>
    cases entry
    exact ⟨rr, rest, same.trans first, rfl⟩

/-- In every run of the system from an empty cache, whatever the servers send: each
delegation that is written has as its key the owner of the first authority record, an NS
record, of a NOERROR message received at that time on a query for the name it repeats; and
whenever a resolution is at QUERY_UPSTREAM with a name that ends with a dot, the first
authority record is an NS record whose owner encloses that name, or is in the name's zone
list, or the section is the root glue. -/
theorem delegations_checked_at_use (env : Env) (xdp : Option BpfMap) (wall mono : Nat)
    (events : List Event) (s : Sys)
    (run : s = runFrom env (World.initial xdp wall mono) events) :
    (∀ t zone m ttl, (t, .setZone zone m ttl) ∈ s.log → Accepted s.log t m ∧
      ∃ rr rest, m.ns = rr :: rest ∧ rr.isNS = true ∧ rr.name = zone) ∧
    (∀ p ∈ s.procs, ∀ r, AtQuery p.outcome r → Rooted r.qname →
      ∃ rr rest, r.response.ns = rr :: rest ∧ rr.isNS = true ∧
        (env.lib.isSubDomain rr.name r.qname = true ∨ rr.name ∈ getZoneList r.qname ∨
          r.response.ns = rootGlue.1)) := by
  have supervised : Supervised env s := run ▸ run_supervised env xdp wall mono events
  constructor
  · intro t zone m ttl mem
    have origin := supervised.accounted.origins _ mem
    cases origin with
    | readOnly _ quiet => cases quiet
    | delegation _ rr rest accepted first is => exact ⟨accepted, rr, rest, first, is, rfl⟩
  · intro p mem r at_query rooted
    have guarded := supervised.guarded p mem
    obtain ⟨rr, rest, first, is, source⟩ : Delegation env (LoggedNs env.lib s.log) r := by
      rcases at_query with ⟨asking, here⟩ | ⟨source, waiting⟩
      · exact guarded.asking r asking here
      · exact guarded.waiting r source waiting
    refine ⟨rr, rest, first, is, ?_⟩
    rcases source with encloses | ⟨zone, listed, m, logged, same⟩ | root
    · exact .inl encloses
    · obtain ⟨rr', rest', first', owner⟩ := delegation_of_rooted_key supervised.accounted
        (rooted_of_mem_getZoneList rooted listed) logged
      have heads : rr :: rest = rr' :: rest' := by rw [← first, same, first']
      cases heads
      exact .inr (.inl (owner ▸ listed))
    · exact .inr (.inr root)

section OutOfZone

/-- The root servers refer to the servers of `com.`. -/
def comReferral : Msg :=
  { question := [⟨"a.com.", typeA, classINET⟩]
    ns := [⟨"com.", classINET, 3600, .ns "n.com."⟩]
    extra := [⟨"n.com.", classINET, 3600, .a "192.0.2.1"⟩] }

/-- A server of `com.` sends a delegation of `bank.org.`. -/
def orgReferral : Msg :=
  { question := [⟨"a.com.", typeA, classINET⟩]
    ns := [⟨"bank.org.", classINET, 3600, .ns "n.com."⟩]
    extra := [⟨"n.com.", classINET, 3600, .a "192.0.2.1"⟩] }

def comEvents : List Event :=
  .query (newQuery 7 "a.com." typeA) :: (List.replicate 7 (.visit 0 .idle) ++
    .visit 0 (.answered comReferral) :: List.replicate 3 (.visit 0 .idle))

/-- The query for `a.com.` waits for a server of `com.`. -/
def askingCom : Sys := runFrom plainEnv (World.initial none 1 0) comEvents

lemma askingCom_log : askingCom.log =
    [(1, .exchange "198.41.0.4" "a.com." typeA), (1, .received comReferral),
      (1, .recordLatency "198.41.0.4" 1), (1, .setZone "com." comReferral 3600)] := rfl

theorem askingCom_delegations :
    ((1, .setZone "com." comReferral 3600) ∈ askingCom.log ∧
      Accepted askingCom.log 1 comReferral ∧
      ∃ rr rest, comReferral.ns = rr :: rest ∧ rr.isNS = true ∧ rr.name = "com.") ∧
    (∃ p ∈ askingCom.procs, ∃ r, AtQuery p.outcome r ∧ Rooted r.qname ∧
      ∃ rr rest, r.response.ns = rr :: rest ∧ rr.isNS = true ∧
        (plainEnv.lib.isSubDomain rr.name r.qname = true ∨ rr.name ∈ getZoneList r.qname ∨
          r.response.ns = rootGlue.1)) := by
  obtain ⟨written, used⟩ := delegations_checked_at_use plainEnv none 1 0 comEvents askingCom rfl
  have logged : (1, .setZone "com." comReferral 3600) ∈ askingCom.log := by decide
  refine ⟨⟨logged, written _ _ _ _ logged⟩, ?_⟩
  have rooted : Rooted "a.com." := by
    intro c last
    cases last
    rfl
  exact ⟨_, List.mem_singleton.mpr rfl, _, .inr ⟨_, rfl⟩, rooted,
    used _ (List.mem_singleton.mpr rfl) _ (.inr ⟨_, rfl⟩) rooted⟩

/-- The delegation of `bank.org.` is written while a server of `com.` is asked. -/
theorem delegation_outside_the_zone_is_written :
    (∃ p ∈ askingCom.procs, ∃ r, AtQuery p.outcome r ∧
      r.response.ns = [⟨"com.", classINET, 3600, .ns "n.com."⟩]) ∧
    plainEnv.lib.isSubDomain "com." "bank.org." = false ∧
    (∀ t m ttl, (t, .setZone "bank.org." m ttl) ∉ askingCom.log) ∧
    (1, .setZone "bank.org." orgReferral 3600) ∈
      (step plainEnv askingCom (.visit 0 (.answered orgReferral))).log := by
  refine ⟨⟨_, List.mem_singleton.mpr rfl, _, .inr ⟨_, rfl⟩, rfl⟩, rfl, ?_, by decide⟩
  intro t m ttl mem
  simp [askingCom_log] at mem

end OutOfZone

end Delegations
