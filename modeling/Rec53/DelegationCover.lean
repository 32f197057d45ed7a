import Rec53.CacheShape
import Rec53.Delegations
import Rec53.DomainName

/-!
# Queries go to a delegation that covers the name

A name is the sequence of its labels, compared without regard to letter case, and a zone
covers a name when its labels end the labels of the name; the root has none. The
delegation a query is sent with was accepted by EXTRACT_GLUE, which asks `IsSubDomain`,
or stands in the cache under a name of the zone list, or is the root glue.
-/

namespace DelegationCover

open DnsMessage Platform DnsCache LocalConfig StateHandlers UpstreamQuery StateMachine QueryEntry
  ResolverSystem Delegations CacheShape CacheSnapshot

/-! ### Names as label sequences -/

def labelsOf (chars : List Char) : List (List Char) :=
  (chars.splitOn '.').filter fun label => !label.isEmpty

def labels (name : String) : List (List Char) := labelsOf (foldCase name)

/-- The root, an ancestor of the name, or the name itself. -/
def Covers (zone name : String) : Prop := labels zone <:+ labels name

instance (zone name : String) : Decidable (Covers zone name) :=
  inferInstanceAs (Decidable (_ <:+ _))

/-- Every dot of the name separates labels. -/
def Unescaped (name : String) : Prop := '\\' ∉ name.toList

/-- What the dns library documents of `IsSubDomain`. -/
def ComparesLabels (lib : Lib) : Prop :=
  ∀ parent child, Unescaped parent → Unescaped child → lib.isSubDomain parent child = true →
    Covers parent child

lemma splitOn_cons (c : Char) (rest : List Char) :
    (c :: rest).splitOn '.' =
      if c = '.' then [] :: rest.splitOn '.' else (rest.splitOn '.').modifyHead (c :: ·) := by
  simp [List.splitOn, List.splitOnP_cons_eq_if_modifyHead]

/-- The zones above a name are cut at its dots. -/
lemma zonesAbove_splitOn {s zone : List Char} (mem : zone ∈ zonesAbove s) :
    zone.splitOn '.' <:+ (s.splitOn '.').tail := by
  induction s with
  | nil => cases mem
  | cons c rest ih =>
    rw [zonesAbove] at mem
    rw [splitOn_cons]
    split at mem
    · rename_i dot
      rw [if_pos dot]
      rcases List.mem_cons.mp mem with rfl | later
      · exact List.suffix_refl _
      · exact (ih later).trans (List.tail_suffix _)
    · rename_i other
      rw [if_neg other]
      have same : ((rest.splitOn '.').modifyHead (c :: ·)).tail = (rest.splitOn '.').tail := by
        cases rest.splitOn '.' with
        | nil => rfl
        | cons _ _ => rfl
      rw [same]
      exact ih mem

lemma toLower_eq_dot {c : Char} : c.toLower = '.' ↔ c = '.' :=
  DomainName.toLower_eq_iff (by decide)

lemma zonesAbove_map_toLower (s : List Char) :
    zonesAbove (s.map Char.toLower) = (zonesAbove s).map (List.map Char.toLower) := by
  induction s with
  | nil => rfl
  | cons c rest ih =>
    simp only [List.map_cons, zonesAbove, toLower_eq_dot, ih]
    split
    · rfl
    · rfl

/-- Every zone of the list of a name covers it. -/
lemma covers_of_mem_getZoneList {name zone : String} (mem : zone ∈ getZoneList name) :
    Covers zone name := by
  rcases List.mem_cons.mp mem with rfl | above
  · exact List.suffix_refl _
  · obtain ⟨chars, cut, rfl⟩ := List.mem_map.mp above
    have lower : chars.map Char.toLower ∈ zonesAbove (foldCase name) := by
      rw [foldCase, zonesAbove_map_toLower]
      exact List.mem_map_of_mem cut
    have split := (zonesAbove_splitOn lower).trans (List.tail_suffix _)
    rw [Covers, labels, labels, foldCase, String.toList_ofList]
    exact split.filter _

/-- The root covers every name. -/
lemma covers_root (name : String) : Covers "." name := List.nil_suffix

/-! ### The delegation of a query -/

/-- Each entry under a bare zone name starts with an NS record of the zone. -/
def ZonesOwned (w : World) : Prop :=
  ∀ zone m, (∀ name qtype, zone ≠ getCacheKey name qtype) → getCacheCopy w zone = some m →
    ZoneShape zone m

/-- What is known of an entry read from such a cache. -/
def OwnedIfBare (zone : String) (m : Msg) : Prop :=
  (∀ name qtype, zone ≠ getCacheKey name qtype) → ZoneShape zone m

lemma delegation_covers {env : Env} (compares : ComparesLabels env.lib) {r : Resolution}
    (rooted : Rooted r.qname) (unescaped : Unescaped r.qname)
    (delegation : Delegation env OwnedIfBare r) :
    ∃ rr rest, r.response.ns = rr :: rest ∧ rr.isNS = true ∧
      (Unescaped rr.name → Covers rr.name r.qname) := by
  obtain ⟨rr, rest, first, is, source⟩ := delegation
  refine ⟨rr, rest, first, is, ?_⟩
  intro plain
  rcases source with encloses | ⟨zone, mem, m, owned, same⟩ | root
  · exact compares rr.name r.qname plain unescaped encloses
  · have bare : ∀ name qtype, zone ≠ getCacheKey name qtype :=
      ne_getCacheKey_of_rooted (rooted_of_mem_getZoneList rooted mem)
    obtain ⟨rr', rest', first', _, owner⟩ := owned bare
    obtain ⟨rfl, _⟩ : rr = rr' ∧ rest = rest' := by
      rw [first, first'] at same
      exact List.cons_eq_cons.mp same
    rw [owner]
    exact covers_of_mem_getZoneList mem
  · rw [first] at root
    obtain ⟨rfl, _⟩ := List.cons_eq_cons.mp root
    exact covers_root r.qname

/-- A run of the state machine whose visits all meet such a cache. -/
lemma resolve_guarded (env : Env) (request : Msg) (depth : Nat) (visits : List Visit)
    (owned : ∀ v ∈ visits, ZonesOwned v.world) :
    Guarded env OwnedIfBare (resolve env request depth visits) := by
  refine StepRuns.run_preserves_of_mem (visit env) (P := Guarded env OwnedIfBare) ?_
    (start_guarded env OwnedIfBare request depth)
  intro o v mem guarded
  refine visit_guarded env OwnedIfBare o v ?_ guarded
  intro zone m read bare
  exact owned v mem zone m bare read

/-- For every run of Change on caches whose delegations are owned by their zones, whatever
the servers send and however often a CNAME is followed: when QUERY_UPSTREAM is entered, the
authority section starts with an NS record, and its owner is the root or an ancestor of the
current name or that name. -/
theorem query_delegation_covers (env : Env) (compares : ComparesLabels env.lib) (request : Msg)
    (depth : Nat) (visits : List Visit) (owned : ∀ v ∈ visits, ZonesOwned v.world)
    (r : Resolution) (entered : resolve env request depth visits = .next r)
    (here : r.st = .queryUpstream) (rooted : Rooted r.qname) (unescaped : Unescaped r.qname) :
    ∃ rr rest, r.response.ns = rr :: rest ∧ rr.isNS = true ∧
      (Unescaped rr.name → Covers rr.name r.qname) := by
  have guarded := resolve_guarded env request depth visits owned
  exact delegation_covers compares rooted unescaped (guarded.asking r entered here)

/-- A library instance that compares labels, and a cached delegation. -/
def labelEnv : Env :=
  ⟨{ plainLib with isSubDomain := fun parent child => decide (Covers parent child) },
    emptySnapshot⟩

def exampleReferral : Msg :=
  { response := true, question := [⟨"example.", typeA, classINET⟩],
    ns := [⟨"example.", classINET, 60, .ns "ns.example."⟩] }

def exampleWorld : World :=
  setCacheCopy labelEnv.lib (World.initial none 1 0) "example." exampleReferral 60

lemma exampleWorld_zonesOwned : ZonesOwned exampleWorld := by
  intro zone m _ read
  obtain ⟨it, found, _, rfl⟩ := getCacheCopy_eq_some.mp read
  rw [exampleWorld, setCacheCopy_cache, ExpiringStore.Store.find_set] at found
  split at found
  · rename_i same
    cases found
    exact ⟨_, _, rfl, rfl, same.symm⟩
  · cases found

theorem cached_referral_covers :
    let visits := List.replicate 6 ⟨exampleWorld, .idle⟩
    ∃ r, resolve labelEnv (newQuery 7 "www.example." typeA) 0 visits = .next r ∧
      r.st = .queryUpstream ∧ ∃ rr rest, r.response.ns = rr :: rest ∧ rr.isNS = true ∧
        (Unescaped rr.name → Covers rr.name "www.example.") := by
  intro visits
  have compares : ComparesLabels labelEnv.lib := by
    intro parent child _ _ sub
    exact of_decide_eq_true sub
  refine ⟨_, rfl, rfl, ?_⟩
  refine query_delegation_covers labelEnv compares (newQuery 7 "www.example." typeA) 0 visits ?_ _
    rfl rfl ?_ ?_
  · intro v mem
    rw [List.eq_of_mem_replicate mem]
    exact exampleWorld_zonesOwned
  · intro c last
    cases last
    rfl
  · change '\\' ∉ "www.example.".toList
    decide

/-! ### Caches of the resolver -/

lemma zonesOwned_of_wellShaped {w : World} (shaped : WellShaped w) : ZonesOwned w := by
  intro zone m bare read
  obtain ⟨it, found, _, rfl⟩ := getCacheCopy_eq_some.mp read
  exact (shaped.shape zone it found).bare bare

/-- What is asked of `Guarded` does not depend on the local rules. -/
lemma guarded_of_lib {lib : Lib} {snap snap' : HostsForwardSnapshot}
    {Known : String → Msg → Prop} {o : Outcome} (guarded : Guarded ⟨lib, snap⟩ Known o) :
    Guarded ⟨lib, snap'⟩ Known o :=
  ⟨guarded.searching, guarded.asking, guarded.waiting⟩

lemma reached_guarded {lib : Lib} (roundTrips : RoundTrips lib) (snap : HostsForwardSnapshot)
    {s : Sys} (reached : Reached lib s) :
    ∀ p ∈ s.procs, Guarded ⟨lib, snap⟩ OwnedIfBare p.outcome := by
  induction reached with
  | started xdp wall mono =>
    intro p mem
    cases mem
  | @stepped s snap' e reached unpacked ih =>
    have owned := zonesOwned_of_wellShaped (reached_wellShaped roundTrips reached).2
    refine step_procs (fun request depth => start_guarded _ _ request depth) ?_ ih
    intro o inp guarded
    have before : Guarded ⟨lib, snap'⟩ OwnedIfBare o := guarded_of_lib guarded
    have known : ∀ zone m, getCacheCopy s.world zone = some m → OwnedIfBare zone m :=
      fun zone m read bare => owned zone m bare read
    have after := visit_guarded ⟨lib, snap'⟩ OwnedIfBare o ⟨s.world, inp⟩ known before
    exact guarded_of_lib after
  | loaded cfg saverCfg file reached saverReached saved ih saverIh => exact ih

/-- In every run of the resolver from an empty cache, with any snapshots loaded on the way,
the cache is such that every resolution at QUERY_UPSTREAM has a delegation that covers its
name. -/
theorem reached_queries_covered {lib : Lib} (roundTrips : RoundTrips lib)
    (compares : ComparesLabels lib) {s : Sys} (reached : Reached lib s) {p : Proc}
    (mem : p ∈ s.procs) {r : Resolution} (at_query : AtQuery p.outcome r)
    (rooted : Rooted r.qname) (unescaped : Unescaped r.qname) :
    ∃ rr rest, r.response.ns = rr :: rest ∧ rr.isNS = true ∧
      (Unescaped rr.name → Covers rr.name r.qname) := by
  have guarded := reached_guarded roundTrips emptySnapshot reached p mem
  have env_compares : ComparesLabels (Env.lib ⟨lib, emptySnapshot⟩) := compares
  rcases at_query with ⟨asking, here⟩ | ⟨source, waiting⟩
  · exact delegation_covers env_compares rooted unescaped (guarded.asking r asking here)
  · exact delegation_covers env_compares rooted unescaped (guarded.waiting r source waiting)

end DelegationCover
