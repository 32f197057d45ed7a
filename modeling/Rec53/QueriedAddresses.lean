import Rec53.ResolverSystem
import Mathlib.Data.Rat.Defs

/-!
# The addresses that are queried

QUERY_UPSTREAM takes its addresses from the additional section of the response, and only
when there is none from the cache or from nested resolutions of the name servers. The
pool picks two of them. From the additional section every A record is taken, whatever
its owner, so a queried address belongs to a name server of the current delegation if
the A records that the response has on entry do.
-/

namespace QueriedAddresses

open DnsMessage Platform DnsCache StateHandlers UpstreamQuery StateMachine ResolverSystem

/-! ### The choice of the pool -/

/-- `GetBestIPsV2` reads a score for each address and sorts by it, the lowest first;
`sort.Slice` leaves entries with the same score in any order. -/
def SortedScores (ips : List String) (scores : List (String × Rat)) : Prop :=
  (scores.map Prod.fst).Perm ips ∧ scores.Pairwise fun x y => x.2 ≤ y.2

/-- The first two of the sorted addresses. -/
def bestTwo (sorted : List String) : String × String :=
  (sorted.headD "", sorted.tail.headD "")

/-- The input chooses as the pool does, with whatever scores. -/
def PoolChoice (inp : Input) : Prop :=
  ∀ ips, ∃ scores, SortedScores ips scores ∧ inp.bestIPs ips = bestTwo (scores.map Prod.fst)

lemma mem_of_headD {xs : List String} (some_text : xs.headD "" ≠ "") : xs.headD "" ∈ xs := by
  cases xs with
  | nil => exact absurd rfl some_text
  | cons x rest => exact List.mem_cons_self

/-- What the pool chooses is one of the candidates, or nothing. -/
lemma poolChoice_mem {inp : Input} (pooled : PoolChoice inp) {ips : List String} {addr : String}
    (chosen : addr = (inp.bestIPs ips).1 ∨ addr = (inp.bestIPs ips).2) (some_text : addr ≠ "") :
    addr ∈ ips := by
  obtain ⟨scores, ⟨perm, _⟩, is⟩ := pooled ips
  rw [is] at chosen
  apply perm.mem_iff.mp
  rcases chosen with rfl | rfl
  · exact mem_of_headD some_text
  · exact List.mem_of_mem_tail (mem_of_headD some_text)

/-! ### What one visit sends -/

/-- Every query goes to one of the addresses that were listed. -/
lemma resume_sent (env : Env) {inp : Input} (pooled : PoolChoice inp) (r : Resolution)
    (source : IPSource) {addr : String} (mem : addr ∈ sentTo (resume env inp r source).1) :
    ∃ ipList, (source = .ips ipList ∨ ipList = inp.nsIPs ∧ ∃ nsNames, source = .resolve nsNames) ∧
      addr ∈ ipList := by
  obtain ⟨ipList, listed, same⟩ := resume_effects env inp r source
  rw [same] at mem
  have sends := queryUpstreamWith_sends env inp r.request r.response ipList
  obtain ⟨chosen, some_text⟩ := sends.only addr mem
  exact ⟨ipList, listed, poolChoice_mem pooled chosen some_text⟩

/-! ### Where the addresses come from -/

/-- An A record in the additional section, owned by a name server of the delegation. -/
def FromGlue (response : Msg) (addr : String) : Prop :=
  ∃ rr ∈ response.extra, rr.address? = some addr ∧
    ∃ nsName ∈ getNSNamesFromResponse response, SameName rr.name nsName

/-- The A answer of a name server of the delegation, read from one of the given caches. -/
def FromCache (Seen : World → Prop) (response : Msg) (addr : String) : Prop :=
  ∃ nsName ∈ getNSNamesFromResponse response, ∃ w m, Seen w ∧
    getCacheCopyByType w nsName typeA = some m ∧ addr ∈ answerAddresses m

/-- The result of a resolution of a name server of the delegation, nested in `i`. -/
def FromNested (env : Env) (s : Sys) (i : Nat) (response : Msg) (addr : String) : Prop :=
  ∃ nsName ∈ getNSNamesFromResponse response, ∃ (j : Nat) (r : Resolution) (msg : Msg),
    s.procs[j]? = some ⟨some (i, nsName), .done r (.ok msg)⟩ ∧
    (∃ id depth visits, resolve env (newQuery id nsName typeA) depth visits = .done r (.ok msg)) ∧
    addr ∈ answerAddresses msg

/-- Every A record in the additional section is owned by a name server in the authority
section. -/
def GlueOwned (response : Msg) : Prop :=
  ∀ rr ∈ response.extra, rr.address? ≠ none →
    ∃ nsName ∈ getNSNamesFromResponse response, SameName rr.name nsName

instance (response : Msg) : Decidable (GlueOwned response) :=
  inferInstanceAs (Decidable (∀ rr ∈ response.extra, _ → ∃ nsName ∈ _, _))

lemma collectIPs_ips {w : World} {depth : Nat} {response : Msg} {ipList : List String}
    (listed : collectIPs w depth response = .ips ipList) :
    ipList = getIPListFromResponse response ∨ ipList = [] ∨
      ipList = resolveNSIPs w (getNSNamesFromResponse response) := by
  simp only [collectIPs] at listed
  split at listed
  · split at listed
    · cases listed
      exact .inr (.inr rfl)
    split at listed
    · cases listed
      exact .inr (.inl rfl)
    · cases listed
  · cases listed
    exact .inl rfl

lemma mem_resolveNSIPs {w : World} {nsNames : List String} {addr : String}
    (mem : addr ∈ resolveNSIPs w nsNames) :
    ∃ nsName ∈ nsNames, ∃ m, getCacheCopyByType w nsName typeA = some m ∧
      addr ∈ answerAddresses m := by
  obtain ⟨nsName, asked, found⟩ := List.mem_flatMap.mp mem
  refine ⟨nsName, asked, ?_⟩
  split at found
  · rename_i m cached
    exact ⟨m, cached, found⟩
  · cases found

/-- What a wait in QUERY_UPSTREAM holds: addresses of the delegation, or its names. -/
def Gathered (Seen : Resolution → World → Prop) : Outcome → Prop
  | .await r (.ips ipList) =>
    ∀ addr ∈ ipList, FromGlue r.response addr ∨ FromCache (Seen r) r.response addr
  | .await r (.resolve nsNames) => nsNames = getNSNamesFromResponse r.response
  | .next _ | .done _ _ => True

lemma Gathered.mono {Seen Seen' : Resolution → World → Prop} {o : Outcome}
    (more : ∀ r source w, o = .await r source → Seen r w → Seen' r w)
    (gathered : Gathered Seen o) : Gathered Seen' o := by
  cases o with
  | next | done => trivial
  | await r source =>
    cases source with
    | resolve nsNames => exact gathered
    | ips ipList =>
      intro addr mem
      rcases gathered addr mem with glue | ⟨nsName, asked, w, m, seen, cached⟩
      · exact .inl glue
      · exact .inr ⟨nsName, asked, w, m, more r _ w rfl seen, cached⟩

lemma collectIPs_gathered {Seen : Resolution → World → Prop} {w : World} {r : Resolution}
    (seen : Seen r w) (owned : GlueOwned r.response) :
    Gathered Seen (.await r (collectIPs w r.depth r.response)) := by
  cases source : collectIPs w r.depth r.response with
  | resolve nsNames => exact (collectIPs_resolve source).2
  | ips ipList =>
    intro addr mem
    rcases collectIPs_ips source with rfl | rfl | rfl
    · obtain ⟨rr, extra, address⟩ := List.mem_filterMap.mp mem
      exact .inl ⟨rr, extra, address, owned rr extra (by simp [address])⟩
    · cases mem
    · obtain ⟨nsName, asked, m, cached⟩ := mem_resolveNSIPs mem
      exact .inr ⟨nsName, asked, w, m, seen, cached⟩

/-- A visit that goes into QUERY_UPSTREAM reads the cache it finds. -/
lemma visit_gathered {Seen : Resolution → World → Prop} (env : Env) {o : Outcome} {v : Visit}
    (enters : ∀ r source, o = .next r → r.st = .queryUpstream → visit env o v = .await r source →
      Seen r v.world ∧ GlueOwned r.response) :
    Gathered Seen (visit env o v) := by
  cases ends : visit env o v with
  | next | done => trivial
  | await r source =>
    obtain ⟨next, here, rfl⟩ := visit_await ends
    obtain ⟨seen, owned⟩ := enters r _ next here ends
    exact collectIPs_gathered seen owned

/-! ### Nested resolutions -/

/-- A nested resolution at `j` of the name `nsName` for the one at `i`, which waits. -/
structure NestedIn (env : Env) (procs : List Proc) (j i : Nat) (nsName : String)
    (o : Outcome) : Prop where
  apart : i ≠ j
  awaited : ∃ parent r nsNames, procs[i]? = some ⟨parent, .await r (.resolve nsNames)⟩ ∧
    nsName ∈ nsNames
  asked : ∃ id depth visits, o = resolve env (newQuery id nsName typeA) depth visits

def Nested (env : Env) (procs : List Proc) : Prop :=
  ∀ (j i : Nat) nsName o, procs[j]? = some ⟨some (i, nsName), o⟩ → NestedIn env procs j i nsName o

lemma NestedIn.append {env : Env} {procs : List Proc} {j i : Nat} {nsName : String} {o : Outcome}
    (nested : NestedIn env procs j i nsName o) (fresh : Proc) :
    NestedIn env (procs ++ [fresh]) j i nsName o := by
  obtain ⟨parent, r, nsNames, at_i, mem⟩ := nested.awaited
  refine ⟨nested.apart, ⟨parent, r, nsNames, ?_, mem⟩, nested.asked⟩
  rw [List.getElem?_append_left (List.getElem?_eq_some_iff.mp at_i).1]
  exact at_i

lemma nested_append {env : Env} {procs : List Proc} (nested : Nested env procs) {fresh : Proc}
    (new : ∀ i nsName o, fresh = ⟨some (i, nsName), o⟩ →
      NestedIn env procs procs.length i nsName o) : Nested env (procs ++ [fresh]) := by
  intro j i nsName o at_j
  apply NestedIn.append
  rw [List.getElem?_append] at at_j
  split at at_j
  · exact nested j i nsName o at_j
  · rename_i past
    obtain ⟨within, is⟩ := List.getElem?_eq_some_iff.mp at_j
    have last : j = procs.length := by
      rw [List.length_singleton] at within
      omega
    subst last
    exact new i nsName o (by simpa using is)

/-- A visit of a resolution that nobody is nested in. -/
lemma nested_visit {env : Env} {procs : List Proc} (nested : Nested env procs) {v : Nat}
    {p : Proc} (at_v : procs[v]? = some p) (x : Visit)
    (childless : ∀ (j : Nat) nsName o, procs[j]? ≠ some ⟨some (v, nsName), o⟩) :
    Nested env (procs.set v { p with outcome := visit env p.outcome x }) := by
  have kept : ∀ (j i : Nat) nsName o, procs[j]? = some ⟨some (i, nsName), o⟩ →
      ∃ parent r nsNames, (procs.set v { p with outcome := visit env p.outcome x })[i]? =
        some ⟨parent, .await r (.resolve nsNames)⟩ ∧ nsName ∈ nsNames := by
    intro j i nsName o at_j
    have other : v ≠ i := by
      rintro rfl
      exact childless j nsName o at_j
    rw [List.getElem?_set_ne other]
    exact (nested j i nsName o at_j).awaited
  intro j i nsName o at_j
  by_cases same : v = j
  · subst same
    rw [List.getElem?_set_self (List.getElem?_eq_some_iff.mp at_v).1] at at_j
    obtain ⟨parent, before⟩ := p
    cases at_j
    obtain ⟨id, depth, visits, rfl⟩ := (nested v i nsName before at_v).asked
    refine ⟨(nested v i nsName _ at_v).apart, kept v i nsName _ at_v, id, depth, visits ++ [x], ?_⟩
    exact (resolve_snoc env _ _ _ _).symm
  · rw [List.getElem?_set_ne same] at at_j
    have before := nested j i nsName o at_j
    exact ⟨before.apart, kept j i nsName o at_j, before.asked⟩

lemma orphan_parent {v i : Nat} {nsName : String} {p : Proc} {o : Outcome}
    (is : orphan v p = ⟨some (i, nsName), o⟩) : p = ⟨some (i, nsName), o⟩ ∧ i ≠ v := by
  rw [orphan] at is
  split at is
  · rename_i i' nsName' mine
    split at is
    · cases is
    · rename_i other
      subst is
      cases mine
      exact ⟨rfl, other⟩
  · rename_i none_left
    subst is
    cases none_left

lemma nested_orphan {env : Env} {procs : List Proc} (nested : Nested env procs) (v : Nat) :
    Nested env (procs.map (orphan v)) ∧
      ∀ (j : Nat) nsName o, (procs.map (orphan v))[j]? ≠ some ⟨some (v, nsName), o⟩ := by
  have before : ∀ (j i : Nat) nsName o,
      (procs.map (orphan v))[j]? = some ⟨some (i, nsName), o⟩ →
        procs[j]? = some ⟨some (i, nsName), o⟩ ∧ i ≠ v := by
    intro j i nsName o at_j
    rw [List.getElem?_map] at at_j
    obtain ⟨p, at_j, is⟩ := Option.map_eq_some_iff.mp at_j
    obtain ⟨rfl, other⟩ := orphan_parent is
    exact ⟨at_j, other⟩
  refine ⟨?_, fun j nsName o at_j => (before j v nsName o at_j).2 rfl⟩
  intro j i nsName o at_j
  obtain ⟨apart, ⟨parent, r, nsNames, at_i, mem⟩, asked⟩ :=
    nested j i nsName o (before j i nsName o at_j).1
  refine ⟨apart, ⟨(orphan v ⟨parent, .await r (.resolve nsNames)⟩).parent, r,
    nsNames, ?_, mem⟩, asked⟩
  rw [List.getElem?_map, at_i]
  have same := orphan_outcome v ⟨parent, .await r (.resolve nsNames)⟩
  exact congrArg some (congrArg (Proc.mk _) same)

/-! ### What one event keeps -/

/-- The resolution that the event takes into QUERY_UPSTREAM. -/
def entering (s : Sys) : Event → Option Resolution
  | .visit i _ =>
    match s.procs[i]? with
    | some ⟨_, .next r⟩ => if r.st = .queryUpstream then some r else none
    | _ => none
  | .query _ | .spawn _ _ _ | .collect _ _ _ | .update _ _ | .advance _ => none

def EntersOwned (s : Sys) (e : Event) : Prop := ∀ r ∈ entering s e, GlueOwned r.response

instance (s : Sys) (e : Event) : Decidable (EntersOwned s e) :=
  inferInstanceAs (Decidable (∀ r ∈ entering s e, _))

/-- The resolution at `i` waits in QUERY_UPSTREAM. -/
def Waits (s : Sys) (i : Nat) (r : Resolution) : Prop :=
  ∃ parent source, s.procs[i]? = some ⟨parent, .await r source⟩

lemma step_visit (env : Env) (s : Sys) (i : Nat) (inp : Input) :
    step env s (.visit i inp) = s ∨ ∃ p, s.procs[i]? = some p ∧
      (∀ r nsNames, p.outcome ≠ .await r (.resolve nsNames)) ∧
      step env s (.visit i inp) = s.visitProc env i p inp := by
  simp only [step]
  split
  · rename_i at_i
    refine .inr ⟨_, at_i, ?_, rfl⟩
    intro r nsNames waits
    cases waits
  · rename_i at_i
    refine .inr ⟨_, at_i, ?_, rfl⟩
    intro r nsNames waits
    cases waits
  · exact .inl rfl

/-- The addresses that the first of the collected nested resolutions has found. -/
def collected (s : Sys) (i : Nat) (children : List Nat) : List String :=
  ((children.filterMap (s.childResult i)).head?.map Prod.snd).getD []

lemma step_collect (env : Env) (s : Sys) (i : Nat) (children : List Nat) (inp : Input) :
    step env s (.collect i children inp) = s ∨ ∃ parent r nsNames updates,
      s.procs[i]? = some ⟨parent, .await r (.resolve nsNames)⟩ ∧
      step env s (.collect i children inp) =
        { s with procs := s.procs.map (orphan i), updates := updates }.visitProc env i
          ⟨parent, .await r (.resolve nsNames)⟩ { inp with nsIPs := collected s i children } := by
  simp only [step]
  split
  · rename_i at_i
    exact .inr ⟨_, _, _, _, at_i, rfl⟩
  · exact .inl rfl

/-- How the resolution at `i` comes to where it is after an event. -/
inductive Came (env : Env) (s : Sys) (e : Event) (i : Nat) : Outcome → Prop where
  | kept {p : Proc} (at_i : s.procs[i]? = some p) : Came env s e i p.outcome
  | started (request : Msg) (depth : Nat) (fresh : s.procs.length ≤ i) :
      Came env s e i (.next (start request depth))
  | visited {p : Proc} {inp : Input} (at_i : s.procs[i]? = some p) (is : e = .visit i inp) :
      Came env s e i (visit env p.outcome ⟨s.world, inp⟩)
  | resumed {parent : Option (Nat × String)} {r : Resolution} {nsNames : List String}
      (at_i : s.procs[i]? = some ⟨parent, .await r (.resolve nsNames)⟩) (inp : Input) :
      Came env s e i (visit env (.await r (.resolve nsNames)) ⟨s.world, inp⟩)

lemma came_append {env : Env} {s : Sys} {e : Event} {i : Nat} {p fresh : Proc} {request : Msg}
    {depth : Nat} (starts : fresh.outcome = .next (start request depth))
    (at_i : (s.procs ++ [fresh])[i]? = some p) : Came env s e i p.outcome := by
  rw [List.getElem?_append] at at_i
  split at at_i
  · exact .kept at_i
  · rename_i beyond
    have last := List.mem_of_getElem? at_i
    rw [List.mem_singleton.mp last, starts]
    exact .started request depth (Nat.le_of_not_lt beyond)

lemma step_came {env : Env} {s : Sys} {e : Event} {i : Nat} {p : Proc}
    (at_i : (step env s e).procs[i]? = some p) : Came env s e i p.outcome := by
  cases e with
  | query request => exact came_append rfl at_i
  | advance d => exact .kept at_i
  | visit j inp =>
    rcases step_visit env s j inp with same | ⟨q, at_j, _, moved⟩
    · rw [same] at at_i
      exact .kept at_i
    · rw [moved] at at_i
      change (s.procs.set j _)[i]? = some p at at_i
      by_cases mine : j = i
      · subst mine
        rw [List.getElem?_set_self (List.getElem?_eq_some_iff.mp at_j).1] at at_i
        cases at_i
        exact .visited at_j rfl
      · rw [List.getElem?_set_ne mine] at at_i
        exact .kept at_i
  | collect j children inp =>
    rcases step_collect env s j children inp with same | ⟨parent, r, nsNames, _, at_j, moved⟩
    · rw [same] at at_i
      exact .kept at_i
    · rw [moved] at at_i
      change ((s.procs.map (orphan j)).set j _)[i]? = some p at at_i
      by_cases mine : j = i
      · subst mine
        have within := (List.getElem?_eq_some_iff.mp at_j).1
        rw [List.getElem?_set_self (by rwa [List.length_map])] at at_i
        cases at_i
        exact .resumed at_j _
      · rw [List.getElem?_set_ne mine, List.getElem?_map] at at_i
        obtain ⟨q, at_i', rfl⟩ := Option.map_eq_some_iff.mp at_i
        rw [orphan_outcome]
        exact .kept at_i'
  | update k id =>
    simp only [step] at at_i
    split at at_i
    · exact .kept at_i
    · exact .kept at_i
  | spawn j id nsName =>
    simp only [step] at at_i
    split at at_i
    · split at at_i
      · exact came_append rfl at_i
      · exact .kept at_i
    · exact .kept at_i

/-- Who waits after an event waited before, or read the cache in the event. -/
lemma step_gathered {env : Env} {Seen Seen' : Nat → Resolution → World → Prop} {s : Sys}
    {e : Event} (meets : EntersOwned s e)
    (gathered : ∀ (i : Nat) p, s.procs[i]? = some p → Gathered (Seen i) p.outcome)
    (stays : ∀ i r w, Waits (step env s e) i r → Seen i r w → Seen' i r w)
    (enters : ∀ i inp r, Waits (step env s e) i r → e = .visit i inp → entering s e = some r →
      Seen' i r s.world) (i : Nat) (p : Proc) (at_i : (step env s e).procs[i]? = some p) :
    Gathered (Seen' i) p.outcome := by
  have waits {r : Resolution} {source : IPSource} (is : p.outcome = .await r source) :
      Waits (step env s e) i r := by
    obtain ⟨parent, o⟩ := p
    cases is
    exact ⟨parent, source, at_i⟩
  have came : Came env s e i p.outcome := step_came at_i
  generalize p.outcome = o at came waits
  cases came with
  | kept before =>
    refine (gathered i _ before).mono fun r source w is seen => ?_
    exact stays i r w (waits is) seen
  | started request depth => trivial
  | @visited q inp before is =>
    refine visit_gathered env fun r source next here ends => ?_
    obtain ⟨parent, o⟩ := q
    cases next
    have entered : entering s e = some r := by simp [is, entering, before, here]
    exact ⟨enters i inp r (waits ends) is entered, meets r entered⟩
  | resumed =>
    refine visit_gathered env fun r' source next => ?_
    cases next

/-- Whoever has a nested resolution waits for it. -/
theorem step_nested {env : Env} {s : Sys} (e : Event) (nested : Nested env s.procs) :
    Nested env (step env s e).procs := by
  cases e with
  | query request =>
    refine nested_append nested ?_
    intro i nsName o is
    cases is
  | advance d => exact nested
  | visit i inp =>
    rcases step_visit env s i inp with same | ⟨p, at_i, wakes, moved⟩
    · rw [same]
      exact nested
    rw [moved]
    refine nested_visit nested at_i _ ?_
    intro j nsName o at_j
    obtain ⟨parent, r, nsNames, waits, _⟩ := (nested j i nsName o at_j).awaited
    rw [at_i] at waits
    cases waits
    exact wakes r nsNames rfl
  | collect i children inp =>
    rcases step_collect env s i children inp with same | ⟨parent, r, nsNames, updates, at_i, moved⟩
    · rw [same]
      exact nested
    rw [moved]
    obtain ⟨nested', childless⟩ := nested_orphan nested i
    refine nested_visit nested' ?_ _ childless
    rw [List.getElem?_map, at_i, Option.map_some]
    -- nobody is nested in itself, so the parent stays
    cases parent with
    | none => rfl
    | some above =>
      have apart := (nested i above.1 above.2 _ at_i).apart
      simp only [orphan, if_neg apart]
  | update k id =>
    simp only [step]
    split
    · exact nested
    · exact nested
  | spawn i id nsName =>
    simp only [step]
    split
    · rename_i parent r nsNames at_i
      split
      · rename_i asked
        refine nested_append nested ?_
        intro i' nsName' o is
        cases is
        have within := (List.getElem?_eq_some_iff.mp at_i).1
        exact ⟨Nat.ne_of_lt within, ⟨parent, r, nsNames, at_i, asked⟩, id, r.depth + 1, [], rfl⟩
      · exact nested
    · exact nested

/-! ### Whole runs -/

/-- The cache and the clocks as they were when the resolution at `i` entered QUERY_UPSTREAM,
where it has been waiting since. -/
def Entered (env : Env) (w : World) (events : List Event) (i : Nat) (r : Resolution)
    (met : World) : Prop :=
  ∃ past inp later, events = past ++ .visit i inp :: later ∧
    entering (runFrom env w past) (.visit i inp) = some r ∧ (runFrom env w past).world = met ∧
    ∀ mid, mid <+: later → Waits (runFrom env w (past ++ .visit i inp :: mid)) i r

section
variable {env : Env} {w : World} {events : List Event} {i : Nat} {r : Resolution} {met : World}

lemma Entered.snoc (entered : Entered env w events i r met) {e : Event}
    (waits : Waits (runFrom env w (events ++ [e])) i r) :
    Entered env w (events ++ [e]) i r met := by
  obtain ⟨past, inp, later, rfl, enters, is, since⟩ := entered
  refine ⟨past, inp, later ++ [e], by simp, enters, is, fun mid part => ?_⟩
  rcases List.prefix_concat_iff.mp part with rfl | part
  · rwa [List.append_assoc, List.cons_append] at waits
  · exact since mid part

lemma Entered.now {inp : Input} (enters : entering (runFrom env w events) (.visit i inp) = some r)
    (waits : Waits (runFrom env w (events ++ [.visit i inp])) i r) :
    Entered env w (events ++ [.visit i inp]) i r (runFrom env w events).world := by
  refine ⟨events, inp, [], rfl, enters, rfl, fun mid part => ?_⟩
  rw [List.prefix_nil.mp part]
  exact waits

end

theorem runFrom_gathered {env : Env} {w : World} {events : List Event}
    (meets : StepRuns.Along (step env) EntersOwned (initial w) events) :
    ∀ (i : Nat) p, (runFrom env w events).procs[i]? = some p →
      Gathered (Entered env w events i) p.outcome := by
  refine StepRuns.past_invariant (step env) (P := fun past s => ∀ (i : Nat) p,
    s.procs[i]? = some p → Gathered (Entered env w past i) p.outcome) ?_ ?_ meets
  · intro past e gathered owned
    have after : step env (runFrom env w past) e = runFrom env w (past ++ [e]) :=
      (StepRuns.run_snoc (step env) (initial w) past e).symm
    refine step_gathered owned gathered ?_ ?_
    · intro i r met waits seen
      exact seen.snoc (after ▸ waits)
    · rintro i inp r waits rfl enters
      exact .now enters (after ▸ waits)
  · intro i p at_i
    cases at_i

theorem runFrom_nested (env : Env) (w : World) (events : List Event) :
    Nested env (runFrom env w events).procs := by
  refine StepRuns.run_preserves (step env) (P := fun s => Nested env s.procs)
    (fun _ e nested => step_nested e nested) ?_ events
  intro j i nsName o at_j
  cases at_j

/-- The resolution whose wait in QUERY_UPSTREAM the event ends. -/
def querying (s : Sys) : Event → Option (Nat × Resolution)
  | .visit i _ | .collect i _ _ =>
    match s.procs[i]? with
    | some ⟨_, .await r _⟩ => some (i, r)
    | _ => none
  | .query _ | .spawn _ _ _ | .update _ _ | .advance _ => none

def eventInput : Event → Option Input
  | .visit _ inp | .collect _ _ inp => some inp
  | .query _ | .spawn _ _ _ | .update _ _ | .advance _ => none

/-- The addresses that queries go to in one step. -/
def newlySent (env : Env) (s : Sys) (e : Event) : List String :=
  sentTo (((step env s e).log.drop s.log.length).map Prod.snd)

lemma newlySent_of_idle {env : Env} {s : Sys} {e : Event} (same : step env s e = s) :
    newlySent env s e = [] := by
  rw [newlySent, same, List.drop_length]
  rfl

lemma newlySent_of_visitProc {env : Env} {s : Sys} {e : Event} {procs : List Proc}
    {updates : List (String × List String)} {i : Nat} {p : Proc} {inp : Input}
    (moved : step env s e =
      { s with procs := procs, updates := updates }.visitProc env i p inp) :
    newlySent env s e = sentTo (visitEffects env p.outcome ⟨s.world, inp⟩).1 := by
  rw [newlySent, moved]
  simp [Sys.visitProc, Sys.emit, Function.comp_def]

lemma childResult_eq_some {s : Sys} {i j : Nat} {found : String × List String}
    (result : s.childResult i j = some found) :
    ∃ r msg, s.procs[j]? = some ⟨some (i, found.1), .done r (.ok msg)⟩ ∧
      found.2 = answerAddresses msg := by
  rw [Sys.childResult] at result
  split at result
  · rename_i i' nsName r msg at_j
    split at result
    · rename_i mine
      cases result
      rw [mine.1] at at_j
      exact ⟨r, msg, at_j, rfl⟩
    · cases result
  · cases result

/-- What is collected was found by a nested resolution of one of the names. -/
lemma mem_collected {env : Env} {s : Sys} (nested : Nested env s.procs) {i : Nat}
    {parent : Option (Nat × String)} {r : Resolution} {nsNames : List String}
    (at_i : s.procs[i]? = some ⟨parent, .await r (.resolve nsNames)⟩)
    (names : nsNames = getNSNamesFromResponse r.response) {children : List Nat} {addr : String}
    (mem : addr ∈ collected s i children) : FromNested env s i r.response addr := by
  rw [collected] at mem
  cases first : (children.filterMap (s.childResult i)).head? with
  | none =>
    rw [first] at mem
    cases mem
  | some found =>
    rw [first] at mem
    obtain ⟨j, _, result⟩ := List.mem_filterMap.mp (List.mem_of_head? first)
    obtain ⟨r', msg, at_j, addresses⟩ := childResult_eq_some result
    obtain ⟨_, ⟨parent', r'', nsNames', at_i', asked⟩, id, depth, visits, ran⟩ :=
      nested j i found.1 _ at_j
    rw [at_i] at at_i'
    cases at_i'
    rw [names] at asked
    exact ⟨found.1, asked, j, r', msg, at_j, ⟨id, depth, visits, ran.symm⟩, addresses ▸ mem⟩

/-- In every run of the resolver, from any cache and with any servers, in which a resolution
that enters QUERY_UPSTREAM has only A records of its name servers in the additional section:
every address that QUERY_UPSTREAM sends a query to is one of those, or from the A answer of
one of the name servers that was cached when the resolution entered the state, or from a nested
resolution of one of them. -/
theorem queried_addresses_delegated (env : Env) (w : World) (events : List Event)
    (meets : StepRuns.Along (step env) EntersOwned (initial w) events) (e : Event)
    (pooled : ∀ inp ∈ eventInput e, PoolChoice inp) (i : Nat) (r : Resolution)
    (queries : querying (runFrom env w events) e = some (i, r)) :
    ∀ addr ∈ newlySent env (runFrom env w events) e,
      FromGlue r.response addr ∨ FromCache (Entered env w events i r) r.response addr ∨
        FromNested env (runFrom env w events) i r.response addr := by
  have gathered := runFrom_gathered meets
  have nested := runFrom_nested env w events
  generalize runFrom env w events = s at queries gathered nested
  intro addr mem
  cases e with
  | query | spawn | update | advance => cases queries
  | visit k inp =>
    rcases step_visit env s k inp with same | ⟨p, at_k, wakes, moved⟩
    · rw [newlySent_of_idle same] at mem
      cases mem
    rw [newlySent_of_visitProc moved] at mem
    obtain ⟨parent, o⟩ := p
    simp only [querying, at_k] at queries
    split at queries
    · rename_i source waits
      cases waits
      cases queries
      cases source with
      | resolve nsNames => exact absurd rfl (wakes r nsNames)
      | ips ipList =>
        obtain ⟨ipList', is | ⟨_, _, is⟩, listed⟩ :=
          resume_sent env (pooled inp rfl) r (.ips ipList) mem
        · cases is
          rcases gathered _ _ at_k addr listed with glue | cached
          · exact .inl glue
          · exact .inr (.inl cached)
        · cases is
    · cases queries
  | collect k children inp =>
    rcases step_collect env s k children inp with
      same | ⟨parent, r', nsNames, updates, at_k, moved⟩
    · rw [newlySent_of_idle same] at mem
      cases mem
    rw [newlySent_of_visitProc moved] at mem
    simp only [querying, at_k] at queries
    cases queries
    have chosen : PoolChoice { inp with nsIPs := collected s i children } := pooled inp rfl
    obtain ⟨ipList, is | ⟨rfl, _⟩, listed⟩ := resume_sent env chosen r (.resolve nsNames) mem
    · cases is
    · exact .inr (.inr (mem_collected nested at_k (gathered _ _ at_k) listed))

/-! ### Runs with one referral -/

lemma bestTwo_poolChoice {inp : Input} (chooses : inp.bestIPs = bestTwo) : PoolChoice inp := by
  intro ips
  refine ⟨ips.map fun ip => (ip, 0), ⟨?_, ?_⟩, ?_⟩
  · simp [Function.comp_def]
  · exact List.pairwise_map.mpr (List.pairwise_of_forall fun _ _ => Rat.le_refl)
  · simp [chooses, Function.comp_def]

lemma not_fromNested {env : Env} {s : Sys} {i : Nat} {response : Msg} {addr : String}
    (alone : ∀ p ∈ s.procs, p.parent = none) : ¬ FromNested env s i response addr := by
  rintro ⟨nsName, _, j, _, _, at_j, _⟩
  cases alone _ (List.mem_of_getElem? at_j)

/-- The pool takes the first two addresses, and every server answers with `m`. -/
def pooledAnswer (m : Msg) : Input :=
  { Input.idle with bestIPs := bestTwo, best := .ok ⟨m, 1⟩, second := .ok ⟨m, 1⟩ }

/-- A referral for `example.` with one A record, of the given owner. -/
def referralWith (owner ip : String) : Msg :=
  { response := true, question := [⟨"www.example.", typeA, classINET⟩],
    ns := [⟨"example.", classINET, 60, .ns "ns1.example."⟩],
    extra := [⟨owner, classINET, 60, .a ip⟩] }

/-- The root refers the resolver, which then turns to the servers it was given. -/
def referredRun (m : Msg) : List Event :=
  .query (newQuery 7 "www.example." typeA) :: List.replicate 11 (.visit 0 (pooledAnswer m))

def plainWorld : World := World.initial none 1 0

theorem referred_to_owned_glue :
    let m := referralWith "NS1.example." "192.0.2.1"
    let s := runFrom plainEnv plainWorld (referredRun m)
    "192.0.2.1" ∈ newlySent plainEnv s (.visit 0 (pooledAnswer m)) ∧
      ∃ r, querying s (.visit 0 (pooledAnswer m)) = some (0, r) ∧
        ∀ addr ∈ newlySent plainEnv s (.visit 0 (pooledAnswer m)),
          FromGlue r.response addr ∨ FromCache (Entered plainEnv plainWorld (referredRun m) 0 r)
            r.response addr ∨ FromNested plainEnv s 0 r.response addr := by
  intro m s
  have meets : StepRuns.Along (step plainEnv) EntersOwned (initial plainWorld) (referredRun m) := by
    decide +kernel
  have now : (querying s (.visit 0 (pooledAnswer m))).map Prod.fst = some 0 := by decide +kernel
  obtain ⟨⟨i, r⟩, queries, rfl⟩ := Option.map_eq_some_iff.mp now
  refine ⟨by decide +kernel, r, queries, ?_⟩
  refine queried_addresses_delegated plainEnv plainWorld (referredRun m) meets _ ?_ 0 r queries
  rintro inp ⟨⟩
  exact bestTwo_poolChoice rfl

/-- The cache and the clocks as they were at any point of the run. -/
def Met (env : Env) (w : World) (events : List Event) (met : World) : Prop :=
  ∃ past, past <+: events ∧ (runFrom env w past).world = met

/-- The A record of another name is taken as well. It was never in the cache as an address of
the name server. -/
theorem referred_to_foreign_address :
    let m := referralWith "other." "192.0.2.66"
    let s := runFrom plainEnv plainWorld (referredRun m)
    PoolChoice (pooledAnswer m) ∧
      ∃ r, querying s (.visit 0 (pooledAnswer m)) = some (0, r) ∧
        ∃ addr ∈ newlySent plainEnv s (.visit 0 (pooledAnswer m)),
          ¬ (FromGlue r.response addr ∨ FromCache (Met plainEnv plainWorld (referredRun m))
            r.response addr ∨ FromNested plainEnv s 0 r.response addr) := by
  intro m s
  have now : (querying s (.visit 0 (pooledAnswer m))).map
      (fun x => (x.1, getNSNamesFromResponse x.2.response, x.2.response.extra)) =
        some (0, ["ns1.example."], m.extra) := by decide +kernel
  obtain ⟨⟨i, r⟩, queries, is⟩ := Option.map_eq_some_iff.mp now
  simp only [Prod.mk.injEq] at is
  obtain ⟨rfl, names, extra⟩ := is
  refine ⟨bestTwo_poolChoice rfl, r, queries, "192.0.2.66", by decide +kernel, ?_⟩
  rintro (⟨rr, mem, _, nsName, asked, owner⟩ | ⟨nsName, asked, w, found, seen, cached, _⟩ | nested)
  · rw [names] at asked
    rw [extra] at mem
    rw [List.mem_singleton.mp mem, List.mem_singleton.mp asked] at owner
    exact absurd owner (by decide +kernel)
  · obtain ⟨past, within, rfl⟩ := seen
    rw [names] at asked
    rw [List.mem_singleton.mp asked] at cached
    have never : StepRuns.Throughout (step plainEnv)
        (fun s => getCacheCopyByType s.world "ns1.example." typeA = none)
        (initial plainWorld) (referredRun m) := by
      decide +kernel
    have unread : getCacheCopyByType (runFrom plainEnv plainWorld past).world "ns1.example."
        typeA = none := never.at_prefix _ within
    rw [unread] at cached
    cases cached
  · exact not_fromNested (by decide +kernel) nested

end QueriedAddresses
