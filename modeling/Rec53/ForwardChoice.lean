import Rec53.SliceSort
import Rec53.ZoneWalk

/-!
# The forwarding zone of a query

`sortForwardZones` of `server/forward_config.go`, the zone FORWARD_LOOKUP picks from
its result, and the run of `Change` after a zone was picked. Zones are put in order by
the length of their text alone and the sort promises nothing on ties, while a zone
encloses a name by its labels; the two agree because the zones that enclose one name
are nested.
-/

namespace ForwardChoice

open DnsMessage Platform DnsCache LocalConfig StateHandlers StateMachine SliceSort ZoneWalk

/-- `len` of a string: the bytes of its UTF-8 text. -/
def byteLength (text : String) : Nat := DomainName.weight Char.utf8Size text.toList

/-- The order of the sort: a shorter zone is not before a longer one. -/
def Before (a b : ForwardZone) : Prop := byteLength b.zone ≤ byteLength a.zone

def normalise (lib : Lib) (z : ForwardZone) : ForwardZone := { z with zone := lib.fqdn z.zone }

def sortForwardZones (lib : Lib) (sorter : Sorter ForwardZone Before) (zones : List ForwardZone) :
    List ForwardZone :=
  if zones.length = 0 then [] else sorter.sort (zones.map (normalise lib))

/-- The library compares names by labels and ends a name that has no end. -/
structure NameRules (lib : Lib) : Prop where
  isSubDomain : ∀ parent child, lib.isSubDomain parent child =
    DomainName.isSubDomain parent.toList child.toList
  fqdn : ∀ name, lib.fqdn name = String.ofList (DomainName.fqdn name.toList)

/-- Of two zones around a name the one with more labels is the longer one. -/
lemma byteLength_lt {zone zone' name : String} (encloses : Encloses zone name)
    (encloses' : Encloses zone' name) (ended : ∃ front, zone'.toList = front ++ ['.'])
    (fewer : labelCount zone < labelCount zone') : byteLength zone < byteLength zone' := by
  by_cases root : zone = "."
  · obtain ⟨front, text⟩ := ended
    have proper : front ++ ['.'] ≠ ['.'] := by
      intro is_root
      rw [labelCount, labelCount, text, is_root] at fewer
      exact absurd fewer (Nat.not_lt_zero _)
    rw [byteLength, byteLength, root, text]
    exact DomainName.weight_root_lt Char.utf8Size_pos proper
  · exact DomainName.weight_lt Char.utf8Size_pos DomainName.utf8Size_toLower encloses encloses'
      (toList_ne root) fewer

/-- The first zone around a name, in a list from long to short, has the most labels. -/
lemma labelCount_le_of_find {α : Type*} (zone : α → String) {l : List α} {name : String}
    {around : α → Bool} {first other : α}
    (sorted : l.Pairwise fun a b => byteLength (zone b) ≤ byteLength (zone a))
    (ended : ∀ a ∈ l, ∃ front, (zone a).toList = front ++ ['.'])
    (encloses : ∀ a, around a = true ↔ Encloses (zone a) name) (found : l.find? around = some first)
    (listed : other ∈ l) (other_around : Encloses (zone other) name) :
    labelCount (zone other) ≤ labelCount (zone first) := by
  by_contra more
  obtain ⟨here, passed, later, list, missed⟩ := List.find?_eq_some_iff_append.mp found
  have longer := byteLength_lt ((encloses first).mp here) other_around (ended other listed)
    (Nat.lt_of_not_le more)
  rw [list] at listed sorted
  rcases List.mem_append.mp listed with before | after
  · have outside := missed other before
    rw [(encloses other).mpr other_around] at outside
    cases outside
  · rcases List.mem_cons.mp after with rfl | behind
    · exact Nat.lt_irrefl _ longer
    · have shorter := (List.pairwise_cons.mp (List.pairwise_append.mp sorted).2.1).1 other behind
      exact absurd longer (Nat.not_lt_of_le shorter)

lemma isSubDomain_iff_encloses {lib : Lib} (rules : NameRules lib) {zone name : String} :
    lib.isSubDomain zone name = true ↔ Encloses zone name := by
  rw [rules.isSubDomain]
  rfl

lemma toList_fqdn_eq_snoc {lib : Lib} (rules : NameRules lib) (name : String) :
    ∃ front, (lib.fqdn name).toList = front ++ ['.'] := by
  obtain ⟨front, text⟩ := DomainName.fqdn_eq_snoc name.toList
  refine ⟨front, ?_⟩
  rw [rules.fqdn, String.toList_ofList, text]

section Choice

variable {env : Env} (rules : NameRules env.lib) {zones : List ForwardZone}
  {sorter : Sorter ForwardZone Before}
  (sorted : env.snap.forwardZones = sortForwardZones env.lib sorter zones)

include sorted in
lemma mem_forwardZones {z : ForwardZone} :
    z ∈ env.snap.forwardZones ↔ ∃ z₀ ∈ zones, z = normalise env.lib z₀ := by
  rw [sorted, sortForwardZones]
  split
  · rename_i none_configured
    simp [List.length_eq_zero_iff.mp none_configured]
  · rw [sorter.mem_sort, List.mem_map]
    simp only [eq_comm]

include sorted in
lemma forwardZones_sorted : env.snap.forwardZones.Pairwise Before := by
  rw [sorted, sortForwardZones]
  split
  · exact List.Pairwise.nil
  · exact sorter.sorted _

include rules sorted in
/-- The first zone around the name in the sorted list has the most labels. -/
theorem matchedZone_deepest {name : String} {zone : ForwardZone}
    (matched : matchedZone env name = some zone) :
    (∃ z ∈ zones, zone = normalise env.lib z) ∧ Encloses zone.zone name ∧
      ∀ z ∈ zones, Encloses (env.lib.fqdn z.zone) name →
        labelCount (env.lib.fqdn z.zone) ≤ labelCount zone.zone := by
  rw [matchedZone] at matched
  have here := List.find?_some matched
  have encloses := (isSubDomain_iff_encloses rules).mp here
  have ended : ∀ z ∈ env.snap.forwardZones, ∃ front, z.zone.toList = front ++ ['.'] := by
    intro z listed
    obtain ⟨z₀, _, rfl⟩ := (mem_forwardZones sorted).mp listed
    exact toList_fqdn_eq_snoc rules z₀.zone
  refine ⟨(mem_forwardZones sorted).mp (List.mem_of_find?_eq_some matched), encloses, ?_⟩
  intro z configured around
  have listed : normalise env.lib z ∈ env.snap.forwardZones :=
    (mem_forwardZones sorted).mpr ⟨z, configured, rfl⟩
  change Encloses (normalise env.lib z).zone name at around
  change labelCount (normalise env.lib z).zone ≤ labelCount zone.zone
  exact labelCount_le_of_find ForwardZone.zone (forwardZones_sorted sorted) ended
    (fun z => isSubDomain_iff_encloses rules) matched listed around

include rules sorted in
theorem matchedZone_none {name : String} : matchedZone env name = none ↔
    ∀ z ∈ zones, ¬ Encloses (env.lib.fqdn z.zone) name := by
  rw [matchedZone_none_iff]
  constructor
  · intro missed z configured around
    have outside := missed _ ((mem_forwardZones sorted).mpr ⟨z, configured, rfl⟩)
    rw [← Bool.not_eq_true, isSubDomain_iff_encloses rules] at outside
    exact outside around
  · intro outside z listed
    obtain ⟨z₀, configured, rfl⟩ := (mem_forwardZones sorted).mp listed
    rw [← Bool.not_eq_true, isSubDomain_iff_encloses rules]
    exact outside z₀ configured

end Choice

/-! ### The run after a match -/

/-- The first `i` upstreams were asked and none of them answered. -/
def NoAnswerBefore (inp : Input) (i : Nat) : Prop :=
  ∀ j < i, ∃ err, inp.forward j = (true, .error err)

/-- Queries to the given upstreams, in this order. -/
def exchanges (q : Question) (ups : List String) : List Effect :=
  ups.map (.exchange · q.name q.qtype)

/-- What the loop over the upstreams comes to, and what it asks on the way. -/
inductive Tried (inp : Input) (request response : Msg) (ups : List String) :
    ForwardRet × Msg × List Effect → Prop where
  | answered (i : Nat) (resp : Msg) (there : i < ups.length) (before : NoAnswerBefore inp i)
      (answer : inp.forward i = (true, .ok resp)) :
      Tried inp request response ups (.hit, copyForwarded request response resp,
        exchanges request.q0 (ups.take (i + 1)) ++ [.received resp])
  | failed (i : Nat) (before : NoAnswerBefore inp i)
      (stopped : i = ups.length ∨ i < ups.length ∧ (inp.forward i).1 = false) :
      Tried inp request response ups (.servfail, response, exchanges request.q0 (ups.take i))

lemma NoAnswerBefore.next {inp : Input} {i : Nat} (before : NoAnswerBefore inp i) {err : String}
    (failed : inp.forward i = (true, .error err)) : NoAnswerBefore inp (i + 1) := by
  intro j lt
  rcases Nat.lt_succ_iff_lt_or_eq.mp lt with earlier | rfl
  · exact before j earlier
  · exact ⟨err, failed⟩

/-- The loop with the upstreams it has already asked. -/
lemma tryUpstreams_after (inp : Input) (request response : Msg) (asked ups : List String)
    (before : NoAnswerBefore inp asked.length) :
    Tried inp request response (asked ++ ups)
      ((tryUpstreams inp request response asked.length ups).1,
        (tryUpstreams inp request response asked.length ups).2.1,
        exchanges request.q0 asked ++
          (tryUpstreams inp request response asked.length ups).2.2) := by
  induction ups generalizing asked with
  | nil =>
    have all_failed : Tried inp request response (asked ++ [])
        (.servfail, response, exchanges request.q0 ((asked ++ []).take asked.length)) :=
      .failed asked.length before (.inl (by simp))
    simpa [tryUpstreams] using all_failed
  | cons upstream rest ih =>
    have there : asked.length < (asked ++ upstream :: rest).length := by simp
    by_cases closed : (inp.forward asked.length).1 = false
    · have stopped : Tried inp request response (asked ++ upstream :: rest)
          (.servfail, response,
            exchanges request.q0 ((asked ++ upstream :: rest).take asked.length)) :=
        .failed asked.length before (.inr ⟨there, closed⟩)
      simpa [tryUpstreams, closed] using stopped
    · have gate : (inp.forward asked.length).1 = true := Bool.not_eq_false _ ▸ closed
      cases answer : (inp.forward asked.length).2 with
      | error err =>
        have later := ih (asked ++ [upstream]) (by
          rw [List.length_append]
          exact before.next (Prod.ext gate answer))
        simpa [tryUpstreams, gate, answer, exchanges] using later
      | ok resp =>
        have first : Tried inp request response (asked ++ upstream :: rest)
            (.hit, copyForwarded request response resp, exchanges request.q0
              ((asked ++ upstream :: rest).take (asked.length + 1)) ++ [.received resp]) :=
          .answered asked.length resp there before (Prod.ext gate answer)
        have taken : (asked ++ upstream :: rest).take (asked.length + 1) = asked ++ [upstream] := by
          simp [List.take_append]
        rw [taken] at first
        simpa [tryUpstreams, gate, answer, exchanges] using first

theorem tryUpstreams_tried (inp : Input) (request response : Msg) (ups : List String) :
    Tried inp request response ups (tryUpstreams inp request response 0 ups) :=
  tryUpstreams_after inp request response [] ups fun _ lt => absurd lt (Nat.not_lt_zero _)

/-- The reply of a run in which a zone was matched, and everything the run did. -/
inductive Forwarded (inp : Input) (request : Msg) (q : Question) (ups : List String) :
    Msg → List Effect → Prop where
  | answered (i : Nat) (resp : Msg) (admitted : inp.admitted = true) (there : i < ups.length)
      (before : NoAnswerBefore inp i) (answer : inp.forward i = (true, .ok resp)) :
      Forwarded inp request q ups
        { resp with id := request.id, response := true, question := [q] }
        (exchanges q (ups.take (i + 1)) ++ [.received resp])
  | failed (i : Nat) (admitted : inp.admitted = true) (before : NoAnswerBefore inp i)
      (stopped : i = ups.length ∨ i < ups.length ∧ (inp.forward i).1 = false) :
      Forwarded inp request q ups (freshRcode request rcodeServerFailure)
        (exchanges q (ups.take i))
  | refused (turned_down : inp.admitted = false) :
      Forwarded inp request q ups (freshRcode request rcodeRefused) []

lemma Forwarded.reads {inp : Input} {request : Msg} {q : Question} {ups : List String} {reply : Msg}
    {done : List Effect} (forwarded : Forwarded inp request q ups reply done) :
    ∀ e ∈ done, e.writes = false := by
  have asking : ∀ asked, ∀ e ∈ exchanges q asked, e.writes = false := by
    intro asked e mem
    obtain ⟨_, _, rfl⟩ := List.mem_map.mp mem
    rfl
  intro e mem
  cases forwarded with
  | answered i resp =>
    rcases List.mem_append.mp mem with asked | received
    · exact asking _ e asked
    · rw [List.mem_singleton.mp received]
      rfl
  | failed i => exact asking _ e mem
  | refused => cases mem

/-- Visits after the end change nothing. -/
lemma run_done (env : Env) (r : Resolution) (result : Except String Msg) (rest : List Visit) :
    StepRuns.run (visit env) (.done r result) rest = .done r result ∧
      StepRuns.emitted (visit env) (fun o v => (visitEffects env o v).1) (.done r result) rest =
        [] ∧
      StepRuns.Throughout (visit env) (fun o => ∀ r, o = .next r → r.st ≠ .cacheLookup)
        (.done r result) rest := by
  induction rest with
  | nil => exact ⟨rfl, rfl, fun r' next => (by cases next)⟩
  | cons v rest ih => exact ⟨ih.1, ih.2.1, fun r' next => (by cases next), ih.2.2⟩

section Run

variable {env : Env} {request : Msg} {q : Question} (missed : HostsMissed env request q)
  {zone : ForwardZone} (matched : matchedZone env q.name = some zone) (depth : Nat) (v : Visit)

include missed matched

/-- A round that matches a zone ends the resolution, at once or by way of RETURN_RESP. -/
lemma visit_matched : ∃ done o,
    visitEffects env (.next (opened request depth .forwardLookup 3)) v = (done, o) ∧
      (∀ r, o = .next r → r.st ≠ .cacheLookup) ∧
      ∃ r reply, Forwarded v.input request q zone.upstreams reply done ∧
        ∀ v', visitEffects env o v' = ([], .done r (.ok reply)) := by
  change ∃ done o, forwardRound env v.input (opened request depth .forwardLookup 3) = (done, o) ∧ _
  have request_eq : (opened request depth .forwardLookup 3).request = request := rfl
  have response_eq : (opened request depth .forwardLookup 3).response =
      ({} : Msg).setReply request := rfl
  rw [forwardRound, request_eq, response_eq, forwardLookupHandle, missed.q0_eq, matched]
  by_cases admitted : v.input.admitted = true
  · have tried := tryUpstreams_tried v.input request (({} : Msg).setReply request) zone.upstreams
    simp only [if_pos admitted]
    generalize tryUpstreams v.input request _ 0 zone.upstreams = result at tried
    cases tried with
    | answered i resp there before answer =>
      refine ⟨_, _, rfl, ?_, _, _, ?_, fun v' => rfl⟩
      · intro r next
        rw [goto_eq_next next]
        exact StateKind.noConfusion
      · have reply : buildFinalResponse { opened request depth .returnResp 4 with
            response := copyForwarded request (({} : Msg).setReply request) resp } =
              { resp with id := request.id, response := true, question := [q] } := by
          simp only [buildFinalResponse, copyForwarded, opened, start, Msg.setReply, missed.q0_eq,
            missed.single, List.nil_append]
          rfl
        change Forwarded _ _ _ _ (buildFinalResponse { opened request depth .returnResp 4 with
          response := copyForwarded request (({} : Msg).setReply request) resp }) _
        rw [reply, missed.q0_eq]
        exact .answered i resp admitted there before answer
    | failed i before stopped =>
      rw [missed.q0_eq]
      exact ⟨_, _, rfl, fun r next => (by cases next), _, _,
        .failed i admitted before stopped, fun v' => rfl⟩
  · simp only [if_neg admitted]
    exact ⟨_, _, rfl, fun r next => (by cases next), _, _,
      .refused (Bool.not_eq_true _ ▸ admitted), fun v' => rfl⟩

/-- The whole run: two rounds without a trace, the round that matches, and the end. -/
theorem run_matched (v₀ v₁ v' : Visit) (rest : List Visit) :
    StepRuns.Throughout (visit env) (fun o => ∀ r, o = .next r → r.st ≠ .cacheLookup)
        (.next (start request depth)) (v₀ :: v₁ :: v :: v' :: rest) ∧
      ∃ r reply, resolve env request depth (v₀ :: v₁ :: v :: v' :: rest) = .done r (.ok reply) ∧
        Forwarded v.input request q zone.upstreams reply
          (effects env request depth (v₀ :: v₁ :: v :: v' :: rest)) := by
  obtain ⟨done, o, forward, elsewhere, r, reply, forwarded, ended⟩ :=
    visit_matched missed matched depth v
  have init := visit_init missed depth v₀
  have hosts := visit_hosts missed depth v₁
  have finished := ended v'
  obtain ⟨stays, quiet, past⟩ := run_done env r (.ok reply) rest
  refine ⟨?_, r, reply, ?_, ?_⟩
  · simp only [StepRuns.Throughout, visit, init, hosts, forward, finished]
    refine ⟨?_, ?_, ?_, elsewhere, past⟩
    · rintro _ ⟨⟩
      exact StateKind.noConfusion
    · rintro _ ⟨⟩
      exact StateKind.noConfusion
    · rintro _ ⟨⟩
      exact StateKind.noConfusion
  · simp only [resolve, StepRuns.run, visit, init, hosts, forward, finished]
    exact stays
  · simp only [effects, StepRuns.emitted, visit, init, hosts, forward, finished]
    change Forwarded _ _ _ _ _ (done ++ ([] ++ StepRuns.emitted (visit env) _ _ rest))
    rw [quiet, List.append_nil, List.append_nil]
    exact forwarded

end Run

lemma forwardLookup_miss_iff {env : Env} {inp : Input} {request response : Msg} :
    (forwardLookupHandle env inp request response).1 = .miss ↔
      matchedZone env request.q0.name = none := by
  rw [forwardLookupHandle]
  cases matchedZone env request.q0.name with
  | none => simp
  | some zone =>
    simp only [reduceCtorEq, iff_false]
    split
    · have tried := tryUpstreams_tried inp request response zone.upstreams
      generalize tryUpstreams inp request response 0 zone.upstreams = result at tried
      cases tried with
      | answered => exact ForwardRet.noConfusion
      | failed => exact ForwardRet.noConfusion
    · exact ForwardRet.noConfusion

theorem forwarding_most_specific (env : Env) (rules : NameRules env.lib) (zones : List ForwardZone)
    (sorter : Sorter ForwardZone Before)
    (sorted : env.snap.forwardZones = sortForwardZones env.lib sorter zones) :
    (∀ name zone, matchedZone env name = some zone →
      (∃ z ∈ zones, zone = normalise env.lib z) ∧ Encloses zone.zone name ∧
      ∀ z ∈ zones, Encloses (env.lib.fqdn z.zone) name →
        labelCount (env.lib.fqdn z.zone) ≤ labelCount zone.zone) ∧
    (∀ inp request response, (forwardLookupHandle env inp request response).1 = .miss ↔
      ∀ z ∈ zones, ¬ Encloses (env.lib.fqdn z.zone) request.q0.name) ∧
    (∀ request q zone, HostsMissed env request q → matchedZone env q.name = some zone →
      ∀ depth v₀ v₁ v v' rest, ∃ r reply,
        resolve env request depth (v₀ :: v₁ :: v :: v' :: rest) = .done r (.ok reply) ∧
        Forwarded v.input request q zone.upstreams reply
          (effects env request depth (v₀ :: v₁ :: v :: v' :: rest)) ∧
        (∀ e ∈ effects env request depth (v₀ :: v₁ :: v :: v' :: rest), e.writes = false) ∧
        StepRuns.Throughout (visit env) (fun o => ∀ r, o = .next r → r.st ≠ .cacheLookup)
          (.next (start request depth)) (v₀ :: v₁ :: v :: v' :: rest)) := by
  refine ⟨?_, ?_, ?_⟩
  · intro name zone matched
    exact matchedZone_deepest rules sorted matched
  · intro inp request response
    rw [forwardLookup_miss_iff]
    exact matchedZone_none rules sorted
  · intro request q zone missed matched depth v₀ v₁ v v' rest
    obtain ⟨past, r, reply, ended, forwarded⟩ := run_matched missed matched depth v v₀ v₁ v' rest
    exact ⟨r, reply, ended, forwarded, forwarded.reads, past⟩

instance : DecidableRel Before := fun _ _ => inferInstanceAs (Decidable (_ ≤ _))

instance : Std.Total Before := ⟨fun a b => Nat.le_total (byteLength b.zone) (byteLength a.zone)⟩

instance : IsTrans ForwardZone Before := ⟨fun _ _ _ longer longer' => Nat.le_trans longer' longer⟩

/-- A library that follows the rules for names. -/
def namesLib : Lib :=
  { plainLib with
    isSubDomain := fun parent child => DomainName.isSubDomain parent.toList child.toList
    fqdn := fun name => String.ofList (DomainName.fqdn name.toList) }

def corpZones : List ForwardZone :=
  [⟨"Example.", ["10.0.0.1:53"]⟩, ⟨"corp.example", ["10.0.0.2:53"]⟩, ⟨".", ["10.0.0.3:53"]⟩]

def corpEnv : Env :=
  ⟨namesLib, { emptySnapshot with
    forwardZones := sortForwardZones namesLib (Sorter.insertion Before) corpZones }⟩

def corpQuery : Msg := { question := [⟨"db.corp.example.", typeA, classINET⟩] }

theorem corp_zone_matched : ∃ zone, matchedZone corpEnv "db.corp.example." = some zone ∧
    zone.zone = "corp.example." ∧
    (∀ z ∈ corpZones, Encloses (namesLib.fqdn z.zone) "db.corp.example." →
      labelCount (namesLib.fqdn z.zone) ≤ 2) ∧
    ∃ r reply, resolve corpEnv corpQuery 0 [idleVisit, idleVisit, idleVisit, idleVisit] =
      .done r (.ok reply) := by
  obtain ⟨most, _, ends⟩ := forwarding_most_specific corpEnv ⟨fun _ _ => rfl, fun _ => rfl⟩
    corpZones (Sorter.insertion Before) rfl
  have text : (matchedZone corpEnv "db.corp.example.").map ForwardZone.zone =
      some "corp.example." := by
    decide +kernel
  obtain ⟨zone, matched, spelled⟩ := Option.map_eq_some_iff.mp text
  obtain ⟨_, _, deepest⟩ := most _ zone matched
  have count : labelCount zone.zone = 2 := by
    rw [spelled]
    decide +kernel
  rw [count] at deepest
  obtain ⟨r, reply, ended, _⟩ := ends corpQuery ⟨"db.corp.example.", typeA, classINET⟩ zone
    ⟨rfl, rfl, rfl, rfl, List.not_mem_nil⟩ matched 0 idleVisit idleVisit idleVisit idleVisit []
  exact ⟨zone, matched, spelled, deepest, r, reply, ended⟩

end ForwardChoice
