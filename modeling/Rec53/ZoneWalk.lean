import Rec53.DomainName
import Rec53.Delegations

/-!
# The closest cached delegation

LOOKUP_NS_CACHE walks the parts of the question name that `GetZoneList` cuts off and
takes the first one with a cached delegation. The parts are cut at every dot and
looked up as they are spelled, while a zone encloses a name by its labels: a dot can
be escaped, and letter case does not matter. The walk goes from long to short, which
is from many labels to few as long as both parts enclose the name.
-/

namespace ZoneWalk

open DnsMessage Platform DnsCache StateHandlers ExpiringStore ExpiringStore.Store

/-- The cached entry of a zone, when its authority section starts with an NS record. -/
def delegation (w : World) (zone : String) : Option Msg :=
  (getCacheCopy w zone).filter fun m => m.ns.head?.any RR.isNS

def Encloses (zone name : String) : Prop :=
  DomainName.isSubDomain zone.toList name.toList = true

instance (zone name : String) : Decidable (Encloses zone name) :=
  inferInstanceAs (Decidable (_ = _))

def labelCount (zone : String) : Nat := (DomainName.labels zone.toList).length

/-- A zone below the root that encloses the name and has a cached delegation. -/
structure Candidate (w : World) (name zone : String) : Prop where
  proper : zone ≠ "."
  encloses : Encloses zone name
  delegates : delegation w zone ≠ none

/-- The delegation that is used is the one of the candidate with the most labels, and
the root hints are used when there is no candidate. -/
def UsesClosest (w : World) (request response : Msg) : Prop :=
  match cachedDelegation w (getZoneList request.q0.name) with
  | some (zone, m) =>
    lookupNSCacheHandle w request response =
        { response with ns := response.ns ++ m.ns, extra := response.extra ++ m.extra } ∧
      getCacheCopy w zone = some m ∧ Candidate w request.q0.name zone ∧
      ∀ zone', Candidate w request.q0.name zone' → labelCount zone' ≤ labelCount zone
  | none =>
    lookupNSCacheHandle w request response =
        { response with ns := response.ns ++ rootGlue.1, extra := response.extra ++ rootGlue.2 } ∧
      ∀ zone, ¬ Candidate w request.q0.name zone

/-! ### The walk -/

lemma cachedDelegation_eq_findSome (w : World) (zones : List String) :
    cachedDelegation w zones = zones.findSome? fun zone => (delegation w zone).map (zone, ·) := by
  induction zones with
  | nil => rfl
  | cons zone rest ih =>
    rw [cachedDelegation, List.findSome?_cons, delegation, ih]
    cases getCacheCopy w zone with
    | none => rfl
    | some m =>
      cases authority : m.ns with
      | nil => simp [Option.filter, authority]
      | cons rr more =>
        by_cases is_ns : rr.isNS = true
        · simp [Option.filter, authority, is_ns]
        · simp [Option.filter, authority, is_ns]

lemma mem_zonesAbove {text zone : List Char} :
    zone ∈ zonesAbove text ↔ ∃ cut, text = cut ++ '.' :: zone := by
  induction text with
  | nil => simp [zonesAbove]
  | cons c rest ih =>
    have cuts : (∃ cut, c :: rest = cut ++ '.' :: zone) ↔
        c = '.' ∧ zone = rest ∨ ∃ cut, rest = cut ++ '.' :: zone := by
      constructor
      · rintro ⟨cut, whole⟩
        cases cut with
        | nil =>
          obtain ⟨rfl, rfl⟩ := List.cons_eq_cons.mp whole
          exact .inl ⟨rfl, rfl⟩
        | cons d cut => exact .inr ⟨cut, (List.cons_eq_cons.mp whole).2⟩
      · rintro (⟨rfl, rfl⟩ | ⟨cut, rfl⟩)
        · exact ⟨[], rfl⟩
        · exact ⟨c :: cut, rfl⟩
    rw [cuts, zonesAbove, ← ih]
    by_cases dot : c = '.'
    · rw [if_pos dot, List.mem_cons]
      simp [dot]
    · rw [if_neg dot]
      simp [dot]

lemma mem_getZoneList {name zone : String} : zone ∈ getZoneList name ↔
    zone = name ∨ ∃ cut, name.toList = cut ++ '.' :: zone.toList := by
  rw [getZoneList, List.mem_cons, ← mem_zonesAbove, List.mem_map]
  constructor
  · rintro (same | ⟨chars, above, rfl⟩)
    · exact .inl same
    · rw [String.toList_ofList]
      exact .inr above
  · rintro (same | above)
    · exact .inl same
    · exact .inr ⟨zone.toList, above, String.ofList_toList⟩

lemma zonesAbove_shorter (text : List Char) :
    (zonesAbove text).Pairwise fun zone later => later.length < zone.length := by
  induction text with
  | nil => exact List.Pairwise.nil
  | cons c rest ih =>
    rw [zonesAbove]
    split
    · apply List.Pairwise.cons _ ih
      intro later mem
      obtain ⟨cut, whole⟩ := mem_zonesAbove.mp mem
      rw [whole, List.length_append, List.length_cons]
      omega
    · exact ih

/-- The walk goes from long to short. -/
lemma getZoneList_shorter (name : String) : (getZoneList name).Pairwise fun zone later =>
    later.toList.length < zone.toList.length := by
  apply List.Pairwise.cons
  · intro later mem
    obtain ⟨chars, above, rfl⟩ := List.mem_map.mp mem
    obtain ⟨cut, whole⟩ := mem_zonesAbove.mp above
    rw [whole, String.toList_ofList, List.length_append, List.length_cons]
    omega
  · apply List.pairwise_map.mpr
    simp only [String.toList_ofList]
    exact zonesAbove_shorter name.toList

/-! ### Zones cut at the end of a label -/

/-- A part of the name, not empty and not the root, that starts where a label does. -/
structure WholeLabels (name zone : String) : Prop where
  nonempty : zone ≠ ""
  proper : zone ≠ "."
  cut : ∃ cut, name.toList = cut ++ zone.toList ∧ (cut = [] ∨ DomainName.isFqdn cut = true)

lemma toList_ne {zone : String} {text : List Char} (other : zone ≠ String.ofList text) :
    zone.toList ≠ text := by
  rintro rfl
  exact other String.ofList_toList.symm

lemma encloses_iff_wholeLabels {name zone : String} (part : zone.toList <:+ name.toList)
    (nonempty : zone ≠ "") (proper : zone ≠ ".") : Encloses zone name ↔ WholeLabels name zone := by
  obtain ⟨cut, whole⟩ := part
  have encloses : DomainName.isSubDomain zone.toList (cut ++ zone.toList) = true ↔
      cut = [] ∨ DomainName.isFqdn cut = true :=
    DomainName.isSubDomain_append_iff (toList_ne nonempty) (toList_ne proper)
  rw [Encloses, ← whole, encloses]
  constructor
  · intro ends
    exact ⟨nonempty, proper, cut, whole.symm, ends⟩
  · rintro ⟨_, _, cut', whole', ends⟩
    obtain rfl : cut = cut' := List.append_cancel_right (whole.trans whole')
    exact ends

lemma WholeLabels.listed {name zone : String} (part : WholeLabels name zone) :
    zone ∈ getZoneList name := by
  obtain ⟨cut, whole, rfl | ends⟩ := part.cut
  · exact mem_getZoneList.mpr (.inl (String.toList_injective whole.symm))
  · obtain ⟨front, rfl⟩ := DomainName.eq_snoc_of_endsLabel ends
    rw [List.append_assoc] at whole
    exact mem_getZoneList.mpr (.inr ⟨front, whole⟩)

lemma suffix_of_mem_getZoneList {name zone : String} (listed : zone ∈ getZoneList name) :
    zone.toList <:+ name.toList := by
  rcases mem_getZoneList.mp listed with rfl | ⟨cut, whole⟩
  · exact List.suffix_refl _
  · rw [whole]
    exact (List.suffix_cons '.' zone.toList).trans (List.suffix_append cut _)

/-- The zones of the walk differ in length. -/
lemma eq_of_listed {name zone zone' : String} (listed : zone ∈ getZoneList name)
    (listed' : zone' ∈ getZoneList name) (same : zone.toList.length = zone'.toList.length) :
    zone = zone' := by
  have part := suffix_of_mem_getZoneList listed
  have part' := suffix_of_mem_getZoneList listed'
  have within := List.suffix_of_suffix_length_le part part' (Nat.le_of_eq same)
  exact String.toList_injective (within.eq_of_length same)

/-- A candidate in the spelling of the name is passed on the walk. -/
lemma Candidate.wholeLabels {w : World} {name zone : String} (candidate : Candidate w name zone)
    (full : DomainName.isFqdn name.toList = true) (part : zone.toList <:+ name.toList) :
    WholeLabels name zone := by
  have nonempty : zone ≠ "" := by
    rintro rfl
    have encloses := candidate.encloses
    rw [DomainName.eq_nil_of_isSubDomain_nil encloses] at full
    cases full
  exact (encloses_iff_wholeLabels part nonempty candidate.proper).mp candidate.encloses

/-- Of the zones on the walk the ones before the one that is used have no delegation. -/
lemma cachedDelegation_some {w : World} {name zone : String} {m : Msg}
    (used : cachedDelegation w (getZoneList name) = some (zone, m)) :
    zone ∈ getZoneList name ∧ delegation w zone = some m ∧
      ∀ zone' ∈ getZoneList name, zone.toList.length < zone'.toList.length →
        delegation w zone' = none := by
  rw [cachedDelegation_eq_findSome] at used
  obtain ⟨before, zone₀, after, walk, found, passed⟩ := List.findSome?_eq_some_iff.mp used
  obtain ⟨m₀, cached, same⟩ := Option.map_eq_some_iff.mp found
  cases same
  refine ⟨walk ▸ List.mem_append_right _ List.mem_cons_self, cached, ?_⟩
  intro zone' listed longer
  have shorter := getZoneList_shorter name
  rw [walk] at listed shorter
  rcases List.mem_append.mp listed with first | later
  · exact Option.map_eq_none_iff.mp (passed zone' first)
  · exfalso
    rcases List.mem_cons.mp later with rfl | after'
    · exact Nat.lt_irrefl _ longer
    · have less := (List.pairwise_cons.mp (List.pairwise_append.mp shorter).2.1).1 zone' after'
      omega

lemma cachedDelegation_none {w : World} {name : String}
    (unused : cachedDelegation w (getZoneList name) = none) :
    ∀ zone ∈ getZoneList name, delegation w zone = none := by
  rw [cachedDelegation_eq_findSome, List.findSome?_eq_none_iff] at unused
  intro zone listed
  exact Option.map_eq_none_iff.mp (unused zone listed)

/-! ### When the closest delegation is found -/

/-- More labels make a longer zone. -/
lemma length_lt_of_labelCount {zone zone' name : String} (encloses : Encloses zone name)
    (encloses' : Encloses zone' name) (proper : zone ≠ ".")
    (fewer : labelCount zone < labelCount zone') : zone.toList.length < zone'.toList.length := by
  have lighter := DomainName.weight_lt (f := fun _ => 1) (fun _ => Nat.one_pos) (fun _ => rfl)
    encloses encloses' (toList_ne proper) fewer
  rwa [DomainName.weight_one, DomainName.weight_one] at lighter

lemma getCacheCopy_of_delegation {w : World} {zone : String} {m : Msg}
    (cached : delegation w zone = some m) : getCacheCopy w zone = some m :=
  (Option.filter_eq_some_iff.mp cached).1

/-- The zone that is used is a candidate when it is cut at the end of a label. -/
lemma candidate_of_used {w : World} {name zone : String} {m : Msg}
    (used : cachedDelegation w (getZoneList name) = some (zone, m))
    (whole : WholeLabels name zone) : Candidate w name zone := by
  obtain ⟨listed, cached, _⟩ := cachedDelegation_some used
  refine ⟨whole.proper, ?_, by simp [cached]⟩
  exact (encloses_iff_wholeLabels (suffix_of_mem_getZoneList listed) whole.nonempty
    whole.proper).mpr whole

/-- No candidate in the spelling of the name has more labels than the zone that is used. -/
lemma labelCount_le_of_used {w : World} {name zone zone' : String} {m : Msg}
    (full : DomainName.isFqdn name.toList = true)
    (used : cachedDelegation w (getZoneList name) = some (zone, m))
    (candidate : Candidate w name zone) (candidate' : Candidate w name zone')
    (part : zone'.toList <:+ name.toList) : labelCount zone' ≤ labelCount zone := by
  by_contra more
  obtain ⟨_, _, passed⟩ := cachedDelegation_some used
  have longer := length_lt_of_labelCount candidate.encloses candidate'.encloses candidate.proper
    (Nat.lt_of_not_le more)
  exact candidate'.delegates (passed zone' (candidate'.wholeLabels full part).listed longer)

/-- A cached delegation whose zone is a part of the name, cut where a label starts. -/
structure CachedPart (w : World) (name zone : String) : Prop where
  delegates : delegation w zone ≠ none
  whole : WholeLabels name zone

lemma CachedPart.candidate {w : World} {name zone : String} (part : CachedPart w name zone) :
    Candidate w name zone := by
  obtain ⟨cut, whole, _⟩ := part.whole.cut
  refine ⟨part.whole.proper, ?_, part.delegates⟩
  exact (encloses_iff_wholeLabels ⟨cut, whole.symm⟩ part.whole.nonempty part.whole.proper).mpr
    part.whole

/-- The cached keys that the walk takes for zones of the name are no zones of it: the name is
cut at an escaped dot, or what is left is empty or the root. Each of them is shorter than a
zone of the name that is cached too. -/
def MisleadingShorter (w : World) (name : String) : Prop :=
  ∀ key, delegation w key ≠ none → (key = name ∨ ∃ cut, name.toList = cut ++ '.' :: key.toList) →
    ¬ WholeLabels name key →
    ∃ zone, CachedPart w name zone ∧ key.toList.length < zone.toList.length

/-- The cached zones that enclose the name in another spelling have no more labels than one
that is spelled as in the name. -/
def SpelledDeepest (w : World) (name : String) : Prop :=
  ∀ zone', Candidate w name zone' → ¬ zone'.toList <:+ name.toList →
    ∃ zone, CachedPart w name zone ∧ labelCount zone' ≤ labelCount zone

/-- For every fully qualified question name and every cache, the closest delegation is used
exactly when of the cached keys neither a misleading part of the name is longer than its
cached zones, nor a zone in another spelling is deeper than these. -/
theorem closest_delegation_iff (w : World) (request response : Msg)
    (full : DomainName.isFqdn request.q0.name.toList = true) :
    UsesClosest w request response ↔
      MisleadingShorter w request.q0.name ∧ SpelledDeepest w request.q0.name := by
  rw [UsesClosest, lookupNSCacheHandle]
  cases used : cachedDelegation w (getZoneList request.q0.name) with
  | none =>
    have none_cached := cachedDelegation_none used
    constructor
    · rintro ⟨_, no_candidate⟩
      constructor
      · intro key delegates part _
        exact absurd (none_cached key (mem_getZoneList.mpr part)) delegates
      · intro zone' candidate _
        exact absurd candidate (no_candidate zone')
    · rintro ⟨_, spelled⟩
      refine ⟨rfl, ?_⟩
      intro zone candidate
      by_cases part : zone.toList <:+ request.q0.name.toList
      · exact candidate.delegates (none_cached zone (candidate.wholeLabels full part).listed)
      · obtain ⟨zone', cached, _⟩ := spelled zone candidate part
        exact cached.delegates (none_cached zone' cached.whole.listed)
  | some found =>
    obtain ⟨zone, m⟩ := found
    obtain ⟨listed, cached, passed⟩ := cachedDelegation_some used
    have delegates : delegation w zone ≠ none := by simp [cached]
    constructor
    · rintro ⟨_, _, candidate, deepest⟩
      have here : CachedPart w request.q0.name zone :=
        ⟨delegates, candidate.wholeLabels full (suffix_of_mem_getZoneList listed)⟩
      constructor
      · intro key delegates' part misleading
        refine ⟨zone, here, ?_⟩
        by_contra longer
        have key_listed := mem_getZoneList.mpr part
        rcases Nat.lt_or_eq_of_le (Nat.le_of_not_lt longer) with less | same
        · exact delegates' (passed key key_listed less)
        · have equal : key = zone := eq_of_listed key_listed listed same.symm
          exact misleading (equal ▸ here.whole)
      · intro zone' candidate' _
        exact ⟨zone, here, deepest zone' candidate'⟩
    · rintro ⟨shorter, spelled⟩
      have whole : WholeLabels request.q0.name zone := by
        by_contra misleading
        obtain ⟨zone', cached', longer⟩ :=
          shorter zone delegates (mem_getZoneList.mp listed) misleading
        exact cached'.delegates (passed zone' cached'.whole.listed longer)
      have candidate := candidate_of_used used whole
      refine ⟨rfl, getCacheCopy_of_delegation cached, candidate, ?_⟩
      intro zone' candidate'
      by_cases part : zone'.toList <:+ request.q0.name.toList
      · exact labelCount_le_of_used full used candidate candidate' part
      · obtain ⟨zone₀, cached₀, le⟩ := spelled zone' candidate' part
        obtain ⟨cut, whole₀, _⟩ := cached₀.whole.cut
        have bound := labelCount_le_of_used full used candidate cached₀.candidate
          ⟨cut, whole₀.symm⟩
        exact Nat.le_trans le bound

/-- A cache that holds one delegation. -/
def delegatedWorld (zone : String) : World :=
  setCacheCopy plainLib (World.initial none 1 0) zone
    { ns := [⟨zone, classINET, 300, .ns "ns.test."⟩] } 300

def zoneQuery (name : String) : Msg := { question := [⟨name, typeA, classINET⟩] }

lemma eq_of_delegated {zone zone' : String}
    (delegates : delegation (delegatedWorld zone) zone' ≠ none) : zone' = zone := by
  by_contra other
  obtain ⟨m, cached⟩ := Option.ne_none_iff_exists'.mp delegates
  obtain ⟨it, found, _⟩ := getCacheCopy_eq_some.mp (getCacheCopy_of_delegation cached)
  have absent : (delegatedWorld zone).cache.find zone' = none := by
    change ((empty _ : Store String Msg).set _ _ _ _).find zone' = none
    rw [find_set_of_ne _ other, find_empty]
  rw [absent] at found
  cases found

theorem enclosing_zone_used :
    UsesClosest (delegatedWorld "example.") (zoneQuery "www.example.") {} := by
  refine (closest_delegation_iff (delegatedWorld "example.") (zoneQuery "www.example.") {}
    (by decide)).mpr ⟨?_, ?_⟩
  · intro key delegates _ misleading
    rw [eq_of_delegated delegates] at misleading
    exact absurd ⟨by decide, by decide, "www.".toList, rfl, .inr (by decide)⟩ misleading
  · intro zone candidate other
    rw [eq_of_delegated candidate.delegates] at other
    exact absurd ⟨"www.".toList, rfl⟩ other

/-- What UsesClosest says of the zone that is used, if there is one. -/
lemma UsesClosest.candidate {w : World} {request response : Msg}
    (closest : UsesClosest w request response) {zone : String}
    (used : (cachedDelegation w (getZoneList request.q0.name)).map Prod.fst = some zone) :
    Candidate w request.q0.name zone := by
  obtain ⟨⟨zone₀, m⟩, found, rfl⟩ := Option.map_eq_some_iff.mp used
  rw [UsesClosest, found] at closest
  exact closest.2.2.1

/-- A zone cut at an escaped dot is used though it does not enclose the name, and a
zone that encloses it is missed in another letter case. -/
theorem escaped_dot_and_letter_case :
    (¬ Encloses "b.example." "a\\.b.example." ∧
      ¬ UsesClosest (delegatedWorld "b.example.") (zoneQuery "a\\.b.example.") {}) ∧
    Candidate (delegatedWorld "EXAMPLE.") "www.example." "EXAMPLE." ∧
      ¬ UsesClosest (delegatedWorld "EXAMPLE.") (zoneQuery "www.example.") {} := by
  have outside : ¬ Encloses "b.example." "a\\.b.example." := by decide
  have candidate : Candidate (delegatedWorld "EXAMPLE.") "www.example." "EXAMPLE." :=
    ⟨by decide, by decide, by decide +kernel⟩
  refine ⟨⟨outside, ?_⟩, candidate, ?_⟩
  · intro closest
    have used : Candidate (delegatedWorld "b.example.") "a\\.b.example." "b.example." :=
      closest.candidate (by decide +kernel)
    exact outside used.encloses
  · intro closest
    have unused : cachedDelegation (delegatedWorld "EXAMPLE.")
        (getZoneList (zoneQuery "www.example.").q0.name) = none := by
      decide +kernel
    rw [UsesClosest, unused] at closest
    exact closest.2 "EXAMPLE." candidate

end ZoneWalk
