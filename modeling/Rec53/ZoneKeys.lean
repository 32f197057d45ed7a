import Rec53.ForwardChoice
import Rec53.HostsTable
import Rec53.HotZone

/-!
# The keys of the occupancy nest

The coarse key of a request and the child below it, from `server/hot_zone_protection.go`.
The keys are put together from the texts of labels, while zones enclose a name by labels
without regard to case; the suffixes are put in order by the length of their text. For a name
that ends with a dot and has no empty label the last labels of its text are the labels of the
zone they make up, so cutting and joining keeps to the zones around the name.
-/

namespace ZoneKeys

open Platform HotZone SliceSort ZoneWalk ForwardChoice DomainName HostsTable

/-- `server/tld_config.go`. -/
def defaultCuratedTLDs : List String :=
  ["com", "cn", "de", "net", "org", "uk", "ru", "nl",
    "br", "xyz", "info", "top", "it", "fr", "au", "in",
    "us", "pl", "ir", "eu", "es", "ca", "io", "ai",
    "me", "site", "shop", "online", "biz", "app"]

/-- The order of the suffixes: from long to short, and by the text among equals. -/
def SuffixBefore (a b : String) : Prop :=
  if byteLength a = byteLength b then a ≤ b else byteLength b < byteLength a

/-- A suffix that was not seen is put at the end. -/
def addSuffix (suffixes : List String) (suffix : String) : List String :=
  if suffix ∈ suffixes then suffixes else suffixes ++ [suffix]

def normalizeHotZoneBaseSuffixes (lib : ZoneLib) (sorter : Sorter String SuffixBefore)
    (extra : List String) : List String :=
  let suffixes := defaultCuratedTLDs.foldl
    (fun suffixes value => addSuffix suffixes (lib.fqdn value)) []
  let suffixes := extra.foldl
    (fun suffixes value =>
      let suffix := lib.fqdn (trimSpace value)
      if suffix = "." then suffixes else addSuffix suffixes suffix) suffixes
  sorter.sort suffixes

/-- `SplitDomainName` beside the rules for names. -/
structure ZoneRules (lib : ZoneLib) : Prop extends NameRules lib.toLib where
  splitDomainName : ∀ name, lib.splitDomainName name =
    (labelTexts name.toList).map String.ofList

/-! ### Suffixes -/

/-- The built-in and the configured suffixes as they are written. -/
def configuredSuffixes (lib : ZoneLib) (extra : List String) : List String :=
  defaultCuratedTLDs.map lib.fqdn ++ extra.map fun value => lib.fqdn (trimSpace value)

lemma mem_addSuffix {suffixes : List String} {suffix s : String} :
    s ∈ addSuffix suffixes suffix ↔ s ∈ suffixes ∨ s = suffix := by
  rw [addSuffix]
  split
  · rename_i seen
    exact ⟨.inl, fun either => either.elim id fun same => same ▸ seen⟩
  · rw [List.mem_append, List.mem_singleton]

lemma mem_addSuffixes {lib : ZoneLib} {values suffixes : List String} {s : String} :
    s ∈ values.foldl (fun suffixes value => addSuffix suffixes (lib.fqdn value)) suffixes ↔
      s ∈ suffixes ∨ s ∈ values.map lib.fqdn := by
  induction values generalizing suffixes with
  | nil => simp
  | cons value rest ih =>
    rw [List.foldl_cons, ih, mem_addSuffix, List.map_cons, List.mem_cons, or_assoc]

lemma mem_addExtra {lib : ZoneLib} {extra suffixes : List String} {s : String} :
    s ∈ extra.foldl (fun suffixes value =>
        let suffix := lib.fqdn (trimSpace value)
        if suffix = "." then suffixes else addSuffix suffixes suffix) suffixes ↔
      s ∈ suffixes ∨ s ≠ "." ∧ s ∈ extra.map fun value => lib.fqdn (trimSpace value) := by
  induction extra generalizing suffixes with
  | nil => simp
  | cons value rest ih =>
    rw [List.foldl_cons, ih, List.map_cons, List.mem_cons]
    dsimp only
    split
    · rename_i root
      rw [root]
      tauto
    · rename_i proper
      rw [mem_addSuffix]
      have same : s = lib.fqdn (trimSpace value) → s ≠ "." := fun is => is ▸ proper
      tauto

section Suffixes

variable {lib : ZoneLib} (rules : ZoneRules lib) {sorter : Sorter String SuffixBefore}
  {extra : List String}

lemma mem_normalize {s : String} : s ∈ normalizeHotZoneBaseSuffixes lib sorter extra ↔
    s ∈ defaultCuratedTLDs.map lib.fqdn ∨
      s ≠ "." ∧ s ∈ extra.map fun value => lib.fqdn (trimSpace value) := by
  rw [normalizeHotZoneBaseSuffixes, sorter.mem_sort, mem_addExtra, mem_addSuffixes]
  simp only [List.not_mem_nil, false_or]

lemma mem_configured_of_normalize {s : String}
    (listed : s ∈ normalizeHotZoneBaseSuffixes lib sorter extra) :
    s ∈ configuredSuffixes lib extra := by
  rcases mem_normalize.mp listed with builtIn | ⟨_, added⟩
  · exact List.mem_append_left _ builtIn
  · exact List.mem_append_right _ added

/-- Only the root is left out. -/
lemma mem_normalize_of_configured {s : String} (configured : s ∈ configuredSuffixes lib extra)
    (proper : s ≠ ".") : s ∈ normalizeHotZoneBaseSuffixes lib sorter extra := by
  rcases List.mem_append.mp configured with builtIn | added
  · exact mem_normalize.mpr (.inl builtIn)
  · exact mem_normalize.mpr (.inr ⟨proper, added⟩)

include rules in
lemma ended_of_configured {s : String} (configured : s ∈ configuredSuffixes lib extra) :
    ∃ front, s.toList = front ++ ['.'] := by
  rcases List.mem_append.mp configured with builtIn | added
  · obtain ⟨value, _, rfl⟩ := List.mem_map.mp builtIn
    exact toList_fqdn_eq_snoc rules.toNameRules value
  · obtain ⟨value, _, rfl⟩ := List.mem_map.mp added
    exact toList_fqdn_eq_snoc rules.toNameRules (trimSpace value)

lemma normalize_sorted : (normalizeHotZoneBaseSuffixes lib sorter extra).Pairwise
    fun a b => byteLength b ≤ byteLength a := by
  refine (sorter.sorted _).imp ?_
  intro a b before
  rw [SuffixBefore] at before
  split at before
  · rename_i same
    exact Nat.le_of_eq same.symm
  · exact Nat.le_of_lt before

/-- What the search for a suffix finds. -/
structure DeepestSuffix (lib : ZoneLib) (extra : List String) (qname suffix : String) : Prop where
  configured : suffix ∈ configuredSuffixes lib extra
  encloses : Encloses suffix qname
  deepest : ∀ s ∈ configuredSuffixes lib extra, Encloses s qname → labelCount s ≤ labelCount suffix

include rules in
lemma matchedBaseSuffix_deepest {qname : String}
    (found : hotZoneMatchedBaseSuffix lib qname
      (normalizeHotZoneBaseSuffixes lib sorter extra) ≠ "") :
    DeepestSuffix lib extra qname
      (hotZoneMatchedBaseSuffix lib qname (normalizeHotZoneBaseSuffixes lib sorter extra)) := by
  rw [hotZoneMatchedBaseSuffix] at found ⊢
  cases first : (normalizeHotZoneBaseSuffixes lib sorter extra).find? fun suffix =>
      lib.isSubDomain suffix qname with
  | none =>
    rw [first] at found
    exact absurd rfl found
  | some suffix =>
    have here := List.find?_some first
    have configured := mem_configured_of_normalize (List.mem_of_find?_eq_some first)
    refine ⟨configured, (isSubDomain_iff_encloses rules.toNameRules).mp here, ?_⟩
    intro s listed around
    by_cases root : s = "."
    · rw [root]
      exact Nat.zero_le _
    · have normalized : s ∈ normalizeHotZoneBaseSuffixes lib sorter extra :=
        mem_normalize_of_configured listed root
      exact labelCount_le_of_find id normalize_sorted
        (fun s listed => ended_of_configured rules (mem_configured_of_normalize listed))
        (fun s => isSubDomain_iff_encloses rules.toNameRules) first normalized around

include rules in
lemma matchedBaseSuffix_empty {qname : String}
    (none_found : hotZoneMatchedBaseSuffix lib qname
      (normalizeHotZoneBaseSuffixes lib sorter extra) = "") :
    ∀ s ∈ configuredSuffixes lib extra, Encloses s qname → s = "." := by
  intro s listed around
  by_contra proper
  have normalized : s ∈ normalizeHotZoneBaseSuffixes lib sorter extra :=
    mem_normalize_of_configured listed proper
  rw [hotZoneMatchedBaseSuffix] at none_found
  cases first : (normalizeHotZoneBaseSuffixes lib sorter extra).find? fun suffix =>
      lib.isSubDomain suffix qname with
  | none =>
    have outside := List.find?_eq_none.mp first s normalized
    exact outside ((isSubDomain_iff_encloses rules.toNameRules).mpr around)
  | some suffix =>
    rw [first, Option.getD_some] at none_found
    have configured := mem_configured_of_normalize (List.mem_of_find?_eq_some first)
    obtain ⟨front, text⟩ := ended_of_configured rules configured
    rw [none_found] at text
    simp at text

end Suffixes

/-! ### Labels cut off and joined -/

/-- Joining the texts of labels puts back the dots that end them. -/
lemma joinLabels_dropLast {labels : List (List Char)} (some_label : labels ≠ [])
    (ended : ∀ label ∈ labels, ∃ front, label = front ++ ['.']) :
    joinLabels ((labels.map List.dropLast).map String.ofList) = String.ofList labels.flatten := by
  induction labels with
  | nil => exact absurd rfl some_label
  | cons label rest ih =>
    obtain ⟨front, rfl⟩ := ended label List.mem_cons_self
    cases rest with
    | nil => simp [joinLabels, String.ofList_append]
    | cons next rest =>
      have later := ih (List.cons_ne_nil _ _) fun l mem => ended l (List.mem_cons_of_mem _ mem)
      rw [joinLabels] at later ⊢
      have first : String.ofList (front ++ ['.']).dropLast ++ "." =
          String.ofList (front ++ ['.']) := by
        rw [List.dropLast_concat, String.ofList_append]
      simp only [List.map_cons] at later ⊢
      rw [String.intercalate_cons_cons, String.append_assoc, later, first, ← String.ofList_append]
      rfl

section Keys

variable {lib : ZoneLib} (rules : ZoneRules lib) {qname : String}
  (absolute : Absolute qname.toList)

include rules in
lemma length_splitDomainName {name : String} (nonempty : name ≠ "") :
    (lib.splitDomainName name).length = labelCount name := by
  have text : name.toList ≠ [] := fun empty => nonempty (String.toList_eq_nil_iff.mp empty)
  rw [rules.splitDomainName, List.length_map, length_labelTexts text, labelCount]

include absolute in
lemma ne_empty_of_absolute : qname ≠ "" := by
  rintro rfl
  exact absurd absolute.ended (by decide)

include rules absolute in
/-- The last labels, cut off and joined, are a zone of as many labels around the name. -/
lemma joinLabels_last {k : Nat} (some_label : 0 < k) (enough : k ≤ labelCount qname) :
    joinLabels ((lib.splitDomainName qname).drop ((lib.splitDomainName qname).length - k)) =
      String.ofList (lastLabels k qname.toList) := by
  have nonempty := ne_empty_of_absolute absolute
  have text : qname.toList ≠ [] := fun empty => nonempty (String.toList_eq_nil_iff.mp empty)
  have proper : qname.toList ≠ ['.'] := by
    intro root
    rw [labelCount, labels_eq_nil_iff.mpr root, List.length_nil] at enough
    omega
  rw [length_splitDomainName rules nonempty, rules.splitDomainName, labelTexts, if_neg text,
    if_pos absolute.ended, ← List.map_drop, ← List.map_drop, joinLabels_dropLast]
  · rfl
  · apply List.ne_nil_of_length_pos
    rw [List.length_drop]
    rw [labelCount] at enough ⊢
    omega
  · intro label mem
    have listed := (List.drop_suffix _ _).subset mem
    rw [labels, if_neg proper] at listed
    exact exists_snoc_of_mem_split absolute.ended listed

/-- A zone around the name with the given number of labels. -/
structure ZoneOf (qname : String) (k : Nat) (zone : String) : Prop where
  encloses : Encloses zone qname
  labels : labelCount zone = k

include absolute in
lemma zoneOf_lastLabels {k : Nat} (some_label : 0 < k) (enough : k ≤ labelCount qname) :
    ZoneOf qname k (String.ofList (lastLabels k qname.toList)) := by
  constructor
  · rw [Encloses, String.toList_ofList]
    exact isSubDomain_lastLabels absolute some_label enough
  · rw [labelCount, String.toList_ofList]
    exact length_labels_lastLabels absolute some_label enough

include rules in
lemma fqdn_eq_self {name : String} (ended : isFqdn name.toList = true) : lib.fqdn name = name := by
  rw [rules.fqdn, fqdn_of_isFqdn ended, String.ofList_toList]

include rules absolute in
lemma fqdn_eq_self_of_encloses {zone : String} (encloses : Encloses zone qname) :
    lib.fqdn zone = zone :=
  fqdn_eq_self rules (isFqdn_of_isSubDomain encloses absolute.ended)

include absolute in
lemma ne_empty_of_encloses {zone : String} (encloses : Encloses zone qname) : zone ≠ "" := by
  rintro rfl
  have empty := eq_nil_of_isSubDomain_nil encloses
  exact ne_empty_of_absolute absolute (String.toList_eq_nil_iff.mp empty)

include rules absolute in
lemma businessRoot_encloses {suffix : String} (encloses : Encloses suffix qname) :
    Encloses (hotZoneBusinessRootAboveSuffix lib qname suffix) qname := by
  have lengths := length_splitDomainName rules (ne_empty_of_absolute absolute)
  have lengths' := length_splitDomainName rules (ne_empty_of_encloses absolute encloses)
  rw [hotZoneBusinessRootAboveSuffix]
  split
  · rw [fqdn_eq_self_of_encloses rules absolute encloses]
    exact encloses
  · rw [Nat.sub_sub, joinLabels_last rules absolute (by omega) (by omega)]
    exact (zoneOf_lastLabels absolute (by omega) (by omega)).encloses

include rules absolute in
lemma fallbackLevel3_encloses : Encloses (hotZoneFallbackLevel3 lib qname) qname := by
  have lengths := length_splitDomainName rules (ne_empty_of_absolute absolute)
  rw [hotZoneFallbackLevel3]
  split
  · rw [fqdn_eq_self rules absolute.ended]
    exact isSubDomain_refl _
  · rw [joinLabels_last rules absolute (by omega) (by omega)]
    exact (zoneOf_lastLabels absolute (by omega) (by omega)).encloses

/-- The child of a key: none for the name itself, and otherwise the zone one label below. -/
structure NestedChild (qname key child : String) : Prop where
  empty_iff : child = "" ↔ lower qname.toList = lower key.toList
  below : child ≠ "" → ZoneOf qname (labelCount key + 1) child ∧ Encloses key child

lemma lower_eq_iff_labelCount {key : String} (encloses : Encloses key qname) :
    lower qname.toList = lower key.toList ↔ labelCount qname ≤ labelCount key := by
  rw [← map_lower_labels_eq_iff]
  constructor
  · intro same
    have lengths := congrArg List.length same
    rw [List.length_map, List.length_map] at lengths
    exact Nat.le_of_eq lengths
  · intro long
    have within := isSubDomain_iff.mp encloses
    refine (within.eq_of_length_le ?_).symm
    rw [List.length_map, List.length_map]
    exact long

include rules absolute in
lemma directChild_nested {key : String} (encloses : Encloses key qname) :
    NestedChild qname key (hotZoneDirectChild lib qname key) := by
  have lengths := length_splitDomainName rules (ne_empty_of_absolute absolute)
  have lengths' := length_splitDomainName rules (ne_empty_of_encloses absolute encloses)
  have same := lower_eq_iff_labelCount encloses
  by_cases long : labelCount qname ≤ labelCount key
  · have none_below : hotZoneDirectChild lib qname key = "" := by
      rw [hotZoneDirectChild, fqdn_eq_self rules absolute.ended,
        fqdn_eq_self_of_encloses rules absolute encloses]
      dsimp only
      rw [lengths, lengths', if_pos long, ite_self]
    rw [none_below]
    exact ⟨⟨fun _ => same.mpr long, fun _ => rfl⟩, fun named => absurd rfl named⟩
  · have other : ¬ (qname = key ∨ lib.isSubDomain key qname = false) := by
      rintro (rfl | outside)
      · exact long (Nat.le_refl _)
      · rw [(isSubDomain_iff_encloses rules.toNameRules).mpr encloses] at outside
        cases outside
    have child_is : hotZoneDirectChild lib qname key =
        String.ofList (lastLabels (labelCount key + 1) qname.toList) := by
      rw [hotZoneDirectChild, fqdn_eq_self rules absolute.ended,
        fqdn_eq_self_of_encloses rules absolute encloses, if_neg other]
      dsimp only
      rw [lengths, lengths', if_neg long, Nat.sub_sub, ← lengths,
        joinLabels_last rules absolute (Nat.succ_pos _) (by omega)]
    have zone := zoneOf_lastLabels (k := labelCount key + 1) absolute (Nat.succ_pos _) (by omega)
    have around : Encloses key (String.ofList (lastLabels (labelCount key + 1) qname.toList)) := by
      rw [Encloses, String.toList_ofList]
      exact isSubDomain_of_lastLabels absolute (Nat.succ_pos _) (Nat.lt_of_not_le long) encloses
        (Nat.le_succ _)
    have named := ne_empty_of_encloses absolute zone.encloses
    rw [child_is]
    exact ⟨⟨fun empty => absurd empty named, fun equal => absurd (same.mp equal) long⟩,
      fun _ => ⟨zone, around⟩⟩

/-- For every query name, operator suffixes and matched zone: the suffix that is found has the
most labels of those around the name, and none is found only if none but the root is around
it; the coarse key is a zone around the name; and the child of any key around the name, such as
that one, is empty exactly for the name itself, and otherwise a zone around the name and inside
the key with one label more than the key. -/
theorem occupancy_keys_nest {lib : ZoneLib} (rules : ZoneRules lib)
    (sorter : Sorter String SuffixBefore) (extra : List String) (name : String)
    (absolute : Absolute (lib.fqdn name).toList) (matchedForwardZone : String)
    (around : matchedForwardZone ≠ "" → Encloses (lib.fqdn matchedForwardZone) (lib.fqdn name)) :
    let qname := lib.fqdn name
    let suffixes := normalizeHotZoneBaseSuffixes lib sorter extra
    let suffix := hotZoneMatchedBaseSuffix lib qname suffixes
    (suffix ≠ "" → DeepestSuffix lib extra qname suffix) ∧
      (suffix = "" → ∀ s ∈ configuredSuffixes lib extra, Encloses s qname → s = ".") ∧
      Encloses (hotZoneCoarseKey lib name matchedForwardZone suffixes) qname ∧
      ∀ key, Encloses key qname → NestedChild qname key (hotZoneDirectChild lib name key) := by
  intro qname suffixes suffix
  have whole : lib.fqdn qname = qname := fqdn_eq_self rules absolute.ended
  refine ⟨matchedBaseSuffix_deepest rules, matchedBaseSuffix_empty rules, ?_, ?_⟩
  · rw [hotZoneCoarseKey]
    split
    · rename_i matched
      exact around matched
    dsimp only
    split
    · rename_i found
      exact businessRoot_encloses rules absolute (matchedBaseSuffix_deepest rules found).encloses
    · exact fallbackLevel3_encloses rules absolute
  · intro key encloses
    have nested := directChild_nested rules absolute encloses
    have same : hotZoneDirectChild lib qname key = hotZoneDirectChild lib name key := by
      rw [hotZoneDirectChild, hotZoneDirectChild, whole]
    rw [← same]
    exact nested

end Keys

instance : DecidableRel SuffixBefore := fun a b =>
  inferInstanceAs (Decidable (if byteLength a = byteLength b then a ≤ b else _))

instance : Std.Total SuffixBefore where
  total a b := by
    rw [SuffixBefore, SuffixBefore]
    by_cases same : byteLength a = byteLength b
    · rw [if_pos same, if_pos same.symm]
      exact String.le_total a b
    · rw [if_neg same, if_neg (Ne.symm same)]
      omega

instance : IsTrans String SuffixBefore where
  trans a b c := by
    simp only [SuffixBefore]
    intro first next
    by_cases same : byteLength a = byteLength b
    · rw [if_pos same] at first
      rw [same]
      split
      · rename_i same'
        rw [if_pos same'] at next
        exact String.le_trans first next
      · rename_i other
        rwa [if_neg other] at next
    · rw [if_neg same] at first
      have longer : byteLength c < byteLength a := by
        split at next
        · omega
        · omega
      rw [if_neg (by omega)]
      exact longer

/-- A library that follows the rules. -/
def namesZoneLib : ZoneLib := { plainZoneLib with toLib := namesLib }

lemma namesZoneLib_rules : ZoneRules namesZoneLib where
  isSubDomain _ _ := rfl
  fqdn _ := rfl
  splitDomainName _ := rfl

/-- A shop below a suffix of two labels, of which the built-in list has the second one. -/
theorem shop_keys_nest :
    let suffixes := normalizeHotZoneBaseSuffixes namesZoneLib (.insertion SuffixBefore)
      [" co.uk ", "."]
    hotZoneCoarseKey namesZoneLib "a.www.Shop.co.uk" "" suffixes = "Shop.co.uk." ∧
      Encloses "Shop.co.uk." "a.www.Shop.co.uk." ∧
      NestedChild "a.www.Shop.co.uk." "shop.co.uk." "www.Shop.co.uk." := by
  intro suffixes
  have absolute : Absolute (namesZoneLib.fqdn "a.www.Shop.co.uk").toList :=
    ⟨by decide +kernel, by decide +kernel⟩
  have key : hotZoneCoarseKey namesZoneLib "a.www.Shop.co.uk" "" suffixes = "Shop.co.uk." := by
    decide +kernel
  have child : hotZoneDirectChild namesZoneLib "a.www.Shop.co.uk" "shop.co.uk." =
      "www.Shop.co.uk." := by
    decide +kernel
  have qname : namesZoneLib.fqdn "a.www.Shop.co.uk" = "a.www.Shop.co.uk." := by decide +kernel
  obtain ⟨-, -, encloses, nested⟩ := occupancy_keys_nest namesZoneLib_rules
    (.insertion SuffixBefore) [" co.uk ", "."] "a.www.Shop.co.uk" absolute "" (absurd rfl)
  rw [qname] at encloses nested
  rw [key] at encloses
  refine ⟨key, encloses, ?_⟩
  rw [← child]
  exact nested "shop.co.uk." (by decide +kernel)

end ZoneKeys
