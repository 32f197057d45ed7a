import Rec53.StateMachine

/-!
# The hosts table

`validateHostsConfig` of `cmd/rec53.go`, and HOSTS_LOOKUP over a compiled hosts list
compared with a scan of the configuration. `compileHostsEntries` keeps the records in
a map under formatted keys and the names in a set; `Compiled` says what the two hold
after any part of the list. The lookup never asks the map for the CNAME records of a
name, so an alias is only answered to a question for the CNAME itself.
-/

namespace HostsTable

open DnsMessage Platform DnsCache LocalConfig StateHandlers

/-! ### Validation -/

/-- What `ParseIP` and `To4` tell about an address. -/
inductive IPFamily where
  | v4
  | v6
  deriving DecidableEq

/-- The library functions of the validation; `quote` is the verb `%q`. -/
structure TextLib where
  parseIP : String → Option IPFamily
  quote : String → String

def isSpace (c : Char) : Bool :=
  (9 ≤ c.toNat && c.toNat ≤ 13) || c.toNat = 32 || c.toNat = 0x85 || c.toNat = 0xA0 ||
    c.toNat = 0x1680 || (0x2000 ≤ c.toNat && c.toNat ≤ 0x200A) || c.toNat = 0x2028 ||
    c.toNat = 0x2029 || c.toNat = 0x202F || c.toNat = 0x205F || c.toNat = 0x3000

def trimSpace (s : String) : String :=
  String.ofList ((s.toList.dropWhile isSpace).reverse.dropWhile isSpace).reverse

/-- One round of the loop of `validateHostsConfig`. -/
def validateHostEntry (text : TextLib) (i : Nat) (h : HostEntry) : Except String Unit :=
  let place := "hosts[" ++ toString i ++ "]"
  let entry := place ++ " (" ++ h.name ++ "): "
  if trimSpace h.name = "" then .error (place ++ ": name must not be empty")
  else if trimSpace h.value = "" then .error (entry ++ "value must not be empty")
  else if toUpper h.type = "A" then
    if text.parseIP h.value = some .v4 then .ok ()
    else .error (entry ++ "invalid IPv4 address " ++ text.quote h.value ++ " for A record")
  else if toUpper h.type = "AAAA" then
    if text.parseIP h.value = some .v6 then .ok ()
    else .error (entry ++ "invalid IPv6 address " ++ text.quote h.value ++ " for AAAA record")
  else if toUpper h.type = "CNAME" then .ok ()
  else .error (entry ++ "unsupported record type " ++ text.quote h.type ++
    " (supported: A, AAAA, CNAME)")

def validateFrom (text : TextLib) : Nat → List HostEntry → Except String Unit
  | _, [] => .ok ()
  | i, h :: rest =>
    match validateHostEntry text i h with
    | .error err => .error err
    | .ok () => validateFrom text (i + 1) rest

def validateHostsConfig (text : TextLib) (hosts : List HostEntry) : Except String Unit :=
  validateFrom text 0 hosts

lemma validateHostEntry_supported {text : TextLib} {i : Nat} {h : HostEntry}
    (accepted : validateHostEntry text i h = .ok ()) : h.Supported := by
  by_contra unsupported
  simp only [HostEntry.Supported, not_or] at unsupported
  obtain ⟨not_a, not_aaaa, not_cname⟩ := unsupported
  simp only [validateHostEntry, if_neg not_a, if_neg not_aaaa, if_neg not_cname] at accepted
  by_cases unnamed : trimSpace h.name = ""
  · rw [if_pos unnamed] at accepted
    cases accepted
  · rw [if_neg unnamed] at accepted
    by_cases empty : trimSpace h.value = ""
    · rw [if_pos empty] at accepted
      cases accepted
    · rw [if_neg empty] at accepted
      cases accepted

/-- The list is accepted as a whole or turned down with the text about an entry. -/
lemma validateFrom_ok_iff {text : TextLib} {i : Nat} {hosts : List HostEntry} :
    validateFrom text i hosts = .ok () ↔
      ∀ k h, hosts[k]? = some h → validateHostEntry text (i + k) h = .ok () := by
  induction hosts generalizing i with
  | nil => simp [validateFrom]
  | cons first rest ih =>
    rw [validateFrom]
    constructor
    · intro accepted k h at_index
      cases head : validateHostEntry text i first with
      | error err =>
        rw [head] at accepted
        cases accepted
      | ok _ =>
        rw [head] at accepted
        cases k with
        | zero =>
          cases at_index
          exact head
        | succ k =>
          have valid := ih.mp accepted k h at_index
          rwa [Nat.add_right_comm] at valid
    · intro valid
      have head := valid 0 first rfl
      rw [Nat.add_zero] at head
      rw [head]
      apply ih.mpr
      intro k h at_index
      have tail := valid (k + 1) h at_index
      rwa [← Nat.add_assoc, Nat.add_right_comm] at tail

theorem supported_of_validated {text : TextLib} {hosts : List HostEntry}
    (validated : validateHostsConfig text hosts = .ok ()) : ∀ h ∈ hosts, h.Supported := by
  intro h mem
  obtain ⟨k, at_index⟩ := List.mem_iff_getElem?.mp mem
  exact validateHostEntry_supported (validateFrom_ok_iff.mp validated k h at_index)

/-! ### The configuration as a table -/

/-- The record an entry stands for, with the default TTL where none is set. -/
def recordOf (lib : Lib) (h : HostEntry) : Option RR :=
  ([("A", .a (lib.ipText h.value)), ("AAAA", .aaaa (lib.ipText h.value)),
    ("CNAME", .cname (lib.fqdn h.value))].lookup (toUpper h.type)).map fun data =>
      ⟨lib.fqdn h.name, classINET, if h.ttl = 0 then 60 else h.ttl, data⟩

/-- The records that are configured for a name and a type, in configuration order. -/
def configured (lib : Lib) (hosts : List HostEntry) (name : String) (qtype : Nat) : List RR :=
  hosts.filterMap fun h => (recordOf lib h).filter fun rr => rr.name = name ∧ rr.rrtype = qtype

def Appears (lib : Lib) (hosts : List HostEntry) (name : String) : Prop :=
  ∃ h ∈ hosts, lib.fqdn h.name = name

instance (lib : Lib) (hosts : List HostEntry) (name : String) :
    Decidable (Appears lib hosts name) :=
  inferInstanceAs (Decidable (∃ h ∈ hosts, lib.fqdn h.name = name))

/-- What the table says about a question: the records of its type, else the aliases of
the name, else that there is no data, or nothing when the name does not appear. -/
def tableLookup (lib : Lib) (hosts : List HostEntry) (name : String) (qtype : Nat) :
    Option (List RR) :=
  if configured lib hosts name qtype ≠ [] then some (configured lib hosts name qtype)
  else if configured lib hosts name typeCNAME ≠ [] then
    some (configured lib hosts name typeCNAME)
  else if Appears lib hosts name then some []
  else none

/-- The same without the aliases. -/
def typedLookup (lib : Lib) (hosts : List HostEntry) (name : String) (qtype : Nat) :
    Option (List RR) :=
  if configured lib hosts name qtype ≠ [] then some (configured lib hosts name qtype)
  else if Appears lib hosts name then some []
  else none

/-- An authoritative answer with these records, or a miss. -/
def answered (response : Msg) : Option (List RR) → HostsRet × Msg
  | some rrs =>
    (.hit, { response with answer := rrs, authoritative := true, rcode := rcodeSuccess })
  | none => (.miss, response)

/-! ### The compiled list -/

lemma buildHostRR_eq_recordOf (lib : Lib) (h : HostEntry) :
    buildHostRR lib (lib.fqdn h.name) h.type h.value
      (if h.ttl = 0 then defaultHostsTTL else h.ttl) = recordOf lib h := by
  rw [buildHostRR, recordOf]
  by_cases is_a : toUpper h.type = "A"
  · rw [if_pos is_a, is_a]
    rfl
  by_cases is_aaaa : toUpper h.type = "AAAA"
  · rw [if_neg is_a, if_pos is_aaaa, is_aaaa]
    rfl
  by_cases is_cname : toUpper h.type = "CNAME"
  · rw [if_neg is_a, if_neg is_aaaa, if_pos is_cname, is_cname]
    rfl
  · rw [if_neg is_a, if_neg is_aaaa, if_neg is_cname]
    simp [List.lookup_cons, beq_false_of_ne is_a, beq_false_of_ne is_aaaa, beq_false_of_ne is_cname]

/-- What map and names hold after the given entries. -/
structure Compiled (lib : Lib) (hosts : List HostEntry) (acc : HostsMap × List String) :
    Prop where
  records : ∀ name qtype, ((acc.1.lookup (getCacheKey name qtype)).map Msg.answer).getD [] =
    configured lib hosts name qtype
  present : ∀ key msg, acc.1.lookup key = some msg → msg.answer ≠ []
  names : ∀ name, name ∈ acc.2 ↔ Appears lib hosts name

lemma compiled_empty (lib : Lib) : Compiled lib [] (∅, []) where
  records _ _ := rfl
  present _ _ found := by simp at found
  names _ := by simp [Appears]

lemma appears_snoc {lib : Lib} {hosts : List HostEntry} {h : HostEntry} {name : String} :
    Appears lib (hosts ++ [h]) name ↔ name = lib.fqdn h.name ∨ Appears lib hosts name := by
  simp only [Appears, List.mem_append, List.mem_singleton]
  constructor
  · rintro ⟨h', earlier | rfl, rfl⟩
    · exact .inr ⟨h', earlier, rfl⟩
    · exact .inl rfl
  · rintro (rfl | ⟨h', earlier, rfl⟩)
    · exact ⟨h, .inr rfl, rfl⟩
    · exact ⟨h', .inl earlier, rfl⟩

lemma configured_snoc (lib : Lib) (hosts : List HostEntry) {h : HostEntry} {rr : RR}
    (record : recordOf lib h = some rr) (name : String) (qtype : Nat) :
    configured lib (hosts ++ [h]) name qtype = configured lib hosts name qtype ++
      if rr.name = name ∧ rr.rrtype = qtype then [rr] else [] := by
  rw [configured, List.filterMap_append, configured]
  congr 1
  rw [List.filterMap_cons, record, Option.filter_some]
  by_cases asked : rr.name = name ∧ rr.rrtype = qtype
  · rw [if_pos asked, if_pos (decide_eq_true asked)]
    rfl
  · rw [if_neg asked, if_neg (by simpa using asked)]
    rfl

lemma recordOf_name {lib : Lib} {h : HostEntry} {rr : RR} (record : recordOf lib h = some rr) :
    rr.name = lib.fqdn h.name := by
  obtain ⟨_, _, rfl⟩ := Option.map_eq_some_iff.mp record
  rfl

/-- An entry adds its record at the end of what its key has. -/
lemma compileHostEntry_insert {lib : Lib} (acc : HostsMap × List String) {h : HostEntry} {rr : RR}
    (record : recordOf lib h = some rr) :
    ∃ msg, compileHostEntry lib acc h =
        (acc.1.insert (getCacheKey rr.name rr.rrtype) msg, rr.name :: acc.2) ∧
      msg.answer = ((acc.1.lookup (getCacheKey rr.name rr.rrtype)).map Msg.answer).getD [] ++
        [rr] := by
  rw [recordOf_name record]
  simp only [compileHostEntry, buildHostRR_eq_recordOf, record]
  cases acc.1.lookup (getCacheKey (lib.fqdn h.name) rr.rrtype) with
  | none => exact ⟨_, rfl, rfl⟩
  | some existing => exact ⟨_, rfl, rfl⟩

/-- One more entry of a supported type. -/
lemma compileHostEntry_compiled {lib : Lib} {hosts : List HostEntry} {acc : HostsMap × List String}
    (compiled : Compiled lib hosts acc) {h : HostEntry} (supported : h.Supported) :
    Compiled lib (hosts ++ [h]) (compileHostEntry lib acc h) := by
  obtain ⟨rr, record⟩ := buildHostRR_supported lib (lib.fqdn h.name) h
    (if h.ttl = 0 then defaultHostsTTL else h.ttl) supported
  rw [buildHostRR_eq_recordOf] at record
  obtain ⟨msg, inserted, answers⟩ := compileHostEntry_insert acc record
  rw [inserted]
  refine ⟨?records, ?present, ?names⟩
  case records =>
    intro name qtype
    rw [configured_snoc lib hosts record]
    by_cases asked : rr.name = name ∧ rr.rrtype = qtype
    · obtain ⟨rfl, rfl⟩ := asked
      rw [AList.lookup_insert, if_pos ⟨rfl, rfl⟩, ← compiled.records]
      exact answers
    · have other : getCacheKey name qtype ≠ getCacheKey rr.name rr.rrtype := by
        intro same
        obtain ⟨rfl, rfl⟩ := getCacheKey_inj same
        exact asked ⟨rfl, rfl⟩
      rw [AList.lookup_insert_ne other, if_neg asked, List.append_nil]
      exact compiled.records name qtype
  case present =>
    intro key msg' found
    by_cases same : key = getCacheKey rr.name rr.rrtype
    · rw [same, AList.lookup_insert] at found
      cases found
      rw [answers]
      exact List.concat_ne_nil rr _
    · rw [AList.lookup_insert_ne same] at found
      exact compiled.present key msg' found
  case names =>
    intro name
    rw [List.mem_cons, compiled.names, appears_snoc, recordOf_name record]

theorem compileHostsEntries_compiled (lib : Lib) (hosts : List HostEntry)
    (valid : ∀ h ∈ hosts, h.Supported) :
    Compiled lib hosts (compileHostsEntries lib hosts) := by
  induction hosts using List.reverseRecOn with
  | nil => exact compiled_empty lib
  | append_singleton init last ih =>
    rw [compileHostsEntries, List.foldl_append]
    apply compileHostEntry_compiled
    · exact ih fun h mem => valid h (List.mem_append_left _ mem)
    · exact valid last (List.mem_append_right _ List.mem_cons_self)

/-! ### The lookup -/

section Lookup

variable (lib : Lib) {hosts : List HostEntry} (valid : ∀ h ∈ hosts, h.Supported)
  (zones : List ForwardZone)

/-- The lookup in the compiled list is the scan for the type that is asked. -/
theorem hostsLookupHandle_eq (request response : Msg) (fresh : response.answer = []) :
    hostsLookupHandle (configSnapshot lib hosts valid zones) request response =
      answered response (typedLookup lib hosts request.q0.name request.q0.qtype) := by
  have compiled := compileHostsEntries_compiled lib hosts valid
  have hosts_map : (configSnapshot lib hosts valid zones).hostsMap =
      (compileHostsEntries lib hosts).1 := rfl
  have hosts_names : (configSnapshot lib hosts valid zones).hostsNames =
      (compileHostsEntries lib hosts).2 := rfl
  rw [hostsLookupHandle, hosts_map, hosts_names, typedLookup, ← compiled.records]
  by_cases none_compiled : (compileHostsEntries lib hosts).1.keys = []
  · have unnamed : ¬ Appears lib hosts request.q0.name := by
      rw [← compiled.names, compileHostsEntries_named lib hosts valid none_compiled]
      exact List.not_mem_nil
    have absent : (compileHostsEntries lib hosts).1.lookup
        (getCacheKey request.q0.name request.q0.qtype) = none := by
      apply AList.lookup_eq_none.mpr
      intro mem
      rw [AList.mem_keys, none_compiled] at mem
      cases mem
    rw [if_pos none_compiled, absent]
    simp [unnamed, answered]
  rw [if_neg none_compiled]
  cases found : (compileHostsEntries lib hosts).1.lookup
      (getCacheKey request.q0.name request.q0.qtype) with
  | some cached =>
    have nonempty := compiled.present _ cached found
    simp [nonempty, answered, fresh]
  | none =>
    by_cases listed : Appears lib hosts request.q0.name
    · simp [listed, answered, compiled.names, ← fresh]
    · simp [listed, answered, compiled.names]

end Lookup

lemma answered_inj {response : Msg} {a b : Option (List RR)}
    (same : answered response a = answered response b) : a = b := by
  cases a with
  | none =>
    cases b with
    | none => rfl
    | some rrs => cases congrArg Prod.fst same
  | some rrs =>
    cases b with
    | none => cases congrArg Prod.fst same
    | some rrs' =>
      have answers : rrs = rrs' := congrArg (fun out => out.2.answer) same
      rw [answers]

/-- The two readings of the configuration differ on aliases alone. -/
lemma typedLookup_eq_iff {lib : Lib} {hosts : List HostEntry} {name : String} {qtype : Nat} :
    typedLookup lib hosts name qtype = tableLookup lib hosts name qtype ↔
      ¬ (configured lib hosts name qtype = [] ∧ configured lib hosts name typeCNAME ≠ []) := by
  rw [typedLookup, tableLookup]
  by_cases typed : configured lib hosts name qtype = []
  · by_cases aliased : configured lib hosts name typeCNAME = []
    · simp [typed, aliased]
    · by_cases listed : Appears lib hosts name
      · simp [typed, aliased, listed, eq_comm]
      · simp [typed, aliased, listed]
  · simp [typed]

theorem hosts_table_iff (text : TextLib) (lib : Lib) (hosts : List HostEntry)
    (validated : validateHostsConfig text hosts = .ok ()) (zones : List ForwardZone)
    (request response : Msg) (fresh : response.answer = []) :
    hostsLookupHandle (configSnapshot lib hosts (supported_of_validated validated) zones)
        request response =
      answered response (tableLookup lib hosts request.q0.name request.q0.qtype) ↔
    ¬ (configured lib hosts request.q0.name request.q0.qtype = [] ∧
      configured lib hosts request.q0.name typeCNAME ≠ []) := by
  rw [hostsLookupHandle_eq lib _ zones request response fresh, ← typedLookup_eq_iff]
  constructor
  · intro same
    exact answered_inj same
  · intro same
    rw [same]

/-- Addresses with a colon are IPv6, those of digits and dots IPv4. -/
def plainText : TextLib where
  parseIP value :=
    if ':' ∈ value.toList then some .v6
    else if value.toList.all fun c => c.isDigit || c == '.' then some .v4
    else none
  quote value := "\"" ++ value ++ "\""

def hostQuery (name : String) (qtype : Nat) : Msg := { question := [⟨name, qtype, classINET⟩] }

def dbHosts : List HostEntry :=
  [⟨"db.internal", "a", "10.0.0.5", 0⟩, ⟨"v6.internal.", "AAAA", "fd00::1", 30⟩,
    ⟨"db.internal.", "A", "10.0.0.6", 300⟩]

lemma dbHosts_validated : validateHostsConfig plainText dbHosts = .ok () := by
  decide +kernel

theorem two_addresses_answered :
    hostsLookupHandle
        (configSnapshot plainLib dbHosts (supported_of_validated dbHosts_validated) [])
        (hostQuery "db.internal." typeA) {} =
      answered {} (some [⟨"db.internal.", classINET, 60, .a "10.0.0.5"⟩,
        ⟨"db.internal.", classINET, 300, .a "10.0.0.6"⟩]) := by
  have table : tableLookup plainLib dbHosts "db.internal." typeA =
      some [⟨"db.internal.", classINET, 60, .a "10.0.0.5"⟩,
        ⟨"db.internal.", classINET, 300, .a "10.0.0.6"⟩] := by
    decide +kernel
  rw [← table]
  exact (hosts_table_iff plainText plainLib dbHosts dbHosts_validated []
    (hostQuery "db.internal." typeA) {} rfl).mpr (by decide +kernel)

def aliasHosts : List HostEntry := [⟨"alias.internal", "CNAME", "real.internal", 0⟩]

lemma aliasHosts_validated : validateHostsConfig plainText aliasHosts = .ok () := by
  decide +kernel

/-- A question for the address of an alias is told that there is no data. -/
theorem alias_answered_without_data :
    tableLookup plainLib aliasHosts "alias.internal." typeA =
        some [⟨"alias.internal.", classINET, 60, .cname "real.internal."⟩] ∧
      hostsLookupHandle
          (configSnapshot plainLib aliasHosts (supported_of_validated aliasHosts_validated) [])
          (hostQuery "alias.internal." typeA) {} = answered {} (some []) := by
  constructor
  · decide +kernel
  · have typed : typedLookup plainLib aliasHosts "alias.internal." typeA = some [] := by
      decide +kernel
    rw [hostsLookupHandle_eq plainLib _ [] _ {} rfl, ← typed]
    rfl

end HostsTable
