import Rec53.DnsCache
import Mathlib.Data.List.Induction

/-!
# Hosts entries and forwarding zones

`server/hosts_config.go`, `server/forward_config.go` and the snapshot of
`server/state_shared.go`. A snapshot carries the fact that a name is only listed
when some record was compiled; `compileHostsEntries` establishes it for every
list whose types are supported, which `validateHostsConfig` checks at startup.
-/

namespace LocalConfig

open DnsMessage Platform DnsCache

structure HostEntry where
  name : String
  type : String
  value : String
  ttl : Nat

structure ForwardZone where
  zone : String
  upstreams : List String

/-- `strings.ToUpper` on a type name. -/
def toUpper (s : String) : String := String.ofList (s.toList.map Char.toUpper)

def defaultHostsTTL : Nat := 60

def buildHostRR (lib : Lib) (fqdn rrType value : String) (ttl : Nat) : Option RR :=
  if toUpper rrType = "A" then some ⟨fqdn, classINET, ttl, .a (lib.ipText value)⟩
  else if toUpper rrType = "AAAA" then some ⟨fqdn, classINET, ttl, .aaaa (lib.ipText value)⟩
  else if toUpper rrType = "CNAME" then some ⟨fqdn, classINET, ttl, .cname (lib.fqdn value)⟩
  else none

def HostEntry.Supported (h : HostEntry) : Prop :=
  toUpper h.type = "A" ∨ toUpper h.type = "AAAA" ∨ toUpper h.type = "CNAME"

abbrev HostsMap := AList (fun _ : String => Msg)

/-- One round of the loop of `compileHostsEntries`; keys have the format of the
cache keys, and the type of the record is the type the entry names. -/
def compileHostEntry (lib : Lib) (acc : HostsMap × List String) (h : HostEntry) :
    HostsMap × List String :=
  let fqdn := lib.fqdn h.name
  let ttl := if h.ttl = 0 then defaultHostsTTL else h.ttl
  match buildHostRR lib fqdn h.type h.value ttl with
  | none => (acc.1, fqdn :: acc.2)
  | some rr =>
    let key := getCacheKey fqdn rr.rrtype
    match acc.1.lookup key with
    | some existing =>
      (acc.1.insert key { existing with answer := existing.answer ++ [rr] }, fqdn :: acc.2)
    | none => (acc.1.insert key { authoritative := true, answer := [rr] }, fqdn :: acc.2)

def compileHostsEntries (lib : Lib) (hosts : List HostEntry) : HostsMap × List String :=
  hosts.foldl (compileHostEntry lib) (∅, [])

structure HostsForwardSnapshot where
  hostsMap : HostsMap
  hostsNames : List String
  forwardZones : List ForwardZone
  named : hostsMap.keys = [] → hostsNames = []

/-- The snapshot before any configuration was stored. -/
def emptySnapshot : HostsForwardSnapshot := ⟨∅, [], [], fun _ => rfl⟩

lemma buildHostRR_supported (lib : Lib) (fqdn : String) (h : HostEntry) (ttl : Nat)
    (supported : h.Supported) : ∃ rr, buildHostRR lib fqdn h.type h.value ttl = some rr := by
  rw [buildHostRR]
  by_cases ha : toUpper h.type = "A"
  · exact ⟨_, if_pos ha⟩
  by_cases haaaa : toUpper h.type = "AAAA"
  · exact ⟨_, by rw [if_neg ha, if_pos haaaa]⟩
  have hc : toUpper h.type = "CNAME" := (supported.resolve_left ha).resolve_left haaaa
  exact ⟨_, by rw [if_neg ha, if_neg haaaa, if_pos hc]⟩

lemma compileHostEntry_keys (lib : Lib) (acc : HostsMap × List String) (h : HostEntry)
    (supported : h.Supported) : (compileHostEntry lib acc h).1.keys ≠ [] := by
  obtain ⟨rr, hrr⟩ := buildHostRR_supported lib (lib.fqdn h.name) h
    (if h.ttl = 0 then defaultHostsTTL else h.ttl) supported
  simp only [compileHostEntry, hrr]
  split <;> simp

/-- Every name of a validated hosts list comes with a compiled record. -/
theorem compileHostsEntries_named (lib : Lib) (hosts : List HostEntry)
    (valid : ∀ h ∈ hosts, h.Supported)
    (none_compiled : (compileHostsEntries lib hosts).1.keys = []) :
    (compileHostsEntries lib hosts).2 = [] := by
  induction hosts using List.reverseRecOn with
  | nil => rfl
  | append_singleton init last _ =>
    have hlast : last.Supported := valid last (by simp)
    simp only [compileHostsEntries, List.foldl_append, List.foldl_cons,
      List.foldl_nil] at none_compiled
    exact absurd none_compiled (compileHostEntry_keys lib _ last hlast)

def configSnapshot (lib : Lib) (hosts : List HostEntry) (valid : ∀ h ∈ hosts, h.Supported)
    (zones : List ForwardZone) : HostsForwardSnapshot :=
  ⟨(compileHostsEntries lib hosts).1, (compileHostsEntries lib hosts).2, zones,
    compileHostsEntries_named lib hosts valid⟩

end LocalConfig
