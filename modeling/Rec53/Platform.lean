import Rec53.DnsMessage
import Mathlib.Data.List.AList

/-!
# What lies outside the repository

The functions of the dns library and of the kernel's map interface that the
resolver calls are fields of `Lib`, and every result below holds for each choice
of them. Assumptions on a field are hypotheses of the theorem that needs them.
The data structures are those of `server/xdp/dns_cache.h`.
-/

namespace Platform

open DnsMessage

abbrev Bytes := List UInt8

def maxQnameLen : Nat := 255
def maxDnsResponseLen : Nat := 512
def second : Nat := 1000000000

/-- `struct cache_key`: the lower-cased wire name, zero-padded, and the type. -/
structure CacheKey where
  qname : Bytes
  qtype : Nat
  deriving DecidableEq

/-- `struct cache_value`; `response` holds its first `resp_len` bytes. -/
structure CacheValue where
  expireTs : Nat
  response : Bytes
  deriving DecidableEq

abbrev BpfMap := AList (fun _ : CacheKey => CacheValue)

/-- `canonicalWire` is `PackDomainName` after `CanonicalName`, `pack` is `Pack`
with name compression, `packPlain` without, `rrLen` and `questionLen` are the
uncompressed lengths that `Msg.Len` adds up, `ipText` is `net.ParseIP` followed by
`String`, and `bpfAccepts` says whether the kernel takes an update of a map that
holds the given keys. -/
structure Lib where
  isSubDomain : String → String → Bool
  fqdn : String → String
  rcodeToString : Nat → String
  ipText : String → String
  canonicalWire : String → Option Bytes
  pack : Msg → Option Bytes
  packPlain : Msg → Option Bytes
  unpack : Bytes → Option Msg
  rrLen : RR → Nat
  questionLen : Question → Nat
  bpfAccepts : List CacheKey → CacheKey → Bool

/-- A name in wire format: each label after its length, then the root label. -/
def wireLabels (label : Bytes) : List Char → Bytes
  | [] => [0]
  | c :: rest =>
    if c = '.' then
      (if label = [] then [] else UInt8.ofNat label.length :: label) ++ wireLabels [] rest
    else wireLabels (label ++ [UInt8.ofNat c.toNat]) rest

/-- A small instance on which the model can be run. It packs no message. -/
def plainLib : Lib where
  isSubDomain parent child :=
    parent == "." || foldCase child == foldCase parent ||
      ('.' :: foldCase parent).isSuffixOf (foldCase child)
  fqdn name := if name.toList.getLast? = some '.' then name else name ++ "."
  rcodeToString rcode := toString rcode
  ipText ip := ip
  canonicalWire name := some (wireLabels [] (foldCase name))
  pack _ := none
  packPlain _ := none
  unpack _ := none
  rrLen rr := rr.name.length + 16
  questionLen q := q.name.length + 5
  bpfAccepts _ _ := true

end Platform
