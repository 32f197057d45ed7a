import Rec53.Platform

/-!
# The cache of the XDP fast path

`server/xdp_sync.go` writes answers into a kernel map, and `server/xdp/dns_cache.c`
serves them. The map is keyed by the lower-cased wire name and the type, while the
Go cache is keyed by the name as it was spelled. Times are nanoseconds of the
monotonic clock; an expiry is in whole seconds of it.
-/

namespace XdpCache

open DnsMessage Platform

/-- `buildBPFCacheKey`; the copy into the array pads with zeros. -/
def buildBPFCacheKey (lib : Lib) (name : String) (qtype : Nat) : Option CacheKey :=
  match lib.canonicalWire name with
  | none => none
  | some wire =>
    some ⟨wire.take maxQnameLen ++ List.replicate (maxQnameLen - wire.length) 0, qtype⟩

/-- The answer-only message that is serialised for the map. -/
def minimalMsg (msg : Msg) : Msg := { msg with ns := [], extra := [] }

def buildBPFCacheValue (lib : Lib) (mono : Nat) (msg : Msg) (ttlSeconds : Nat) :
    Option CacheValue :=
  match lib.pack (minimalMsg msg) with
  | none => none
  | some packed =>
    if packed.length > maxDnsResponseLen then none
    else some ⟨mono / second + ttlSeconds, packed⟩

/-- `syncToBPFMap` on an attached map: every failure leaves the map as it is. -/
def syncToBPFMap (lib : Lib) (mono : Nat) (m : BpfMap) (name : String) (qtype : Nat)
    (msg : Msg) (ttlSeconds : Nat) : BpfMap :=
  match buildBPFCacheKey lib name qtype with
  | none => m
  | some key =>
    match buildBPFCacheValue lib mono msg ttlSeconds with
    | none => m
    | some val => if lib.bpfAccepts m.keys key then m.insert key val else m

/-- One pass of the cleanup loop: the expired keys are collected, then deleted. -/
def cleanupExpiredBPFEntries (mono : Nat) (m : BpfMap) : BpfMap :=
  let expired := m.entries.filter fun e => decide (e.2.expireTs ≤ mono / second)
  (expired.map Sigma.fst).foldl (fun m key => m.erase key) m

/-- Section 7 of `xdp_dns_cache`: the lookup with its two checks. The bytes are
those of the stored response; the program passes the packet on when there are none. -/
def lookupResponse (m : BpfMap) (mono : Nat) (key : CacheKey) : Option Bytes :=
  match m.lookup key with
  | none => none
  | some val =>
    if mono / second > val.expireTs then none
    else if val.response.length = 0 ∨ val.response.length > maxDnsResponseLen then none
    else some val.response

/-- The two bytes of the transaction id in network order. -/
def idBytes (id : Nat) : Bytes := [UInt8.ofNat (id / 256), UInt8.ofNat id]

/-- Section 8e: the response with the transaction id of the query patched in. -/
def patchId (id : Nat) (response : Bytes) : Bytes := idBytes id ++ response.drop 2

/-- The DNS message `xdp_dns_cache` transmits for a query with transaction id `id`
and the given key, as the client unpacks it. -/
def xdpReply (lib : Lib) (m : BpfMap) (mono id : Nat) (key : CacheKey) : Option Msg :=
  match lookupResponse m mono key with
  | none => none
  | some response => lib.unpack (patchId id response)

/-! ### What a sync does to the map -/

/-- Key and bytes of the entry a sync of the message stores, if it stores one. -/
def fastEntry (lib : Lib) (m : BpfMap) (msg : Msg) : Option (CacheKey × Bytes) :=
  match buildBPFCacheKey lib msg.q0.name msg.q0.qtype, lib.pack (minimalMsg msg) with
  | some key, some packed =>
    if packed.length ≤ maxDnsResponseLen ∧ lib.bpfAccepts m.keys key = true then
      some (key, packed)
    else none
  | _, _ => none

theorem fastEntry_eq_some {lib : Lib} {m : BpfMap} {msg : Msg} {key : CacheKey} {packed : Bytes} :
    fastEntry lib m msg = some (key, packed) ↔
      buildBPFCacheKey lib msg.q0.name msg.q0.qtype = some key ∧
        lib.pack (minimalMsg msg) = some packed ∧ packed.length ≤ maxDnsResponseLen ∧
        lib.bpfAccepts m.keys key = true := by
  rw [fastEntry]
  cases buildBPFCacheKey lib msg.q0.name msg.q0.qtype with
  | none => simp
  | some key' =>
    cases lib.pack (minimalMsg msg) with
    | none => simp
    | some packed' =>
      simp only [Option.some.injEq]
      constructor
      · intro stored
        split at stored
        · rename_i fits
          cases stored
          exact ⟨rfl, rfl, fits⟩
        · cases stored
      · rintro ⟨rfl, rfl, fits⟩
        exact if_pos fits

theorem syncToBPFMap_eq (lib : Lib) (mono : Nat) (m : BpfMap) (msg : Msg) (ttl : Nat) :
    syncToBPFMap lib mono m msg.q0.name msg.q0.qtype msg ttl =
      match fastEntry lib m msg with
      | none => m
      | some (key, packed) => m.insert key ⟨mono / second + ttl, packed⟩ := by
  rw [syncToBPFMap, fastEntry, buildBPFCacheValue]
  cases buildBPFCacheKey lib msg.q0.name msg.q0.qtype with
  | none => rfl
  | some key =>
    cases lib.pack (minimalMsg msg) with
    | none => rfl
    | some packed =>
      by_cases large : packed.length > maxDnsResponseLen
      · have long : ¬ packed.length ≤ maxDnsResponseLen := Nat.not_le.mpr large
        simp [large, long]
      · have fits : packed.length ≤ maxDnsResponseLen := Nat.le_of_not_lt large
        by_cases accepted : lib.bpfAccepts m.keys key = true <;> simp [large, fits, accepted]

lemma lookupResponse_eq_some {map : BpfMap} {mono : Nat} {key : CacheKey} {bytes : Bytes}
    (served : lookupResponse map mono key = some bytes) :
    ∃ val, map.lookup key = some val ∧ val.response = bytes ∧ mono / second ≤ val.expireTs := by
  rw [lookupResponse] at served
  split at served
  · cases served
  · rename_i val held
    split at served
    · cases served
    · rename_i live
      split at served
      · cases served
      · exact ⟨val, held, Option.some.inj served, Nat.le_of_not_lt live⟩

lemma lookup_of_lookup_foldl_erase {keys : List CacheKey} {m : BpfMap} {key : CacheKey}
    {val : CacheValue} (kept : (keys.foldl (fun m key => m.erase key) m).lookup key = some val) :
    m.lookup key = some val := by
  induction keys generalizing m with
  | nil => exact kept
  | cons key' rest ih =>
    have before : (m.erase key').lookup key = some val := ih kept
    by_cases same : key = key'
    · rw [same, AList.lookup_erase] at before
      cases before
    · rwa [AList.lookup_erase_ne same] at before

/-- The cleanup deletes entries and changes none. -/
theorem lookup_of_lookup_cleanup {mono : Nat} {m : BpfMap} {key : CacheKey} {val : CacheValue}
    (kept : (cleanupExpiredBPFEntries mono m).lookup key = some val) :
    m.lookup key = some val :=
  lookup_of_lookup_foldl_erase kept

/-! ### An instance that packs -/

/-- The wire format of a message by a table. A message is listed with id zero, and its
bytes without those of the id. -/
def tablePack (table : List (Msg × Bytes)) (m : Msg) : Option Bytes :=
  if m.id < 65536 then
    (table.find? fun e => e.1 = { m with id := 0 }).map fun e => idBytes m.id ++ e.2
  else none

/-- The library with the wire format of the listed messages. -/
def tableLib (table : List (Msg × Bytes)) : Lib :=
  { plainLib with
    pack := tablePack table
    packPlain := tablePack table
    unpack := fun b =>
      (table.find? fun e => e.2 = b.drop 2).map fun e =>
        { e.1 with id := (b.headD 0).toNat * 256 + (b.tail.headD 0).toNat } }

/-- Unpacking undoes packing, also after another id was patched in. -/
def PackInverse (lib : Lib) : Prop :=
  ∀ m b id, id < 65536 → lib.pack m = some b → lib.unpack (patchId id b) = some { m with id := id }

lemma tablePack_eq_some {table : List (Msg × Bytes)} {m : Msg} {b : Bytes}
    (packed : tablePack table m = some b) :
    m.id < 65536 ∧ ∃ e ∈ table, e.1 = { m with id := 0 } ∧ b = idBytes m.id ++ e.2 := by
  rw [tablePack] at packed
  split at packed
  · rename_i small
    obtain ⟨e, listed, rfl⟩ := Option.map_eq_some_iff.mp packed
    have is : e.1 = { m with id := 0 } := by simpa using List.find?_some listed
    exact ⟨small, e, List.mem_of_find?_eq_some listed, is, rfl⟩
  · cases packed

section TableLib

variable {table : List (Msg × Bytes)}
  (distinct : ∀ e ∈ table, ∀ e' ∈ table, e.2 = e'.2 → e = e')

include distinct

lemma tableLib_unpack {e : Msg × Bytes} (mem : e ∈ table) {id : Nat} (small : id < 65536) :
    (tableLib table).unpack (idBytes id ++ e.2) = some { e.1 with id := id } := by
  have found : table.find? (fun e' => e'.2 = e.2) = some e := by
    cases search : table.find? (fun e' => e'.2 = e.2) with
    | none => simpa using List.find?_eq_none.mp search e mem
    | some e' =>
      have same : e'.2 = e.2 := by simpa using List.find?_some search
      rw [distinct e' (List.mem_of_find?_eq_some search) e mem same]
  have high : (UInt8.ofNat (id / 256)).toNat = id / 256 := by simp; omega
  have low : (UInt8.ofNat id).toNat = id % 256 := by simp
  have whole : id / 256 * 256 + id % 256 = id := by omega
  simp [tableLib, idBytes, found, high, low, whole]

theorem tableLib_packInverse : PackInverse (tableLib table) := by
  intro m b id small packed
  obtain ⟨_, e, mem, is, rfl⟩ := tablePack_eq_some packed
  have patched : patchId id (idBytes m.id ++ e.2) = idBytes id ++ e.2 := rfl
  rw [patched, tableLib_unpack distinct mem small, is]

end TableLib

end XdpCache
