import Rec53.Provenance

/-!
# How long a record is served

CACHE_LOOKUP and `resolveNSIPs` read the cache by name and type. An answer is kept
for the TTL of its first record, and the addresses that `updateNSIPsCache` writes for
five minutes. The bound on a record's own TTL therefore needs the first record to have
the smallest TTL of its answer, and a TTL that is not zero, since a zero duration
selects the five minutes of the cache; and an address that is written again needs five
minutes of the TTL with which it was received.
-/

namespace RecordLife

open DnsMessage Platform DnsCache ExpiringStore LocalConfig StateHandlers UpstreamQuery
  StateMachine ResolverSystem Provenance

/-- A live item that was stored for a positive TTL is read within it. -/
lemma read_within {now t ttl : Nat} {it : Item Msg} (live : it.expired now = false)
    (expiry : it.expiration = newCache.deadline t (ttl * second)) (positive : ttl ≠ 0) :
    now ≤ t + ttl * second := by
  have pos : 0 < ttl * second := Nat.mul_pos (Nat.pos_of_ne_zero positive) (by decide)
  rw [newCache.deadline_of_pos pos] at expiry
  have bound := Store.le_expiration_of_live live (by omega)
  omega

/-- In every run of the system from an empty cache, for every record of an answer that
the cache hands out by name and type: either the answer came in a message from a server,
and the record is handed out within its own TTL if the first record of the answer has
a TTL that is not zero and not longer; or it is one of the addresses that an
`updateNSIPsCache` wrote, each with a TTL of 300 seconds, and it is handed out within
these, and so within the TTL with which the address was received if at least 300 seconds
of that were left at the write. -/
theorem record_served_within_ttl (env : Env) (xdp : Option BpfMap) (wall mono : Nat)
    (events : List Event) (s : Sys) (run : s = runFrom env (World.initial xdp wall mono) events)
    (rooted : ∀ t m, (t, .received m) ∈ s.log → ∀ rr ∈ m.ns, Rooted rr.name)
    (name : String) (qtype : Nat) (m : Msg)
    (read : getCacheCopyByType s.world name qtype = some m) (rr : RR) (mem : rr ∈ m.answer) :
    (∃ t received, (t, .received received) ∈ s.log ∧ received.answer = m.answer ∧
        ∀ first ∈ m.answer.head?, first.ttl ≠ 0 → first.ttl ≤ rr.ttl →
          s.world.wall - t ≤ rr.ttl * second) ∨
      (∃ t id nsName ips ip, (t, .updateNSIPs id nsName ips) ∈ s.log ∧ ip ∈ ips ∧
        rr = ⟨nsName, classINET, nsAddressTTL, .a (env.lib.ipText ip)⟩ ∧
        s.world.wall - t ≤ nsAddressTTL * second ∧
        ∀ t₀ received orig, (t₀, .received received) ∈ s.log → orig ∈ received.answer →
          orig.data = rr.data → t + nsAddressTTL * second ≤ t₀ + orig.ttl * second →
            s.world.wall - t₀ ≤ orig.ttl * second) := by
  have accounted : Accounted env.lib s := run ▸ run_accounted env xdp wall mono events
  obtain ⟨it, found, live, rfl⟩ := getCacheCopy_eq_some.mp read
  obtain ⟨⟨t, e⟩, logged, stored, ttl, entry, rfl⟩ := accounted.items _ it found
  have origin := accounted.origins _ logged
  have served : rr ∈ stored.answer := mem
  generalize is : (t, e).2 = e' at origin entry
  subst is
  cases origin with
  | readOnly e quiet => cases (entryOf_of_not_writes quiet).symm.trans entry
  | answer received first rest accepted starts =>
    obtain ⟨_, rfl, rfl⟩ : _ ∧ received = stored ∧ first.ttl = ttl := by
      simpa [entryOf] using entry
    refine .inl ⟨t, received, accepted.received, rfl, ?_⟩
    intro first' head positive shortest
    change first' ∈ received.answer.head? at head
    rw [starts] at head
    cases head
    have bound := read_within live rfl positive
    have longer : first.ttl * second ≤ rr.ttl * second := Nat.mul_le_mul_right second shortest
    change s.world.wall ≤ t + first.ttl * second at bound
    omega
  | delegation received first rest accepted starts is_ns =>
    -- a delegation is stored under a name that ends with a dot
    obtain ⟨same, _, _⟩ : first.name = getCacheKey name qtype ∧ _ ∧ _ := by
      simpa [entryOf] using entry
    have dotted := rooted t received accepted.received first (by simp [starts])
    exact absurd same (ne_getCacheKey_of_rooted dotted name qtype)
  | negative name' qtype' negative ttl' empty =>
    obtain ⟨_, rfl, _⟩ : _ ∧ negative = stored ∧ ttl' = ttl := by
      simpa [entryOf] using entry
    rw [empty] at served
    cases served
  | addresses id nsName ips =>
    obtain ⟨_, rfl, rfl⟩ : _ ∧ nsAddressMsg env.lib id nsName ips = stored ∧
        nsAddressTTL = ttl := by
      simpa [entryOf] using entry
    obtain ⟨ip, listed, rfl⟩ := List.mem_map.mp served
    have bound := read_within live rfl (by decide : nsAddressTTL ≠ 0)
    change s.world.wall ≤ t + nsAddressTTL * second at bound
    refine .inr ⟨t, id, nsName, ips, ip, logged, listed, rfl, by omega, ?_⟩
    intro t₀ received orig _ _ _ left
    omega

section Outlived

/-- An answer to a question for addresses. -/
def addressesOf (name : String) (answer : List RR) : Msg :=
  { question := [⟨name, typeA, classINET⟩], answer := answer }

def aliasAndAddress : List RR :=
  [⟨"a.", classINET, 3600, .cname "b."⟩, ⟨"b.", classINET, 5, .a "192.0.2.1"⟩]

/-- One query, answered by an alias for an hour and an address for five seconds; the
cache is read a minute later. -/
def mixedTTLs : List Event :=
  .query (newQuery 7 "a." typeA) :: (List.replicate 7 (.visit 0 .idle) ++
    [.visit 0 (.answered (addressesOf "a." aliasAndAddress)), .advance (60 * second)])

def mixedRun : Sys := runFrom plainEnv (World.initial none 1 0) mixedTTLs

lemma mixedRun_log : mixedRun.log =
    [(1, .exchange "198.41.0.4" "a." typeA), (1, .received (addressesOf "a." aliasAndAddress)),
      (1, .recordLatency "198.41.0.4" 1),
      (1, .setByType "a." typeA (addressesOf "a." aliasAndAddress) 3600)] := rfl

lemma mixedRun_rooted (t : Nat) (m : Msg) (mem : (t, .received m) ∈ mixedRun.log) :
    ∀ rr ∈ m.ns, Rooted rr.name := by
  obtain ⟨_, rfl⟩ : t = 1 ∧ m = addressesOf "a." aliasAndAddress := by
    simpa [mixedRun_log] using mem
  intro rr none
  cases none

theorem mixedRun_alias_served :
    (∃ t received, (t, .received received) ∈ mixedRun.log ∧ received.answer = aliasAndAddress ∧
        ∀ first ∈ aliasAndAddress.head?, first.ttl ≠ 0 → first.ttl ≤ 3600 →
          mixedRun.world.wall - t ≤ 3600 * second) ∨
      (∃ t id nsName ips ip, (t, .updateNSIPs id nsName ips) ∈ mixedRun.log ∧ ip ∈ ips ∧
        (⟨"a.", classINET, 3600, .cname "b."⟩ : RR) =
          ⟨nsName, classINET, nsAddressTTL, .a (plainEnv.lib.ipText ip)⟩ ∧
        mixedRun.world.wall - t ≤ nsAddressTTL * second ∧
        ∀ t₀ received orig, (t₀, .received received) ∈ mixedRun.log → orig ∈ received.answer →
          orig.data = .cname "b." → t + nsAddressTTL * second ≤ t₀ + orig.ttl * second →
            mixedRun.world.wall - t₀ ≤ orig.ttl * second) :=
  record_served_within_ttl plainEnv none 1 0 mixedTTLs mixedRun rfl mixedRun_rooted "a." typeA
    { answer := aliasAndAddress } rfl ⟨"a.", classINET, 3600, .cname "b."⟩ (by decide)

/-- Two name servers without addresses, resolved by nested resolutions; the second
result is written in the background. -/
def backgroundUpdate : List Event :=
  let referral : Msg :=
    { question := [⟨"a.x.", typeA, classINET⟩]
      ns := [⟨"x.", classINET, 3600, .ns "n.y."⟩, ⟨"x.", classINET, 3600, .ns "n.z."⟩] }
  let nested (i : Nat) (name : String) : List Event :=
    List.replicate 7 (.visit i .idle) ++
      [.visit i (.answered (addressesOf name [⟨name, classINET, 5, .a "192.0.2.1"⟩]))] ++
      List.replicate 2 (.visit i .idle)
  .query (newQuery 7 "a.x." typeA) :: (List.replicate 7 (.visit 0 .idle) ++
    .visit 0 (.answered referral) :: List.replicate 3 (.visit 0 .idle) ++
    [.spawn 0 8 "n.y.", .spawn 0 9 "n.z."] ++ nested 1 "n.y." ++ nested 2 "n.z." ++
    [.collect 0 [1, 2] .idle, .update 0 10, .advance (60 * second)])

def backgroundRun : Sys := runFrom plainEnv (World.initial none 1 0) backgroundUpdate

/-- Both addresses came in with a TTL of five seconds and are served a minute later. -/
theorem records_outlive_their_ttl :
    (∃ t received m rr, (t, .received received) ∈ mixedRun.log ∧ rr ∈ received.answer ∧
      getCacheCopyByType mixedRun.world "a." typeA = some m ∧ rr ∈ m.answer ∧
      rr.ttl * second < mixedRun.world.wall - t) ∧
    (∃ t received m rr rr', (t, .received received) ∈ backgroundRun.log ∧ rr ∈ received.answer ∧
      getCacheCopyByType backgroundRun.world "n.z." typeA = some m ∧ rr' ∈ m.answer ∧
      rr'.name = rr.name ∧ rr'.data = rr.data ∧
      rr.ttl * second < backgroundRun.world.wall - t) := by
  refine ⟨⟨1, addressesOf "a." aliasAndAddress, _, ⟨"b.", classINET, 5, .a "192.0.2.1"⟩,
    by decide, by decide, rfl, by decide, by decide⟩, ?_⟩
  exact ⟨1, addressesOf "n.z." [⟨"n.z.", classINET, 5, .a "192.0.2.1"⟩], _,
    ⟨"n.z.", classINET, 5, .a "192.0.2.1"⟩, ⟨"n.z.", classINET, 300, .a "192.0.2.1"⟩,
    by decide, by decide, rfl, by decide, rfl, rfl, by decide⟩

end Outlived

end RecordLife
