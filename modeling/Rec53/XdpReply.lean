import Rec53.DnsCache
import Rec53.StepRuns
import Rec53.XdpParser

/-!
# The reply of the XDP program

Sections 7 and 8 of `xdp_dns_cache` in `server/xdp/dns_cache.c`: the stored response is
copied behind the rewritten headers of the query and gets its transaction id. Nothing
else of the response is changed, so its question section is the one that `Pack` wrote
for the message in the Go cache. The key says of that question its name in lower case
and its type. The letter case, the class and the opcode of the query are not compared.

The kernel is given by whether its two helpers succeed; memory that the packet grows by
is zero. The counters are left out. The program is built for both byte orders.
-/

namespace XdpReply

open DnsMessage Platform XdpCache DnsCache WireName XdpParser

/-! ### Octets of a packet -/

def readAt (pkt : Bytes) (off n : Nat) : Bytes := (pkt.drop off).take n

def writeAt (pkt : Bytes) (off : Nat) (octets : Bytes) : Bytes :=
  pkt.take off ++ (octets ++ pkt.drop (off + octets.length))

def writeAll (pkt : Bytes) (writes : List (Nat × Bytes)) : Bytes :=
  writes.foldl (fun pkt w => writeAt pkt w.1 w.2) pkt

def bpfHtons (n : Nat) : Bytes := idBytes n

inductive ByteOrder where
  | little
  | big

def ByteOrder.word : ByteOrder → UInt8 → UInt8 → Nat
  | .little, first, next => first.toNat + next.toNat * 256
  | .big, first, next => first.toNat * 256 + next.toNat

def ByteOrder.words (order : ByteOrder) : Bytes → List Nat
  | first :: next :: rest => order.word first next :: order.words rest
  | _ => []

def ByteOrder.octets : ByteOrder → Nat → Bytes
  | .little, n => [UInt8.ofNat n, UInt8.ofNat (n / 256)]
  | .big, n => [UInt8.ofNat (n / 256), UInt8.ofNat n]

/-- The numbers of values of a `__u16` and of a `__u32`. -/
def size16 : Nat := 65536
def size32 : Nat := 4294967296

/-- `ipv4_csum`: the ten words of the header with the field `check` cleared. -/
def ipv4Csum (order : ByteOrder) (iph : Bytes) : Nat :=
  let words := (order.words (writeAt iph 10 [0, 0])).take 10
  let sum := words.foldl (fun sum word => (sum + word) % size32) 0
  let sum := (sum / size16 + sum % size16) % size32
  let sum := (sum + sum / size16) % size32
  (size32 - 1 - sum) % size16

/-! ### The program -/

inductive Verdict where
  | pass (pkt : Bytes)
  | tx (pkt : Bytes)
  | fault
  deriving DecidableEq

/-- The packet as the program leaves it. -/
def Verdict.packet : Verdict → Bytes
  | .pass pkt => pkt
  | .tx pkt => pkt
  | .fault => []

/-- Whether `bpf_xdp_adjust_tail` and `bpf_xdp_store_bytes` succeed. -/
structure Helpers where
  adjustTail : Bool
  storeBytes : Bool

def resize (pkt : Bytes) (len : Nat) : Bytes :=
  pkt.take len ++ List.replicate (len - pkt.length) 0

/-- Sections 8a and 8b without the checksum. -/
def addressWrites (query : Bytes) (respLen : Nat) : List (Nat × Bytes) := [
  (0, readAt query 6 6),
  (6, readAt query 0 6),
  (ipStart + 12, readAt query (ipStart + 16) 4),
  (ipStart + 16, readAt query (ipStart + 12) 4),
  (ipStart + 2, bpfHtons (ipHeaderLen + udpHeaderLen + respLen)),
  (ipStart + 8, [64])]

/-- The checksum and section 8c. -/
def portWrites (order : ByteOrder) (query : Bytes) (respLen check : Nat) : List (Nat × Bytes) := [
  (ipStart + 10, order.octets check),
  (udpStart, bpfHtons 53),
  (udpStart + 2, readAt query udpStart 2),
  (udpStart + 4, bpfHtons (udpHeaderLen + respLen)),
  (udpStart + 6, [0, 0])]

def rewriteHeaders (order : ByteOrder) (query : Bytes) (respLen : Nat) (data : Bytes) : Bytes :=
  let data := writeAll data (addressWrites query respLen)
  let check := ipv4Csum order (readAt data ipStart ipHeaderLen)
  writeAll data (portWrites order query respLen check)

/-- Section 8. A packet that is passed after the headers were rewritten keeps them. -/
def buildReply (order : ByteOrder) (helpers : Helpers) (query response : Bytes) : Verdict :=
  if helpers.adjustTail = false then .pass query
  else
    let data := resize query (dnsStart + response.length)
    if ipStart > data.length ∨ udpStart > data.length ∨ dnsStart > data.length ∨
        dnsStart + response.length > data.length then .pass data
    else
      let data := rewriteHeaders order query response.length data
      if helpers.storeBytes = false then .pass data
      else
        let data := writeAt data dnsStart response
        if dnsStart + 2 > data.length then .pass data
        else .tx (writeAt data dnsStart (readAt query dnsStart 2))

/-- The keys of the map are compared as memory, with the padding. -/
def lookupKey (m : BpfMap) (key : ScratchKey) : Option CacheKey :=
  m.keys.find? fun k => ScratchKey.ofCacheKey k = key

def xdpDnsCache (order : ByteOrder) (helpers : Helpers) (m : BpfMap) (mono : Nat) (pkt : Bytes) :
    Verdict :=
  match extractKey pkt with
  | .error .pass => .pass pkt
  | .error .fault => .fault
  | .ok key =>
    match (lookupKey m key).bind (lookupResponse m mono) with
    | none => .pass pkt
    | some response => buildReply order helpers pkt response

/-! ### What is transmitted -/

lemma length_writeAt {pkt : Bytes} {off : Nat} {octets : Bytes}
    (within : off + octets.length ≤ pkt.length) : (writeAt pkt off octets).length = pkt.length := by
  rw [writeAt, List.length_append, List.length_append, List.length_take, List.length_drop]
  omega

lemma length_writeAll {pkt : Bytes} {writes : List (Nat × Bytes)}
    (within : ∀ w ∈ writes, w.1 + w.2.length ≤ pkt.length) :
    (writeAll pkt writes).length = pkt.length := by
  induction writes generalizing pkt with
  | nil => rfl
  | cons w rest ih =>
    have first := length_writeAt (within w List.mem_cons_self)
    have others : ∀ w' ∈ rest, w'.1 + w'.2.length ≤ (writeAt pkt w.1 w.2).length := by
      intro w' mem
      rw [first]
      exact within w' (List.mem_cons_of_mem _ mem)
    exact (ih others).trans first

lemma drop_writeAt {pkt : Bytes} {off : Nat} (octets : Bytes) (within : off ≤ pkt.length) :
    (writeAt pkt off octets).drop off = octets ++ pkt.drop (off + octets.length) := by
  rw [writeAt, List.drop_append_of_le_length (by rw [List.length_take]; omega),
    List.drop_eq_nil_of_le (by rw [List.length_take]; omega), List.nil_append]

lemma length_readAt_le (pkt : Bytes) (off n : Nat) : (readAt pkt off n).length ≤ n :=
  List.length_take_le _ _

lemma length_octets (order : ByteOrder) (n : Nat) : (order.octets n).length = 2 := by
  cases order with
  | little => rfl
  | big => rfl

lemma addressWrites_within (query : Bytes) (respLen : Nat) :
    ∀ w ∈ addressWrites query respLen, w.1 + w.2.length ≤ dnsStart := by
  have read := length_readAt_le query
  have ethDest := read 0 6
  have ethSource := read 6 6
  have ipSource := read (ipStart + 12) 4
  have ipDest := read (ipStart + 16) 4
  have two (n : Nat) : (bpfHtons n).length = 2 := rfl
  simp only [addressWrites, List.forall_mem_cons, List.not_mem_nil, false_imp_iff, implies_true,
    and_true, two, List.length_cons, List.length_nil, dnsStart, udpStart, ipStart, udpHeaderLen,
    ipHeaderLen, ethHeaderLen] at *
  omega

lemma portWrites_within (order : ByteOrder) (query : Bytes) (respLen check : Nat) :
    ∀ w ∈ portWrites order query respLen check, w.1 + w.2.length ≤ dnsStart := by
  have port := length_readAt_le query udpStart 2
  have two (n : Nat) : (bpfHtons n).length = 2 := rfl
  simp only [portWrites, List.forall_mem_cons, List.not_mem_nil, false_imp_iff, implies_true,
    and_true, two, length_octets, List.length_cons, List.length_nil, dnsStart, udpStart, ipStart,
    udpHeaderLen, ipHeaderLen, ethHeaderLen] at *
  omega

lemma length_rewriteHeaders (order : ByteOrder) (query : Bytes) (respLen : Nat) (data : Bytes)
    (headers : dnsStart ≤ data.length) :
    (rewriteHeaders order query respLen data).length = data.length := by
  have first : (writeAll data (addressWrites query respLen)).length = data.length :=
    length_writeAll fun w mem => Nat.le_trans (addressWrites_within query respLen w mem) headers
  rw [rewriteHeaders, length_writeAll]
  · exact first
  · intro w mem
    rw [first]
    exact Nat.le_trans (portWrites_within order query respLen _ w mem) headers

/-- The DNS message of a packet. -/
def dnsPart (pkt : Bytes) : Bytes := pkt.drop dnsStart

lemma length_resize (pkt : Bytes) (len : Nat) : (resize pkt len).length = len := by
  rw [resize, List.length_append, List.length_take, List.length_replicate]
  omega

/-- The response with the two octets of the id of the query. -/
theorem buildReply_tx {order : ByteOrder} {helpers : Helpers} {query response reply : Bytes}
    (sent : buildReply order helpers query response = .tx reply)
    (id : (readAt query dnsStart 2).length = 2) :
    2 ≤ response.length ∧ dnsPart reply = readAt query dnsStart 2 ++ response.drop 2 := by
  have length : (rewriteHeaders order query response.length
      (resize query (dnsStart + response.length))).length = dnsStart + response.length := by
    rw [length_rewriteHeaders, length_resize]
    rw [length_resize]
    exact Nat.le_add_right _ _
  simp only [buildReply] at sent
  split at sent
  · cases sent
  split at sent
  · cases sent
  split at sent
  · cases sent
  generalize rewriteHeaders order query response.length
    (resize query (dnsStart + response.length)) = data at length sent
  -- the response fills the packet behind the headers
  have stored : (writeAt data dnsStart response).drop dnsStart = response := by
    rw [drop_writeAt _ (by omega), List.drop_eq_nil_of_le (Nat.le_of_eq length), List.append_nil]
  have filled : (writeAt data dnsStart response).length = dnsStart + response.length := by
    rw [length_writeAt (Nat.le_of_eq length.symm), length]
  split at sent
  · cases sent
  · rename_i room
    cases sent
    refine ⟨by omega, ?_⟩
    rw [dnsPart, drop_writeAt _ (by omega), id, ← List.drop_drop, stored]

lemma extractKey_ok {pkt : Bytes} {key : ScratchKey} (read : extractKey pkt = .ok key) :
    parseHeaders pkt = .ok () ∧ qnameStart < pkt.length := by
  rw [extractKey] at read
  cases headers : parseHeaders pkt with
  | error stop =>
    rw [headers] at read
    cases read
  | ok _ =>
    rw [headers] at read
    change (passIf (qnameStart + 1 > pkt.length) >>= _) = _ at read
    rw [passIf_bind] at read
    split at read
    · cases read
    · rename_i within
      exact ⟨rfl, Nat.le_of_not_lt within⟩

/-- A transmitted packet comes from an entry of the map under the key of the query. -/
theorem xdpDnsCache_tx {order : ByteOrder} {helpers : Helpers} {m : BpfMap} {mono : Nat}
    {pkt reply : Bytes} (sent : xdpDnsCache order helpers m mono pkt = .tx reply) :
    ∃ key val, extractKey pkt = .ok (.ofCacheKey key) ∧ m.lookup key = some val ∧
      2 ≤ val.response.length ∧ (readAt pkt dnsStart 2).length = 2 ∧
      dnsPart reply = readAt pkt dnsStart 2 ++ val.response.drop 2 := by
  rw [xdpDnsCache] at sent
  split at sent
  · cases sent
  · cases sent
  rename_i key read
  split at sent
  · cases sent
  rename_i response found
  obtain ⟨key', listed, served⟩ := Option.bind_eq_some_iff.mp found
  have same : ScratchKey.ofCacheKey key' = key := by
    simpa using List.find?_some listed
  obtain ⟨val, held, rfl, _⟩ := lookupResponse_eq_some served
  have id : (readAt pkt dnsStart 2).length = 2 := by
    have within : qnameStart < pkt.length := (extractKey_ok read).2
    have past : dnsStart + 12 = qnameStart := rfl
    rw [readAt, List.length_take, List.length_drop]
    omega
  obtain ⟨long, message⟩ := buildReply_tx sent id
  exact ⟨key', val, by rw [same]; exact read, held, long, id, message⟩

/-! ### Questions on the wire -/

structure WireQuestion where
  name : Name
  qtype : UInt8 × UInt8
  qclass : UInt8 × UInt8

def WireQuestion.octets (q : WireQuestion) : Bytes :=
  q.name.wire ++ [q.qtype.1, q.qtype.2, q.qclass.1, q.qclass.2]

def WireQuestion.typeNumber (q : WireQuestion) : Nat := q.qtype.1.toNat * 256 + q.qtype.2.toNat

/-- The message has one question, and it is this one. -/
def Carries (dns : Bytes) (q : WireQuestion) : Prop :=
  dns[4]? = some 0 ∧ dns[5]? = some 1 ∧ q.octets <+: dns.drop dnsHeaderLen

instance (dns : Bytes) (q : WireQuestion) : Decidable (Carries dns q) :=
  inferInstanceAs (Decidable (_ ∧ _ ∧ _))

def opcode (pkt : Bytes) : Nat := ((pkt.drop (dnsStart + 2)).headD 0).toNat / 8 % 16

/-- The reply has the id and the question section of the query, whose opcode is QUERY. -/
structure Matches (pkt reply : Bytes) : Prop where
  txid : (dnsPart reply).take 2 = (dnsPart pkt).take 2
  question : ∃ q, Carries (dnsPart pkt) q ∧ Carries (dnsPart reply) q
  query : opcode pkt = 0

/-- The id is no part of the question section. -/
lemma carries_patched {id bytes : Bytes} (two : id.length = 2) (long : 2 ≤ bytes.length)
    (q : WireQuestion) : Carries (id ++ bytes.drop 2) q ↔ Carries bytes q := by
  obtain ⟨a, b, rfl⟩ := List.length_eq_two.mp two
  match bytes with
  | [] | [_] => simp at long
  | _ :: _ :: rest => exact Iff.rfl

/-- A message carries one question at most. -/
theorem Carries.unique {dns : Bytes} {q q' : WireQuestion} (carries : Carries dns q)
    (carries' : Carries dns q') : q = q' := by
  have starts : q.octets <+: dns.drop dnsHeaderLen := carries.2.2
  have starts' : q'.octets <+: dns.drop dnsHeaderLen := carries'.2.2
  -- the name is what a scan reads
  obtain ⟨_, read⟩ := scan_of_wire_prefix ((List.prefix_append _ _).trans starts)
  obtain ⟨_, read'⟩ := scan_of_wire_prefix ((List.prefix_append _ _).trans starts')
  rw [read] at read'
  simp only [Option.some.injEq, Prod.mk.injEq] at read'
  obtain ⟨name, qtype, qclass⟩ := q
  obtain ⟨name', qtype', qclass'⟩ := q'
  obtain rfl : name = name' := Name.ext_labels read'.1
  have octets := (List.prefix_of_prefix_length_le starts starts' (by simp [WireQuestion.octets])
    ).eq_of_length (by simp [WireQuestion.octets])
  simp only [WireQuestion.octets, List.append_cancel_left_eq, List.cons.injEq, and_true] at octets
  obtain ⟨type, type', class_, class'⟩ := octets
  exact congrArg₂ (WireQuestion.mk name) (Prod.ext type type') (Prod.ext class_ class')

/-! ### How the map is filled -/

/-- What the Go side does to the caches; `set` is a call of `setCacheCopy`. -/
inductive Fill where
  | set (key : String) (value : Msg) (expire : Nat)
  | advance (d : Nat)
  | cleanup

def Fill.step (lib : Lib) (w : World) : Fill → World
  | .set key value expire => setCacheCopy lib w key value expire
  | .advance d => w.advance d
  | .cleanup => { w with xdp := w.xdp.map (cleanupExpiredBPFEntries w.mono) }

/-- The call stores the packed message under the key. -/
def Stores (lib : Lib) (w : World) (e : Fill) (key : CacheKey) (value : Msg) (bytes : Bytes) :
    Prop :=
  ∃ k expire map, e = .set k value expire ∧ w.xdp = some map ∧
    reachesMap lib map value = some (key, bytes)

/-- The last message that was stored under the key in the course of the events. -/
def LastStored (lib : Lib) (start : World) (events : List Fill) (key : CacheKey) (value : Msg)
    (bytes : Bytes) : Prop :=
  ∃ before e after, events = before ++ e :: after ∧
    Stores lib (StepRuns.run (Fill.step lib) start before) e key value bytes ∧
    StepRuns.Along (Fill.step lib) (fun w e => ∀ value' bytes', ¬ Stores lib w e key value' bytes')
      (StepRuns.run (Fill.step lib) start (before ++ [e])) after

section
variable {lib : Lib} {start : World} {past : List Fill} {key : CacheKey} {value : Msg}
  {bytes : Bytes}

lemma LastStored.now {e : Fill}
    (stores : Stores lib (StepRuns.run (Fill.step lib) start past) e key value bytes) :
    LastStored lib start (past ++ [e]) key value bytes :=
  ⟨past, e, [], rfl, stores, trivial⟩

lemma LastStored.snoc (last : LastStored lib start past key value bytes) {e : Fill}
    (other : ∀ value' bytes', ¬ Stores lib (StepRuns.run (Fill.step lib) start past) e key value'
      bytes') : LastStored lib start (past ++ [e]) key value bytes := by
  obtain ⟨before, e', after, rfl, stores, since⟩ := last
  refine ⟨before, e', after ++ [e], by simp, stores, ?_⟩
  rw [StepRuns.along_snoc, ← StepRuns.run_append, List.append_assoc]
  exact ⟨since, other⟩

lemma LastStored.packed (last : LastStored lib start past key value bytes) :
    buildBPFCacheKey lib value.q0.name value.q0.qtype = some key ∧
      lib.pack (minimalMsg value) = some bytes := by
  obtain ⟨_, _, _, _, ⟨_, _, map, _, _, reaches⟩, _⟩ := last
  obtain ⟨built, packs, _⟩ := fastEntry_eq_some.mp (reachesMap_eq_some.mp reaches).2
  exact ⟨built, packs⟩

end

/-- Every entry of the map is that of the last message stored under its key. -/
def AllStored (lib : Lib) (start : World) (past : List Fill) : Prop :=
  ∀ map, (StepRuns.run (Fill.step lib) start past).xdp = some map →
    ∀ key val, map.lookup key = some val → ∃ value, LastStored lib start past key value val.response

lemma allStored_snoc {lib : Lib} {start : World} {past : List Fill} (e : Fill)
    (all : AllStored lib start past) : AllStored lib start (past ++ [e]) := by
  intro map' attached' key val held
  rw [StepRuns.run_snoc] at attached'
  cases e with
  | set k value expire =>
    rw [Fill.step, setCacheCopy_xdp] at attached'
    obtain ⟨map, attached, rfl⟩ := Option.map_eq_some_iff.mp attached'
    rcases lookup_fastStore held with ⟨reaches, _⟩ | ⟨before, other⟩
    · exact ⟨value, .now ⟨k, expire, map, rfl, attached, reaches⟩⟩
    · obtain ⟨value', last⟩ := all map attached key val before
      refine ⟨value', last.snoc ?_⟩
      rintro _ bytes ⟨_, _, _, ⟨⟩, attached'', reaches⟩
      cases attached.symm.trans attached''
      exact other bytes reaches
  | advance d =>
    obtain ⟨value, last⟩ := all map' attached' key val held
    refine ⟨value, last.snoc ?_⟩
    rintro _ _ ⟨_, _, _, ⟨⟩, _⟩
  | cleanup =>
    obtain ⟨map, attached, rfl⟩ := Option.map_eq_some_iff.mp attached'
    obtain ⟨value, last⟩ := all map attached key val (lookup_of_lookup_cleanup held)
    refine ⟨value, last.snoc ?_⟩
    rintro _ _ ⟨_, _, _, ⟨⟩, _⟩

theorem run_allStored (lib : Lib) (wall mono : Nat) (events : List Fill) :
    AllStored lib (World.initial (some ∅) wall mono) events := by
  induction events using List.reverseRecOn with
  | nil =>
    intro map attached key val held
    cases attached
    cases held
  | append_singleton past e ih => exact allStored_snoc e ih

/-! ### What the key compares -/

/-- `Pack` wrote the question of the message, in the spelling of its name. -/
structure Packs (lib : Lib) (value : Msg) (bytes : Bytes) (q : WireQuestion) : Prop where
  carries : Carries bytes q
  name : Presents lib value.q0.name q.name
  qtype : q.typeNumber = value.q0.qtype

/-- The zeros behind a name leave no doubt about it. -/
lemma labels_of_filled_wire {n n' : Name} (same : filled n.wire = filled n'.wire) :
    n.labels = n'.labels := by
  have read (n : Name) : scan 256 maxQnameLen (filled n.wire) = some (n.labels, true) := by
    have met : RoundsMet 256 n.labels true := by
      have two := length_labels_le n
      rw [maxQnameLabels] at two
      change n.labels.length < 256
      omega
    have fits : (scanned n.labels true).length ≤ maxQnameLen := by
      rw [scanned_true, length_wire]
      exact n.fits
    exact scan_scanned n.sized fits met _
  have both := read n
  rw [same, read n'] at both
  simp only [Option.some.injEq, Prod.mk.injEq, and_true] at both
  exact both.symm

lemma asks_of_carries {pkt : Bytes} {q : WireQuestion} (carries : Carries (dnsPart pkt) q) :
    Asks pkt q.name q.typeNumber := by
  obtain ⟨rest, question⟩ := carries.2.2
  refine ⟨q.qtype.1, q.qtype.2, q.qclass.1, q.qclass.2, rest, rfl, ?_⟩
  have start : (dnsPart pkt).drop dnsHeaderLen = payload pkt := by
    rw [dnsPart, List.drop_drop]
    rfl
  rw [← start, ← question, WireQuestion.octets, List.append_assoc]
  rfl

lemma qtype_of_typeNumber {q q' : WireQuestion} (same : q.typeNumber = q'.typeNumber) :
    q.qtype = q'.qtype := by
  have small := q.qtype.2.toNat_lt
  have small' := q'.qtype.2.toNat_lt
  rw [WireQuestion.typeNumber, WireQuestion.typeNumber] at same
  apply Prod.ext
  · apply UInt8.toNat_inj.mp
    omega
  · apply UInt8.toNat_inj.mp
    omega

/-- Under the key of a query with a name of at most 126 labels is a question for the same
name up to letter case, and for the same type. -/
lemma question_of_key {lib : Lib} {pkt : Bytes} {value : Msg} {key : CacheKey} {bytes : Bytes}
    (built : buildBPFCacheKey lib value.q0.name value.q0.qtype = some key)
    (read : extractKey pkt = .ok (.ofCacheKey key)) {q q' : WireQuestion}
    (packs : Packs lib value bytes q) (carries : Carries (dnsPart pkt) q')
    (fewer : q'.name.labels.length ≤ 126) :
    lowerLabels q.name.labels = lowerLabels q'.name.labels ∧ q.qtype = q'.qtype := by
  have stored := (sameKey_iff packs.name).mp ⟨key, built, read⟩
  have looked := extractKey_fewer (extractKey_ok read).1 (asks_of_carries carries)
    (Nat.lt_succ_of_le fewer)
  rw [stored] at looked
  simp only [Except.ok.injEq, ScratchKey.mk.injEq] at looked
  exact ⟨labels_of_filled_wire looked.1, qtype_of_typeNumber (packs.qtype.trans looked.2)⟩

/-- For every packet that is answered, whatever was written to the Go cache before: the
reply has the id of the query, and it matches the query exactly when the opcode is QUERY
and the bytes packed from the last message that was stored under the key of the query carry
its question. When these are what `Pack` writes for the message, the name up to letter case
and the type agree, as far as the key has room for them; then the spelling, the class and the
opcode decide. -/
theorem reply_matches_iff {lib : Lib} {order : ByteOrder} {helpers : Helpers} (wall mono : Nat)
    {now : Nat} {events : List Fill} {map : BpfMap} {pkt reply : Bytes}
    (attached : (StepRuns.run (Fill.step lib) (World.initial (some ∅) wall mono) events).xdp =
      some map)
    (sent : xdpDnsCache order helpers map now pkt = .tx reply) :
    (dnsPart reply).take 2 = (dnsPart pkt).take 2 ∧
    ∃ key value bytes, extractKey pkt = .ok (.ofCacheKey key) ∧
      LastStored lib (World.initial (some ∅) wall mono) events key value bytes ∧
      lib.pack (minimalMsg value) = some bytes ∧
      (Matches pkt reply ↔
        opcode pkt = 0 ∧ ∃ q, Carries (dnsPart pkt) q ∧ Carries bytes q) ∧
      ∀ q q', Packs lib value bytes q → Carries (dnsPart pkt) q' →
        q'.name.labels.length ≤ 126 →
        lowerLabels q.name.labels = lowerLabels q'.name.labels ∧ q.qtype = q'.qtype ∧
        (Matches pkt reply ↔
          opcode pkt = 0 ∧ q.name.labels = q'.name.labels ∧ q.qclass = q'.qclass) := by
  obtain ⟨key, val, read, held, long, two, message⟩ := xdpDnsCache_tx sent
  obtain ⟨value, last⟩ := run_allStored lib wall mono events map attached key val held
  obtain ⟨built, packed⟩ := last.packed
  have txid : (dnsPart reply).take 2 = (dnsPart pkt).take 2 := by
    rw [message, List.take_append_of_le_length (Nat.le_of_eq two.symm),
      List.take_of_length_le (Nat.le_of_eq two)]
    rfl
  have decided : Matches pkt reply ↔
      opcode pkt = 0 ∧ ∃ q, Carries (dnsPart pkt) q ∧ Carries val.response q := by
    have carried (q : WireQuestion) : Carries (dnsPart reply) q ↔ Carries val.response q := by
      rw [message]
      exact carries_patched two long q
    constructor
    · rintro ⟨_, ⟨q, asked, answered⟩, query⟩
      exact ⟨query, q, asked, (carried q).mp answered⟩
    · rintro ⟨query, q, asked, answered⟩
      exact ⟨txid, ⟨q, asked, (carried q).mpr answered⟩, query⟩
  refine ⟨txid, key, value, val.response, read, last, packed, decided, ?_⟩
  intro q q' packs asked fewer
  obtain ⟨name, qtype⟩ := question_of_key built read packs asked fewer
  refine ⟨name, qtype, ?_⟩
  rw [decided]
  constructor
  · rintro ⟨query, q₀, asked', answered⟩
    obtain rfl := asked'.unique asked
    obtain rfl := answered.unique packs.carries
    exact ⟨query, rfl, rfl⟩
  · rintro ⟨query, labels, qclass⟩
    have same : q = q' := by
      obtain ⟨n, t, c⟩ := q
      obtain ⟨n', t', c'⟩ := q'
      obtain rfl : n = n' := Name.ext_labels labels
      exact congrArg₂ (WireQuestion.mk n) qtype qclass
    exact ⟨query, q', asked, same ▸ packs.carries⟩

/-! ### One stored answer -/

/-- The answer to a query for `a.`, its wire format after the id, and the map with it. -/
def storedMsg : Msg :=
  { response := true, question := [⟨"a.", typeA, classINET⟩],
    answer := [⟨"a.", classINET, 60, .a "192.0.2.1"⟩] }

def storedBytes : Bytes :=
  [0x80, 0, 0, 1, 0, 1, 0, 0, 0, 0, 1, 0x61, 0, 0, 1, 0, 1,
    0xc0, 0x0c, 0, 1, 0, 1, 0, 0, 0, 60, 0, 4, 192, 0, 2, 1]

def storedLib : Lib := tableLib [(storedMsg, storedBytes)]

def storedMap : BpfMap :=
  AList.insert ⟨[1, 0x61, 0] ++ List.replicate 252 0, typeA⟩ ⟨60, idBytes 0 ++ storedBytes⟩ ∅

def storedFill : List Fill := [.set "a.:1" storedMsg 60]

lemma storedMap_attached :
    (StepRuns.run (Fill.step storedLib) (World.initial (some ∅) 1 0) storedFill).xdp =
      some storedMap := rfl

/-- A query for a name of one letter and the type A, with the first octet of its flags. -/
def askPacket (flags letter class_ : UInt8) : Bytes :=
  (queryPacket [1, letter, 0, 0, 1, 0, class_]).set (dnsStart + 2) flags

def askQuestion (letter : UInt8) (sized : Sized [letter]) (class_ : UInt8) : WireQuestion where
  name := ⟨[[letter]], by simpa using sized, by simp⟩
  qtype := (0, 1)
  qclass := (0, class_)

def answerTo (pkt : Bytes) : Verdict := xdpDnsCache .little ⟨true, true⟩ storedMap second pkt

/-- The query as it was stored gets a reply that matches. -/
theorem same_question_matches :
    ∃ reply, answerTo (askPacket 1 0x61 1) = .tx reply ∧ Matches (askPacket 1 0x61 1) reply := by
  have sent : answerTo (askPacket 1 0x61 1) = .tx (answerTo (askPacket 1 0x61 1)).packet := by
    decide +kernel
  obtain ⟨_, key, value, bytes, _, ⟨before, e, after, only, ⟨_, _, _, rfl, _⟩, _⟩, packed, decided,
    _⟩ := reply_matches_iff 1 0 storedMap_attached sent
  have mem : .set _ value _ ∈ storedFill := only ▸ List.mem_append_right before List.mem_cons_self
  cases List.mem_singleton.mp mem
  have is : storedLib.pack (minimalMsg storedMsg) = some (idBytes 0 ++ storedBytes) := rfl
  cases is.symm.trans packed
  exact ⟨_, sent, decided.mpr ⟨by decide, askQuestion 0x61 (by decide) 1, by decide, by decide⟩⟩

/-- Another letter case, the class CH and the opcode NOTIFY: the stored answer is sent each
time, and it does not match. -/
theorem other_queries_answered :
    (∃ reply, answerTo (askPacket 1 0x41 1) = .tx reply ∧ ¬ Matches (askPacket 1 0x41 1) reply) ∧
    (∃ reply, answerTo (askPacket 1 0x61 3) = .tx reply ∧ ¬ Matches (askPacket 1 0x61 3) reply) ∧
    (∃ reply, answerTo (askPacket 0x21 0x61 1) = .tx reply ∧
      ¬ Matches (askPacket 0x21 0x61 1) reply) := by
  refine ⟨⟨(answerTo (askPacket 1 0x41 1)).packet, by decide +kernel, ?_⟩,
    ⟨(answerTo (askPacket 1 0x61 3)).packet, by decide +kernel, ?_⟩,
    ⟨(answerTo (askPacket 0x21 0x61 1)).packet, by decide +kernel, ?_⟩⟩
  · rintro ⟨_, ⟨q, asked, answered⟩, _⟩
    have upper : q = askQuestion 0x41 (by decide) 1 := asked.unique (by decide)
    have lower : q = askQuestion 0x61 (by decide) 1 := answered.unique (by decide +kernel)
    exact absurd (congrArg (·.name.labels) (upper.symm.trans lower)) (by decide)
  · rintro ⟨_, ⟨q, asked, answered⟩, _⟩
    have chaos : q = askQuestion 0x61 (by decide) 3 := asked.unique (by decide)
    have internet : q = askQuestion 0x61 (by decide) 1 := answered.unique (by decide +kernel)
    exact absurd (congrArg (·.qclass) (chaos.symm.trans internet)) (by decide)
  · rintro ⟨_, _, query⟩
    exact absurd query (by decide)

end XdpReply
