import Rec53.WireName
import Rec53.XdpCache

/-!
# The packet parser of the XDP program

Sections 1 to 6 of `xdp_dns_cache` in `server/xdp/dns_cache.c`: from the packet to the
key of the lookup. The key must be the one that `buildBPFCacheKey` makes of the same
name. The loop over the labels has `MAX_QNAME_LABELS` rounds, and the root label needs
one of them.

The scratch entry is in an array map, whose lookup at index 0 finds it always.
-/

namespace XdpParser

open Platform XdpCache WireName

def maxQnameLabels : Nat := 127

def ethHeaderLen : Nat := 14
def ipHeaderLen : Nat := 20
def udpHeaderLen : Nat := 8
def dnsHeaderLen : Nat := 12

def ipStart : Nat := ethHeaderLen
def udpStart : Nat := ipStart + ipHeaderLen
def dnsStart : Nat := udpStart + udpHeaderLen
def qnameStart : Nat := dnsStart + dnsHeaderLen

/-- The ways to end before the lookup: `goto pass`, and a read at or after `data_end`. -/
inductive Stop where
  | pass
  | fault
  deriving DecidableEq

def passIf (condition : Prop) [Decidable condition] : Except Stop Unit :=
  if condition then .error .pass else .ok ()

def readByte (pkt : Bytes) (i : Nat) : Except Stop UInt8 :=
  match pkt[i]? with
  | some b => .ok b
  | none => .error .fault

/-- Sections 1 to 4: an IPv4 packet without options, UDP to port 53, and a DNS query with
one question. -/
def parseHeaders (pkt : Bytes) : Except Stop Unit := do
  passIf (ipStart > pkt.length)
  passIf ((← readByte pkt 12) ≠ 0x08 ∨ (← readByte pkt 13) ≠ 0x00)
  passIf (udpStart > pkt.length)
  passIf ((← readByte pkt (ipStart + 9)) ≠ 17)
  passIf ((← readByte pkt ipStart) &&& 0x0F ≠ 5)
  passIf (dnsStart > pkt.length)
  passIf ((← readByte pkt (udpStart + 2)) ≠ 0 ∨ (← readByte pkt (udpStart + 3)) ≠ 53)
  passIf (qnameStart > pkt.length)
  passIf ((← readByte pkt (dnsStart + 2)) &&& 0x80 ≠ 0)
  passIf ((← readByte pkt (dnsStart + 4)) ≠ 0 ∨ (← readByte pkt (dnsStart + 5)) ≠ 1)

/-- The scratch key in memory: the octets of `qname` and then `_pad`, and `qtype`. -/
structure ScratchKey where
  octets : Bytes
  qtype : Nat
  deriving DecidableEq

/-- `safe_qname_write`; an offset of 255 is the padding. -/
def safeQnameWrite (octets : Bytes) (off : Nat) (val : UInt8) : Bytes := octets.set (off % 256) val

/-- The inner loop: `n` octets of the label are left, `j` are copied. -/
def copyLabel (pkt : Bytes) (qnameOffset : Nat) : (n j : Nat) → Bytes → Except Stop Bytes
  | 0, _, octets => .ok octets
  | n + 1, j, octets => do
    passIf (qnameStart + qnameOffset + j + 1 > pkt.length)
    let ch ← readByte pkt (qnameStart + qnameOffset + j)
    copyLabel pkt qnameOffset n (j + 1) (safeQnameWrite octets (qnameOffset + j) (lowerOctet ch))

/-- Section 5 with `n` rounds left; the result has the offset after the last label read. -/
def labelLoop (pkt : Bytes) : (n : Nat) → Bytes → Nat → Except Stop (Bytes × Nat)
  | 0, octets, qnameOffset => .ok (octets, qnameOffset)
  | n + 1, octets, qnameOffset => do
    passIf (qnameStart + qnameOffset + 1 > pkt.length)
    let labelLen ← readByte pkt (qnameStart + qnameOffset)
    if labelLen = 0 then
      passIf (qnameOffset ≥ maxQnameLen)
      return (safeQnameWrite octets qnameOffset 0, qnameOffset + 1)
    else
      passIf (labelLen.toNat > 63)
      passIf (qnameOffset + 1 + labelLen.toNat > maxQnameLen)
      let octets := safeQnameWrite octets qnameOffset labelLen
      passIf (qnameStart + (qnameOffset + 1) + labelLen.toNat > pkt.length)
      let octets ← copyLabel pkt (qnameOffset + 1) (min 63 labelLen.toNat) 0 octets
      labelLoop pkt n octets (qnameOffset + 1 + labelLen.toNat)

/-- Sections 1 to 6: the key of the lookup. -/
def extractKey (pkt : Bytes) : Except Stop ScratchKey := do
  parseHeaders pkt
  passIf (qnameStart + 1 > pkt.length)
  let (octets, qnameOffset) ← labelLoop pkt maxQnameLabels (List.replicate 256 0) 0
  passIf (qnameStart + qnameOffset + 4 > pkt.length)
  let high ← readByte pkt (qnameStart + qnameOffset)
  let low ← readByte pkt (qnameStart + qnameOffset + 1)
  return ⟨octets, high.toNat * 256 + low.toNat⟩

/-- The key of the Go side in the same layout; its padding stays zero. -/
def ScratchKey.ofCacheKey (key : CacheKey) : ScratchKey := ⟨key.qname ++ [0], key.qtype⟩

/-! ### Running the parser -/

lemma passIf_bind {α : Type} {condition : Prop} [Decidable condition]
    (next : Unit → Except Stop α) :
    (passIf condition >>= next) = if condition then .error .pass else next () := by
  rw [passIf]
  split
  · rfl
  · rfl

lemma readByte_bind {α : Type} {pkt : Bytes} {i : Nat} {b : UInt8} (at_i : pkt[i]? = some b)
    (next : UInt8 → Except Stop α) : (readByte pkt i >>= next) = next b := by
  rw [readByte, at_i]
  rfl

/-- The packet from the question on. -/
def payload (pkt : Bytes) : Bytes := pkt.drop qnameStart

lemma length_payload (pkt : Bytes) : (payload pkt).length = pkt.length - qnameStart :=
  List.length_drop

lemma getElem?_of_drop_payload {pkt : Bytes} {i : Nat} {b : UInt8} {rest : Bytes}
    (ahead : (payload pkt).drop i = b :: rest) : pkt[qnameStart + i]? = some b := by
  rw [payload, List.drop_drop] at ahead
  have first : (pkt.drop (qnameStart + i))[0]? = some b := by
    rw [ahead]
    rfl
  rwa [List.getElem?_drop, Nat.add_zero] at first

lemma length_of_drop_payload {pkt : Bytes} {i : Nat} {some_left : Bytes}
    (ahead : (payload pkt).drop i = some_left) (left : some_left ≠ []) :
    pkt.length = qnameStart + i + some_left.length := by
  have length := congrArg List.length ahead
  have positive := List.length_pos_iff.mpr left
  rw [List.length_drop, length_payload] at length
  omega

/-- The key with the given octets written, and zeros after them. -/
def filled (written : Bytes) : Bytes := written ++ List.replicate (256 - written.length) 0

lemma safeQnameWrite_filled {written : Bytes} (room : written.length < 256) (val : UInt8) :
    safeQnameWrite (filled written) written.length val = filled (written ++ [val]) := by
  have zeros : List.replicate (256 - written.length) (0 : UInt8) =
      0 :: List.replicate (256 - (written.length + 1)) 0 := by
    rw [← List.replicate_succ]
    congr 1
    omega
  rw [safeQnameWrite, Nat.mod_eq_of_lt room, filled, zeros,
    List.set_append_right _ _ (Nat.le_refl _), Nat.sub_self, List.set_cons_zero, filled,
    List.length_append, List.length_singleton, List.append_assoc, List.singleton_append]

lemma copyLabel_filled {pkt : Bytes} (qnameOffset j : Nat) (label : Bytes) {rest : Bytes}
    {written : Bytes} (at_j : written.length = qnameOffset + j)
    (room : written.length + label.length ≤ maxQnameLen)
    (ahead : (payload pkt).drop written.length = label ++ rest) :
    copyLabel pkt qnameOffset label.length j (filled written) =
      .ok (filled (written ++ label.map lowerOctet)) := by
  induction label generalizing j written with
  | nil => simp [copyLabel]
  | cons ch label ih =>
    have first := getElem?_of_drop_payload ahead
    have length := length_of_drop_payload ahead (List.cons_ne_nil _ _)
    have within : ¬ qnameStart + qnameOffset + j + 1 > pkt.length := by
      simp only [List.cons_append, List.length_cons] at length
      omega
    rw [at_j, ← Nat.add_assoc] at first
    rw [List.length_cons, maxQnameLen] at room
    rw [List.length_cons, copyLabel, passIf_bind, if_neg within, readByte_bind first, ← at_j,
      safeQnameWrite_filled (by omega)]
    have written_next : (written ++ [lowerOctet ch]).length = written.length + 1 := by simp
    rw [ih (j + 1) (by omega) (by rw [maxQnameLen]; omega)]
    · simp
    · rw [written_next, ← List.drop_drop, ahead]
      rfl

/-! One round of the loop, by what lies ahead of it. -/

section Round

variable {pkt : Bytes} {n : Nat} {written : Bytes} {labelLen : UInt8} {rest : Bytes}
  (ahead : (payload pkt).drop written.length = labelLen :: rest)

lemma labelLoop_end (nothing : (payload pkt).drop written.length = []) :
    labelLoop pkt (n + 1) (filled written) written.length = .error .pass := by
  have past : qnameStart + written.length + 1 > pkt.length := by
    have length := congrArg List.length nothing
    rw [List.length_drop, length_payload, List.length_nil] at length
    omega
  rw [labelLoop, passIf_bind, if_pos past]

include ahead

lemma within_of_ahead : ¬ qnameStart + written.length + 1 > pkt.length := by
  have length := length_of_drop_payload ahead (List.cons_ne_nil _ _)
  rw [List.length_cons] at length
  omega

lemma labelLoop_root (root : labelLen = 0) :
    labelLoop pkt (n + 1) (filled written) written.length =
      if written.length ≥ maxQnameLen then .error .pass
      else .ok (filled (written ++ [0]), written.length + 1) := by
  rw [labelLoop, passIf_bind, if_neg (within_of_ahead ahead),
    readByte_bind (getElem?_of_drop_payload ahead), if_pos root, passIf_bind]
  split
  · rfl
  · rename_i room
    rw [maxQnameLen] at room
    rw [safeQnameWrite_filled (by omega)]
    rfl

/-- A label that is too long, has no room or is cut off. -/
lemma labelLoop_bad (nonzero : labelLen ≠ 0)
    (bad : ¬ (labelLen.toNat ≤ 63 ∧ written.length + 1 + labelLen.toNat ≤ maxQnameLen ∧
      labelLen.toNat ≤ rest.length)) :
    labelLoop pkt (n + 1) (filled written) written.length = .error .pass := by
  have length := length_of_drop_payload ahead (List.cons_ne_nil _ _)
  rw [List.length_cons] at length
  rw [labelLoop, passIf_bind, if_neg (within_of_ahead ahead),
    readByte_bind (getElem?_of_drop_payload ahead), if_neg nonzero, passIf_bind]
  by_cases long : labelLen.toNat > 63
  · rw [if_pos long]
  rw [if_neg long, passIf_bind]
  by_cases beyond : written.length + 1 + labelLen.toNat > maxQnameLen
  · rw [if_pos beyond]
  have cut : qnameStart + (written.length + 1) + labelLen.toNat > pkt.length := by omega
  rw [if_neg beyond, passIf_bind, if_pos cut]

lemma labelLoop_label (nonzero : labelLen ≠ 0) (short : labelLen.toNat ≤ 63)
    (room : written.length + 1 + labelLen.toNat ≤ maxQnameLen)
    (present : labelLen.toNat ≤ rest.length) :
    labelLoop pkt (n + 1) (filled written) written.length =
      labelLoop pkt n (filled (written ++ labelLen :: (rest.take labelLen.toNat).map lowerOctet))
        (written.length + 1 + labelLen.toNat) := by
  have length := length_of_drop_payload ahead (List.cons_ne_nil _ _)
  rw [List.length_cons] at length
  have whole : ¬ qnameStart + (written.length + 1) + labelLen.toNat > pkt.length := by omega
  have size : (rest.take labelLen.toNat).length = labelLen.toNat := List.length_take_of_le present
  have next : (written ++ [labelLen]).length = written.length + 1 := by simp
  have behind : (payload pkt).drop (written ++ [labelLen]).length =
      rest.take labelLen.toNat ++ rest.drop labelLen.toNat := by
    rw [next, ← List.drop_drop, ahead, List.take_append_drop]
    rfl
  have copied : copyLabel pkt (written.length + 1) labelLen.toNat 0
      (filled (written ++ [labelLen])) =
        .ok (filled (written ++ [labelLen] ++ (rest.take labelLen.toNat).map lowerOctet)) := by
    have room_left : (written ++ [labelLen]).length + (rest.take labelLen.toNat).length ≤
        maxQnameLen := by
      rw [next, size]
      exact room
    have copy := copyLabel_filled (written.length + 1) 0 (rest.take labelLen.toNat) next room_left
      behind
    rwa [size] at copy
  have inside : written.length < 256 := by
    rw [maxQnameLen] at room
    omega
  rw [labelLoop, passIf_bind, if_neg (within_of_ahead ahead),
    readByte_bind (getElem?_of_drop_payload ahead), if_neg nonzero, passIf_bind,
    if_neg (Nat.not_lt.mpr short), passIf_bind, if_neg (Nat.not_lt.mpr room)]
  dsimp only
  rw [passIf_bind, if_neg whole, safeQnameWrite_filled inside, Nat.min_eq_right short, copied]
  simp only [List.append_assoc, List.singleton_append]
  rfl

end Round

lemma length_copied (written : Bytes) {labelLen : UInt8} {rest : Bytes}
    (present : labelLen.toNat ≤ rest.length) :
    (written ++ labelLen :: (rest.take labelLen.toNat).map lowerOctet).length =
      written.length + 1 + labelLen.toNat := by
  simp only [List.length_append, List.length_cons, List.length_map,
    List.length_take_of_le present]
  omega

/-- A label that is copied stands before what is read after it. -/
lemma scanned_copied {labelLen : UInt8} {rest : Bytes} (present : labelLen.toNat ≤ rest.length)
    (labels : List Bytes) (ended : Bool) :
    labelLen :: ((rest.take labelLen.toNat).map lowerOctet ++ scanned (lowerLabels labels) ended) =
      scanned (lowerLabels (rest.take labelLen.toNat :: labels)) ended := by
  have size : ((rest.take labelLen.toNat).map lowerOctet).length = labelLen.toNat := by
    rw [List.length_map, List.length_take_of_le present]
  exact (scanned_cons_of_length size _ _).symm

/-- The loop reads what `scan` reads, and writes it in lower case. -/
theorem labelLoop_filled (pkt : Bytes) (n : Nat) (written : Bytes)
    (room : written.length ≤ maxQnameLen) :
    labelLoop pkt n (filled written) written.length =
      match scan n (maxQnameLen - written.length) ((payload pkt).drop written.length) with
      | none => .error .pass
      | some (labels, ended) =>
        .ok (filled (written ++ scanned (lowerLabels labels) ended),
          written.length + (scanned labels ended).length) := by
  induction n generalizing written with
  | zero => simp [labelLoop, scan, scanned, lowerLabels]
  | succ n ih =>
    cases ahead : (payload pkt).drop written.length with
    | nil => rw [labelLoop_end ahead, scan]
    | cons labelLen rest =>
      rw [scan]
      by_cases root : labelLen = 0
      · rw [labelLoop_root ahead root, if_pos root]
        by_cases full : written.length ≥ maxQnameLen
        · rw [if_pos full, if_pos (Nat.sub_eq_zero_of_le full)]
        · rw [if_neg full, if_neg (Nat.sub_ne_zero_of_lt (Nat.lt_of_not_le full))]
          rfl
      rw [if_neg root]
      by_cases whole : labelLen.toNat ≤ 63 ∧ 1 + labelLen.toNat ≤ maxQnameLen - written.length ∧
          labelLen.toNat ≤ rest.length
      · obtain ⟨short, roomy, present⟩ := whole
        rw [labelLoop_label ahead root short (by omega) present,
          if_pos ⟨short, roomy, present⟩]
        -- the loop goes on behind the label it has copied
        have next := length_copied written present
        have further := ih (written ++ labelLen :: (rest.take labelLen.toNat).map lowerOctet)
          (by omega)
        have behind : (payload pkt).drop (written.length + 1 + labelLen.toNat) =
            rest.drop labelLen.toNat := by
          rw [Nat.add_assoc, ← List.drop_drop, ahead, Nat.add_comm, List.drop_succ_cons]
        have left : maxQnameLen - (written.length + 1 + labelLen.toNat) =
            maxQnameLen - written.length - (1 + labelLen.toNat) := by omega
        rw [next, behind, left] at further
        rw [further]
        cases scan n (maxQnameLen - written.length - (1 + labelLen.toNat))
            (rest.drop labelLen.toNat) with
        | none => rfl
        | some found =>
          obtain ⟨labels, ended⟩ := found
          have octets := scanned_copied present labels ended
          have read : written.length + 1 + labelLen.toNat + (scanned labels ended).length =
              written.length + (scanned (rest.take labelLen.toNat :: labels) ended).length := by
            rw [scanned_cons, List.length_cons, List.length_append, List.length_take_of_le present]
            omega
          dsimp only
          rw [List.append_assoc, List.cons_append, octets, read]
      · have bad : ¬ (labelLen.toNat ≤ 63 ∧ written.length + 1 + labelLen.toNat ≤ maxQnameLen ∧
            labelLen.toNat ≤ rest.length) := by omega
        rw [labelLoop_bad ahead root bad, if_neg whole]

/-- The two octets of the type, when the type and the class are all there. -/
def keyOf (octets : Bytes) : Bytes → Except Stop ScratchKey
  | high :: low :: _ :: _ :: _ => .ok ⟨octets, high.toNat * 256 + low.toNat⟩
  | _ => .error .pass

lemma keyOf_short (octets : Bytes) {rest : Bytes} (short : rest.length < 4) :
    keyOf octets rest = .error .pass := by
  rw [keyOf]
  intro high low class_ class' tail is
  rw [is] at short
  simp at short
  omega

/-- Section 6. -/
lemma qtype_keyOf (pkt octets : Bytes) (qnameOffset : Nat) :
    (do
      passIf (qnameStart + qnameOffset + 4 > pkt.length)
      let high ← readByte pkt (qnameStart + qnameOffset)
      let low ← readByte pkt (qnameStart + qnameOffset + 1)
      return (⟨octets, high.toNat * 256 + low.toNat⟩ : ScratchKey)) =
    keyOf octets ((payload pkt).drop qnameOffset) := by
  have length : ((payload pkt).drop qnameOffset).length =
      pkt.length - qnameStart - qnameOffset := by
    rw [List.length_drop, length_payload]
  rw [passIf_bind]
  by_cases short : qnameStart + qnameOffset + 4 > pkt.length
  · rw [if_pos short, keyOf_short _ (by omega)]
  · rw [if_neg short]
    obtain ⟨high, low, class_, class', tail, ahead⟩ : ∃ high low class_ class' tail,
        (payload pkt).drop qnameOffset = high :: low :: class_ :: class' :: tail := by
      match whole : (payload pkt).drop qnameOffset with
      | high :: low :: class_ :: class' :: tail => exact ⟨high, low, class_, class', tail, rfl⟩
      | [] | [_] | [_, _] | [_, _, _] =>
        rw [whole] at length
        simp only [List.length_cons, List.length_nil] at length
        omega
    have second : (payload pkt).drop (qnameOffset + 1) = low :: class_ :: class' :: tail := by
      rw [← List.drop_drop, ahead]
      rfl
    rw [readByte_bind (getElem?_of_drop_payload ahead), Nat.add_assoc,
      readByte_bind (getElem?_of_drop_payload second), ahead]
    rfl

/-- The key of a query packet, from what `scan` reads of its question. -/
theorem extractKey_eq {pkt : Bytes} (query : parseHeaders pkt = .ok ()) :
    extractKey pkt =
      match scan maxQnameLabels maxQnameLen (payload pkt) with
      | none => .error .pass
      | some (labels, ended) =>
        keyOf (filled (scanned (lowerLabels labels) ended))
          ((payload pkt).drop (scanned labels ended).length) := by
  have empty : filled [] = List.replicate 256 0 := rfl
  have loop := labelLoop_filled pkt maxQnameLabels [] (Nat.zero_le _)
  simp only [List.length_nil, Nat.sub_zero, List.drop_zero, List.nil_append, Nat.zero_add,
    empty] at loop
  rw [extractKey, query]
  change (passIf (qnameStart + 1 > pkt.length) >>= fun _ => _) = _
  rw [passIf_bind]
  by_cases none_left : qnameStart + 1 > pkt.length
  · have nothing : payload pkt = [] := by
      rw [← List.length_eq_zero_iff, length_payload]
      omega
    rw [if_pos none_left, nothing]
    rfl
  · rw [if_neg none_left, loop]
    cases scan maxQnameLabels maxQnameLen (payload pkt) with
    | none => rfl
    | some found => exact qtype_keyOf pkt _ _

/-! ### The key of the Go side -/

/-- `PackDomainName` after `CanonicalName` gives the wire format in lower case. -/
def Presents (lib : Lib) (name : String) (n : Name) : Prop :=
  lib.canonicalWire name = some n.lower.wire

/-- The question of the packet is for the name and the type. -/
def Asks (pkt : Bytes) (n : Name) (qtype : Nat) : Prop :=
  ∃ high low class_ class' rest, high.toNat * 256 + low.toNat = qtype ∧
    payload pkt = n.wire ++ high :: low :: class_ :: class' :: rest

/-- The program looks up the key that `buildBPFCacheKey` makes. -/
def SameKey (lib : Lib) (pkt : Bytes) (name : String) (qtype : Nat) : Prop :=
  ∃ key, buildBPFCacheKey lib name qtype = some key ∧ extractKey pkt = .ok (.ofCacheKey key)

lemma sameKey_iff {lib : Lib} {name : String} {n : Name} (presents : Presents lib name n)
    {pkt : Bytes} {qtype : Nat} :
    SameKey lib pkt name qtype ↔ extractKey pkt = .ok ⟨filled n.lower.wire, qtype⟩ := by
  have fits : n.lower.wire.length ≤ maxQnameLen := by
    rw [length_wire]
    exact n.lower.fits
  have zeros : List.replicate (256 - n.lower.wire.length) (0 : UInt8) =
      List.replicate (maxQnameLen - n.lower.wire.length) 0 ++ [0] := by
    rw [← List.replicate_succ']
    congr 1
    rw [maxQnameLen] at fits ⊢
    omega
  have same : ScratchKey.ofCacheKey ⟨n.lower.wire.take maxQnameLen ++
      List.replicate (maxQnameLen - n.lower.wire.length) 0, qtype⟩ =
        ⟨filled n.lower.wire, qtype⟩ := by
    rw [ScratchKey.ofCacheKey, List.take_of_length_le fits, filled, zeros, List.append_assoc]
  rw [SameKey, buildBPFCacheKey, presents]
  simp only [Option.some.injEq, exists_eq_left', same]

lemma filled_append_zero {written : Bytes} (room : written.length < 256) :
    filled (written ++ [0]) = filled written := by
  have zeros : 256 - written.length = 256 - (written.length + 1) + 1 := by omega
  rw [filled, filled, zeros, List.replicate_succ, List.length_append, List.length_singleton,
    List.append_assoc, List.singleton_append]

/-- A name leaves room for 127 labels at most. -/
lemma length_labels_le (n : Name) : n.labels.length ≤ maxQnameLabels := by
  have two := two_mul_length_le n.sized
  have fits := n.fits
  rw [maxQnameLabels]
  omega

lemma length_labelOctets_le (n : Name) : (labelOctets n.labels).length ≤ maxQnameLen :=
  Nat.le_of_succ_le n.fits

/-- With a round left for the root label the name is read to its end. -/
lemma scan_wire {n : Name} (fewer : n.labels.length < maxQnameLabels) (rest : Bytes) :
    scan maxQnameLabels maxQnameLen (n.wire ++ rest) = some (n.labels, true) := by
  have met : RoundsMet maxQnameLabels n.labels true := fewer
  have fits : (scanned n.labels true).length ≤ maxQnameLen := by
    rw [scanned_true, length_wire]
    exact n.fits
  exact scan_scanned n.sized fits met rest

/-- When the labels use up the rounds the loop ends behind them. -/
lemma scan_labels {labels : List Bytes} (sized : ∀ label ∈ labels, Sized label)
    (all : labels.length = maxQnameLabels) (fits : (labelOctets labels).length ≤ maxQnameLen)
    (rest : Bytes) :
    scan maxQnameLabels maxQnameLen (labelOctets labels ++ rest) = some (labels, false) := by
  have met : RoundsMet maxQnameLabels labels false := all
  rw [← scanned_false] at fits ⊢
  exact scan_scanned sized fits met rest

/-- The labels of a well-formed name are read in either case. -/
lemma scan_of_wire_prefix {n : Name} {octets : Bytes} (starts : n.wire <+: octets) :
    ∃ ended, scan maxQnameLabels maxQnameLen octets = some (n.labels, ended) := by
  obtain ⟨rest, rfl⟩ := starts
  by_cases fewer : n.labels.length < maxQnameLabels
  · exact ⟨true, scan_wire fewer rest⟩
  · have all : n.labels.length = maxQnameLabels :=
      Nat.le_antisymm (length_labels_le n) (Nat.le_of_not_lt fewer)
    have read := scan_labels n.sized all (length_labelOctets_le n) (0 :: rest)
    refine ⟨false, ?_⟩
    rwa [Name.wire, List.append_assoc]

section Agreement

variable {lib : Lib} {pkt : Bytes} (query : parseHeaders pkt = .ok ()) {n : Name} {qtype : Nat}
  (asks : Asks pkt n qtype)

include query asks

lemma extractKey_fewer (fewer : n.labels.length < maxQnameLabels) :
    extractKey pkt = .ok ⟨filled n.lower.wire, qtype⟩ := by
  obtain ⟨high, low, class_, class', rest, rfl, question⟩ := asks
  have behind : (payload pkt).drop (scanned n.labels true).length =
      high :: low :: class_ :: class' :: rest := by
    rw [question]
    exact List.drop_left
  have read := scan_wire fewer (high :: low :: class_ :: class' :: rest)
  rw [← question] at read
  rw [extractKey_eq query, read]
  dsimp only
  rw [behind]
  rfl

/-- The root label and the high octet are taken for the type. -/
lemma extractKey_all (all : n.labels.length = maxQnameLabels) :
    extractKey pkt = .ok ⟨filled n.lower.wire, qtype / 256⟩ := by
  obtain ⟨high, low, class_, class', rest, rfl, question⟩ := asks
  rw [Name.wire, List.append_assoc, List.singleton_append] at question
  have behind : (payload pkt).drop (scanned n.labels false).length =
      0 :: high :: low :: class_ :: class' :: rest := by
    rw [question, scanned_false]
    exact List.drop_left
  have short : (labelOctets (lowerLabels n.labels)).length < 256 :=
    Nat.lt_of_succ_le (Nat.le_succ_of_le n.lower.fits)
  have octets : filled (scanned (lowerLabels n.labels) false) = filled n.lower.wire := by
    rw [scanned_false]
    exact (filled_append_zero short).symm
  have small := low.toNat_lt
  have type : (0 : UInt8).toNat * 256 + high.toNat = (high.toNat * 256 + low.toNat) / 256 := by
    rw [UInt8.toNat_zero]
    omega
  have read := scan_labels n.sized all (length_labelOctets_le n)
    (0 :: high :: low :: class_ :: class' :: rest)
  rw [← question] at read
  rw [extractKey_eq query, read]
  dsimp only
  rw [behind, octets, keyOf, type]

/-- The keys are the same up to 126 labels, and at 127 for the type 0 only. -/
lemma sameKey_iff_fewer {name : String} (presents : Presents lib name n) :
    SameKey lib pkt name qtype ↔ n.labels.length < maxQnameLabels ∨ qtype = 0 := by
  rw [sameKey_iff presents]
  by_cases fewer : n.labels.length < maxQnameLabels
  · rw [extractKey_fewer query asks fewer]
    simp [fewer]
  · have all : n.labels.length = maxQnameLabels :=
      Nat.le_antisymm (length_labels_le n) (Nat.le_of_not_lt fewer)
    rw [extractKey_all query asks all]
    simp only [Except.ok.injEq, ScratchKey.mk.injEq, true_and, fewer, false_or]
    omega

end Agreement

/-- The octets begin with as many labels as the loop has rounds, and a type and a class
could still follow them. -/
def FillsLoop (octets : Bytes) : Prop :=
  ∃ labels rest, labels.length = maxQnameLabels ∧ (∀ label ∈ labels, Sized label) ∧
    (labelOctets labels).length ≤ maxQnameLen ∧ octets = labelOctets labels ++ rest ∧
    4 ≤ rest.length

/-- A malformed name gets to the lookup exactly when its labels use up the loop. -/
lemma pass_iff_of_malformed {pkt : Bytes} (query : parseHeaders pkt = .ok ())
    (malformed : ∀ n : Name, ¬ n.wire <+: payload pkt) :
    extractKey pkt = .error .pass ↔ ¬ FillsLoop (payload pkt) := by
  constructor
  · rintro passed ⟨labels, rest, all, sized, fits, question, enough⟩
    have read := scan_labels sized all fits rest
    rw [← question] at read
    rw [extractKey_eq query, read] at passed
    simp only [scanned_false] at passed
    rw [question, List.drop_left] at passed
    match rest with
    | high :: low :: class_ :: class' :: tail => cases passed
    | [] | [_] | [_, _] | [_, _, _] => simp at enough
  · intro free
    rw [extractKey_eq query]
    cases read : scan maxQnameLabels maxQnameLen (payload pkt) with
    | none => rfl
    | some found =>
      obtain ⟨labels, ended⟩ := found
      obtain ⟨sized, ⟨rest, question⟩, fits, met⟩ := scanned_of_scan read
      cases ended with
      | true =>
        rw [scanned, if_pos rfl, List.length_append] at fits
        exact absurd ⟨rest, question⟩ (malformed ⟨labels, sized, fits⟩)
      | false =>
        simp only [scanned_false] at fits question ⊢
        have short : rest.length < 4 := by
          by_contra long
          exact free ⟨labels, rest, met, sized, fits, question.symm, Nat.le_of_not_lt long⟩
        rw [← question, List.drop_left, keyOf_short _ short]

/-- For every query packet. When its question name is well formed, in any letter case, the
program looks up the key that the Go side makes of the name exactly when the name has at
most 126 labels, or 127 and the type 0. When it is malformed the packet is passed without a
lookup exactly when its labels do not use up the loop. -/
theorem xdp_key_agrees_iff (lib : Lib) (pkt : Bytes) (query : parseHeaders pkt = .ok ()) :
    (∀ n name qtype, Presents lib name n → Asks pkt n qtype →
      (SameKey lib pkt name qtype ↔ n.labels.length ≤ 126 ∨ qtype = 0)) ∧
    ((∀ n : Name, ¬ n.wire <+: payload pkt) →
      (extractKey pkt = .error .pass ↔ ¬ FillsLoop (payload pkt))) := by
  constructor
  · intro n name qtype presents asks
    have fewer : n.labels.length ≤ 126 ↔ n.labels.length < maxQnameLabels := Nat.lt_succ_iff.symm
    rw [fewer]
    exact sameKey_iff_fewer query asks presents
  · exact pass_iff_of_malformed query

/-! ### Packets with a short and with the longest name -/

/-- Ethernet, IPv4, UDP and DNS headers of a query. -/
def queryHeaders : Bytes :=
  List.replicate 12 0 ++ [8, 0] ++
    [0x45, 0, 0, 0, 0, 0, 0, 0, 64, 17] ++ List.replicate 10 0 ++
    [0, 0, 0, 53, 0, 0, 0, 0] ++
    [0, 7, 1, 0, 0, 1, 0, 0, 0, 0, 0, 0]

/-- A query packet for the given octets of the question. -/
def queryPacket (question : Bytes) : Bytes := queryHeaders ++ question

lemma payload_queryPacket (question : Bytes) : payload (queryPacket question) = question := rfl

/-- `wWw.a.` -/
def shortName : Name := ⟨[[119, 87, 119], [97]], by decide, by decide⟩

/-- A mixed-case name is looked up as the Go side stores it, and a label of 64 octets is
passed. -/
theorem mixed_case_same_key :
    SameKey plainLib (queryPacket (shortName.wire ++ [0, 1, 0, 1])) "www.A." 1 ∧
      extractKey (queryPacket [64, 0, 0, 1, 0, 1]) = .error .pass := by
  have asks : Asks (queryPacket (shortName.wire ++ [0, 1, 0, 1])) shortName 1 :=
    ⟨0, 1, 0, 1, [], rfl, rfl⟩
  have bad : scan maxQnameLabels maxQnameLen [64, 0, 0, 1, 0, 1] = none := rfl
  constructor
  · have agrees := (xdp_key_agrees_iff plainLib _ rfl).1 shortName "www.A." 1 rfl asks
    exact agrees.mpr (.inl (by decide))
  · refine ((xdp_key_agrees_iff plainLib (queryPacket [64, 0, 0, 1, 0, 1]) rfl).2 ?_).mpr ?_
    · intro n starts
      obtain ⟨ended, read⟩ := scan_of_wire_prefix starts
      rw [payload_queryPacket, bad] at read
      cases read
    · rintro ⟨labels, rest, all, sized, fits, question, _⟩
      have read := scan_labels sized all fits rest
      rw [← question, payload_queryPacket, bad] at read
      cases read

/-- The name of 127 labels of one octet. -/
def longestName : Name where
  labels := List.replicate 127 [97]
  sized := by
    intro label mem
    rw [List.eq_of_mem_replicate mem]
    decide
  fits := by decide +kernel

def longestText : String := String.ofList (List.replicate 127 ['a', '.']).flatten

def longestQuery : Bytes := queryPacket (longestName.wire ++ [0, 1, 0, 1])

/-- A query for 128 labels, one more than fit into a name. -/
def overlongQuery : Bytes :=
  queryPacket (labelOctets longestName.labels ++ [1, 97, 0, 0, 1, 0, 1])

/-- The longest name is looked up with the type 0 in place of A, and the malformed name
gets to the lookup. -/
theorem longest_name_other_key :
    (parseHeaders longestQuery = .ok () ∧ Presents plainLib longestText longestName ∧
      Asks longestQuery longestName 1 ∧ ¬ SameKey plainLib longestQuery longestText 1) ∧
    (parseHeaders overlongQuery = .ok () ∧ (∀ n : Name, ¬ n.wire <+: payload overlongQuery) ∧
      extractKey overlongQuery ≠ .error .pass) := by
  have all : longestName.labels.length = maxQnameLabels := List.length_replicate
  have fits := length_labelOctets_le longestName
  constructor
  · have query : parseHeaders longestQuery = .ok () := rfl
    have presents : Presents plainLib longestText longestName := by
      have packed (chars : List Char) : plainLib.canonicalWire (String.ofList chars) =
          some (wireLabels [] (chars.map Char.toLower)) := by
        change some (wireLabels [] ((String.ofList chars).toList.map Char.toLower)) = _
        rw [String.toList_ofList]
      have same : some (wireLabels [] ((List.replicate 127 ['a', '.']).flatten.map Char.toLower)) =
          some longestName.lower.wire := by
        decide +kernel
      exact (packed _).trans same
    have asks : Asks longestQuery longestName 1 :=
      ⟨0, 1, 0, 1, [], rfl, payload_queryPacket _⟩
    refine ⟨query, presents, asks, ?_⟩
    rw [sameKey_iff_fewer query asks presents, all]
    decide
  · have query : parseHeaders overlongQuery = .ok () := rfl
    have malformed : ∀ n : Name, ¬ n.wire <+: payload overlongQuery := by
      intro n starts
      obtain ⟨ended, read⟩ := scan_of_wire_prefix starts
      have labels := scan_labels longestName.sized all fits [1, 97, 0, 0, 1, 0, 1]
      rw [overlongQuery, payload_queryPacket, labels] at read
      obtain ⟨rest, question⟩ := starts
      simp only [Option.some.injEq, Prod.mk.injEq] at read
      rw [overlongQuery, payload_queryPacket, Name.wire, ← read.1, List.append_assoc] at question
      cases List.append_cancel_left question
    refine ⟨query, malformed, ?_⟩
    rw [ne_eq, pass_iff_of_malformed query malformed, not_not]
    exact ⟨longestName.labels, _, all, longestName.sized, fits, rfl, by decide⟩

end XdpParser
