import Rec53.AccessLog
import Rec53.XdpParser

/-!
# What the packet parser reads and writes

The parser of `xdp_dns_cache` once more, with a log of the packet bytes it reads and of the
offsets it hands to `safe_qname_write`. Without the log it is the parser of `XdpParser`. The
label loop checks `MAX_QNAME_LEN` before it stores the length octet, so the offsets of a
label and of its length are below that limit, and the mask in `safe_qname_write` has nothing
to do.
-/

namespace XdpBounds

open Platform XdpCache WireName XdpParser AccessLog

/-- A byte of the packet, or the offset given to `safe_qname_write`. -/
inductive Access where
  | read (i : Nat)
  | write (off : Nat)
  deriving DecidableEq

def passIfLogged (condition : Prop) [Decidable condition] : Logged Access Stop Unit :=
  .lift (passIf condition)

def readByteLogged (pkt : Bytes) (i : Nat) : Logged Access Stop UInt8 :=
  .touch (.read i) (readByte pkt i)

def safeQnameWriteLogged (octets : Bytes) (off : Nat) (val : UInt8) : Logged Access Stop Bytes :=
  .touch (.write off) (.ok (safeQnameWrite octets off val))

def parseHeadersLogged (pkt : Bytes) : Logged Access Stop Unit := do
  passIfLogged (ipStart > pkt.length)
  passIfLogged ((← readByteLogged pkt 12) ≠ 0x08 ∨ (← readByteLogged pkt 13) ≠ 0x00)
  passIfLogged (udpStart > pkt.length)
  passIfLogged ((← readByteLogged pkt (ipStart + 9)) ≠ 17)
  passIfLogged ((← readByteLogged pkt ipStart) &&& 0x0F ≠ 5)
  passIfLogged (dnsStart > pkt.length)
  passIfLogged ((← readByteLogged pkt (udpStart + 2)) ≠ 0 ∨
    (← readByteLogged pkt (udpStart + 3)) ≠ 53)
  passIfLogged (qnameStart > pkt.length)
  passIfLogged ((← readByteLogged pkt (dnsStart + 2)) &&& 0x80 ≠ 0)
  passIfLogged ((← readByteLogged pkt (dnsStart + 4)) ≠ 0 ∨
    (← readByteLogged pkt (dnsStart + 5)) ≠ 1)

def copyLabelLogged (pkt : Bytes) (qnameOffset : Nat) :
    (n j : Nat) → Bytes → Logged Access Stop Bytes
  | 0, _, octets => pure octets
  | n + 1, j, octets => do
    passIfLogged (qnameStart + qnameOffset + j + 1 > pkt.length)
    let ch ← readByteLogged pkt (qnameStart + qnameOffset + j)
    let octets ← safeQnameWriteLogged octets (qnameOffset + j) (lowerOctet ch)
    copyLabelLogged pkt qnameOffset n (j + 1) octets

def labelLoopLogged (pkt : Bytes) : (n : Nat) → Bytes → Nat → Logged Access Stop (Bytes × Nat)
  | 0, octets, qnameOffset => pure (octets, qnameOffset)
  | n + 1, octets, qnameOffset => do
    passIfLogged (qnameStart + qnameOffset + 1 > pkt.length)
    let labelLen ← readByteLogged pkt (qnameStart + qnameOffset)
    if labelLen = 0 then
      passIfLogged (qnameOffset ≥ maxQnameLen)
      let octets ← safeQnameWriteLogged octets qnameOffset 0
      return (octets, qnameOffset + 1)
    else
      passIfLogged (labelLen.toNat > 63)
      passIfLogged (qnameOffset + 1 + labelLen.toNat > maxQnameLen)
      let octets ← safeQnameWriteLogged octets qnameOffset labelLen
      passIfLogged (qnameStart + (qnameOffset + 1) + labelLen.toNat > pkt.length)
      let octets ← copyLabelLogged pkt (qnameOffset + 1) (min 63 labelLen.toNat) 0 octets
      labelLoopLogged pkt n octets (qnameOffset + 1 + labelLen.toNat)

def extractKeyLogged (pkt : Bytes) : Logged Access Stop ScratchKey := do
  parseHeadersLogged pkt
  passIfLogged (qnameStart + 1 > pkt.length)
  let (octets, qnameOffset) ← labelLoopLogged pkt maxQnameLabels (List.replicate 256 0) 0
  passIfLogged (qnameStart + qnameOffset + 4 > pkt.length)
  let high ← readByteLogged pkt (qnameStart + qnameOffset)
  let low ← readByteLogged pkt (qnameStart + qnameOffset + 1)
  return ⟨octets, high.toNat * 256 + low.toNat⟩

/-! ### Without the log -/

@[simp]
lemma result_passIfLogged (condition : Prop) [Decidable condition] :
    (passIfLogged condition).result = passIf condition := rfl

@[simp]
lemma result_readByteLogged (pkt : Bytes) (i : Nat) :
    (readByteLogged pkt i).result = readByte pkt i := rfl

@[simp]
lemma result_safeQnameWriteLogged (octets : Bytes) (off : Nat) (val : UInt8) :
    (safeQnameWriteLogged octets off val).result = .ok (safeQnameWrite octets off val) := rfl

@[simp]
lemma result_parseHeadersLogged (pkt : Bytes) :
    (parseHeadersLogged pkt).result = parseHeaders pkt := by
  simp only [parseHeadersLogged, parseHeaders, Logged.result_bind, result_passIfLogged,
    result_readByteLogged]

@[simp]
lemma result_copyLabelLogged (pkt : Bytes) (qnameOffset n j : Nat) (octets : Bytes) :
    (copyLabelLogged pkt qnameOffset n j octets).result =
      copyLabel pkt qnameOffset n j octets := by
  induction n generalizing j octets with
  | zero => rfl
  | succ n ih =>
    simp only [copyLabelLogged, copyLabel, Logged.result_bind, result_passIfLogged,
      result_readByteLogged, result_safeQnameWriteLogged, ih]
    rfl

@[simp]
lemma result_labelLoopLogged (pkt : Bytes) (n : Nat) (octets : Bytes) (qnameOffset : Nat) :
    (labelLoopLogged pkt n octets qnameOffset).result = labelLoop pkt n octets qnameOffset := by
  induction n generalizing octets qnameOffset with
  | zero => rfl
  | succ n ih =>
    simp only [labelLoopLogged, labelLoop, Logged.result_bind, Logged.result_ite,
      result_passIfLogged, result_readByteLogged, result_safeQnameWriteLogged,
      result_copyLabelLogged, ih]
    rfl

lemma result_extractKeyLogged (pkt : Bytes) :
    (extractKeyLogged pkt).result = extractKey pkt := by
  simp only [extractKeyLogged, extractKey, Logged.result_bind, result_passIfLogged,
    result_readByteLogged, result_parseHeadersLogged, result_labelLoopLogged]
  rfl

/-! ### Bounds -/

/-- Reads below `data_end`, and writes before the padding. -/
def InBounds (pkt : Bytes) : Access → Prop
  | .read i => i < pkt.length
  | .write off => off < maxQnameLen

/-- In bounds, and no end but `goto pass` and the result. -/
def Safe {α : Type} (pkt : Bytes) (returned : α → Prop) (x : Logged Access Stop α) : Prop :=
  Meets (InBounds pkt) (· = .pass) returned x

/-- The length of the key and its padding are as before. -/
def PaddingKept (before after : Bytes) : Prop :=
  after.length = before.length ∧ after[maxQnameLen]? = before[maxQnameLen]?

lemma PaddingKept.trans {first second third : Bytes} (one : PaddingKept first second)
    (two : PaddingKept second third) : PaddingKept first third :=
  ⟨two.1.trans one.1, two.2.trans one.2⟩

section Steps

variable {pkt : Bytes}

lemma passIf_safe (condition : Prop) [Decidable condition] :
    Safe pkt (fun _ => ¬ condition) (passIfLogged condition) := by
  apply Meets.lift
  · intro e is
    rw [passIf] at is
    split at is
    · cases is
      rfl
    · cases is
  · intro r is
    rw [passIf] at is
    split at is
    · cases is
    · assumption

lemma readByte_safe {i : Nat} (below : i < pkt.length) :
    Safe pkt (fun _ => True) (readByteLogged pkt i) := by
  have found : readByte pkt i = .ok pkt[i] := by
    rw [readByte, List.getElem?_eq_getElem below]
  refine Meets.touch below ?_ ?_
  · intro e is
    rw [found] at is
    cases is
  · intro _ _
    trivial

lemma safeQnameWrite_kept (octets : Bytes) {off : Nat} (room : off < maxQnameLen) (val : UInt8) :
    PaddingKept octets (safeQnameWrite octets off val) := by
  have other : off % 256 ≠ maxQnameLen := by
    rw [maxQnameLen] at room ⊢
    omega
  exact ⟨List.length_set, List.getElem?_set_ne other⟩

lemma safeQnameWrite_safe (pkt octets : Bytes) (off : Nat) (room : off < maxQnameLen)
    (val : UInt8) :
    Safe pkt (PaddingKept octets) (safeQnameWriteLogged octets off val) := by
  refine Meets.touch room ?_ ?_
  · intro e is
    cases is
  · intro r is
    cases is
    exact safeQnameWrite_kept octets room val

/-- A check, and then the rest where it did not pass. -/
lemma Safe.check {α : Type} {condition : Prop} [Decidable condition] {returned : α → Prop}
    {next : Unit → Logged Access Stop α} (rest : ¬ condition → Safe pkt returned (next ())) :
    Safe pkt returned (passIfLogged condition >>= next) :=
  (passIf_safe condition).bind fun _ failed => rest failed

lemma Safe.read {α : Type} {i : Nat} {returned : α → Prop}
    {next : UInt8 → Logged Access Stop α} (below : i < pkt.length)
    (rest : ∀ b, Safe pkt returned (next b)) :
    Safe pkt returned (readByteLogged pkt i >>= next) :=
  (readByte_safe below).bind fun b _ => rest b

/-- A read below a position that was checked against `data_end`. -/
lemma Safe.readBelow {α : Type} {i position : Nat} {returned : α → Prop}
    {next : UInt8 → Logged Access Stop α} (checked : ¬ position > pkt.length)
    (below : i < position) (rest : ∀ b, Safe pkt returned (next b)) :
    Safe pkt returned (readByteLogged pkt i >>= next) :=
  Safe.read (Nat.lt_of_lt_of_le below (Nat.le_of_not_lt checked)) rest

/-- The four headers are read behind the checks for them. -/
lemma parseHeaders_safe (pkt : Bytes) : Safe pkt (fun _ => True) (parseHeadersLogged pkt) := by
  rw [parseHeadersLogged]
  refine Safe.check fun eth => ?_
  refine Safe.readBelow eth (by decide) fun _ => Safe.readBelow eth (by decide) fun _ => ?_
  refine Safe.check fun _ => Safe.check fun ip => ?_
  refine Safe.readBelow ip (by decide) fun _ => Safe.check fun _ => ?_
  refine Safe.readBelow ip (by decide) fun _ => Safe.check fun _ => Safe.check fun udp => ?_
  refine Safe.readBelow udp (by decide) fun _ => Safe.readBelow udp (by decide) fun _ => ?_
  refine Safe.check fun _ => Safe.check fun dns => ?_
  refine Safe.readBelow dns (by decide) fun _ => Safe.check fun _ => ?_
  refine Safe.readBelow dns (by decide) fun _ => Safe.readBelow dns (by decide) fun _ => ?_
  exact (passIf_safe _).weaken fun _ _ => trivial

/-- The octets of a label go where the check of the limit made room for them. -/
lemma copyLabel_safe (pkt : Bytes) (qnameOffset n j : Nat) (octets : Bytes)
    (room : qnameOffset + j + n ≤ maxQnameLen) :
    Safe pkt (PaddingKept octets) (copyLabelLogged pkt qnameOffset n j octets) := by
  induction n generalizing j octets with
  | zero => exact Meets.ret ⟨rfl, rfl⟩
  | succ n ih =>
    rw [copyLabelLogged]
    refine Safe.check fun within => Safe.read (by omega) fun ch => ?_
    have written := safeQnameWrite_safe pkt octets (qnameOffset + j) (by omega) (lowerOctet ch)
    refine written.bind fun octets' kept => ?_
    have rest := ih (j + 1) octets' (by omega)
    exact rest.weaken fun _ later => kept.trans later

/-- The offset stays within the limit from label to label. -/
lemma labelLoop_safe (pkt : Bytes) (n : Nat) (octets : Bytes) (qnameOffset : Nat)
    (room : qnameOffset ≤ maxQnameLen) :
    Safe pkt (fun r => r.2 ≤ maxQnameLen ∧ PaddingKept octets r.1)
      (labelLoopLogged pkt n octets qnameOffset) := by
  induction n generalizing octets qnameOffset with
  | zero => exact Meets.ret ⟨room, rfl, rfl⟩
  | succ n ih =>
    rw [labelLoopLogged]
    refine Safe.check fun within => Safe.read (by omega) fun labelLen => ?_
    split
    · refine Safe.check fun fits => ?_
      have written := safeQnameWrite_safe pkt octets qnameOffset (by omega) 0
      refine written.bind fun octets' kept => ?_
      exact Meets.ret ⟨by dsimp only; omega, kept⟩
    · refine Safe.check fun short => Safe.check fun fits => ?_
      have written := safeQnameWrite_safe pkt octets qnameOffset (by omega) labelLen
      refine written.bind fun octets' kept => Safe.check fun whole => ?_
      have copied := copyLabel_safe pkt (qnameOffset + 1) (min 63 labelLen.toNat) 0 octets'
        (by omega)
      refine copied.bind fun octets'' kept' => ?_
      have rest := ih octets'' (qnameOffset + 1 + labelLen.toNat) (by omega)
      exact rest.weaken fun _ later => ⟨later.1, (kept.trans kept').trans later.2⟩

end Steps

lemma extractKey_safe (pkt : Bytes) :
    Safe pkt (fun key => key.octets[maxQnameLen]? = some 0) (extractKeyLogged pkt) := by
  rw [extractKeyLogged]
  refine (parseHeaders_safe pkt).bind fun _ _ => Safe.check fun _ => ?_
  refine (labelLoop_safe pkt maxQnameLabels (List.replicate 256 0) 0 (Nat.zero_le _)).bind ?_
  rintro ⟨octets, qnameOffset⟩ ⟨-, kept⟩
  refine Safe.check fun whole => Safe.read (by omega) fun high => Safe.read (by omega) fun low => ?_
  exact Meets.ret kept.2

/-- For every packet. Before the lookup the program reads below `data_end` only, every offset
it hands to `safe_qname_write` is one of 0 to 254 and equal to itself under the mask, and
what the loop leaves has the padding as before and an offset of 255 at most. -/
theorem parser_stays_in_buffers (pkt : Bytes) :
    (extractKeyLogged pkt).result = extractKey pkt ∧
    (∀ i, .read i ∈ (extractKeyLogged pkt).log → i < pkt.length) ∧
    (∀ off, .write off ∈ (extractKeyLogged pkt).log → off ≤ 254 ∧ off % 256 = off) ∧
    extractKey pkt ≠ .error .fault ∧
    (∀ key, extractKey pkt = .ok key → key.octets[maxQnameLen]? = some 0) ∧
    ∀ octets octets' qnameOffset,
      labelLoop pkt maxQnameLabels octets 0 = .ok (octets', qnameOffset) →
      qnameOffset ≤ 255 ∧ PaddingKept octets octets' := by
  have safe := extractKey_safe pkt
  have erased := result_extractKeyLogged pkt
  refine ⟨erased, fun i mem => safe.log _ mem, ?_, ?_, ?_, ?_⟩
  · intro off mem
    have room : off < maxQnameLen := safe.log _ mem
    rw [maxQnameLen] at room
    omega
  · intro fault
    have passed := safe.error _ (erased.trans fault)
    cases passed
  · intro key found
    exact safe.ok key (erased.trans found)
  · intro octets octets' qnameOffset ended
    have loop := labelLoop_safe pkt maxQnameLabels octets 0 (Nat.zero_le _)
    exact loop.ok (octets', qnameOffset) ((result_labelLoopLogged _ _ _ _).trans ended)

end XdpBounds
