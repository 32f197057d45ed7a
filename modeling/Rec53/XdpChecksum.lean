import Rec53.OnesComplement
import Rec53.XdpReply

/-!
# The checksum of the rewritten IPv4 header

`ipv4_csum` of `server/xdp/dns_cache.c` adds the words of the header in the byte order
of the machine, folds the carries twice and stores the complement. A receiver adds the
words in network order. Octets that are swapped in every word multiply the sum by 256,
so the two orders agree on whether it is a multiple of the largest word.
-/

namespace XdpChecksum

open Platform XdpParser XdpReply OnesComplement

/-! ### Words of a header -/

lemma word_le (order : ByteOrder) (first next : UInt8) : order.word first next ≤ 65535 := by
  have first_lt := first.toNat_lt
  have next_lt := next.toNat_lt
  cases order with
  | little =>
    rw [ByteOrder.word]
    omega
  | big =>
    rw [ByteOrder.word]
    omega

lemma words_le (order : ByteOrder) (octets : Bytes) : ∀ w ∈ order.words octets, w ≤ 65535 := by
  induction octets using ByteOrder.words.induct with
  | case1 first next rest ih =>
    intro w mem
    rcases List.mem_cons.mp mem with rfl | mem
    · exact word_le order first next
    · exact ih w mem
  | case2 octets short =>
    rw [ByteOrder.words.eq_2 order octets short]
    intro w mem
    cases mem

lemma words_append (order : ByteOrder) {a : Bytes} (even : a.length % 2 = 0) (b : Bytes) :
    order.words (a ++ b) = order.words a ++ order.words b := by
  induction a using ByteOrder.words.induct with
  | case1 first next rest ih =>
    have rest_even : rest.length % 2 = 0 := by
      simp only [List.length_cons] at even
      omega
    exact congrArg (order.word first next :: ·) (ih rest_even)
  | case2 a short =>
    cases a with
    | nil => rfl
    | cons first rest =>
      cases rest with
      | nil => simp at even
      | cons next rest => exact absurd rfl (short first next rest)

lemma length_words (order : ByteOrder) (octets : Bytes) :
    (order.words octets).length = octets.length / 2 := by
  induction octets using ByteOrder.words.induct with
  | case1 first next rest ih =>
    rw [ByteOrder.words, List.length_cons, ih]
    simp only [List.length_cons]
    omega
  | case2 octets short =>
    rw [ByteOrder.words.eq_2 order octets short]
    cases octets with
    | nil => rfl
    | cons first rest =>
      cases rest with
      | nil => simp
      | cons next rest => exact absurd rfl (short first next rest)

/-- In the other order the sum is multiplied by 256. -/
lemma words_swap (octets : Bytes) :
    (ByteOrder.big.words octets).sum ≡ 256 * (ByteOrder.little.words octets).sum [MOD 65535] ∧
      (ByteOrder.little.words octets).sum ≡
        256 * (ByteOrder.big.words octets).sum [MOD 65535] := by
  induction octets using ByteOrder.words.induct with
  | case1 first next rest ih =>
    simp only [ByteOrder.words, List.sum_cons, Nat.mul_add]
    refine ⟨Nat.ModEq.add ?_ ih.1, Nat.ModEq.add ?_ ih.2⟩
    · simp only [ByteOrder.word, Nat.ModEq]
      omega
    · simp only [ByteOrder.word, Nat.ModEq]
      omega
  | case2 octets short =>
    rw [ByteOrder.words.eq_2 _ octets short, ByteOrder.words.eq_2 _ octets short]
    exact ⟨rfl, rfl⟩

lemma sum_words_le (order reader : ByteOrder) (octets : Bytes) :
    (order.words octets).sum ≤ 256 * (reader.words octets).sum := by
  induction octets using ByteOrder.words.induct with
  | case1 first next rest ih =>
    have word_le : order.word first next ≤ 256 * reader.word first next := by
      cases order with
      | little =>
        cases reader with
        | little => exact Nat.le_mul_of_pos_left _ (by decide)
        | big =>
          simp only [ByteOrder.word]
          omega
      | big =>
        cases reader with
        | little =>
          simp only [ByteOrder.word]
          omega
        | big => exact Nat.le_mul_of_pos_left _ (by decide)
    simp only [ByteOrder.words, List.sum_cons, Nat.mul_add]
    omega
  | case2 octets short =>
    rw [ByteOrder.words.eq_2 _ octets short]
    exact Nat.zero_le _

/-- Whether a sum is a multiple of the largest word does not depend on the order. -/
lemma dvd_sum_words {order : ByteOrder} {octets : Bytes}
    (divides : 65535 ∣ (order.words octets).sum) (reader : ByteOrder) :
    65535 ∣ (reader.words octets).sum := by
  obtain ⟨to_big, to_little⟩ := words_swap octets
  cases order with
  | little =>
    cases reader with
    | little => exact divides
    | big => exact (to_big.dvd_iff (Nat.dvd_refl _)).mpr (Nat.dvd_mul_left_of_dvd divides 256)
  | big =>
    cases reader with
    | little => exact (to_little.dvd_iff (Nat.dvd_refl _)).mpr (Nat.dvd_mul_left_of_dvd divides 256)
    | big => exact divides

/-! ### The folds -/

/-- The words that `ipv4_csum` adds, with the field `check` cleared. -/
def summed (order : ByteOrder) (iph : Bytes) : List Nat := order.words (writeAt iph 10 [0, 0])

def firstFold (sum : Nat) : Nat := sum / size16 + sum % size16

def secondFold (sum : Nat) : Nat := firstFold sum + firstFold sum / size16

lemma length_cleared {iph : Bytes} (header : iph.length = ipHeaderLen) :
    (writeAt iph 10 [0, 0]).length = ipHeaderLen := by
  rw [length_writeAt (by simp [header, ipHeaderLen]), header]

lemma length_summed (order : ByteOrder) {iph : Bytes} (header : iph.length = ipHeaderLen) :
    (summed order iph).length = 10 := by
  rw [summed, length_words, length_cleared header]
  rfl

lemma sum_le_length_mul {words : List Nat} (bounded : ∀ w ∈ words, w ≤ 65535) :
    words.sum ≤ words.length * 65535 := by
  induction words with
  | nil => exact Nat.le_refl 0
  | cons w rest ih =>
    have first := bounded w List.mem_cons_self
    have others := ih fun w' mem => bounded w' (List.mem_cons_of_mem _ mem)
    rw [List.sum_cons, List.length_cons, Nat.add_mul]
    omega

/-- The accumulator is the exact sum while that fits. -/
lemma foldl_add_mod (words : List Nat) (sum : Nat) (fits : sum + words.sum < size32) :
    words.foldl (fun sum word => (sum + word) % size32) sum = sum + words.sum := by
  induction words generalizing sum with
  | nil => rfl
  | cons w rest ih =>
    rw [List.sum_cons, ← Nat.add_assoc] at fits ⊢
    have first : (sum + w) % size32 = sum + w := Nat.mod_eq_of_lt (by omega)
    rw [List.foldl_cons, first, ih (sum + w) fits]

/-- After the first fold at most one carry is left, and the second takes it in. -/
lemma secondFold_residue {sum : Nat} (bounded : sum ≤ 10 * 65535) :
    Residue 65535 sum (secondFold sum % size16) := by
  have first : firstFold sum ≤ 65535 + 9 := by
    rw [firstFold, size16]
    omega
  have second : secondFold sum % size16 =
      firstFold sum % (65535 + 1) + firstFold sum / (65535 + 1) := by
    rw [secondFold, size16]
    omega
  have folded : firstFold sum = sum % (65535 + 1) + sum / (65535 + 1) := Nat.add_comm _ _
  refine ⟨?_, ?_, ?_⟩
  · rw [size16]
    omega
  · rw [second]
    refine (fold_modEq (firstFold sum)).trans ?_
    rw [folded]
    exact fold_modEq sum
  · rw [second, fold_eq_zero_iff, folded, fold_eq_zero_iff]

/-- Accumulator and folds stay within 32 bits, and the low half ends as the sum. -/
structure FoldsExactly (words : List Nat) : Prop where
  accumulator : ∀ k, (words.take k).sum < size32
  first : firstFold words.sum < size32
  second : secondFold words.sum < size32
  carries : secondFold words.sum % size16 = sum 65535 words

lemma summed_sum_le (order : ByteOrder) {iph : Bytes} (header : iph.length = ipHeaderLen) :
    (summed order iph).sum ≤ 10 * 65535 := by
  have bound := sum_le_length_mul (words_le order (writeAt iph 10 [0, 0]))
  have length := length_summed order header
  rw [summed] at length ⊢
  rwa [length] at bound

lemma summed_foldsExactly (order : ByteOrder) {iph : Bytes} (header : iph.length = ipHeaderLen) :
    FoldsExactly (summed order iph) := by
  have bound := summed_sum_le order header
  refine ⟨?_, ?_, ?_, ?_⟩
  · intro k
    have parts := congrArg List.sum (List.take_append_drop k (summed order iph))
    rw [List.sum_append] at parts
    rw [size32]
    omega
  · rw [firstFold, size16, size32]
    omega
  · rw [secondFold, firstFold, size16, size32]
    omega
  · exact (secondFold_residue bound).unique (sum_residue (words_le order _))

lemma ipv4Csum_eq (order : ByteOrder) {iph : Bytes} (header : iph.length = ipHeaderLen) :
    ipv4Csum order iph = 65535 - sum 65535 (summed order iph) := by
  have exact_folds := summed_foldsExactly order header
  have whole : (order.words (writeAt iph 10 [0, 0])).take 10 = summed order iph :=
    List.take_of_length_le (Nat.le_of_eq (length_summed order header))
  have bound := summed_sum_le order header
  have added : (summed order iph).foldl (fun sum word => (sum + word) % size32) 0 =
      (summed order iph).sum := by
    rw [foldl_add_mod _ 0 (by rw [size32]; omega), Nat.zero_add]
  have first : ((summed order iph).sum / size16 + (summed order iph).sum % size16) % size32 =
      firstFold (summed order iph).sum := Nat.mod_eq_of_lt exact_folds.first
  have second : (firstFold (summed order iph).sum + firstFold (summed order iph).sum / size16) %
      size32 = secondFold (summed order iph).sum := Nat.mod_eq_of_lt exact_folds.second
  rw [ipv4Csum, whole, added, first, second, ← exact_folds.carries]
  have fits := exact_folds.second
  rw [size32] at fits ⊢
  rw [size16]
  omega

/-! ### The header with its checksum -/

lemma word_octets (order : ByteOrder) {n : Nat} (fits : n < size16) :
    order.words (order.octets n) = [n] := by
  have low : (UInt8.ofNat n).toNat = n % 256 := UInt8.toNat_ofNat'
  have high : (UInt8.ofNat (n / 256)).toNat = n / 256 := by
    rw [UInt8.toNat_ofNat']
    apply Nat.mod_eq_of_lt
    rw [size16] at fits
    omega
  cases order with
  | little =>
    simp only [ByteOrder.octets, ByteOrder.words, ByteOrder.word, low, high]
    congr 1
    omega
  | big =>
    simp only [ByteOrder.octets, ByteOrder.words, ByteOrder.word, low, high]
    congr 1
    omega

/-- Two octets in the field `check` add their word to the sum. -/
lemma sum_words_check (order : ByteOrder) {iph octets : Bytes} (header : iph.length = ipHeaderLen)
    (two : octets.length = 2) :
    (order.words (writeAt iph 10 octets)).sum =
      (summed order iph).sum + (order.words octets).sum := by
  have before : (iph.take 10).length % 2 = 0 := by
    rw [List.length_take, header]
    rfl
  have even : octets.length % 2 = 0 := by rw [two]
  have cleared : order.words [0, 0] = [0] := by
    cases order with
    | little => rfl
    | big => rfl
  have pair : ([0, 0] : Bytes).length = 2 := rfl
  rw [summed, writeAt, writeAt, two, pair, words_append order before, words_append order even,
    words_append order before, words_append order (a := [0, 0]) rfl, cleared]
  simp only [List.sum_append, List.sum_singleton]
  omega

/-- The header with the value of `ipv4_csum` in the field `check`. -/
def checked (order : ByteOrder) (iph : Bytes) : Bytes :=
  writeAt iph 10 (order.octets (ipv4Csum order iph))

lemma checked_verifies (order reader : ByteOrder) {iph : Bytes}
    (header : iph.length = ipHeaderLen) :
    sum 65535 (reader.words (checked order iph)) = 65535 := by
  have residue := sum_residue (words_le order (writeAt iph 10 [0, 0]))
  have value := ipv4Csum_eq order header
  have top := residue.word_le
  have congruent := residue.congruent
  have zero_iff := residue.zero_iff
  change sum 65535 (summed order iph) ≤ 65535 at top
  change sum 65535 (summed order iph) ≡ (summed order iph).sum [MOD 65535] at congruent
  change sum 65535 (summed order iph) = 0 ↔ (summed order iph).sum = 0 at zero_iff
  have fits : ipv4Csum order iph < size16 := by
    rw [value, size16]
    omega
  have total : (order.words (checked order iph)).sum =
      (summed order iph).sum + ipv4Csum order iph := by
    rw [checked, sum_words_check order header (length_octets order _), word_octets order fits,
      List.sum_singleton]
  have divides : 65535 ∣ (order.words (checked order iph)).sum := by
    rw [total, value]
    rw [Nat.ModEq] at congruent
    omega
  have positive : 0 < (order.words (checked order iph)).sum := by
    rw [total, value]
    omega
  have positive_reader : 0 < (reader.words (checked order iph)).sum := by
    have bound := sum_words_le order reader (checked order iph)
    omega
  exact sum_eq_max (words_le reader _) (dvd_sum_words divides reader) positive_reader

/-! ### In the packet -/

lemma readAt_writeAt_behind {pkt octets : Bytes} {off n at_ : Nat} (behind : off + n ≤ at_)
    (within : at_ ≤ pkt.length) : readAt (writeAt pkt at_ octets) off n = readAt pkt off n := by
  have start : off ≤ (pkt.take at_).length := by
    rw [List.length_take]
    omega
  have enough : n ≤ ((pkt.take at_).drop off).length := by
    rw [List.length_drop, List.length_take]
    omega
  rw [readAt, readAt, writeAt, List.drop_append_of_le_length start, List.take_append_of_le_length
    enough, List.drop_take, List.take_take, Nat.min_eq_left (by omega)]

lemma readAt_writeAt_inside {pkt octets : Bytes} {off n at_ : Nat}
    (inside : at_ + octets.length ≤ n) (within : off + n ≤ pkt.length) :
    readAt (writeAt pkt (off + at_) octets) off n = writeAt (readAt pkt off n) at_ octets := by
  have start : off ≤ (pkt.take (off + at_)).length := by
    rw [List.length_take]
    omega
  have front : ((pkt.drop off).take at_).length = at_ := by
    rw [List.length_take, List.length_drop]
    omega
  have rest : off + at_ + octets.length = off + (at_ + octets.length) := Nat.add_assoc _ _ _
  rw [readAt, writeAt, writeAt, readAt, List.drop_append_of_le_length start, List.drop_take,
    Nat.add_sub_cancel_left, List.take_append, List.take_take, front, List.take_append,
    List.take_of_length_le (l := octets) (by omega), List.take_take, Nat.min_eq_right (by omega),
    Nat.min_eq_left (by omega), List.drop_take, List.drop_drop, rest, Nat.sub_sub]

lemma readAt_writeAll_behind {pkt : Bytes} {writes : List (Nat × Bytes)} {off n : Nat}
    (behind : ∀ w ∈ writes, off + n ≤ w.1) (within : ∀ w ∈ writes, w.1 + w.2.length ≤ pkt.length) :
    readAt (writeAll pkt writes) off n = readAt pkt off n := by
  induction writes generalizing pkt with
  | nil => rfl
  | cons w rest ih =>
    have here := within w List.mem_cons_self
    have kept : ∀ w' ∈ rest, w'.1 + w'.2.length ≤ (writeAt pkt w.1 w.2).length := by
      intro w' mem
      rw [length_writeAt here]
      exact within w' (List.mem_cons_of_mem _ mem)
    have others := ih (fun w' mem => behind w' (List.mem_cons_of_mem _ mem)) kept
    exact others.trans (readAt_writeAt_behind (behind w List.mem_cons_self) (by omega))

lemma length_readAt {pkt : Bytes} {off n : Nat} (within : off + n ≤ pkt.length) :
    (readAt pkt off n).length = n := by
  rw [readAt, List.length_take, List.length_drop]
  omega

/-- The UDP header is written behind the IPv4 header and leaves it alone. -/
lemma readAt_rewriteHeaders (order : ByteOrder) (query : Bytes) (respLen : Nat) {data : Bytes}
    (headers : dnsStart ≤ data.length) :
    readAt (rewriteHeaders order query respLen data) ipStart ipHeaderLen =
      checked order (readAt (writeAll data (addressWrites query respLen)) ipStart
        ipHeaderLen) := by
  have length : (writeAll data (addressWrites query respLen)).length = data.length :=
    length_writeAll fun w mem => Nat.le_trans (addressWrites_within query respLen w mem) headers
  rw [rewriteHeaders]
  generalize writeAll data (addressWrites query respLen) = data' at length
  generalize ends : ipv4Csum order (readAt data' ipStart ipHeaderLen) = check
  have whole : ipStart + ipHeaderLen ≤ data'.length := by
    rw [length]
    exact Nat.le_trans (by decide) headers
  have two := length_octets order check
  have within := portWrites_within order query respLen check
  rw [portWrites, writeAll, List.foldl_cons]
  change readAt (writeAll (writeAt data' (ipStart + 10) (order.octets check)) _) _ _ = _
  rw [readAt_writeAll_behind, readAt_writeAt_inside _ whole, checked, ends]
  · rw [two]
    decide
  · simp only [List.forall_mem_cons, List.not_mem_nil, false_imp_iff, implies_true, and_true,
      udpStart]
    omega
  · intro w mem
    rw [length_writeAt, length]
    · exact Nat.le_trans (within w (List.mem_cons_of_mem _ mem)) headers
    · rw [two]
      exact Nat.le_trans (by decide) whole

/-- For every header the accumulator of `ipv4_csum` and both folds are exact and the value
is the complement of the sum; for every packet with headers and every length of the response
the rewritten header verifies, in whatever byte order its ten words are read. -/
theorem rewritten_header_verifies (order reader : ByteOrder) :
    (∀ iph : Bytes, iph.length = ipHeaderLen →
      FoldsExactly (summed order iph) ∧
      ipv4Csum order iph = size16 - 1 - sum 65535 (summed order iph) ∧
      sum 65535 (reader.words (checked order iph)) = 0xFFFF) ∧
    ∀ (query data : Bytes) (respLen : Nat), dnsStart ≤ data.length →
      let iph := readAt (rewriteHeaders order query respLen data) ipStart ipHeaderLen
      (reader.words iph).length = 10 ∧ sum 65535 (reader.words iph) = 0xFFFF := by
  constructor
  · intro iph header
    exact ⟨summed_foldsExactly order header, ipv4Csum_eq order header,
      checked_verifies order reader header⟩
  · intro query data respLen headers
    have length : (writeAll data (addressWrites query respLen)).length = data.length :=
      length_writeAll fun w mem => Nat.le_trans (addressWrites_within query respLen w mem) headers
    have header : (readAt (writeAll data (addressWrites query respLen)) ipStart
        ipHeaderLen).length = ipHeaderLen := by
      apply length_readAt
      rw [length]
      exact Nat.le_trans (by decide) headers
    dsimp only
    rw [readAt_rewriteHeaders order query respLen headers]
    refine ⟨?_, checked_verifies order reader header⟩
    rw [length_words, checked, length_writeAt, header]
    · rfl
    · rw [length_octets, header]
      decide

/-- A header whose words add up to 0x1FFFF: the first fold makes 0x10000 of it, and the second
has a carry to add. -/
def carryingHeader : Bytes := [255, 255, 255, 255, 1, 0] ++ List.replicate 14 0

theorem carrying_header_verifies :
    (summed .little carryingHeader).sum = 0x1FFFF ∧
      sum 65535 (ByteOrder.big.words (checked .little carryingHeader)) = 0xFFFF ∧
      sum 65535 (ByteOrder.big.words (readAt (rewriteHeaders .little (List.replicate 60 255) 100
        (List.replicate 142 255)) ipStart ipHeaderLen)) = 0xFFFF := by
  obtain ⟨header, packet⟩ := rewritten_header_verifies .little .big
  exact ⟨by decide +kernel, (header carryingHeader rfl).2.2,
    (packet (List.replicate 60 255) (List.replicate 142 255) 100
      (by rw [List.length_replicate]; decide)).2⟩

end XdpChecksum
