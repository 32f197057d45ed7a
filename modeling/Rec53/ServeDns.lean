import Rec53.StateMachine
import Mathlib.Algebra.GroupWithZero.Nat

/-!
# Replies to clients

`ServeDNS` of `server/server.go` after `Change` has returned: the SERVFAIL reply on
an error, the question put back, and the truncation of UDP replies. On an error the
reply is the response object the state machine has worked on.
-/

namespace ServeDns

open DnsMessage Platform StateHandlers StateMachine

/-- `Msg.Len` without compression: header, questions and records. -/
def msgLen (lib : Lib) (m : Msg) : Nat :=
  12 + (m.question.map lib.questionLen).sum + (m.answer.map lib.rrLen).sum +
    (m.ns.map lib.rrLen).sum + (m.extra.map lib.rrLen).sum

/-- The size offered in the OPT record, whose class field holds it. -/
def getMaxUDPSize (request : Msg) : Nat :=
  match request.extra.reverse.find? RR.isOPT with
  | none => 512
  | some opt => if 0 < opt.class_ then opt.class_ else 512

/-- The loop that removes answers from the end; the count bounds its rounds. -/
def dropAnswers (lib : Lib) (maxSize : Nat) : Nat → Msg → Msg
  | 0, m => m
  | n + 1, m =>
    if m.answer ≠ [] ∧ maxSize < msgLen lib m then
      dropAnswers lib maxSize n { m with answer := m.answer.dropLast }
    else m

def truncateResponse (lib : Lib) (reply : Msg) (maxSize : Nat) : Msg :=
  if msgLen lib reply ≤ maxSize then reply
  else
    let cut := dropAnswers lib maxSize reply.answer.length { reply with truncated := true }
    let cut := if maxSize < msgLen lib cut then { cut with extra := [] } else cut
    let cut := if maxSize < msgLen lib cut then { cut with answer := [] } else cut
    { cut with ns := [] }

def restoreQuestion (originalQuestion : Question) (reply : Msg) : Msg :=
  if originalQuestion.name ≠ "" then
    { reply with question := originalQuestion :: reply.question.tail }
  else reply

/-- The message written for a request on which `Change` ended with `result`, having
left the resolution as `r`; `request` is as it came in. -/
def serveDNS (lib : Lib) (udp : Bool) (request : Msg) (r : Resolution)
    (result : Except String Msg) : Msg :=
  if request.question = [] then ({} : Msg).setRcode request rcodeFormatError
  else
    let reply := match result with
      | .error _ => r.response.setRcode r.request rcodeServerFailure
      | .ok msg => msg
    let reply := restoreQuestion request.q0 reply
    if udp then truncateResponse lib reply (getMaxUDPSize request) else reply

@[simp] theorem restoreQuestion_bare (q : Question) (m : Msg) :
    (restoreQuestion q m).Bare ↔ m.Bare := by
  rw [restoreQuestion]
  split <;> rfl

/-! ### What truncation leaves -/

/-- The length of everything but the answers. -/
def baseLen (lib : Lib) (m : Msg) : Nat := msgLen lib { m with answer := [] }

lemma msgLen_eq (lib : Lib) (m : Msg) :
    msgLen lib m = baseLen lib m + (m.answer.map lib.rrLen).sum := by
  simp only [msgLen, baseLen, List.map_nil, List.sum_nil]
  omega

@[simp] theorem baseLen_answer (lib : Lib) (m : Msg) (answer : List RR) :
    baseLen lib { m with answer := answer } = baseLen lib m := rfl

/-- No answer fits: the first one is too long already. -/
def NoAnswerFits (lib : Lib) (maxSize : Nat) (m : Msg) : Prop :=
  ∀ rr ∈ m.answer.head?, maxSize < baseLen lib m + lib.rrLen rr

lemma dropAnswers_sections (lib : Lib) (maxSize n : Nat) (m : Msg) :
    ∃ answer, dropAnswers lib maxSize n m = { m with answer := answer } := by
  induction n generalizing m with
  | zero => exact ⟨m.answer, rfl⟩
  | succ n ih =>
    rw [dropAnswers]
    split
    · obtain ⟨answer, dropped⟩ := ih { m with answer := m.answer.dropLast }
      exact ⟨answer, dropped⟩
    · exact ⟨m.answer, rfl⟩

lemma rrLen_head_le (lib : Lib) (m : Msg) {rr : RR} (first : rr ∈ m.answer.head?) :
    baseLen lib m + lib.rrLen rr ≤ msgLen lib m := by
  rw [msgLen_eq]
  cases answers : m.answer with
  | nil => simp [answers] at first
  | cons rr' rest =>
    rw [answers] at first
    cases first
    simp only [List.map_cons, List.sum_cons]
    omega

/-- The loop empties the answer section exactly when no answer fits. -/
lemma dropAnswers_eq_nil_iff (lib : Lib) (maxSize n : Nat) (m : Msg)
    (enough : m.answer.length = n) :
    (dropAnswers lib maxSize n m).answer = [] ↔ NoAnswerFits lib maxSize m := by
  induction n generalizing m with
  | zero =>
    have empty : m.answer = [] := List.length_eq_zero_iff.mp enough
    simp [dropAnswers, NoAnswerFits, empty]
  | succ n ih =>
    have some_left : m.answer ≠ [] := by
      intro empty
      simp [empty] at enough
    rw [dropAnswers]
    by_cases long : maxSize < msgLen lib m
    · rw [if_pos ⟨some_left, long⟩, ih { m with answer := m.answer.dropLast } (by simp [enough])]
      cases answers : m.answer with
      | nil => exact absurd answers some_left
      | cons rr rest =>
        cases rest with
        | nil =>
          -- a single answer that does not fit
          rw [msgLen_eq, answers] at long
          simpa [NoAnswerFits, answers] using long
        | cons rr' rest => simp [NoAnswerFits, answers]
    · rw [if_neg fun both => long both.2]
      constructor
      · intro empty
        exact absurd empty some_left
      · intro none_fits
        obtain ⟨rr, first⟩ : ∃ rr, rr ∈ m.answer.head? := by
          cases answers : m.answer with
          | nil => exact absurd answers some_left
          | cons rr rest => exact ⟨rr, rfl⟩
        have fits := rrLen_head_le lib m first
        have too_long := none_fits rr first
        omega

/-- Answers that are left after the loop fit. -/
lemma dropAnswers_fits (lib : Lib) (maxSize n : Nat) (m : Msg) (enough : m.answer.length = n) :
    (dropAnswers lib maxSize n m).answer = [] ∨
      msgLen lib (dropAnswers lib maxSize n m) ≤ maxSize := by
  induction n generalizing m with
  | zero => exact .inl (List.length_eq_zero_iff.mp enough)
  | succ n ih =>
    rw [dropAnswers]
    by_cases again : m.answer ≠ [] ∧ maxSize < msgLen lib m
    · rw [if_pos again]
      exact ih { m with answer := m.answer.dropLast } (by simp [enough])
    · rw [if_neg again]
      by_cases empty : m.answer = []
      · exact .inl empty
      · exact .inr (Nat.le_of_not_lt fun long => again ⟨empty, long⟩)

/-- A reply over the limit loses every record. -/
def CutToNothing (lib : Lib) (maxSize : Nat) (m : Msg) : Prop :=
  maxSize < msgLen lib m ∧
    (maxSize < baseLen lib m ∨ m.extra = [] ∧ NoAnswerFits lib maxSize m)

lemma truncateResponse_bare_iff (lib : Lib) (m : Msg) (maxSize : Nat) :
    (truncateResponse lib m maxSize).Bare ↔
      (m.Bare ∧ msgLen lib m ≤ maxSize) ∨ CutToNothing lib maxSize m := by
  by_cases fits : msgLen lib m ≤ maxSize
  · have not_long : ¬ maxSize < msgLen lib m := by omega
    simp [truncateResponse, fits, CutToNothing, not_long]
  · have long : maxSize < msgLen lib m := by omega
    have emptied := dropAnswers_eq_nil_iff lib maxSize m.answer.length
      { m with truncated := true } rfl
    have fitting := dropAnswers_fits lib maxSize m.answer.length { m with truncated := true } rfl
    obtain ⟨answer, dropped⟩ := dropAnswers_sections lib maxSize m.answer.length
      { m with truncated := true }
    change _ ↔ NoAnswerFits lib maxSize m at emptied
    rw [dropped] at emptied fitting
    have cut_len : msgLen lib { m with truncated := true, answer := answer } =
        baseLen lib m + (answer.map lib.rrLen).sum := msgLen_eq lib _
    have not_fit : ¬ (m.Bare ∧ msgLen lib m ≤ maxSize) := fun both => fits both.2
    simp only [truncateResponse, if_neg fits, dropped, not_fit, false_or, CutToNothing, long,
      true_and]
    by_cases empty : answer = []
    · have none_fits : NoAnswerFits lib maxSize m := emptied.mp empty
      subst empty
      by_cases base_long : maxSize < baseLen lib m
      · have cut_long : maxSize < msgLen lib { m with truncated := true, answer := [] } := base_long
        rw [if_pos cut_long]
        split <;> simp [Msg.Bare, base_long]
      · have cut_fits : ¬ maxSize < msgLen lib { m with truncated := true, answer := [] } :=
          base_long
        simp [Msg.Bare, if_neg cut_fits, base_long, none_fits]
    · -- some answer is kept, so what is left is within the limit
      have within : msgLen lib { m with truncated := true, answer := answer } ≤ maxSize :=
        fitting.resolve_left empty
      have cut_fits : ¬ maxSize < msgLen lib { m with truncated := true, answer := answer } := by
        omega
      have base_fits : ¬ maxSize < baseLen lib m := by omega
      have one_fits : ¬ NoAnswerFits lib maxSize m := fun none_fits => empty (emptied.mpr none_fits)
      simp [Msg.Bare, if_neg cut_fits, empty, base_fits, one_fits]

/-- The SERVFAIL reply carries no record exactly when the response object was left
without one, or the client's UDP size lets none through. -/
theorem serveDNS_error_bare_iff (lib : Lib) (udp : Bool) {request : Msg} (r : Resolution)
    (err : String) (asked : request.question ≠ []) :
    (serveDNS lib udp request r (.error err)).Bare ↔
      r.response.Bare ∨ (udp = true ∧ CutToNothing lib (getMaxUDPSize request)
        (restoreQuestion request.q0 (r.response.setRcode r.request rcodeServerFailure))) := by
  have kept : (restoreQuestion request.q0
      (r.response.setRcode r.request rcodeServerFailure)).Bare ↔ r.response.Bare := by
    rw [restoreQuestion_bare]
    rfl
  simp only [serveDNS, if_neg asked]
  cases udp with
  | false => simp [kept]
  | true =>
    simp only [if_true, true_and]
    rw [truncateResponse_bare_iff, kept]
    constructor
    · rintro (⟨bare, _⟩ | cut)
      · exact .inl bare
      · exact .inr cut
    · rintro (bare | cut)
      · by_cases fits : msgLen lib (restoreQuestion request.q0
            (r.response.setRcode r.request rcodeServerFailure)) ≤ getMaxUDPSize request
        · exact .inl ⟨bare, fits⟩
        · -- without records the base length is the whole length
          right
          obtain ⟨no_answer, _, _⟩ := kept.mpr bare
          refine ⟨Nat.lt_of_not_le fits, .inl ?_⟩
          rw [msgLen_eq, no_answer] at fits
          simpa using fits
      · exact .inr cut

/-! ### Truncation keeps to the size -/

/-- The loop only removes answers from the end. -/
lemma dropAnswers_prefix (lib : Lib) (maxSize n : Nat) (m : Msg) :
    (dropAnswers lib maxSize n m).answer <+: m.answer := by
  induction n generalizing m with
  | zero => exact List.prefix_refl _
  | succ n ih =>
    rw [dropAnswers]
    split
    · have shorter := ih { m with answer := m.answer.dropLast }
      exact shorter.trans (List.dropLast_prefix m.answer)
    · exact List.prefix_refl _

/-- A message over the limit is left with some of its first answers, and with its additional
records only when these still fit beside them. -/
lemma truncateResponse_cut (lib : Lib) {m : Msg} {maxSize : Nat} (long : maxSize < msgLen lib m) :
    ∃ answer extra, answer <+: m.answer ∧
      truncateResponse lib m maxSize =
        { m with truncated := true, answer := answer, ns := [], extra := extra } ∧
      (answer = [] ∧ extra = [] ∨
        extra = m.extra ∧ msgLen lib { m with truncated := true, answer := answer } ≤ maxSize) := by
  have shorter := dropAnswers_prefix lib maxSize m.answer.length { m with truncated := true }
  have fitting := dropAnswers_fits lib maxSize m.answer.length { m with truncated := true } rfl
  obtain ⟨answer, dropped⟩ := dropAnswers_sections lib maxSize m.answer.length
    { m with truncated := true }
  rw [dropped] at shorter fitting
  simp only [truncateResponse, if_neg (Nat.not_le_of_lt long), dropped]
  by_cases over_limit : maxSize < msgLen lib { m with truncated := true, answer := answer }
  · -- only without answers can the loop stop above the limit
    obtain rfl : answer = [] := fitting.resolve_right (Nat.not_le_of_lt over_limit)
    rw [if_pos over_limit]
    refine ⟨[], [], List.nil_prefix, ?_, .inl ⟨rfl, rfl⟩⟩
    split
    · rfl
    · rfl
  · rw [if_neg over_limit, if_neg over_limit]
    exact ⟨answer, m.extra, shorter, rfl, .inr ⟨rfl, Nat.le_of_not_lt over_limit⟩⟩

/-- Everything but the TC bit and the record sections. -/
def headerAndQuestion (m : Msg) : Msg :=
  { m with truncated := false, answer := [], ns := [], extra := [] }

/-- For every reply and every size that header and question fit into: the message is within
the size, its answers are first answers of the reply, header and question are those of the
reply but for the TC bit, which is set when the reply is too long, and a reply that fits is
left alone. -/
theorem truncation_sound (lib : Lib) (reply : Msg) (maxSize : Nat)
    (room : 12 + (reply.question.map lib.questionLen).sum ≤ maxSize) :
    msgLen lib (truncateResponse lib reply maxSize) ≤ maxSize ∧
      (truncateResponse lib reply maxSize).answer <+: reply.answer ∧
      headerAndQuestion (truncateResponse lib reply maxSize) = headerAndQuestion reply ∧
      ((truncateResponse lib reply maxSize).truncated = true ↔
        reply.truncated = true ∨ maxSize < msgLen lib reply) ∧
      (msgLen lib reply ≤ maxSize → truncateResponse lib reply maxSize = reply) := by
  by_cases fits : msgLen lib reply ≤ maxSize
  · have same : truncateResponse lib reply maxSize = reply := if_pos fits
    rw [same]
    refine ⟨fits, List.prefix_refl _, rfl, ?_, fun _ => rfl⟩
    simp [Nat.not_lt_of_le fits]
  · have long : maxSize < msgLen lib reply := Nat.lt_of_not_le fits
    obtain ⟨answer, extra, shorter, cut, left⟩ := truncateResponse_cut lib long
    rw [cut]
    refine ⟨?_, shorter, rfl, by simp [long], fun fitting => absurd fitting fits⟩
    rcases left with ⟨rfl, rfl⟩ | ⟨rfl, fitting⟩
    · simpa [msgLen] using room
    · -- the authority section is dropped on top of what fits
      simp only [msgLen, List.map_nil, List.sum_nil] at fitting ⊢
      omega

def threeRecords : Msg :=
  { question := [⟨"a.", typeA, classINET⟩]
    answer := [⟨"a.", classINET, 60, .a "192.0.2.1"⟩, ⟨"a.", classINET, 60, .a "192.0.2.2"⟩]
    ns := [⟨"a.", classINET, 60, .ns "n.a."⟩] }

/-- At 60 octets neither the second address nor the authority record goes out. -/
theorem three_records_cut_to_one :
    (truncateResponse plainLib threeRecords 60).answer.length = 1 ∧
      msgLen plainLib (truncateResponse plainLib threeRecords 60) ≤ 60 ∧
      (truncateResponse plainLib threeRecords 60).answer <+: threeRecords.answer := by
  have sound := truncation_sound plainLib threeRecords 60 (by decide)
  exact ⟨by decide, sound.1, sound.2.1⟩

/-! ### How many answers are kept -/

/-- The size that the client advertises, none is zero. -/
def advertisedSize (request : Msg) : Nat :=
  match request.extra.reverse.find? RR.isOPT with
  | none => 0
  | some opt => opt.class_

/-- What a UDP reply may have at most. -/
def udpLimit (request : Msg) : Nat := max 512 (advertisedSize request)

lemma getMaxUDPSize_le (request : Msg) : getMaxUDPSize request ≤ udpLimit request := by
  rw [getMaxUDPSize, udpLimit, advertisedSize]
  cases request.extra.reverse.find? RR.isOPT with
  | none => exact Nat.le_max_left _ _
  | some opt =>
    dsimp only
    split
    · exact Nat.le_max_right _ _
    · exact Nat.le_max_left _ _

/-- Header and question. -/
def headLen (lib : Lib) (m : Msg) : Nat := 12 + (m.question.map lib.questionLen).sum

def answersLen (lib : Lib) (answer : List RR) : Nat := (answer.map lib.rrLen).sum

lemma headLen_le_baseLen (lib : Lib) (m : Msg) : headLen lib m ≤ baseLen lib m := by
  simp only [headLen, baseLen, msgLen, List.map_nil, List.sum_nil]
  omega

lemma answersLen_le_of_prefix (lib : Lib) {xs ys : List RR} (pre : xs <+: ys) :
    answersLen lib xs ≤ answersLen lib ys := by
  obtain ⟨rest, rfl⟩ := pre
  rw [answersLen, answersLen, List.map_append, List.sum_append]
  exact Nat.le_add_right _ _

/-- The longest prefix of the answers that fits beside header and question. -/
structure LongestFitting (lib : Lib) (limit : Nat) (reply : Msg) (answer : List RR) : Prop where
  isPrefix : answer <+: reply.answer
  fits : headLen lib reply + answersLen lib answer ≤ limit
  longest : ∀ p, p <+: reply.answer → headLen lib reply + answersLen lib p ≤ limit →
    p.length ≤ answer.length

/-- The loop stops at the first length that fits beside all the sections. -/
lemma dropAnswers_longest (lib : Lib) (maxSize n : Nat) (m : Msg) (enough : m.answer.length = n)
    {p : List RR} (pre : p <+: m.answer) (fits : baseLen lib m + answersLen lib p ≤ maxSize) :
    p.length ≤ (dropAnswers lib maxSize n m).answer.length := by
  induction n generalizing m with
  | zero => exact pre.length_le
  | succ n ih =>
    rw [dropAnswers]
    by_cases again : m.answer ≠ [] ∧ maxSize < msgLen lib m
    · rw [if_pos again]
      refine ih { m with answer := m.answer.dropLast } (by simp [enough]) ?_ fits
      -- the whole answer section does not fit, so the prefix is shorter
      have shorter : p.length < m.answer.length := by
        apply Nat.lt_of_le_of_ne pre.length_le
        intro same
        rw [pre.eq_of_length same] at fits
        have long := again.2
        rw [msgLen_eq] at long
        exact absurd fits (Nat.not_le_of_lt long)
      apply List.prefix_of_prefix_length_le pre (List.dropLast_prefix m.answer)
      rw [List.length_dropLast]
      omega
    · rw [if_neg again]
      exact pre.length_le

lemma truncateResponse_answer (lib : Lib) {m : Msg} {maxSize : Nat}
    (long : maxSize < msgLen lib m) :
    (truncateResponse lib m maxSize).answer =
      (dropAnswers lib maxSize m.answer.length { m with truncated := true }).answer := by
  have fitting := dropAnswers_fits lib maxSize m.answer.length { m with truncated := true } rfl
  obtain ⟨answer, dropped⟩ := dropAnswers_sections lib maxSize m.answer.length
    { m with truncated := true }
  rw [dropped] at fitting ⊢
  simp only [truncateResponse, if_neg (Nat.not_le_of_lt long), dropped]
  by_cases over_limit : maxSize < msgLen lib { m with truncated := true, answer := answer }
  · have empty : answer = [] := fitting.resolve_right (Nat.not_le_of_lt over_limit)
    subst empty
    rw [if_pos over_limit]
    split
    · rfl
    · rfl
  · rw [if_neg over_limit, if_neg over_limit]

/-- Of the answers the longest prefix is left that fits beside all the sections. -/
lemma truncateResponse_kept (lib : Lib) (m : Msg) (maxSize : Nat) :
    let kept := (truncateResponse lib m maxSize).answer
    kept <+: m.answer ∧ (kept = [] ∨ baseLen lib m + answersLen lib kept ≤ maxSize) ∧
      ∀ p, p <+: m.answer → baseLen lib m + answersLen lib p ≤ maxSize →
        p.length ≤ kept.length := by
  intro kept
  by_cases whole : msgLen lib m ≤ maxSize
  · have is_kept : kept = m.answer := congrArg Msg.answer (if_pos whole)
    rw [msgLen_eq] at whole
    rw [is_kept]
    exact ⟨List.prefix_refl _, .inr whole, fun p pre _ => pre.length_le⟩
  have is_kept : kept = (dropAnswers lib maxSize m.answer.length
    { m with truncated := true }).answer :=
    truncateResponse_answer lib (Nat.lt_of_not_le whole)
  have fitting := dropAnswers_fits lib maxSize m.answer.length { m with truncated := true } rfl
  have base_eq : baseLen lib (dropAnswers lib maxSize m.answer.length
      { m with truncated := true }) = baseLen lib m := by
    obtain ⟨answer, dropped⟩ := dropAnswers_sections lib maxSize m.answer.length
      { m with truncated := true }
    rw [dropped]
    rfl
  rw [msgLen_eq, base_eq] at fitting
  rw [is_kept]
  refine ⟨?_, fitting, ?_⟩
  · exact dropAnswers_prefix lib maxSize _ _
  · intro p pre fits
    exact dropAnswers_longest lib maxSize m.answer.length { m with truncated := true } rfl pre fits

/-- A prefix that fits beside header and question but not beside all the sections is what
the loop loses. -/
lemma truncateResponse_longest_iff (lib : Lib) {m : Msg} {maxSize limit : Nat}
    (below : maxSize ≤ limit) :
    LongestFitting lib limit m (truncateResponse lib m maxSize).answer ↔
      headLen lib m ≤ limit ∧ ∀ p, p <+: m.answer → p ≠ [] →
        headLen lib m + answersLen lib p ≤ limit → baseLen lib m + answersLen lib p ≤ maxSize := by
  obtain ⟨shorter, fitting, longest⟩ := truncateResponse_kept lib m maxSize
  generalize (truncateResponse lib m maxSize).answer = kept at shorter fitting longest
  have head_le := headLen_le_baseLen lib m
  constructor
  · rintro ⟨_, fits, most⟩
    refine ⟨by omega, ?_⟩
    intro p pre nonempty p_fits
    have length_le := most p pre p_fits
    have kept_some : kept ≠ [] := by
      intro empty
      rw [empty, List.length_nil] at length_le
      exact nonempty (List.length_eq_zero_iff.mp (Nat.le_zero.mp length_le))
    have within := List.prefix_of_prefix_length_le pre shorter length_le
    have len_le := answersLen_le_of_prefix lib within
    have kept_fits := fitting.resolve_left kept_some
    omega
  · rintro ⟨head_fits, all⟩
    refine ⟨shorter, ?_, ?_⟩
    · rcases fitting with empty | fits
      · rw [empty]
        exact head_fits
      · omega
    · intro p pre p_fits
      by_cases empty : p = []
      · rw [empty]
        exact Nat.zero_le _
      · exact longest p pre (all p pre empty p_fits)

/-- A request without a question is answered with the header only, over UDP too. -/
lemma questionless_longest_iff (lib : Lib) {request : Msg} (r : Resolution)
    (result : Except String Msg) (unasked : request.question = []) {maxSize limit : Nat} :
    let reply := serveDNS lib false request r result
    LongestFitting lib limit reply (serveDNS lib true request r result).answer ↔
      headLen lib reply ≤ limit ∧ ∀ p, p <+: reply.answer → p ≠ [] →
        headLen lib reply + answersLen lib p ≤ limit →
          baseLen lib reply + answersLen lib p ≤ maxSize := by
  intro reply
  have refused (udp : Bool) : serveDNS lib udp request r result =
      ({} : Msg).setRcode request rcodeFormatError := if_pos unasked
  have same : serveDNS lib true request r result = reply :=
    (refused true).trans (refused false).symm
  have bare : reply.answer = [] := congrArg Msg.answer (refused false)
  rw [same]
  constructor
  · rintro ⟨_, fits, _⟩
    refine ⟨Nat.le_trans (Nat.le_add_right _ _) fits, ?_⟩
    intro p pre some_answer
    rw [bare] at pre
    exact absurd (List.prefix_nil.mp pre) some_answer
  · rintro ⟨fits, _⟩
    refine ⟨List.prefix_refl _, ?_, fun p pre _ => pre.length_le⟩
    rw [bare]
    exact fits

/-- For every request and every reply, which over TCP is sent whole: the answers sent over UDP
are the longest prefix that fits beside header and question, exactly when header and question
fit and no such prefix is pushed out by the authority and additional sections or by an
advertised size below 512. -/
theorem answers_kept_iff (lib : Lib) (request : Msg) (r : Resolution)
    (result : Except String Msg) :
    let reply := serveDNS lib false request r result
    LongestFitting lib (udpLimit request) reply (serveDNS lib true request r result).answer ↔
      headLen lib reply ≤ udpLimit request ∧ ∀ p, p <+: reply.answer → p ≠ [] →
        headLen lib reply + answersLen lib p ≤ udpLimit request →
          baseLen lib reply + answersLen lib p ≤ getMaxUDPSize request := by
  intro reply
  by_cases unasked : request.question = []
  · exact questionless_longest_iff lib r result unasked
  have cut : serveDNS lib true request r result =
      truncateResponse lib reply (getMaxUDPSize request) := by
    change _ = truncateResponse lib (serveDNS lib false request r result) _
    simp [serveDNS, unasked]
  rw [cut]
  exact truncateResponse_longest_iff lib (getMaxUDPSize_le request)

def addressRequest : Msg := { question := [⟨"a.", typeA, classINET⟩] }

def fortyAnswers : Msg :=
  { addressRequest with
    response := true, answer := List.replicate 40 ⟨"a.", classINET, 60, .a "192.0.2.1"⟩ }

/-- Without other sections as many of forty answers are sent as fit into 512 octets. -/
theorem forty_answers_cut_to_fit :
    LongestFitting plainLib 512 fortyAnswers
        (serveDNS plainLib true addressRequest (start addressRequest 0) (.ok fortyAnswers)).answer ∧
      (serveDNS plainLib true addressRequest (start addressRequest 0)
        (.ok fortyAnswers)).answer.length = 27 := by
  have kept := answers_kept_iff plainLib addressRequest (start addressRequest 0) (.ok fortyAnswers)
  refine ⟨kept.mpr ⟨by decide, ?_⟩, by decide⟩
  intro p _ _ fits
  exact fits

/-- One answer beside thirty authority records. -/
def crowdedAnswer : Msg :=
  { addressRequest with
    response := true, answer := [⟨"a.", classINET, 60, .a "192.0.2.1"⟩]
    ns := List.replicate 30 ⟨"a.", classINET, 60, .ns "n.a."⟩ }

/-- The request with an advertised size of 100 octets. -/
def smallRequest : Msg := { addressRequest with extra := [⟨".", 100, 0, .opt⟩] }

/-- The authority section costs the one answer, although it is dropped itself, and a size
below 512 costs answers that every client takes. -/
theorem crowded_answer_lost :
    ¬ LongestFitting plainLib (udpLimit addressRequest) crowdedAnswer (serveDNS plainLib true
        addressRequest (start addressRequest 0) (.ok crowdedAnswer)).answer ∧
      ¬ LongestFitting plainLib (udpLimit smallRequest) fortyAnswers (serveDNS plainLib true
        smallRequest (start smallRequest 0) (.ok fortyAnswers)).answer := by
  constructor
  · intro kept
    have one := kept.longest crowdedAnswer.answer (List.prefix_refl _) (by decide)
    exact absurd one (by decide)
  · intro kept
    have twenty := kept.longest (fortyAnswers.answer.take 20) (List.take_prefix _ _) (by decide)
    exact absurd twenty (by decide)

end ServeDns
