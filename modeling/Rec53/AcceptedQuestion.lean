import Rec53.UpstreamQuery

/-!
# The question of an accepted message

QUERY_UPSTREAM compares the question of a message with the one it asked only on the way
of a NOERROR message, and then only its name. NXDOMAIN is taken before that, and the type
is read back from the message when the answer is cached.
-/

namespace AcceptedQuestion

open DnsMessage Platform LocalConfig StateHandlers UpstreamQuery

/-- The message has a question with the name and the type that were asked. -/
def Repeats (q : Question) (m : Msg) : Prop :=
  m.question ≠ [] ∧ m.q0.name = q.name ∧ m.q0.qtype = q.qtype

instance (q : Question) (m : Msg) : Decidable (Repeats q m) := inferInstanceAs (Decidable (_ ∧ _))

/-- Every typed cache write is under the name and the type that were asked. -/
def KeyedBy (q : Question) (effects : List Effect) : Prop :=
  ∀ name qtype msg ttl, .setByType name qtype msg ttl ∈ effects → name = q.name ∧ qtype = q.qtype

lemma KeyedBy.append {q : Question} {xs ys : List Effect} (hx : KeyedBy q xs) (hy : KeyedBy q ys) :
    KeyedBy q (xs ++ ys) := by
  intro name qtype msg ttl mem
  rcases List.mem_append.mp mem with mem | mem
  · exact hx name qtype msg ttl mem
  · exact hy name qtype msg ttl mem

lemma readOnly_keyedBy {q : Question} {effects : List Effect} (readOnly : ReadOnly effects) :
    KeyedBy q effects := by
  intro name qtype msg ttl mem
  have quiet := readOnly _ mem
  cases quiet

lemma cacheEffects_keyedBy {q : Question} {m : Msg} (repeats : Repeats q m) :
    KeyedBy q (cacheEffects m) := by
  intro name qtype msg ttl mem
  rcases mem_cacheEffects mem with ⟨_, _, _, is⟩ | ⟨_, _, _, _, is⟩
  · cases is
    exact repeats.2
  · cases is

/-- CLASSIFY_RESP writes under the question of the request. -/
lemma classifyResp_keyedBy (request response : Msg) :
    KeyedBy request.q0 (classifyRespHandle request response).2 := by
  intro name qtype msg ttl mem
  rw [classifyRespHandle] at mem
  split at mem
  · split at mem
    · cases List.mem_singleton.mp mem
      exact ⟨rfl, rfl⟩
    · cases mem
  split at mem
  · cases mem
  split at mem
  · cases mem
  split at mem
  · cases mem
  · cases mem

/-- What is not checked about a message: for NXDOMAIN the whole question, for NOERROR
its type. -/
def UncheckedRight (q : Question) (m : Msg) : Prop :=
  (m.rcode = rcodeNameError → Repeats q m) ∧ (m.rcode = rcodeSuccess → m.q0.qtype = q.qtype)

/-- When QUERY_UPSTREAM accepts a message, of the first server or of the alternate one:
the message repeats the question that was asked, and all typed writes of QUERY_UPSTREAM and
of the CLASSIFY_RESP that follows are under it, exactly when what is not checked about the
message is right. -/
theorem accepted_question_iff (env : Env) (inp : Input) (request response : Msg)
    (ipList : List String)
    (accepted : (queryUpstreamWith env inp request response ipList).ret = .noError) :
    ∃ earlier m, receivedMsgs (queryUpstreamWith env inp request response ipList).effects =
        earlier ++ [m] ∧
      (Repeats request.q0 m ∧
          KeyedBy request.q0 ((queryUpstreamWith env inp request response ipList).effects ++
            (classifyRespHandle request
              (queryUpstreamWith env inp request response ipList).response).2) ↔
        UncheckedRight request.q0 m) := by
  have queried := queryUpstreamWith_queried env inp request response ipList
  generalize queryUpstreamWith env inp request response ipList = out at accepted queried ⊢
  have classified := classifyResp_keyedBy request out.response
  cases queried with
  | accepted earlier m addr before bad success echoes readOnly received sent =>
    refine ⟨earlier, m, ?_, ?_⟩
    · rw [receivedMsgs_append, received, cacheEffects_receivedMsgs, List.append_nil]
    · constructor
      · rintro ⟨repeats, _⟩
        exact ⟨fun _ => repeats, fun _ => repeats.2.2⟩
      · intro right
        have repeats : Repeats request.q0 m := ⟨echoes.1, echoes.2, right.2 success⟩
        exact ⟨repeats, ((readOnly_keyedBy readOnly).append
          (cacheEffects_keyedBy repeats)).append classified⟩
  | nxdomain earlier m effects nameError readOnly received =>
    refine ⟨earlier, m, received, ?_⟩
    constructor
    · rintro ⟨repeats, _⟩
      exact ⟨fun _ => repeats, fun _ => repeats.2.2⟩
    · intro right
      exact ⟨right.1 nameError, (readOnly_keyedBy readOnly).append classified⟩
  | noServer => cases accepted
  | failed err effects readOnly received => cases accepted
  | rejected earlier m err effects readOnly received refused => cases accepted

section Answers

def askedRequest : Msg := { id := 1, question := [⟨"a.example.", typeA, classINET⟩] }

/-- The query for the address of `a.example.` is answered by the message. -/
def askedOut (m : Msg) : QueryOut :=
  queryUpstreamWith ⟨plainLib, emptySnapshot⟩ (.answered m) askedRequest { id := 1 } ["192.0.2.53"]

def answered : Msg :=
  { id := 1, response := true, question := [⟨"a.example.", typeA, classINET⟩],
    answer := [⟨"a.example.", classINET, 60, .a "192.0.2.1"⟩] }

theorem answered_question_kept :
    Repeats askedRequest.q0 answered ∧
      KeyedBy askedRequest.q0 ((askedOut answered).effects ++
        (classifyRespHandle askedRequest (askedOut answered).response).2) := by
  obtain ⟨earlier, m, received, kept_iff⟩ := accepted_question_iff ⟨plainLib, emptySnapshot⟩
    (.answered answered) askedRequest { id := 1 } ["192.0.2.53"] rfl
  have last : [] ++ [answered] = earlier ++ [m] := received
  obtain ⟨_, rfl⟩ := List.append_inj' last rfl |>.imp_right List.singleton_inj.mp
  exact kept_iff.mpr ⟨by decide, by decide⟩

/-- NXDOMAIN for another name. -/
def otherName : Msg :=
  { id := 1, response := true, rcode := rcodeNameError,
    question := [⟨"b.example.", typeA, classINET⟩],
    ns := [⟨"example.", classINET, 60, .soa 60⟩] }

/-- The answer to a question of another type. -/
def otherType : Msg :=
  { id := 1, response := true, question := [⟨"a.example.", typeAAAA, classINET⟩],
    answer := [⟨"a.example.", classINET, 60, .aaaa "2001:db8::1"⟩] }

/-- Both are accepted: the first is cached as the negative answer for the name that was
asked, the second under a type that was not asked. -/
theorem other_questions_accepted :
    (askedOut otherName).ret = .noError ∧ ¬ Repeats askedRequest.q0 otherName ∧
      (classifyRespHandle askedRequest (askedOut otherName).response).2 =
        [.setByType "a.example." typeA (askedOut otherName).response 60] ∧
      (askedOut otherType).ret = .noError ∧ ¬ Repeats askedRequest.q0 otherType ∧
      .setByType "a.example." typeAAAA otherType 60 ∈ (askedOut otherType).effects :=
  ⟨rfl, by decide, rfl, rfl, by decide, by decide⟩

end Answers

end AcceptedQuestion
