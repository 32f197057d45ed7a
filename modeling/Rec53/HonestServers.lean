import Rec53.Provenance

/-!
# What name servers say

The data of the DNS, taken as fixed for the time of a run: the records of each name and the
names that do not exist. A question is resolved by following the aliases from its name to the
records of its type, to a name that has none, or to a name that does not exist.

A server may fail, be silent or refer to other servers. If it answers with NOERROR, the answer
section has aliases from the name of the question on, in the order in which they are followed,
and after them nothing, or records of the type at the name they lead to: all of them if record
sets are sent whole, and otherwise some, as in a truncated message. An NXDOMAIN comes with an
SOA record. The resolver reads answers from the front and takes an NXDOMAIN for final only with
an SOA, so of other messages nothing could be promised.
-/

namespace HonestServers

open DnsMessage DnsCache StateHandlers UpstreamQuery

/-- `whole` is to say that the servers never cut a set of records. -/
structure Dns where
  data : String → RData → Prop
  missing : String → Prop
  whole : Prop
  not_missing : ∀ name d, data name d → ¬ missing name

/-- How the resolution of a question ends; `unsaid` if the rest is left open. -/
inductive Ending where
  | records
  | noData
  | noName
  | unsaid

namespace Dns

variable (dns : Dns) (t : Nat)

def IsAlias (name : String) : Prop := ∃ target, dns.data name (.cname target)

/-- The name exists, and has neither records of the type nor another name. -/
structure Empty (name : String) : Prop where
  present : ¬ dns.missing name
  own : ¬ dns.IsAlias name
  untyped : ∀ d, dns.data name d → d.rrtype ≠ t

/-- Records of the name and the type, and all of them if no set is cut. -/
structure Holds (name : String) (rrs : List RR) : Prop where
  nonempty : rrs ≠ []
  held : ∀ rr ∈ rrs, dns.data name rr.data
  typed : ∀ rr ∈ rrs, rr.rrtype = t
  owned : ∀ rr ∈ rrs, SameName rr.name name
  complete : dns.whole → ∀ d, dns.data name d → d.rrtype = t → ∃ rr ∈ rrs, rr.data = d

/-- The record says what the name is an alias of; a question for aliases does not follow it. -/
structure Aliases (name : String) (rr : RR) : Prop where
  followed : t ≠ typeCNAME
  is : rr.isCNAME = true
  owned : SameName rr.name name
  held : dns.data name (.cname rr.target)
  named : rr.target ≠ ""

/-- The answer records from the name to the end of its resolution. -/
inductive Leads : String → List RR → Ending → Prop where
  | records {name : String} {rrs : List RR} (holds : dns.Holds t name rrs) :
      Leads name rrs .records
  | noData {name : String} (empty : dns.Empty t name) : Leads name [] .noData
  | noName {name : String} (missing : dns.missing name) : Leads name [] .noName
  | unsaid {name : String} : Leads name [] .unsaid
  | follow {name : String} {rr : RR} {rrs : List RR} {ending : Ending}
      (aliased : dns.Aliases t name rr) (rest : Leads rr.target rrs ending) :
      Leads name (rr :: rrs) ending

/-- The aliases from one name to another. -/
inductive Follows : String → List RR → String → Prop where
  | refl {name : String} : Follows name [] name
  | step {name name' : String} {rr : RR} {rrs : List RR} (aliased : dns.Aliases t name rr)
      (rest : Follows rr.target rrs name') : Follows name (rr :: rrs) name'

variable {dns t} {name name' : String} {rrs : List RR} {ending : Ending}

lemma Aliases.rrtype {rr : RR} (aliased : dns.Aliases t name rr) : rr.rrtype ≠ t := by
  obtain ⟨owner, class_, ttl, data⟩ := rr
  have is := aliased.is
  cases data with
  | cname => exact fun same => aliased.followed same.symm
  | _ => cases is

lemma Leads.wanted (leads : dns.Leads t name rrs .records) : ∃ rr ∈ rrs, rr.rrtype = t := by
  generalize is : Ending.records = ending at leads
  induction leads with
  | records holds =>
    obtain ⟨rr, mem⟩ := List.exists_mem_of_ne_nil _ holds.nonempty
    exact ⟨rr, mem, holds.typed rr mem⟩
  | follow aliased rest ih =>
    obtain ⟨rr, mem, typed⟩ := ih is
    exact ⟨rr, List.mem_cons_of_mem _ mem, typed⟩
  | _ => cases is

/-- As long as the end is left open there are only aliases. -/
lemma Leads.unwanted (leads : dns.Leads t name rrs .unsaid) : ∀ rr ∈ rrs, rr.rrtype ≠ t := by
  generalize is : Ending.unsaid = ending at leads
  induction leads with
  | unsaid => simp
  | follow aliased rest ih =>
    intro rr mem
    rcases List.mem_cons.mp mem with rfl | later
    · exact aliased.rrtype
    · exact ih is rr later
  | _ => cases is

lemma Leads.unsaid_head (leads : dns.Leads t name rrs .unsaid) (some_said : rrs ≠ []) :
    ∃ rr rest, rrs = rr :: rest ∧ dns.Aliases t name rr := by
  cases leads with
  | unsaid => exact absurd rfl some_said
  | follow aliased rest => exact ⟨_, _, rfl, aliased⟩

/-- A name that is no alias ends its own resolution. -/
lemma Leads.own (leads : dns.Leads t name rrs ending) (own : ¬ dns.IsAlias name) :
    (ending = .records ∧ dns.Holds t name rrs) ∨ rrs = [] := by
  cases leads with
  | records holds => exact .inl ⟨rfl, holds⟩
  | follow aliased rest => exact absurd ⟨_, aliased.held⟩ own
  | _ => exact .inr rfl

lemma Follows.snoc (follows : dns.Follows t name rrs name') {rr : RR}
    (aliased : dns.Aliases t name' rr) : dns.Follows t name (rrs ++ [rr]) rr.target := by
  induction follows with
  | refl => exact .step aliased .refl
  | step first rest ih => exact .step first (ih aliased)

lemma Follows.leads (follows : dns.Follows t name rrs name') {rrs' : List RR}
    (leads : dns.Leads t name' rrs' ending) : dns.Leads t name (rrs ++ rrs') ending := by
  induction follows with
  | refl => exact leads
  | step first rest ih => exact .follow first (ih leads)

end Dns

/-! ### Messages -/

/-- What an answer section and an SOA record say about a question. -/
structure Says (dns : Dns) (t : Nat) (name : String) (m : Msg) : Prop where
  positive : m.answer ≠ [] → dns.Leads t name m.answer .records ∨ dns.Leads t name m.answer .unsaid
  negative : m.answer = [] → hasSOAInAuthority m = true → dns.Empty t name

/-- The resolution of the name ends at one that does not exist. -/
def NoName (dns : Dns) (t : Nat) (name : String) : Prop := ∃ rrs, dns.Leads t name rrs .noName

/-- A message that a server sends on a question. Only what the resolver would take from it is
restricted: a message with another Rcode or question may say anything. The name servers it
refers to are names of servers. -/
structure Honest (dns : Dns) (server : String → Prop) (t : Nat) (name : String) (m : Msg) :
    Prop where
  success : m.rcode = rcodeSuccess → Echoes name m → m.q0.qtype = t ∧ Says dns t name m
  nameError : m.rcode = rcodeNameError → hasSOAInAuthority m = true ∧ NoName dns t name
  rooted : ∀ rr ∈ m.ns, Rooted rr.name
  servers : ∀ nsName ∈ getNSNamesFromResponse m, server nsName

/-- Every server that is asked in a visit is honest, if it answers. -/
def HonestInput (dns : Dns) (server : String → Prop) (t : Nat) (name : String) (inp : Input) :
    Prop :=
  ∀ rep, inp.best = .ok rep ∨ inp.second = .ok rep ∨ inp.retry = .ok rep →
    Honest dns server t name rep.msg

/-! ### What is received comes from a server -/

section
variable {inp : Input}

/-- The message is one of those that servers sent. -/
def SentBy (inp : Input) (m : Msg) : Prop :=
  ∃ rep, (inp.best = .ok rep ∨ inp.second = .ok rep ∨ inp.retry = .ok rep) ∧ rep.msg = m

lemma querySingle_sent {q : Question} {bestAddr addr : String} {rep : Reply}
    (answered : (querySingle inp q bestAddr).2 = .ok (addr, rep)) : inp.best = .ok rep := by
  rw [querySingle] at answered
  split at answered
  · split at answered
    · cases answered
    · rename_i rep' best
      cases answered
      exact best
  · cases answered

lemma queryRace_sent {q : Question} {bestAddr secondAddr addr : String} {rep : Reply}
    (answered : (queryRace inp q bestAddr secondAddr).2 = .ok (addr, rep)) :
    inp.best = .ok rep ∨ inp.second = .ok rep := by
  simp only [queryRace] at answered
  split at answered
  · rename_i rep' first
    cases answered
    split at first
    · exact .inr first
    · exact .inl first
  split at answered
  · rename_i rep' last
    cases answered
    split at last
    · exact .inl last
    · exact .inr last
  · cases answered

lemma queryHappyEyeballs_sent {q : Question} {bestAddr secondAddr addr : String} {rep : Reply}
    (answered : (queryHappyEyeballs inp q bestAddr secondAddr).2 = .ok (addr, rep)) :
    inp.best = .ok rep ∨ inp.second = .ok rep := by
  rw [queryHappyEyeballs] at answered
  split at answered
  · exact .inl (querySingle_sent answered)
  split at answered
  · exact .inl (querySingle_sent answered)
  split at answered
  · cases answered
  split at answered
  · exact .inl (querySingle_sent answered)
  · exact queryRace_sent answered

lemma acceptResponse_unread (request response m : Msg) :
    receivedMsgs (acceptResponse request response m).effects = [] := by
  rw [acceptResponse]
  split
  · rfl
  split
  · rfl
  · exact cacheEffects_receivedMsgs m

lemma retryAlternate_sent {env : Env} {request response : Msg}
    {bestAddr secondAddr theBestIP badRcode : String} {m : Msg}
    (mem : m ∈ receivedMsgs (retryAlternate env inp request response bestAddr secondAddr theBestIP
      badRcode).effects) : ∃ rep, inp.retry = .ok rep ∧ rep.msg = m := by
  simp only [retryAlternate] at mem
  generalize (if theBestIP = secondAddr then bestAddr else secondAddr) = altAddr at mem
  split at mem
  · cases mem
  split at mem
  · cases mem
  cases retried : inp.retry with
  | error e =>
    rw [retried] at mem
    cases mem
  | ok rep =>
    refine ⟨rep, rfl, ?_⟩
    have only : receivedMsgs (retryEffects request.q0 theBestIP altAddr rep) = [rep.msg] := rfl
    simp only [retried] at mem
    split at mem
    · simp only [QueryOut.after, receivedMsgs_append, acceptResponse_unread, List.append_nil,
        only] at mem
      exact (List.mem_singleton.mp mem).symm
    split at mem
    · exact (List.mem_singleton.mp mem).symm
    · exact (List.mem_singleton.mp mem).symm

lemma checkResponse_sent {env : Env} {request response m m' : Msg}
    {bestAddr secondAddr theBestIP : String}
    (mem : m' ∈ receivedMsgs (checkResponse env inp request response bestAddr secondAddr theBestIP
      m).effects) : ∃ rep, inp.retry = .ok rep ∧ rep.msg = m' := by
  simp only [checkResponse] at mem
  split at mem
  · rw [acceptResponse_unread] at mem
    cases mem
  split at mem
  · cases mem
  split at mem
  · exact retryAlternate_sent mem
  · cases mem

theorem queryUpstreamWith_sent {env : Env} {request response : Msg} {ipList : List String} {m : Msg}
    (mem : m ∈ receivedMsgs (queryUpstreamWith env inp request response ipList).effects) :
    SentBy inp m := by
  simp only [queryUpstreamWith] at mem
  split at mem
  · cases mem
  split at mem
  · cases mem
  have unread := (queryHappyEyeballs_lookup inp request.q0 (inp.bestIPs ipList).1
    (inp.bestIPs ipList).2).unread
  split at mem
  · rename_i sent err asked
    rw [asked] at unread
    change m ∈ receivedMsgs sent at mem
    rw [show receivedMsgs sent = [] from unread] at mem
    cases mem
  · rename_i sent theBestIP rep asked
    rw [asked] at unread
    have raced : inp.best = .ok rep ∨ inp.second = .ok rep := by
      have answered := congrArg Prod.snd asked
      exact queryHappyEyeballs_sent answered
    simp only [QueryOut.after, receivedMsgs_append] at mem
    rw [show receivedMsgs sent = [] from unread] at mem
    rcases List.mem_append.mp mem with first | later
    · rw [List.nil_append] at first
      exact ⟨rep, raced.imp_right .inl, (List.mem_singleton.mp first).symm⟩
    · obtain ⟨rep', retried, is⟩ := checkResponse_sent later
      exact ⟨rep', .inr (.inr retried), is⟩

end

end HonestServers
