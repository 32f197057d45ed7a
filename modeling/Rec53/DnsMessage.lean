import Mathlib.Tactic.Basic
import Mathlib.Data.String.Defs

/-!
# DNS messages

Names are presentation-format strings, as the Go code keeps them. A record's type
number is determined by its data, as it is for every record the library unpacks,
so a record that claims one type and holds another cannot be built. TTLs, type
numbers and response codes are natural numbers; none of the arithmetic on them
leaves the ranges of the fixed-width types in the source.

`setReply` and `setRcode` follow the documentation of the dns library: they set
header and question and leave the record sections alone.
-/

namespace DnsMessage

def typeA : Nat := 1
def typeNS : Nat := 2
def typeCNAME : Nat := 5
def typeSOA : Nat := 6
def typeAAAA : Nat := 28
def typeOPT : Nat := 41
def classINET : Nat := 1

def rcodeSuccess : Nat := 0
def rcodeFormatError : Nat := 1
def rcodeServerFailure : Nat := 2
def rcodeNameError : Nat := 3
def rcodeNotImplemented : Nat := 4
def rcodeRefused : Nat := 5

def opcodeQuery : Nat := 0

/-- A type number that is none of the types the resolver looks into. -/
structure OtherType where
  code : Nat
  other : code ≠ 1 ∧ code ≠ 2 ∧ code ≠ 5 ∧ code ≠ 6 ∧ code ≠ 28 ∧ code ≠ 41
  deriving DecidableEq

inductive RData where
  | a (ip : String)
  | ns (ns : String)
  | cname (target : String)
  | soa (minttl : Nat)
  | aaaa (ip : String)
  | opt
  | other (type : OtherType) (rdata : String)
  deriving DecidableEq

def RData.rrtype : RData → Nat
  | .a _ => typeA
  | .ns _ => typeNS
  | .cname _ => typeCNAME
  | .soa _ => typeSOA
  | .aaaa _ => typeAAAA
  | .opt => typeOPT
  | .other t _ => t.code

structure RR where
  name : String
  class_ : Nat
  ttl : Nat
  data : RData
  deriving DecidableEq

def RR.rrtype (rr : RR) : Nat := rr.data.rrtype

def RR.isNS (rr : RR) : Bool :=
  match rr.data with
  | .ns _ => true
  | _ => false

def RR.isSOA (rr : RR) : Bool :=
  match rr.data with
  | .soa _ => true
  | _ => false

def RR.isOPT (rr : RR) : Bool :=
  match rr.data with
  | .opt => true
  | _ => false

def RR.isCNAME (rr : RR) : Bool :=
  match rr.data with
  | .cname _ => true
  | _ => false

/-- The target of a CNAME record, the empty string for every other record. A
CNAME unpacked from an empty RDATA has the empty target as well. -/
def RR.target (rr : RR) : String :=
  match rr.data with
  | .cname t => t
  | _ => ""

def RR.address? (rr : RR) : Option String :=
  match rr.data with
  | .a ip => some ip
  | _ => none

def RR.nsName? (rr : RR) : Option String :=
  match rr.data with
  | .ns n => some n
  | _ => none

structure Question where
  name : String
  qtype : Nat
  qclass : Nat
  deriving DecidableEq

structure Msg where
  id : Nat := 0
  response : Bool := false
  opcode : Nat := 0
  authoritative : Bool := false
  truncated : Bool := false
  recursionDesired : Bool := false
  recursionAvailable : Bool := false
  zero : Bool := false
  authenticatedData : Bool := false
  checkingDisabled : Bool := false
  rcode : Nat := 0
  question : List Question := []
  answer : List RR := []
  ns : List RR := []
  extra : List RR := []
  deriving DecidableEq

/-- `Question[0]`. Every state after STATE_INIT runs on a request with exactly
one question, so the default is never read there. -/
def Msg.q0 (m : Msg) : Question := m.question.headD ⟨"", 0, 0⟩

/-- `SetReply`: header and question of a reply to `request`. -/
def Msg.setReply (m request : Msg) : Msg :=
  { m with
    id := request.id
    response := true
    opcode := request.opcode
    recursionDesired :=
      if request.opcode = opcodeQuery then request.recursionDesired else m.recursionDesired
    checkingDisabled :=
      if request.opcode = opcodeQuery then request.checkingDisabled else m.checkingDisabled
    rcode := rcodeSuccess
    question := if request.question = [] then m.question else [request.q0] }

def Msg.setRcode (m request : Msg) (rcode : Nat) : Msg :=
  { m.setReply request with rcode := rcode }

/-- `SetQuestion` on a new message, then `RecursionDesired = false`. -/
def newQuery (id : Nat) (name : String) (qtype : Nat) : Msg :=
  { id := id, question := [⟨name, qtype, classINET⟩] }

@[simp] theorem setReply_answer (m request : Msg) : (m.setReply request).answer = m.answer := rfl

/-- No record in any section. -/
def Msg.Bare (m : Msg) : Prop := m.answer = [] ∧ m.ns = [] ∧ m.extra = []

instance (m : Msg) : Decidable m.Bare := inferInstanceAs (Decidable (_ ∧ _ ∧ _))

/-- A name with its ASCII letters in lower case, as a list that evaluates. -/
def foldCase (name : String) : List Char := name.toList.map Char.toLower

/-- Names compared without regard to ASCII letter case. -/
def SameName (a b : String) : Prop := foldCase a = foldCase b

instance (a b : String) : Decidable (SameName a b) := inferInstanceAs (Decidable (_ = _))

@[refl] theorem SameName.refl (a : String) : SameName a a := rfl

theorem SameName.symm {a b : String} (h : SameName a b) : SameName b a := Eq.symm h

/-- The name is empty or ends with a dot, as every name does that the library unpacks. -/
def Rooted (name : String) : Prop := ∀ c ∈ name.toList.getLast?, c = '.'

end DnsMessage
