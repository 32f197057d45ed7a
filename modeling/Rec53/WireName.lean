import Mathlib.Data.List.Basic
import Mathlib.Tactic.Basic

/-!
# Domain names in wire format

A name is a sequence of labels, each after its length, and ends with the root label, a
zero octet. A label has 1 to 63 octets and a whole name at most 255. `scan` reads a name
in a bounded number of rounds, the root label included, and a bounded room; when the
rounds run out it stops after the last label without an error.
-/

namespace WireName

def Sized (label : List UInt8) : Prop := 1 ≤ label.length ∧ label.length ≤ 63

instance (label : List UInt8) : Decidable (Sized label) := inferInstanceAs (Decidable (_ ∧ _))

/-- The octets of the labels, without the root label. -/
def labelOctets (labels : List (List UInt8)) : List UInt8 :=
  labels.flatMap fun label => UInt8.ofNat label.length :: label

@[simp] theorem labelOctets_nil : labelOctets [] = [] := rfl

@[simp] theorem labelOctets_cons (label : List UInt8) (labels : List (List UInt8)) :
    labelOctets (label :: labels) =
      UInt8.ofNat label.length :: (label ++ labelOctets labels) := rfl

structure Name where
  labels : List (List UInt8)
  sized : ∀ label ∈ labels, Sized label
  fits : (labelOctets labels).length + 1 ≤ 255

lemma Name.ext_labels {n n' : Name} (same : n.labels = n'.labels) : n = n' := by
  cases n with
  | mk labels sized fits =>
    cases same
    rfl

def Name.wire (n : Name) : List UInt8 := labelOctets n.labels ++ [0]

lemma length_wire (n : Name) : n.wire.length = (labelOctets n.labels).length + 1 := by
  simp [Name.wire]

/-- Every label takes two octets at least. -/
lemma two_mul_length_le {labels : List (List UInt8)} (sized : ∀ label ∈ labels, Sized label) :
    2 * labels.length ≤ (labelOctets labels).length := by
  induction labels with
  | nil => exact Nat.le_refl 0
  | cons label labels ih =>
    have rest := ih fun l mem => sized l (List.mem_cons_of_mem _ mem)
    have first := (sized label List.mem_cons_self).1
    simp only [labelOctets_cons, List.length_cons, List.length_append]
    omega

/-! ### Letter case -/

def lowerOctet (ch : UInt8) : UInt8 := if 65 ≤ ch ∧ ch ≤ 90 then ch + 32 else ch

def lowerLabels (labels : List (List UInt8)) : List (List UInt8) :=
  labels.map fun label => label.map lowerOctet

lemma length_labelOctets_lower (labels : List (List UInt8)) :
    (labelOctets (lowerLabels labels)).length = (labelOctets labels).length := by
  simp [labelOctets, lowerLabels, List.length_flatMap, Function.comp_def]

def Name.lower (n : Name) : Name where
  labels := lowerLabels n.labels
  sized := by
    intro label mem
    obtain ⟨before, mem', rfl⟩ := List.mem_map.mp mem
    rw [Sized, List.length_map]
    exact n.sized before mem'
  fits := by
    rw [length_labelOctets_lower]
    exact n.fits

/-! ### Bounded scanning -/

/-- The labels in front of the given octets, and whether the root label follows them. -/
def scan : (rounds room : Nat) → List UInt8 → Option (List (List UInt8) × Bool)
  | 0, _, _ => some ([], false)
  | _ + 1, _, [] => none
  | rounds + 1, room, len :: rest =>
    if len = 0 then if room = 0 then none else some ([], true)
    else if len.toNat ≤ 63 ∧ 1 + len.toNat ≤ room ∧ len.toNat ≤ rest.length then
      match scan rounds (room - (1 + len.toNat)) (rest.drop len.toNat) with
      | none => none
      | some (labels, ended) => some (rest.take len.toNat :: labels, ended)
    else none

/-- What a scan has read. -/
def scanned (labels : List (List UInt8)) (ended : Bool) : List UInt8 :=
  labelOctets labels ++ if ended then [0] else []

@[simp] theorem scanned_false (labels : List (List UInt8)) :
    scanned labels false = labelOctets labels := List.append_nil _

lemma scanned_true (n : Name) : scanned n.labels true = n.wire := rfl

lemma scanned_cons (label : List UInt8) (labels : List (List UInt8)) (ended : Bool) :
    scanned (label :: labels) ended =
      UInt8.ofNat label.length :: (label ++ scanned labels ended) := by
  simp [scanned]

/-- A label behind the octet that has its length. -/
lemma scanned_cons_of_length {len : UInt8} {label : List UInt8} (length : label.length = len.toNat)
    (labels : List (List UInt8)) (ended : Bool) :
    scanned (label :: labels) ended = len :: (label ++ scanned labels ended) := by
  rw [scanned_cons, length, UInt8.ofNat_toNat]

/-- The rounds were enough to read the root label, or went into labels. -/
def RoundsMet (rounds : Nat) (labels : List (List UInt8)) (ended : Bool) : Prop :=
  if ended then labels.length < rounds else labels.length = rounds

lemma roundsMet_cons {rounds : Nat} {label : List UInt8} {labels : List (List UInt8)}
    {ended : Bool} :
    RoundsMet (rounds + 1) (label :: labels) ended ↔ RoundsMet rounds labels ended := by
  cases ended <;> simp [RoundsMet]

lemma toNat_ofNat_of_sized {label : List UInt8} (sized : Sized label) :
    (UInt8.ofNat label.length).toNat = label.length := by
  have small := sized.2
  simp
  omega

/-- A round on a label that fits. -/
lemma scan_label {label : List UInt8} (sized : Sized label) {rounds room : Nat}
    (fits : 1 + label.length ≤ room) {rest : List UInt8} {labels : List (List UInt8)} {ended : Bool}
    (scanned_rest : scan rounds (room - (1 + label.length)) rest = some (labels, ended)) :
    scan (rounds + 1) room (UInt8.ofNat label.length :: (label ++ rest)) =
      some (label :: labels, ended) := by
  have len := toNat_ofNat_of_sized sized
  have nonzero : UInt8.ofNat label.length ≠ 0 := by
    intro zero
    have none_left : label.length = 0 := by
      rw [← len, zero]
      rfl
    have some_left := sized.1
    omega
  have present : label.length ≤ (label ++ rest).length := by simp
  rw [scan, if_neg nonzero, len, if_pos ⟨sized.2, fits, present⟩, List.drop_left, List.take_left,
    scanned_rest]

/-- What is written in wire format is read back. -/
theorem scan_scanned {labels : List (List UInt8)} (sized : ∀ label ∈ labels, Sized label)
    {ended : Bool} {rounds room : Nat} (fits : (scanned labels ended).length ≤ room)
    (met : RoundsMet rounds labels ended) (rest : List UInt8) :
    scan rounds room (scanned labels ended ++ rest) = some (labels, ended) := by
  induction labels generalizing rounds room with
  | nil =>
    cases ended with
    | false =>
      have out : rounds = 0 := by simpa [RoundsMet] using met.symm
      rw [out, scan]
    | true =>
      obtain ⟨rounds, rfl⟩ : ∃ k, rounds = k + 1 := by
        simp only [RoundsMet, if_true, List.length_nil] at met
        exact ⟨rounds - 1, by omega⟩
      have roomy : room ≠ 0 := by
        rintro rfl
        simp [scanned] at fits
      simp [scanned, scan, roomy]
  | cons label labels ih =>
    obtain ⟨rounds, rfl⟩ : ∃ k, rounds = k + 1 := by
      cases rounds with
      | zero => cases ended <;> simp [RoundsMet] at met
      | succ k => exact ⟨k, rfl⟩
    rw [scanned_cons] at fits ⊢
    simp only [List.length_cons, List.length_append] at fits
    rw [List.cons_append, List.append_assoc]
    refine scan_label (sized label List.mem_cons_self) (by omega) ?_
    refine ih (fun l mem => sized l (List.mem_cons_of_mem _ mem)) (by omega) ?_
    exact roundsMet_cons.mp met

/-- What is read was written in wire format. -/
theorem scanned_of_scan {rounds room : Nat} {octets : List UInt8} {labels : List (List UInt8)}
    {ended : Bool} (read : scan rounds room octets = some (labels, ended)) :
    (∀ label ∈ labels, Sized label) ∧ scanned labels ended <+: octets ∧
      (scanned labels ended).length ≤ room ∧ RoundsMet rounds labels ended := by
  induction rounds generalizing room octets labels ended with
  | zero =>
    cases read
    exact ⟨nofun, List.nil_prefix, Nat.zero_le _, rfl⟩
  | succ rounds ih =>
    cases octets with
    | nil => cases read
    | cons len rest =>
      rw [scan] at read
      split at read
      · rename_i root
        split at read
        · cases read
        · rename_i roomy
          cases read
          refine ⟨nofun, ?_, Nat.pos_of_ne_zero roomy, Nat.succ_pos _⟩
          rw [root]
          exact ⟨rest, rfl⟩
      rename_i nonzero
      split at read
      swap
      · cases read
      rename_i whole
      split at read
      · cases read
      rename_i labels' ended' read_rest
      cases read
      obtain ⟨sized, ⟨left, reads⟩, fits, met⟩ := ih read_rest
      have length : (rest.take len.toNat).length = len.toNat := by
        rw [List.length_take]
        omega
      have positive : 1 ≤ len.toNat := by
        refine Nat.pos_of_ne_zero ?_
        intro zero
        exact nonzero (UInt8.toNat_inj.mp zero)
      refine ⟨?_, ?_, ?_, roundsMet_cons.mpr met⟩
      · intro label mem
        rcases List.mem_cons.mp mem with rfl | later
        · rw [Sized, length]
          omega
        · exact sized label later
      · refine ⟨left, ?_⟩
        rw [scanned_cons_of_length length, List.cons_append, List.append_assoc, reads,
          List.take_append_drop]
      · rw [scanned_cons, List.length_cons, List.length_append, length]
        omega

end WireName
