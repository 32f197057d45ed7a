import Mathlib.Algebra.GroupWithZero.Nat
import Mathlib.Data.List.Basic
import Mathlib.Data.List.Infix
import Mathlib.Algebra.Order.BigOperators.Group.List

/-!
# Domain names in presentation form

Names as lists of characters, with the notions of a label, an enclosing domain and a
fully qualified name that resolvers share. A dot ends a label unless an odd number of
backslashes stands before it, labels are compared without regard to ASCII case, and
the name `.` has no label. A label keeps the dot that ends it, so the labels of a name
make up the name, and the domains that enclose a name are nested: the one with more
labels is the longer one.
-/

namespace DomainName

/-- Whether the next character is escaped. -/
def escapesNext (escaped : Bool) (c : Char) : Bool := c == '\\' && !escaped

/-- The text cut after each dot that ends a label; the last character ends the text. -/
def split (escaped : Bool) : List Char → List (List Char)
  | [] => [[]]
  | [c] => [[c]]
  | c :: d :: rest =>
    if c = '.' ∧ escaped = false then [c] :: split false (d :: rest)
    else (split (escapesNext escaped c) (d :: rest)).modifyHead (c :: ·)

def labels (name : List Char) : List (List Char) :=
  if name = ['.'] then [] else split false name

def lower (text : List Char) : List Char := text.map Char.toLower

/-- The labels of the parent are the last labels of the child. -/
def isSubDomain (parent child : List Char) : Bool :=
  ((labels parent).map lower).isSuffixOf ((labels child).map lower)

/-- The text ends with a dot that is not escaped. -/
def endsLabel (escaped : Bool) : List Char → Bool
  | [] => false
  | [c] => c == '.' && !escaped
  | c :: d :: rest => endsLabel (escapesNext escaped c) (d :: rest)

def isFqdn (name : List Char) : Bool := endsLabel false name

def fqdn (name : List Char) : List Char := if isFqdn name then name else name ++ ['.']

theorem isSubDomain_iff {parent child : List Char} : isSubDomain parent child = true ↔
    (labels parent).map lower <:+ (labels child).map lower := List.isSuffixOf_iff_suffix

/-! ### Splitting -/

theorem split_ne_nil (escaped : Bool) (text : List Char) : split escaped text ≠ [] := by
  induction text generalizing escaped with
  | nil => simp [split]
  | cons c rest ih =>
    cases rest with
    | nil => simp [split]
    | cons d rest =>
      rw [split]
      split
      · exact List.cons_ne_nil _ _
      · rw [ne_eq, List.modifyHead_eq_nil_iff]
        exact ih _

/-- A text of two characters and more starts a label or goes on with it. -/
theorem split_cons (escaped : Bool) (c : Char) {rest : List Char} (more : rest ≠ []) :
    (c = '.' ∧ escaped = false ∧ split escaped (c :: rest) = [c] :: split false rest) ∨
      ¬ (c = '.' ∧ escaped = false) ∧ ∃ label later,
        split (escapesNext escaped c) rest = label :: later ∧
        split escaped (c :: rest) = (c :: label) :: later := by
  obtain ⟨d, rest, rfl⟩ := List.exists_cons_of_ne_nil more
  rw [split]
  by_cases ends : c = '.' ∧ escaped = false
  · exact .inl ⟨ends.1, ends.2, if_pos ends⟩
  · right
    obtain ⟨label, later, cut⟩ :=
      List.exists_cons_of_ne_nil (split_ne_nil (escapesNext escaped c) (d :: rest))
    refine ⟨ends, label, later, cut, ?_⟩
    rw [if_neg ends, cut]
    rfl

theorem flatten_split (escaped : Bool) (text : List Char) :
    (split escaped text).flatten = text := by
  induction text generalizing escaped with
  | nil => rfl
  | cons c rest ih =>
    by_cases more : rest = []
    · rw [more]
      rfl
    rcases split_cons escaped c more with ⟨_, _, cut⟩ | ⟨_, label, later, cut', cut⟩
    · rw [cut, List.flatten_cons, ih]
      rfl
    · have whole := ih (escapesNext escaped c)
      rw [cut', List.flatten_cons] at whole
      rw [cut, List.flatten_cons, List.cons_append, whole]

theorem ne_nil_of_mem_split {escaped : Bool} {text label : List Char} (nonempty : text ≠ [])
    (mem : label ∈ split escaped text) : label ≠ [] := by
  induction text generalizing escaped label with
  | nil => exact absurd rfl nonempty
  | cons c rest ih =>
    by_cases more : rest = []
    · rw [more] at mem
      rw [List.mem_singleton.mp mem]
      exact List.cons_ne_nil _ _
    rcases split_cons escaped c more with ⟨_, _, cut⟩ | ⟨_, first, later, cut', cut⟩
    · rw [cut] at mem
      rcases List.mem_cons.mp mem with rfl | later
      · exact List.cons_ne_nil _ _
      · exact ih more later
    · rw [cut] at mem
      rcases List.mem_cons.mp mem with rfl | after
      · exact List.cons_ne_nil _ _
      · exact ih more (cut' ▸ List.mem_cons_of_mem first after)

theorem endsLabel_cons {escaped : Bool} {c : Char} {rest : List Char} (more : rest ≠ []) :
    endsLabel escaped (c :: rest) = endsLabel (escapesNext escaped c) rest := by
  obtain ⟨d, rest, rfl⟩ := List.exists_cons_of_ne_nil more
  rfl

theorem eq_snoc_of_endsLabel {escaped : Bool} {text : List Char}
    (ends : endsLabel escaped text = true) : ∃ front, text = front ++ ['.'] := by
  induction text generalizing escaped with
  | nil => cases ends
  | cons c rest ih =>
    by_cases more : rest = []
    · subst more
      obtain ⟨rfl, _⟩ : c = '.' ∧ escaped = false := by simpa [endsLabel] using ends
      exact ⟨[], rfl⟩
    · rw [endsLabel_cons more] at ends
      obtain ⟨front, rfl⟩ := ih ends
      exact ⟨c :: front, rfl⟩

/-- After the end of a label the rest is split on its own. -/
theorem split_append {escaped : Bool} {cut text : List Char} (ends : endsLabel escaped cut = true)
    (nonempty : text ≠ []) :
    split escaped (cut ++ text) = split escaped cut ++ split false text := by
  induction cut generalizing escaped with
  | nil => cases ends
  | cons c rest ih =>
    by_cases more : rest = []
    · subst more
      obtain ⟨dot, plain⟩ : c = '.' ∧ escaped = false := by simpa [endsLabel] using ends
      rcases split_cons escaped c nonempty with ⟨_, _, cut⟩ | ⟨inside, _⟩
      · exact cut
      · exact absurd ⟨dot, plain⟩ inside
    rw [endsLabel_cons more] at ends
    have later := ih ends
    rcases split_cons escaped c more with ⟨rfl, rfl, cut⟩ | ⟨inside, label, after, cut', cut⟩
    · rcases split_cons false '.' (List.append_ne_nil_of_left_ne_nil more text) with
        ⟨_, _, whole⟩ | ⟨inside, _⟩
      · change split false (rest ++ text) = split false rest ++ split false text at later
        rw [List.cons_append, whole, cut, later, List.cons_append]
      · exact absurd ⟨rfl, rfl⟩ inside
    · rcases split_cons escaped c (List.append_ne_nil_of_left_ne_nil more text) with
        ⟨dot, plain, _⟩ | ⟨_, label', after', whole', whole⟩
      · exact absurd ⟨dot, plain⟩ inside
      · rw [cut', whole', List.cons_append, List.cons_eq_cons] at later
        rw [List.cons_append, whole, cut, later.1, later.2, List.cons_append]

/-- A dot that is not escaped keeps the end of what follows it. -/
theorem endsLabel_dot_cons {before : List Char}
    (ends : before = [] ∨ endsLabel false before = true) :
    endsLabel false ('.' :: before) = true := by
  rcases ends with rfl | ends
  · rfl
  · cases before with
    | nil => rfl
    | cons d before => exact ends

/-- The labels after the first one are not the whole text. -/
theorem flatten_later_ne {escaped : Bool} {text label : List Char} {later last : List (List Char)}
    (more : text ≠ []) (cut : split escaped text = label :: later) (after : last <:+ later) :
    last.flatten ≠ text := by
  intro whole
  obtain ⟨front, rfl⟩ := after
  have taken := flatten_split escaped text
  rw [cut] at taken
  have lengths := congrArg List.length (taken.trans whole.symm)
  simp only [List.flatten_cons, List.flatten_append, List.length_append] at lengths
  have label_long : 0 < label.length :=
    List.length_pos_of_ne_nil (ne_nil_of_mem_split more (cut ▸ List.mem_cons_self))
  omega

/-- The last labels of a text are what is left after the end of a label. -/
theorem split_suffix {escaped : Bool} {text : List Char} {last : List (List Char)}
    (within : last <:+ split escaped text) (nonempty : last ≠ []) :
    ∃ cut, text = cut ++ last.flatten ∧ (cut = [] ∨ endsLabel escaped cut = true) := by
  induction text generalizing escaped with
  | nil =>
    refine ⟨[], ?_, .inl rfl⟩
    rcases List.suffix_cons_iff.mp within with rfl | none_left
    · rfl
    · exact absurd (List.suffix_nil.mp none_left) nonempty
  | cons c rest ih =>
    -- either all labels are taken, or the first character is before the cut
    have all_taken : last = split escaped (c :: rest) →
        ∃ cut, c :: rest = cut ++ last.flatten ∧ (cut = [] ∨ endsLabel escaped cut = true) := by
      rintro rfl
      exact ⟨[], (flatten_split escaped (c :: rest)).symm, .inl rfl⟩
    by_cases more : rest = []
    · subst more
      rcases List.suffix_cons_iff.mp within with whole | none_left
      · exact all_taken whole
      · exact absurd (List.suffix_nil.mp none_left) nonempty
    rcases split_cons escaped c more with ⟨rfl, rfl, cut⟩ | ⟨inside, label, later, cut', cut⟩
    · rw [cut] at within
      rcases List.suffix_cons_iff.mp within with whole | later
      · exact all_taken (whole.trans cut.symm)
      · obtain ⟨before, rfl, ends⟩ := ih later
        exact ⟨'.' :: before, rfl, .inr (endsLabel_dot_cons ends)⟩
    · rw [cut] at within
      rcases List.suffix_cons_iff.mp within with whole | after
      · exact all_taken (whole.trans cut.symm)
      · have inner : last <:+ split (escapesNext escaped c) rest := by
          rw [cut']
          exact after.trans (List.suffix_cons label later)
        obtain ⟨before, text_eq, ends⟩ := ih inner
        have label_left : before ≠ [] := by
          rintro rfl
          exact flatten_later_ne more cut' after text_eq.symm
        refine ⟨c :: before, ?_, .inr ?_⟩
        · rw [text_eq]
          rfl
        · rw [endsLabel_cons label_left]
          exact ends.resolve_left label_left

/-- After the end of a label a text ends as what follows it. -/
theorem endsLabel_append {escaped : Bool} {cut text : List Char}
    (ends : endsLabel escaped cut = true) (nonempty : text ≠ []) :
    endsLabel escaped (cut ++ text) = endsLabel false text := by
  induction cut generalizing escaped with
  | nil => cases ends
  | cons c rest ih =>
    rw [List.cons_append, endsLabel_cons (List.append_ne_nil_of_right_ne_nil rest nonempty)]
    by_cases more : rest = []
    · subst more
      obtain ⟨rfl, _⟩ : c = '.' ∧ escaped = false := by simpa [endsLabel] using ends
      rfl
    · rw [endsLabel_cons more] at ends
      exact ih ends

/-- The last labels of a text are the labels of what they make up. -/
theorem split_flatten_suffix {escaped : Bool} {text : List Char} {last : List (List Char)}
    (within : last <:+ split escaped text) (nonempty : last ≠ []) :
    last = split escaped text ∨ split false last.flatten = last := by
  induction text generalizing escaped with
  | nil =>
    rcases List.suffix_cons_iff.mp within with whole | none_left
    · exact .inl whole
    · exact absurd (List.suffix_nil.mp none_left) nonempty
  | cons c rest ih =>
    by_cases more : rest = []
    · subst more
      rcases List.suffix_cons_iff.mp within with whole | none_left
      · exact .inl whole
      · exact absurd (List.suffix_nil.mp none_left) nonempty
    rcases split_cons escaped c more with ⟨rfl, rfl, cut⟩ | ⟨_, label, later, cut', cut⟩
    · rw [cut] at within ⊢
      rcases List.suffix_cons_iff.mp within with whole | later
      · exact .inl whole
      · rcases ih later with rfl | again
        · exact .inr (by rw [flatten_split])
        · exact .inr again
    · rw [cut] at within ⊢
      rcases List.suffix_cons_iff.mp within with whole | after
      · exact .inl whole
      · have inner : last <:+ split (escapesNext escaped c) rest := by
          rw [cut']
          exact after.trans (List.suffix_cons label later)
        rcases ih inner with whole | again
        · have shorter := after.length_le
          rw [whole, cut', List.length_cons] at shorter
          omega
        · exact .inr again

/-- The labels of a text that ends a label all end with a dot. -/
theorem exists_snoc_of_mem_split {escaped : Bool} {text label : List Char}
    (ends : endsLabel escaped text = true) (mem : label ∈ split escaped text) :
    ∃ front, label = front ++ ['.'] := by
  induction text generalizing escaped label with
  | nil => cases ends
  | cons c rest ih =>
    by_cases more : rest = []
    · subst more
      rw [List.mem_singleton.mp mem]
      exact eq_snoc_of_endsLabel ends
    rw [endsLabel_cons more] at ends
    rcases split_cons escaped c more with ⟨rfl, rfl, cut⟩ | ⟨_, first, later, cut', cut⟩
    · rw [cut] at mem
      rcases List.mem_cons.mp mem with rfl | after
      · exact ⟨[], rfl⟩
      · exact ih ends after
    · rw [cut] at mem
      rcases List.mem_cons.mp mem with rfl | after
      · obtain ⟨front, rfl⟩ := ih ends (cut' ▸ List.mem_cons_self)
        exact ⟨c :: front, rfl⟩
      · exact ih ends (cut' ▸ List.mem_cons_of_mem first after)

/-! ### Letter case -/

theorem toLower_cases (c : Char) :
    c.toLower = c ∨ 65 ≤ c.toNat ∧ c.toNat ≤ 90 ∧ c.toLower.toNat = c.toNat + 32 := by
  by_cases upper : c.val ≥ 'A'.val ∧ c.val ≤ 'Z'.val
  · right
    have least := UInt32.le_iff_toNat_le.mp upper.1
    have most := UInt32.le_iff_toNat_le.mp upper.2
    have moved : c.toLower.val = c.val + ('a'.val - 'A'.val) := congrArg Char.val (dif_pos upper)
    refine ⟨least, most, ?_⟩
    change c.toLower.val.toNat = c.val.toNat + 32
    have small : c.toNat ≤ 90 := most
    rw [moved, UInt32.toNat_add]
    exact Nat.mod_eq_of_lt (by simp; omega)
  · exact .inl (dif_neg upper)

theorem toLower_eq_iff {c d : Char} (plain : d.toNat < 97 ∧ (d.toNat < 65 ∨ 90 < d.toNat)) :
    c.toLower = d ↔ c = d := by
  constructor
  · rintro rfl
    rcases toLower_cases c with same | ⟨least, _, moved⟩
    · exact same.symm
    · omega
  · rintro rfl
    rcases toLower_cases c with same | ⟨_, _, _⟩
    · exact same
    · omega

theorem escapesNext_toLower (escaped : Bool) (c : Char) :
    escapesNext escaped c.toLower = escapesNext escaped c := by
  have same : c.toLower = '\\' ↔ c = '\\' := toLower_eq_iff (by decide)
  rw [escapesNext, escapesNext, Bool.eq_iff_iff]
  simp only [Bool.and_eq_true, beq_iff_eq, same]

theorem split_lower (escaped : Bool) (text : List Char) :
    split escaped (lower text) = (split escaped text).map lower := by
  induction text generalizing escaped with
  | nil => rfl
  | cons c rest ih =>
    by_cases more : rest = []
    · rw [more]
      rfl
    have more' : lower rest ≠ [] := fun empty => more (List.map_eq_nil_iff.mp empty)
    have dot : c.toLower = '.' ↔ c = '.' := toLower_eq_iff (by decide)
    change split escaped (c.toLower :: lower rest) = _
    rcases split_cons escaped c more with ⟨rfl, rfl, cut⟩ | ⟨inside, label, later, cut', cut⟩
    · rcases split_cons false '.'.toLower more' with ⟨_, _, whole⟩ | ⟨inside, _⟩
      · rw [whole, cut, ih]
        rfl
      · exact absurd ⟨rfl, rfl⟩ inside
    · rcases split_cons escaped c.toLower more' with
        ⟨ends, plain, _⟩ | ⟨_, label', later', whole', whole⟩
      · exact absurd ⟨dot.mp ends, plain⟩ inside
      · rw [escapesNext_toLower, ih, cut', List.map_cons, List.cons_eq_cons] at whole'
        rw [whole, cut, List.map_cons, whole'.1.symm, whole'.2.symm]
        rfl

theorem endsLabel_lower (escaped : Bool) (text : List Char) :
    endsLabel escaped (lower text) = endsLabel escaped text := by
  induction text generalizing escaped with
  | nil => rfl
  | cons c rest ih =>
    cases rest with
    | nil =>
      have dot : c.toLower = '.' ↔ c = '.' := toLower_eq_iff (by decide)
      change (c.toLower == '.' && !escaped) = (c == '.' && !escaped)
      rw [Bool.eq_iff_iff]
      simp only [Bool.and_eq_true, beq_iff_eq, dot]
    | cons d rest =>
      change endsLabel (escapesNext escaped c.toLower) (lower (d :: rest)) = _
      rw [escapesNext_toLower, ih]
      rfl

/-! ### Enclosing domains -/

theorem labels_eq_nil_iff {name : List Char} : labels name = [] ↔ name = ['.'] := by
  rw [labels]
  split
  · exact ⟨fun _ => ‹_›, fun _ => rfl⟩
  · exact ⟨fun empty => absurd empty (split_ne_nil false name), fun root => absurd root ‹_›⟩

theorem flatten_labels {name : List Char} (proper : name ≠ ['.']) :
    (labels name).flatten = name := by
  rw [labels, if_neg proper]
  exact flatten_split false name

theorem labels_lower (name : List Char) : labels (lower name) = (labels name).map lower := by
  have dot (c : Char) : c.toLower = '.' ↔ c = '.' := toLower_eq_iff (by decide)
  have root : lower name = ['.'] ↔ name = ['.'] := by
    simp only [lower, List.map_eq_singleton_iff, dot]
    exact ⟨fun ⟨c, is, same⟩ => same ▸ is, fun is => ⟨'.', is, rfl⟩⟩
  rw [labels, labels]
  simp only [root, split_lower]
  split
  · rfl
  · rfl

/-- Names have the same labels without regard to case when they are the same so. -/
theorem map_lower_labels_eq_iff {name name' : List Char} :
    (labels name).map lower = (labels name').map lower ↔ lower name = lower name' := by
  constructor
  · intro same
    by_cases root : name = ['.']
    · rw [labels_eq_nil_iff.mpr root, List.map_nil, eq_comm, List.map_eq_nil_iff,
        labels_eq_nil_iff] at same
      rw [root, same]
    · have proper' : name' ≠ ['.'] := by
        intro root'
        rw [labels_eq_nil_iff.mpr root', List.map_nil, List.map_eq_nil_iff,
          labels_eq_nil_iff] at same
        exact root same
      have whole (text : List Char) (proper : text ≠ ['.']) :
          ((labels text).map lower).flatten = lower text := by
        change ((labels text).map (List.map Char.toLower)).flatten = _
        rw [← List.map_flatten, flatten_labels proper]
        rfl
      rw [← whole name root, same, whole name' proper']
  · intro same
    rw [← labels_lower, same, labels_lower]

/-- What is added up over the characters without regard to case. -/
def weight (f : Char → Nat) (text : List Char) : Nat := (text.map f).sum

theorem weight_flatten_lower {f : Char → Nat} (fold : ∀ c, f c.toLower = f c)
    (parts : List (List Char)) : weight f (parts.map lower).flatten = weight f parts.flatten := by
  have same : (f ∘ Char.toLower) = f := funext fold
  change weight f (parts.map (List.map Char.toLower)).flatten = _
  rw [← List.map_flatten, weight, List.map_map, same]
  rfl

theorem weight_one (text : List Char) : weight (fun _ => 1) text = text.length := by
  simp [weight]

theorem weight_pos {f : Char → Nat} (pos : ∀ c, 0 < f c) {text : List Char} (nonempty : text ≠ []) :
    0 < weight f text := by
  obtain ⟨c, rest, rfl⟩ := List.exists_cons_of_ne_nil nonempty
  rw [weight, List.map_cons, List.sum_cons]
  exact Nat.add_pos_left (pos c) _

theorem weight_append (f : Char → Nat) (front rest : List Char) :
    weight f (front ++ rest) = weight f front + weight f rest := by
  simp [weight]

theorem isSubDomain_refl (name : List Char) : isSubDomain name name = true :=
  isSubDomain_iff.mpr (List.suffix_refl _)

/-- The empty text is a domain of its own. -/
theorem eq_nil_of_isSubDomain_nil {name : List Char} (encloses : isSubDomain [] name = true) :
    name = [] := by
  by_contra nonempty
  have within : [[]] <:+ (labels name).map lower := isSubDomain_iff.mp encloses
  obtain ⟨label, mem, empty⟩ := List.mem_map.mp (within.subset List.mem_cons_self)
  rw [labels] at mem
  split at mem
  · cases mem
  · exact ne_nil_of_mem_split nonempty mem (List.map_eq_nil_iff.mp empty)

/-- The last labels of the name that are those of the domain around it. -/
theorem exists_last_of_isSubDomain {zone name : List Char}
    (encloses : isSubDomain zone name = true) :
    ∃ last, last <:+ labels name ∧ last.map lower = (labels zone).map lower := by
  obtain ⟨front, whole⟩ := isSubDomain_iff.mp encloses
  obtain ⟨_, last, cut, _, same⟩ := List.map_eq_append_iff.mp whole.symm
  exact ⟨last, ⟨_, cut.symm⟩, same⟩

/-- A domain around a name that ends with a dot does so too. -/
theorem isFqdn_of_isSubDomain {zone name : List Char} (encloses : isSubDomain zone name = true)
    (ended : isFqdn name = true) : isFqdn zone = true := by
  by_cases root : zone = ['.']
  · rw [root]
    rfl
  obtain ⟨last, within, same⟩ := exists_last_of_isSubDomain encloses
  have last_some : last ≠ [] := by
    rintro rfl
    exact root (labels_eq_nil_iff.mp (List.map_eq_nil_iff.mp same.symm))
  have proper : name ≠ ['.'] := by
    intro is_root
    rw [labels_eq_nil_iff.mpr is_root] at within
    exact last_some (List.suffix_nil.mp within)
  rw [labels, if_neg proper] at within
  obtain ⟨cut, text_eq, ends⟩ := split_suffix within last_some
  have text_same : lower last.flatten = lower zone := by
    have flattened := congrArg List.flatten same
    change (last.map (List.map Char.toLower)).flatten =
      ((labels zone).map (List.map Char.toLower)).flatten at flattened
    rw [← List.map_flatten, ← List.map_flatten, flatten_labels root] at flattened
    exact flattened
  have text_some : last.flatten ≠ [] := by
    intro empty
    rw [empty] at text_same
    have zone_empty : zone = [] := List.map_eq_nil_iff.mp text_same.symm
    rw [zone_empty] at encloses
    rw [eq_nil_of_isSubDomain_nil encloses] at ended
    cases ended
  have last_ends : isFqdn last.flatten = true := by
    rw [isFqdn, text_eq] at ended
    rcases ends with rfl | ends
    · exact ended
    · rwa [endsLabel_append ends text_some] at ended
  rw [isFqdn, ← endsLabel_lower, ← text_same, endsLabel_lower]
  exact last_ends

/-- A name that ends with a dot and has no empty label. -/
structure Absolute (name : List Char) : Prop where
  ended : isFqdn name = true
  filled : ['.'] ∉ labels name

/-- The name of the last `k` labels. -/
def lastLabels (k : Nat) (name : List Char) : List Char :=
  ((labels name).drop ((labels name).length - k)).flatten

section LastLabels

variable {name : List Char} {k : Nat} (absolute : Absolute name) (some_label : 0 < k)
  (enough : k ≤ (labels name).length)

include absolute some_label enough

theorem labels_lastLabels :
    labels (lastLabels k name) = (labels name).drop ((labels name).length - k) := by
  have taken_some : (labels name).drop ((labels name).length - k) ≠ [] := by
    apply List.ne_nil_of_length_pos
    rw [List.length_drop]
    omega
  have proper : name ≠ ['.'] := by
    intro root
    rw [labels_eq_nil_iff.mpr root, List.length_nil] at enough
    omega
  have within := List.drop_suffix ((labels name).length - k) (labels name)
  rw [lastLabels]
  generalize (labels name).drop ((labels name).length - k) = last at taken_some within
  have split_last : split false last.flatten = last := by
    have within' := within
    rw [labels, if_neg proper] at within'
    rcases split_flatten_suffix within' taken_some with whole | again
    · rw [whole, flatten_split]
    · exact again
  have filled : last.flatten ≠ ['.'] := by
    intro root
    have alone : last = [['.']] := by
      rw [← split_last, root]
      rfl
    rw [alone] at within
    exact absolute.filled (within.subset List.mem_cons_self)
  rw [labels, if_neg filled, split_last]

theorem length_labels_lastLabels : (labels (lastLabels k name)).length = k := by
  rw [labels_lastLabels absolute some_label enough, List.length_drop]
  omega

theorem isSubDomain_lastLabels : isSubDomain (lastLabels k name) name = true := by
  rw [isSubDomain_iff, labels_lastLabels absolute some_label enough]
  exact (List.drop_suffix _ _).map lower

/-- A domain around the name with fewer labels is around its last labels. -/
theorem isSubDomain_of_lastLabels {zone : List Char} (encloses : isSubDomain zone name = true)
    (fewer : (labels zone).length ≤ k) : isSubDomain zone (lastLabels k name) = true := by
  have around := isSubDomain_lastLabels absolute some_label enough
  rw [isSubDomain_iff] at encloses around ⊢
  refine List.suffix_of_suffix_length_le encloses around ?_
  rw [List.length_map, List.length_map, length_labels_lastLabels absolute some_label enough]
  exact fewer

end LastLabels

/-- What is left of a name encloses it exactly when the cut ends a label. -/
theorem isSubDomain_append_iff {cut zone : List Char} (nonempty : zone ≠ [])
    (proper : zone ≠ ['.']) :
    isSubDomain zone (cut ++ zone) = true ↔ cut = [] ∨ isFqdn cut = true := by
  have whole_proper : cut ++ zone ≠ ['.'] := by
    intro root
    rcases List.append_eq_singleton_iff.mp root with ⟨_, rfl⟩ | ⟨_, rfl⟩
    · exact proper rfl
    · exact nonempty rfl
  constructor
  · intro encloses
    obtain ⟨last, suffix, same⟩ := exists_last_of_isSubDomain encloses
    rw [labels, if_neg whole_proper] at suffix
    rw [labels, if_neg proper] at same
    have last_some : last ≠ [] := by
      rintro rfl
      exact split_ne_nil false zone (List.map_eq_nil_iff.mp same.symm)
    obtain ⟨cut', text_eq, ends⟩ := split_suffix suffix last_some
    have lengths : last.flatten.length = zone.length := by
      rw [← weight_one, ← weight_flatten_lower (fun _ => rfl), same,
        weight_flatten_lower (fun _ => rfl), flatten_split, weight_one]
    obtain ⟨rfl, _⟩ := List.append_inj' text_eq lengths.symm
    exact ends
  · rintro (rfl | ends)
    · exact isSubDomain_refl zone
    · apply isSubDomain_iff.mpr
      rw [labels, labels, if_neg proper, if_neg whole_proper, split_append ends nonempty,
        List.map_append]
      exact List.suffix_append _ _

/-- Of two domains that enclose a name, the one with more labels is the longer one. -/
theorem weight_lt {f : Char → Nat} (pos : ∀ c, 0 < f c) (fold : ∀ c, f c.toLower = f c)
    {zone zone' name : List Char} (encloses : isSubDomain zone name = true)
    (encloses' : isSubDomain zone' name = true) (proper : zone ≠ ['.'])
    (fewer : (labels zone).length < (labels zone').length) : weight f zone < weight f zone' := by
  have proper' : zone' ≠ ['.'] := by
    intro root
    rw [labels_eq_nil_iff.mpr root] at fewer
    exact absurd fewer (Nat.not_lt_zero _)
  have some_label : 0 < (labels zone).length := by
    apply List.length_pos_of_ne_nil
    rwa [ne_eq, labels_eq_nil_iff]
  have nonempty' : zone' ≠ [] := by
    rintro rfl
    have single : (labels []).length = 1 := rfl
    omega
  -- the labels of the shorter one are the last labels of the longer one
  obtain ⟨front, longer⟩ : (labels zone).map lower <:+ (labels zone').map lower := by
    apply List.suffix_of_suffix_length_le (isSubDomain_iff.mp encloses)
      (isSubDomain_iff.mp encloses')
    rw [List.length_map, List.length_map]
    exact Nat.le_of_lt fewer
  have front_some : front.flatten ≠ [] := by
    cases front with
    | nil =>
      have lengths := congrArg List.length longer
      simp only [List.nil_append, List.length_map] at lengths
      omega
    | cons first rest =>
      have mem : first ∈ (labels zone').map lower := longer ▸ List.mem_cons_self
      obtain ⟨label, of_zone, rfl⟩ := List.mem_map.mp mem
      rw [labels, if_neg proper'] at of_zone
      have label_some := ne_nil_of_mem_split nonempty' of_zone
      simp [lower, label_some]
  calc weight f zone
      = weight f ((labels zone).map lower).flatten := by
        rw [weight_flatten_lower fold, flatten_labels proper]
    _ < weight f front.flatten + weight f ((labels zone).map lower).flatten :=
        Nat.lt_add_of_pos_left (weight_pos pos front_some)
    _ = weight f zone' := by
        rw [← weight_append, ← List.flatten_append, longer, weight_flatten_lower fold,
          flatten_labels proper']

/-- The root is shorter than any other name that ends with a dot. -/
theorem weight_root_lt {f : Char → Nat} (pos : ∀ c, 0 < f c) {front : List Char}
    (proper : front ++ ['.'] ≠ ['.']) : weight f ['.'] < weight f (front ++ ['.']) := by
  have front_some : front ≠ [] := by
    rintro rfl
    exact proper rfl
  rw [weight_append]
  exact Nat.lt_add_of_pos_left (weight_pos pos front_some)

theorem fqdn_eq_snoc (name : List Char) : ∃ front, fqdn name = front ++ ['.'] := by
  rw [fqdn]
  split
  · rename_i full
    exact eq_snoc_of_endsLabel full
  · exact ⟨name, rfl⟩

theorem fqdn_of_isFqdn {name : List Char} (ended : isFqdn name = true) : fqdn name = name :=
  if_pos ended

/-- All labels of a text but the last end with a dot. -/
theorem exists_snoc_of_mem_dropLast {escaped : Bool} {text label : List Char}
    (mem : label ∈ (split escaped text).dropLast) : ∃ front, label = front ++ ['.'] := by
  induction text generalizing escaped label with
  | nil => cases mem
  | cons c rest ih =>
    by_cases more : rest = []
    · subst more
      cases mem
    rcases split_cons escaped c more with ⟨rfl, rfl, cut⟩ | ⟨_, first, later, cut', cut⟩
    · rw [cut, List.dropLast_cons_of_ne_nil (split_ne_nil _ _)] at mem
      rcases List.mem_cons.mp mem with rfl | after
      · exact ⟨[], rfl⟩
      · exact ih after
    · cases later with
      | nil =>
        rw [cut] at mem
        cases mem
      | cons next later =>
        rw [cut, List.dropLast_cons_cons] at mem
        have inner {l : List Char} (among : l ∈ first :: (next :: later).dropLast) :
            ∃ front, l = front ++ ['.'] := by
          have listed : l ∈ (split (escapesNext escaped c) rest).dropLast := by
            rw [cut', List.dropLast_cons_cons]
            exact among
          exact ih listed
        rcases List.mem_cons.mp mem with rfl | after
        · obtain ⟨front, rfl⟩ := inner List.mem_cons_self
          exact ⟨c :: front, rfl⟩
        · exact inner (List.mem_cons_of_mem _ after)

/-- A longer text has no fewer labels. -/
theorem length_split_le (escaped : Bool) (text more : List Char) :
    (split escaped text).length ≤ (split escaped (text ++ more)).length := by
  induction text generalizing escaped with
  | nil => exact List.length_pos_of_ne_nil (split_ne_nil _ _)
  | cons c rest ih =>
    cases rest with
    | nil => exact List.length_pos_of_ne_nil (split_ne_nil _ _)
    | cons d rest =>
      rw [List.cons_append, List.cons_append, split, split]
      split
      · exact Nat.succ_le_succ (ih false)
      · rw [List.length_modifyHead, List.length_modifyHead]
        exact ih _

/-- The texts of the labels, without the dots that end them. -/
def labelTexts (name : List Char) : List (List Char) :=
  if name = [] then []
  else if isFqdn name then (labels name).map List.dropLast
  else (labels name).dropLast.map List.dropLast ++ (labels name).drop ((labels name).length - 1)

theorem length_labelTexts {name : List Char} (nonempty : name ≠ []) :
    (labelTexts name).length = (labels name).length := by
  rw [labelTexts, if_neg nonempty]
  split
  · exact List.length_map _
  · rw [List.length_append, List.length_map, List.length_dropLast, List.length_drop]
    omega

theorem utf8Size_toLower (c : Char) : c.toLower.utf8Size = c.utf8Size := by
  rcases toLower_cases c with same | ⟨_, most, moved⟩
  · rw [same]
  · have ascii : c.utf8Size = 1 := Char.utf8Size_eq_one_iff.mpr (by
      rw [UInt32.le_iff_toNat_le]
      change c.toNat ≤ 127
      omega)
    have ascii' : c.toLower.utf8Size = 1 := Char.utf8Size_eq_one_iff.mpr (by
      rw [UInt32.le_iff_toNat_le]
      change c.toLower.toNat ≤ 127
      omega)
    rw [ascii, ascii']

end DomainName
