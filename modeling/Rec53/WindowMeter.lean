import Mathlib.Algebra.BigOperators.Group.List.Basic
import Mathlib.Algebra.GroupWithZero.Nat
import Mathlib.Data.List.Chain

/-!
# Metering intervals by windows

Time is cut into windows of one length, of which the latest few are kept. A customer stays
for an interval of time, and each window is to hold the time all customers spent in it. The
meter counts an open stay up to a mark; when a window is over, the open stays are counted up
to its end, and when a stay ends, up to then. A mark within the current window is what makes
this exact.
-/

namespace WindowMeter

/-- What an interval has in common with the window from `start` on. -/
def overlap (length start : Nat) (interval : Nat × Nat) : Nat :=
  min (start + length) interval.2 - max start interval.1

def spent (length start : Nat) (intervals : List (Nat × Nat)) : Nat :=
  (intervals.map (overlap length start)).sum

structure Frame where
  start : Nat
  total : Nat

/-- The frames with the current one first, the open stays up to their marks, and the stays
that are over. -/
structure Meter where
  frames : List Frame
  opened : List (Nat × Nat)
  closed : List (Nat × Nat)

namespace Meter

/-- The first window. -/
def first (m : Meter) (start : Nat) : Meter := { m with frames := [⟨start, 0⟩] }

/-- The current window is over. -/
def turn (length keep : Nat) (m : Meter) : Meter :=
  match m.frames with
  | [] => m
  | f :: rest =>
    let boundary := f.start + length
    let uncounted := (m.opened.map fun i => boundary - i.2).sum
    { m with
      frames := (⟨boundary, 0⟩ :: ⟨f.start, f.total + uncounted⟩ :: rest).take keep
      opened := m.opened.map fun i => (i.1, boundary) }

def enter (m : Meter) (now : Nat) : Meter := { m with opened := (now, now) :: m.opened }

/-- A stay ends; `others` stay open. -/
def leave (m : Meter) (stay : Nat × Nat) (others : List (Nat × Nat)) (now : Nat) : Meter :=
  { frames := m.frames.modifyHead fun f => { f with total := f.total + (now - stay.2) }
    opened := others
    closed := (stay.1, now) :: m.closed }

end Meter

/-! ### Intervals and windows -/

section Spent

variable {length start : Nat}

lemma spent_cons (interval : Nat × Nat) (intervals : List (Nat × Nat)) :
    spent length start (interval :: intervals) =
      overlap length start interval + spent length start intervals := by
  rw [spent, List.map_cons, List.sum_cons]
  rfl

lemma spent_append (a b : List (Nat × Nat)) :
    spent length start (a ++ b) = spent length start a + spent length start b := by
  rw [spent, List.map_append, List.sum_append]
  rfl

lemma spent_perm {a b : List (Nat × Nat)} (perm : a.Perm b) :
    spent length start a = spent length start b :=
  (perm.map _).sum_eq

/-- Intervals that are over before the window have no part in it. -/
lemma spent_eq_zero {intervals : List (Nat × Nat)} (before : ∀ i ∈ intervals, i.2 ≤ start) :
    spent length start intervals = 0 := by
  induction intervals with
  | nil => rfl
  | cons i rest ih =>
    have first := before i List.mem_cons_self
    rw [spent_cons, ih fun i mem => before i (List.mem_cons_of_mem _ mem), overlap]
    omega

/-- Moving the end within the window adds what it is moved by. -/
lemma overlap_extend {interval : Nat × Nat} {upto : Nat} (ordered : interval.1 ≤ interval.2)
    (inside : start ≤ interval.2) (later : interval.2 ≤ upto) (within : upto ≤ start + length) :
    overlap length start (interval.1, upto) =
      overlap length start interval + (upto - interval.2) := by
  rw [overlap, overlap]
  dsimp only
  omega

/-- Moving the end behind the window adds nothing. -/
lemma overlap_behind {interval : Nat × Nat} {upto : Nat} (behind : start + length ≤ interval.2)
    (behind' : start + length ≤ upto) :
    overlap length start (interval.1, upto) = overlap length start interval := by
  rw [overlap, overlap]
  dsimp only
  omega

lemma spent_extend {intervals : List (Nat × Nat)} {upto : Nat}
    (inside : ∀ i ∈ intervals, i.1 ≤ i.2 ∧ start ≤ i.2 ∧ i.2 ≤ upto)
    (within : upto ≤ start + length) :
    spent length start (intervals.map fun i => (i.1, upto)) =
      spent length start intervals + (intervals.map fun i => upto - i.2).sum := by
  induction intervals with
  | nil => rfl
  | cons i rest ih =>
    obtain ⟨ordered, started, later⟩ := inside i List.mem_cons_self
    have others := ih fun i mem => inside i (List.mem_cons_of_mem _ mem)
    rw [List.map_cons, List.map_cons, List.sum_cons, spent_cons, spent_cons, others,
      overlap_extend ordered started later within]
    omega

lemma spent_behind {intervals : List (Nat × Nat)} {upto : Nat}
    (behind : ∀ i ∈ intervals, start + length ≤ i.2) (behind' : start + length ≤ upto) :
    spent length start (intervals.map fun i => (i.1, upto)) = spent length start intervals := by
  induction intervals with
  | nil => rfl
  | cons i rest ih =>
    have first := behind i List.mem_cons_self
    rw [List.map_cons, spent_cons, spent_cons, overlap_behind first behind',
      ih fun i mem => behind i (List.mem_cons_of_mem _ mem)]

end Spent

/-! ### Exact meters -/

/-- Every kept window holds the time spent in it. The marks of open stays are in the current
window, and so the older windows are over for them. -/
structure Exact (length keep : Nat) (m : Meter) : Prop where
  few : m.frames.length ≤ keep
  spaced : m.frames.IsChain fun f older => f.start = older.start + length
  marked : ∀ f ∈ m.frames.head?, ∀ i ∈ m.opened,
    i.1 ≤ i.2 ∧ f.start ≤ i.2 ∧ i.2 < f.start + length
  ended : ∀ f ∈ m.frames.head?, ∀ i ∈ m.closed, i.2 ≤ f.start + length
  idle : m.frames = [] → m.opened = [] ∧ m.closed = []
  total : ∀ f ∈ m.frames, f.total = spent length f.start (m.opened ++ m.closed)

namespace Exact

variable {length keep : Nat} {m : Meter}

/-- The kept windows end before the current one starts. -/
lemma older_over {f : Frame} {rest : List Frame}
    (spaced : (f :: rest).IsChain fun f older => f.start = older.start + length) :
    ∀ older ∈ rest, older.start + length ≤ f.start := by
  induction rest generalizing f with
  | nil =>
    intro older mem
    cases mem
  | cons next rest ih =>
    obtain ⟨here, later⟩ := List.isChain_cons_cons.mp spaced
    intro older mem
    rcases List.mem_cons.mp mem with rfl | mem
    · exact Nat.le_of_eq here.symm
    · have before := ih later older mem
      omega

/-- The spacing is a matter of the starts. -/
lemma spaced_head {f f' : Frame} {rest : List Frame}
    (spaced : (f :: rest).IsChain fun f older => f.start = older.start + length)
    (same : f'.start = f.start) :
    (f' :: rest).IsChain fun f older => f.start = older.start + length := by
  cases rest with
  | nil => exact List.isChain_singleton _
  | cons next rest =>
    obtain ⟨here, later⟩ := List.isChain_cons_cons.mp spaced
    exact List.isChain_cons_cons.mpr ⟨same.trans here, later⟩

/-- Only the members of the list of ended stays count. -/
lemma perm (exact_m : Exact length keep m) {closed : List (Nat × Nat)}
    (same : m.closed.Perm closed) : Exact length keep { m with closed := closed } where
  few := exact_m.few
  spaced := exact_m.spaced
  marked := exact_m.marked
  ended f mem i listed := exact_m.ended f mem i (same.mem_iff.mpr listed)
  idle empty := by
    obtain ⟨nobody, nothing⟩ := exact_m.idle empty
    rw [nothing] at same
    exact ⟨nobody, same.nil_eq.symm⟩
  total f mem := (exact_m.total f mem).trans (spent_perm (same.append_left m.opened))

lemma first (exact_m : Exact length keep m) (none_yet : m.frames = []) (some_kept : 0 < keep)
    (at_ : Nat) : Exact length keep (m.first at_) := by
  obtain ⟨nobody, nothing⟩ := exact_m.idle none_yet
  constructor
  · exact some_kept
  · exact List.isChain_singleton _
  · intro f _ i mem
    rw [Meter.first, nobody] at mem
    cases mem
  · intro f _ i mem
    rw [Meter.first, nothing] at mem
    cases mem
  · intro empty
    cases empty
  · intro f mem
    rw [Meter.first] at mem ⊢
    rw [List.mem_singleton.mp mem, nobody, nothing]
    rfl

section Turn

variable {f : Frame} {rest : List Frame} {opened closed : List (Nat × Nat)}
  (exact_m : Exact length keep ⟨f :: rest, opened, closed⟩)
include exact_m

/-- The window that is over gets what the open stays have left of it. -/
lemma current_total : f.total + (opened.map fun i => f.start + length - i.2).sum =
    spent length f.start ((opened.map fun i => (i.1, f.start + length)) ++ closed) := by
  have total : f.total = spent length f.start (opened ++ closed) :=
    exact_m.total f List.mem_cons_self
  have inside : ∀ i ∈ opened, i.1 ≤ i.2 ∧ f.start ≤ i.2 ∧ i.2 ≤ f.start + length := by
    intro i open_
    have before := exact_m.marked f rfl i open_
    omega
  have extended := spent_extend inside (Nat.le_refl (f.start + length))
  rw [spent_append] at total
  rw [spent_append, extended, total]
  omega

/-- The older windows were over already. -/
lemma older_total {f' : Frame} (older : f' ∈ rest) :
    f'.total = spent length f'.start ((opened.map fun i => (i.1, f.start + length)) ++ closed) := by
  have total : f'.total = spent length f'.start (opened ++ closed) :=
    exact_m.total f' (List.mem_cons_of_mem f older)
  have ended := older_over exact_m.spaced f' older
  have behind : ∀ i ∈ opened, f'.start + length ≤ i.2 := fun i open_ =>
    Nat.le_trans ended (exact_m.marked f rfl i open_).2.1
  have unmoved := spent_behind behind (Nat.le_trans ended (Nat.le_add_right f.start length))
  rw [spent_append] at total
  rw [spent_append, unmoved, total]

/-- The new window is empty. -/
lemma next_total : spent length (f.start + length)
    ((opened.map fun i => (i.1, f.start + length)) ++ closed) = 0 := by
  apply spent_eq_zero
  intro i among
  rcases List.mem_append.mp among with stays | ended
  · obtain ⟨stay, _, rfl⟩ := List.mem_map.mp stays
    exact Nat.le_refl _
  · exact exact_m.ended f rfl i ended

end Turn

/-- Turning to the next window keeps the meter exact. -/
theorem turn (exact_m : Exact length keep m) (some_kept : 0 < keep) (positive : 0 < length) :
    Exact length keep (m.turn length keep) := by
  obtain ⟨frames, opened, closed⟩ := m
  cases frames with
  | nil => exact exact_m
  | cons f rest =>
    obtain ⟨kept, rfl⟩ := Nat.exists_eq_succ_of_ne_zero (Nat.pos_iff_ne_zero.mp some_kept)
    have chain : (⟨f.start + length, 0⟩ ::
        ⟨f.start, f.total + (opened.map fun i => f.start + length - i.2).sum⟩ :: rest).IsChain
          fun f older : Frame => f.start = older.start + length := by
      refine List.isChain_cons_cons.mpr ⟨rfl, ?_⟩
      exact spaced_head exact_m.spaced rfl
    constructor
    · exact List.length_take_le _ _
    · exact chain.take (kept + 1)
    · intro f' head i mem
      obtain rfl : (⟨f.start + length, 0⟩ : Frame) = f' := Option.some.inj head
      obtain ⟨stay, open_, rfl⟩ := List.mem_map.mp mem
      have before := exact_m.marked f rfl stay open_
      dsimp only
      omega
    · intro f' head i mem
      obtain rfl : (⟨f.start + length, 0⟩ : Frame) = f' := Option.some.inj head
      have before := exact_m.ended f rfl i mem
      dsimp only
      omega
    · intro empty
      cases empty
    · intro f' mem
      have listed := List.mem_of_mem_take mem
      rcases List.mem_cons.mp listed with rfl | listed
      · exact (next_total exact_m).symm
      rcases List.mem_cons.mp listed with rfl | listed
      · exact current_total exact_m
      · exact older_total exact_m listed

theorem enter (exact_m : Exact length keep m) {f : Frame} (current : f ∈ m.frames.head?) {now : Nat}
    (started : f.start ≤ now) (within : now < f.start + length) :
    Exact length keep (m.enter now) where
  few := exact_m.few
  spaced := exact_m.spaced
  marked f' head i mem := by
    obtain rfl : f = f' := Option.mem_unique current head
    rcases List.mem_cons.mp mem with rfl | mem
    · exact ⟨Nat.le_refl _, started, within⟩
    · exact exact_m.marked f head i mem
  ended := exact_m.ended
  idle empty := by
    change m.frames = [] at empty
    rw [empty] at current
    cases current
  total f' mem := by
    have nothing : overlap length f'.start (now, now) = 0 := by
      rw [overlap]
      dsimp only
      omega
    change f'.total = spent length f'.start ((now, now) :: (m.opened ++ m.closed))
    rw [spent_cons, nothing, Nat.zero_add]
    exact exact_m.total f' mem

/-- The end of a stay in the current window keeps the meter exact. -/
theorem leave (exact_m : Exact length keep m) {f : Frame} (current : f ∈ m.frames.head?)
    {stay : Nat × Nat} {others : List (Nat × Nat)} (stays : m.opened.Perm (stay :: others))
    {now : Nat} (later : stay.2 ≤ now) (within : now ≤ f.start + length) :
    Exact length keep (m.leave stay others now) := by
  obtain ⟨frames, opened, closed⟩ := m
  cases frames with
  | nil => cases current
  | cons f' rest =>
    obtain rfl : f' = f := Option.some.inj current
    have marked := exact_m.marked f' rfl
    have here := marked stay (stays.mem_iff.mpr List.mem_cons_self)
    -- the stays before and after, with the one that ends in front
    have before (start : Nat) : spent length start (opened ++ closed) =
        overlap length start stay + spent length start (others ++ closed) := by
      rw [spent_perm (stays.append_right closed), List.cons_append, spent_cons]
    have after (start : Nat) : spent length start (others ++ (stay.1, now) :: closed) =
        overlap length start (stay.1, now) + spent length start (others ++ closed) := by
      rw [spent_perm List.perm_middle, spent_cons]
    constructor
    · exact exact_m.few
    · exact spaced_head exact_m.spaced rfl
    · intro f head i mem
      obtain rfl : { f' with total := f'.total + (now - stay.2) } = f := Option.some.inj head
      exact marked i (stays.mem_iff.mpr (List.mem_cons_of_mem stay mem))
    · intro f head i mem
      obtain rfl : { f' with total := f'.total + (now - stay.2) } = f := Option.some.inj head
      rcases List.mem_cons.mp mem with rfl | mem
      · exact within
      · exact exact_m.ended f' rfl i mem
    · intro empty
      cases empty
    · intro f mem
      rcases List.mem_cons.mp mem with rfl | mem
      · have total := exact_m.total f' List.mem_cons_self
        have extended := overlap_extend here.1 here.2.1 later within
        change f'.total + (now - stay.2) = spent length f'.start (others ++ (stay.1, now) :: closed)
        rw [after, extended, total, before]
        omega
      · have total := exact_m.total f (List.mem_cons_of_mem f' mem)
        have ended := older_over exact_m.spaced f mem
        have behind : f.start + length ≤ stay.2 := Nat.le_trans ended here.2.1
        have unmoved := overlap_behind behind (Nat.le_trans behind later)
        change f.total = spent length f.start (others ++ (stay.1, now) :: closed)
        rw [after, unmoved, total, before]

end Exact

end WindowMeter
