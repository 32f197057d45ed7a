import Mathlib.Data.List.AList

/-!
# A store whose items carry an absolute expiry

An item is written with a duration and kept until an absolute instant. Reading
compares that instant with the reader's clock; the store never deletes an item
on its own. A zero duration selects the default of the store, and a zero expiry
stands for an item that never expires. Nothing here depends on the unit of time.

`Cache` says what is assumed of a cache of this kind, whatever it is made of. The store
is one, and every other shows at all times what the store does.
-/

namespace ExpiringStore

universe u v w
variable {K : Type u} {V : Type v}

structure Item (V : Type v) where
  object : V
  expiration : Nat
  deriving DecidableEq

/-- The item is still served at its expiry and no longer served after it. -/
def Item.expired (it : Item V) (now : Nat) : Bool :=
  decide (0 < it.expiration ∧ it.expiration < now)

/-- The instant until which an item written now with duration `d` is kept. -/
def keptUntil (defaultExpiration now d : Nat) : Nat :=
  let kept := if d = 0 then defaultExpiration else d
  if 0 < kept then now + kept else 0

/-- The operations of a cache and what is assumed of them. `find` is the item under a key, expired
or not; `unexpired` lists the others in some order. -/
class Cache (κ : Type w) (K : outParam (Type u)) (V : outParam (Type v)) where
  make : Nat → κ
  set : κ → Nat → K → V → Nat → κ
  get : κ → Nat → K → Option V
  deleteExpired : κ → Nat → κ
  unexpired : κ → Nat → List (K × Item V)
  find : κ → K → Option (Item V)
  defaultExpiration : κ → Nat
  default_make : ∀ d, defaultExpiration (make d) = d
  default_set : ∀ c now k x d, defaultExpiration (set c now k x d) = defaultExpiration c
  default_deleteExpired : ∀ c now, defaultExpiration (deleteExpired c now) = defaultExpiration c
  find_make : ∀ d k, find (make d) k = none
  find_set_self : ∀ c now k x d,
    find (set c now k x d) k = some ⟨x, keptUntil (defaultExpiration c) now d⟩
  find_set_of_ne : ∀ c now k k' x d, k' ≠ k → find (set c now k x d) k' = find c k'
  find_deleteExpired : ∀ c now k,
    find (deleteExpired c now) k = (find c k).filter fun it => !it.expired now
  get_eq : ∀ c now k, get c now k = ((find c k).filter fun it => !it.expired now).map Item.object
  mem_unexpired : ∀ c now k it,
    (k, it) ∈ unexpired c now ↔ find c k = some it ∧ it.expired now = false
  unexpired_keys_nodup : ∀ c now, ((unexpired c now).map Prod.fst).Nodup

structure Store (K : Type u) (V : Type v) where
  items : AList (fun _ : K => Item V)
  defaultExpiration : Nat

def empty (defaultExpiration : Nat) : Store K V := ⟨∅, defaultExpiration⟩

namespace Store
variable [DecidableEq K] (c : Store K V)

def find (k : K) : Option (Item V) := c.items.lookup k

def deadline (now d : Nat) : Nat := keptUntil c.defaultExpiration now d

def set (now : Nat) (k : K) (x : V) (d : Nat) : Store K V :=
  { c with items := c.items.insert k ⟨x, c.deadline now d⟩ }

def get (now : Nat) (k : K) : Option V :=
  match c.find k with
  | none => none
  | some it => if it.expired now then none else some it.object

/-- The clean-up of the store: expired items go, the others stay. -/
def deleteExpired (now : Nat) : Store K V :=
  { c with items := ⟨c.items.entries.filter fun e => !e.2.expired now,
      c.items.nodupKeys.sublist List.filter_sublist⟩ }

/-- The listing that a snapshot of the store walks: every unexpired item once. -/
def unexpired (now : Nat) : List (K × Item V) :=
  (c.items.entries.map fun e => (e.1, e.2)).filter fun e => !e.2.expired now

@[simp] theorem find_empty (d : Nat) (k : K) : (empty d : Store K V).find k = none := by
  simp [find, empty]

@[simp] theorem find_set_self (now d : Nat) (k : K) (x : V) :
    (c.set now k x d).find k = some ⟨x, c.deadline now d⟩ := by
  simp [find, set]

theorem find_set_of_ne {now d : Nat} {k k' : K} {x : V} (ne : k' ≠ k) :
    (c.set now k x d).find k' = c.find k' := by
  simp [find, set, AList.lookup_insert_ne ne]

theorem find_set (now d : Nat) (k k' : K) (x : V) :
    (c.set now k x d).find k' =
      if k' = k then some ⟨x, c.deadline now d⟩ else c.find k' := by
  by_cases h : k' = k
  · subst h; simp
  · simp [h, c.find_set_of_ne h]

/-- A write is invisible exactly when it stores what is already there. -/
theorem find_set_eq_find_iff {now d : Nat} {k : K} {x : V} :
    (∀ k', (c.set now k x d).find k' = c.find k') ↔
      c.find k = some ⟨x, c.deadline now d⟩ := by
  constructor
  · intro same
    rw [← same k, find_set_self]
  · intro held k'
    rw [find_set]
    split
    · rename_i is
      rw [is, held]
    · rfl

@[simp] theorem set_defaultExpiration (now d : Nat) (k : K) (x : V) :
    (c.set now k x d).defaultExpiration = c.defaultExpiration := rfl

theorem get_eq_some {now : Nat} {k : K} {x : V} :
    c.get now k = some x ↔
      ∃ it, c.find k = some it ∧ it.expired now = false ∧ it.object = x := by
  rw [get]
  cases h : c.find k with
  | none => simp
  | some it => by_cases he : it.expired now <;> simp [he]

theorem get_eq_none {now : Nat} {k : K} :
    c.get now k = none ↔ ∀ it, c.find k = some it → it.expired now = true := by
  rw [get]
  cases h : c.find k with
  | none => simp
  | some it => by_cases he : it.expired now <;> simp [he]

theorem find_deleteExpired {now : Nat} {k : K} {it : Item V} :
    (c.deleteExpired now).find k = some it ↔ c.find k = some it ∧ it.expired now = false := by
  simp only [find, deleteExpired]
  constructor
  · intro found
    have mem := List.mem_filter.mp (AList.mem_lookup_iff.mp found)
    exact ⟨AList.mem_lookup_iff.mpr mem.1, by simpa using mem.2⟩
  · rintro ⟨found, live⟩
    exact AList.mem_lookup_iff.mpr
      (List.mem_filter.mpr ⟨AList.mem_lookup_iff.mp found, by simpa using live⟩)

theorem find_deleteExpired_eq_none {now : Nat} {k : K} :
    (c.deleteExpired now).find k = none ↔ ∀ it, c.find k = some it → it.expired now = true := by
  simp only [Option.eq_none_iff_forall_ne_some, ne_eq, find_deleteExpired, not_and,
    Bool.not_eq_false]

/-- The clean-up looks at each key alone. -/
theorem find_deleteExpired_eq_filter (now : Nat) (k : K) :
    (c.deleteExpired now).find k = (c.find k).filter fun it => !it.expired now := by
  ext it
  rw [c.find_deleteExpired, Option.filter_eq_some_iff, Bool.not_eq_true']

omit [DecidableEq K] in
theorem deadline_of_pos {now d : Nat} (pos : 0 < d) : c.deadline now d = now + d := by
  have hd : d ≠ 0 := by omega
  simp [deadline, keptUntil, hd, pos]

/-- A live item is read no later than its expiry. -/
theorem le_expiration_of_live {it : Item V} {now : Nat} (live : it.expired now = false)
    (bounded : 0 < it.expiration) : now ≤ it.expiration := by
  have h : ¬ (0 < it.expiration ∧ it.expiration < now) := of_decide_eq_false live
  omega

theorem mem_unexpired {now : Nat} {k : K} {it : Item V} :
    (k, it) ∈ c.unexpired now ↔ c.find k = some it ∧ it.expired now = false := by
  simp only [unexpired, List.mem_filter, List.mem_map, Prod.mk.injEq, Bool.not_eq_true', find]
  constructor
  · rintro ⟨⟨⟨k', it'⟩, hmem, rfl, rfl⟩, hl⟩
    exact ⟨AList.mem_lookup_iff.mpr hmem, hl⟩
  · rintro ⟨hf, hl⟩
    exact ⟨⟨⟨k, it⟩, AList.mem_lookup_iff.mp hf, rfl, rfl⟩, hl⟩

omit [DecidableEq K] in
theorem unexpired_keys_nodup (now : Nat) : ((c.unexpired now).map Prod.fst).Nodup := by
  have keys : (c.items.entries.map fun e => (e.1, e.2)).map Prod.fst = c.items.keys := by
    simp [AList.keys, List.keys, Function.comp_def]
  have sub : ((c.unexpired now).map Prod.fst).Sublist c.items.keys := by
    rw [← keys]
    exact List.filter_sublist.map Prod.fst
  exact sub.nodup c.items.keys_nodup

theorem get_eq_filter (now : Nat) (k : K) :
    c.get now k = ((c.find k).filter fun it => !it.expired now).map Item.object := by
  rw [get]
  cases c.find k with
  | none => rfl
  | some it =>
    cases expired : it.expired now with
    | false => simp [Option.filter_some, expired]
    | true => simp [Option.filter_some, expired]

end Store

instance [DecidableEq K] : Cache (Store K V) K V where
  make := empty
  set := Store.set
  get := Store.get
  deleteExpired := Store.deleteExpired
  unexpired := Store.unexpired
  find := Store.find
  defaultExpiration := Store.defaultExpiration
  default_make _ := rfl
  default_set _ _ _ _ _ := rfl
  default_deleteExpired _ _ := rfl
  find_make := Store.find_empty
  find_set_self c now k x d := c.find_set_self now d k x
  find_set_of_ne c _ _ _ _ _ := c.find_set_of_ne
  find_deleteExpired := Store.find_deleteExpired_eq_filter
  get_eq := Store.get_eq_filter
  mem_unexpired c _ _ _ := c.mem_unexpired
  unexpired_keys_nodup := Store.unexpired_keys_nodup

/-! ### Any cache shows what the store does -/

section
variable {κ : Type w} [Cache κ K V] [DecidableEq K]

structure Represents (c : κ) (s : Store K V) : Prop where
  default : Cache.defaultExpiration c = s.defaultExpiration
  find : ∀ k, Cache.find c k = s.find k

theorem represents_make (d : Nat) : Represents (Cache.make d : κ) (empty d) :=
  ⟨Cache.default_make d, fun k => by rw [Cache.find_make, Store.find_empty]⟩

variable {c : κ} {s : Store K V}

theorem Represents.set (same : Represents c s) (now : Nat) (k : K) (x : V) (d : Nat) :
    Represents (Cache.set c now k x d) (s.set now k x d) := by
  refine ⟨?_, fun k' => ?_⟩
  · rw [Cache.default_set, same.default, Store.set_defaultExpiration]
  · by_cases here : k' = k
    · rw [here, Cache.find_set_self, Store.find_set_self, same.default, Store.deadline]
    · rw [Cache.find_set_of_ne c now k k' x d here, s.find_set_of_ne here, same.find]

theorem Represents.deleteExpired (same : Represents c s) (now : Nat) :
    Represents (Cache.deleteExpired c now) (s.deleteExpired now) := by
  refine ⟨?_, fun k => ?_⟩
  · rw [Cache.default_deleteExpired, same.default]
    rfl
  · rw [Cache.find_deleteExpired, same.find, Store.find_deleteExpired_eq_filter]

theorem Represents.get (same : Represents c s) (now : Nat) (k : K) :
    Cache.get c now k = s.get now k := by
  rw [Cache.get_eq, same.find, Store.get_eq_filter]

theorem Represents.unexpired (same : Represents c s) (now : Nat) :
    (Cache.unexpired c now).Perm (s.unexpired now) := by
  have distinct : (Cache.unexpired c now).Nodup := (Cache.unexpired_keys_nodup c now).of_map _
  refine (List.perm_ext_iff_of_nodup distinct ((s.unexpired_keys_nodup now).of_map _)).mpr ?_
  rintro ⟨k, it⟩
  rw [Cache.mem_unexpired, same.find, s.mem_unexpired]

end

end ExpiringStore
