import Mathlib.Algebra.GroupWithZero.Nat
import Rec53.DnsCache
import Rec53.StepRuns

/-!
# The lifetime of a cache entry

How long a write to the shared cache is read back, over every history of writes,
clean-ups and passing time. `setCache` hands `expire` seconds to go-cache as a duration,
and a duration of zero stands for the default of the cache. Of go-cache no more is assumed
than that it is a `Cache`: each history leads any two of them to the same reads.
-/

namespace CacheLifetime

open DnsMessage Platform XdpCache DnsCache ExpiringStore

/-- `deleteExpired` is the clean-up that go-cache runs on its own. -/
inductive Op where
  | set (key : String) (value : Msg) (expire : Nat)
  | advance (d : Nat)
  | deleteExpired

def Op.step (lib : Lib) (w : World) : Op → World
  | .set key value expire => setCacheCopy lib w key value expire
  | .advance d => w.advance d
  | .deleteExpired => { w with cache := w.cache.deleteExpired w.wall }

def Op.writes (key : String) : Op → Bool
  | .set key' _ _ => key' == key
  | .advance _ => false
  | .deleteExpired => false

def Op.duration : Op → Nat
  | .set _ _ _ => 0
  | .advance d => d
  | .deleteExpired => 0

/-- The time that passes, in nanoseconds. -/
def elapsed (ops : List Op) : Nat := (ops.map Op.duration).sum

/-- The lifetime go-cache gives an item written for `expire` seconds. -/
def lifetime (expire : Nat) : Nat := if expire = 0 then 5 * 60 * second else expire * second

lemma lifetime_pos (expire : Nat) : 0 < lifetime expire := by
  rw [lifetime]
  split
  · decide
  · exact Nat.mul_pos (by omega) (by decide)

lemma step_wall (lib : Lib) (w : World) (op : Op) :
    (op.step lib w).wall = w.wall + op.duration := by
  cases op with
  | set key value expire => simp [Op.step, Op.duration]
  | advance d => rfl
  | deleteExpired => rfl

lemma run_wall (lib : Lib) (w : World) (ops : List Op) :
    (StepRuns.run (Op.step lib) w ops).wall = w.wall + elapsed ops := by
  induction ops generalizing w with
  | nil => rfl
  | cons op ops ih =>
    rw [StepRuns.run, ih, step_wall, elapsed, elapsed, List.map_cons, List.sum_cons,
      Nat.add_assoc]

/-- The default of the cache is never changed. -/
lemma step_default (lib : Lib) (w : World) (op : Op)
    (before : w.cache.defaultExpiration = 5 * 60 * second) :
    (op.step lib w).cache.defaultExpiration = 5 * 60 * second := by
  cases op with
  | set key value expire => simpa [Op.step] using before
  | advance d => exact before
  | deleteExpired => exact before

lemma deadline_eq {c : Store String Msg} (default : c.defaultExpiration = 5 * 60 * second)
    (now expire : Nat) : c.deadline now (expire * second) = now + lifetime expire := by
  rw [lifetime]
  by_cases zero : expire = 0
  · simp [Store.deadline, keptUntil, zero, default, second]
  · rw [if_neg zero]
    exact c.deadline_of_pos (Nat.mul_pos (by omega) (by decide))

/-- The item of a key is the one given, or it was cleaned up after its time. -/
def Holds (key : String) (it : Item Msg) (w : World) : Prop :=
  w.cache.find key = some it ∨ w.cache.find key = none ∧ it.expired w.wall = true

lemma expired_later {it : Item Msg} {now : Nat} (past : it.expired now = true) (d : Nat) :
    it.expired (now + d) = true := by
  have before : 0 < it.expiration ∧ it.expiration < now := of_decide_eq_true past
  exact decide_eq_true ⟨before.1, by omega⟩

/-- Only a write to the key and the clean-up after its time touch the item. -/
lemma step_holds (lib : Lib) {key : String} {it : Item Msg} {w : World} {op : Op}
    (untouched : op.writes key = false) (holds : Holds key it w) :
    Holds key it (op.step lib w) := by
  cases op with
  | set key' value expire =>
    have other : key ≠ key' := by
      rintro rfl
      simp [Op.writes] at untouched
    simpa [Op.step, Holds, Store.find_set_of_ne _ other] using holds
  | advance d =>
    rcases holds with there | ⟨gone, past⟩
    · exact .inl there
    · exact .inr ⟨gone, expired_later past d⟩
  | deleteExpired =>
    rcases holds with there | ⟨gone, past⟩
    · cases past : it.expired w.wall with
      | false => exact .inl (w.cache.find_deleteExpired.mpr ⟨there, past⟩)
      | true => exact .inr ⟨w.cache.find_deleteExpired_eq_none.mpr (by simp [there, past]), past⟩
    · exact .inr ⟨w.cache.find_deleteExpired_eq_none.mpr (by simp [gone]), past⟩

lemma run_holds (lib : Lib) {key : String} {it : Item Msg} {w : World} {ops : List Op}
    (untouched : ∀ op ∈ ops, op.writes key = false) (holds : Holds key it w) :
    Holds key it (StepRuns.run (Op.step lib) w ops) :=
  StepRuns.run_preserves_of_mem (Op.step lib) (P := Holds key it)
    (fun _ op mem => step_holds lib (untouched op mem)) holds

/-- A read of the key misses exactly when the item is past its time. -/
lemma Holds.misses_iff {key : String} {it : Item Msg} {w : World} (holds : Holds key it w) :
    getCacheCopy w key = none ↔ it.expired w.wall = true := by
  rw [getCacheCopy_eq_none, w.cache.get_eq_none]
  rcases holds with there | ⟨gone, past⟩
  · simp [there]
  · simp [gone, past]

/-! ### The cache of the library -/

section
variable {κ : Type} [Cache κ String Msg]

/-- The same on any cache, with the clock beside it. -/
def Op.onCache (s : κ × Nat) : Op → κ × Nat
  | .set key value expire => (Cache.set s.1 s.2 key (stripOPT value) (expire * second), s.2)
  | .advance d => (s.1, s.2 + d)
  | .deleteExpired => (Cache.deleteExpired s.1 s.2, s.2)

lemma onCache_represents (lib : Lib) {s : κ × Nat} {w : World} (op : Op)
    (same : Represents s.1 w.cache) (clock : s.2 = w.wall) :
    Represents (op.onCache s).1 (op.step lib w).cache ∧
      (op.onCache s).2 = (op.step lib w).wall := by
  cases op with
  | set key value expire =>
    rw [Op.onCache, Op.step, setCacheCopy_cache, setCacheCopy_wall, clock]
    exact ⟨same.set _ _ _ _, rfl⟩
  | advance d => exact ⟨same, congrArg (· + d) clock⟩
  | deleteExpired =>
    rw [Op.onCache, Op.step, clock]
    exact ⟨same.deleteExpired _, rfl⟩

/-- Every history leads a cache of the library to the reads of the model. -/
theorem run_represents (lib : Lib) {s : κ × Nat} {w : World} (same : Represents s.1 w.cache)
    (clock : s.2 = w.wall) (ops : List Op) :
    let s' := StepRuns.run Op.onCache s ops
    let w' := StepRuns.run (Op.step lib) w ops
    ∀ key, (Cache.get s'.1 s'.2 key).map shallowCopyMsg = getCacheCopy w' key := by
  induction ops generalizing s w with
  | nil =>
    intro s' w' key
    change (Cache.get s.1 s.2 key).map shallowCopyMsg = getCacheCopy w key
    rw [same.get, clock, getCacheCopy]
    cases w.cache.get w.wall key with
    | none => rfl
    | some msg => rfl
  | cons op ops ih =>
    obtain ⟨same', clock'⟩ := onCache_represents lib op same clock
    exact ih same' clock'

end

/-- After a write with `expire` seconds and no other write to the key, a read misses
exactly when more time has passed than go-cache keeps the item: `expire` seconds, but
five minutes when `expire` is 0. A read is that of any cache with the same history. -/
theorem read_misses_iff (κ : Type) [Cache κ String Msg] (lib : Lib) (xdp : Option BpfMap)
    (wall mono : Nat) (before after : List Op) (key : String) (value : Msg) (expire : Nat)
    (untouched : ∀ op ∈ after, op.writes key = false) :
    let ops := before ++ .set key value expire :: after
    let w := StepRuns.run (Op.step lib) (World.initial xdp wall mono) ops
    let s := StepRuns.run Op.onCache ((Cache.make (5 * 60 * second) : κ), wall) ops
    (Cache.get s.1 s.2 key).map shallowCopyMsg = getCacheCopy w key ∧
      (getCacheCopy w key = none ↔ lifetime expire < elapsed after) := by
  refine ⟨run_represents lib (represents_make _) rfl _ key, ?_⟩
  rw [StepRuns.run_append]
  have default := StepRuns.run_preserves (Op.step lib)
    (P := fun w => w.cache.defaultExpiration = 5 * 60 * second) (step_default lib)
    (show (World.initial xdp wall mono).cache.defaultExpiration = 5 * 60 * second from rfl) before
  generalize StepRuns.run (Op.step lib) (World.initial xdp wall mono) before = w at default
  have written : Holds key ⟨stripOPT value, w.wall + lifetime expire⟩
      (setCacheCopy lib w key value expire) := by
    left
    rw [setCacheCopy_cache, Store.find_set_self, deadline_eq default]
  have kept := run_holds lib untouched written
  rw [StepRuns.run, Op.step, kept.misses_iff, run_wall, setCacheCopy_wall, Item.expired,
    decide_eq_true_iff]
  have positive := lifetime_pos expire
  dsimp only
  omega

/-- An entry written for two seconds is gone three seconds later, cleaned up or not. -/
theorem two_seconds_gone :
    getCacheCopy (StepRuns.run (Op.step plainLib) (World.initial none 1 0)
      [.set "a.example.:1" {} 2, .advance (3 * second), .deleteExpired]) "a.example.:1" = none :=
  (read_misses_iff (Store String Msg) plainLib none 1 0 [] [.advance (3 * second), .deleteExpired]
    "a.example.:1" {} 2 (by decide)).2.mpr (by decide)

/-- An entry written for zero seconds is read back five minutes later. -/
theorem zero_seconds_served :
    (getCacheCopy (StepRuns.run (Op.step plainLib) (World.initial none 1 0)
      [.set "a.example.:1" {} 0, .advance (300 * second)]) "a.example.:1").isSome = true := by
  decide +kernel

end CacheLifetime
