import Rec53.ExpiringStore
import Rec53.XdpCache

/-!
# The shared cache

`server/cache.go` over go-cache: `globalDnsCache` is a store with an absolute
expiry per item and a default expiration of five minutes, which a zero duration
selects; what is assumed of go-cache is `ExpiringStore.Cache`. A write under any key
is also synced to the XDP map under the question of the stored message. The two
clocks are read in nanoseconds and advance together.
-/

namespace DnsCache

open DnsMessage Platform XdpCache ExpiringStore

/-- The state all resolutions share; `xdp` is none while XDP is disabled. -/
structure World where
  cache : Store String Msg
  xdp : Option BpfMap
  wall : Nat
  mono : Nat

def newCache : Store String Msg := empty (5 * 60 * second)

def World.initial (xdp : Option BpfMap) (wall mono : Nat) : World := ⟨newCache, xdp, wall, mono⟩

def World.advance (w : World) (d : Nat) : World := { w with wall := w.wall + d, mono := w.mono + d }

def getCacheKey (name : String) (qtype : Nat) : String := name ++ ":" ++ toString qtype

/-- The copy handed to readers leaves the question out. -/
def shallowCopyMsg (m : Msg) : Msg := { m with question := [] }

def getCacheCopy (w : World) (key : String) : Option Msg :=
  match w.cache.get w.wall key with
  | none => none
  | some msg => some (shallowCopyMsg msg)

def getCacheCopyByType (w : World) (name : String) (qtype : Nat) : Option Msg :=
  getCacheCopy w (getCacheKey name qtype)

def stripOPT (msg : Msg) : Msg := { msg with extra := msg.extra.filter fun rr => !rr.isOPT }

def setCache (w : World) (key : String) (value : Msg) (expire : Nat) : World :=
  { w with cache := w.cache.set w.wall key value (expire * second) }

/-- The sync of `setCacheCopy`: only messages with an answer and a question. -/
def syncXdp (lib : Lib) (w : World) (cp : Msg) (expire : Nat) : World :=
  match w.xdp with
  | none => w
  | some m =>
    if cp.answer ≠ [] ∧ cp.question ≠ [] then
      { w with xdp := some (syncToBPFMap lib w.mono m cp.q0.name cp.q0.qtype cp expire) }
    else w

def setCacheCopy (lib : Lib) (w : World) (key : String) (value : Msg) (expire : Nat) : World :=
  syncXdp lib (setCache w key (stripOPT value) expire) (stripOPT value) expire

def setCacheCopyByType (lib : Lib) (w : World) (name : String) (qtype : Nat) (value : Msg)
    (expire : Nat) : World :=
  setCacheCopy lib w (getCacheKey name qtype) value expire

@[simp] theorem stripOPT_answer (m : Msg) : (stripOPT m).answer = m.answer := rfl
@[simp] theorem stripOPT_question (m : Msg) : (stripOPT m).question = m.question := rfl

/-- A sync touches the map and nothing else. -/
lemma syncXdp_frame (lib : Lib) (w : World) (cp : Msg) (expire : Nat) :
    ∃ xdp, syncXdp lib w cp expire = { w with xdp := xdp } := by
  rw [syncXdp]
  split
  · exact ⟨w.xdp, rfl⟩
  · split
    · exact ⟨_, rfl⟩
    · exact ⟨w.xdp, rfl⟩

@[simp] theorem syncXdp_cache (lib : Lib) (w : World) (cp : Msg) (expire : Nat) :
    (syncXdp lib w cp expire).cache = w.cache := by
  obtain ⟨xdp, synced⟩ := syncXdp_frame lib w cp expire
  rw [synced]

@[simp] theorem syncXdp_wall (lib : Lib) (w : World) (cp : Msg) (expire : Nat) :
    (syncXdp lib w cp expire).wall = w.wall := by
  obtain ⟨xdp, synced⟩ := syncXdp_frame lib w cp expire
  rw [synced]

@[simp] theorem syncXdp_mono (lib : Lib) (w : World) (cp : Msg) (expire : Nat) :
    (syncXdp lib w cp expire).mono = w.mono := by
  obtain ⟨xdp, synced⟩ := syncXdp_frame lib w cp expire
  rw [synced]

@[simp] theorem setCacheCopy_cache (lib : Lib) (w : World) (key : String) (value : Msg)
    (expire : Nat) : (setCacheCopy lib w key value expire).cache =
      w.cache.set w.wall key (stripOPT value) (expire * second) := by
  simp [setCacheCopy, setCache]

@[simp] theorem setCacheCopy_wall (lib : Lib) (w : World) (key : String) (value : Msg)
    (expire : Nat) : (setCacheCopy lib w key value expire).wall = w.wall := by
  simp [setCacheCopy, setCache]

@[simp] theorem setCacheCopy_mono (lib : Lib) (w : World) (key : String) (value : Msg)
    (expire : Nat) : (setCacheCopy lib w key value expire).mono = w.mono := by
  simp [setCacheCopy, setCache]

/-- Key and bytes of the entry that a write of the message puts into the fast-path map. -/
def reachesMap (lib : Lib) (m : BpfMap) (msg : Msg) : Option (CacheKey × Bytes) :=
  if msg.answer ≠ [] ∧ msg.question ≠ [] then fastEntry lib m msg else none

/-- The map after a write of the message with the given TTL. -/
def fastStore (lib : Lib) (mono : Nat) (msg : Msg) (ttl : Nat) (m : BpfMap) : BpfMap :=
  match reachesMap lib m msg with
  | none => m
  | some (key, packed) => m.insert key ⟨mono / second + ttl, packed⟩

lemma reachesMap_eq_some {lib : Lib} {m : BpfMap} {msg : Msg} {key : CacheKey} {packed : Bytes} :
    reachesMap lib m msg = some (key, packed) ↔
      (msg.answer ≠ [] ∧ msg.question ≠ []) ∧ fastEntry lib m msg = some (key, packed) := by
  rw [reachesMap]
  split <;> simp [*]

lemma reachesMap_of_empty (lib : Lib) (m : BpfMap) {msg : Msg} (empty : msg.answer = []) :
    reachesMap lib m msg = none := by
  simp [reachesMap, empty]

lemma fastStore_of_empty (lib : Lib) (mono : Nat) {msg : Msg} (ttl : Nat) (m : BpfMap)
    (empty : msg.answer = []) : fastStore lib mono msg ttl m = m := by
  simp only [fastStore, reachesMap_of_empty lib m empty]

/-- An entry after a write is that of the message, or it was there and is of another key. -/
lemma lookup_fastStore {lib : Lib} {mono : Nat} {msg : Msg} {ttl : Nat} {m : BpfMap}
    {key : CacheKey} {val : CacheValue}
    (held : (fastStore lib mono msg ttl m).lookup key = some val) :
    (reachesMap lib m msg = some (key, val.response) ∧ val.expireTs = mono / second + ttl) ∨
      (m.lookup key = some val ∧ ∀ packed, reachesMap lib m msg ≠ some (key, packed)) := by
  rw [fastStore] at held
  split at held
  · rename_i none_stored
    exact .inr ⟨held, fun packed => by simp [none_stored]⟩
  · rename_i key' packed reaches
    by_cases same : key = key'
    · subst same
      rw [AList.lookup_insert] at held
      cases held
      exact .inl ⟨reaches, rfl⟩
    · rw [AList.lookup_insert_ne same] at held
      refine .inr ⟨held, ?_⟩
      intro packed' reaches'
      rw [reaches] at reaches'
      cases reaches'
      exact same rfl

@[simp] theorem setCacheCopy_xdp (lib : Lib) (w : World) (key : String) (value : Msg)
    (expire : Nat) : (setCacheCopy lib w key value expire).xdp =
      w.xdp.map (fastStore lib w.mono value expire) := by
  have stripped (m : BpfMap) : fastEntry lib m (stripOPT value) = fastEntry lib m value := rfl
  rw [setCacheCopy, syncXdp]
  cases attached : (setCache w key (stripOPT value) expire).xdp with
  | none =>
    have none_here : w.xdp = none := attached
    simp [none_here, attached]
  | some m =>
    have some_here : w.xdp = some m := attached
    by_cases synced : value.answer ≠ [] ∧ value.question ≠ []
    · cases entry : fastEntry lib m value <;>
        simp only [stripOPT_answer, stripOPT_question, if_pos synced, some_here, Option.map_some,
          syncToBPFMap_eq, stripped, entry, fastStore, reachesMap, setCache]
    · have unsynced : ¬ ((stripOPT value).answer ≠ [] ∧ (stripOPT value).question ≠ []) := synced
      simp only [if_neg unsynced, attached, some_here, Option.map_some, fastStore, reachesMap,
        if_neg synced]

lemma getCacheCopy_eq_none {w : World} {key : String} :
    getCacheCopy w key = none ↔ w.cache.get w.wall key = none := by
  rw [getCacheCopy]
  split
  · rename_i miss
    simp [miss]
  · rename_i hit
    simp [hit]

/-- What a reader gets is an unexpired item of the store, without its question. -/
theorem getCacheCopy_eq_some {w : World} {key : String} {m : Msg} :
    getCacheCopy w key = some m ↔ ∃ it, w.cache.find key = some it ∧
      it.expired w.wall = false ∧ m = shallowCopyMsg it.object := by
  rw [getCacheCopy]
  constructor
  · intro h
    cases hg : w.cache.get w.wall key with
    | none => rw [hg] at h; cases h
    | some msg =>
      rw [hg] at h
      obtain ⟨it, hf, hl, ho⟩ := (w.cache.get_eq_some).mp hg
      exact ⟨it, hf, hl, by rw [ho]; exact (Option.some.inj h).symm⟩
  · rintro ⟨it, hf, hl, rfl⟩
    rw [(w.cache.get_eq_some).mpr ⟨it, hf, hl, rfl⟩]

/-- A key with a type ends with a digit, so it is never the key of a delegation. -/
lemma getCacheKey_not_rooted (name : String) (qtype : Nat) : ¬ Rooted (getCacheKey name qtype) := by
  intro rooted
  have digits : (toString qtype).toList = Nat.toDigits 10 qtype := Nat.toList_repr
  have nonempty : (toString qtype).toList ≠ [] := by
    rw [digits]
    exact Nat.toDigits_ne_nil
  have last : (getCacheKey name qtype).toList.getLast? =
      some ((toString qtype).toList.getLast nonempty) := by
    rw [getCacheKey, String.toList_append, List.getLast?_append_of_ne_nil _ nonempty]
    exact List.getLast?_eq_some_getLast nonempty
  have dot : (toString qtype).toList.getLast nonempty = '.' := rooted _ last
  have digit : ((toString qtype).toList.getLast nonempty).isDigit = true := by
    apply Nat.isDigit_of_mem_toDigits (b := 10) (n := qtype) (by decide) (by decide)
    rw [← digits]
    exact List.getLast_mem nonempty
  rw [dot] at digit
  cases digit

lemma ne_getCacheKey_of_rooted {zone : String} (rooted : Rooted zone) (name : String)
    (qtype : Nat) : zone ≠ getCacheKey name qtype := by
  rintro rfl
  exact getCacheKey_not_rooted name qtype rooted

/-- The type stands behind the last colon of a key, so the key determines the question. -/
theorem getCacheKey_inj {name name' : String} {qtype qtype' : Nat}
    (same : getCacheKey name qtype = getCacheKey name' qtype') : name = name' ∧ qtype = qtype' := by
  have chars (name : String) (n : Nat) : (getCacheKey name n).toList.reverse =
      (Nat.toDigits 10 n).reverse ++ ':' :: name.toList.reverse := by
    simp [getCacheKey]
  have digits (name : String) (n : Nat) :
      (getCacheKey name n).toList.reverse.takeWhile (· ≠ ':') = (Nat.toDigits 10 n).reverse := by
    rw [chars, List.takeWhile_append_of_pos]
    · simp
    · intro c mem
      have digit : c.isDigit = true := Nat.isDigit_of_mem_toDigits (b := 10) (by decide) (by decide)
        (List.mem_reverse.mp mem)
      by_contra colon
      obtain rfl : c = ':' := by simpa using colon
      cases digit
  have types : Nat.toDigits 10 qtype = Nat.toDigits 10 qtype' := by
    rw [← List.reverse_inj, ← digits name, ← digits name', same]
  have names := chars name qtype
  rw [same, chars name' qtype', types, List.append_cancel_left_eq, List.cons_eq_cons,
    List.reverse_inj] at names
  refine ⟨String.toList_injective names.2.symm, ?_⟩
  rw [← Nat.ofDigitChars_ten_toDigits (n := qtype), types, Nat.ofDigitChars_ten_toDigits]

end DnsCache
