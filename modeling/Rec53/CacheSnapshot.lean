import Rec53.DnsCache
import Rec53.StepRuns

/-!
# Snapshots of the cache

`server/snapshot.go` writes every unexpired message to a file at shutdown, with the
time of the save, and puts the messages back before the server starts again. The
expiry of an item is not saved: the load takes the record TTLs, which count from when
the message was received, and counts them from the save.

The file is the list of its entries, JSON and base64 being inverse pairs; failures of
the file system, which are only logged, are left out. XDP is not attached yet when the
snapshot is loaded.
-/

namespace CacheSnapshot

open DnsMessage Platform DnsCache ExpiringStore

structure SnapshotConfig where
  enabled : Bool
  file : String

def SnapshotConfig.active (cfg : SnapshotConfig) : Bool := cfg.enabled && cfg.file != ""

structure SnapshotEntry where
  key : String
  msg : Bytes
  savedAt : Nat

def saveEntry (lib : Lib) (now : Nat) (e : String × Item Msg) : Option SnapshotEntry :=
  match lib.packPlain e.2.object with
  | none => none
  | some wire => some ⟨e.1, wire, now⟩

/-- The entries of the file that is written, if one is. -/
def saveSnapshot (lib : Lib) (cfg : SnapshotConfig) (w : World) : Option (List SnapshotEntry) :=
  if cfg.active then
    some ((w.cache.unexpired w.wall).filterMap (saveEntry lib (w.wall / second)))
  else none

/-- One record in the loop of `remainingTTL`; records that have run out are skipped. -/
def keepLeast (elapsed : Nat) (least : Option Nat) (rr : RR) : Option Nat :=
  if rr.ttl ≤ elapsed then least
  else
    match least with
    | none => some (rr.ttl - elapsed)
    | some m => if rr.ttl - elapsed < m then some (rr.ttl - elapsed) else some m

def remainingTTL (msg : Msg) (savedAt now : Nat) : Nat :=
  let elapsed := now - savedAt
  let least := [msg.answer, msg.ns, msg.extra].foldl
    (fun least records => records.foldl (keepLeast elapsed) least) none
  least.getD 0

def loadEntry (lib : Lib) (now : Nat) (w : World) (entry : SnapshotEntry) : World :=
  match lib.unpack entry.msg with
  | none => w
  | some msg =>
    let minTTL := remainingTTL msg entry.savedAt now
    if minTTL = 0 then w else setCacheCopy lib w entry.key msg minTTL

/-- `file` is none when there is no file. -/
def loadSnapshot (lib : Lib) (cfg : SnapshotConfig) (file : Option (List SnapshotEntry))
    (w : World) : World :=
  if cfg.active then (file.getD []).foldl (loadEntry lib (w.wall / second)) w else w

/-- The server runs for a while, is shut down, and starts again later. -/
structure Restart where
  up : Nat
  down : Nat

def restart (lib : Lib) (cfg : SnapshotConfig) (w : World) (e : Restart) : World :=
  let stopped := w.advance e.up
  let started := stopped.advance e.down
  loadSnapshot lib cfg (saveSnapshot lib cfg stopped) ⟨newCache, none, started.wall, started.mono⟩

/-! ### The remaining TTL -/

def records (m : Msg) : List RR := m.answer ++ (m.ns ++ m.extra)

/-- A record that is left brings the least value down to its own, if that is less. -/
lemma keepLeast_alive {elapsed : Nat} (acc : Option Nat) {rr : RR} (alive : elapsed < rr.ttl) :
    ∃ a, keepLeast elapsed acc rr = some a ∧ (acc = some a ∨ a = rr.ttl - elapsed) ∧
      (∀ b, acc = some b → a ≤ b) ∧ a ≤ rr.ttl - elapsed := by
  simp only [keepLeast, if_neg (Nat.not_le.mpr alive)]
  cases acc with
  | none =>
    refine ⟨rr.ttl - elapsed, rfl, .inr rfl, ?_, Nat.le_refl _⟩
    rintro b ⟨⟩
  | some b =>
    by_cases smaller : rr.ttl - elapsed < b
    · refine ⟨rr.ttl - elapsed, if_pos smaller, .inr rfl, ?_, Nat.le_refl _⟩
      rintro _ ⟨⟩
      omega
    · refine ⟨b, if_neg smaller, .inl rfl, ?_, by omega⟩
      rintro _ ⟨⟩
      exact Nat.le_refl b

/-- The loop ends without a value when no record is left, and else with the least. -/
lemma foldl_keepLeast (elapsed : Nat) (rrs : List RR) (acc : Option Nat) :
    (rrs.foldl (keepLeast elapsed) acc = none ∧ acc = none ∧ ∀ rr ∈ rrs, rr.ttl ≤ elapsed) ∨
      ∃ m, rrs.foldl (keepLeast elapsed) acc = some m ∧
        (acc = some m ∨ ∃ rr ∈ rrs, elapsed < rr.ttl ∧ m = rr.ttl - elapsed) ∧
        (∀ a, acc = some a → m ≤ a) ∧ ∀ rr ∈ rrs, elapsed < rr.ttl → m ≤ rr.ttl - elapsed := by
  induction rrs generalizing acc with
  | nil =>
    cases acc with
    | none => exact .inl ⟨rfl, rfl, fun rr mem => by cases mem⟩
    | some a =>
      refine .inr ⟨a, rfl, .inl rfl, ?_, fun rr mem => by cases mem⟩
      rintro _ ⟨⟩
      exact Nat.le_refl a
  | cons rr rest ih =>
    rw [List.foldl_cons]
    by_cases out : rr.ttl ≤ elapsed
    · -- the record is skipped, and bounds nothing
      have skipped : keepLeast elapsed acc rr = acc := if_pos out
      rw [skipped]
      rcases ih acc with ⟨none_left, empty, all⟩ | ⟨m, found, source, below, least⟩
      · refine .inl ⟨none_left, empty, ?_⟩
        intro rr' mem
        rcases List.mem_cons.mp mem with rfl | later
        · exact out
        · exact all rr' later
      · refine .inr ⟨m, found, ?_, below, ?_⟩
        · rcases source with kept | ⟨rr', mem, alive, is⟩
          · exact .inl kept
          · exact .inr ⟨rr', List.mem_cons_of_mem _ mem, alive, is⟩
        · intro rr' mem alive
          rcases List.mem_cons.mp mem with rfl | later
          · omega
          · exact least rr' later alive
    · obtain ⟨a, now, source, below, least⟩ := keepLeast_alive acc (Nat.lt_of_not_le out)
      rw [now]
      rcases ih (some a) with ⟨_, nothing, _⟩ | ⟨m, found, source', below', least'⟩
      · cases nothing
      have under : m ≤ a := below' a rfl
      refine .inr ⟨m, found, ?_, ?_, ?_⟩
      · rcases source' with kept | ⟨rr', mem, alive, is⟩
        · cases kept
          rcases source with kept | is
          · exact .inl kept
          · exact .inr ⟨rr, List.mem_cons_self, by omega, is⟩
        · exact .inr ⟨rr', List.mem_cons_of_mem _ mem, alive, is⟩
      · intro b is
        have := below b is
        omega
      · intro rr' mem alive
        rcases List.mem_cons.mp mem with rfl | later
        · omega
        · exact least' rr' later alive

/-- It is zero when every record has run out, and else what the least TTL leaves. -/
theorem remainingTTL_spec (msg : Msg) (savedAt now : Nat) :
    (remainingTTL msg savedAt now = 0 ∧ ∀ rr ∈ records msg, rr.ttl ≤ now - savedAt) ∨
      ∃ rr ∈ records msg, now - savedAt < rr.ttl ∧
        remainingTTL msg savedAt now = rr.ttl - (now - savedAt) ∧
        ∀ rr' ∈ records msg, now - savedAt < rr'.ttl → rr.ttl ≤ rr'.ttl := by
  have flat : remainingTTL msg savedAt now =
      ((records msg).foldl (keepLeast (now - savedAt)) none).getD 0 := by
    simp [remainingTTL, records, List.foldl_append]
  rw [flat]
  rcases foldl_keepLeast (now - savedAt) (records msg) none with
    ⟨none_left, _, all⟩ | ⟨m, found, source, _, least⟩
  · exact .inl ⟨by rw [none_left]; rfl, all⟩
  · rcases source with nothing | ⟨rr, mem, alive, is⟩
    · cases nothing
    · refine .inr ⟨rr, mem, alive, by rw [found]; exact is, ?_⟩
      intro rr' mem' alive'
      have := least rr' mem' alive'
      omega

/-! ### What a load puts back -/

/-- The item that loading the entry at time `wall` puts back. -/
def Restores (lib : Lib) (wall : Nat) (entry : SnapshotEntry) (it : Item Msg) : Prop :=
  ∃ msg, lib.unpack entry.msg = some msg ∧
    remainingTTL msg entry.savedAt (wall / second) ≠ 0 ∧
    it = ⟨stripOPT msg, wall + remainingTTL msg entry.savedAt (wall / second) * second⟩

lemma loadEntry_wall (lib : Lib) (now : Nat) (w : World) (entry : SnapshotEntry) :
    (loadEntry lib now w entry).wall = w.wall := by
  rw [loadEntry]
  split
  · rfl
  · dsimp only
    split
    · rfl
    · exact setCacheCopy_wall _ _ _ _ _

/-- An entry writes what it restores under its key, and nothing else. -/
lemma loadEntry_find (lib : Lib) (w : World) (entry : SnapshotEntry) :
    (∃ it, Restores lib w.wall entry it ∧
      ∀ key, (loadEntry lib (w.wall / second) w entry).cache.find key =
        if key = entry.key then some it else w.cache.find key) ∨
    ((∀ it, ¬ Restores lib w.wall entry it) ∧ loadEntry lib (w.wall / second) w entry = w) := by
  rw [loadEntry]
  cases unpacked : lib.unpack entry.msg with
  | none =>
    refine .inr ⟨?_, rfl⟩
    rintro it ⟨msg, there, _⟩
    cases unpacked.symm.trans there
  | some msg =>
    by_cases out : remainingTTL msg entry.savedAt (w.wall / second) = 0
    · refine .inr ⟨?_, if_pos out⟩
      rintro it ⟨msg', there, left, _⟩
      cases unpacked.symm.trans there
      exact left out
    · refine .inl ⟨_, ⟨msg, unpacked, out, rfl⟩, ?_⟩
      intro key
      have lasting : 0 < remainingTTL msg entry.savedAt (w.wall / second) * second :=
        Nat.mul_pos (Nat.pos_of_ne_zero out) (by decide)
      simp only [if_neg out, setCacheCopy_cache, Store.find_set, Store.deadline_of_pos _ lasting]

lemma foldl_loadEntry_find (lib : Lib) (wall : Nat) {entries : List SnapshotEntry}
    (distinct : (entries.map SnapshotEntry.key).Nodup) {w : World} (clock : w.wall = wall)
    (key : String) (it : Item Msg) :
    (entries.foldl (loadEntry lib (wall / second)) w).cache.find key = some it ↔
      (∃ entry ∈ entries, entry.key = key ∧ Restores lib wall entry it) ∨
        (w.cache.find key = some it ∧
          ∀ entry ∈ entries, entry.key = key → ∀ it', ¬ Restores lib wall entry it') := by
  induction entries generalizing w with
  | nil => simp
  | cons entry rest ih =>
    rw [List.map_cons, List.nodup_cons] at distinct
    have alone : ∀ later ∈ rest, later.key ≠ entry.key := by
      intro later mem same
      exact distinct.1 (List.mem_map.mpr ⟨later, mem, same⟩)
    rw [List.foldl_cons, ih distinct.2 ((loadEntry_wall lib _ w entry).trans clock)]
    subst clock
    rcases loadEntry_find lib w entry with ⟨it₀, restored, find⟩ | ⟨nothing, unchanged⟩
    · rw [find key]
      by_cases here : key = entry.key
      · subst here
        rw [if_pos rfl]
        constructor
        · rintro (⟨later, mem, same, _⟩ | ⟨⟨⟩, _⟩)
          · exact absurd same (alone later mem)
          · exact .inl ⟨entry, List.mem_cons_self, rfl, restored⟩
        · rintro (⟨later, mem, same, restores⟩ | ⟨_, none_restored⟩)
          · rcases List.mem_cons.mp mem with rfl | mem
            · obtain ⟨msg, unpacked, _, rfl⟩ := restored
              obtain ⟨msg', unpacked', _, rfl⟩ := restores
              cases unpacked.symm.trans unpacked'
              exact .inr ⟨rfl, fun later mem same => absurd same (alone later mem)⟩
            · exact absurd same (alone later mem)
          · exact absurd restored (none_restored entry List.mem_cons_self rfl it₀)
      · rw [if_neg here]
        have other : entry.key ≠ key := fun same => here same.symm
        simp [List.mem_cons, other]
    · rw [unchanged]
      simp [List.mem_cons, nothing]

lemma saved_keys_nodup (lib : Lib) (now : Nat) {items : List (String × Item Msg)}
    (distinct : (items.map Prod.fst).Nodup) :
    ((items.filterMap (saveEntry lib now)).map SnapshotEntry.key).Nodup := by
  rw [List.Nodup, List.pairwise_map] at distinct ⊢
  rw [List.pairwise_filterMap]
  refine distinct.imp ?_
  intro e e' ne entry saved entry' saved'
  have key_of {e : String × Item Msg} {entry : SnapshotEntry}
      (saved : saveEntry lib now e = some entry) : entry.key = e.1 := by
    rw [saveEntry] at saved
    split at saved
    · cases saved
    · cases saved
      rfl
  rw [key_of saved, key_of saved']
  exact ne

/-- go-cache lists its items in any order: what a load of the listing restores is the same. -/
theorem listing_order_irrelevant {κ : Type} [Cache κ String Msg] {c : κ} {w : World}
    (same : Represents c w.cache) (lib : Lib) (now : Nat) (w' : World) (key : String) :
    (((Cache.unexpired c w.wall).filterMap (saveEntry lib now)).foldl
        (loadEntry lib (w'.wall / second)) w').cache.find key =
      (((w.cache.unexpired w.wall).filterMap (saveEntry lib now)).foldl
        (loadEntry lib (w'.wall / second)) w').cache.find key := by
  have listed := (same.unexpired w.wall).filterMap (saveEntry lib now)
  have distinct := saved_keys_nodup lib now (w.cache.unexpired_keys_nodup w.wall)
  have distinct' := saved_keys_nodup lib now (Cache.unexpired_keys_nodup c w.wall)
  ext it
  rw [foldl_loadEntry_find lib w'.wall distinct' rfl, foldl_loadEntry_find lib w'.wall distinct rfl]
  simp only [listed.mem_iff]

/-- Unpacking undoes packing. -/
def RoundTrips (lib : Lib) : Prop := ∀ m b, lib.packPlain m = some b → lib.unpack b = some m

/-- After a restart the cache holds what was live and could be packed, less what has no
record left, with an expiry counted from the save. -/
theorem restart_find {lib : Lib} (roundTrips : RoundTrips lib) {cfg : SnapshotConfig}
    (active : cfg.active = true) (w : World) (e : Restart) (key : String) (it' : Item Msg) :
    (restart lib cfg w e).cache.find key = some it' ↔
      ∃ it, w.cache.find key = some it ∧ it.expired (w.wall + e.up) = false ∧
        lib.packPlain it.object ≠ none ∧
        remainingTTL it.object ((w.wall + e.up) / second) ((w.wall + e.up + e.down) / second) ≠ 0 ∧
        it' = ⟨stripOPT it.object, w.wall + e.up + e.down +
          remainingTTL it.object ((w.wall + e.up) / second) ((w.wall + e.up + e.down) / second) *
            second⟩ := by
  have loaded := foldl_loadEntry_find lib (w.wall + e.up + e.down)
    (saved_keys_nodup lib ((w.wall + e.up) / second) (w.cache.unexpired_keys_nodup (w.wall + e.up)))
    (w := ⟨newCache, none, w.wall + e.up + e.down, w.mono + e.up + e.down⟩) rfl key it'
  have same : restart lib cfg w e =
      ((w.cache.unexpired (w.wall + e.up)).filterMap
        (saveEntry lib ((w.wall + e.up) / second))).foldl
          (loadEntry lib ((w.wall + e.up + e.down) / second))
          ⟨newCache, none, w.wall + e.up + e.down, w.mono + e.up + e.down⟩ := by
    simp only [restart, loadSnapshot, saveSnapshot, if_pos active, Option.getD_some]
    rfl
  rw [same]
  refine loaded.trans ?_
  constructor
  · rintro (⟨entry, mem, rfl, msg, unpacked, left, rfl⟩ | ⟨nothing, _⟩)
    · obtain ⟨⟨key, it⟩, live, saved⟩ := List.mem_filterMap.mp mem
      obtain ⟨found, alive⟩ := (Store.mem_unexpired _).mp live
      rw [saveEntry] at saved
      split at saved
      · cases saved
      · rename_i wire packed
        cases saved
        cases (roundTrips _ _ packed).symm.trans unpacked
        exact ⟨it, found, alive, by simp [packed], left, rfl⟩
    · simp [newCache] at nothing
  · rintro ⟨it, found, alive, packs, left, rfl⟩
    obtain ⟨wire, packed⟩ := Option.ne_none_iff_exists'.mp packs
    refine .inl ⟨⟨key, wire, (w.wall + e.up) / second⟩, ?_, rfl, it.object,
      roundTrips _ _ packed, left, rfl⟩
    refine List.mem_filterMap.mpr ⟨(key, it), (Store.mem_unexpired _).mpr ⟨found, alive⟩, ?_⟩
    simp only [saveEntry, packed]

/-! ### Expiries over restarts -/

/-- An item with expiry `e'` is gone when one with expiry `e` is; zero is never. -/
def ExpiresBy (e' e : Nat) : Prop := e = 0 ∨ (e' ≠ 0 ∧ e' ≤ e)

/-- Every item expires no later than the item that `w` has under its key. -/
def NoLater (w s : World) : Prop :=
  ∀ key it', s.cache.find key = some it' →
    ∃ it, w.cache.find key = some it ∧ ExpiresBy it'.expiration it.expiration

/-- Of the records of a message that is saved at `ts` and loaded at `tl`, either none has a
TTL longer than the time in between, or one of these would run out by `expiry` if its
TTL were counted from the second of the save, up to the fraction of a second of `tl`. -/
def RunsOutBy (m : Msg) (ts tl expiry : Nat) : Prop :=
  (∀ rr ∈ records m, rr.ttl ≤ tl / second - ts / second) ∨
    ∃ rr ∈ records m, tl / second - ts / second < rr.ttl ∧
      (ts / second + rr.ttl) * second + tl % second ≤ expiry

/-- Every item that the restart saves has records that run out by its expiry in `w`. -/
def TTLsCovered (lib : Lib) (cfg : SnapshotConfig) (w s : World) (e : Restart) : Prop :=
  cfg.active = true → ∀ key it, s.cache.find key = some it →
    it.expired (s.wall + e.up) = false → lib.packPlain it.object ≠ none →
    ∀ it₀, w.cache.find key = some it₀ → it₀.expiration = 0 ∨
      RunsOutBy it.object (s.wall + e.up) (s.wall + e.up + e.down) it₀.expiration

/-- A restored expiry, and the one counted from the second of the save, are the same. -/
lemma restored_expiry {ts tl ttl : Nat} (later : ts ≤ tl)
    (alive : tl / second - ts / second < ttl) :
    tl + (ttl - (tl / second - ts / second)) * second =
      (ts / second + ttl) * second + tl % second := by
  simp only [second] at *
  omega

/-- A restart keeps the expiries exactly when the records of what it saves are covered. -/
theorem restart_noLater_iff {lib : Lib} (roundTrips : RoundTrips lib) (cfg : SnapshotConfig)
    (w s : World) (e : Restart) (before : NoLater w s) :
    NoLater w (restart lib cfg s e) ↔ TTLsCovered lib cfg w s e := by
  have ordered : s.wall + e.up ≤ s.wall + e.up + e.down := Nat.le_add_right _ _
  constructor
  · intro after active key it found alive packs it₀ found₀
    rcases remainingTTL_spec it.object ((s.wall + e.up) / second)
        ((s.wall + e.up + e.down) / second) with ⟨_, out⟩ | ⟨rr, mem, left, is, _⟩
    · exact .inr (.inl out)
    · have restored := (restart_find roundTrips active s e key _).mpr
        ⟨it, found, alive, packs, by rw [is]; omega, rfl⟩
      obtain ⟨it₁, found₁, bound⟩ := after key _ restored
      cases found₀.symm.trans found₁
      rcases bound with never | ⟨_, bound⟩
      · exact .inl never
      · rw [is, restored_expiry ordered left] at bound
        exact .inr (.inr ⟨rr, mem, left, bound⟩)
  · intro covered key it' found'
    by_cases active : cfg.active = true
    · obtain ⟨it, found, alive, packs, left, rfl⟩ :=
        (restart_find roundTrips active s e key it').mp found'
      obtain ⟨it₀, found₀, _⟩ := before key it found
      refine ⟨it₀, found₀, ?_⟩
      rcases covered active key it found alive packs it₀ found₀ with
        never | out | ⟨rr, mem, lasts, by_then⟩
      · exact .inl never
      · rcases remainingTTL_spec it.object ((s.wall + e.up) / second)
          ((s.wall + e.up + e.down) / second) with ⟨zero, _⟩ | ⟨rr, mem, lasts, _⟩
        · exact absurd zero left
        · exact absurd (out rr mem) (Nat.not_le.mpr lasts)
      · rcases remainingTTL_spec it.object ((s.wall + e.up) / second)
          ((s.wall + e.up + e.down) / second) with ⟨zero, _⟩ | ⟨least, _, lasts', is, minimal⟩
        · exact absurd zero left
        · have shortest : least.ttl ≤ rr.ttl := minimal rr mem lasts
          have sooner : ((s.wall + e.up) / second + least.ttl) * second ≤
              ((s.wall + e.up) / second + rr.ttl) * second :=
            Nat.mul_le_mul_right _ (by omega)
          refine .inr ⟨?_, ?_⟩
          · have positive := Nat.mul_pos (Nat.pos_of_ne_zero left) (by decide : 0 < second)
            change _ + _ * second ≠ 0
            omega
          · change _ + _ * second ≤ _
            rw [is, restored_expiry ordered lasts']
            omega
    · simp [restart, loadSnapshot, active, newCache] at found'

/-- For every content of the cache and every sequence of restarts, with any time up and
any time down: after each of them every item expires no later than the item that the
cache had under its key at first, if and only if at each restart the records of every
saved item are covered by that expiry. -/
theorem restored_no_later_iff (lib : Lib) (roundTrips : RoundTrips lib) (cfg : SnapshotConfig)
    (w : World) (restarts : List Restart) :
    StepRuns.Throughout (restart lib cfg) (NoLater w) w restarts ↔
      StepRuns.Along (restart lib cfg) (TTLsCovered lib cfg w) w restarts := by
  have start : NoLater w w := by
    intro key it found
    refine ⟨it, found, ?_⟩
    rw [ExpiresBy]
    omega
  refine StepRuns.throughout_iff_along (restart lib cfg) (P := fun _ => True)
    (fun _ _ _ => trivial) ?_ trivial start restarts
  intro s e _ before
  exact restart_noLater_iff roundTrips cfg w s e before

section Prolonged

/-- An address for five minutes. -/
def addressMsg : Msg :=
  { response := true, question := [⟨"a.", typeA, classINET⟩],
    answer := [⟨"a.", classINET, 300, .a "192.0.2.1"⟩] }

/-- The library with the wire format of the message, after the id. -/
def addressLib : Lib :=
  XdpCache.tableLib [(addressMsg, [0x80, 0, 0, 1, 0, 1, 0, 0, 0, 0, 1, 0x61, 0, 0, 1, 0, 1,
    1, 0x61, 0, 0, 1, 0, 1, 0, 0, 1, 0x2c, 0, 4, 192, 0, 2, 1])]

lemma addressLib_roundTrips : RoundTrips addressLib := by
  intro m b packed
  obtain ⟨small, e, mem, is, rfl⟩ := XdpCache.tablePack_eq_some packed
  have unpacked : addressLib.unpack (XdpCache.idBytes m.id ++ e.2) = some { e.1 with id := m.id } :=
    XdpCache.tableLib_unpack (by decide) mem small
  rw [unpacked, is]

def snapshotConfig : SnapshotConfig := ⟨true, "snapshot.json"⟩

/-- The address was just received. -/
def addressWorld : World :=
  setCacheCopyByType addressLib (World.initial none 1 0) "a." typeA addressMsg 300

theorem prompt_restart_no_later :
    StepRuns.Throughout (restart addressLib snapshotConfig) (NoLater addressWorld) addressWorld
      [⟨0, 10 * second⟩] := by
  refine (restored_no_later_iff addressLib addressLib_roundTrips snapshotConfig addressWorld _).mpr
    ⟨?_, trivial⟩
  intro _ key it found alive packs it₀ found₀
  have only : (addressWorld.cache.find key) =
      if key = getCacheKey "a." typeA then some ⟨addressMsg, 1 + 300 * second⟩ else none := by
    rw [addressWorld, setCacheCopyByType, setCacheCopy_cache, Store.find_set]
    rfl
  rw [only] at found found₀
  by_cases here : key = getCacheKey "a." typeA
  · rw [if_pos here] at found found₀
    cases found
    cases found₀
    exact .inr (.inr ⟨_, List.mem_cons_self, by decide, by decide⟩)
  · rw [if_neg here] at found
    cases found

/-- The server is restarted twice, each time after 200 seconds and within 10. -/
def twoRestarts : World :=
  StepRuns.run (restart addressLib snapshotConfig) addressWorld
    [⟨200 * second, 10 * second⟩, ⟨200 * second, 10 * second⟩]

/-- The address was to expire after 300 seconds. It is served after 420, and would be
until after 710. -/
theorem restarts_prolong_entry :
    RoundTrips addressLib ∧
    addressWorld.cache.find (getCacheKey "a." typeA) = some ⟨addressMsg, 1 + 300 * second⟩ ∧
    (restart addressLib snapshotConfig addressWorld ⟨200 * second, 10 * second⟩).cache.find
      (getCacheKey "a." typeA) = some ⟨addressMsg, 1 + 500 * second⟩ ∧
    twoRestarts.cache.find (getCacheKey "a." typeA) = some ⟨addressMsg, 1 + 710 * second⟩ ∧
    twoRestarts.wall = 1 + 420 * second ∧
    getCacheCopyByType twoRestarts "a." typeA = some { addressMsg with question := [] } :=
  ⟨addressLib_roundTrips, rfl, by decide +kernel, by decide +kernel, rfl, rfl⟩

end Prolonged

/-! ### The records of restored messages -/

/-- A write of LoadSnapshot: the message of an entry, with its expiry in seconds. -/
structure Restored where
  entry : SnapshotEntry
  msg : Msg
  minTTL : Nat

def restored (lib : Lib) (now : Nat) (entry : SnapshotEntry) : Option Restored :=
  match lib.unpack entry.msg with
  | none => none
  | some msg =>
    let minTTL := remainingTTL msg entry.savedAt now
    if minTTL = 0 then none else some ⟨entry, msg, minTTL⟩

def Restored.write (lib : Lib) (w : World) (x : Restored) : World :=
  setCacheCopy lib w x.entry.key x.msg x.minTTL

/-- What LoadSnapshot writes, in the order of the file. -/
def loadWrites (lib : Lib) (cfg : SnapshotConfig) (file : Option (List SnapshotEntry))
    (now : Nat) : List Restored :=
  if cfg.active then (file.getD []).filterMap (restored lib now) else []

lemma restored_eq_some {lib : Lib} {now : Nat} {entry : SnapshotEntry} {x : Restored} :
    restored lib now entry = some x ↔ x.entry = entry ∧ lib.unpack entry.msg = some x.msg ∧
      x.minTTL = remainingTTL x.msg entry.savedAt now ∧ x.minTTL ≠ 0 := by
  rw [restored]
  cases unpacked : lib.unpack entry.msg with
  | none => simp
  | some msg =>
    dsimp only
    constructor
    · intro is
      split at is
      · cases is
      · rename_i left
        cases is
        exact ⟨rfl, rfl, rfl, left⟩
    · rintro ⟨rfl, there, is, left⟩
      obtain rfl : msg = x.msg := Option.some.inj there
      rw [if_neg (by rw [← is]; exact left), ← is]

lemma loadEntry_eq_write (lib : Lib) (now : Nat) (w : World) (entry : SnapshotEntry) :
    loadEntry lib now w entry = (restored lib now entry).elim w (Restored.write lib w) := by
  rw [loadEntry, restored]
  cases lib.unpack entry.msg with
  | none => rfl
  | some msg =>
    dsimp only
    split
    · rfl
    · rfl

theorem loadSnapshot_eq_writes (lib : Lib) (cfg : SnapshotConfig)
    (file : Option (List SnapshotEntry)) (w : World) :
    loadSnapshot lib cfg file w =
      (loadWrites lib cfg file (w.wall / second)).foldl (Restored.write lib) w := by
  rw [loadSnapshot, loadWrites]
  split
  · generalize w.wall / second = now
    induction file.getD [] generalizing w with
    | nil => rfl
    | cons entry rest ih =>
      rw [List.foldl_cons, loadEntry_eq_write, List.filterMap_cons, ih]
      cases restored lib now entry with
      | none => rfl
      | some x => rfl
  · rfl

/-- Every record that is put into the cache has time left, and the entry expires with
the first of them. -/
def OnlyLive (now : Nat) (x : Restored) : Prop :=
  ∀ rr ∈ records (stripOPT x.msg), now - x.entry.savedAt < rr.ttl ∧
    x.minTTL ≤ rr.ttl - (now - x.entry.savedAt)

/-- When one record of the message has time left, all have, OPT apart. -/
def AllOrNone (lib : Lib) (now : Nat) (entry : SnapshotEntry) : Prop :=
  ∀ msg, lib.unpack entry.msg = some msg →
    (∃ rr ∈ records msg, now - entry.savedAt < rr.ttl) →
      ∀ rr ∈ records (stripOPT msg), now - entry.savedAt < rr.ttl

lemma mem_records_of_stripOPT {m : Msg} {rr : RR} (mem : rr ∈ records (stripOPT m)) :
    rr ∈ records m := by
  simp only [records, stripOPT, List.mem_append, List.mem_filter] at mem ⊢
  rcases mem with answer | ns | ⟨extra, _⟩
  · exact .inl answer
  · exact .inr (.inl ns)
  · exact .inr (.inr extra)

/-- The least remaining TTL bounds those of the live records, so liveness is all that
can fail. -/
lemma restored_onlyLive_iff (lib : Lib) (now : Nat) (entry : SnapshotEntry) :
    (∀ x, restored lib now entry = some x → OnlyLive now x) ↔ AllOrNone lib now entry := by
  constructor
  · intro live msg unpacked ⟨rr, mem, left⟩
    have positive : remainingTTL msg entry.savedAt now ≠ 0 := by
      rcases remainingTTL_spec msg entry.savedAt now with ⟨_, out⟩ | ⟨least, _, left', is, _⟩
      · exact absurd (out rr mem) (Nat.not_le.mpr left)
      · omega
    have written := live ⟨entry, msg, remainingTTL msg entry.savedAt now⟩
      (restored_eq_some.mpr ⟨rfl, unpacked, rfl, positive⟩)
    intro rr' mem'
    exact (written rr' mem').1
  · intro all x written
    obtain ⟨rfl, unpacked, is, left⟩ := restored_eq_some.mp written
    rcases remainingTTL_spec x.msg x.entry.savedAt now with
      ⟨zero, _⟩ | ⟨least, mem, lasts, ttl, min⟩
    · exact absurd (is.trans zero) left
    · intro rr mem'
      have alive := all x.msg unpacked ⟨least, mem, lasts⟩ rr mem'
      have first := min rr (mem_records_of_stripOPT mem') alive
      rw [is, ttl]
      omega

/-- Every message that LoadSnapshot puts into the cache has only live records, and
expires with the first of them, exactly when no entry of the file mixes records that
have run out with records that have not. -/
theorem restored_records_live_iff (lib : Lib) (cfg : SnapshotConfig)
    (file : Option (List SnapshotEntry)) (w : World) :
    loadSnapshot lib cfg file w =
        (loadWrites lib cfg file (w.wall / second)).foldl (Restored.write lib) w ∧
      ((∀ x ∈ loadWrites lib cfg file (w.wall / second), OnlyLive (w.wall / second) x) ↔
        (cfg.active = true → ∀ entry ∈ file.getD [], AllOrNone lib (w.wall / second) entry)) := by
  refine ⟨loadSnapshot_eq_writes lib cfg file w, ?_⟩
  generalize w.wall / second = now
  rw [loadWrites]
  by_cases active : cfg.active = true
  · rw [if_pos active]
    constructor
    · intro live _ entry mem
      exact (restored_onlyLive_iff lib now entry).mp fun x written =>
        live x (List.mem_filterMap.mpr ⟨entry, mem, written⟩)
    · intro all x mem
      obtain ⟨entry, mem, written⟩ := List.mem_filterMap.mp mem
      exact (restored_onlyLive_iff lib now entry).mpr (all active entry mem) x written
  · simp [active]

section Mixed

/-- An address for a minute, with a delegation for a day in its authority section. -/
def mixedMsg : Msg :=
  { response := true, question := [⟨"a.", typeA, classINET⟩],
    answer := [⟨"a.", classINET, 60, .a "192.0.2.1"⟩],
    ns := [⟨"a.", classINET, 86400, .ns "n."⟩] }

def mixedLib : Lib :=
  XdpCache.tableLib [(mixedMsg, [0x80, 0, 0, 1, 0, 1, 0, 1, 0, 0, 1, 0x61, 0, 0, 1, 0, 1,
    1, 0x61, 0, 0, 1, 0, 1, 0, 0, 0, 60, 0, 4, 192, 0, 2, 1,
    1, 0x61, 0, 0, 2, 0, 1, 0, 1, 0x51, 0x80, 0, 3, 1, 0x6e, 0])]

def mixedEntry : SnapshotEntry :=
  ⟨getCacheKey "a." typeA, (mixedLib.packPlain mixedMsg).getD [], 1000⟩

lemma mixedEntry_unpacks : mixedLib.unpack mixedEntry.msg = some mixedMsg := by
  decide +kernel

/-- The cache that is filled `seconds` after the save. -/
def mixedStart (seconds : Nat) : World := World.initial none ((1000 + seconds) * second) 0

theorem early_load_only_live :
    ∀ x ∈ loadWrites mixedLib snapshotConfig (some [mixedEntry]) ((mixedStart 30).wall / second),
      OnlyLive ((mixedStart 30).wall / second) x := by
  refine (restored_records_live_iff mixedLib snapshotConfig (some [mixedEntry])
    (mixedStart 30)).2.mpr ?_
  intro _ entry mem msg unpacked _ rr mem'
  rw [Option.getD_some, List.mem_singleton] at mem
  rw [mem, mixedEntry_unpacks] at unpacked
  obtain rfl := Option.some.inj unpacked
  rw [mem]
  revert rr
  decide +kernel

/-- The address is restored 100 seconds after the save, until a day after it. -/
theorem expired_address_revived :
    (loadSnapshot mixedLib snapshotConfig (some [mixedEntry]) (mixedStart 100)).cache.find
        (getCacheKey "a." typeA) = some ⟨mixedMsg, (1000 + 86400) * second⟩ ∧
      getCacheCopyByType (loadSnapshot mixedLib snapshotConfig (some [mixedEntry]) (mixedStart 100))
        "a." typeA = some { mixedMsg with question := [] } ∧
      ∀ rr ∈ mixedMsg.answer, rr.ttl ≤ (mixedStart 100).wall / second - mixedEntry.savedAt := by
  decide +kernel

end Mixed

end CacheSnapshot
