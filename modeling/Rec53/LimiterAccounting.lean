import Rec53.RequestLimiter

/-!
# Slots and tickets of the limiter

In enforcing mode nothing the limiter gives out is lost or given back twice, in any
interleaving of the sections of any number of calls. A slot of a client is owned by a
holder that is marked held, or by a call that has taken it and not yet committed it, or
has taken it off and not yet returned it; the same goes for a ticket of the hot-zone
controller. Each section pays for what it takes over, so the counts of the limiter stay
equal to what is owned.
-/

namespace LimiterAccounting

open HotZone Platform WorkerPool RequestLimiter

universe u
variable {Addr : Type u} [DecidableEq Addr]

/-! ### What a call and a holder own -/

/-- Between taking a slot and committing or returning it, or taking it off and returning it. -/
def slotsAt : Place → Nat
  | .commit _ | .undoSlot _ | .giveSlot _ _ => 1
  | _ => 0

def ticketsAt : Place → List Nat
  | .takeSlot _ ticket | .dropTicket ticket | .commit ticket | .undoSlot ticket
  | .undoTicket ticket | .giveTicket ticket => [ticket]
  | .giveSlot hotZoneHeld ticket => if hotZoneHeld then [ticket] else []
  | _ => []

/-- The next section calls `Release`. -/
def releasesSlot : Place → Bool
  | .undoSlot _ | .giveSlot _ _ => true
  | _ => false

/-- The place is in `TryAcquire`, before its return. -/
def acquiring : Place → Bool
  | .check _ _ _ | .enterZone _ _ _ | .takeSlot _ _ | .dropTicket _ | .commit _ | .undoSlot _
  | .undoTicket _ => true
  | _ => false

def slotsHeld (h : Holder Addr) : Nat := if h.held then 1 else 0

def ticketsHeld (h : Holder Addr) : List Nat :=
  if h.hotZoneHeld then [h.hotZoneTicket] else []

/-- One for a holder of client `c` that is marked held. -/
def heldSlots (c : Addr) (r : Request Addr) : Nat :=
  if r.holder.clientIP = some c then slotsHeld r.holder else 0

/-- The calls on a holder of client `c` that own a slot. -/
def callSlots (c : Addr) (r : Request Addr) : Nat :=
  if r.holder.clientIP = some c then owned slotsAt r.calls else 0

def heldTickets (r : Request Addr) : List Nat := ticketsHeld r.holder

def callTickets (r : Request Addr) : List Nat := r.calls.flatMap ticketsAt

def slotsOf (c : Addr) (r : Request Addr) : Nat := heldSlots c r + callSlots c r

def ticketsOf (id : Nat) (r : Request Addr) : Nat := (heldTickets r ++ callTickets r).count id

/-- The active tickets of the controller. -/
def activeTickets (s : Shared Addr) : List Nat := s.limiter.hotZone.active.keys

/-! ### Every section pays -/

section
variable {lib : ZoneLib} {tick : Tick} {s : Shared Addr} {h : Holder Addr} {place : Place}
  {out : Stepped Addr}

lemma ran_clientIP (ran : Ran lib tick s h place out) : out.holder.clientIP = h.clientIP := by
  cases ran
  all_goals rfl

lemma releaseSlot_inflight (s : Shared Addr) {c : Addr} {clientIP : Option Addr}
    (client : clientIP = some c) :
    (s.releaseSlot clientIP).limiter.inflight c = s.limiter.inflight c - 1 := by
  subst client
  exact s.limiter.inflight_release_self c

lemma releaseSlot_inflight_of_ne (s : Shared Addr) {c : Addr} {clientIP : Option Addr}
    (other : clientIP ≠ some c) :
    (s.releaseSlot clientIP).limiter.inflight c = s.limiter.inflight c := by
  cases clientIP with
  | none => rfl
  | some c' =>
    refine s.limiter.inflight_release_of_ne ?_
    rintro rfl
    exact other rfl

/-- A section leaves the count of every client but its own. -/
lemma ran_slots_other (ran : Ran lib tick s h place out) {c : Addr}
    (other : h.clientIP ≠ some c) :
    out.shared.limiter.inflight c = s.limiter.inflight c := by
  cases ran with
  | slotTaken client | slotFull client =>
    refine Limiter.inflight_setState_of_ne _ _ ?_
    rintro rfl
    exact other client
  | slotUndone | slotGiven => exact releaseSlot_inflight_of_ne s other
  | rest | pass | proceed | zoneRefused | zoneEntered | unmetered | ticketDropped | committed
  | late | ticketUndone | nothingHeld | takenOff | ticketGiven => rfl

/-- A section changes the count of its client by what the holder and the call take over. -/
lemma ran_slots_paid (ran : Ran lib tick s h place out)
    (enforcing : s.limiter.observeWouldRefuse = false) (even : h.held = h.hotZoneHeld) {c : Addr}
    (client : h.clientIP = some c) (covered : slotsAt place ≤ s.limiter.inflight c) :
    out.shared.limiter.inflight c + (slotsHeld h + slotsAt place) =
      s.limiter.inflight c + (slotsHeld out.holder + slotsAt out.place) := by
  cases ran with
  | @slotTaken _ _ c' state client' _ more =>
    obtain rfl : c' = c := Option.some.inj (client'.symm.trans client)
    have counted : (s.limiter.setState c' state).inflight c' = s.limiter.inflight c' + 1 := by
      rw [Limiter.inflight_setState_self, more]
    simp only [Shared.setLimiter, counted, slotsAt]
    omega
  | @slotFull _ _ c' state _ client' _ same =>
    obtain rfl : c' = c := Option.some.inj (client'.symm.trans client)
    have kept : (s.limiter.setState c' state).inflight c' = s.limiter.inflight c' := by
      rw [Limiter.inflight_setState_self, same]
    simp only [kept, enforcing, slotsAt]
    rfl
  | slotUndone =>
    have given := releaseSlot_inflight s client
    simp only [slotsAt] at covered ⊢
    omega
  | @slotGiven hotZoneHeld _ =>
    have given := releaseSlot_inflight s client
    cases hotZoneHeld
    all_goals
      simp only [slotsAt] at covered
      simp only [slotsAt, if_true, Bool.false_eq_true, if_false]
      omega
  | committed free => simp [slotsHeld, slotsAt, free]
  | takenOff valid holds =>
    have held : h.held = true := holds.elim id fun zone => even.trans zone
    simp [slotsHeld, slotsAt, held]
  | unmetered invalid => cases invalid.symm.trans client
  | rest | pass | proceed | zoneRefused | zoneEntered | ticketDropped | late | ticketUndone
  | nothingHeld | ticketGiven => rfl

/-- Tickets are numbered from one, up to the last one given out. -/
def Numbered (hotZone : Controller) : Prop :=
  ∀ id ∈ hotZone.active.keys, 0 < id ∧ id ≤ hotZone.nextID

omit [DecidableEq Addr] in
/-- Giving back an active ticket. -/
lemma releaseHotZone_keys (lib : ZoneLib) (tick : Tick) (numbered : Numbered s.limiter.hotZone)
    {ticket : Nat} (active : ticket ∈ activeTickets s) :
    activeTickets (s.releaseHotZone lib tick ticket) = (activeTickets s).erase ticket ∧
      (s.releaseHotZone lib tick ticket).limiter.hotZone.nextID = s.limiter.hotZone.nextID :=
  Controller.release_spec lib tick.reading s.limiter.hotZone tick.now
    (Nat.pos_iff_ne_zero.mp (numbered ticket active).1)

omit [DecidableEq Addr] in
lemma releaseHotZone_count (lib : ZoneLib) (tick : Tick) (numbered : Numbered s.limiter.hotZone)
    {ticket : Nat} (active : ticket ∈ activeTickets s) (id : Nat) :
    (activeTickets (s.releaseHotZone lib tick ticket)).count id + [ticket].count id =
      (activeTickets s).count id := by
  have whole := (List.perm_cons_erase active).count_eq id
  rw [(releaseHotZone_keys lib tick numbered active).1, whole]
  simp only [List.count_cons, List.count_nil]
  omega

/-- Releasing a slot is a matter of one client. -/
lemma releaseSlot_frame (s : Shared Addr) (clientIP : Option Addr) :
    (s.releaseSlot clientIP).limiter.hotZone = s.limiter.hotZone ∧
      (s.releaseSlot clientIP).limiter.limit = s.limiter.limit ∧
      (s.releaseSlot clientIP).limiter.observeWouldRefuse = s.limiter.observeWouldRefuse := by
  cases clientIP with
  | none => exact ⟨rfl, rfl, rfl⟩
  | some c =>
    simp only [Shared.releaseSlot, Shared.setLimiter]
    rcases s.limiter.release_spec c with ⟨_, same⟩ | ⟨_, erased⟩ | ⟨_, state, _, kept⟩
    · rw [same]
      exact ⟨rfl, rfl, rfl⟩
    · rw [erased]
      exact ⟨rfl, rfl, rfl⟩
    · rw [kept]
      exact ⟨rfl, rfl, rfl⟩

@[simp] lemma releaseSlot_tickets (s : Shared Addr) (clientIP : Option Addr) :
    activeTickets (s.releaseSlot clientIP) = activeTickets s :=
  congrArg (fun hotZone : Controller => hotZone.active.keys) (releaseSlot_frame s clientIP).1

lemma ran_tickets_paid (ran : Ran lib tick s h place out)
    (numbered : Numbered s.limiter.hotZone) (even : h.held = h.hotZoneHeld)
    (covered : ∀ id, (ticketsAt place).count id ≤ (activeTickets s).count id) (id : Nat) :
    (activeTickets out.shared).count id + (ticketsHeld h ++ ticketsAt place).count id =
      (activeTickets s).count id + (ticketsHeld out.holder ++ ticketsAt out.place).count id := by
  have active : ∀ ticket, ticketsAt place = [ticket] → ticket ∈ activeTickets s := by
    intro ticket owned
    have one := covered ticket
    rw [owned, List.count_singleton_self] at one
    exact List.count_pos_iff.mp one
  cases ran with
  | zoneRefused same => simp only [activeTickets, Shared.setLimiter, same.keys, ticketsAt]
  | zoneEntered nextID keys =>
    have fresh : s.limiter.hotZone.nextID + 1 ∉ s.limiter.hotZone.active.keys := by
      intro mem
      have bound := (numbered _ mem).2
      omega
    simp only [activeTickets, Shared.setLimiter, keys, nextID, List.erase_of_not_mem fresh,
      ticketsAt, List.count_append, List.count_cons, List.count_nil]
    omega
  | @slotFull _ ticket =>
    have same : ticketsAt (if s.limiter.observeWouldRefuse then .commit ticket
        else .dropTicket ticket) = [ticket] := by
      split
      · rfl
      · rfl
    simp only [same]
    rfl
  | @ticketDropped ticket | @ticketUndone ticket | @ticketGiven ticket =>
    have given := releaseHotZone_count lib tick numbered (active ticket rfl) id
    simp only [ticketsAt, List.count_append, List.count_nil]
    omega
  | committed free zoneFree => simp [ticketsHeld, ticketsAt, zoneFree]
  | takenOff valid holds =>
    have zone : h.hotZoneHeld = true := by
      rcases holds with held | zone
      · exact even.symm.trans held
      · exact zone
    simp [ticketsHeld, ticketsAt, zone]
  | slotUndone => simp only [releaseSlot_tickets, ticketsAt]
  | @slotGiven hotZoneHeld ticket =>
    cases hotZoneHeld
    all_goals simp [ticketsAt]
  | rest | pass | proceed | unmetered | slotTaken | late | nothingHeld => rfl

end

/-! ### What a section keeps of the limiter -/

/-- The limiter enforces its limit and has no entry without a slot. -/
structure Enforced (limit : Nat) (l : Limiter Addr) : Prop where
  fixed : l.limit = limit
  enforcing : l.observeWouldRefuse = false
  bound : ∀ c, l.inflight c ≤ limit
  positive : ∀ c ∈ l.clients, 0 < l.inflight c

section
variable {limit : Nat} {l : Limiter Addr}

lemma setState_enforced (enforced : Enforced limit l) (c : Addr) {state : ClientState}
    (some_slot : 0 < state.inflight) (within : state.inflight ≤ limit) :
    Enforced limit (l.setState c state) := by
  refine ⟨enforced.fixed, enforced.enforcing, ?_, ?_⟩
  · intro c'
    by_cases same : c' = c
    · subst same
      rwa [Limiter.inflight_setState_self]
    · rw [Limiter.inflight_setState_of_ne l state same]
      exact enforced.bound c'
  · intro c' mem
    by_cases same : c' = c
    · subst same
      rwa [Limiter.inflight_setState_self]
    · rw [Limiter.inflight_setState_of_ne l state same]
      exact enforced.positive c' ((AList.mem_insert _).mp mem |>.resolve_left same)

lemma release_enforced (enforced : Enforced limit l) (c : Addr) :
    Enforced limit (l.release c) := by
  rcases l.release_spec c with ⟨_, same⟩ | ⟨_, erased⟩ | ⟨several, state, less, kept⟩
  · rw [same]
    exact enforced
  · have other : ∀ c', c' ≠ c → (l.release c).inflight c' = l.inflight c' :=
      fun c' ne => l.inflight_release_of_ne ne
    have own := l.inflight_release_self c
    rw [erased] at other own ⊢
    refine ⟨enforced.fixed, enforced.enforcing, ?_, ?_⟩
    · intro c'
      by_cases same : c' = c
      · subst same
        have bound := enforced.bound c'
        omega
      · rw [other c' same]
        exact enforced.bound c'
    · intro c' mem
      obtain ⟨ne, mem⟩ := AList.mem_erase.mp mem
      rw [other c' ne]
      exact enforced.positive c' mem
  · rw [kept]
    have bound := enforced.bound c
    exact setState_enforced enforced c (by omega) (by omega)

/-- Changing the hot-zone controller leaves the slots. -/
lemma hotZone_enforced (enforced : Enforced limit l) (hotZone : Controller) :
    Enforced limit { l with hotZone := hotZone } :=
  ⟨enforced.fixed, enforced.enforcing, enforced.bound, enforced.positive⟩

/-- What every section keeps of the shared state. -/
structure Kept (limit : Nat) (s : Shared Addr) : Prop where
  enforced : Enforced limit s.limiter
  numbered : Numbered s.limiter.hotZone

variable {lib : ZoneLib} {tick : Tick} {s : Shared Addr} {h : Holder Addr} {place : Place}
  {out : Stepped Addr}

lemma releaseSlot_kept (kept : Kept limit s) (clientIP : Option Addr) :
    Kept limit (s.releaseSlot clientIP) := by
  cases clientIP with
  | none => exact kept
  | some c =>
    constructor
    · exact release_enforced kept.enforced c
    · rw [(releaseSlot_frame s (some c)).1]
      exact kept.numbered

lemma releaseHotZone_kept (kept : Kept limit s) {ticket : Nat}
    (active : ticket ∈ activeTickets s) : Kept limit (s.releaseHotZone lib tick ticket) := by
  obtain ⟨keys, nextID⟩ := releaseHotZone_keys lib tick kept.numbered active
  constructor
  · exact hotZone_enforced kept.enforced _
  · intro id mem
    rw [nextID]
    rw [← activeTickets, keys] at mem
    exact kept.numbered id (List.mem_of_mem_erase mem)

lemma ran_kept (ran : Ran lib tick s h place out) (some_slot : 0 < limit)
    (active : ∀ ticket, ticketsAt place = [ticket] → ticket ∈ activeTickets s)
    (kept : Kept limit s) : Kept limit out.shared := by
  cases ran with
  | zoneRefused same =>
    refine ⟨hotZone_enforced kept.enforced _, ?_⟩
    intro id mem
    rw [Shared.setLimiter, same.nextID]
    exact kept.numbered id (same.keys ▸ mem)
  | @zoneEntered _ _ _ hotZone nextID keys =>
    refine ⟨hotZone_enforced kept.enforced _, ?_⟩
    intro id mem
    replace mem : id ∈ hotZone.active.keys := mem
    rw [keys, List.mem_cons] at mem
    change 0 < id ∧ id ≤ hotZone.nextID
    rcases mem with rfl | old
    · omega
    · have bound := kept.numbered id (List.mem_of_mem_erase old)
      omega
  | @slotTaken _ _ c _ _ below more =>
    refine ⟨setState_enforced kept.enforced c (by omega) ?_, kept.numbered⟩
    rw [← kept.enforced.fixed]
    omega
  | @slotFull _ _ c _ _ _ full same =>
    have bound := kept.enforced.bound c
    rw [kept.enforced.fixed] at full
    exact ⟨setState_enforced kept.enforced c (by omega) (by omega), kept.numbered⟩
  | slotUndone | slotGiven => exact releaseSlot_kept kept h.clientIP
  | @ticketDropped ticket | @ticketUndone ticket | @ticketGiven ticket =>
    exact releaseHotZone_kept kept (active ticket rfl)
  | rest | pass | proceed | unmetered | committed | late | nothingHeld | takenOff => exact kept

end

/-! ### Requests -/

/-- The places of a call on a holder without a valid client. -/
def outside : Place → Bool
  | .check _ _ _ | .returned _ | .takeOff | .released => true
  | _ => false

/-- The two marks of a holder agree, and without a valid client nothing is held. -/
structure Sound (r : Request Addr) : Prop where
  even : r.holder.held = r.holder.hotZoneHeld
  invalid : r.holder.clientIP = none →
    r.holder.held = false ∧ ∀ place ∈ r.calls, outside place = true

section
variable {lib : ZoneLib} {tick : Tick} {s : Shared Addr} {h : Holder Addr} {place : Place}
  {out : Stepped Addr}

lemma ran_even (ran : Ran lib tick s h place out) (even : h.held = h.hotZoneHeld) :
    out.holder.held = out.holder.hotZoneHeld := by
  cases ran with
  | committed | takenOff => rfl
  | rest | pass | proceed | zoneRefused | zoneEntered | unmetered | slotTaken | slotFull
  | ticketDropped | late | slotUndone | ticketUndone | nothingHeld | slotGiven
  | ticketGiven => exact even

lemma ran_outside (ran : Ran lib tick s h place out) (invalid : h.clientIP = none)
    (before : outside place = true) : out.holder = h ∧ outside out.place = true := by
  cases ran with
  | rest => exact ⟨rfl, before⟩
  | pass | nothingHeld => exact ⟨rfl, rfl⟩
  | proceed valid | takenOff valid => exact absurd invalid valid
  | zoneRefused | zoneEntered | unmetered | slotTaken | slotFull | ticketDropped | committed
  | late | slotUndone | ticketUndone | slotGiven | ticketGiven => cases before

end

section
variable {lib : ZoneLib} {tick : Tick} {s : Shared Addr} {r : Request Addr} {k : Nat}

omit [DecidableEq Addr] in
lemma begin_sound {place : Place} (start : outside place = true) (sound : Sound r) :
    Sound (r.begin place s).worker := by
  refine ⟨sound.even, ?_⟩
  intro invalid
  refine ⟨(sound.invalid invalid).1, ?_⟩
  intro place' mem
  rcases List.mem_append.mp mem with old | new
  · exact (sound.invalid invalid).2 place' old
  · rw [List.mem_singleton.mp new]
    exact start

lemma advance_sound (sound : Sound r) : Sound (r.advance lib tick k s).worker := by
  rw [Request.advance]
  split
  · exact sound
  · rename_i place at_k
    have ran := callStep_ran lib tick s r.holder place
    refine ⟨ran_even ran sound.even, ?_⟩
    intro invalid
    replace invalid : r.holder.clientIP = none := (ran_clientIP ran).symm.trans invalid
    obtain ⟨free, calls⟩ := sound.invalid invalid
    obtain ⟨same, next⟩ := ran_outside ran invalid (calls place (List.mem_of_getElem? at_k))
    refine ⟨(congrArg Holder.held same).trans free, ?_⟩
    intro place' mem
    rcases List.mem_or_eq_of_mem_set mem with old | rfl
    · exact calls place' old
    · exact next

lemma advance_slots (enforcing : s.limiter.observeWouldRefuse = false) (sound : Sound r)
    {c : Addr} (covered : slotsOf c r ≤ s.limiter.inflight c) :
    (r.advance lib tick k s).shared.limiter.inflight c + slotsOf c r =
      s.limiter.inflight c + slotsOf c (r.advance lib tick k s).worker +
        owned (slotsOf c) (r.advance lib tick k s).started := by
  rw [Request.advance]
  split
  · rfl
  · rename_i place at_k
    have ran := callStep_ran lib tick s r.holder place
    by_cases client : r.holder.clientIP = some c
    · have one := le_owned slotsAt (List.mem_of_getElem? at_k)
      have moved := owned_set slotsAt at_k (callStep lib tick s r.holder place).place
      simp only [slotsOf, heldSlots, callSlots, ran_clientIP ran, if_pos client,
        owned_nil] at covered ⊢
      have paid := ran_slots_paid ran enforcing sound.even client (by omega)
      omega
    · have same := ran_slots_other ran client
      simp only [slotsOf, heldSlots, callSlots, ran_clientIP ran, if_neg client, owned_nil]
      omega

omit [DecidableEq Addr] in
lemma callTickets_count (id : Nat) (r : Request Addr) :
    (callTickets r).count id = owned (fun place => (ticketsAt place).count id) r.calls :=
  List.count_flatMap

omit [DecidableEq Addr] in
/-- What a call owns is owned by its request. -/
lemma ticketsAt_le {place : Place} (mem : place ∈ r.calls) (id : Nat) :
    (ticketsAt place).count id ≤ ticketsOf id r := by
  have mine := le_owned (fun place => (ticketsAt place).count id) mem
  rw [ticketsOf, List.count_append, callTickets_count]
  exact Nat.le_add_left_of_le mine

lemma advance_tickets (numbered : Numbered s.limiter.hotZone) (sound : Sound r)
    (covered : ∀ id, ticketsOf id r ≤ (activeTickets s).count id) (id : Nat) :
    (activeTickets (r.advance lib tick k s).shared).count id + ticketsOf id r =
      (activeTickets s).count id + ticketsOf id (r.advance lib tick k s).worker +
        owned (ticketsOf id) (r.advance lib tick k s).started := by
  rw [Request.advance]
  split
  · rfl
  · rename_i place at_k
    have ran := callStep_ran lib tick s r.holder place
    have one : ∀ id, (ticketsAt place).count id ≤ (activeTickets s).count id := fun id =>
      (ticketsAt_le (List.mem_of_getElem? at_k) id).trans (covered id)
    have moved := owned_set (fun place => (ticketsAt place).count id) at_k
      (callStep lib tick s r.holder place).place
    have paid := ran_tickets_paid ran numbered sound.even one id
    simp only [ticketsOf, List.count_append, callTickets_count, heldTickets, owned_nil] at *
    omega

lemma advance_kept {limit : Nat} (some_slot : 0 < limit)
    (covered : ∀ id, ticketsOf id r ≤ (activeTickets s).count id) (kept : Kept limit s) :
    Kept limit (r.advance lib tick k s).shared := by
  rw [Request.advance]
  split
  · exact kept
  · rename_i place at_k
    refine ran_kept (callStep_ran lib tick s r.holder place) some_slot ?_ kept
    intro ticket own
    have mine := (ticketsAt_le (List.mem_of_getElem? at_k) ticket).trans (covered ticket)
    rw [own, List.count_singleton_self] at mine
    exact List.count_pos_iff.mp mine

end

/-! ### Any interleaving -/

structure Accounted (limit : Nat) (p : System Addr) : Prop where
  slots : ∀ c, Balanced (fun s => s.limiter.inflight c) (slotsOf c) p
  tickets : ∀ id, Balanced (fun s => (activeTickets s).count id) (ticketsOf id) p
  sound : ∀ r ∈ p.workers, Sound r
  kept : Kept limit p.shared

section
variable {lib : ZoneLib} {limit : Nat} {p : System Addr}

omit [DecidableEq Addr] in
lemma callTickets_append (r : Request Addr) (place : Place) :
    callTickets { r with calls := r.calls ++ [place] } = callTickets r ++ ticketsAt place := by
  simp [callTickets]

/-- A call that is made owns nothing yet. -/
lemma begin_accounted {place : Place} (start : outside place = true) (i : Nat)
    (accounted : Accounted limit p) : Accounted limit (p.act i (Request.begin place)) := by
  have no_slot : slotsAt place = 0 := by
    cases place <;> first | rfl | cases start
  have no_ticket : ticketsAt place = [] := by
    cases place <;> first | rfl | cases start
  refine ⟨fun c => ?_, fun id => ?_, ?_, ?_⟩
  · refine act_balanced ?_ (accounted.slots c)
    intro r _ _
    simp only [Request.begin, slotsOf, heldSlots, callSlots, owned_append, owned_cons, owned_nil,
      no_slot]
    rfl
  · refine act_balanced ?_ (accounted.tickets id)
    intro r _ _
    simp only [Request.begin, ticketsOf, heldTickets, callTickets_append, no_ticket,
      List.append_nil, owned_nil]
    rfl
  · refine act_workers ?_ accounted.sound
    intro r _ sound
    exact ⟨begin_sound start sound, fun _ none_started => nomatch none_started⟩
  · exact act_shared (fun _ _ => accounted.kept) accounted.kept

lemma advance_accounted (some_slot : 0 < limit) (i k : Nat) (tick : Tick)
    (accounted : Accounted limit p) :
    Accounted limit (p.act i (Request.advance lib tick k)) := by
  have covered : ∀ r ∈ p.workers, ∀ id, ticketsOf id r ≤ (activeTickets p.shared).count id :=
    fun r mem id => (accounted.tickets id).le mem
  refine ⟨fun c => ?_, fun id => ?_, ?_, ?_⟩
  · refine act_balanced ?_ (accounted.slots c)
    intro r mem own
    exact advance_slots accounted.kept.enforced.enforcing (accounted.sound r mem) own
  · refine act_balanced ?_ (accounted.tickets id)
    intro r mem _
    exact advance_tickets accounted.kept.numbered (accounted.sound r mem) (covered r mem) id
  · refine act_workers ?_ accounted.sound
    intro r _ sound
    refine ⟨advance_sound sound, ?_⟩
    rw [Request.advance]
    split
    · exact fun _ none_started => nomatch none_started
    · exact fun _ none_started => nomatch none_started
  · refine act_shared ?_ accounted.kept
    intro r mem
    exact advance_kept some_slot (covered r mem) accounted.kept

theorem step_accounted (some_slot : 0 < limit) (p : System Addr) (e : Event Addr)
    (accounted : Accounted limit p) : Accounted limit (step lib p e) := by
  cases e with
  | arrive clientIP =>
    refine ⟨fun c => ?_, fun id => ?_, ?_, accounted.kept⟩
    · refine start_balanced ?_ (accounted.slots c)
      simp only [slotsOf, heldSlots, callSlots]
      split
      · rfl
      · rfl
    · exact start_balanced rfl (accounted.tickets id)
    · intro r mem
      rcases List.mem_append.mp mem with old | new
      · exact accounted.sound r old
      · rw [List.mem_singleton.mp new]
        exact ⟨rfl, fun _ => ⟨rfl, fun _ no_call => nomatch no_call⟩⟩
  | tryAcquire i path qname zone => exact begin_accounted rfl i accounted
  | releaseIfHeld i => exact begin_accounted rfl i accounted
  | advance i k tick => exact advance_accounted some_slot i k tick accounted

end

/-- A new limiter in enforcing mode. -/
lemma initial_accounted {lib : ZoneLib} {numCPU : Nat} {cfg : Config} {l : Limiter Addr}
    (made : newExpensiveRequestLimiter lib numCPU cfg = some l)
    (enforcing : cfg.observeWouldRefuse = false) :
    0 < l.limit ∧ Accounted l.limit (initial l) := by
  rw [newExpensiveRequestLimiter] at made
  split at made
  · cases made
  · cases made
    constructor
    · simp only [normalizeLimit]
      split
      · split
        · exact Nat.one_pos
        · omega
      · omega
    · have kept : Kept _ (initial ⟨normalizeLimit numCPU cfg.limit, cfg.observeWouldRefuse, ∅,
          newHotZoneController lib cfg.hotZoneBaseSuffixes⟩ : System Addr).shared :=
        ⟨⟨rfl, enforcing, fun _ => Nat.zero_le _, nofun⟩, nofun⟩
      exact ⟨fun _ => rfl, fun _ => rfl, nofun, kept⟩

theorem run_accounted {lib : ZoneLib} {numCPU : Nat} {cfg : Config} {l : Limiter Addr}
    (made : newExpensiveRequestLimiter lib numCPU cfg = some l)
    (enforcing : cfg.observeWouldRefuse = false) (events : List (Event Addr)) :
    Accounted l.limit (runFrom lib l events) := by
  obtain ⟨some_slot, start⟩ := initial_accounted made enforcing
  exact StepRuns.run_preserves (step lib) (step_accounted some_slot) start events

/-! ### When every request has released -/

/-- No `TryAcquire` of the request is open, and one that holds is about to be released. -/
structure Releasing (r : Request Addr) : Prop where
  done : ∀ place ∈ r.calls, acquiring place = false
  pending : r.holder.held = true → .takeOff ∈ r.calls

/-- Outside `TryAcquire` no section marks the holder held, and the section that finishes a
`takeOff` leaves it free. -/
lemma ran_releasing {lib : ZoneLib} {tick : Tick} {s : Shared Addr} {h : Holder Addr}
    {place : Place} {out : Stepped Addr} (ran : Ran lib tick s h place out)
    (valid : h.clientIP = none → h.held = false) (done : acquiring place = false) :
    acquiring out.place = false ∧
      (out.holder.held = true → h.held = true ∧ place ≠ .takeOff) := by
  cases ran with
  | rest atEnd =>
    refine ⟨done, fun held => ⟨held, ?_⟩⟩
    rintro rfl
    cases atEnd
  | nothingHeld idle =>
    refine ⟨rfl, fun held => ?_⟩
    rw [idle.elim valid fun free => free] at held
    cases held
  | takenOff => exact ⟨rfl, fun held => nomatch held⟩
  | @slotGiven hotZoneHeld ticket =>
    refine ⟨?_, fun held => ⟨held, nofun⟩⟩
    cases hotZoneHeld
    · rfl
    · rfl
  | ticketGiven => exact ⟨rfl, fun held => ⟨held, nofun⟩⟩
  | pass | proceed | zoneRefused | zoneEntered | unmetered | slotTaken | slotFull
  | ticketDropped | committed | late | slotUndone | ticketUndone => cases done

lemma advance_releasing {lib : ZoneLib} {tick : Tick} {s : Shared Addr} {r : Request Addr}
    {k : Nat} (sound : Sound r) (releasing : Releasing r) :
    Releasing (r.advance lib tick k s).worker := by
  rw [Request.advance]
  split
  · exact releasing
  · rename_i place at_k
    have mem := List.mem_of_getElem? at_k
    obtain ⟨next, marked⟩ := ran_releasing (callStep_ran lib tick s r.holder place)
      (fun invalid => (sound.invalid invalid).1) (releasing.done place mem)
    constructor
    · intro place' mem'
      rcases List.mem_or_eq_of_mem_set mem' with old | rfl
      · exact releasing.done place' old
      · exact next
    · intro held
      obtain ⟨before, other⟩ := marked held
      obtain ⟨j, at_j⟩ := List.mem_iff_getElem?.mp (releasing.pending before)
      have ne : k ≠ j := by
        rintro rfl
        exact other (Option.some.inj (at_k.symm.trans at_j))
      exact List.mem_iff_getElem?.mpr ⟨j, (List.getElem?_set_ne ne).trans at_j⟩

omit [DecidableEq Addr] in
lemma begin_takeOff_releasing {s : Shared Addr} {r : Request Addr}
    (done : ∀ place ∈ r.calls, acquiring place = false) :
    Releasing (r.begin .takeOff s).worker := by
  constructor
  · intro place mem
    rcases List.mem_append.mp mem with old | new
    · exact done place old
    · rw [List.mem_singleton.mp new]
      rfl
  · intro _
    exact List.mem_append_right _ List.mem_cons_self

/-- Request `i` makes no further `TryAcquire` call in the event. -/
def NotAcquiring (i : Nat) (e : Event Addr) : Prop :=
  ∀ path qname zone, e ≠ .tryAcquire i path qname zone

lemma step_releasing {lib : ZoneLib} {p : System Addr} {i : Nat} {e : Event Addr}
    (quiet : NotAcquiring i e) (sound : ∀ r ∈ p.workers, Sound r)
    (releasing : ∀ r, p.workers[i]? = some r → Releasing r) :
    ∀ r, (step lib p e).workers[i]? = some r → Releasing r := by
  cases e with
  | arrive clientIP => exact start_worker ⟨nofun, nofun⟩ releasing
  | tryAcquire j path qname zone =>
    refine act_worker (fun _ => rfl) ?_ fun _ => releasing
    rintro rfl
    exact absurd rfl (quiet path qname zone)
  | releaseIfHeld j =>
    refine act_worker (fun _ => rfl) ?_ fun _ => releasing
    intro _ r at_i
    exact begin_takeOff_releasing (releasing r at_i).done
  | advance j k tick =>
    refine act_worker ?_ ?_ fun _ => releasing
    · intro r
      rw [Request.advance]
      split
      · rfl
      · rfl
    · intro _ r at_i
      exact advance_releasing (sound r (List.mem_of_getElem? at_i)) (releasing r at_i)

lemma run_releasing {lib : ZoneLib} {limit : Nat} (some_slot : 0 < limit) {p : System Addr}
    {i : Nat} {events : List (Event Addr)} (quiet : ∀ e ∈ events, NotAcquiring i e)
    (accounted : Accounted limit p) (releasing : ∀ r, p.workers[i]? = some r → Releasing r) :
    ∀ r, (StepRuns.run (step lib) p events).workers[i]? = some r → Releasing r := by
  induction events generalizing p with
  | nil => exact releasing
  | cons e events ih =>
    obtain ⟨now, later⟩ := List.forall_mem_cons.mp quiet
    exact ih later (step_accounted some_slot p e accounted)
      (step_releasing now accounted.sound releasing)

/-- Request `i` calls `ReleaseIfHeld` when all its `TryAcquire` calls have returned, and
makes no further one. -/
def ReleasesLast (lib : ZoneLib) (l : Limiter Addr) (events : List (Event Addr)) (i : Nat) :
    Prop :=
  ∃ before after, events = before ++ .releaseIfHeld i :: after ∧
    (∀ r, (runFrom lib l before).workers[i]? = some r →
      ∀ place ∈ r.calls, acquiring place = false) ∧
    ∀ e ∈ after, NotAcquiring i e

section
variable {lib : ZoneLib} {numCPU : Nat} {cfg : Config} {l : Limiter Addr}
  {events : List (Event Addr)}

lemma releasing_of_releasesLast (made : newExpensiveRequestLimiter lib numCPU cfg = some l)
    (enforcing : cfg.observeWouldRefuse = false) {i : Nat}
    (last : ReleasesLast lib l events i) :
    ∀ r, (runFrom lib l events).workers[i]? = some r → Releasing r := by
  obtain ⟨before, after, rfl, returned, quiet⟩ := last
  obtain ⟨some_slot, _⟩ := initial_accounted made enforcing
  have accounted := run_accounted made enforcing before
  rw [runFrom, StepRuns.run_append]
  refine run_releasing (p := step lib (runFrom lib l before) (.releaseIfHeld i)) some_slot quiet
    (step_accounted some_slot _ _ accounted) ?_
  refine act_worker (fun _ => rfl) ?_ (absurd rfl)
  intro _ r at_i
  exact begin_takeOff_releasing (returned r at_i)

/-- A request whose calls are over and whose holder is free owns nothing. -/
lemma owns_nothing {r : Request Addr} (sound : Sound r) (free : r.holder.held = false)
    (atEnd : ∀ place ∈ r.calls, place.over = true) :
    (∀ c, slotsOf c r = 0) ∧ ∀ id, ticketsOf id r = 0 := by
  have calls : ∀ place ∈ r.calls, slotsAt place = 0 ∧ ticketsAt place = [] := by
    intro place mem
    have ended := atEnd place mem
    cases place
    all_goals first | exact ⟨rfl, rfl⟩ | cases ended
  have zone : r.holder.hotZoneHeld = false := sound.even.symm.trans free
  constructor
  · intro c
    have none_open : owned slotsAt r.calls = 0 :=
      (owned_eq_zero_iff slotsAt).mpr fun place mem => (calls place mem).1
    simp [slotsOf, heldSlots, callSlots, slotsHeld, free, none_open]
  · intro id
    have none_open : callTickets r = [] :=
      List.flatMap_eq_nil_iff.mpr fun place mem => (calls place mem).2
    simp [ticketsOf, heldTickets, ticketsHeld, zone, none_open]

lemma nothing_left {limit : Nat} {p : System Addr} (accounted : Accounted limit p)
    (free : ∀ r ∈ p.workers, r.holder.held = false)
    (atEnd : ∀ r ∈ p.workers, ∀ place ∈ r.calls, place.over = true) :
    p.shared.limiter.clients = ∅ ∧ p.shared.limiter.hotZone.active = ∅ := by
  have nothing := fun r mem => owns_nothing (accounted.sound r mem) (free r mem) (atEnd r mem)
  constructor
  · refine AList.ext (List.eq_nil_iff_forall_not_mem.mpr ?_)
    rintro ⟨c, state⟩ mem
    have listed : c ∈ p.shared.limiter.clients.keys := List.mem_map_of_mem mem
    have none_owned : p.shared.limiter.inflight c = 0 :=
      (accounted.slots c).trans ((owned_eq_zero_iff _).mpr fun r mem => (nothing r mem).1 c)
    have positive := accounted.kept.enforced.positive c listed
    omega
  · refine AList.ext (List.eq_nil_iff_forall_not_mem.mpr ?_)
    rintro ⟨id, request⟩ mem
    have listed : id ∈ activeTickets p.shared := List.mem_map_of_mem mem
    have none_owned : (activeTickets p.shared).count id = 0 :=
      (accounted.tickets id).trans ((owned_eq_zero_iff _).mpr fun r mem => (nothing r mem).2 id)
    exact List.count_eq_zero.mp none_owned listed

omit [DecidableEq Addr] in
/-- Tickets that are counted alike. -/
lemma tickets_perm {p : System Addr}
    (tickets : ∀ id, Balanced (fun s => (activeTickets s).count id) (ticketsOf id) p) :
    (activeTickets p.shared).Perm
      (p.workers.flatMap heldTickets ++ p.workers.flatMap callTickets) := by
  rw [List.perm_iff_count]
  intro id
  have counted : ∀ rs : List (Request Addr), owned (ticketsOf id) rs =
      (rs.flatMap heldTickets ++ rs.flatMap callTickets).count id := by
    intro rs
    have summed : ticketsOf id = fun r : Request Addr =>
        (heldTickets r).count id + (callTickets r).count id :=
      funext fun r => List.count_append
    rw [summed, owned_add, List.count_append, List.count_flatMap, List.count_flatMap]
    rfl
  exact (tickets id).trans (counted p.workers)

/-- In enforcing mode and any interleaving of the sections of any number of calls:
a client's slots in use are those of its holders marked held and of its calls between
taking and committing or returning one, within the limit; the active tickets are those
of the holders and calls; `Release` finds a slot to give back; and when every request
has called `ReleaseIfHeld` after its last `TryAcquire` and no call is open, no client
and no ticket is left. -/
theorem limiter_slots_exact (made : newExpensiveRequestLimiter lib numCPU cfg = some l)
    (enforcing : cfg.observeWouldRefuse = false) (events : List (Event Addr)) :
    let p := runFrom lib l events
    (∀ c, p.shared.limiter.inflight c =
      owned (heldSlots c) p.workers + owned (callSlots c) p.workers) ∧
    (∀ c, p.shared.limiter.inflight c ≤ normalizeLimit numCPU cfg.limit) ∧
    p.shared.limiter.hotZone.active.keys.Perm
      (p.workers.flatMap heldTickets ++ p.workers.flatMap callTickets) ∧
    (∀ r ∈ p.workers, ∀ place ∈ r.calls, releasesSlot place = true →
      ∀ c, r.holder.clientIP = some c → 0 < p.shared.limiter.inflight c) ∧
    ((∀ i < p.workers.length, ReleasesLast lib l events i) →
      (∀ r ∈ p.workers, ∀ place ∈ r.calls, place.over = true) →
      p.shared.limiter.clients = ∅ ∧ p.shared.limiter.hotZone.active = ∅) := by
  intro p
  have accounted : Accounted l.limit p := run_accounted made enforcing events
  have limit : l.limit = normalizeLimit numCPU cfg.limit := by
    rw [newExpensiveRequestLimiter] at made
    split at made
    · cases made
    · cases made
      rfl
  refine ⟨?_, ?_, tickets_perm accounted.tickets, ?_, ?_⟩
  · intro c
    exact (accounted.slots c).trans (owned_add (heldSlots c) (callSlots c) p.workers)
  · intro c
    exact limit ▸ accounted.kept.enforced.bound c
  · intro r mem place call releasing c client
    have covered := (accounted.slots c).le mem
    have mine := le_owned slotsAt call
    have one : slotsAt place = 1 := by
      cases place
      all_goals first | rfl | cases releasing
    simp only [slotsOf, heldSlots, callSlots, if_pos client] at covered
    omega
  · intro released atEnd
    refine nothing_left accounted ?_ atEnd
    intro r mem
    obtain ⟨i, at_i⟩ := List.mem_iff_getElem?.mp mem
    have bound : i < p.workers.length := (List.getElem?_eq_some_iff.mp at_i).1
    have releasing := releasing_of_releasesLast made enforcing (released i bound) r at_i
    by_contra held
    -- the pending `takeOff` would be a call that is not over
    have pending := releasing.pending (Bool.not_eq_false _ ▸ held)
    cases atEnd r mem _ pending

end

/-- Two requests of one client at a limit of one: the second is refused and gives its
ticket back, then both release. -/
def contendedClient : List (Event Nat) :=
  let tick : Tick := ⟨second, idleReading⟩
  [.arrive (some 7), .arrive (some 7),
    .tryAcquire 0 .iterative "a." "", .tryAcquire 1 .iterative "b." "",
    .advance 0 0 tick, .advance 1 0 tick, .advance 0 0 tick, .advance 1 0 tick,
    .advance 0 0 tick, .advance 1 0 tick, .advance 0 0 tick, .advance 1 0 tick,
    .releaseIfHeld 0, .releaseIfHeld 1,
    .advance 0 1 tick, .advance 0 1 tick, .advance 0 1 tick, .advance 1 1 tick]

theorem contended_client_leaves_nothing :
    ∃ l : Limiter Nat, newExpensiveRequestLimiter plainZoneLib 1 ⟨.enabled, 1, [], false⟩ = some l ∧
      (runFrom plainZoneLib l contendedClient).shared.limiter.clients = ∅ ∧
      (runFrom plainZoneLib l contendedClient).shared.limiter.hotZone.active = ∅ := by
  let l : Limiter Nat := ⟨1, false, ∅, newHotZoneController plainZoneLib []⟩
  have made : newExpensiveRequestLimiter plainZoneLib 1 ⟨.enabled, 1, [], false⟩ = some l := rfl
  have returned : ∀ n ∈ [12, 13], ∀ r ∈ (runFrom plainZoneLib l (contendedClient.take n)).workers,
      ∀ place ∈ r.calls, acquiring place = false := by
    intro n mem
    have calls : ∀ n ∈ [12, 13], ∀ cs ∈ (runFrom plainZoneLib l
        (contendedClient.take n)).workers.map Request.calls,
        ∀ place ∈ cs, acquiring place = false := by decide +kernel
    exact List.forall_mem_map.mp (calls n mem)
  have atEnd : ∀ cs ∈ (runFrom plainZoneLib l contendedClient).workers.map Request.calls,
      ∀ place ∈ cs, place.over = true := by decide +kernel
  have two : (runFrom plainZoneLib l contendedClient).workers.length = 2 := by decide +kernel
  obtain ⟨_, _, _, _, nothing⟩ := limiter_slots_exact made rfl contendedClient
  refine ⟨l, made, nothing ?_ (List.forall_mem_map.mp atEnd)⟩
  intro i bound
  rw [two] at bound
  rcases (by omega : i = 0 ∨ i = 1) with rfl | rfl
  · refine ⟨contendedClient.take 12, contendedClient.drop 13, rfl, ?_, ?_⟩
    · intro r at_i
      exact returned 12 (by decide) r (List.mem_of_getElem? at_i)
    · simp [contendedClient, NotAcquiring]
  · refine ⟨contendedClient.take 13, contendedClient.drop 14, rfl, ?_, ?_⟩
    · intro r at_i
      exact returned 13 (by decide) r (List.mem_of_getElem? at_i)
    · simp [contendedClient, NotAcquiring]

end LimiterAccounting
