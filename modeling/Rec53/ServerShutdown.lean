import Rec53.ServerInvariants

/-!
# The start of the server completes, and when its shutdown does

Whatever the order of the actions, a server comes to rest after a bounded number of them. At
rest `Run` has returned. `Shutdown` has returned as well, unless a listener came up after it had
been skipped as not started; with one pair of listeners this cannot happen once `Run` has
reported that it serves.
-/

namespace ServerLife

open WorkerPool
open Server (status listen stop finish)

variable {σ : Type} [Server σ]

/-! ### When nothing moves -/

/-- No action of a goroutine changes anything, whatever the outside decides. -/
def Stuck (cfg : Config) (p : System σ) : Prop := ∀ i c, step cfg p (.advance i c) = p

section
variable {cfg : Config} {p : System σ}

lemma Stuck.stays (stuck : Stuck cfg p) {t : Place} (mem : t ∈ p.workers) (c : Choice) :
    (advance cfg c p.shared t).worker = t := by
  obtain ⟨i, at_i⟩ := List.mem_iff_getElem?.mp mem
  exact worker_of_act_eq_self at_i (stuck i c)

/-- The places at which a goroutine always goes on. -/
def Place.ready : Place → Bool
  | .startProbeLoop | .loadAndAttach | .startWarmup | .addListeners | .launch _ | .startCloser
  | .setServing | .notify _ | .warmup | .setShuttingDown | .cancel | .stop _ | .stopPool
  | .detachXDP | .saveSnapshot => true
  | _ => false

lemma advance_ready (cfg : Config) (c : Choice) (s : Shared σ) {t : Place}
    (ready : t.ready = true) :
    (advance cfg c s t).worker ≠ t := by
  cases t with
  | loadAndAttach =>
    simp only [advance, runStep]
    split
    · simp
    split
    · simp
    · simp
  | startWarmup =>
    simp only [advance, runStep]
    split
    · simp
    · simp
  | launch waiting =>
    cases waiting with
    | nil => simp [advance, runStep]
    | cons k waiting => simp [advance, runStep]
  | stop k =>
    simp only [advance, shutdownStep]
    split
    · simp
    split
    · simp
    · simp
  | startProbeLoop | addListeners | startCloser | setServing => simp [advance, runStep]
  | notify => simp [advance, listenerStep]
  | warmup => simp [advance, backgroundStep]
  | setShuttingDown | cancel | stopPool | detachXDP | saveSnapshot => simp [advance, shutdownStep]
  | _ => cases ready

/-- A goroutine of a server that does not move is in its loop, and the server is started. -/
lemma Orderly.stuck_listener (orderly : Orderly cfg p) (stuck : Stuck cfg p) {k : Nat} :
    .listen k ∉ p.workers ∧ .report k ∉ p.workers ∧ .reportStartup k ∉ p.workers ∧
      (.serve k ∈ p.workers →
        ∃ server, p.shared.servers[k]? = some server ∧ (status server).started = true) := by
  refine ⟨fun mem => ?_, fun mem => ?_, fun mem => ?_, fun mem => ?_⟩
  · have stays := stuck.stays mem ⟨true, .udp⟩
    have own := le_owned (Place.binds cfg.pairs k) mem
    have once := orderly.served.binds k
    simp only [Place.binds, if_true] at own
    have within : k < p.shared.servers.length := by
      rw [orderly.served.size]
      split at once <;> omega
    simp [advance, listenerStep, List.getElem?_eq_getElem within] at stays
  · have stays := stuck.stays mem ⟨true, .udp⟩
    obtain ⟨is_open, room⟩ := orderly.report_room mem
    simp [advance, listenerStep, is_open, room] at stays
  · have stays := stuck.stays mem ⟨true, .udp⟩
    simp [advance, listenerStep, orderly.startup_room mem] at stays
  · have stays := stuck.stays mem ⟨true, .udp⟩
    have in_loop := (orderly.served.serves k).le mem
    simp only [Place.serves, if_true, Shared.inLoop] at in_loop
    cases at_k : p.shared.servers[k]? with
    | none => simp [at_k] at in_loop
    | some server =>
      refine ⟨server, rfl, ?_⟩
      by_contra down
      simp [advance, listenerStep, at_k, down] at stays

lemma Stuck.not_ready (stuck : Stuck cfg p) {t : Place} (mem : t ∈ p.workers) :
    t.ready = false := by
  rw [Bool.eq_false_iff]
  intro ready
  exact advance_ready cfg ⟨true, .udp⟩ p.shared ready (stuck.stays mem _)

/-- Nobody will listen any more. -/
lemma Orderly.stuck_binds (orderly : Orderly cfg p) (stuck : Stuck cfg p) (k : Nat) :
    owned (Place.binds cfg.pairs k) p.workers = 0 := by
  refine (owned_eq_zero_iff _).mpr fun t mem => ?_
  have not_ready := stuck.not_ready mem
  cases t with
  | listen j => exact absurd mem (orderly.stuck_listener stuck).1
  | startProbeLoop | loadAndAttach | startWarmup | addListeners | launch => cases not_ready
  | _ => rfl

lemma pairs_pos (cfg : Config) : 0 < cfg.pairs := by
  rw [Config.pairs]
  split <;> omega

/-- The first server is one for UDP, and the first after those one for TCP. -/
lemma Served.first_servers (served : Served cfg p) :
    (∃ server, p.shared.servers[0]? = some server ∧ (status server).proto = .udp) ∧
      ∃ server, p.shared.servers[cfg.pairs]? = some server ∧ (status server).proto = .tcp := by
  have positive := pairs_pos cfg
  have at_index (k : Nat) : (p.shared.servers[k]?).map Server.proto =
      ((newServers σ cfg.pairs)[k]?).map Server.proto := by
    rw [← List.getElem?_map, served.protos, List.getElem?_map]
  constructor
  · have first := at_index 0
    rw [newServers, List.getElem?_append_left (by simpa using positive),
      List.getElem?_replicate_of_lt positive, Option.map_some, Server.proto_make] at first
    exact Option.map_eq_some_iff.mp first
  · have first := at_index cfg.pairs
    rw [newServers, List.getElem?_append_right (by simp)] at first
    simp only [List.length_replicate, Nat.sub_self, List.getElem?_replicate_of_lt positive,
      Option.map_some, Server.proto_make] at first
    exact Option.map_eq_some_iff.mp first

/-- `Run` does not wait for ever: every server that listens makes an address known, and every
other one sends an error. -/
lemma Orderly.stuck_await (orderly : Orderly cfg p) (stuck : Stuck cfg p) {udp tcp : Bool} :
    .await udp tcp ∉ p.workers := by
  intro mem
  have waiting : (!udp && !tcp) = false := by
    rw [Bool.eq_false_iff]
    intro both
    have stays := stuck.stays mem ⟨true, .udp⟩
    simp [advance, runStep, both] at stays
  have unsent : p.shared.startupErr = [] := by
    have stays := stuck.stays mem ⟨true, .failed⟩
    cases chan : p.shared.startupErr with
    | nil => rfl
    | cons k rest => simp [advance, runStep, waiting, chan] at stays
  have known (k : Nat) (server : σ) (at_k : p.shared.servers[k]? = some server) :
      (p.shared.addr (status server).proto).isSome = true := by
    have within : k < 2 * cfg.pairs := by
      rw [← orderly.served.size]
      exact (List.getElem?_eq_some_iff.mp at_k).1
    obtain ⟨_, reports, reportsStartup, _⟩ := orderly.stuck_listener stuck (k := k)
    rcases orderly.settles k within with has | report | startup | sent | failed
    · rw [orderly.stuck_binds stuck, Shared.conn, at_k] at has
      have conn : (status server).conn = true := by
        cases conn : (status server).conn with
        | true => rfl
        | false => simp [conn] at has
      rcases orderly.announced k server at_k conn with notifies | set
      · cases stuck.not_ready notifies
      · exact set
    · exact absurd report reports
    · exact absurd startup reportsStartup
    · rw [unsent] at sent
      cases sent
    · have two := le_owned_two Place.runs mem failed (by simp)
      have one : 1 = owned Place.runs p.workers := orderly.counted.run
      have each : (Place.await udp tcp).runs = 1 ∧ (Place.ran false).runs = 1 := ⟨rfl, rfl⟩
      rw [each.1, each.2] at two
      omega
  obtain ⟨⟨server, at_k, isUdp⟩, server', at_k', isTcp⟩ := orderly.served.first_servers
  have udpSet : p.shared.udpAddr.isSome = true := by
    have set := known _ server at_k
    rw [isUdp] at set
    exact set
  have tcpSet : p.shared.tcpAddr.isSome = true := by
    have set := known _ server' at_k'
    rw [isTcp] at set
    exact set
  cases udp with
  | true =>
    have stays := stuck.stays mem ⟨true, .udp⟩
    simp [advance, runStep, udpSet] at stays
  | false =>
    cases tcp with
    | true =>
      have stays := stuck.stays mem ⟨true, .tcp⟩
      simp [advance, runStep, tcpSet] at stays
    | false => cases waiting

lemma Orderly.stuck_ran (orderly : Orderly cfg p) (stuck : Stuck cfg p) :
    ∃ serving, .ran serving ∈ p.workers := by
  have one : 1 = owned Place.runs p.workers := orderly.counted.run
  obtain ⟨t, mem, runs⟩ := exists_owner Place.runs (show owned Place.runs p.workers ≠ 0 by omega)
  have not_ready := stuck.not_ready mem
  cases t with
  | ran serving => exact ⟨serving, mem⟩
  | await => exact absurd mem (orderly.stuck_await stuck)
  | startProbeLoop | loadAndAttach | startWarmup | addListeners | launch | startCloser
  | setServing => cases not_ready
  | _ => exact absurd rfl runs

/-- `Shutdown` does not wait for ever for a server that it has told to stop. -/
lemma Orderly.stuck_stopping (orderly : Orderly cfg p) (stuck : Stuck cfg p) {k : Nat} :
    .stopping k ∉ p.workers := by
  intro mem
  obtain ⟨server, at_k, conn, down⟩ := orderly.halted k mem
  have stays := stuck.stays mem ⟨true, .udp⟩
  cases finished : (status server).finished with
  | true => simp [advance, shutdownStep, at_k, finished] at stays
  | false =>
    have running : p.shared.inLoop k = owned (Place.serves k) p.workers := orderly.served.serves k
    simp only [Shared.inLoop, at_k, conn, finished, Bool.not_false, Bool.and_true,
      Bool.toNat_true] at running
    obtain ⟨t, mem', serves⟩ := exists_owner (Place.serves k)
      (show owned (Place.serves k) p.workers ≠ 0 by omega)
    have not_ready := stuck.not_ready mem'
    cases t with
    | notify => cases not_ready
    | serve j =>
      have here : j = k := by
        by_contra other
        simp [Place.serves, other] at serves
      subst here
      obtain ⟨server', at_k', up⟩ := (orderly.stuck_listener stuck).2.2.2 mem'
      cases at_k.symm.trans at_k'
      rw [down] at up
      cases up
    | _ => exact absurd rfl serves

/-- The probe loop ends when it is cancelled. -/
lemma Orderly.stuck_probe (orderly : Orderly cfg p) (stuck : Stuck cfg p)
    (cancelled : p.shared.poolCancelled = true) : .probe ∉ p.workers := by
  intro mem
  have counted := orderly.counted.pool.le mem
  have stays := stuck.stays mem ⟨true, .udp⟩
  have running : p.shared.poolWg ≠ 0 := Nat.ne_of_gt counted
  simp [advance, backgroundStep, cancelled, running] at stays

lemma Orderly.stuck_waitPool (orderly : Orderly cfg p) (stuck : Stuck cfg p) :
    .waitPool ∉ p.workers := by
  intro mem
  have cancelled := (orderly.placed _ mem).2.2
  have stays := stuck.stays mem ⟨true, .udp⟩
  have running : p.shared.poolWg ≠ 0 := by
    intro nobody
    simp [advance, shutdownStep, nobody] at stays
  have pool : p.shared.poolWg = owned Place.pooled p.workers := orderly.counted.pool
  rw [pool] at running
  obtain ⟨t, mem', pooled⟩ := exists_owner Place.pooled running
  cases t with
  | probe => exact orderly.stuck_probe stuck cancelled mem'
  | _ => exact absurd rfl pooled

/-- A goroutine of the group that does not move serves a server that `Shutdown` has skipped. -/
lemma Orderly.stuck_group (orderly : Orderly cfg p) (stuck : Stuck cfg p)
    (waits : .waitGroup ∈ p.workers) :
    ∃ k server, .serve k ∈ p.workers ∧ p.shared.servers[k]? = some server ∧
      (status server).started = true ∧ .notStarted k ∈ p.shared.errs := by
  have cancelled := (orderly.placed _ waits).2
  have counted : p.shared.wg ≠ 0 := by
    intro nobody
    have stays := stuck.stays waits ⟨true, .udp⟩
    simp [advance, shutdownStep, nobody] at stays
  have group : p.shared.wg = owned Place.counted p.workers := orderly.counted.wg
  obtain ⟨t, mem, part⟩ := exists_owner Place.counted (group ▸ counted)
  have not_ready := stuck.not_ready mem
  have stays := stuck.stays mem ⟨true, .udp⟩
  cases t with
  | serve k =>
    obtain ⟨server, at_k, up⟩ := (orderly.stuck_listener stuck).2.2.2 mem
    exact ⟨k, server, mem, at_k, up,
      orderly.visited _ waits k trivial (.inl ⟨server, at_k, up⟩)⟩
  | listen => exact absurd mem (orderly.stuck_listener stuck).1
  | report => exact absurd mem (orderly.stuck_listener stuck).2.1
  | reportStartup => exact absurd mem (orderly.stuck_listener stuck).2.2.1
  | xdpLoop => simp [advance, backgroundStep, cancelled] at stays
  | done => simp [advance, backgroundStep, Shared.finish, counted] at stays
  | launch | notify | warmup => cases not_ready
  | _ => exact absurd rfl part

/-- The goroutine has come to its end, or the call has returned. -/
def Place.over : Place → Prop
  | .ran _ | .stopped | .ended => True
  | _ => False

lemma Orderly.stuck_stopped (orderly : Orderly cfg p) (stuck : Stuck cfg p)
    (stopped : .stopped ∈ p.workers) :
    (∀ t ∈ p.workers, t.over) ∧ p.shared.errClosed = true := by
  obtain ⟨called, cancelled, _⟩ := orderly.placed _ stopped
  have idle := orderly.quiet (.inr (.inr ⟨_, stopped, rfl⟩))
  have nobody : p.shared.wg = 0 :=
    orderly.counted.wg.trans ((owned_eq_zero_iff _).mpr fun t mem => (idle t mem).counted)
  have all_over : ∀ t ∈ p.workers, t.over := by
    intro t mem
    have not_ready := stuck.not_ready mem
    have stays := stuck.stays mem ⟨true, .udp⟩
    obtain ⟨counted, late⟩ := idle t mem
    cases t with
    | ran | stopped | ended => trivial
    | await => exact absurd mem (orderly.stuck_await stuck)
    | probe => exact absurd mem (orderly.stuck_probe stuck cancelled)
    | waitAll => simp [advance, backgroundStep, nobody] at stays
    | closeErrChan =>
      have closes : 1 ≤ p.shared.unclosed := orderly.counted.closer.le mem
      have is_open : p.shared.errClosed = false := by
        rw [Bool.eq_false_iff]
        intro closed
        rw [Shared.unclosed, closed] at closes
        cases closes
      simp [advance, backgroundStep, is_open] at stays
    | stopping => exact absurd mem (orderly.stuck_stopping stuck)
    | waitPool => exact absurd mem (orderly.stuck_waitPool stuck)
    | waitGroup =>
      obtain ⟨k, _, serves, _⟩ := orderly.stuck_group stuck mem
      cases (idle _ serves).counted
    | startProbeLoop | loadAndAttach | startWarmup | addListeners | launch | startCloser =>
      cases late
    | listen | notify | serve | report | reportStartup | warmup | xdpLoop | done => cases counted
    | setServing | setShuttingDown | cancel | stop | stopPool | detachXDP | saveSnapshot =>
      cases not_ready
  refine ⟨all_over, ?_⟩
  have unclosed : p.shared.unclosed = 0 := by
    refine orderly.counted.closer.trans ((owned_eq_zero_iff _).mpr fun t mem => ?_)
    have ended := all_over t mem
    cases t with
    | ran | stopped | ended => rfl
    | _ => cases ended
  simpa [Shared.unclosed] using unclosed

/-- Where a call of `Shutdown` stands when nothing moves. -/
lemma Orderly.stuck_called (orderly : Orderly cfg p) (stuck : Stuck cfg p)
    (called : p.shared.called = true) : .stopped ∈ p.workers ∨ .waitGroup ∈ p.workers := by
  have one : p.shared.called.toNat = owned Place.shuts p.workers := orderly.counted.shutdown
  rw [called] at one
  obtain ⟨t, mem, shuts⟩ := exists_owner Place.shuts
    (show owned Place.shuts p.workers ≠ 0 by rw [← one]; decide)
  have not_ready := stuck.not_ready mem
  cases t with
  | stopped => exact .inl mem
  | waitGroup => exact .inr mem
  | stopping => exact absurd mem (orderly.stuck_stopping stuck)
  | waitPool => exact absurd mem (orderly.stuck_waitPool stuck)
  | setShuttingDown | cancel | stop | stopPool | detachXDP | saveSnapshot => cases not_ready
  | _ => exact absurd rfl shuts

end

/-! ### How long it can go on -/

/-- The actions a goroutine can still take, with those of the goroutines it will start. -/
def actionsLeft (n : Nat) : Place → Nat
  | .startProbeLoop => 14 * n + 19
  | .loadAndAttach => 14 * n + 17
  | .startWarmup => 14 * n + 12
  | .addListeners => 14 * n + 9
  | .launch waiting => 7 * waiting.length + 8
  | .startCloser => 7
  | .await udp tcp => 2 + udp.toNat + tcp.toNat
  | .setServing => 1
  | .listen _ => 6
  | .notify _ => 5
  | .serve _ => 4
  | .report _ => 3
  | .reportStartup _ => 2
  | .warmup | .xdpLoop => 2
  | .done => 1
  | .probe => 1
  | .waitAll => 2
  | .closeErrChan => 1
  | .setShuttingDown => 4 * n + 8
  | .cancel => 4 * n + 7
  | .stop k => 2 * (2 * n - k) + 6
  | .stopping k => 2 * (2 * n - k) + 5
  | .waitGroup => 5
  | .stopPool => 4
  | .waitPool => 3
  | .detachXDP => 2
  | .saveSnapshot => 1
  | .ran _ | .stopped | .ended => 0

section
variable {cfg : Config}

lemma Acts.lowers {s : Shared σ} {place : Place} {a : Acted (Shared σ) Place}
    (acts : Acts cfg s place a)
    (calm : a.shared.panicked = false) (size : s.servers.length = 2 * cfg.pairs)
    (known : ∀ k, place = .stopping k → k < 2 * cfg.pairs) :
    a = ⟨s, place, []⟩ ∨
      actionsLeft cfg.pairs a.worker + owned (actionsLeft cfg.pairs) a.started <
        actionsLeft cfg.pairs place := by
  have within {k : Nat} {server : σ} (at_k : s.servers[k]? = some server) :
      k < 2 * cfg.pairs := size ▸ (List.getElem?_eq_some_iff.mp at_k).1
  cases acts with
  | rest => exact .inl rfl
  | reportedLate | finishedTwice | probeTwice | closedTwice => cases calm
  | listenersAdded =>
    right
    simp only [actionsLeft, launchOrder_length, owned_nil]
    omega
  | startFailed =>
    right
    simp only [actionsLeft, owned_nil]
    omega
  | stopBegun at_k | stopSkipped at_k =>
    right
    have less := within at_k
    simp only [actionsLeft, owned_nil]
    omega
  | stopExpired | stopEnded =>
    right
    have less := known _ rfl
    simp only [actionsLeft, owned_nil]
    omega
  | _ =>
    right
    simp [actionsLeft]
    try omega

lemma Acts.expired {s : Shared σ} {place : Place} {a : Acted (Shared σ) Place}
    (acts : Acts cfg s place a) : a.shared.expired = s.expired := by
  cases acts with
  | _ => rfl

/-- All that can still happen to the server. -/
def eventsLeft (cfg : Config) (p : System σ) : Nat :=
  owned (actionsLeft cfg.pairs) p.workers + (!p.shared.called).toNat * (4 * cfg.pairs + 9) +
    (!p.shared.expired).toNat

lemma act_lowers {p : System σ} {i : Nat} {f : Shared σ → Place → Acted (Shared σ) Place}
    (acts : ∀ t, Acts cfg p.shared t (f p.shared t)) (orderly : Orderly cfg p) :
    p.act i f = p ∨ eventsLeft cfg (p.act i f) < eventsLeft cfg p := by
  have spent := act_spends (p := p) (i := i) (f := f) (w := actionsLeft cfg.pairs)
    (fun s => (!s.called).toNat * (4 * cfg.pairs + 9) + (!s.expired).toNat) fun t mem => by
      have known (k : Nat) (is : t = .stopping k) : k < 2 * cfg.pairs := by
        obtain ⟨server, at_k, _⟩ := orderly.halted k (is ▸ mem)
        exact orderly.served.size ▸ (List.getElem?_eq_some_iff.mp at_k).1
      rcases (acts t).lowers ((acts t).calm orderly mem) orderly.served.size known with
        blocked | lower
      · exact .inl blocked
      · right
        rw [(acts t).called, (acts t).expired]
        omega
  refine spent.imp_right fun lower => ?_
  rw [eventsLeft, eventsLeft]
  omega

theorem step_lowers (p : System σ) (e : Event) (orderly : Orderly cfg p) :
    step cfg p e = p ∨ eventsLeft cfg (step cfg p e) < eventsLeft cfg p := by
  cases e with
  | advance i c => exact act_lowers (advance_acts cfg c p.shared) orderly
  | crash i => exact act_lowers (crash_acts cfg p.shared) orderly
  | shutdown =>
    rw [step, callShutdown]
    split
    · split
      · exact .inl rfl
      · rename_i fresh
        right
        rw [Bool.not_eq_true] at fresh
        simp only [eventsLeft, startShutdown, owned_append, owned_cons, owned_nil, actionsLeft,
          fresh, Bool.not_true, Bool.not_false, Bool.toNat_true, Bool.toNat_false]
        omega
    · exact .inl rfl
  | expire =>
    cases expired : p.shared.expired with
    | true =>
      left
      obtain ⟨s, workers⟩ := p
      obtain ⟨_⟩ := s
      cases expired
      rfl
    | false =>
      right
      simp [eventsLeft, step, expired]

end

/-! ### A server whose address is known -/

/-- The address that is known for a protocol is that of a server that has listened. -/
def Named (s : Shared σ) : Prop :=
  ∀ proto k, s.addr proto = some k →
    ∃ server, s.servers[k]? = some server ∧ (status server).conn = true ∧
      (status server).proto = proto

/-- When `Run` has reported that it serves, `Shutdown` stops each server whose address is
known. -/
def Heeded (p : System σ) : Prop :=
  .ran true ∈ p.workers → ∀ proto k, p.shared.addr proto = some k → ∀ t ∈ p.workers, t.past k →
    ∀ server, p.shared.servers[k]? = some server → (status server).started = false

section
variable {cfg : Config} {s : Shared σ} {place : Place} {a : Acted (Shared σ) Place}

/-- A server that has listened keeps its connection and its protocol. -/
lemma Acts.keeps_conn (acts : Acts cfg s place a) {k : Nat} {server : σ}
    (at_k : s.servers[k]? = some server) (conn : (status server).conn = true) :
    ∃ server', a.shared.servers[k]? = some server' ∧ (status server').conn = true ∧
      (status server').proto = (status server).proto := by
  have set_conn {j : Nat} {old new : σ} (at_j : s.servers[j]? = some old)
      (conn' : (status old).conn = true → (status new).conn = true)
      (proto : (status new).proto = (status old).proto) :
      ∃ server', (s.setServer j new).servers[k]? = some server' ∧ (status server').conn = true ∧
        (status server').proto = (status server).proto := by
    by_cases here : j = k
    · subst here
      cases at_k.symm.trans at_j
      exact ⟨new, servers_setServer_self at_j new, conn' conn, proto⟩
    · exact ⟨server, (servers_setServer_ne here new).trans at_k, conn, rfl⟩
  cases acts with
  | listening at_j => exact set_conn at_j (by simp) (by simp)
  | serveEnded at_j | serveFailed at_j | stopBegun at_j => exact set_conn at_j (by simp) (by simp)
  | _ => exact ⟨server, at_k, conn, rfl⟩

/-- An address becomes known by the goroutine of the server, while no other is. -/
lemma Acts.names (acts : Acts cfg s place a) {proto : Proto} {k : Nat}
    (known : a.shared.addr proto = some k) :
    s.addr proto = some k ∨ (s.addr proto = none ∧
      ∃ server, a.shared.servers[k]? = some server ∧ (status server).conn = true ∧
        (status server).proto = proto) := by
  have announced {proto : Proto} {j : Nat} {addr addr' : Option Nat}
      (announced : Announced proto s.servers j addr addr') (known : addr' = some k) :
      addr = some k ∨ (addr = none ∧
        ∃ server, s.servers[k]? = some server ∧ (status server).conn = true ∧
          (status server).proto = proto) := by
    cases announced with
    | same => exact .inl known
    | first at_j conn is =>
      cases known
      exact .inr ⟨rfl, _, at_j, conn, is⟩
  cases acts with
  | notified udpIs tcpIs =>
    cases proto with
    | udp => exact announced udpIs known
    | tcp => exact announced tcpIs known
  | _ => exact .inl (by cases proto <;> exact known)

lemma Acts.named (acts : Acts cfg s place a) (named : Named s) : Named a.shared := by
  intro proto k known
  rcases acts.names known with old | ⟨_, new⟩
  · obtain ⟨server, at_k, conn, is⟩ := named proto k old
    obtain ⟨server', at_k', conn', same⟩ := acts.keeps_conn at_k conn
    exact ⟨server', at_k', conn', same.trans is⟩
  · exact new

/-- `Shutdown` comes past a server by telling it to stop, or by finding it not started. -/
lemma Acts.passes (acts : Acts cfg s place a) {k : Nat} {server : σ}
    (at_k : s.servers[k]? = some server) (past : a.worker.past k) :
    place.past k ∨ (status server).started = false ∨
      a.shared.servers[k]? = some (stop server) := by
  cases acts with
  | rest => exact .inl past
  | cancelled => exact absurd past (Nat.not_lt_zero k)
  | allStopped beyond =>
    left
    exact Nat.lt_of_lt_of_le (List.getElem?_eq_some_iff.mp at_k).1
      (List.getElem?_eq_none_iff.mp beyond)
  | stopBegun at_j =>
    rcases Nat.lt_or_eq_of_le past with less | rfl
    · exact .inl less
    · cases at_k.symm.trans at_j
      exact .inr (.inr (servers_setServer_self at_j _))
  | stopSkipped at_j down =>
    rcases Nat.lt_or_eq_of_le (Nat.le_of_lt_succ past) with less | rfl
    · exact .inl less
    · cases at_k.symm.trans at_j
      exact .inr (.inl down)
  | stopExpired | stopEnded => exact .inl (Nat.le_of_lt_succ past)
  | groupWaited | poolStopped | poolExpired | poolWaited | detached | snapshotSaved =>
    exact .inl trivial
  | _ => exact past.elim

/-- `Run` reports that it serves when it has both addresses. -/
lemma Acts.reports_serving (acts : Acts cfg s place a) :
    (a.worker = .ran true → place = .ran true ∨ place = .setServing) ∧
      ∀ new ∈ a.started, new ≠ .ran true := by
  cases acts with
  | rest => exact ⟨.inl, by simp⟩
  | servingSet => exact ⟨fun _ => .inr rfl, by simp⟩
  | _ => simp

end

section
variable {cfg : Config} {p : System σ} {i : Nat} {f : Shared σ → Place → Acted (Shared σ) Place}

/-- Nobody is past a server before `Shutdown` is called. -/
lemma Orderly.called_of_past (orderly : Orderly cfg p) {t : Place} (mem : t ∈ p.workers) {k : Nat}
    (past : t.past k) : p.shared.called = true := by
  have placed := orderly.placed t mem
  cases t with
  | stop | stopping | waitGroup | stopPool | waitPool | detachXDP | saveSnapshot | stopped =>
    exact placed.1
  | _ => exact past.elim

/-- When `Shutdown` has been called, `Run` has reported before. -/
lemma Orderly.ran_of_called (orderly : Orderly cfg p)
    (acts : ∀ t, Acts cfg p.shared t (f p.shared t)) (called : p.shared.called = true)
    (ran : .ran true ∈ (p.act i f).workers) : .ran true ∈ p.workers := by
  rcases mem_act ran with old | ⟨t, mem, _, is | new⟩
  · exact old
  · rcases (acts t).reports_serving.1 is.symm with rfl | rfl
    · exact mem
    · cases orderly.returned called _ mem
  · exact absurd rfl ((acts t).reports_serving.2 _ new)

lemma act_heeded (acts : ∀ t, Acts cfg p.shared t (f p.shared t)) (orderly : Orderly cfg p)
    (named : Named p.shared) (heeded : Heeded p) : Heeded (p.act i f) := by
  intro ran proto k known t' mem' past server at_k
  have later := (act_orderly acts orderly).called_of_past mem' past
  cases at_i : p.workers[i]? with
  | none =>
    rw [Pool.act, at_i] at ran known mem' at_k
    exact heeded ran proto k known t' mem' past server at_k
  | some t =>
    have mem : t ∈ p.workers := List.mem_of_getElem? at_i
    have acted := acts t
    rw [shared_act f at_i] at known at_k later
    have reported := orderly.ran_of_called acts (acted.called.symm.trans later) ran
    have known_before : p.shared.addr proto = some k := by
      rcases acted.names known with old | ⟨unset, _⟩
      · exact old
      · obtain ⟨udp, tcp⟩ := orderly.placed _ reported
        cases proto with
        | udp =>
          rw [show p.shared.udpAddr = none from unset] at udp
          cases udp
        | tcp =>
          rw [show p.shared.tcpAddr = none from unset] at tcp
          cases tcp
    obtain ⟨server₀, at_k₀, conn, _⟩ := named proto k known_before
    have nobody := orderly.served.no_binder at_k₀ conn
    have own := le_owned (Place.binds cfg.pairs k) mem
    have stays (down : (status server₀).started = false) : (status server).started = false := by
      obtain ⟨server', at_k', _, down'⟩ := acted.keeps_halted (by omega) at_k₀ conn down
      cases at_k.symm.trans at_k'
      exact down'
    rcases mem_act mem' with old | ⟨t₁, mem₁, at_i₁, is | new⟩
    · exact stays (heeded reported proto k known_before t' old past server₀ at_k₀)
    · cases at_i.symm.trans at_i₁
      subst is
      rcases acted.passes at_k₀ past with before | down | stopped
      · exact stays (heeded reported proto k known_before t mem before server₀ at_k₀)
      · exact stays down
      · cases at_k.symm.trans stopped
        simp
    · cases at_i.symm.trans at_i₁
      exact absurd past ((apart_of_starting (acted.starting _ new)).2.2.1 k)

end

/-- The server in order, with its addresses. -/
structure Attended (cfg : Config) (p : System σ) : Prop where
  orderly : Orderly cfg p
  named : Named p.shared
  heeded : Heeded p

theorem step_attended {cfg : Config} (p : System σ) (e : Event) (attended : Attended cfg p) :
    Attended cfg (step cfg p e) := by
  refine step_keeps ?_ ?_ ?_ p e attended
  · rintro p i f acts ⟨orderly, named, heeded⟩
    refine ⟨act_orderly acts orderly, ?_, act_heeded acts orderly named heeded⟩
    exact act_shared (fun t _ => (acts t).named named) named
  · rintro p serving ran fresh ⟨orderly, named, heeded⟩
    refine ⟨call_orderly ran fresh orderly, named, ?_⟩
    intro reported proto k known t mem past
    rcases List.mem_append.mp mem with old | new
    · have called := orderly.called_of_past old past
      rw [fresh] at called
      cases called
    · rw [List.mem_singleton.mp new] at past
      exact past.elim
  · rintro p ⟨orderly, named, heeded⟩
    exact ⟨step_orderly p .expire orderly, named, heeded⟩

theorem reachable_attended (cfg : Config) (events : List Event) :
    Attended cfg (StepRuns.run (step cfg) (run σ cfg) events) := by
  refine StepRuns.run_preserves (step cfg) step_attended ⟨run_orderly cfg, ?_, ?_⟩ events
  · intro proto k known
    cases proto with
    | udp | tcp => cases known
  · intro reported
    simp [run] at reported

/-! ### Whole runs -/

/-- In every interleaving: nothing panics; a listener that fails finds `errChan` open and room
in both channels; whoever has seen the group empty (the goroutine that closes `errChan`, and
`Shutdown`) finds its goroutines gone; when `Run` reports that it serves, a listener of each
protocol had come up by then and its address is known (it may have failed since), and when it
reports a failure there is an error on `errChan`. -/
theorem server_runs_in_order (σ : Type) [Server σ] (cfg : Config) (events : List Event) :
    let p := StepRuns.run (step cfg) (run σ cfg) events
    p.shared.panicked = false ∧
    (∀ k, .report k ∈ p.workers →
      p.shared.errClosed = false ∧ p.shared.errChan.length < p.shared.capacity) ∧
    (∀ k, .reportStartup k ∈ p.workers → p.shared.startupErr.length < p.shared.capacity) ∧
    (SeenEmpty p → ∀ t ∈ p.workers, t.counted = 0) ∧
    (.ran true ∈ p.workers → ∀ proto, ∃ k server, p.shared.addr proto = some k ∧
      p.shared.servers[k]? = some server ∧ (status server).conn = true ∧
      (status server).proto = proto) ∧
    (.ran false ∈ p.workers → p.shared.errChan ≠ []) := by
  intro p
  obtain ⟨orderly, named, _⟩ : Attended cfg p := reachable_attended cfg events
  refine ⟨orderly.calm, ?_, ?_, ?_, ?_, ?_⟩
  · intro k reports
    exact orderly.report_room reports
  · intro k reports
    exact orderly.startup_room reports
  · intro seen t mem
    exact (orderly.quiet seen t mem).counted
  · intro ran proto
    have set : (p.shared.addr proto).isSome = true := by
      obtain ⟨udp, tcp⟩ := orderly.placed _ ran
      cases proto with
      | udp => exact udp
      | tcp => exact tcp
    obtain ⟨k, known⟩ := Option.isSome_iff_exists.mp set
    obtain ⟨server, listens⟩ := named proto k known
    exact ⟨k, server, known, listens⟩
  · intro failed
    exact orderly.placed _ failed

/-- `n` actions of one goroutine, whose attempts succeed. -/
def goes (i n : Nat) : List Event := List.replicate n (.advance i ⟨true, .udp⟩)

def onePair : Config := ⟨1, false, false, true⟩

/-- One pair of listeners: goroutine 2 serves UDP, goroutine 3 TCP. The first cannot listen, and
`Run` reports it; `Shutdown` is goroutine 5. -/
def failedStart : List Event :=
  goes 0 8 ++ [.advance 2 ⟨false, .udp⟩] ++ goes 2 3 ++ goes 3 2 ++ [.advance 0 ⟨true, .failed⟩] ++
    .shutdown :: (goes 5 4 ++ goes 3 2 ++ goes 5 3)

/-- `Run` with one pair of listeners, both of which have listened when it reports. -/
def startUp : List Event :=
  goes 0 8 ++ goes 2 2 ++ goes 3 2 ++ [.advance 0 ⟨true, .udp⟩, .advance 0 ⟨true, .tcp⟩] ++ goes 0 2

/-- The failure on its way, `Shutdown` past its wait, and a start that succeeds. -/
theorem server_runs_in_order_one_pair :
    let p (n : Nat) := StepRuns.run (step onePair) (run Status onePair) (failedStart.take n)
    let q := StepRuns.run (step onePair) (run Status onePair) startUp
    (p 9).shared.errChan.length < (p 9).shared.capacity ∧
      (p 10).shared.startupErr.length < (p 10).shared.capacity ∧
      (∀ t ∈ (p 25).workers, t.counted = 0) ∧ (p 25).shared.errChan ≠ [] ∧
      ∃ k server, q.shared.udpAddr = some k ∧ q.shared.servers[k]? = some server ∧
        (status server).conn = true ∧ (status server).proto = .udp := by
  have order (n : Nat) := server_runs_in_order Status onePair (failedStart.take n)
  have up := server_runs_in_order Status onePair startUp
  refine ⟨((order 9).2.1 0 (by decide +kernel)).2, (order 10).2.2.1 0 (by decide +kernel),
    ?_, ?_, ?_⟩
  · exact (order 25).2.2.2.1 (.inr (.inr ⟨.stopPool, by decide +kernel, rfl⟩))
  · exact (order 25).2.2.2.2.2 (by decide +kernel)
  · exact up.2.2.2.2.1 (by decide +kernel) .udp

/-- Of the events of any run, `Shutdown` and the end of its context included, at most
`18 n + 29` change anything, where `n` is the number of pairs of listeners. When nothing moves
any more, `Run` has returned; a call of `Shutdown` has then returned too, with every goroutine
ended, `errChan` closed, XDP detached and the snapshot written as configured, or else it waits
for a listener that began to serve after the call had found it not started. -/
theorem shutdown_comes_to_rest (σ : Type) [Server σ] (cfg : Config) (events : List Event) :
    let p := StepRuns.run (step cfg) (run σ cfg) events
    (StepRuns.Along (step cfg) (fun p e => step cfg p e ≠ p) (run σ cfg) events →
      events.length ≤ 18 * cfg.pairs + 29) ∧
    (Stuck cfg p → (∃ serving, .ran serving ∈ p.workers) ∧ (p.shared.called = true →
      (.stopped ∈ p.workers ∧ (∀ t ∈ p.workers, t.over) ∧ p.shared.errClosed = true ∧
        p.shared.xdpMap = false ∧ p.shared.saved = cfg.snapshot) ∨
      (.waitGroup ∈ p.workers ∧ ∃ k server, .serve k ∈ p.workers ∧
        p.shared.servers[k]? = some server ∧ (status server).started = true ∧
        .notStarted k ∈ p.shared.errs))) := by
  intro p
  refine ⟨?_, ?_⟩
  · intro moves
    have bounded := StepRuns.length_le_of_moves (step cfg) (P := Orderly cfg) (μ := eventsLeft cfg)
      step_orderly step_lowers (run_orderly cfg) moves
    have budget : eventsLeft cfg (run σ cfg) = 18 * cfg.pairs + 29 := by
      simp only [eventsLeft, run, owned_cons, owned_nil, actionsLeft, Bool.not_false,
        Bool.toNat_true]
      omega
    omega
  · intro stuck
    have orderly : Orderly cfg p := reachable_orderly cfg events
    refine ⟨orderly.stuck_ran stuck, fun called => ?_⟩
    rcases orderly.stuck_called stuck called with stopped | waits
    · obtain ⟨all_over, closed⟩ := orderly.stuck_stopped stuck stopped
      obtain ⟨_, _, detached, saved⟩ := orderly.placed _ stopped
      exact .inl ⟨stopped, all_over, closed, detached, saved⟩
    · exact .inr ⟨waits, orderly.stuck_group stuck waits⟩

def twoPairs : Config := ⟨2, false, false, true⟩

/-- Two pairs of listeners: `Run` has reported when the first has listened (goroutines 2 and 3),
and the second (goroutines 4 and 5) listens only after `Shutdown`, which is goroutine 7, has
found it not started. -/
def lateListener : List Event :=
  goes 0 10 ++ goes 2 2 ++ goes 3 2 ++ [.advance 0 ⟨true, .udp⟩, .advance 0 ⟨true, .tcp⟩] ++
    goes 0 2 ++
    .shutdown :: (goes 7 3 ++ goes 2 2 ++ goes 7 3 ++ goes 3 2 ++ goes 7 3 ++ goes 4 2 ++ goes 5 2)

/-- The first event of a run, and the end of one in which `Shutdown` never returns. -/
theorem shutdown_comes_to_rest_late_listener :
    (goes 0 1).length ≤ 18 * twoPairs.pairs + 29 ∧
      let p := StepRuns.run (step twoPairs) (run Status twoPairs) lateListener
      p.shared.called = true ∧ .waitGroup ∈ p.workers ∧
        ∃ k server, .serve k ∈ p.workers ∧ p.shared.servers[k]? = some server ∧
          (status server).started = true ∧ .notStarted k ∈ p.shared.errs := by
  have last : StepRuns.run (step twoPairs) (run Status twoPairs) lateListener =
      ⟨⟨[⟨.udp, true, false, true⟩, ⟨.udp, true, true, false⟩, ⟨.tcp, true, false, true⟩,
          ⟨.tcp, true, true, false⟩],
        2, 1, 4, [], false, [], some 0, some 2, false, false, true, false, true, false,
        [.notStarted 1, .notStarted 3], false, false⟩,
      [.ran true, .probe, .ended, .ended, .serve 1, .serve 3, .waitAll, .waitGroup]⟩ := rfl
  have stuck :
      Stuck twoPairs (StepRuns.run (step twoPairs) (run Status twoPairs) lateListener) := by
    rw [last]
    rintro (_ | _ | _ | _ | _ | _ | _ | _ | i) c
    all_goals rfl
  have called :
      (StepRuns.run (step twoPairs) (run Status twoPairs) lateListener).shared.called = true := by
    rw [last]
  have moves : StepRuns.Along (step twoPairs) (fun p e => step twoPairs p e ≠ p)
      (run Status twoPairs) (goes 0 1) := by
    refine ⟨fun same => ?_, trivial⟩
    have workers := congrArg (fun p : System Status => p.workers.length) same
    cases workers
  refine ⟨(shutdown_comes_to_rest Status twoPairs (goes 0 1)).1 moves, called, ?_⟩
  obtain ⟨_, ends⟩ := (shutdown_comes_to_rest Status twoPairs lateListener).2 stuck
  rcases ends called with ⟨stopped, _⟩ | waits
  · rw [last] at stopped
    simp at stopped
  · exact waits

lemma Served.proto_at {cfg : Config} {p : System σ} (served : Served cfg p) {k : Nat}
    {server : σ}
    (at_k : p.shared.servers[k]? = some server) :
    (status server).proto = if k < cfg.pairs then .udp else .tcp := by
  have proto : (p.shared.servers.map Server.proto)[k]? = some (status server).proto := by
    rw [List.getElem?_map, at_k]
    rfl
  rw [served.protos, newServers, List.map_append, List.map_replicate, List.map_replicate,
    Server.proto_make, Server.proto_make, List.getElem?_append] at proto
  simp only [List.length_replicate] at proto
  split at proto
  · rename_i less
    rw [List.getElem?_replicate_of_lt less] at proto
    rw [if_pos less]
    exact (Option.some.inj proto).symm
  · rename_i more
    rw [List.getElem?_replicate] at proto
    split at proto
    · rw [if_neg more]
      exact (Option.some.inj proto).symm
    · cases proto

/-- With one pair of listeners, as it is configured by default, `Shutdown` returns once nothing
moves any more, if `Run` had reported that it serves: each of the two servers had listened by
then, so none is found not started. -/
theorem shutdown_of_one_pair (σ : Type) [Server σ] (cfg : Config) (one : cfg.pairs = 1)
    (events : List Event) :
    let p := StepRuns.run (step cfg) (run σ cfg) events
    .ran true ∈ p.workers → p.shared.called = true → Stuck cfg p →
      .stopped ∈ p.workers ∧ (∀ t ∈ p.workers, t.over) ∧ p.shared.errClosed = true ∧
        p.shared.xdpMap = false ∧ p.shared.saved = cfg.snapshot := by
  intro p ran called stuck
  obtain ⟨orderly, named, heeded⟩ : Attended cfg p := reachable_attended cfg events
  rcases orderly.stuck_called stuck called with stopped | waits
  · obtain ⟨all_over, closed⟩ := orderly.stuck_stopped stuck stopped
    obtain ⟨_, _, detached, saved⟩ := orderly.placed _ stopped
    exact ⟨stopped, all_over, closed, detached, saved⟩
  · obtain ⟨k, server, _, at_k, up, _⟩ := orderly.stuck_group stuck waits
    have set : (p.shared.addr (status server).proto).isSome = true := by
      obtain ⟨udp, tcp⟩ := orderly.placed _ ran
      cases (status server).proto with
      | udp => exact udp
      | tcp => exact tcp
    obtain ⟨j, known⟩ := Option.isSome_iff_exists.mp set
    obtain ⟨server', at_j, _, same⟩ := named _ j known
    -- of one protocol there is one server
    have within : k < 2 ∧ j < 2 := by
      have size := orderly.served.size
      have within_k := (List.getElem?_eq_some_iff.mp at_k).1
      have within_j := (List.getElem?_eq_some_iff.mp at_j).1
      omega
    have here : j = k := by
      rw [orderly.served.proto_at at_j, orderly.served.proto_at at_k, one] at same
      split at same
      · split at same
        · omega
        · cases same
      · split at same
        · cases same
        · omega
    subst here
    rw [heeded ran _ j known _ waits trivial server at_k] at up
    cases up

/-- `Shutdown`, which is goroutine 5, and the end of all others. -/
def shutDown : List Event :=
  .shutdown :: (goes 5 3 ++ goes 2 2 ++ goes 5 2 ++ goes 3 2 ++ goes 5 4 ++ goes 1 1 ++ goes 5 3 ++
    goes 4 2)

theorem shutdown_of_one_pair_started :
    let p := StepRuns.run (step onePair) (run Status onePair) (startUp ++ shutDown)
    onePair.pairs = 1 ∧ .ran true ∈ p.workers ∧ .stopped ∈ p.workers ∧
      (∀ t ∈ p.workers, t.over) ∧ p.shared.errClosed = true ∧ p.shared.saved = true := by
  have last : StepRuns.run (step onePair) (run Status onePair) (startUp ++ shutDown) =
      ⟨⟨[⟨.udp, true, false, true⟩, ⟨.tcp, true, false, true⟩],
        0, 0, 2, [], true, [], some 0, some 1, false, false, true, true, true, false, [], true,
         false⟩,
      [.ran true, .ended, .ended, .ended, .ended, .stopped]⟩ := rfl
  have ran : .ran true ∈
      (StepRuns.run (step onePair) (run Status onePair) (startUp ++ shutDown)).workers := by
    rw [last]
    exact List.mem_cons_self
  have stuck :
      Stuck onePair (StepRuns.run (step onePair) (run Status onePair) (startUp ++ shutDown)) := by
    rw [last]
    rintro (_ | _ | _ | _ | _ | _ | i) c
    all_goals rfl
  obtain ⟨stopped, all_over, closed, _, saved⟩ :=
    shutdown_of_one_pair Status onePair rfl (startUp ++ shutDown) ran (by rw [last]) stuck
  exact ⟨rfl, ran, stopped, all_over, closed, saved⟩

end ServerLife
