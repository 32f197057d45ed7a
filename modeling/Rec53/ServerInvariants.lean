import Rec53.ServerLife

/-!
# What holds while the server lives

Every goroutine is accounted for: its part in the wait groups, the errors it may still send,
the server it may still listen for or serves, and the channel it will close. From these counts
follow the facts about single goroutines: what `Run` and `Shutdown` have seen at each place,
that nobody of the group is left when somebody has waited for it, and that a server that
`Shutdown` has passed serves only if it was skipped as not started.
-/

namespace ServerLife

open WorkerPool
open Server (status listen stop finish)

variable {σ : Type} [Server σ]

/-! ### What is counted -/

/-- `Run` has not started the goroutine that closes `errChan`. -/
def Place.early : Place → Bool
  | .startProbeLoop | .loadAndAttach | .startWarmup | .addListeners | .launch _ | .startCloser =>
    true
  | _ => false

/-- `Run` has not returned. -/
def Place.running (place : Place) : Bool :=
  match place with
  | .await _ _ | .setServing => true
  | _ => place.early

lemma early_of_running {place : Place} (returned : place.running = false) :
    place.early = false := by
  cases place with
  | await | setServing => cases returned
  | _ => exact returned

/-- The part of a goroutine in `wg`. -/
def Place.counted : Place → Nat
  | .launch waiting => waiting.length
  | .listen _ | .notify _ | .serve _ | .report _ | .reportStartup _ | .warmup | .xdpLoop
  | .done => 1
  | _ => 0

def Place.pooled : Place → Nat
  | .probe => 1
  | _ => 0

/-- The errors that will still be sent on `errChan`, at most. -/
def Place.unsent (n : Nat) : Place → Nat
  | .startProbeLoop | .loadAndAttach | .startWarmup | .addListeners => 2 * n
  | .launch waiting => waiting.length
  | .listen _ | .notify _ | .serve _ | .report _ => 1
  | _ => 0

/-- The same for `startupErr`. -/
def Place.unsentStartup (n : Nat) : Place → Nat
  | .startProbeLoop | .loadAndAttach | .startWarmup | .addListeners => 2 * n
  | .launch waiting => waiting.length
  | .listen _ | .notify _ | .serve _ | .report _ | .reportStartup _ => 1
  | _ => 0

/-- Who will close `errChan`. -/
def Place.closes (place : Place) : Nat :=
  match place with
  | .waitAll | .closeErrChan => 1
  | _ => if place.early then 1 else 0

/-- The call of `Run`. -/
def Place.runs (place : Place) : Nat :=
  match place with
  | .await _ _ | .setServing | .ran _ => 1
  | _ => if place.early then 1 else 0

/-- The call of `Shutdown`. -/
def Place.shuts : Place → Nat
  | .setShuttingDown | .cancel | .stop _ | .stopping _ | .waitGroup | .stopPool | .waitPool
  | .detachXDP | .saveSnapshot | .stopped => 1
  | _ => 0

lemma closes_of_early {place : Place} (early : place.early = true) : place.closes = 1 := by
  cases place with
  | startProbeLoop | loadAndAttach | startWarmup | addListeners | launch | startCloser => rfl
  | _ => cases early

lemma runs_of_running {place : Place} (running : place.running = true) : place.runs = 1 := by
  cases place with
  | startProbeLoop | loadAndAttach | startWarmup | addListeners | launch | startCloser | await
  | setServing => rfl
  | _ => cases running

/-- Who may still begin to listen for server `k`. -/
def Place.binds (n k : Nat) : Place → Nat
  | .startProbeLoop | .loadAndAttach | .startWarmup | .addListeners => if k < 2 * n then 1 else 0
  | .launch waiting => waiting.count k
  | .listen j => if j = k then 1 else 0
  | _ => 0

/-- Who is in the serving loop of server `k`. -/
def Place.serves (k : Nat) : Place → Nat
  | .notify j | .serve j => if j = k then 1 else 0
  | _ => 0

@[simp] lemma launchOrder_length (n : Nat) : (launchOrder n).length = 2 * n := by
  simp [launchOrder, Nat.mul_comm]

/-- Every server has its turn once. -/
lemma launchOrder_count (n k : Nat) : (launchOrder n).count k = if k < 2 * n then 1 else 0 := by
  -- the first `m` pairs hold the numbers below `m` and as many from `n` on
  have pairs : ∀ m, ((List.range m).flatMap fun i => [i, n + i]).count k =
      (if k < m then 1 else 0) + if n ≤ k ∧ k < n + m then 1 else 0 := by
    intro m
    induction m with
    | zero => simp
    | succ m ih =>
      rw [List.range_succ, List.flatMap_append, List.count_append, ih]
      simp only [List.flatMap_cons, List.flatMap_nil, List.append_nil, List.count_cons,
        List.count_nil, beq_iff_eq]
      split_ifs <;> omega
  rw [launchOrder, pairs]
  split_ifs <;> omega

section
variable {cfg : Config} {s : Shared σ} {place : Place} {a : Acted (Shared σ) Place}

lemma Acts.counted (acts : Acts cfg s place a) (covered : place.counted ≤ s.wg) :
    a.shared.wg + place.counted =
      s.wg + a.worker.counted + owned Place.counted a.started := by
  cases acts with
  | finished counted =>
    simp only [Place.counted, owned_nil]
    omega
  | finishedTwice nobody =>
    simp [Place.counted, nobody] at covered
  | _ => simp [Place.counted, Shared.setServer, Shared.fail, Nat.add_assoc]

lemma Acts.pooled (acts : Acts cfg s place a) (covered : place.pooled ≤ s.poolWg) :
    a.shared.poolWg + place.pooled = s.poolWg + a.worker.pooled + owned Place.pooled a.started := by
  cases acts with
  | probeEnded counted =>
    simp only [Place.pooled, owned_nil]
    omega
  | probeTwice nobody =>
    simp [Place.pooled, nobody] at covered
  | _ => simp [Place.pooled, Shared.setServer, Shared.fail]

lemma Acts.unsent (acts : Acts cfg s place a) :
    a.shared.errChan.length + a.worker.unsent cfg.pairs +
        owned (Place.unsent cfg.pairs) a.started ≤
      s.errChan.length + place.unsent cfg.pairs := by
  cases acts with
  | _ => simp [Place.unsent, Shared.setServer, Shared.fail, Nat.add_assoc]

lemma Acts.unsentStartup (acts : Acts cfg s place a) :
    a.shared.startupErr.length + a.worker.unsentStartup cfg.pairs +
        owned (Place.unsentStartup cfg.pairs) a.started ≤
      s.startupErr.length + place.unsentStartup cfg.pairs := by
  cases acts with
  | startFailed chan => simp [Place.unsentStartup, chan]
  | _ => simp [Place.unsentStartup, Shared.setServer, Shared.fail, Nat.add_assoc]

/-- The closing of `errChan` as a count. -/
def Shared.unclosed (s : Shared σ) : Nat := (!s.errClosed).toNat

lemma Acts.closes (acts : Acts cfg s place a) (covered : place.closes ≤ s.unclosed) :
    a.shared.unclosed + place.closes =
      s.unclosed + a.worker.closes + owned Place.closes a.started := by
  cases acts with
  | errChanClosed is_open => simp [Place.closes, Place.early, Shared.unclosed, is_open]
  | closedTwice closed => simp [Place.closes, Shared.unclosed, closed] at covered
  | _ => simp [Place.closes, Place.early, Shared.unclosed, Shared.setServer, Shared.fail]

lemma Acts.runs (acts : Acts cfg s place a) :
    place.runs = a.worker.runs + owned Place.runs a.started := by
  cases acts with
  | rest => simp
  | _ => simp [Place.runs, Place.early]

lemma Acts.shuts (acts : Acts cfg s place a) :
    place.shuts = a.worker.shuts + owned Place.shuts a.started := by
  cases acts with
  | rest => simp
  | _ => simp [Place.shuts]

lemma Acts.called (acts : Acts cfg s place a) : a.shared.called = s.called := by
  cases acts with
  | _ => rfl

lemma Acts.capacity (acts : Acts cfg s place a) : a.shared.capacity = s.capacity := by
  cases acts with
  | _ => rfl

/-! ### The servers -/

/-- A server that is started, or whose loop has returned, has listened. -/
structure Status.Sound (status : Status) : Prop where
  started : status.started = true → status.conn = true
  finished : status.finished = true → status.conn = true

/-- Whether server `k` has listened, and whether its loop runs. -/
def Shared.conn (s : Shared σ) (k : Nat) : Nat :=
  match s.servers[k]? with
  | some server => (status server).conn.toNat
  | none => 0

def Shared.inLoop (s : Shared σ) (k : Nat) : Nat :=
  match s.servers[k]? with
  | some server => ((status server).conn && !(status server).finished).toNat
  | none => 0

omit [Server σ] in
lemma servers_setServer_self {k : Nat} {old : σ} (at_k : s.servers[k]? = some old)
    (new : σ) : (s.setServer k new).servers[k]? = some new := by
  rw [Shared.setServer, List.getElem?_set_self (List.getElem?_eq_some_iff.mp at_k).1]

omit [Server σ] in
lemma servers_setServer_ne {j k : Nat} (ne : j ≠ k) (new : σ) :
    (s.setServer j new).servers[k]? = s.servers[k]? := by
  rw [Shared.setServer, List.getElem?_set_ne ne]

lemma conn_setServer_ne {j k : Nat} (ne : j ≠ k) (new : σ) :
    (s.setServer j new).conn k = s.conn k := by
  rw [Shared.conn, servers_setServer_ne ne, Shared.conn]

lemma inLoop_setServer_ne {j k : Nat} (ne : j ≠ k) (new : σ) :
    (s.setServer j new).inLoop k = s.inLoop k := by
  rw [Shared.inLoop, servers_setServer_ne ne, Shared.inLoop]

/-- An update that leaves the connection leaves what is read of it. -/
lemma conn_setServer_same {j k : Nat} {old new : σ} (at_j : s.servers[j]? = some old)
    (same : (status new).conn = (status old).conn) : (s.setServer j new).conn k = s.conn k := by
  by_cases here : j = k
  · subst here
    rw [Shared.conn, servers_setServer_self at_j, Shared.conn, at_j]
    dsimp only
    rw [same]
  · exact conn_setServer_ne here new

/-- Nobody listens twice for one server. -/
lemma Acts.binds (acts : Acts cfg s place a) (k : Nat) :
    s.conn k ≤ a.shared.conn k ∧
      a.shared.conn k + a.worker.binds cfg.pairs k + owned (Place.binds cfg.pairs k) a.started ≤
        s.conn k + place.binds cfg.pairs k := by
  cases acts with
  | listenersAdded => simp [Place.binds, launchOrder_count, Shared.conn]
  | launched =>
    simp only [Place.binds, List.count_cons, owned_cons, owned_nil, beq_iff_eq]
    omega
  | @listening j server at_j =>
    by_cases here : j = k
    · subst here
      simp [Place.binds, Shared.conn, servers_setServer_self at_j, at_j, Bool.toNat_le]
    · simp [Place.binds, here, conn_setServer_ne here]
  | serveEnded at_j | serveFailed at_j | stopBegun at_j =>
    simp [Place.binds, conn_setServer_same at_j]
  | _ => simp [Place.binds, Shared.conn, Shared.fail]

/-- Who stops trying to listen reports why. -/
lemma Acts.tries (acts : Acts cfg s place a) (k : Nat)
    (alone : s.conn k + place.binds cfg.pairs k ≤ 1) :
    s.conn k + place.binds cfg.pairs k ≤
        a.shared.conn k + a.worker.binds cfg.pairs k + owned (Place.binds cfg.pairs k) a.started ∨
      a.worker = .report k := by
  cases acts with
  | listenersAdded => simp [Place.binds, launchOrder_count, Shared.conn]
  | launched =>
    left
    simp only [Place.binds, List.count_cons, owned_cons, owned_nil, beq_iff_eq]
    omega
  | @listening j server at_j =>
    left
    by_cases here : j = k
    · subst here
      simpa [Place.binds, Shared.conn, servers_setServer_self at_j, at_j] using alone
    · simp [Place.binds, here, conn_setServer_ne here]
  | @listenFailed j =>
    by_cases here : j = k
    · exact .inr (by rw [here])
    · exact .inl (by simp [Place.binds, here])
  | serveEnded at_j | serveFailed at_j | stopBegun at_j =>
    simp [Place.binds, conn_setServer_same at_j]
  | _ => simp [Place.binds, Shared.conn, Shared.fail]

/-- A server is started by one that listens for it. -/
lemma Acts.starts (acts : Acts cfg s place a) {k : Nat} {server : σ}
    (at_k : a.shared.servers[k]? = some server) (up : (status server).started = true) :
    (∃ server, s.servers[k]? = some server ∧ (status server).started = true) ∨
      0 < place.binds cfg.pairs k := by
  have set_starts {j : Nat} {old new : σ} (at_j : s.servers[j]? = some old)
      (at_k : (s.setServer j new).servers[k]? = some server)
      (same : (status new).started = true → (status old).started = true) :
      ∃ server, s.servers[k]? = some server ∧ (status server).started = true := by
    by_cases here : j = k
    · subst here
      cases (servers_setServer_self at_j new).symm.trans at_k
      exact ⟨old, at_j, same up⟩
    · exact ⟨server, (servers_setServer_ne here new).symm.trans at_k, up⟩
  cases acts with
  | @listening j old at_j =>
    by_cases here : j = k
    · exact .inr (by simp [Place.binds, here])
    · exact .inl ⟨server, (servers_setServer_ne here _).symm.trans at_k, up⟩
  | serveEnded at_j | serveFailed at_j => exact .inl (set_starts at_j at_k (by simp))
  | stopBegun at_j => exact .inl (set_starts at_j at_k (by simp))
  | _ => exact .inl ⟨server, at_k, up⟩

lemma Acts.protos (acts : Acts cfg s place a) :
    a.shared.servers.map Server.proto = s.servers.map Server.proto := by
  have set_protos {k : Nat} {old new : σ} (at_k : s.servers[k]? = some old)
      (same : Server.proto new = Server.proto old) :
      (s.setServer k new).servers.map Server.proto = s.servers.map Server.proto := by
    refine List.ext_getElem? fun j => ?_
    rw [List.getElem?_map, List.getElem?_map]
    by_cases here : k = j
    · subst here
      rw [servers_setServer_self at_k, at_k, Option.map_some, same, Option.map_some]
    · rw [servers_setServer_ne here]
  cases acts with
  | listening at_k | serveEnded at_k | serveFailed at_k | stopBegun at_k =>
    exact set_protos at_k (by simp [Server.proto])
  | _ => rfl

lemma Acts.sound (acts : Acts cfg s place a) (sound : ∀ server ∈ s.servers, (status server).Sound)
    (covered : ∀ k, place.serves k ≤ s.inLoop k) :
    ∀ server ∈ a.shared.servers, (status server).Sound := by
  have set_sound (k : Nat) (new : σ) (fine : (status new).Sound) :
      ∀ server ∈ (s.setServer k new).servers, (status server).Sound := by
    intro server mem
    rcases List.mem_or_eq_of_mem_set mem with old | rfl
    · exact sound server old
    · exact fine
  cases acts with
  | listening at_k =>
    refine set_sound _ _ ?_
    rw [Server.status_listen]
    exact ⟨fun _ => rfl, fun _ => rfl⟩
  | @serveEnded k server at_k | @serveFailed k server at_k =>
    have in_loop := covered k
    simp only [Place.serves, if_true, Shared.inLoop, at_k] at in_loop
    have conn : (status server).conn = true := by
      cases conn : (status server).conn with
      | true => rfl
      | false => simp [conn] at in_loop
    refine set_sound _ _ ?_
    rw [Server.status_finish]
    exact ⟨fun _ => conn, fun _ => conn⟩
  | stopBegun at_k up =>
    refine set_sound _ _ ?_
    rw [Server.status_stop]
    exact ⟨fun up => Bool.noConfusion up, (sound _ (List.mem_of_getElem? at_k)).finished⟩
  | _ => exact sound

lemma Acts.serves (acts : Acts cfg s place a) (sound : ∀ server ∈ s.servers, (status server).Sound)
    (k : Nat) (alone : s.conn k + place.binds cfg.pairs k ≤ 1)
    (covered : place.serves k ≤ s.inLoop k) :
    a.shared.inLoop k + place.serves k =
      s.inLoop k + a.worker.serves k + owned (Place.serves k) a.started := by
  cases acts with
  | @listening j server at_j =>
    by_cases here : j = k
    · subst here
      simp only [Shared.conn, at_j, Place.binds, if_true] at alone
      have silent : (status server).conn = false := by
        cases conn : (status server).conn with
        | false => rfl
        | true => simp [conn] at alone
      have running : (status server).finished = false := by
        rw [Bool.eq_false_iff]
        intro finished
        have conn := (sound server (List.mem_of_getElem? at_j)).finished finished
        rw [silent] at conn
        cases conn
      simp [Shared.inLoop, servers_setServer_self at_j, at_j, silent, running, Place.serves]
    · simp [Place.serves, here, inLoop_setServer_ne here]
  | @serveEnded j server at_j | @serveFailed j server at_j =>
    by_cases here : j = k
    · subst here
      have one : s.inLoop j = 1 := by
        have most : s.inLoop j ≤ 1 := by simp [Shared.inLoop, at_j, Bool.toNat_le]
        simp only [Place.serves, if_true] at covered
        omega
      rw [one]
      simp [Shared.inLoop, servers_setServer_self at_j, Place.serves]
    · simp [Place.serves, here, inLoop_setServer_ne here]
  | @stopBegun j server at_j =>
    by_cases here : j = k
    · subst here
      simp [Shared.inLoop, servers_setServer_self at_j, at_j, Place.serves]
    · simp [Place.serves, inLoop_setServer_ne here]
  | _ => simp [Place.serves, Shared.inLoop, Shared.fail]

end

/-- The counters are what the goroutines stand for, and the channels hold what will be sent. -/
structure Counted (cfg : Config) (p : System σ) : Prop where
  wg : Balanced Shared.wg Place.counted p
  pool : Balanced Shared.poolWg Place.pooled p
  closer : Balanced Shared.unclosed Place.closes p
  run : Balanced (fun _ => 1) Place.runs p
  shutdown : Balanced (fun s => s.called.toNat) Place.shuts p
  capacity : p.shared.capacity = 2 * cfg.pairs
  sends : p.shared.errChan.length + owned (Place.unsent cfg.pairs) p.workers ≤ 2 * cfg.pairs
  sendsStartup : p.shared.startupErr.length + owned (Place.unsentStartup cfg.pairs) p.workers ≤
    2 * cfg.pairs

/-- Each server is listened for once at most, and its loop is run by one goroutine. -/
structure Served (cfg : Config) (p : System σ) : Prop where
  protos : p.shared.servers.map Server.proto = (newServers σ cfg.pairs).map Server.proto
  sound : ∀ server ∈ p.shared.servers, (status server).Sound
  binds : ∀ k, p.shared.conn k + owned (Place.binds cfg.pairs k) p.workers ≤
    if k < 2 * cfg.pairs then 1 else 0
  serves : ∀ k, Balanced (fun s => s.inLoop k) (Place.serves k) p

section
variable {cfg : Config} {p : System σ} {i : Nat} {f : Shared σ → Place → Acted (Shared σ) Place}

lemma act_counted (acts : ∀ t, Acts cfg p.shared t (f p.shared t)) (counted : Counted cfg p) :
    Counted cfg (p.act i f) where
  wg := act_balanced (fun t _ => (acts t).counted) counted.wg
  pool := act_balanced (fun t _ => (acts t).pooled) counted.pool
  closer := act_balanced (fun t _ => (acts t).closes) counted.closer
  run := by
    refine act_balanced (fun t _ _ => ?_) counted.run
    have runs := (acts t).runs
    omega
  shutdown := by
    refine act_balanced (fun t _ _ => ?_) counted.shutdown
    have shuts := (acts t).shuts
    rw [(acts t).called]
    omega
  capacity := act_shared (P := fun s : Shared σ => s.capacity = 2 * cfg.pairs)
    (fun t _ => (acts t).capacity.trans counted.capacity) counted.capacity
  sends := act_bounded (fun s : Shared σ => s.errChan.length)
    (fun t _ _ => (acts t).unsent) counted.sends
  sendsStartup := act_bounded (fun s : Shared σ => s.startupErr.length)
    (fun t _ _ => (acts t).unsentStartup) counted.sendsStartup

lemma act_served (acts : ∀ t, Acts cfg p.shared t (f p.shared t)) (served : Served cfg p) :
    Served cfg (p.act i f) where
  protos := act_shared
    (P := fun s : Shared σ =>
      s.servers.map Server.proto = (newServers σ cfg.pairs).map Server.proto)
    (fun t _ => (acts t).protos.trans served.protos) served.protos
  sound := by
    refine act_shared (P := fun s : Shared σ => ∀ server ∈ s.servers, (status server).Sound)
      (fun t mem => ?_) served.sound
    exact (acts t).sound served.sound fun k => (served.serves k).le mem
  binds := fun k => act_bounded (fun s : Shared σ => s.conn k)
    (fun t _ _ => ((acts t).binds k).2) (served.binds k)
  serves := by
    intro k
    refine act_balanced (fun t mem within => ?_) (served.serves k)
    have own := le_owned (Place.binds cfg.pairs k) mem
    have once := served.binds k
    refine (acts t).serves served.sound k ?_ within
    split at once <;> omega

omit [Server σ] in
/-- The call of `Shutdown` owns nothing. -/
lemma owned_startShutdown {w : Place → Nat} (idle : w .setShuttingDown = 0) :
    owned w (startShutdown p).workers = owned w p.workers := by
  rw [startShutdown, owned_append, owned_cons, owned_nil, idle]
  rfl

omit [Server σ] in
lemma call_counted (fresh : p.shared.called = false) (counted : Counted cfg p) :
    Counted cfg (startShutdown p) where
  wg := counted.wg.trans (owned_startShutdown rfl).symm
  pool := counted.pool.trans (owned_startShutdown rfl).symm
  closer := counted.closer.trans (owned_startShutdown rfl).symm
  run := counted.run.trans (owned_startShutdown rfl).symm
  shutdown := by
    have nobody : p.shared.called.toNat = owned Place.shuts p.workers := counted.shutdown
    rw [fresh] at nobody
    change 1 = owned Place.shuts (p.workers ++ [.setShuttingDown])
    rw [owned_append, ← nobody]
    rfl
  capacity := counted.capacity
  sends := by
    rw [owned_startShutdown rfl]
    exact counted.sends
  sendsStartup := by
    rw [owned_startShutdown rfl]
    exact counted.sendsStartup

lemma call_served (served : Served cfg p) : Served cfg (startShutdown p) where
  protos := served.protos
  sound := served.sound
  binds := by
    intro k
    rw [owned_startShutdown rfl]
    exact served.binds k
  serves := fun k => (served.serves k).trans (owned_startShutdown rfl).symm

end

/-! ### How far `Run` and `Shutdown` are -/

/-- What is never taken back. -/
structure Grown (s s' : Shared σ) : Prop where
  udp : ∀ k, s.udpAddr = some k → s'.udpAddr = some k
  tcp : ∀ k, s.tcpAddr = some k → s'.tcpAddr = some k
  sent : ∀ k ∈ s.errChan, k ∈ s'.errChan
  xdp : s.xdpCancelled = true → s'.xdpCancelled = true
  pool : s.poolCancelled = true → s'.poolCancelled = true
  errs : ∀ err ∈ s.errs, err ∈ s'.errs

omit [Server σ] in
lemma Grown.refl (s : Shared σ) : Grown s s :=
  ⟨fun _ is => is, fun _ is => is, fun _ mem => mem, id, id, fun _ mem => mem⟩

lemma Announced.keeps {proto : Proto} {servers : List σ} {k j : Nat} {addr addr' : Option Nat}
    (announced : Announced proto servers k addr addr') (is : addr = some j) : addr' = some j := by
  cases announced with
  | same => exact is
  | first => cases is

section
variable {cfg : Config} {s : Shared σ} {place : Place} {a : Acted (Shared σ) Place}

lemma Acts.grown (acts : Acts cfg s place a) : Grown s a.shared := by
  have same := Grown.refl s
  cases acts with
  | notified udpIs tcpIs =>
    exact { same with udp := fun _ => udpIs.keeps, tcp := fun _ => tcpIs.keeps }
  | reported => exact { same with sent := fun _ mem => List.mem_append_left _ mem }
  | cancelled => exact { same with xdp := fun _ => rfl }
  | poolStopped => exact { same with pool := fun _ => rfl }
  | stopSkipped | stopExpired | poolExpired =>
    exact { same with errs := fun _ mem => List.mem_append_left _ mem }
  | _ => exact { same with }

/-- The connection of a protocol is known. -/
def Shared.bothSet (s : Shared σ) : Prop := s.udpAddr.isSome = true ∧ s.tcpAddr.isSome = true

/-- What `Run` and `Shutdown` have seen when they stand at a place. -/
def Placed (cfg : Config) (s : Shared σ) : Place → Prop
  | .await udp tcp =>
    (udp = false → s.udpAddr.isSome = true) ∧ (tcp = false → s.tcpAddr.isSome = true)
  | .setServing | .ran true => s.bothSet
  | .ran false => s.errChan ≠ []
  | .reportStartup k => k ∈ s.errChan
  | .setShuttingDown | .cancel => s.called = true
  | .stop _ | .stopping _ | .waitGroup | .stopPool => s.called = true ∧ s.xdpCancelled = true
  | .waitPool | .detachXDP => s.called = true ∧ s.xdpCancelled = true ∧ s.poolCancelled = true
  | .saveSnapshot => s.called = true ∧ s.poolCancelled = true ∧ s.xdpMap = false
  | .stopped =>
    s.called = true ∧ s.poolCancelled = true ∧ s.xdpMap = false ∧ s.saved = cfg.snapshot
  | _ => True

omit [Server σ] in
lemma Grown.isSome_udp {s' : Shared σ} (grown : Grown s s') (set : s.udpAddr.isSome = true) :
    s'.udpAddr.isSome = true := by
  obtain ⟨k, is⟩ := Option.isSome_iff_exists.mp set
  rw [grown.udp k is]
  rfl

omit [Server σ] in
lemma Grown.isSome_tcp {s' : Shared σ} (grown : Grown s s') (set : s.tcpAddr.isSome = true) :
    s'.tcpAddr.isSome = true := by
  obtain ⟨k, is⟩ := Option.isSome_iff_exists.mp set
  rw [grown.tcp k is]
  rfl

/-- The map is set by `Run` only, and the snapshot is saved as configured. -/
lemma Acts.xdpMap_false (acts : Acts cfg s place a) (late : place.early = false)
    (detached : s.xdpMap = false) : a.shared.xdpMap = false := by
  cases acts with
  | xdpOn => cases late
  | detached => rfl
  | _ => exact detached

lemma Acts.saved (acts : Acts cfg s place a) (saved : s.saved = cfg.snapshot) :
    a.shared.saved = cfg.snapshot := by
  cases acts with
  | snapshotSaved => rfl
  | _ => exact saved

/-- What one goroutine has seen is not undone by another. -/
lemma Placed.stable (acts : Acts cfg s place a) (late : s.called = true → place.early = false)
    {other : Place} (placed : Placed cfg s other) : Placed cfg a.shared other := by
  have grown := acts.grown
  cases other with
  | await udp tcp =>
    exact ⟨fun seen => grown.isSome_udp (placed.1 seen),
      fun seen => grown.isSome_tcp (placed.2 seen)⟩
  | setServing => exact ⟨grown.isSome_udp placed.1, grown.isSome_tcp placed.2⟩
  | ran serving =>
    cases serving with
    | true => exact ⟨grown.isSome_udp placed.1, grown.isSome_tcp placed.2⟩
    | false =>
      obtain ⟨k, mem⟩ := List.exists_mem_of_ne_nil _ placed
      exact List.ne_nil_of_mem (grown.sent k mem)
  | reportStartup k => exact grown.sent k placed
  | setShuttingDown | cancel => exact acts.called.trans placed
  | stop | stopping | waitGroup | stopPool => exact ⟨acts.called.trans placed.1, grown.xdp placed.2⟩
  | waitPool | detachXDP =>
    exact ⟨acts.called.trans placed.1, grown.xdp placed.2.1, grown.pool placed.2.2⟩
  | saveSnapshot =>
    exact ⟨acts.called.trans placed.1, grown.pool placed.2.1,
      acts.xdpMap_false (late placed.1) placed.2.2⟩
  | stopped =>
    exact ⟨acts.called.trans placed.1, grown.pool placed.2.1,
      acts.xdpMap_false (late placed.1) placed.2.2.1, acts.saved placed.2.2.2⟩
  | _ => trivial

lemma Placed.own (acts : Acts cfg s place a)
    (known : ∀ k ∈ s.startupErr, k ∈ s.errChan) (placed : Placed cfg s place) :
    Placed cfg a.shared a.worker ∧ ∀ new ∈ a.started, Placed cfg a.shared new := by
  cases acts with
  | rest => exact ⟨placed, by simp⟩
  | probeStarted => exact ⟨trivial, by simp [Placed]⟩
  | xdpOn => exact ⟨trivial, by simp [Placed]⟩
  | warmupStarted => exact ⟨trivial, by simp [Placed]⟩
  | launched => exact ⟨trivial, by simp [Placed]⟩
  | closerStarted => exact ⟨by simp [Placed], by simp [Placed]⟩
  | bothReady => exact ⟨⟨placed.1 rfl, placed.2 rfl⟩, by simp⟩
  | udpReady set => exact ⟨⟨fun _ => set, placed.2⟩, by simp⟩
  | tcpReady set => exact ⟨⟨placed.1, fun _ => set⟩, by simp⟩
  | @startFailed _ _ k rest chan =>
    refine ⟨List.ne_nil_of_mem (known k ?_), by simp⟩
    rw [chan]
    exact List.mem_cons_self
  | servingSet => exact ⟨placed, by simp⟩
  | reported => exact ⟨List.mem_append_right _ List.mem_cons_self, by simp⟩
  | shuttingDown => exact ⟨placed, by simp⟩
  | cancelled => exact ⟨⟨placed, rfl⟩, by simp⟩
  | allStopped | stopBegun | stopSkipped | stopExpired | stopEnded | groupWaited =>
    exact ⟨placed, by simp⟩
  | poolStopped => exact ⟨⟨placed.1, placed.2, rfl⟩, by simp⟩
  | poolExpired | poolWaited => exact ⟨placed, by simp⟩
  | detached => exact ⟨⟨placed.1, placed.2.2, rfl⟩, by simp⟩
  | snapshotSaved => exact ⟨⟨placed.1, placed.2.1, placed.2.2, rfl⟩, by simp⟩
  | reportedLate | finishedTwice | probeTwice | closedTwice => exact ⟨placed, by simp⟩
  | _ => exact ⟨trivial, by simp⟩

/-- What is on `startupErr` was sent on `errChan` before. -/
lemma Acts.known (acts : Acts cfg s place a) (placed : Placed cfg s place)
    (known : ∀ k ∈ s.startupErr, k ∈ s.errChan) :
    ∀ k ∈ a.shared.startupErr, k ∈ a.shared.errChan := by
  intro k mem
  cases acts with
  | startFailed chan =>
    refine known k ?_
    rw [chan]
    exact List.mem_cons_of_mem _ mem
  | reported => exact List.mem_append_left _ (known k mem)
  | startupReported =>
    rcases List.mem_append.mp mem with old | new
    · exact known k old
    · rw [List.mem_singleton.mp new]
      exact placed
  | _ => exact known k mem

lemma Acts.returned (acts : Acts cfg s place a) (returned : place.running = false) :
    a.worker.running = false ∧ ∀ new ∈ a.started, new.running = false := by
  cases acts with
  | rest => exact ⟨returned, by simp⟩
  | probeStarted | xdpOff | xdpOn | xdpFailed | warmupStarted | warmupOff | listenersAdded
  | launched | allLaunched | closerStarted | bothReady | udpReady | tcpReady | startFailed
  | servingSet => cases returned
  | _ => exact ⟨rfl, by simp⟩

/-- The goroutine has no part in `wg` and will not have one. -/
structure Place.Idle (place : Place) : Prop where
  counted : place.counted = 0
  late : place.early = false

lemma Acts.idle (acts : Acts cfg s place a) (idle : place.Idle) :
    a.worker.Idle ∧ ∀ new ∈ a.started, new.Idle := by
  obtain ⟨counted, late⟩ := idle
  cases acts with
  | rest => exact ⟨⟨counted, late⟩, by simp⟩
  | probeStarted | xdpOff | xdpOn | xdpFailed | warmupStarted | warmupOff | listenersAdded
  | launched | allLaunched | closerStarted => cases late
  | listening | listenFailed | notified | serveEnded | serveFailed | reported | reportedLate
  | startupReported | warmupEnded | xdpLoopEnded | finished | finishedTwice => cases counted
  | _ => exact ⟨⟨rfl, rfl⟩, by simp⟩

/-- `Shutdown` has waited for the group. -/
def Place.waited : Place → Bool
  | .stopPool | .waitPool | .detachXDP | .saveSnapshot | .stopped => true
  | _ => false

/-- `Shutdown` is done with server `k`, or has told it to stop. -/
def Place.past (k : Nat) : Place → Prop
  | .stop j => k < j
  | .stopping j => k ≤ j
  | .waitGroup | .stopPool | .waitPool | .detachXDP | .saveSnapshot | .stopped => True
  | _ => False

/-- The places at which a goroutine starts. -/
def Place.starting : Place → Bool
  | .probe | .xdpLoop | .warmup | .listen _ | .waitAll => true
  | _ => false

lemma Acts.starting (acts : Acts cfg s place a) : ∀ new ∈ a.started, new.starting = true := by
  cases acts with
  | _ => simp [Place.starting]

/-- A goroutine that starts is neither `Shutdown` nor about to close `errChan`. -/
lemma apart_of_starting {new : Place} (starting : new.starting = true) :
    new.waited = false ∧ new ≠ .closeErrChan ∧ (∀ k, ¬ new.past k) ∧ ∀ k, new ≠ .stopping k := by
  cases new with
  | probe | xdpLoop | warmup | listen | waitAll => simp [Place.waited, Place.past]
  | _ => cases starting

/-- The action by which `Shutdown`, or the goroutine that closes `errChan`, comes past its wait. -/
lemma Acts.waited (acts : Acts cfg s place a) :
    (a.worker.waited = true → place.waited = true ∨ (place = .waitGroup ∧ s.wg = 0)) ∧
      (a.worker = .closeErrChan → place = .closeErrChan ∨ (place = .waitAll ∧ s.wg = 0)) ∧
      (a.shared.errClosed = true → s.errClosed = true ∨ place = .closeErrChan) := by
  cases acts with
  | rest => exact ⟨.inl, .inl, .inl⟩
  | groupWaited nobody => exact ⟨fun _ => .inr ⟨rfl, nobody⟩, by simp, .inl⟩
  | allDone nobody => exact ⟨by simp [Place.waited], fun _ => .inr ⟨rfl, nobody⟩, .inl⟩
  | errChanClosed => exact ⟨by simp [Place.waited], by simp, fun _ => .inr rfl⟩
  | closedTwice closed => exact ⟨by simp [Place.waited], fun _ => .inl rfl, fun _ => .inl closed⟩
  | _ => simp [Place.waited, Shared.setServer, Shared.fail]

end

/-- Somebody has seen the group empty. -/
def SeenEmpty (p : System σ) : Prop :=
  p.shared.errClosed = true ∨ .closeErrChan ∈ p.workers ∨ ∃ t ∈ p.workers, t.waited = true

/-- Server `k` serves, or may do so later. -/
def MayServe (cfg : Config) (p : System σ) (k : Nat) : Prop :=
  (∃ server, p.shared.servers[k]? = some server ∧ (status server).started = true) ∨
    0 < owned (Place.binds cfg.pairs k) p.workers

/-- Server `k` has listened, or somebody still will, or its error is under way to `Run`. -/
def Settles (cfg : Config) (p : System σ) (k : Nat) : Prop :=
  0 < p.shared.conn k + owned (Place.binds cfg.pairs k) p.workers ∨ .report k ∈ p.workers ∨
    .reportStartup k ∈ p.workers ∨ k ∈ p.shared.startupErr ∨ .ran false ∈ p.workers

/-- The address of a protocol. -/
def Shared.addr (s : Shared σ) : Proto → Option Nat
  | .udp => s.udpAddr
  | .tcp => s.tcpAddr

structure Orderly (cfg : Config) (p : System σ) : Prop where
  counted : Counted cfg p
  served : Served cfg p
  returned : p.shared.called = true → ∀ t ∈ p.workers, t.running = false
  known : ∀ k ∈ p.shared.startupErr, k ∈ p.shared.errChan
  placed : ∀ t ∈ p.workers, Placed cfg p.shared t
  quiet : SeenEmpty p → ∀ t ∈ p.workers, t.Idle
  halted : ∀ k, .stopping k ∈ p.workers →
    ∃ server, p.shared.servers[k]? = some server ∧ (status server).conn = true ∧
      (status server).started = false
  visited : ∀ t ∈ p.workers, ∀ k, t.past k → MayServe cfg p k → .notStarted k ∈ p.shared.errs
  settles : ∀ k, k < 2 * cfg.pairs → Settles cfg p k
  announced : ∀ k server, p.shared.servers[k]? = some server → (status server).conn = true →
    .notify k ∈ p.workers ∨ (p.shared.addr (status server).proto).isSome = true
  calm : p.shared.panicked = false

section
variable {cfg : Config} {p : System σ} {i : Nat} {f : Shared σ → Place → Acted (Shared σ) Place}

/-- Whoever sees the group empty finds all goroutines of it gone. -/
lemma Orderly.idle_of_empty (orderly : Orderly cfg p) {t : Place} (mem : t ∈ p.workers)
    (waits : t = .waitAll ∨ t = .waitGroup) (nobody : p.shared.wg = 0) :
    ∀ t ∈ p.workers, t.Idle := by
  have counted : ∀ t ∈ p.workers, t.counted = 0 := by
    refine (owned_eq_zero_iff _).mp ?_
    rw [← orderly.counted.wg]
    exact nobody
  intro t' mem'
  refine ⟨counted t' mem', ?_⟩
  rw [Bool.eq_false_iff]
  intro early
  rcases waits with rfl | rfl
  · -- `Run` has not started the goroutine that waits
    have ne : Place.waitAll ≠ t' := by
      rintro rfl
      cases early
    have two := le_owned_two Place.closes mem mem' ne
    have most : p.shared.unclosed ≤ 1 := Bool.toNat_le _
    have closer : p.shared.unclosed = owned Place.closes p.workers := orderly.counted.closer
    have waits : Place.waitAll.closes = 1 := rfl
    rw [waits, closes_of_early early] at two
    omega
  · have called := (orderly.placed _ mem).1
    rw [early_of_running (orderly.returned called t' mem')] at early
    cases early

lemma act_quiet (acts : ∀ t, Acts cfg p.shared t (f p.shared t)) (orderly : Orderly cfg p)
    (seen : SeenEmpty (p.act i f)) : ∀ t ∈ (p.act i f).workers, t.Idle := by
  have before : ∀ t ∈ p.workers, t.Idle := by
    cases at_i : p.workers[i]? with
    | none =>
      rw [Pool.act, at_i] at seen
      exact orderly.quiet seen
    | some t =>
      have mem : t ∈ p.workers := List.mem_of_getElem? at_i
      obtain ⟨waited, closing, closed⟩ := (acts t).waited
      have started := (acts t).starting
      have shared := shared_act f at_i
      rcases seen with seen | seen | ⟨t', seen, past⟩
      · rw [shared] at seen
        rcases closed seen with old | rfl
        · exact orderly.quiet (.inl old)
        · exact orderly.quiet (.inr (.inl mem))
      · rcases mem_act seen with old | ⟨t₁, mem₁, at_i₁, is | new⟩
        · exact orderly.quiet (.inr (.inl old))
        · cases at_i.symm.trans at_i₁
          rcases closing is.symm with rfl | ⟨rfl, nobody⟩
          · exact orderly.quiet (.inr (.inl mem))
          · exact orderly.idle_of_empty mem (.inl rfl) nobody
        · cases at_i.symm.trans at_i₁
          exact absurd rfl (apart_of_starting (started _ new)).2.1
      · rcases mem_act seen with old | ⟨t₁, mem₁, at_i₁, is | new⟩
        · exact orderly.quiet (.inr (.inr ⟨t', old, past⟩))
        · cases at_i.symm.trans at_i₁
          subst is
          rcases waited past with old | ⟨rfl, nobody⟩
          · exact orderly.quiet (.inr (.inr ⟨t, mem, old⟩))
          · exact orderly.idle_of_empty mem (.inr rfl) nobody
        · cases at_i.symm.trans at_i₁
          rw [(apart_of_starting (started _ new)).1] at past
          cases past
  exact act_workers (fun t _ idle => (acts t).idle idle) before

lemma Served.size (served : Served cfg p) : p.shared.servers.length = 2 * cfg.pairs := by
  have length := congrArg List.length served.protos
  simp only [List.length_map, newServers, List.length_append, List.length_replicate] at length
  omega

/-- A server with a connection is listened for by nobody. -/
lemma Served.no_binder (served : Served cfg p) {k : Nat} {server : σ}
    (at_k : p.shared.servers[k]? = some server) (conn : (status server).conn = true) :
    owned (Place.binds cfg.pairs k) p.workers = 0 := by
  have once := served.binds k
  rw [Shared.conn, at_k] at once
  simp only [conn, Bool.toNat_true] at once
  split at once <;> omega

/-- A server that has listened, and was told to stop, stays so. -/
lemma Acts.keeps_halted {s : Shared σ} {place : Place} {a : Acted (Shared σ) Place}
    (acts : Acts cfg s place a) {k : Nat} (unbound : place.binds cfg.pairs k = 0) {server : σ}
    (at_k : s.servers[k]? = some server) (conn : (status server).conn = true)
    (down : (status server).started = false) :
    ∃ server, a.shared.servers[k]? = some server ∧ (status server).conn = true ∧
      (status server).started = false := by
  have set_halted {j : Nat} {old new : σ} (at_j : s.servers[j]? = some old)
      (same : j = k → (status new).conn = (status old).conn ∧
        ((status new).started = true → (status old).started = true)) :
      ∃ server, (s.setServer j new).servers[k]? = some server ∧ (status server).conn = true ∧
        (status server).started = false := by
    by_cases here : j = k
    · subst here
      cases at_k.symm.trans at_j
      obtain ⟨conn', started'⟩ := same rfl
      refine ⟨new, servers_setServer_self at_j new, conn'.trans conn, ?_⟩
      rw [Bool.eq_false_iff]
      intro up
      rw [started' up] at down
      cases down
    · exact ⟨server, (servers_setServer_ne here new).trans at_k, conn, down⟩
  cases acts with
  | @listening j old at_j =>
    refine set_halted at_j fun here => ?_
    simp [Place.binds, here] at unbound
  | serveEnded at_j | serveFailed at_j => exact set_halted at_j fun _ => by simp
  | stopBegun at_j => exact set_halted at_j fun _ => by simp
  | _ => exact ⟨server, at_k, conn, down⟩

lemma act_halted (acts : ∀ t, Acts cfg p.shared t (f p.shared t)) (orderly : Orderly cfg p)
    (k : Nat) (stops : .stopping k ∈ (p.act i f).workers) :
    ∃ server, (p.act i f).shared.servers[k]? = some server ∧ (status server).conn = true ∧
      (status server).started = false := by
  cases at_i : p.workers[i]? with
  | none =>
    rw [Pool.act, at_i] at stops ⊢
    exact orderly.halted k stops
  | some t =>
    have mem : t ∈ p.workers := List.mem_of_getElem? at_i
    have shared := shared_act f at_i
    have stays (before : .stopping k ∈ p.workers) :
        ∃ server, (f p.shared t).shared.servers[k]? = some server ∧ (status server).conn = true ∧
          (status server).started = false := by
      obtain ⟨server, at_k, conn, down⟩ := orderly.halted k before
      have nobody := orderly.served.no_binder at_k conn
      have own := le_owned (Place.binds cfg.pairs k) mem
      exact (acts t).keeps_halted (by omega) at_k conn down
    rw [shared]
    rcases mem_act stops with old | ⟨t₁, mem₁, at_i₁, is | new⟩
    · exact stays old
    · cases at_i.symm.trans at_i₁
      have acted := acts t
      generalize f p.shared t = a at acted is stays
      cases acted with
      | rest => exact stays (is ▸ mem)
      | stopBegun at_k up =>
        cases is
        have conn := (orderly.served.sound _ (List.mem_of_getElem? at_k)).started up
        exact ⟨_, servers_setServer_self at_k _, by simpa using conn, by simp⟩
      | _ => cases is
    · cases at_i.symm.trans at_i₁
      exact absurd rfl ((apart_of_starting ((acts t).starting _ new)).2.2.2 k)

/-- Nothing is listened for that was not before. -/
lemma mayServe_act (acts : ∀ t, Acts cfg p.shared t (f p.shared t)) {k : Nat}
    (later : MayServe cfg (p.act i f) k) : MayServe cfg p k := by
  cases at_i : p.workers[i]? with
  | none =>
    rw [Pool.act, at_i] at later
    exact later
  | some t =>
    have own := le_owned (Place.binds cfg.pairs k) (List.mem_of_getElem? at_i)
    rcases later with ⟨server, at_k, up⟩ | binder
    · rw [shared_act f at_i] at at_k
      rcases (acts t).starts at_k up with before | binder
      · exact .inl before
      · exact .inr (Nat.lt_of_lt_of_le binder own)
    · have moved := owned_set (Place.binds cfg.pairs k) at_i (f p.shared t).worker
      have less := (acts t).binds k
      simp only [Pool.act, at_i, owned_append] at binder
      exact .inr (by omega)

lemma act_visited (acts : ∀ t, Acts cfg p.shared t (f p.shared t)) (orderly : Orderly cfg p)
    {t' : Place} (mem' : t' ∈ (p.act i f).workers) {k : Nat} (past : t'.past k)
    (may : MayServe cfg (p.act i f) k) : .notStarted k ∈ (p.act i f).shared.errs := by
  have before := mayServe_act acts may
  have served : Served cfg (p.act i f) := act_served acts orderly.served
  cases at_i : p.workers[i]? with
  | none =>
    rw [Pool.act, at_i] at mem' ⊢
    exact orderly.visited t' mem' k past before
  | some t =>
    have mem : t ∈ p.workers := List.mem_of_getElem? at_i
    have shared := shared_act f at_i
    have acted := acts t
    rcases mem_act mem' with old | ⟨t₁, mem₁, at_i₁, is | new⟩
    · rw [shared]
      exact acted.grown.errs _ (orderly.visited t' old k past before)
    · cases at_i.symm.trans at_i₁
      subst is
      have known := orderly.visited t mem k
      rw [shared]
      generalize moved : f p.shared t = a at acted past shared
      have kept := acted.grown.errs (.notStarted k)
      cases acted with
      | rest => exact known past before
      | allStopped beyond =>
        refine known ?_ before
        by_contra ahead
        have outside : ¬ k < 2 * cfg.pairs := by
          have length := List.getElem?_eq_none_iff.mp beyond
          rw [orderly.served.size] at length
          simp only [Place.past] at ahead
          omega
        rcases before with ⟨server, at_k, _⟩ | binder
        · have within := (List.getElem?_eq_some_iff.mp at_k).1
          rw [orderly.served.size] at within
          exact outside within
        · have none_bound := orderly.served.binds k
          rw [if_neg outside] at none_bound
          omega
      | @stopBegun j server at_j up =>
        rcases Nat.lt_or_eq_of_le past with less | rfl
        · exact kept (known less before)
        · -- the server has stopped for good: it has listened, so nobody listens for it again
          have conn := (orderly.served.sound _ (List.mem_of_getElem? at_j)).started up
          have stopped : (p.act i f).shared.servers[k]? = some (stop server) := by
            rw [shared]
            exact servers_setServer_self at_j _
          have nobody := served.no_binder stopped (by simpa using conn)
          rcases may with ⟨server', at_k, up'⟩ | binder
          · cases stopped.symm.trans at_k
            simp at up'
          · omega
      | @stopSkipped j =>
        rcases Nat.lt_or_eq_of_le (Nat.le_of_lt_succ past) with less | rfl
        · exact kept (known less before)
        · exact List.mem_append_right _ List.mem_cons_self
      | stopExpired | stopEnded => exact kept (known (Nat.le_of_lt_succ past) before)
      | cancelled => exact absurd past (Nat.not_lt_zero k)
      | groupWaited | poolStopped | poolExpired | poolWaited | detached | snapshotSaved =>
        exact kept (known trivial before)
      | _ => exact past.elim
    · cases at_i.symm.trans at_i₁
      exact absurd past ((apart_of_starting (acted.starting _ new)).2.2.1 k)

/-- What becomes of a goroutine between its attempt to listen and the report of its error. -/
lemma Acts.settles {s : Shared σ} {place : Place} {a : Acted (Shared σ) Place}
    (acts : Acts cfg s place a) (k : Nat) :
    (place = .report k → a.worker = .report k ∨ a.worker = .reportStartup k) ∧
      (place = .reportStartup k → a.worker = .reportStartup k ∨ k ∈ a.shared.startupErr) ∧
      (k ∈ s.startupErr → k ∈ a.shared.startupErr ∨ a.worker = .ran false) ∧
      (place = .ran false → a.worker = .ran false) := by
  cases acts with
  | rest => exact ⟨.inl, .inl, .inl, id⟩
  | startupReported =>
    refine ⟨by simp, fun is => ?_, fun mem => .inl (List.mem_append_left _ mem), by simp⟩
    cases is
    exact .inr (List.mem_append_right _ List.mem_cons_self)
  | _ => simp_all [Shared.setServer, Shared.fail]

lemma act_settles (acts : ∀ t, Acts cfg p.shared t (f p.shared t)) (orderly : Orderly cfg p)
    (k : Nat) (within : k < 2 * cfg.pairs) : Settles cfg (p.act i f) k := by
  have before := orderly.settles k within
  cases at_i : p.workers[i]? with
  | none =>
    rw [Pool.act, at_i]
    exact before
  | some t =>
    have mem : t ∈ p.workers := List.mem_of_getElem? at_i
    have shared := shared_act f at_i
    have here := worker_mem_act f at_i
    obtain ⟨reports, reportsStartup, received, ran⟩ := (acts t).settles k
    rcases before with has | report | startup | sent | failed
    · have own := le_owned (Place.binds cfg.pairs k) mem
      have once := orderly.served.binds k
      rw [if_pos within] at once
      rcases (acts t).tries k (by omega) with tries | gives
      · left
        have moved := owned_set (Place.binds cfg.pairs k) at_i (f p.shared t).worker
        rw [shared]
        simp only [Pool.act, at_i, owned_append]
        omega
      · exact .inr (.inl (gives ▸ here))
    · by_cases acting : t = .report k
      · rcases reports acting with same | next
        · exact .inr (.inl (same ▸ here))
        · exact .inr (.inr (.inl (next ▸ here)))
      · refine .inr (.inl (mem_act_of_ne report fun is => acting ?_))
        exact Option.some.inj (at_i.symm.trans is)
    · by_cases acting : t = .reportStartup k
      · rcases reportsStartup acting with same | next
        · exact .inr (.inr (.inl (same ▸ here)))
        · exact .inr (.inr (.inr (.inl (shared ▸ next))))
      · refine .inr (.inr (.inl (mem_act_of_ne startup fun is => acting ?_)))
        exact Option.some.inj (at_i.symm.trans is)
    · rcases received sent with still | failed
      · exact .inr (.inr (.inr (.inl (shared ▸ still))))
      · exact .inr (.inr (.inr (.inr (failed ▸ here))))
    · by_cases acting : t = .ran false
      · exact .inr (.inr (.inr (.inr (ran acting ▸ here))))
      · refine .inr (.inr (.inr (.inr (mem_act_of_ne failed fun is => acting ?_))))
        exact Option.some.inj (at_i.symm.trans is)

/-- A server that has listened had its connection before, or has it from this action on. -/
lemma Acts.announces {s : Shared σ} {place : Place} {a : Acted (Shared σ) Place}
    (acts : Acts cfg s place a) {k : Nat} {server : σ}
    (at_k : a.shared.servers[k]? = some server) (conn : (status server).conn = true) :
    a.worker = .notify k ∨
      ∃ old, s.servers[k]? = some old ∧ (status old).conn = true ∧
        (status old).proto = (status server).proto := by
  have set_conn {j : Nat} {old new : σ} (at_j : s.servers[j]? = some old)
      (at_k : (s.setServer j new).servers[k]? = some server)
      (same : (status new).conn = (status old).conn ∧ (status new).proto = (status old).proto) :
      ∃ old, s.servers[k]? = some old ∧ (status old).conn = true ∧
        (status old).proto = (status server).proto := by
    by_cases here : j = k
    · subst here
      cases (servers_setServer_self at_j new).symm.trans at_k
      exact ⟨old, at_j, same.1.symm.trans conn, same.2.symm⟩
    · exact ⟨server, (servers_setServer_ne here new).symm.trans at_k, conn, rfl⟩
  cases acts with
  | @listening j old at_j =>
    by_cases here : j = k
    · exact .inl (by rw [here])
    · exact .inr ⟨server, (servers_setServer_ne here _).symm.trans at_k, conn, rfl⟩
  | serveEnded at_j | serveFailed at_j | stopBegun at_j =>
    exact .inr (set_conn at_j at_k (by simp))
  | _ => exact .inr ⟨server, at_k, conn, rfl⟩

/-- The function that is called when a server listens makes its address known. -/
lemma Acts.notifies {s : Shared σ} {a : Acted (Shared σ) Place} {k : Nat}
    (acts : Acts cfg s (.notify k) a) {server : σ} (at_k : s.servers[k]? = some server)
    (conn : (status server).conn = true) :
    a.worker = .notify k ∨ (a.shared.addr (status server).proto).isSome = true := by
  have set {proto : Proto} {addr addr' : Option Nat}
      (announced : Announced proto s.servers k addr addr')
      (is : (status server).proto = proto) : addr'.isSome = true := by
    cases announced with
    | same known => exact known server at_k conn is
    | first => rfl
  cases acts with
  | rest => exact .inl rfl
  | notified udpIs tcpIs =>
    right
    cases proto : (status server).proto with
    | udp => exact set udpIs proto
    | tcp => exact set tcpIs proto

omit [Server σ] in
lemma Grown.addr {s s' : Shared σ} (grown : Grown s s') {proto : Proto}
    (set : (s.addr proto).isSome = true) : (s'.addr proto).isSome = true := by
  cases proto with
  | udp => exact grown.isSome_udp set
  | tcp => exact grown.isSome_tcp set

lemma act_announced (acts : ∀ t, Acts cfg p.shared t (f p.shared t)) (orderly : Orderly cfg p)
    (k : Nat) (server : σ) (at_k : (p.act i f).shared.servers[k]? = some server)
    (conn : (status server).conn = true) :
    .notify k ∈ (p.act i f).workers ∨
      ((p.act i f).shared.addr (status server).proto).isSome = true := by
  cases at_i : p.workers[i]? with
  | none =>
    rw [Pool.act, at_i] at at_k ⊢
    exact orderly.announced k server at_k conn
  | some t =>
    have here := worker_mem_act f at_i
    rw [shared_act f at_i] at at_k ⊢
    rcases (acts t).announces at_k conn with notifies | ⟨old, at_k', conn', proto⟩
    · exact .inl (notifies ▸ here)
    · rw [← proto]
      rcases orderly.announced k old at_k' conn' with waiting | set
      · by_cases acting : t = .notify k
        · subst acting
          rcases (acts (.notify k)).notifies at_k' conn' with same | set
          · exact .inl (same ▸ here)
          · exact .inr set
        · refine .inl (mem_act_of_ne waiting fun is => acting ?_)
          exact Option.some.inj (at_i.symm.trans is)
      · exact .inr ((acts t).grown.addr set)

/-- No send on the closed channel, no second close, and no counter below zero. -/
lemma Acts.calm {t : Place} {a : Acted (Shared σ) Place} (acts : Acts cfg p.shared t a)
    (orderly : Orderly cfg p) (mem : t ∈ p.workers) : a.shared.panicked = false := by
  have counted := orderly.counted.wg.le mem
  have pooled := orderly.counted.pool.le mem
  have closes := orderly.counted.closer.le mem
  cases acts with
  | reportedLate late =>
    have idle := (orderly.quiet (.inl late) _ mem).counted
    cases idle
  | finishedTwice nobody =>
    rw [nobody] at counted
    exact absurd counted (by decide)
  | probeTwice nobody =>
    rw [nobody] at pooled
    exact absurd pooled (by decide)
  | closedTwice closed =>
    rw [Shared.unclosed, closed] at closes
    exact absurd closes (by decide)
  | _ => exact orderly.calm

lemma act_orderly (acts : ∀ t, Acts cfg p.shared t (f p.shared t)) (orderly : Orderly cfg p) :
    Orderly cfg (p.act i f) where
  counted := act_counted acts orderly.counted
  served := act_served acts orderly.served
  returned := by
    intro called
    have before : p.shared.called = true := by
      cases at_i : p.workers[i]? with
      | none =>
        rw [Pool.act, at_i] at called
        exact called
      | some t =>
        rw [shared_act f at_i, (acts t).called] at called
        exact called
    exact act_workers (fun t _ => (acts t).returned) (orderly.returned before)
  known := act_shared (P := fun s : Shared σ => ∀ k ∈ s.startupErr, k ∈ s.errChan)
    (fun t mem => (acts t).known (orderly.placed t mem) orderly.known) orderly.known
  placed := by
    have late (t : Place) (mem : t ∈ p.workers) (called : p.shared.called = true) :
        t.early = false := early_of_running (orderly.returned called t mem)
    exact act_relies (fun t mem _ _ => Placed.stable (acts t) (late t mem))
      (fun t _ => Placed.own (acts t) orderly.known) orderly.placed
  quiet := act_quiet acts orderly
  halted := act_halted acts orderly
  visited := fun _ mem _ past may => act_visited acts orderly mem past may
  settles := act_settles acts orderly
  announced := act_announced acts orderly
  calm := act_shared (P := fun s : Shared σ => s.panicked = false)
    (fun t mem => (acts t).calm orderly mem) orderly.calm

end

omit [Server σ] in
/-- The call of `Shutdown` changes nothing that was seen. -/
lemma Placed.call {cfg : Config} {s : Shared σ} {place : Place} (placed : Placed cfg s place) :
    Placed cfg { s with called := true } place := by
  cases place with
  | ran serving =>
    cases serving with
    | true => exact placed
    | false => exact placed
  | setShuttingDown | cancel => rfl
  | stop | stopping | waitGroup | stopPool | waitPool | detachXDP | saveSnapshot | stopped =>
    exact ⟨rfl, placed.2⟩
  | _ => exact placed

/-- The call of `Shutdown` finds that `Run` is over. -/
lemma call_orderly {cfg : Config} {p : System σ} {serving : Bool} (ran : .ran serving ∈ p.workers)
    (fresh : p.shared.called = false) (orderly : Orderly cfg p) :
    Orderly cfg (startShutdown p) where
  counted := call_counted fresh orderly.counted
  served := call_served orderly.served
  returned := by
    intro _ t mem
    rcases List.mem_append.mp mem with old | new
    · rw [Bool.eq_false_iff]
      intro running
      have ne : t ≠ .ran serving := by
        rintro rfl
        cases running
      have two := le_owned_two Place.runs old ran ne
      have one : 1 = owned Place.runs p.workers := orderly.counted.run
      have mine : (Place.ran serving).runs = 1 := rfl
      rw [runs_of_running running, mine] at two
      omega
    · rw [List.mem_singleton.mp new]
      rfl
  known := orderly.known
  placed := by
    intro t mem
    rcases List.mem_append.mp mem with old | new
    · exact (orderly.placed t old).call
    · rw [List.mem_singleton.mp new]
      rfl
  quiet := by
    have before (seen : SeenEmpty (startShutdown p)) : SeenEmpty p := by
      rcases seen with closed | closing | ⟨t, mem, waited⟩
      · exact .inl closed
      · rcases List.mem_append.mp closing with old | new
        · exact .inr (.inl old)
        · cases List.mem_singleton.mp new
      · rcases List.mem_append.mp mem with old | new
        · exact .inr (.inr ⟨t, old, waited⟩)
        · rw [List.mem_singleton.mp new] at waited
          cases waited
    intro seen t mem
    rcases List.mem_append.mp mem with old | new
    · exact orderly.quiet (before seen) t old
    · rw [List.mem_singleton.mp new]
      exact ⟨rfl, rfl⟩
  halted := by
    intro k stops
    rcases List.mem_append.mp stops with old | new
    · exact orderly.halted k old
    · cases List.mem_singleton.mp new
  visited := by
    intro t mem k past may
    rcases List.mem_append.mp mem with old | new
    · refine orderly.visited t old k past ?_
      rcases may with started | binder
      · exact .inl started
      · rw [owned_startShutdown rfl] at binder
        exact .inr binder
    · rw [List.mem_singleton.mp new] at past
      exact past.elim
  settles := by
    intro k within
    rcases orderly.settles k within with has | report | startup | sent | failed
    · left
      rw [owned_startShutdown rfl]
      exact has
    · exact .inr (.inl (List.mem_append_left _ report))
    · exact .inr (.inr (.inl (List.mem_append_left _ startup)))
    · exact .inr (.inr (.inr (.inl sent)))
    · exact .inr (.inr (.inr (.inr (List.mem_append_left _ failed))))
  announced := by
    intro k server at_k conn
    rcases orderly.announced k server at_k conn with waiting | set
    · exact .inl (List.mem_append_left _ waiting)
    · exact .inr set
  calm := orderly.calm

theorem step_orderly {cfg : Config} (p : System σ) (e : Event) (orderly : Orderly cfg p) :
    Orderly cfg (step cfg p e) := by
  refine step_keeps ?_ ?_ ?_ p e orderly
  · intro p i f acts orderly
    exact act_orderly acts orderly
  · intro p serving ran fresh orderly
    exact call_orderly ran fresh orderly
  · intro p orderly
    exact { orderly with
      counted := { orderly.counted with }
      served := { orderly.served with } }

/-- A new server has not listened. -/
lemma newServers_at {n k : Nat} {server : σ} (at_k : (newServers σ n)[k]? = some server) :
    (status server).conn = false ∧ (status server).started = false ∧
      (status server).finished = false := by
  have mem := List.mem_of_getElem? at_k
  simp only [newServers, List.mem_append, List.mem_replicate] at mem
  rcases mem with ⟨_, rfl⟩ | ⟨_, rfl⟩
  · simp
  · simp

lemma run_conn (cfg : Config) (k : Nat) :
    (run σ cfg).shared.conn k = 0 ∧ (run σ cfg).shared.inLoop k = 0 := by
  simp only [Shared.conn, Shared.inLoop, run]
  cases at_k : (newServers σ cfg.pairs)[k]? with
  | none => exact ⟨rfl, rfl⟩
  | some server => simp [(newServers_at at_k).1]

lemma run_served (cfg : Config) : Served cfg (run σ cfg) where
  protos := rfl
  sound := by
    intro server mem
    obtain ⟨k, at_k⟩ := List.mem_iff_getElem?.mp mem
    obtain ⟨_, started, finished⟩ := newServers_at at_k
    constructor
    · intro up
      rw [started] at up
      cases up
    · intro ended
      rw [finished] at ended
      cases ended
  binds := by
    intro k
    rw [(run_conn (σ := σ) cfg k).1]
    simp [run, Place.binds]
  serves := fun k => (run_conn cfg k).2

lemma run_counted (cfg : Config) : Counted cfg (run σ cfg) where
  wg := rfl
  pool := rfl
  closer := rfl
  run := rfl
  shutdown := rfl
  capacity := rfl
  sends := by simp [run, Place.unsent]
  sendsStartup := by simp [run, Place.unsentStartup]

theorem run_orderly (cfg : Config) : Orderly cfg (run σ cfg) where
  counted := run_counted cfg
  served := run_served cfg
  returned := fun called => Bool.noConfusion called
  known := fun _ mem => absurd mem List.not_mem_nil
  placed := by
    intro t mem
    rw [List.mem_singleton.mp mem]
    trivial
  quiet := by
    rintro (closed | closing | ⟨t, mem, waited⟩)
    · cases closed
    · cases List.mem_singleton.mp closing
    · rw [List.mem_singleton.mp mem] at waited
      cases waited
  halted := by
    intro k stops
    cases List.mem_singleton.mp stops
  visited := by
    intro t mem k past
    rw [List.mem_singleton.mp mem] at past
    exact past.elim
  settles := by
    intro k within
    left
    simp [run, Place.binds, within]
  announced := by
    intro k server at_k conn
    rw [(newServers_at at_k).1] at conn
    cases conn
  calm := rfl

/-- A goroutine that is about to send an error finds the channel open, with room. -/
lemma Orderly.report_room {cfg : Config} {p : System σ} (orderly : Orderly cfg p) {k : Nat}
    (mem : .report k ∈ p.workers) :
    p.shared.errClosed = false ∧ p.shared.errChan.length < p.shared.capacity := by
  constructor
  · rw [Bool.eq_false_iff]
    intro closed
    have idle := (orderly.quiet (.inl closed) _ mem).counted
    cases idle
  · have own : 1 ≤ owned (Place.unsent cfg.pairs) p.workers := le_owned (Place.unsent cfg.pairs) mem
    have sends := orderly.counted.sends
    rw [orderly.counted.capacity]
    omega

lemma Orderly.startup_room {cfg : Config} {p : System σ} (orderly : Orderly cfg p) {k : Nat}
    (mem : .reportStartup k ∈ p.workers) : p.shared.startupErr.length < p.shared.capacity := by
  have own : 1 ≤ owned (Place.unsentStartup cfg.pairs) p.workers :=
    le_owned (Place.unsentStartup cfg.pairs) mem
  have sends := orderly.counted.sendsStartup
  rw [orderly.counted.capacity]
  omega

theorem reachable_orderly (cfg : Config) (events : List Event) :
    Orderly cfg (StepRuns.run (step cfg) (run σ cfg) events) :=
  StepRuns.run_preserves (step cfg) step_orderly (run_orderly cfg) events

end ServerLife
