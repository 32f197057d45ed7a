import Rec53.WorkerPool

/-!
# Starting and stopping the server

`Run` and `Shutdown` of `server/server.go` with every goroutine they start: the listeners,
the warm-up, the two XDP loops, the probe loop of the pool of name servers and the goroutine
that closes `errChan`. All of them are workers, the calls of `Run` and `Shutdown` included; a
worker stands before its next action. `dns.Server` is a library's: here it is any type with the
operations that the two functions use and with what they assume of them.
`ShutdownContext` of a server that is not started is an error and leaves it alone.

`Shutdown` is called once, after `Run` has returned. A handler that is still at work holds up
the end of its serving loop. Log lines, gauges, the runtime phase, and errors of closing the
XDP loader are left out.
-/

namespace ServerLife

open WorkerPool

inductive Proto where
  | udp
  | tcp
  deriving DecidableEq

/-- What is seen of a server. `conn`: listening has begun; `started`: its serving loop goes on, and
`ShutdownContext` does not refuse it; `finished`: the loop has returned, which `ShutdownContext`
waits for. -/
structure Status where
  proto : Proto
  conn : Bool
  started : Bool
  finished : Bool
  deriving DecidableEq

/-- What is assumed of `dns.Server`: `listen`, the beginning of `ListenAndServe`, gives it a
connection and starts it, `stop`, that of `ShutdownContext`, takes the start back, `finish` is the
return of its loop, and none of them changes anything else. -/
class Server (σ : Type) where
  status : σ → Status
  make : Proto → σ
  listen : σ → σ
  stop : σ → σ
  finish : σ → σ
  status_make : ∀ proto, status (make proto) = ⟨proto, false, false, false⟩
  status_listen : ∀ server,
    status (listen server) = { status server with conn := true, started := true }
  status_stop : ∀ server, status (stop server) = { status server with started := false }
  status_finish : ∀ server, status (finish server) = { status server with finished := true }

attribute [simp] Server.status_make Server.status_listen Server.status_stop Server.status_finish

open Server (status listen stop finish)

abbrev Server.proto {σ : Type} [Server σ] (server : σ) : Proto := (status server).proto

lemma Server.proto_make {σ : Type} [Server σ] (proto : Proto) :
    Server.proto (Server.make proto : σ) = proto := by
  rw [Server.proto, Server.status_make]

/-- A server that is no more than its status. -/
instance : Server Status where
  status := id
  make proto := ⟨proto, false, false, false⟩
  listen server := { server with conn := true, started := true }
  stop server := { server with started := false }
  finish server := { server with finished := true }
  status_make _ := rfl
  status_listen _ := rfl
  status_stop _ := rfl
  status_finish _ := rfl

structure Config where
  listeners : Nat
  xdp : Bool
  warmup : Bool
  snapshot : Bool

def Config.pairs (cfg : Config) : Nat := if cfg.listeners < 1 then 1 else cfg.listeners

/-- An error in the result of `Shutdown`. -/
inductive StopErr where
  | notStarted (k : Nat)
  | deadline (k : Nat)
  | pool
  deriving DecidableEq

/-- A place in the code before which a goroutine stands; `k` is the number of a server, those
for UDP first. -/
inductive Place where
  -- Run
  | startProbeLoop
  | loadAndAttach
  | startWarmup
  | addListeners
  | launch (waiting : List Nat)
  | startCloser
  | await (udp tcp : Bool)
  | setServing
  | ran (serving : Bool)
  -- ListenAndServe of a server, and the two sends of its error
  | listen (k : Nat)
  | notify (k : Nat)
  | serve (k : Nat)
  | report (k : Nat)
  | reportStartup (k : Nat)
  -- the other goroutines of `wg`, and its deferred `Done`
  | warmup
  | xdpLoop
  | done
  -- the probe loop of the pool
  | probe
  -- the goroutine that closes `errChan`
  | waitAll
  | closeErrChan
  -- Shutdown
  | setShuttingDown
  | cancel
  | stop (k : Nat)
  | stopping (k : Nat)
  | waitGroup
  | stopPool
  | waitPool
  | detachXDP
  | saveSnapshot
  | stopped
  | ended
  deriving DecidableEq

/-- An entry of `errChan` or `startupErr` is the number of the server whose error it is. A ready
channel is closed together with the address being set. -/
structure Shared (σ : Type) where
  servers : List σ
  wg : Nat
  poolWg : Nat
  capacity : Nat
  errChan : List Nat
  errClosed : Bool
  startupErr : List Nat
  udpAddr : Option Nat
  tcpAddr : Option Nat
  xdpLoader : Bool
  xdpMap : Bool
  xdpCancelled : Bool
  poolCancelled : Bool
  called : Bool
  expired : Bool
  errs : List StopErr
  saved : Bool
  panicked : Bool
  deriving DecidableEq

abbrev System (σ : Type) := Pool (Shared σ) Place

/-- The cases of the select in `Run`. -/
inductive Ready where
  | udp
  | tcp
  | failed

/-- What the outside decides: whether an attempt succeeds (attaching, listening, ending before
the deadline), and which case of a select is taken. -/
structure Choice where
  ok : Bool
  ready : Ready

section
variable {σ : Type} [Server σ]

namespace Shared

/-- `wg.Done`; below zero it panics. -/
def finish (s : Shared σ) : Acted (Shared σ) Place :=
  if s.wg = 0 then ⟨{ s with panicked := true }, .done, []⟩
  else ⟨{ s with wg := s.wg - 1 }, .ended, []⟩

/-- The `NotifyStartedFunc` of server `k`; the two `sync.Once` let the first pass. -/
def notifyStarted (s : Shared σ) (k : Nat) : Shared σ :=
  match s.servers[k]? with
  | none => s
  | some server =>
    if (status server).conn = false then s
    else
      match (status server).proto with
      | .udp => if s.udpAddr.isSome then s else { s with udpAddr := some k }
      | .tcp => if s.tcpAddr.isSome then s else { s with tcpAddr := some k }

def setServer (s : Shared σ) (k : Nat) (server : σ) : Shared σ :=
  { s with servers := s.servers.set k server }

def fail (s : Shared σ) (err : StopErr) : Shared σ := { s with errs := s.errs ++ [err] }

end Shared

/-- The goroutines are started in pairs, UDP first. -/
def launchOrder (n : Nat) : List Nat := (List.range n).flatMap fun i => [i, n + i]

def runStep (cfg : Config) (c : Choice) (s : Shared σ) : Place → Acted (Shared σ) Place
  | .startProbeLoop => ⟨{ s with poolWg := s.poolWg + 1 }, .loadAndAttach, [.probe]⟩
  | .loadAndAttach =>
    if s.xdpLoader = false then ⟨s, .startWarmup, []⟩
    else if c.ok then
      ⟨{ s with xdpMap := true, wg := s.wg + 2 }, .startWarmup, [.xdpLoop, .xdpLoop]⟩
    else ⟨{ s with xdpLoader := false }, .startWarmup, []⟩
  | .startWarmup =>
    if cfg.warmup then ⟨{ s with wg := s.wg + 1 }, .addListeners, [.warmup]⟩
    else ⟨s, .addListeners, []⟩
  | .addListeners =>
    ⟨{ s with wg := s.wg + 2 * cfg.pairs }, .launch (launchOrder cfg.pairs), []⟩
  | .launch (k :: waiting) => ⟨s, .launch waiting, [.listen k]⟩
  | .launch [] => ⟨s, .startCloser, []⟩
  | .startCloser => ⟨s, .await true true, [.waitAll]⟩
  | .await udp tcp =>
    if !udp && !tcp then ⟨s, .setServing, []⟩
    else
      match c.ready with
      | .udp =>
        if udp && s.udpAddr.isSome then ⟨s, .await false tcp, []⟩ else ⟨s, .await udp tcp, []⟩
      | .tcp =>
        if tcp && s.tcpAddr.isSome then ⟨s, .await udp false, []⟩ else ⟨s, .await udp tcp, []⟩
      | .failed =>
        match s.startupErr with
        | [] => ⟨s, .await udp tcp, []⟩
        | _ :: rest => ⟨{ s with startupErr := rest }, .ran false, []⟩
  | .setServing => ⟨s, .ran true, []⟩
  | place => ⟨s, place, []⟩

def listenerStep (c : Choice) (s : Shared σ) : Place → Acted (Shared σ) Place
  | .listen k =>
    match s.servers[k]? with
    | none => ⟨s, .listen k, []⟩
    | some server =>
      if c.ok then ⟨s.setServer k (listen server), .notify k, []⟩
      else ⟨s, .report k, []⟩
  | .notify k => ⟨s.notifyStarted k, .serve k, []⟩
  | .serve k =>
    match s.servers[k]? with
    | none => ⟨s, .serve k, []⟩
    | some server =>
      if (status server).started then ⟨s, .serve k, []⟩
      else ⟨s.setServer k (finish server), .done, []⟩
  | .report k =>
    if s.errClosed then ⟨{ s with panicked := true }, .report k, []⟩
    else if s.errChan.length < s.capacity then
      ⟨{ s with errChan := s.errChan ++ [k] }, .reportStartup k, []⟩
    else ⟨s, .report k, []⟩
  | .reportStartup k =>
    if s.startupErr.length < s.capacity then
      ⟨{ s with startupErr := s.startupErr ++ [k] }, .done, []⟩
    else ⟨s, .reportStartup k, []⟩
  | place => ⟨s, place, []⟩

/-- The warm-up may end at any time, the loops when they are cancelled. -/
def backgroundStep (s : Shared σ) : Place → Acted (Shared σ) Place
  | .warmup => ⟨s, .done, []⟩
  | .xdpLoop => if s.xdpCancelled then ⟨s, .done, []⟩ else ⟨s, .xdpLoop, []⟩
  | .done => s.finish
  | .probe =>
    if s.poolCancelled = false then ⟨s, .probe, []⟩
    else if s.poolWg = 0 then ⟨{ s with panicked := true }, .probe, []⟩
    else ⟨{ s with poolWg := s.poolWg - 1 }, .ended, []⟩
  | .waitAll => if s.wg = 0 then ⟨s, .closeErrChan, []⟩ else ⟨s, .waitAll, []⟩
  | .closeErrChan =>
    if s.errClosed then ⟨{ s with panicked := true }, .closeErrChan, []⟩
    else ⟨{ s with errClosed := true }, .ended, []⟩
  | place => ⟨s, place, []⟩

/-- The wait for the serving loop ends with it or, when the context is done, with an error. -/
def shutdownStep (cfg : Config) (c : Choice) (s : Shared σ) : Place → Acted (Shared σ) Place
  | .setShuttingDown => ⟨s, .cancel, []⟩
  | .cancel => ⟨{ s with xdpCancelled := true }, .stop 0, []⟩
  | .stop k =>
    match s.servers[k]? with
    | none => ⟨s, .waitGroup, []⟩
    | some server =>
      if (status server).started then ⟨s.setServer k (stop server), .stopping k, []⟩
      else ⟨s.fail (.notStarted k), .stop (k + 1), []⟩
  | .stopping k =>
    if !c.ok && s.expired then ⟨s.fail (.deadline k), .stop (k + 1), []⟩
    else
      match s.servers[k]? with
      | none => ⟨s, .stopping k, []⟩
      | some server =>
        if (status server).finished then ⟨s, .stop (k + 1), []⟩ else ⟨s, .stopping k, []⟩
  | .waitGroup => if s.wg = 0 then ⟨s, .stopPool, []⟩ else ⟨s, .waitGroup, []⟩
  | .stopPool => ⟨{ s with poolCancelled := true }, .waitPool, []⟩
  | .waitPool =>
    if !c.ok && s.expired then ⟨s.fail .pool, .detachXDP, []⟩
    else if s.poolWg = 0 then ⟨s, .detachXDP, []⟩
    else ⟨s, .waitPool, []⟩
  | .detachXDP => ⟨{ s with xdpLoader := false, xdpMap := false }, .saveSnapshot, []⟩
  | .saveSnapshot => ⟨{ s with saved := cfg.snapshot }, .stopped, []⟩
  | place => ⟨s, place, []⟩

def advance (cfg : Config) (c : Choice) (s : Shared σ) (place : Place) : Acted (Shared σ) Place :=
  match place with
  | .startProbeLoop | .loadAndAttach | .startWarmup | .addListeners | .launch _ | .startCloser
  | .await _ _ | .setServing => runStep cfg c s place
  | .listen _ | .notify _ | .serve _ | .report _ | .reportStartup _ => listenerStep c s place
  | .warmup | .xdpLoop | .done | .probe | .waitAll | .closeErrChan => backgroundStep s place
  | .setShuttingDown | .cancel | .stop _ | .stopping _ | .waitGroup | .stopPool | .waitPool
  | .detachXDP | .saveSnapshot => shutdownStep cfg c s place
  | .ran _ | .stopped | .ended => ⟨s, place, []⟩

/-- The serving loop of a started server returns with an error. -/
def crash (s : Shared σ) (place : Place) : Acted (Shared σ) Place :=
  match place with
  | .serve k =>
    match s.servers[k]? with
    | none => ⟨s, place, []⟩
    | some server =>
      if (status server).started then ⟨s.setServer k (finish server), .report k, []⟩
      else ⟨s, place, []⟩
  | _ => ⟨s, place, []⟩

/-- An action of a goroutine, the call of `Shutdown`, or what comes from outside. -/
inductive Event where
  | advance (i : Nat) (c : Choice)
  | shutdown
  | crash (i : Nat)
  | expire

def startShutdown (p : System σ) : System σ :=
  ⟨{ p.shared with called := true }, p.workers ++ [.setShuttingDown]⟩

def callShutdown (p : System σ) : System σ :=
  match (p.workers[0]? : Option Place) with
  | some (.ran _) => if p.shared.called then p else startShutdown p
  | _ => p

def step (cfg : Config) (p : System σ) : Event → System σ
  | .advance i c => p.act i (advance cfg c)
  | .shutdown => callShutdown p
  | .crash i => p.act i crash
  | .expire => { p with shared := { p.shared with expired := true } }

def newServers (σ : Type) [Server σ] (n : Nat) : List σ :=
  List.replicate n (Server.make .udp) ++ List.replicate n (Server.make .tcp)

/-- `Run` is called, and has made its channels and servers. -/
def run (σ : Type) [Server σ] (cfg : Config) : System σ where
  shared := {
    servers := newServers σ cfg.pairs, wg := 0, poolWg := 0, capacity := 2 * cfg.pairs
    errChan := [], errClosed := false, startupErr := [], udpAddr := none, tcpAddr := none
    xdpLoader := cfg.xdp, xdpMap := false, xdpCancelled := false, poolCancelled := false
    called := false, expired := false, errs := [], saved := false, panicked := false }
  workers := [.startProbeLoop]

/-! ### What an action can do -/

/-- The address of a protocol stays, or is that of server `k` from now on. -/
inductive Announced (proto : Proto) (servers : List σ) (k : Nat) :
    Option Nat → Option Nat → Prop
  | same {addr} (known : ∀ server, servers[k]? = some server → (status server).conn = true →
      (status server).proto = proto → addr.isSome = true) : Announced proto servers k addr addr
  | first {server} (at_k : servers[k]? = some server) (conn : (status server).conn = true)
      (is : (status server).proto = proto) : Announced proto servers k none (some k)

inductive Acts (cfg : Config) (s : Shared σ) : Place → Acted (Shared σ) Place → Prop
  | rest {place} : Acts cfg s place ⟨s, place, []⟩
  | probeStarted : Acts cfg s .startProbeLoop
      ⟨{ s with poolWg := s.poolWg + 1 }, .loadAndAttach, [.probe]⟩
  | xdpOff : Acts cfg s .loadAndAttach ⟨s, .startWarmup, []⟩
  | xdpOn : Acts cfg s .loadAndAttach
      ⟨{ s with xdpMap := true, wg := s.wg + 2 }, .startWarmup, [.xdpLoop, .xdpLoop]⟩
  | xdpFailed : Acts cfg s .loadAndAttach ⟨{ s with xdpLoader := false }, .startWarmup, []⟩
  | warmupStarted : Acts cfg s .startWarmup
      ⟨{ s with wg := s.wg + 1 }, .addListeners, [.warmup]⟩
  | warmupOff : Acts cfg s .startWarmup ⟨s, .addListeners, []⟩
  | listenersAdded : Acts cfg s .addListeners
      ⟨{ s with wg := s.wg + 2 * cfg.pairs }, .launch (launchOrder cfg.pairs), []⟩
  | launched {k waiting} : Acts cfg s (.launch (k :: waiting)) ⟨s, .launch waiting, [.listen k]⟩
  | allLaunched : Acts cfg s (.launch []) ⟨s, .startCloser, []⟩
  | closerStarted : Acts cfg s .startCloser ⟨s, .await true true, [.waitAll]⟩
  | bothReady : Acts cfg s (.await false false) ⟨s, .setServing, []⟩
  | udpReady {tcp} (set : s.udpAddr.isSome = true) :
      Acts cfg s (.await true tcp) ⟨s, .await false tcp, []⟩
  | tcpReady {udp} (set : s.tcpAddr.isSome = true) :
      Acts cfg s (.await udp true) ⟨s, .await udp false, []⟩
  | startFailed {udp tcp k rest} (chan : s.startupErr = k :: rest) :
      Acts cfg s (.await udp tcp) ⟨{ s with startupErr := rest }, .ran false, []⟩
  | servingSet : Acts cfg s .setServing ⟨s, .ran true, []⟩
  | listening {k server} (at_k : s.servers[k]? = some server) : Acts cfg s (.listen k)
      ⟨s.setServer k (listen server), .notify k, []⟩
  | listenFailed {k} : Acts cfg s (.listen k) ⟨s, .report k, []⟩
  | notified {k udp tcp} (udpIs : Announced .udp s.servers k s.udpAddr udp)
      (tcpIs : Announced .tcp s.servers k s.tcpAddr tcp) :
      Acts cfg s (.notify k) ⟨{ s with udpAddr := udp, tcpAddr := tcp }, .serve k, []⟩
  | serveEnded {k server} (at_k : s.servers[k]? = some server)
      (down : (status server).started = false) :
      Acts cfg s (.serve k) ⟨s.setServer k (finish server), .done, []⟩
  | serveFailed {k server} (at_k : s.servers[k]? = some server)
      (up : (status server).started = true) :
      Acts cfg s (.serve k) ⟨s.setServer k (finish server), .report k, []⟩
  | reported {k} (is_open : s.errClosed = false) (room : s.errChan.length < s.capacity) :
      Acts cfg s (.report k) ⟨{ s with errChan := s.errChan ++ [k] }, .reportStartup k, []⟩
  | reportedLate {k} (late : s.errClosed = true) :
      Acts cfg s (.report k) ⟨{ s with panicked := true }, .report k, []⟩
  | startupReported {k} (room : s.startupErr.length < s.capacity) :
      Acts cfg s (.reportStartup k) ⟨{ s with startupErr := s.startupErr ++ [k] }, .done, []⟩
  | warmupEnded : Acts cfg s .warmup ⟨s, .done, []⟩
  | xdpLoopEnded : Acts cfg s .xdpLoop ⟨s, .done, []⟩
  | finished (counted : s.wg ≠ 0) : Acts cfg s .done ⟨{ s with wg := s.wg - 1 }, .ended, []⟩
  | finishedTwice (nobody : s.wg = 0) : Acts cfg s .done ⟨{ s with panicked := true }, .done, []⟩
  | probeEnded (counted : s.poolWg ≠ 0) :
      Acts cfg s .probe ⟨{ s with poolWg := s.poolWg - 1 }, .ended, []⟩
  | probeTwice (nobody : s.poolWg = 0) :
      Acts cfg s .probe ⟨{ s with panicked := true }, .probe, []⟩
  | allDone (nobody : s.wg = 0) : Acts cfg s .waitAll ⟨s, .closeErrChan, []⟩
  | errChanClosed (is_open : s.errClosed = false) :
      Acts cfg s .closeErrChan ⟨{ s with errClosed := true }, .ended, []⟩
  | closedTwice (closed : s.errClosed = true) :
      Acts cfg s .closeErrChan ⟨{ s with panicked := true }, .closeErrChan, []⟩
  | shuttingDown : Acts cfg s .setShuttingDown ⟨s, .cancel, []⟩
  | cancelled : Acts cfg s .cancel ⟨{ s with xdpCancelled := true }, .stop 0, []⟩
  | allStopped {k} (beyond : s.servers[k]? = none) : Acts cfg s (.stop k) ⟨s, .waitGroup, []⟩
  | stopBegun {k server} (at_k : s.servers[k]? = some server)
      (up : (status server).started = true) :
      Acts cfg s (.stop k) ⟨s.setServer k (stop server), .stopping k, []⟩
  | stopSkipped {k server} (at_k : s.servers[k]? = some server)
      (down : (status server).started = false) :
      Acts cfg s (.stop k) ⟨s.fail (.notStarted k), .stop (k + 1), []⟩
  | stopExpired {k} : Acts cfg s (.stopping k) ⟨s.fail (.deadline k), .stop (k + 1), []⟩
  | stopEnded {k} : Acts cfg s (.stopping k) ⟨s, .stop (k + 1), []⟩
  | groupWaited (nobody : s.wg = 0) : Acts cfg s .waitGroup ⟨s, .stopPool, []⟩
  | poolStopped : Acts cfg s .stopPool ⟨{ s with poolCancelled := true }, .waitPool, []⟩
  | poolExpired : Acts cfg s .waitPool ⟨s.fail .pool, .detachXDP, []⟩
  | poolWaited : Acts cfg s .waitPool ⟨s, .detachXDP, []⟩
  | detached : Acts cfg s .detachXDP
      ⟨{ s with xdpLoader := false, xdpMap := false }, .saveSnapshot, []⟩
  | snapshotSaved : Acts cfg s .saveSnapshot ⟨{ s with saved := cfg.snapshot }, .stopped, []⟩

lemma runStep_acts (cfg : Config) (c : Choice) (s : Shared σ) (place : Place) :
    Acts cfg s place (runStep cfg c s place) := by
  cases place with
  | startProbeLoop => exact .probeStarted
  | loadAndAttach =>
    rw [runStep]
    split
    · exact .xdpOff
    split
    · exact .xdpOn
    · exact .xdpFailed
  | startWarmup =>
    rw [runStep]
    split
    · exact .warmupStarted
    · exact .warmupOff
  | addListeners => exact .listenersAdded
  | launch waiting =>
    cases waiting with
    | nil => exact .allLaunched
    | cons k waiting => exact .launched
  | startCloser => exact .closerStarted
  | await udp tcp =>
    rw [runStep]
    split
    · rename_i both
      rw [Bool.and_eq_true, Bool.not_eq_true', Bool.not_eq_true'] at both
      rw [both.1, both.2]
      exact .bothReady
    split
    · split
      · rename_i ready
        rw [Bool.and_eq_true] at ready
        rw [ready.1]
        exact .udpReady ready.2
      · exact .rest
    · split
      · rename_i ready
        rw [Bool.and_eq_true] at ready
        rw [ready.1]
        exact .tcpReady ready.2
      · exact .rest
    · split
      · exact .rest
      · rename_i chan
        exact .startFailed chan
  | setServing => exact .servingSet
  | _ => exact .rest

lemma notifyStarted_acts (cfg : Config) (s : Shared σ) (k : Nat) :
    Acts cfg s (.notify k) ⟨s.notifyStarted k, .serve k, []⟩ := by
  rw [Shared.notifyStarted]
  cases at_k : s.servers[k]? with
  | none =>
    exact .notified (.same fun _ is => by simp [at_k] at is)
      (.same fun _ is => by simp [at_k] at is)
  | some server =>
    have other {proto : Proto} {addr : Option Nat}
        (known : (status server).conn = true → (status server).proto = proto → addr.isSome = true) :
        Announced proto s.servers k addr addr := by
      refine .same fun server' is => ?_
      cases at_k.symm.trans is
      exact known
    dsimp only
    split
    · rename_i silent
      have never (proto : Proto) (addr : Option Nat) : Announced proto s.servers k addr addr :=
        other fun conn => by rw [silent] at conn; cases conn
      exact .notified (never .udp s.udpAddr) (never .tcp s.tcpAddr)
    · rename_i conn
      rw [Bool.not_eq_false] at conn
      cases proto : (status server).proto with
      | udp =>
        have tcpIs : Announced .tcp s.servers k s.tcpAddr s.tcpAddr :=
          other fun _ is => by rw [proto] at is; cases is
        dsimp only
        split
        · rename_i set
          exact .notified (other fun _ _ => set) tcpIs
        · rename_i unset
          rw [Bool.not_eq_true, Option.isSome_eq_false_iff, Option.isNone_iff_eq_none] at unset
          exact .notified (unset ▸ .first at_k conn proto) tcpIs
      | tcp =>
        have udpIs : Announced .udp s.servers k s.udpAddr s.udpAddr :=
          other fun _ is => by rw [proto] at is; cases is
        dsimp only
        split
        · rename_i set
          exact .notified udpIs (other fun _ _ => set)
        · rename_i unset
          rw [Bool.not_eq_true, Option.isSome_eq_false_iff, Option.isNone_iff_eq_none] at unset
          exact .notified udpIs (unset ▸ .first at_k conn proto)

lemma listenerStep_acts (cfg : Config) (c : Choice) (s : Shared σ) (place : Place) :
    Acts cfg s place (listenerStep c s place) := by
  cases place with
  | listen k =>
    rw [listenerStep]
    split
    · exact .rest
    · rename_i at_k
      split
      · exact .listening at_k
      · exact .listenFailed
  | notify k => exact notifyStarted_acts cfg s k
  | serve k =>
    rw [listenerStep]
    split
    · exact .rest
    · rename_i at_k
      split
      · exact .rest
      · rename_i down
        exact .serveEnded at_k (Bool.eq_false_iff.mpr down)
  | report k =>
    rw [listenerStep]
    split
    · rename_i late
      exact .reportedLate late
    · rename_i is_open
      split
      · rename_i room
        exact .reported (Bool.eq_false_iff.mpr is_open) room
      · exact .rest
  | reportStartup k =>
    rw [listenerStep]
    split
    · rename_i room
      exact .startupReported room
    · exact .rest
  | _ => exact .rest

lemma backgroundStep_acts (cfg : Config) (s : Shared σ) (place : Place) :
    Acts cfg s place (backgroundStep s place) := by
  cases place with
  | warmup => exact .warmupEnded
  | xdpLoop =>
    rw [backgroundStep]
    split
    · exact .xdpLoopEnded
    · exact .rest
  | done =>
    rw [backgroundStep, Shared.finish]
    split
    · rename_i nobody
      exact .finishedTwice nobody
    · rename_i counted
      exact .finished counted
  | probe =>
    rw [backgroundStep]
    split
    · exact .rest
    split
    · rename_i nobody
      exact .probeTwice nobody
    · rename_i counted
      exact .probeEnded counted
  | waitAll =>
    rw [backgroundStep]
    split
    · rename_i nobody
      exact .allDone nobody
    · exact .rest
  | closeErrChan =>
    rw [backgroundStep]
    split
    · rename_i closed
      exact .closedTwice closed
    · rename_i is_open
      exact .errChanClosed (Bool.eq_false_iff.mpr is_open)
  | _ => exact .rest

lemma shutdownStep_acts (cfg : Config) (c : Choice) (s : Shared σ) (place : Place) :
    Acts cfg s place (shutdownStep cfg c s place) := by
  cases place with
  | setShuttingDown => exact .shuttingDown
  | cancel => exact .cancelled
  | stop k =>
    rw [shutdownStep]
    split
    · rename_i beyond
      exact .allStopped beyond
    · rename_i at_k
      split
      · rename_i up
        exact .stopBegun at_k up
      · rename_i down
        exact .stopSkipped at_k (Bool.eq_false_iff.mpr down)
  | stopping k =>
    rw [shutdownStep]
    split
    · exact .stopExpired
    split
    · exact .rest
    split
    · exact .stopEnded
    · exact .rest
  | waitGroup =>
    rw [shutdownStep]
    split
    · rename_i nobody
      exact .groupWaited nobody
    · exact .rest
  | stopPool => exact .poolStopped
  | waitPool =>
    rw [shutdownStep]
    split
    · exact .poolExpired
    split
    · exact .poolWaited
    · exact .rest
  | detachXDP => exact .detached
  | saveSnapshot => exact .snapshotSaved
  | _ => exact .rest

theorem advance_acts (cfg : Config) (c : Choice) (s : Shared σ) (place : Place) :
    Acts cfg s place (advance cfg c s place) := by
  rw [advance.eq_def]
  split
  all_goals first
    | exact runStep_acts cfg c s _
    | exact listenerStep_acts cfg c s _
    | exact backgroundStep_acts cfg s _
    | exact shutdownStep_acts cfg c s _

theorem crash_acts (cfg : Config) (s : Shared σ) (place : Place) :
    Acts cfg s place (crash s place) := by
  cases place with
  | serve k =>
    rw [crash]
    split
    · exact .rest
    · rename_i at_k
      split
      · rename_i up
        exact .serveFailed at_k up
      · exact .rest
  | _ => exact .rest

/-- An invariant of the server is kept by the actions, by the call of `Shutdown` and by the end
of its context. -/
theorem step_keeps {cfg : Config} {P : System σ → Prop}
    (acts : ∀ p i f, (∀ t, Acts cfg p.shared t (f p.shared t)) → P p → P (p.act i f))
    (calls : ∀ p serving, .ran serving ∈ p.workers → p.shared.called = false → P p →
      P (startShutdown p))
    (expires : ∀ p, P p → P { p with shared := { p.shared with expired := true } })
    (p : System σ) (e : Event) (before : P p) : P (step cfg p e) := by
  cases e with
  | advance i c => exact acts p i _ (advance_acts cfg c p.shared) before
  | shutdown =>
    rw [step, callShutdown]
    split
    · rename_i serving at_zero
      split
      · exact before
      · rename_i fresh
        exact calls p serving (List.mem_of_getElem? at_zero) (Bool.eq_false_iff.mpr fresh) before
    · exact before
  | crash i => exact acts p i _ (crash_acts cfg p.shared) before
  | expire => exact expires p before

end

end ServerLife
