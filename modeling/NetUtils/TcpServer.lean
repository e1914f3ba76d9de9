import NetUtils.ITcpBrokerServerEngine

/-!
# `TcpServer`

`IPV4ThreadsTcpServer` and `IPV6ThreadsTcpServer`, which accept the clients of
the echo handlers: the calls `start` and `stop` of their base class, and the
`initSocket` and `run` of either, down to the system calls they make. The
kernel is the table of `NetUtils.ITcpBrokerServerEngine`, with the server in
the place of the engine.

The calls are made one after another. But `start` does not return as long as
`run` does not, and while a `run` is in its loop the next call can be made, by
another thread. So the server has one thread in a call, and any number of
threads in `run`; each of these reads `mFd` again for every `accept`. A thread
that is in `accept` stays on the socket it has entered with when the number is
closed, and the number is free for another socket then. The test of `mFd` that
`start` begins with is one step with the answer it can lead to.

The two vectors of socket option callbacks are never applied by these servers,
and are left out.
-/

/-- The class of a server. -/
inductive TcpServerType where
  /-- `IPV4ThreadsTcpServer`. -/
  | IPV4ThreadsTcpServer
  /-- `IPV6ThreadsTcpServer`. -/
  | IPV6ThreadsTcpServer
  deriving DecidableEq, Repr

/-- Where the thread that calls the server stands. -/
inductive TcpServerPc where
  /-- Between calls. -/
  | idle
  /-- In `stop()`, at `mFd = INVALID_FD`. -/
  | storeInvalid
  /-- At `socket()`. -/
  | socket
  /-- At `setsockopt(… SO_REUSEADDR …)`. -/
  | setReuseAddr (svr_sock : ℤ)
  /-- At `setsockopt(… IPV6_V6ONLY …)`. -/
  | setV6Only (svr_sock : ℤ)
  /-- Filling in `server_addr`. -/
  | fillAddress (svr_sock : ℤ)
  /-- At `bind()`. -/
  | bind (svr_sock : ℤ) (server_addr : SockAddr)
  /-- At `listen()`. -/
  | listen (svr_sock : ℤ)
  deriving DecidableEq, Repr

/-- Where a thread in `run()` stands. -/
inductive RunPc where
  /-- Reading `mFd` for `accept`. -/
  | loadFd
  /-- Calling `accept` on the number read. -/
  | enterAccept (fd : ℤ)
  /-- In `accept`, on the socket of this number, or of none since it has been
  closed. -/
  | accept (fd : Option ℤ)
  /-- At `setsockopt(client_socket, … SO_RCVTIMEO …)`. -/
  | setRcvTimeo (client_socket : ℤ)
  /-- At `setsockopt(client_socket, … SO_SNDTIMEO …)`. -/
  | setSndTimeo (client_socket : ℤ)
  /-- Returned, and `start()` with it. -/
  | returned
  deriving DecidableEq, Repr

namespace RunPc

/-- The loop accepts on the socket that `fd` stands for, now or the next time
it calls `accept`, as long as `mFd` is `fd`. -/
def acceptsOn (fd : ℤ) : RunPc → Bool
  | loadFd => true
  | enterAccept f => decide (f = fd)
  | accept f => decide (f = some fd)
  | setRcvTimeo _ => true
  | setSndTimeo _ => true
  | returned => false

/-- What `close(fd)` is for a thread in `accept`. -/
def closed (fd : ℤ) : RunPc → RunPc
  | accept f => if f = some fd then accept none else accept f
  | pc => pc

end RunPc

/-- **`TcpServer`**: the fields its calls read and write, the kernel's table,
and where the threads stand. -/
structure TcpServer where
  /-- The class. -/
  type : TcpServerType
  /-- The listening address, empty for any. -/
  mIp : String
  /-- The listening port. -/
  mPort : BitVec 16
  /-- The listening socket, or `INVALID_FD`. -/
  mFd : ℤ
  /-- What each descriptor number stands for. -/
  table : ℤ → Option Descriptor
  /-- The calling thread. -/
  pc : TcpServerPc
  /-- The threads in `run()`. -/
  runs : List RunPc

namespace TcpServer

/-- The server its constructor builds. -/
def init (type : TcpServerType) (ip : String) (port : BitVec 16)
    (table : ℤ → Option Descriptor) : TcpServer where
  type := type
  mIp := ip
  mPort := port
  mFd := INVALID_FD
  table := table
  pc := .idle
  runs := []

/-- What can be observed. A report comes with what `mFd` stands for as it is
made, and that of `start()` with whether a `run()` accepts there. -/
inductive Event where
  /-- `initSocket()` has returned. -/
  | initSocket (ok : Bool) (listener : Option Descriptor)
  /-- `start()` has returned. -/
  | start (ok : Bool) (listener : Option Descriptor) (accepting : Bool)
  /-- `stop()` has returned. -/
  | stop (ok : Bool)
  deriving DecidableEq

/-- The steps: those of the calling thread and of those in `run()`, with what
the kernel answers, and those of the rest of the process. -/
inductive Action where
  /-- `start()` is called. -/
  | start
  /-- `stop()` is called. -/
  | stop
  /-- The calling thread goes on to its next system call. -/
  | go
  /-- `socket` answers a number, or fails. -/
  | socket (fd : Option ℤ)
  /-- `setsockopt` succeeds, or fails. -/
  | setsockopt (ok : Bool)
  /-- `bind` succeeds, or fails. -/
  | bind (ok : Bool)
  /-- `listen` succeeds, or fails. -/
  | listen (ok : Bool)
  /-- A thread in `run()` goes on to its `accept`. -/
  | runGo (i : ℕ)
  /-- Its `accept` answers a client's number, or fails. -/
  | runAccept (i : ℕ) (client_socket : Option ℤ)
  /-- Its `setsockopt` succeeds, or fails. -/
  | runSetsockopt (i : ℕ) (ok : Bool)
  /-- Someone else opens a descriptor. -/
  | otherOpens (fd : ℤ) (bound : Option SockAddr) (listening : Bool)
  /-- Someone else closes a descriptor of their own. -/
  | otherCloses (fd : ℤ)
  deriving DecidableEq

/-- What a step answers. -/
abbrev Next := Option (TcpServer × List Event)

variable (syn : AddressSyntax) (s : TcpServer)

/-- What `mFd` stands for. -/
def listener : Option Descriptor := if s.mFd = INVALID_FD then none else s.table s.mFd

/-- A `run()` accepts on the socket of `mFd`. -/
def accepting : Bool := s.runs.any (·.acceptsOn s.mFd)

/-- The number `fd` now stands for `target`. -/
@[simps] def setTable (fd : ℤ) (target : Option Descriptor) : TcpServer :=
  { s with table := Function.update s.table fd target }

/-- The kernel's side of `close(fd)`. -/
@[simps] def closed (fd : ℤ) : TcpServer :=
  { s with
    table := Function.update s.table fd none
    runs := s.runs.map (·.closed fd) }

/-- The `i`-th thread in `run()` now stands at `pc`. -/
@[simps] def setRun (i : ℕ) (pc : RunPc) : TcpServer := { s with runs := s.runs.set i pc }

/-- `server_addr`, or `none` where `inet_pton` fails. -/
def server_addr : Option SockAddr :=
  match s.type with
  | .IPV4ThreadsTcpServer =>
    some ⟨.v4 (if s.mIp.isEmpty then INADDR_ANY else syn.inet_addr s.mIp), s.mPort⟩
  | .IPV6ThreadsTcpServer =>
    if s.mIp.isEmpty then some ⟨.v6 in6addr_any, s.mPort⟩
    else (syn.inet_pton s.mIp).map (fun addr => ⟨.v6 addr, s.mPort⟩)

/-- `start()` returns, and makes its report. -/
def reports (ok : Bool) : TcpServer × List Event := (s, [.start ok s.listener s.accepting])

/-- An `int` as a `bool`. -/
def toBool (n : ℤ) : Bool := decide (n ≠ 0)

/-- `initSocket()` returns to `start()`, which calls `run()` if it has answered
`true` and returns `false` if not. -/
def initReturns (ok : Bool) : TcpServer × List Event :=
  if ok then ({ s with pc := .idle, runs := s.runs ++ [.loadFd] }, [.initSocket true s.listener])
  else
    ({ s with pc := .idle },
      [.initSocket false s.listener, .start false s.listener s.accepting])

/-- The `i`-th `run()` returns, always with `false`, and its `start()` with
it. -/
def runReturns (i : ℕ) : TcpServer × List Event := (s.setRun i .returned).reports false

/-- `start()`, as far as its test of `mFd`. -/
def stepStart : TcpServer × List Event :=
  if s.mFd ≠ INVALID_FD then s.reports true else ({ s with pc := .socket }, [])

/-- The calling thread goes on: `stop()` stores and returns, and
`initSocket()` fills in `server_addr`. Where `inet_pton` fails, that of the
IPv6 server is left by `return -1`. -/
def stepGo : Next :=
  match s.pc with
  | .storeInvalid => some ({ s with mFd := INVALID_FD, pc := .idle }, [.stop true])
  | .fillAddress svr_sock =>
    match s.server_addr syn with
    | some server_addr => some ({ s with pc := .bind svr_sock server_addr }, [])
    | none => some (s.initReturns (toBool (-1)))
  | _ => none

/-- `socket()` returns in `initSocket()`. -/
def stepSocket : Option ℤ → Next
  | some fd =>
    if s.pc = .socket ∧ 0 ≤ fd ∧ s.table fd = none then
      some ({ s.setTable fd (some ⟨.engine, none, false⟩) with pc := .setReuseAddr fd }, [])
    else none
  | none => if s.pc = .socket then some (s.initReturns false) else none

/-- `setsockopt()` returns in `initSocket()`. -/
def stepSetsockopt (ok : Bool) : Next :=
  match s.pc, ok with
  | .setReuseAddr svr_sock, true =>
    match s.type with
    | .IPV4ThreadsTcpServer => some ({ s with pc := .fillAddress svr_sock }, [])
    | .IPV6ThreadsTcpServer => some ({ s with pc := .setV6Only svr_sock }, [])
  | .setV6Only svr_sock, true => some ({ s with pc := .fillAddress svr_sock }, [])
  | .setReuseAddr _, false => some (s.initReturns false)
  | .setV6Only _, false => some (s.initReturns false)
  | _, _ => none

/-- `bind()` returns in `initSocket()`. -/
def stepBind (ok : Bool) : Next :=
  match s.pc, ok with
  | .bind svr_sock server_addr, true =>
    (s.table svr_sock).map fun d =>
      ({ s.setTable svr_sock (some { d with bound := some server_addr }) with
        pc := .listen svr_sock }, [])
  | .bind _ _, false => some (s.initReturns false)
  | _, _ => none

/-- `listen()` returns in `initSocket()`, which stores the socket in `mFd`. -/
def stepListen (ok : Bool) : Next :=
  match s.pc, ok with
  | .listen svr_sock, true =>
    (s.table svr_sock).map fun d =>
      initReturns { s.setTable svr_sock (some { d with listening := true }) with
        mFd := svr_sock } true
  | .listen _, false => some (s.initReturns false)
  | _, _ => none

/-- The `i`-th thread in `run()` reads `mFd`, and enters `accept`, which fails
at once on a number that does not stand for a listening socket. -/
def stepRunGo (i : ℕ) : Next :=
  match s.runs[i]? with
  | some .loadFd => some (s.setRun i (.enterAccept s.mFd), [])
  | some (.enterAccept fd) =>
    if (s.table fd).any (·.listening) then some (s.setRun i (.accept (some fd)), [])
    else some (s.runReturns i)
  | _ => none

/-- `accept()` returns in `run()`. The client's descriptor is its handler's. -/
def stepRunAccept (i : ℕ) (client_socket : Option ℤ) : Next :=
  match s.runs[i]?, client_socket with
  | some (.accept _), some client_socket =>
    if 0 ≤ client_socket ∧ s.table client_socket = none then
      let accepted := s.setTable client_socket (some ⟨.other, none, false⟩)
      match s.type with
      | .IPV4ThreadsTcpServer => some (accepted.setRun i (.setRcvTimeo client_socket), [])
      | .IPV6ThreadsTcpServer => some (accepted.setRun i .loadFd, [])
    else none
  | some (.accept _), none => some (s.runReturns i)
  | _, _ => none

/-- `setsockopt()` returns in `run()`. -/
def stepRunSetsockopt (i : ℕ) (ok : Bool) : Next :=
  match s.runs[i]?, ok with
  | some (.setRcvTimeo client_socket), true => some (s.setRun i (.setSndTimeo client_socket), [])
  | some (.setSndTimeo _), true => some (s.setRun i .loadFd, [])
  | some (.setRcvTimeo _), false => some (s.runReturns i)
  | some (.setSndTimeo _), false => some (s.runReturns i)
  | _, _ => none

/-- **One step.** `stop()` closes `mFd` whatever it is. -/
def step : Action → Next
  | .start => if s.pc = .idle then some s.stepStart else none
  | .stop => if s.pc = .idle then some ({ s.closed s.mFd with pc := .storeInvalid }, []) else none
  | .go => s.stepGo syn
  | .socket fd => s.stepSocket fd
  | .setsockopt ok => s.stepSetsockopt ok
  | .bind ok => s.stepBind ok
  | .listen ok => s.stepListen ok
  | .runGo i => s.stepRunGo i
  | .runAccept i client_socket => s.stepRunAccept i client_socket
  | .runSetsockopt i ok => s.stepRunSetsockopt i ok
  | .otherOpens fd bound listening =>
    if 0 ≤ fd ∧ s.table fd = none then
      some (s.setTable fd (some ⟨.other, bound, listening⟩), [])
    else none
  | .otherCloses fd =>
    if (s.table fd).any (fun d => d.owner = .other) then some (s.closed fd, []) else none

/-- A server as a machine. -/
def machine : Machine TcpServer Action Event where
  step := step syn

/-! ## What a step can do -/

/-- Where `initSocket()` waits for the answer of a call that can fail. -/
def FailsAt : TcpServerPc → Prop
  | .socket => True
  | .setReuseAddr _ => True
  | .setV6Only _ => True
  | .bind _ _ => True
  | .listen _ => True
  | _ => False

/-- **The steps of a server, one by one.** -/
inductive Step (s : TcpServer) : Action → TcpServer → List Event → Prop where
  | startAgain (hpc : s.pc = .idle) (hfd : s.mFd ≠ INVALID_FD) :
      Step s .start s [.start true s.listener s.accepting]
  | startInits (hpc : s.pc = .idle) (hfd : s.mFd = INVALID_FD) :
      Step s .start { s with pc := .socket } []
  | stopCloses (hpc : s.pc = .idle) :
      Step s .stop { s.closed s.mFd with pc := .storeInvalid } []
  | stopStores (hpc : s.pc = .storeInvalid) :
      Step s .go { s with mFd := INVALID_FD, pc := .idle } [.stop true]
  -- `initSocket`
  | socket {fd : ℤ} (hpc : s.pc = .socket) (hfd : 0 ≤ fd) (hfree : s.table fd = none) :
      Step s (.socket (some fd))
        { s.setTable fd (some ⟨.engine, none, false⟩) with pc := .setReuseAddr fd } []
  | setReuseAddr {svr_sock : ℤ} (hpc : s.pc = .setReuseAddr svr_sock) :
      Step s (.setsockopt true)
        { s with pc :=
            if s.type = .IPV6ThreadsTcpServer then .setV6Only svr_sock
            else .fillAddress svr_sock } []
  | setV6Only {svr_sock : ℤ} (hpc : s.pc = .setV6Only svr_sock) :
      Step s (.setsockopt true) { s with pc := .fillAddress svr_sock } []
  | fill {svr_sock : ℤ} {addr : SockAddr} (hpc : s.pc = .fillAddress svr_sock)
      (haddr : s.server_addr syn = some addr) :
      Step s .go { s with pc := .bind svr_sock addr } []
  | fillFails {svr_sock : ℤ} (hpc : s.pc = .fillAddress svr_sock)
      (haddr : s.server_addr syn = none) :
      Step s .go { s with pc := .idle, runs := s.runs ++ [.loadFd] } [.initSocket true s.listener]
  | bind {svr_sock : ℤ} {addr : SockAddr} {d : Descriptor} (hpc : s.pc = .bind svr_sock addr)
      (hd : s.table svr_sock = some d) :
      Step s (.bind true)
        { s.setTable svr_sock (some { d with bound := some addr }) with pc := .listen svr_sock } []
  | listen {svr_sock : ℤ} {d : Descriptor} {s' : TcpServer} (hpc : s.pc = .listen svr_sock)
      (hd : s.table svr_sock = some d)
      (hs' : s' = { s.setTable svr_sock (some { d with listening := true }) with
        mFd := svr_sock, pc := .idle, runs := s.runs ++ [.loadFd] }) :
      Step s (.listen true) s' [.initSocket true s'.listener]
  | fails {a : Action} (hpc : FailsAt s.pc)
      (ha : a = .socket none ∨ a = .setsockopt false ∨ a = .bind false ∨ a = .listen false) :
      Step s a { s with pc := .idle }
        [.initSocket false s.listener, .start false s.listener s.accepting]
  -- `run`
  | runLoadFd {i : ℕ} (hpc : s.runs[i]? = some .loadFd) :
      Step s (.runGo i) (s.setRun i (.enterAccept s.mFd)) []
  | runEnters {i : ℕ} {fd : ℤ} (hpc : s.runs[i]? = some (.enterAccept fd))
      (hlisten : (s.table fd).any (·.listening) = true) :
      Step s (.runGo i) (s.setRun i (.accept (some fd))) []
  | runRefused {i : ℕ} {fd : ℤ} (hpc : s.runs[i]? = some (.enterAccept fd))
      (hlisten : (s.table fd).any (·.listening) = false) :
      Step s (.runGo i) (s.setRun i .returned)
        [.start false s.listener (s.setRun i .returned).accepting]
  | runAccepts {i : ℕ} {fd : Option ℤ} {client_socket : ℤ}
      (hpc : s.runs[i]? = some (.accept fd)) (hfd : 0 ≤ client_socket)
      (hfree : s.table client_socket = none) :
      Step s (.runAccept i (some client_socket))
        ((s.setTable client_socket (some ⟨.other, none, false⟩)).setRun i
          (if s.type = .IPV6ThreadsTcpServer then .loadFd else .setRcvTimeo client_socket)) []
  | runAcceptFails {i : ℕ} {fd : Option ℤ} (hpc : s.runs[i]? = some (.accept fd)) :
      Step s (.runAccept i none) (s.setRun i .returned)
        [.start false s.listener (s.setRun i .returned).accepting]
  | runSetRcvTimeo {i : ℕ} {client_socket : ℤ}
      (hpc : s.runs[i]? = some (.setRcvTimeo client_socket)) :
      Step s (.runSetsockopt i true) (s.setRun i (.setSndTimeo client_socket)) []
  | runSetSndTimeo {i : ℕ} {client_socket : ℤ}
      (hpc : s.runs[i]? = some (.setSndTimeo client_socket)) :
      Step s (.runSetsockopt i true) (s.setRun i .loadFd) []
  | runSetsockoptFails {i : ℕ} {client_socket : ℤ}
      (hpc : s.runs[i]? = some (.setRcvTimeo client_socket)
        ∨ s.runs[i]? = some (.setSndTimeo client_socket)) :
      Step s (.runSetsockopt i false) (s.setRun i .returned)
        [.start false s.listener (s.setRun i .returned).accepting]
  -- the rest of the process
  | otherOpens {fd : ℤ} {bound : Option SockAddr} {listening : Bool} (hfd : 0 ≤ fd)
      (hfree : s.table fd = none) :
      Step s (.otherOpens fd bound listening)
        (s.setTable fd (some ⟨.other, bound, listening⟩)) []
  | otherCloses {fd : ℤ} {d : Descriptor} (hd : s.table fd = some d)
      (howner : d.owner = .other) : Step s (.otherCloses fd) (s.closed fd) []

namespace Step

variable {syn s} {s' : TcpServer} {a : Action} {es : List Event}

theorem of_stepStart (hpc : s.pc = .idle) (h : s.stepStart = (s', es)) :
    Step syn s .start s' es := by
  unfold stepStart at h
  split at h
  case isTrue hfd => cases h; exact .startAgain hpc hfd
  case isFalse hfd => cases h; exact .startInits hpc (not_ne_iff.mp hfd)

theorem of_stepGo (h : s.stepGo syn = some (s', es)) : Step syn s .go s' es := by
  unfold stepGo at h
  split at h
  case h_1 hpc => cases h; exact .stopStores hpc
  case h_2 svr_sock hpc =>
    split at h
    case h_1 addr haddr => cases h; exact .fill hpc haddr
    case h_2 haddr => cases h; exact .fillFails hpc haddr
  case h_3 => cases h

theorem of_stepSocket {fd : Option ℤ} (h : s.stepSocket fd = some (s', es)) :
    Step syn s (.socket fd) s' es := by
  cases fd with simp only [stepSocket] at h
  | none =>
    split at h
    case isTrue hpc => cases h; exact .fails (by rw [hpc]; trivial) (.inl rfl)
    case isFalse => cases h
  | some fd =>
    split at h
    case isTrue hif => cases h; exact .socket hif.1 hif.2.1 hif.2.2
    case isFalse => cases h

theorem of_stepSetsockopt {ok : Bool} (h : s.stepSetsockopt ok = some (s', es)) :
    Step syn s (.setsockopt ok) s' es := by
  unfold stepSetsockopt at h
  split at h
  case h_1 svr_sock hpc =>
    have hstep := @Step.setReuseAddr syn s svr_sock hpc
    split at h
    case h_1 htype => cases h; rwa [if_neg (by rw [htype]; exact nofun)] at hstep
    case h_2 htype => cases h; rwa [if_pos htype] at hstep
  case h_2 svr_sock hpc => cases h; exact .setV6Only hpc
  case h_3 hpc => cases h; exact .fails (by rw [hpc]; trivial) (.inr (.inl rfl))
  case h_4 hpc => cases h; exact .fails (by rw [hpc]; trivial) (.inr (.inl rfl))
  case h_5 => cases h

theorem of_stepBind {ok : Bool} (h : s.stepBind ok = some (s', es)) :
    Step syn s (.bind ok) s' es := by
  unfold stepBind at h
  split at h
  case h_1 svr_sock addr hpc =>
    obtain ⟨d, hd, heq⟩ := Option.map_eq_some_iff.mp h
    cases heq
    exact .bind hpc hd
  case h_2 hpc => cases h; exact .fails (by rw [hpc]; trivial) (.inr (.inr (.inl rfl)))
  case h_3 => cases h

theorem of_stepListen {ok : Bool} (h : s.stepListen ok = some (s', es)) :
    Step syn s (.listen ok) s' es := by
  unfold stepListen at h
  split at h
  case h_1 svr_sock hpc =>
    obtain ⟨d, hd, heq⟩ := Option.map_eq_some_iff.mp h
    cases heq
    exact .listen hpc hd rfl
  case h_2 hpc => cases h; exact .fails (by rw [hpc]; trivial) (.inr (.inr (.inr rfl)))
  case h_3 => cases h

theorem of_stepRunGo {i : ℕ} (h : s.stepRunGo i = some (s', es)) :
    Step syn s (.runGo i) s' es := by
  unfold stepRunGo at h
  split at h
  case h_1 hpc => cases h; exact .runLoadFd hpc
  case h_2 fd hpc =>
    split at h
    case isTrue hlisten => cases h; exact .runEnters hpc hlisten
    case isFalse hlisten => cases h; exact .runRefused hpc (Bool.eq_false_iff.mpr hlisten)
  case h_3 => cases h

theorem of_stepRunAccept {i : ℕ} {client_socket : Option ℤ}
    (h : s.stepRunAccept i client_socket = some (s', es)) :
    Step syn s (.runAccept i client_socket) s' es := by
  unfold stepRunAccept at h
  split at h
  case h_1 fd client_socket hpc =>
    split at h
    case isTrue hif =>
      have hstep := @Step.runAccepts syn s i fd client_socket hpc hif.1 hif.2
      simp only at h
      split at h
      case h_1 htype => cases h; rwa [if_neg (by rw [htype]; exact nofun)] at hstep
      case h_2 htype => cases h; rwa [if_pos htype] at hstep
    case isFalse => cases h
  case h_2 fd hpc => cases h; exact .runAcceptFails hpc
  case h_3 => cases h

theorem of_stepRunSetsockopt {i : ℕ} {ok : Bool} (h : s.stepRunSetsockopt i ok = some (s', es)) :
    Step syn s (.runSetsockopt i ok) s' es := by
  unfold stepRunSetsockopt at h
  split at h
  case h_1 client_socket hpc => cases h; exact .runSetRcvTimeo hpc
  case h_2 client_socket hpc => cases h; exact .runSetSndTimeo hpc
  case h_3 client_socket hpc => cases h; exact .runSetsockoptFails (.inl hpc)
  case h_4 client_socket hpc => cases h; exact .runSetsockoptFails (.inr hpc)
  case h_5 => cases h

/-- **Every step is one of the list.** -/
theorem of_step (h : s.step syn a = some (s', es)) : Step syn s a s' es := by
  cases a with
  | start =>
    simp only [step] at h
    split at h
    case isTrue hpc => exact of_stepStart hpc (Option.some.inj h)
    case isFalse => cases h
  | stop =>
    simp only [step] at h
    split at h
    case isTrue hpc => cases h; exact .stopCloses hpc
    case isFalse => cases h
  | go => exact of_stepGo h
  | socket fd => exact of_stepSocket h
  | setsockopt ok => exact of_stepSetsockopt h
  | bind ok => exact of_stepBind h
  | listen ok => exact of_stepListen h
  | runGo i => exact of_stepRunGo h
  | runAccept i client_socket => exact of_stepRunAccept h
  | runSetsockopt i ok => exact of_stepRunSetsockopt h
  | otherOpens fd bound listening =>
    simp only [step] at h
    split at h
    case isTrue hif => cases h; exact .otherOpens hif.1 hif.2
    case isFalse => cases h
  | otherCloses fd =>
    simp only [step] at h
    split at h
    case isTrue hany =>
      obtain ⟨d, hd, howner⟩ := (Option.any_eq_true _ _).mp hany
      cases h
      exact .otherCloses hd (of_decide_eq_true howner)
    case isFalse => cases h

end Step

end TcpServer
