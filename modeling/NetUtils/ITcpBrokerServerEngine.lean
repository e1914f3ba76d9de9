import NetUtils.Posix
import NetUtils.Transition
import Mathlib.Logic.Function.Basic
import Mathlib.Tactic.Simps.Basic

/-!
# `ITcpBrokerServerEngine`

The engine's configuration, its listening socket, and the calls `start`,
`stop` and `restart`, down to the system calls they make. One thread makes
the calls on an engine; the rest of the process – the workers of accepted
clients, other engines – opens and closes descriptors of its own at any
moment. The kernel is the table of open descriptors: what each number stands
for, who opened it, what it is bound to and whether it listens. A descriptor
an initialisation has opened and left open on a failure stays in the table.

Two functions of the library turn `mIP` into an address, and are parameters:
`inet_aton`, the reading of a text by `inet_addr`, and `inet_pton` for
`AF_INET6`. Both answer `none` for a text that is no address; `inet_addr`
itself answers `INADDR_NONE` then, which is an address as well.
-/

/-- `protocol::PROTOCOL_TYPE`. -/
inductive PROTOCOL_TYPE where
  /-- TCP over IPv4. -/
  | PT_TCP_IPV4
  /-- TCP over IPv6. -/
  | PT_TCP_IPV6
  /-- UDP over IPv4. -/
  | PT_UDP_IPV4
  /-- UDP over IPv6. -/
  | PT_UDP_IPV6
  deriving DecidableEq, Repr

/-- The address part of a socket address. -/
inductive InetAddr where
  /-- `sin_addr`. -/
  | v4 (addr : BitVec 32)
  /-- `sin6_addr`. -/
  | v6 (addr : BitVec 128)
  deriving DecidableEq, Repr

/-- A socket address, its port in host order. -/
structure SockAddr where
  /-- The address. -/
  addr : InetAddr
  /-- The port. -/
  port : BitVec 16
  deriving DecidableEq, Repr

/-- `INADDR_ANY`. -/
def INADDR_ANY : BitVec 32 := 0

/-- `INADDR_NONE`, which `inet_addr` answers for a text that is no address. -/
def INADDR_NONE : BitVec 32 := BitVec.allOnes 32

/-- `in6addr_any`. -/
def in6addr_any : BitVec 128 := 0

/-- How the library reads addresses. -/
structure AddressSyntax where
  /-- The reading of `inet_addr`. -/
  inet_aton : String → Option (BitVec 32)
  /-- The reading of `inet_pton` for `AF_INET6`. -/
  inet_pton : String → Option (BitVec 128)

namespace AddressSyntax

variable (syn : AddressSyntax)

/-- `inet_addr`. -/
def inet_addr (cp : String) : BitVec 32 := (syn.inet_aton cp).getD INADDR_NONE

end AddressSyntax

/-- Who opened a descriptor. -/
inductive Owner where
  /-- This engine, for listening. -/
  | engine
  /-- Anyone else in the process. -/
  | other
  deriving DecidableEq, Repr

/-- An open descriptor. -/
structure Descriptor where
  /-- Who opened it. -/
  owner : Owner
  /-- The address it was bound with. -/
  bound : Option SockAddr
  /-- It is listening. -/
  listening : Bool
  deriving DecidableEq, Repr

/-- A call on an engine. -/
inductive EngineCall where
  /-- `start()`. -/
  | start
  /-- `stop()`. -/
  | stop
  /-- `restart()`. -/
  | restart
  /-- `setListeningAddress(ip)`. -/
  | setListeningAddress (ip : String)
  /-- `setListeningPort(port)`. -/
  | setListeningPort (port : ℤ)
  /-- `setListeningSocket(fd)`. -/
  | setListeningSocket (fd : ℤ)
  deriving DecidableEq, Repr

/-- Where the thread that calls the engine stands. -/
inductive EnginePc where
  /-- Between calls. -/
  | idle
  /-- In `stop()`, which `restart()` follows with `start()`. -/
  | stop (restarting : Bool)
  /-- At the test of `mFd` in `start()`. -/
  | start
  /-- At `socket()`. -/
  | socket
  /-- At `setsockopt(… SO_REUSEADDR …)`. -/
  | setReuseAddr (svr_sock : ℤ)
  /-- At `setsockopt(… IPV6_V6ONLY …)`. -/
  | setV6Only (svr_sock : ℤ)
  /-- Filling in `server_addr`. -/
  | fillAddress (svr_sock : ℤ)
  /-- At `bind()`. -/
  | bind (svr_sock : ℤ) (server_addr : SockAddr)
  /-- At `listen()`. -/
  | listen (svr_sock : ℤ)
  /-- In `run()`, at `accept(mFd, …)`. -/
  | run
  deriving DecidableEq, Repr

/-- **`ITcpBrokerServerEngine`**: the fields its calls read and write, the
kernel's table, and where the calling thread stands. -/
structure ITcpBrokerServerEngine where
  /-- The protocol, fixed by the constructor. -/
  mProtocolType : PROTOCOL_TYPE
  /-- The listening address, empty for any. -/
  mIP : String
  /-- The listening port. -/
  mPort : ℤ
  /-- The listening socket, or `INVALID_FD`. -/
  mFd : ℤ
  /-- What each descriptor number stands for. -/
  table : ℤ → Option Descriptor
  /-- The calling thread. -/
  pc : EnginePc

namespace ITcpBrokerServerEngine

/-- The engine the constructors with a protocol type build. -/
def init (type : PROTOCOL_TYPE) (ip : String) (port : ℤ) (table : ℤ → Option Descriptor) :
    ITcpBrokerServerEngine where
  mProtocolType := type
  mIP := ip
  mPort := port
  mFd := INVALID_FD
  table := table
  pc := .idle

/-- What can be observed. -/
inductive Event where
  /-- `start()` or `restart()` has returned. -/
  | returned (ok : Bool)
  /-- `stop()` has called `close` on this number, which stood for this. -/
  | close (fd : ℤ) (target : Option Descriptor)
  /-- `run()` has called `accept` on this number, which stood for this. -/
  | accept (fd : ℤ) (target : Option Descriptor)
  deriving DecidableEq

/-- The steps: those of the calling thread, with what the kernel answers, and
those of the rest of the process. -/
inductive Action where
  /-- A call is made. -/
  | call (c : EngineCall)
  /-- The calling thread goes on to its next system call. -/
  | go
  /-- `socket` answers a number, or fails. -/
  | socket (fd : Option ℤ)
  /-- `setsockopt` succeeds, or fails. -/
  | setsockopt (ok : Bool)
  /-- `bind` succeeds, or fails. -/
  | bind (ok : Bool)
  /-- `listen` succeeds, or fails. -/
  | listen (ok : Bool)
  /-- `accept` answers a client's number, or fails. -/
  | accept (fd : Option ℤ)
  /-- Someone else opens a descriptor. -/
  | otherOpens (fd : ℤ) (bound : Option SockAddr) (listening : Bool)
  /-- Someone else closes a descriptor of their own. -/
  | otherCloses (fd : ℤ)
  deriving DecidableEq

variable (syn : AddressSyntax) (s : ITcpBrokerServerEngine)

/-- The number `fd` now stands for `target`. -/
@[simps] def setTable (fd : ℤ) (target : Option Descriptor) : ITcpBrokerServerEngine :=
  { s with table := Function.update s.table fd target }

/-- `htons(mPort)`, in host order: the conversion of an `int` to 16 bits. -/
def port : BitVec 16 := BitVec.ofInt 16 s.mPort

/-- `server_addr`, or `none` where `inet_pton` fails. -/
def server_addr : Option SockAddr :=
  match s.mProtocolType with
  | .PT_TCP_IPV6 =>
    if s.mIP.isEmpty then some ⟨.v6 in6addr_any, s.port⟩
    else (syn.inet_pton s.mIP).map (fun addr => ⟨.v6 addr, s.port⟩)
  | _ => some ⟨.v4 (if s.mIP.isEmpty then INADDR_ANY else syn.inet_addr s.mIP), s.port⟩

/-- `start()`, and with it `restart()`, returns. -/
def returns (ok : Bool) : ITcpBrokerServerEngine × List Event :=
  ({ s with pc := .idle }, [.returned ok])

/-- A call begins. The setters are done at once; `setListeningSocket` stores
its argument only where a socket is there already. -/
def begin : EngineCall → ITcpBrokerServerEngine
  | .start => { s with pc := .start }
  | .stop => { s with pc := .stop false }
  | .restart => { s with pc := .stop true }
  | .setListeningAddress ip => { s with mIP := ip }
  | .setListeningPort port => { s with mPort := port }
  | .setListeningSocket fd => if s.mFd ≠ INVALID_FD then { s with mFd := fd } else s

/-- The calling thread goes on: `stop()` closes `mFd` unless it is
`INVALID_FD`; `start()` initialises a socket only if `mFd` is `INVALID_FD`,
and `initListeningSocket()` knows the two TCP protocols. -/
def stepGo : Option (ITcpBrokerServerEngine × List Event) :=
  match s.pc with
  | .stop restarting =>
    let next : EnginePc := if restarting then .start else .idle
    if s.mFd ≠ INVALID_FD then
      some ({ s.setTable s.mFd none with pc := next }, [.close s.mFd (s.table s.mFd)])
    else some ({ s with pc := next }, [])
  | .start =>
    if s.mFd = INVALID_FD then
      match s.mProtocolType with
      | .PT_TCP_IPV4 => some ({ s with pc := .socket }, [])
      | .PT_TCP_IPV6 => some ({ s with pc := .socket }, [])
      | _ => some (s.returns false)
    else some ({ s with pc := .run }, [])
  | .fillAddress svr_sock =>
    match s.server_addr syn with
    | some server_addr => some ({ s with pc := .bind svr_sock server_addr }, [])
    | none => some (s.returns false)
  | _ => none

/-- **One step.** -/
def step : Action → Option (ITcpBrokerServerEngine × List Event)
  | .call c => if s.pc = .idle then some (s.begin c, []) else none
  | .go => s.stepGo syn
  | .socket fd =>
    match s.pc, fd with
    | .socket, some fd =>
      if 0 ≤ fd ∧ s.table fd = none then
        some ({ s.setTable fd (some ⟨.engine, none, false⟩) with pc := .setReuseAddr fd }, [])
      else none
    | .socket, none => some (s.returns false)
    | _, _ => none
  | .setsockopt ok =>
    match s.pc, ok with
    | .setReuseAddr svr_sock, true =>
      match s.mProtocolType with
      | .PT_TCP_IPV6 => some ({ s with pc := .setV6Only svr_sock }, [])
      | _ => some ({ s with pc := .fillAddress svr_sock }, [])
    | .setReuseAddr _, false => some (s.returns false)
    | .setV6Only svr_sock, true => some ({ s with pc := .fillAddress svr_sock }, [])
    | .setV6Only _, false => some (s.returns false)
    | _, _ => none
  | .bind ok =>
    match s.pc, ok with
    | .bind svr_sock server_addr, true =>
      match s.table svr_sock with
      | some d =>
        some ({ s.setTable svr_sock (some { d with bound := some server_addr }) with
          pc := .listen svr_sock }, [])
      | none => none
    | .bind _ _, false => some (s.returns false)
    | _, _ => none
  | .listen ok =>
    match s.pc, ok with
    | .listen svr_sock, true =>
      match s.table svr_sock with
      | some d =>
        some ({ s.setTable svr_sock (some { d with listening := true }) with
          mFd := svr_sock
          pc := .run }, [])
      | none => none
    | .listen _, false => some (s.returns false)
    | _, _ => none
  | .accept fd =>
    match s.pc, fd with
    | .run, some fd =>
      match s.table s.mFd with
      | some d =>
        if d.listening = true ∧ 0 ≤ fd ∧ s.table fd = none then
          some (s.setTable fd (some ⟨.other, none, false⟩), [.accept s.mFd (some d)])
        else none
      | none => none
    | .run, none =>
      some ({ s with pc := .idle }, [.accept s.mFd (s.table s.mFd), .returned false])
    | _, _ => none
  | .otherOpens fd bound listening =>
    if 0 ≤ fd ∧ s.table fd = none then
      some (s.setTable fd (some ⟨.other, bound, listening⟩), [])
    else none
  | .otherCloses fd =>
    match s.table fd with
    | some ⟨.other, _, _⟩ => some (s.setTable fd none, [])
    | _ => none

/-- An engine as a machine. -/
def machine : Machine ITcpBrokerServerEngine Action Event where
  step := step syn

/-! ## What a step can do -/

/-- A failed step of an initialisation: where it can fail, and that the socket
it has opened by then stays open. -/
def FailsAt : EnginePc → Prop
  | .socket => True
  | .setReuseAddr _ => True
  | .setV6Only _ => True
  | .bind _ _ => True
  | .listen _ => True
  | _ => False

/-- **The steps of an engine, one by one.** -/
inductive Step (s : ITcpBrokerServerEngine) :
    Action → ITcpBrokerServerEngine → List Event → Prop where
  | call (c : EngineCall) (hpc : s.pc = .idle) : Step s (.call c) (s.begin c) []
  | stopCloses {restarting : Bool} (hpc : s.pc = .stop restarting) (hfd : s.mFd ≠ INVALID_FD) :
      Step s .go { s.setTable s.mFd none with pc := if restarting then .start else .idle }
        [.close s.mFd (s.table s.mFd)]
  | stopSkips {restarting : Bool} (hpc : s.pc = .stop restarting) (hfd : s.mFd = INVALID_FD) :
      Step s .go { s with pc := if restarting then .start else .idle } []
  | startInits (hpc : s.pc = .start) (hfd : s.mFd = INVALID_FD)
      (htype : s.mProtocolType = .PT_TCP_IPV4 ∨ s.mProtocolType = .PT_TCP_IPV6) :
      Step s .go { s with pc := .socket } []
  | startUnknown (hpc : s.pc = .start) (hfd : s.mFd = INVALID_FD)
      (htype : s.mProtocolType ≠ .PT_TCP_IPV4 ∧ s.mProtocolType ≠ .PT_TCP_IPV6) :
      Step s .go { s with pc := .idle } [.returned false]
  | startRuns (hpc : s.pc = .start) (hfd : s.mFd ≠ INVALID_FD) :
      Step s .go { s with pc := .run } []
  | fill {svr_sock : ℤ} {addr : SockAddr} (hpc : s.pc = .fillAddress svr_sock)
      (haddr : s.server_addr syn = some addr) :
      Step s .go { s with pc := .bind svr_sock addr } []
  | fillFails {svr_sock : ℤ} (hpc : s.pc = .fillAddress svr_sock)
      (haddr : s.server_addr syn = none) : Step s .go { s with pc := .idle } [.returned false]
  | socket {fd : ℤ} (hpc : s.pc = .socket) (hfd : 0 ≤ fd) (hfree : s.table fd = none) :
      Step s (.socket (some fd))
        { s.setTable fd (some ⟨.engine, none, false⟩) with pc := .setReuseAddr fd } []
  | setReuseAddr {svr_sock : ℤ} (hpc : s.pc = .setReuseAddr svr_sock) :
      Step s (.setsockopt true)
        { s with pc :=
            if s.mProtocolType = .PT_TCP_IPV6 then .setV6Only svr_sock
            else .fillAddress svr_sock } []
  | setV6Only {svr_sock : ℤ} (hpc : s.pc = .setV6Only svr_sock) :
      Step s (.setsockopt true) { s with pc := .fillAddress svr_sock } []
  | bind {svr_sock : ℤ} {addr : SockAddr} {d : Descriptor} (hpc : s.pc = .bind svr_sock addr)
      (hd : s.table svr_sock = some d) :
      Step s (.bind true)
        { s.setTable svr_sock (some { d with bound := some addr }) with pc := .listen svr_sock } []
  | listen {svr_sock : ℤ} {d : Descriptor} (hpc : s.pc = .listen svr_sock)
      (hd : s.table svr_sock = some d) :
      Step s (.listen true)
        { s.setTable svr_sock (some { d with listening := true }) with
          mFd := svr_sock
          pc := .run } []
  | fails {a : Action} (hpc : FailsAt s.pc)
      (ha : a = .socket none ∨ a = .setsockopt false ∨ a = .bind false ∨ a = .listen false) :
      Step s a { s with pc := .idle } [.returned false]
  | accept {fd : ℤ} {d : Descriptor} (hpc : s.pc = .run) (hd : s.table s.mFd = some d)
      (hlisten : d.listening = true) (hfd : 0 ≤ fd) (hfree : s.table fd = none) :
      Step s (.accept (some fd)) (s.setTable fd (some ⟨.other, none, false⟩))
        [.accept s.mFd (some d)]
  | acceptFails (hpc : s.pc = .run) :
      Step s (.accept none) { s with pc := .idle }
        [.accept s.mFd (s.table s.mFd), .returned false]
  | otherOpens {fd : ℤ} {bound : Option SockAddr} {listening : Bool} (hfd : 0 ≤ fd)
      (hfree : s.table fd = none) :
      Step s (.otherOpens fd bound listening)
        (s.setTable fd (some ⟨.other, bound, listening⟩)) []
  | otherCloses {fd : ℤ} {d : Descriptor} (hd : s.table fd = some d)
      (howner : d.owner = .other) : Step s (.otherCloses fd) (s.setTable fd none) []

namespace Step

variable {syn s} {s' : ITcpBrokerServerEngine} {a : Action} {es : List Event}

theorem of_stepGo (h : s.stepGo syn = some (s', es)) : Step syn s .go s' es := by
  unfold stepGo at h
  split at h
  case h_1 restarting hpc =>
    simp only at h
    split at h
    case isTrue hfd => cases h; exact .stopCloses hpc hfd
    case isFalse hfd => cases h; exact .stopSkips hpc (not_ne_iff.mp hfd)
  case h_2 hpc =>
    split at h
    case isTrue hfd =>
      split at h
      case h_1 htype => cases h; exact .startInits hpc hfd (.inl htype)
      case h_2 htype => cases h; exact .startInits hpc hfd (.inr htype)
      case h_3 h4 h6 => cases h; exact .startUnknown hpc hfd ⟨h4, h6⟩
    case isFalse hfd => cases h; exact .startRuns hpc hfd
  case h_3 svr_sock hpc =>
    split at h
    case h_1 addr haddr => cases h; exact .fill hpc haddr
    case h_2 haddr => cases h; exact .fillFails hpc haddr
  case h_4 => cases h

theorem of_setsockopt {ok : Bool} (h : s.step syn (.setsockopt ok) = some (s', es)) :
    Step syn s (.setsockopt ok) s' es := by
  simp only [step] at h
  split at h
  case h_1 svr_sock hpc =>
    split at h
    case h_1 htype =>
      cases h
      have hstep := @Step.setReuseAddr syn s svr_sock hpc
      rwa [if_pos htype] at hstep
    case h_2 htype =>
      cases h
      have hstep := @Step.setReuseAddr syn s svr_sock hpc
      rwa [if_neg htype] at hstep
  case h_2 hpc => cases h; exact .fails (by rw [hpc]; trivial) (.inr (.inl rfl))
  case h_3 svr_sock hpc => cases h; exact .setV6Only hpc
  case h_4 hpc => cases h; exact .fails (by rw [hpc]; trivial) (.inr (.inl rfl))
  case h_5 => cases h

theorem of_accept {fd : Option ℤ} (h : s.step syn (.accept fd) = some (s', es)) :
    Step syn s (.accept fd) s' es := by
  simp only [step] at h
  split at h
  case h_1 fd hpc =>
    split at h
    case h_1 d hd =>
      split at h
      case isTrue hif => cases h; exact .accept hpc hd hif.1 hif.2.1 hif.2.2
      case isFalse => cases h
    case h_2 => cases h
  case h_2 hpc => cases h; exact .acceptFails hpc
  case h_3 => cases h

/-- **Every step is one of the list.** -/
theorem of_step (h : s.step syn a = some (s', es)) : Step syn s a s' es := by
  cases a with
  | call c =>
    simp only [step] at h
    split at h
    case isTrue hpc => cases h; exact .call c hpc
    case isFalse => cases h
  | go => exact of_stepGo h
  | socket fd =>
    simp only [step] at h
    split at h
    case h_1 fd hpc =>
      split at h
      case isTrue hif => cases h; exact .socket hpc hif.1 hif.2
      case isFalse => cases h
    case h_2 hpc => cases h; exact .fails (by rw [hpc]; trivial) (.inl rfl)
    case h_3 => cases h
  | setsockopt ok => exact of_setsockopt h
  | bind ok =>
    simp only [step] at h
    split at h
    case h_1 svr_sock addr hpc =>
      split at h
      case h_1 d hd => cases h; exact .bind hpc hd
      case h_2 => cases h
    case h_2 hpc => cases h; exact .fails (by rw [hpc]; trivial) (.inr (.inr (.inl rfl)))
    case h_3 => cases h
  | listen ok =>
    simp only [step] at h
    split at h
    case h_1 svr_sock hpc =>
      split at h
      case h_1 d hd => cases h; exact .listen hpc hd
      case h_2 => cases h
    case h_2 hpc => cases h; exact .fails (by rw [hpc]; trivial) (.inr (.inr (.inr rfl)))
    case h_3 => cases h
  | accept fd => exact of_accept h
  | otherOpens fd bound listening =>
    simp only [step] at h
    split at h
    case isTrue hif => cases h; exact .otherOpens hif.1 hif.2
    case isFalse => cases h
  | otherCloses fd =>
    simp only [step] at h
    split at h
    case h_1 bound listening hd => cases h; exact .otherCloses hd rfl
    case h_2 => cases h

end Step

end ITcpBrokerServerEngine
