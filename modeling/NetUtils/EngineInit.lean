import NetUtils.EngineOwnership
import Mathlib.Data.Set.Insert

/-!
# The initialisation of the listening socket

`initIPV4Socket()` and `initIPV6Socket()` each open a socket, set its options,
bind it and listen on it, and store its number in `mFd` when all of that has
succeeded. Each of the calls has an early return of its own behind it, and
none of these closes the socket: an initialisation that fails past `socket`
returns `false` with `mFd` as it was, and leaves behind an open descriptor
whose number is stored nowhere.

Here the two functions are functions of the engine and of what the system
calls answer; `run_initListeningSocket` says that they are what a `start()`
of `NetUtils.ITcpBrokerServerEngine` does from its `socket` on, with nobody
else at work in between. `initSocket_atomic_iff` is the exact extent of the
slip, for one initialisation and for any number of them that fail.
-/

/-- **What the system calls of an initialisation answer.** -/
structure InitAnswers where
  /-- `socket` answers a number, or fails. -/
  socket : Option ℤ
  /-- `setsockopt(… SO_REUSEADDR …)` succeeds. -/
  reuseAddr : Bool
  /-- `setsockopt(… IPV6_V6ONLY …)` succeeds. -/
  v6Only : Bool
  /-- `bind` succeeds. -/
  bind : Bool
  /-- `listen` succeeds. -/
  listen : Bool
  deriving DecidableEq, Repr

namespace ITcpBrokerServerEngine

section Definitions

variable (syn : AddressSyntax) (s : ITcpBrokerServerEngine)

/-- The course of an initialisation: `options` are the answers of the
`setsockopt` calls, and `server_addr` is `none` where `inet_pton` fails. -/
def initSocket (options : List Bool) (server_addr : Option SockAddr) (answers : InitAnswers) :
    ITcpBrokerServerEngine × Bool :=
  match answers.socket with
  | none => (s, false)
  | some svr_sock =>
    let opened := s.setTable svr_sock (some ⟨.engine, none, false⟩)
    if !options.all id then (opened, false)
    else
      match server_addr with
      | none => (opened, false)
      | some server_addr =>
        if !answers.bind then (opened, false)
        else
          let bound := opened.setTable svr_sock (some ⟨.engine, some server_addr, false⟩)
          if !answers.listen then (bound, false)
          else
            ({ bound.setTable svr_sock (some ⟨.engine, some server_addr, true⟩) with
              mFd := svr_sock }, true)

/-- `initIPV4Socket()`: the fields after it, and what it returns. -/
def initIPV4Socket (answers : InitAnswers) : ITcpBrokerServerEngine × Bool :=
  s.initSocket [answers.reuseAddr]
    (some ⟨.v4 (if s.mIP.isEmpty then INADDR_ANY else syn.inet_addr s.mIP), s.port⟩) answers

/-- `initIPV6Socket()`: the fields after it, and what it returns. -/
def initIPV6Socket (answers : InitAnswers) : ITcpBrokerServerEngine × Bool :=
  s.initSocket [answers.reuseAddr, answers.v6Only]
    (if s.mIP.isEmpty then some ⟨.v6 in6addr_any, s.port⟩
      else (syn.inet_pton s.mIP).map (fun addr => ⟨.v6 addr, s.port⟩)) answers

/-- `initListeningSocket()`. -/
def initListeningSocket (answers : InitAnswers) : ITcpBrokerServerEngine × Bool :=
  match s.mProtocolType with
  | .PT_TCP_IPV4 => s.initIPV4Socket syn answers
  | .PT_TCP_IPV6 => s.initIPV6Socket syn answers
  | _ => (s, false)

/-- The numbers of the open descriptors. -/
def openFds : Set ℤ := {fd | s.table fd ≠ none}

/-- The kernel can give these answers: a number it gives out was not open. -/
def Gives (answers : InitAnswers) : Prop :=
  ∀ fd, answers.socket = some fd → 0 ≤ fd ∧ s.table fd = none

/-- **An initialisation is atomic**, from the engine `s` to `s'` with the
answer `ok`. -/
structure AtomicInit (s s' : ITcpBrokerServerEngine) (ok : Bool) : Prop where
  /-- It succeeds exactly when `mFd` is the number of a socket that has been
  opened, bound and set to listen since. -/
  succeeds : ok = true ↔ s.table s'.mFd = none ∧
    ∃ d, s'.table s'.mFd = some d ∧ d.bound.isSome = true ∧ d.listening = true
  /-- Where it fails nothing has changed. -/
  fails : ok = false → s'.mFd = s.mFd ∧ s'.openFds = s.openFds

/-- All the calls of `initIPV4Socket()` behind `socket` succeed. -/
def IPV4Succeeds (answers : InitAnswers) : Prop :=
  answers.reuseAddr = true ∧ answers.bind = true ∧ answers.listen = true

/-- All the calls of `initIPV6Socket()` behind `socket` succeed, among them
`inet_pton` where there is an address to read. -/
def IPV6Succeeds (answers : InitAnswers) : Prop :=
  answers.reuseAddr = true ∧ answers.v6Only = true
    ∧ (s.mIP.isEmpty = true ∨ (syn.inet_pton s.mIP).isSome = true)
    ∧ answers.bind = true ∧ answers.listen = true

/-- **Attempts to initialise that fail**, one after another, with what the
system calls answer in each. -/
inductive FailedAttempts
    (initialise : ITcpBrokerServerEngine → InitAnswers → ITcpBrokerServerEngine × Bool) :
    ITcpBrokerServerEngine → List InitAnswers → ITcpBrokerServerEngine → Prop where
  /-- No attempt. -/
  | nil (s : ITcpBrokerServerEngine) : FailedAttempts initialise s [] s
  /-- One attempt, and those after it. -/
  | cons {s s' : ITcpBrokerServerEngine} {answers : InitAnswers} {rest : List InitAnswers} :
      s.Gives answers → (initialise s answers).2 = false →
        FailedAttempts initialise (initialise s answers).1 rest s' →
          FailedAttempts initialise s (answers :: rest) s'

end Definitions

variable {syn : AddressSyntax} {s s' : ITcpBrokerServerEngine} {answers : InitAnswers}
variable {options : List Bool} {server_addr : Option SockAddr}

/-! ## What an initialisation does -/

@[simp] theorem setTable_setTable (fd : ℤ) (target target' : Option Descriptor) :
    (s.setTable fd target).setTable fd target' = s.setTable fd target' := by
  simp [setTable]

/-- **The ways through an initialisation**: without a socket, to the end, or
out of it with a socket that does not listen. -/
theorem initSocket_cases {P : ITcpBrokerServerEngine × Bool → Prop}
    (hnone : answers.socket = none → P (s, false))
    (hdone : ∀ fd addr, answers.socket = some fd → (∀ ok ∈ options, ok = true) →
      server_addr = some addr → answers.bind = true → answers.listen = true →
      P ({ s.setTable fd (some ⟨.engine, some addr, true⟩) with mFd := fd }, true))
    (hleft : ∀ fd bound, answers.socket = some fd →
      ¬ ((∀ ok ∈ options, ok = true) ∧ server_addr.isSome = true ∧ answers.bind = true
        ∧ answers.listen = true) →
      P (s.setTable fd (some ⟨.engine, bound, false⟩), false)) :
    P (s.initSocket options server_addr answers) := by
  unfold initSocket
  cases hsocket : answers.socket with
  | none => exact hnone hsocket
  | some fd =>
    simp only [setTable_setTable]
    by_cases hoptions : options.all id = true
    · rw [hoptions]
      have hall : ∀ ok ∈ options, ok = true := by simpa using hoptions
      cases haddr : server_addr with
      | none => exact hleft fd none hsocket (by simp [haddr])
      | some addr =>
        cases hbind : answers.bind with
        | false => exact hleft fd none hsocket (by simp [hbind])
        | true =>
          cases hlisten : answers.listen with
          | false => exact hleft fd _ hsocket (by simp [hlisten])
          | true => exact hdone fd addr hsocket hall haddr hbind hlisten
    · rw [Bool.eq_false_iff.mpr hoptions]
      exact hleft fd none hsocket fun hsucceeds =>
        hoptions (by simpa using hsucceeds.1)

/-- **An initialisation is atomic** if it opens nothing, or if everything
after that succeeds; otherwise the open socket is left behind. -/
theorem initSocket_atomic (hgives : s.Gives answers) :
    AtomicInit s (s.initSocket options server_addr answers).1
        (s.initSocket options server_addr answers).2
      ↔ answers.socket = none ∨ ((∀ ok ∈ options, ok = true) ∧ server_addr.isSome = true
        ∧ answers.bind = true ∧ answers.listen = true) := by
  refine initSocket_cases (P := fun r => AtomicInit s r.1 r.2 ↔ _) ?_ ?_ ?_
  · intro hnone
    refine iff_of_true ⟨⟨nofun, ?_⟩, fun _ => ⟨rfl, rfl⟩⟩ (.inl hnone)
    rintro ⟨hfree, d, hd, -⟩
    cases hfree.symm.trans hd
  · intro fd addr hsocket hall haddr hbind hlisten
    refine iff_of_true ⟨⟨fun _ => ⟨(hgives fd hsocket).2, _, Function.update_self .., rfl, rfl⟩,
      fun _ => rfl⟩, nofun⟩ (.inr ⟨hall, by rw [haddr]; rfl, hbind, hlisten⟩)
  · intro fd bound hsocket hfails
    refine iff_of_false (fun hatomic => ?_) ?_
    · have hopen : fd ∈ s.openFds := by
        rw [← (hatomic.fails rfl).2]
        exact fun hnone => absurd ((Function.update_self ..).symm.trans hnone) nofun
      exact hopen (hgives fd hsocket).2
    · rintro (hnone | hsucceeds)
      · cases hsocket.symm.trans hnone
      · exact hfails hsucceeds

/-- What an initialisation that fails leaves open. -/
theorem openFds_of_fails (hfails : (s.initSocket options server_addr answers).2 = false) :
    (s.initSocket options server_addr answers).1.openFds
      = s.openFds ∪ {fd | answers.socket = some fd} := by
  revert hfails
  refine initSocket_cases (P := fun r => r.2 = false → r.1.openFds = _) ?_ nofun ?_
  · intro hnone _
    simp [hnone]
  · intro fd bound hsocket _ _
    ext n
    by_cases hn : n = fd
    · simp [openFds, hsocket, hn]
    · simp [openFds, hsocket, hn]

/-- **Nothing is left open by any number of failed attempts** just when none
of them got beyond `socket`. -/
theorem FailedAttempts.openFds_eq_iff
    {initialise : ITcpBrokerServerEngine → InitAnswers → ITcpBrokerServerEngine × Bool}
    (hinit : ∀ s answers, ∃ options server_addr,
      initialise s answers = s.initSocket options server_addr answers)
    {attempts : List InitAnswers} (h : FailedAttempts initialise s attempts s') :
    s'.openFds = s.openFds ↔ ∀ answers ∈ attempts, answers.socket = none := by
  -- every socket given in an attempt was free at the start and is open at the end
  have hleft : s'.openFds = s.openFds ∪ {fd | ∃ answers ∈ attempts, answers.socket = some fd}
      ∧ ∀ answers ∈ attempts, ∀ fd, answers.socket = some fd → fd ∉ s.openFds := by
    induction h with
    | nil => simp
    | @cons s s' answers rest hgives hfails _ ih =>
      obtain ⟨options, server_addr, heq⟩ := hinit s answers
      rw [heq] at hfails ih
      rw [openFds_of_fails hfails] at ih
      refine ⟨?_, ?_⟩
      · rw [ih.1, Set.union_assoc]
        congr 1
        ext fd
        simp
      · rintro answers' hmem fd hsocket
        rcases List.mem_cons.mp hmem with rfl | hmem
        · exact not_not.mpr (hgives fd hsocket).2
        · exact fun hopen => ih.2 answers' hmem fd hsocket (.inl hopen)
  constructor
  · intro heq answers hmem
    refine Option.eq_none_iff_forall_not_mem.mpr fun fd hsocket => ?_
    exact hleft.2 answers hmem fd hsocket (heq ▸ hleft.1 ▸ .inr ⟨answers, hmem, hsocket⟩)
  · intro hnone
    rw [hleft.1, Set.union_eq_left]
    rintro fd ⟨answers, hmem, hsocket⟩
    cases (hnone answers hmem).symm.trans hsocket

/-- **When the initialisation of the listening socket is atomic.** Either
function: just when `socket` fails or every call behind it succeeds. Any
number of failed attempts leaves open what was open before just when `socket`
has failed in each. -/
theorem initSocket_atomic_iff (hgives : s.Gives answers) :
    (AtomicInit s (s.initIPV4Socket syn answers).1 (s.initIPV4Socket syn answers).2
      ↔ answers.socket = none ∨ IPV4Succeeds answers)
    ∧ (AtomicInit s (s.initIPV6Socket syn answers).1 (s.initIPV6Socket syn answers).2
      ↔ answers.socket = none ∨ IPV6Succeeds syn s answers)
    ∧ ∀ attempts s',
      FailedAttempts (initIPV4Socket syn) s attempts s'
          ∨ FailedAttempts (initIPV6Socket syn) s attempts s' →
        (s'.openFds = s.openFds ↔ ∀ answers ∈ attempts, answers.socket = none) := by
  refine ⟨?_, ?_, ?_⟩
  · rw [initIPV4Socket, initSocket_atomic hgives]
    simp [IPV4Succeeds]
  · rw [initIPV6Socket, initSocket_atomic hgives]
    have haddr : (if s.mIP.isEmpty then some ⟨.v6 in6addr_any, s.port⟩
        else (syn.inet_pton s.mIP).map (fun addr => (⟨.v6 addr, s.port⟩ : SockAddr))).isSome = true
        ↔ s.mIP.isEmpty = true ∨ (syn.inet_pton s.mIP).isSome = true := by
      cases s.mIP.isEmpty <;> simp
    rw [haddr]
    simp [IPV6Succeeds, and_assoc]
  · rintro attempts s' (h | h)
    · exact h.openFds_eq_iff fun _ _ => ⟨_, _, rfl⟩
    · exact h.openFds_eq_iff fun _ _ => ⟨_, _, rfl⟩

/-- An engine on the IPv4 loopback address, in a process with nothing open. -/
def anEngine : ITcpBrokerServerEngine :=
  init .PT_TCP_IPV4 "127.0.0.1" 9001 (fun _ => none)

/-- Everything succeeds, on descriptor 3. -/
def allSucceed : InitAnswers := ⟨some 3, true, true, true, true⟩

/-- The port is taken. -/
def bindFails : InitAnswers := ⟨some 3, true, true, false, true⟩

/-- No descriptor is to be had. -/
def noneLeft : InitAnswers := ⟨none, true, true, true, true⟩

theorem gives_of_socket (h : answers.socket = some 3) : anEngine.Gives answers := by
  intro fd hfd
  obtain rfl := Option.some.inj (h.symm.trans hfd)
  exact ⟨by decide, rfl⟩

/-- Everything succeeds in `initIPV4Socket()`; in `initIPV6Socket()` the address cannot be
read. A first attempt that gets no descriptor leaves nothing open, and a second one whose
`bind` fails does. -/
theorem initSocket_atomic_iff_allSucceed :
    AtomicInit anEngine (anEngine.initIPV4Socket loopback allSucceed).1 true
      ∧ (anEngine.initIPV4Socket loopback allSucceed).1.mFd = 3
      ∧ ¬ AtomicInit anEngine (anEngine.initIPV6Socket loopback allSucceed).1 false
      ∧ (∃ s', FailedAttempts (initIPV4Socket loopback) anEngine [noneLeft] s'
        ∧ s'.openFds = anEngine.openFds)
      ∧ ∃ s', FailedAttempts (initIPV4Socket loopback) anEngine [noneLeft, bindFails] s'
        ∧ s'.openFds ≠ anEngine.openFds := by
  obtain ⟨hipv4, hipv6, hattempts⟩ :=
    @initSocket_atomic_iff loopback anEngine allSucceed (gives_of_socket rfl)
  have hnone : FailedAttempts (initIPV4Socket loopback) anEngine [noneLeft] anEngine :=
    .cons nofun rfl (.nil _)
  have hbind : FailedAttempts (initIPV4Socket loopback) anEngine [noneLeft, bindFails] _ :=
    .cons nofun rfl (.cons (gives_of_socket rfl) rfl (.nil _))
  refine ⟨hipv4.mpr (.inr ⟨rfl, rfl, rfl⟩), rfl, fun hatomic => ?_,
    ⟨_, hnone, (hattempts _ _ (.inl hnone)).mpr (by decide)⟩,
    ⟨_, hbind, fun hopen => ?_⟩⟩
  · rcases hipv6.mp hatomic with hnone | hsucceeds
    · cases hnone
    · exact absurd hsucceeds.2.2.1 (by decide)
  · exact absurd ((hattempts _ _ (.inl hbind)).mp hopen) (by decide)

/-- **A `bind` that fails leaves the socket open**, and its number stored
nowhere. -/
theorem bindFails_leaves_socket :
    anEngine.Gives bindFails
      ∧ (anEngine.initIPV4Socket loopback bindFails).2 = false
      ∧ (anEngine.initIPV4Socket loopback bindFails).1.mFd = INVALID_FD
      ∧ anEngine.openFds = ∅ ∧ 3 ∈ (anEngine.initIPV4Socket loopback bindFails).1.openFds
      ∧ ¬ AtomicInit anEngine (anEngine.initIPV4Socket loopback bindFails).1 false := by
  have hnone : anEngine.openFds = ∅ := Set.eq_empty_iff_forall_notMem.mpr fun fd hopen => hopen rfl
  have hopen : (3 : ℤ) ∈ (anEngine.initIPV4Socket loopback bindFails).1.openFds := nofun
  refine ⟨?_, rfl, rfl, hnone, hopen, fun hatomic => ?_⟩
  · rintro fd ⟨⟩
    exact ⟨by decide, rfl⟩
  · rw [(hatomic.fails rfl).2, hnone] at hopen
    exact hopen

/-! ## The initialisation in a start -/

/-- A call at `s` ends as an initialisation does: in `run()`, or by returning
`false`. -/
def Ends (syn : AddressSyntax) (s : ITcpBrokerServerEngine)
    (result : ITcpBrokerServerEngine × Bool) : Prop :=
  (machine syn).Run Machine.always s (if result.2 then [] else [.returned false])
    { result.1 with pc := if result.2 then .run else .idle }

theorem Ends.of_step {t : ITcpBrokerServerEngine} {result : ITcpBrokerServerEngine × Bool}
    (a : Action) (hs : s.step syn a = some (t, [])) (h : Ends syn t result) :
    Ends syn s result :=
  (Machine.Run.single (M := machine syn) trivial hs).trans h

theorem Ends.of_fails (a : Action)
    (hs : s.step syn a = some (s'.returns false)) : Ends syn s (s', false) :=
  Machine.Run.single (M := machine syn) (a := a) trivial hs

/-- From `bind` on. -/
theorem ends_of_bind {fd : ℤ} {addr : SockAddr} :
    Ends syn
      { s.setTable fd (some ⟨.engine, none, false⟩) with pc := .bind fd addr }
      (if !answers.bind then (s.setTable fd (some ⟨.engine, none, false⟩), false)
        else if !answers.listen then (s.setTable fd (some ⟨.engine, some addr, false⟩), false)
        else ({ s.setTable fd (some ⟨.engine, some addr, true⟩) with mFd := fd }, true)) := by
  cases hbind : answers.bind with
  | false => exact .of_fails (.bind false) rfl
  | true =>
    refine .of_step
      (t := { s.setTable fd (some ⟨.engine, some addr, false⟩) with pc := .listen fd })
      (.bind true) (by simp [step, setTable]) ?_
    cases hlisten : answers.listen with
    | false => exact .of_fails (.listen false) rfl
    | true =>
      refine .of_step (t := { s.setTable fd (some ⟨.engine, some addr, true⟩) with
        mFd := fd, pc := .run }) (.listen true) (by simp [step, setTable]) ?_
      exact Machine.Run.start

/-- From the filling in of `server_addr` on, with the options set. -/
theorem ends_of_fillAddress {fd : ℤ} {options : List Bool} (hsocket : answers.socket = some fd)
    (hoptions : options.all id = true) :
    Ends syn { s.setTable fd (some ⟨.engine, none, false⟩) with pc := .fillAddress fd }
      (s.initSocket options (s.server_addr syn) answers) := by
  have hsame : server_addr syn { s.setTable fd (some ⟨.engine, none, false⟩) with
      pc := .fillAddress fd } = s.server_addr syn := rfl
  simp only [initSocket, hsocket, hoptions, setTable_setTable]
  cases haddr : s.server_addr syn with
  | none => exact .of_fails .go (by simp only [step, stepGo, hsame, haddr]; rfl)
  | some addr =>
    exact .of_step .go (by simp only [step, stepGo, hsame, haddr]) ends_of_bind

/-- **What an initialisation does is what a start does**: from its `socket`
on, with these answers of the system calls, it comes to `run()` if the
initialisation returns `true`, and returns `false` otherwise. -/
theorem run_initListeningSocket (hpc : s.pc = .socket) (hgives : s.Gives answers)
    (htype : s.mProtocolType = .PT_TCP_IPV4 ∨ s.mProtocolType = .PT_TCP_IPV6) :
    Ends syn s (s.initListeningSocket syn answers) := by
  -- up to the first option, which both functions set
  have hinit (rest : List Bool)
      (hset : ∀ fd, answers.socket = some fd → Ends syn
        { s.setTable fd (some ⟨.engine, none, false⟩) with pc := .setReuseAddr fd }
        (s.initSocket (true :: rest) (s.server_addr syn) answers)) :
      Ends syn s (s.initSocket (answers.reuseAddr :: rest) (s.server_addr syn) answers) := by
    cases hsocket : answers.socket with
    | none =>
      rw [initSocket, hsocket]
      exact .of_fails (.socket none) (by simp only [step, hpc])
    | some fd =>
      refine .of_step (t := { s.setTable fd (some ⟨.engine, none, false⟩) with
        pc := .setReuseAddr fd }) (.socket (some fd)) ?_ ?_
      · simp only [step, hpc, if_pos (hgives fd hsocket)]
      · cases hreuse : answers.reuseAddr with
        | false =>
          simp only [initSocket, hsocket]
          exact .of_fails (.setsockopt false) rfl
        | true => exact hset fd hsocket
  rcases htype with htype | htype
  · have heq : s.initListeningSocket syn answers
        = s.initSocket [answers.reuseAddr] (s.server_addr syn) answers := by
      simp only [initListeningSocket, initIPV4Socket, server_addr, htype]
    rw [heq]
    refine hinit _ fun fd hsocket => ?_
    refine .of_step (.setsockopt true) ?_ (ends_of_fillAddress hsocket rfl)
    simp only [step, setTable, htype]
  · have heq : s.initListeningSocket syn answers
        = s.initSocket [answers.reuseAddr, answers.v6Only] (s.server_addr syn) answers := by
      simp only [initListeningSocket, initIPV6Socket, server_addr, htype]
    rw [heq]
    refine hinit _ fun fd hsocket => ?_
    refine .of_step (t := { s.setTable fd (some ⟨.engine, none, false⟩) with
      pc := .setV6Only fd }) (.setsockopt true) (by simp only [step, setTable, htype]) ?_
    cases hv6 : answers.v6Only with
    | false =>
      simp only [initSocket, hsocket]
      exact .of_fails (.setsockopt false) rfl
    | true =>
      exact .of_step (t := { s.setTable fd (some ⟨.engine, none, false⟩) with
        pc := .fillAddress fd }) (.setsockopt true) rfl (ends_of_fillAddress hsocket rfl)

end ITcpBrokerServerEngine
