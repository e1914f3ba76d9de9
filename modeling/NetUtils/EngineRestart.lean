import NetUtils.EngineOwnership
import Mathlib.Algebra.Order.Ring.Int
import Mathlib.Data.Set.Finite.Lemmas
import Mathlib.Order.Interval.Set.Infinite

/-!
# What a restart applies

`restart()` is `stop()` followed by `start()`. A `start()` that initialises
opens a socket, binds it to the address `mIP` and `mPort` are read as, and
listens on it, whatever has been done to the engine before: at the `accept` of
its `run()` the socket is the one a fresh engine with these fields would have.
Whether it initialises is decided by `mFd`, which `stop()` leaves as it is.

`AddressSyntax.Denotes` says which socket address a configuration asks for,
with no regard to how the code arrives at one, and `restart_applies_iff` when
the restart applies it: `mFd` is `INVALID_FD` – no earlier start has left its
socket there – and the two conversions on the way lose nothing. The port is
cut to 16 bits, and an IPv4 text that is no address is bound as `INADDR_NONE`.
-/

/-- The protocols `initListeningSocket()` has a function for. -/
def PROTOCOL_TYPE.IsTcp (type : PROTOCOL_TYPE) : Prop :=
  type = .PT_TCP_IPV4 ∨ type = .PT_TCP_IPV6

/-- **The socket address a configuration asks for**: the port itself, and the
address the text stands for, or any address for the empty text. -/
def AddressSyntax.Denotes (syn : AddressSyntax) (type : PROTOCOL_TYPE) (ip : String) (port : ℤ)
    (addr : SockAddr) : Prop :=
  (addr.port.toNat : ℤ) = port ∧
    match type, addr.addr with
    | .PT_TCP_IPV4, .v4 a => if ip.isEmpty then a = INADDR_ANY else syn.inet_aton ip = some a
    | .PT_TCP_IPV6, .v6 a => if ip.isEmpty then a = in6addr_any else syn.inet_pton ip = some a
    | _, _ => False

namespace ITcpBrokerServerEngine

/-- The condition on the steps of a restart: the calls to the kernel succeed,
and no other call is made on the engine. -/
def Succeeds (_ : ITcpBrokerServerEngine) : Action → Prop
  | .call _ => False
  | .socket fd => fd.isSome = true
  | .setsockopt ok => ok = true
  | .bind ok => ok = true
  | .listen ok => ok = true
  | .accept fd => fd.isSome = true
  | _ => True

variable (syn : AddressSyntax) (s : ITcpBrokerServerEngine)

/-- **The restart applies the configuration**: when `run()` stands at its
`accept`, `mFd` is the number of an open listening socket of the engine's,
bound to what `mIP` and `mPort` ask for, and stands for just what it stands
for in a fresh engine started with these fields. -/
def RestartApplies : Prop :=
  ∀ es s', (machine syn).Run Succeeds (s.begin .restart) es s' → s'.pc = .run →
    (∃ addr, syn.Denotes s.mProtocolType s.mIP s.mPort addr
      ∧ s'.table s'.mFd = some ⟨.engine, some addr, true⟩)
    ∧ ∀ table es f,
      (machine syn).Run Succeeds ((init s.mProtocolType s.mIP s.mPort table).begin .start) es f →
        f.pc = .run → f.table f.mFd = s'.table s'.mFd

/-- The port keeps its value in 16 bits. -/
def PortFits : Prop := 0 ≤ s.mPort ∧ s.mPort < 65536

/-- The configuration is read as it is meant, if it is read at all: the port
fits, and the text is empty or an address. An IPv6 text that is no address is
refused, and so is a protocol other than the TCP ones. -/
def ReadsAsMeant : Prop :=
  match s.mProtocolType with
  | .PT_TCP_IPV4 => s.PortFits ∧ (s.mIP.isEmpty = true ∨ (syn.inet_aton s.mIP).isSome = true)
  | .PT_TCP_IPV6 => s.PortFits ∨ (s.mIP.isEmpty = false ∧ syn.inet_pton s.mIP = none)
  | _ => True

variable {syn s} {s' : ITcpBrokerServerEngine} {a : Action} {es : List Event}

/-! ## What is bound and what is asked for -/

theorem port_toNat_eq_iff : (s.port.toNat : ℤ) = s.mPort ↔ s.PortFits := by
  rw [port, BitVec.toNat_ofInt, PortFits]
  omega

/-- **What the code binds to is what is asked for** just when the port and the
text are read as meant. -/
theorem denotes_iff {addr : SockAddr} (htype : s.mProtocolType.IsTcp)
    (haddr : s.server_addr syn = some addr) :
    syn.Denotes s.mProtocolType s.mIP s.mPort addr ↔ s.ReadsAsMeant syn := by
  unfold server_addr at haddr
  unfold AddressSyntax.Denotes ReadsAsMeant
  rcases htype with htype | htype
  · simp only [htype] at haddr ⊢
    obtain rfl := Option.some.inj haddr
    rw [port_toNat_eq_iff]
    refine and_congr_right fun _ => ?_
    cases hip : s.mIP.isEmpty with
    | true => simp
    | false => cases hread : syn.inet_aton s.mIP <;> simp [AddressSyntax.inet_addr, hread]
  · simp only [htype] at haddr ⊢
    cases hip : s.mIP.isEmpty with
    | true =>
      simp only [hip, if_true] at haddr
      obtain rfl := Option.some.inj haddr
      simp [port_toNat_eq_iff]
    | false =>
      simp only [hip, Bool.false_eq_true, if_false] at haddr
      obtain ⟨a, hread, rfl⟩ := Option.map_eq_some_iff.mp haddr
      simp [port_toNat_eq_iff, hread]

/-! ## An initialisation, step by step -/

variable (syn s) in
/-- **What a start has done so far**, by where it stands: up to `run()` the
socket it opened is the engine's, bound once it is past `bind` and listening
once it is past `listen`. -/
def Initialising : Prop :=
  match s.pc with
  | .idle => True
  | .stop _ => s.mFd = INVALID_FD
  | .start => s.mFd = INVALID_FD
  | .socket => s.mProtocolType.IsTcp
  | .setReuseAddr n => s.mProtocolType.IsTcp ∧ s.table n = some ⟨.engine, none, false⟩
  | .setV6Only n => s.mProtocolType.IsTcp ∧ s.table n = some ⟨.engine, none, false⟩
  | .fillAddress n => s.mProtocolType.IsTcp ∧ s.table n = some ⟨.engine, none, false⟩
  | .bind n addr => (s.mProtocolType.IsTcp ∧ s.table n = some ⟨.engine, none, false⟩)
      ∧ s.server_addr syn = some addr
  | .listen n => s.mProtocolType.IsTcp
      ∧ ∃ addr, s.server_addr syn = some addr ∧ s.table n = some ⟨.engine, some addr, false⟩
  | .run => s.mProtocolType.IsTcp
      ∧ ∃ addr, s.server_addr syn = some addr ∧ s.table s.mFd = some ⟨.engine, some addr, true⟩

/-- Changes of the table that leave the engine's descriptors. -/
theorem Initialising.setTable {fd : ℤ} {target : Option Descriptor}
    (htable : ∀ n d, s.table n = some d → d.owner = .engine →
      (s.setTable fd target).table n = some d)
    (hi : Initialising syn s) : Initialising syn (s.setTable fd target) := by
  unfold Initialising at hi ⊢
  rw [setTable_pc]
  cases hpc : s.pc with
  | idle => trivial
  | stop restarting => rw [hpc] at hi; exact hi
  | start => rw [hpc] at hi; exact hi
  | socket => rw [hpc] at hi; exact hi
  | setReuseAddr n => rw [hpc] at hi; exact hi.imp_right fun hn => htable _ _ hn rfl
  | setV6Only n => rw [hpc] at hi; exact hi.imp_right fun hn => htable _ _ hn rfl
  | fillAddress n => rw [hpc] at hi; exact hi.imp_right fun hn => htable _ _ hn rfl
  | bind n addr =>
    rw [hpc] at hi
    exact hi.imp_left (And.imp_right fun hn => htable _ _ hn rfl)
  | listen n =>
    rw [hpc] at hi
    exact hi.imp_right fun ⟨addr, haddr, hn⟩ => ⟨addr, haddr, htable _ _ hn rfl⟩
  | run =>
    rw [hpc] at hi
    exact hi.imp_right fun ⟨addr, haddr, hn⟩ => ⟨addr, haddr, htable _ _ hn rfl⟩

theorem Initialising.step (h : Step syn s a s' es) (hok : Succeeds s a)
    (hi : Initialising syn s) : Initialising syn s' := by
  cases h with
  | call => exact hok.elim
  | stopCloses hpc hfd => rw [Initialising, hpc] at hi; exact absurd hi hfd
  | @stopSkips restarting _ hfd =>
    cases restarting with
    | true => exact hfd
    | false => trivial
  | startInits _ _ htype => exact htype
  | startUnknown => trivial
  | startRuns hpc hfd => rw [Initialising, hpc] at hi; exact absurd hi hfd
  | fill hpc haddr => rw [Initialising, hpc] at hi; exact ⟨hi, haddr⟩
  | fillFails => trivial
  | socket hpc => rw [Initialising, hpc] at hi; exact ⟨hi, Function.update_self ..⟩
  | @setReuseAddr n hpc =>
    rw [Initialising, hpc] at hi
    by_cases htype : s.mProtocolType = .PT_TCP_IPV6
    · rw [if_pos htype]; exact hi
    · rw [if_neg htype]; exact hi
  | setV6Only hpc => rw [Initialising, hpc] at hi; exact hi
  | @bind n addr d hpc hd =>
    rw [Initialising, hpc] at hi
    obtain ⟨⟨htype, hn⟩, haddr⟩ := hi
    obtain rfl := Option.some.inj (hd.symm.trans hn)
    exact ⟨htype, addr, haddr, Function.update_self ..⟩
  | @listen n d hpc hd =>
    rw [Initialising, hpc] at hi
    obtain ⟨htype, addr, haddr, hn⟩ := hi
    obtain rfl := Option.some.inj (hd.symm.trans hn)
    exact ⟨htype, addr, haddr, Function.update_self ..⟩
  | fails => trivial
  | accept _ _ _ _ hfree => exact hi.setTable fun _ _ hn _ => table_of_free hn hfree
  | acceptFails => trivial
  | otherOpens _ hfree => exact hi.setTable fun _ _ hn _ => table_of_free hn hfree
  | otherCloses hd hother =>
    exact hi.setTable fun _ _ hn howner => table_of_other hn howner hd hother

/-- A restart and a start leave the configuration. -/
theorem Step.config (h : Step syn s a s' es) (hok : Succeeds s a) :
    s'.mProtocolType = s.mProtocolType ∧ s'.mIP = s.mIP ∧ s'.mPort = s.mPort := by
  cases h with
  | call => exact hok.elim
  | _ => exact ⟨rfl, rfl, rfl⟩

theorem server_addr_congr (htype : s'.mProtocolType = s.mProtocolType) (hip : s'.mIP = s.mIP)
    (hport : s'.mPort = s.mPort) : s'.server_addr syn = s.server_addr syn := by
  rw [server_addr, server_addr, htype, hip, port, port, hport]

/-- **What a start accepts on**: the socket it opened, bound to what it reads
the configuration as. -/
theorem listens_of_run (hstart : Initialising syn s)
    (h : (machine syn).Run Succeeds s es s') (hpc : s'.pc = .run) :
    s.mProtocolType.IsTcp ∧ ∃ addr, s.server_addr syn = some addr
      ∧ s'.table s'.mFd = some ⟨.engine, some addr, true⟩ := by
  have hi : Initialising syn s' :=
    h.stateInvariant hstart (fun hi hok hs => hi.step (Step.of_step hs) hok)
  obtain ⟨htype, hip, hport⟩ : s'.mProtocolType = s.mProtocolType ∧ s'.mIP = s.mIP
      ∧ s'.mPort = s.mPort := by
    refine h.stateInvariant (I := fun s' => s'.mProtocolType = s.mProtocolType ∧ s'.mIP = s.mIP
      ∧ s'.mPort = s.mPort) ⟨rfl, rfl, rfl⟩ ?_
    intro s₁ a s₂ es hconfig hok hs
    obtain ⟨h₁, h₂, h₃⟩ := (Step.of_step hs).config hok
    exact ⟨h₁.trans hconfig.1, h₂.trans hconfig.2.1, h₃.trans hconfig.2.2⟩
  rw [Initialising, hpc, htype, server_addr_congr htype hip hport] at hi
  exact hi

/-! ## Restarts that succeed -/

/-- One step of a restart. -/
theorem run_of_step (a : Action) (hok : Succeeds s a)
    (hs : (machine syn).step s a = some (s', es)) : (machine syn).Run Succeeds s es s' :=
  .single hok hs

/-- The options of a new socket are set, of which IPv6 has one more. -/
theorem setsockopt_reaches_fillAddress {n : ℤ} (hpc : s.pc = .setReuseAddr n) :
    (machine syn).Run Succeeds s [] { s with pc := .fillAddress n } := by
  by_cases htype : s.mProtocolType = .PT_TCP_IPV6
  · have hreuse : (machine syn).step s (.setsockopt true)
        = some ({ s with pc := .setV6Only n }, []) := by
      simp only [machine, step, hpc, htype]
    exact (run_of_step (.setsockopt true) rfl hreuse).trans
      (run_of_step (.setsockopt true) rfl rfl)
  · refine run_of_step (.setsockopt true) rfl ?_
    simp only [machine, step, hpc]

/-- A start that finds no socket and can read its configuration reaches
`run()`, if the kernel has a number left. -/
theorem start_reaches_run {addr : SockAddr} {n : ℤ} (hpc : s.pc = .start)
    (hfd : s.mFd = INVALID_FD) (htype : s.mProtocolType.IsTcp)
    (haddr : s.server_addr syn = some addr) (hn : 0 ≤ n) (hfree : s.table n = none) :
    ∃ s', (machine syn).Run Succeeds s [] s' ∧ s'.pc = .run
      ∧ s'.table s'.mFd = some ⟨.engine, some addr, true⟩ := by
  have hinit : (machine syn).step s .go = some ({ s with pc := .socket }, []) := by
    rcases htype with htype | htype <;> simp only [machine, step, stepGo, hpc, hfd, htype, if_true]
  have hsocket : (machine syn).step { s with pc := .socket } (.socket (some n))
      = some ({ s.setTable n (some ⟨.engine, none, false⟩) with pc := .setReuseAddr n }, []) := by
    simp only [machine, step, hn, hfree, and_self, if_true]
    rfl
  have hfill : (machine syn).step
      { s.setTable n (some ⟨.engine, none, false⟩) with pc := .fillAddress n } .go
      = some ({ s.setTable n (some ⟨.engine, none, false⟩) with pc := .bind n addr }, []) := by
    have haddr' : server_addr syn
        { s.setTable n (some ⟨.engine, none, false⟩) with pc := .fillAddress n } = some addr :=
      haddr
    simp only [machine, step, stepGo, haddr']
  have hbind : (machine syn).step
      { s.setTable n (some ⟨.engine, none, false⟩) with pc := .bind n addr } (.bind true)
      = some ({ s.setTable n (some ⟨.engine, some addr, false⟩) with pc := .listen n }, []) := by
    simp [machine, step, setTable]
  have hlisten : (machine syn).step
      { s.setTable n (some ⟨.engine, some addr, false⟩) with pc := .listen n } (.listen true)
      = some ({ s.setTable n (some ⟨.engine, some addr, true⟩) with
          mFd := n
          pc := .run }, []) := by
    simp [machine, step, setTable]
  have hopen := (run_of_step .go trivial hinit).trans (run_of_step (.socket (some n)) rfl hsocket)
  have hbound := (run_of_step .go trivial hfill).trans (run_of_step (.bind true) rfl hbind)
  exact ⟨_, (hopen.trans (setsockopt_reaches_fillAddress rfl)).trans
    (hbound.trans (run_of_step (.listen true) rfl hlisten)), rfl, Function.update_self ..⟩

/-- A restart without a socket goes on to a start. -/
theorem restart_reaches_start (hfd : s.mFd = INVALID_FD) :
    (machine syn).Run Succeeds (s.begin .restart) [] { s with pc := .start } := by
  refine run_of_step .go trivial ?_
  simp [machine, step, stepGo, begin, hfd]

variable (syn) in
/-- **A restart with a socket accepts on the number it has just closed.** -/
theorem restart_accepts_closed (hfd : s.mFd ≠ INVALID_FD) :
    ∃ es s', (machine syn).Run Succeeds (s.begin .restart) es s' ∧ s'.pc = .run
      ∧ s'.mFd = s.mFd ∧ s'.table s'.mFd = none := by
  have hstop : (machine syn).step (s.begin .restart) .go
      = some ({ s.setTable s.mFd none with pc := .start }, [.close s.mFd (s.table s.mFd)]) := by
    simp [machine, step, stepGo, begin, hfd, setTable]
  have hstart : (machine syn).step { s.setTable s.mFd none with pc := .start } .go
      = some ({ s.setTable s.mFd none with pc := .run }, []) := by
    simp [machine, step, stepGo, hfd]
  exact ⟨_, _, (run_of_step .go trivial hstop).trans (run_of_step .go trivial hstart), rfl, rfl,
    Function.update_self ..⟩

/-- A `restart()` that closes something leaves the engine without its socket,
as a `stop()` does: when `accept` fails it returns with the closed number. -/
theorem restart_disowns (hpc : s.pc = .idle) (hfd : s.mFd ≠ INVALID_FD) :
    ∃ es s', (machine syn).Run Machine.always s es s' ∧ s'.pc = .idle ∧ ¬ Owns s' := by
  obtain ⟨es, s', hrun, hpc', hfd', hclosed⟩ := restart_accepts_closed syn hfd
  have hcall : (machine syn).step s (.call .restart) = some (s.begin .restart, []) := by
    simp only [machine, step, hpc, if_true]
  have haccept : (machine syn).step s' (.accept none)
      = some ({ s' with pc := .idle }, [.accept s'.mFd (s'.table s'.mFd), .returned false]) := by
    simp only [machine, step, hpc']
  refine ⟨_, _, ((Machine.Run.single trivial hcall).trans hrun.free).snoc trivial haccept, rfl, ?_⟩
  rintro (hinvalid | ⟨d, hd, -⟩)
  · exact hfd (hfd'.symm.trans hinvalid)
  · cases hclosed.symm.trans hd

/-! ## Numbers left -/

/-- One step opens at most one descriptor. -/
theorem Step.finite_open (h : Step syn s a s' es) (hs : {n | s.table n ≠ none}.Finite) :
    {n | s'.table n ≠ none}.Finite := by
  have hset : ∀ (fd : ℤ) (target : Option Descriptor),
      {n | Function.update s.table fd target n ≠ none}.Finite := by
    intro fd target
    refine (hs.insert fd).subset fun n hn => ?_
    by_cases heq : n = fd
    · exact .inl heq
    · rw [Set.mem_ofPred_eq, Function.update_of_ne heq] at hn
      exact .inr hn
  cases h with
  | call c =>
    cases c with
    | setListeningSocket fd =>
      simp only [begin]
      split <;> exact hs
    | _ => exact hs
  | stopCloses => exact hset ..
  | socket => exact hset ..
  | bind => exact hset ..
  | listen => exact hset ..
  | accept => exact hset ..
  | otherOpens => exact hset ..
  | otherCloses => exact hset ..
  | _ => exact hs

/-- While finitely many descriptors are open the kernel has a number left. -/
theorem exists_free (hs : {n | s.table n ≠ none}.Finite) : ∃ n, 0 ≤ n ∧ s.table n = none := by
  obtain ⟨n, hn, hfree⟩ := (Set.Ici_infinite (0 : ℤ)).exists_notMem_finite hs
  exact ⟨n, hn, not_not.mp hfree⟩

/-! ## When a restart applies its configuration -/

/-- Without a socket, and with a configuration that is read as meant. -/
theorem restartApplies_of_readsAsMeant (hfd : s.mFd = INVALID_FD) (hreads : s.ReadsAsMeant syn) :
    RestartApplies syn s := by
  intro es s' h hpc
  obtain ⟨htype, addr, haddr, hlisten⟩ := listens_of_run (s := s.begin .restart) hfd h hpc
  refine ⟨⟨addr, (denotes_iff htype haddr).mpr hreads, hlisten⟩, ?_⟩
  intro table es f hfresh hrun
  obtain ⟨-, addr', haddr', hlisten'⟩ := listens_of_run
    (s := (init s.mProtocolType s.mIP s.mPort table).begin .start) rfl hfresh hrun
  obtain rfl := Option.some.inj (haddr.symm.trans haddr')
  exact hlisten'.trans hlisten.symm

/-- What is not read as meant is bound all the same. -/
theorem not_readsAsMeant (h : ¬ s.ReadsAsMeant syn) :
    s.mProtocolType.IsTcp ∧ ∃ addr, s.server_addr syn = some addr := by
  unfold ReadsAsMeant at h
  unfold server_addr
  cases htype : s.mProtocolType with
  | PT_TCP_IPV4 => exact ⟨.inl rfl, _, rfl⟩
  | PT_TCP_IPV6 =>
    refine ⟨.inr rfl, ?_⟩
    rw [htype] at h
    obtain ⟨-, hip⟩ := not_or.mp h
    cases hempty : s.mIP.isEmpty with
    | true => exact ⟨_, if_pos rfl⟩
    | false =>
      obtain ⟨a, hread⟩ := Option.ne_none_iff_exists'.mp fun hnone => hip ⟨hempty, hnone⟩
      exact ⟨⟨.v6 a, s.port⟩, by simp [hread]⟩
  | PT_UDP_IPV4 => exact absurd trivial (by rwa [htype] at h)
  | PT_UDP_IPV6 => exact absurd trivial (by rwa [htype] at h)

/-- A restart that applies its configuration finds no socket. -/
theorem RestartApplies.mFd_eq (happlies : RestartApplies syn s) : s.mFd = INVALID_FD := by
  by_contra hfd
  obtain ⟨es, s', hrun, hpc, -, hclosed⟩ := restart_accepts_closed syn hfd
  obtain ⟨⟨addr, -, hopen⟩, -⟩ := happlies es s' hrun hpc
  cases hclosed.symm.trans hopen

/-- A restart that applies its configuration, with a number left to open, has
read it as it is meant. -/
theorem RestartApplies.readsAsMeant {n : ℤ} (happlies : RestartApplies syn s) (hn : 0 ≤ n)
    (hfree : s.table n = none) : s.ReadsAsMeant syn := by
  by_contra hreads
  obtain ⟨htype, addr, haddr⟩ := not_readsAsMeant hreads
  obtain ⟨s', hrun, hpc, hlisten⟩ :=
    start_reaches_run (s := { s with pc := .start }) rfl happlies.mFd_eq htype haddr hn hfree
  obtain ⟨⟨addr', hdenotes, hlisten'⟩, -⟩ :=
    happlies _ s' ((restart_reaches_start happlies.mFd_eq).trans hrun) hpc
  obtain ⟨-, heq, -⟩ := Descriptor.mk.inj (Option.some.inj (hlisten.symm.trans hlisten'))
  obtain rfl := Option.some.inj heq
  exact hreads ((denotes_iff htype haddr).mp hdenotes)

variable {type : PROTOCOL_TYPE} {ip : String} {port : ℤ} {table : ℤ → Option Descriptor}

/-- **When a restart applies its configuration.** In whatever state the calls
before it have left the engine: just when `mFd` is `INVALID_FD` and the
configuration is read as it is meant. -/
theorem restart_applies_iff (htable : {n | table n ≠ none}.Finite)
    (h : (machine syn).Run Machine.always (init type ip port table) es s) :
    RestartApplies syn s ↔ s.mFd = INVALID_FD ∧ s.ReadsAsMeant syn := by
  have hfinite : {n | s.table n ≠ none}.Finite :=
    h.stateInvariant (I := fun s => {n | s.table n ≠ none}.Finite) htable
      (fun hi _ hs => (Step.of_step hs).finite_open hi)
  obtain ⟨n, hn, hfree⟩ := exists_free hfinite
  exact ⟨fun happlies => ⟨happlies.mFd_eq, happlies.readsAsMeant hn hfree⟩,
    fun ⟨hfd, hreads⟩ => restartApplies_of_readsAsMeant hfd hreads⟩

/-- After a `start()` whose `bind` failed, on another port. -/
theorem restart_applies_iff_otherPort :
    ∃ es s, (machine loopback).Run Machine.always
        (init .PT_TCP_IPV4 "127.0.0.1" 9001 (fun _ => none)) es s
      ∧ s.pc = .idle ∧ s.mPort = 9002 ∧ RestartApplies loopback s
      ∧ ∃ s', (machine loopback).Run Succeeds (s.begin .restart) [] s' ∧ s'.pc = .run := by
  obtain ⟨es, s, hrun, hpc, hport, hfd, hfree, htype, hip⟩ : ∃ es s,
      (machine loopback).Run Machine.always
        (init .PT_TCP_IPV4 "127.0.0.1" 9001 (fun _ => none)) es s
      ∧ s.pc = .idle ∧ s.mPort = 9002 ∧ s.mFd = INVALID_FD ∧ s.table 4 = none
      ∧ s.mProtocolType = .PT_TCP_IPV4 ∧ s.mIP = "127.0.0.1" := by
    refine Machine.Run.exists_of_exec [.call .start, .go, .socket (some 3), .setsockopt true, .go,
      .bind false, .call (.setListeningPort 9002)] ?_
    decide +kernel
  have hreads : s.ReadsAsMeant loopback := by
    rw [ReadsAsMeant, htype, PortFits, hport, hip]
    decide
  have haddr : s.server_addr loopback = some ⟨.v4 0x7f000001, 9002⟩ := by
    rw [server_addr, htype, ITcpBrokerServerEngine.port, hport, hip]
    decide
  obtain ⟨s', hstart, hpc', -⟩ := start_reaches_run (s := { s with pc := .start }) rfl hfd
    (.inl htype) haddr (by decide) hfree
  exact ⟨es, s, hrun, hpc, hport, (restart_applies_iff (by simp) hrun).mpr ⟨hfd, hreads⟩, s',
    (restart_reaches_start hfd).trans hstart, hpc'⟩

/-- **A new port that is not applied.** Started on 9001, ended by a failing
`accept`, set to 9002 and restarted: `run()` accepts on the number just
closed. -/
theorem restart_ignores_port :
    ∃ es s, (machine loopback).Run Machine.always
        (init .PT_TCP_IPV4 "127.0.0.1" 9001 (fun _ => none)) es s
      ∧ s.pc = .idle ∧ s.mPort = 9002 ∧ ¬ RestartApplies loopback s := by
  obtain ⟨es, s, hrun, hpc, hport, hfd⟩ : ∃ es s, (machine loopback).Run Machine.always
      (init .PT_TCP_IPV4 "127.0.0.1" 9001 (fun _ => none)) es s
      ∧ s.pc = .idle ∧ s.mPort = 9002 ∧ s.mFd = 3 := by
    refine Machine.Run.exists_of_exec
      (startOn3 ++ [.accept none, .call (.setListeningPort 9002)]) ?_
    decide +kernel
  refine ⟨es, s, hrun, hpc, hport, fun happlies => ?_⟩
  cases hfd.symm.trans happlies.mFd_eq

end ITcpBrokerServerEngine
