import NetUtils.EchoServer
import NetUtils.HandleClose
import NetUtils.Simulation
import NetUtils.RunThreads

/-!
# Whose descriptor is whose

The threads of a handler know their client by a number, and the two of them
close it. A number that has been closed can be given to somebody else while the
other thread still has it in hand, and what that thread does with it then is done
to somebody else. `FreshNumbers` excludes just this: no call that opens a
descriptor answers a number which a handler still holds. The condition is on the
kernel's answers, and nothing in the source establishes it.

Under it a handler acts on its own client's descriptor or on none (`OwnsSockets`),
the server keeps its own, and every client's descriptor is accounted for: it is
its handler's until that has closed it, or a `run` has it in hand, or a `run` has
returned with it (`sockets_accounted`). For the server the handlers are then like
any other part of the process, so that what holds of a `TcpServer` in every run
holds of the one in this process (`server_of_run`).
-/

open Transfer

variable {w : ℕ}

namespace ThreadsClientHandle

variable {s s' : ThreadsClientHandle w} {a : Action} {es : List (Event w)}

/-- The handler holds a number: in `mClientFd`, or in the hands of a thread that
has read it. -/
def Holds (s : ThreadsClientHandle w) (fd : ℤ) : Prop :=
  s.mClientFd = fd ∨ s.reader.fd = some fd ∨ s.writer.fd = some fd

instance (s : ThreadsClientHandle w) (fd : ℤ) : Decidable (s.Holds fd) :=
  inferInstanceAs (Decidable (_ ∨ _ ∨ _))

/-- A step of the read thread. -/
theorem Holds.of_reader {n : ℤ} (h : s'.Holds n) (hfield : s'.mClientFd = s.mClientFd)
    (hwriter : s'.writer.fd = s.writer.fd) (hreader : s'.reader.fd = some n → s.Holds n) :
    s.Holds n := by
  rcases h with h | h | h
  · exact .inl (hfield ▸ h)
  · exact hreader h
  · exact .inr (.inr (hwriter ▸ h))

/-- A step of the write thread. -/
theorem Holds.of_writer {n : ℤ} (h : s'.Holds n) (hfield : s'.mClientFd = s.mClientFd)
    (hreader : s'.reader = s.reader) (hwriter : s'.writer.fd = some n → s.Holds n) :
    s.Holds n := by
  rcases h with h | h | h
  · exact .inl (hfield ▸ h)
  · exact .inr (.inl (hreader ▸ h))
  · exact hwriter h

/-- **A handler takes up no new number**, `INVALID_FD` apart. -/
theorem Step.holds (h : Step s a s' es) {n : ℤ} (hn : s'.Holds n) :
    s.Holds n ∨ n = INVALID_FD := by
  cases h with
  | startRead => exact .inl (hn.of_reader rfl rfl nofun)
  | startWrite => exact .inl (hn.of_writer rfl rfl nofun)
  | readLoadFd => exact .inl (hn.of_reader rfl rfl fun h => .inl (Option.some.inj h))
  | readRecv _ _ hafter =>
    exact .inl (hn.of_reader rfl rfl fun h => absurd ((fd_afterRecv hafter).1.symm.trans h) nofun)
  | readNotify => exact .inl (hn.of_reader rfl (fd_notify _) nofun)
  | readNotifyEnd => exact .inl (hn.of_reader rfl (fd_notify _) nofun)
  | readLoadClose => exact .inl (hn.of_reader rfl rfl fun h => .inl (Option.some.inj h))
  | readStore =>
    rcases hn with h | h | h
    · exact .inr h.symm
    · cases h
    · exact .inl (.inr (.inr h))
  | writeUnlock =>
    exact .inl (hn.of_writer rfl rfl fun h => absurd ((fd_inSend _ _ _).1.symm.trans h) nofun)
  | writeLoadFd => exact .inl (hn.of_writer rfl rfl fun h => .inl (Option.some.inj h))
  | writeSend =>
    exact .inl (hn.of_writer rfl rfl fun h => absurd ((fd_inSend _ _ _).1.symm.trans h) nofun)
  | writeLoadClose => exact .inl (hn.of_writer rfl rfl fun h => .inl (Option.some.inj h))
  | writeStoreIPV4 =>
    rcases hn with h | h | h
    · exact .inr h.symm
    · exact .inl (.inr (.inl h))
    · cases h
  | writeStoreIPV6 =>
    rcases hn with h | h | h
    · exact .inr h.symm
    · exact .inl (.inr (.inl h))
    · cases h
  | writeWake => exact .inl (hn.of_writer rfl rfl fun h => .inr (.inr ((fd_notify _).symm.trans h)))
  | _ =>
    first
    | exact .inl hn
    | exact .inl (hn.of_reader rfl rfl nofun)
    | exact .inl (hn.of_writer rfl rfl nofun)

/-- **A call is made on a number held.** -/
theorem Step.holds_event (h : Step s a s' es) {e : Event w} (he : e ∈ es) {n : ℤ}
    (hn : e.fd = some n) : s.Holds n := by
  cases h with
  | destroyOpen =>
    obtain rfl := List.mem_singleton.mp he
    exact .inl (Option.some.inj hn)
  | readRecv hpc =>
    obtain rfl := List.mem_singleton.mp he
    exact .inr (.inl (by rw [hpc]; exact hn))
  | readPush =>
    obtain rfl := List.mem_singleton.mp he
    cases hn
  | readClose hpc =>
    obtain rfl := List.mem_singleton.mp he
    exact .inr (.inl (by rw [hpc]; exact hn))
  | writeSend hpc =>
    obtain rfl := List.mem_singleton.mp he
    exact .inr (.inr (by rw [hpc]; exact hn))
  | writeClose hpc =>
    obtain rfl := List.mem_singleton.mp he
    exact .inr (.inr (by rw [hpc]; exact hn))
  | _ => cases he

/-- **A step closes one number or none**, and the connection ends with its
own. -/
theorem Step.close_cases (h : Step s a s' es) :
    (∃ n, es = [.close n] ∧ s.Holds n ∧ s'.isOpen = (s.isOpen && decide (n ≠ s.client)))
      ∨ (∀ n, .close n ∉ es) ∧ s'.isOpen = s.isOpen := by
  have hnot {e : Event w} (he : ∀ n, e ≠ .close n) (n : ℤ) : .close n ∉ [e] :=
    fun hmem => he n (List.mem_singleton.mp hmem).symm
  cases h with
  | destroyOpen hpc hfd => exact .inl ⟨_, rfl, .inl rfl, rfl⟩
  | readClose hpc => exact .inl ⟨_, rfl, .inr (.inl (by rw [hpc]; rfl)), rfl⟩
  | writeClose hpc => exact .inl ⟨_, rfl, .inr (.inr (by rw [hpc]; rfl)), rfl⟩
  | readRecv => exact .inr ⟨hnot nofun, rfl⟩
  | readPush => exact .inr ⟨hnot nofun, rfl⟩
  | writeSend => exact .inr ⟨hnot nofun, rfl⟩
  | _ => exact .inr ⟨nofun, rfl⟩

/-- A step is one event, or none. -/
theorem Step.events_cases (h : Step s a s' es) : es = [] ∨ ∃ e, es = [e] := by
  cases h with
  | destroyOpen => exact .inr ⟨_, rfl⟩
  | readRecv => exact .inr ⟨_, rfl⟩
  | readPush => exact .inr ⟨_, rfl⟩
  | readClose => exact .inr ⟨_, rfl⟩
  | writeSend => exact .inr ⟨_, rfl⟩
  | writeClose => exact .inr ⟨_, rfl⟩
  | _ => exact .inl rfl

/-- While the connection is open all that is held is the client's number. -/
theorem HoldsClient.eq_of_holds (hi : HoldsClient s) {n : ℤ} (hn : s.Holds n) : n = s.client := by
  rcases hn with h | h | h
  · exact h.symm.trans hi.mClientFd
  · exact hi.reader n h
  · exact hi.writer n h

end ThreadsClientHandle

namespace EchoServer

/-- An open descriptor of an accepted client, as the server's table has it. -/
def clientDescriptor : Descriptor := ⟨.other, none, false⟩

/-- **The condition on a step**: a call that opens a descriptor does not answer
a number that a handler still holds. -/
def FreshNumbers (s : EchoServer w) : Action → Prop
  | .server (.socket (some fd)) => ∀ handle ∈ s.handles, ¬ handle.Holds fd
  | .server (.runAccept _ (some fd)) => ∀ handle ∈ s.handles, ¬ handle.Holds fd
  | .server (.otherOpens fd _ _) => ∀ handle ∈ s.handles, ¬ handle.Holds fd
  | _ => True

instance (s : EchoServer w) : DecidablePred s.FreshNumbers
  | .server (.socket (some fd)) =>
    inferInstanceAs (Decidable (∀ handle ∈ s.handles, ¬ handle.Holds fd))
  | .server (.runAccept _ (some fd)) =>
    inferInstanceAs (Decidable (∀ handle ∈ s.handles, ¬ handle.Holds fd))
  | .server (.otherOpens fd _ _) =>
    inferInstanceAs (Decidable (∀ handle ∈ s.handles, ¬ handle.Holds fd))
  | .server .start | .server .stop | .server .go | .server (.socket none)
  | .server (.setsockopt _) | .server (.bind _) | .server (.listen _) | .server (.runGo _)
  | .server (.runAccept _ none) | .server (.runSetsockopt _ _) | .server (.otherCloses _)
  | .handle _ _ => isTrue trivial

/-- **Whose descriptor is whose.** -/
structure OwnsSockets (s : EchoServer w) : Prop where
  /-- Who has a descriptor has one that is open, and a client's. -/
  client : ∀ n holder, s.sockets n = some holder → s.server.table n = some clientDescriptor
  /-- What a thread in `run()` has in hand is its own. -/
  hand : ∀ i n, s.server.hand i = some n → s.sockets n = some (.run i)
  /-- What is its own it has in hand, or has returned with. -/
  run : ∀ i n, s.sockets n = some (.run i) →
    s.server.hand i = some n ∨ s.server.runs[i]? = some .returned
  /-- A handler whose connection is open has its client's descriptor. -/
  handle : ∀ (c : ℕ) (handle : ThreadsClientHandle w), s.handles[c]? = some handle →
    handle.isOpen = true → s.sockets handle.client = some (.handle c)
  /-- What a handler has is its client's, and the connection is open. -/
  owner : ∀ c n, s.sockets n = some (.handle c) →
    ∃ handle : ThreadsClientHandle w, s.handles[c]? = some handle ∧ handle.client = n
      ∧ handle.isOpen = true
  /-- A number a handler holds is its client's while the connection is open, and
  otherwise stands for nothing. -/
  held : ∀ (c : ℕ) (handle : ThreadsClientHandle w), s.handles[c]? = some handle →
    ∀ n, handle.Holds n → handle.isOpen = true ∧ n = handle.client ∨ s.server.table n = none

section Invariants

variable {syn : AddressSyntax} {s : EchoServer w}

/-! ## Steps of the server -/

/-- What a step of the server owes to the clients it does not concern. -/
structure KeepsClients (s : EchoServer w) (server' : TcpServer) : Prop where
  table : ∀ n holder, s.sockets n = some holder → server'.table n = s.server.table n
  free : ∀ (c : ℕ) (handle : ThreadsClientHandle w), s.handles[c]? = some handle →
    ∀ n, handle.Holds n → s.server.table n = none → server'.table n = none
  hand : ∀ i, server'.hand i = s.server.hand i
  returned : ∀ i : ℕ, s.server.runs[i]? = some .returned → server'.runs[i]? = some .returned

theorem OwnsSockets.keeps (hi : OwnsSockets s) {server' : TcpServer}
    (hkeeps : KeepsClients s server') : OwnsSockets { s with server := server' } where
  client := fun n holder hn => (hkeeps.table n holder hn).trans (hi.client n holder hn)
  hand := fun i n hn => hi.hand i n ((hkeeps.hand i).symm.trans hn)
  run := fun i n hn => (hi.run i n hn).imp (hkeeps.hand i).trans (hkeeps.returned i)
  handle := hi.handle
  owner := hi.owner
  held := fun c handle hc n hn =>
    (hi.held c handle hc n hn).imp_right (hkeeps.free c handle hc n hn)

/-- A step that leaves the table and the threads in `run()` alone. -/
theorem KeepsClients.same {server' : TcpServer} (htable : server'.table = s.server.table)
    (hruns : server'.runs = s.server.runs) : KeepsClients s server' where
  table := fun n _ _ => congrFun htable n
  free := fun _ _ _ n _ hnone => (congrFun htable n).trans hnone
  hand := TcpServer.hand_of_runs hruns
  returned := fun _ hi => hruns ▸ hi

/-- A step that gives a number a new meaning which is nobody's and held by
nobody, or is not free. -/
theorem KeepsClients.updates {server' : TcpServer} {fd : ℤ} {target : Option Descriptor}
    (htable : server'.table = Function.update s.server.table fd target)
    (hnobody : s.sockets fd = none)
    (hfresh : s.server.table fd = none → target = none ∨ ∀ handle ∈ s.handles, ¬ handle.Holds fd)
    (hand : ∀ i, server'.hand i = s.server.hand i)
    (returned : ∀ i : ℕ, s.server.runs[i]? = some .returned → server'.runs[i]? = some .returned) :
    KeepsClients s server' where
  table := fun n holder hn => by
    rw [htable, Function.update_of_ne]
    rintro rfl
    cases hnobody.symm.trans hn
  free := fun c handle hc n hn hnone => by
    rw [htable]
    by_cases heq : n = fd
    · subst heq
      rw [Function.update_self]
      refine (hfresh hnone).resolve_right fun hnot => ?_
      exact hnot handle (List.mem_of_getElem? hc) hn
    · rw [Function.update_of_ne heq]
      exact hnone
  hand := hand
  returned := returned

/-- A thread in `run()` that moves, and has in hand what it had. -/
theorem KeepsClients.setRun {i : ℕ} {pc : RunPc} (pc' : RunPc)
    (hpc : s.server.runs[i]? = some pc) (hne : pc ≠ .returned) (hhand : pc'.hand = pc.hand) :
    KeepsClients s (s.server.setRun i pc') where
  table := fun _ _ _ => rfl
  free := fun _ _ _ _ _ hnone => hnone
  hand := fun j => by
    by_cases hj : j = i
    · subst hj
      rw [TcpServer.hand_setRun_self hpc, hhand, TcpServer.hand, hpc]
      rfl
    · exact TcpServer.hand_setRun_of_ne hj pc'
  returned := fun j hj => by
    have hji : j ≠ i := by
      rintro rfl
      exact hne (Option.some.inj (hpc.symm.trans hj))
    rw [TcpServer.setRun_runs, List.getElem?_set_ne hji.symm]
    exact hj

/-- A number that stands for nothing is nobody's. -/
theorem OwnsSockets.nobody (hi : OwnsSockets s) {fd : ℤ}
    (hother : s.server.table fd ≠ some clientDescriptor) : s.sockets fd = none := by
  cases hholder : s.sockets fd with
  | none => rfl
  | some holder => exact absurd (hi.client fd holder hholder) hother

theorem OwnsSockets.nobody_of_free (hi : OwnsSockets s) {fd : ℤ}
    (hfree : s.server.table fd = none) : s.sockets fd = none :=
  hi.nobody (hfree ▸ (Option.some_ne_none _).symm)

/-- **A thread in `run()` takes a client's descriptor in hand**, as `accept`
answers it. -/
theorem OwnsSockets.take (hi : OwnsSockets s) {i : ℕ} {fd : ℤ} {pc : RunPc} (pc' : RunPc)
    (hfree : s.server.table fd = none) (hfresh : ∀ handle ∈ s.handles, ¬ handle.Holds fd)
    (hpc : s.server.runs[i]? = some pc) (hnothing : pc.hand = none) (hne : pc ≠ .returned)
    (hhand : pc'.hand = some fd) :
    OwnsSockets { s.setSocket fd (some (.run i)) with
      server := (s.server.setTable fd (some clientDescriptor)).setRun i pc' } := by
  have hnobody : s.sockets fd = none := hi.nobody_of_free hfree
  have hself : ((s.server.setTable fd (some clientDescriptor)).setRun i pc').hand i = some fd :=
    (TcpServer.hand_setRun_self hpc).trans hhand
  have hother {j : ℕ} (hj : j ≠ i) :
      ((s.server.setTable fd (some clientDescriptor)).setRun i pc').hand j = s.server.hand j :=
    TcpServer.hand_setRun_of_ne hj pc'
  have hidle : s.server.hand i = none := by
    rw [TcpServer.hand, hpc]
    exact hnothing
  refine ⟨fun n holder hn => ?_, fun j n hn => ?_, fun j n hn => ?_, fun c handle hc hopen => ?_,
    fun c n hn => ?_, fun c handle hc n hn => ?_⟩
  · by_cases heq : n = fd
    · subst heq
      exact Function.update_self ..
    · rw [setSocket_sockets, Function.update_of_ne heq] at hn
      exact (Function.update_of_ne heq ..).trans (hi.client n holder hn)
  · by_cases hj : j = i
    · subst hj
      obtain rfl := Option.some.inj (hself.symm.trans hn)
      exact Function.update_self ..
    · have hsocket := hi.hand j n ((hother hj).symm.trans hn)
      refine (Function.update_of_ne (fun heq => ?_) ..).trans hsocket
      rw [heq, hnobody] at hsocket
      cases hsocket
  · by_cases heq : n = fd
    · subst heq
      rw [setSocket_sockets, Function.update_self] at hn
      cases hn
      exact .inl hself
    · rw [setSocket_sockets, Function.update_of_ne heq] at hn
      by_cases hj : j = i
      · subst hj
        rcases hi.run j n hn with hold | hreturned
        · cases hidle.symm.trans hold
        · exact absurd (Option.some.inj (hpc.symm.trans hreturned)) hne
      · refine (hi.run j n hn).imp (hother hj).trans fun hreturned => ?_
        rw [TcpServer.setRun_runs, List.getElem?_set_ne (Ne.symm hj)]
        exact hreturned
  · have hsocket := hi.handle c handle hc hopen
    refine (Function.update_of_ne (fun heq => ?_) ..).trans hsocket
    rw [heq, hnobody] at hsocket
    cases hsocket
  · by_cases heq : n = fd
    · subst heq
      rw [setSocket_sockets, Function.update_self] at hn
      cases hn
    · rw [setSocket_sockets, Function.update_of_ne heq] at hn
      exact hi.owner c n hn
  · refine (hi.held c handle hc n hn).imp_right fun hnone => ?_
    refine (Function.update_of_ne (fun heq => ?_) ..).trans hnone
    exact hfresh handle (List.mem_of_getElem? hc) (heq ▸ hn)

/-- A handler not started holds its client's number, and the connection is
open. -/
theorem init_owns (type : HandleType) {fd : ℤ} (hfd : fd ≠ INVALID_FD) :
    (ThreadsClientHandle.init type fd : ThreadsClientHandle w).isOpen = true
      ∧ ∀ n, (ThreadsClientHandle.init type fd : ThreadsClientHandle w).Holds n → n = fd := by
  refine ⟨decide_eq_true hfd, fun n hn => ?_⟩
  rcases hn with h | h | h
  · exact h.symm
  · cases h
  · cases h

/-- **The thread hands it over** to a handler of its own. -/
theorem OwnsSockets.handOver (hi : OwnsSockets s) {i : ℕ} {fd : ℤ} {pc : RunPc}
    (hfd : fd ≠ INVALID_FD) (hpc : s.server.runs[i]? = some pc) (hhand : pc.hand = some fd) :
    OwnsSockets { s.handleClient fd with server := s.server.setRun i .loadFd } := by
  have hold : s.sockets fd = some (.run i) := by
    refine hi.hand i fd ?_
    rw [TcpServer.hand, hpc]
    exact hhand
  have hself : (s.server.setRun i .loadFd).hand i = none := TcpServer.hand_setRun_self hpc
  have hother {j : ℕ} (hj : j ≠ i) : (s.server.setRun i .loadFd).hand j = s.server.hand j :=
    TcpServer.hand_setRun_of_ne hj _
  have hnew := init_owns (w := w) s.server.type.handleType hfd
  refine ⟨fun n holder hn => ?_, fun j n hn => ?_, fun j n hn => ?_, ?_, fun c n hn => ?_, ?_⟩
  · by_cases heq : n = fd
    · exact heq ▸ hi.client fd _ hold
    · exact hi.client n holder ((Function.update_of_ne heq ..).symm.trans hn)
  · by_cases hj : j = i
    · subst hj
      cases hself.symm.trans hn
    · have hsocket := hi.hand j n ((hother hj).symm.trans hn)
      refine (Function.update_of_ne (fun heq => ?_) ..).trans hsocket
      rw [heq, hold] at hsocket
      cases hsocket
      exact hj rfl
  · have heq : n ≠ fd := by
      rintro rfl
      cases (Function.update_self ..).symm.trans hn
    have hn' := (Function.update_of_ne heq ..).symm.trans hn
    by_cases hj : j = i
    · subst hj
      rcases hi.run j n hn' with hhas | hreturned
      · rw [TcpServer.hand, hpc] at hhas
        exact absurd (Option.some.inj (hhas.symm.trans hhand)) heq
      · rw [Option.some.inj (hpc.symm.trans hreturned)] at hhand
        cases hhand
    · refine (hi.run j n hn').imp (hother hj).trans fun hreturned => ?_
      rw [TcpServer.setRun_runs, List.getElem?_set_ne (Ne.symm hj)]
      exact hreturned
  · refine Pool.forall_join (fun c handle hc hopen => ?_) fun _ => Function.update_self ..
    have hsocket := hi.handle c handle hc hopen
    refine (Function.update_of_ne (fun heq => ?_) ..).trans hsocket
    rw [heq, hold] at hsocket
    cases hsocket
  · by_cases heq : n = fd
    · subst heq
      cases (Function.update_self ..).symm.trans hn
      exact ⟨_, List.getElem?_concat_length, rfl, hnew.1⟩
    · obtain ⟨handle, hc, hclient⟩ := hi.owner c n ((Function.update_of_ne heq ..).symm.trans hn)
      refine ⟨handle, ?_, hclient⟩
      show (s.handles ++ _)[c]? = _
      rw [List.getElem?_append_left (List.getElem?_eq_some_iff.mp hc).1]
      exact hc
  · exact Pool.forall_join hi.held fun n hn => .inl ⟨hnew.1, hnew.2 n hn⟩

/-- A thread in `run()` returns with what it has in hand. -/
theorem OwnsSockets.returns (hi : OwnsSockets s) {i : ℕ} {pc : RunPc}
    (hpc : s.server.runs[i]? = some pc) :
    OwnsSockets { s with server := s.server.setRun i .returned } where
  client := hi.client
  hand := fun j n hn => by
    by_cases hj : j = i
    · subst hj
      cases (TcpServer.hand_setRun_self hpc).symm.trans hn
    · exact hi.hand j n ((TcpServer.hand_setRun_of_ne hj _).symm.trans hn)
  run := fun j n hn => by
    by_cases hj : j = i
    · subst hj
      exact .inr (TcpServer.runs_setRun_self hpc)
    · refine (hi.run j n hn).imp (TcpServer.hand_setRun_of_ne hj _).trans fun hreturned => ?_
      rw [TcpServer.setRun_runs, List.getElem?_set_ne (Ne.symm hj)]
      exact hreturned
  handle := hi.handle
  owner := hi.owner
  held := hi.held

/-- The server's own socket is no client's. -/
theorem OwnsSockets.nobody_mFd (hi : OwnsSockets s) (hsound : s.server.Sound)
    (haccepts : s.server.Accepts) (hpc : s.server.pc = .idle) :
    s.sockets s.server.mFd = none := by
  have hat : s.server.ReliesOn .idle := hpc ▸ hsound
  refine hi.nobody ?_
  rcases hat with hinvalid | ⟨addr, hlistens⟩
  · rw [hinvalid, haccepts.invalid]
    exact nofun
  · rw [hlistens]
    exact nofun

/-- Nor is the one `initSocket()` has in hand. -/
theorem OwnsSockets.nobody_opened (hi : OwnsSockets s) {fd : ℤ} (h : s.server.Opened fd) :
    s.sockets fd = none := by
  obtain ⟨-, -, d, hd, howner⟩ := h
  refine hi.nobody fun heq => ?_
  rw [Option.some.inj (hd.symm.trans heq)] at howner
  cases howner

theorem setSocket_of_nobody {fd : ℤ} (hnobody : s.sockets fd = none) :
    s.setSocket fd none = s := by
  rw [setSocket, ← hnobody, Function.update_eq_self]

/-- The IPv6 server hands a client over as `accept` answers it. -/
theorem OwnsSockets.takeOver (hi : OwnsSockets s) {i : ℕ} {fd : ℤ} {f : Option ℤ} (hfd : 0 ≤ fd)
    (hfree : s.server.table fd = none) (hfresh : ∀ handle ∈ s.handles, ¬ handle.Holds fd)
    (hpc : s.server.runs[i]? = some (.accept f)) :
    OwnsSockets { s.handleClient fd with
      server := (s.server.setTable fd (some clientDescriptor)).setRun i .loadFd } := by
  have htaken := hi.take (.setSndTimeo fd) hfree hfresh hpc rfl nofun rfl
  have hover := htaken.handOver (fun heq => absurd (heq ▸ hfd) (by decide))
    (TcpServer.runs_setRun_self hpc) rfl
  have hset : (s.server.runs.set i (.setSndTimeo fd)).set i .loadFd
      = s.server.runs.set i .loadFd := List.set_set ..
  simpa only [handleClient, setSocket, TcpServer.setRun, TcpServer.setTable, hset,
    Function.update_idem] using hover

theorem OwnsSockets.server {a : TcpServer.Action} {server' : TcpServer} {es : List TcpServer.Event}
    (hi : OwnsSockets s) (hsound : s.server.Sound) (haccepts : s.server.Accepts)
    (hours : s.NotOurs a) (hok : FreshNumbers s (.server a))
    (h : TcpServer.Step syn s.server a server' es) :
    OwnsSockets { s.clientsAfter a with server := server' } := by
  have hat {pc : TcpServerPc} (hpc : s.server.pc = pc) : s.server.ReliesOn pc := hpc ▸ hsound
  cases h with
  | stopCloses hpc =>
    show OwnsSockets { s.setSocket s.server.mFd none with server := _ }
    rw [setSocket_of_nobody (hi.nobody_mFd hsound haccepts hpc)]
    refine hi.keeps (.updates rfl (hi.nobody_mFd hsound haccepts hpc) (fun _ => .inl rfl)
      (TcpServer.hand_closed _) fun i hreturned => ?_)
    show (s.server.runs.map _)[i]? = _
    rw [List.getElem?_map, hreturned]
    rfl
  | socket _ _ hfree =>
    exact hi.keeps (.updates rfl (hi.nobody_of_free hfree) (fun _ => .inr hok)
      (TcpServer.hand_of_runs rfl) (fun _ => id))
  | bind hpc hd =>
    exact hi.keeps (.updates rfl (hi.nobody_opened (hat hpc))
      (fun hnone => by cases hnone.symm.trans hd) (TcpServer.hand_of_runs rfl) (fun _ => id))
  | listen hpc hd hs' =>
    subst hs'
    obtain ⟨hinvalid, hpos, addr, listening, hd'⟩ := hat hpc
    have hjoined {i : ℕ} (hreturned : s.server.runs[i]? = some .returned) :
        (s.server.runs ++ [RunPc.loadFd])[i]? = some .returned := by
      rw [List.getElem?_append_left (List.getElem?_eq_some_iff.mp hreturned).1]
      exact hreturned
    exact hi.keeps (.updates rfl (hi.nobody_opened ⟨hinvalid, hpos, _, hd', rfl⟩)
      (fun hnone => by cases hnone.symm.trans hd) (TcpServer.hand_joins rfl) (fun _ => hjoined))
  | fillFails =>
    refine hi.keeps ⟨fun _ _ _ => rfl, fun _ _ _ _ _ => id, TcpServer.hand_joins rfl,
      fun i hreturned => ?_⟩
    show (s.server.runs ++ [RunPc.loadFd])[i]? = _
    rw [List.getElem?_append_left (List.getElem?_eq_some_iff.mp hreturned).1]
    exact hreturned
  | fails _ ha => rcases ha with rfl | rfl | rfl | rfl <;> exact hi.keeps (.same rfl rfl)
  | runLoadFd hpc => exact hi.keeps (.setRun _ hpc nofun rfl)
  | runEnters hpc => exact hi.keeps (.setRun _ hpc nofun rfl)
  | runRefused hpc => exact hi.returns hpc
  | @runAccepts i f fd hpc hfd hfree =>
    cases htype : s.server.type with
    | IPV4ThreadsTcpServer =>
      have htaken := hi.take (.setRcvTimeo fd) hfree hok hpc rfl nofun rfl
      simpa only [clientsAfter, htype, reduceCtorEq, if_false, clientDescriptor] using htaken
    | IPV6ThreadsTcpServer =>
      have hover := hi.takeOver hfd hfree hok hpc
      simpa only [clientsAfter, htype, if_true, clientDescriptor] using hover
  | runAcceptFails hpc => exact hi.returns hpc
  | @runSetRcvTimeo i fd hpc =>
    have hkept := hi.keeps (.setRun (.setSndTimeo fd) hpc nofun rfl)
    simpa only [clientsAfter, hpc] using hkept
  | @runSetSndTimeo i fd hpc =>
    have hhand : s.server.hand i = some fd := by
      rw [TcpServer.hand, hpc]
      rfl
    have hvalid : fd ≠ INVALID_FD := by
      rintro rfl
      cases haccepts.invalid.symm.trans (hi.client _ _ (hi.hand i _ hhand))
    have hover := hi.handOver hvalid hpc rfl
    simpa only [clientsAfter, hpc] using hover
  | runSetsockoptFails hpc =>
    rcases hpc with hpc | hpc
    · exact hi.returns hpc
    · exact hi.returns hpc
  | otherOpens _ hfree =>
    exact hi.keeps (.updates rfl (hi.nobody_of_free hfree) (fun _ => .inr hok)
      (TcpServer.hand_of_runs rfl) (fun _ => id))
  | otherCloses =>
    refine hi.keeps (.updates rfl hours (fun _ => .inl rfl) (TcpServer.hand_closed _)
      fun i hreturned => ?_)
    show (s.server.runs.map _)[i]? = _
    rw [List.getElem?_map, hreturned]
    rfl
  | _ => exact hi.keeps (.same rfl rfl)

/-! ## Steps of a handler -/

variable {c : ℕ} {handle handle' : ThreadsClientHandle w} {a : ThreadsClientHandle.Action}
variable {es : List (ThreadsClientHandle.Event w)}

/-- Events that close nothing leave the process as it is. -/
theorem foldl_afterEvent (h : ∀ n, .close n ∉ es) : es.foldl afterEvent s = s := by
  induction es with
  | nil => rfl
  | cons e es ih =>
    have hone : afterEvent s e = s := by
      cases e with
      | close n => exact absurd List.mem_cons_self (h n)
      | _ => rfl
    rw [List.foldl_cons, hone]
    exact ih fun n hn => h n (List.mem_cons_of_mem _ hn)

/-- **A handler moves** and closes nothing. -/
theorem OwnsSockets.moves (hi : OwnsSockets s) (haccepts : s.server.Accepts)
    (hc : s.handles[c]? = some handle) (hopen : handle'.isOpen = handle.isOpen)
    (hclient : handle'.client = handle.client)
    (hholds : ∀ n, handle'.Holds n → handle.Holds n ∨ n = INVALID_FD) :
    OwnsSockets { s with handles := s.handles.set c handle' } where
  client := hi.client
  hand := hi.hand
  run := hi.run
  handle := Pool.forall_move (fun d h hd _ => hi.handle d h hd) fun hopen' => by
    rw [hclient]
    exact hi.handle c handle hc (hopen ▸ hopen')
  owner := fun d n hn => by
    obtain ⟨h, hd, hn', hopen'⟩ := hi.owner d n hn
    by_cases hdc : d = c
    · subst hdc
      obtain rfl := Option.some.inj (hc.symm.trans hd)
      refine ⟨handle', ?_, hclient.trans hn', hopen.trans hopen'⟩
      exact List.getElem?_set_self (List.getElem?_eq_some_iff.mp hc).1
    · refine ⟨h, ?_, hn', hopen'⟩
      exact (List.getElem?_set_ne (Ne.symm hdc)).trans hd
  held := Pool.forall_move (fun d h hd _ => hi.held d h hd) fun n hn => by
    rw [hopen, hclient]
    rcases hholds n hn with hold | rfl
    · exact hi.held c handle hc n hold
    · exact .inr haccepts.invalid

/-- **A handler closes its client's descriptor.** -/
theorem OwnsSockets.closes (hi : OwnsSockets s) (haccepts : s.server.Accepts)
    (hc : s.handles[c]? = some handle) (hopen : handle.isOpen = true)
    (hopen' : handle'.isOpen = false)
    (hholds : ∀ n, handle'.Holds n → n = handle.client ∨ n = INVALID_FD) :
    OwnsSockets { s.setSocket handle.client none with
      server := s.server.closed handle.client
      handles := s.handles.set c handle' } := by
  have hmine := hi.handle c handle hc hopen
  have hother {n : ℤ} {holder : Holder}
      (hn : Function.update s.sockets handle.client none n = some holder) :
      n ≠ handle.client ∧ s.sockets n = some holder := by
    by_cases heq : n = handle.client
    · rw [heq, Function.update_self] at hn
      cases hn
    · exact ⟨heq, (Function.update_of_ne heq ..).symm.trans hn⟩
  have hstill {n : ℤ} (hnone : s.server.table n = none) :
      Function.update s.server.table handle.client none n = none := by
    by_cases heq : n = handle.client
    · rw [heq, Function.update_self]
    · exact (Function.update_of_ne heq ..).trans hnone
  have hkept {n : ℤ} {holder : Holder} (hn : s.sockets n = some holder)
      (hne : holder ≠ .handle c) :
      Function.update s.sockets handle.client none n = some holder := by
    refine (Function.update_of_ne (fun heq => hne ?_) ..).trans hn
    rw [heq, hmine] at hn
    exact (Option.some.inj hn).symm
  refine ⟨fun n holder hn => ?_, fun i n hn => ?_, fun i n hn => ?_, ?_, fun d n hn => ?_, ?_⟩
  · obtain ⟨hne, hold⟩ := hother hn
    exact (Function.update_of_ne hne ..).trans (hi.client n holder hold)
  · exact hkept (hi.hand i n ((TcpServer.hand_closed _ i).symm.trans hn)) nofun
  · refine (hi.run i n (hother hn).2).imp (TcpServer.hand_closed _ i).trans fun hreturned => ?_
    show (s.server.runs.map _)[i]? = _
    rw [List.getElem?_map, hreturned]
    rfl
  · refine Pool.forall_move (fun d h hd hdc hopen => ?_) fun hopen => by
      cases hopen'.symm.trans hopen
    exact hkept (hi.handle d h hd hopen) fun heq => hdc (by cases heq; rfl)
  · obtain ⟨hne, hold⟩ := hother hn
    obtain ⟨h, hd, hn', hopen''⟩ := hi.owner d n hold
    refine ⟨h, (List.getElem?_set_ne fun heq => hne ?_).trans hd, hn', hopen''⟩
    subst heq
    obtain rfl := Option.some.inj (hc.symm.trans hd)
    exact hn'.symm
  · refine Pool.forall_move (fun d h hd _ n hn => (hi.held d h hd n hn).imp_right hstill)
      fun n hn => .inr ?_
    rcases hholds n hn with rfl | rfl
    · exact Function.update_self ..
    · exact hstill haccepts.invalid

/-- What a step of a handler does to the server: nothing, or it closes the
client's descriptor. -/
theorem OwnsSockets.handleStep (hi : OwnsSockets s) (haccepts : s.server.Accepts)
    (hc : s.handles[c]? = some handle)
    (hclient : handle.isOpen = true → ThreadsClientHandle.HoldsClient handle)
    (h : ThreadsClientHandle.Step handle a handle' es) :
    OwnsSockets { es.foldl afterEvent s with handles := s.handles.set c handle' }
      ∧ ((es.foldl afterEvent s).server = s.server
        ∨ s.sockets handle.client = some (.handle c)
          ∧ (es.foldl afterEvent s).server = s.server.closed handle.client) := by
  rcases h.close_cases with ⟨n, rfl, hholds, hopen'⟩ | ⟨hnone, hopen'⟩
  · show OwnsSockets { s.setSocket n none with
        server := s.server.closed n, handles := s.handles.set c handle' }
      ∧ (s.server.closed n = s.server ∨ _ ∧ s.server.closed n = _)
    cases hopen : handle.isOpen with
    | true =>
      -- the number is the client's
      obtain rfl := (hclient hopen).eq_of_holds hholds
      refine ⟨hi.closes haccepts hc hopen (by rw [hopen']; simp) fun n hn => ?_,
        .inr ⟨hi.handle c handle hc hopen, rfl⟩⟩
      exact (h.holds hn).imp_left (hclient hopen).eq_of_holds
    | false =>
      -- the number stands for nothing, and its `close` fails
      have hfree : s.server.table n = none :=
        (hi.held c handle hc n hholds).resolve_left fun hown => by
          cases hopen.symm.trans hown.1
      rw [setSocket_of_nobody (hi.nobody_of_free hfree), haccepts.closed_eq hfree]
      refine ⟨hi.moves haccepts hc ?_ h.type_client.2 fun _ => h.holds, .inl rfl⟩
      rw [hopen', hopen]
      rfl
  · rw [foldl_afterEvent hnone]
    exact ⟨hi.moves haccepts hc hopen' h.type_client.2 fun _ => h.holds, .inl rfl⟩

end Invariants

/-! ## Along a run -/

/-- What of the process can be observed of the server. -/
def Event.ofServer : Event w → List TcpServer.Event
  | .server event => [event]
  | .handle _ _ _ => []

/-- Of which handler an event is. -/
def Event.ofHandle : Event w → Option (ℕ × ThreadsClientHandle.Event w)
  | .server _ => none
  | .handle c _ event => some (c, event)

section Runs

variable {syn : AddressSyntax} {s s' : EchoServer w} {a : Action} {es es' : List (Event w)}
variable {type : TcpServerType} {ip : String} {port : BitVec 16}
variable {table : ℤ → Option Descriptor}
variable {ok : EchoServer w → Action → Prop}

theorem type_afterEvent (es : List (ThreadsClientHandle.Event w)) :
    (es.foldl afterEvent s).server.type = s.server.type
      ∧ (es.foldl afterEvent s).handles = s.handles := by
  induction es generalizing s with
  | nil => exact ⟨rfl, rfl⟩
  | cons e es ih =>
    have hone : (afterEvent s e).server.type = s.server.type
        ∧ (afterEvent s e).handles = s.handles := by
      cases e <;> exact ⟨rfl, rfl⟩
    exact ⟨(ih (s := afterEvent s e)).1.trans hone.1, (ih (s := afterEvent s e)).2.trans hone.2⟩

theorem type_of_serverStep {a : TcpServer.Action} {t t' : TcpServer} {es : List TcpServer.Event}
    (h : TcpServer.Step syn t a t' es) : t'.type = t.type := by
  cases h with
  | listen _ _ hs' => rw [hs']; rfl
  | _ => rfl

theorem Step.server_type (h : Step syn s a s' es') : s'.server.type = s.server.type := by
  cases h with
  | server _ hstep => exact type_of_serverStep (TcpServer.Step.of_step hstep)
  | handle => exact (type_afterEvent _).1

theorem type_of_run (h : (machine w syn).Run ok (init type ip port table) es s) :
    s.server.type = type :=
  h.stateInvariant (I := fun s => s.server.type = type) rfl
    (fun hi _ hs => (Step.of_step hs).server_type.trans hi)

/-- A step of the server leaves the handlers as they are, or makes one more. -/
theorem handles_clientsAfter (s : EchoServer w) (a : TcpServer.Action) :
    (s.clientsAfter a).handles = s.handles
      ∨ ∃ fd, (s.clientsAfter a).handles
        = s.handles ++ [.init s.server.type.handleType fd] := by
  cases a with
  | runAccept i answer =>
    cases answer with
    | none => exact .inl rfl
    | some fd =>
      simp only [clientsAfter]
      split
      · exact .inl rfl
      · exact .inr ⟨fd, rfl⟩
  | runSetsockopt i ok =>
    cases ok with
    | false => exact .inl rfl
    | true =>
      simp only [clientsAfter]
      split
      case h_1 fd _ => exact .inr ⟨fd, rfl⟩
      case h_2 => exact .inl rfl
  | _ => exact .inl rfl

/-- **The handlers each run on their own**, in any run of the process. -/
theorem membersRun_of_run
    (okHandle : ThreadsClientHandle w → ThreadsClientHandle.Action → Prop)
    (h : (machine w syn).Run ok (init type ip port table) es s)
    (hok : ∀ s c a handle, ok s (.handle c a) → s.handles[c]? = some handle → okHandle handle a) :
    Pool.MembersRun (ThreadsClientHandle.machine w) okHandle
      (fun handle => ∃ fd, handle = .init type.handleType fd) Event.ofHandle es s.handles := by
  refine h.invariant (I := fun es s => Pool.MembersRun (ThreadsClientHandle.machine w) okHandle
    (fun handle => ∃ fd, handle = .init type.handleType fd) Event.ofHandle es s.handles)
    .nil ?_
  intro es s a s' es' hrun hi hallowed hs
  cases Step.of_step hs with
  | @server a server' es' _ _ =>
    have hothers := hi.others (es'.map (Event.server (w := w))) fun e he => by
      obtain ⟨_, _, rfl⟩ := List.mem_map.mp he
      rfl
    show Pool.MembersRun _ _ _ _ _ (s.clientsAfter a).handles
    rcases handles_clientsAfter s a with hsame | ⟨fd, hnew⟩
    · rw [hsame]
      exact hothers
    · rw [hnew, type_of_run hrun]
      exact hothers.join ⟨fd, rfl⟩
  | handle hc _ hstep =>
    exact hi.move (fun _ => rfl) hc (hok _ _ _ _ hallowed hc) hstep

/-- A handler whose connection is open holds its client's number. -/
theorem holdsClient_of_member (h : (machine w syn).Run ok (init type ip port table) es s) {c : ℕ}
    {handle : ThreadsClientHandle w} (hc : s.handles[c]? = some handle) :
    handle.isOpen = true → ThreadsClientHandle.HoldsClient handle := by
  obtain ⟨_, ⟨fd, rfl⟩, hrun⟩ :=
    (membersRun_of_run Machine.always h fun _ _ _ _ _ _ => trivial).run c handle hc
  exact ThreadsClientHandle.holdsClient_of_run hrun

/-- What the server of the process does is what a server does, and whose
descriptor is whose is kept. -/
theorem serverRun_of_run (htable : table INVALID_FD = none)
    (h : (machine w syn).Run FreshNumbers (init type ip port table) es s) :
    (TcpServer.machine syn).Run Machine.always (.init type ip port table)
        (es.flatMap Event.ofServer) s.server
      ∧ OwnsSockets s := by
  have hstart : OwnsSockets (init type ip port table : EchoServer w) :=
    ⟨nofun, by simp [init, TcpServer.init, TcpServer.hand], nofun, by simp [init], nofun,
      by simp [init]⟩
  have hsimulates : ∃ t, (TcpServer.machine syn).Run Machine.always (.init type ip port table)
      (es.flatMap Event.ofServer) t ∧ t = s.server ∧ OwnsSockets s := by
    refine h.simulate (R := fun _ s t => t = s.server ∧ OwnsSockets s) Event.ofServer
      ⟨rfl, hstart⟩ ?_
    rintro es s a s' es' _ hrun hserver ⟨rfl, hi⟩ hok hs
    have haccepts := TcpServer.accepts_of_run htable hserver
    cases Step.of_step hs with
    | @server a server' es' hours hstep =>
      refine ⟨server', ?_, rfl, hi.server (TcpServer.sound_of_run hserver) haccepts hours hok
        (TcpServer.Step.of_step hstep)⟩
      have hevents : (es'.map (Event.server (w := w))).flatMap Event.ofServer = es' := by
        rw [List.flatMap_map]
        exact List.flatMap_singleton' es'
      rw [hevents]
      exact .single trivial hstep
    | @handle c a handle handle' es' hc _ hstep =>
      have hevents : (es'.map fun e => Event.handle c (e.fd.bind s.sockets) e).flatMap
          Event.ofServer = [] := by
        rw [List.flatMap_map]
        exact List.flatMap_eq_nil_iff.mpr fun _ _ => rfl
      obtain ⟨hi', hserver'⟩ := hi.handleStep haccepts hc (holdsClient_of_member hrun hc)
        (ThreadsClientHandle.Step.of_step hstep)
      refine ⟨_, ?_, rfl, hi'⟩
      rw [hevents]
      show (TcpServer.machine syn).Run Machine.always s.server [] (es'.foldl afterEvent s).server
      rcases hserver' with hsame | ⟨hmine, hcloses⟩
      · rw [hsame]
        exact .start
      · -- for the server somebody else closes a descriptor of their own
        rw [hcloses]
        have hother : (TcpServer.machine syn).step s.server (.otherCloses handle.client)
            = some (s.server.closed handle.client, []) := by
          simp only [TcpServer.machine, TcpServer.step, hi.client _ _ hmine]
          rfl
        exact .single trivial hother
  obtain ⟨t, hrun, rfl, hi⟩ := hsimulates
  exact ⟨hrun, hi⟩

/-- **The clients leave the server alone.** In every run of the process in which
no number is given away while a handler holds it, the server does what a
`TcpServer` does among other parts of a process that open and close descriptors
of their own. -/
theorem server_among_clients (htable : table INVALID_FD = none)
    (h : (machine w syn).Run FreshNumbers (init type ip port table) es s) :
    (TcpServer.machine syn).Run Machine.always (.init type ip port table)
      (es.flatMap Event.ofServer) s.server :=
  (serverRun_of_run htable h).1

/-- **Every client's descriptor is accounted for**, in the same runs. A handler
has the number of its client exactly as long as the connection is open, and none
once its read thread has returned; a thread in `run()` has what it has in hand,
or has returned with it; and all of them are open in the process. -/
theorem sockets_accounted (htable : table INVALID_FD = none)
    (h : (machine w syn).Run FreshNumbers (init type ip port table) es s) :
    (∀ (c : ℕ) (n : ℤ), s.sockets n = some (.handle c)
        ↔ ∃ handle, s.handles[c]? = some handle ∧ handle.client = n ∧ handle.isOpen = true)
      ∧ (∀ (c : ℕ) (handle : ThreadsClientHandle w), s.handles[c]? = some handle →
        handle.reader = .returned → ∀ n, s.sockets n ≠ some (.handle c))
      ∧ (∀ i n, s.sockets n = some (.run i) →
        s.server.hand i = some n ∨ s.server.runs[i]? = some .returned)
      ∧ ∀ n holder, s.sockets n = some holder → s.server.table n = some clientDescriptor := by
  have hi := (serverRun_of_run htable h).2
  refine ⟨fun c n => ⟨hi.owner c n, ?_⟩, fun c handle hc hreader n hn => ?_, hi.run, hi.client⟩
  · rintro ⟨handle, hc, rfl, hopen⟩
    exact hi.handle c handle hc hopen
  · obtain ⟨handle', hc', rfl, hopen⟩ := hi.owner c n hn
    obtain rfl := Option.some.inj (hc.symm.trans hc')
    have hclient := holdsClient_of_member h hc hopen
    obtain ⟨_, ⟨fd, rfl⟩, hrun⟩ :=
      (membersRun_of_run Machine.always h fun _ _ _ _ _ _ => trivial).run c handle hc
    have hinvalid := (ThreadsClientHandle.fieldSound_of_run hrun).stored (by rw [hreader]; rfl)
    exact hclient.valid (hclient.mClientFd.symm.trans hinvalid)

end Runs

/-! ## Two clients, and one that comes too soon -/

open ITcpBrokerServerEngine (loopback)
open TcpServer (startOn3)

/-- The IPv4 server is started on descriptor 3, and its `run` is in `accept`. -/
def startedOn3 : List Action :=
  (startOn3 .IPV4ThreadsTcpServer ++ [TcpServer.Action.runGo 0, .runGo 0]).map .server

/-- A client is accepted on `fd` and handed over, and `run` is in `accept`
again. -/
def acceptOn (fd : ℤ) : List Action :=
  ([.runAccept 0 (some fd), .runSetsockopt 0 true, .runSetsockopt 0 true, .runGo 0,
    .runGo 0] : List TcpServer.Action).map .server

/-- Steps of the handler of a connection. -/
def ofHandle (c : ℕ) (as : List ThreadsClientHandle.Action) : List Action := as.map (.handle c)

/-- Two clients, on 5 and 6. The first closes, and its descriptor is closed. -/
def firstLeaves : List Action :=
  startedOn3 ++ acceptOn 5 ++ acceptOn 6
    ++ ofHandle 0 (ThreadsClientHandle.untilWait ++ ThreadsClientHandle.readEnds)

theorem server_among_clients_firstLeaves :
    ∃ es s, (machine 64 loopback).Run FreshNumbers
        (init .IPV4ThreadsTcpServer "127.0.0.1" 9001 (fun _ => none)) es s
      ∧ s.handles.length = 2
      ∧ (TcpServer.machine loopback).Run Machine.always
        (.init .IPV4ThreadsTcpServer "127.0.0.1" 9001 (fun _ => none))
        (es.flatMap Event.ofServer) s.server := by
  obtain ⟨es, s, hrun, hlen⟩ : ∃ es s, (machine 64 loopback).Run FreshNumbers
        (init .IPV4ThreadsTcpServer "127.0.0.1" 9001 (fun _ => none)) es s
      ∧ s.handles.length = 2 :=
    Machine.Run.exists_of_exec firstLeaves (by decide +kernel)
  exact ⟨es, s, hrun, hlen, server_among_clients rfl hrun⟩

theorem sockets_accounted_firstLeaves :
    ∃ es s, (machine 64 loopback).Run FreshNumbers
        (init .IPV4ThreadsTcpServer "127.0.0.1" 9001 (fun _ => none)) es s
      ∧ s.sockets 5 = none ∧ s.sockets 6 = some (.handle 1)
      ∧ s.server.table 6 = some clientDescriptor := by
  obtain ⟨es, s, hrun, hfive, hsix⟩ : ∃ es s, (machine 64 loopback).Run FreshNumbers
        (init .IPV4ThreadsTcpServer "127.0.0.1" 9001 (fun _ => none)) es s
      ∧ s.sockets 5 = none ∧ s.sockets 6 = some (.handle 1) :=
    Machine.Run.exists_of_exec firstLeaves (by decide +kernel)
  exact ⟨es, s, hrun, hfive, hsix, (sockets_accounted rfl hrun).2.2.2 6 _ hsix⟩

/-- Both threads of the handler are about to close 5, and the write thread does.
Then the server is stopped and started again, and its new socket gets 5, before
the read thread closes it. -/
def numberTaken : List Action :=
  startedOn3 ++ acceptOn 5
    ++ ofHandle 0 (ThreadsClientHandle.untilReadEnds ++ ThreadsClientHandle.untilSendFails
      ++ [.writer, .reader, .writer])
    ++ ([.stop, .go, .start, .socket (some 5), .setsockopt true, .go, .bind true,
      .listen true] : List TcpServer.Action).map .server
    ++ ofHandle 0 [.reader]

/-- **A handler can close the server's listening socket**, where a number is
given away while the handler holds it: `mFd` is 5, and 5 is closed. -/
theorem listener_closed_by_handle :
    ∃ es s, (machine 64 loopback).Run Machine.always
        (init .IPV4ThreadsTcpServer "127.0.0.1" 9001 (fun _ => none)) es s
      ∧ s.server.mFd = 5 ∧ s.server.pc = .idle ∧ s.server.table 5 = none :=
  Machine.Run.exists_of_exec numberTaken (by decide +kernel)

end EchoServer
