import NetUtils.ITcpBrokerServerEngine

/-!
# Who owns the engine's listening socket

`stop()` closes `mFd` and leaves the number in it. `start()` then takes the
number for a socket that is there and goes on to `run()`, and the next
`stop()` closes it again, whoever it stands for by then. (`TcpServer::stop`
does store `INVALID_FD`.)

`owns_of_run` is the other side of it: as long as `stop()` and `restart()` are
called only while `mFd` is `INVALID_FD`, the number in `mFd` is that of a
listening socket this engine has opened and nobody else's is ever closed.
`stop_disowns` says that no weaker condition will do for `stop()`, and
`restart_disowns`, in `NetUtils.EngineRestart`, none for `restart()`.
-/

/-- The socket an initialisation is working on. -/
def EnginePc.svr_sock : EnginePc → Option ℤ
  | setReuseAddr svr_sock => some svr_sock
  | setV6Only svr_sock => some svr_sock
  | fillAddress svr_sock => some svr_sock
  | bind svr_sock _ => some svr_sock
  | listen svr_sock => some svr_sock
  | _ => none

namespace ITcpBrokerServerEngine

/-- **The engine owns its socket**: `mFd` is `INVALID_FD` or the number of an
open listening socket that this engine opened. -/
def Owns (s : ITcpBrokerServerEngine) : Prop :=
  s.mFd = INVALID_FD
    ∨ ∃ d, s.table s.mFd = some d ∧ d.owner = .engine ∧ d.listening = true

/-- A `close` is of an open descriptor that this engine opened. -/
def Event.Owned : Event → Prop
  | .close _ target => ∃ d, target = some d ∧ d.owner = .engine
  | _ => True

/-- The condition on a step: `stop()` and `restart()` are called only while
`mFd` is `INVALID_FD`. No socket is handed to the engine. -/
def StopsUnstarted (s : ITcpBrokerServerEngine) : Action → Prop
  | .call .stop => s.mFd = INVALID_FD
  | .call .restart => s.mFd = INVALID_FD
  | .call (.setListeningSocket _) => False
  | _ => True

instance : DecidableRel StopsUnstarted
  | s, .call .stop => inferInstanceAs (Decidable (s.mFd = INVALID_FD))
  | s, .call .restart => inferInstanceAs (Decidable (s.mFd = INVALID_FD))
  | _, .call (.setListeningSocket _) => isFalse id
  | _, .call .start => isTrue trivial
  | _, .call (.setListeningAddress _) => isTrue trivial
  | _, .call (.setListeningPort _) => isTrue trivial
  | _, .go => isTrue trivial
  | _, .socket _ => isTrue trivial
  | _, .setsockopt _ => isTrue trivial
  | _, .bind _ => isTrue trivial
  | _, .listen _ => isTrue trivial
  | _, .accept _ => isTrue trivial
  | _, .otherOpens _ _ _ => isTrue trivial
  | _, .otherCloses _ => isTrue trivial

variable {syn : AddressSyntax} {s s' : ITcpBrokerServerEngine} {a : Action} {es : List Event}

/-! ## What others leave alone -/

/-- Opening a number that is free changes no other. -/
theorem table_of_free {fd n : ℤ} {d : Descriptor} {target : Option Descriptor}
    (hn : s.table n = some d) (hfree : s.table fd = none) :
    (s.setTable fd target).table n = some d := by
  rw [setTable_table, Function.update_of_ne, hn]
  rintro rfl
  cases hn.symm.trans hfree

/-- Closing a descriptor of someone else's leaves the engine's. -/
theorem table_of_other {fd n : ℤ} {d d' : Descriptor} {target : Option Descriptor}
    (hn : s.table n = some d) (hd : d.owner = .engine) (hfd : s.table fd = some d')
    (hother : d'.owner = .other) : (s.setTable fd target).table n = some d := by
  rw [setTable_table, Function.update_of_ne, hn]
  rintro rfl
  rw [Option.some.inj (hn.symm.trans hfd), hother] at hd
  cases hd

/-! ## The invariant -/

/-- What the engine's numbers stand for while it is never stopped with a
socket. -/
structure KeepsItsSocket (s : ITcpBrokerServerEngine) : Prop where
  /-- The engine owns its socket. -/
  owns : Owns s
  /-- It is not being stopped with one. -/
  stop : ∀ restarting, s.pc = .stop restarting → s.mFd = INVALID_FD
  /-- The socket being initialised is the engine's. -/
  svr_sock : ∀ svr_sock, s.pc.svr_sock = some svr_sock →
    ∃ d, s.table svr_sock = some d ∧ d.owner = .engine

theorem KeepsItsSocket.start (type : PROTOCOL_TYPE) (ip : String) (port : ℤ)
    (table : ℤ → Option Descriptor) : KeepsItsSocket (init type ip port table) where
  owns := .inl rfl
  stop := nofun
  svr_sock := nofun

/-- A step that neither opens nor closes anything of the engine's. -/
theorem KeepsItsSocket.of_table (hi : KeepsItsSocket s)
    (htable : ∀ n d, s.table n = some d → d.owner = .engine → s'.table n = some d)
    (hfd : s'.mFd = s.mFd)
    (hstop : ∀ restarting, s'.pc = .stop restarting → s.mFd = INVALID_FD)
    (hinit : ∀ svr_sock, s'.pc.svr_sock = some svr_sock →
      s.pc.svr_sock = some svr_sock) : KeepsItsSocket s' where
  owns := by
    rw [Owns, hfd]
    exact hi.owns.imp_right fun ⟨d, hd, howner, hlisten⟩ =>
      ⟨d, htable _ d hd howner, howner, hlisten⟩
  stop := fun restarting hpc => hfd.trans (hstop restarting hpc)
  svr_sock := fun svr_sock hpc =>
    let ⟨d, hd, howner⟩ := hi.svr_sock svr_sock (hinit svr_sock hpc)
    ⟨d, htable _ d hd howner, howner⟩

theorem KeepsItsSocket.step (h : Step syn s a s' es) (hok : StopsUnstarted s a)
    (hi : KeepsItsSocket s) : KeepsItsSocket s' := by
  have hsame : ∀ n d, s.table n = some d → d.owner = .engine → s.table n = some d :=
    fun _ _ hd _ => hd
  cases h with
  | call c hpc =>
    cases c with
    | start => exact hi.of_table hsame rfl nofun nofun
    | stop => exact hi.of_table hsame rfl (fun _ _ => hok) nofun
    | restart => exact hi.of_table hsame rfl (fun _ _ => hok) nofun
    | setListeningAddress ip => exact hi.of_table hsame rfl hi.stop (fun _ h => h)
    | setListeningPort port => exact hi.of_table hsame rfl hi.stop (fun _ h => h)
    | setListeningSocket fd => exact hok.elim
  | stopCloses hpc hfd => exact absurd (hi.stop _ hpc) hfd
  | @stopSkips restarting hpc hfd =>
    refine hi.of_table hsame rfl (fun _ _ => hfd) ?_
    cases restarting <;> exact nofun
  | startInits => exact hi.of_table hsame rfl nofun nofun
  | startUnknown => exact hi.of_table hsame rfl nofun nofun
  | startRuns => exact hi.of_table hsame rfl nofun nofun
  | fill hpc =>
    exact hi.of_table hsame rfl nofun (fun _ h => by rw [hpc]; exact h)
  | fillFails => exact hi.of_table hsame rfl nofun nofun
  | setReuseAddr hpc =>
    refine hi.of_table hsame rfl ?_ ?_
    · intro restarting h
      change (if _ then _ else _) = _ at h
      split at h <;> cases h
    · intro n h
      change (if _ then _ else _ : EnginePc).svr_sock = _ at h
      rw [hpc]
      split at h <;> exact h
  | setV6Only hpc =>
    exact hi.of_table hsame rfl nofun (fun _ h => by rw [hpc]; exact h)
  | fails => exact hi.of_table hsame rfl nofun nofun
  | acceptFails => exact hi.of_table hsame rfl nofun nofun
  | accept hpc _ _ _ hfree =>
    exact hi.of_table (fun _ _ hd _ => table_of_free hd hfree) rfl hi.stop (fun _ h => h)
  | otherOpens _ hfree =>
    exact hi.of_table (fun _ _ hd _ => table_of_free hd hfree) rfl hi.stop (fun _ h => h)
  | otherCloses hd hother =>
    exact hi.of_table (fun _ _ hn howner => table_of_other hn howner hd hother) rfl hi.stop
      (fun _ h => h)
  | @socket fd hpc _ hfree =>
    refine ⟨hi.owns.imp_right fun ⟨d, hd, hown⟩ => ⟨d, table_of_free hd hfree, hown⟩, nofun, ?_⟩
    rintro _ ⟨⟩
    exact ⟨_, Function.update_self .., rfl⟩
  | @bind svr_sock addr d hpc hd =>
    have howner : d.owner = .engine := by
      obtain ⟨d', hd', howner⟩ := hi.svr_sock svr_sock (by rw [hpc]; rfl)
      rwa [Option.some.inj (hd.symm.trans hd')]
    refine ⟨hi.owns.imp_right fun ⟨d', hd', howner', hlisten'⟩ => ?_, nofun, ?_⟩
    · by_cases hsock : s.mFd = svr_sock
      · obtain rfl := Option.some.inj (hd.symm.trans (hsock ▸ hd'))
        exact ⟨_, (congrArg _ hsock).trans (Function.update_self ..), howner', hlisten'⟩
      · exact ⟨d', (Function.update_of_ne hsock ..).trans hd', howner', hlisten'⟩
    · rintro _ ⟨⟩
      exact ⟨_, Function.update_self .., howner⟩
  | @listen svr_sock d hpc hd =>
    obtain ⟨d', hd', howner⟩ := hi.svr_sock svr_sock (by rw [hpc]; rfl)
    rw [← Option.some.inj (hd.symm.trans hd')] at howner
    exact ⟨.inr ⟨_, Function.update_self .., howner, rfl⟩, nofun, nofun⟩

/-! ## Along a run -/

variable {type : PROTOCOL_TYPE} {ip : String} {port : ℤ} {table : ℤ → Option Descriptor}

theorem keepsItsSocket_of_run
    (h : (machine syn).Run StopsUnstarted (init type ip port table) es s) :
    KeepsItsSocket s :=
  h.stateInvariant (KeepsItsSocket.start type ip port table)
    (fun hi hok hs => hi.step (Step.of_step hs) hok)

/-- **The engine owns its socket and closes nobody else's** in every run in
which it is stopped only while it has none. -/
theorem owns_of_run (h : (machine syn).Run StopsUnstarted (init type ip port table) es s) :
    Owns s ∧ ∀ e ∈ es, e.Owned := by
  refine ⟨(keepsItsSocket_of_run h).owns, ?_⟩
  refine h.invariant (I := fun es _ => ∀ e ∈ es, e.Owned) nofun ?_
  intro es s a s' es' hrun hi _ hs e he
  rcases List.mem_append.mp he with hold | hnew
  · exact hi e hold
  · cases Step.of_step hs with
    | stopCloses hpc hfd => exact absurd ((keepsItsSocket_of_run hrun).stop _ hpc) hfd
    | acceptFails =>
      rcases List.mem_cons.mp hnew with rfl | hnew
      · trivial
      · obtain rfl := List.mem_singleton.mp hnew
        trivial
    | _ =>
      first
      | exact absurd hnew List.not_mem_nil
      | (obtain rfl := List.mem_singleton.mp hnew; trivial)

/-- **A `stop()` that closes something leaves the engine without its socket**:
it returns with the number of a closed descriptor in `mFd`. -/
theorem stop_disowns (hpc : s.pc = .idle) (hfd : s.mFd ≠ INVALID_FD) :
    ∃ s', (machine syn).Run Machine.always s
        [.close s.mFd (s.table s.mFd)] s'
      ∧ s'.pc = .idle ∧ ¬ Owns s' := by
  have hcall : (machine syn).step s (.call .stop) = some ({ s with pc := .stop false }, []) := by
    simp only [machine, step, hpc, if_true, begin]
  have hgo : (machine syn).step { s with pc := .stop false } .go
      = some ({ s.setTable s.mFd none with pc := .idle }, [.close s.mFd (s.table s.mFd)]) := by
    simp only [machine, step, stepGo, if_pos hfd]
    rfl
  refine ⟨_, (Machine.Run.single trivial hcall).snoc trivial hgo, rfl, ?_⟩
  rintro (hinvalid | ⟨d, hd, -⟩)
  · exact hfd hinvalid
  · have hnone : (s.setTable s.mFd none).table s.mFd = none := Function.update_self ..
    cases hnone.symm.trans hd

/-- The texts for the loopback addresses, and no others. -/
def loopback : AddressSyntax where
  inet_aton := fun cp => if cp = "127.0.0.1" then some 0x7f000001 else none
  inet_pton := fun cp => if cp = "::1" then some 1 else none

/-- `start()` on descriptor 3, up to its `run()`. -/
def startOn3 : List Action :=
  [.call .start, .go, .socket (some 3), .setsockopt true, .go, .bind true, .listen true]

/-- Started, accepting a client, and ending when `accept` fails. -/
theorem owns_of_run_startOn3 :
    ∃ es s, (machine loopback).Run StopsUnstarted
        (init .PT_TCP_IPV4 "127.0.0.1" 9001 (fun _ => none)) es s
      ∧ s.pc = .idle ∧ s.mFd = 3 ∧ Owns s ∧ ∀ e ∈ es, e.Owned := by
  obtain ⟨es, s, hrun, hpc, hfd⟩ : ∃ es s, (machine loopback).Run StopsUnstarted
      (init .PT_TCP_IPV4 "127.0.0.1" 9001 (fun _ => none)) es s
      ∧ s.pc = .idle ∧ s.mFd = 3 := by
    refine Machine.Run.exists_of_exec (startOn3 ++ [.accept (some 4), .accept none]) ?_
    decide +kernel
  exact ⟨es, s, hrun, hpc, hfd, owns_of_run hrun⟩

/-- **A second `stop()` closes somebody else's descriptor.** The first closed
the engine's own, and the number has been given out again. -/
theorem stop_closes_other :
    ∃ es s, (machine loopback).Run Machine.always
        (init .PT_TCP_IPV4 "127.0.0.1" 9001 (fun _ => none)) es s
      ∧ s.pc = .idle ∧ ¬ ∀ e ∈ es, e.Owned := by
  obtain ⟨es, s, hrun, hpc, hclose⟩ : ∃ es s, (machine loopback).Run Machine.always
      (init .PT_TCP_IPV4 "127.0.0.1" 9001 (fun _ => none)) es s
      ∧ s.pc = .idle ∧ .close 3 (some ⟨.other, none, false⟩) ∈ es := by
    refine Machine.Run.exists_of_exec (startOn3 ++ [.accept none, .call .stop, .go,
      .otherOpens 3 none false, .call .stop, .go]) ?_
    decide +kernel
  refine ⟨es, s, hrun, hpc, fun howned => ?_⟩
  obtain ⟨d, heq, howner⟩ := howned _ hclose
  obtain rfl := Option.some.inj heq
  cases howner

end ITcpBrokerServerEngine
