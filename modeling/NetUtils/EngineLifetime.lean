import NetUtils.EngineOwnership

/-!
# How long an engine listens

`stop()` leaves the number of the socket it has closed in `mFd`, and nothing takes it
out again. `start()` initialises a socket only where `mFd` is `INVALID_FD`. So the first
`close` is the end of the engine: whatever is called after it, and `restart()` was such
a call itself, the engine does not come to have another listening socket. What its
`accept` calls are made on from then on is what the number has come to stand for, if
anything.

`accepts_until_closed` says that up to there all is well. As long as no socket is handed
to it, an engine accepts on an open listening socket of its own exactly until its first
`close`.
-/

namespace ITcpBrokerServerEngine

/-- An open listening socket of the engine's. -/
def OwnListener (target : Option Descriptor) : Prop :=
  ∃ d, target = some d ∧ d.owner = .engine ∧ d.listening = true

/-- The event is a `close`. -/
def Event.isClose : Event → Bool
  | close _ _ => true
  | _ => false

/-- **What an `accept` owes to the events before it**: it is made on an own listener just
when nothing has been closed. -/
def AcceptsOwn (before : List Event) : Event → Prop
  | .accept _ target => OwnListener target ↔ ∀ e ∈ before, e.isClose = false
  | _ => True

/-- The condition on a step: no socket is handed to the engine. -/
def NothingHanded (_ : ITcpBrokerServerEngine) : Action → Prop
  | .call (.setListeningSocket _) => False
  | _ => True

instance : DecidableRel NothingHanded
  | _, .call (.setListeningSocket _) => isFalse id
  | _, .call .start | _, .call .stop | _, .call .restart | _, .call (.setListeningAddress _)
  | _, .call (.setListeningPort _) | _, .go | _, .socket _ | _, .setsockopt _ | _, .bind _
  | _, .listen _ | _, .accept _ | _, .otherOpens _ _ _ | _, .otherCloses _ => isTrue trivial

/-- **Before the first `close`.** -/
structure Alive (s : ITcpBrokerServerEngine) : Prop where
  /-- The number in `mFd` is that of an own listener. -/
  listener : s.mFd ≠ INVALID_FD → OwnListener (s.table s.mFd)
  /-- There is one while `run()` accepts. -/
  run : s.pc = .run → s.mFd ≠ INVALID_FD
  /-- The socket that is initialised is the engine's. -/
  svr_sock : ∀ svr_sock, s.pc.svr_sock = some svr_sock →
    s.mFd = INVALID_FD ∧ 0 ≤ svr_sock ∧ ∃ d, s.table svr_sock = some d ∧ d.owner = .engine
  /-- Where there is none yet, none is stored. -/
  socket : s.pc = .socket → s.mFd = INVALID_FD

/-- **After it.** The number stays in `mFd` and is not the engine's any more, and the
engine does not come to a `socket()`. -/
structure Closed (s : ITcpBrokerServerEngine) : Prop where
  mFd : s.mFd ≠ INVALID_FD
  table : ∀ d, s.table s.mFd = some d → d.owner ≠ .engine
  pc : s.pc.svr_sock = none ∧ s.pc ≠ .socket

section Invariants

variable {syn : AddressSyntax} {s s' : ITcpBrokerServerEngine} {a : Action} {es : List Event}
variable {type : PROTOCOL_TYPE} {ip : String} {port : ℤ} {table : ℤ → Option Descriptor}

theorem Alive.init : (init type ip port table).Alive where
  listener := fun hne => absurd rfl hne
  run := nofun
  svr_sock := nofun
  socket := nofun

/-- A step that leaves `mFd` and the engine's descriptors. -/
theorem Alive.of_table (hi : Alive s)
    (htable : ∀ n d, s.table n = some d → d.owner = .engine → s'.table n = some d)
    (hfd : s'.mFd = s.mFd) (hrun : s'.pc = .run → s.mFd ≠ INVALID_FD)
    (hinit : ∀ svr_sock, s'.pc.svr_sock = some svr_sock → s.pc.svr_sock = some svr_sock)
    (hsocket : s'.pc = .socket → s.mFd = INVALID_FD) : Alive s' where
  listener := fun hne => by
    rw [hfd] at hne ⊢
    obtain ⟨d, hd, howner, hlisten⟩ := hi.listener hne
    exact ⟨d, htable _ d hd howner, howner, hlisten⟩
  run := fun hpc => hfd ▸ hrun hpc
  svr_sock := fun svr_sock hpc => by
    obtain ⟨hinvalid, hpos, d, hd, howner⟩ := hi.svr_sock svr_sock (hinit svr_sock hpc)
    exact ⟨hfd.trans hinvalid, hpos, d, htable _ d hd howner, howner⟩
  socket := fun hpc => hfd.trans (hsocket hpc)

/-- **One step before the first `close`** is no `close`, or it is the first. -/
theorem Alive.step (h : Step syn s a s' es) (hok : NothingHanded s a) (hi : Alive s) :
    ((∀ e ∈ es, e.isClose = false) ∧ Alive s') ∨ ((∃ e ∈ es, e.isClose = true) ∧ Closed s') := by
  have hsame : ∀ n d, s.table n = some d → d.owner = .engine → s.table n = some d :=
    fun _ _ hd _ => hd
  have hnone : ∀ e ∈ ([] : List Event), e.isClose = false := List.forall_mem_nil _
  have hreturned : ∀ e ∈ [Event.returned false], e.isClose = false := by decide
  cases h with
  | call c hpc =>
    refine .inl ⟨hnone, ?_⟩
    cases c with
    | setListeningSocket fd => exact hok.elim
    | start => exact hi.of_table hsame rfl nofun nofun nofun
    | stop => exact hi.of_table hsame rfl nofun nofun nofun
    | restart => exact hi.of_table hsame rfl nofun nofun nofun
    | setListeningAddress ip => exact hi.of_table hsame rfl hi.run (fun _ h => h) hi.socket
    | setListeningPort port => exact hi.of_table hsame rfl hi.run (fun _ h => h) hi.socket
  | @stopCloses restarting hpc hfd =>
    refine .inr ⟨⟨_, List.mem_cons_self, rfl⟩, hfd, fun d hd => ?_, ?_⟩
    · cases (Function.update_self ..).symm.trans hd
    · cases restarting <;> exact ⟨rfl, nofun⟩
  | @stopSkips restarting hpc hfd =>
    refine .inl ⟨hnone, hi.of_table hsame rfl ?_ ?_ ?_⟩ <;> cases restarting <;> exact nofun
  | startInits hpc hfd =>
    exact .inl ⟨hnone, hi.of_table hsame rfl nofun nofun fun _ => hfd⟩
  | startUnknown => exact .inl ⟨hreturned, hi.of_table hsame rfl nofun nofun nofun⟩
  | startRuns hpc hfd =>
    exact .inl ⟨hnone, hi.of_table hsame rfl (fun _ => hfd) nofun nofun⟩
  | fill hpc =>
    exact .inl ⟨hnone, hi.of_table hsame rfl nofun (fun _ h => by rw [hpc]; exact h) nofun⟩
  | fillFails => exact .inl ⟨hreturned, hi.of_table hsame rfl nofun nofun nofun⟩
  | setReuseAddr hpc =>
    refine .inl ⟨hnone, hi.of_table hsame rfl ?_ (fun n h => ?_) ?_⟩
    · dsimp only
      split <;> exact nofun
    · rw [hpc]
      dsimp only at h
      split at h <;> exact h
    · dsimp only
      split <;> exact nofun
  | setV6Only hpc =>
    exact .inl ⟨hnone, hi.of_table hsame rfl nofun (fun _ h => by rw [hpc]; exact h) nofun⟩
  | fails => exact .inl ⟨hreturned, hi.of_table hsame rfl nofun nofun nofun⟩
  | acceptFails =>
    refine .inl ⟨?_, hi.of_table hsame rfl nofun nofun nofun⟩
    exact List.forall_mem_cons.mpr ⟨rfl, hreturned⟩
  | accept hpc _ _ _ hfree =>
    refine .inl ⟨List.forall_mem_cons.mpr ⟨rfl, hnone⟩, ?_⟩
    exact hi.of_table (fun _ _ hd _ => table_of_free hd hfree) rfl hi.run (fun _ h => h) hi.socket
  | otherOpens _ hfree =>
    exact .inl ⟨hnone, hi.of_table (fun _ _ hd _ => table_of_free hd hfree) rfl hi.run
      (fun _ h => h) hi.socket⟩
  | otherCloses hd hother =>
    exact .inl ⟨hnone, hi.of_table (fun _ _ hn howner => table_of_other hn howner hd hother) rfl
      hi.run (fun _ h => h) hi.socket⟩
  | @socket fd hpc hfd hfree =>
    have hinvalid : s.mFd = INVALID_FD := hi.socket hpc
    refine .inl ⟨hnone, fun hne => absurd hinvalid hne, nofun, ?_, nofun⟩
    rintro _ ⟨⟩
    exact ⟨hinvalid, hfd, _, Function.update_self .., rfl⟩
  | @bind svr_sock addr d hpc hd =>
    obtain ⟨hinvalid, hpos, d', hd', howner⟩ := hi.svr_sock svr_sock (by rw [hpc]; rfl)
    obtain rfl := Option.some.inj (hd.symm.trans hd')
    refine .inl ⟨hnone, fun hne => absurd hinvalid hne, nofun, ?_, nofun⟩
    rintro _ ⟨⟩
    exact ⟨hinvalid, hpos, _, Function.update_self .., howner⟩
  | @listen svr_sock d hpc hd =>
    obtain ⟨-, hpos, d', hd', howner⟩ := hi.svr_sock svr_sock (by rw [hpc]; rfl)
    obtain rfl := Option.some.inj (hd.symm.trans hd')
    refine .inl ⟨hnone, fun _ => ⟨_, Function.update_self .., howner, rfl⟩, fun _ => ?_, nofun,
      nofun⟩
    rintro rfl
    exact absurd hpos (by decide)

/-- A step that leaves `mFd` and makes nothing the engine's. -/
theorem Closed.of_table (hi : Closed s) (hfd : s'.mFd = s.mFd)
    (htable : ∀ d, s'.table s.mFd = some d → d.owner ≠ .engine)
    (hpc : s'.pc.svr_sock = none ∧ s'.pc ≠ .socket) : Closed s' where
  mFd := hfd ▸ hi.mFd
  table := fun d hd => htable d (hfd ▸ hd)
  pc := hpc

/-- A number given to somebody else, or to nobody, is not the engine's. -/
theorem Closed.of_update (hi : Closed s) {fd : ℤ} {target : Option Descriptor}
    (htarget : ∀ d, target = some d → d.owner ≠ .engine) (d : Descriptor)
    (hd : (s.setTable fd target).table s.mFd = some d) : d.owner ≠ .engine := by
  by_cases hfd : s.mFd = fd
  · rw [setTable_table, hfd, Function.update_self] at hd
    exact htarget d hd
  · rw [setTable_table, Function.update_of_ne hfd] at hd
    exact hi.table d hd

/-- **One step after the first `close`.** -/
theorem Closed.step (h : Step syn s a s' es) (hok : NothingHanded s a) (hi : Closed s) :
    Closed s' := by
  have hother {bound : Option SockAddr} {listening : Bool} (d : Descriptor)
      (hd : some ⟨.other, bound, listening⟩ = some d) : d.owner ≠ .engine := by
    obtain rfl := Option.some.inj hd
    exact nofun
  have hinit {svr_sock : ℤ} (hpc : s.pc.svr_sock = some svr_sock) : False := by
    cases hi.pc.1.symm.trans hpc
  cases h with
  | call c =>
    cases c with
    | setListeningSocket fd => exact hok.elim
    | start => exact hi.of_table rfl hi.table ⟨rfl, nofun⟩
    | stop => exact hi.of_table rfl hi.table ⟨rfl, nofun⟩
    | restart => exact hi.of_table rfl hi.table ⟨rfl, nofun⟩
    | setListeningAddress ip => exact hi.of_table rfl hi.table hi.pc
    | setListeningPort port => exact hi.of_table rfl hi.table hi.pc
  | @stopCloses restarting =>
    refine hi.of_table rfl (hi.of_update fun d hd => by cases hd) ?_
    cases restarting <;> exact ⟨rfl, nofun⟩
  | stopSkips _ hfd => exact absurd hfd hi.mFd
  | startInits _ hfd => exact absurd hfd hi.mFd
  | startUnknown => exact hi.of_table rfl hi.table ⟨rfl, nofun⟩
  | startRuns => exact hi.of_table rfl hi.table ⟨rfl, nofun⟩
  | fill hpc => exact (hinit (by rw [hpc]; rfl)).elim
  | fillFails hpc => exact (hinit (by rw [hpc]; rfl)).elim
  | socket hpc => exact absurd hpc hi.pc.2
  | setReuseAddr hpc => exact (hinit (by rw [hpc]; rfl)).elim
  | setV6Only hpc => exact (hinit (by rw [hpc]; rfl)).elim
  | bind hpc => exact (hinit (by rw [hpc]; rfl)).elim
  | listen hpc => exact (hinit (by rw [hpc]; rfl)).elim
  | fails => exact hi.of_table rfl hi.table ⟨rfl, nofun⟩
  | acceptFails => exact hi.of_table rfl hi.table ⟨rfl, nofun⟩
  | accept => exact hi.of_table rfl (hi.of_update hother) hi.pc
  | otherOpens => exact hi.of_table rfl (hi.of_update hother) hi.pc
  | otherCloses => exact hi.of_table rfl (hi.of_update fun d hd => by cases hd) hi.pc

/-! ## Along a run -/

/-- The `accept` calls of a step, of which there is at most one, before anything else. -/
theorem Step.accept_first (h : Step syn s a s' es) {before after : List Event} {fd : ℤ}
    {target : Option Descriptor} (hes : es = before ++ .accept fd target :: after) :
    before = [] ∧ s.pc = .run ∧ target = s.table s.mFd := by
  cases h with
  | accept hpc hd =>
    cases before with
    | nil =>
      cases hes
      exact ⟨rfl, hpc, hd.symm⟩
    | cons e before => cases before <;> cases hes
  | acceptFails hpc =>
    cases before with
    | nil =>
      cases hes
      exact ⟨rfl, hpc, rfl⟩
    | cons e before =>
      cases before with
      | nil => cases hes
      | cons e' before => cases before <;> cases hes
  | _ =>
    cases before with
    | nil => cases hes
    | cons e before => cases before <;> cases hes

/-- **What is known of an engine after some events.** -/
def Lifetime (es : List Event) (s : ITcpBrokerServerEngine) : Prop :=
  ((∀ e ∈ es, e.isClose = false) ∧ Alive s) ∨ ((∃ e ∈ es, e.isClose = true) ∧ Closed s)

theorem Lifetime.step {es' : List Event} (h : Step syn s a s' es') (hok : NothingHanded s a)
    (hi : Lifetime es s) : Lifetime (es ++ es') s' := by
  rcases hi with ⟨hnone, halive⟩ | ⟨⟨e, he, hclose⟩, hclosed⟩
  · rcases halive.step h hok with ⟨hnone', halive'⟩ | ⟨⟨e, he, hclose⟩, hclosed⟩
    · exact .inl ⟨List.forall_mem_append.mpr ⟨hnone, hnone'⟩, halive'⟩
    · exact .inr ⟨⟨e, List.mem_append_right _ he, hclose⟩, hclosed⟩
  · exact .inr ⟨⟨e, List.mem_append_left _ he, hclose⟩, hclosed.step h hok⟩

/-- In `run()` the socket is an own listener just when nothing has been closed. -/
theorem Lifetime.ownListener_iff (hi : Lifetime es s) (hpc : s.pc = .run) :
    OwnListener (s.table s.mFd) ↔ ∀ e ∈ es, e.isClose = false := by
  rcases hi with ⟨hnone, halive⟩ | ⟨⟨e, he, hclose⟩, hclosed⟩
  · exact iff_of_true (halive.listener (halive.run hpc)) hnone
  · refine iff_of_false ?_ fun hnone => ?_
    · rintro ⟨d, hd, howner, -⟩
      exact hclosed.table d hd howner
    · exact absurd (hclose.symm.trans (hnone e he)) nofun

theorem lifetime_of_run (h : (machine syn).Run NothingHanded (init type ip port table) es s) :
    Lifetime es s :=
  h.invariant (I := Lifetime) (.inl ⟨List.forall_mem_nil _, .init⟩)
    fun _ hi hok hs => hi.step (Step.of_step hs) hok

/-- **An engine accepts on a socket of its own exactly until its first `close`**, in every
run in which no socket is handed to it: whatever calls are made, in whatever order, and
whatever the system calls answer. From that `close` on the number in `mFd` is not the
engine's. -/
theorem accepts_until_closed
    (h : (machine syn).Run NothingHanded (init type ip port table) es s) :
    Machine.Preceded AcceptsOwn es
      ∧ ((∃ e ∈ es, e.isClose = true) →
        s.mFd ≠ INVALID_FD ∧ ∀ d, s.table s.mFd = some d → d.owner ≠ .engine) := by
  constructor
  · refine h.invariant (I := fun es _ => Machine.Preceded AcceptsOwn es)
      (Machine.preceded_nil _) ?_
    intro es s a s' es' hrun hi _ hs
    refine Machine.preceded_append hi fun before e after heq => ?_
    cases e with
    | accept fd target =>
      obtain ⟨rfl, hpc, rfl⟩ := (Step.of_step hs).accept_first heq
      rw [List.append_nil]
      exact (lifetime_of_run hrun).ownListener_iff hpc
    | _ => trivial
  · rintro ⟨e, he, hclose⟩
    rcases lifetime_of_run h with ⟨hnone, -⟩ | ⟨-, hclosed⟩
    · exact absurd (hclose.symm.trans (hnone e he)) nofun
    · exact ⟨hclosed.mFd, hclosed.table⟩

end Invariants

/-- Started, stopped, and started again: the next `accept` is on a closed number, and the
one after it on what somebody else has opened there. -/
theorem accepts_until_closed_stopped :
    ∃ es s, (machine loopback).Run NothingHanded
        (init .PT_TCP_IPV4 "127.0.0.1" 9001 (fun _ => none)) es s
      ∧ .accept 3 none ∈ es ∧ .accept 3 (some ⟨.other, none, true⟩) ∈ es
      ∧ Machine.Preceded AcceptsOwn es := by
  obtain ⟨es, s, hrun, hclosed, hother⟩ : ∃ es s, (machine loopback).Run NothingHanded
      (init .PT_TCP_IPV4 "127.0.0.1" 9001 (fun _ => none)) es s
      ∧ .accept 3 none ∈ es ∧ .accept 3 (some ⟨.other, none, true⟩) ∈ es := by
    refine Machine.Run.exists_of_exec (startOn3 ++ [.accept (some 4), .accept none, .call .stop,
      .go, .call .start, .go, .accept none, .otherOpens 3 none true, .call .start, .go,
      .accept (some 5)]) ?_
    decide +kernel
  exact ⟨es, s, hrun, hclosed, hother, (accepts_until_closed hrun).1⟩

end ITcpBrokerServerEngine
