import NetUtils.EngineOwnership
import NetUtils.TcpServer

/-!
# What a `TcpServer` reports

`initSocket` is to answer `true` when `mFd` has become an open, bound,
listening socket, and `start` when in addition a `run` accepts there. Two
reports are not true. Where `inet_pton` cannot read the address, the
`initSocket` of the IPv6 server is left by `return -1`, and `-1` as a `bool`
is `true`. And `run` returns `false` without touching `mFd`: the `start` that
called it reports the failure, but the next one finds a number in `mFd` and
answers that the server has been started.

`reports_honest_iff` says that these are the only two: the reports of a run are
all true just when none of its steps is such a return or such a call. And a number
that `start` finds in `mFd`, with nobody accepting on it, is always that of a `run`
that has failed, with no `stop` since (`failedSince_of_run`).
-/

/-- `initSocket()` is filling in `server_addr`. -/
def TcpServerPc.fillsAddress : TcpServerPc → Bool
  | fillAddress _ => true
  | _ => false

namespace TcpServer

/-- The actions that a report which is not true can come with. -/
def Action.mayMisreport : Action → Bool
  | go => true
  | start => true
  | _ => false

section Definitions

variable (syn : AddressSyntax) (s : TcpServer) (a : Action)

/-- An open, bound, listening socket of the server. -/
def Listens (target : Option Descriptor) : Prop :=
  ∃ addr, target = some ⟨.engine, some addr, true⟩

/-- **What a report owes**: a `true` of `initSocket()` a listening socket in
`mFd`, and that of `start()` a `run()` that accepts there as well. -/
def Event.Honest : Event → Prop
  | .initSocket ok listener => ok = true → Listens listener
  | .start ok listener accepting => ok = true → Listens listener ∧ accepting = true
  | .stop _ => True

/-- `inet_pton` is about to fail. -/
def Misreads : Prop := s.pc.fillsAddress = true ∧ s.server_addr syn = none

/-- A socket is left in `mFd` that no `run()` accepts on. -/
def LeftBehind : Prop := s.mFd ≠ INVALID_FD ∧ s.accepting = false

/-- **The condition on a step**: it does not misread the address, and is no
`start()` with a socket left behind. -/
def Reportable : Prop := ¬ (a = .go ∧ s.Misreads syn) ∧ ¬ (a = .start ∧ s.LeftBehind)

instance : Decidable (s.Misreads syn) := inferInstanceAs (Decidable (_ ∧ _))

instance : Decidable s.LeftBehind := inferInstanceAs (Decidable (_ ∧ _))

instance : DecidableRel (Reportable syn) := fun s a =>
  inferInstanceAs (Decidable (¬ (a = .go ∧ s.Misreads syn) ∧ ¬ (a = .start ∧ s.LeftBehind)))

/-- `initSocket()` has opened `svr_sock`, and `mFd` is still `INVALID_FD`. -/
def Opened (svr_sock : ℤ) : Prop :=
  s.mFd = INVALID_FD ∧ 0 ≤ svr_sock ∧ ∃ d, s.table svr_sock = some d ∧ d.owner = .engine

/-- What the calling thread can rely on where it stands. -/
def ReliesOn : TcpServerPc → Prop
  | .idle => s.mFd = INVALID_FD ∨ Listens (s.table s.mFd)
  | .storeInvalid => True
  | .socket => s.mFd = INVALID_FD
  | .setReuseAddr svr_sock => s.Opened svr_sock
  | .setV6Only svr_sock => s.Opened svr_sock
  | .fillAddress svr_sock => s.Opened svr_sock
  | .bind svr_sock _ => s.Opened svr_sock
  | .listen svr_sock =>
    s.mFd = INVALID_FD ∧ 0 ≤ svr_sock
      ∧ ∃ addr listening, s.table svr_sock = some ⟨.engine, some addr, listening⟩

/-- **The invariant of the calls**: between them `mFd` is `INVALID_FD` or an
open, bound, listening socket, and `initSocket()` has its socket in hand. -/
def Sound : Prop := s.ReliesOn s.pc

end Definitions

section Invariants

variable {syn : AddressSyntax} {s s' : TcpServer} {a : Action} {es : List Event}
variable {type : TcpServerType} {ip : String} {port : BitVec 16}
variable {table : ℤ → Option Descriptor}

/-! ## The invariant -/

theorem Opened.mono (hfd : s'.mFd = s.mFd)
    (htable : ∀ fd d, s.table fd = some d → d.owner = .engine → s'.table fd = some d)
    {svr_sock : ℤ} (h : s.Opened svr_sock) : s'.Opened svr_sock := by
  obtain ⟨hinvalid, hpos, d, hd, howner⟩ := h
  exact ⟨hfd.trans hinvalid, hpos, d, htable _ _ hd howner, howner⟩

/-- What is relied on is `mFd` and the server's own descriptors. -/
theorem ReliesOn.mono (hfd : s'.mFd = s.mFd)
    (htable : ∀ fd d, s.table fd = some d → d.owner = .engine → s'.table fd = some d) :
    ∀ {pc : TcpServerPc}, s.ReliesOn pc → s'.ReliesOn pc
  | .idle, h => h.imp hfd.trans fun ⟨addr, hd⟩ => ⟨addr, hfd ▸ htable _ _ hd rfl⟩
  | .storeInvalid, _ => trivial
  | .socket, h => hfd.trans h
  | .setReuseAddr _, h => Opened.mono hfd htable h
  | .setV6Only _, h => Opened.mono hfd htable h
  | .fillAddress _, h => Opened.mono hfd htable h
  | .bind _ _, h => Opened.mono hfd htable h
  | .listen _, ⟨hinvalid, hpos, addr, listening, hd⟩ =>
    ⟨hfd.trans hinvalid, hpos, addr, listening, htable _ _ hd rfl⟩

theorem Sound.mono (hi : s.Sound) (hpc : s'.pc = s.pc) (hfd : s'.mFd = s.mFd)
    (htable : ∀ fd d, s.table fd = some d → d.owner = .engine → s'.table fd = some d) :
    s'.Sound := by
  unfold Sound
  rw [hpc]
  exact ReliesOn.mono hfd htable hi

/-- A number that is free, or someone else's, is not the server's. -/
theorem update_table {fd : ℤ} {target : Option Descriptor}
    (hother : ∀ d, s.table fd = some d → d.owner ≠ .engine) (f : ℤ) (d : Descriptor)
    (hd : s.table f = some d) (howner : d.owner = .engine) :
    Function.update s.table fd target f = some d := by
  rw [Function.update_of_ne ?_]
  · exact hd
  · rintro rfl
    exact hother d hd howner

theorem Sound.mFd_of_failsAt (hi : s.Sound) (hpc : FailsAt s.pc) : s.mFd = INVALID_FD := by
  unfold Sound at hi
  cases h : s.pc with rw [h] at hpc hi
  | idle => exact hpc.elim
  | storeInvalid => exact hpc.elim
  | fillAddress svr_sock => exact hpc.elim
  | socket => exact hi
  | setReuseAddr svr_sock => exact hi.1
  | setV6Only svr_sock => exact hi.1
  | bind svr_sock addr => exact hi.1
  | listen svr_sock => exact hi.1

theorem Sound.step (h : Step syn s a s' es) (hi : s.Sound) : s'.Sound := by
  have hat {pc : TcpServerPc} (hpc : s.pc = pc) : s.ReliesOn pc := hpc ▸ hi
  cases h with
  | startAgain => exact hi
  | startInits _ hfd => exact hfd
  | stopCloses => exact trivial
  | stopStores => exact .inl rfl
  | socket hpc hfd =>
    exact ⟨hat hpc, hfd, ⟨.engine, none, false⟩, Function.update_self .., rfl⟩
  | setReuseAddr hpc =>
    have hopened : s.Opened _ := hat hpc
    unfold Sound
    split
    · exact hopened
    · exact hopened
  | setV6Only hpc => exact hat hpc
  | fill hpc => exact hat hpc
  | fillFails hpc => exact .inl (hat hpc).1
  | @bind svr_sock addr d hpc hd =>
    obtain ⟨hinvalid, hpos, _, hd', howner⟩ := hat hpc
    obtain rfl := Option.some.inj (hd.symm.trans hd')
    refine ⟨hinvalid, hpos, addr, d.listening, (Function.update_self ..).trans ?_⟩
    rw [howner]
  | listen hpc hd hs' =>
    obtain ⟨-, -, addr, listening, hd'⟩ := hat hpc
    obtain rfl := Option.some.inj (hd.symm.trans hd')
    subst hs'
    exact .inr ⟨addr, Function.update_self ..⟩
  | fails hpc =>
    have hinvalid := hi.mFd_of_failsAt hpc
    exact .inl hinvalid
  | runAccepts _ _ hfree =>
    exact hi.mono rfl rfl (update_table fun d hd => absurd (hfree.symm.trans hd) nofun)
  | otherOpens _ hfree =>
    exact hi.mono rfl rfl (update_table fun d hd => absurd (hfree.symm.trans hd) nofun)
  | otherCloses hd howner =>
    refine hi.mono rfl rfl (update_table fun d' hd' => ?_)
    obtain rfl := Option.some.inj (hd.symm.trans hd')
    rw [howner]
    exact nofun
  | _ => exact hi.mono rfl rfl (fun _ _ hd _ => hd)

theorem Sound.init : (init type ip port table).Sound := .inl rfl

theorem sound_of_run {ok : TcpServer → Action → Prop}
    (h : (machine syn).Run ok (init type ip port table) es s) : s.Sound :=
  h.stateInvariant (I := Sound) .init (fun hi _ hs => hi.step (Step.of_step hs))

/-! ## Reports -/

theorem listener_of_ne (hfd : s.mFd ≠ INVALID_FD) : s.listener = s.table s.mFd := if_neg hfd

theorem not_listens_of_eq (hfd : s.mFd = INVALID_FD) : ¬ Listens s.listener := by
  rw [listener, if_pos hfd]
  exact fun ⟨_, hnone⟩ => absurd hnone nofun

/-- A `start()` that reports a failure owes nothing. -/
theorem honest_of_failure {listener : Option Descriptor} {accepting : Bool}
    (hes : es = [.start false listener accepting]) : ∀ e ∈ es, e.Honest := by
  subst hes
  intro e he
  obtain rfl := List.mem_singleton.mp he
  exact nofun

theorem honest_nil : ∀ e ∈ ([] : List Event), e.Honest := nofun

/-- Only two actions can be at fault. -/
theorem reportable_of_other (ha : a.mayMisreport = false) : Reportable syn s a := by
  refine ⟨fun h => ?_, fun h => ?_⟩
  · rw [h.1] at ha
    cases ha
  · rw [h.1] at ha
    cases ha

/-- **The reports of a step are true just when it is reportable.** -/
theorem honest_iff_of_step (h : Step syn s a s' es) (hi : s.Sound) :
    (∀ e ∈ es, e.Honest) ↔ Reportable syn s a := by
  have hat {pc : TcpServerPc} (hpc : s.pc = pc) : s.ReliesOn pc := hpc ▸ hi
  have hgo {pc : TcpServerPc} (hpc : s.pc = pc) (hno : pc.fillsAddress = false) :
      Reportable syn s .go :=
    ⟨fun h => absurd ((hpc ▸ h.2.1).symm.trans hno) nofun, fun h => absurd h.1 nofun⟩
  cases h with
  | startAgain hpc hfd =>
    have hlistens : Listens s.listener := by
      rw [listener_of_ne hfd]
      exact (hat hpc).resolve_left hfd
    constructor
    · intro hhonest
      obtain ⟨-, haccepting⟩ := hhonest _ List.mem_cons_self rfl
      exact ⟨nofun, fun h => absurd (haccepting.symm.trans h.2.2) nofun⟩
    · rintro ⟨-, hleft⟩ e he
      obtain rfl := List.mem_singleton.mp he
      refine fun _ => ⟨hlistens, ?_⟩
      cases haccepting : s.accepting with
      | true => rfl
      | false => exact absurd ⟨rfl, hfd, haccepting⟩ hleft
  | startInits hpc hfd =>
    exact iff_of_true honest_nil ⟨nofun, fun h => h.2.1 hfd⟩
  | fill hpc haddr =>
    refine iff_of_true honest_nil ⟨fun h => ?_, nofun⟩
    cases haddr.symm.trans h.2.2
  | fillFails hpc haddr =>
    refine iff_of_false (fun hhonest => ?_) fun hok => hok.1 ⟨rfl, by rw [hpc]; rfl, haddr⟩
    exact not_listens_of_eq (hat hpc).1 (hhonest _ List.mem_cons_self rfl)
  | listen hpc hd hs' =>
    obtain ⟨-, hpos, addr, listening, hd'⟩ := hat hpc
    obtain rfl := Option.some.inj (hd.symm.trans hd')
    refine iff_of_true (fun e he => ?_) (reportable_of_other rfl)
    obtain rfl := List.mem_singleton.mp he
    subst hs'
    intro _
    rw [listener_of_ne]
    · exact ⟨addr, Function.update_self ..⟩
    · rintro rfl
      exact absurd hpos (by decide)
  | stopStores hpc =>
    refine iff_of_true (fun e he => ?_) (hgo hpc rfl)
    obtain rfl := List.mem_singleton.mp he
    trivial
  | fails _ ha =>
    refine iff_of_true (fun e he => ?_) ?_
    · rcases List.mem_cons.mp he with rfl | he
      · exact nofun
      · exact honest_of_failure rfl e he
    · rcases ha with rfl | rfl | rfl | rfl <;> exact reportable_of_other rfl
  | runRefused => exact iff_of_true (honest_of_failure rfl) (reportable_of_other rfl)
  | runAcceptFails => exact iff_of_true (honest_of_failure rfl) (reportable_of_other rfl)
  | runSetsockoptFails => exact iff_of_true (honest_of_failure rfl) (reportable_of_other rfl)
  | _ => exact iff_of_true honest_nil (reportable_of_other rfl)

/-! ## How a socket is left behind -/

/-- A `run()` has failed on a listening socket and left nobody accepting there, and
`stop()` has not been called since. -/
def FailedSince (es : List Event) : Prop :=
  ∃ es₁ listener es₂, es = es₁ ++ .start false listener false :: es₂ ∧ Listens listener
    ∧ ∀ ok, .stop ok ∉ es₂

theorem FailedSince.append (h : FailedSince es) {es' : List Event}
    (hstop : ∀ ok, .stop ok ∉ es') : FailedSince (es ++ es') := by
  obtain ⟨es₁, listener, es₂, rfl, hlistens, hsince⟩ := h
  refine ⟨es₁, listener, es₂ ++ es', by rw [List.append_assoc, List.cons_append], hlistens,
    fun ok hmem => ?_⟩
  exact (List.mem_append.mp hmem).elim (hsince ok) (hstop ok)

/-- Outside `stop()` a number in `mFd` is that of a listening socket. -/
theorem Sound.listens (hi : s.Sound) (hpc : s.pc ≠ .storeInvalid) (hfd : s.mFd ≠ INVALID_FD) :
    Listens (s.table s.mFd) := by
  unfold Sound at hi
  cases h : s.pc with rw [h] at hi
  | idle => exact hi.resolve_left hfd
  | storeInvalid => exact absurd h hpc
  | socket => exact absurd hi hfd
  | _ => exact absurd hi.1 hfd

/-- A thread in `run()` that comes to a point where it accepts on `mFd`. -/
theorem accepting_setRun {i : ℕ} {pc pc' : RunPc} (hpc : s.runs[i]? = some pc)
    (haccepts : pc'.acceptsOn s.mFd = true) : (s.setRun i pc').accepting = true :=
  List.any_eq_true.mpr ⟨pc', List.mem_set (List.getElem?_eq_some_iff.mp hpc).1 _, haccepts⟩

/-- A thread in `run()` that accepts where it did. -/
theorem accepting_of_setRun {i : ℕ} {pc pc' : RunPc} (hpc : s.runs[i]? = some pc)
    (hsame : pc'.acceptsOn s.mFd = pc.acceptsOn s.mFd) (haccepting : s.accepting = true) :
    (s.setRun i pc').accepting = true := by
  obtain ⟨target, hmem, haccepts⟩ := List.any_eq_true.mp haccepting
  obtain ⟨j, hj⟩ := List.mem_iff_getElem?.mp hmem
  by_cases hij : i = j
  · subst hij
    obtain rfl := Option.some.inj (hpc.symm.trans hj)
    exact accepting_setRun hpc (hsame.trans haccepts)
  · exact List.any_eq_true.mpr ⟨target,
      List.mem_iff_getElem?.mpr ⟨j, (List.getElem?_set_ne hij).trans hj⟩, haccepts⟩

/-- Who accepts on a number is not touched where another one is closed. -/
theorem acceptsOn_closed {fd fd' : ℤ} (hne : fd ≠ fd') (pc : RunPc) :
    (pc.closed fd').acceptsOn fd = pc.acceptsOn fd := by
  cases pc with
  | accept target =>
    by_cases htarget : target = some fd'
    · simp [RunPc.closed, RunPc.acceptsOn, htarget, hne.symm]
    · rw [RunPc.closed, if_neg htarget]
  | _ => rfl

/-- **A socket is left behind by a `run()` that has failed**, and by nothing else. -/
theorem failedSince_of_run {ok : TcpServer → Action → Prop}
    (h : (machine syn).Run ok (init type ip port table) es s) (hpc : s.pc ≠ .storeInvalid)
    (hleft : s.LeftBehind) : FailedSince es := by
  revert hpc hleft
  refine h.invariant (I := fun es s => s.pc ≠ .storeInvalid → s.LeftBehind → FailedSince es)
    (fun _ hleft => absurd rfl hleft.1) ?_
  intro es s a s' es' hrun hi _ hs hpc' hleft
  have hsound := sound_of_run hrun
  have hat {pc : TcpServerPc} (hpc : s.pc = pc) : s.ReliesOn pc := hpc ▸ hsound
  have hno {s : TcpServer} {P : Prop} (hleft : s.LeftBehind) (haccepting : s.accepting = true) :
      P := absurd (haccepting.symm.trans hleft.2) nofun
  have hreturns {listener : Option Descriptor} {accepting : Bool} (hlistens : Listens listener)
      (hnone : accepting = false) : FailedSince (es ++ [.start false listener accepting]) :=
    ⟨es, listener, [], hnone ▸ rfl, hlistens, fun _ => List.not_mem_nil⟩
  have hlistener (hpc : s.pc ≠ .storeInvalid) (hfd : s.mFd ≠ INVALID_FD) : Listens s.listener := by
    rw [listener_of_ne hfd]
    exact hsound.listens hpc hfd
  cases Step.of_step hs with
  | startAgain => exact (hi hpc' hleft).append (by simp)
  | startInits _ hfd => exact absurd hfd hleft.1
  | stopCloses => exact absurd rfl hpc'
  | stopStores => exact absurd rfl hleft.1
  | socket hpc => exact absurd (hat hpc) hleft.1
  | setReuseAddr hpc => exact absurd (hat hpc).1 hleft.1
  | setV6Only hpc => exact absurd (hat hpc).1 hleft.1
  | fill hpc => exact absurd (hat hpc).1 hleft.1
  | fillFails hpc => exact absurd (hat hpc).1 hleft.1
  | bind hpc => exact absurd (hat hpc).1 hleft.1
  | listen _ _ hs' =>
    subst hs'
    exact hno hleft
      (List.any_eq_true.mpr ⟨.loadFd, List.mem_append_right _ List.mem_cons_self, rfl⟩)
  | fails hpc => exact absurd (hsound.mFd_of_failsAt hpc) hleft.1
  | runLoadFd hrun => exact hno hleft (accepting_setRun hrun (decide_eq_true rfl))
  | runEnters hrun =>
    rw [List.append_nil]
    refine hi hpc' ⟨hleft.1, Bool.eq_false_iff.mpr fun haccepting => ?_⟩
    refine hno hleft (accepting_of_setRun hrun ?_ haccepting)
    simp [RunPc.acceptsOn]
  | runAccepts hrun =>
    refine hno hleft (accepting_setRun hrun ?_)
    split <;> rfl
  | runSetRcvTimeo hrun => exact hno hleft (accepting_setRun hrun rfl)
  | runSetSndTimeo hrun => exact hno hleft (accepting_setRun hrun rfl)
  | runRefused => exact hreturns (hlistener hpc' hleft.1) hleft.2
  | runAcceptFails => exact hreturns (hlistener hpc' hleft.1) hleft.2
  | runSetsockoptFails => exact hreturns (hlistener hpc' hleft.1) hleft.2
  | otherOpens => exact (hi hpc' hleft).append (by simp)
  | @otherCloses fd d hd howner =>
    -- the number is somebody else's, and `mFd` the server's
    have hne : s.mFd ≠ fd := by
      rintro rfl
      obtain ⟨addr, hd'⟩ := hsound.listens hpc' hleft.1
      cases Option.some.inj (hd.symm.trans hd')
      cases howner
    refine (hi hpc' ⟨hleft.1, ?_⟩).append (by simp)
    rw [← hleft.2, accepting, accepting, closed_runs, List.any_map]
    exact congrArg (List.any s.runs) (funext fun pc => (acceptsOn_closed hne pc).symm)

/-- **When the reports of a server are all true**: just when no step of the
run misreads the address, and `start()` is not called with a socket left
behind. -/
theorem reports_honest_iff
    (h : (machine syn).Run Machine.always (init type ip port table) es s) :
    (∀ e ∈ es, e.Honest)
      ↔ (machine syn).Run (Reportable syn) (init type ip port table) es s := by
  constructor
  · intro hhonest
    induction h with
    | start => exact .start
    | snoc hrun _ hs ih =>
      rw [List.forall_mem_append] at hhonest
      exact (ih hhonest.1).snoc
        ((honest_iff_of_step (Step.of_step hs) (sound_of_run hrun)).mp hhonest.2) hs
  · intro hguarded
    refine hguarded.invariant (I := fun es _ => ∀ e ∈ es, e.Honest) nofun ?_
    intro es s a s' es' hrun hhonest hok hs
    rw [List.forall_mem_append]
    exact ⟨hhonest, (honest_iff_of_step (Step.of_step hs) (sound_of_run hrun)).mpr hok⟩

end Invariants

/-! ## A server on descriptor 3 -/

open ITcpBrokerServerEngine (loopback)

/-- `start()` on descriptor 3, up to its `run()`, with as many `setsockopt`
calls as the class makes. -/
def startOn3 (type : TcpServerType) : List Action :=
  [.start, .socket (some 3)]
    ++ (match type with
      | .IPV4ThreadsTcpServer => [.setsockopt true]
      | .IPV6ThreadsTcpServer => [.setsockopt true, .setsockopt true])
    ++ [.go, .bind true, .listen true]

/-- Started, accepting, and found so by the next `start()`; then its `accept`
fails, and it is stopped and started again. -/
theorem reports_honest_startedTwice :
    ∃ es s, (machine loopback).Run (Reportable loopback)
        (init .IPV6ThreadsTcpServer "::1" 9001 (fun _ => none)) es s
      ∧ .start true (some ⟨.engine, some ⟨.v6 1, 9001⟩, true⟩) true ∈ es
      ∧ s.mFd = 3 ∧ ∀ e ∈ es, e.Honest := by
  obtain ⟨es, s, hrun, hmem, hfd⟩ : ∃ es s, (machine loopback).Run (Reportable loopback)
        (init .IPV6ThreadsTcpServer "::1" 9001 (fun _ => none)) es s
      ∧ .start true (some ⟨.engine, some ⟨.v6 1, 9001⟩, true⟩) true ∈ es
      ∧ s.mFd = 3 := by
    refine Machine.Run.exists_of_exec (startOn3 .IPV6ThreadsTcpServer
      ++ [.runGo 0, .runGo 0, .start, .runAccept 0 none, .stop, .go]
      ++ startOn3 .IPV6ThreadsTcpServer) ?_
    decide +kernel
  exact ⟨es, s, hrun, hmem, hfd, (reports_honest_iff hrun.free).mpr hrun⟩

/-- **Reports that are not true.** An IPv6 server answers `true` for a socket
it has not bound, and has nothing in `mFd`; and a server of either class whose
`accept` has failed answers that it has been started, with no thread in
`run()`. -/
theorem reports_not_true :
    (∃ es s, (machine loopback).Run Machine.always
        (init .IPV6ThreadsTcpServer "localhost" 9001 (fun _ => none)) es s
      ∧ .initSocket true none ∈ es ∧ s.mFd = INVALID_FD)
    ∧ (∃ es s, (machine loopback).Run Machine.always
        (init .IPV4ThreadsTcpServer "127.0.0.1" 9001 (fun _ => none)) es s
      ∧ .start true (some ⟨.engine, some ⟨.v4 0x7f000001, 9001⟩, true⟩) false ∈ es
      ∧ s.runs = [.returned])
    ∧ ∃ es s, (machine loopback).Run Machine.always
        (init .IPV6ThreadsTcpServer "::1" 9001 (fun _ => none)) es s
      ∧ .start true (some ⟨.engine, some ⟨.v6 1, 9001⟩, true⟩) false ∈ es
      ∧ s.runs = [.returned] := by
  refine ⟨?_, ?_, ?_⟩
  · refine Machine.Run.exists_of_exec
      [.start, .socket (some 3), .setsockopt true, .setsockopt true, .go] ?_
    decide +kernel
  · refine Machine.Run.exists_of_exec
      (startOn3 .IPV4ThreadsTcpServer ++ [.runGo 0, .runGo 0, .runAccept 0 none, .start]) ?_
    decide +kernel
  · refine Machine.Run.exists_of_exec
      (startOn3 .IPV6ThreadsTcpServer ++ [.runGo 0, .runGo 0, .runAccept 0 none, .start]) ?_
    decide +kernel

end TcpServer
