import NetUtils.EngineOwnership

/-!
# Handing a listening socket to the engine

`start()` takes a socket that is in `mFd` for its own, and initialises one only
where there is none; `setListeningSocket()` is the way to put one there. But
it stores its argument only where `mFd != INVALID_FD`: handed to an engine
that has none, the socket is ignored, and `start()` opens another; handed to
one that is listening, it takes the place of the engine's own, whose number is
then nowhere. Between the two is the engine that has been stopped. Its `mFd`
is the number of a socket that is closed, which passes the test, and there the
hand-over does what it is for.

`handsOver_iff` says that this is the one case, apart from handing the engine
the socket it has.
-/

namespace ITcpBrokerServerEngine

/-- The condition on the history of an engine: it is started and stopped. -/
def StartsAndStops (_ : ITcpBrokerServerEngine) : Action → Prop
  | .call c => c = .start ∨ c = .stop
  | _ => True

instance : DecidableRel StartsAndStops
  | _, .call c => inferInstanceAs (Decidable (c = .start ∨ c = .stop))
  | _, .go => isTrue trivial
  | _, .socket _ => isTrue trivial
  | _, .setsockopt _ => isTrue trivial
  | _, .bind _ => isTrue trivial
  | _, .listen _ => isTrue trivial
  | _, .accept _ => isTrue trivial
  | _, .otherOpens _ _ _ => isTrue trivial
  | _, .otherCloses _ => isTrue trivial

/-- The condition on what follows a call: no other is made. -/
def NoCall (_ : ITcpBrokerServerEngine) : Action → Prop
  | .call _ => False
  | _ => True

section Definitions

variable (syn : AddressSyntax) (s : ITcpBrokerServerEngine) (fd : ℤ)

/-- `getListenSocket()`. -/
def getListenSocket : ℤ := s.mFd

/-- The number stands for an open listening socket. -/
def IsListening : Prop := ∃ d, s.table fd = some d ∧ d.listening = true

/-- The engine has an open listening socket of its own. -/
def HasOwnSocket : Prop :=
  ∃ d, s.table s.mFd = some d ∧ d.owner = .engine ∧ d.listening = true

/-- **A `start()` runs on `fd`**: it comes to `run()`, which calls `accept` on
`fd`, and whatever happens meanwhile it does not come to `socket`. -/
structure StartsOn : Prop where
  comes : ∃ t₁ t₂, s.step syn (.call .start) = some (t₁, []) ∧ t₁.step syn .go = some (t₂, [])
    ∧ t₂.pc = .run ∧ t₂.mFd = fd
  only : ∀ t₁, s.step syn (.call .start) = some (t₁, []) →
    ∀ es t, (machine syn).Run NoCall t₁ es t →
      t.mFd = fd ∧ (t.pc = .start ∨ t.pc = .run ∨ t.pc = .idle)

/-- **The socket `fd` is handed over** by `setListeningSocket(fd)`. -/
structure HandsOver : Prop where
  /-- An engine without a socket of its own uses it. -/
  used : ¬ s.HasOwnSocket → ∀ t, s.step syn (.call (.setListeningSocket fd)) = some (t, []) →
    t.getListenSocket = fd ∧ StartsOn syn t fd
  /-- One that has one keeps it, or has closed it. -/
  kept : s.HasOwnSocket → ∀ t, s.step syn (.call (.setListeningSocket fd)) = some (t, []) →
    t.getListenSocket = s.mFd ∨ t.table s.mFd = none

end Definitions

variable {syn : AddressSyntax} {s s' : ITcpBrokerServerEngine} {a : Action} {es : List Event}
variable {fd : ℤ}

/-! ## No socket is behind `INVALID_FD` -/

theorem invalid_setTable {target : Option Descriptor} (hi : s.table INVALID_FD = none)
    (hfd : fd ≠ INVALID_FD) : (s.setTable fd target).table INVALID_FD = none := by
  rw [setTable_table, Function.update_of_ne hfd.symm, hi]

/-- The kernel gives out no negative numbers. -/
theorem Step.invalid (h : Step syn s a s' es) (hi : s.table INVALID_FD = none) :
    s'.table INVALID_FD = none := by
  have hpos {n : ℤ} (hn : 0 ≤ n) : n ≠ INVALID_FD := by
    rw [INVALID_FD]
    omega
  have hopen {n : ℤ} {d : Descriptor} (hn : s.table n = some d) : n ≠ INVALID_FD := by
    rintro rfl
    cases hi.symm.trans hn
  cases h with
  | call c hpc =>
    cases c with
    | setListeningSocket n =>
      rw [begin]
      split <;> exact hi
    | _ => exact hi
  | stopCloses _ hfd => exact invalid_setTable hi hfd
  | socket _ hfd => exact invalid_setTable hi (hpos hfd)
  | bind _ hd => exact invalid_setTable hi (hopen hd)
  | listen _ hd => exact invalid_setTable hi (hopen hd)
  | accept _ _ _ hfd => exact invalid_setTable hi (hpos hfd)
  | otherOpens hfd => exact invalid_setTable hi (hpos hfd)
  | otherCloses hd => exact invalid_setTable hi (hopen hd)
  | _ => exact hi

/-! ## A start with a socket in `mFd` -/

/-- A step that makes no call leaves the engine in its `run()`, or on the way
there. -/
theorem Step.startsOn (h : Step syn s a s' es) (hok : NoCall s a) (hfd : s.mFd ≠ INVALID_FD)
    (hpc : s.pc = .start ∨ s.pc = .run ∨ s.pc = .idle) :
    s'.mFd = s.mFd ∧ (s'.pc = .start ∨ s'.pc = .run ∨ s'.pc = .idle) := by
  have hat {pc : EnginePc} (hno : pc ≠ .start ∧ pc ≠ .run ∧ pc ≠ .idle) : s.pc ≠ pc := by
    rintro rfl
    rcases hpc with hpc | hpc | hpc
    · exact hno.1 hpc
    · exact hno.2.1 hpc
    · exact hno.2.2 hpc
  cases h with
  | call => exact hok.elim
  | startInits _ hinvalid => exact absurd hinvalid hfd
  | startUnknown _ hinvalid => exact absurd hinvalid hfd
  | startRuns => exact ⟨rfl, .inr (.inl rfl)⟩
  | fails hfails =>
    rcases hpc with hpc | hpc | hpc <;> exact (by rw [hpc] at hfails; exact hfails : False).elim
  | accept => exact ⟨rfl, hpc⟩
  | acceptFails => exact ⟨rfl, .inr (.inr rfl)⟩
  | otherOpens => exact ⟨rfl, hpc⟩
  | otherCloses => exact ⟨rfl, hpc⟩
  | stopCloses hpc => exact absurd hpc (hat ⟨nofun, nofun, nofun⟩)
  | stopSkips hpc => exact absurd hpc (hat ⟨nofun, nofun, nofun⟩)
  | fill hpc => exact absurd hpc (hat ⟨nofun, nofun, nofun⟩)
  | fillFails hpc => exact absurd hpc (hat ⟨nofun, nofun, nofun⟩)
  | socket hpc => exact absurd hpc (hat ⟨nofun, nofun, nofun⟩)
  | setReuseAddr hpc => exact absurd hpc (hat ⟨nofun, nofun, nofun⟩)
  | setV6Only hpc => exact absurd hpc (hat ⟨nofun, nofun, nofun⟩)
  | bind hpc => exact absurd hpc (hat ⟨nofun, nofun, nofun⟩)
  | listen hpc => exact absurd hpc (hat ⟨nofun, nofun, nofun⟩)

/-- **A start with a number in `mFd` runs on it.** -/
theorem startsOn_mFd (hpc : s.pc = .idle) (hfd : s.mFd ≠ INVALID_FD) :
    StartsOn syn s s.mFd := by
  have hcall : s.step syn (.call .start) = some ({ s with pc := .start }, []) := by
    simp only [step, hpc, if_true, begin]
  refine ⟨⟨_, { s with pc := .run }, hcall, ?_, rfl, rfl⟩, ?_⟩
  · simp only [step, stepGo, if_neg hfd]
  · intro t₁ ht₁ es t hrun
    obtain ⟨rfl, -⟩ := Prod.mk.inj (Option.some.inj (hcall.symm.trans ht₁))
    refine hrun.stateInvariant
      (I := fun t => t.mFd = s.mFd ∧ (t.pc = .start ∨ t.pc = .run ∨ t.pc = .idle))
      ⟨rfl, .inl rfl⟩ ?_
    intro t a t' es' hi hok hs
    obtain ⟨hsame, hpc⟩ := (Step.of_step hs).startsOn hok (by rw [hi.1]; exact hfd) hi.2
    exact ⟨hsame.trans hi.1, hpc⟩

/-! ## When the hand-over works -/

/-- `setListeningSocket` as a step. -/
theorem step_setListeningSocket (hpc : s.pc = .idle) :
    s.step syn (.call (.setListeningSocket fd))
      = some (if s.mFd ≠ INVALID_FD then { s with mFd := fd } else s, []) := by
  simp only [step, hpc, if_true, begin]

/-- **Where `mFd` is `INVALID_FD` the socket is ignored.** -/
theorem not_handsOver_of_invalid (hpc : s.pc = .idle) (hmFd : s.mFd = INVALID_FD)
    (hnone : s.table INVALID_FD = none) (hfd : fd ≠ INVALID_FD) : ¬ HandsOver syn s fd := by
  intro h
  have hstep : s.step syn (.call (.setListeningSocket fd)) = some (s, []) := by
    rw [step_setListeningSocket hpc, if_neg (not_ne_iff.mpr hmFd)]
  have hnot : ¬ s.HasOwnSocket := by
    rintro ⟨d, hd, -⟩
    rw [hmFd] at hd
    cases hnone.symm.trans hd
  exact hfd ((h.used hnot s hstep).1.symm.trans hmFd)

/-- **A socket of the engine's own is dropped**, with no close. -/
theorem not_handsOver_of_own (hpc : s.pc = .idle) (hmFd : s.mFd ≠ INVALID_FD)
    (hown : s.HasOwnSocket) (hfd : fd ≠ s.mFd) : ¬ HandsOver syn s fd := by
  intro h
  have hstep : s.step syn (.call (.setListeningSocket fd)) = some ({ s with mFd := fd }, []) := by
    rw [step_setListeningSocket hpc, if_pos hmFd]
  rcases h.kept hown _ hstep with hsame | hclosed
  · exact hfd hsame
  · obtain ⟨d, hd, -⟩ := hown
    cases hclosed.symm.trans hd

/-- Otherwise the engine uses it. -/
theorem handsOver_of_stopped (hpc : s.pc = .idle) (hmFd : s.mFd ≠ INVALID_FD)
    (hown : s.HasOwnSocket → fd = s.mFd) (hfd : fd ≠ INVALID_FD) : HandsOver syn s fd := by
  have hstep : s.step syn (.call (.setListeningSocket fd)) = some ({ s with mFd := fd }, []) := by
    rw [step_setListeningSocket hpc, if_pos hmFd]
  constructor
  · intro _ t ht
    obtain ⟨rfl, -⟩ := Prod.mk.inj (Option.some.inj (hstep.symm.trans ht))
    exact ⟨rfl, startsOn_mFd hpc hfd⟩
  · intro h t ht
    obtain ⟨rfl, -⟩ := Prod.mk.inj (Option.some.inj (hstep.symm.trans ht))
    exact .inl (hown h)

variable {type : PROTOCOL_TYPE} {ip : String} {port : ℤ} {table : ℤ → Option Descriptor}

/-- **When a listening socket is handed over**: just when there is a number in
`mFd`, and no open socket of the engine's behind it but the one handed over.
That is so after every history of starts and stops. -/
theorem handsOver_iff (htable : table INVALID_FD = none)
    (hrun : (machine syn).Run StartsAndStops (init type ip port table) es s)
    (hpc : s.pc = .idle) (hfd : s.IsListening fd) :
    HandsOver syn s fd ↔ s.mFd ≠ INVALID_FD ∧ (s.HasOwnSocket → fd = s.mFd) := by
  have hnone : s.table INVALID_FD = none :=
    hrun.stateInvariant (I := fun s => s.table INVALID_FD = none) htable
      (fun hi _ hs => (Step.of_step hs).invalid hi)
  have hvalid : fd ≠ INVALID_FD := by
    rintro rfl
    obtain ⟨d, hd, -⟩ := hfd
    cases hnone.symm.trans hd
  constructor
  · intro h
    have hmFd : s.mFd ≠ INVALID_FD := fun hmFd =>
      not_handsOver_of_invalid hpc hmFd hnone hvalid h
    refine ⟨hmFd, fun hown => ?_⟩
    by_contra hne
    exact not_handsOver_of_own hpc hmFd hown hne h
  · rintro ⟨hmFd, hown⟩
    exact handsOver_of_stopped hpc hmFd hown hvalid

/-- Started on descriptor 3, stopped, and handed a socket that somebody else
listens on. -/
theorem handsOver_iff_stopped :
    ∃ es s, (machine loopback).Run StartsAndStops
        (init .PT_TCP_IPV4 "127.0.0.1" 9001 (fun _ => none)) es s
      ∧ s.mFd = 3 ∧ s.table 3 = none
      ∧ (HandsOver loopback s 5 ↔ s.mFd ≠ INVALID_FD ∧ (s.HasOwnSocket → 5 = s.mFd)) := by
  obtain ⟨es, s, hrun, hpc, hmFd, hclosed, hfd⟩ : ∃ es s, (machine loopback).Run StartsAndStops
      (init .PT_TCP_IPV4 "127.0.0.1" 9001 (fun _ => none)) es s
      ∧ s.pc = .idle ∧ s.mFd = 3 ∧ s.table 3 = none
      ∧ s.table 5 = some ⟨.other, none, true⟩ := by
    refine Machine.Run.exists_of_exec
      (startOn3 ++ [.accept none, .call .stop, .go, .otherOpens 5 none true]) ?_
    decide +kernel
  exact ⟨es, s, hrun, hmFd, hclosed, handsOver_iff rfl hrun hpc ⟨_, hfd, rfl⟩⟩

/-- **A socket handed to a new engine is ignored, and one handed to a
listening engine takes the place of its own.** -/
theorem socket_not_handed_over :
    (∃ es s, (machine loopback).Run StartsAndStops
        (init .PT_TCP_IPV4 "127.0.0.1" 9001 (fun _ => none)) es s
      ∧ s.pc = .idle ∧ s.IsListening 5 ∧ s.mFd = INVALID_FD ∧ ¬ HandsOver loopback s 5)
    ∧ ∃ es s, (machine loopback).Run StartsAndStops
        (init .PT_TCP_IPV4 "127.0.0.1" 9001 (fun _ => none)) es s
      ∧ s.pc = .idle ∧ s.IsListening 5 ∧ s.HasOwnSocket ∧ ¬ HandsOver loopback s 5 := by
  constructor
  · obtain ⟨es, s, hrun, hpc, hmFd, hnone, hfd⟩ : ∃ es s, (machine loopback).Run StartsAndStops
        (init .PT_TCP_IPV4 "127.0.0.1" 9001 (fun _ => none)) es s
        ∧ s.pc = .idle ∧ s.mFd = INVALID_FD ∧ s.table INVALID_FD = none
        ∧ s.table 5 = some ⟨.other, none, true⟩ :=
      Machine.Run.exists_of_exec [.otherOpens 5 none true] (by decide +kernel)
    exact ⟨es, s, hrun, hpc, ⟨_, hfd, rfl⟩, hmFd,
      not_handsOver_of_invalid hpc hmFd hnone (by decide)⟩
  · obtain ⟨es, s, hrun, hpc, hmFd, hown, hfd⟩ : ∃ es s, (machine loopback).Run StartsAndStops
        (init .PT_TCP_IPV4 "127.0.0.1" 9001 (fun _ => none)) es s
        ∧ s.pc = .idle ∧ s.mFd = 3
        ∧ s.table 3 = some ⟨.engine, some ⟨.v4 0x7f000001, 9001⟩, true⟩
        ∧ s.table 5 = some ⟨.other, none, true⟩ :=
      Machine.Run.exists_of_exec (startOn3 ++ [.accept none, .otherOpens 5 none true])
        (by decide +kernel)
    have hhas : s.HasOwnSocket := ⟨_, by rw [hmFd]; exact hown, rfl, rfl⟩
    exact ⟨es, s, hrun, hpc, ⟨_, hfd, rfl⟩, hhas,
      not_handsOver_of_own hpc (by rw [hmFd]; decide) hhas (by rw [hmFd]; decide)⟩

end ITcpBrokerServerEngine
