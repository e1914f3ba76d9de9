import NetUtils.TcpServerReports

/-!
# The sockets a `TcpServer` leaves open

`initSocket` has its socket in a local variable until it stores it in `mFd`. All its
early returns but the first are behind `socket()`, and none of them closes what it
has answered. Such a socket is nobody's: the next `start` opens another, and `stop`
closes `mFd` only.

`sockets_left_iff` says that there is no other way to lose one, and that one lost is
open for the rest of the process: a server holds every socket it has open just when
no `initSocket` has failed behind `socket()`.
-/

/-- The socket `initSocket()` has in hand. -/
def TcpServerPc.svr_sock : TcpServerPc → Option ℤ
  | setReuseAddr svr_sock => some svr_sock
  | setV6Only svr_sock => some svr_sock
  | fillAddress svr_sock => some svr_sock
  | bind svr_sock _ => some svr_sock
  | listen svr_sock => some svr_sock
  | _ => none

namespace TcpServer

/-- The actions by which a call that `initSocket()` makes fails. -/
def Action.isFailure : Action → Bool
  | socket none => true
  | setsockopt false => true
  | bind false => true
  | listen false => true
  | _ => false

section Definitions

variable (syn : AddressSyntax) (s : TcpServer) (a : Action) (fd : ℤ)

/-- A socket of the server's that is open. -/
def Opens : Prop := 0 ≤ fd ∧ ∃ d, s.table fd = some d ∧ d.owner = .engine

/-- A socket the server knows of: it is in `mFd`, and not just being closed, or
`initSocket()` has it in hand. -/
def Knows : Prop := (s.mFd = fd ∧ s.pc ≠ .storeInvalid) ∨ s.pc.svr_sock = some fd

/-- **A socket that has been left**: the server has opened it and does not know of
it. -/
def LeftOpen : Prop := s.Opens fd ∧ ¬ s.Knows fd

/-- The condition on a step: it does not leave `initSocket()` with a socket in hand
that is not stored. -/
def Tidy : Prop :=
  ¬ (a.isFailure = true ∧ s.pc.svr_sock.isSome = true) ∧ ¬ (a = .go ∧ s.Misreads syn)

instance : DecidableRel (Tidy syn) := fun s a => inferInstanceAs (Decidable
  (¬ (a.isFailure = true ∧ s.pc.svr_sock.isSome = true) ∧ ¬ (a = .go ∧ s.Misreads syn)))

end Definitions

section Invariants

variable {syn : AddressSyntax} {s s' : TcpServer} {a : Action} {es : List Event} {fd : ℤ}
variable {type : TcpServerType} {ip : String} {port : BitVec 16}
variable {table : ℤ → Option Descriptor}

/-- A socket of the server's stays open where another number is given a meaning. -/
theorem Opens.update_of_ne {n : ℤ} {target : Option Descriptor} (h : s.Opens fd) (hne : fd ≠ n)
    (htable : s'.table = Function.update s.table n target) : s'.Opens fd := by
  obtain ⟨hfd, d, hd, howner⟩ := h
  refine ⟨hfd, d, ?_, howner⟩
  rw [htable, Function.update_of_ne hne]
  exact hd

/-- What is free, or somebody else's, is another number. -/
theorem Opens.ne_of_other {n : ℤ} (h : s.Opens fd)
    (hother : ∀ d, s.table n = some d → d.owner ≠ .engine) : fd ≠ n := by
  rintro rfl
  obtain ⟨-, d, hd, howner⟩ := h
  exact hother d hd howner

theorem Opens.ne_of_free {n : ℤ} (h : s.Opens fd) (hfree : s.table n = none) : fd ≠ n :=
  h.ne_of_other fun d hd => by cases hfree.symm.trans hd

/-- A socket of the server's is not `INVALID_FD`. -/
theorem Opens.ne_invalid (h : s.Opens fd) : INVALID_FD ≠ fd := by
  rintro rfl
  exact absurd h.1 (by decide)

/-- Nothing has become the server's by a step that gives a number to nobody, or to
somebody else. -/
theorem Opens.of_update {n : ℤ} {target : Option Descriptor} (h : s'.Opens fd)
    (htable : s'.table = Function.update s.table n target)
    (htarget : ∀ d, target = some d → d.owner ≠ .engine) : fd ≠ n ∧ s.Opens fd := by
  obtain ⟨hfd, d, hd, howner⟩ := h
  rw [htable] at hd
  have hne : fd ≠ n := by
    rintro rfl
    rw [Function.update_self] at hd
    exact htarget d hd howner
  rw [Function.update_of_ne hne] at hd
  exact ⟨hne, hfd, d, hd, howner⟩

/-- A number that is given another meaning is known before and after, or is another
number. -/
theorem Opens.of_update_of_ne {n : ℤ} {target : Option Descriptor} (h : s'.Opens fd)
    (htable : s'.table = Function.update s.table n target) (hne : fd ≠ n) : s.Opens fd := by
  obtain ⟨hfd, d, hd, howner⟩ := h
  rw [htable, Function.update_of_ne hne] at hd
  exact ⟨hfd, d, hd, howner⟩

theorem Knows.mono (h : s.Knows fd) (hfd : s'.mFd = s.mFd)
    (hpc : s.pc ≠ .storeInvalid → s'.pc ≠ .storeInvalid)
    (hhand : s.pc.svr_sock = some fd → s'.pc.svr_sock = some fd) : s'.Knows fd :=
  h.imp (And.imp hfd.trans hpc) hhand

/-- Where `initSocket()` stands at a call that can fail, `stop()` does not stand. -/
theorem FailsAt.ne_storeInvalid {pc : TcpServerPc} (h : FailsAt pc) : pc ≠ .storeInvalid := by
  rintro rfl
  exact h

/-! ## A socket left stays open -/

theorem LeftOpen.mono (hi : s.LeftOpen fd) (hopen : s'.Opens fd) (hfd : s'.mFd = s.mFd)
    (hpc : s.pc ≠ .storeInvalid)
    (hhand : s'.pc.svr_sock = some fd → s.pc.svr_sock = some fd) : s'.LeftOpen fd :=
  ⟨hopen, fun hknows => hi.2 (hknows.mono hfd.symm (fun _ => hpc) hhand)⟩

/-- **No step knows again of a socket that has been left**, and none closes it. -/
theorem LeftOpen.step (h : Step syn s a s' es) (hi : s.LeftOpen fd) : s'.LeftOpen fd := by
  obtain ⟨hopen, hnot⟩ := id hi
  -- a number that is `mFd`, or in the hand of `initSocket`, is another one
  have hfield (hpc : s.pc ≠ .storeInvalid) : fd ≠ s.mFd := by
    rintro rfl
    exact hnot (.inl ⟨rfl, hpc⟩)
  have hhand {n : ℤ} (hpc : s.pc.svr_sock = some n) : fd ≠ n := by
    rintro rfl
    exact hnot (.inr hpc)
  cases h with
  | startInits hpc =>
    exact hi.mono hopen rfl (by rw [hpc]; exact nofun) nofun
  | stopCloses hpc =>
    have hne : fd ≠ s.mFd := hfield (by rw [hpc]; exact nofun)
    exact ⟨hopen.update_of_ne hne rfl, fun hknows => hknows.elim (fun h => h.2 rfl) nofun⟩
  | stopStores => exact ⟨hopen, fun hknows => hknows.elim (fun h => hopen.ne_invalid h.1) nofun⟩
  | @socket n hpc _ hfree =>
    have hne : fd ≠ n := hopen.ne_of_free hfree
    refine hi.mono (hopen.update_of_ne hne rfl) rfl (by rw [hpc]; exact nofun) fun heq => ?_
    exact absurd (Option.some.inj heq).symm hne
  | setReuseAddr hpc =>
    refine hi.mono hopen rfl (by rw [hpc]; exact nofun) fun heq => ?_
    rw [hpc]
    simp only at heq
    split at heq
    · exact heq
    · exact heq
  | setV6Only hpc => exact hi.mono hopen rfl (by rw [hpc]; exact nofun) fun heq => by rwa [hpc]
  | fill hpc => exact hi.mono hopen rfl (by rw [hpc]; exact nofun) fun heq => by rwa [hpc]
  | fillFails hpc => exact hi.mono hopen rfl (by rw [hpc]; exact nofun) nofun
  | @bind svr_sock addr d hpc =>
    have hne : fd ≠ svr_sock := hhand (by rw [hpc]; rfl)
    exact hi.mono (hopen.update_of_ne hne rfl) rfl (by rw [hpc]; exact nofun)
      fun heq => by rwa [hpc]
  | @listen svr_sock d _ hpc _ hs' =>
    subst hs'
    have hne : fd ≠ svr_sock := hhand (by rw [hpc]; rfl)
    refine ⟨hopen.update_of_ne hne rfl, fun hknows => ?_⟩
    exact hknows.elim (fun h => hne h.1.symm) nofun
  | fails hpc => exact hi.mono hopen rfl hpc.ne_storeInvalid nofun
  | runAccepts _ _ hfree => exact ⟨hopen.update_of_ne (hopen.ne_of_free hfree) rfl, hnot⟩
  | otherOpens _ hfree => exact ⟨hopen.update_of_ne (hopen.ne_of_free hfree) rfl, hnot⟩
  | @otherCloses n d hd howner =>
    have hne : fd ≠ n := hopen.ne_of_other fun d' hd' => by
      obtain rfl := Option.some.inj (hd.symm.trans hd')
      rw [howner]
      exact nofun
    exact ⟨hopen.update_of_ne hne rfl, hnot⟩
  | _ => exact ⟨hopen, hnot⟩

theorem LeftOpen.run {ok : TcpServer → Action → Prop} (hi : s.LeftOpen fd)
    (h : (machine syn).Run ok s es s') : s'.LeftOpen fd :=
  h.stateInvariant (I := (LeftOpen · fd)) hi fun hi _ hs => hi.step (Step.of_step hs)

/-! ## How a socket is left -/

/-- The server knows of all the sockets it has open. -/
def KnowsAll (s : TcpServer) : Prop := ∀ fd, s.Opens fd → s.Knows fd

theorem knowsAll_iff : s.KnowsAll ↔ ∀ fd, ¬ s.LeftOpen fd := by
  constructor
  · rintro hall fd ⟨hopen, hnot⟩
    exact hnot (hall fd hopen)
  · intro hnone fd hopen
    by_contra hnot
    exact hnone fd ⟨hopen, hnot⟩

/-- Between calls the server knows of `mFd` alone. -/
theorem Knows.eq_mFd (h : s.Knows fd) (hhand : s.pc.svr_sock = none) : fd = s.mFd :=
  h.elim (fun h => h.1.symm) fun heq => nomatch hhand.symm.trans heq

/-- Where `stop()` is about to store, nothing is known. -/
theorem not_knows_of_storeInvalid (hpc : s.pc = .storeInvalid) : ¬ s.Knows fd := by
  rintro (⟨-, hne⟩ | heq)
  · exact hne hpc
  · rw [hpc] at heq
    cases heq

/-- **A tidy step leaves nothing.** -/
theorem KnowsAll.step (h : Step syn s a s' es) (hi : s.KnowsAll) (hsound : s.Sound)
    (hok : Tidy syn s a) : s'.KnowsAll := by
  have hat {pc : TcpServerPc} (hpc : s.pc = pc) : s.ReliesOn pc := hpc ▸ hsound
  intro fd hopen
  cases h with
  | startInits hpc =>
    refine (hi fd hopen).mono rfl (fun _ => nofun) fun heq => ?_
    rw [hpc] at heq
    cases heq
  | stopCloses hpc =>
    obtain ⟨hne, hopen⟩ := hopen.of_update rfl nofun
    exact absurd ((hi fd hopen).eq_mFd (by rw [hpc]; rfl)) hne
  | stopStores hpc => exact absurd (hi fd hopen) (not_knows_of_storeInvalid hpc)
  | @socket n hpc _ hfree =>
    by_cases hne : fd = n
    · exact .inr (congrArg some hne.symm)
    · have hknows := hi fd (hopen.of_update_of_ne rfl hne)
      exact .inl ⟨(hknows.eq_mFd (by rw [hpc]; rfl)).symm, nofun⟩
  | setReuseAddr hpc =>
    refine (hi fd hopen).mono rfl (fun _ => ?_) fun heq => ?_
    · dsimp only
      split <;> exact nofun
    · rw [hpc] at heq
      dsimp only
      split <;> exact heq
  | setV6Only hpc => exact (hi fd hopen).mono rfl (fun _ => nofun) fun heq => by rwa [hpc] at heq
  | fill hpc => exact (hi fd hopen).mono rfl (fun _ => nofun) fun heq => by rwa [hpc] at heq
  | fillFails hpc haddr => exact absurd ⟨rfl, by rw [hpc]; rfl, haddr⟩ hok.2
  | @bind svr_sock addr d hpc =>
    by_cases hne : fd = svr_sock
    · exact .inr (congrArg some hne.symm)
    · refine (hi fd (hopen.of_update_of_ne rfl hne)).mono rfl (fun _ => nofun) fun heq => ?_
      rwa [hpc] at heq
  | @listen svr_sock d _ hpc _ hs' =>
    subst hs'
    by_cases hne : fd = svr_sock
    · exact .inl ⟨hne.symm, nofun⟩
    · -- `mFd` is still `INVALID_FD`, and `svr_sock` in hand
      have hopen := hopen.of_update_of_ne rfl hne
      rcases hi fd hopen with ⟨hfd, -⟩ | heq
      · exact absurd ((hat hpc).1.symm.trans hfd) hopen.ne_invalid
      · rw [hpc] at heq
        exact absurd (Option.some.inj heq).symm hne
  | fails hpc ha =>
    refine (hi fd hopen).mono rfl (fun _ => nofun) fun heq => ?_
    refine absurd ⟨?_, Option.isSome_of_eq_some heq⟩ hok.1
    rcases ha with rfl | rfl | rfl | rfl <;> rfl
  | runAccepts _ _ hfree =>
    refine hi fd (hopen.of_update rfl fun d hd => ?_).2
    cases hd
    exact nofun
  | otherOpens _ hfree =>
    refine hi fd (hopen.of_update rfl fun d hd => ?_).2
    cases hd
    exact nofun
  | otherCloses => exact hi fd (hopen.of_update rfl nofun).2
  | _ => exact hi fd hopen

/-- `initSocket()` is left with the socket it has in hand. -/
theorem leftOpen_of_hand (hsound : s.Sound) (hhand : s.pc.svr_sock = some fd)
    (htable : s'.table = s.table) (hfd : s'.mFd = s.mFd) (hpc : s'.pc.svr_sock = none) :
    s'.LeftOpen fd := by
  have hopened : s.mFd = INVALID_FD ∧ s.Opens fd := by
    unfold Sound at hsound
    cases hat : s.pc with rw [hat] at hsound hhand
    | idle => cases hhand
    | storeInvalid => cases hhand
    | socket => cases hhand
    | setReuseAddr n => cases hhand; exact hsound
    | setV6Only n => cases hhand; exact hsound
    | fillAddress n => cases hhand; exact hsound
    | bind n addr => cases hhand; exact hsound
    | listen n =>
      cases hhand
      obtain ⟨hinvalid, hpos, addr, listening, hd⟩ := hsound
      exact ⟨hinvalid, hpos, _, hd, rfl⟩
  obtain ⟨hinvalid, hpos, d, hd, howner⟩ := hopened
  have hopen : s'.Opens fd := ⟨hpos, d, htable.symm ▸ hd, howner⟩
  refine ⟨hopen, fun hknows => hopen.ne_invalid ?_⟩
  rw [← hinvalid, ← hfd]
  exact (hknows.eq_mFd hpc).symm

/-- **And an untidy one leaves the socket in hand.** -/
theorem exists_leftOpen_of_not_tidy (h : Step syn s a s' es) (hsound : s.Sound)
    (hok : ¬ Tidy syn s a) : ∃ fd, s'.LeftOpen fd := by
  rw [Tidy, not_and_or, not_not, not_not] at hok
  rcases hok with ⟨ha, hhand⟩ | ⟨rfl, hmisreads⟩
  · obtain ⟨fd, hfd⟩ := Option.isSome_iff_exists.mp hhand
    refine ⟨fd, ?_⟩
    cases h with
    | fails => exact leftOpen_of_hand hsound hfd rfl rfl rfl
    | _ => cases ha
  · obtain ⟨hfills, haddr⟩ := hmisreads
    cases h with
    | stopStores hpc =>
      rw [hpc] at hfills
      cases hfills
    | fill _ haddr' => cases haddr.symm.trans haddr'
    | @fillFails svr_sock hpc =>
      exact ⟨svr_sock, leftOpen_of_hand hsound (by rw [hpc]; rfl) rfl rfl rfl⟩
    | fails _ ha => rcases ha with heq | heq | heq | heq <;> cases heq

theorem KnowsAll.init (htable : ∀ fd d, table fd = some d → d.owner ≠ .engine) :
    (init type ip port table).KnowsAll := by
  rintro fd ⟨-, d, hd, howner⟩
  exact absurd howner (htable fd d hd)

/-- **When a server loses a socket**: in a process where it has none open yet, just when
an `initSocket()` is left behind its `socket()` without a listening socket. What it has
lost stays open, and unknown to it, whatever is called after. -/
theorem sockets_left_iff (htable : ∀ fd d, table fd = some d → d.owner ≠ .engine)
    (h : (machine syn).Run Machine.always (init type ip port table) es s) :
    ((∀ fd, ¬ s.LeftOpen fd) ↔ (machine syn).Run (Tidy syn) (init type ip port table) es s)
      ∧ ∀ fd, s.LeftOpen fd → ∀ es' s', (machine syn).Run Machine.always s es' s' →
        s'.LeftOpen fd := by
  refine ⟨?_, fun fd hleft es' s' hrun => hleft.run hrun⟩
  constructor
  · intro hnone
    induction h with
    | start => exact .start
    | @snoc _ s a s' _ hrun _ hs ih =>
      have hstep := Step.of_step hs
      have hsound := sound_of_run hrun
      by_cases hok : Tidy syn s a
      · exact (ih fun fd hleft => hnone fd (hleft.step hstep)).snoc hok hs
      · obtain ⟨fd, hleft⟩ := exists_leftOpen_of_not_tidy hstep hsound hok
        exact absurd hleft (hnone fd)
  · intro hguarded
    refine knowsAll_iff.mp ?_
    refine hguarded.invariant (I := fun _ s => s.KnowsAll) (.init htable) ?_
    intro _ s a s' _ hrun hi hok hs
    exact hi.step (Step.of_step hs) (sound_of_run hrun) hok

end Invariants

/-! ## A server whose port is taken -/

open ITcpBrokerServerEngine (loopback)

/-- `bind` fails on descriptor 3; the next `start()` gets 4, and `stop()` closes that. -/
theorem sockets_left_iff_portTaken :
    ∃ es s, (machine loopback).Run Machine.always
        (init .IPV4ThreadsTcpServer "127.0.0.1" 9001 (fun _ => none)) es s
      ∧ .stop true ∈ es ∧ s.LeftOpen 3
      ∧ ∀ es' s', (machine loopback).Run Machine.always s es' s' → s'.LeftOpen 3 := by
  obtain ⟨es, s, hrun, hmem, hopen, hfd, hpc⟩ : ∃ es s, (machine loopback).Run Machine.always
        (init .IPV4ThreadsTcpServer "127.0.0.1" 9001 (fun _ => none)) es s
      ∧ .stop true ∈ es ∧ s.table 3 = some ⟨.engine, none, false⟩
      ∧ s.mFd = INVALID_FD ∧ s.pc = .idle := by
    refine Machine.Run.exists_of_exec
      [.start, .socket (some 3), .setsockopt true, .go, .bind false, .start, .socket (some 4),
        .setsockopt true, .go, .bind true, .listen true, .stop, .go] ?_
    decide +kernel
  have hleft : s.LeftOpen 3 := by
    refine ⟨⟨by decide, _, hopen, rfl⟩, ?_⟩
    rintro (⟨heq, -⟩ | heq)
    · exact absurd (hfd.symm.trans heq) (by decide)
    · rw [hpc] at heq
      cases heq
  exact ⟨es, s, hrun, hmem, hleft,
    (sockets_left_iff (fun _ _ hnone => by cases hnone) hrun).2 3 hleft⟩

end TcpServer
