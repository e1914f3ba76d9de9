import NetUtils.Pool
import NetUtils.TcpServerReports

/-!
# The descriptors a `TcpServer` works with

The threads in `run` are many, if `start` is called again after a `stop`, and
each has its own idea of the listening socket. `Accepts` says what those in
`accept` are on, and that `INVALID_FD` never comes to stand for anything.
-/

/-- The client's descriptor a thread in `run()` has in hand. -/
def RunPc.hand : RunPc → Option ℤ
  | setRcvTimeo client_socket => some client_socket
  | setSndTimeo client_socket => some client_socket
  | _ => none

namespace TcpServer

/-- The client's descriptor the `i`-th thread in `run()` has in hand. -/
def hand (s : TcpServer) (i : ℕ) : Option ℤ := s.runs[i]?.bind RunPc.hand

variable {syn : AddressSyntax} {s s' : TcpServer} {a : Action} {es : List Event}

/-! ## What the threads in `accept` are on -/

/-- **A thread in `accept` is on a listening socket**, and `INVALID_FD` stands
for nothing. -/
structure Accepts (s : TcpServer) : Prop where
  invalid : s.table INVALID_FD = none
  listening : ∀ (i : ℕ) (pc : RunPc), s.runs[i]? = some pc → ∀ fd, pc = RunPc.accept (some fd) →
    (s.table fd).any (·.listening) = true

theorem closed_eq_accept {pc : RunPc} {fd n : ℤ} (h : pc.closed fd = .accept (some n)) :
    pc = .accept (some n) ∧ n ≠ fd := by
  cases pc with
  | accept f =>
    by_cases heq : f = some fd
    · cases (if_pos heq).symm.trans h
    · cases (if_neg heq).symm.trans h
      exact ⟨rfl, fun hn => heq (congrArg some hn)⟩
  | _ => cases h

/-- A number given to a new descriptor. -/
theorem Accepts.opens (hi : Accepts s) {fd : ℤ} {target : Option Descriptor} (hfd : 0 ≤ fd)
    (hfree : s.table fd = none) : Accepts (s.setTable fd target) where
  invalid := by
    rw [setTable_table, Function.update_of_ne (fun heq => absurd (heq ▸ hfd) (by decide))]
    exact hi.invalid
  listening := fun i pc hpc n hn => by
    have hlisten := hi.listening i pc hpc n hn
    rw [setTable_table, Function.update_of_ne (fun heq => ?_)]
    · exact hlisten
    · rw [heq, hfree] at hlisten
      cases hlisten

/-- `bind` and `listen` leave a listening socket listening. -/
theorem Accepts.changes (hi : Accepts s) {fd : ℤ} {d d' : Descriptor} (hd : s.table fd = some d)
    (hlisten : d.listening = true → d'.listening = true) :
    Accepts (s.setTable fd (some d')) where
  invalid := by
    rw [setTable_table, Function.update_of_ne (fun heq => ?_)]
    · exact hi.invalid
    · rw [← heq, hi.invalid] at hd
      cases hd
  listening := fun i pc hpc n hn => by
    have hold := hi.listening i pc hpc n hn
    rw [setTable_table]
    by_cases heq : n = fd
    · subst heq
      rw [hd] at hold
      rw [Function.update_self]
      exact hlisten hold
    · rw [Function.update_of_ne heq]
      exact hold

/-- A `close` takes the threads in `accept` off the socket. -/
theorem Accepts.closes (hi : Accepts s) (fd : ℤ) : Accepts (s.closed fd) where
  invalid := by
    rw [closed_table]
    by_cases heq : INVALID_FD = fd
    · rw [heq, Function.update_self]
    · rw [Function.update_of_ne heq]
      exact hi.invalid
  listening := fun i pc hpc n hn => by
    rw [closed_runs, List.getElem?_map] at hpc
    obtain ⟨pc, hold, rfl⟩ := Option.map_eq_some_iff.mp hpc
    obtain ⟨rfl, hne⟩ := closed_eq_accept hn
    rw [closed_table, Function.update_of_ne hne]
    exact hi.listening i _ hold n rfl

/-- A thread in `run()` that does not come to `accept`. -/
theorem Accepts.moves (hi : Accepts s) (i : ℕ) {pc : RunPc} (hpc : ∀ fd, pc ≠ .accept (some fd)) :
    Accepts (s.setRun i pc) where
  invalid := hi.invalid
  listening := Pool.forall_move (fun j pc' hj _ => hi.listening j pc' hj)
    fun fd hfd => absurd hfd (hpc fd)

/-- A new thread in `run()`. -/
theorem Accepts.joins (hi : Accepts s) (htable : s'.table = s.table)
    (hruns : s'.runs = s.runs ++ [.loadFd]) : Accepts s' where
  invalid := htable ▸ hi.invalid
  listening := by
    rw [hruns, htable]
    exact Pool.forall_join hi.listening nofun

/-- A step that leaves the table and the threads in `run()` alone. -/
theorem Accepts.same (hi : Accepts s) (htable : s'.table = s.table) (hruns : s'.runs = s.runs) :
    Accepts s' := ⟨htable ▸ hi.invalid, by rw [htable, hruns]; exact hi.listening⟩

theorem Accepts.step (h : Step syn s a s' es) (hi : Accepts s) : Accepts s' := by
  cases h with
  | stopCloses => exact (hi.closes _).same rfl rfl
  | socket _ hfd hfree => exact (hi.opens hfd hfree).same rfl rfl
  | fillFails => exact hi.joins rfl rfl
  | @bind svr_sock addr d _ hd =>
    have hbound : Accepts (s.setTable svr_sock (some { d with bound := some addr })) :=
      hi.changes hd id
    exact hbound.same rfl rfl
  | listen _ hd hs' =>
    subst hs'
    exact (hi.changes hd fun _ => rfl).joins rfl rfl
  | runLoadFd => exact hi.moves _ nofun
  | runEnters _ hlisten =>
    refine ⟨hi.invalid, Pool.forall_move (fun j pc' hj _ => hi.listening j pc' hj) ?_⟩
    rintro _ ⟨⟩
    exact hlisten
  | runRefused => exact hi.moves _ nofun
  | runAccepts _ hfd hfree =>
    refine (hi.opens hfd hfree).moves _ ?_
    split
    · exact nofun
    · exact nofun
  | runAcceptFails => exact hi.moves _ nofun
  | runSetRcvTimeo => exact hi.moves _ nofun
  | runSetSndTimeo => exact hi.moves _ nofun
  | runSetsockoptFails => exact hi.moves _ nofun
  | otherOpens hfd hfree => exact hi.opens hfd hfree
  | otherCloses => exact hi.closes _
  | _ => exact hi.same rfl rfl

theorem accepts_of_run {ok : TcpServer → Action → Prop} {type : TcpServerType} {ip : String}
    {port : BitVec 16} {table : ℤ → Option Descriptor} (htable : table INVALID_FD = none)
    (h : (machine syn).Run ok (init type ip port table) es s) : Accepts s :=
  h.stateInvariant (I := Accepts) ⟨htable, fun _ _ hpc => absurd hpc (by simp [init])⟩
    (fun hi _ hs => hi.step (Step.of_step hs))

/-- The `close` of a number that stands for nothing does nothing. -/
theorem Accepts.closed_eq (hi : Accepts s) {fd : ℤ} (hnone : s.table fd = none) :
    s.closed fd = s := by
  have htable : Function.update s.table fd none = s.table := by
    rw [← hnone, Function.update_eq_self]
  have hsame (pc : RunPc) (hpc : pc ∈ s.runs) : pc.closed fd = pc := by
    cases pc with
    | accept f =>
      obtain ⟨i, hi'⟩ := List.mem_iff_getElem?.mp hpc
      refine if_neg fun heq => ?_
      have hlisten := hi.listening i _ hi' fd (congrArg _ heq)
      rw [hnone] at hlisten
      cases hlisten
    | _ => rfl
  have hruns : s.runs.map (·.closed fd) = s.runs := by
    rw [List.map_congr_left hsame, List.map_id']
  rw [closed, htable, hruns]

/-! ## What they have in hand -/

theorem hand_of_runs (hruns : s'.runs = s.runs) (i : ℕ) : s'.hand i = s.hand i := by
  rw [hand, hand, hruns]

theorem hand_setRun_of_ne {i j : ℕ} (hne : j ≠ i) (pc : RunPc) :
    (s.setRun i pc).hand j = s.hand j := by
  rw [hand, hand, setRun_runs, List.getElem?_set_ne hne.symm]

theorem runs_setRun_self {i : ℕ} {pc pc' : RunPc} (hpc : s.runs[i]? = some pc) :
    (s.setRun i pc').runs[i]? = some pc' := by
  rw [setRun_runs, List.getElem?_set_self (List.getElem?_eq_some_iff.mp hpc).1]

theorem hand_setRun_self {i : ℕ} {pc pc' : RunPc} (hpc : s.runs[i]? = some pc) :
    (s.setRun i pc').hand i = pc'.hand := by
  rw [hand, runs_setRun_self hpc]
  rfl

/-- A new thread in `run()` has nothing in hand. -/
theorem hand_joins (hruns : s'.runs = s.runs ++ [.loadFd]) (i : ℕ) : s'.hand i = s.hand i := by
  rw [hand, hand, hruns]
  rcases Nat.lt_trichotomy i s.runs.length with hlt | rfl | hgt
  · rw [List.getElem?_append_left hlt]
  · rw [List.getElem?_concat_length, List.getElem?_eq_none (Nat.le_refl _)]
    rfl
  · rw [List.getElem?_eq_none (by rw [List.length_append]; exact hgt),
      List.getElem?_eq_none (Nat.le_of_lt hgt)]

theorem hand_pc_closed (pc : RunPc) (fd : ℤ) : (pc.closed fd).hand = pc.hand := by
  cases pc with
  | accept f =>
    show RunPc.hand (if f = some fd then .accept none else .accept f) = none
    split <;> rfl
  | _ => rfl

theorem hand_closed (fd : ℤ) (i : ℕ) : (s.closed fd).hand i = s.hand i := by
  rw [hand, hand, closed_runs, List.getElem?_map]
  cases s.runs[i]? with
  | none => rfl
  | some pc => exact hand_pc_closed pc fd

end TcpServer
