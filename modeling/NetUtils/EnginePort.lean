import NetUtils.EngineInit
import NetUtils.EngineRestart

/-!
# The port that is bound

A constructor and `setListeningPort()` take the port as an `int` and store it
as it is. `htons(mPort)` takes a `uint16_t`, in both initialisations, and the
conversion is silent: what is bound is the value modulo 65536, and
`getListeningPort()` goes on answering the value itself. Nothing on the way
looks at it, so that an initialisation keeps to the port it was given just
when the port is one or something else makes it fail.
-/

namespace ITcpBrokerServerEngine

section Definitions

variable (s : ITcpBrokerServerEngine)

/-- `getListeningPort()`. -/
def getListeningPort : ℤ := s.mPort

/-- **An initialisation keeps to the configured port**, from the engine `s` to
the fields after it and what it returns. -/
structure KeepsToPort (result : ITcpBrokerServerEngine × Bool) : Prop where
  /-- The socket it reports is bound to the port the engine answers. -/
  bound : result.2 = true → ∃ d addr, result.1.table result.1.mFd = some d
    ∧ d.bound = some addr ∧ (addr.port.toNat : ℤ) = result.1.getListeningPort
  /-- A value that is no port makes it fail. -/
  refused : ¬ s.PortFits → result.2 = false

end Definitions

variable {syn : AddressSyntax} {s : ITcpBrokerServerEngine} {answers : InitAnswers}
variable {options : List Bool} {server_addr : Option SockAddr}

/-- An initialisation that fails keeps to the port. -/
theorem KeepsToPort.of_fails (s' : ITcpBrokerServerEngine) : KeepsToPort s (s', false) where
  bound := nofun
  refused := fun _ => rfl

/-- **One that succeeds does so just when the value is a port.** -/
theorem keepsToPort_of_succeeds_iff {fd : ℤ} {addr : SockAddr} (haddr : addr.port = s.port) :
    KeepsToPort s ({ s.setTable fd (some ⟨.engine, some addr, true⟩) with mFd := fd }, true)
      ↔ s.PortFits := by
  constructor
  · intro h
    by_contra hfits
    cases h.refused hfits
  · intro hfits
    refine ⟨fun _ => ⟨_, addr, Function.update_self .., rfl, ?_⟩, fun hno => absurd hfits hno⟩
    rw [haddr]
    exact port_toNat_eq_iff.mpr hfits

/-- An initialisation binds `htons(mPort)`, and so keeps to the port just when
the value is one, or when it fails. -/
theorem initSocket_keepsToPort
    (haddr : ∀ addr, server_addr = some addr → addr.port = s.port) :
    KeepsToPort s (s.initSocket options server_addr answers)
      ↔ s.PortFits ∨ answers.socket = none
        ∨ ¬ ((∀ ok ∈ options, ok = true) ∧ server_addr.isSome = true ∧ answers.bind = true
          ∧ answers.listen = true) := by
  refine initSocket_cases (P := fun r => KeepsToPort s r ↔ _) ?_ ?_ ?_
  · intro hnone
    exact iff_of_true (.of_fails s) (.inr (.inl hnone))
  · intro fd addr hsocket hall hsome hbind hlisten
    rw [keepsToPort_of_succeeds_iff (haddr addr hsome)]
    refine ⟨.inl, ?_⟩
    rintro (hfits | hnone | hfails)
    · exact hfits
    · cases hsocket.symm.trans hnone
    · exact absurd ⟨hall, by rw [hsome]; rfl, hbind, hlisten⟩ hfails
  · intro fd bound _ hfails
    exact iff_of_true (.of_fails _) (.inr (.inr hfails))

/-- **When an initialisation keeps to the configured port**: just when the
value a constructor or `setListeningPort()` was given is a port, or one of the
calls fails. -/
theorem initSocket_keepsToPort_iff :
    (KeepsToPort s (s.initIPV4Socket syn answers)
      ↔ s.PortFits ∨ answers.socket = none ∨ ¬ IPV4Succeeds answers)
    ∧ (KeepsToPort s (s.initIPV6Socket syn answers)
      ↔ s.PortFits ∨ answers.socket = none ∨ ¬ IPV6Succeeds syn s answers) := by
  constructor
  · rw [initIPV4Socket, initSocket_keepsToPort]
    · simp [IPV4Succeeds]
    · rintro addr ⟨⟩
      rfl
  · rw [initIPV6Socket, initSocket_keepsToPort]
    · have hsome : (if s.mIP.isEmpty then some ⟨.v6 in6addr_any, s.port⟩
          else (syn.inet_pton s.mIP).map (fun addr => (⟨.v6 addr, s.port⟩ : SockAddr))).isSome
            = true ↔ s.mIP.isEmpty = true ∨ (syn.inet_pton s.mIP).isSome = true := by
        cases s.mIP.isEmpty <;> simp
      rw [hsome]
      simp [IPV6Succeeds, and_assoc]
    · intro addr haddr
      split at haddr
      · obtain rfl := Option.some.inj haddr
        rfl
      · obtain ⟨a, -, rfl⟩ := Option.map_eq_some_iff.mp haddr
        rfl

/-- An IPv6 engine that was given the port -1. -/
def aNegativeEngine : ITcpBrokerServerEngine := init .PT_TCP_IPV6 "::1" (-1) (fun _ => none)

/-- **Port 70000 is bound as 4464, and -1 as 65535**, while the engine answers
70000 and -1. -/
theorem bound_port_wraps :
    ((anEngine.begin (.setListeningPort 70000)).initIPV4Socket loopback allSucceed).1.table 3
        = some ⟨.engine, some ⟨.v4 0x7f000001, 4464⟩, true⟩
      ∧ ¬ KeepsToPort (anEngine.begin (.setListeningPort 70000))
        ((anEngine.begin (.setListeningPort 70000)).initIPV4Socket loopback allSucceed)
      ∧ (aNegativeEngine.initIPV6Socket loopback allSucceed).1.table 3
        = some ⟨.engine, some ⟨.v6 1, 65535⟩, true⟩
      ∧ ¬ KeepsToPort aNegativeEngine (aNegativeEngine.initIPV6Socket loopback allSucceed) := by
  have hlarge : ¬ (anEngine.begin (.setListeningPort 70000)).PortFits :=
    fun h => absurd h.2 (by decide)
  have hnegative : ¬ aNegativeEngine.PortFits := fun h => absurd h.1 (by decide)
  refine ⟨by decide, fun hkeeps => ?_, by decide, fun hkeeps => ?_⟩
  · exact absurd (hkeeps.refused hlarge) (by decide)
  · exact absurd (hkeeps.refused hnegative) (by decide)

end ITcpBrokerServerEngine
