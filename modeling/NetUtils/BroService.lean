import NetUtils.BroSockets
import NetUtils.Pipes
import NetUtils.WorkerPublish

/-!
# What the clients of `ThreadsTcpBroServer` are sent

A response goes a long way to its client. Other threads store it, the write thread
copies it and gives it to `send_bytes`, this makes as many `send` calls as the
kernel likes, on a number loaded before the first of them, and other threads and
other workers move in between. What a client is sent is nevertheless a sequence of
whole responses, one after the other: those its own worker has given to
`send_bytes`, as long as no number is given away while it is held and no `send`
fails on a client's connection.

This is once more the refinement of the pipes of `NetUtils.Pipes`, now with a
response put in as a whole and taken out in pieces (`responses_refine_pipes`).
What the responses are is the mailbox of `NetUtils.WorkerPublish`.
-/

open Transfer IOHelper

variable {w : ℕ} {β : Type}

/-- The response that is being sent. -/
def WritePc.response : WritePc w β → Option (Buffer w β)
  | send _ response _ => some response
  | _ => none

/-- The bytes of it that are still to be sent. -/
def WritePc.rest : WritePc w β → List β
  | send _ response total_send => response.bytes.drop total_send.toNat
  | _ => []

namespace ThreadsTcpBroWorker

section Steps

variable {s s' : ThreadsTcpBroWorker w β} {a : Action w β} {es : List (Event w β)}
variable {context : SocketContext w β}

@[simp] theorem response_notify (pc : WritePc w β) : pc.notify.response = pc.response :=
  apply_notify_write WritePc.response rfl pc

@[simp] theorem rest_notify (pc : WritePc w β) : pc.notify.rest = pc.rest :=
  apply_notify_write WritePc.rest rfl pc

/-- In `send_bytes` the response being sent is the one passed to it. -/
theorem response_inSendBytes {fd : ℤ} {response response' : Buffer w β} {phase : Phase w}
    (h : (inSendBytes fd response phase).response = some response') : response' = response := by
  unfold inSendBytes at h
  split at h <;> cases h
  rfl

/-- At the head of the sending loop the bytes from the counter on are left. -/
theorem rest_inSendBytes_test (fd : ℤ) (response : Buffer w β) (total : BitVec w) :
    (inSendBytes fd response (test response.size total)).rest
      = response.bytes.drop total.toNat := by
  rcases Nat.lt_or_ge total.toNat response.bytes.length with h | h
  · rw [test_of_lt (by rw [Buffer.toNat_size]; exact h)]
    rfl
  · rw [test_of_le (by rw [Buffer.toNat_size]; exact h), List.drop_of_length_le h]
    rfl

/-- The sending loop is at a call inside its response. -/
def SendsInside (s : ThreadsTcpBroWorker w β) : Prop :=
  ∀ fd response total, s.writer = .send fd response total → total.toNat < response.bytes.length

theorem lt_of_inSendBytes {fd fd' : ℤ} {response response' : Buffer w β} {phase : Phase w}
    {total : BitVec w} (hphase : ∀ next, phase = .calling next → next.toNat < response.size.toNat)
    (h : inSendBytes fd response phase = .send fd' response' total) :
    total.toNat < response'.bytes.length := by
  unfold inSendBytes at h
  split at h <;> cases h
  rw [← Buffer.toNat_size]
  exact hphase _ rfl

theorem SendsInside.step (h : Step s a s' es) (hi : SendsInside s) : SendsInside s' := by
  cases h with
  | writeCallSend => exact fun _ _ _ => lt_of_inSendBytes fun _ => lt_of_test
  | writeSend => exact fun _ _ _ => lt_of_inSendBytes fun _ => lt_of_sendBody
  | writeWake => exact fun fd r t hpc => hi fd r t (by simpa using hpc)
  | readExitNotify => exact fun fd r t hpc => hi fd r t (by simpa using hpc)
  | callBody => exact fun fd r t hpc => hi fd r t (by simpa using hpc)
  | _ =>
    first
    | exact hi
    | exact fun _ _ _ => nofun

theorem sendsInside_of_run {ok : ThreadsTcpBroWorker w β → Action w β → Prop}
    (h : (machine w β).Run ok (init context) es s) : SendsInside s :=
  h.stateInvariant (show SendsInside (init context) from fun _ _ _ => nofun)
    (fun hi _ hs => hi.step (Step.of_step hs))

/-- The event is neither a call of `send_bytes` nor a `send` of one. -/
def Event.offWire : Event w β → Prop
  | .sendBytes _ _ => False
  | .send _ _ => False
  | _ => True

/-- **What a step does to the response being sent.** -/
inductive OnWire (s s' : ThreadsTcpBroWorker w β) : Action w β → List (Event w β) → Prop where
  /-- Nothing. -/
  | quiet {a : Action w β} {es : List (Event w β)} (hnone : ∀ e ∈ es, e.offWire)
      (hresponse : s'.writer.response = s.writer.response)
      (hrest : s'.writer.rest = s.writer.rest)
      (hexited : s'.writer.exited = false → s.writer.exited = false) : OnWire s s' a es
  /-- It is passed to `send_bytes`. -/
  | call {response : Buffer w β} (hpc : s.writer = .callSend response)
      (hpc' : s'.writer = inSendBytes s.mContext.mClientFd response (test response.size 0#w)) :
      OnWire s s' .writer [.sendBytes s.mContext.mClientFd response]
  /-- A `send` answers. -/
  | send {fd : ℤ} {response : Buffer w β} {total : BitVec w} {answer : IoResult}
      (hpc : s.writer = .send fd response total)
      (hanswer : answer.Allowed fd (response.size - total).toNat)
      (hpc' : s'.writer = inSendBytes fd response (sendBody response.size total answer)) :
      OnWire s s' (.send answer) [.send fd ⟨total.toNat, (response.size - total).toNat, answer⟩]

/-- A step that leaves the write thread where it is. -/
theorem OnWire.of_same (hwriter : s'.writer = s.writer) (hnone : ∀ e ∈ es, e.offWire) :
    OnWire s s' a es :=
  .quiet hnone (by rw [hwriter]) (by rw [hwriter]) (by rw [hwriter]; exact id)

/-- A step of the write thread elsewhere. -/
theorem OnWire.of_writer {pc : WritePc w β} (hpc : s.writer = pc) (hnone : ∀ e ∈ es, e.offWire)
    (hresponse : s'.writer.response = pc.response) (hrest : s'.writer.rest = pc.rest)
    (hexited : pc.exited = false ∨ s'.writer.exited = true) : OnWire s s' a es := by
  subst hpc
  refine .quiet hnone hresponse hrest fun hinside => hexited.resolve_right ?_
  rw [hinside]
  exact Bool.false_ne_true

theorem Step.onWire (h : Step s a s' es) (hd : DoWorkAgrees s) : OnWire s s' a es := by
  have hnone : ∀ e ∈ ([] : List (Event w β)), e.offWire := List.forall_mem_nil _
  cases h with
  | writeCallSend hpc => exact .call hpc rfl
  | writeSend hpc hanswer => exact .send hpc hanswer rfl
  | startSend hpc =>
    have hwriter : s.writer = .unstarted := hd.sendStarted.mp (by rw [hpc]; rfl)
    exact .of_writer hwriter hnone rfl rfl (.inl rfl)
  | writeLock hpc => rcases hpc with hpc | hpc <;> exact .of_writer hpc hnone rfl rfl (.inl rfl)
  | writeWake => exact .quiet hnone (response_notify _) (rest_notify _) (by simp)
  | readExitNotify => exact .quiet hnone (response_notify _) (rest_notify _) (by simp)
  | callBody => exact .of_same (assign_writer s _) (by simp [Event.offWire])
  | destroyOpen => exact .of_same rfl (by simp [Event.offWire])
  | readRecv => exact .of_same rfl (by simp [Event.offWire])
  | readExitClose => exact .of_same rfl (by simp [Event.offWire])
  | writeCopy hpc => exact .of_writer hpc (by simp [Event.offWire]) rfl rfl (.inl rfl)
  | writeExitClose hpc => exact .of_writer hpc (by simp [Event.offWire]) rfl rfl (.inr rfl)
  | _ =>
    first
    | exact .of_same rfl hnone
    | have hpc := ‹s.writer = _›
      exact .of_writer hpc hnone rfl rfl (.inl rfl)
    | have hpc := ‹s.writer = _›
      exact .of_writer hpc hnone rfl rfl (.inr rfl)

end Steps

end ThreadsTcpBroWorker

namespace BroServer

/-- **What has happened at the clients' ends**: the responses put in by the calls
of `send_bytes` and the bytes taken out by the clients, beside the response that
each worker has given to `send_bytes` last. -/
structure Wire (β : Type) where
  /-- The response of each connection. -/
  response : ℕ → List β
  /-- What has been put in and taken out. -/
  traffic : List (Pipes.Event ℕ β)

/-- One more event. A `send` is to whomever the socket belongs. -/
def Wire.event (t : Wire β) (e : Event w β) : Wire β :=
  match e.event, e.socket with
  | .sendBytes _ response, _ =>
    { response := Function.update t.response e.connection response.bytes
      traffic := t.traffic ++ [.put e.connection response.bytes] }
  | .send _ call, some d =>
    { t with traffic := t.traffic
        ++ [.take d (slice (t.response e.connection) call.offset call.result.transferred)] }
  | _, _ => t

/-- What the events of an engine are at the clients' ends. -/
def wire (es : List (Event w β)) : Wire β := es.foldl Wire.event ⟨fun _ => [], []⟩

/-- No `send` fails on a client's connection. -/
def SendsSucceed (s : BroServer w β) : Action w β → Prop
  | .worker c (.send (.error _)) =>
    (s.workers[c]?.bind fun worker => worker.writer.fd).bind s.sockets = none
  | _ => True

/-- The condition on a step: no number is given away while it is held, and no
`send` fails on a client's connection. -/
def Responding (s : BroServer w β) (a : Action w β) : Prop := s.FreshNumbers a ∧ s.SendsSucceed a

instance (s : BroServer w β) : DecidablePred s.SendsSucceed
  | .worker c (.send (.error _)) => inferInstanceAs (Decidable
      ((s.workers[c]?.bind fun worker => worker.writer.fd).bind s.sockets = none))
  | .worker _ (.send (.count _)) => isTrue trivial
  | .worker _ .doWork | .worker _ .reader | .worker _ (.recv _) | .worker _ .wakeReader
  | .worker _ .writer | .worker _ .wakeWriter | .worker _ (.invoke _ _ _)
  | .worker _ (.caller _) | .accept _ | .acceptFails => isTrue trivial

instance : DecidableRel (Responding : BroServer w β → Action w β → Prop) :=
  fun s a => inferInstanceAs (Decidable (s.FreshNumbers a ∧ s.SendsSucceed a))

theorem wire_append (es es' : List (Event w β)) :
    wire (es ++ es') = es'.foldl Wire.event (wire es) := List.foldl_append

/-- What an event puts into the pipe of `c` is the response that the worker of `c`
gives to `send_bytes` in it. -/
theorem given_event (t : Wire β) (c : ℕ) (e : Event w β) :
    Pipes.given c (t.event e).traffic = Pipes.given c t.traffic
      ++ (Mailbox.handed (ThreadsTcpBroWorker.mailboxHistory (eventsOf c [e]))).flatMap
        Buffer.bytes := by
  obtain ⟨d, socket, e⟩ := e
  have hevents : eventsOf c [⟨d, socket, e⟩] = if d = c then [e] else [] := by
    by_cases hdc : d = c <;> simp [eventsOf, Pool.eventsOf, Event.ofWorker, hdc]
  have hnothing (hmailbox : Mailbox.handed (ThreadsTcpBroWorker.mailboxHistory [e]) = []) :
      (Mailbox.handed (ThreadsTcpBroWorker.mailboxHistory (if d = c then [e] else []))).flatMap
        Buffer.bytes = [] := by
    split
    · rw [hmailbox]
      rfl
    · rfl
  rw [hevents]
  cases e with
  | sendBytes fd response =>
    show Pipes.given c (t.traffic ++ [.put d response.bytes]) = _
    rw [Pipes.given_append, Pipes.given_singleton]
    by_cases hdc : d = c <;> simp [Pipes.Event.given, ThreadsTcpBroWorker.mailboxHistory,
      ThreadsTcpBroWorker.Event.mailbox, Mailbox.handed, Mailbox.Event.handed?, hdc]
  | send fd call =>
    rw [hnothing rfl, List.append_nil]
    cases socket with
    | none => rfl
    | some x =>
      show Pipes.given c (t.traffic ++ [.take x _]) = _
      rw [Pipes.given_append, Pipes.given_singleton]
      exact List.append_nil _
  | called i call =>
    rw [hnothing (by cases call <;> rfl), List.append_nil]
    rfl
  | _ =>
    rw [hnothing rfl, List.append_nil]
    rfl

/-- What is put in for a client are the responses its worker has given to
`send_bytes`. -/
theorem given_wire (c : ℕ) (es : List (Event w β)) :
    Pipes.given c (wire es).traffic
      = (Mailbox.handed (ThreadsTcpBroWorker.mailboxHistory (eventsOf c es))).flatMap
        Buffer.bytes := by
  induction es using List.reverseRecOn with
  | nil => rfl
  | append_singleton es e ih =>
    rw [wire_append, List.foldl_cons, List.foldl_nil, given_event, ih, eventsOf_append,
      ThreadsTcpBroWorker.mailboxHistory, ThreadsTcpBroWorker.mailboxHistory,
      ThreadsTcpBroWorker.mailboxHistory, List.filterMap_append, Mailbox.handed, Mailbox.handed,
      Mailbox.handed, List.filterMap_append, List.flatMap_append]

/-- **What is on its way to the clients**, at a moment of a run. -/
structure Responds (t : Wire β) (pipes : ℕ → List β) (s : BroServer w β) : Prop where
  /-- The response being sent is the one last given to `send_bytes`. -/
  response : ∀ (c : ℕ) (worker : ThreadsTcpBroWorker w β), s.workers[c]? = some worker →
    ∀ response, worker.writer.response = some response → t.response c = response.bytes
  /-- What is in a client's pipe is the rest of it, until the worker gives up. -/
  rest : ∀ (c : ℕ) (worker : ThreadsTcpBroWorker w β), s.workers[c]? = some worker →
    worker.mContext.mClientFd ≠ INVALID_FD → worker.writer.exited = false →
    pipes c = worker.writer.rest
  /-- Who has not been accepted has nothing in its pipe. -/
  fresh : ∀ c, s.workers.length ≤ c → pipes c = []

section Service

variable {s s' : BroServer w β} {a : Action w β} {es es' : List (Event w β)}
variable {t : Wire β} {pipes : ℕ → List β}

theorem Responds.accept (hi : Responds t pipes s) (client_socket : ℤ) :
    Responds t pipes { s with
      sockets := Function.update s.sockets client_socket (some s.workers.length)
      workers := s.workers ++ [process (accepted .IPV4SocketContext client_socket)]
      mSocketContextQueue := s.mSocketContextQueue ++ [s.workers.length] } where
  response := Pool.forall_join hi.response nofun
  rest := Pool.forall_join hi.rest fun _ _ => hi.fresh _ (Nat.le_refl _)
  fresh := fun c hc => by
    rw [List.length_append] at hc
    exact hi.fresh c (Nat.le_of_add_right_le hc)

/-- A step of the worker of `c` that leaves the other clients' pipes alone. -/
theorem Responds.moves {t' : Wire β} {pipes' : ℕ → List β} (hi : Responds t pipes s) {c : ℕ}
    {worker worker' : ThreadsTcpBroWorker w β} {sockets : ℤ → Option ℕ}
    (hc : s.workers[c]? = some worker)
    (hresponses : ∀ d, d ≠ c → t'.response d = t.response d)
    (hpipes : ∀ d, d ≠ c → pipes' d = pipes d)
    (hresponse : ∀ response, worker'.writer.response = some response →
      t'.response c = response.bytes)
    (hrest : worker'.mContext.mClientFd ≠ INVALID_FD → worker'.writer.exited = false →
      pipes' c = worker'.writer.rest) :
    Responds t' pipes' { s with sockets := sockets, workers := s.workers.set c worker' } where
  response := Pool.forall_move (fun d target htarget hne response heq => by
    rw [hresponses d hne]
    exact hi.response d target htarget response heq) hresponse
  rest := Pool.forall_move (fun d target htarget hne hopen hinside => by
    rw [hpipes d hne]
    exact hi.rest d target htarget hopen hinside) hrest
  fresh := fun d hd => by
    rw [List.length_set] at hd
    have hne : d ≠ c := by
      rintro rfl
      exact absurd (List.getElem?_eq_some_iff.mp hc).1 (Nat.not_lt.mpr hd)
    rw [hpipes d hne]
    exact hi.fresh d hd

/-- Events that are not on the wire change nothing there. -/
theorem foldl_offWire {es : List (ThreadsTcpBroWorker.Event w β)} (hnone : ∀ e ∈ es, e.offWire)
    (c : ℕ) (socket : ThreadsTcpBroWorker.Event w β → Option ℕ) :
    (es.map fun e => (⟨c, socket e, e⟩ : Event w β)).foldl Wire.event t = t := by
  induction es with
  | nil => rfl
  | cons e es ih =>
    obtain ⟨he, hes⟩ := List.forall_mem_cons.mp hnone
    have hsame : t.event ⟨c, socket e, e⟩ = t := by
      cases e with
      | sendBytes => cases he
      | send => cases he
      | _ => rfl
    rw [List.map_cons, List.foldl_cons, hsame]
    exact ih hes

section Worker

variable {c : ℕ} {worker worker' : ThreadsTcpBroWorker w β}
variable {fd : ℤ} {response : Buffer w β} {sockets : ℤ → Option ℕ}

/-- A response is passed to `send_bytes`, where nothing is left of the one
before. -/
theorem Responds.call (hi : Responds t pipes s) (hc : s.workers[c]? = some worker)
    (hpc : worker.writer = .callSend response)
    (hpc' : worker'.writer = ThreadsTcpBroWorker.inSendBytes fd response (test response.size 0#w))
    (hopen : worker'.mContext.mClientFd ≠ INVALID_FD → worker.mContext.mClientFd ≠ INVALID_FD) :
    Responds ⟨Function.update t.response c response.bytes, t.traffic ++ [.put c response.bytes]⟩
      (Function.update pipes c (pipes c ++ response.bytes))
      { s with sockets := sockets, workers := s.workers.set c worker' } := by
  refine hi.moves hc (fun d hne => Function.update_of_ne hne _ _)
    (fun d hne => Function.update_of_ne hne _ _) (fun response' heq => ?_) fun hopen' _ => ?_
  · rw [hpc'] at heq
    rw [ThreadsTcpBroWorker.response_inSendBytes heq]
    exact Function.update_self ..
  · have hempty : pipes c = [] := by
      rw [hi.rest c worker hc (hopen hopen') (by rw [hpc]; rfl), hpc]
      rfl
    rw [Function.update_self, hempty, hpc', ThreadsTcpBroWorker.rest_inSendBytes_test]
    rfl

/-- A `send` accepts `n` bytes of a response: what is in the pipe begins with
them. -/
theorem Responds.send (hi : Responds t pipes s) (hc : s.workers[c]? = some worker)
    {total : BitVec w} {n : ℕ} (hpc : worker.writer = .send fd response total)
    (hopen : worker.mContext.mClientFd ≠ INVALID_FD) (hlt : total.toNat < response.bytes.length)
    (hwithin : (IoResult.count n).Within (response.size - total).toNat)
    (hpc' : worker'.writer = ThreadsTcpBroWorker.inSendBytes fd response
      (sendBody response.size total (.count n))) :
    pipes c = slice response.bytes total.toNat n ++ response.bytes.drop (total.toNat + n)
      ∧ Responds ⟨t.response, t.traffic ++ [.take c (slice response.bytes total.toNat n)]⟩
        (Function.update pipes c (response.bytes.drop (total.toNat + n)))
        { s with sockets := sockets, workers := s.workers.set c worker' } := by
  have hle : total.toNat + n ≤ response.size.toNat := by
    rw [IoResult.Within, IoResult.transferred, toNat_left (by simpa using hlt.le)] at hwithin
    rw [Buffer.toNat_size] at hwithin ⊢
    omega
  constructor
  · rw [hi.rest c worker hc hopen (by rw [hpc]; rfl), hpc, slice, ← List.drop_drop,
      List.take_append_drop]
    rfl
  refine hi.moves hc (fun _ _ => rfl) (fun d hne => Function.update_of_ne hne _ _)
    (fun response' heq => ?_) fun _ hloop => ?_
  · rw [hpc'] at heq
    rw [ThreadsTcpBroWorker.response_inSendBytes heq]
    exact hi.response c worker hc response (by rw [hpc]; rfl)
  · rw [Function.update_self, hpc']
    rcases Nat.eq_zero_or_pos n with rfl | hpos
    · -- the write thread gives up
      rw [hpc', sendBody_zero] at hloop
      cases hloop
    · rw [sendBody_count hpos hle, ThreadsTcpBroWorker.rest_inSendBytes_test, toNat_advance hle]

/-- **One step of a worker** is something the pipes can do. -/
theorem Responds.workerStep [DecidableEq β] {a : ThreadsTcpBroWorker.Action w β}
    {es : List (ThreadsTcpBroWorker.Event w β)} (hi : Responds t pipes s)
    (hown : OwnsItsSocket s) (haccounts : Accounts s)
    (hc : s.workers[c]? = some worker) (hstep : ThreadsTcpBroWorker.Step worker a worker' es)
    (hl : worker.LeavesInvalid) (hd : worker.DoWorkAgrees) (hholds : worker.HoldsClient)
    (hinside : worker.SendsInside) (hok : s.SendsSucceed (.worker c a)) :
    ∃ t' new pipes', (es.map fun e => (⟨c, e.fd.bind s.sockets, e⟩ : Event w β)).foldl
          Wire.event t = t'
      ∧ t'.traffic = t.traffic ++ new
      ∧ (Pipes.machine ℕ β).Run Machine.always pipes new pipes'
      ∧ Responds t' pipes' { s with sockets := sockets, workers := s.workers.set c worker' } := by
  have hstays : worker'.mContext.mClientFd ≠ INVALID_FD →
      worker.mContext.mClientFd ≠ INVALID_FD := fun hne =>
    (hstep.keeps_or_closes hl hd).elim (fun hkeeps => hkeeps.1 ▸ hne)
      fun hcloses => absurd hcloses.1 hne
  cases hstep.onWire hd with
  | quiet hnone hresponse hrest hexited =>
    refine ⟨t, [], pipes, foldl_offWire hnone _ _, (List.append_nil _).symm, .start, ?_⟩
    refine hi.moves hc (fun _ _ => rfl) (fun _ _ => rfl) (fun response heq => ?_)
      fun hopen hloop => ?_
    · exact hi.response c worker hc response (hresponse ▸ heq)
    · rw [hrest]
      exact hi.rest c worker hc (hstays hopen) (hexited hloop)
  | call hpc hpc' =>
    exact ⟨_, _, _, rfl, rfl, Pipes.run_put .., hi.call hc hpc hpc' hstays⟩
  | @send fd response total answer hpc hanswer hpc' =>
    have hfd : worker.writer.fd = some fd := by rw [hpc]; rfl
    have hresponse : t.response c = response.bytes :=
      hi.response c worker hc response (by rw [hpc]; rfl)
    simp only [List.map_cons, List.map_nil, List.foldl_cons, List.foldl_nil,
      ThreadsTcpBroWorker.Event.fd, Option.bind_some]
    cases hsocket : s.sockets fd with
    | none =>
      -- the connection has been closed, and nothing is to be said of what is left
      refine ⟨t, [], pipes, rfl, (List.append_nil _).symm, .start, ?_⟩
      refine hi.moves hc (fun _ _ => rfl) (fun _ _ => rfl) (fun response' heq => ?_)
        fun hopen _ => ?_
      · rw [hpc'] at heq
        rw [ThreadsTcpBroWorker.response_inSendBytes heq]
        exact hresponse
      · have hclient := haccounts.client c worker hc (hstays hopen)
        rw [← hholds (hstays hopen) fd (.inr hfd), hsocket] at hclient
        cases hclient
    | some d =>
      obtain rfl := hown.held c worker hc fd (.inr hfd) d hsocket
      obtain ⟨worker, hc', hclient⟩ := haccounts.owner fd d hsocket
      obtain rfl := Option.some.inj (hc.symm.trans hc')
      have hopen : worker.mContext.mClientFd ≠ INVALID_FD := fun hinvalid => by
        rw [← hclient, hinvalid, haccounts.invalid] at hsocket
        cases hsocket
      cases answer with
      | error e =>
        have hnone : (s.workers[d]?.bind fun worker => worker.writer.fd).bind s.sockets = none :=
          hok
        rw [hc, Option.bind_some, hfd, Option.bind_some, hsocket] at hnone
        cases hnone
      | count n =>
        obtain ⟨hfront, hresponds⟩ :=
          hi.send hc hpc hopen (hinside fd response total hpc) hanswer.1 hpc'
        refine ⟨_, _, _, ?_, rfl, Pipes.run_take hfront, hresponds⟩
        rw [← hresponse]
        rfl

end Worker

/-! ## The refinement -/

/-- **The clients are sent whole responses**, one after the other and each from its
start, in every run of `ThreadsTcpBroServer` in which no number is given away while
it is held and no `send` fails on a client's connection. What happens at the
clients' ends is what happens at the ends of a pipe for each, into which its worker
has put the responses given to `send_bytes`; and what is in the pipe is the rest of
the last of them, until the worker gives up or has closed. -/
theorem responses_refine_pipes [DecidableEq β]
    (h : (ThreadsTcpBroServer.machine w β).Run Responding init es s) :
    ∃ pipes, (Pipes.machine ℕ β).Run Machine.always Pipes.empty (wire es).traffic pipes
      ∧ (∀ c, Pipes.given c (wire es).traffic
        = (Mailbox.handed (ThreadsTcpBroWorker.mailboxHistory (eventsOf c es))).flatMap
          Buffer.bytes)
      ∧ ∀ (c : ℕ) (worker : ThreadsTcpBroWorker w β), s.workers[c]? = some worker →
        worker.mContext.mClientFd ≠ INVALID_FD → worker.writer.exited = false →
        pipes c = worker.writer.rest := by
  have hresponds : ∃ pipes, (Pipes.machine ℕ β).Run Machine.always Pipes.empty
      (wire es).traffic pipes ∧ Responds (wire es) pipes s := by
    refine h.invariant (I := fun es s => ∃ pipes, (Pipes.machine ℕ β).Run Machine.always
      Pipes.empty (wire es).traffic pipes ∧ Responds (wire es) pipes s)
      ⟨Pipes.empty, .start, by simp [init], by simp [init], fun _ _ => rfl⟩ ?_
    rintro es s a s' es' hrun ⟨pipes, hpipes, hi⟩ hok hs
    rw [wire_append]
    cases Step.of_step hs with
    | accept => exact ⟨pipes, hpipes, hi.accept _⟩
    | acceptFails => exact ⟨pipes, hpipes, hi.response, hi.rest, hi.fresh⟩
    | worker hc hstep =>
      obtain ⟨hl, hd, hholds⟩ := workers_of_run hrun hc
      obtain ⟨_, ⟨_, _, rfl⟩, hworker⟩ := (workersRun_of_run hrun).run _ _ hc
      obtain ⟨t', new, pipes', hfold, htraffic, hnew, hi'⟩ := hi.workerStep
        (ownsItsSocket_of_run (hrun.mono fun _ _ hok => hok.1)) (accounts_of_run hrun) hc
        (ThreadsTcpBroWorker.Step.of_step hstep) hl hd hholds
        (ThreadsTcpBroWorker.sendsInside_of_run hworker) hok.2
      rw [hfold, htraffic]
      exact ⟨pipes', hpipes.trans hnew, hi'⟩
  obtain ⟨pipes, hpipes, hi⟩ := hresponds
  exact ⟨pipes, hpipes, fun c => given_wire c es, hi.rest⟩

end Service

open ThreadsTcpBroWorker (times)

/-- A response is published, and the write thread of `c` comes to its first
`send`. -/
def comesToSend (c : ℕ) (response : Buffer 64 ℕ) : List (Action 64 ℕ) :=
  ofWorker c (times 4 .doWork
    ++ .invoke 0 (.storeResponse response) [.enableWriteEvent] :: times 6 (.caller 0)
    ++ times 10 .writer)

/-- Two clients, on 5 and 6, each with a response of two bytes. The first is sent
one byte, then the second both of its own, then the first the other. -/
def bothAreSent : List (Action 64 ℕ) :=
  [.accept 5, .accept 6] ++ comesToSend 0 ⟨[11, 12], by decide⟩
    ++ .worker 0 (.send (.count 1)) :: comesToSend 1 ⟨[21, 22], by decide⟩
    ++ [.worker 1 (.send (.count 2)), .worker 0 (.send (.count 1))]

theorem responses_refine_pipes_bothAreSent :
    ∃ es s pipes, (ThreadsTcpBroServer.machine 64 ℕ).Run Responding init es s
      ∧ Pipes.taken 0 (wire es).traffic = [11, 12] ∧ Pipes.taken 1 (wire es).traffic = [21, 22]
      ∧ (Pipes.machine ℕ ℕ).Run Machine.always Pipes.empty (wire es).traffic pipes := by
  obtain ⟨es, s, hrun, hfirst, hsecond⟩ : ∃ es s,
      (ThreadsTcpBroServer.machine 64 ℕ).Run Responding init es s
        ∧ Pipes.taken 0 (wire es).traffic = [11, 12]
        ∧ Pipes.taken 1 (wire es).traffic = [21, 22] := by
    refine Machine.Run.exists_of_exec bothAreSent ?_
    decide +kernel
  obtain ⟨pipes, hpipes, -⟩ := responses_refine_pipes hrun
  exact ⟨es, s, pipes, hrun, hfirst, hsecond, hpipes⟩

end BroServer
