import EpochReplication.ConnectionInvariant

set_option autoImplicit false

namespace EpochReplication

-- A client's connection as bytes: TCP keeps their order, and recv(2) returns any
-- non-empty part of what has arrived, or 0 at the end of a closed stream. `sent`,
-- `decoded` and `handed` are history: the requests written, those decoded, each
-- with the number of bytes recv had returned, and those given to request_read_tx
-- or request_write_tx.
structure RequestStream where
  conn : Connection
  waiting : Bool
  closed : Bool
  stream : List UInt8
  sent : List WireTx
  decoded : List (WireTx × Nat)
  handed : List WireTx

-- The steps of the client, of recv and of client_thread with the flag and the
-- packets it finds. `touch` is what the schedulers do to the transaction:
-- wait_for_exe may still point to it from an earlier write, but it enters
-- read_tx_buffer only when it is handed over.
inductive StreamAct where
  | send (tx : Tx) (msg : Buf)
  | response
  | close
  | recv (n : Nat)
  | thread (systemFinishRequest : Int) (net : List Packet) (act : ClientInterface.Act)
  | touch (act : TxAct)

def requestBytes (tx : Tx) (msg : Buf) : List UInt8 :=
  (List.range (createRequestTxMsg tx msg).2).map (createRequestTxMsg tx msg).1

def ClientThread.unhanded (t : ClientThread) : List WireTx :=
  if t.pc = .reading ∨ t.pc = .registering then [t.tx.wire] else []

def ClientThread.hands (t : ClientThread) : ClientInterface.Act → List WireTx
  | .requestRead | .requestWrite _ _ => [t.tx.wire]
  | _ => []

namespace RequestStream

def received (s : RequestStream) (n : Nat) : Connection :=
  { s.conn with toServer := s.conn.toServer.add (fun i => s.stream.getD i 0, n) }

-- A message that is not a REQUEST_TX takes the thread back to its loop.
def recv (r c : Nat) (s : RequestStream) (n : Nat) : Option RequestStream :=
  (ClientInterface.clientThread 0 [] r c (s.received n) .receive).map (fun (conn, _) =>
    { s with
      conn := conn
      stream := s.stream.drop n
      decoded := if conn.thread.pc = .loop then s.decoded else s.decoded ++ [(conn.thread.tx.wire, n)] })

def step (r c : Nat) (s : RequestStream) : StreamAct → Option RequestStream
  | .send tx msg =>
      if s.waiting ∨ s.closed then none
      else some { s with waiting := true, stream := s.stream ++ requestBytes tx msg, sent := s.sent ++ [tx.wire] }
  | .response =>
      if s.waiting then
        s.conn.toClient.tryTake.map (fun taken =>
          { s with conn := { s.conn with toClient := taken.2 }, waiting := false })
      else none
  | .close => some { s with closed := true }
  | .recv n =>
      if (0 < n ∧ n ≤ s.stream.length ∧ n ≤ bufsiz) ∨ (n = 0 ∧ s.stream = [] ∧ s.closed) then s.recv r c n else none
  | .thread _ _ .receive => none
  | .thread systemFinishRequest net act =>
      (ClientInterface.clientThread systemFinishRequest net r c s.conn act).map (fun (conn, _) =>
        { s with conn := conn, handed := s.handed ++ s.conn.thread.hands act })
  | .touch (.value value) =>
      if s.conn.thread.unhanded = [] then
        some { s with conn := { s.conn with thread := waitForTx s.conn.thread (.value value) } }
      else none
  | .touch act => some { s with conn := { s.conn with thread := waitForTx s.conn.thread act } }

def initial (p : Deployment) (r c : Nat) : RequestStream := ⟨(Intake.initial p).conn (r, c), false, false, [], [], [], []⟩

end RequestStream

def requestStream (p : Deployment) (r c : Nat) : Machine RequestStream StreamAct := ⟨.initial p r c, RequestStream.step r c⟩

-- The types of the requests that client_thread hands over. A FINISH_REQUEST ends
-- its loop instead, and no client sends any other.
def WireTx.HandedOver (tx : WireTx) : Prop := tx.type = .readOnly ∨ tx.type = .writeOnly

instance (tx : WireTx) : Decidable tx.HandedOver := inferInstanceAs (Decidable (_ ∨ _))

def RequestStream.wires (s : RequestStream) : List WireTx := s.decoded.map Prod.fst

structure DecodesStream (s : RequestStream) : Prop where
  whole : ∀ d ∈ s.decoded, requestTxMessageSize ≤ d.2
  order : s.wires <+: s.sent
  complete : s.stream = [] → s.wires = s.sent
  handed : s.handed ++ s.conn.thread.unhanded = s.wires.filter (fun tx => tx.HandedOver)

-- recv returns one whole message; or 0, on a connection on which nothing was ever
-- sent and whose recv_msg does not begin like a request by accident.
def ReceivesWhole (p : Deployment) (x : RequestStream × StreamAct) : Prop :=
  ∀ n, x.2 = .recv n → n = requestTxMessageSize ∨
    (n = 0 ∧ x.1.sent = [] ∧ checkMsg p.uninitialised .requestTxMessage = false)

inductive RecvStep (s : RequestStream) (n : Nat) : RequestStream → Prop where
  | decode (recvMsg : Buf) (rest : Fifo (Buf × Nat)) (tx : Tx) (pc : s.conn.thread.pc = .receiving) (taken : rest.pending = [])
      (filled : recvMsg = receiveMsg s.conn.thread.recvMsg (fun i => s.stream.getD i 0) n)
      (request : checkMsg recvMsg .requestTxMessage = true) (decoded : tx = getInfoFromRequestTxMsg recvMsg initTx) :
      RecvStep s n
        { s with
          conn := { s.conn with
            toServer := rest
            thread := { s.conn.thread with
              pc := ClientInterface.afterRequest tx.type, tx := tx, recvMsg := recvMsg, raised := [] } }
          stream := s.stream.drop n
          decoded := s.decoded ++ [(tx.wire, n)] }
  | ignore (recvMsg : Buf) (rest : Fifo (Buf × Nat)) (pc : s.conn.thread.pc = .receiving) (taken : rest.pending = [])
      (filled : recvMsg = receiveMsg s.conn.thread.recvMsg (fun i => s.stream.getD i 0) n)
      (other : checkMsg recvMsg .requestTxMessage = false) :
      RecvStep s n
        { s with
          conn := { s.conn with toServer := rest, thread := { s.conn.thread with pc := .loop, recvMsg := recvMsg } }
          stream := s.stream.drop n }

theorem after_request_busy (type : TransactionType) :
    ClientInterface.afterRequest type ≠ .loop ∧ ClientInterface.afterRequest type ≠ .receiving := by
  cases type <;> simp [ClientInterface.afterRequest]

theorem recv_step_of_some (r c : Nat) (s t : RequestStream) (n : Nat) (empty : s.conn.toServer.pending = [])
    (done : s.recv r c n = some t) : RecvStep s n t := by
  obtain ⟨⟨conn, sent⟩, moved, rfl⟩ := Option.map_eq_some_iff.mp done
  have arrived : (s.received n).toServer.pending = [(fun i => s.stream.getD i 0, n)] := by
    simp [RequestStream.received, empty]
  cases thread_step_of_some 0 [] sent r c (s.received n) conn .receive moved with
  | receive data recvMsg len rest tx pc took filled request decoded =>
      obtain ⟨same, taken⟩ := List.cons.inj ((Fifo.try_take_pending _ rest _ took).symm.trans arrived)
      cases same
      simp only [if_neg (after_request_busy tx.type).1]
      exact .decode recvMsg rest tx pc taken filled request decoded
  | ignore data recvMsg len rest pc took filled other =>
      obtain ⟨same, taken⟩ := List.cons.inj ((Fifo.try_take_pending _ rest _ took).symm.trans arrived)
      cases same
      simp only [if_true]
      exact .ignore recvMsg rest pc taken filled other

inductive StreamStep (r c : Nat) (s : RequestStream) : StreamAct → RequestStream → Prop where
  | send (tx : Tx) (msg : Buf) (free : s.waiting = false) :
      StreamStep r c s (.send tx msg)
        { s with waiting := true, stream := s.stream ++ requestBytes tx msg, sent := s.sent ++ [tx.wire] }
  | response (message : Buf × Nat) (rest : Fifo (Buf × Nat)) (waiting : s.waiting = true)
      (took : s.conn.toClient.tryTake = some (message, rest)) :
      StreamStep r c s .response { s with conn := { s.conn with toClient := rest }, waiting := false }
  | close : StreamStep r c s .close { s with closed := true }
  | recv (n : Nat) (t : RequestStream) (inside : n ≤ s.stream.length) (ends : n = 0 → s.stream = [])
      (received : s.recv r c n = some t) : StreamStep r c s (.recv n) t
  | thread (systemFinishRequest : Int) (net sent : List Packet) (act : ClientInterface.Act) (conn : Connection)
      (other : act ≠ .receive) (moved : ThreadStep systemFinishRequest net r c s.conn act conn sent) :
      StreamStep r c s (.thread systemFinishRequest net act)
        { s with conn := conn, handed := s.handed ++ s.conn.thread.hands act }
  | touch (act : TxAct) (kept : (waitForTx s.conn.thread act).unhanded = s.conn.thread.unhanded) :
      StreamStep r c s (.touch act) { s with conn := { s.conn with thread := waitForTx s.conn.thread act } }

theorem stream_step_of_some (r c : Nat) (s t : RequestStream) (act : StreamAct)
    (done : RequestStream.step r c s act = some t) : StreamStep r c s act t := by
  cases act with
  | send tx msg =>
      simp only [RequestStream.step] at done
      split at done
      · cases done
      · rename_i free
        cases done
        exact .send tx msg (by simpa using (not_or.mp free).1)
  | response =>
      simp only [RequestStream.step] at done
      split at done
      · rename_i waiting
        obtain ⟨⟨message, rest⟩, took, rfl⟩ := Option.map_eq_some_iff.mp done
        exact .response message rest waiting took
      · cases done
  | close =>
      cases done
      exact .close
  | recv n =>
      simp only [RequestStream.step] at done
      split at done
      · rename_i arrived
        rcases arrived with ⟨positive, inside, _⟩ | ⟨rfl, ended, _⟩
        · exact .recv n t inside (by omega) done
        · exact .recv 0 t (Nat.zero_le _) (fun _ => ended) done
      · cases done
  | thread systemFinishRequest net act =>
      have other : act ≠ .receive := by
        rintro rfl
        cases done
      simp only [RequestStream.step] at done
      obtain ⟨⟨conn, sent⟩, moved, rfl⟩ := Option.map_eq_some_iff.mp done
      exact .thread systemFinishRequest net sent act conn other (thread_step_of_some _ _ _ _ _ _ _ _ moved)
  | touch act =>
      cases act with
      | value value =>
          simp only [RequestStream.step] at done
          split at done
          · rename_i handed
            cases done
            refine .touch _ ?_
            have neither : ¬ (s.conn.thread.pc = .reading ∨ s.conn.thread.pc = .registering) := by
              intro calling
              simp [ClientThread.unhanded, calling] at handed
            exact (if_neg neither).trans handed.symm
          · cases done
      | assign epochId =>
          cases done
          exact .touch _ rfl
      | raise position =>
          cases done
          exact .touch _ rfl

theorem thread_hands (systemFinishRequest : Int) (net sent : List Packet) (r c : Nat) (conn next : Connection)
    (act : ClientInterface.Act) (other : act ≠ .receive) (step : ThreadStep systemFinishRequest net r c conn act next sent) :
    conn.thread.hands act ++ next.thread.unhanded = conn.thread.unhanded := by
  cases step with
  | receive | ignore => exact absurd rfl other
  | poll i overtime ackMsg pc | pollNothing overtime pc =>
      cases overtime <;> simp [ClientThread.hands, ClientThread.unhanded, ClientInterface.afterPoll, pc]
  | enter pc | leave pc | requestRead pc | requestWrite _ _ pc | giveUp pc | send pc | check pc | checkFinish pc | spin pc
  | acknowledge _ _ _ _ pc | complete pc | abandon pc | respond pc =>
      simp [ClientThread.hands, ClientThread.unhanded, pc]

theorem thread_keeps_msg (systemFinishRequest : Int) (net sent : List Packet) (r c : Nat) (conn next : Connection)
    (act : ClientInterface.Act) (other : act ≠ .receive) (step : ThreadStep systemFinishRequest net r c conn act next sent) :
    next.toServer = conn.toServer ∧ next.thread.recvMsg = conn.thread.recvMsg := by
  cases step with
  | receive | ignore => exact absurd rfl other
  | _ => exact ⟨rfl, rfl⟩

inductive ThreadTurn (conn next : Connection) : Prop where
  | between (pc : conn.thread.pc = .loop) (idle : next.thread.pc.idle = true) (down : next.toClient = conn.toClient) :
      ThreadTurn conn next
  | serving (pc : conn.thread.pc.idle = false) (busy : next.thread.pc ≠ .loop ∧ next.thread.pc ≠ .receiving)
      (down : next.toClient = conn.toClient) : ThreadTurn conn next
  | responds (message : Buf × Nat) (pc : conn.thread.pc.idle = false) (idle : next.thread.pc.idle = true)
      (down : next.toClient = conn.toClient.add message) : ThreadTurn conn next

theorem thread_turn (systemFinishRequest : Int) (net sent : List Packet) (r c : Nat) (conn next : Connection)
    (act : ClientInterface.Act) (other : act ≠ .receive) (step : ThreadStep systemFinishRequest net r c conn act next sent) :
    ThreadTurn conn next := by
  cases step with
  | receive | ignore => exact absurd rfl other
  | enter pc | leave pc => exact .between pc rfl rfl
  | poll i overtime ackMsg pc | pollNothing overtime pc =>
      exact .serving (by rw [pc]; rfl) (by cases overtime <;> simp [ClientInterface.afterPoll]) rfl
  | requestRead pc | requestWrite _ _ pc | giveUp pc | send pc | check pc | checkFinish pc | acknowledge _ _ _ _ pc
  | complete pc | abandon pc => exact .serving (by rw [pc]; rfl) (by simp) rfl
  | spin pc => exact .serving (by rw [pc]; rfl) (by simp [pc]) rfl
  | respond pc => exact .responds _ (by rw [pc]; rfl) rfl rfl

inductive Phase (s : RequestStream) : Prop where
  | ready (waiting : s.waiting = false) (stream : s.stream = []) (down : s.conn.toClient.pending = [])
      (idle : s.conn.thread.pc.idle = true) (all : s.wires = s.sent) : Phase s
  | arriving (tx : Tx) (msg : Buf) (waiting : s.waiting = true) (stream : s.stream = requestBytes tx msg)
      (down : s.conn.toClient.pending = []) (idle : s.conn.thread.pc.idle = true) (last : s.wires ++ [tx.wire] = s.sent) :
      Phase s
  | serving (waiting : s.waiting = true) (stream : s.stream = []) (down : s.conn.toClient.pending = [])
      (busy : s.conn.thread.pc ≠ .loop ∧ s.conn.thread.pc ≠ .receiving) (all : s.wires = s.sent) : Phase s
  | answered (message : Buf × Nat) (waiting : s.waiting = true) (stream : s.stream = [])
      (down : s.conn.toClient.pending = [message]) (idle : s.conn.thread.pc.idle = true) (all : s.wires = s.sent) : Phase s

structure StreamInv (p : Deployment) (s : RequestStream) : Prop where
  phase : Phase s
  empty : s.conn.toServer.pending = []
  untouched : s.decoded = [] →
    checkMsg s.conn.thread.recvMsg .requestTxMessage = checkMsg p.uninitialised .requestTxMessage
  stale : s.decoded ≠ [] → checkMsg s.conn.thread.recvMsg .requestTxMessage = true
  whole : ∀ d ∈ s.decoded, requestTxMessageSize ≤ d.2
  handed : s.handed ++ s.conn.thread.unhanded = s.wires.filter (fun tx => tx.HandedOver)

theorem request_bytes_length (tx : Tx) (msg : Buf) : (requestBytes tx msg).length = requestTxMessageSize := by
  simp [requestBytes, createRequestTxMsg]

theorem phase_drained (s : RequestStream) (phase : Phase s) (drained : s.stream = []) : s.wires = s.sent := by
  cases phase with
  | ready _ _ _ _ all | serving _ _ _ _ all | answered _ _ _ _ _ all => exact all
  | arriving tx msg _ stream =>
      have length := request_bytes_length tx msg
      rw [← stream, drained] at length
      cases length

theorem decodes_of_inv (p : Deployment) (s : RequestStream) (inv : StreamInv p s) : DecodesStream s := by
  refine ⟨inv.whole, ?_, phase_drained s inv.phase, inv.handed⟩
  cases inv.phase with
  | ready _ _ _ _ all | serving _ _ _ _ all | answered _ _ _ _ _ all => exact all ▸ List.prefix_rfl
  | arriving tx _ _ _ _ _ last => exact ⟨[tx.wire], last⟩

theorem phase_keeps (s t : RequestStream) (phase : Phase s) (waiting : t.waiting = s.waiting) (stream : t.stream = s.stream)
    (sent : t.sent = s.sent) (wires : t.wires = s.wires) (down : t.conn.toClient.pending = s.conn.toClient.pending)
    (pc : t.conn.thread.pc = s.conn.thread.pc ∨
      (s.conn.thread.pc = .loop ∨ s.conn.thread.pc = .receiving) ∧ t.conn.thread.pc.idle = true) : Phase t := by
  have rests : s.conn.thread.pc.idle = true → t.conn.thread.pc.idle = true := by
    intro idle
    rcases pc with same | ⟨_, after⟩
    · rw [same]
      exact idle
    · exact after
  cases phase with
  | ready free empty none idle all =>
      exact .ready (waiting.trans free) (stream.trans empty) (down.trans none) (rests idle) (by rw [wires, sent]; exact all)
  | arriving tx msg waits bytes none idle last =>
      exact .arriving tx msg (waiting.trans waits) (stream.trans bytes) (down.trans none) (rests idle)
        (by rw [wires, sent]; exact last)
  | serving waits empty none busy all =>
      have same : t.conn.thread.pc = s.conn.thread.pc := by
        rcases pc with same | ⟨loop | receiving, _⟩
        · exact same
        · exact absurd loop busy.1
        · exact absurd receiving busy.2
      exact .serving (waiting.trans waits) (stream.trans empty) (down.trans none) (by rw [same]; exact busy)
        (by rw [wires, sent]; exact all)
  | answered message waits empty one idle all =>
      exact .answered message (waiting.trans waits) (stream.trans empty) (down.trans one) (rests idle)
        (by rw [wires, sent]; exact all)

theorem thread_phase (s : RequestStream) (conn : Connection) (handed : List WireTx) (phase : Phase s)
    (turn : ThreadTurn s.conn conn) : Phase { s with conn := conn, handed := handed } := by
  cases turn with
  | between pc idle down => exact phase_keeps s _ phase rfl rfl rfl rfl (by rw [down]) (.inr ⟨.inl pc, idle⟩)
  | serving pc busy down =>
      cases phase with
      | serving waiting stream empty _ all => exact .serving waiting stream (by rw [down]; exact empty) busy all
      | ready _ _ _ idle | arriving _ _ _ _ _ idle | answered _ _ _ _ idle => simp [idle] at pc
  | responds message pc idle down =>
      cases phase with
      | serving waiting stream empty _ all => exact .answered message waiting stream (by simp [down, empty]) idle all
      | ready _ _ _ idle | arriving _ _ _ _ _ idle | answered _ _ _ _ idle => simp [idle] at pc

theorem receive_nothing (msg data : Buf) : receiveMsg msg data 0 = msg := by
  funext i
  exact memcpy_outside msg data 0 0 i (by omega)

theorem request_bytes_received (tx : Tx) (buf msg : Buf) (n : Nat) (inside : n ≤ requestTxMessageSize) :
    Agree n (receiveMsg msg (fun i => (requestBytes tx buf).getD i 0) n) (createRequestTxMsg tx buf).1 := by
  have fits : n ≤ bufsiz := Nat.le_trans inside (by decide)
  intro i bound
  rw [receive_msg_agree msg _ n fits i bound]
  have within : i < (List.range (createRequestTxMsg tx buf).2).length := by
    rw [List.length_range]
    exact Nat.lt_of_lt_of_le bound inside
  simp [requestBytes, List.getD_eq_getElem?_getD, List.getElem?_eq_getElem within]

theorem stream_short (s : RequestStream) (phase : Phase s) : s.stream.length ≤ requestTxMessageSize := by
  cases phase with
  | ready _ stream | serving _ stream | answered _ _ stream => simp [stream]
  | arriving tx msg _ stream => exact Nat.le_of_eq ((congrArg List.length stream).trans (request_bytes_length tx msg))

theorem part_is_request (s : RequestStream) (msg : Buf) (n : Nat) (phase : Phase s) (positive : 0 < n)
    (inside : n ≤ s.stream.length) :
    checkMsg (receiveMsg msg (fun i => s.stream.getD i 0) n) .requestTxMessage = true := by
  cases phase with
  | ready _ stream | serving _ stream | answered _ _ stream =>
      rw [stream, List.length_nil] at inside
      omega
  | arriving tx buf _ stream =>
      rw [stream, request_bytes_length] at inside
      rw [stream, check_msg_agree n _ _ _ (request_bytes_received tx buf msg n inside) positive]
      exact request_tx_check tx buf

theorem nothing_decoded (s : RequestStream) (wires : s.wires = []) : s.decoded = [] := List.map_eq_nil_iff.mp wires

theorem recv_whole_or_broken (p : Deployment) (s t : RequestStream) (n : Nat) (inv : StreamInv p s)
    (inside : n ≤ s.stream.length) (ends : n = 0 → s.stream = []) (received : RecvStep s n t) :
    ReceivesWhole p (s, .recv n) ∨ ∃ d ∈ t.decoded, d.2 < requestTxMessageSize := by
  have short := stream_short s inv.phase
  rcases Nat.eq_or_lt_of_le (Nat.le_trans inside short) with whole | part
  · refine .inl ?_
    intro m same
    cases same
    exact .inl whole
  · cases received with
    | decode recvMsg rest tx => exact .inr ⟨(tx.wire, n), by simp, part⟩
    | ignore recvMsg rest pc taken filled other =>
        refine .inl ?_
        intro m same
        cases same
        rcases Nat.eq_zero_or_pos n with rfl | positive
        · rw [filled, receive_nothing] at other
          have none : s.decoded = [] := by
            by_contra some
            rw [inv.stale some] at other
            cases other
          have all := phase_drained s inv.phase (ends rfl)
          exact .inr ⟨rfl, by rw [← all, RequestStream.wires, none]; rfl, by rw [← inv.untouched none]; exact other⟩
        · rw [filled, part_is_request s _ n inv.phase positive inside] at other
          cases other

theorem unhanded_after_request (t : ClientThread) (tx : Tx) (recvMsg : Buf) :
    ClientThread.unhanded
        { t with pc := ClientInterface.afterRequest tx.type, tx := tx, recvMsg := recvMsg, raised := [] } =
      [tx.wire].filter (fun tx => tx.HandedOver) := by
  cases type : tx.type <;>
    simp [ClientThread.unhanded, ClientInterface.afterRequest, WireTx.HandedOver, Tx.wire, type]

theorem receiving_unhanded (t : ClientThread) (pc : t.pc = .receiving) : t.unhanded = [] := by
  simp [ClientThread.unhanded, pc]

theorem recv_request_inv (p : Deployment) (s t : RequestStream) (inv : StreamInv p s)
    (inside : requestTxMessageSize ≤ s.stream.length) (received : RecvStep s requestTxMessageSize t) : StreamInv p t := by
  cases inv.phase with
  | ready _ stream | serving _ stream | answered _ _ stream =>
      rw [stream] at inside
      cases inside
  | arriving tx buf waiting stream down idle last =>
      have agree := request_bytes_received tx buf s.conn.thread.recvMsg requestTxMessageSize (Nat.le_refl _)
      rw [← stream] at agree
      obtain ⟨type, wire⟩ := request_tx_agree tx buf _ initTx agree
      cases received with
      | ignore recvMsg rest pc taken filled other =>
          rw [filled, type] at other
          cases other
      | decode recvMsg rest tx' pc taken filled request decoded =>
          rw [← filled, ← decoded] at wire
          have length := request_bytes_length tx buf
          rw [← stream] at length
          refine ⟨.serving waiting ?_ down (after_request_busy tx'.type) ?_, taken, by simp, fun _ => request, ?_, ?_⟩
          · exact List.drop_eq_nil_of_le (Nat.le_of_eq length)
          · simp only [RequestStream.wires, List.map_append, List.map_cons, List.map_nil, wire]
            exact last
          · intro d member
            rcases List.mem_append.mp member with earlier | here
            · exact inv.whole d earlier
            · cases List.mem_singleton.mp here
              exact Nat.le_refl _
          · have before := inv.handed
            rw [receiving_unhanded s.conn.thread pc, List.append_nil] at before
            simp only [unhanded_after_request, before, RequestStream.wires, List.map_append, List.filter_append]
            rfl

theorem recv_nothing_inv (p : Deployment) (s t : RequestStream) (inv : StreamInv p s) (drained : s.stream = [])
    (unsent : s.sent = []) (other : checkMsg p.uninitialised .requestTxMessage = false) (received : RecvStep s 0 t) :
    StreamInv p t := by
  have none := nothing_decoded s ((phase_drained s inv.phase drained).trans unsent)
  cases received with
  | decode recvMsg rest tx pc taken filled request =>
      rw [filled, receive_nothing, inv.untouched none, other] at request
      cases request
  | ignore recvMsg rest pc taken filled =>
      have same := filled.trans (receive_nothing _ _)
      refine ⟨?_, taken, ?_, fun some => absurd none some, inv.whole, ?_⟩
      · exact phase_keeps s _ inv.phase rfl rfl rfl rfl rfl (.inr ⟨.inr pc, rfl⟩)
      · rw [same]
        exact inv.untouched
      · have before := inv.handed
        rw [receiving_unhanded s.conn.thread pc] at before
        exact before

theorem stream_inv_step (p : Deployment) (r c : Nat) (s t : RequestStream) (act : StreamAct) (inv : StreamInv p s)
    (whole : ReceivesWhole p (s, act)) (step : StreamStep r c s act t) : StreamInv p t := by
  cases step with
  | send tx msg free =>
      refine ⟨?_, inv.empty, inv.untouched, inv.stale, inv.whole, inv.handed⟩
      cases inv.phase with
      | ready _ stream down idle all =>
          exact .arriving tx msg rfl (by simp [stream]) down idle (congrArg (fun wires => wires ++ [tx.wire]) all)
      | arriving _ _ waiting | serving waiting | answered _ waiting => simp [free] at waiting
  | response message rest waiting took =>
      refine ⟨?_, inv.empty, inv.untouched, inv.stale, inv.whole, inv.handed⟩
      have before := Fifo.try_take_pending _ rest message took
      cases inv.phase with
      | answered _ _ stream one idle all =>
          rw [one] at before
          exact .ready rfl stream (List.cons.inj before).2.symm idle all
      | ready _ _ down | arriving _ _ _ _ down | serving _ _ down => simp [down] at before
  | close =>
      exact ⟨phase_keeps s _ inv.phase rfl rfl rfl rfl rfl (.inl rfl), inv.empty, inv.untouched, inv.stale, inv.whole, inv.handed⟩
  | recv n t inside ends received =>
      have received := recv_step_of_some r c s t n inv.empty received
      rcases whole n rfl with rfl | ⟨rfl, unsent, other⟩
      · exact recv_request_inv p s t inv inside received
      · exact recv_nothing_inv p s t inv (ends rfl) unsent other received
  | thread systemFinishRequest net sent act conn other moved =>
      obtain ⟨up, msg⟩ := thread_keeps_msg systemFinishRequest net sent r c s.conn conn act other moved
      refine ⟨thread_phase s conn _ inv.phase (thread_turn systemFinishRequest net sent r c s.conn conn act other moved),
        by rw [up]; exact inv.empty, by rw [msg]; exact inv.untouched, by rw [msg]; exact inv.stale, inv.whole, ?_⟩
      rw [List.append_assoc, thread_hands systemFinishRequest net sent r c s.conn conn act other moved]
      exact inv.handed
  | touch act kept =>
      have pc : (waitForTx s.conn.thread act).pc = s.conn.thread.pc := by cases act <;> rfl
      have msg : (waitForTx s.conn.thread act).recvMsg = s.conn.thread.recvMsg := by cases act <;> rfl
      exact ⟨phase_keeps s _ inv.phase rfl rfl rfl rfl rfl (.inl pc), inv.empty, by rw [msg]; exact inv.untouched,
        by rw [msg]; exact inv.stale, inv.whole, by rw [kept]; exact inv.handed⟩

theorem stream_inv (p : Deployment) (r c : Nat) (run : List (RequestStream × StreamAct)) (s : RequestStream)
    (trace : (requestStream p r c).Trace run s) (whole : ∀ x ∈ run, ReceivesWhole p x) : StreamInv p s := by
  induction trace with
  | init => exact ⟨.ready rfl rfl rfl rfl rfl, rfl, fun _ => rfl, by simp [requestStream, RequestStream.initial],
      by simp [requestStream, RequestStream.initial], rfl⟩
  | step run s t act _ taken ih =>
      have inv := ih (fun x member => whole x (List.mem_append_left _ member))
      exact stream_inv_step p r c s t act inv (whole (s, act) (by simp)) (stream_step_of_some r c s t act taken)

theorem decoded_stays (r c : Nat) (s t : RequestStream) (act : StreamAct) (step : StreamStep r c s act t)
    (d : WireTx × Nat) (member : d ∈ s.decoded) : d ∈ t.decoded := by
  cases step with
  | recv n t _ _ received =>
      obtain ⟨⟨conn, _⟩, _, rfl⟩ := Option.map_eq_some_iff.mp received
      simp only
      split
      · exact member
      · exact List.mem_append_left _ member
  | send | response | close | thread | touch => exact member

theorem receives_whole (p : Deployment) (r c : Nat) (run : List (RequestStream × StreamAct)) (s : RequestStream)
    (trace : (requestStream p r c).Trace run s) (whole : ∀ d ∈ s.decoded, requestTxMessageSize ≤ d.2) :
    ∀ x ∈ run, ReceivesWhole p x := by
  induction trace with
  | init => simp
  | step run s t act before taken ih =>
      have step := stream_step_of_some r c s t act taken
      have earlier := ih (fun d member => whole d (decoded_stays r c s t act step d member))
      intro x member
      rcases List.mem_append.mp member with inside | last
      · exact earlier x inside
      · cases List.mem_singleton.mp last
        have inv := stream_inv p r c run s before earlier
        cases step with
        | recv n t inside ends received =>
            have received := recv_step_of_some r c s t n inv.empty received
            rcases recv_whole_or_broken p s t n inv inside ends received with good | ⟨d, found, short⟩
            · exact good
            · have long := whole d found
              omega
        | send | response | close | thread | touch =>
            intro n same
            cases same

theorem request_stream_decoded_iff (p : Deployment) (r c : Nat) (run : List (RequestStream × StreamAct)) (s : RequestStream)
    (trace : (requestStream p r c).Trace run s) : DecodesStream s ↔ ∀ x ∈ run, ReceivesWhole p x :=
  ⟨fun decodes => receives_whole p r c run s trace decodes.whole,
    fun whole => decodes_of_inv p s (stream_inv p r c run s trace whole)⟩

def requestOf (type : TransactionType) : Tx := ⟨1, 0, 5, type, 3, 9, 0, 0⟩

def afterStream (acts : List StreamAct) : Option RequestStream :=
  (requestStream (configuration .proposedMethod) 1 0).exec (.initial (configuration .proposedMethod) 1 0) acts

def answeredAsRead (n : Nat) : List StreamAct :=
  [.thread 0 [] .loop, .recv n, .thread 0 [] .requestRead, .touch (.raise none), .thread 0 [] .spin, .thread 0 [] .respond,
    .response, .thread 0 [] .loop]

-- A write that arrives in two parts is answered as a read of key 0 and dropped; a
-- read is handed over again at the end of the stream.
theorem request_stream_cut :
    (∃ s, (requestStream (configuration .proposedMethod) 1 0).Reachable s ∧ s.sent = [⟨1, 0, 5, .writeOnly, 3, 9⟩] ∧
        s.stream = [] ∧ s.handed = [⟨1, 0, 5, .readOnly, 0, 0⟩] ∧ ¬ DecodesStream s) ∧
      ∃ s, (requestStream (configuration .proposedMethod) 1 0).Reachable s ∧ s.sent = [⟨1, 0, 5, .readOnly, 3, 9⟩] ∧
        s.stream = [] ∧ s.handed = [⟨1, 0, 5, .readOnly, 3, 9⟩, ⟨1, 0, 5, .readOnly, 3, 9⟩] ∧ ¬ DecodesStream s := by
  have parts : (afterStream (.send (requestOf .writeOnly) (fun _ => 0) :: answeredAsRead 7 ++ [.recv 5])).map
      (fun s => (s.sent, s.stream, s.handed, s.wires)) =
      some ([⟨1, 0, 5, .writeOnly, 3, 9⟩], [], [⟨1, 0, 5, .readOnly, 0, 0⟩], [⟨1, 0, 5, .readOnly, 0, 0⟩]) := by
    decide +kernel
  have ends : (afterStream (.send (requestOf .readOnly) (fun _ => 0) :: answeredAsRead 12 ++
        [.close, .recv 0, .thread 0 [] .requestRead])).map (fun s => (s.sent, s.stream, s.handed, s.wires)) =
      some ([⟨1, 0, 5, .readOnly, 3, 9⟩], [], [⟨1, 0, 5, .readOnly, 3, 9⟩, ⟨1, 0, 5, .readOnly, 3, 9⟩],
        [⟨1, 0, 5, .readOnly, 3, 9⟩, ⟨1, 0, 5, .readOnly, 3, 9⟩]) := by
    decide +kernel
  obtain ⟨s, ran, view⟩ := Option.map_eq_some_iff.mp parts
  obtain ⟨t, again, seen⟩ := Option.map_eq_some_iff.mp ends
  simp only [Prod.mk.injEq] at view seen
  obtain ⟨sent, stream, handed, wires⟩ := view
  obtain ⟨sent', stream', handed', wires'⟩ := seen
  refine ⟨⟨s, Machine.reachable_exec _ _ _ s .init ran, sent, stream, handed, fun decodes => ?_⟩,
    ⟨t, Machine.reachable_exec _ _ _ t .init again, sent', stream', handed', fun decodes => ?_⟩⟩
  · have all := decodes.complete stream
    rw [wires, sent] at all
    exact absurd all (by decide)
  · have all := decodes.complete stream'
    rw [wires', sent'] at all
    exact absurd all (by decide)

theorem request_stream_decoded_iff_read : ∃ run s, (requestStream (configuration .proposedMethod) 1 0).Trace run s ∧
    s.handed = [⟨1, 0, 5, .readOnly, 3, 9⟩] ∧ DecodesStream s := by
  have ends : (afterStream (.send (requestOf .readOnly) (fun _ => 0) :: answeredAsRead 12)).map (fun s => s.handed) =
      some [⟨1, 0, 5, .readOnly, 3, 9⟩] := by
    decide +kernel
  obtain ⟨s, ran, handed⟩ := Option.map_eq_some_iff.mp ends
  obtain ⟨run, trace, acts⟩ := Machine.trace_exec _ [] _ _ s .init ran
  rw [List.nil_append] at trace
  refine ⟨run, s, trace, handed, (request_stream_decoded_iff (configuration .proposedMethod) 1 0 run s trace).mpr ?_⟩
  intro x member n received
  have inside : StreamAct.recv n ∈ run.map Prod.snd := List.mem_map.mpr ⟨x, member, received⟩
  rw [acts] at inside
  simp only [answeredAsRead, List.mem_cons, StreamAct.recv.injEq, reduceCtorEq, false_or, or_false, List.not_mem_nil] at inside
  exact .inl inside

end EpochReplication
