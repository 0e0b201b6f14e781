import EpochReplication.Serializable

set_option autoImplicit false

namespace EpochReplication

-- What client `c` of replica `r` has been told about a write since the first `n`
-- writes were in the batches, or will be, stands behind them: no write of its
-- that is still to be reported is one of them, and no position at which
-- execute_batch has raised the flag of its transaction.
structure StandsBehind (n : Nat) (r c : Nat) (d : Database) : Prop where
  inside : n ≤ d.replicas.sequencers.master.placed.length
  work : (∃ old, d.replicas.unfinished r = old ++ d.replicas.sequencers.master.placed.drop n ∧ old.filter (mine r c) = []) ∨
    (d.replicas.unfinished r).length ≤ (d.replicas.sequencers.master.placed.drop n).length
  raised : (d.intake.conn (r, c)).toServer.pending = [] → ∀ x ∈ (d.intake.conn (r, c)).thread.raised,
    x.1 < d.replicas.sequencers.master.confirmed.length ∧
      n ≤ ((d.replicas.sequencers.master.confirmed.take x.1).flatMap Batch.wire).length + x.2

theorem behind_popped {α : Type} (keep : α → Bool) (work rest front tail : List α) (popped : work = front ++ rest)
    (behind : (∃ old, work = old ++ tail ∧ old.filter keep = []) ∨ work.length ≤ tail.length) :
    (∃ old, rest = old ++ tail ∧ old.filter keep = []) ∨ rest.length ≤ tail.length := by
  subst popped
  rcases behind with ⟨old, same, none⟩ | short
  · rcases List.append_eq_append_iff.mp same with ⟨more, rfl, rest⟩ | ⟨more, rfl, tail⟩
    · rw [List.filter_append, List.append_eq_nil_iff] at none
      exact .inl ⟨more, rest, none.2⟩
    · refine .inr ?_
      rw [tail, List.length_append]
      exact Nat.le_add_left _ _
  · refine .inr (Nat.le_trans ?_ short)
    rw [List.length_append]
    exact Nat.le_add_left _ _

theorem behind_added {α : Type} (keep : α → Bool) (work placed more : List α) (n : Nat) (inside : n ≤ placed.length)
    (behind : (∃ old, work = old ++ placed.drop n ∧ old.filter keep = []) ∨ work.length ≤ (placed.drop n).length) :
    (∃ old, work ++ more = old ++ (placed ++ more).drop n ∧ old.filter keep = []) ∨
      (work ++ more).length ≤ ((placed ++ more).drop n).length := by
  rw [List.drop_append_of_le_length inside]
  rcases behind with ⟨old, rfl, none⟩ | short
  · exact .inl ⟨old, by rw [List.append_assoc], none⟩
  · refine .inr ?_
    rw [List.length_append, List.length_append]
    exact Nat.add_le_add_right short _

theorem raising_reached (p : Deployment) (s : Replicas) (r i c : Nat) (batch : Batch) (tx : Tx) (nodes : NodesInv p s)
    (node : p.IsNode r) (pc : (s.exec r).writePc = .raising batch i c) (found : batch.txSet[i]? = some tx) :
    (s.exec r).epoch.toNat < s.sequencers.master.confirmed.length ∧
      (s.executedBy r).length =
        ((s.sequencers.master.confirmed.take (s.exec r).epoch.toNat).flatMap Batch.wire).length + i + 1 := by
  have copy := queue_content p s.sequencers r nodes.sequencers node
  obtain ⟨k, count, left, entered, _⟩ := (nodes.replicas r node).inside batch (i + 1) (by rw [pc]; rfl)
  have inside := (List.getElem?_eq_some_iff.mp entered).1
  have short : i < batch.wire.length := by
    rw [Batch.wire, List.length_map]
    exact (List.getElem?_eq_some_iff.mp found).1
  have behind := copy.length_le
  simp only [List.length_map] at behind
  have taken : (s.sequencers.master.confirmed.take k).flatMap Batch.wire =
      ((s.sequencers.queue r).entered.take k).flatMap Batch.wire := by
    obtain ⟨rest, whole⟩ := copy
    rw [content_wires, content_wires, List.map_take, List.map_take, ← whole,
      List.take_append_of_le_length (by rw [List.length_map]; exact Nat.le_of_lt inside)]
  rw [count, Int.toNat_natCast, taken]
  refine ⟨Nat.lt_of_lt_of_le inside behind, ?_⟩
  simp only [Replicas.executedBy, executed, pc, WritePc.current, left, Nat.add_sub_cancel, List.length_append,
    List.length_take, Nat.min_eq_left (Nat.succ_le_of_lt short), Nat.add_assoc]

theorem behind_work_step (p : Deployment) (writeRate n : Nat) (d next : Database) (act : DatabaseAct) (r c : Nat)
    (reachable : (database p writeRate).Reachable d) (node : p.IsNode r)
    (taken : Database.step p writeRate d act = some next) (behind : StandsBehind n r c d) :
    (∃ old, next.replicas.unfinished r = old ++ next.replicas.sequencers.master.placed.drop n ∧
        old.filter (mine r c) = []) ∨
      (next.replicas.unfinished r).length ≤ (next.replicas.sequencers.master.placed.drop n).length := by
  have later := Machine.Reachable.step d next act reachable taken
  have before := database_nodes_inv p writeRate d reachable
  have after := database_nodes_inv p writeRate next later
  have live := reports_live _ _ r ((database_inv_reachable p writeRate next later).reports r node)
  rcases database_nodes_step p writeRate d next act taken with same | ⟨q, inner, moved, _⟩
  · rw [same]
    exact behind.work
  · by_cases add : ∃ tx, inner = .sequencers (.addWriteTx tx)
    · obtain ⟨tx, rfl⟩ := add
      obtain ⟨exec, _, queue, outcome⟩ := placed_added p d.replicas next.replicas _ tx moved
      have bound := (executed_placed p d.replicas r before.sequencers before.replicas node).length_le
      have more : ∃ more, next.replicas.sequencers.master.placed = d.replicas.sequencers.master.placed ++ more := by
        rcases outcome with ⟨_, same⟩ | ⟨_, one⟩
        · exact ⟨[], by rw [same, List.append_nil]⟩
        · exact ⟨_, one⟩
      obtain ⟨more, placed⟩ := more
      have work : next.replicas.unfinished r = d.replicas.unfinished r ++ more := by
        simp only [Replicas.unfinished, Replicas.executedBy, exec, queue, placed] at bound ⊢
        rw [List.drop_append_of_le_length bound, List.append_assoc]
      rw [work, placed]
      exact behind_added (mine r c) _ _ more n behind.inside behind.work
    · have kind : ∀ tx, inner ≠ .sequencers (.addWriteTx tx) := fun tx same => add ⟨tx, same⟩
      rw [replicas_placed_kept p d.replicas next.replicas _ inner kind moved]
      cases (work_step p d.replicas next.replicas _ inner r after.sequencers before.replicas after.replicas node live kind
        moved).2 with
      | same _ work =>
          rw [work]
          exact behind.work
      | foreign batch i tx _ _ _ work => exact behind_popped (mine r c) _ _ [tx.wire] _ work behind.work
      | report batch i e _ work => exact behind_popped (mine r c) _ _ _ _ work behind.work

theorem behind_raised (p : Deployment) (writeRate n : Nat) (d : Database) (r c i : Nat) (batch : Batch)
    (reachable : (database p writeRate).Reachable d) (connection : p.IsConnection r c)
    (pc : (d.replicas.exec r).writePc = .raising batch i c) (behind : StandsBehind n r c d) :
    (d.replicas.exec r).epoch.toNat < d.replicas.sequencers.master.confirmed.length ∧
      n ≤ ((d.replicas.sequencers.master.confirmed.take (d.replicas.exec r).epoch.toNat).flatMap Batch.wire).length + i := by
  have inv := database_inv_reachable p writeRate d reachable
  have nodes := database_nodes_inv p writeRate d reachable
  have node := connection_node p r c connection
  obtain ⟨tx, found, replica, client, report⟩ :=
    reported_tx d.replicas d.intake.conn r c i batch (inv.reports r node) (.inl pc)
  obtain ⟨inside, reached⟩ := raising_reached p d.replicas r i c batch tx nodes node pc found
  refine ⟨inside, ?_⟩
  have bound := (executed_placed p d.replicas r nodes.sequencers nodes.replicas node).length_le
  have own : mine r c tx.wire = true := (mine_iff r c tx.wire).mpr ⟨replica, client⟩
  have work : d.replicas.unfinished r = tx.wire ::
      d.replicas.sequencers.master.placed.drop (d.replicas.executedBy r).length := by
    rw [Replicas.unfinished, report]
    rfl
  have short : (d.replicas.unfinished r).length ≤ (d.replicas.sequencers.master.placed.drop n).length := by
    rcases behind.work with ⟨old, same, none⟩ | short
    · cases old with
      | nil => rw [same, List.nil_append]
      | cons w old =>
          rw [work, List.cons_append] at same
          rw [← (List.cons.inj same).1, List.filter_cons, own] at none
          cases none
    · exact short
  have within := behind.inside
  rw [work, List.length_cons, List.length_drop, List.length_drop] at short
  omega

theorem behind_step (p : Deployment) (writeRate n : Nat) (d next : Database) (act : DatabaseAct) (r c : Nat)
    (reachable : (database p writeRate).Reachable d) (connection : p.IsConnection r c)
    (taken : Database.step p writeRate d act = some next) (behind : StandsBehind n r c d) : StandsBehind n r c next := by
  have node := connection_node p r c connection
  have inv := database_inv_reachable p writeRate d reachable
  have grown := (grown_step p writeRate d next act r node reachable taken).confirmed
  have stays : ∀ x : Nat × Nat, x.1 < d.replicas.sequencers.master.confirmed.length ∧
      n ≤ ((d.replicas.sequencers.master.confirmed.take x.1).flatMap Batch.wire).length + x.2 →
      x.1 < next.replicas.sequencers.master.confirmed.length ∧
        n ≤ ((next.replicas.sequencers.master.confirmed.take x.1).flatMap Batch.wire).length + x.2 := by
    rintro x ⟨inside, position⟩
    obtain ⟨more, same⟩ := grown
    rw [← same, List.take_append_of_le_length (Nat.le_of_lt inside), List.length_append]
    exact ⟨Nat.lt_of_lt_of_le inside (Nat.le_add_right _ _), position⟩
  refine ⟨Nat.le_trans behind.inside (log_grows p writeRate d next act taken).length_le,
    behind_work_step p writeRate n d next act r c reachable node taken behind, ?_⟩
  have kept : (next.intake.conn (r, c)).toServer = (d.intake.conn (r, c)).toServer →
      (next.intake.conn (r, c)).thread.raised = (d.intake.conn (r, c)).thread.raised →
      (next.intake.conn (r, c)).toServer.pending = [] → ∀ x ∈ (next.intake.conn (r, c)).thread.raised,
        x.1 < next.replicas.sequencers.master.confirmed.length ∧
          n ≤ ((next.replicas.sequencers.master.confirmed.take x.1).flatMap Batch.wire).length + x.2 := by
    intro up raised none x member
    rw [up] at none
    rw [raised] at member
    exact stays x (behind.raised none x member)
  cases database_conn_step p writeRate d next act r c taken with
  | same act _ _ conn | recieve act _ _ _ _ _ conn => exact kept (by rw [conn]) (by rw [conn])
  | client act after _ step conn =>
      cases step with
      | request | finish =>
          intro none
          rw [conn] at none
          simp at none
      | receive => exact kept (by rw [conn]) (by rw [conn])
  | thread act after sent _ step conn =>
      cases step with
      | receive =>
          intro _ x member
          rw [conn] at member
          cases member
      | ignore data recvMsg len rest pc took filled other =>
          have request := (received_request_of_turn _ (inv.conns r c connection).turn pc data
            (d.intake.conn (r, c)).thread.recvMsg len rest took).1
          rw [← filled, other] at request
          cases request
      | _ => exact kept (by rw [conn]) (by rw [conn])
  | touch act tx touches conn =>
      cases touches with
      | assign batch i pc => exact kept (by rw [conn]) (by rw [conn]; rfl)
      | value value pc found => exact kept (by rw [conn]) (by rw [conn]; rfl)
      | raiseRead pc => exact kept (by rw [conn]) (by rw [conn]; simp [waitForTx])
      | raise batch i pc =>
          intro none x member
          rw [conn] at none member
          simp only [waitForTx, Option.toList_some, List.mem_append, List.mem_singleton] at member
          rcases member with old | rfl
          · exact stays x (behind.raised none x old)
          · exact stays _ (behind_raised p writeRate n d r c i batch reachable connection pc behind)

theorem choosing_unworked (p : Deployment) (writeRate : Nat) (d : Database) (r c : Nat)
    (reachable : (database p writeRate).Reachable d) (connection : p.IsConnection r c)
    (pc : (d.intake.conn (r, c)).client.pc = .choosing) : (d.replicas.unfinished r).filter (mine r c) = [] := by
  have inv := database_inv_reachable p writeRate d reachable
  have idle : (d.intake.conn (r, c)).thread.pc.idle = true := by
    cases (inv.conns r c connection).turn with
    | choosing _ _ _ idle => exact idle
    | requesting _ other | serving other | answered _ other | finishing _ other | finished other =>
        rw [pc] at other
        cases other
  obtain ⟨run, trace⟩ := Machine.reachable_trace _ d reachable
  obtain ⟨_, st, _, view, _⟩ := Machine.simulates_trace _ _ _ _ (log_simulates p writeRate) run d trace
  have was := view.phases r c connection
  have quiet : Quiet (d.intake.conn (r, c)).thread := by
    unfold Database.phase at was
    generalize st.phase (r, c) = phase at was
    cases was with
    | idle _ quiet => exact quiet
    | asked waiting | writing waiting | written _ waiting | reading waiting | read _ _ waiting =>
        rw [pc] at waiting
        cases waiting
  have stage := inv.stages r c connection
  unfold Database.stage flow at stage
  cases stage with
  | idle _ none | raised _ _ _ _ _ _ none => exact (List.append_eq_nil_iff.mp none).1
  | fresh registering =>
      rw [registering] at idle
      cases idle
  | sent write _ _ _ _ unraised | placed write _ _ _ _ _ unraised => exact absurd unraised.raised (quiet.write write)

theorem behind_asked (p : Deployment) (writeRate : Nat) (d next : Database) (r c typeRand keyRand : Nat)
    (reachable : (database p writeRate).Reachable d) (connection : p.IsConnection r c)
    (taken : Database.step p writeRate d (.client r c (.request typeRand keyRand)) = some next) :
    StandsBehind d.replicas.sequencers.master.placed.length r c next := by
  cases database_step_cases p writeRate d next _ taken with
  | client _ _ _ conn _ step =>
      cases step with
      | request _ _ sendTx pc =>
          refine ⟨Nat.le_refl _, .inl ⟨d.replicas.unfinished r, ?_, ?_⟩, fun none => ?_⟩
          · rw [List.drop_length, List.append_nil]
          · exact choosing_unworked p writeRate d r c reachable connection pc
          · simp at none

theorem behind_run (p : Deployment) (writeRate n : Nat) (r c : Nat) (connection : p.IsConnection r c)
    (earlier later : List (Database × DatabaseAct)) (d next f : Database) (act : DatabaseAct)
    (trace : (database p writeRate).Trace (earlier ++ (d, act) :: later) f)
    (taken : Database.step p writeRate d act = some next) (behind : StandsBehind n r c next) : StandsBehind n r c f := by
  generalize same : earlier ++ (d, act) :: later = run at trace
  induction trace generalizing later with
  | init => simp at same
  | step run g f other before moved ih =>
      rcases List.eq_nil_or_concat later with rfl | ⟨front, last, rfl⟩
      · obtain ⟨_, equal⟩ := List.append_inj' same rfl
        cases (List.cons.inj equal).1
        cases taken.symm.trans moved
        exact behind
      · rw [List.concat_eq_append, ← List.cons_append, ← List.append_assoc] at same
        have here := ih front (List.append_inj' same rfl).1
        exact behind_step p writeRate n g f other r c (Machine.trace_reachable _ run g before) connection moved here

theorem answered_epoch (p : Deployment) (writeRate : Nat) (run : List (Database × DatabaseAct)) (d next : Database)
    (r c : Nat) (connection : p.IsConnection r c) (trace : (database p writeRate).Trace run d)
    (taken : Database.step p writeRate d (.client r c .receive) = some next)
    (write : (d.intake.conn (r, c)).client.sendTx.type = .writeOnly) :
    ∃ k i batch tx, (d.intake.conn (r, c)).thread.raised = [(k, i)] ∧
      d.replicas.sequencers.master.confirmed[k]? = some batch ∧ batch.txSet[i]? = some tx ∧
      (d.intake.conn (r, c)).toServer.pending = [] ∧
      (next.intake.conn (r, c)).client.recvTx.assignedEpochId.toInt = k := by
  have served := served_trace p writeRate run d r c connection trace
  have inv := database_inv_reachable p writeRate d (Machine.trace_reachable _ run d trace)
  have nodes := database_nodes_inv p writeRate d (Machine.trace_reachable _ run d trace)
  obtain ⟨answer, complete, same, _⟩ := response_received p writeRate d next r c _ served taken
  have kind : (d.intake.conn (r, c)).thread.tx.type = .writeOnly := (congrArg WireTx.type (same.write write)).trans write
  have up : (d.intake.conn (r, c)).toServer.pending = [] := by
    cases (inv.conns r c connection).turn with
    | answered _ _ up => exact up
    | choosing _ _ down | requesting _ _ _ down | serving _ _ down | finishing _ _ _ down | finished _ _ down =>
        exact absurd down answer
  have told : (next.intake.conn (r, c)).client.recvTx.assignedEpochId =
      (d.intake.conn (r, c)).thread.tx.assignedEpochId := by
    obtain ⟨conn, moved, here⟩ := Option.map_eq_some_iff.mp (client_taken p writeRate d next r c .receive taken)
    rw [← here]
    simp only [Function.update_self]
    cases pc : (d.intake.conn (r, c)).client.pc with
    | choosing | returned => simp [ClientTime.clientThread, pc] at moved
    | waiting =>
        cases took : (d.intake.conn (r, c)).toClient.tryTake with
        | none => simp [ClientTime.clientThread, pc, took] at moved
        | some answer =>
            obtain ⟨⟨data, len⟩, rest⟩ := answer
            simp only [ClientTime.clientThread, pc, took] at moved
            cases moved
            have down := Fifo.try_take_pending _ rest (data, len) took
            obtain ⟨⟨buf, message⟩, _⟩ := served.told (data, len) (by rw [down]; exact List.mem_cons_self)
            cases message
            exact (receive_response_tx (d.intake.conn (r, c)).thread.tx buf (d.intake.conn (r, c)).client.msg _).2
  have stage := inv.stages r c connection
  unfold Database.stage at stage
  cases stage with
  | idle other => exact absurd kind other
  | fresh _ _ unraised | sent _ _ _ _ _ unraised | placed _ _ _ _ _ _ unraised => exact absurd unraised.complete complete
  | raised k i _ _ _ _ _ position =>
      obtain ⟨batch, tx, found, there, _⟩ := position.contained
      have small := (List.getElem?_eq_some_iff.mp found).1
      have fits := nodes.sequencers.master.fits
      refine ⟨k, i, batch, tx, position.raised, found, there, up, ?_⟩
      rw [told, position.assigned]
      exact short_of_int k (Int.natCast_nonneg k) (by omega)

theorem flat_bound (batches : List Batch) (k i n : Nat) (batch : Batch) (tx : Tx) (found : batches[k]? = some batch)
    (there : batch.txSet[i]? = some tx) (early : k < n) :
    ((batches.take k).flatMap Batch.wire).length + i < ((batches.take n).flatMap Batch.wire).length := by
  have inside : i < batch.wire.length := by
    rw [Batch.wire, List.length_map]
    exact (List.getElem?_eq_some_iff.mp there).1
  have whole : (batches.take (k + 1)).flatMap Batch.wire <+: (batches.take n).flatMap Batch.wire := by
    have taken : batches.take (k + 1) <+: batches.take n := List.take_prefix_take_left (Nat.succ_le_of_lt early)
    obtain ⟨rest, same⟩ := taken
    exact ⟨rest.flatMap Batch.wire, by rw [← List.flatMap_append, same]⟩
  have length := whole.length_le
  rw [flat_take_succ batches k batch found, List.length_append] at length
  omega

theorem epochs_respect_real_time (p : Deployment) (writeRate r c q e typeRand keyRand : Nat)
    (first middle later : List (Database × DatabaseAct)) (d next g f last : Database)
    (trace : (database p writeRate).Trace (first ++ (d, .client r c .receive) :: middle ++
      (g, .client q e (.request typeRand keyRand)) :: later) f)
    (told : Database.step p writeRate d (.client r c .receive) = some next)
    (write : (d.intake.conn (r, c)).client.sendTx.type = .writeOnly)
    (answered : Database.step p writeRate f (.client q e .receive) = some last)
    (also : (f.intake.conn (q, e)).client.sendTx.type = .writeOnly) :
    (next.intake.conn (r, c)).client.recvTx.assignedEpochId.toInt <
      (last.intake.conn (q, e)).client.recvTx.assignedEpochId.toInt := by
  have connection : ∀ (r c : Nat) (s t : Database), Database.step p writeRate s (.client r c .receive) = some t →
      p.IsConnection r c := by
    intro r c s t taken
    cases database_step_cases p writeRate s t _ taken with
    | client _ _ _ _ connection => exact connection
  have here := connection r c d next told
  have there := connection q e f last answered
  obtain ⟨_, pairs⟩ := Machine.trace_relates _ (Grown r) (grown_trans r)
    (fun s act t reachable taken => grown_step p writeRate s t act r (connection_node p r c here) reachable taken) _ f trace
  obtain ⟨ends, _⟩ := Machine.trace_relates _ (Grown q) (grown_trans q)
    (fun s act t reachable taken => grown_step p writeRate s t act q (connection_node p q e there) reachable taken) _ f
    trace
  obtain ⟨_, _, crossing⟩ := List.pairwise_append.mp pairs
  have grown : d.replicas.sequencers.master.confirmed <+: g.replicas.sequencers.master.confirmed :=
    (crossing (d, .client r c .receive) (by simp) (g, .client q e (.request typeRand keyRand)) (by simp)).confirmed
  obtain ⟨reachable, h, asked⟩ := Machine.trace_source_reachable _ _ f trace (g, .client q e (.request typeRand keyRand))
    (by simp)
  obtain ⟨k, i, batch, tx, _, found, _, _, number⟩ := answered_epoch p writeRate first d next r c here
    (Machine.trace_prefix _ first _ (d, _) f (by rw [List.append_assoc, List.cons_append] at trace; exact trace)) told write
  obtain ⟨m, j, other, same, raised, entered, placed, up, latter⟩ :=
    answered_epoch p writeRate _ f last q e there trace answered also
  have behind := behind_run p writeRate _ q e there _ later g h f _ trace asked
    (behind_asked p writeRate g h q e typeRand keyRand reachable there asked)
  have position := (behind.raised up (m, j) (by rw [raised]; exact List.mem_cons_self)).2
  rw [number, latter]
  by_contra early
  have small : k < g.replicas.sequencers.master.confirmed.length :=
    Nat.lt_of_lt_of_le (List.getElem?_eq_some_iff.mp found).1 grown.length_le
  have before := flat_bound _ m j g.replicas.sequencers.master.confirmed.length other same entered placed (by omega)
  have log : g.replicas.sequencers.master.confirmed = f.replicas.sequencers.master.confirmed.take
      g.replicas.sequencers.master.confirmed.length :=
    List.prefix_iff_eq_take.mp (ends (g, .client q e (.request typeRand keyRand)) (by simp)).confirmed
  rw [← log] at before
  have inside : (g.replicas.sequencers.master.confirmed.flatMap Batch.wire).length ≤
      g.replicas.sequencers.master.placed.length := by
    rw [Master.placed, List.append_assoc, List.length_append]
    exact Nat.le_add_right _ _
  simp only at position
  omega

def secondAnswered : List DatabaseAct :=
  let buf : Buf := fun _ => 0
  [.thread 1 1 .loop, .thread 1 1 .receive, .thread 1 1 (.requestWrite buf buf), .thread 1 1 .send,
    .recieve 1 1 .barrier, .recieve 1 1 .loop, .recieve 1 1 (.receive 2), .recieve 1 1 .test, .addWriteTx 1 1,
    .thread 1 1 .check, .thread 1 1 (.poll 3 false)] ++
  [.epoch .loop, .epoch .check, .epoch .swap, .epoch (.log wholeIo), .epoch .count, .epoch .enqueue,
    .send 1 (.receive 1), .send 1 .loop, .send 1 (.read wholeIo), .send 1 .send, .slave 1 .loop,
    .slave 1 (.receive 7 wholeIo)].map DatabaseAct.sequencers ++
  [.write 1, .writeLoop 1, .takeBatch 1, .write 1, .fetch 1, .assign 1, .raise 1, .thread 1 1 .spin, .thread 1 1 .respond]

theorem epochs_respect_real_time_two_clients : ∃ d next f last : Database,
    Database.step (configuration .proposedMethod) 50 d (.client 1 0 .receive) = some next ∧
      Database.step (configuration .proposedMethod) 50 f (.client 1 1 .receive) = some last ∧
      (next.intake.conn (1, 0)).client.recvTx.assignedEpochId.toInt <
        (last.intake.conn (1, 1)).client.recvTx.assignedEpochId.toInt := by
  have runs : (afterActs (firstAnswered ++ .client 1 0 .receive :: .client 1 1 (.request 0 7) :: secondAnswered)).map
      (fun f => ((f.intake.conn (1, 1)).client.sendTx.type, (f.intake.clientStep 50 1 1 .receive).isSome)) =
      some (.writeOnly, true) := by
    decide +kernel
  have first : (afterActs firstAnswered).map (fun d => (d.intake.conn (1, 0)).client.sendTx.type) = some .writeOnly := by
    decide +kernel
  obtain ⟨f, ran, ends⟩ := Option.map_eq_some_iff.mp runs
  simp only [Prod.mk.injEq] at ends
  obtain ⟨also, receives⟩ := ends
  obtain ⟨intake, receives⟩ := Option.isSome_iff_exists.mp receives
  have answered : Database.step (configuration .proposedMethod) 50 f (.client 1 1 .receive) =
      some { f with intake := intake } := by
    simp [Database.step, receives, show (configuration .proposedMethod).IsConnection 1 1 by decide]
  obtain ⟨d, next, before, told, after⟩ := Machine.exec_through _ _ _ _ _ f ran
  obtain ⟨g, asked, here, request, rest⟩ := Machine.exec_through _ [] _ _ next f after
  cases here
  obtain ⟨earlier, trace, _⟩ := Machine.trace_exec _ [] _ _ d .init before
  obtain ⟨later, trace, _⟩ := Machine.trace_exec _ _ _ _ f
    (.step _ next asked _ (.step _ d next _ trace told) request) rest
  rw [List.nil_append, List.append_assoc, List.singleton_append] at trace
  have write : (d.intake.conn (1, 0)).client.sendTx.type = .writeOnly := by
    rw [afterActs, show (database _ 50).exec _ firstAnswered = some d from before] at first
    exact Option.some.inj first
  exact ⟨d, next, f, _, told, answered, epochs_respect_real_time (configuration .proposedMethod) 50 1 0 1 1 0 7 earlier []
    later d next next f _ trace told write answered also⟩

end EpochReplication
