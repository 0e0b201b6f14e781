import EpochReplication.LogCalls

set_option autoImplicit false

namespace EpochReplication

theorem received_batch_length (p : Deployment) (s : Sequencers) (r i : Nat) (msg : Buf) (len : Nat)
    (inv : SequencersInv p s) (got : s.received p r i = some (msg, len)) (batch : checkMsg msg .batchMessage = true) :
    len = batchLogSize := by
  obtain ⟨d, found, replica, _, dst, filled⟩ := received_some p s r i msg len got
  have carried := inv.net d (List.mem_of_getElem? found)
  have content : (udpSvReceiveMsg (s.slave r).recvMsg batchLogSize d).1 = msg := congrArg Prod.fst filled
  have length : (udpSvReceiveMsg (s.slave r).recvMsg batchLogSize d).2 = len := congrArg Prod.snd filled
  cases carried with
  | batch q k b data reached there carries => exact length.symm.trans (Nat.min_self batchLogSize)
  | ackMaster q e old slave logged => cases dst
  | ackPeer q t e old slave logged =>
      have small := accepted_fits p s inv q slave
      have type := (receive_ack_batch p (s.slave r).recvMsg old (.slaveSequencer t) q e slave (by omega)).1
      rw [content] at type
      cases check_msg_unique msg .batchMessage .ackBatchMessage batch type
  | request q t e old slave asked logged =>
      have here : q = r := by
        injection dst with same
        omega
      have small := accepted_fits p s inv q (here ▸ replica)
      have type := (receive_request_batch p (s.slave r).recvMsg old (.slaveSequencer q) t e slave (by omega)).1
      rw [content] at type
      cases check_msg_unique msg .batchMessage .requestBatchMessage batch type

theorem slave_accepts_overflows (p : Deployment) (s : Sequencers) (act : Int × SequencersAct) (inv : SequencersInv p s)
    (accepts : s.slaveAccepts p act = true) : ∃ call, s.logCall p act = some call ∧ ¬ call.Fits s := by
  unfold Sequencers.slaveAccepts at accepts
  split at accepts
  · rename_i flag r i io
    split at accepts
    · cases accepts
    · rename_i msg len got
      obtain ⟨batch, expected⟩ := (Bool.and_eq_true _ _).mp accepts
      have whole := received_batch_length p s r i msg len inv got batch
      refine ⟨.append r msg len (getEpochIdFromBatchMeg msg), ?_, ?_⟩
      · simp only [Sequencers.logCall, got, batch, if_true, if_pos (eq_of_beq expected)]
      · rw [whole]
        exact fun fits => absurd fits.2 (by decide)
  · cases accepts

theorem slave_append_accepts (p : Deployment) (s : Sequencers) (act : Int × SequencersAct) (r : Nat) (msg : Buf)
    (len e : Int) (slave : r ≠ 0) (called : s.logCall p act = some (.append r msg len e)) : s.slaveAccepts p act = true := by
  cases call_of_log_call p s act _ called with
  | masterAppend => exact absurd rfl slave
  | slaveAppend flag r i io msg len got batch expected =>
      exact slave_accepts_of_received p s flag r i io msg len got batch expected

theorem accepted_kept (p : Deployment) (s t : Sequencers) (act : Int × SequencersAct) (r : Nat) (slave : r ≠ 0)
    (taken : (sequencers p).step s act = some t) (refuses : s.slaveAccepts p act = false) :
    t.accepted r = s.accepted r := by
  rcases log_changes_by_append p s t act r taken with ⟨_, kept⟩ | ⟨msg, len, e, _, _, called, _⟩
  · exact kept
  · rw [slave_append_accepts p s act r msg len e slave called] at refuses
    cases refuses

theorem accepted_zero (p : Deployment) (run : List (Sequencers × (Int × SequencersAct))) (t : Sequencers) (r : Nat)
    (slave : r ≠ 0) (trace : (sequencers p).Trace run t) (refuses : ∀ x ∈ run, x.1.slaveAccepts p x.2 = false) :
    t.accepted r = 0 := by
  induction trace with
  | init => rfl
  | step run s t act before taken ih =>
      rw [accepted_kept p s t act r slave taken (refuses (s, act) (by simp))]
      exact ih (fun x member => refuses x (List.mem_append_left _ member))

theorem record_fits (s : Sequencers) (node e limit : Nat) (b : Batch) (record : limit ≤ batchLogRoom)
    (carries : LogCarries limit (s.log node) e b) : (LogCall.read node e).Fits s := by
  intro len found
  have whole : batchLogRoom ≤ batchLogSize := by decide
  obtain ⟨stored, length, small⟩ := log_carries_length limit (s.log node) e b (by omega) carries
  rw [Int.toNat_natCast, length] at found
  cases found
  unfold batchLogRoom at record
  unfold batchLogDataOffset batchLogDataSizeOffset batchLogSize at *
  omega

theorem call_fits (p : Deployment) (s : Sequencers) (act : Int × SequencersAct) (call : LogCall)
    (inv : SequencersInv p s) (nothing : ∀ r, r ≠ 0 → s.accepted r = 0) (refuses : s.slaveAccepts p act = false)
    (called : s.logCall p act = some call) : call.Fits s := by
  cases call_of_log_call p s act call called with
  | masterAppend flag cur io rev pc =>
      have fits := batch_msg_fits rev
      rw [LogCall.Fits, create_batch_length]
      unfold batchLogDataOffset batchLogDataSizeOffset batchLogSize
      omega
  | sendRead flag r io replica pc =>
      have written := send_read_written p s r inv replica pc
      obtain ⟨number, same⟩ := Int.eq_ofNat_of_zero_le written.low
      have determined := inv.master.determined
      have last := written.master rfl
      have inside : number < s.master.confirmed.length := by omega
      rw [same]
      exact record_fits s 0 number batchLogRoom _ (Nat.le_refl _)
        (inv.master.logged number _ (List.getElem?_eq_getElem inside))
  | slaveAppend flag r i io msg len got batch expected =>
      rw [slave_accepts_of_received p s flag r i io msg len got batch expected] at refuses
      cases refuses
  | slaveRead flag r i io msg len got proposed not_batch not_ack =>
      obtain ⟨replica, e, _, below⟩ := received_request p s r i msg len inv got not_batch not_ack
      have none_yet := nothing r (Nat.ne_of_gt replica.1)
      omega

-- `act` is the call the run is in the middle of, if any. A slave stores the 1024
-- bytes of a relayed record behind a length of four.
theorem log_calls_fit_iff (p : Deployment) (run : List (Sequencers × (Int × SequencersAct))) (t : Sequencers)
    (act : Int × SequencersAct) (trace : (sequencers p).Trace run t) :
    (∀ x ∈ run ++ [(t, act)], ∀ call, x.1.logCall p x.2 = some call → call.Fits x.1) ↔
      ∀ x ∈ run ++ [(t, act)], x.1.slaveAccepts p x.2 = false := by
  have reachable : ∀ x ∈ run ++ [(t, act)], SequencersInv p x.1 := by
    intro x member
    rcases List.mem_append.mp member with earlier | last
    · exact sequencers_inv_reachable p x.1 (Machine.trace_source_reachable _ run t trace x earlier).1
    · cases List.mem_singleton.mp last
      exact sequencers_inv_reachable p t (Machine.trace_reachable _ run t trace)
  constructor
  · intro fit x member
    cases accepts : x.1.slaveAccepts p x.2 with
    | false => rfl
    | true =>
        obtain ⟨call, called, overflow⟩ := slave_accepts_overflows p x.1 x.2 (reachable x member) accepts
        exact absurd (fit x member call called) overflow
  · intro refuses x member call called
    have nothing : ∀ r, r ≠ 0 → x.1.accepted r = 0 := by
      intro r slave
      obtain ⟨earlier, before, within⟩ : ∃ earlier, (sequencers p).Trace earlier x.1 ∧ ∀ y ∈ earlier, y ∈ run := by
        rcases List.mem_append.mp member with inside | last
        · exact Machine.trace_before _ run t trace x inside
        · cases List.mem_singleton.mp last
          exact ⟨run, trace, fun y found => found⟩
      exact accepted_zero p earlier x.1 r slave before
        (fun y found => refuses y (List.mem_append_left _ (within y found)))
    exact call_fits p x.1 x.2 call (reachable x member) nothing (refuses x member) called

def LogCall.appendLength : LogCall → Option Int
  | .append _ _ len _ => some len
  | .read _ _ => none

def firstBatchArrived : List (Int × SequencersAct) := firstBatch.dropLast

def afterFirstBatchArrived (exp : ExpT) : Option Sequencers :=
  (sequencers (configuration exp)).exec (Sequencers.initial (configuration exp)) firstBatchArrived

theorem first_batch_call (exp : ExpT) (sent : ((afterFirstBatchArrived exp).bind
      (fun s => s.logCall (configuration exp) (0, .slave 1 (.receive 0 wholeIo)))).bind LogCall.appendLength = some 1024) :
    ∃ s call, afterFirstBatchArrived exp = some s ∧
      s.logCall (configuration exp) (0, .slave 1 (.receive 0 wholeIo)) = some call ∧ ¬ call.Fits s := by
  obtain ⟨call, called, length⟩ := Option.bind_eq_some_iff.mp sent
  obtain ⟨s, ran, called⟩ := Option.bind_eq_some_iff.mp called
  refine ⟨s, call, ran, called, fun fits => ?_⟩
  cases call with
  | append node msg len e =>
      cases length
      exact absurd fits.2 (by decide)
  | read node e => cases length

theorem log_calls_fit_iff_first_batch : ∃ run s,
    (sequencers (configuration .proposedMethod)).Trace run s ∧
      ¬ ∀ x ∈ run ++ [(s, (0, .slave 1 (.receive 0 wholeIo)))],
        x.1.slaveAccepts (configuration .proposedMethod) x.2 = false := by
  obtain ⟨s, call, ran, called, overflow⟩ := first_batch_call .proposedMethod (by decide +kernel)
  obtain ⟨run, trace⟩ := Machine.reachable_trace _ s (Machine.reachable_exec _ firstBatchArrived _ s .init ran)
  refine ⟨run, s, trace, ?_⟩
  rw [← log_calls_fit_iff (configuration .proposedMethod) run s (0, .slave 1 (.receive 0 wholeIo)) trace]
  intro fit
  exact overflow (fit _ (List.mem_append_right run (List.mem_singleton.mpr rfl)) call called)

theorem slave_append_overflows :
    (∃ s call, afterFirstBatchArrived .proposedMethod = some s ∧
      s.logCall (configuration .proposedMethod) (0, .slave 1 (.receive 0 wholeIo)) = some call ∧ ¬ call.Fits s) ∧
    ∃ s call, afterFirstBatchArrived .conventionalMethod = some s ∧
      s.logCall (configuration .conventionalMethod) (0, .slave 1 (.receive 0 wholeIo)) = some call ∧ ¬ call.Fits s :=
  ⟨first_batch_call .proposedMethod (by decide +kernel), first_batch_call .conventionalMethod (by decide +kernel)⟩

end EpochReplication
