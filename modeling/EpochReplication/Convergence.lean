import EpochReplication.Executed

set_option autoImplicit false

namespace EpochReplication

def Replicas.executedBy (s : Replicas) (r : Nat) : List WireTx := executed (s.sequencers.queue r) (s.exec r)

def ReplicasInv (p : Deployment) (s : Replicas) : Prop :=
  ∀ r, p.IsNode r → ExecInv (s.sequencers.queue r) (s.exec r)

theorem replicas_inv_initial (p : Deployment) : ReplicasInv p (Replicas.initial p) := by
  intro r _
  apply exec_inv_initial
  unfold Sequencers.queue
  split <;> rfl

theorem replicas_inv_step (p : Deployment) (s t : Replicas) (act : Int × ReplicasAct) (inv : ReplicasInv p s)
    (taken : Replicas.step p s act = some t) : ReplicasInv p t := by
  have onlyExec : ∀ (q : Nat) (exec : Exec), ExecInv (s.sequencers.queue q) exec →
      ReplicasInv p { s with exec := Function.update s.exec q exec } := by
    intro q exec kept r node
    by_cases here : r = q
    · subst here
      simpa using kept
    · simpa [here] using inv r node
  cases replicas_step_cases p s t act taken with
  | sequencers flag act next kind moved =>
      intro r node
      obtain ⟨more, same⟩ := queue_grows p s.sequencers next flag act r kind moved
      exact exec_inv_grown _ _ _ more same (inv r node)
  | takeNone flag q exec node running done =>
      exact onlyExec q exec (exec_inv_take_none flag q _ (s.exec q) exec (inv q node) done).1
  | take flag q batch rest next exec node running took moved done =>
      intro r other
      have list := queue_taken p s.sequencers next flag q r batch rest took moved
      by_cases here : r = q
      · subst here
        rw [if_pos rfl] at list
        simp only [list, Function.update_self]
        exact (exec_inv_take flag r _ rest (s.exec r) exec batch (inv r node) took done).1
      · rw [if_neg here] at list
        simp only [list, Function.update_of_ne here]
        exact inv r other
  | write flag q act exec kind node running done =>
      exact onlyExec q exec (exec_inv_write flag q _ (s.exec q) exec act kind (inv q node) done)
  | read flag q act exec node running done =>
      exact onlyExec q exec (exec_inv_read flag _ (s.exec q) exec act (inv q node) done).1

theorem replicas_inv_reachable (p : Deployment) (s : Replicas) (reachable : (replicas p).Reachable s) :
    ReplicasInv p s :=
  Machine.invariant_reachable (replicas p) (ReplicasInv p) (replicas_inv_initial p)
    (fun s act t inv taken => replicas_inv_step p s t act inv taken) s reachable

theorem confirmed_step (p : Deployment) (s t : Replicas) (act : Int × ReplicasAct) (inv : SequencersInv p s.sequencers)
    (taken : Replicas.step p s act = some t) : s.sequencers.master.confirmed <+: t.sequencers.master.confirmed := by
  cases replicas_step_cases p s t act taken with
  | sequencers flag act next kind moved => exact confirmed_grows p _ next (flag, act) inv moved
  | take flag q batch rest next exec node running took moved done =>
      exact confirmed_grows p _ next (flag, .takeBatch q) inv moved
  | takeNone | write | read => exact List.prefix_refl _

theorem confirmed_run (p : Deployment) (acts : List (Int × ReplicasAct)) (s t : Replicas)
    (reachable : (replicas p).Reachable s) (ran : (replicas p).exec s acts = some t) :
    s.sequencers.master.confirmed <+: t.sequencers.master.confirmed := by
  induction acts generalizing s with
  | nil =>
      cases ran
      exact List.prefix_refl _
  | cons act rest ih =>
      obtain ⟨next, taken, ran⟩ := Option.bind_eq_some_iff.mp ran
      exact (confirmed_step p s next act (replicas_sequencers_inv p s reachable) taken).trans
        (ih next (.step s next act reachable taken) ran)

structure Completed (e : Exec) (k : Nat) : Prop where
  between : e.writePc.current = none
  defined : e.writePc ≠ .crashed
  counter : e.epoch = k

theorem completed_executed (p : Deployment) (s : Replicas) (r k : Nat) (confirmed : List Batch)
    (seq : SequencersInv p s.sequencers) (inv : ReplicasInv p s) (node : p.IsNode r)
    (later : s.sequencers.master.confirmed <+: confirmed) (completed : Completed (s.exec r) k) :
    s.executedBy r = (confirmed.take k).flatMap Batch.wire := by
  have copy := (queue_content p s.sequencers r seq node).trans (later.map Batch.content)
  have count := (inv r node).between completed.defined completed.between
  have left : (s.sequencers.queue r).left = k := by
    have counter := completed.counter
    omega
  have bound := (s.sequencers.queue r).le
  have taken : ((s.sequencers.queue r).entered.take k).map Batch.content = (confirmed.take k).map Batch.content := by
    rw [List.map_take, List.map_take]
    obtain ⟨rest, whole⟩ := copy
    rw [← whole, List.take_append_of_le_length (by simp only [List.length_map]; omega)]
  unfold Replicas.executedBy executed
  rw [completed.between, left]
  simp only [content_wires, taken]

structure ExecutesInOrder (s : Replicas) (r : Nat) : Prop where
  taken : ∀ (k : Nat) (b : Batch), k < (s.sequencers.queue r).left → (s.sequencers.queue r).entered[k]? = some b →
    b.epochId.toInt = k
  executing : ∀ (b : Batch) (n : Nat), (s.exec r).writePc.current = some (b, n) →
    ∃ k : Nat, (s.exec r).epoch = k ∧ (s.sequencers.queue r).left = k + 1 ∧
      (s.sequencers.queue r).entered[k]? = some b ∧ b.epochId = Int16.ofInt k

theorem queue_epoch (p : Deployment) (s : Sequencers) (r k : Nat) (b : Batch) (inv : SequencersInv p s)
    (node : p.IsNode r) (found : (s.queue r).entered[k]? = some b) : b.epochId.toInt = k := by
  obtain ⟨c, confirmed, number, _⟩ := delivered_content _ _ k b (queue_content p s r inv node) found
  rw [number]
  exact inv.master.epochs k c confirmed

theorem executes_in_order (p : Deployment) (s : Replicas) (r : Nat) (seq : SequencersInv p s.sequencers)
    (inv : ReplicasInv p s) (node : p.IsNode r) : ExecutesInOrder s r := by
  refine ⟨fun k b _ found => queue_epoch p _ r k b seq node found, ?_⟩
  intro b n current
  obtain ⟨k, count, left, found, _⟩ := (inv r node).inside b n current
  refine ⟨k, count, left, found, ?_⟩
  rw [← queue_epoch p _ r k b seq node found, Int16.ofInt_toInt]

-- Whatever is submitted; the two replicas may be looked at at different times of
-- the run. Only a key outside of the storage could keep a write from being executed.
theorem replicas_converge (p : Deployment) (s t : Replicas) (acts : List (Int × ReplicasAct))
    (reachable : (replicas p).Reachable s) (ran : (replicas p).exec s acts = some t) :
    (∀ r, p.IsNode r → ExecutesInOrder s r) ∧
      (∀ q r k, p.IsNode q → p.IsNode r → Completed (s.exec q) k → Completed (t.exec r) k →
        ∀ key, readFromStorage (s.exec q).storage key = readFromStorage (t.exec r).storage key) ∧
      ∀ r b i tx, p.IsNode r → (s.exec r).writePc = .writing b i → b.txSet[i]? = some tx → StorageKey tx.key →
        ∃ storage, writeToStorage (s.exec r).storage tx.key tx.value = some storage := by
  have inv := replicas_inv_reachable p s reachable
  have seq := replicas_sequencers_inv p s reachable
  have later := Machine.reachable_exec _ acts s t reachable ran
  refine ⟨fun r node => executes_in_order p s r seq inv node, ?_, ?_⟩
  · intro q r k first second early late key
    have kept := (inv q first).store early.defined
    have also := ((replicas_inv_reachable p t later) r second).store late.defined
    have same : s.executedBy q = t.executedBy r := by
      rw [completed_executed p s q k t.sequencers.master.confirmed seq inv first
          (confirmed_run p acts s t reachable ran) early,
        completed_executed p t r k t.sequencers.master.confirmed (replicas_sequencers_inv p t later)
          (replicas_inv_reachable p t later) second (List.prefix_refl _) late]
    simp only [Replicas.executedBy] at same
    rw [same, also] at kept
    rw [Option.some.inj kept]
  · intro r b i tx node writing found key
    have size := exec_storage_length _ _ (inv r node) (by simp [writing])
    exact write_to_storage_some _ tx.key tx.value key.1 (by rw [size]; exact key.2)

def firstWrite : Tx := modifyToWriteTx (setClientInfoToTx createTx 1 0 0) 5 (-1)

def firstWriteExecuted : List (Int × ReplicasAct) :=
  (0, .sequencers (.addWriteTx firstWrite)) :: firstBatch.map (fun act => (act.1, .sequencers act.2)) ++
    [(0, .write 0 .loop), (0, .takeBatch 0), (0, .write 0 .write), (0, .write 0 .write), (0, .write 1 .loop),
      (0, .takeBatch 1), (0, .write 1 .write), (0, .write 1 (.fetch (some 0))), (0, .write 1 .assign),
      (0, .write 1 .raise), (0, .write 1 .write)]

def afterFirstWrite (exp : ExpT) : Option Replicas :=
  (replicas (configuration exp)).exec (Replicas.initial (configuration exp)) firstWriteExecuted

def Exec.atLoop (e : Exec) : Bool := e.writePc matches .loop

theorem completed_of_loop (e : Exec) (k : Nat) (loop : e.atLoop = true) (counter : e.epoch = k) : Completed e k := by
  unfold Exec.atLoop at loop
  split at loop
  · rename_i pc
    exact ⟨by rw [pc]; rfl, by simp [pc], counter⟩
  · cases loop

theorem replicas_converge_first_write : ∃ s, afterFirstWrite .proposedMethod = some s ∧
    readFromStorage (s.exec 0).storage 5 = some 1 ∧
    ∀ key, readFromStorage (s.exec 0).storage key = readFromStorage (s.exec 1).storage key := by
  have ends : (afterFirstWrite .proposedMethod).map (fun s => ((s.exec 0).atLoop, (s.exec 0).epoch,
      (s.exec 1).atLoop, (s.exec 1).epoch, readFromStorage (s.exec 0).storage 5)) = some (true, 1, true, 1, some 1) := by
    decide +kernel
  obtain ⟨s, ran, ends⟩ := Option.map_eq_some_iff.mp ends
  simp only [Prod.mk.injEq] at ends
  obtain ⟨loop, epoch, also, number, value⟩ := ends
  refine ⟨s, ran, value, ?_⟩
  exact (replicas_converge (configuration .proposedMethod) s s []
    (Machine.reachable_exec _ firstWriteExecuted _ s .init ran) rfl).2.1 0 1 1 (by decide) (by decide)
    (completed_of_loop _ 1 loop epoch) (completed_of_loop _ 1 also number)

end EpochReplication
