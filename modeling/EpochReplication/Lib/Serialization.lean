import EpochReplication.Lib.ReplicatedLog
import Mathlib.Data.List.Infix

set_option autoImplicit false

namespace EpochReplication

namespace ReplicatedLog

variable {Session Replica Write Query Value Store : Type}

def looksAt (looks : List (Look Session Query Value)) (n : Nat) : List (Session × Operation Write Query Value) :=
  (looks.filter (fun l => l.bound == n)).map (fun l => (l.session, .read l.query l.value))

-- The entries of the log from `n` on, each followed by the reads that knew it
-- and nothing after it.
def follow (looks : List (Look Session Query Value)) (n : Nat) :
    List (Session × Write) → List (Session × Operation Write Query Value)
  | [] => []
  | e :: rest => (e.1, .write e.2) :: looksAt looks (n + 1) ++ follow looks (n + 1) rest

-- All operations in one order: the writes as in the log, a read after the last
-- write it knew.
def serial (looks : List (Look Session Query Value)) (log : List (Session × Write)) :
    List (Session × Operation Write Query Value) := looksAt looks 0 ++ follow looks 0 log

theorem follow_append (looks : List (Look Session Query Value)) (n : Nat) (a b : List (Session × Write)) :
    follow looks n (a ++ b) = follow looks n a ++ follow looks (n + a.length) b := by
  induction a generalizing n with
  | nil => rfl
  | cons e rest ih =>
      simp only [List.cons_append, follow, ih, List.append_assoc, List.length_cons]
      rw [Nat.add_assoc, Nat.add_comm 1]

theorem serial_append (looks : List (Look Session Query Value)) (a b : List (Session × Write)) :
    serial looks (a ++ b) = serial looks a ++ follow looks a.length b := by
  rw [serial, serial, follow_append, List.append_assoc, Nat.zero_add]

theorem serial_split (looks : List (Look Session Query Value)) (log : List (Session × Write)) (n : Nat)
    (inside : n ≤ log.length) : serial looks log = serial looks (log.take n) ++ follow looks n (log.drop n) := by
  have parts := serial_append looks (log.take n) (log.drop n)
  rwa [List.take_append_drop, List.length_take, Nat.min_eq_left inside] at parts

theorem looks_at_none (looks : List (Look Session Query Value)) (n : Nat) (below : ∀ l ∈ looks, l.bound < n) :
    looksAt looks n = ([] : List (Session × Operation Write Query Value)) := by
  rw [looksAt, List.filter_eq_nil_iff.mpr, List.map_nil]
  intro l member
  simpa using Nat.ne_of_lt (below l member)

theorem serial_write (looks : List (Look Session Query Value)) (log : List (Session × Write)) (e : Session × Write)
    (below : ∀ l ∈ looks, l.bound ≤ log.length) : serial looks (log ++ [e]) = serial looks log ++ [(e.1, .write e.2)] := by
  rw [serial_append, follow, looks_at_none looks (log.length + 1) (fun l member => Nat.lt_succ_of_le (below l member))]
  rfl

theorem looks_at_snoc (looks : List (Look Session Query Value)) (l : Look Session Query Value) (n : Nat) :
    looksAt (looks ++ [l]) n =
      (looksAt looks n ++ if l.bound = n then [(l.session, .read l.query l.value)] else [] :
        List (Session × Operation Write Query Value)) := by
  simp only [looksAt, List.filter_append, List.map_append]
  by_cases here : l.bound = n
  · simp [here]
  · simp [here]

theorem follow_before (looks : List (Look Session Query Value)) (l : Look Session Query Value) (n : Nat)
    (log : List (Session × Write)) (low : l.bound ≤ n) : follow (looks ++ [l]) n log = follow looks n log := by
  induction log generalizing n with
  | nil => rfl
  | cons e rest ih =>
      rw [follow, follow, looks_at_snoc, if_neg (by omega), List.append_nil, ih (n + 1) (by omega)]

theorem follow_beyond (looks : List (Look Session Query Value)) (l : Look Session Query Value) (n : Nat)
    (log : List (Session × Write)) (high : n + log.length < l.bound) :
    follow (looks ++ [l]) n log = follow looks n log := by
  induction log generalizing n with
  | nil => rfl
  | cons e rest ih =>
      rw [List.length_cons] at high
      rw [follow, follow, looks_at_snoc, if_neg (by omega), List.append_nil, ih (n + 1) (by omega)]

theorem serial_beyond (looks : List (Look Session Query Value)) (l : Look Session Query Value)
    (log : List (Session × Write)) (high : log.length < l.bound) : serial (looks ++ [l]) log = serial looks log := by
  rw [serial, serial, looks_at_snoc, if_neg (by omega), List.append_nil, follow_beyond looks l 0 log (by omega)]

theorem serial_last (looks : List (Look Session Query Value)) (l : Look Session Query Value)
    (log : List (Session × Write)) (here : l.bound = log.length) :
    serial (looks ++ [l]) log = serial looks log ++ [(l.session, .read l.query l.value)] := by
  rcases List.eq_nil_or_concat log with rfl | ⟨front, e, rfl⟩
  · rw [serial, serial, looks_at_snoc, if_pos (show l.bound = 0 from here)]
    simp [follow]
  · rw [List.concat_eq_append] at here ⊢
    rw [List.length_append, List.length_singleton] at here
    rw [serial_append, serial_append, serial_beyond looks l front (by omega)]
    simp only [follow, looks_at_snoc, if_pos here, List.append_nil, List.append_assoc, List.cons_append]

theorem serial_look (looks : List (Look Session Query Value)) (l : Look Session Query Value)
    (log : List (Session × Write)) (inside : l.bound ≤ log.length) :
    serial (looks ++ [l]) log =
      serial looks (log.take l.bound) ++ (l.session, .read l.query l.value) :: follow looks l.bound (log.drop l.bound) := by
  rw [serial_split (looks ++ [l]) log l.bound inside, follow_before looks l l.bound _ (Nat.le_refl _),
    serial_last looks l _ (by rw [List.length_take, Nat.min_eq_left inside]), List.append_assoc]
  rfl

theorem looks_at_writes (looks : List (Look Session Query Value)) (n : Nat) :
    (looksAt looks n : List (Session × Operation Write Query Value)).flatMap (fun x => x.2.writes) = [] := by
  rw [looksAt, List.flatMap_map, List.flatMap_eq_nil_iff]
  exact fun l _ => rfl

theorem follow_writes (looks : List (Look Session Query Value)) (n : Nat) (log : List (Session × Write)) :
    (follow looks n log).flatMap (fun x => x.2.writes) = log.map Prod.snd := by
  induction log generalizing n with
  | nil => rfl
  | cons e rest ih =>
      simp only [follow, List.cons_append, List.flatMap_cons, List.flatMap_append, looks_at_writes, ih]
      rfl

section Own

variable [DecidableEq Session]

def own (s : Session) (ops : List (Session × Operation Write Query Value)) : List (Operation Write Query Value) :=
  (ops.filter (fun x => x.1 = s)).map Prod.snd

@[simp] theorem own_nil (s : Session) : own s ([] : List (Session × Operation Write Query Value)) = [] := rfl

@[simp] theorem own_append (s : Session) (a b : List (Session × Operation Write Query Value)) :
    own s (a ++ b) = own s a ++ own s b := by
  simp [own]

theorem own_cons (s : Session) (x : Session × Operation Write Query Value)
    (rest : List (Session × Operation Write Query Value)) :
    own s (x :: rest) = (if x.1 = s then [x.2] else []) ++ own s rest := by
  by_cases here : x.1 = s
  · simp [own, here]
  · simp [own, here]

theorem own_looks_other (s : Session) (looks : List (Look Session Query Value)) (l : Look Session Query Value) (n : Nat)
    (other : l.session ≠ s) :
    own s (looksAt (looks ++ [l]) n : List (Session × Operation Write Query Value)) = own s (looksAt looks n) := by
  rw [looks_at_snoc, own_append]
  split
  · simp [own_cons, other]
  · simp

theorem own_follow_other (s : Session) (looks : List (Look Session Query Value)) (l : Look Session Query Value) (n : Nat)
    (log : List (Session × Write)) (other : l.session ≠ s) :
    own s (follow (looks ++ [l]) n log) = own s (follow looks n log) := by
  induction log generalizing n with
  | nil => rfl
  | cons e rest ih => simp only [follow, own_append, own_cons, own_looks_other s looks l (n + 1) other, ih (n + 1)]

theorem own_serial_other (s : Session) (looks : List (Look Session Query Value)) (l : Look Session Query Value)
    (log : List (Session × Write)) (other : l.session ≠ s) :
    own s (serial (looks ++ [l]) log) = own s (serial looks log) := by
  rw [serial, serial, own_append, own_append, own_looks_other s looks l 0 other, own_follow_other s looks l 0 log other]

theorem own_of_member (s : Session) (op : Operation Write Query Value) (ops : List (Session × Operation Write Query Value))
    (member : (s, op) ∈ ops) : own s ops ≠ [] := by
  intro none
  rw [own, List.map_eq_nil_iff, List.filter_eq_nil_iff] at none
  exact none (s, op) member (by simp)

end Own

inductive Legal (m : ReplicatedStore Session Replica Write Query Value Store) :
    Store → List (Operation Write Query Value) → Store → Prop where
  | done (store : Store) : Legal m store [] store
  | write (store next last : Store) (w : Write) (rest : List (Operation Write Query Value))
      (wrote : m.write store w = some next) (later : Legal m next rest last) : Legal m store (.write w :: rest) last
  | read (store last : Store) (q : Query) (v : Value) (rest : List (Operation Write Query Value))
      (found : m.read store q = some v) (later : Legal m store rest last) : Legal m store (.read q v :: rest) last

theorem legal_looks (m : ReplicatedStore Session Replica Write Query Value Store) (store last : Store) (n : Nat)
    (looks : List (Look Session Query Value)) (rest : List (Operation Write Query Value))
    (seen : ∀ l ∈ looks, l.bound = n → m.read store l.query = some l.value) (later : Legal m store rest last) :
    Legal m store ((looksAt looks n).map Prod.snd ++ rest) last := by
  induction looks with
  | nil => exact later
  | cons l others ih =>
      have inner := ih (fun other member => seen other (List.mem_cons_of_mem l member))
      by_cases here : l.bound = n
      · have all : (looksAt (l :: others) n : List (Session × Operation Write Query Value)) =
            (l.session, .read l.query l.value) :: looksAt others n := by
          simp [looksAt, here]
        rw [all]
        exact .read store last l.query l.value _ (seen l List.mem_cons_self here) inner
      · have all : (looksAt (l :: others) n : List (Session × Operation Write Query Value)) = looksAt others n := by
          simp [looksAt, here]
        rw [all]
        exact inner

theorem legal_follow (m : ReplicatedStore Session Replica Write Query Value Store) (log : List (Session × Write))
    (store last : Store) (n : Nat) (looks : List (Look Session Query Value))
    (replayed : replay m.write store (log.map Prod.snd) = some last)
    (seen : ∀ l ∈ looks, n < l.bound → l.bound ≤ n + log.length → ∃ there,
      replay m.write store ((log.take (l.bound - n)).map Prod.snd) = some there ∧ m.read there l.query = some l.value) :
    Legal m store ((follow looks n log).map Prod.snd) last := by
  induction log generalizing store n with
  | nil =>
      cases replayed
      exact .done _
  | cons e rest ih =>
      obtain ⟨next, wrote, replayed⟩ := Option.bind_eq_some_iff.mp replayed
      simp only [follow, List.map_append, List.map_cons, List.cons_append]
      refine .write store next last e.2 _ wrote ?_
      refine legal_looks m next last (n + 1) looks _ (fun l member here => ?_) (ih next (n + 1) replayed ?_)
      · obtain ⟨there, reached, read⟩ := seen l member (by omega) (by rw [List.length_cons]; omega)
        rw [here, Nat.add_sub_cancel_left] at reached
        have same : m.write store e.2 = some there := by simpa [replay] using reached
        rw [wrote] at same
        cases same
        exact read
      · intro l member low high
        obtain ⟨there, reached, read⟩ := seen l member (by omega) (by rw [List.length_cons]; omega)
        refine ⟨there, ?_, read⟩
        rw [show l.bound - n = (l.bound - (n + 1)) + 1 by omega, List.take_succ_cons, List.map_cons] at reached
        obtain ⟨other, again, reached⟩ := Option.bind_eq_some_iff.mp reached
        rw [wrote] at again
        cases again
        exact reached

section Order

variable [DecidableEq Session] (m : ReplicatedStore Session Replica Write Query Value Store)

-- An operation that was asked for after another one had been answered comes
-- after it, if it is a write or both are at one replica.
def RealTime (earlier : List (State Session Replica Write Query Value × Act Session Replica Write Query))
    (ops : List (Session × Operation Write Query Value)) : Prop :=
  ∀ (s b : Session) (op : Operation Write Query Value) (before after : List (Session × Operation Write Query Value)),
    ops = before ++ (b, op) :: after → (asked b earlier).length ≤ (own b before).length →
    (op.writes ≠ [] ∨ m.home s = m.home b) → answered s earlier <+: own s before

theorem real_time_write (earlier : List (State Session Replica Write Query Value × Act Session Replica Write Query))
    (ops : List (Session × Operation Write Query Value)) (x : Session × Operation Write Query Value)
    (told : ∀ s, answered s earlier <+: own s ops) (ordered : RealTime m earlier ops) : RealTime m earlier (ops ++ [x]) := by
  intro s b op before after split late kind
  rcases List.eq_nil_or_concat after with rfl | ⟨front, last, rfl⟩
  · obtain ⟨rfl, _⟩ := List.append_inj' split rfl
    exact told s
  · rw [List.concat_eq_append, ← List.cons_append, ← List.append_assoc] at split
    exact ordered s b op before front (List.append_inj' split rfl).1 late kind

theorem real_time_look (earlier : List (State Session Replica Write Query Value × Act Session Replica Write Query))
    (front rest : List (Session × Operation Write Query Value)) (u : Session) (q : Query) (v : Value)
    (told : ∀ s, m.home s = m.home u → answered s earlier <+: own s front) (last : own u rest = [])
    (ordered : RealTime m earlier (front ++ rest)) : RealTime m earlier (front ++ (u, .read q v) :: rest) := by
  intro s b op before after split late kind
  have here : (u, Operation.read q v) = (b, op) → before = front → answered s earlier <+: own s before := by
    rintro same rfl
    cases same
    rcases kind with write | home
    · exact absurd rfl write
    · exact told s home
  rcases List.append_eq_append_iff.mp split with ⟨middle, rfl, inner⟩ | ⟨middle, rfl, inner⟩
  · cases middle with
    | nil => exact here (List.cons.inj inner).1 (List.append_nil front)
    | cons x middle =>
        obtain ⟨rfl, same⟩ := List.cons.inj inner
        obtain rfl : rest = middle ++ (b, op) :: after := same
        have other : u ≠ b := by
          rintro rfl
          exact own_of_member u op _ (List.mem_append_right middle List.mem_cons_self) last
        have away : ∀ t, u ≠ t → own t (front ++ (u, .read q v) :: middle) = own t (front ++ middle) := by
          intro t other
          simp [own_cons, other]
        rw [away b other] at late
        have old := ordered s b op (front ++ middle) after (by simp) late kind
        by_cases mine : u = s
        · subst mine
          rw [own_append] at last
          rw [own_append, (List.append_eq_nil_iff.mp last).1, List.append_nil] at old
          rw [own_append]
          exact old.trans (List.prefix_append _ _)
        · rw [away s mine]
          exact old
  · cases middle with
    | nil => exact here (List.cons.inj inner).1.symm (List.append_nil before).symm
    | cons x middle =>
        obtain ⟨rfl, rfl⟩ := List.cons.inj inner
        exact ordered s b op before (middle ++ rest) (by simp) late kind

end Order

section Runs

variable (m : ReplicatedStore Session Replica Write Query Value Store)

def reach (st : State Session Replica Write Query Value) (s : Session) : Nat :=
  match st.phase s with
  | .taken _ bound => max bound (st.applied (m.home s))
  | _ => st.applied (m.home s)

theorem reach_other [DecidableEq Session] (st : State Session Replica Write Query Value) (log : List (Session × Write))
    (looks : List (Look Session Query Value)) (s t : Session) (phase : Phase Write Query Value) (other : t ≠ s) :
    reach m ⟨log, st.applied, looks, Function.update st.phase s phase⟩ t = reach m st t := by
  unfold reach
  simp only [Function.update_of_ne other]

theorem reach_grows [DecidableEq Replica] (st : State Session Replica Write Query Value) (r : Replica) (s : Session) :
    reach m st s ≤ reach m { st with applied := Function.update st.applied r (st.applied r + 1) } s := by
  have grown : st.applied (m.home s) ≤ Function.update st.applied r (st.applied r + 1) (m.home s) := by
    by_cases here : m.home s = r
    · subst here
      simp
    · simp [here]
  cases phase : st.phase s with
  | idle | requested => simpa [reach, phase] using grown
  | taken op bound =>
      simp only [reach, phase]
      omega

theorem store_at_grown (st : State Session Replica Write Query Value) (e : Session × Write) (applied : Replica → Nat)
    (looks : List (Look Session Query Value)) (phase : Session → Phase Write Query Value) (n : Nat)
    (inside : n ≤ st.log.length) : storeAt m ⟨st.log ++ [e], applied, looks, phase⟩ n = storeAt m st n := by
  simp only [storeAt, List.take_append_of_le_length inside]

variable [DecidableEq Session] [DecidableEq Replica]

structure LogInv (st : State Session Replica Write Query Value) : Prop where
  bounds : ∀ l ∈ st.looks, l.bound ≤ st.log.length
  applied : ∀ r, st.applied r ≤ st.log.length
  replays : ∃ store, replay m.write m.initial (st.log.map Prod.snd) = some store
  seen : ∀ l ∈ st.looks, ∃ store, storeAt m st l.bound = some store ∧ m.read store l.query = some l.value
  reached : ∀ s n, reach m st s ≤ n → own s (follow st.looks n (st.log.drop n)) = []

theorem log_inv_step (st next : State Session Replica Write Query Value) (act : Act Session Replica Write Query)
    (inv : LogInv m st) (moved : step m st act = some next) : LogInv m next := by
  obtain ⟨bounds, applied, replays, seen, reached⟩ := inv
  -- The entries of a session that is between two operations are all applied.
  have settles : ∀ (s : Session) (phase : Phase Write Query Value),
      (∀ n, reach m ⟨st.log, st.applied, st.looks, Function.update st.phase s phase⟩ s ≤ n → reach m st s ≤ n) →
      LogInv m ⟨st.log, st.applied, st.looks, Function.update st.phase s phase⟩ := by
    intro s phase less
    refine ⟨bounds, applied, replays, seen, fun t n past => ?_⟩
    by_cases here : t = s
    · subst here
      exact reached t n (less n past)
    · rw [reach_other m st st.log st.looks s t phase here] at past
      exact reached t n past
  cases step_cases m st next act moved with
  | pass => exact ⟨bounds, applied, replays, seen, reached⟩
  | invoke s request free =>
      refine settles s _ (fun n past => ?_)
      simpa [reach, free] using past
  | respond s op bound taken inside =>
      refine settles s _ (fun n past => ?_)
      simp only [reach, taken, Function.update_self] at past ⊢
      exact Nat.max_le.mpr ⟨Nat.le_trans inside past, past⟩
  | apply r more =>
      refine ⟨bounds, fun q => ?_, replays, seen, fun s n past => reached s n (Nat.le_trans (reach_grows m st r s) past)⟩
      by_cases here : q = r
      · subst here
        simp only [Function.update_self]
        exact more
      · simpa [here] using applied q
  | commit s w store asked replayed =>
      refine ⟨fun l member => ?_, fun r => ?_, ⟨store, replayed⟩, fun l member => ?_, fun t n past => ?_⟩
      · exact Nat.le_trans (bounds l member) (by simp)
      · exact Nat.le_trans (applied r) (by simp)
      · obtain ⟨there, same, read⟩ := seen l member
        exact ⟨there, (store_at_grown m st (s, w) _ _ _ l.bound (bounds l member)).trans same, read⟩
      · by_cases new : st.log.length < n
        · rw [List.drop_of_length_le (by rw [List.length_append, List.length_singleton]; exact new)]
          rfl
        · by_cases here : t = s
          · subst here
            simp only [reach, Function.update_self] at past
            omega
          · rw [reach_other m st _ st.looks s t _ here] at past
            rw [List.drop_append_of_le_length (by omega), follow_append, own_append, reached t n past, follow,
              looks_at_none st.looks _ (fun l member => ?_), own_append, own_cons, if_neg (Ne.symm here)]
            · rfl
            · have low := bounds l member
              rw [List.length_drop]
              omega
  | look s q store v asked here found =>
      refine ⟨fun l member => ?_, applied, replays, fun l member => ?_, fun t n past => ?_⟩
      · rcases List.mem_append.mp member with old | new
        · exact bounds l old
        · cases List.mem_singleton.mp new
          exact applied (m.home s)
      · rcases List.mem_append.mp member with old | new
        · exact seen l old
        · cases List.mem_singleton.mp new
          exact ⟨store, here, found⟩
      · by_cases mine : t = s
        · subst mine
          simp only [reach, Function.update_self, Nat.max_self] at past
          rw [follow_before st.looks _ n _ past]
          refine reached t n ?_
          simpa [reach, asked] using past
        · rw [reach_other m st st.log _ s t _ mine] at past
          rw [own_follow_other t st.looks _ n _ (Ne.symm mine)]
          exact reached t n past

theorem log_inv_reachable (st : State Session Replica Write Query Value) (reachable : (replicatedLog m).Reachable st) :
    LogInv m st := by
  refine Machine.invariant_reachable (replicatedLog m) (LogInv m) ?_ (fun s act t inv => log_inv_step m s t act inv) st
    reachable
  refine ⟨?_, fun _ => Nat.le_refl 0, ⟨m.initial, rfl⟩, ?_, fun s n _ => ?_⟩
  · intro l member
    cases member
  · intro l member
    cases member
  · rw [show (replicatedLog m).init.log = [] from rfl, List.drop_nil]
    rfl

theorem own_order (s : Session) (run : List (State Session Replica Write Query Value × Act Session Replica Write Query))
    (st : State Session Replica Write Query Value) (trace : (replicatedLog m).Trace run st) :
    own s (serial st.looks st.log) = answered s run ++ (st.phase s).effect := by
  induction trace with
  | init => rfl
  | step run st next act before moved ih =>
      have inv := log_inv_reachable m st (Machine.trace_reachable _ run st before)
      rw [answered_snoc]
      cases step_cases m st next act moved with
      | pass | apply => simpa [answer] using ih
      | invoke t request free =>
          by_cases here : t = s
          · subst here
            simpa [answer, free, Phase.effect] using ih
          · simpa [answer, Ne.symm here] using ih
      | commit t w store asked replayed =>
          rw [serial_write st.looks st.log (t, w) inv.bounds, own_append, ih, own_cons]
          by_cases here : t = s
          · subst here
            simp [answer, asked, Phase.effect]
          · simp [answer, here, Ne.symm here]
      | look t q store v asked there found =>
          rw [serial_look st.looks _ st.log (inv.applied (m.home t)), own_append, own_cons]
          rw [serial_split st.looks st.log _ (inv.applied (m.home t)), own_append] at ih
          by_cases here : t = s
          · subst here
            have none := inv.reached t (st.applied (m.home t)) (by simp [reach, asked])
            rw [none, List.append_nil] at ih
            rw [none, ih]
            simp [answer, asked, Phase.effect]
          · simp only [if_neg here, List.nil_append, ih]
            simp [answer, Ne.symm here]
      | respond t op bound taken inside =>
          by_cases here : t = s
          · subst here
            simpa [answer, taken, Phase.effect] using ih
          · simpa [answer, here, Ne.symm here] using ih

theorem front_step (st next : State Session Replica Write Query Value) (act : Act Session Replica Write Query)
    (inv : LogInv m st) (moved : step m st act = some next) (s : Session) (n : Nat) (past : n ≤ st.applied (m.home s)) :
    own s (serial st.looks (st.log.take n)) <+: own s (serial next.looks (next.log.take n)) := by
  have inside := Nat.le_trans past (inv.applied (m.home s))
  cases step_cases m st next act moved with
  | pass | invoke | apply | respond => exact List.prefix_refl _
  | commit t w store asked replayed =>
      rw [List.take_append_of_le_length inside]
  | look t q store v asked there found =>
      have length : (st.log.take n).length = n := by rw [List.length_take, Nat.min_eq_left inside]
      by_cases here : t = s
      · subst here
        rcases Nat.lt_or_eq_of_le past with below | same
        · rw [serial_beyond st.looks _ _ (by rw [length]; exact below)]
        · rw [serial_last st.looks _ _ (by rw [length, same]), own_append]
          exact List.prefix_append _ _
      · rw [own_serial_other s st.looks _ _ here]

theorem front_grows (looks : List (Look Session Query Value)) (log : List (Session × Write)) (s : Session) (n k : Nat)
    (le : n ≤ k) (inside : n ≤ log.length) : own s (serial looks (log.take n)) <+: own s (serial looks (log.take k)) := by
  rw [serial_split looks (log.take k) n (by rw [List.length_take]; exact Nat.le_min.mpr ⟨le, inside⟩), List.take_take,
    Nat.min_eq_left le, own_append]
  exact List.prefix_append _ _

theorem answered_applied (s : Session)
    (run : List (State Session Replica Write Query Value × Act Session Replica Write Query))
    (st : State Session Replica Write Query Value) (trace : (replicatedLog m).Trace run st) :
    answered s run <+: own s (serial st.looks (st.log.take (st.applied (m.home s)))) := by
  induction trace with
  | init => exact List.nil_prefix
  | step run st next act before moved ih =>
      have inv := log_inv_reachable m st (Machine.trace_reachable _ run st before)
      have front := ih.trans (front_step m st next act inv moved s _ (Nat.le_refl _))
      rw [answered_snoc]
      cases step_cases m st next act moved with
      | pass | invoke | commit | look =>
          simp only [answer, Option.toList_none, List.append_nil]
          exact front
      | apply r more =>
          simp only [answer, Option.toList_none, List.append_nil]
          refine ih.trans (front_grows st.looks st.log s _ _ ?_ (inv.applied (m.home s)))
          by_cases here : m.home s = r
          · subst here
            simp
          · simp [here]
      | respond t op bound taken inside =>
          by_cases here : t = s
          · subst here
            have all := own_order m t run st before
            have none := inv.reached t (st.applied (m.home t)) (by simp [reach, taken, inside])
            rw [serial_split st.looks st.log _ (inv.applied (m.home t)), own_append, none, List.append_nil, taken] at all
            simp [answer, taken, Phase.effect, all]
          · simpa [answer, here] using ih

structure SinceCut (cut : State Session Replica Write Query Value)
    (earlier : List (State Session Replica Write Query Value × Act Session Replica Write Query))
    (st : State Session Replica Write Query Value) : Prop where
  grown : ∀ r, cut.applied r ≤ st.applied r
  front : ∀ s, answered s earlier <+: own s (serial st.looks (st.log.take (cut.applied (m.home s))))
  ordered : RealTime m earlier (serial st.looks st.log)

theorem since_cut_refl (earlier : List (State Session Replica Write Query Value × Act Session Replica Write Query))
    (cut : State Session Replica Write Query Value) (trace : (replicatedLog m).Trace earlier cut) :
    SinceCut m cut earlier cut := by
  refine ⟨fun _ => Nat.le_refl _, fun s => answered_applied m s earlier cut trace, ?_⟩
  -- Everything in the order so far has been asked for.
  intro s b op before after split late
  have all := congrArg List.length (own_order m b earlier cut trace)
  have count := asked_count m b earlier cut trace
  rw [split, own_append, own_cons, if_pos rfl] at all
  simp only [List.length_append, List.length_singleton] at all
  have effects : (cut.phase b).effect.length ≤ (cut.phase b).waiting := by
    cases cut.phase b <;> simp [Phase.effect, Phase.waiting]
  omega

theorem since_cut_step (earlier : List (State Session Replica Write Query Value × Act Session Replica Write Query))
    (cut st next : State Session Replica Write Query Value) (act : Act Session Replica Write Query) (inv : LogInv m st)
    (since : SinceCut m cut earlier st) (moved : step m st act = some next) : SinceCut m cut earlier next := by
  obtain ⟨grown, front, ordered⟩ := since
  have kept : ∀ s, answered s earlier <+: own s (serial next.looks (next.log.take (cut.applied (m.home s)))) :=
    fun s => (front s).trans (front_step m st next act inv moved s _ (grown _))
  cases step_cases m st next act moved with
  | pass | invoke | respond => exact ⟨grown, kept, ordered⟩
  | apply r more =>
      refine ⟨fun q => Nat.le_trans (grown q) ?_, kept, ordered⟩
      by_cases here : q = r
      · subst here
        simp
      · simp [here]
  | commit u w store asked replayed =>
      refine ⟨grown, kept, ?_⟩
      rw [serial_write st.looks st.log (u, w) inv.bounds]
      refine real_time_write m earlier _ _ (fun s => ?_) ordered
      have inside := Nat.le_trans (grown (m.home s)) (inv.applied (m.home s))
      rw [serial_split st.looks st.log _ inside, own_append]
      exact (front s).trans (List.prefix_append _ _)
  | look u q store v asked there found =>
      refine ⟨grown, kept, ?_⟩
      rw [serial_look st.looks _ st.log (inv.applied (m.home u))]
      rw [serial_split st.looks st.log _ (inv.applied (m.home u))] at ordered
      refine real_time_look m earlier _ _ u q v (fun s home => ?_) (inv.reached u _ (by simp [reach, asked])) ordered
      have inside := Nat.le_trans (grown (m.home s)) (inv.applied (m.home s))
      refine (front s).trans (front_grows st.looks st.log s _ _ ?_ inside)
      rw [← home]
      exact grown (m.home s)

theorem since_cut (run : List (State Session Replica Write Query Value × Act Session Replica Write Query))
    (st : State Session Replica Write Query Value) (trace : (replicatedLog m).Trace run st)
    (earlier later : List (State Session Replica Write Query Value × Act Session Replica Write Query))
    (split : run = earlier ++ later) : ∃ cut, (replicatedLog m).Trace earlier cut ∧ SinceCut m cut earlier st := by
  induction trace generalizing later with
  | init =>
      obtain ⟨rfl, rfl⟩ := List.append_eq_nil_iff.mp split.symm
      exact ⟨_, .init, since_cut_refl m [] _ .init⟩
  | step run st next act before moved ih =>
      rcases List.eq_nil_or_concat later with rfl | ⟨front, last, rfl⟩
      · rw [List.append_nil] at split
        subst split
        exact ⟨next, .step run st next act before moved, since_cut_refl m _ next (.step run st next act before moved)⟩
      · rw [List.concat_eq_append, ← List.append_assoc] at split
        obtain ⟨cut, trace, since⟩ := ih front (List.append_inj' split rfl).1
        have inv := log_inv_reachable m st (Machine.trace_reachable _ run st before)
        exact ⟨cut, trace, since_cut_step m earlier cut st next act inv since moved⟩

structure Serializes (run : List (State Session Replica Write Query Value × Act Session Replica Write Query))
    (st : State Session Replica Write Query Value) (ops : List (Session × Operation Write Query Value)) : Prop where
  legal : ∃ last, Legal m m.initial (ops.map Prod.snd) last
  writes : ops.flatMap (fun x => x.2.writes) = st.log.map Prod.snd
  own : ∀ s, own s ops = answered s run ++ (st.phase s).effect
  realTime : ∀ earlier later, run = earlier ++ later → RealTime m earlier ops

theorem serializes (run : List (State Session Replica Write Query Value × Act Session Replica Write Query))
    (st : State Session Replica Write Query Value) (trace : (replicatedLog m).Trace run st) :
    Serializes m run st (serial st.looks st.log) := by
  have inv := log_inv_reachable m st (Machine.trace_reachable _ run st trace)
  refine ⟨?_, ?_, fun s => own_order m s run st trace, fun earlier later split => ?_⟩
  · obtain ⟨last, replayed⟩ := inv.replays
    refine ⟨last, ?_⟩
    rw [serial, List.map_append]
    refine legal_looks m m.initial last 0 st.looks _ (fun l member here => ?_)
      (legal_follow m st.log m.initial last 0 st.looks replayed (fun l member _ _ => inv.seen l member))
    obtain ⟨store, same, read⟩ := inv.seen l member
    rw [here] at same
    cases same
    exact read
  · rw [serial, List.flatMap_append, looks_at_writes, follow_writes]
    rfl
  · obtain ⟨cut, _, since⟩ := since_cut m run st trace earlier later split
    exact since.ordered

end Runs

end ReplicatedLog

end EpochReplication
