import EpochReplication.Lib.Machine
import EpochReplication.Lib.Replay
import Mathlib.Logic.Function.Basic

set_option autoImplicit false

namespace EpochReplication

-- A store that is kept at several replicas, and the sessions that use it. A
-- session stays with one replica.
structure ReplicatedStore (Session Replica Write Query Value Store : Type) where
  home : Session → Replica
  initial : Store
  write : Store → Write → Option Store
  read : Store → Query → Option Value

namespace ReplicatedLog

inductive Request (Write Query : Type) where
  | write (w : Write)
  | read (q : Query)

inductive Operation (Write Query Value : Type) where
  | write (w : Write)
  | read (q : Query) (v : Value)

-- A session asks for one thing at a time. `bound` is how much of the log the
-- operation knows: a write itself is the last entry of it.
inductive Phase (Write Query Value : Type) where
  | idle
  | requested (request : Request Write Query)
  | taken (op : Operation Write Query Value) (bound : Nat)

structure Look (Session Query Value : Type) where
  session : Session
  query : Query
  value : Value
  bound : Nat

-- `looks` is history: the reads in the order in which they happened.
structure State (Session Replica Write Query Value : Type) where
  log : List (Session × Write)
  applied : Replica → Nat
  looks : List (Look Session Query Value)
  phase : Session → Phase Write Query Value

inductive Act (Session Replica Write Query : Type) where
  | pass
  | invoke (s : Session) (request : Request Write Query)
  | commit (s : Session)
  | apply (r : Replica)
  | look (s : Session)
  | respond (s : Session)

variable {Session Replica Write Query Value Store : Type}

def Operation.request : Operation Write Query Value → Request Write Query
  | .write w => .write w
  | .read q _ => .read q

def Operation.writes : Operation Write Query Value → List Write
  | .write w => [w]
  | .read _ _ => []

def Phase.effect : Phase Write Query Value → List (Operation Write Query Value)
  | .taken op _ => [op]
  | _ => []

def storeAt (m : ReplicatedStore Session Replica Write Query Value Store)
    (st : State Session Replica Write Query Value) (n : Nat) : Option Store :=
  replay m.write m.initial ((st.log.take n).map Prod.snd)

section History

variable [DecidableEq Session]

def asks (s : Session) (x : State Session Replica Write Query Value × Act Session Replica Write Query) :
    Option (Request Write Query) :=
  match x.2 with
  | .invoke t request => if t = s then some request else none
  | _ => none

def answer (s : Session) (x : State Session Replica Write Query Value × Act Session Replica Write Query) :
    Option (Operation Write Query Value) :=
  match x.2 with
  | .respond t => if t = s then (x.1.phase s).effect.head? else none
  | _ => none

def asked (s : Session) (run : List (State Session Replica Write Query Value × Act Session Replica Write Query)) :
    List (Request Write Query) := run.filterMap (asks s)

def answered (s : Session) (run : List (State Session Replica Write Query Value × Act Session Replica Write Query)) :
    List (Operation Write Query Value) := run.filterMap (answer s)

theorem asked_snoc (s : Session) (run : List (State Session Replica Write Query Value × Act Session Replica Write Query))
    (x : State Session Replica Write Query Value × Act Session Replica Write Query) :
    asked s (run ++ [x]) = asked s run ++ (asks s x).toList := by
  rw [asked, List.filterMap_append]
  cases one : asks s x <;> simp [one, asked]

theorem answered_snoc (s : Session)
    (run : List (State Session Replica Write Query Value × Act Session Replica Write Query))
    (x : State Session Replica Write Query Value × Act Session Replica Write Query) :
    answered s (run ++ [x]) = answered s run ++ (answer s x).toList := by
  rw [answered, List.filterMap_append]
  cases one : answer s x <;> simp [one, answered]

end History

-- One order of all writes, one pointer into it for each replica. A write is
-- answered once the own replica has applied it, a read sees what it has applied.
def step [DecidableEq Session] [DecidableEq Replica] (m : ReplicatedStore Session Replica Write Query Value Store)
    (st : State Session Replica Write Query Value) :
    Act Session Replica Write Query → Option (State Session Replica Write Query Value)
  | .pass => some st
  | .invoke s request =>
      match st.phase s with
      | .idle => some { st with phase := Function.update st.phase s (.requested request) }
      | _ => none
  | .commit s =>
      match st.phase s with
      | .requested (.write w) =>
          (replay m.write m.initial ((st.log ++ [(s, w)]).map Prod.snd)).map (fun _ =>
            { st with
              log := st.log ++ [(s, w)]
              phase := Function.update st.phase s (.taken (.write w) (st.log.length + 1)) })
      | _ => none
  | .apply r =>
      if st.applied r < st.log.length then some { st with applied := Function.update st.applied r (st.applied r + 1) }
      else none
  | .look s =>
      match st.phase s with
      | .requested (.read q) =>
          ((storeAt m st (st.applied (m.home s))).bind (fun store => m.read store q)).map (fun v =>
            { st with
              looks := st.looks ++ [⟨s, q, v, st.applied (m.home s)⟩]
              phase := Function.update st.phase s (.taken (.read q v) (st.applied (m.home s))) })
      | _ => none
  | .respond s =>
      match st.phase s with
      | .taken _ bound =>
          if bound ≤ st.applied (m.home s) then some { st with phase := Function.update st.phase s .idle } else none
      | _ => none

end ReplicatedLog

def replicatedLog {Session Replica Write Query Value Store : Type} [DecidableEq Session] [DecidableEq Replica]
    (m : ReplicatedStore Session Replica Write Query Value Store) :
    Machine (ReplicatedLog.State Session Replica Write Query Value) (ReplicatedLog.Act Session Replica Write Query) :=
  ⟨⟨[], fun _ => 0, [], fun _ => .idle⟩, ReplicatedLog.step m⟩

namespace ReplicatedLog

variable {Session Replica Write Query Value Store : Type} [DecidableEq Session] [DecidableEq Replica]

inductive Step (m : ReplicatedStore Session Replica Write Query Value Store)
    (st : State Session Replica Write Query Value) :
    Act Session Replica Write Query → State Session Replica Write Query Value → Prop where
  | pass : Step m st .pass st
  | invoke (s : Session) (request : Request Write Query) (free : st.phase s = .idle) :
      Step m st (.invoke s request) { st with phase := Function.update st.phase s (.requested request) }
  | commit (s : Session) (w : Write) (store : Store) (asked : st.phase s = .requested (.write w))
      (replayed : replay m.write m.initial ((st.log ++ [(s, w)]).map Prod.snd) = some store) :
      Step m st (.commit s)
        { st with
          log := st.log ++ [(s, w)]
          phase := Function.update st.phase s (.taken (.write w) (st.log.length + 1)) }
  | apply (r : Replica) (more : st.applied r < st.log.length) :
      Step m st (.apply r) { st with applied := Function.update st.applied r (st.applied r + 1) }
  | look (s : Session) (q : Query) (store : Store) (v : Value) (asked : st.phase s = .requested (.read q))
      (here : storeAt m st (st.applied (m.home s)) = some store) (found : m.read store q = some v) :
      Step m st (.look s)
        { st with
          looks := st.looks ++ [⟨s, q, v, st.applied (m.home s)⟩]
          phase := Function.update st.phase s (.taken (.read q v) (st.applied (m.home s))) }
  | respond (s : Session) (op : Operation Write Query Value) (bound : Nat) (taken : st.phase s = .taken op bound)
      (applied : bound ≤ st.applied (m.home s)) :
      Step m st (.respond s) { st with phase := Function.update st.phase s .idle }

theorem step_cases (m : ReplicatedStore Session Replica Write Query Value Store)
    (st next : State Session Replica Write Query Value) (act : Act Session Replica Write Query)
    (moved : step m st act = some next) : Step m st act next := by
  cases act with
  | pass =>
      cases moved
      exact .pass
  | invoke s request =>
      cases phase : st.phase s with
      | idle =>
          simp only [step, phase] at moved
          cases moved
          exact .invoke s request phase
      | requested | taken => simp [step, phase] at moved
  | commit s =>
      cases phase : st.phase s with
      | idle | taken => simp [step, phase] at moved
      | requested request =>
          cases request with
          | write w =>
              simp only [step, phase] at moved
              obtain ⟨store, replayed, rfl⟩ := Option.map_eq_some_iff.mp moved
              exact .commit s w store phase replayed
          | read => simp [step, phase] at moved
  | apply r =>
      simp only [step] at moved
      split at moved
      · rename_i more
        cases moved
        exact .apply r more
      · cases moved
  | look s =>
      cases phase : st.phase s with
      | idle | taken => simp [step, phase] at moved
      | requested request =>
          cases request with
          | write => simp [step, phase] at moved
          | read q =>
              simp only [step, phase] at moved
              obtain ⟨v, seen, rfl⟩ := Option.map_eq_some_iff.mp moved
              obtain ⟨store, here, found⟩ := Option.bind_eq_some_iff.mp seen
              exact .look s q store v phase here found
  | respond s =>
      cases phase : st.phase s with
      | idle | requested => simp [step, phase] at moved
      | taken op bound =>
          simp only [step, phase] at moved
          split at moved
          · rename_i applied
            cases moved
            exact .respond s op bound phase applied
          · cases moved

theorem step_taken (m : ReplicatedStore Session Replica Write Query Value Store)
    (st next : State Session Replica Write Query Value) (act : Act Session Replica Write Query)
    (moves : Step m st act next) : step m st act = some next := by
  cases moves with
  | pass => rfl
  | invoke s request free => simp only [step, free]
  | commit s w store asked replayed => simp only [step, asked, replayed, Option.map_some]
  | apply r more => simp only [step, if_pos more]
  | look s q store v asked here found => simp only [step, asked, here, found, Option.bind_some, Option.map_some]
  | respond s op bound taken applied => simp only [step, taken, if_pos applied]

def Phase.waiting : Phase Write Query Value → Nat
  | .idle => 0
  | _ => 1

theorem asked_count (m : ReplicatedStore Session Replica Write Query Value Store) (s : Session)
    (run : List (State Session Replica Write Query Value × Act Session Replica Write Query))
    (st : State Session Replica Write Query Value) (trace : (replicatedLog m).Trace run st) :
    (asked s run).length = (answered s run).length + (st.phase s).waiting := by
  induction trace with
  | init => rfl
  | step run st next act before moved ih =>
      rw [asked_snoc, answered_snoc, List.length_append, List.length_append, ih]
      have unmoved : asks s (st, act) = none → answer s (st, act) = none → (next.phase s).waiting = (st.phase s).waiting →
          (answered s run).length + (st.phase s).waiting + (asks s (st, act)).toList.length =
            (answered s run).length + (answer s (st, act)).toList.length + (next.phase s).waiting := by
        intro quiet silent same
        rw [quiet, silent, same]
        rfl
      cases step_cases m st next act moved with
      | pass | apply => exact unmoved rfl rfl rfl
      | invoke t request free =>
          by_cases own : t = s
          · subst own
            simp [asks, answer, Phase.waiting, free]
          · exact unmoved (if_neg own) rfl (by simp [Ne.symm own])
      | commit t w store waits | look t q store v waits =>
          refine unmoved rfl rfl ?_
          by_cases own : t = s
          · subst own
            simp [Phase.waiting, waits]
          · simp [Ne.symm own]
      | respond t op bound taken =>
          by_cases own : t = s
          · subst own
            simp [asks, answer, Phase.waiting, Phase.effect, taken]
          · exact unmoved rfl (if_neg own) (by simp [Ne.symm own])

end ReplicatedLog

end EpochReplication
