import Mathlib.Data.List.Forall2
import Mathlib.Tactic.Common

set_option autoImplicit false

namespace EpochReplication

-- A labelled transition system whose step is a partial function. Everything a
-- step leaves open (a schedule, a message to deliver, the content of
-- uninitialised memory) is carried by its label.
structure Machine (State Act : Type) where
  init : State
  step : State → Act → Option State

namespace Machine

variable {State Act : Type}

def exec (m : Machine State Act) : State → List Act → Option State
  | s, [] => some s
  | s, act :: rest => (m.step s act).bind (fun next => m.exec next rest)

inductive Reachable (m : Machine State Act) : State → Prop where
  | init : Reachable m m.init
  | step (s t : State) (act : Act) (before : Reachable m s) (taken : m.step s act = some t) :
      Reachable m t

inductive Trace (m : Machine State Act) : List (State × Act) → State → Prop where
  | init : Trace m [] m.init
  | step (run : List (State × Act)) (s t : State) (act : Act) (before : Trace m run s)
      (taken : m.step s act = some t) : Trace m (run ++ [(s, act)]) t

theorem reachable_exec (m : Machine State Act) (acts : List Act) (s t : State)
    (start : Reachable m s) (ran : m.exec s acts = some t) : Reachable m t := by
  induction acts generalizing s with
  | nil =>
      cases ran
      exact start
  | cons act rest ih =>
      obtain ⟨next, taken, ran⟩ := Option.bind_eq_some_iff.mp ran
      exact ih next (.step s next act start taken) ran

theorem exec_append (m : Machine State Act) (first rest : List Act) (s t : State) (ran : m.exec s first = some t) :
    m.exec s (first ++ rest) = m.exec t rest := by
  induction first generalizing s with
  | nil =>
      cases ran
      rfl
  | cons act acts ih =>
      obtain ⟨next, taken, ran⟩ := Option.bind_eq_some_iff.mp ran
      simp only [List.cons_append, exec, taken, Option.bind_some]
      exact ih next ran

theorem exec_through (m : Machine State Act) (first rest : List Act) (act : Act) (s t : State)
    (ran : m.exec s (first ++ act :: rest) = some t) :
    ∃ d next, m.exec s first = some d ∧ m.step d act = some next ∧ m.exec next rest = some t := by
  induction first generalizing s with
  | nil =>
      obtain ⟨next, taken, ran⟩ := Option.bind_eq_some_iff.mp ran
      exact ⟨s, next, rfl, taken, ran⟩
  | cons other acts ih =>
      obtain ⟨after, taken, ran⟩ := Option.bind_eq_some_iff.mp ran
      obtain ⟨d, next, here, later⟩ := ih after ran
      exact ⟨d, next, by simp only [exec, taken, Option.bind_some, here], later⟩

theorem trace_reachable (m : Machine State Act) (run : List (State × Act)) (s : State)
    (trace : Trace m run s) : Reachable m s := by
  induction trace with
  | init => exact .init
  | step run s t act _ taken ih => exact .step s t act ih taken

theorem trace_source_reachable (m : Machine State Act) (run : List (State × Act)) (s : State)
    (trace : Trace m run s) (x : State × Act) (member : x ∈ run) :
    Reachable m x.1 ∧ ∃ t, m.step x.1 x.2 = some t := by
  induction trace with
  | init => cases member
  | step run s t act before taken ih =>
      rcases List.mem_append.mp member with earlier | last
      · exact ih earlier
      · cases List.mem_singleton.mp last
        exact ⟨trace_reachable m run s before, t, taken⟩

theorem trace_before (m : Machine State Act) (run : List (State × Act)) (s : State)
    (trace : Trace m run s) (x : State × Act) (member : x ∈ run) :
    ∃ earlier, Trace m earlier x.1 ∧ ∀ y ∈ earlier, y ∈ run := by
  induction trace with
  | init => cases member
  | step run s t act before taken ih =>
      rcases List.mem_append.mp member with inside | last
      · obtain ⟨earlier, trace, within⟩ := ih inside
        exact ⟨earlier, trace, fun y found => List.mem_append_left _ (within y found)⟩
      · cases List.mem_singleton.mp last
        exact ⟨run, before, fun y found => List.mem_append_left _ found⟩

theorem trace_after (m : Machine State Act) (run : List (State × Act)) (s : State)
    (trace : Trace m run s) (x : State × Act) (member : x ∈ run) :
    ∃ t, m.step x.1 x.2 = some t ∧ (t = s ∨ ∃ y ∈ run, y.1 = t) := by
  induction trace with
  | init => cases member
  | step run s t act before taken ih =>
      rcases List.mem_append.mp member with inside | last
      · obtain ⟨next, moved, rfl | ⟨y, found, rfl⟩⟩ := ih inside
        · exact ⟨_, moved, .inr ⟨(_, act), by simp, rfl⟩⟩
        · exact ⟨_, moved, .inr ⟨y, List.mem_append_left _ found, rfl⟩⟩
      · cases List.mem_singleton.mp last
        exact ⟨t, taken, .inl rfl⟩

theorem trace_stable (m : Machine State Act) (stays : State → Prop)
    (kept : ∀ s act t, stays s → m.step s act = some t → stays t) (run : List (State × Act)) (s : State)
    (trace : Trace m run s) (x : State × Act) (member : x ∈ run) (here : stays x.1) : stays s := by
  induction trace with
  | init => cases member
  | step run s t act before taken ih =>
      rcases List.mem_append.mp member with earlier | last
      · exact kept s act t (ih earlier) taken
      · cases List.mem_singleton.mp last
        exact kept s act t here taken

theorem reachable_trace (m : Machine State Act) (s : State) (reachable : Reachable m s) : ∃ run, Trace m run s := by
  induction reachable with
  | init => exact ⟨[], .init⟩
  | step s t act _ taken ih =>
      obtain ⟨run, trace⟩ := ih
      exact ⟨run ++ [(s, act)], .step run s t act trace taken⟩

theorem trace_prefix (m : Machine State Act) (earlier later : List (State × Act)) (x : State × Act) (s : State)
    (trace : Trace m (earlier ++ x :: later) s) : Trace m earlier x.1 := by
  generalize same : earlier ++ x :: later = run at trace
  induction trace generalizing later with
  | init => simp at same
  | step run s t act before taken ih =>
      rcases List.eq_nil_or_concat later with rfl | ⟨front, last, rfl⟩
      · obtain ⟨rfl, final⟩ := List.append_inj' same rfl
        obtain rfl : x = (s, act) := (List.cons.inj final).1
        exact before
      · rw [List.concat_eq_append, ← List.cons_append, ← List.append_assoc] at same
        exact ih front (List.append_inj' same rfl).1

theorem trace_relates (m : Machine State Act) (rel : State → State → Prop) (trans : ∀ s t u, rel s t → rel t u → rel s u)
    (moves : ∀ s act t, Reachable m s → m.step s act = some t → rel s t) (run : List (State × Act)) (s : State)
    (trace : Trace m run s) : (∀ x ∈ run, rel x.1 s) ∧ run.Pairwise (fun x y => rel x.1 y.1) := by
  induction trace with
  | init => simp
  | step run s t act before taken ih =>
      obtain ⟨ends, pairs⟩ := ih
      have moved := moves s act t (trace_reachable m run s before) taken
      refine ⟨fun x member => ?_, List.pairwise_append.mpr ⟨pairs, List.pairwise_singleton _ _, fun x member y last => ?_⟩⟩
      · rcases List.mem_append.mp member with earlier | last
        · exact trans x.1 s t (ends x earlier) moved
        · cases List.mem_singleton.mp last
          exact moved
      · cases List.mem_singleton.mp last
        exact ends x member

theorem trace_exec (m : Machine State Act) (run : List (State × Act)) (acts : List Act) (s t : State) (trace : Trace m run s)
    (ran : m.exec s acts = some t) : ∃ more, Trace m (run ++ more) t ∧ more.map Prod.snd = acts := by
  induction acts generalizing run s with
  | nil =>
      cases ran
      exact ⟨[], by simpa using trace, rfl⟩
  | cons act rest ih =>
      obtain ⟨next, taken, ran⟩ := Option.bind_eq_some_iff.mp ran
      obtain ⟨more, later, same⟩ := ih (run ++ [(s, act)]) next (.step run s next act trace taken) ran
      exact ⟨(s, act) :: more, by simpa using later, by simp [same]⟩

theorem invariant_reachable (m : Machine State Act) (inv : State → Prop) (initial : inv m.init)
    (preserved : ∀ s act t, inv s → m.step s act = some t → inv t) (s : State)
    (reachable : Reachable m s) : inv s := by
  induction reachable with
  | init => exact initial
  | step s t act _ taken ih => exact preserved s act t ih taken

-- One machine seen through another: every step of the first is a step of the
-- second on the projected states, or is not visible there.
structure Projects {State' Act' : Type} (m : Machine State Act) (n : Machine State' Act')
    (view : State → State') : Prop where
  init : view m.init = n.init
  step : ∀ s act t, m.step s act = some t → view t = view s ∨ ∃ act', n.step (view s) act' = some (view t)

theorem projects_reachable {State' Act' : Type} (m : Machine State Act) (n : Machine State' Act')
    (view : State → State') (projects : Projects m n view) (s : State) (reachable : Reachable m s) :
    Reachable n (view s) := by
  induction reachable with
  | init =>
      rw [projects.init]
      exact .init
  | step s t act _ taken ih =>
      rcases projects.step s act t taken with same | ⟨act', moved⟩
      · rw [same]
        exact ih
      · exact .step (view s) (view t) act' ih moved

-- A machine whose reachable steps are all matched, one by one, by steps of
-- another; `matched` says which step of the one goes with which of the other.
structure Simulates {State' Act' : Type} (m : Machine State Act) (n : Machine State' Act')
    (rel : State → State' → Prop) (matched : State × Act → State' × Act' → Prop) : Prop where
  init : rel m.init n.init
  step : ∀ s t act next, Reachable m s → rel s t → m.step s act = some next →
    ∃ act' next', n.step t act' = some next' ∧ rel next next' ∧ matched (s, act) (t, act')

theorem simulates_trace {State' Act' : Type} (m : Machine State Act) (n : Machine State' Act')
    (rel : State → State' → Prop) (matched : State × Act → State' × Act' → Prop) (simulates : Simulates m n rel matched)
    (run : List (State × Act)) (s : State) (trace : Trace m run s) :
    ∃ run' t, Trace n run' t ∧ rel s t ∧ List.Forall₂ matched run run' := by
  induction trace with
  | init => exact ⟨[], n.init, .init, simulates.init, .nil⟩
  | step run s next act before taken ih =>
      obtain ⟨run', t, trace, related, pairs⟩ := ih
      obtain ⟨act', next', moved, follows, pair⟩ :=
        simulates.step s t act next (trace_reachable m run s before) related taken
      exact ⟨run' ++ [(t, act')], next', .step run' t next' act' trace moved, follows,
        List.rel_append pairs (.cons pair .nil)⟩

end Machine

end EpochReplication
