import EpochReplication.Lib.Machine

set_option autoImplicit false

namespace EpochReplication

namespace Machine

variable {State Act : Type}

def Leads (m : Machine State Act) (allowed : Act → Prop) (s t : State) : Prop :=
  ∃ acts, (∀ act ∈ acts, allowed act) ∧ m.exec s acts = some t

theorem leads_refl (m : Machine State Act) (allowed : Act → Prop) (s : State) : Leads m allowed s s :=
  ⟨[], by simp, rfl⟩

theorem leads_one (m : Machine State Act) (allowed : Act → Prop) (s t : State) (act : Act) (kind : allowed act)
    (taken : m.step s act = some t) : Leads m allowed s t := by
  refine ⟨[act], ?_, ?_⟩
  · intro other member
    rw [List.mem_singleton.mp member]
    exact kind
  · simp only [exec, taken, Option.bind_some]

theorem leads_trans (m : Machine State Act) (allowed : Act → Prop) (s t u : State) (first : Leads m allowed s t)
    (rest : Leads m allowed t u) : Leads m allowed s u := by
  obtain ⟨acts, kinds, ran⟩ := first
  obtain ⟨more, others, later⟩ := rest
  refine ⟨acts ++ more, ?_, (exec_append m acts more s t ran).trans later⟩
  intro act member
  exact (List.mem_append.mp member).elim (kinds act) (others act)

theorem leads_step (m : Machine State Act) (allowed : Act → Prop) (s t u : State) (act : Act) (kind : allowed act)
    (taken : m.step s act = some t) (rest : Leads m allowed t u) : Leads m allowed s u :=
  leads_trans m allowed s t u (leads_one m allowed s t act kind taken) rest

theorem leads_weaken (m : Machine State Act) (few many : Act → Prop) (s t : State) (weaker : ∀ act, few act → many act)
    (leads : Leads m few s t) : Leads m many s t := by
  obtain ⟨acts, kinds, ran⟩ := leads
  exact ⟨acts, fun act member => weaker act (kinds act member), ran⟩

theorem leads_reachable (m : Machine State Act) (allowed : Act → Prop) (s t : State) (reachable : Reachable m s)
    (leads : Leads m allowed s t) : Reachable m t := by
  obtain ⟨acts, _, ran⟩ := leads
  exact reachable_exec m acts s t reachable ran

theorem leads_relates (m : Machine State Act) (allowed : Act → Prop) (rel : State → State → Prop) (refl : ∀ s, rel s s)
    (trans : ∀ s t u, rel s t → rel t u → rel s u)
    (step : ∀ s act t, allowed act → m.step s act = some t → rel s t) (s t : State) (leads : Leads m allowed s t) :
    rel s t := by
  obtain ⟨acts, kinds, ran⟩ := leads
  induction acts generalizing s with
  | nil =>
      cases ran
      exact refl _
  | cons act rest ih =>
      obtain ⟨next, taken, ran⟩ := Option.bind_eq_some_iff.mp ran
      have first := step s act next (kinds act List.mem_cons_self) taken
      exact trans s next t first (ih next (fun other member => kinds other (List.mem_cons_of_mem act member)) ran)

theorem leads_invariant (m : Machine State Act) (allowed : Act → Prop) (inv : State → Prop)
    (preserved : ∀ s act t, inv s → m.step s act = some t → inv t) (s t : State) (start : inv s)
    (leads : Leads m allowed s t) : inv t := by
  obtain ⟨acts, -, ran⟩ := leads
  induction acts generalizing s with
  | nil =>
      cases ran
      exact start
  | cons act rest ih =>
      obtain ⟨next, taken, ran⟩ := Option.bind_eq_some_iff.mp ran
      exact ih next (preserved s act next start taken) ran

theorem leads_embeds {State' Act' : Type} (m : Machine State Act) (n : Machine State' Act') (allowed : Act → Prop)
    (allowed' : Act' → Prop) (rel : State → State' → Prop)
    (matched : ∀ s s' act t, rel s s' → allowed act → m.step s act = some t →
      ∃ act' t', allowed' act' ∧ n.step s' act' = some t' ∧ rel t t') (s t : State) (s' : State') (start : rel s s')
    (leads : Leads m allowed s t) : ∃ t', Leads n allowed' s' t' ∧ rel t t' := by
  obtain ⟨acts, kinds, ran⟩ := leads
  induction acts generalizing s s' with
  | nil =>
      cases ran
      exact ⟨s', leads_refl n allowed' s', start⟩
  | cons act rest ih =>
      obtain ⟨next, taken, ran⟩ := Option.bind_eq_some_iff.mp ran
      obtain ⟨act', next', kind, moved, related⟩ := matched s s' act next start (kinds act List.mem_cons_self) taken
      obtain ⟨t', later, reached⟩ := ih next next' related (fun other member => kinds other (List.mem_cons_of_mem act member)) ran
      exact ⟨t', leads_step n allowed' s' next' t' act' kind moved later, reached⟩

theorem leads_until (m : Machine State Act) (allowed : Act → Prop) (inv goal : State → Prop) (measure : State → Nat)
    (closer : ∀ s, inv s → ¬ goal s → ∃ t, Leads m allowed s t ∧ inv t ∧ measure t < measure s) (s : State)
    (start : inv s) : ∃ t, Leads m allowed s t ∧ inv t ∧ goal t := by
  induction work : measure s using Nat.strongRecOn generalizing s with
  | ind n ih =>
      by_cases done : goal s
      · exact ⟨s, leads_refl m allowed s, start, done⟩
      · obtain ⟨t, first, later, less⟩ := closer s start done
        obtain ⟨u, rest, kept, reached⟩ := ih (measure t) (work ▸ less) t later rfl
        exact ⟨u, leads_trans m allowed s t u first rest, kept, reached⟩

end Machine

end EpochReplication
