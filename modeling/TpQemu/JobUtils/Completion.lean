import TpQemu.JobUtils.Machine

/-!
# The end of a block job

What `wait_until_block_job_completed` keeps along every run of the function and the job: the
commands it has sent, what it knows of the job before each call, and how many calls are left.
-/

namespace TpQemu.JobUtils

/-! ## The job -/

/-- What holds of the job wherever the function is. -/
structure Kept (c : Config) (s : State) : Prop where
  /-- The event of the job is there only after the job has been concluded, and it tells
  its outcome. -/
  events : ∀ e, e ∈ s.log ∨ s.coming = some e → c.own e = true →
    s.status.active = false ∧ c.outcome = .completed e.error
  finished : s.finished = true → ∃ e ∈ s.log, c.own e = true ∧ truthy e.error = false
  gone : s.status = .gone → c.autoDismiss = false → s.dismisses = [.concluded]
  dismisses : s.dismisses = [] ∨ (s.dismisses = [.concluded] ∧ s.status = .gone)
  finalizes : ∀ st ∈ s.finalizes,
    st = .pending ∧ c.autoFinalize = false ∧ s.sawPending = true

theorem own_ending {c : Config} (h : c.own c.ending = true) :
    c.outcome = .completed c.ending.error := by
  cases ho : c.outcome with
  | completed error => simp [Config.ending, ho]
  | cancelled =>
      rw [Config.own, Config.ending, ho] at h
      exact absurd h (by simp [completedEvent, cancelledEvent])

section Kept

variable {c : Config} {s s' : State}

theorem Kept.withPc (h : Kept c s) (pc : Pc) : Kept c { s with pc := pc } :=
  ⟨h.events, h.finished, h.gone, h.dismisses, h.finalizes⟩

/-- A job that is not gone has not been dismissed. -/
theorem Kept.dismisses_eq_nil (h : Kept c s) (hgone : s.status ≠ .gone) : s.dismisses = [] :=
  h.dismisses.resolve_right fun hd => hgone hd.2

theorem active_of_free (h : s.free c = true) : s.status.active = true := by
  rw [State.free, Bool.and_eq_true] at h
  exact h.1

/-- Before the job is concluded, it has no event. -/
theorem Kept.of_active (h : Kept c s) (hactive : s.status.active = true) {status : Status}
    (hstatus : status ≠ .gone) : Kept c { s with status := status } := by
  have hgone : s.status ≠ .gone := by
    intro hgone
    rw [hgone] at hactive
    cases hactive
  refine ⟨?_, h.finished, ?_, .inl (h.dismisses_eq_nil hgone), h.finalizes⟩
  · intro e he hown
    obtain ⟨hover, -⟩ := h.events e he hown
    rw [hactive] at hover
    cases hover
  · intro heq
    exact absurd heq hstatus

theorem Kept.conclude (h : Kept c s) (hactive : s.status.active = true) :
    Kept c (s.conclude c) := by
  have hmoved : Kept c { s with status := .concluded } := h.of_active hactive (by decide)
  refine ⟨?_, h.finished, hmoved.gone, hmoved.dismisses, h.finalizes⟩
  intro e he hown
  refine ⟨rfl, ?_⟩
  rcases he with he | he
  · exact (h.events e (.inl he) hown).2
  · cases he
    exact own_ending hown

theorem kept_between {l : Label} (h : Kept c s) (hstep : between c s l = some s') :
    Kept c s' := by
  obtain ⟨status, hfree, hactive, rfl⟩ | ⟨hfree, rfl⟩ | ⟨hconcluded, hauto, rfl⟩ |
    ⟨e, hcoming, rfl⟩ | ⟨e, hforeign, rfl⟩ := between_cases hstep
  · refine h.of_active (active_of_free hfree) ?_
    rintro rfl
    cases hactive
  · exact h.conclude (active_of_free hfree)
  · have hnil := h.dismisses_eq_nil (by rw [hconcluded]; decide)
    refine ⟨?_, h.finished, ?_, .inl hnil, h.finalizes⟩
    · intro e he hown
      exact ⟨rfl, (h.events e he hown).2⟩
    · intro _ hoff
      rw [hauto] at hoff
      cases hoff
  · refine ⟨?_, ?_, h.gone, h.dismisses, h.finalizes⟩
    · intro e' he' hown
      rcases he' with he' | he'
      · rcases List.mem_append.mp he' with he' | he'
        · exact h.events e' (.inl he') hown
        · rw [List.mem_singleton.mp he'] at hown ⊢
          exact h.events e (.inr hcoming) hown
      · cases he'
    · intro hfinished
      obtain ⟨e', he', hgood⟩ := h.finished hfinished
      exact ⟨e', List.mem_append_left _ he', hgood⟩
  · refine ⟨?_, ?_, h.gone, h.dismisses, h.finalizes⟩
    · intro e' he' hown
      rcases he' with he' | he'
      · rcases List.mem_append.mp he' with he' | he'
        · exact h.events e' (.inl he') hown
        · rw [List.mem_singleton.mp he', hforeign] at hown
          cases hown
      · exact h.events e' (.inr he') hown
    · intro hfinished
      obtain ⟨e', he', hgood⟩ := h.finished hfinished
      exact ⟨e', List.mem_append_left _ he', hgood⟩

end Kept

/-! ## The calls -/

/-- What the function knows of the job before its next call. -/
def Knows (c : Config) (s : State) : Pc → Prop
  | .queryFinalize => s.sawPending = true ∧ (c.autoFinalize = false → s.status = .pending)
  | .waitPending n =>
      0 < n ∧ s.sawPending = true ∧ c.autoFinalize = false ∧ s.status = .pending
  | .sendFinalize => s.sawPending = true ∧ c.autoFinalize = false ∧ s.status = .pending
  | .queryDismiss => c.autoDismiss = false → s.status = .concluded
  | .waitConcluded n => 0 < n ∧ c.autoDismiss = false ∧ s.status = .concluded
  | .sendDismiss => c.autoDismiss = false ∧ s.status = .concluded
  | .queryDismissed => s.status = .gone
  | .ended r =>
      (r = .returned → s.finished = true) ∧ (c.autoDismiss = false → s.status ≠ .concluded)
  | _ => True

/-- The invariant of a run. -/
structure Inv (c : Config) (s : State) : Prop where
  kept : Kept c s
  knows : Knows c s s.pc

section Between

variable {c : Config} {s s' : State}

/-- A pending job without auto-finalize, a concluded one without auto-dismiss and one that is
gone stay so between two calls, and the variables of the function do. -/
theorem stays_between {l : Label} (h : between c s l = some s') :
    (s.status = .pending → c.autoFinalize = false → s'.status = .pending) ∧
      (s.status = .concluded → c.autoDismiss = false → s'.status = .concluded) ∧
      (s.status = .gone → s'.status = .gone) ∧
      s'.pc = s.pc ∧ s'.sawPending = s.sawPending ∧ s'.polls = s.polls := by
  have hnot_free : ∀ {status : Status}, s.free c = true → s.status = status →
      status.active = false ∨ (status = .pending ∧ c.autoFinalize = false) → False := by
    rintro status hfree rfl hstatus
    rw [State.free, Bool.and_eq_true, Bool.or_eq_true] at hfree
    rcases hstatus with hover | ⟨hpending, hmanual⟩
    · rw [hover] at hfree
      cases hfree.1
    · rw [hpending, hmanual] at hfree
      simp at hfree
  obtain ⟨status, hfree, -, rfl⟩ | ⟨hfree, rfl⟩ | ⟨hconcluded, hauto, rfl⟩ | ⟨e, -, rfl⟩ |
    ⟨e, -, rfl⟩ := between_cases h
  · refine ⟨?_, ?_, ?_, rfl, rfl, rfl⟩
    · exact fun hp hm => (hnot_free hfree hp (.inr ⟨rfl, hm⟩)).elim
    · exact fun hp _ => (hnot_free hfree hp (.inl rfl)).elim
    · exact fun hp => (hnot_free hfree hp (.inl rfl)).elim
  · refine ⟨?_, ?_, ?_, rfl, rfl, rfl⟩
    · exact fun hp hm => (hnot_free hfree hp (.inr ⟨rfl, hm⟩)).elim
    · exact fun hp _ => (hnot_free hfree hp (.inl rfl)).elim
    · exact fun hp => (hnot_free hfree hp (.inl rfl)).elim
  · refine ⟨?_, ?_, fun _ => rfl, rfl, rfl, rfl⟩
    · intro hp
      cases hconcluded.symm.trans hp
    · intro _ hoff
      rw [hauto] at hoff
      cases hoff
  · exact ⟨fun hp _ => hp, fun hp _ => hp, fun hp => hp, rfl, rfl, rfl⟩
  · exact ⟨fun hp _ => hp, fun hp _ => hp, fun hp => hp, rfl, rfl, rfl⟩

theorem inv_between {l : Label} (hinv : Inv c s) (hpc : ∀ r, s.pc ≠ .ended r)
    (h : between c s l = some s') : Inv c s' := by
  obtain ⟨hpending, hconcluded, hgone, hpc', hsaw, -⟩ := stays_between h
  refine ⟨kept_between hinv.kept h, ?_⟩
  have hknows := hinv.knows
  rw [hpc']
  cases hat : s.pc with
  | queryFinalize =>
      rw [hat] at hknows
      exact ⟨hsaw.trans hknows.1, fun hm => hpending (hknows.2 hm) hm⟩
  | waitPending n =>
      rw [hat] at hknows
      obtain ⟨hn, hs, hm, hp⟩ := hknows
      exact ⟨hn, hsaw.trans hs, hm, hpending hp hm⟩
  | sendFinalize =>
      rw [hat] at hknows
      obtain ⟨hs, hm, hp⟩ := hknows
      exact ⟨hsaw.trans hs, hm, hpending hp hm⟩
  | queryDismiss =>
      rw [hat] at hknows
      exact fun hoff => hconcluded (hknows hoff) hoff
  | waitConcluded n =>
      rw [hat] at hknows
      obtain ⟨hn, hoff, hp⟩ := hknows
      exact ⟨hn, hoff, hconcluded hp hoff⟩
  | sendDismiss =>
      rw [hat] at hknows
      exact ⟨hknows.1, hconcluded hknows.2 hknows.1⟩
  | queryDismissed =>
      rw [hat] at hknows
      exact hgone hknows
  | ended r => exact absurd hat (hpc r)
  | queryStatus => trivial
  | sendComplete => trivial
  | scanEvents => trivial
  | queryFinally => trivial

end Between

section Call

variable {c : Config} {s s' : State}

/-- The end of a poll in which a concluded job has been dismissed. -/
theorem inv_endPoll (hkept : Kept c s) (hover : c.autoDismiss = false → s.status ≠ .concluded) :
    Inv c s.endPoll := by
  rw [State.endPoll]
  split
  · exact ⟨hkept.withPc _, fun h => Result.noConfusion h, hover⟩
  · split
    · rename_i hfinished
      exact ⟨hkept.withPc _, fun _ => hfinished, hover⟩
    · split
      · exact ⟨hkept.withPc _, fun h => Result.noConfusion h, hover⟩
      · refine ⟨?_, trivial⟩
        exact ⟨hkept.events, hkept.finished, hkept.gone, hkept.dismisses, hkept.finalizes⟩

theorem kept_scan (hkept : Kept c s) : Kept c (s.scan c) := by
  rw [State.scan]
  split
  · refine ⟨hkept.events, ?_, hkept.gone, hkept.dismisses, hkept.finalizes⟩
    intro hfinished
    cases hfinished
  · rename_i e hfind
    refine ⟨hkept.events, ?_, hkept.gone, hkept.dismisses, hkept.finalizes⟩
    intro hfinished
    refine ⟨e, List.mem_of_find?_eq_some hfind, List.find?_some hfind, ?_⟩
    simpa using hfinished

/-- `job-finalize` is sent to a pending job and concludes it. -/
theorem inv_sendFinalize (hkept : Kept c s)
    (hknows : s.sawPending = true ∧ c.autoFinalize = false ∧ s.status = .pending) :
    Inv c { s.conclude c with pc := .scanEvents, finalizes := s.finalizes ++ [s.status] } := by
  obtain ⟨hsaw, hmanual, hpending⟩ := hknows
  have hconcluded := hkept.conclude (by rw [hpending]; rfl)
  refine ⟨⟨hconcluded.events, hconcluded.finished, hconcluded.gone, hconcluded.dismisses, ?_⟩,
    trivial⟩
  intro st hst
  rcases List.mem_append.mp hst with hst | hst
  · exact hkept.finalizes st hst
  · exact ⟨(List.mem_singleton.mp hst).trans hpending, hmanual, hsaw⟩

/-- `job-dismiss` is sent to a concluded job, for the first time. -/
theorem inv_sendDismiss (hkept : Kept c s) (hstatus : s.status = .concluded) :
    Inv c { s with
      pc := .queryDismissed, status := .gone, dismisses := s.dismisses ++ [s.status] } := by
  have hnil := hkept.dismisses_eq_nil (by rw [hstatus]; decide)
  have honce : s.dismisses ++ [s.status] = [.concluded] := by rw [hnil, hstatus]; rfl
  refine ⟨⟨?_, hkept.finished, fun _ _ => honce, .inr ⟨honce, rfl⟩, hkept.finalizes⟩, rfl⟩
  intro e he hown
  exact ⟨rfl, (hkept.events e he hown).2⟩

theorem inv_call (hinv : Inv c s) (h : call c s = some s') : Inv c s' := by
  obtain ⟨hkept, hknows⟩ := hinv
  cases hpc : s.pc with
  | queryStatus =>
      simp only [call, hpc, Option.some.injEq] at h
      subst h
      split
      · rename_i hpending
        refine ⟨⟨hkept.events, hkept.finished, hkept.gone, hkept.dismisses, ?_⟩, rfl,
          fun _ => hpending⟩
        intro st hst
        obtain ⟨hst, hmanual, -⟩ := hkept.finalizes st hst
        exact ⟨hst, hmanual, rfl⟩
      · exact ⟨hkept.withPc _, trivial⟩
      · exact ⟨hkept.withPc _, trivial⟩
  | queryFinalize =>
      rw [hpc] at hknows
      simp only [call, hpc, Option.some.injEq] at h
      subst h
      split
      · rename_i hmanual
        exact ⟨hkept.withPc _, Nat.succ_pos _, hknows.1, hmanual.2, hknows.2 hmanual.2⟩
      · exact ⟨hkept.withPc _, trivial⟩
  | waitPending n =>
      rw [hpc] at hknows
      obtain ⟨hn, hsaw, hmanual, hpending⟩ := hknows
      simp only [call, hpc, Option.some.injEq] at h
      subst h
      split
      · cases hn
      · rw [if_pos hpending]
        exact ⟨hkept.withPc _, hsaw, hmanual, hpending⟩
  | sendFinalize =>
      rw [hpc] at hknows
      simp only [call, hpc, if_pos hknows.2.2, Option.some.injEq] at h
      subst h
      exact inv_sendFinalize hkept hknows
  | sendComplete =>
      simp only [call, hpc, Option.some.injEq] at h
      subst h
      exact ⟨hkept.withPc _, trivial⟩
  | scanEvents =>
      simp only [call, hpc, Option.some.injEq] at h
      subst h
      refine ⟨kept_scan hkept, ?_⟩
      rw [State.scan]
      split <;> trivial
  | queryFinally =>
      simp only [call, hpc, Option.some.injEq] at h
      subst h
      split
      · rename_i hconcluded
        exact ⟨hkept.withPc _, fun _ => hconcluded⟩
      · rename_i hother
        exact inv_endPoll hkept fun _ => hother
  | queryDismiss =>
      rw [hpc] at hknows
      simp only [call, hpc, Option.some.injEq] at h
      subst h
      split
      · rename_i hmanual
        exact ⟨hkept.withPc _, Nat.succ_pos _, hmanual.2, hknows hmanual.2⟩
      · rename_i hauto
        refine inv_endPoll hkept fun hoff => ?_
        exact absurd ⟨by rw [hknows hoff]; decide, hoff⟩ hauto
  | waitConcluded n =>
      rw [hpc] at hknows
      obtain ⟨hn, hoff, hconcluded⟩ := hknows
      simp only [call, hpc, Option.some.injEq] at h
      subst h
      split
      · cases hn
      · rw [if_pos hconcluded]
        exact ⟨hkept.withPc _, hoff, hconcluded⟩
  | sendDismiss =>
      rw [hpc] at hknows
      simp only [call, hpc, if_pos hknows.2, Option.some.injEq] at h
      subst h
      exact inv_sendDismiss hkept hknows.2
  | queryDismissed =>
      rw [hpc] at hknows
      have hgone : s.status = .gone := hknows
      simp only [call, hpc, if_pos hgone, Option.some.injEq] at h
      subst h
      exact inv_endPoll hkept fun _ => by rw [hgone]; decide
  | ended r =>
      simp only [call, hpc] at h
      cases h

end Call

theorem inv_step {c : Config} (s : State) (l : Label) (s' : State) (hinv : Inv c s)
    (h : step c s l = some s') : Inv c s' := by
  obtain ⟨-, hcall⟩ | ⟨-, hpc, hbetween⟩ := step_cases h
  · exact inv_call hinv hcall
  · exact inv_between hinv hpc hbetween

theorem inv_initial (c : Config) (polls : Nat) : Inv c (initial polls) := by
  refine ⟨⟨?_, ?_, ?_, .inl rfl, ?_⟩, trivial⟩
  · rintro e (he | he)
    · cases he
    · cases he
  · intro hfinished
    cases hfinished
  · intro hgone
    cases hgone
  · intro st hst
    cases hst

/-! ## The end of the function -/

section Budget

variable (c : Config)

/-- How many calls there can be up to the end of a poll. -/
def rank : Pc → Nat
  | .ended _ => 0
  | .queryDismissed => 1
  | .sendDismiss => 2
  | .waitConcluded n => 2 + n
  | .queryDismiss => 3 + (c.tries + 1)
  | .queryFinally => 4 + (c.tries + 1)
  | .scanEvents => 5 + (c.tries + 1)
  | .sendComplete => 6 + (c.tries + 1)
  | .sendFinalize => 6 + (c.tries + 1)
  | .waitPending n => 6 + (c.tries + 1) + n
  | .queryFinalize => 7 + 2 * (c.tries + 1)
  | .queryStatus => 8 + 2 * (c.tries + 1)

/-- How many calls there can be up to the end of the function. -/
def State.budget (s : State) : Nat := s.polls * (9 + 2 * (c.tries + 1)) + rank c s.pc

end Budget

theorem budget_endPoll {c : Config} {s : State} (h : 0 < rank c s.pc) :
    s.endPoll.budget c < s.budget c := by
  rw [State.endPoll]
  split
  · show s.polls * _ + 0 < s.polls * _ + rank c s.pc
    omega
  · split
    · show s.polls * _ + 0 < s.polls * _ + rank c s.pc
      omega
    · split
      · show s.polls * _ + 0 < s.polls * _ + rank c s.pc
        omega
      · rename_i n hn
        show n * (9 + 2 * (c.tries + 1)) + (8 + 2 * (c.tries + 1)) < s.budget c
        have hmul := Nat.succ_mul n (9 + 2 * (c.tries + 1))
        rw [State.budget, hn]
        omega

/-- A call that goes on in the same poll. -/
theorem budget_lt {c : Config} {s s' : State} (hpolls : s'.polls = s.polls)
    (hrank : rank c s'.pc < rank c s.pc) : s'.budget c < s.budget c := by
  rw [State.budget, State.budget, hpolls]
  omega

/-- The function is at its end or makes another call, which takes it nearer to its end. -/
theorem call_budget (c : Config) (s : State) :
    (∃ r, s.pc = .ended r) ∨ ∃ s', call c s = some s' ∧ s'.budget c < s.budget c := by
  cases hpc : s.pc with
  | ended r => exact .inl ⟨r, rfl⟩
  | queryStatus =>
      refine .inr ⟨_, by rw [call, hpc], ?_⟩
      split
      all_goals exact budget_lt rfl (by simp only [rank, hpc]; omega)
  | queryFinalize =>
      refine .inr ⟨_, by rw [call, hpc], ?_⟩
      split
      all_goals exact budget_lt rfl (by simp only [rank, hpc]; omega)
  | waitPending n =>
      refine .inr ⟨_, by rw [call, hpc], ?_⟩
      split
      · exact budget_lt rfl (by simp only [State.fail, rank, hpc]; omega)
      · split
        all_goals exact budget_lt rfl (by simp only [rank, hpc]; omega)
  | sendFinalize =>
      refine .inr ⟨_, by rw [call, hpc], ?_⟩
      split
      · exact budget_lt rfl (by simp only [rank, hpc]; omega)
      · exact budget_lt rfl (by simp only [State.fail, rank, hpc]; omega)
  | sendComplete =>
      refine .inr ⟨{ s with pc := .scanEvents }, by simp only [call, hpc], ?_⟩
      exact budget_lt rfl (by simp only [rank, hpc]; omega)
  | scanEvents =>
      refine .inr ⟨_, by rw [call, hpc], ?_⟩
      rw [State.scan]
      split
      all_goals exact budget_lt rfl (by simp only [rank, hpc]; omega)
  | queryFinally =>
      refine .inr ⟨_, by rw [call, hpc], ?_⟩
      split
      · exact budget_lt rfl (by simp only [rank, hpc]; omega)
      · exact budget_endPoll (by simp only [rank, hpc]; omega)
  | queryDismiss =>
      refine .inr ⟨_, by rw [call, hpc], ?_⟩
      split
      · exact budget_lt rfl (by simp only [rank, hpc]; omega)
      · exact budget_endPoll (by simp only [rank, hpc]; omega)
  | waitConcluded n =>
      refine .inr ⟨_, by rw [call, hpc], ?_⟩
      split
      · exact budget_lt rfl (by simp only [State.fail, rank, hpc]; omega)
      · split
        all_goals exact budget_lt rfl (by simp only [rank, hpc]; omega)
  | sendDismiss =>
      refine .inr ⟨_, by rw [call, hpc], ?_⟩
      split
      · exact budget_lt rfl (by simp only [rank, hpc]; omega)
      · exact budget_lt rfl (by simp only [State.fail, rank, hpc]; omega)
  | queryDismissed =>
      refine .inr ⟨_, by rw [call, hpc], ?_⟩
      split
      · exact budget_endPoll (by simp only [rank, hpc]; omega)
      · exact budget_lt rfl (by simp only [State.fail, rank, hpc]; omega)

/-- The calls of a run use up the budget. -/
theorem count_call_le {c : Config} {ls : List Label} {s s' : State}
    (h : runSteps (step c) s ls = some s') : ls.count .call + s'.budget c ≤ s.budget c := by
  refine runSteps_count_le ?_ ?_ h
  · intro s t hcall
    obtain ⟨r, hr⟩ | ⟨s₁, hs₁, hlt⟩ := call_budget c s
    · rw [step, call, hr] at hcall
      cases hcall
    · cases hs₁.symm.trans hcall
      exact hlt
  · intro s l t hl ht
    obtain ⟨rfl, -⟩ | ⟨-, -, hbetween⟩ := step_cases ht
    · exact absurd rfl hl
    · obtain ⟨-, -, -, hpc, -, hpolls⟩ := stays_between hbetween
      exact Nat.le_of_eq (by rw [State.budget, State.budget, hpc, hpolls])

/-- The job has been dismissed by the function. -/
def Dismissed (s : State) : Prop := s.status = .gone ∧ s.dismisses = [.concluded]

/-- The contract of `wait_until_block_job_completed`. -/
structure Driven (c : Config) (s : State) : Prop where
  returned : s.pc = .ended .returned →
    (∃ e ∈ s.log, c.own e = true ∧ truthy e.error = false) ∧
      (c.autoDismiss = false → Dismissed s)
  /-- The job has completed with an error. -/
  raised : ∀ r error, s.pc = .ended r → c.outcome = .completed error → truthy error = true →
    s.status.active = false → r = .raised ∧ (c.autoDismiss = false → Dismissed s)
  finalizes : ∀ st ∈ s.finalizes,
    st = .pending ∧ c.autoFinalize = false ∧ s.sawPending = true
  dismisses : s.dismisses = [] ∨ s.dismisses = [.concluded]

theorem Inv.dismissed {c : Config} {s : State} (hinv : Inv c s) {r : Result}
    (hpc : s.pc = .ended r) (hover : s.status.active = false) (hoff : c.autoDismiss = false) :
    Dismissed s := by
  have hknows := hinv.knows
  rw [hpc] at hknows
  have hgone : s.status = .gone := by
    cases hstatus : s.status with
    | gone => rfl
    | concluded => exact absurd hstatus (hknows.2 hoff)
    | _ =>
        rw [hstatus] at hover
        cases hover
  exact ⟨hgone, hinv.kept.gone hgone hoff⟩

theorem Inv.driven {c : Config} {s : State} (hinv : Inv c s) : Driven c s := by
  have hgood : s.pc = .ended .returned →
      ∃ e ∈ s.log, c.own e = true ∧ truthy e.error = false := by
    intro hpc
    have hknows := hinv.knows
    rw [hpc] at hknows
    exact hinv.kept.finished (hknows.1 rfl)
  refine ⟨?_, ?_, hinv.kept.finalizes, hinv.kept.dismisses.imp id And.left⟩
  · intro hpc
    obtain ⟨e, he, hown, herror⟩ := hgood hpc
    obtain ⟨hover, -⟩ := hinv.kept.events e (.inl he) hown
    exact ⟨⟨e, he, hown, herror⟩, hinv.dismissed hpc hover⟩
  · intro r error hpc houtcome herror hover
    refine ⟨?_, hinv.dismissed hpc hover⟩
    cases r with
    | raised => rfl
    | returned =>
        -- The event that was found would tell of another outcome.
        obtain ⟨e, he, hown, hnone⟩ := hgood hpc
        obtain ⟨-, houtcome'⟩ := hinv.kept.events e (.inl he) hown
        cases houtcome.symm.trans houtcome'
        rw [herror] at hnone
        cases hnone

/-- Every run of the function and the job keeps the contract; the calls of a run are
bounded, and a run in which the function has not ended can go on with a call. -/
theorem block_job_driven (c : Config) (polls : Nat) (ls : List Label) {s : State}
    (hrun : runSteps (step c) (initial polls) ls = some s) :
    Driven c s ∧ ls.count .call ≤ (initial polls).budget c ∧
      ((∃ r, s.pc = .ended r) ∨ (step c s .call).isSome) := by
  have hinv : Inv c s := runSteps_invariant inv_step (inv_initial c polls) hrun
  refine ⟨hinv.driven, ?_, ?_⟩
  · have := count_call_le hrun
    omega
  · refine (call_budget c s).imp id ?_
    rintro ⟨s', hcall, -⟩
    exact Option.isSome_iff_exists.mpr ⟨s', hcall⟩

/-- A job that has to be finalized and dismissed. -/
def mirrorJob : Config where
  jobId := "mirror_job"
  autoFinalize := false
  autoDismiss := false
  outcome := .completed none
  tries := 2

/-- The event of another job is in the log before the one of this job. -/
def mirrorRun : List Label :=
  [.move .running, .foreign ⟨completedEvent, none, some "backup_job", some "no space"⟩,
    .move .pending, .call, .call, .call, .call, .receive, .call, .call, .call, .call, .call,
    .call]

theorem block_job_driven_mirror :
    ∃ s, runSteps (step mirrorJob) (initial 3) mirrorRun = some s ∧
      s.pc = .ended .returned ∧ s.finalizes = [.pending] ∧ Driven mirrorJob s :=
  ⟨_, rfl, rfl, rfl, (block_job_driven mirrorJob 3 mirrorRun rfl).1⟩

end TpQemu.JobUtils
