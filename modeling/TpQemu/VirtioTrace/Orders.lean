import TpQemu.VirtioTrace.Data

/-!
# The orders of the host

What a stop and a signal achieve. A stopped thread reads at most once more. A thread that is not
past its look at `global_run_operation` when the controller has done its last wake-up, and finds
there that it has to wait, is never woken again.
-/

namespace TpQemu.VirtioTrace

variable {τ : Type} [DecidableEq τ]

/-- What the controller has said fits where it is. -/
structure Ordered (s : State τ) : Prop where
  starting : s.control = .start → s.globalRunOperation = true
  ending : s.globalSigReceive = true ↔ s.control = .wake ∨ s.control = .join

section Control

variable {pipeSize : Nat} {s s' : State τ}

omit [DecidableEq τ] in
theorem Ordered.sig_eq_false (h : Ordered s) (hwake : s.control ≠ .wake)
    (hjoin : s.control ≠ .join) : s.globalSigReceive = false := by
  rw [Bool.eq_false_iff]
  intro hsig
  rcases h.ending.mp hsig with hc | hc
  · exact hwake hc
  · exact hjoin hc

omit [DecidableEq τ] in
/-- The controller neither wakes up threads nor has it ended. -/
theorem ordered_of_idle (hsig : s.globalSigReceive = false) (hstart : s.control ≠ .start)
    (hwake : s.control ≠ .wake) (hjoin : s.control ≠ .join) : Ordered s where
  starting hc := absurd hc hstart
  ending := by
    rw [hsig]
    exact iff_of_false Bool.false_ne_true fun hc => hc.elim hwake hjoin

omit [DecidableEq τ] in
theorem ordered_controlStep {o : Order} (h : Ordered s) (hstep : controlStep s o = some s') :
    Ordered s' := by
  revert hstep
  fun_cases controlStep s o <;> intro hstep <;> cases hstep
  case case1 ret hpoll =>
    have hsig := h.sig_eq_false (by simp [hpoll]) (by simp [hpoll])
    exact ordered_of_idle hsig Control.noConfusion Control.noConfusion Control.noConfusion
  case case3 => exact ⟨Control.noConfusion, iff_of_true rfl (.inl rfl)⟩
  case case4 => exact ⟨h.starting, h.ending⟩
  case case5 hcheck =>
    have hsig := h.sig_eq_false (by simp [hcheck]) (by simp [hcheck])
    exact ordered_of_idle hsig Control.noConfusion Control.noConfusion Control.noConfusion
  case case6 hcheck =>
    have hsig := h.sig_eq_false (by simp [hcheck]) (by simp [hcheck])
    exact ordered_of_idle hsig Control.noConfusion Control.noConfusion Control.noConfusion
  case case7 hwake =>
    refine ⟨Control.noConfusion, iff_of_true ?_ (.inr rfl)⟩
    have hsig := h.ending.mpr (.inl hwake)
    split <;> exact hsig
  case case8 hstart =>
    have hsig := h.sig_eq_false (by simp [hstart]) (by simp [hstart])
    exact ordered_of_idle hsig Control.noConfusion Control.noConfusion Control.noConfusion
  case case10 buf hread _ =>
    have hsig := h.sig_eq_false (by simp [hread]) (by simp [hread])
    refine ⟨fun _ => rfl, iff_of_false ?_ ?_⟩
    · exact Bool.eq_false_iff.mp hsig
    · rintro (hc | hc) <;> cases hc
  case case11 buf hread _ _ =>
    have hsig := h.sig_eq_false (by simp [hread]) (by simp [hread])
    exact ordered_of_idle hsig Control.noConfusion Control.noConfusion Control.noConfusion
  case case12 buf hread _ _ =>
    have hsig := h.sig_eq_false (by simp [hread]) (by simp [hread])
    exact ordered_of_idle hsig Control.noConfusion Control.noConfusion Control.noConfusion
  case case14 => exact ⟨h.starting, h.ending⟩

/-- The threads and the signals leave the orders and the controller alone. -/
theorem step_flags {l : Label τ} (hstep : step pipeSize s l = some s') :
    (s'.globalRunOperation = s.globalRunOperation ∧ s'.globalSigReceive = s.globalSigReceive ∧
        s'.control = s.control) ∨
      ∃ o, l = .control o ∧ controlStep s o = some s' := by
  cases l with
  | thread u i =>
      rw [step] at hstep
      split at hstep
      · cases hstep
      · refine .inl ?_
        obtain ⟨-, rfl⟩ | ⟨-, th', -, rfl⟩ := threadStep_cases hstep
        · exact ⟨rfl, rfl, rfl⟩
        · exact ⟨rfl, rfl, rfl⟩
  | control o =>
      rw [step] at hstep
      split at hstep
      · cases hstep
      · exact .inr ⟨o, rfl, hstep⟩
  | signal =>
      rw [step] at hstep
      split at hstep
      · cases hstep
      · obtain rfl := Option.some.inj hstep
        exact .inl ⟨rfl, rfl, rfl⟩

theorem ordered_step {l : Label τ} (h : Ordered s) (hstep : step pipeSize s l = some s') :
    Ordered s' := by
  obtain ⟨hrun, hsig, hcontrol⟩ | ⟨o, -, hcontrol⟩ := step_flags hstep
  · constructor
    · rw [hcontrol, hrun]
      exact h.starting
    · rw [hcontrol, hsig]
      exact h.ending
  · exact ordered_controlStep h hcontrol

theorem ordered_run {run : List (Label τ)} (hrun : runSteps (step pipeSize) start run = some s) :
    Ordered s :=
  have hstart : Ordered (start : State τ) :=
    ordered_of_idle rfl Control.noConfusion Control.noConfusion Control.noConfusion
  runSteps_invariant (fun _ _ _ => ordered_step) hstart hrun

end Control

/-! ## Stopping -/

/-- The result of the call that reads the data. -/
def Input.reads : Input → Bool
  | .data _ => true
  | _ => false

/-- The calls that read the data of thread `t`. -/
def seeRead (t : τ) (_ : State τ) : Label τ → Option Unit
  | .thread u i => if u = t ∧ i.reads then some () else none
  | _ => none

/-- A step that is neither a spurious wake-up of thread `t` nor an order to run. -/
def Quiet (t : τ) : Label τ → Prop
  | .thread u .spurious => u ≠ t
  | .control (.message buf) => isStart buf = false
  | _ => True

/-- How often a stopped thread can still read. -/
def Loc.mayRead (sigReceive : Bool) : Loc → Nat
  | .read => 1
  | .woken | .unlock | .sig => if sigReceive then 0 else 1
  | _ => 0

/-- The threads have been stopped. -/
structure Stopped (s : State τ) : Prop where
  ordered : Ordered s
  stopped : s.globalRunOperation = false

section Stop

variable {pipeSize : Nat} {s s' : State τ} {t : τ}

omit [DecidableEq τ] in
theorem run_controlStep {o : Order} (hstop : s.globalRunOperation = false)
    (ho : ∀ buf, o = .message buf → isStart buf = false) (hstep : controlStep s o = some s') :
    s'.globalRunOperation = false := by
  revert hstep
  fun_cases controlStep s o <;> intro hstep <;> cases hstep
  case case7 => split <;> exact hstop
  case case10 buf _ hbuf =>
    rw [ho buf rfl] at hbuf
    cases hbuf
  case case11 => rfl
  all_goals exact hstop

omit [DecidableEq τ] in
/-- The controller only ever sets `global_sig_receive`. -/
theorem sig_controlStep {o : Order} (hsig : s.globalSigReceive = true)
    (hstep : controlStep s o = some s') : s'.globalSigReceive = true := by
  revert hstep
  fun_cases controlStep s o <;> intro hstep <;> cases hstep
  case case3 => rfl
  case case7 => split <;> exact hsig
  all_goals exact hsig

theorem sig_step {l : Label τ} (hsig : s.globalSigReceive = true)
    (hstep : step pipeSize s l = some s') : s'.globalSigReceive = true := by
  obtain ⟨-, hsame, -⟩ | ⟨o, -, hcontrol⟩ := step_flags hstep
  · rw [hsame, hsig]
  · exact sig_controlStep hsig hcontrol

theorem stopped_step {l : Label τ} (h : Stopped s) (hl : Quiet t l)
    (hstep : step pipeSize s l = some s') : Stopped s' := by
  refine ⟨ordered_step h.ordered hstep, ?_⟩
  obtain ⟨hrun, -⟩ | ⟨o, rfl, hcontrol⟩ := step_flags hstep
  · rw [hrun, h.stopped]
  · refine run_controlStep h.stopped ?_ hcontrol
    rintro buf rfl
    exact hl

omit [DecidableEq τ] in
/-- A wake-up of a stopped thread is one for the signal. -/
theorem sig_of_waking (h : Stopped s) (hwaking : s.Waking) : s.globalSigReceive = true := by
  obtain hstart | ⟨hwake, -⟩ := hwaking
  · have hrun := h.ordered.starting hstart
    rw [h.stopped] at hrun
    cases hrun
  · exact h.ordered.ending.mpr (.inl hwake)

theorem mayRead_le (sigReceive : Bool) (loc : Loc) : loc.mayRead sigReceive ≤ 1 := by
  cases loc <;> cases sigReceive <;> simp [Loc.mayRead]

theorem mayRead_of_sig {sigReceive sigReceive' : Bool}
    (hsig : sigReceive = true → sigReceive' = true) (loc : Loc) :
    loc.mayRead sigReceive' ≤ loc.mayRead sigReceive := by
  cases sigReceive with
  | true => exact Nat.le_of_eq (by rw [hsig rfl])
  | false => cases sigReceive' <;> cases loc <;> simp [Loc.mayRead]

/-- A step of a stopped thread. -/
theorem mayRead_next {sigReceive : Bool} {th th' : Thread} {i : Input} (hi : i ≠ .spurious)
    (hnext : th.next pipeSize false sigReceive i = some th') :
    i.reads.toNat + th'.loc.mayRead sigReceive ≤ th.loc.mayRead sigReceive := by
  revert hnext
  fun_cases Thread.next pipeSize false sigReceive th i <;> intro hnext <;> cases hnext
  case case6 hsig => cases sigReceive <;> simp [hsig, Loc.mayRead, Input.reads]
  case case8 => exact absurd rfl hi
  case case10 bytes hread =>
    rw [hread.1]
    split <;> exact Nat.le_refl 1
  case case12 n rlen wlen hwrite _ =>
    rw [hwrite]
    split <;> exact Nat.le_refl 0
  all_goals simp [Loc.mayRead, Input.reads, *]

theorem mayRead_step {l : Label τ} (h : Stopped s) (hl : Quiet t l)
    (hstep : step pipeSize s l = some s') :
    (seeRead t s l).toList.length + (s'.thread t).loc.mayRead s'.globalSigReceive ≤
      (s.thread t).loc.mayRead s.globalSigReceive := by
  have hsig := mayRead_of_sig (fun hsig => sig_step hsig hstep) (s'.thread t).loc
  obtain ⟨hsame, hother⟩ | ⟨i, rfl, hnext⟩ | ⟨hasleep, hwoken, ⟨o, rfl⟩, hwaking⟩ :=
    step_thread hstep t
  · have hsee : seeRead t s l = none := by
      cases l with
      | thread u i =>
          refine if_neg ?_
          rintro ⟨rfl, hreads⟩
          rw [hother i rfl] at hreads
          cases hreads
      | control o => rfl
      | signal => rfl
    rw [hsame] at hsig ⊢
    rw [hsee]
    simpa using hsig
  · rw [h.stopped] at hnext
    have hi : i ≠ .spurious := by
      rintro rfl
      exact hl rfl
    have hreads := mayRead_next hi hnext
    have hsee : (seeRead t s (.thread t i)).toList.length = i.reads.toNat := by
      rw [seeRead]
      cases i.reads <;> simp
    omega
  · have hset := sig_step (sig_of_waking h hwaking) hstep
    rw [hwoken, hset]
    exact Nat.zero_le _

end Stop

/-- Once the threads are stopped, each of them reads at most once more before the next order to
run, unless it wakes up spuriously. -/
theorem stopped_reads_once {pipeSize : Nat} {run more : List (Label τ)} {s s' : State τ}
    (hrun : runSteps (step pipeSize) start run = some s) (hstop : s.globalRunOperation = false)
    {t : τ} (hmore : ∀ l ∈ more, Quiet t l)
    (hrest : runSteps (step pipeSize) s more = some s') :
    (observe (step pipeSize) (seeRead t) s more).length ≤ 1 := by
  have hcond : AllSteps (step pipeSize) (fun s l => Stopped s ∧ Quiet t l) s more :=
    allSteps_of_invariant (fun _ _ _ hs hl => stopped_step hs hl) ⟨ordered_run hrun, hstop⟩ hmore
  have hbound : (observe (step pipeSize) (seeRead t) s more).length +
      (s'.thread t).loc.mayRead s'.globalSigReceive ≤
        (s.thread t).loc.mayRead s.globalSigReceive :=
    length_observe_le (seeRead t) (fun s => (s.thread t).loc.mayRead s.globalSigReceive)
      (fun _ _ _ hs hstep => mayRead_step hs.1 hs.2 hstep) hcond hrest
  have hone := mayRead_le s.globalSigReceive (s.thread t).loc
  omega

/-- An order to run and one to stop, with a thread that has seen the first one. -/
def stopRun : List (Label Bool) :=
  [.control (.polled .ready), .control .go, .control (.message [49, 10]), .control .go,
    .thread true .go, .control (.polled .ready), .control .go, .control (.message [48, 10])]

/-- The thread goes on to its next look. -/
def lastRead : List (Label Bool) :=
  [.thread true .go, .thread true (.data [7]), .thread true (.moved 1), .thread true .go]

theorem stopped_reads_once_last : ∃ s s' : State Bool,
    runSteps (step 65536) start stopRun = some s ∧ runSteps (step 65536) s lastRead = some s' ∧
      (observe (step 65536) (seeRead true) s lastRead).length ≤ 1 := by
  have hend : (runSteps (step 65536) start stopRun).map (fun s =>
      (s.globalRunOperation, (runSteps (step 65536) s lastRead).isSome)) =
        some (false, true) := by decide
  obtain ⟨s, hs, hpair⟩ := Option.map_eq_some_iff.mp hend
  obtain ⟨hstop, hrest⟩ := Prod.mk.inj hpair
  obtain ⟨s', hs'⟩ := Option.isSome_iff_exists.mp hrest
  have hquiet : ∀ l ∈ lastRead, Quiet true l := by simp [lastRead, Quiet]
  exact ⟨s, s', hs, hs', stopped_reads_once hs hstop hquiet hs'⟩

/-! ## Ending -/

/-- On the way to sleep, or before a look at `global_run_operation` that leads there. -/
def Loc.lost (run : Bool) : Loc → Bool
  | .lock | .wait | .asleep => true
  | .check | .read | .write _ _ => !run
  | _ => false

/-- Who holds the mutex is about to give it up. -/
def Held (s : State τ) : Prop := ∀ u, s.mutex = some u → (s.thread u).loc.unlocks = true

/-- The controller has done its last wake-up, and the process has not failed. -/
structure Joining (s : State τ) : Prop where
  alive : s.failed = false
  join : s.control = .join
  sig : s.globalSigReceive = true
  held : Held s

section Join

variable {pipeSize : Nat} {s s' : State τ} {t : τ}

omit [DecidableEq τ] in
theorem mutex_controlStep {o : Order} (hstep : controlStep s o = some s') :
    s'.mutex = s.mutex := by
  revert hstep
  fun_cases controlStep s o <;> intro hstep <;> cases hstep
  case case7 => split <;> rfl
  all_goals rfl

omit [DecidableEq τ] in
theorem controlStep_join (h : s.control = .join) (o : Order) : controlStep s o = none := by
  cases o <;> simp [controlStep, h]

theorem lost_next {run sigReceive : Bool} {th th' : Thread} {i : Input} (hi : i ≠ .spurious)
    (hlost : th.loc.lost run = true)
    (hnext : th.next pipeSize run sigReceive i = some th') : th'.loc.lost run = true := by
  revert hnext
  fun_cases Thread.next pipeSize run sigReceive th i <;> intro hnext <;> cases hnext
  case case1 hcheck =>
    rw [hcheck] at hlost
    have hrun : run = false := by simpa [Loc.lost] using hlost
    rw [hrun]
    rfl
  case case2 => rfl
  case case3 => rfl
  case case4 hwoken => rw [hwoken] at hlost; cases hlost
  case case5 hunlock => rw [hunlock] at hlost; cases hlost
  case case6 hsig => rw [hsig] at hlost; cases hlost
  case case8 => exact absurd rfl hi
  case case10 bytes hread =>
    rw [hread.1] at hlost
    split <;> exact hlost
  case case12 n rlen wlen hwrite _ =>
    rw [hwrite] at hlost
    split <;> exact hlost

/-- A lost thread is not found again. -/
theorem lost_step {l : Label τ} (hjoin : s.control = .join) (hl : l ≠ .thread t .spurious)
    (hlost : (s.thread t).loc.lost s.globalRunOperation = true)
    (hstep : step pipeSize s l = some s') :
    s'.control = .join ∧ (s'.thread t).loc.lost s'.globalRunOperation = true := by
  obtain ⟨hrun, -, hcontrol⟩ | ⟨o, rfl, hcontrol⟩ := step_flags hstep
  · refine ⟨hcontrol.trans hjoin, ?_⟩
    rw [hrun]
    obtain ⟨hsame, -⟩ | ⟨i, rfl, hnext⟩ | ⟨-, -, -, hwaking⟩ := step_thread hstep t
    · rwa [hsame]
    · refine lost_next ?_ hlost hnext
      rintro rfl
      exact hl rfl
    · rcases hwaking with hc | ⟨hc, -⟩ <;> rw [hjoin] at hc <;> cases hc
  · rw [controlStep_join hjoin] at hcontrol
    cases hcontrol

theorem unlocks_iff {loc : Loc} : loc.unlocks = true ↔ loc = .wait ∨ loc = .unlock := by
  cases loc <;> simp [Loc.unlocks]

theorem not_locks_of_unlocks {loc : Loc} (h : loc.unlocks = true) : loc.locks = false := by
  obtain rfl | rfl := unlocks_iff.mp h <;> rfl

/-- A thread that has locked the mutex gives it up in its next step. -/
theorem unlocks_next {run sigReceive : Bool} {th th' : Thread} {i : Input}
    (hlocks : th.loc.locks = true) (hnext : th.next pipeSize run sigReceive i = some th') :
    th'.loc.unlocks = true := by
  revert hnext
  fun_cases Thread.next pipeSize run sigReceive th i <;> intro hnext <;> cases hnext
  case case2 => rfl
  case case4 => rfl
  all_goals simp [Loc.locks, *] at hlocks

theorem held_update {run sigReceive : Bool} {i : Input} {th' : Thread} (h : Held s)
    (hnext : (s.thread t).next pipeSize run sigReceive i = some th') :
    Held { s with
      mutex := if (s.thread t).loc.locks then some t
        else if (s.thread t).loc.unlocks then none else s.mutex
      thread := Function.update s.thread t th' } := by
  intro u hu
  show (Function.update s.thread t th' u).loc.unlocks = true
  have hcases : (if (s.thread t).loc.locks then some t
    else if (s.thread t).loc.unlocks then none else s.mutex) = some u := hu
  split at hcases
  · rename_i hlocks
    obtain rfl := Option.some.inj hcases
    rw [Function.update_self]
    exact unlocks_next hlocks hnext
  · split at hcases
    · cases hcases
    · rename_i hkeeps
      have hne : u ≠ t := by
        rintro rfl
        exact hkeeps (h u hcases)
      rw [Function.update_of_ne hne]
      exact h u hcases

theorem held_step {l : Label τ} (h : Held s) (hstep : step pipeSize s l = some s') : Held s' := by
  cases l with
  | thread t i =>
      rw [step] at hstep
      split at hstep
      · cases hstep
      · obtain ⟨-, rfl⟩ | ⟨-, th', hnext, rfl⟩ := threadStep_cases hstep
        · exact h
        · exact held_update h hnext
  | control o =>
      rw [step] at hstep
      split at hstep
      · cases hstep
      · intro u hu
        rw [mutex_controlStep hstep] at hu
        obtain hsame | ⟨hasleep, -⟩ := controlStep_thread hstep u
        · rw [hsame]
          exact h u hu
        · -- a thread that sleeps holds no mutex
          have hunlocks := h u hu
          rw [hasleep] at hunlocks
          cases hunlocks
  | signal =>
      rw [step] at hstep
      split at hstep
      · cases hstep
      · obtain rfl := Option.some.inj hstep
        exact h

/-- A step of a thread that has what it needs. -/
theorem own_step {i : Input} {th' : Thread} (h : Joining s) (hi : i ≠ .failed)
    (hfree : (s.thread t).loc.locks = true → s.mutex = none)
    (hnext : (s.thread t).next pipeSize s.globalRunOperation true i = some th') :
    ∃ s', step pipeSize s (.thread t i) = some s' ∧ s'.thread t = th' ∧
      s'.globalRunOperation = s.globalRunOperation ∧ Joining s' ∧
      ((s.thread t).loc.unlocks = true → s'.mutex = none) ∧
      ∀ u, u ≠ t → s'.thread u = s.thread u := by
  refine ⟨{ s with
      mutex := if (s.thread t).loc.locks then some t
        else if (s.thread t).loc.unlocks then none else s.mutex
      thread := Function.update s.thread t th' }, ?_, Function.update_self t th' s.thread, rfl,
    ⟨h.alive, h.join, h.sig, held_update h.held hnext⟩, ?_,
    fun u hu => Function.update_of_ne hu th' s.thread⟩
  · rw [step, if_neg (by rw [h.alive]; exact Bool.false_ne_true), threadStep, if_neg hi,
      if_neg fun hheld => hheld.2 (hfree hheld.1), h.sig, hnext]
    rfl
  · intro hunlocks
    show (if (s.thread t).loc.locks then some t
      else if (s.thread t).loc.unlocks then none else s.mutex) = none
    rw [not_locks_of_unlocks hunlocks, if_neg Bool.false_ne_true, if_pos hunlocks]

/-- Without spurious wake-ups the thread can come to its end. -/
def CanEnd (pipeSize : Nat) (t : τ) (s : State τ) : Prop :=
  ∃ more s', (∀ l ∈ more, ∀ u, l ≠ .thread u .spurious) ∧
    runSteps (step pipeSize) s more = some s' ∧ (s'.thread t).loc = .ended

theorem CanEnd.of_step {u : τ} {i : Input} (hi : i ≠ .spurious)
    (hstep : step pipeSize s (.thread u i) = some s') (h : CanEnd pipeSize t s') :
    CanEnd pipeSize t s := by
  obtain ⟨more, s'', hquiet, hrest, hend⟩ := h
  refine ⟨.thread u i :: more, s'', ?_, (runSteps_cons hstep more).trans hrest, hend⟩
  intro l hl v
  rcases List.mem_cons.mp hl with rfl | hl
  · intro heq
    cases heq
    exact hi rfl
  · exact hquiet l hl v

/-- One step of the thread itself on its way. -/
theorem CanEnd.of_own (h : Joining s) (i : Input) (loc : Loc) (hi : i ≠ .failed ∧ i ≠ .spurious)
    (hfree : (s.thread t).loc.locks = true → s.mutex = none)
    (hnext : ∃ th', (s.thread t).next pipeSize s.globalRunOperation true i = some th' ∧
      th'.loc = loc)
    (hrest : ∀ s' : State τ, Joining s' → s'.globalRunOperation = s.globalRunOperation →
      (s'.thread t).loc = loc → CanEnd pipeSize t s') : CanEnd pipeSize t s := by
  obtain ⟨th', hth, hloc⟩ := hnext
  obtain ⟨s', hstep, hthread, hrun, hjoining, -, -⟩ := own_step h hi.1 hfree hth
  exact (hrest s' hjoining hrun (by rw [hthread, hloc])).of_step hi.2 hstep

theorem canEnd_ended (hloc : (s.thread t).loc = .ended) : CanEnd pipeSize t s :=
  ⟨[], s, List.forall_mem_nil _, rfl, hloc⟩

theorem canEnd_sig (h : Joining s) (hloc : (s.thread t).loc = .sig) : CanEnd pipeSize t s :=
  CanEnd.of_own h .go .ended (by decide) (by simp [hloc, Loc.locks])
    (by simp [Thread.next, hloc]) fun _ _ _ => canEnd_ended

theorem canEnd_unlock (h : Joining s) (hloc : (s.thread t).loc = .unlock) :
    CanEnd pipeSize t s :=
  CanEnd.of_own h .go .sig (by decide) (by simp [hloc, Loc.locks]) (by simp [Thread.next, hloc])
    fun _ hjoining _ => canEnd_sig hjoining

/-- A woken thread has to wait for the one that holds the mutex. -/
theorem canEnd_woken (h : Joining s) (hloc : (s.thread t).loc = .woken) :
    CanEnd pipeSize t s := by
  have hfree : ∀ s' : State τ, Joining s' → (s'.thread t).loc = .woken → s'.mutex = none →
      CanEnd pipeSize t s' := fun s' hjoining hwoken hmutex =>
    CanEnd.of_own hjoining .go .unlock (by decide) (fun _ => hmutex)
      (by simp [Thread.next, hwoken]) fun _ hjoining' _ => canEnd_unlock hjoining'
  cases hmutex : s.mutex with
  | none => exact hfree s h hloc hmutex
  | some u =>
      have hunlocks := h.held u hmutex
      have hne : t ≠ u := by
        rintro rfl
        rw [hloc] at hunlocks
        cases hunlocks
      obtain ⟨th', hnext⟩ : ∃ th', (s.thread u).next pipeSize s.globalRunOperation true .go =
          some th' := by
        obtain hat | hat := unlocks_iff.mp hunlocks <;> simp [Thread.next, hat]
      have hlocks : (s.thread u).loc.locks = true → s.mutex = none := by
        rw [not_locks_of_unlocks hunlocks]
        exact Bool.noConfusion
      obtain ⟨s', hstep, -, -, hjoining, hgiven, hsame⟩ :=
        own_step h Input.noConfusion hlocks hnext
      have hwoken : (s'.thread t).loc = .woken := by rw [hsame t hne, hloc]
      exact (hfree s' hjoining hwoken (hgiven hunlocks)).of_step Input.noConfusion hstep

theorem canEnd_check (h : Joining s) (hrun : s.globalRunOperation = true)
    (hloc : (s.thread t).loc = .check) : CanEnd pipeSize t s :=
  CanEnd.of_own h .go .sig (by decide) (by simp [hloc, Loc.locks])
    (by simp [Thread.next, hloc, hrun]) fun _ hjoining _ => canEnd_sig hjoining

theorem canEnd_read (h : Joining s) (hrun : s.globalRunOperation = true)
    (hloc : (s.thread t).loc = .read) : CanEnd pipeSize t s :=
  CanEnd.of_own h (.data []) .check (by decide) (by simp [hloc, Loc.locks])
    (by simp [Thread.next, hloc]) fun _ hjoining hsame =>
      canEnd_check hjoining (hsame.trans hrun)

theorem canEnd_write (h : Joining s) (hrun : s.globalRunOperation = true) {rlen wlen : Nat}
    (hloc : (s.thread t).loc = .write rlen wlen) : CanEnd pipeSize t s := by
  have hdone : ¬wlen + (rlen - wlen) < rlen := by omega
  exact CanEnd.of_own h (.moved (rlen - wlen)) .check ⟨Input.noConfusion, Input.noConfusion⟩
    (by simp [hloc, Loc.locks]) (by simp [Thread.next, hloc, hdone]) fun _ hjoining hsame =>
      canEnd_check hjoining (hsame.trans hrun)

/-- A thread that is not lost can end. -/
theorem canEnd_of_not_lost (h : Joining s)
    (hlost : (s.thread t).loc.lost s.globalRunOperation = false) : CanEnd pipeSize t s := by
  cases hloc : (s.thread t).loc <;> rw [hloc] at hlost
  case lock => cases hlost
  case wait => cases hlost
  case asleep => cases hlost
  case woken => exact canEnd_woken h hloc
  case unlock => exact canEnd_unlock h hloc
  case sig => exact canEnd_sig h hloc
  case ended => exact canEnd_ended hloc
  case check => exact canEnd_check h (by simpa [Loc.lost] using hlost) hloc
  case read => exact canEnd_read h (by simpa [Loc.lost] using hlost) hloc
  case write rlen wlen => exact canEnd_write h (by simpa [Loc.lost] using hlost) hloc

/-- A thread that is lost never ends. -/
theorem not_lost_of_canEnd (hjoin : s.control = .join) (h : CanEnd pipeSize t s) :
    (s.thread t).loc.lost s.globalRunOperation = false := by
  obtain ⟨more, s', hquiet, hrest, hend⟩ := h
  rw [Bool.eq_false_iff]
  intro hlost
  have hall : AllSteps (step pipeSize) (fun _ l => l ≠ .thread t .spurious) s more :=
    allSteps_of_forall (fun l hl => hquiet l hl t) s
  have hkeep := runSteps_invariant_of (fun _ _ _ hs hl hstep => lost_step hs.1 hl hs.2 hstep)
    ⟨hjoin, hlost⟩ hall hrest
  rw [hend] at hkeep
  cases hkeep.2

end Join

/-- When the controller has come to `pthread_join`, a thread can still end, without a spurious
wake-up, exactly if it is not on its way to sleep and, should the host have stopped the agent last,
is past its look at `global_run_operation`. Any other thread is never joined. -/
theorem joined_iff {pipeSize : Nat} {run : List (Label τ)} {s : State τ}
    (hrun : runSteps (step pipeSize) start run = some s) (hjoin : s.control = .join)
    (halive : s.failed = false) (t : τ) :
    CanEnd pipeSize t s ↔ (s.thread t).loc.lost s.globalRunOperation = false := by
  refine ⟨not_lost_of_canEnd hjoin, canEnd_of_not_lost ⟨halive, hjoin, ?_, ?_⟩⟩
  · exact (ordered_run hrun).ending.mpr (.inr hjoin)
  · have hstart : Held (start : State τ) := fun u hu => by cases hu
    exact runSteps_invariant (fun _ _ _ => held_step) hstart hrun

/-- A signal at the start, when one thread sleeps and the other is on its way to. -/
def signalRun : List (Label Bool) :=
  [.thread false .go, .thread false .go, .thread false .go, .thread true .go, .signal,
    .control (.polled .timeout), .control .go, .control .go]

theorem joined_iff_signal : ∃ s : State Bool, runSteps (step 65536) start signalRun = some s ∧
    CanEnd 65536 false s ∧ ¬CanEnd 65536 true s := by
  have hend : (runSteps (step 65536) start signalRun).map (fun s =>
      (s.control, s.failed, s.globalRunOperation, (s.thread false).loc, (s.thread true).loc)) =
        some (.join, false, false, .woken, .lock) := by decide
  obtain ⟨s, hs, hat⟩ := Option.map_eq_some_iff.mp hend
  obtain ⟨hjoin, hat⟩ := Prod.mk.inj hat
  obtain ⟨halive, hat⟩ := Prod.mk.inj hat
  obtain ⟨-, hat⟩ := Prod.mk.inj hat
  obtain ⟨hwoken, hlock⟩ := Prod.mk.inj hat
  refine ⟨s, hs, (joined_iff hs hjoin halive false).mpr (by rw [hwoken]; rfl), ?_⟩
  rw [joined_iff hs hjoin halive true, hlock]
  exact Bool.noConfusion

end TpQemu.VirtioTrace
