import TpQemu.Lib.Steps

/-!
# The monitor of a performance test

`cmd_runner_monitor` of `performance.py` runs a monitor on the host while a test runs in the
guest. Whoever finds the test over first, the thread of the test or the caller after its timeout,
takes a flag from a queue of length one and kills the monitor. Neither holds a lock between
`empty()` and `get()`.
-/

namespace TpQemu.Performance.Monitor

/-- `test_thread`. -/
inductive Tester where
  | put
  | command
  | check
  | get
  | kill
  | failed
  | skipped
  | killed
  | raised
  deriving DecidableEq

/-- The caller, from `monitor.join`. -/
inductive Caller where
  | join
  | check
  | get
  | killMonitor
  | killShell
  | returned (killed : Bool)
  | raised
  deriving DecidableEq

/-- `monitor_thread` with its command. The pid is written before the command runs. -/
inductive Process where
  | starting
  | running
  | ended
  deriving DecidableEq

structure State where
  /-- `kill_thread_flag` is full. -/
  flag : Bool
  tester : Tester
  caller : Caller
  monitor : Process
  deriving DecidableEq

/-- A step of a party. `ok` tells whether the command succeeded, whether the monitor has been
joined before the timeout, whether the process to be killed was found. -/
inductive Label where
  | tester (ok : Bool)
  | caller (ok : Bool)
  | monitor
  deriving DecidableEq

/-- The next step of the thread of the test. -/
def testerStep (s : State) (ok : Bool) : Option State :=
  match s.tester with
  | .put => if s.flag then none else some { s with tester := .command, flag := true }
  | .command => some { s with tester := if ok then .check else .failed }
  | .check => some { s with tester := if s.flag then .get else .skipped }
  | .get => if s.flag then some { s with tester := .kill, flag := false } else none
  | .kill =>
      if ok then
        if s.monitor = .running then some { s with tester := .killed, monitor := .ended } else none
      else some { s with tester := .raised }
  | .failed | .skipped | .killed | .raised => none

/-- The next step of the caller. -/
def callerStep (s : State) (ok : Bool) : Option State :=
  match s.caller with
  | .join => if ok && s.monitor ≠ .ended then none else some { s with caller := .check }
  | .check => some { s with caller := if s.flag then .get else .returned false }
  | .get => if s.flag then some { s with caller := .killMonitor, flag := false } else none
  | .killMonitor =>
      if ok then
        if s.monitor = .running then some { s with caller := .killShell, monitor := .ended }
        else none
      else some { s with caller := .raised }
  | .killShell => some { s with caller := if ok then .returned true else .raised }
  | .returned _ | .raised => none

def step (s : State) : Label → Option State
  | .tester ok => testerStep s ok
  | .caller ok => callerStep s ok
  | .monitor =>
      match s.monitor with
      | .starting => some { s with monitor := .running }
      | .running => some { s with monitor := .ended }
      | .ended => none

def start : State := ⟨false, .put, .join, .starting⟩

inductive Party where
  | tester
  | caller
  deriving DecidableEq

/-- The party that takes the flag in a step. -/
def seeTake (s : State) : Label → Option Party
  | .tester _ => if s.tester = .get then some .tester else none
  | .caller _ => if s.caller = .get then some .caller else none
  | .monitor => none

/-- The party that kills the monitor in a step. -/
def seeKill (s : State) : Label → Option Party
  | .tester ok => if s.tester = .kill ∧ ok then some .tester else none
  | .caller ok => if s.caller = .killMonitor ∧ ok then some .caller else none
  | .monitor => none

def takes (run : List Label) : List Party := observe step seeTake start run

def kills (run : List Label) : List Party := observe step seeKill start run

/-- One party takes the flag after the other has seen it and before it can take it. -/
def Races (s : State) (l : Label) : Prop :=
  s.tester = .get ∧ s.caller = .get ∧ l ≠ .monitor

/-! ## The flag -/

def Tester.took : Tester → Bool
  | .kill | .killed | .raised => true
  | _ => false

def Tester.hasPut : Tester → Bool
  | .put => false
  | _ => true

def Caller.took : Caller → Bool
  | .killMonitor | .killShell | .returned true | .raised => true
  | _ => false

/-- Once it is put, the flag is in one place. It is seen only after it was put, and the thread
of the test finds it gone only if the caller has taken it. -/
structure Inv (s : State) : Prop where
  one : s.flag.toNat + s.tester.took.toNat + s.caller.took.toNat = s.tester.hasPut.toNat
  seen : s.caller = .get → s.tester.hasPut = true
  skipped : s.tester = .skipped → s.caller.took = true
  killed : s.tester = .killed ∨ s.caller = .killShell ∨ s.caller = .returned true →
    s.monitor = .ended

theorem inv_start : Inv start := by
  refine ⟨rfl, ?_, ?_, ?_⟩ <;> simp [start]

section Step

variable {s s' : State}

/-- A step of the thread of the test to `t`. -/
theorem Inv.withTester (h : Inv s) {t : Tester} {flag : Bool}
    (hone : flag.toNat + t.took.toNat + s.tester.hasPut.toNat =
      s.flag.toNat + s.tester.took.toNat + 1) (hput : t.hasPut = true)
    (hskipped : t = .skipped → s.caller.took = true) (hkilled : t = .killed → s.monitor = .ended) :
    Inv { s with flag := flag, tester := t } where
  one := by
    have hbefore := h.one
    show flag.toNat + t.took.toNat + s.caller.took.toNat = t.hasPut.toNat
    rw [hput, Bool.toNat_true]
    omega
  seen := fun _ => hput
  skipped := hskipped
  killed := fun hk => hk.elim hkilled fun hk => h.killed (.inr hk)

/-- A step of the caller to `c`. -/
theorem Inv.withCaller (h : Inv s) {c : Caller} {flag : Bool}
    (hone : flag.toNat + c.took.toNat = s.flag.toNat + s.caller.took.toNat)
    (hseen : c = .get → s.flag = true) (hskipped : s.caller.took = true → c.took = true)
    (hkilled : c = .killShell ∨ c = .returned true → s.monitor = .ended) :
    Inv { s with flag := flag, caller := c } where
  one := by
    have hbefore := h.one
    show flag.toNat + s.tester.took.toNat + c.took.toNat = s.tester.hasPut.toNat
    omega
  seen := by
    intro hc
    have hbefore := h.one
    rw [hseen hc, Bool.toNat_true] at hbefore
    show s.tester.hasPut = true
    cases hput : s.tester.hasPut with
    | true => rfl
    | false =>
        rw [hput, Bool.toNat_false] at hbefore
        omega
  skipped := fun hs => hskipped (h.skipped hs)
  killed := fun hk => hk.elim (fun hk => h.killed (.inl hk)) hkilled

/-- The monitor has ended. -/
theorem Inv.withEnded (h : Inv s) : Inv { s with monitor := .ended } :=
  ⟨h.one, h.seen, h.skipped, fun _ => rfl⟩

theorem inv_testerStep {ok : Bool} (h : Inv s) (hstep : testerStep s ok = some s') : Inv s' := by
  revert hstep
  fun_cases testerStep s ok <;> intro hstep <;> cases hstep
  case case2 hput hflag =>
    refine h.withTester ?_ rfl Tester.noConfusion Tester.noConfusion
    rw [hput, Bool.eq_false_iff.mpr hflag]
    rfl
  case case3 hcommand =>
    cases ok <;>
      exact h.withTester (by rw [hcommand]; rfl) rfl Tester.noConfusion Tester.noConfusion
  case case4 hcheck =>
    cases hflag : s.flag with
    | true =>
        exact h.withTester (by rw [hcheck, hflag]; rfl) rfl Tester.noConfusion Tester.noConfusion
    | false =>
        -- the flag was put, so the caller has it
        refine h.withTester (by rw [hcheck, hflag]; rfl) rfl (fun _ => ?_) Tester.noConfusion
        have hone := h.one
        rw [hcheck, hflag] at hone
        cases htook : s.caller.took with
        | true => rfl
        | false =>
            rw [htook] at hone
            cases hone
  case case5 hget hflag =>
    exact h.withTester (by rw [hget, hflag]; rfl) rfl Tester.noConfusion Tester.noConfusion
  case case7 hkill _ _ =>
    exact h.withEnded.withTester (by simp [hkill, Tester.took, Tester.hasPut]) rfl
      Tester.noConfusion fun _ => rfl
  case case9 hkill _ =>
    exact h.withTester (by rw [hkill]; rfl) rfl Tester.noConfusion Tester.noConfusion

theorem inv_callerStep {ok : Bool} (h : Inv s) (hstep : callerStep s ok = some s') : Inv s' := by
  have hnever : ∀ {c : Caller}, c = .check ∨ c = .get ∨ c = .killMonitor ∨ c = .raised ∨
      c = .returned false → c = .killShell ∨ c = .returned true → s.monitor = .ended := by
    rintro c (rfl | rfl | rfl | rfl | rfl) (hc | hc) <;> cases hc
  revert hstep
  fun_cases callerStep s ok <;> intro hstep <;> cases hstep
  case case2 hjoin _ =>
    exact h.withCaller (by rw [hjoin]; rfl) Caller.noConfusion (by rw [hjoin]; exact id)
      (hnever (.inl rfl))
  case case3 hcheck =>
    cases hflag : s.flag with
    | true =>
        exact h.withCaller (by rw [hcheck, hflag]; rfl) (fun _ => hflag) (by rw [hcheck]; exact id)
          (hnever (.inr (.inl rfl)))
    | false =>
        exact h.withCaller (by rw [hcheck, hflag]; rfl) Caller.noConfusion (by rw [hcheck]; exact id)
          (hnever (.inr (.inr (.inr (.inr rfl)))))
  case case4 hget hflag =>
    exact h.withCaller (by rw [hget, hflag]; rfl) Caller.noConfusion (fun _ => rfl)
      (hnever (.inr (.inr (.inl rfl))))
  case case6 hkill _ _ =>
    exact h.withEnded.withCaller (by rw [hkill]; rfl) Caller.noConfusion (fun _ => rfl)
      fun _ => rfl
  case case8 hkill _ =>
    exact h.withCaller (by rw [hkill]; rfl) Caller.noConfusion (fun _ => rfl)
      (hnever (.inr (.inr (.inr (.inl rfl)))))
  case case9 hkill =>
    have hended : s.monitor = .ended := h.killed (.inr (.inl hkill))
    cases ok <;>
      exact h.withCaller (by rw [hkill]; rfl) Caller.noConfusion (fun _ => rfl) fun _ => hended

theorem inv_step {l : Label} (h : Inv s) (hstep : step s l = some s') : Inv s' := by
  cases l with
  | tester ok => exact inv_testerStep h hstep
  | caller ok => exact inv_callerStep h hstep
  | monitor =>
      rw [step] at hstep
      split at hstep <;> cases hstep
      · rename_i hstarting
        refine ⟨h.one, h.seen, h.skipped, fun hk => ?_⟩
        have hended := h.killed hk
        rw [hstarting] at hended
        cases hended
      · exact h.withEnded

end Step

/-! ## Taking and waiting -/

/-- The parties that have taken the flag. -/
def State.takers (s : State) : List Party :=
  (if s.tester.took then [.tester] else []) ++ if s.caller.took then [.caller] else []

def State.AtGet (s : State) : Party → Prop
  | .tester => s.tester = .get
  | .caller => s.caller = .get

def Party.other : Party → Party
  | .tester => .caller
  | .caller => .tester

/-- A party has seen the flag, and the other one has taken it. -/
def State.Waits (s : State) (p : Party) : Prop := s.AtGet p ∧ p.other ∈ s.takers

/-- The next step of a party. -/
def Party.label : Party → Bool → Label
  | .tester => .tester
  | .caller => .caller

def State.over (s : State) : Party → Bool
  | .tester => s.tester = .failed ∨ s.tester = .skipped ∨ s.tester = .killed ∨ s.tester = .raised
  | .caller => s.caller = .returned true ∨ s.caller = .returned false ∨ s.caller = .raised

/-- A party that has not ended cannot make a step. -/
def Blocked (s : State) (p : Party) : Prop := s.over p = false ∧ ∀ ok, step s (p.label ok) = none

section Follow

variable {s s' : State}

theorem Inv.untaken (h : Inv s) (hflag : s.flag = true) :
    s.tester.took = false ∧ s.caller.took = false := by
  have hone := h.one
  rw [hflag, Bool.toNat_true] at hone
  have hle := Bool.toNat_le s.tester.hasPut
  constructor <;> rw [← Bool.toNat_eq_zero] <;> omega

theorem takers_testerStep (h : Inv s) {ok : Bool} (hstep : testerStep s ok = some s') :
    s'.takers = s.takers ++ (seeTake s (.tester ok)).toList := by
  rw [seeTake]
  revert hstep
  fun_cases testerStep s ok <;> intro hstep <;> cases hstep
  case case3 hcommand => cases ok <;> simp [State.takers, hcommand, Tester.took]
  case case4 hcheck => cases hflag : s.flag <;> simp [State.takers, hcheck, Tester.took]
  case case5 hget hflag =>
    obtain ⟨htester, hcaller⟩ := h.untaken hflag
    simp [State.takers, hget, hcaller, Tester.took]
  all_goals simp [State.takers, Tester.took, *]

theorem takers_callerStep (h : Inv s) {ok : Bool} (hstep : callerStep s ok = some s') :
    s'.takers = s.takers ++ (seeTake s (.caller ok)).toList := by
  rw [seeTake]
  revert hstep
  fun_cases callerStep s ok <;> intro hstep <;> cases hstep
  case case3 hcheck => cases hflag : s.flag <;> simp [State.takers, hcheck, Caller.took]
  case case4 hget hflag =>
    obtain ⟨htester, hcaller⟩ := h.untaken hflag
    simp [State.takers, hget, htester, Caller.took]
  case case9 hkill => cases ok <;> simp [State.takers, hkill, Caller.took]
  all_goals simp [State.takers, Caller.took, *]

theorem takers_step (h : Inv s) {l : Label} (hstep : step s l = some s') :
    s'.takers = s.takers ++ (seeTake s l).toList := by
  cases l with
  | tester ok => exact takers_testerStep h hstep
  | caller ok => exact takers_callerStep h hstep
  | monitor =>
      rw [step] at hstep
      split at hstep <;> cases hstep <;> exact (List.append_nil _).symm

theorem mem_takers {p : Party} :
    p ∈ s.takers ↔ (p = .tester ∧ s.tester.took = true) ∨ (p = .caller ∧ s.caller.took = true) := by
  rw [State.takers]
  cases s.tester.took <;> cases s.caller.took <;> simp

theorem kill_takers {l : Label} {p : Party} (hkill : seeKill s l = some p) : p ∈ s.takers := by
  rw [mem_takers]
  revert hkill
  fun_cases seeKill s l <;> intro hkill <;> cases hkill
  case case1 h => exact .inl ⟨rfl, by rw [h.1]; rfl⟩
  case case3 h => exact .inr ⟨rfl, by rw [h.1]; rfl⟩

theorem atGet_of_seeTake {l : Label} {p : Party} (h : seeTake s l = some p) :
    s.AtGet p ∧ ∃ ok, l = p.label ok := by
  revert h
  fun_cases seeTake s l <;> intro h <;> cases h
  case case1 ok hget => exact ⟨hget, ok, rfl⟩
  case case3 ok hget => exact ⟨hget, ok, rfl⟩

theorem seeTake_label {p : Party} (h : s.AtGet p) (ok : Bool) :
    seeTake s (p.label ok) = some p := by
  cases p with
  | tester => exact if_pos h
  | caller => exact if_pos h

/-- A step of the other party or of the monitor leaves a party where it is. -/
theorem atGet_frame {l : Label} (hstep : step s l = some s') {p : Party}
    (hl : ∀ ok, l ≠ p.label ok) : s'.AtGet p ↔ s.AtGet p := by
  cases l with
  | tester ok =>
      cases p with
      | tester => exact absurd rfl (hl ok)
      | caller =>
          rw [step] at hstep
          revert hstep
          fun_cases testerStep s ok <;> intro hstep <;> cases hstep <;> rfl
  | caller ok =>
      cases p with
      | caller => exact absurd rfl (hl ok)
      | tester =>
          rw [step] at hstep
          revert hstep
          fun_cases callerStep s ok <;> intro hstep <;> cases hstep <;> rfl
  | monitor =>
      rw [step] at hstep
      split at hstep <;> cases hstep <;> cases p <;> rfl

theorem flag_of_testerStep {ok : Bool} (hstep : testerStep s ok = some s')
    (hget : s'.tester = .get) : s.flag = true := by
  revert hstep hget
  fun_cases testerStep s ok <;> intro hstep hget <;> cases hstep
  case case3 => cases ok <;> cases hget
  case case4 =>
    cases hflag : s.flag with
    | true => rfl
    | false => simp [hflag] at hget
  all_goals cases hget

theorem flag_of_callerStep {ok : Bool} (hstep : callerStep s ok = some s')
    (hget : s'.caller = .get) : s.flag = true := by
  revert hstep hget
  fun_cases callerStep s ok <;> intro hstep hget <;> cases hstep
  case case3 =>
    cases hflag : s.flag with
    | true => rfl
    | false => simp [hflag] at hget
  case case9 => cases ok <;> cases hget
  all_goals cases hget

/-- A party comes to take the flag only when it sees it. -/
theorem flag_of_atGet {ok : Bool} {p : Party} (hstep : step s (p.label ok) = some s')
    (hget : s'.AtGet p) : s.flag = true := by
  cases p with
  | tester => exact flag_of_testerStep hstep hget
  | caller => exact flag_of_callerStep hstep hget

/-- Who waits finds no flag. -/
theorem not_step_of_waits (h : Inv s) {p : Party} (hwaits : s.Waits p) (ok : Bool) :
    step s (p.label ok) = none := by
  obtain ⟨hget, htook⟩ := hwaits
  have hflag : ¬s.flag = true := by
    intro hflag
    obtain ⟨htester, hcaller⟩ := h.untaken hflag
    simp [mem_takers, htester, hcaller] at htook
  cases p with
  | tester =>
      have htester : s.tester = .get := hget
      rw [Party.label, step, testerStep, htester]
      exact if_neg hflag
  | caller =>
      have hcaller : s.caller = .get := hget
      rw [Party.label, step, callerStep, hcaller]
      exact if_neg hflag

/-- A party that waits goes on waiting. -/
theorem waits_stays (h : Inv s) {l : Label} (hstep : step s l = some s') {p : Party}
    (hwaits : s.Waits p) : s'.Waits p := by
  have hl : ∀ ok, l ≠ p.label ok := by
    rintro ok rfl
    rw [not_step_of_waits h hwaits ok] at hstep
    cases hstep
  refine ⟨(atGet_frame hstep hl).mpr hwaits.1, ?_⟩
  rw [takers_step h hstep]
  exact List.mem_append_left _ hwaits.2

/-- Some party waits after a step if one waited before it, or the step was a race. -/
theorem waits_step (h : Inv s) {l : Label} (hstep : step s l = some s') :
    (∃ p, s'.Waits p) ↔ (∃ p, s.Waits p) ∨ Races s l := by
  have htakers := takers_step h hstep
  constructor
  · rintro ⟨p, hget, htook⟩
    rw [htakers, List.mem_append, Option.mem_toList] at htook
    by_cases hl : ∀ ok, l ≠ p.label ok
    · rw [atGet_frame hstep hl] at hget
      obtain htook | htake := htook
      · exact .inl ⟨p, hget, htook⟩
      · obtain ⟨hother, ok, rfl⟩ := atGet_of_seeTake htake
        refine .inr ?_
        cases p with
        | tester => exact ⟨hget, hother, Label.noConfusion⟩
        | caller => exact ⟨hother, hget, Label.noConfusion⟩
    · -- the flag was still there
      obtain ⟨ok, hok⟩ := not_forall.mp hl
      obtain rfl := not_not.mp hok
      obtain ⟨htester, hcaller⟩ := h.untaken (flag_of_atGet hstep hget)
      obtain htook | htake := htook
      · simp [mem_takers, htester, hcaller] at htook
      · obtain ⟨-, ok', hl⟩ := atGet_of_seeTake htake
        cases p <;> cases hl
  · rintro (⟨p, hwaits⟩ | ⟨htester, hcaller, hl⟩)
    · exact ⟨p, waits_stays h hstep hwaits⟩
    · have hall : ∀ p, s.AtGet p := fun p => by cases p <;> assumption
      obtain ⟨p, ok, rfl⟩ : ∃ (p : Party) (ok : Bool), l = p.label ok := by
        cases l with
        | tester ok => exact ⟨.tester, ok, rfl⟩
        | caller ok => exact ⟨.caller, ok, rfl⟩
        | monitor => exact absurd rfl hl
      refine ⟨p.other, (atGet_frame hstep ?_).mpr (hall _), ?_⟩
      · intro ok'
        cases p <;> exact Label.noConfusion
      · rw [htakers, seeTake_label (hall p) ok]
        cases p <;> simp [Party.other]

/-- Where the thread of the test cannot go on. -/
theorem atGet_of_blocked (h : Inv s) {p : Party} (hblocked : Blocked s p) :
    s.AtGet p ∧ s.flag = false := by
  obtain ⟨hover, hnone⟩ := hblocked
  cases p with
  | tester =>
      have hfalse := hnone false
      rw [Party.label, step, testerStep] at hfalse
      cases hat : s.tester <;> rw [hat] at hfalse
      case put =>
        have hone := h.one
        rw [hat] at hone
        cases hflag : s.flag with
        | true => rw [hflag, Bool.toNat_true] at hone; simp [Tester.took, Tester.hasPut] at hone
        | false => simp [hflag] at hfalse
      case get => exact ⟨hat, by simpa using hfalse⟩
      case command => cases hfalse
      case check => cases hfalse
      case kill => cases hfalse
      all_goals simp [State.over, hat] at hover
  | caller =>
      have hfalse := hnone false
      rw [Party.label, step, callerStep] at hfalse
      cases hat : s.caller <;> rw [hat] at hfalse
      case get => exact ⟨hat, by simpa using hfalse⟩
      case returned killed => cases killed <;> simp [State.over, hat] at hover
      case raised => simp [State.over, hat] at hover
      all_goals cases hfalse

/-- A party cannot go on exactly if it waits for a flag that the other one has taken. -/
theorem blocked_iff (h : Inv s) (p : Party) : Blocked s p ↔ s.Waits p := by
  constructor
  · intro hblocked
    obtain ⟨hget, hflag⟩ := atGet_of_blocked h hblocked
    refine ⟨hget, ?_⟩
    -- the flag was put and is not in the queue
    have hone := h.one
    rw [hflag, Bool.toNat_false, Nat.zero_add] at hone
    rw [mem_takers]
    cases p with
    | tester =>
        have htester : s.tester = .get := hget
        rw [htester] at hone
        refine .inr ⟨rfl, ?_⟩
        cases hcaller : s.caller.took with
        | true => rfl
        | false => rw [hcaller] at hone; cases hone
    | caller =>
        have hcaller : s.caller = .get := hget
        rw [hcaller, h.seen hcaller] at hone
        refine .inl ⟨rfl, ?_⟩
        cases htester : s.tester.took with
        | true => rfl
        | false => rw [htester] at hone; cases hone
  · intro hwaits
    refine ⟨?_, not_step_of_waits h hwaits⟩
    cases p with
    | tester =>
        have htester : s.tester = .get := hwaits.1
        simp [State.over, htester]
    | caller =>
        have hcaller : s.caller = .get := hwaits.1
        simp [State.over, hcaller]

end Follow

/-- What is known of a run. -/
structure Reached (s : State) (past : List (State × Label)) : Prop where
  inv : Inv s
  takes : past.filterMap (fun x => seeTake x.1 x.2) = s.takers
  kills : ∀ p ∈ past.filterMap (fun x => seeKill x.1 x.2), p ∈ s.takers
  raced : (∃ x ∈ past, Races x.1 x.2) ↔ ∃ p, s.Waits p

theorem reached_step (s : State) (past : List (State × Label)) (l : Label) (s' : State)
    (hs : Reached s past) (hstep : step s l = some s') : Reached s' (past ++ [(s, l)]) := by
  have htakers := takers_step hs.inv hstep
  refine ⟨inv_step hs.inv hstep, ?_, fun p hp => ?_, ?_⟩
  · rw [List.filterMap_append, hs.takes, htakers, List.filterMap_cons]
    cases seeTake s l <;> rfl
  · rw [htakers]
    refine List.mem_append_left _ ?_
    rw [List.filterMap_append] at hp
    obtain hp | hp := List.mem_append.mp hp
    · exact hs.kills p hp
    · obtain ⟨x, hx, hkill⟩ := List.mem_filterMap.mp hp
      rw [List.mem_singleton.mp hx] at hkill
      exact kill_takers hkill
  · rw [waits_step hs.inv hstep, ← hs.raced]
    simp [or_and_right, exists_or]

theorem reached_run {run : List Label} {s : State} (hrun : runSteps step start run = some s) :
    Reached s (visited step start run) :=
  have hstart : Reached start [] := by
    refine ⟨inv_start, rfl, fun p hp => ?_, iff_of_false ?_ ?_⟩
    · cases hp
    · rintro ⟨x, hx, -⟩
      cases hx
    · rintro ⟨p, -, htook⟩
      cases htook
  visited_invariant reached_step hstart hrun

/-! ## Whole runs -/

/-- At most one party takes the flag, and only that one kills the monitor. When the thread of the
test has ended and the caller has returned, neither with an exception, the monitor has ended. -/
theorem monitor_killed_by_taker {run : List Label} {s : State}
    (hrun : runSteps step start run = some s) :
    (takes run).length ≤ 1 ∧ (∀ p ∈ kills run, takes run = [p]) ∧
      (s.tester = .skipped ∨ s.tester = .killed → ∀ killed, s.caller = .returned killed →
        s.monitor = .ended) := by
  obtain ⟨hinv, hall, hkills, -⟩ := reached_run hrun
  have htakes : takes run = s.takers := hall
  have hone : s.takers.length ≤ 1 := by
    have hle := Bool.toNat_le s.tester.hasPut
    have hsum := hinv.one
    rw [State.takers]
    cases htester : s.tester.took <;> cases hcaller : s.caller.took <;>
      simp [htester, hcaller] at hsum ⊢
    omega
  refine ⟨by rwa [htakes], fun p hp => ?_, ?_⟩
  · have hmem := hkills p hp
    have hlength : s.takers.length = 1 := by
      have hpos := List.length_pos_of_mem hmem
      omega
    obtain ⟨q, hq⟩ := List.length_eq_one_iff.mp hlength
    rw [hq, List.mem_singleton] at hmem
    rw [htakes, hq, hmem]
  · rintro (hskipped | hkilled) killed hreturned
    · have htook := hinv.skipped hskipped
      rw [hreturned] at htook
      cases killed with
      | true => exact hinv.killed (.inr (.inr hreturned))
      | false => cases htook
    · exact hinv.killed (.inl hkilled)

/-- The test is over before the timeout. -/
def quickRun : List Label :=
  [.tester true, .monitor, .tester true, .tester true, .tester true, .tester true, .caller true,
    .caller true]

theorem monitor_killed_by_taker_quick : ∃ s,
    runSteps step start quickRun = some s ∧ s.monitor = .ended := by
  have hend : runSteps step start quickRun =
      some ⟨false, .killed, .returned false, .ended⟩ := by decide
  exact ⟨_, hend, (monitor_killed_by_taker hend).2.2 (.inr rfl) false rfl⟩

/-- A party gets stuck in exactly the runs in which one party takes the flag between the look of
the other one and its `get`; no party is ever stuck elsewhere, and one that is stuck remains so
whatever happens. -/
theorem stuck_iff_race {run : List Label} {s : State}
    (hrun : runSteps step start run = some s) :
    ((∃ p, Blocked s p) ↔ ∃ x ∈ visited step start run, Races x.1 x.2) ∧
      ∀ p, Blocked s p → ∀ more s', runSteps step s more = some s' → Blocked s' p := by
  obtain ⟨hinv, -, -, hraced⟩ := reached_run hrun
  refine ⟨?_, fun p hblocked more s' hmore => ?_⟩
  · rw [hraced]
    exact exists_congr fun p => blocked_iff hinv p
  · have hkeep : ∀ t l t', Inv t ∧ t.Waits p → step t l = some t' → Inv t' ∧ t'.Waits p :=
      fun t l t' ht hstep => ⟨inv_step ht.1 hstep, waits_stays ht.1 hstep ht.2⟩
    have hend := runSteps_invariant hkeep ⟨hinv, (blocked_iff hinv p).mp hblocked⟩ hmore
    exact (blocked_iff hend.1 p).mpr hend.2

/-- The timeout comes when the test has just ended. -/
def lateRun : List Label :=
  [.tester true, .monitor, .tester true, .caller false, .caller false, .tester true, .caller false]

theorem stuck_iff_race_late : ∃ s,
    runSteps step start lateRun = some s ∧ ∃ p, Blocked s p := by
  have hend : runSteps step start lateRun =
      some ⟨false, .get, .killMonitor, .running⟩ := by decide
  have hraced : ∃ x ∈ visited step start lateRun, Races x.1 x.2 := by
    unfold Races
    decide
  exact ⟨_, hend, (stuck_iff_race hend).1.mpr hraced⟩

end TpQemu.Performance.Monitor
