import TpQemu.Lib.Steps

/-!
# The check of the time stamp counters

`tsc_delta`, `slave_thread` and `check_tsc` of `checktsc.c`. For each two CPUs the main thread
reads the counter of the first one before and after the slave thread reads that of the second one.
The two threads take turns through two shared words, each of which only one of them writes. A
thread that waits for a word does nothing until it finds the value. Every access to a shared word
is one step, and so is every write to another shared variable.
-/

namespace TpQemu.TscCheck

/-- The value of a shared word; `zero` is the one at the start. -/
inductive Word where
  | zero
  | ready
  | done
  | error
  deriving DecidableEq

/-- Where the main thread is. The part from `pin` to `compare` is for one pair of CPUs, the part
from `setReady` to `accept` is one round of the loop in `tsc_delta`. -/
inductive Main where
  | next
  | pin
  | assign
  | setReady
  | waitReady
  | readStart
  | setDone
  | waitDone
  | readEnd
  | accept
  | compare
  | stop
  | join
  | returned
  deriving DecidableEq

/-- Where the slave thread is. -/
inductive Slave where
  | waitReady
  | look
  | pin
  | setReady
  | waitDone
  | readTsc
  | setDone
  | ended
  deriving DecidableEq

/-- `best_t0`, `best_t1` and `best_tm`. -/
structure Best where
  t0 : BitVec 64
  t1 : BitVec 64
  tm : BitVec 64

/-- The best round so far, before the first one. -/
def noBest : Best := ⟨0, BitVec.allOnes 64, 0⟩

/-- `delta` -/
def Best.delta (best : Best) : BitVec 64 :=
  (best.t0 / 2 + best.t1 / 2 + (best.t0 &&& best.t1 &&& 1)) - best.tm

/-- What `tsc_delta` returns for a pair, and the round trips it prints if it is to be verbose.
There are none if the main thread cannot run on the first CPU. -/
structure Outcome where
  cpuA : Nat
  cpuB : Nat
  delta : BitVec 64
  roundtrips : List (BitVec 64)

structure State where
  master : Word
  slave : Word
  slaveTsc : BitVec 64
  /-- `slave_cpu`; none for a negative one. -/
  slaveCpu : Option Nat
  main : Main
  /-- The pairs that come after the current one. -/
  pairs : List (Nat × Nat)
  cpuA : Nat
  cpuB : Nat
  t0 : BitVec 64
  t1 : BitVec 64
  best : Best
  roundtrips : List (BitVec 64)
  outcomes : List Outcome
  err : Nat
  slaveAt : Slave
  currentCpu : Option Nat
  /-- The time of the step. -/
  now : Nat

/-- A step of a thread, after some time. `ok` tells whether `sched_setaffinity` succeeds. -/
inductive Label where
  | main (elapsed : Nat) (ok : Bool)
  | slave (elapsed : Nat) (ok : Bool)

def numIters : Nat := 10

structure Config where
  threshold : Int
  /-- The counter of a CPU at a time. -/
  tsc : Nat → Nat → BitVec 64

/-- `llabs(delta) > threshold`; of the smallest number C leaves `llabs` open. -/
def Config.exceeds (c : Config) (o : Outcome) : Bool :=
  decide (c.threshold < (o.delta.toInt.natAbs : Int))

section Step

variable (c : Config) (s : State)

/-- `tsc_delta` returns. -/
def State.record (o : Outcome) : State :=
  { s with
    main := .next
    outcomes := s.outcomes ++ [o]
    err := if c.exceeds o then s.err + 1 else s.err }

/-- The end of a round: it is kept if it was shorter than the best one. -/
def State.accept : State :=
  { s with
    best := if s.t1 - s.t0 < s.best.t1 - s.best.t0 then ⟨s.t0, s.t1, s.slaveTsc⟩ else s.best
    roundtrips := s.roundtrips ++ [s.t1 - s.t0]
    main := if s.roundtrips.length + 1 < numIters then .setReady else .compare }

/-- A step of the main thread. -/
def mainStep (ok : Bool) : Option State :=
  match s.main with
  | .next =>
      match s.pairs with
      | [] => some { s with main := .stop, slaveCpu := none }
      | (a, b) :: pairs => some { s with main := .pin, pairs := pairs, cpuA := a, cpuB := b }
  | .pin =>
      if ok then some { s with main := .assign } else some (s.record c ⟨s.cpuA, s.cpuB, -1, []⟩)
  | .assign =>
      some { s with
        main := .setReady, slaveCpu := some s.cpuB, best := noBest, roundtrips := [] }
  | .setReady => some { s with main := .waitReady, master := .ready }
  | .waitReady => if s.slave = .ready then some { s with main := .readStart } else none
  | .readStart => some { s with main := .setDone, t0 := c.tsc s.cpuA s.now }
  | .setDone => some { s with main := .waitDone, master := .done }
  | .waitDone => if s.slave = .done then some { s with main := .readEnd } else none
  | .readEnd => some { s with main := .accept, t1 := c.tsc s.cpuA s.now }
  | .accept => some s.accept
  | .compare => some (s.record c ⟨s.cpuA, s.cpuB, s.best.delta, s.roundtrips⟩)
  | .stop => some { s with main := .join, master := .ready }
  | .join => if s.slaveAt = .ended then some { s with main := .returned } else none
  | .returned => none

/-- A step of `slave_thread`. -/
def slaveStep (ok : Bool) : Option State :=
  match s.slaveAt with
  | .waitReady => if s.master = .ready then some { s with slaveAt := .look } else none
  | .look =>
      match s.slaveCpu with
      | none => some { s with slaveAt := .ended }
      | some cpu =>
          some { s with slaveAt := if s.currentCpu = some cpu then .setReady else .pin }
  | .pin =>
      if ok then some { s with slaveAt := .setReady, currentCpu := s.slaveCpu }
      else some { s with slaveAt := .ended, slave := .error }
  | .setReady => some { s with slaveAt := .waitDone, slave := .ready }
  | .waitDone => if s.master = .done then some { s with slaveAt := .readTsc } else none
  | .readTsc =>
      some { s with slaveAt := .setDone, slaveTsc := c.tsc (s.currentCpu.getD 0) s.now }
  | .setDone => some { s with slaveAt := .waitReady, slave := .done }
  | .ended => none

def step : Label → Option State
  | .main elapsed ok => mainStep c { s with now := s.now + elapsed } ok
  | .slave elapsed ok => slaveStep c { s with now := s.now + elapsed } ok

end Step

/-- The pairs of different CPUs of the set, in the order of the loops of `check_tsc`. -/
def pairs (cpus : Nat → Bool) : List (Nat × Nat) :=
  ((List.range 32).filter cpus).flatMap fun a =>
    ((List.range 32).filter fun b => cpus b && a ≠ b).map fun b => (a, b)

theorem mem_pairs (cpus : Nat → Bool) (a b : Nat) :
    (a, b) ∈ pairs cpus ↔ (a < 32 ∧ cpus a = true) ∧ (b < 32 ∧ cpus b = true) ∧ a ≠ b := by
  simp only [pairs, List.mem_flatMap, List.mem_map, List.mem_filter, List.mem_range,
    Bool.and_eq_true, decide_eq_true_eq, Prod.mk.injEq]
  constructor
  · rintro ⟨_, ha, _, ⟨hb, hcpus, hne⟩, rfl, rfl⟩
    exact ⟨ha, ⟨hb, hcpus⟩, hne⟩
  · rintro ⟨ha, ⟨hb, hcpus⟩, hne⟩
    exact ⟨a, ha, b, ⟨hb, hcpus, hne⟩, rfl, rfl⟩

/-- The slave thread has been created. -/
def start (pairs : List (Nat × Nat)) : State where
  master := .zero
  slave := .zero
  slaveTsc := 0
  slaveCpu := some 0
  main := .next
  pairs := pairs
  cpuA := 0
  cpuB := 0
  t0 := 0
  t1 := 0
  best := noBest
  roundtrips := []
  outcomes := []
  err := 0
  slaveAt := .waitReady
  currentCpu := none
  now := 0

/-! ## The turns -/

/-- In the loop of `tsc_delta`. -/
def Main.measures : Main → Bool
  | .setReady | .waitReady | .readStart | .setDone | .waitDone | .readEnd | .accept | .compare =>
      true
  | _ => false

/-- In a round of that loop. -/
def Main.inRound (m : Main) : Bool := m.measures && m ≠ .compare

def Main.finishing : Main → Bool
  | .stop | .join | .returned => true
  | _ => false

/-- On its CPU for the current pair. -/
def Slave.pinned : Slave → Bool
  | .setReady | .waitDone | .readTsc | .setDone => true
  | _ => false

/-- Whose turn it is. When the main thread does not wait, the slave thread waits for it. -/
def Turn (s : State) : Prop :=
  match s.main with
  | .next | .pin | .assign | .setReady | .readEnd | .accept | .compare | .stop =>
      s.slaveAt = .waitReady ∧ s.master ≠ .ready ∧ s.slave ≠ .ready ∧ s.slave ≠ .error
  | .waitReady =>
      s.master = .ready ∧
        ((s.slaveAt = .waitReady ∨ s.slaveAt = .look ∨ s.slaveAt = .pin ∨ s.slaveAt = .setReady) ∧
            s.slave ≠ .ready ∧ s.slave ≠ .error ∨
          s.slaveAt = .waitDone ∧ s.slave = .ready ∨
          s.slaveAt = .ended ∧ s.slave = .error)
  | .readStart | .setDone => s.slaveAt = .waitDone ∧ s.master = .ready ∧ s.slave = .ready
  | .waitDone =>
      s.master = .done ∧
        ((s.slaveAt = .waitDone ∨ s.slaveAt = .readTsc ∨ s.slaveAt = .setDone) ∧
            s.slave = .ready ∨
          s.slaveAt = .waitReady ∧ s.slave = .done)
  | .join =>
      s.master = .ready ∧ s.slave ≠ .error ∧
        (s.slaveAt = .waitReady ∨ s.slaveAt = .look ∨ s.slaveAt = .ended)
  | .returned => s.slaveAt = .ended ∧ s.slave ≠ .error

/-- The threads take turns, and each of them is on the CPU that it measures. -/
structure Turns (s : State) : Prop where
  turn : Turn s
  cpu : s.main.measures = true → s.slaveCpu = some s.cpuB
  finishing : s.main.finishing = true → s.slaveCpu = none
  pinned : s.slaveAt.pinned = true → s.currentCpu = s.slaveCpu
  round : s.main.inRound = true → s.roundtrips.length < numIters
  rounds : s.main = .compare → s.roundtrips.length = numIters

section Turns

variable {c : Config} {s s' : State}

theorem Turns.elapse (h : Turns s) (elapsed : Nat) : Turns { s with now := s.now + elapsed } :=
  ⟨h.turn, h.cpu, h.finishing, h.pinned, h.round, h.rounds⟩

/-- The end of a round, before the next one or after the last one. -/
theorem turns_accept (h : Turns s) (hmain : s.main = .accept) : Turns s.accept := by
  have hturn := h.turn
  have hround := h.round (by rw [hmain]; rfl)
  have hlength : s.accept.roundtrips.length = s.roundtrips.length + 1 := List.length_append
  have hcpu : s.accept.slaveCpu = some s.accept.cpuB := h.cpu (by rw [hmain]; rfl)
  rw [Turn, hmain] at hturn
  by_cases hmore : s.roundtrips.length + 1 < numIters
  · have hnext : s.accept.main = .setReady := if_pos hmore
    refine ⟨?_, fun _ => hcpu, ?_, h.pinned, fun _ => by omega, ?_⟩
    · rw [Turn, hnext]
      exact hturn
    · rw [hnext]
      nofun
    · rw [hnext]
      nofun
  · have hnext : s.accept.main = .compare := if_neg hmore
    refine ⟨?_, fun _ => hcpu, ?_, h.pinned, ?_, fun _ => by omega⟩
    · rw [Turn, hnext]
      exact hturn
    · rw [hnext]
      nofun
    · rw [hnext]
      nofun

theorem turns_main {ok : Bool} (h : Turns s) (hstep : mainStep c s ok = some s') : Turns s' := by
  have haccept := turns_accept h
  obtain ⟨hturn, hcpu, hend, hpinned, hround, -⟩ := h
  revert hstep
  fun_cases mainStep c s ok <;> intro hstep <;> cases hstep
  case case1.refl hmain hpairs =>
    rw [Turn, hmain] at hturn
    refine ⟨hturn, nofun, fun _ => rfl, fun hat => ?_, nofun, nofun⟩
    rw [hturn.1] at hat
    cases hat
  case case2.refl hmain _ _ _ hpairs =>
    rw [Turn, hmain] at hturn
    exact ⟨hturn, nofun, nofun, hpinned, nofun, nofun⟩
  case case3.refl hmain _ =>
    rw [Turn, hmain] at hturn
    exact ⟨hturn, nofun, nofun, hpinned, nofun, nofun⟩
  case case4.refl hmain _ =>
    rw [Turn, hmain] at hturn
    exact ⟨hturn, nofun, nofun, hpinned, nofun, nofun⟩
  case case5.refl hmain =>
    rw [Turn, hmain] at hturn
    refine ⟨hturn, fun _ => rfl, nofun, fun hat => ?_, fun _ => Nat.zero_lt_succ 9, nofun⟩
    rw [hturn.1] at hat
    cases hat
  case case6.refl hmain =>
    rw [Turn, hmain] at hturn
    rw [hmain] at hcpu hround
    exact ⟨⟨rfl, .inl ⟨.inl hturn.1, hturn.2.2⟩⟩, fun _ => hcpu rfl, nofun, hpinned,
      fun _ => hround rfl, nofun⟩
  case case7.refl hmain hready =>
    rw [Turn, hmain] at hturn
    rw [hmain] at hcpu hround
    have hat : s.slaveAt = .waitDone := by grind
    exact ⟨⟨hat, hturn.1, hready⟩, fun _ => hcpu rfl, nofun, hpinned, fun _ => hround rfl, nofun⟩
  case case9.refl hmain =>
    rw [Turn, hmain] at hturn
    rw [hmain] at hcpu hround
    exact ⟨hturn, fun _ => hcpu rfl, nofun, hpinned, fun _ => hround rfl, nofun⟩
  case case10.refl hmain =>
    rw [Turn, hmain] at hturn
    rw [hmain] at hcpu hround
    exact ⟨⟨rfl, .inl ⟨.inl hturn.1, hturn.2.2⟩⟩, fun _ => hcpu rfl, nofun, hpinned,
      fun _ => hround rfl, nofun⟩
  case case11.refl hmain hdone =>
    rw [Turn, hmain] at hturn
    rw [hmain] at hcpu hround
    have hwaits : s.slaveAt = .waitReady ∧ s.master ≠ .ready ∧ s.slave ≠ .ready ∧
        s.slave ≠ .error := by grind
    exact ⟨hwaits, fun _ => hcpu rfl, nofun, hpinned, fun _ => hround rfl, nofun⟩
  case case13.refl hmain =>
    rw [Turn, hmain] at hturn
    rw [hmain] at hcpu hround
    exact ⟨hturn, fun _ => hcpu rfl, nofun, hpinned, fun _ => hround rfl, nofun⟩
  case case14.refl hmain => exact haccept hmain
  case case15.refl hmain =>
    rw [Turn, hmain] at hturn
    exact ⟨hturn, nofun, nofun, hpinned, nofun, nofun⟩
  case case16.refl hmain =>
    rw [Turn, hmain] at hturn
    rw [hmain] at hend
    exact ⟨⟨rfl, hturn.2.2.2, .inl hturn.1⟩, nofun, fun _ => hend rfl, hpinned, nofun, nofun⟩
  case case17.refl hmain hended =>
    rw [Turn, hmain] at hturn
    rw [hmain] at hend
    exact ⟨⟨hended, hturn.2.1⟩, nofun, fun _ => hend rfl, hpinned, nofun, nofun⟩

/-- Whom the slave thread serves where it is. -/
theorem main_of_slaveAt (h : Turns s) :
    (s.slaveAt = .waitReady → s.master = .ready → s.main = .waitReady ∨ s.main = .join) ∧
      (s.slaveAt = .look → s.main = .waitReady ∨ s.main = .join) ∧
      (s.slaveAt = .pin ∨ s.slaveAt = .setReady → s.main = .waitReady) ∧
      (s.slaveAt = .waitDone → s.master = .done → s.main = .waitDone) ∧
      (s.slaveAt = .readTsc ∨ s.slaveAt = .setDone → s.main = .waitDone) := by
  have hturn := h.turn
  unfold Turn at hturn
  cases hmain : s.main <;> simp only [hmain] at hturn <;> grind

/-- The slave thread at another place, with another word of its own. -/
theorem turns_moved {slaveAt : Slave} {slave : Word} {currentCpu : Option Nat} (h : Turns s)
    (hturn : Turn { s with slaveAt := slaveAt, slave := slave, currentCpu := currentCpu })
    (hpinned : slaveAt.pinned = true → currentCpu = s.slaveCpu) :
    Turns { s with slaveAt := slaveAt, slave := slave, currentCpu := currentCpu } :=
  ⟨hturn, h.cpu, h.finishing, hpinned, h.round, h.rounds⟩

theorem turns_slave {ok : Bool} (h : Turns s) (hstep : slaveStep c s ok = some s') :
    Turns s' := by
  have hturn := h.turn
  obtain ⟨hcalled, hlooks, hpins, hwaits, hreads⟩ := main_of_slaveAt h
  revert hstep
  fun_cases slaveStep c s ok <;> intro hstep <;> cases hstep
  case case1.refl hat hready =>
    refine turns_moved h ?_ nofun
    obtain hmain | hmain := hcalled hat hready
    · simp only [Turn, hmain] at hturn ⊢
      grind
    · simp only [Turn, hmain] at hturn ⊢
      grind
  case case3.refl hat hcpu =>
    refine turns_moved h ?_ nofun
    obtain hmain | hmain := hlooks hat
    · have hsome := h.cpu (by rw [hmain]; rfl)
      rw [hcpu] at hsome
      cases hsome
    · simp only [Turn, hmain] at hturn ⊢
      grind
  case case4.refl hat cpu hcpu =>
    have hmain : s.main = .waitReady := by
      obtain hmain | hmain := hlooks hat
      · exact hmain
      · have hnone := h.finishing (by rw [hmain]; rfl)
        rw [hcpu] at hnone
        cases hnone
    refine turns_moved h ?_ ?_
    · simp only [Turn, hmain] at hturn ⊢
      grind
    · split
      · rename_i hcurrent
        exact fun _ => hcurrent.trans hcpu.symm
      · nofun
  case case5.refl hat hok =>
    have hmain := hpins (.inl hat)
    refine turns_moved h ?_ fun _ => rfl
    simp only [Turn, hmain] at hturn ⊢
    grind
  case case6.refl hat hok =>
    have hmain := hpins (.inl hat)
    refine turns_moved h ?_ nofun
    simp only [Turn, hmain] at hturn ⊢
    grind
  case case7.refl hat =>
    have hmain := hpins (.inr hat)
    refine turns_moved h ?_ fun _ => h.pinned (by rw [hat]; rfl)
    simp only [Turn, hmain] at hturn ⊢
    grind
  case case8.refl hat hdone =>
    have hmain := hwaits hat hdone
    refine turns_moved h ?_ fun _ => h.pinned (by rw [hat]; rfl)
    simp only [Turn, hmain] at hturn ⊢
    grind
  case case10.refl hat =>
    have hmain := hreads (.inl hat)
    refine ⟨?_, h.cpu, h.finishing, fun _ => h.pinned (by rw [hat]; rfl), h.round, h.rounds⟩
    simp only [Turn, hmain] at hturn ⊢
    grind
  case case11.refl hat =>
    have hmain := hreads (.inr hat)
    refine turns_moved h ?_ nofun
    simp only [Turn, hmain] at hturn ⊢
    grind

theorem turns_step {l : Label} (h : Turns s) (hstep : step c s l = some s') : Turns s' := by
  cases l with
  | main elapsed ok => exact turns_main (h.elapse elapsed) hstep
  | slave elapsed ok => exact turns_slave (h.elapse elapsed) hstep

theorem turns_start (pairs : List (Nat × Nat)) : Turns (start pairs) where
  turn := ⟨rfl, Word.noConfusion, Word.noConfusion, Word.noConfusion⟩
  cpu := nofun
  finishing := nofun
  pinned := nofun
  round := nofun
  rounds := nofun

end Turns

end TpQemu.TscCheck
