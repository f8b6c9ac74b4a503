import Mathlib.Data.Int.Notation
import TpQemu.Lib.Lock

/-!
# The time warp test

`test_loop` of `time_test.c` runs on every CPU: under a spin lock it reads the clock, takes the
value that was last left in `last` and leaves a new reading there; if it finds the clock behind by
more than the threshold, it takes the lock again and counts a warp. Every load and store of the
shared `test_info` and every reading of the clock is a step of its own. The main thread ends the
test by setting `done`, which the threads look at before each iteration.
-/

namespace TpQemu.MonotonicTime

/-- The fields of `test_info` that the threads share. -/
@[ext]
structure TestInfo where
  last : BitVec 64
  loops : Nat
  warps : Nat
  worst : Int
  done : Bool

def TestInfo.start : TestInfo where
  last := 0
  loops := 0
  warps := 0
  worst := 0
  done := false

/-- Where a thread is in `test_loop` or in the test function, with its locals. -/
inductive Loc where
  | head
  | enter
  | readFirst
  | loadLast (t1 : BitVec 64)
  | readSecond (t0 t1 : BitVec 64)
  | storeLast (t0 t1 t2 : BitVec 64)
  | loadLoops (t0 t1 : BitVec 64)
  | storeLoops (t0 t1 : BitVec 64) (loops : Nat)
  | leave (t0 t1 : BitVec 64)
  | compare (t0 t1 : BitVec 64)
  | enterWarp (delta : Int)
  | loadWarps (delta : Int)
  | storeWarps (delta : Int) (warps : Nat)
  | loadWorst (delta : Int)
  | storeWorst (delta : Int)
  | leaveWarp
  | returned
  deriving DecidableEq

/-- The difference of two readings, as the signed number it is stored in. -/
def delta (t0 t1 : BitVec 64) : Int := (t1 - t0).toInt

def isWarp (threshold delta : Int) : Bool := delta < 0 && delta < -threshold

/-- The code of `test_loop` with the test function. The input is the clock, which only two of the
steps read. -/
def code (threshold : Int) (loc : Loc) (clock : BitVec 64) (test : TestInfo) :
    Option (Lock.Move Loc TestInfo) :=
  match loc with
  | .head => some (.run test (if test.done then .returned else .enter))
  | .enter => some (.lock .readFirst)
  | .readFirst => some (.run test (.loadLast clock))
  | .loadLast t1 => some (.run test (.readSecond test.last t1))
  | .readSecond t0 t1 => some (.run test (.storeLast t0 t1 clock))
  | .storeLast t0 t1 t2 => some (.run { test with last := t2 } (.loadLoops t0 t1))
  | .loadLoops t0 t1 => some (.run test (.storeLoops t0 t1 test.loops))
  | .storeLoops t0 t1 loops => some (.run { test with loops := loops + 1 } (.leave t0 t1))
  | .leave t0 t1 => some (.unlock (.compare t0 t1))
  | .compare t0 t1 =>
      some (.run test (if isWarp threshold (delta t0 t1) then .enterWarp (delta t0 t1) else .head))
  | .enterWarp d => some (.lock (.loadWarps d))
  | .loadWarps d => some (.run test (.storeWarps d test.warps))
  | .storeWarps d warps => some (.run { test with warps := warps + 1 } (.loadWorst d))
  | .loadWorst d => some (.run test (if d < test.worst then .storeWorst d else .leaveWarp))
  | .storeWorst d => some (.run { test with worst := d } .leaveWarp)
  | .leaveWarp => some (.unlock .head)
  | .returned => none

/-- What the main thread does to the test while the others run. -/
def stop (_ : Unit) (test : TestInfo) : TestInfo := { test with done := true }

/-- The threads of a test with a threshold, and the main thread. -/
def system (threshold : Int) : Lock.System Loc TestInfo (BitVec 64) Unit where
  code := code threshold
  env := stop

variable {τ : Type}

/-- All threads were just created. -/
def created : Lock.State τ Loc TestInfo where
  held := false
  mem := .start
  loc _ := .head

/-- `run_test` returns this after it has joined the threads. -/
def errs (test : TestInfo) : Bool := test.warps != 0

/-- What a thread has read in one critical section, in the order of the two readings. -/
structure Iteration where
  t1 : BitVec 64
  t2 : BitVec 64

def Iteration.readings (it : Iteration) : List (BitVec 64) := [it.t1, it.t2]

/-- The test function as one step. -/
def iterate (threshold : Int) (test : TestInfo) (it : Iteration) : TestInfo :=
  let d := delta test.last it.t1
  { test with
    last := it.t2
    loops := test.loops + 1
    warps := if isWarp threshold d then test.warps + 1 else test.warps
    worst := if isWarp threshold d ∧ d < test.worst then d else test.worst }

/-- The iterations one after the other, on one thread. -/
def sequential (threshold : Int) (its : List Iteration) : TestInfo :=
  its.foldl (iterate threshold) .start

/-- An iteration counts as made when its second reading is stored. -/
def madeAt : Loc → Option Iteration
  | .storeLast _ t1 t2 => some ⟨t1, t2⟩
  | _ => none

/-- The reading of the clock that a thread makes. -/
def readAt : Loc → BitVec 64 → Option (BitVec 64)
  | .readFirst, clock => some clock
  | .readSecond _ _, clock => some clock
  | _, _ => none

def seeIteration (s : Lock.State τ Loc TestInfo) :
    Lock.Event τ (BitVec 64) Unit → Option Iteration
  | .thread t _ => madeAt (s.loc t)
  | .outside _ => none

def seeReading (s : Lock.State τ Loc TestInfo) :
    Lock.Event τ (BitVec 64) Unit → Option (BitVec 64)
  | .thread t clock => readAt (s.loc t) clock
  | .outside _ => none

/-- The critical sections. -/
def Inside : Loc → Prop
  | .readFirst => True
  | .loadLast _ => True
  | .readSecond _ _ => True
  | .storeLast _ _ _ => True
  | .loadLoops _ _ => True
  | .storeLoops _ _ _ => True
  | .leave _ _ => True
  | .loadWarps _ => True
  | .storeWarps _ _ => True
  | .loadWorst _ => True
  | .storeWorst _ => True
  | .leaveWarp => True
  | _ => False

/-- What a thread knows of the shared fields: those it has loaded in its critical section still
have the value it has loaded. -/
def knows (loc : Loc) (test : TestInfo) : Prop :=
  match loc with
  | .readSecond t0 _ => test.last = t0
  | .storeLast t0 _ _ => test.last = t0
  | .storeLoops _ _ loops => test.loops = loops
  | .storeWarps _ warps => test.warps = warps
  | .storeWorst d => d < test.worst
  | _ => True

theorem disciplined (threshold : Int) : Lock.Disciplined (system threshold) Inside where
  lock l i m l' h := by
    cases l <;> cases h <;> exact ⟨id, trivial⟩
  unlock l i m l' h := by
    cases l <;> cases h <;> exact ⟨trivial, id⟩
  run l i m m' l' h := by
    cases l <;> cases h <;> try exact Iff.rfl
    · cases m.done <;> exact Iff.rfl
    · rename_i t0 t1
      cases isWarp threshold (delta t0 t1) <;> exact Iff.rfl
    · rename_i d
      split <;> exact Iff.rfl

theorem outline (threshold : Int) : Lock.Outline (system threshold) Inside knows where
  outside l m m' hout h := by
    cases l <;> first | exact absurd trivial hout | trivial
  move l i m move h hk := by
    cases l <;> cases h <;> try trivial
    · cases m.done <;> trivial
    · rename_i t0 t1
      cases isWarp threshold (delta t0 t1) <;> trivial
    · rename_i d
      dsimp only [Lock.Move.next]
      split
      · assumption
      · trivial
  frame l i m move k hout h hk := by
    -- outside, the code only looks at the shared fields
    have hsame : move.memory m = m := by
      cases l <;> cases h <;> first | exact absurd trivial hout | rfl
    rw [hsame]
    exact hk
  env e m k hk := by
    cases k <;> exact hk

end TpQemu.MonotonicTime
