import TpQemu.Lib.Python

/-!
# Clock drift

`check_dirft_before_adjust_time` and `check_drift_after_adjust_time` in
`qemu/tests/timedrift_adjust_time.py`. The arithmetic of the readings is a parameter, so that the
results are about floating point numbers as well as exact ones.
-/

namespace TpQemu.Timedrift

inductive OsType where
  | linux
  | windows
  deriving DecidableEq

/-- What is computed with the readings, and how they are printed. -/
structure Arithmetic (R : Type) where
  sub : R → R → R
  abs : R → R
  lt : R → R → Bool
  str : R → String

structure Params (R : Type) where
  osType : OsType
  tolerance : R
  timeDifference : R
  timeDifferenceHwclock : R

/-- The clocks at one poll, from `get_epoch_seconds` and `get_hwtime`. -/
structure Reading (R : Type) where
  hostEpochTime : R
  guestEpochTime : R
  guestHwtime : R

section Definitions

variable {R : Type} (a : Arithmetic R) (p : Params R)

def realDifference (r : Reading R) : R := a.abs (a.sub r.hostEpochTime r.guestEpochTime)

def realDifferenceHw (r : Reading R) : R := a.abs (a.sub r.hostEpochTime r.guestHwtime)

/-- `abs(real - expect) < tolerance` -/
def within (real expect : R) : Bool := a.lt (a.abs (a.sub real expect)) p.tolerance

/-- The test inside the loop. -/
def meets (r : Reading R) : Bool :=
  match p.osType with
  | .linux =>
      within a p (realDifference a r) p.timeDifference &&
        within a p (realDifferenceHw a r) p.timeDifferenceHwclock
  | .windows => within a p (realDifference a r) p.timeDifference

/-- The lines after the loop, with the readings of the last poll. -/
def report : Option (Reading R) → Except PyError Unit
  | none => .error .unboundLocalError
  | some r =>
      match p.osType with
      | .linux =>
          -- `self.test.fail` stands in the other branch only
          let _errMsg := "Unexpected sys and hardware time difference (" ++
            a.str (realDifference a r) ++ " " ++ a.str (realDifferenceHw a r) ++
            ")            between host and guest after adjusting time."
          .ok ()
      | .windows =>
          let errMsg := "Unexpected time difference between host and guest after" ++
            " testing.(actual difference: " ++ a.str (realDifference a r) ++ ")" ++
            " expected difference: " ++ a.str p.timeDifference ++ ")"
          .error (.testFail errMsg)

/-- The polling loop, with the readings of the poll before. -/
def poll : Option (Reading R) → List (Reading R) → Except PyError Unit
  | last, [] => report a p last
  | _, r :: polls => if meets a p r then .ok () else poll (some r) polls

/-- `check_drift_after_adjust_time`, with the readings at the polls before the timeout. -/
def checkDriftAfterAdjustTime (polls : List (Reading R)) : Except PyError Unit :=
  poll a p none polls

/-- `check_dirft_before_adjust_time` -/
def checkDirftBeforeAdjustTime (r : Reading R) : Except PyError Unit :=
  match p.osType with
  | .linux =>
      if a.lt p.tolerance (realDifference a r) || a.lt p.tolerance (realDifferenceHw a r) then
        .error (.testFail ("Unexpected sys and hardware time difference (" ++
          a.str (realDifference a r) ++ " " ++ a.str (realDifferenceHw a r) ++
          ")                 between host and guest before testing."))
      else .ok ()
  | .windows =>
      if a.lt p.tolerance (realDifference a r) then
        .error (.testFail ("Unexcept time difference (" ++ a.str (realDifference a r) ++ ") " ++
          " between host and guest before testing."))
      else .ok ()

end Definitions

/-! ## Verdicts -/

section Verdict

variable {R : Type} (a : Arithmetic R) (p : Params R)

/-- The test fails. -/
def Fails (r : Except PyError Unit) : Prop := ∃ msg, r = .error (.testFail msg)

/-- The check returns exactly if a poll is within tolerance, and otherwise fails the test. -/
def Decides (polls : List (Reading R)) : Prop :=
  (checkDriftAfterAdjustTime a p polls = .ok () ↔ ∃ r ∈ polls, meets a p r = true) ∧
    ((∀ r ∈ polls, meets a p r = false) → Fails (checkDriftAfterAdjustTime a p polls))

variable {a p}

theorem not_fails_ok : ¬ Fails (.ok ()) := by
  rintro ⟨msg, h⟩
  cases h

/-- A loop with a poll within tolerance ends there. -/
theorem poll_of_meets {polls : List (Reading R)} {r : Reading R} (hr : r ∈ polls)
    (h : meets a p r = true) (last : Option (Reading R)) : poll a p last polls = .ok () := by
  induction polls generalizing last with
  | nil => exact absurd hr List.not_mem_nil
  | cons q polls ih =>
      rw [poll]
      split
      next hq => rfl
      next hq =>
        refine ih ((List.mem_cons.mp hr).resolve_left ?_) _
        rintro rfl
        exact hq h

/-- A loop without one reports the last poll. -/
theorem poll_of_not_meets {polls : List (Reading R)} (h : ∀ r ∈ polls, meets a p r = false)
    (last : Option (Reading R)) : poll a p last polls = report a p (polls.getLast?.or last) := by
  induction polls generalizing last with
  | nil => rfl
  | cons q polls ih =>
      obtain ⟨hq, hpolls⟩ := List.forall_mem_cons.mp h
      rw [poll, hq, if_neg Bool.false_ne_true, ih hpolls]
      cases polls with
      | nil => rfl
      | cons q' polls => rfl

/-- Only a Windows guest with a drift fails the test. -/
theorem fails_report_iff (r : Reading R) : Fails (report a p (some r)) ↔ p.osType = .windows := by
  cases hos : p.osType with
  | linux =>
      simp only [report, hos]
      exact iff_of_false not_fails_ok OsType.noConfusion
  | windows =>
      simp only [report, hos]
      exact iff_of_true ⟨_, rfl⟩ trivial

theorem decides_of_meets {polls : List (Reading R)} {r : Reading R} (hr : r ∈ polls)
    (h : meets a p r = true) : Decides a p polls := by
  refine ⟨iff_of_true (poll_of_meets hr h none) ⟨r, hr, h⟩, fun hnone => ?_⟩
  rw [hnone r hr] at h
  cases h

theorem decides_iff_of_not_meets {polls : List (Reading R)} (hpolls : polls ≠ [])
    (h : ∀ r ∈ polls, meets a p r = false) : Decides a p polls ↔ p.osType = .windows := by
  have hreport : checkDriftAfterAdjustTime a p polls =
      report a p (some (polls.getLast hpolls)) := by
    rw [checkDriftAfterAdjustTime, poll_of_not_meets h, List.getLast?_eq_some_getLast hpolls]
    rfl
  have hsome : ¬ ∃ r ∈ polls, meets a p r = true := by
    rintro ⟨r, hr, hmeets⟩
    rw [h r hr] at hmeets
    cases hmeets
  rw [← fails_report_iff (polls.getLast hpolls), ← hreport]
  refine ⟨fun hdecides => hdecides.2 h, fun hfails => ⟨iff_of_false (fun hok => ?_) hsome,
    fun _ => hfails⟩⟩
  rw [hok] at hfails
  exact not_fails_ok hfails

/-- The check before the time is changed fails on both guests. -/
theorem fails_checkDirftBeforeAdjustTime_iff (r : Reading R) :
    Fails (checkDirftBeforeAdjustTime a p r) ↔
      a.lt p.tolerance (realDifference a r) = true ∨
        p.osType = .linux ∧ a.lt p.tolerance (realDifferenceHw a r) = true := by
  cases hos : p.osType with
  | linux =>
      simp only [checkDirftBeforeAdjustTime, hos, Bool.or_eq_true, true_and]
      split
      next h => exact iff_of_true ⟨_, rfl⟩ h
      next h => exact iff_of_false not_fails_ok h
  | windows =>
      simp only [checkDirftBeforeAdjustTime, hos, reduceCtorEq, false_and, or_false]
      split
      next h => exact iff_of_true ⟨_, rfl⟩ h
      next h => exact iff_of_false not_fails_ok h

end Verdict

section Results

/-- A drift is lost on a Linux guest. -/
theorem decides_iff {R : Type} (a : Arithmetic R) (p : Params R) (polls : List (Reading R))
    (hpolls : polls ≠ []) :
    Decides a p polls ↔ p.osType = .windows ∨ ∃ r ∈ polls, meets a p r = true := by
  by_cases hsome : ∃ r ∈ polls, meets a p r = true
  · obtain ⟨r, hr, h⟩ := hsome
    exact iff_of_true (decides_of_meets hr h) (.inr ⟨r, hr, h⟩)
  · have hnone : ∀ r ∈ polls, meets a p r = false :=
      fun r hr => Bool.eq_false_iff.mpr fun h => hsome ⟨r, hr, h⟩
    rw [decides_iff_of_not_meets hpolls hnone, or_iff_left hsome]

def wholeSeconds : Arithmetic Int where
  sub x y := x - y
  abs x := x.natAbs
  lt x y := decide (x < y)
  str x := toString x

/-- The host is set half an hour forward. -/
def halfHour (osType : OsType) : Params Int :=
  { osType, tolerance := 6, timeDifference := 1800, timeDifferenceHwclock := 1800 }

/-- The guest follows the host. -/
def followed : Reading Int :=
  { hostEpochTime := 2000, guestEpochTime := 2000, guestHwtime := 2000 }

theorem decides_iff_followed :
    Decides wholeSeconds (halfHour .windows) [followed] ↔
      (halfHour .windows).osType = .windows ∨
        ∃ r ∈ [followed], meets wholeSeconds (halfHour .windows) r = true :=
  decides_iff wholeSeconds (halfHour .windows) [followed] (List.cons_ne_nil _ _)

/-- The guest should be half an hour behind, is not, and passes. -/
theorem linux_drift_passes :
    meets wholeSeconds (halfHour .linux) followed = false ∧
      checkDriftAfterAdjustTime wholeSeconds (halfHour .linux) [followed] = .ok () ∧
      ¬ Decides wholeSeconds (halfHour .linux) [followed] := by
  have hmeets : meets wholeSeconds (halfHour .linux) followed = false := by decide
  have hnone : ∀ r ∈ [followed], meets wholeSeconds (halfHour .linux) r = false :=
    List.forall_mem_singleton.mpr hmeets
  refine ⟨hmeets, ?_, fun h => ?_⟩
  · rw [checkDriftAfterAdjustTime, poll_of_not_meets hnone]
    rfl
  · cases (decides_iff_of_not_meets (List.cons_ne_nil _ _) hnone).mp h

end Results

end TpQemu.Timedrift
