import TpQemu.Lib.Python
import TpQemu.Lib.Recency

/-!
# Waiting at a barrier

The loop of `barrier_2` in `qemu/tests/steps.py`. The guest counts as stuck when for some time no
screen is shown other than the last ones.
-/

namespace TpQemu.Steps

/-- How the loop ends. -/
inductive Ending where
  | success
  | failure (failureMessage : String)

/-- A valid screendump: the sums of the image and of the region, and the time when the latter has
been compared. -/
structure Shot (α τ : Type) where
  wholeImageMd5sum : α
  calcedMd5sum : α
  time : τ

/-- What an iteration sees. There is no screendump when the monitor fails, or the file cannot be
read or is not valid. -/
structure Poll (α τ : Type) where
  /-- The times of the two checks for a timeout. -/
  time : τ
  timeStuck : τ
  alive : Bool
  shot : Option (Shot α τ)

structure Config (α τ : Type) where
  md5sum : α
  endTime : τ
  failIfStuckFor : τ
  stuckDetectionHistory : Nat

/-- The variables of the loop. -/
structure Watch (α τ : Type) where
  prevWholeImageMd5sums : List α
  endTimeStuck : τ

section Loop

variable {α τ : Type} [DecidableEq α] [Add τ] (c : Config α τ)

/-- The sum of an image is put into the queue of the last ones. -/
def Watch.insert (w : Watch α τ) (shot : Shot α τ) : Watch α τ :=
  let sum := shot.wholeImageMd5sum
  let w' : Watch α τ :=
    if sum ∈ w.prevWholeImageMd5sums then
      { w with prevWholeImageMd5sums := w.prevWholeImageMd5sums.erase sum }
    else { w with endTimeStuck := shot.time + c.failIfStuckFor }
  { w' with
    prevWholeImageMd5sums := (sum :: w'.prevWholeImageMd5sums).take c.stuckDetectionHistory }

theorem Watch.prev_insert (w : Watch α τ) (shot : Shot α τ) :
    (w.insert c shot).prevWholeImageMd5sums =
      (shot.wholeImageMd5sum :: w.prevWholeImageMd5sums.erase shot.wholeImageMd5sum).take
        c.stuckDetectionHistory := by
  rw [insert]
  by_cases h : shot.wholeImageMd5sum ∈ w.prevWholeImageMd5sums
  · simp only [if_pos h]
  · simp only [if_neg h, List.erase_of_not_mem h]

theorem Watch.endTimeStuck_insert (w : Watch α τ) (shot : Shot α τ) :
    (w.insert c shot).endTimeStuck =
      if shot.wholeImageMd5sum ∈ w.prevWholeImageMd5sums then w.endTimeStuck
      else shot.time + c.failIfStuckFor := by
  rw [insert]
  by_cases h : shot.wholeImageMd5sum ∈ w.prevWholeImageMd5sums
  · simp only [if_pos h]
  · simp only [if_neg h]

variable [LT τ] [DecidableLT τ]

/-- One iteration of the loop. -/
def iteration (w : Watch α τ) (p : Poll α τ) : Except Ending (Watch α τ) :=
  if c.endTime < p.time then .error (.failure "regular timeout")
  else if w.endTimeStuck < p.timeStuck then .error (.failure "guest is stuck")
  else if p.alive = false then .error (.failure "VM is dead")
  else
    match p.shot with
    | none => .ok w
    | some shot => if shot.calcedMd5sum = c.md5sum then .error .success else .ok (w.insert c shot)

/-- The iterations from the start of the function on. -/
def iterations (start : τ) (ps : List (Poll α τ)) : Except Ending (Watch α τ) :=
  ps.foldlM (iteration c) ⟨[], start + c.failIfStuckFor⟩

/-! ## The queue of sums -/

/-- The sums that the iterations see. -/
def sums (ps : List (Poll α τ)) : List α :=
  ps.filterMap fun p => p.shot.map Shot.wholeImageMd5sum

variable {c}

/-- The loop does not end: it is in time, the machine is alive, and the region is not shown. -/
structure Continues (c : Config α τ) (w : Watch α τ) (p : Poll α τ) : Prop where
  inTime : ¬c.endTime < p.time
  notStuck : ¬w.endTimeStuck < p.timeStuck
  alive : p.alive = true
  notShown : ∀ shot, p.shot = some shot → shot.calcedMd5sum ≠ c.md5sum

/-- An iteration that does not end the loop puts the sum of its screendump into the queue. -/
theorem iteration_eq_ok_iff {w w' : Watch α τ} {p : Poll α τ} :
    iteration c w p = .ok w' ↔ Continues c w p ∧ w' = p.shot.elim w (w.insert c) := by
  rw [iteration]
  split
  · rename_i htime
    exact iff_of_false (fun h => by cases h) fun h => h.1.inTime htime
  rename_i htime
  split
  · rename_i hstuck
    exact iff_of_false (fun h => by cases h) fun h => h.1.notStuck hstuck
  rename_i hstuck
  split
  · rename_i hdead
    refine iff_of_false (fun h => by cases h) fun h => ?_
    rw [h.1.alive] at hdead
    cases hdead
  rename_i halive
  have hcontinues : Continues c w p ↔
      ∀ shot, p.shot = some shot → shot.calcedMd5sum ≠ c.md5sum :=
    ⟨Continues.notShown, fun h => ⟨htime, hstuck, Bool.not_eq_false _ ▸ halive, h⟩⟩
  rw [hcontinues]
  cases hshot : p.shot with
  | none => simp [eq_comm]
  | some shot =>
      dsimp only
      split
      · rename_i hshown
        exact iff_of_false (fun h => by cases h) fun h => h.1 shot rfl hshown
      · rename_i hshown
        have hother : ∀ s, some shot = some s → s.calcedMd5sum ≠ c.md5sum := by
          rintro s hs
          rw [← Option.some.inj hs]
          exact hshown
        rw [and_iff_right hother, Except.ok.injEq, eq_comm, Option.elim_some]

/-- One iteration keeps the queue at the sums seen last. -/
theorem prev_iteration {w w' : Watch α τ} {p : Poll α τ} {seen : List α}
    (hprev : w.prevWholeImageMd5sums = (recency seen).take c.stuckDetectionHistory)
    (h : iteration c w p = .ok w') :
    w'.prevWholeImageMd5sums = (recency (seen ++ sums [p])).take c.stuckDetectionHistory := by
  rw [(iteration_eq_ok_iff.mp h).2, sums, List.filterMap_cons]
  cases hshot : p.shot with
  | none =>
      rw [Option.elim_none, hprev]
      simp
  | some shot =>
      rw [Option.elim_some, Watch.prev_insert, hprev, take_cons_erase_take, ← recency_concat]
      simp

theorem prev_foldlM {w w' : Watch α τ} {ps : List (Poll α τ)} {seen : List α}
    (hprev : w.prevWholeImageMd5sums = (recency seen).take c.stuckDetectionHistory)
    (h : ps.foldlM (iteration c) w = .ok w') :
    w'.prevWholeImageMd5sums = (recency (seen ++ sums ps)).take c.stuckDetectionHistory := by
  induction ps generalizing w seen with
  | nil =>
      cases h
      simpa [sums] using hprev
  | cons p ps ih =>
      rw [List.foldlM_cons] at h
      obtain ⟨w₁, hfirst, hrest⟩ := ok_of_bind_eq_ok h
      have hsums : sums (p :: ps) = sums [p] ++ sums ps := by
        rw [sums, sums, sums, ← List.filterMap_append, List.singleton_append]
      rw [hsums, ← List.append_assoc]
      exact ih (prev_iteration hprev hfirst) hrest

/-- After any number of iterations the queue holds the sums seen last, without repetition. The next
one comes to its end exactly if nothing ends the loop; it then extends the deadline exactly if its
sum is not among those. -/
theorem iterations_recent {start : τ} {ps : List (Poll α τ)} {w : Watch α τ}
    (h : iterations c start ps = .ok w) :
    w.prevWholeImageMd5sums = (recency (sums ps)).take c.stuckDetectionHistory ∧
    w.prevWholeImageMd5sums.Nodup ∧
    w.prevWholeImageMd5sums.length = min c.stuckDetectionHistory (sums ps).toFinset.card ∧
    ∀ p, ((∃ w', iterations c start (ps ++ [p]) = .ok w') ↔ Continues c w p) ∧
      ∀ w', iterations c start (ps ++ [p]) = .ok w' →
        w'.endTimeStuck = p.shot.elim w.endTimeStuck fun shot =>
          if shot.wholeImageMd5sum ∈ (recency (sums ps)).take c.stuckDetectionHistory then
            w.endTimeStuck
          else shot.time + c.failIfStuckFor := by
  have hprev : w.prevWholeImageMd5sums =
      (recency (sums ps)).take c.stuckDetectionHistory := by
    have hstart : ([] : List α) = (recency []).take c.stuckDetectionHistory := List.take_nil.symm
    exact prev_foldlM hstart h
  have hnext : ∀ p w', iterations c start (ps ++ [p]) = .ok w' ↔
      Continues c w p ∧ w' = p.shot.elim w (w.insert c) := by
    intro p w'
    have hrun : iterations c start (ps ++ [p]) = iterations c start ps >>= (iteration c · p) := by
      rw [iterations, List.foldlM_append]
      simp [iterations]
    rw [← iteration_eq_ok_iff, hrun, bind_of_eq_ok h]
  refine ⟨hprev, ?_, ?_, fun p => ⟨?_, ?_⟩⟩
  · rw [hprev]
    exact (nodup_recency _).sublist (List.take_sublist _ _)
  · rw [hprev, List.length_take, length_recency]
  · simp only [hnext]
    exact ⟨fun ⟨_, h, _⟩ => h, fun h => ⟨_, h, rfl⟩⟩
  · intro w' hrun
    rw [((hnext p w').mp hrun).2]
    cases p.shot with
    | none => rfl
    | some shot =>
        rw [Option.elim_some, Option.elim_some, Watch.endTimeStuck_insert, hprev]

end Loop

/-- A loop over numbers for times, with a history of two. -/
def shortHistory : Config Nat Nat := ⟨0, 100, 10, 2⟩

/-- A screendump with this sum. -/
def showing (sum time : Nat) : Poll Nat Nat := ⟨time, time, true, some ⟨sum, 1, time⟩⟩

/-- Three screens of which the second one comes again: the first one has been forgotten. -/
theorem iterations_shortHistory :
    (recency (sums [showing 5 1, showing 6 2, showing 7 3, showing 6 4])).take 2 = [6, 7] ∧
      ∃ w', iterations shortHistory 0
        ([showing 5 1, showing 6 2, showing 7 3, showing 6 4] ++ [showing 5 5]) = .ok w' ∧
        w'.endTimeStuck = 15 := by
  have hrun : iterations shortHistory 0 [showing 5 1, showing 6 2, showing 7 3, showing 6 4] =
      .ok ⟨[6, 7], 13⟩ := by rfl
  obtain ⟨hprev, -, -, hnext⟩ := iterations_recent hrun
  obtain ⟨hends, hextends⟩ := hnext (showing 5 5)
  have hother : ∀ shot, (showing 5 5).shot = some shot → shot.calcedMd5sum ≠ 0 := by
    intro shot hshot
    cases hshot
    decide
  obtain ⟨w', hw'⟩ := hends.mpr ⟨by decide, by decide, rfl, hother⟩
  refine ⟨hprev.symm, w', hw', ?_⟩
  rw [hextends w' hw']
  decide

end TpQemu.Steps
