import TpQemu.VirtioTrace.Agent

/-!
# The data of the trace

What a read/write thread reads it writes, in its order, whatever the orders of the host and the
signals are.
-/

namespace TpQemu.VirtioTrace

variable {τ : Type} [DecidableEq τ]

/-- The bytes that a step has put into the pipe of thread `t`. -/
def seeReceived (t : τ) (_ : State τ) : Label τ → Option (List UInt8)
  | .thread u (.data bytes) => if u = t then some bytes else none
  | _ => none

/-- The bytes that a step has moved from the pipe of thread `t` to the host. -/
def seeWritten (t : τ) (s : State τ) : Label τ → Option (List UInt8)
  | .thread u (.moved n) => if u = t then some ((s.thread t).pipe.take n) else none
  | _ => none

def received (pipeSize : Nat) (t : τ) (run : List (Label τ)) : List UInt8 :=
  (observe (step pipeSize) (seeReceived t) start run).flatten

def written (pipeSize : Nat) (t : τ) (run : List (Label τ)) : List UInt8 :=
  (observe (step pipeSize) (seeWritten t) start run).flatten

/-- The pipe holds what is left to write. -/
def Thread.Fits (pipeSize : Nat) (th : Thread) : Prop :=
  match th.loc with
  | .write rlen wlen => th.pipe.length = rlen - wlen ∧ wlen < rlen ∧ rlen ≤ pipeSize
  | _ => th.pipe = []

def Loc.writes : Loc → Bool
  | .write _ _ => true
  | _ => false

section Next

variable {pipeSize : Nat} {th : Thread}

theorem Thread.Fits.pipe_eq_nil (h : th.Fits pipeSize) (hloc : th.loc.writes = false) :
    th.pipe = [] := by
  rw [Thread.Fits] at h
  split at h
  · rename_i hwrite
    rw [hwrite] at hloc
    cases hloc
  · exact h

theorem fits_of_pipe {loc : Loc} (hpipe : th.pipe = []) (hloc : loc.writes = false) :
    Thread.Fits pipeSize { th with loc := loc } := by
  rw [Thread.Fits]
  split
  · rename_i hwrite
    have hwrite' : loc = .write _ _ := hwrite
    rw [hwrite'] at hloc
    cases hloc
  · exact hpipe

/-- A step of a thread keeps its pipe and its counters together; what it writes is taken from the
front of the pipe, and what it reads is put behind the rest. -/
theorem fits_next {run sigReceive : Bool} {th' : Thread} {i : Input} (h : th.Fits pipeSize)
    (hnext : th.next pipeSize run sigReceive i = some th') : th'.Fits pipeSize := by
  revert hnext
  fun_cases Thread.next pipeSize run sigReceive th i <;> intro hnext <;> cases hnext
  case case10 bytes hread =>
    have hpipe := h.pipe_eq_nil (by rw [hread.1]; rfl)
    split
    · exact fits_of_pipe hpipe rfl
    · rename_i hsome
      have hpos := List.length_pos_iff.mpr hsome
      refine ⟨?_, hpos, hread.2⟩
      rw [hpipe, List.nil_append, Nat.sub_zero]
  case case12 n rlen wlen hwrite hn =>
    rw [Thread.Fits, hwrite] at h
    obtain ⟨hlength, hlt, hle⟩ := h
    by_cases hmore : wlen + n < rlen
    · rw [if_pos hmore]
      refine ⟨?_, hmore, hle⟩
      rw [List.length_drop, hlength, Nat.sub_sub]
    · rw [if_neg hmore]
      exact List.drop_eq_nil_of_le (by omega)
  all_goals
    have hpipe := h.pipe_eq_nil (by simp [Loc.writes, *])
    refine fits_of_pipe hpipe ?_
    first | rfl | (split <;> rfl)

end Next

/-- What was written and what is in the pipe is what was read. -/
structure Carried (pipeSize : Nat) (t : τ) (s : State τ) (past : List (State τ × Label τ)) :
    Prop where
  fits : (s.thread t).Fits pipeSize
  carried : (past.filterMap fun x => seeWritten t x.1 x.2).flatten ++ (s.thread t).pipe =
    (past.filterMap fun x => seeReceived t x.1 x.2).flatten

section Run

variable {pipeSize : Nat} {s s' : State τ}

/-- What a step of the thread writes is taken from the front of the pipe, and what it reads is
put behind it. -/
theorem pipe_next {run sigReceive : Bool} {t : τ} {th' : Thread} {i : Input}
    (hnext : (s.thread t).next pipeSize run sigReceive i = some th') :
    (seeWritten t s (.thread t i)).getD [] ++ th'.pipe =
      (s.thread t).pipe ++ (seeReceived t s (.thread t i)).getD [] := by
  revert hnext
  fun_cases Thread.next pipeSize run sigReceive (s.thread t) i <;> intro hnext <;> cases hnext
  case case10 bytes hread =>
    have hseen : seeReceived t s (.thread t (.data bytes)) = some bytes := if_pos rfl
    rw [hseen]
    split
    · rename_i hnone
      rw [hnone]
      exact (List.append_nil _).symm
    · rfl
  case case12 n rlen wlen hwrite hn =>
    have hseen : seeWritten t s (.thread t (.moved n)) = some ((s.thread t).pipe.take n) :=
      if_pos rfl
    rw [hseen]
    exact (List.take_append_drop n _).trans (List.append_nil _).symm
  all_goals exact (List.append_nil _).symm

/-- Of the steps of others nothing is seen. -/
theorem see_of_ne {t : τ} {l : Label τ} (h : ∀ i, l = .thread t i → i = .failed) :
    seeWritten t s l = none ∧ seeReceived t s l = none := by
  cases l with
  | thread u i =>
      by_cases hu : u = t
      · subst hu
        rw [h i rfl]
        exact ⟨rfl, rfl⟩
      · cases i <;> simp [seeWritten, seeReceived, hu]
  | control o => exact ⟨rfl, rfl⟩
  | signal => exact ⟨rfl, rfl⟩

theorem pipe_step {l : Label τ} (hstep : step pipeSize s l = some s') (t : τ) :
    (seeWritten t s l).getD [] ++ (s'.thread t).pipe =
      (s.thread t).pipe ++ (seeReceived t s l).getD [] := by
  obtain ⟨hsame, hother⟩ | ⟨i, rfl, hnext⟩ | ⟨-, hwoken, ⟨o, rfl⟩, -⟩ := step_thread hstep t
  · obtain ⟨hwritten, hreceived⟩ := see_of_ne (s := s) hother
    rw [hwritten, hreceived, hsame]
    exact (List.append_nil _).symm
  · exact pipe_next hnext
  · rw [hwoken]
    exact (List.append_nil _).symm

theorem fits_step {l : Label τ} (hstep : step pipeSize s l = some s') {t : τ}
    (h : (s.thread t).Fits pipeSize) : (s'.thread t).Fits pipeSize := by
  obtain ⟨hsame, -⟩ | ⟨i, -, hnext⟩ | ⟨hasleep, hwoken, -⟩ := step_thread hstep t
  · rwa [hsame]
  · exact fits_next h hnext
  · rw [hwoken]
    exact fits_of_pipe (h.pipe_eq_nil (by rw [hasleep]; rfl)) rfl

theorem carried_step (t : τ) (s : State τ) (past : List (State τ × Label τ)) (l : Label τ)
    (s' : State τ) (hs : Carried pipeSize t s past) (hstep : step pipeSize s l = some s') :
    Carried pipeSize t s' (past ++ [(s, l)]) where
  fits := fits_step hstep hs.fits
  carried := by
    rw [flatten_filterMap_concat, flatten_filterMap_concat, List.append_assoc,
      pipe_step hstep t, ← List.append_assoc, hs.carried]

end Run

/-- Every thread passes on to the host what it reads, nothing lost, doubled or out of order,
whatever the other threads do and the host and the signals order: what is not written yet is in
its pipe, which is never over its size, and it is empty whenever the thread is not writing, also
when it has ended. -/
theorem trace_relayed {pipeSize : Nat} {run : List (Label τ)} {s : State τ}
    (hrun : runSteps (step pipeSize) start run = some s) (t : τ) :
    written pipeSize t run ++ (s.thread t).pipe = received pipeSize t run ∧
      (s.thread t).pipe.length ≤ pipeSize ∧
      ((s.thread t).loc.writes = false → written pipeSize t run = received pipeSize t run) := by
  have hstart : Carried pipeSize t start [] := ⟨rfl, rfl⟩
  obtain ⟨hfits, hcarried⟩ := visited_invariant (carried_step t) hstart hrun
  refine ⟨hcarried, ?_, fun hidle => ?_⟩
  · rw [Thread.Fits] at hfits
    split at hfits
    · omega
    · rw [hfits]
      exact Nat.zero_le _
  · have hall : written pipeSize t run ++ (s.thread t).pipe = received pipeSize t run := hcarried
    rwa [hfits.pipe_eq_nil hidle, List.append_nil] at hall

/-- The host orders the agent to run, and one of two threads passes on three bytes. -/
def startRun : List (Label Bool) :=
  [.control (.polled .ready), .control .go, .control (.message [49, 10]), .control .go,
    .thread true .go, .thread true .go, .thread true (.data [1, 2, 3]), .thread true (.moved 2),
    .thread true (.moved 1)]

theorem trace_relayed_start : ∃ s, runSteps (step 65536) start startRun = some s ∧
    written 65536 true startRun = received 65536 true startRun := by
  have hend : (runSteps (step 65536) start startRun).map
      (fun s => (s.thread true).loc.writes) = some false := by decide
  obtain ⟨s, hs, hidle⟩ := Option.map_eq_some_iff.mp hend
  exact ⟨s, hs, (trace_relayed hs true).2.2 hidle⟩

end TpQemu.VirtioTrace
