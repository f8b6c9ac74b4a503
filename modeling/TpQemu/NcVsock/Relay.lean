import Mathlib.Data.List.Basic
import TpQemu.Lib.Steps

/-!
# The relay of nc-vsock

`main_loop` and `xfer_data` of `nc-vsock.c` carry bytes between the standard streams and a socket.
All descriptors are non-blocking, so a write may take a part of the buffer or nothing at all, and
the rest has to wait until the descriptor is writable. A label is the result of the system call
that the program is in.
-/

namespace TpQemu.NcVsock

/-- From the standard input to the socket, or from the socket to the standard output. -/
inductive Direction where
  | toRemote
  | toStdout
  deriving DecidableEq

/-- What a system call has returned. -/
inductive Result where
  | ready (stdin remote : Bool)
  | interrupted
  | selectFailed
  | data (bytes : List UInt8)
  | noData
  | wrote (nbytes : Nat)
  | again
  | writeFailed
  | writable (isSet : Bool)
  deriving DecidableEq

/-- Where the program is: in which call, with the locals of `xfer_data` and whether the socket was
found readable as well. When it has returned, what a failed transfer has left in its buffer. -/
inductive Loc where
  | select
  | read (d : Direction) (remoteToo : Bool)
  | write (d : Direction) (remoteToo : Bool) (buf : List UInt8) (sendPtr remaining : Nat)
  | wait (d : Direction) (remoteToo : Bool) (buf : List UInt8) (sendPtr remaining nbytes : Nat)
  | returned (left : Option (Direction × List UInt8))
  deriving DecidableEq

/-- `sizeof(buf)`. -/
def bufSize : Nat := 4096

/-- `xfer_data` has returned 0 to `main_loop`. -/
def transferred (d : Direction) (remoteToo : Bool) : Loc :=
  if d = .toRemote ∧ remoteToo then .read .toStdout false else .select

/-- The end of one round of the loop in `xfer_data`. -/
def advance (d : Direction) (remoteToo : Bool) (buf : List UInt8)
    (sendPtr remaining nbytes : Nat) : Loc :=
  if 0 < remaining - nbytes then
    .write d remoteToo buf (sendPtr + nbytes) (remaining - nbytes)
  else transferred d remoteToo

/-- What is left of the buffer. -/
def rest (buf : List UInt8) (sendPtr remaining : Nat) : List UInt8 :=
  (buf.drop sendPtr).take remaining

/-- The program goes on with the result of its call, if the call can return that. -/
def step : Loc → Result → Option Loc
  | .select, .ready stdin remote =>
      some (if stdin then .read .toRemote remote
        else if remote then .read .toStdout false else .select)
  | .select, .interrupted => some .select
  | .select, .selectFailed => some (.returned none)
  | .read d remoteToo, .data bytes =>
      if 0 < bytes.length ∧ bytes.length ≤ bufSize then
        some (.write d remoteToo bytes 0 bytes.length)
      else none
  | .read _ _, .noData => some (.returned none)
  | .write d remoteToo buf sendPtr remaining, .wrote nbytes =>
      if remaining < nbytes then none
      else if nbytes = 0 then some (.returned (some (d, rest buf sendPtr remaining)))
      else if nbytes < remaining then some (.wait d remoteToo buf sendPtr remaining nbytes)
      else some (advance d remoteToo buf sendPtr remaining nbytes)
  | .write d remoteToo buf sendPtr remaining, .again =>
      some (.wait d remoteToo buf sendPtr remaining 0)
  | .write d _ buf sendPtr remaining, .writeFailed =>
      some (.returned (some (d, rest buf sendPtr remaining)))
  | .wait d remoteToo buf sendPtr remaining nbytes, .writable isSet =>
      some (if isSet then advance d remoteToo buf sendPtr remaining nbytes
        else .wait d remoteToo buf sendPtr remaining nbytes)
  | .wait d remoteToo buf sendPtr remaining nbytes, .interrupted =>
      some (.wait d remoteToo buf sendPtr remaining nbytes)
  | .wait d _ buf sendPtr remaining nbytes, .selectFailed =>
      some (.returned (some (d, rest buf (sendPtr + nbytes) (remaining - nbytes))))
  | _, _ => none

/-- The bytes that a call has read, for one direction. -/
def seeReceived (d : Direction) : Loc → Result → Option (List UInt8)
  | .read d' _, .data bytes => if d' = d then some bytes else none
  | _, _ => none

/-- The bytes that a call has written. -/
def seeWritten (d : Direction) : Loc → Result → Option (List UInt8)
  | .write d' _ buf sendPtr _, .wrote nbytes =>
      if d' = d then some (rest buf sendPtr nbytes) else none
  | _, _ => none

def received (d : Direction) (run : List Result) : List UInt8 :=
  (observe step (seeReceived d) .select run).flatten

def written (d : Direction) (run : List Result) : List UInt8 :=
  (observe step (seeWritten d) .select run).flatten

/-- The bytes that were read and not yet written. -/
def unsent (d : Direction) : Loc → List UInt8
  | .write d' _ buf sendPtr remaining => if d' = d then rest buf sendPtr remaining else []
  | .wait d' _ buf sendPtr remaining nbytes =>
      if d' = d then rest buf (sendPtr + nbytes) (remaining - nbytes) else []
  | .returned (some (d', left)) => if d' = d then left else []
  | _ => []

/-- A call that makes `xfer_data` give up its buffer. -/
def Result.isFailure : Result → Bool
  | .selectFailed => true
  | .writeFailed => true
  | .wrote nbytes => nbytes = 0
  | _ => false

def Loc.transfers : Loc → Bool
  | .write _ _ _ _ _ => true
  | .wait _ _ _ _ _ _ => true
  | _ => false

/-! ## The buffer -/

/-- The buffer and the two counters of `xfer_data` fit together. -/
def Fits : Loc → Prop
  | .write _ _ buf sendPtr remaining =>
      sendPtr + remaining = buf.length ∧ 0 < remaining ∧ buf.length ≤ bufSize
  | .wait _ _ buf sendPtr remaining nbytes =>
      sendPtr + remaining = buf.length ∧ nbytes < remaining ∧ buf.length ≤ bufSize
  | .returned (some (_, left)) => left.length ≤ bufSize
  | _ => True

theorem rest_append (buf : List UInt8) {sendPtr remaining nbytes : Nat} (h : nbytes ≤ remaining) :
    rest buf sendPtr nbytes ++ rest buf (sendPtr + nbytes) (remaining - nbytes) =
      rest buf sendPtr remaining := by
  rw [rest, rest, rest, ← List.drop_drop, ← List.take_add, Nat.add_sub_cancel' h]

theorem length_rest_le (buf : List UInt8) (sendPtr remaining : Nat) :
    (rest buf sendPtr remaining).length ≤ buf.length := by
  rw [rest, List.length_take, List.length_drop]
  omega

theorem rest_zero (buf : List UInt8) : rest buf 0 buf.length = buf := by
  rw [rest, List.drop_zero, List.take_length]

theorem fits_transferred (d : Direction) (remoteToo : Bool) : Fits (transferred d remoteToo) := by
  rw [transferred]
  split <;> trivial

theorem unsent_transferred (d d' : Direction) (remoteToo : Bool) :
    unsent d (transferred d' remoteToo) = [] := by
  rw [transferred]
  split <;> rfl

theorem fits_advance {buf : List UInt8} {sendPtr remaining nbytes : Nat}
    (hbuf : sendPtr + remaining = buf.length) (hle : nbytes ≤ remaining)
    (hsize : buf.length ≤ bufSize) (d : Direction) (remoteToo : Bool) :
    Fits (advance d remoteToo buf sendPtr remaining nbytes) := by
  rw [advance]
  split
  · rename_i hpos
    exact ⟨by omega, hpos, hsize⟩
  · exact fits_transferred d remoteToo

theorem unsent_advance (d d' : Direction) (remoteToo : Bool) (buf : List UInt8)
    (sendPtr remaining nbytes : Nat) :
    unsent d (advance d' remoteToo buf sendPtr remaining nbytes) =
      if d' = d then rest buf (sendPtr + nbytes) (remaining - nbytes) else [] := by
  rw [advance]
  split
  · rfl
  · rename_i hzero
    rw [unsent_transferred, Nat.eq_zero_of_not_pos hzero, rest, List.take_zero, ite_self]

theorem fits_step {s s' : Loc} {ev : Result} (hs : Fits s) (h : step s ev = some s') :
    Fits s' := by
  revert h
  fun_cases step s ev <;> intro h <;> cases h
  case case1 => split <;> [trivial; split <;> trivial]
  case case2 => trivial
  case case3 => trivial
  case case4 => exact ⟨Nat.zero_add _, ‹_›⟩
  case case6 => trivial
  case case8 => exact Nat.le_trans (length_rest_le _ _ _) hs.2.2
  case case9 => exact ⟨hs.1, ‹_›, hs.2.2⟩
  case case10 => exact fits_advance hs.1 (by omega) hs.2.2 _ _
  case case11 => exact hs
  case case12 => exact Nat.le_trans (length_rest_le _ _ _) hs.2.2
  case case13 =>
    split
    · exact fits_advance hs.1 (Nat.le_of_lt hs.2.1) hs.2.2 _ _
    · exact hs
  case case14 => exact hs
  case case15 => exact Nat.le_trans (length_rest_le _ _ _) hs.2.2

/-- A write takes its bytes from the front of the rest of the buffer. -/
theorem written_append (d d' : Direction) (remoteToo : Bool) (buf : List UInt8)
    {sendPtr remaining nbytes : Nat} (h : nbytes ≤ remaining) :
    (seeWritten d (.write d' remoteToo buf sendPtr remaining) (.wrote nbytes)).getD [] ++
        (if d' = d then rest buf (sendPtr + nbytes) (remaining - nbytes) else []) =
      (if d' = d then rest buf sendPtr remaining else []) ++ [] := by
  rw [seeWritten, List.append_nil]
  split
  · exact rest_append buf h
  · rfl

/-- What a step writes is taken from the front of what was to be sent, and what it reads is put
behind it. -/
theorem unsent_step {s s' : Loc} {ev : Result} (h : step s ev = some s') (d : Direction) :
    (seeWritten d s ev).getD [] ++ unsent d s' =
      unsent d s ++ (seeReceived d s ev).getD [] := by
  revert h
  fun_cases step s ev <;> intro h <;> cases h
  case case1 => split <;> [rfl; split <;> rfl]
  case case2 => rfl
  case case3 => rfl
  case case4 =>
    simp only [seeWritten, seeReceived, unsent, rest_zero]
    split <;> rfl
  case case6 => rfl
  case case8 => exact written_append d _ _ _ (Nat.zero_le _)
  case case9 => exact written_append d _ _ _ (by omega)
  case case10 =>
    rw [unsent_advance]
    exact written_append d _ _ _ (by omega)
  case case11 => exact (List.append_nil _).symm
  case case12 => exact (List.append_nil _).symm
  case case13 =>
    split
    · rw [unsent_advance]
      exact (List.append_nil _).symm
    · exact (List.append_nil _).symm
  case case14 => exact (List.append_nil _).symm
  case case15 => exact (List.append_nil _).symm

/-! ## Runs -/

/-- What was written and what is unsent is what was read. -/
structure Carried (d : Direction) (s : Loc) (past : List (Loc × Result)) : Prop where
  fits : Fits s
  carried : (past.filterMap fun p => seeWritten d p.1 p.2).flatten ++ unsent d s =
    (past.filterMap fun p => seeReceived d p.1 p.2).flatten

theorem carried_step (d : Direction) (s : Loc) (past : List (Loc × Result)) (ev : Result)
    (s' : Loc) (hs : Carried d s past) (h : step s ev = some s') :
    Carried d s' (past ++ [(s, ev)]) where
  fits := fits_step hs.fits h
  carried := by
    rw [flatten_filterMap_concat, flatten_filterMap_concat, List.append_assoc, unsent_step h d,
      ← List.append_assoc, hs.carried]

theorem carried_run {run : List Result} {s : Loc} (hrun : runSteps step .select run = some s)
    (d : Direction) : Carried d s (visited step .select run) :=
  have hstart : Carried d .select [] := ⟨trivial, rfl⟩
  visited_invariant (carried_step d) hstart hrun

theorem length_unsent_le {s : Loc} (hs : Fits s) (d : Direction) :
    (unsent d s).length ≤ bufSize := by
  fun_cases unsent d s
  case case1 => exact Nat.le_trans (length_rest_le _ _ _) hs.2.2
  case case2 => exact Nat.zero_le _
  case case3 => exact Nat.le_trans (length_rest_le _ _ _) hs.2.2
  case case4 => exact Nat.zero_le _
  case case5 => exact hs
  case case6 => exact Nat.zero_le _
  case case7 => exact Nat.zero_le _

/-- No transfer has given up its buffer. -/
def Unbroken (s : Loc) : Prop := ∀ left, s ≠ .returned (some left)

theorem unbroken_advance (d : Direction) (remoteToo : Bool) (buf : List UInt8)
    (sendPtr remaining nbytes : Nat) :
    Unbroken (advance d remoteToo buf sendPtr remaining nbytes) := by
  intro left
  rw [advance, transferred]
  split_ifs <;> exact Loc.noConfusion

theorem unbroken_step {s s' : Loc} {ev : Result} (hev : ev.isFailure = false)
    (h : step s ev = some s') : Unbroken s' := by
  revert h
  fun_cases step s ev <;> intro h <;> cases h
  case case10 => exact unbroken_advance _ _ _ _ _ _
  case case13 =>
    split
    · exact unbroken_advance _ _ _ _ _ _
    · exact fun left => Loc.noConfusion
  case case1 =>
    intro left
    split_ifs <;> exact Loc.noConfusion
  case case8 => cases hev
  case case12 => cases hev
  case case15 => cases hev
  all_goals
    intro left hleft
    cases hleft

theorem unsent_of_unbroken {s : Loc} (hs : Unbroken s) (hidle : s.transfers = false)
    (d : Direction) : unsent d s = [] := by
  cases s with
  | select => rfl
  | read d' remoteToo => rfl
  | write d' remoteToo buf sendPtr remaining => cases hidle
  | wait d' remoteToo buf sendPtr remaining nbytes => cases hidle
  | returned left =>
      cases left with
      | none => rfl
      | some left => exact absurd rfl (hs left)

/-- The relay loses nothing on the way, sends nothing twice and keeps the order, in both
directions: in every state what was written is a beginning of what was read, and at most one
buffer is missing. If no call made a transfer fail, then whenever none is under way, and when the
program has returned, all that was read has been written. -/
theorem relay_delivers {run : List Result} {s : Loc} (hrun : runSteps step .select run = some s) :
    (∀ d, written d run ++ unsent d s = received d run ∧ (unsent d s).length ≤ bufSize) ∧
      ((∀ ev ∈ run, ev.isFailure = false) → s.transfers = false →
        ∀ d, written d run = received d run) := by
  have hcarried := fun d => carried_run hrun d
  refine ⟨fun d => ⟨(hcarried d).carried, length_unsent_le (hcarried d).fits d⟩, ?_⟩
  intro hquiet hidle d
  have hunbroken : Unbroken s :=
    runSteps_invariant_of (fun _ _ _ _ hev h => unbroken_step hev h)
      (fun left hleft => Loc.noConfusion hleft) (allSteps_of_forall hquiet .select) hrun
  rw [written, received, observe, observe, ← (hcarried d).carried,
    unsent_of_unbroken hunbroken hidle d, List.append_nil]

/-- A part of the buffer is written, the rest has to wait. -/
theorem relay_delivers_partial :
    written .toStdout [.ready false true, .data [104, 105, 10], .wrote 2, .writable true,
      .wrote 1, .ready false true, .noData] = [104, 105, 10] :=
  (relay_delivers (s := .returned none) rfl).2 (by decide) rfl .toStdout

end TpQemu.NcVsock
