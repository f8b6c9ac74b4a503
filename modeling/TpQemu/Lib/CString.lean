import Mathlib.Data.List.Basic
import Mathlib.Data.List.TakeDrop

/-!
# Character buffers and NUL-terminated strings

A C character array is a list of fixed length. Storing outside of it, and looking
for a terminator that is not there, are undefined behaviour: the operation has no
result. A program that is shown to return `some` therefore never overran a buffer.
-/

namespace TpQemu.CString

/-- The terminator. -/
def nul : Char := '\x00'

/-- `buf[i] = c`. -/
def store (buf : List Char) (i : Nat) (c : Char) : Option (List Char) :=
  if i < buf.length then some (buf.set i c) else none

/-- A run of stores at consecutive positions, as a copying loop makes them. -/
def storeAll (buf : List Char) (i : Nat) : List Char → Option (List Char)
  | [] => some buf
  | c :: cs => (store buf i c).bind fun buf => storeAll buf (i + 1) cs

/-- The characters before the first terminator. -/
def cstr : List Char → Option (List Char)
  | [] => none
  | c :: buf => if c = nul then some [] else (cstr buf).map (c :: ·)

/-- The swaps of an in-place reversal of `buf[p1..p2]`. Each round brings the two
positions together, so as many rounds as the buffer has characters suffice. -/
def reverseLoop : Nat → List Char → Nat → Nat → Option (List Char)
  | 0, buf, p1, p2 => if p1 < p2 then none else some buf
  | rounds + 1, buf, p1, p2 =>
      if p1 < p2 then do
        let front ← buf[p1]?
        let back ← buf[p2]?
        let buf ← store buf p1 back
        let buf ← store buf p2 front
        reverseLoop rounds buf (p1 + 1) (p2 - 1)
      else some buf

/-- A store into a buffer seen as the part before the position and the rest. -/
theorem store_append (l r : List Char) (old c : Char) :
    store (l ++ old :: r) l.length c = some (l ++ c :: r) := by
  rw [store, if_pos (by simp)]
  simp

/-- A run of stores replaces what it covers and nothing else. -/
theorem storeAll_append (l m r cs : List Char) (h : m.length = cs.length) :
    storeAll (l ++ m ++ r) l.length cs = some (l ++ cs ++ r) := by
  induction cs generalizing l m with
  | nil =>
      rw [List.length_nil, List.length_eq_zero_iff] at h
      simp [storeAll, h]
  | cons c cs ih =>
      cases m with
      | nil => simp at h
      | cons old m =>
          have hlen : m.length = cs.length := by simpa using h
          have hstep := ih (l ++ [c]) m hlen
          have hpos : (l ++ [c]).length = l.length + 1 := by simp
          rw [hpos] at hstep
          rw [storeAll, List.append_assoc, List.cons_append, store_append, Option.bind_some]
          simpa using hstep

/-- Enough room is all that a run of stores from the start needs. -/
theorem storeAll_zero {buf cs : List Char} (h : cs.length ≤ buf.length) :
    storeAll buf 0 cs = some (cs ++ buf.drop cs.length) := by
  have hm : (buf.take cs.length).length = cs.length := by
    rw [List.length_take, Nat.min_eq_left h]
  simpa using storeAll_append [] (buf.take cs.length) (buf.drop cs.length) cs hm

theorem cstr_append {s : List Char} (h : nul ∉ s) (r : List Char) :
    cstr (s ++ nul :: r) = some s := by
  induction s with
  | nil => simp [cstr]
  | cons c s ih =>
      have hc : c ≠ nul := fun he => h (he ▸ List.mem_cons_self)
      have hs : nul ∉ s := fun hm => h (List.mem_cons_of_mem c hm)
      simp [cstr, hc, ih hs]

theorem reverseLoop_done {p1 p2 : Nat} (h : ¬p1 < p2) (rounds : Nat) (buf : List Char) :
    reverseLoop rounds buf p1 p2 = some buf := by
  cases rounds <;> rw [reverseLoop, if_neg h]

/-- The swaps reverse the middle segment and leave both ends alone. -/
theorem reverseLoop_append (rounds : Nat) (l m r : List Char) (hm : m ≠ [])
    (enough : m.length ≤ rounds) :
    reverseLoop rounds (l ++ m ++ r) l.length (l.length + m.length - 1) =
      some (l ++ m.reverse ++ r) := by
  -- One round exchanges the two ends of the segment; the rest is the segment inside.
  induction rounds generalizing l m r with
  | zero => exact absurd (List.length_eq_zero_iff.mp (Nat.le_zero.mp enough)) hm
  | succ rounds ih =>
      rcases List.eq_nil_or_concat' m with rfl | ⟨m', back, rfl⟩
      · exact absurd rfl hm
      cases m' with
      | nil => simp [reverseLoop_done]
      | cons front mid =>
          have hp2 : l.length + (front :: mid ++ [back]).length - 1 =
              (l ++ back :: mid).length := by
            simp only [List.length_append, List.length_cons, List.length_nil]
            omega
          have hget1 : (l ++ (front :: mid ++ [back]) ++ r)[l.length]? = some front := by simp
          have hget2 :
              (l ++ (front :: mid ++ [back]) ++ r)[(l ++ back :: mid).length]? = some back := by
            have hsplit : l ++ (front :: mid ++ [back]) ++ r =
                (l ++ front :: mid) ++ back :: r := by simp
            have hlen : (l ++ back :: mid).length = (l ++ front :: mid).length := by simp
            rw [hsplit, hlen]
            simp
          have hset1 : store (l ++ (front :: mid ++ [back]) ++ r) l.length back =
              some ((l ++ back :: mid) ++ back :: r) := by
            simpa using store_append l (mid ++ back :: r) front back
          have hset2 := store_append (l ++ back :: mid) r back front
          have hlt : l.length < (l ++ back :: mid).length := by simp
          rw [hp2, reverseLoop, if_pos hlt, hget1, hget2]
          simp only [Option.bind_eq_bind, Option.bind_some, hset1, hset2]
          by_cases hmid : mid = []
          · subst hmid
            rw [reverseLoop_done (by simp)]
            simp
          · have hrec := ih (l ++ [back]) mid (front :: r) hmid (by
              simp only [List.length_append, List.length_cons, List.length_nil] at enough
              omega)
            have e1 : (l ++ [back]).length = l.length + 1 := by simp
            have e2 : (l ++ [back]).length + mid.length - 1 = (l ++ back :: mid).length - 1 := by
              simp only [List.length_append, List.length_cons, List.length_nil]
              omega
            rw [e2, e1] at hrec
            simpa using hrec

end TpQemu.CString
