import TpQemu.Lib.Dict
import TpQemu.Lib.Text
import TpQemu.MessageQueue.Notifications
import Mathlib.Data.List.Basic

/-!
# The message loop of a client

`MQClient.msg_loop` in `provider/message_queuing.py`. Every call of `filter_msg` starts with
an empty buffer and reads bursts until some line in the buffer matches some pattern. Then
the callbacks are invoked for all matches in the buffer, and the rest of the line that
comes with the next burst counts as a line of its own.

An invocation carries, as a ghost, the position of its line in the stream, so that
invocations for equal lines are told apart.
-/

namespace TpQemu.MessageQueue

open TpQemu.Text
open scoped List

variable {π κ : Type}

/-- The callback of the pattern has been invoked with the line. -/
structure Invocation (π : Type) where
  pattern : π
  line : List Char
  offset : Nat
  deriving DecidableEq

/-- The lines with their positions, the first one at `o`. -/
def tagged (o : Nat) : List (List Char) → List (Nat × List Char)
  | [] => []
  | l :: ls => (o, l) :: tagged (o + l.length + 1) ls

section Definitions

variable (search : π → List Char → Bool) (patterns : List π)

/-- The patterns that match one line. -/
def matchLine (o : Nat) (l : List Char) : List (Invocation π) :=
  (patterns.filter (search · l)).map fun p => ⟨p, l, o⟩

/-- `match_patterns`; the empty list stands for `None`. -/
def matchPatterns (o : Nat) (lines : List (List Char)) : List (Invocation π) :=
  (tagged o lines).flatMap fun l => matchLine search patterns l.1 l.2

/-- No pattern matches the line. -/
def NoMatch (l : List Char) : Prop := ∀ p ∈ patterns, search p l = false

instance (l : List Char) : Decidable (NoMatch search patterns l) :=
  inferInstanceAs (Decidable (∀ p ∈ patterns, search p l = false))

/-- The part of the output behind its last newline. -/
def openLine (output : List Char) : List Char := (output.reverse.takeWhile (· ≠ '\n')).reverse

/-- The part of the stream before its first newline. -/
def restOfLine (rest : List Char) : List Char := rest.takeWhile (· ≠ '\n')

/-- A call that returns inside a line does no harm: it has read the whole line and the empty
line matches nothing, or neither the two parts nor the whole line match. -/
def Harmless (x y : List Char) : Prop :=
  x = [] ∨ (y = [] ∧ NoMatch search patterns []) ∨
    (NoMatch search patterns x ∧ NoMatch search patterns y ∧ NoMatch search patterns (x ++ y))

instance (x y : List Char) : Decidable (Harmless search patterns x y) :=
  inferInstanceAs (Decidable (x = [] ∨ (y = [] ∧ NoMatch search patterns []) ∨
    (NoMatch search patterns x ∧ NoMatch search patterns y ∧ NoMatch search patterns (x ++ y))))

/-- Every call returns where it does no harm. -/
def CutsHarmless : List Char → List (List Char) → Prop
  | _, [] => True
  | buffer, burst :: bursts =>
      let output := buffer ++ burst
      if ∀ l ∈ splitlines output, NoMatch search patterns l then CutsHarmless output bursts
      else Harmless search patterns (openLine output) (restOfLine bursts.flatten) ∧
        CutsHarmless [] bursts

instance instDecidableCutsHarmless :
    ∀ buffer bursts, Decidable (CutsHarmless search patterns buffer bursts)
  | _, [] => isTrue trivial
  | buffer, burst :: bursts =>
      have := instDecidableCutsHarmless (buffer ++ burst) bursts
      have := instDecidableCutsHarmless [] bursts
      inferInstanceAs (Decidable
        (if ∀ l ∈ splitlines (buffer ++ burst), NoMatch search patterns l then
          CutsHarmless search patterns (buffer ++ burst) bursts
        else
          Harmless search patterns (openLine (buffer ++ burst)) (restOfLine bursts.flatten) ∧
            CutsHarmless search patterns [] bursts))

/-- The callbacks have been invoked once for each line and each pattern that matches it, with
the whole line and in the order of arrival. -/
structure ExactlyOnce (messages : List (List Char)) (invocations : List (Invocation π)) : Prop where
  invoked_iff : ∀ i, i ∈ invocations ↔
    i.pattern ∈ patterns ∧ (i.offset, i.line) ∈ tagged 0 messages ∧ search i.pattern i.line = true
  once : invocations.Nodup
  inOrder : invocations.Pairwise fun i j => i.offset ≤ j.offset

end Definitions

section Loop

variable [DecidableEq π] (search : π → List Char → Bool)

/-- `register_msg`. -/
def registerMsg (msgCallback : Dict π κ) (msg : π) (callback : Option κ) : Dict π κ :=
  match callback with
  | none => msgCallback
  | some callback => msgCallback.set msg callback

/-- The matches whose callbacks `msg_loop` invokes. -/
def invoke (msgCallback : Dict π κ) (matchMsg : List (Invocation π)) : List (Invocation π) :=
  matchMsg.filter (·.pattern ∈ msgCallback.keys)

/-- `msg_loop` with the bursts still to be read, in a call of `filter_msg` that has started
at this position and has this buffer. -/
def msgLoop (msgCallback : Dict π κ) :
    Nat → List Char → List (List Char) → List (Invocation π)
  | _, _, [] => []
  | o, buffer, burst :: bursts =>
      let output := buffer ++ burst
      match matchPatterns search msgCallback.keys o (splitlines output) with
      | [] => msgLoop msgCallback o output bursts
      | matchMsg => invoke msgCallback matchMsg ++
          msgLoop msgCallback (o + output.length) [] bursts

end Loop

/-! ## Lines and prefixes of a stream -/

theorem newline_notMem {l : List Char} (h : OneLine l) : '\n' ∉ l := by
  intro hmem
  have hbreak := h _ hmem
  simp [isLineBreak] at hbreak

/-- The lines of a part of the stream, whether it ends inside a line or not. -/
theorem splitlines_stream {ls : List (List Char)} {x : List Char} (hls : ∀ l ∈ ls, OneLine l)
    (hx : OneLine x) : splitlines (unlines ls ++ x) = ls ++ if x = [] then [] else [x] := by
  by_cases hempty : x = []
  · subst hempty
    rw [if_pos rfl]
    clear hx
    induction ls with
    | nil => rfl
    | cons l ls ih =>
        have hl : OneLine l := hls l List.mem_cons_self
        have hrest := ih fun m hm => hls m (List.mem_cons_of_mem l hm)
        rw [unlines_cons, List.append_assoc, List.cons_append, splitlines_line hl, hrest]
        rfl
  · rw [if_neg hempty]
    exact splitlines_flatMap hls hx hempty

theorem splitlines_whole_stream {ls : List (List Char)} (hls : ∀ l ∈ ls, OneLine l) :
    splitlines (unlines ls) = ls := by
  have hsplit := splitlines_stream hls (x := []) (fun c hc => (nomatch hc))
  rwa [List.append_nil, if_pos rfl, List.append_nil] at hsplit

theorem openLine_stream {ls : List (List Char)} {x : List Char} (hx : OneLine x) :
    openLine (unlines ls ++ x) = x := by
  have hopen : ∀ c ∈ x.reverse, decide (c ≠ '\n') = true := by
    intro c hc
    apply decide_eq_true
    rintro rfl
    exact newline_notMem hx (List.mem_reverse.mp hc)
  rw [openLine, List.reverse_append, List.takeWhile_append_of_pos hopen]
  rcases ls.eq_nil_or_concat with rfl | ⟨ms, l, rfl⟩
  · simp [unlines]
  · rw [List.concat_eq_append, unlines_append]
    simp [unlines]

theorem restOfLine_stream {y : List Char} {ls : List (List Char)} (hy : OneLine y) :
    restOfLine (unlines (y :: ls)) = y := by
  have hrest : ∀ c ∈ y, decide (c ≠ '\n') = true := by
    intro c hc
    apply decide_eq_true
    rintro rfl
    exact newline_notMem hy hc
  rw [restOfLine, unlines_cons, List.takeWhile_append_of_pos hrest]
  simp

/-- A part of a stream is all of it, or ends at the beginning or inside of a line. -/
theorem prefix_stream {ls : List (List Char)} {t rest : List Char} (h : t ++ rest = unlines ls) :
    (t = unlines ls ∧ rest = []) ∨ ∃ ls₁ x y ls₂, ls = ls₁ ++ (x ++ y) :: ls₂ ∧
      t = unlines ls₁ ++ x ∧ rest = unlines (y :: ls₂) := by
  induction ls generalizing t with
  | nil =>
      obtain ⟨rfl, rfl⟩ := List.append_eq_nil_iff.mp h
      exact .inl ⟨rfl, rfl⟩
  | cons l ls ih =>
      rw [unlines_cons] at h
      rcases List.append_eq_append_iff.mp h with ⟨y, hl, hrest⟩ | ⟨u, ht, hu⟩
      · refine .inr ⟨[], t, y, ls, ?_, rfl, ?_⟩
        · rw [hl, List.nil_append]
        · rw [unlines_cons, hrest]
      · cases u with
        | nil =>
            rw [List.append_nil] at ht
            rw [List.nil_append] at hu
            refine .inr ⟨[], t, [], ls, ?_, rfl, ?_⟩
            · rw [ht, List.append_nil, List.nil_append]
            · rw [unlines_cons, ← hu, List.nil_append]
        | cons c u =>
            rw [List.cons_append, List.cons.injEq] at hu
            obtain ⟨rfl, hu⟩ := hu
            rcases ih hu.symm with ⟨rfl, rfl⟩ | ⟨ls₁, x, y, ls₂, rfl, rfl, rfl⟩
            · exact .inl ⟨by rw [ht, unlines_cons], rfl⟩
            · refine .inr ⟨l :: ls₁, x, y, ls₂, rfl, ?_, rfl⟩
              rw [ht, unlines_cons, List.append_assoc, List.cons_append]

/-! ## Matches -/

section Matches

variable {search : π → List Char → Bool} {patterns : List π}

theorem tagged_append (o : Nat) (ls ms : List (List Char)) :
    tagged o (ls ++ ms) = tagged o ls ++ tagged (o + (unlines ls).length) ms := by
  induction ls generalizing o with
  | nil => rfl
  | cons l ls ih =>
      rw [List.cons_append, tagged, tagged, ih, unlines_cons]
      simp only [List.cons_append, List.length_append, List.length_cons]
      rw [show o + l.length + 1 + (unlines ls).length =
        o + (l.length + ((unlines ls).length + 1)) by
        omega]

theorem matchPatterns_append (o : Nat) (ls ms : List (List Char)) :
    matchPatterns search patterns o (ls ++ ms) =
      matchPatterns search patterns o ls ++
        matchPatterns search patterns (o + (unlines ls).length) ms := by
  rw [matchPatterns, tagged_append, List.flatMap_append]
  rfl

theorem matchPatterns_nil (o : Nat) : matchPatterns search patterns o [] = [] := rfl

theorem matchPatterns_cons (o : Nat) (l : List Char) (ls : List (List Char)) :
    matchPatterns search patterns o (l :: ls) =
      matchLine search patterns o l ++ matchPatterns search patterns (o + l.length + 1) ls := by
  rw [matchPatterns, tagged, List.flatMap_cons]
  rfl

theorem matchLine_eq_nil_iff {o : Nat} {l : List Char} :
    matchLine search patterns o l = [] ↔ NoMatch search patterns l := by
  rw [matchLine, List.map_eq_nil_iff, List.filter_eq_nil_iff]
  simp only [Bool.not_eq_true, NoMatch]

theorem matchPatterns_eq_nil_iff {o : Nat} {ls : List (List Char)} :
    matchPatterns search patterns o ls = [] ↔ ∀ l ∈ ls, NoMatch search patterns l := by
  induction ls generalizing o with
  | nil => simp [matchPatterns, tagged]
  | cons l ls ih =>
      rw [matchPatterns_cons, List.append_eq_nil_iff, matchLine_eq_nil_iff, ih]
      simp

theorem mem_matchLine_iff {o : Nat} {l : List Char} {i : Invocation π} :
    i ∈ matchLine search patterns o l ↔
      i.pattern ∈ patterns ∧ (i.offset, i.line) = (o, l) ∧ search i.pattern i.line = true := by
  obtain ⟨p, line, offset⟩ := i
  rw [matchLine, List.mem_map]
  constructor
  · rintro ⟨q, hq, heq⟩
    rw [Invocation.mk.injEq] at heq
    obtain ⟨rfl, rfl, rfl⟩ := heq
    exact ⟨(List.mem_filter.mp hq).1, rfl, (List.mem_filter.mp hq).2⟩
  · rintro ⟨hp, heq, hsearch⟩
    rw [Prod.mk.injEq] at heq
    obtain ⟨rfl, rfl⟩ := heq
    exact ⟨p, List.mem_filter.mpr ⟨hp, hsearch⟩, rfl⟩

/-- The matches of a line are those of a longer line only if there are none. -/
theorem noMatch_of_perm {o : Nat} {x y : List Char} (hy : y ≠ [])
    (h : matchLine search patterns o x ~ matchLine search patterns o (x ++ y)) :
    NoMatch search patterns x ∧ NoMatch search patterns (x ++ y) := by
  have hnone : matchLine search patterns o x = [] := by
    rw [List.eq_nil_iff_forall_not_mem]
    intro i hi
    have hx := (mem_matchLine_iff.mp hi).2.1
    have hxy := (mem_matchLine_iff.mp (h.mem_iff.mp hi)).2.1
    rw [hx, Prod.mk.injEq] at hxy
    exact hy (List.self_eq_append_right.mp hxy.2)
  rw [hnone] at h
  exact ⟨matchLine_eq_nil_iff.mp hnone, matchLine_eq_nil_iff.mp h.nil_eq.symm⟩

theorem offset_of_mem_matchLine {o : Nat} {l : List Char} {i : Invocation π}
    (h : i ∈ matchLine search patterns o l) : i.offset = o :=
  congrArg Prod.fst (mem_matchLine_iff.mp h).2.1

theorem le_offset_of_mem_matchPatterns {o : Nat} {ls : List (List Char)} {i : Invocation π}
    (h : i ∈ matchPatterns search patterns o ls) : o ≤ i.offset := by
  induction ls generalizing o with
  | nil => cases h
  | cons l ls ih =>
      rw [matchPatterns_cons] at h
      rcases List.mem_append.mp h with h | h
      · exact (offset_of_mem_matchLine h).ge
      · have hle := ih h
        omega

/-- Matches at one position are told from those behind it. -/
theorem perm_and_perm_of_offset {o : Nat} {a b c d : List (Invocation π)}
    (ha : ∀ i ∈ a, i.offset = o) (hb : ∀ i ∈ b, o < i.offset)
    (hc : ∀ i ∈ c, i.offset = o) (hd : ∀ i ∈ d, o < i.offset) (h : a ++ b ~ c ++ d) :
    a ~ c ∧ b ~ d := by
  have hat : ∀ {l m : List (Invocation π)}, (∀ i ∈ l, i.offset = o) → (∀ i ∈ m, o < i.offset) →
      (l ++ m).filter (·.offset = o) = l ∧ (l ++ m).filter (o < ·.offset) = m := by
    intro l m hl hm
    rw [List.filter_append, List.filter_append]
    constructor
    · rw [List.filter_eq_self.mpr fun i hi => decide_eq_true (hl i hi),
        List.filter_eq_nil_iff.mpr fun i hi => by simpa using (hm i hi).ne', List.append_nil]
    · rw [List.filter_eq_nil_iff.mpr fun i hi => by simpa using (hl i hi).le,
        List.filter_eq_self.mpr fun i hi => decide_eq_true (hm i hi), List.nil_append]
  have hfirst := h.filter (·.offset = o)
  have hsecond := h.filter (o < ·.offset)
  rw [(hat ha hb).1, (hat hc hd).1] at hfirst
  rw [(hat ha hb).2, (hat hc hd).2] at hsecond
  exact ⟨hfirst, hsecond⟩

theorem mem_matchPatterns_iff {o : Nat} {ls : List (List Char)} {i : Invocation π} :
    i ∈ matchPatterns search patterns o ls ↔
      i.pattern ∈ patterns ∧ (i.offset, i.line) ∈ tagged o ls ∧
        search i.pattern i.line = true := by
  rw [matchPatterns, List.mem_flatMap]
  constructor
  · rintro ⟨⟨k, l⟩, hl, hi⟩
    obtain ⟨hp, heq, hsearch⟩ := mem_matchLine_iff.mp hi
    exact ⟨hp, heq ▸ hl, hsearch⟩
  · rintro ⟨hp, hl, hsearch⟩
    exact ⟨_, hl, mem_matchLine_iff.mpr ⟨hp, rfl, hsearch⟩⟩

theorem nodup_matchPatterns (hpatterns : patterns.Nodup) (o : Nat) (ls : List (List Char)) :
    (matchPatterns search patterns o ls).Nodup := by
  induction ls generalizing o with
  | nil => exact List.nodup_nil
  | cons l ls ih =>
      rw [matchPatterns_cons, List.nodup_append]
      refine ⟨?_, ih _, ?_⟩
      · refine (hpatterns.filter _).map fun p q h => ?_
        exact congrArg Invocation.pattern h
      · rintro i hi j hj rfl
        have hat := offset_of_mem_matchLine hi
        have hbehind := le_offset_of_mem_matchPatterns hj
        omega

theorem inOrder_matchPatterns (o : Nat) (ls : List (List Char)) :
    (matchPatterns search patterns o ls).Pairwise fun i j => i.offset ≤ j.offset := by
  induction ls generalizing o with
  | nil => exact List.Pairwise.nil
  | cons l ls ih =>
      rw [matchPatterns_cons, List.pairwise_append]
      refine ⟨?_, ih _, ?_⟩
      · apply List.pairwise_of_forall_mem_list
        intro i hi j hj
        rw [offset_of_mem_matchLine hi, offset_of_mem_matchLine hj]
      · intro i hi j hj
        have hat := offset_of_mem_matchLine hi
        have hbehind := le_offset_of_mem_matchPatterns hj
        omega

/-- All lines read at once are matched as they should be. -/
theorem exactlyOnce_matchPatterns (hpatterns : patterns.Nodup) (messages : List (List Char)) :
    ExactlyOnce search patterns messages (matchPatterns search patterns 0 messages) where
  invoked_iff := fun _ => mem_matchPatterns_iff
  once := nodup_matchPatterns hpatterns 0 messages
  inOrder := inOrder_matchPatterns 0 messages

theorem ExactlyOnce.perm (hpatterns : patterns.Nodup) {messages : List (List Char)}
    {invocations : List (Invocation π)} (h : ExactlyOnce search patterns messages invocations) :
    invocations ~ matchPatterns search patterns 0 messages := by
  rw [List.perm_ext_iff_of_nodup h.once (nodup_matchPatterns hpatterns 0 messages)]
  intro i
  rw [h.invoked_iff, mem_matchPatterns_iff]

/-- What has been invoked is what should have been if the cuts are harmless, and not even a
permutation of it if they are not. -/
structure DecidedBy (cuts : Prop) (invoked expected : List (Invocation π)) : Prop where
  eq_of : cuts → invoked = expected
  of_perm : invoked ~ expected → cuts

theorem DecidedBy.append_left {cuts : Prop} {invoked expected : List (Invocation π)}
    (h : DecidedBy cuts invoked expected) (found : List (Invocation π)) :
    DecidedBy cuts (found ++ invoked) (found ++ expected) where
  eq_of := fun hcuts => by rw [h.eq_of hcuts]
  of_perm := fun hperm => h.of_perm ((List.perm_append_left_iff found).mp hperm)

/-- A cut at the end of a line. -/
theorem DecidedBy.at_line_end {cuts : Prop} {invoked expected : List (Invocation π)}
    (h : DecidedBy cuts invoked expected) (y : List Char) :
    DecidedBy (Harmless search patterns [] y ∧ cuts) invoked expected where
  eq_of := fun hcuts => h.eq_of hcuts.2
  of_perm := fun hperm => ⟨.inl rfl, h.of_perm hperm⟩

/-- A line is read in two parts, and what is invoked after the first one is decided for the
second part taken as a line. Then it is decided for the whole line. -/
theorem DecidedBy.inside_line {o : Nat} {x y : List Char} {ls : List (List Char)} {cuts : Prop}
    {after : List (Invocation π)}
    (h : DecidedBy cuts after (matchPatterns search patterns (o + x.length) (y :: ls)))
    (hx : x ≠ []) (hoffset : ∀ i ∈ after, o + x.length ≤ i.offset)
    (hfirst : ¬NoMatch search patterns y → ∃ i ∈ after, i.offset = o + x.length) :
    DecidedBy (Harmless search patterns x y ∧ cuts) (matchLine search patterns o x ++ after)
      (matchPatterns search patterns o ((x ++ y) :: ls)) := by
  have hlength : o + (x ++ y).length + 1 = o + x.length + y.length + 1 := by
    rw [List.length_append]
    omega
  rw [matchPatterns_cons] at h
  rw [matchPatterns_cons, hlength]
  constructor
  · rintro ⟨hharmless, hcuts⟩
    rw [h.eq_of hcuts]
    rcases hharmless with hnil | ⟨rfl, hy⟩ | ⟨hnx, hy, hxy⟩
    · exact absurd hnil hx
    · rw [matchLine_eq_nil_iff.mpr hy, List.append_nil, List.nil_append]
    · rw [matchLine_eq_nil_iff.mpr hnx, matchLine_eq_nil_iff.mpr hy,
        matchLine_eq_nil_iff.mpr hxy, List.nil_append]
  · intro hperm
    have hpos : 0 < x.length := List.length_pos_iff.mpr hx
    obtain ⟨hline, hbehind⟩ := perm_and_perm_of_offset
      (fun i hi => offset_of_mem_matchLine hi) (fun i hi => by have := hoffset i hi; omega)
      (fun i hi => offset_of_mem_matchLine hi)
      (fun i hi => by have := le_offset_of_mem_matchPatterns hi; omega) hperm
    -- A match for the second part would be one for a line that never came.
    have hy : NoMatch search patterns y := by
      by_contra hmatch
      obtain ⟨i, hi, hat⟩ := hfirst hmatch
      have hle := le_offset_of_mem_matchPatterns (hbehind.mem_iff.mp hi)
      omega
    refine ⟨.inr ?_, h.of_perm ?_⟩
    · by_cases hempty : y = []
      · exact .inl ⟨hempty, hempty ▸ hy⟩
      · have hboth := noMatch_of_perm hempty hline
        exact .inr ⟨hboth.1, hy, hboth.2⟩
    · rwa [matchLine_eq_nil_iff.mpr hy, List.nil_append]

end Matches

/-! ## The loop -/

section Loop

variable [DecidableEq π] {search : π → List Char → Bool} {msgCallback : Dict π κ}

theorem invoke_matchPatterns (o : Nat) (ls : List (List Char)) :
    invoke msgCallback (matchPatterns search msgCallback.keys o ls) =
      matchPatterns search msgCallback.keys o ls := by
  rw [invoke, List.filter_eq_self]
  intro i hi
  exact decide_eq_true (mem_matchPatterns_iff.mp hi).1

/-- A burst with no match so far. -/
theorem msgLoop_of_noMatch {o : Nat} {buffer burst : List Char} {bursts : List (List Char)}
    (h : ∀ l ∈ splitlines (buffer ++ burst), NoMatch search msgCallback.keys l) :
    msgLoop search msgCallback o buffer (burst :: bursts) =
      msgLoop search msgCallback o (buffer ++ burst) bursts := by
  rw [msgLoop, matchPatterns_eq_nil_iff.mpr h]

/-- A burst that completes a match. -/
theorem msgLoop_of_match {o : Nat} {buffer burst : List Char} {bursts : List (List Char)}
    (h : ¬∀ l ∈ splitlines (buffer ++ burst), NoMatch search msgCallback.keys l) :
    msgLoop search msgCallback o buffer (burst :: bursts) =
      matchPatterns search msgCallback.keys o (splitlines (buffer ++ burst)) ++
        msgLoop search msgCallback (o + (buffer ++ burst).length) [] bursts := by
  rw [msgLoop]
  split
  · rename_i hnil
    exact absurd (matchPatterns_eq_nil_iff.mp hnil) h
  · rw [invoke_matchPatterns]

theorem le_offset_of_mem_msgLoop {o : Nat} {buffer : List Char} {bursts : List (List Char)}
    {i : Invocation π} (h : i ∈ msgLoop search msgCallback o buffer bursts) : o ≤ i.offset := by
  induction bursts generalizing o buffer with
  | nil => cases h
  | cons burst bursts ih =>
      by_cases hno : ∀ l ∈ splitlines (buffer ++ burst), NoMatch search msgCallback.keys l
      · rw [msgLoop_of_noMatch hno] at h
        exact ih h
      · rw [msgLoop_of_match hno] at h
        rcases List.mem_append.mp h with h | h
        · exact le_offset_of_mem_matchPatterns h
        · have hle := ih h
          omega

/-- The lines of an output that ends inside a stream. -/
theorem splitlines_of_prefix {y : List Char} {ls : List (List Char)} {output rest : List Char}
    (hls : ∀ l ∈ y :: ls, OneLine l) (h : output ++ rest = unlines (y :: ls)) :
    (∃ ms, splitlines output = y :: ms) ∨ splitlines output = [] ∨
      ∃ x, splitlines output = [x] := by
  rcases prefix_stream h with ⟨rfl, -⟩ | ⟨ls₁, x, y', ls₂, heq, rfl, -⟩
  · exact .inl ⟨ls, splitlines_whole_stream hls⟩
  · have hparts : ∀ l ∈ ls₁ ++ (x ++ y') :: ls₂, OneLine l := heq ▸ hls
    have hx : OneLine x := (oneLine_append.mp (hparts (x ++ y') (by simp))).1
    have hsplit := splitlines_stream (fun l hl => hparts l (List.mem_append_left _ hl)) hx
    cases ls₁ with
    | nil =>
        right
        rw [hsplit]
        by_cases hempty : x = []
        · exact .inl (by rw [if_pos hempty]; rfl)
        · exact .inr ⟨x, by rw [if_neg hempty]; rfl⟩
    | cons l ls₁ =>
        rw [List.cons_append, List.cons.injEq] at heq
        rw [hsplit, ← heq.1]
        exact .inl ⟨_, rfl⟩

/-- A first line that matches gives an invocation at its position, for the line or for a
part of it. -/
theorem exists_offset_of_match {o : Nat} {buffer y : List Char} {bursts ls : List (List Char)}
    (hls : ∀ l ∈ y :: ls, OneLine l) (hstream : buffer ++ bursts.flatten = unlines (y :: ls))
    (hno : ∀ l ∈ splitlines buffer, NoMatch search msgCallback.keys l)
    (hy : ¬NoMatch search msgCallback.keys y) :
    ∃ i ∈ msgLoop search msgCallback o buffer bursts, i.offset = o := by
  induction bursts generalizing buffer with
  | nil =>
      rw [List.flatten_nil, List.append_nil] at hstream
      rw [hstream, splitlines_whole_stream hls] at hno
      exact absurd (hno y List.mem_cons_self) hy
  | cons burst bursts ih =>
      rw [List.flatten_cons, ← List.append_assoc] at hstream
      by_cases hmatch : ∀ l ∈ splitlines (buffer ++ burst), NoMatch search msgCallback.keys l
      · rw [msgLoop_of_noMatch hmatch]
        exact ih hstream hmatch
      · rw [msgLoop_of_match hmatch]
        -- The first line of the output matches: it is the whole line or the only one.
        have hfirst : ∃ z zs, splitlines (buffer ++ burst) = z :: zs ∧
            ¬NoMatch search msgCallback.keys z := by
          rcases splitlines_of_prefix hls hstream with ⟨ms, hsplit⟩ | hsplit | ⟨x, hsplit⟩
          · exact ⟨y, ms, hsplit, hy⟩
          · rw [hsplit] at hmatch
            exact absurd (fun l hl => (nomatch hl)) hmatch
          · rw [hsplit] at hmatch
            exact ⟨x, [], hsplit, by simpa using hmatch⟩
        obtain ⟨z, zs, hsplit, hz⟩ := hfirst
        rw [← matchLine_eq_nil_iff (o := o)] at hz
        obtain ⟨i, hi⟩ := List.exists_mem_of_ne_nil _ hz
        refine ⟨i, List.mem_append_left _ ?_, offset_of_mem_matchLine hi⟩
        rw [hsplit, matchPatterns_cons]
        exact List.mem_append_left _ hi

/-- The loop that starts inside a call with this buffer, up to the end of the stream. -/
theorem msgLoop_decidedBy {o : Nat} {buffer : List Char} {bursts ls : List (List Char)}
    (hls : ∀ l ∈ ls, OneLine l) (hstream : buffer ++ bursts.flatten = unlines ls)
    (hno : ∀ l ∈ splitlines buffer, NoMatch search msgCallback.keys l) :
    DecidedBy (CutsHarmless search msgCallback.keys buffer bursts)
      (msgLoop search msgCallback o buffer bursts)
      (matchPatterns search msgCallback.keys o ls) := by
  induction bursts generalizing o buffer ls with
  | nil =>
      rw [List.flatten_nil, List.append_nil] at hstream
      rw [hstream, splitlines_whole_stream hls] at hno
      rw [msgLoop, matchPatterns_eq_nil_iff.mpr hno]
      exact ⟨fun _ => rfl, fun _ => trivial⟩
  | cons burst bursts ih =>
      rw [List.flatten_cons, ← List.append_assoc] at hstream
      by_cases hmatch : ∀ l ∈ splitlines (buffer ++ burst), NoMatch search msgCallback.keys l
      · rw [msgLoop_of_noMatch hmatch, CutsHarmless, if_pos hmatch]
        exact ih hls hstream hmatch
      · rw [msgLoop_of_match hmatch, CutsHarmless, if_neg hmatch]
        have hfresh : ∀ l ∈ splitlines [], NoMatch search msgCallback.keys l :=
          fun l hl => (nomatch hl)
        rcases prefix_stream hstream with ⟨houtput, hrest⟩ | ⟨ls₁, x, y, ls₂, rfl, houtput, hrest⟩
        · -- All of the stream has been read.
          have hnil : ∀ l ∈ ([] : List (List Char)), OneLine l := fun l hl => (nomatch hl)
          have hend := ih (o := o + (unlines ls).length) hnil hrest hfresh
          have hopen : openLine (unlines ls ++ []) = [] := openLine_stream fun c hc => (nomatch hc)
          rw [List.append_nil] at hopen
          rw [houtput, hopen, splitlines_whole_stream hls]
          have hwhole := hend.append_left (matchPatterns search msgCallback.keys o ls)
          rw [matchPatterns_nil, List.append_nil] at hwhole
          exact hwhole.at_line_end _
        · obtain ⟨hx, hy⟩ := oneLine_append.mp (hls (x ++ y) (by simp))
          have hrestls : ∀ l ∈ y :: ls₂, OneLine l := by
            intro l hl
            rcases List.mem_cons.mp hl with rfl | hl
            · exact hy
            · exact hls l (by simp [hl])
          have hlines := splitlines_stream (fun l hl => hls l (List.mem_append_left _ hl)) hx
          have hnext := ih (o := o + (unlines ls₁).length + x.length) hrestls hrest hfresh
          rw [hrest, restOfLine_stream hy, houtput, openLine_stream hx, hlines,
            List.length_append, ← Nat.add_assoc, matchPatterns_append _ ls₁ (_ :: _)]
          by_cases hempty : x = []
          · -- The call returns at the end of a line.
            subst hempty
            rw [if_pos rfl, List.append_nil]
            exact (hnext.append_left _).at_line_end y
          · rw [if_neg hempty, matchPatterns_append, List.append_assoc, matchPatterns_cons _ x,
              matchPatterns_nil, List.append_nil]
            exact (hnext.inside_line hempty (fun i hi => le_offset_of_mem_msgLoop hi)
              (exists_offset_of_match hrestls hrest hfresh)).append_left _

/-- For every stream of messages and every way it is cut into bursts, the callbacks are
invoked as they should be if and only if every call of `filter_msg` returns where it does no
harm. -/
theorem exactlyOnce_iff_cutsHarmless {messages bursts : List (List Char)}
    (hlines : ∀ l ∈ messages, OneLine l) (hcut : bursts.flatten = unlines messages) :
    ExactlyOnce search msgCallback.keys messages (msgLoop search msgCallback 0 [] bursts) ↔
      CutsHarmless search msgCallback.keys [] bursts := by
  have hfresh : ∀ l ∈ splitlines [], NoMatch search msgCallback.keys l :=
    fun l hl => (nomatch hl)
  have hdecided := msgLoop_decidedBy (o := 0) hlines hcut hfresh
  have hpatterns := msgCallback.nodup_keys
  constructor
  · intro h
    exact hdecided.of_perm (h.perm hpatterns)
  · intro h
    rw [hdecided.eq_of h]
    exact exactlyOnce_matchPatterns hpatterns messages

end Loop

/-- The callbacks of the host in the nested resize test. -/
def resizeCallbacks : Dict (List Char) Unit :=
  registerMsg (registerMsg ∅ "resize".toList (some ())) "status-rsp:".toList (some ())

/-- Two messages in three bursts, the first of which ends inside the first message; nothing
matches until the line is complete. -/
theorem exactlyOnce_two_messages :
    ExactlyOnce search resizeCallbacks.keys ["resize".toList, "status-rsp:ok".toList]
      (msgLoop search resizeCallbacks 0 []
        ["res".toList, "ize\n".toList, "status-rsp:ok\n".toList]) := by
  apply (exactlyOnce_iff_cutsHarmless (by decide) (by decide)).mpr
  decide

/-- The status response comes in two bursts: the callback gets the line without the status,
and never the whole line. -/
theorem status_response_is_torn :
    (["status-rsp:".toList, "ok\n".toList] : List (List Char)).flatten =
        unlines ["status-rsp:ok".toList] ∧
      ¬ExactlyOnce search resizeCallbacks.keys ["status-rsp:ok".toList]
        (msgLoop search resizeCallbacks 0 [] ["status-rsp:".toList, "ok\n".toList]) := by
  refine ⟨by decide, fun h => ?_⟩
  have hwhole := (h.invoked_iff ⟨"status-rsp:".toList, "status-rsp:ok".toList, 0⟩).mpr (by decide)
  revert hwhole
  decide

end TpQemu.MessageQueue
