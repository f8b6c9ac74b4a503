import TpQemu.Slof.BootContent

/-!
# Scanning a growing log

What a sequence of polls of `wait_for_loaded` returns, compared with one scan of the log
as it stands at the last poll. A poll that finds no end resumes at the last start line it
has seen, so that the lines from an earlier start line on are missing from the content of
a later poll. A start position beyond the end of the log is forgotten at once: the poll
returns the number of lines it has skipped.
-/

namespace TpQemu.Slof

variable {Line : Type} {startStr endStr : Line → Bool}

/-! ## Resuming -/

/-- A scan from a position within the log. -/
theorem getBootContent_of_le {log : List Line} {a : Nat} (h : a ≤ log.length) :
    getBootContent startStr endStr log a =
      scanLoop startStr endStr a (log.drop a) [] a := by
  rw [getBootContent_eq, Int.toNat_natCast, Nat.min_eq_left h]

/-- A poll that resumes where another one has found no end, on a log that has grown since,
returns what the other would return now, less the lines in front of the last start line. -/
theorem getBootContent_resume {log : List Line} {a r : Nat} (ha : a ≤ log.length)
    (h : getBootContent startStr endStr log a = (none, r)) (chunk : List Line) :
    ∃ front : List Line,
      getBootContent startStr endStr (log ++ chunk) a =
        ((getBootContent startStr endStr (log ++ chunk) r).1.map (front ++ ·),
          (getBootContent startStr endStr (log ++ chunk) r).2) ∧
      (front = [] ↔ (log.drop a).countP startStr ≤ 1) := by
  have hgrown : a ≤ (log ++ chunk).length := by
    rw [List.length_append]
    omega
  rw [getBootContent_of_le ha] at h
  have hr := scanLoop_none_pos h
  by_cases hstart : ∃ l ∈ log.drop a, startStr l = true
  case neg =>
    have hnone : ∀ l ∈ log.drop a, startStr l = false := by simpa using hstart
    obtain rfl : r = a := hr.trans (lastStart_of_none hnone a a)
    refine ⟨[], by simp, iff_of_true rfl ?_⟩
    rw [List.countP_eq_zero.mpr (by simpa using hnone)]
    exact Nat.zero_le 1
  case pos =>
    obtain ⟨front, line, back, hdrop, hline, hback, hlast⟩ := exists_last_start hstart
    obtain rfl : r = a + front.length := hr.trans (hlast a a)
    -- The scan from `a` has found no end in front of the last start line either.
    have hfront : ∃ q, scanLoop startStr endStr a front [] a = (none, q) := by
      cases hs : scanLoop startStr endStr a front [] a with
      | mk found q =>
          cases found with
          | none => exact ⟨q, rfl⟩
          | some found =>
              rw [hdrop, scanLoop_append_some hs] at h
              cases h
    obtain ⟨q, hq⟩ := hfront
    have hrest : (log ++ chunk).drop a = front ++ (line :: (back ++ chunk)) := by
      rw [List.drop_append_of_le_length ha, hdrop, List.append_assoc]
      rfl
    have htail : (log ++ chunk).drop (a + front.length) = line :: (back ++ chunk) := by
      rw [← List.drop_drop, hrest, List.drop_left]
    have hbound : a + front.length ≤ (log ++ chunk).length := by
      have hlen := congrArg List.length htail
      rw [List.length_drop, List.length_cons] at hlen
      omega
    refine ⟨held startStr [] front, ?_, ?_⟩
    · rw [getBootContent_of_le hgrown, getBootContent_of_le hbound, hrest, htail,
        scanLoop_append_none hq, scanLoop_start hline, scanLoop, if_pos hline,
        scanLoop_prepend (List.cons_ne_nil line [])]
    · have hcount : (log.drop a).countP startStr = front.countP startStr + 1 := by
        have hnone : back.countP startStr = 0 := List.countP_eq_zero.mpr (by simpa using hback)
        rw [hdrop, List.countP_append, List.countP_cons_of_pos hline, hnone]
      have hheld : held startStr [] front = [] ↔ front.countP startStr = 0 := by
        simp [held, List.countP_eq_zero]
      rw [hheld, hcount]
      omega

/-- The two scans find an end or not together, and return the same position. -/
theorem getBootContent_resume_same {log : List Line} {a r : Nat} (ha : a ≤ log.length)
    (h : getBootContent startStr endStr log a = (none, r)) (chunk : List Line) :
    (getBootContent startStr endStr (log ++ chunk) r).1.isSome =
        finished startStr endStr ((log ++ chunk).drop a) ∧
      (getBootContent startStr endStr (log ++ chunk) r).2 =
        (getBootContent startStr endStr (log ++ chunk) a).2 := by
  obtain ⟨front, heq, -⟩ := getBootContent_resume ha h chunk
  have hsome := @getBootContent_isSome Line startStr endStr (log ++ chunk) a
  rw [Int.toNat_natCast, heq] at hsome
  rw [heq]
  exact ⟨by simpa using hsome, rfl⟩

/-- The two scans agree unless there is an end behind two start lines. -/
theorem getBootContent_resume_eq_iff {log : List Line} {a r : Nat} (ha : a ≤ log.length)
    (h : getBootContent startStr endStr log a = (none, r)) (chunk : List Line) :
    getBootContent startStr endStr (log ++ chunk) r =
        getBootContent startStr endStr (log ++ chunk) a ↔
      (finished startStr endStr ((log ++ chunk).drop a) = true →
        (log.drop a).countP startStr ≤ 1) := by
  obtain ⟨front, heq, hfront⟩ := getBootContent_resume ha h chunk
  rw [← (getBootContent_resume_same ha h chunk).1, heq, ← hfront]
  cases getBootContent startStr endStr (log ++ chunk) r with
  | mk found q =>
      cases found with
      | none => simp
      | some found => simp

/-! ## Schedules -/

/-- The logs at the last two polls, for polls that wait for a boot to finish behind
position `a`; the first argument is the log at a poll that did not find its end. -/
def lastPolls (startStr endStr : Line → Bool) (a : Nat) :
    List Line → List Line → List (List Line) → List Line × List Line
  | log, chunk, [] => (log, log ++ chunk)
  | log, chunk, next :: chunks =>
      if finished startStr endStr ((log ++ chunk).drop a) then (log, log ++ chunk)
      else lastPolls startStr endStr a (log ++ chunk) next chunks

/-- When the last poll returns what one scan from `s` returns, if `n` is the length of the
log at the first poll and the log has grown from `prev` to `last` before the last poll. -/
def Compatible (startStr endStr : Line → Bool) (s n : Nat) (prev last : List Line) : Prop :=
  if finished startStr endStr (last.drop (min s n)) then
    (prev.drop s).countP startStr ≤ 1 ∧
      ((∀ l ∈ (last.take s).drop n, startStr l = false) ∨ (prev.drop s).countP startStr = 1)
  else s ≤ n ∨ last.length = n ∨ ∃ l ∈ last.drop s, startStr l = true

/-- When the polls of a schedule return what one scan returns. -/
def Resumable (startStr endStr : Line → Bool) (s : Nat) (log : List Line) :
    List (List Line) → Prop
  | [] => True
  | chunk :: chunks =>
      finished startStr endStr (log.drop s) = true ∨
        Compatible startStr endStr s log.length
          (lastPolls startStr endStr (min s log.length) log chunk chunks).1
          (lastPolls startStr endStr (min s log.length) log chunk chunks).2

theorem getBootContent_eq_none {log : List Line} {a : Nat}
    (h : finished startStr endStr (log.drop a) = false) :
    ∃ r, getBootContent startStr endStr log a = (none, r) := by
  have hsome := @getBootContent_isSome Line startStr endStr log a
  rw [Int.toNat_natCast, h] at hsome
  cases hscan : getBootContent startStr endStr log a with
  | mk found r =>
      rw [hscan] at hsome
      cases found with
      | none => exact ⟨r, rfl⟩
      | some found => cases hsome

theorem finished_of_none {log : List Line} {a r : Nat}
    (h : getBootContent startStr endStr log a = (none, r)) :
    finished startStr endStr (log.drop a) = false := by
  have hsome := @getBootContent_isSome Line startStr endStr log a
  rw [Int.toNat_natCast, h] at hsome
  exact hsome.symm

/-- The lines behind two positions. -/
theorem drop_eq_append {log : List Line} {a b : Nat} (h : a ≤ b) :
    log.drop a = (log.take b).drop a ++ log.drop b := by
  conv_lhs => rw [← List.take_append_drop (b - a) (log.drop a)]
  rw [List.drop_take, List.drop_drop, Nat.add_sub_cancel' h]

theorem le_length_of_start {log : List Line} {s : Nat}
    (h : ∃ l ∈ log.drop s, startStr l = true) : s ≤ log.length := by
  obtain ⟨l, hl, -⟩ := h
  have := List.length_pos_of_mem hl
  rw [List.length_drop] at this
  omega

/-- A scan from a later position finds no end either. -/
theorem unfinished_of_le {log : List Line} {a b : Nat} (hab : a ≤ b)
    (h : finished startStr endStr (log.drop a) = false) :
    finished startStr endStr (log.drop b) = false := by
  rw [drop_eq_append hab] at h
  rw [Bool.eq_false_iff]
  intro hb
  rw [finished_append_right hb] at h
  cases h

/-- Without an end, a scan from a later position returns the same position, if there is a
start line behind it. -/
theorem none_pos_eq {log : List Line} {a b q q' : Nat} (hab : a ≤ b) (hb : b ≤ log.length)
    (ha : getBootContent startStr endStr log a = (none, q))
    (hb' : getBootContent startStr endStr log b = (none, q'))
    (hstart : ∃ l ∈ log.drop b, startStr l = true) : q = q' := by
  rw [getBootContent_of_le (hab.trans hb)] at ha
  rw [getBootContent_of_le hb] at hb'
  obtain ⟨front, line, back, -, -, -, hlast⟩ := exists_last_start hstart
  have hlen : a + ((log.take b).drop a).length = b := by
    rw [List.length_drop, List.length_take]
    omega
  rw [scanLoop_none_pos ha, scanLoop_none_pos hb', drop_eq_append hab, lastStart_append, hlen,
    hlast, hlast]

/-- A scan of the first log from `s` would have returned the same position. -/
theorem scan_eq_of_seen {s n r : Nat} {prev : List Line} (hn : n ≤ prev.length)
    (h : getBootContent startStr endStr prev (min s n : Nat) = (none, r))
    (hseen : s ≤ n ∨ 0 < (prev.drop s).countP startStr) :
    s ≤ prev.length ∧ getBootContent startStr endStr prev s = (none, r) := by
  by_cases hsn : s ≤ n
  · rw [Nat.min_eq_left hsn] at h
    exact ⟨hsn.trans hn, h⟩
  · have hns : n ≤ s := Nat.le_of_not_le hsn
    have hstart := List.countP_pos_iff.mp (hseen.resolve_left hsn)
    have hle := le_length_of_start hstart
    rw [Nat.min_eq_right hns] at h
    obtain ⟨r', hr'⟩ := getBootContent_eq_none (unfinished_of_le hns (finished_of_none h))
    rw [none_pos_eq hns hle h hr' hstart]
    exact ⟨hle, hr'⟩

/-- The last poll, when the scan from `s` could have resumed there itself. -/
theorem resume_eq_iff_of_seen {s n r : Nat} {prev chunk : List Line} (hn : n ≤ prev.length)
    (h : getBootContent startStr endStr prev (min s n : Nat) = (none, r))
    (hseen : s ≤ n ∨ 0 < (prev.drop s).countP startStr) :
    getBootContent startStr endStr (prev ++ chunk) r =
        getBootContent startStr endStr (prev ++ chunk) s ↔
      Compatible startStr endStr s n prev (prev ++ chunk) := by
  have hscan := scan_eq_of_seen hn h hseen
  have hmin : min s n ≤ prev.length := (Nat.min_le_right s n).trans hn
  have hfinished : finished startStr endStr ((prev ++ chunk).drop (min s n)) =
      finished startStr endStr ((prev ++ chunk).drop s) :=
    (getBootContent_resume_same hmin h chunk).1.symm.trans
      (getBootContent_resume_same hscan.1 hscan.2 chunk).1
  rw [getBootContent_resume_eq_iff hscan.1 hscan.2, Compatible, hfinished]
  by_cases hf : finished startStr endStr ((prev ++ chunk).drop s) = true
  · rw [if_pos hf]
    refine ⟨fun hcount => ⟨hcount hf, ?_⟩, fun hcompatible _ => hcompatible.1⟩
    obtain hsn | hpos := hseen
    · refine .inl fun l hl => ?_
      rw [List.drop_eq_nil_of_le (by rw [List.length_take]; omega)] at hl
      cases hl
    · exact .inr (Nat.le_antisymm (hcount hf) hpos)
  · rw [if_neg hf]
    refine iff_of_true (fun h => absurd h hf) ?_
    obtain hsn | hpos := hseen
    · exact .inl hsn
    · obtain ⟨l, hl, hs⟩ := List.countP_pos_iff.mp hpos
      refine .inr (.inr ⟨l, ?_, hs⟩)
      rw [List.drop_append_of_le_length hscan.1]
      exact List.mem_append_left _ hl

theorem length_between {log : List Line} {n s : Nat} (hn : n ≤ log.length) (hns : n ≤ s) :
    n + ((log.take s).drop n).length = min s log.length := by
  rw [List.length_drop, List.length_take]
  omega

/-- A scan over lines without a start line returns how far it has come. -/
theorem getBootContent_no_start {log : List Line} {s : Nat}
    (h : ∀ l ∈ log.drop s, startStr l = false) :
    getBootContent startStr endStr log s = (none, min s log.length) := by
  have hskip := @scanLoop_skip Line startStr endStr _ h (min s log.length) [] (min s log.length)
  rw [List.append_nil] at hskip
  rw [getBootContent_eq, Int.toNat_natCast, hskip]
  rfl

/-- The first start line of a scan that resumes has a number below `s`, if all those it has
seen have and there is one. -/
theorem first_start_lt {s n r : Nat} {prev chunk : List Line} (hn : n ≤ prev.length)
    (hns : n < s) (h : getBootContent startStr endStr prev n = (none, r))
    (hunseen : ∀ l ∈ prev.drop s, startStr l = false)
    (hbetween : ∃ l ∈ ((prev ++ chunk).take s).drop n, startStr l = true) :
    r ≤ prev.length ∧
      r + (((prev ++ chunk).drop r).takeWhile (fun l => !startStr l)).length < s := by
  have hr := h
  rw [getBootContent_of_le hn] at hr
  by_cases hseen : ∃ l ∈ prev.drop n, startStr l = true
  · -- The scan resumes at a start line, which is not behind `s`.
    obtain ⟨front, line, back, hdrop, hline, -, hlast⟩ := exists_last_start hseen
    obtain rfl : r = n + front.length := (scanLoop_none_pos hr).trans (hlast n n)
    have hlen := congrArg List.length hdrop
    rw [List.length_drop, List.length_append, List.length_cons] at hlen
    have hprev : prev.drop (n + front.length) = line :: back := by
      rw [← List.drop_drop, hdrop, List.drop_left]
    have hle : n + front.length ≤ prev.length := by omega
    have hlt : n + front.length < s := by
      by_contra hge
      have hmem : line ∈ prev.drop s := by
        have hsub := List.drop_subset (n + front.length - s) (prev.drop s)
        rw [List.drop_drop, Nat.add_sub_cancel' (Nat.le_of_not_lt hge), hprev] at hsub
        exact hsub List.mem_cons_self
      rw [hunseen line hmem] at hline
      cases hline
    refine ⟨hle, ?_⟩
    rw [List.drop_append_of_le_length hle, hprev]
    simpa [hline] using hlt
  · have hnone : ∀ l ∈ prev.drop n, startStr l = false := by simpa using hseen
    obtain rfl : r = n := (scanLoop_none_pos hr).trans (lastStart_of_none hnone n n)
    have hgrown : r ≤ (prev ++ chunk).length := hn.trans (by simp)
    have hlen := length_between hgrown (Nat.le_of_lt hns)
    have htake : (((prev ++ chunk).drop r).takeWhile (fun l => !startStr l)).length <
        (((prev ++ chunk).take s).drop r).length := by
      have hshort : ((((prev ++ chunk).take s).drop r).takeWhile (fun l => !startStr l)).length ≠
          (((prev ++ chunk).take s).drop r).length := by
        intro heq
        obtain ⟨l, hl, hs⟩ := hbetween
        have hself := (List.takeWhile_prefix _).eq_of_length heq
        have hl' := List.takeWhile_eq_self_iff.mp hself l hl
        rw [hs] at hl'
        cases hl'
      rw [drop_eq_append (Nat.le_of_lt hns), List.takeWhile_append, if_neg hshort]
      exact Nat.lt_of_le_of_ne (List.takeWhile_prefix _).length_le hshort
    exact ⟨hn, by omega⟩

/-- A scan that finds a boot returns the number of its first start line; so it is not the
same from two positions with a start line between them. -/
theorem resume_ne_of_start_between {s n r : Nat} {prev chunk : List Line} (hn : n ≤ prev.length)
    (hns : n < s) (h : getBootContent startStr endStr prev n = (none, r))
    (hunseen : ∀ l ∈ prev.drop s, startStr l = false)
    (hf : finished startStr endStr ((prev ++ chunk).drop n) = true)
    (hbetween : ∃ l ∈ ((prev ++ chunk).take s).drop n, startStr l = true) :
    getBootContent startStr endStr (prev ++ chunk) r ≠
      getBootContent startStr endStr (prev ++ chunk) s := by
  intro heq
  obtain ⟨hr, hlt⟩ := first_start_lt hn hns h hunseen hbetween
  have hsome := (getBootContent_resume_same hn h chunk).1
  rw [hf] at hsome
  cases hscan : getBootContent startStr endStr (prev ++ chunk) r with
  | mk found q =>
      cases found with
      | none =>
          rw [hscan] at hsome
          cases hsome
      | some found =>
          rw [hscan] at heq
          rw [getBootContent_of_le (hr.trans (by simp))] at hscan
          have hfirst := scanLoop_some_pos hscan
          have hlast := heq.symm
          rw [getBootContent_eq, Int.toNat_natCast] at hlast
          have hle : s ≤ (prev ++ chunk).length := by
            by_contra hgt
            rw [List.drop_eq_nil_of_le (Nat.le_of_not_le hgt)] at hlast
            cases hlast
          rw [Nat.min_eq_left hle] at hlast
          have hsecond := scanLoop_some_pos hlast
          simp only [List.length_nil, if_true] at hfirst hsecond
          omega

/-- Lines without a start line may be skipped. -/
theorem getBootContent_skip {log : List Line} {n s : Nat} (hns : n ≤ s)
    (hnone : ∀ l ∈ (log.take s).drop n, startStr l = false)
    (hstart : ∃ l ∈ log.drop s, startStr l = true) :
    getBootContent startStr endStr log n = getBootContent startStr endStr log s := by
  have hle := le_length_of_start hstart
  have hn : n ≤ log.length := hns.trans hle
  rw [getBootContent_of_le hn, getBootContent_of_le hle, drop_eq_append hns, scanLoop_skip hnone,
    length_between hn hns, Nat.min_eq_left hle]
  exact scanLoop_of_start hstart s n s

/-- The last poll, when a finished boot is found from a position within the first log on,
and no start line behind `s` has been seen before it. -/
theorem resume_eq_iff_of_finished {s n r : Nat} {prev chunk : List Line} (hn : n ≤ prev.length)
    (hns : n < s) (h : getBootContent startStr endStr prev n = (none, r))
    (hunseen : ∀ l ∈ prev.drop s, startStr l = false)
    (hf : finished startStr endStr ((prev ++ chunk).drop n) = true) :
    getBootContent startStr endStr (prev ++ chunk) r =
        getBootContent startStr endStr (prev ++ chunk) s ↔
      ∀ l ∈ ((prev ++ chunk).take s).drop n, startStr l = false := by
  constructor
  · intro heq
    by_contra hstart
    have hbetween : ∃ l ∈ ((prev ++ chunk).take s).drop n, startStr l = true := by
      simpa using hstart
    exact resume_ne_of_start_between hn hns h hunseen hf hbetween heq
  · intro hnone
    have hstart : ∃ l ∈ (prev ++ chunk).drop s, startStr l = true := by
      obtain ⟨l, hl, hs⟩ := exists_start_of_finished hf
      rw [drop_eq_append (Nat.le_of_lt hns)] at hl
      obtain hl | hl := List.mem_append.mp hl
      · rw [hnone l hl] at hs
        cases hs
      · exact ⟨l, hl, hs⟩
    rw [← getBootContent_skip (Nat.le_of_lt hns) hnone hstart, getBootContent_resume_eq_iff hn h]
    intro _
    have hprev : ∀ l ∈ prev.drop n, startStr l = false := by
      intro l hl
      rw [drop_eq_append (Nat.le_of_lt hns)] at hl
      obtain hl | hl := List.mem_append.mp hl
      · refine hnone l ?_
        rw [List.take_append, List.drop_append_of_le_length (by rw [List.length_take]; omega)]
        exact List.mem_append_left _ hl
      · exact hunseen l hl
    rw [List.countP_eq_zero.mpr (by simpa using hprev)]
    exact Nat.zero_le 1

/-- The last poll, when no finished boot is found and no start line behind `s` has been
seen before it. -/
theorem resume_eq_iff_of_unfinished {s n r : Nat} {prev chunk : List Line}
    (hn : n ≤ prev.length) (hns : n < s)
    (h : getBootContent startStr endStr prev n = (none, r))
    (hf : finished startStr endStr ((prev ++ chunk).drop n) = false) :
    getBootContent startStr endStr (prev ++ chunk) r =
        getBootContent startStr endStr (prev ++ chunk) s ↔
      (prev ++ chunk).length = n ∨ ∃ l ∈ (prev ++ chunk).drop s, startStr l = true := by
  have hgrown : n ≤ (prev ++ chunk).length := hn.trans (by simp)
  obtain ⟨q, hq⟩ := getBootContent_eq_none hf
  obtain ⟨hsome, hpos⟩ := getBootContent_resume_same hn h chunk
  have hresumed : getBootContent startStr endStr (prev ++ chunk) r = (none, q) := by
    rw [hf, Option.isSome_eq_false_iff, Option.isNone_iff_eq_none] at hsome
    rw [hq] at hpos
    exact Prod.ext hsome hpos
  rw [hresumed]
  by_cases hstart : ∃ l ∈ (prev ++ chunk).drop s, startStr l = true
  · refine iff_of_true ?_ (.inr hstart)
    obtain ⟨q', hq'⟩ := getBootContent_eq_none (unfinished_of_le (Nat.le_of_lt hns) hf)
    rw [hq', none_pos_eq (Nat.le_of_lt hns) (le_length_of_start hstart) hq hq' hstart]
  · have hnone : ∀ l ∈ (prev ++ chunk).drop s, startStr l = false := by simpa using hstart
    rw [getBootContent_no_start hnone, or_iff_left hstart, Prod.mk.injEq, eq_self, true_and]
    rw [getBootContent_of_le hgrown] at hq
    have hlast := scanLoop_none_pos hq
    rw [drop_eq_append (Nat.le_of_lt hns), lastStart_append, lastStart_of_none hnone] at hlast
    have hlen := length_between hgrown (Nat.le_of_lt hns)
    by_cases hbetween : ∃ l ∈ ((prev ++ chunk).take s).drop n, startStr l = true
    · obtain ⟨front, line, back, hcut, -, -, hq'⟩ := exists_last_start hbetween
      rw [hq'] at hlast
      have hcut' := congrArg List.length hcut
      rw [List.length_append, List.length_cons] at hcut'
      omega
    · rw [lastStart_of_none (by simpa using hbetween)] at hlast
      omega

/-- What the last poll returns is what one scan returns exactly for compatible logs. -/
theorem resume_eq_iff {s n r : Nat} {prev chunk : List Line} (hn : n ≤ prev.length)
    (h : getBootContent startStr endStr prev (min s n : Nat) = (none, r)) :
    getBootContent startStr endStr (prev ++ chunk) r =
        getBootContent startStr endStr (prev ++ chunk) s ↔
      Compatible startStr endStr s n prev (prev ++ chunk) := by
  by_cases hseen : s ≤ n ∨ 0 < (prev.drop s).countP startStr
  · exact resume_eq_iff_of_seen hn h hseen
  · obtain ⟨hsn, hcount⟩ := not_or.mp hseen
    have hns : n < s := Nat.lt_of_not_le hsn
    have hzero : (prev.drop s).countP startStr = 0 := Nat.eq_zero_of_not_pos hcount
    have hunseen : ∀ l ∈ prev.drop s, startStr l = false := by
      simpa using List.countP_eq_zero.mp hzero
    rw [Nat.min_eq_right (Nat.le_of_lt hns)] at h
    rw [Compatible, Nat.min_eq_right (Nat.le_of_lt hns), hzero]
    cases hf : finished startStr endStr ((prev ++ chunk).drop n) with
    | true =>
        rw [resume_eq_iff_of_finished hn hns h hunseen hf]
        simp
    | false =>
        rw [resume_eq_iff_of_unfinished hn hns h hf]
        simp [hsn]

/-! ## Whole runs -/

/-- Polls that go on behind one that has found nothing: the last of them resumes where the
last but one has ended. -/
theorem waitForLoaded_lastPolls {a r : Nat} {log : List Line} (ha : a ≤ log.length)
    (h : getBootContent startStr endStr log a = (none, r)) (chunk : List Line)
    (chunks : List (List Line)) :
    ∃ prev more r', lastPolls startStr endStr a log chunk chunks = (prev, prev ++ more) ∧
      log.length ≤ prev.length ∧ getBootContent startStr endStr prev a = (none, r') ∧
      waitForLoaded startStr endStr r (log ++ chunk) chunks =
        (prev ++ more, getBootContent startStr endStr (prev ++ more) r') := by
  induction chunks generalizing log r chunk with
  | nil => exact ⟨log, chunk, r, rfl, Nat.le_refl _, h, rfl⟩
  | cons next chunks ih =>
      obtain ⟨hsome, hpos⟩ := getBootContent_resume_same ha h chunk
      cases hscan : getBootContent startStr endStr (log ++ chunk) r with
      | mk found q =>
          rw [hscan] at hsome hpos
          cases found with
          | some found =>
              refine ⟨log, chunk, r, ?_, Nat.le_refl _, h, ?_⟩
              · have hfinished : finished startStr endStr ((log ++ chunk).drop a) = true :=
                  hsome.symm
                rw [lastPolls, if_pos hfinished]
              · rw [waitForLoaded, hscan]
          | none =>
              have hfinished : finished startStr endStr ((log ++ chunk).drop a) = false :=
                hsome.symm
              have hgrown : a ≤ (log ++ chunk).length := ha.trans (by simp)
              obtain ⟨q', hq'⟩ := getBootContent_eq_none hfinished
              rw [hq'] at hpos
              obtain rfl : q = q' := hpos
              obtain ⟨prev, more, r', hlast, hlen, hprev, hwait⟩ := ih hgrown hq' next
              refine ⟨prev, more, r', ?_, ?_, hprev, ?_⟩
              · rw [lastPolls, hfinished]
                exact hlast
              · refine Nat.le_trans ?_ hlen
                simp
              · rw [waitForLoaded, hscan]
                exact hwait

/-- Polling a growing log returns what one scan of the log at the last poll returns, for
every start position and every schedule of polls, exactly if the schedule is resumable. -/
theorem polls_eq_scan_iff (startStr endStr : Line → Bool) (startPos : Int) (log : List Line)
    (chunks : List (List Line)) :
    (waitForLoaded startStr endStr startPos log chunks).2 =
        getBootContent startStr endStr (waitForLoaded startStr endStr startPos log chunks).1
          startPos ↔
      Resumable startStr endStr startPos.toNat log chunks := by
  have hclamp (log : List Line) : getBootContent startStr endStr log startPos =
      getBootContent startStr endStr log (startPos.toNat : Int) := by
    rw [getBootContent_eq, getBootContent_eq, Int.toNat_natCast]
  cases chunks with
  | nil => exact iff_of_true rfl trivial
  | cons chunk chunks =>
      rw [Resumable]
      cases hscan : getBootContent startStr endStr log startPos with
      | mk found r =>
          have hsome := @getBootContent_isSome Line startStr endStr log startPos
          rw [hscan] at hsome
          cases found with
          | some found =>
              refine iff_of_true ?_ (.inl hsome.symm)
              rw [waitForLoaded, hscan]
              exact hscan.symm
          | none =>
              have hunfinished : finished startStr endStr (log.drop startPos.toNat) = false :=
                hsome.symm
              -- A start position beyond the log is as good as its end.
              have hmin : getBootContent startStr endStr log
                  (min startPos.toNat log.length : Nat) = (none, r) := by
                by_cases hle : startPos.toNat ≤ log.length
                · rw [Nat.min_eq_left hle, ← hclamp, hscan]
                · have hge := Nat.le_of_not_le hle
                  have hall : getBootContent startStr endStr log (startPos.toNat : Int) =
                      (none, min startPos.toNat log.length) :=
                    getBootContent_no_start (by simp [List.drop_eq_nil_of_le hge])
                  rw [← hclamp, hscan] at hall
                  rw [Nat.min_eq_right hge] at hall ⊢
                  rw [hall]
                  simpa using @getBootContent_no_start Line startStr endStr log log.length (by simp)
              obtain ⟨prev, more, r', hlast, hlen, hprev, hwait⟩ :=
                waitForLoaded_lastPolls (Nat.min_le_right _ _) hmin chunk chunks
              have hrun : waitForLoaded startStr endStr startPos log (chunk :: chunks) =
                  (prev ++ more, getBootContent startStr endStr (prev ++ more) r') := by
                rw [waitForLoaded, hscan]
                exact hwait
              rw [hrun, hlast, hclamp, hunfinished]
              simpa using resume_eq_iff hlen hprev

/-- Lines of a log, as far as the patterns tell them apart. -/
inductive SlofLine where
  | slof
  | text
  | loaded
  deriving DecidableEq

/-- The machine starts twice before the first poll, and loads before the second. -/
theorem restart_between_polls_differs :
    let startStr := fun l : SlofLine => l == .slof
    let endStr := fun l : SlofLine => l == .loaded
    let log := [SlofLine.slof, .text, .slof]
    let run := waitForLoaded startStr endStr 0 log [[.loaded]]
    run = ([.slof, .text, .slof, .loaded], some [.slof, .loaded], 4) ∧
      run.2 ≠ getBootContent startStr endStr run.1 0 := by
  decide

end TpQemu.Slof
