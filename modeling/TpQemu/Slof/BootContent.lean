import Mathlib.Data.List.Basic
import Mathlib.Data.List.DropRight

/-!
# Scanning the serial log

`get_boot_content` and `wait_for_loaded` in `provider/slof.py`. The log is a list of lines;
the two regular expressions are predicates on lines. `wait_for_loaded` scans the log again
and again while it grows, each time from the position that the scan before has returned.

A scan keeps the lines from the first start line on, but the position it returns when it
finds no end is that of the last start line.
-/

namespace TpQemu.Slof

variable {Line : Type} (startStr endStr : Line → Bool)

/-- The loop of `get_boot_content`, from the line with number `pos` on. -/
def bootLoop (startPos : Int) :
    Nat → List Line → List Line → Nat → Option (List Line) × Nat
  | _, [], _, startStrPos => (none, startStrPos)
  | pos, line :: rest, content, startStrPos =>
      if startPos ≤ pos then
        if startStr line then bootLoop startPos (pos + 1) rest (content ++ [line]) pos
        else if content = [] then bootLoop startPos (pos + 1) rest content startStrPos
        else if endStr line then (some (content ++ [line]), pos + 1)
        else bootLoop startPos (pos + 1) rest (content ++ [line]) startStrPos
      else bootLoop startPos (pos + 1) rest content (pos + 1)

/-- `get_boot_content(vm, start_pos, start_str, end_str)` on a log. -/
def getBootContent (log : List Line) (startPos : Int) : Option (List Line) × Nat :=
  bootLoop startStr endStr startPos 0 log [] 0

/-- The loop of `wait_for_loaded`: the log at the first poll, and what is appended to it
before each of the polls for which there is time. The result is the log at the last poll
that is made, and what this poll returns. -/
def waitForLoaded (startPos : Int) (log : List Line) :
    List (List Line) → List Line × Option (List Line) × Nat
  | [] => (log, getBootContent startStr endStr log startPos)
  | chunk :: chunks =>
      match getBootContent startStr endStr log startPos with
      | (some content, pos) => (log, some content, pos)
      | (none, pos) => waitForLoaded pos (log ++ chunk) chunks

/-! ## One scan -/

/-- The loop behind the lines that are skipped. -/
def scanLoop : Nat → List Line → List Line → Nat → Option (List Line) × Nat
  | _, [], _, startStrPos => (none, startStrPos)
  | pos, line :: rest, content, startStrPos =>
      if startStr line then scanLoop (pos + 1) rest (content ++ [line]) pos
      else if content = [] then scanLoop (pos + 1) rest content startStrPos
      else if endStr line then (some (content ++ [line]), pos + 1)
      else scanLoop (pos + 1) rest (content ++ [line]) startStrPos

variable {startStr endStr}

theorem bootLoop_eq_scanLoop {startPos : Int} {pos : Nat} (h : startPos ≤ pos)
    (log content : List Line) (p : Nat) :
    bootLoop startStr endStr startPos pos log content p =
      scanLoop startStr endStr pos log content p := by
  induction log generalizing pos content p with
  | nil => rfl
  | cons line rest ih =>
      have hnext : startPos ≤ (pos + 1 : Nat) := by omega
      simp only [bootLoop, scanLoop, if_pos h, ih hnext]

/-- Skipped lines only count. -/
theorem bootLoop_skip (startPos : Int) (pos : Nat) (log : List Line) (h : pos ≤ startPos.toNat) :
    bootLoop startStr endStr startPos pos log [] pos =
      scanLoop startStr endStr (min startPos.toNat (pos + log.length))
        (log.drop (startPos.toNat - pos)) [] (min startPos.toNat (pos + log.length)) := by
  induction log generalizing pos with
  | nil => simp [bootLoop, scanLoop, h]
  | cons line rest ih =>
      by_cases hpos : startPos ≤ pos
      · have heq : startPos.toNat = pos := by omega
        rw [bootLoop_eq_scanLoop hpos, heq, Nat.sub_self, List.drop_zero,
          Nat.min_eq_left (Nat.le_add_right _ _)]
      · have hsub : startPos.toNat - pos = startPos.toNat - (pos + 1) + 1 := by omega
        have hlen : pos + (line :: rest).length = pos + 1 + rest.length := by
          simp only [List.length_cons]
          omega
        rw [bootLoop, if_neg hpos, ih (pos + 1) (by omega), hsub, List.drop_succ_cons, hlen]

theorem getBootContent_eq (log : List Line) (startPos : Int) :
    getBootContent startStr endStr log startPos =
      scanLoop startStr endStr (min startPos.toNat log.length) (log.drop startPos.toNat) []
        (min startPos.toNat log.length) := by
  simpa only [getBootContent, Nat.zero_add, Nat.sub_zero] using
    @bootLoop_skip Line startStr endStr startPos 0 log (Nat.zero_le _)

/-- The lines a scan holds behind some lines, unless it has returned. -/
def held (startStr : Line → Bool) (content lines : List Line) : List Line :=
  if content = [] then lines.dropWhile (fun l => !startStr l) else content ++ lines

theorem held_cons_start {line : Line} (h : startStr line = true) (content rest : List Line) :
    held startStr (content ++ [line]) rest = held startStr content (line :: rest) := by
  by_cases hc : content = [] <;> simp [held, hc, h]

/-- A scan that finds no end in some lines goes on behind them. -/
theorem scanLoop_append_none {pos : Nat} {lines content : List Line} {p q : Nat}
    (h : scanLoop startStr endStr pos lines content p = (none, q)) (more : List Line) :
    scanLoop startStr endStr pos (lines ++ more) content p =
      scanLoop startStr endStr (pos + lines.length) more (held startStr content lines) q := by
  induction lines generalizing pos content p with
  | nil =>
      obtain rfl : p = q := congrArg Prod.snd h
      by_cases hc : content = [] <;> simp [held, hc]
  | cons line rest ih =>
      have hlen : pos + (line :: rest).length = pos + 1 + rest.length := by
        simp only [List.length_cons]
        omega
      rw [scanLoop] at h
      rw [List.cons_append, scanLoop, hlen]
      by_cases hs : startStr line = true
      · rw [if_pos hs] at h
        rw [if_pos hs, ih h, held_cons_start hs]
      · rw [if_neg hs] at h
        rw [if_neg hs]
        by_cases hc : content = []
        · rw [if_pos hc] at h
          rw [if_pos hc, ih h]
          simp [held, hc, hs]
        · rw [if_neg hc] at h
          rw [if_neg hc]
          by_cases he : endStr line = true
          · rw [if_pos he] at h
            cases h
          · rw [if_neg he] at h
            rw [if_neg he, ih h]
            simp [held, hc]

/-- A scan that finds an end in some lines does not look at the others. -/
theorem scanLoop_append_some {pos : Nat} {lines content found : List Line} {p q : Nat}
    (h : scanLoop startStr endStr pos lines content p = (some found, q)) (more : List Line) :
    scanLoop startStr endStr pos (lines ++ more) content p = (some found, q) := by
  induction lines generalizing pos content p with
  | nil => cases h
  | cons line rest ih =>
      rw [scanLoop] at h
      rw [List.cons_append, scanLoop]
      split at h
      next hs => rw [if_pos hs, ih h]
      next hs =>
        rw [if_neg hs]
        split at h
        next hc => rw [if_pos hc, ih h]
        next hc =>
          rw [if_neg hc]
          split at h
          next he => rw [if_pos he, h]
          next he => rw [if_neg he, ih h]

/-- Lines held from before the scan stay in front of the others. -/
theorem scanLoop_prepend {content : List Line} (h : content ≠ []) (front : List Line) (pos : Nat)
    (lines : List Line) (p : Nat) :
    scanLoop startStr endStr pos lines (front ++ content) p =
      ((scanLoop startStr endStr pos lines content p).1.map (front ++ ·),
        (scanLoop startStr endStr pos lines content p).2) := by
  induction lines generalizing content pos p with
  | nil => rfl
  | cons line rest ih =>
      have hne : front ++ content ≠ [] := fun hnil => h (List.append_eq_nil_iff.mp hnil).2
      have hnext : content ++ [line] ≠ [] := List.append_ne_nil_of_right_ne_nil _ (by simp)
      simp only [scanLoop, if_neg hne, if_neg h, List.append_assoc]
      split
      · exact ih hnext (pos + 1) pos
      · split
        · simp
        · exact ih hnext (pos + 1) p

/-- Lines in front of the first start line are passed over. -/
theorem scanLoop_skip {lines : List Line} (h : ∀ l ∈ lines, startStr l = false) (pos : Nat)
    (more : List Line) (p : Nat) :
    scanLoop startStr endStr pos (lines ++ more) [] p =
      scanLoop startStr endStr (pos + lines.length) more [] p := by
  induction lines generalizing pos with
  | nil => rfl
  | cons line rest ih =>
      have hline : ¬startStr line = true := by simp [h line List.mem_cons_self]
      have hrest := ih (fun l hl => h l (List.mem_cons_of_mem _ hl)) (pos + 1)
      rw [List.cons_append, scanLoop, if_neg hline, if_pos rfl, hrest, List.length_cons]
      congr 1
      omega

theorem scanLoop_start {line : Line} (h : startStr line = true) (pos : Nat) (rest : List Line)
    (p : Nat) :
    scanLoop startStr endStr pos (line :: rest) [] p =
      scanLoop startStr endStr (pos + 1) rest [line] pos := by
  rw [scanLoop, if_pos h]
  rfl

/-- The position a scan falls back to does not matter once there is a start line. -/
theorem scanLoop_of_start {lines : List Line} (h : ∃ l ∈ lines, startStr l = true)
    (pos p p' : Nat) :
    scanLoop startStr endStr pos lines [] p = scanLoop startStr endStr pos lines [] p' := by
  induction lines generalizing pos with
  | nil => simp at h
  | cons line rest ih =>
      by_cases hs : startStr line = true
      · rw [scanLoop_start hs, scanLoop_start hs]
      · have hrest := ((List.exists_mem_cons_iff ..).mp h).resolve_left hs
        rw [scanLoop, scanLoop, if_neg hs, if_pos rfl, if_neg hs, if_pos rfl, ih hrest]

/-- The number of the last start line, if there is one. -/
def lastStart (startStr : Line → Bool) : Nat → List Line → Nat → Nat
  | _, [], p => p
  | pos, line :: rest, p => lastStart startStr (pos + 1) rest (if startStr line then pos else p)

/-- The position of a scan without an end is that of the last start line. -/
theorem scanLoop_none_pos {pos : Nat} {lines content : List Line} {p q : Nat}
    (h : scanLoop startStr endStr pos lines content p = (none, q)) :
    q = lastStart startStr pos lines p := by
  induction lines generalizing pos content p with
  | nil => exact (congrArg Prod.snd h).symm
  | cons line rest ih =>
      rw [scanLoop] at h
      rw [lastStart]
      split at h
      next hs => rw [if_pos hs, ih h]
      next hs =>
        rw [if_neg hs]
        split at h
        next => exact ih h
        next =>
          split at h
          next => cases h
          next => exact ih h

theorem lastStart_of_none {lines : List Line} (h : ∀ l ∈ lines, startStr l = false)
    (pos p : Nat) : lastStart startStr pos lines p = p := by
  induction lines generalizing pos with
  | nil => rfl
  | cons line rest ih =>
      rw [lastStart, h line List.mem_cons_self]
      exact ih (fun l hl => h l (List.mem_cons_of_mem _ hl)) (pos + 1)

theorem lastStart_append (pos : Nat) (lines more : List Line) (p : Nat) :
    lastStart startStr pos (lines ++ more) p =
      lastStart startStr (pos + lines.length) more (lastStart startStr pos lines p) := by
  induction lines generalizing pos p with
  | nil => rfl
  | cons line rest ih =>
      rw [List.cons_append, lastStart, lastStart, ih, List.length_cons]
      congr 1
      omega

/-- Lines with a start line in them are cut in front of the last one. -/
theorem exists_last_start {lines : List Line} (h : ∃ l ∈ lines, startStr l = true) :
    ∃ front line back, lines = front ++ line :: back ∧ startStr line = true ∧
      (∀ l ∈ back, startStr l = false) ∧
        ∀ pos p, lastStart startStr pos lines p = pos + front.length := by
  induction lines with
  | nil => simp at h
  | cons first rest ih =>
      by_cases hrest : ∃ l ∈ rest, startStr l = true
      · obtain ⟨front, line, back, rfl, hline, hback, hlast⟩ := ih hrest
        refine ⟨first :: front, line, back, rfl, hline, hback, fun pos p => ?_⟩
        rw [lastStart, hlast, List.length_cons]
        omega
      · have hnone : ∀ l ∈ rest, startStr l = false := by simpa using hrest
        have hfirst : startStr first = true :=
          ((List.exists_mem_cons_iff ..).mp h).resolve_right hrest
        refine ⟨[], first, rest, rfl, hfirst, hnone, fun pos p => ?_⟩
        rw [lastStart, if_pos hfirst, lastStart_of_none hnone]
        rfl

/-- The content of a scan starts with its first start line. -/
theorem scanLoop_some_pos {pos : Nat} {lines content found : List Line} {p q : Nat}
    (h : scanLoop startStr endStr pos lines content p = (some found, q)) :
    q + content.length =
      pos + (if content = [] then (lines.takeWhile (fun l => !startStr l)).length else 0) +
        found.length := by
  induction lines generalizing pos content p with
  | nil => cases h
  | cons line rest ih =>
      rw [scanLoop] at h
      by_cases hs : startStr line = true
      · rw [if_pos hs] at h
        have hrest := ih h
        by_cases hc : content = []
        · simp [hc, hs] at hrest ⊢
          omega
        · simp [hc] at hrest ⊢
          omega
      · rw [if_neg hs] at h
        by_cases hc : content = []
        · rw [if_pos hc] at h
          have hrest := ih h
          simp [hc, hs] at hrest ⊢
          omega
        · rw [if_neg hc] at h
          by_cases he : endStr line = true
          · rw [if_pos he] at h
            cases h
            simp [hc]
            omega
          · rw [if_neg he] at h
            have hrest := ih h
            simp [hc] at hrest ⊢
            omega

/-- Some lines hold a whole boot: a start line, and behind it an end line that is no start
line. -/
def finished (startStr endStr : Line → Bool) (lines : List Line) : Bool :=
  (lines.dropWhile (fun l => !startStr l)).any fun l => endStr l && !startStr l

theorem finished_append_right {lines more : List Line} (h : finished startStr endStr more = true) :
    finished startStr endStr (lines ++ more) = true := by
  have hsub : more.dropWhile (fun l => !startStr l) ⊆
      (lines ++ more).dropWhile (fun l => !startStr l) := by
    rw [List.dropWhile_append]
    split
    · exact List.Subset.refl _
    · exact List.Subset.trans (List.dropWhile_suffix _).subset (List.subset_append_right _ _)
  rw [finished, List.any_eq_true] at h ⊢
  obtain ⟨l, hl, he⟩ := h
  exact ⟨l, hsub hl, he⟩

/-- A finished boot has a start line. -/
theorem exists_start_of_finished {lines : List Line}
    (h : finished startStr endStr lines = true) : ∃ l ∈ lines, startStr l = true := by
  by_contra hnone
  have hnil : lines.dropWhile (fun l => !startStr l) = [] := by
    simpa [List.dropWhile_eq_nil_iff] using hnone
  rw [finished, hnil] at h
  cases h

theorem scanLoop_isSome (pos : Nat) (lines content : List Line) (p : Nat) :
    (scanLoop startStr endStr pos lines content p).1.isSome =
      (held startStr content lines |>.drop content.length).any
        fun l => endStr l && !startStr l := by
  induction lines generalizing pos content p with
  | nil => by_cases hc : content = [] <;> simp [scanLoop, held, hc]
  | cons line rest ih =>
      rw [scanLoop]
      by_cases hs : startStr line = true
      · rw [if_pos hs, ih]
        by_cases hc : content = [] <;> simp [held, hc, hs]
      · by_cases hc : content = []
        · rw [if_neg hs, if_pos hc, ih]
          simp [held, hc, hs]
        · rw [if_neg hs, if_neg hc]
          by_cases he : endStr line = true
          · simp [held, hc, hs, he]
          · rw [if_neg he, ih]
            simp [held, hc, he]

theorem getBootContent_isSome (log : List Line) (startPos : Int) :
    (getBootContent startStr endStr log startPos).1.isSome =
      finished startStr endStr (log.drop startPos.toNat) := by
  rw [getBootContent_eq, scanLoop_isSome]
  simp [held, finished]

end TpQemu.Slof
