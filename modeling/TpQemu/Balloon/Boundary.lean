import TpQemu.Lib.Double

/-!
# Targets of ballooning

`get_memory_boundary` and the loop over the test tags in `qemu/tests/balloon_check.py`. The lower
bound for a guest is derived from its original memory, also when some of it is ballooned already.
Memory is in MB.
-/

namespace TpQemu.Balloon

open Double

inductive BalloonType where
  | evict
  | enlarge
  | other
  deriving DecidableEq

structure Config where
  oriMem : Int
  minmem : Int
  balloonBuffer : Int

/-- What the guest reports: its free memory, or on Windows the memory left when it is ballooned to
the minimum, and the memory after it got all of it back. -/
inductive Readings where
  | linux (vmMemFree : Int)
  | windows (least restored : Int)

section Definitions

variable (c : Config)

def usedSize : Readings → Int
  | .linux vmMemFree => min (c.oriMem - vmMemFree + c.balloonBuffer) c.oriMem
  | .windows least _ => min (least + c.balloonBuffer) c.oriMem

/-- The ballooned memory when the boundary is taken. -/
def currentMem (ballooned : Int) : Readings → Int
  | .linux _ => ballooned
  | .windows _ restored => restored

/-- `get_memory_boundary` -/
def getMemoryBoundary (ballooned : Int) (readings : Readings) (balloonType : BalloonType) :
    Int × Int :=
  let current := currentMem ballooned readings
  let minSize := if balloonType = .enlarge then current else c.minmem
  let maxSize := if balloonType = .evict then current else c.oriMem
  (max (usedSize c readings) minSize, maxSize)

/-- `random.uniform(a, b)`, for a draw between 0 and 1. -/
def uniform (a b : Int) (draw : Set.Icc (0 : ℚ) 1) : ℚ := a + (b - a) * draw

/-- How a test tag says what memory is expected. -/
inductive Tag where
  | expectMemory (mem : Int)
  | expectMemoryRatio (ratio : ℚ)
  | illegalValue (extra : ℚ)
  | balloon (balloonType : BalloonType) (readings : Readings) (draw : Set.Icc (0 : ℚ) 1)
      (minimumValueCheck : Bool)

/-- The choice of `expect_mem` in `run`. -/
def expectMem (ballooned : Int) : Tag → Int
  | .expectMemory mem => mem
  | .expectMemoryRatio ratio => truncate (c.oriMem * ratio)
  | .illegalValue extra => truncate (c.oriMem + extra)
  | .balloon balloonType readings draw minimumValueCheck =>
      let (minSz, maxSz) := getMemoryBoundary c ballooned readings balloonType
      if minimumValueCheck then minSz else truncate (uniform minSz maxSz draw)

/-- A test tag, with the memory that the guest ends at if the target is 100 MB or less, and whether
a sub test starts the guest again. -/
structure Step where
  tag : Tag
  settled : Int
  restarted : Bool

/-- The memory that `balloon_memory` waits for. -/
def balloonMemory (ballooned : Int) (s : Step) : Int :=
  let newMem := expectMem c ballooned s.tag
  if c.oriMem < newMem then c.oriMem
  else if newMem = 0 then ballooned
  else if newMem ≤ 100 then s.settled
  else newMem

/-- The ballooned memory after `run_ballooning_test`. -/
def runBallooningTest (ballooned : Int) (s : Step) : Int :=
  if s.restarted then c.oriMem else balloonMemory c ballooned s

/-- The steps of a run, each with the memory before it. -/
def trace : Int → List Step → List (Int × Step)
  | _, [] => []
  | ballooned, s :: steps => (ballooned, s) :: trace (runBallooningTest c ballooned s) steps

end Definitions

/-! ## The requested way -/

section Way

variable (c : Config)

/-- The boundary is an interval on the requested side of the current memory. -/
def Bounded (ballooned : Int) (readings : Readings) : BalloonType → Prop
  | .evict =>
      let (minSz, maxSz) := getMemoryBoundary c ballooned readings .evict
      minSz ≤ maxSz ∧ c.minmem ≤ minSz ∧ maxSz ≤ ballooned
  | .enlarge =>
      let (minSz, maxSz) := getMemoryBoundary c ballooned readings .enlarge
      minSz ≤ maxSz ∧ ballooned ≤ minSz ∧ maxSz ≤ c.oriMem
  | .other => True

/-- Ballooning changes the memory in the requested direction, if at all. -/
def RightWay (ballooned : Int) (s : Step) : Prop :=
  match s.tag with
  | .balloon .evict _ _ _ => balloonMemory c ballooned s ≤ ballooned
  | .balloon .enlarge _ _ _ => ballooned ≤ balloonMemory c ballooned s
  | _ => True

/-- What a Linux guest may do: it is not below the minimum when it is ballooned, and with a small
target it settles between the target and the memory it had. -/
def Possible (ballooned : Int) (s : Step) : Prop :=
  (expectMem c ballooned s.tag ≤ 100 →
      s.settled ∈ Set.uIcc (expectMem c ballooned s.tag) ballooned) ∧
    match s.tag with
    | .balloon _ (.linux _) _ _ => c.minmem ≤ ballooned
    | .balloon _ (.windows _ _) _ _ => False
    | _ => True

/-- The guest has all of its memory, or what is not free, the ballooned part and the buffer
included, is not more than the current memory. -/
def EnoughLeft (ballooned free : Int) : Prop :=
  ballooned = c.oriMem ∨ c.oriMem - free + c.balloonBuffer ≤ ballooned

/-- Memory is evicted only if there is enough of it. -/
def Fits (ballooned : Int) : Tag → Prop
  | .balloon .evict (.linux free) _ _ => EnoughLeft c ballooned free
  | _ => True

variable {c} {ballooned free : Int}

theorem bounded_enlarge (hori : ballooned ≤ c.oriMem) (free : Int) :
    Bounded c ballooned (.linux free) .enlarge := by
  simp only [Bounded, getMemoryBoundary, usedSize, currentMem, reduceCtorEq, if_true, if_false]
  omega

theorem bounded_evict_iff (hori : ballooned ≤ c.oriMem) (hmin : c.minmem ≤ ballooned) :
    Bounded c ballooned (.linux free) .evict ↔ EnoughLeft c ballooned free := by
  simp only [Bounded, EnoughLeft, getMemoryBoundary, usedSize, currentMem, reduceCtorEq, if_true,
    if_false]
  omega

theorem uniform_mem {a b : Int} (h : a ≤ b) (draw : Set.Icc (0 : ℚ) 1) :
    uniform a b draw ∈ Set.Icc (a : ℚ) b := by
  have hwidth : (0 : ℚ) ≤ b - a := sub_nonneg.mpr (by exact_mod_cast h)
  have hlow := mul_nonneg hwidth draw.2.1
  have hhigh := mul_le_mul_of_nonneg_left draw.2.2 hwidth
  rw [uniform]
  constructor
  · linarith
  · linarith

/-- A boundary that is an interval has the target in it. -/
theorem expectMem_mem {readings : Readings} {balloonType : BalloonType} {minSz maxSz : Int}
    (hboundary : getMemoryBoundary c ballooned readings balloonType = (minSz, maxSz))
    (h : minSz ≤ maxSz) (draw : Set.Icc (0 : ℚ) 1) (minimumValueCheck : Bool) :
    minSz ≤ expectMem c ballooned (.balloon balloonType readings draw minimumValueCheck) ∧
      expectMem c ballooned (.balloon balloonType readings draw minimumValueCheck) ≤ maxSz := by
  obtain ⟨hlow, hhigh⟩ := uniform_mem h draw
  simp only [expectMem, hboundary]
  split_ifs with hcheck
  · exact ⟨le_rfl, h⟩
  · exact ⟨le_truncate hlow, truncate_le hhigh⟩

/-- The memory stays between the target and the memory before, or is all of it. -/
theorem balloonMemory_le {s : Step} (hori : ballooned ≤ c.oriMem) (h : Possible c ballooned s) :
    balloonMemory c ballooned s ≤ c.oriMem := by
  simp only [balloonMemory]
  split_ifs with hlarge hzero hsmall
  · exact le_rfl
  · exact hori
  · exact (h.1 hsmall).2.trans (max_le (not_lt.mp hlarge) hori)
  · exact not_lt.mp hlarge

theorem balloonMemory_le_of_expectMem_le {s : Step} (h : Possible c ballooned s)
    (hmem : expectMem c ballooned s.tag ≤ ballooned) : balloonMemory c ballooned s ≤ ballooned := by
  simp only [balloonMemory]
  split_ifs with hlarge hzero hsmall
  · exact hlarge.le.trans hmem
  · exact le_rfl
  · exact (h.1 hsmall).2.trans (max_le hmem le_rfl)
  · exact hmem

theorem le_balloonMemory_of_le_expectMem {s : Step} (hori : ballooned ≤ c.oriMem)
    (h : Possible c ballooned s) (hmem : ballooned ≤ expectMem c ballooned s.tag) :
    ballooned ≤ balloonMemory c ballooned s := by
  simp only [balloonMemory]
  split_ifs with hlarge hzero hsmall
  · exact hori
  · exact le_rfl
  · exact (le_min hmem le_rfl).trans (h.1 hsmall).1
  · exact hmem

/-- One step. -/
theorem rightWay_of_fits {s : Step} (hori : ballooned ≤ c.oriMem) (h : Possible c ballooned s)
    (hfits : Fits c ballooned s.tag) : RightWay c ballooned s := by
  obtain ⟨tag, settled, restarted⟩ := s
  have hguest := h.2
  cases tag with
  | expectMemory mem => trivial
  | expectMemoryRatio ratio => trivial
  | illegalValue extra => trivial
  | balloon balloonType readings draw minimumValueCheck =>
      cases readings with
      | windows least restored => exact hguest.elim
      | linux free =>
          cases balloonType with
          | other => trivial
          | evict =>
              obtain ⟨hle, -, hhigh⟩ := (bounded_evict_iff hori hguest).mpr hfits
              have hmem := expectMem_mem rfl hle draw minimumValueCheck
              exact balloonMemory_le_of_expectMem_le h (hmem.2.trans hhigh)
          | enlarge =>
              obtain ⟨hle, hlow, -⟩ := bounded_enlarge hori free
              have hmem := expectMem_mem rfl hle draw minimumValueCheck
              exact le_balloonMemory_of_le_expectMem hori h (hlow.trans hmem.1)

/-- A run. The memory is never above the original memory. -/
theorem rightWay_of_mem_trace {steps : List Step} (hori : ballooned ≤ c.oriMem)
    (h : ∀ p ∈ trace c ballooned steps, Possible c p.1 p.2 ∧ Fits c p.1 p.2.tag) :
    ∀ p ∈ trace c ballooned steps, RightWay c p.1 p.2 := by
  induction steps generalizing ballooned with
  | nil => exact List.forall_mem_nil _
  | cons s steps ih =>
      rw [trace, List.forall_mem_cons] at h
      obtain ⟨⟨hpossible, hfits⟩, hrest⟩ := h
      rw [trace, List.forall_mem_cons]
      refine ⟨rightWay_of_fits hori hpossible hfits, ih ?_ hrest⟩
      rw [runBallooningTest]
      split_ifs with hrestarted
      · exact le_rfl
      · exact balloonMemory_le hori hpossible

end Way

section Results

variable (c : Config)

/-- The boundary is an interval the requested way exactly if there is enough memory to evict, and
a run in which there always is never goes the other way. -/
theorem bounded_iff_enoughLeft :
    (∀ ballooned free : Int, ballooned ≤ c.oriMem → c.minmem ≤ ballooned →
      Bounded c ballooned (.linux free) .enlarge ∧
        (Bounded c ballooned (.linux free) .evict ↔ EnoughLeft c ballooned free)) ∧
      ∀ steps : List Step,
        (∀ p ∈ trace c c.oriMem steps, Possible c p.1 p.2 ∧ Fits c p.1 p.2.tag) →
          ∀ p ∈ trace c c.oriMem steps, RightWay c p.1 p.2 :=
  ⟨fun _ _ hori hmin => ⟨bounded_enlarge hori _, bounded_evict_iff hori hmin⟩,
    fun _ h => rightWay_of_mem_trace le_rfl h⟩

/-- A guest of 4096 MB with the default minimum and buffer. -/
def guest : Config := { oriMem := 4096, minmem := 512, balloonBuffer := 300 }

/-- A step to the lower bound. -/
def toLowest (balloonType : BalloonType) (free : Int) : Step :=
  { tag := .balloon balloonType (.linux free) ⟨0, le_rfl, zero_le_one⟩ true, settled := 4096,
    restarted := false }

theorem bounded_iff_enoughLeft_guest :
    Bounded guest 4096 (.linux 3000) .enlarge ∧
      (Bounded guest 4096 (.linux 3000) .evict ↔ EnoughLeft guest 4096 3000) ∧
      ∀ p ∈ trace guest 4096 [toLowest .evict 3000, toLowest .enlarge 1000, toLowest .evict 2500],
        RightWay guest p.1 p.2 := by
  obtain ⟨hbounded, hruns⟩ := bounded_iff_enoughLeft guest
  obtain ⟨henlarge, hevict⟩ := hbounded 4096 3000 (by decide) (by decide)
  refine ⟨henlarge, hevict, hruns _ ?_⟩
  simp only [trace, List.forall_mem_cons]
  refine ⟨⟨⟨fun h => absurd h (by decide), ?_⟩, .inl rfl⟩,
    ⟨⟨fun h => absurd h (by decide), ?_⟩, trivial⟩,
    ⟨⟨fun h => absurd h (by decide), ?_⟩, .inr (by decide)⟩, List.forall_mem_nil _⟩
  · exact (by decide : (512 : Int) ≤ 4096)
  · exact (by decide : (512 : Int) ≤ 1396)
  · exact (by decide : (512 : Int) ≤ 3396)

/-- With half of its memory ballooned and 1500 MB of the other half free, the lower bound is above
the current memory, and the guest that should give memory gets some. -/
theorem evict_raises :
    (1500 : Int) ≤ 2048 ∧ 2048 ≤ guest.oriMem ∧ guest.minmem ≤ 2048 ∧
      getMemoryBoundary guest 2048 (.linux 1500) .evict = (2896, 2048) ∧
      ¬ Bounded guest 2048 (.linux 1500) .evict ∧
      balloonMemory guest 2048 (toLowest .evict 1500) = 2896 ∧
      ¬ RightWay guest 2048 (toLowest .evict 1500) := by
  refine ⟨by decide, by decide, by decide, by decide, ?_, by decide, ?_⟩
  · intro h
    exact absurd h.1 (by decide)
  · intro h
    exact absurd h (by decide : ¬ (2896 : Int) ≤ 2048)

end Results

end TpQemu.Balloon
