import TpQemu.Lib.Dict
import TpQemu.Lib.Numeral
import TpQemu.Lib.Quotient

/-!
# The results expected of a throttle group

`ThrottleTester.build_default_option` in `provider/throttle_utils.py`. For each kind of request
the limits of the group give a normal rate and a burst rate in operations, and the bursts of all
kinds together a time for the run and a time to wait after it. Quotients are floating point
numbers, of which the integer part is taken.
-/

namespace TpQemu.Throttle

open Double

/-! ## The properties of a group -/

/-- The limits for one kind of request. -/
structure Buckets where
  bps : Nat
  bpsMax : Nat
  bpsMaxLength : Nat
  iops : Nat
  iopsMax : Nat
  iopsMaxLength : Nat

inductive IopsType where
  | read
  | write
  | total
  deriving DecidableEq

def IopsType.name : IopsType → String
  | .read => "read"
  | .write => "write"
  | .total => "total"

/-- The properties that `get_throttle_group_props` reads from QEMU. -/
structure Attrs where
  iopsSize : Nat
  read : Buckets
  write : Buckets
  total : Buckets

def Attrs.buckets (attrs : Attrs) : IopsType → Buckets
  | .read => attrs.read
  | .write => attrs.write
  | .total => attrs.total

/-- The size of an operation. -/
def Attrs.size (attrs : Attrs) : Nat := if attrs.iopsSize = 0 then 4096 else attrs.iopsSize

/-! ## The expected results -/

inductive Entry where
  | table (t : Dict String Int)
  | value (n : Int)

abbrev Expected := Dict String Entry

/-- `raw_expected`, with other numbers. -/
def expectedOf (normal burst : IopsType → Int) (burstTime burstEmptyTime : Int) : Expected where
  entries := [
    ("burst", .table ⟨[("read", burst .read), ("write", burst .write), ("total", burst .total),
      ("burst_time", burstTime), ("burst_empty_time", burstEmptyTime)], by simp⟩),
    ("normal", .table ⟨[("read", normal .read), ("write", normal .write),
      ("total", normal .total)], by simp⟩)]
  nodup := by simp

def rawExpected : Expected := expectedOf (fun _ => 0) (fun _ => 0) 0 0

/-- One round of the loop of `set_throttle_expected`. -/
def setEntry (current : Expected) (p : String × Entry) : Except PyError Expected :=
  match p.2 with
  | .value n => .ok (current.set p.1 (.value n))
  | .table t =>
      match current.get? p.1 with
      | some (.table old) => .ok (current.set p.1 (.table (old.update t)))
      | some (.value _) => .error .attributeError
      | none => .error .keyError

/-- `set_throttle_expected` -/
def setThrottleExpected (current : Expected) (expected : Option Expected) (reset : Bool) :
    Except PyError Expected :=
  let current := if reset then rawExpected else current
  match expected with
  | none => .ok current
  | some expected => expected.entries.foldlM setEntry current

/-- The number at a key of a table. -/
def recorded (expected : Expected) (key name : String) : Option Int :=
  match expected.get? key with
  | some (.table t) => t.get? name
  | _ => none

/-! ## The rates -/

/-- `int(n / iops_size)` -/
def wholeOperations (n size : Nat) : Except PyError Int := truncate <$> trueDiv n size

/-- The normal rate of `_count_normal_iops`. -/
def normalIops (size : Nat) (b : Buckets) : Except PyError Int :=
  if b.iops ≠ 0 ∨ b.bps ≠ 0 then do
    let bps ← wholeOperations b.bps size
    let iops : Int := b.iops
    return if (iops ≥ bps ∧ bps ≠ 0) ∨ iops = 0 then bps
      else if (bps ≥ iops ∧ iops ≠ 0) ∨ bps = 0 then iops
      else 0
  else return 0

/-- The volume of the burst and its rate, from one of the two limits. -/
def burstLimit (size : Nat) (b : Buckets) : Except PyError (Int × Int) := do
  let bps ← wholeOperations (b.bpsMax * b.bpsMaxLength) size
  let iops : Int := (b.iopsMax * b.iopsMaxLength : Nat)
  if (iops ≥ bps ∧ bps ≠ 0) ∨ iops = 0 then
    let burstIops ← wholeOperations b.bpsMax size
    return (bps, burstIops)
  else if (bps ≥ iops ∧ iops ≠ 0) ∨ bps = 0 then return (iops, b.iopsMax)
  else return (0, 0)

/-- What `_count_burst_iops` returns: the burst rate and the two times, for the normal rate and
the times so far. -/
def burstIops (size : Nat) (b : Buckets) (normalIops burstEmptyTime burstTime : Int) :
    Except PyError (Int × Int × Int) :=
  if b.iopsMax ≠ 0 ∨ b.bpsMax ≠ 0 then do
    let (burstFull, burstIops) ← burstLimit size b
    let emptyTime ← trueDiv burstFull normalIops
    let fullTime ← trueDiv burstFull (burstIops - normalIops)
    return (burstIops, ⌈max emptyTime burstEmptyTime⌉, truncate (max fullTime burstTime))
  else return (0, burstEmptyTime, burstTime)

/-- A dictionary with one entry. -/
def single {ν : Type} (k : String) (v : ν) : Dict String ν := Dict.empty.set k v

/-- `_count_normal_iops` -/
def countNormalIops (attrs : Attrs) (iopsType : IopsType) (expected : Expected) :
    Except PyError (Int × Expected) := do
  let normal ← normalIops attrs.size (attrs.buckets iopsType)
  let expected ← setThrottleExpected expected
    (some (single "normal" (.table (single iopsType.name normal)))) false
  return (normal, expected)

/-- `_count_burst_iops` -/
def countBurstIops (attrs : Attrs) (iopsType : IopsType) (normal burstEmptyTime burstTime : Int)
    (expected : Expected) : Except PyError ((Int × Int × Int) × Expected) := do
  let (burst, emptyTime, fullTime) ←
    burstIops attrs.size (attrs.buckets iopsType) normal burstEmptyTime burstTime
  let expected ← setThrottleExpected expected
    (some (single "burst" (.table (single iopsType.name burst)))) false
  return ((burst, emptyTime, fullTime), expected)

/-! ## The option -/

/-- What the tester keeps. -/
structure Tester where
  expected : Expected
  fioOption : String

def rwMode (normalReadIops normalWriteIops normalTotalIops : Int) : String :=
  if (normalReadIops ≠ 0 ∧ normalWriteIops ≠ 0) ∨ normalTotalIops ≠ 0 then "randrw"
  else if normalReadIops ≠ 0 then "randread"
  else if normalWriteIops ≠ 0 then "randwrite"
  else "randrw"

/-- The part that counts the normal properties. -/
def countNormals (attrs : Attrs) (expected : Expected) :
    Except PyError ((IopsType → Int) × Expected) := do
  let (normalWriteIops, expected) ← countNormalIops attrs .write expected
  let (normalReadIops, expected) ← countNormalIops attrs .read expected
  let (normalTotalIops, expected) ← countNormalIops attrs .total expected
  return (fun
    | .read => normalReadIops
    | .write => normalWriteIops
    | .total => normalTotalIops, expected)

/-- The part that counts the burst properties; gives the two times. -/
def countBursts (attrs : Attrs) (normal : IopsType → Int) (expected : Expected) :
    Except PyError ((Int × Int) × Expected) := do
  let ((_, burstEmptyTime, burstTime), expected) ←
    countBurstIops attrs .write (normal .write) 0 0 expected
  let ((_, burstEmptyTime, burstTime), expected) ←
    countBurstIops attrs .read (normal .read) burstEmptyTime burstTime expected
  let ((_, burstEmptyTime, burstTime), expected) ←
    countBurstIops attrs .total (normal .total) burstEmptyTime burstTime expected
  return ((burstEmptyTime, burstTime), expected)

/-- The times are recorded if there is a burst. -/
def recordTimes (burstEmptyTime burstTime : Int) (expected : Expected) : Except PyError Expected :=
  if burstTime ≠ 0 then
    setThrottleExpected expected (some (single "burst" (.table
      ((single "burst_time" burstTime).set "burst_empty_time" burstEmptyTime)))) false
  else .ok expected

/-- `build_default_option`, with the parameter `throttle_runtime`. -/
def buildDefaultOption (attrs : Attrs) (throttleRuntime : Option String) (tester : Tester) :
    Except PyError Tester := do
  let option := "--direct=1 --name=test --iodepth=1 --thread" ++ "  --output-format=json "
  let expected ← setThrottleExpected tester.expected none true
  let (normal, expected) ← countNormals attrs expected
  let ((burstEmptyTime, burstTime), expected) ← countBursts attrs normal expected
  let runtime := if burstTime ≠ 0 then Numeral.decimal burstTime else throttleRuntime.getD "60"
  let expected ← recordTimes burstEmptyTime burstTime expected
  let mode := rwMode (normal .read) (normal .write) (normal .total)
  return ⟨expected, option ++ " --rw=" ++ mode ++ " --bs=" ++ Numeral.decimal attrs.size ++
    " --runtime=" ++ runtime⟩

/-! ## What is recorded -/

section Recorded

variable {normal burst : IopsType → Int} {burstTime burstEmptyTime : Int}

theorem setThrottleExpected_normal (iopsType : IopsType) (v : Int) :
    setThrottleExpected (expectedOf normal burst burstTime burstEmptyTime)
        (some (single "normal" (.table (single iopsType.name v)))) false =
      .ok (expectedOf (Function.update normal iopsType v) burst burstTime burstEmptyTime) := by
  cases iopsType <;> rfl

theorem setThrottleExpected_burst (iopsType : IopsType) (v : Int) :
    setThrottleExpected (expectedOf normal burst burstTime burstEmptyTime)
        (some (single "burst" (.table (single iopsType.name v)))) false =
      .ok (expectedOf normal (Function.update burst iopsType v) burstTime burstEmptyTime) := by
  cases iopsType <;> rfl

theorem setThrottleExpected_times (time emptyTime : Int) :
    setThrottleExpected (expectedOf normal burst burstTime burstEmptyTime)
        (some (single "burst" (.table
          ((single "burst_time" time).set "burst_empty_time" emptyTime)))) false =
      .ok (expectedOf normal burst time emptyTime) := rfl

@[simp] theorem recorded_normal (iopsType : IopsType) :
    recorded (expectedOf normal burst burstTime burstEmptyTime) "normal" iopsType.name =
      some (normal iopsType) := by
  cases iopsType <;> rfl

@[simp] theorem recorded_burst (iopsType : IopsType) :
    recorded (expectedOf normal burst burstTime burstEmptyTime) "burst" iopsType.name =
      some (burst iopsType) := by
  cases iopsType <;> rfl

@[simp] theorem recorded_burstTime :
    recorded (expectedOf normal burst burstTime burstEmptyTime) "burst" "burst_time" =
      some burstTime := rfl

@[simp] theorem recorded_burstEmptyTime :
    recorded (expectedOf normal burst burstTime burstEmptyTime) "burst" "burst_empty_time" =
      some burstEmptyTime := rfl

end Recorded

/-- The rates and the times of a run: the kinds of requests are taken one after the other. -/
structure Counted (attrs : Attrs) (normal burst : IopsType → Int) (emptyTime time : Int) :
    Prop where
  normal_eq : ∀ iopsType, normalIops attrs.size (attrs.buckets iopsType) = .ok (normal iopsType)
  burst_eq : ∃ e₁ f₁ e₂ f₂,
    burstIops attrs.size attrs.write (normal .write) 0 0 = .ok (burst .write, e₁, f₁) ∧
    burstIops attrs.size attrs.read (normal .read) e₁ f₁ = .ok (burst .read, e₂, f₂) ∧
    burstIops attrs.size attrs.total (normal .total) e₂ f₂ = .ok (burst .total, emptyTime, time)

theorem countNormalIops_eq_ok_iff {attrs : Attrs} {iopsType : IopsType}
    {normal burst : IopsType → Int} {time emptyTime v : Int} {expected : Expected} :
    countNormalIops attrs iopsType (expectedOf normal burst time emptyTime) = .ok (v, expected) ↔
      normalIops attrs.size (attrs.buckets iopsType) = .ok v ∧
        expectedOf (Function.update normal iopsType v) burst time emptyTime = expected := by
  rw [countNormalIops]
  cases normalIops attrs.size (attrs.buckets iopsType) with
  | error e => simp [bind, Except.bind]
  | ok w =>
      rw [bind_of_eq_ok rfl, setThrottleExpected_normal, bind_of_eq_ok rfl]
      simp only [pure, Except.pure, Except.ok.injEq, Prod.mk.injEq]
      constructor
      · rintro ⟨rfl, h⟩
        exact ⟨rfl, h⟩
      · rintro ⟨rfl, h⟩
        exact ⟨rfl, h⟩

theorem countBurstIops_eq_ok_iff {attrs : Attrs} {iopsType : IopsType}
    {normal burst : IopsType → Int} {time emptyTime n e f : Int} {r : Int × Int × Int}
    {expected : Expected} :
    countBurstIops attrs iopsType n e f (expectedOf normal burst time emptyTime) =
        .ok (r, expected) ↔
      burstIops attrs.size (attrs.buckets iopsType) n e f = .ok r ∧
        expectedOf normal (Function.update burst iopsType r.1) time emptyTime = expected := by
  rw [countBurstIops]
  cases burstIops attrs.size (attrs.buckets iopsType) n e f with
  | error e => simp [bind, Except.bind]
  | ok w =>
      obtain ⟨burst', emptyTime', fullTime'⟩ := w
      simp only [pure, Except.pure]
      rw [bind_of_eq_ok rfl, setThrottleExpected_burst, bind_of_eq_ok rfl]
      simp only [Except.ok.injEq, Prod.mk.injEq]
      constructor
      · rintro ⟨rfl, h⟩
        exact ⟨rfl, h⟩
      · rintro ⟨rfl, h⟩
        exact ⟨rfl, h⟩

/-- What is expected after a run with these rates and times. -/
def expectedAfter (normal burst : IopsType → Int) (emptyTime time : Int) : Expected :=
  expectedOf normal burst (if time ≠ 0 then time else 0) (if time ≠ 0 then emptyTime else 0)

theorem countNormals_eq_ok_iff {attrs : Attrs} {normal : IopsType → Int} {expected : Expected} :
    countNormals attrs rawExpected = .ok (normal, expected) ↔
      (∀ iopsType, normalIops attrs.size (attrs.buckets iopsType) = .ok (normal iopsType)) ∧
        expectedOf normal (fun _ => 0) 0 0 = expected := by
  constructor
  · intro h
    rw [countNormals, rawExpected] at h
    obtain ⟨⟨w, expected₁⟩, hw, h⟩ := ok_of_bind_eq_ok h
    obtain ⟨hwrite, rfl⟩ := countNormalIops_eq_ok_iff.mp hw
    obtain ⟨⟨r, expected₂⟩, hr, h⟩ := ok_of_bind_eq_ok h
    obtain ⟨hread, rfl⟩ := countNormalIops_eq_ok_iff.mp hr
    obtain ⟨⟨t, expected₃⟩, ht, h⟩ := ok_of_bind_eq_ok h
    obtain ⟨htotal, rfl⟩ := countNormalIops_eq_ok_iff.mp ht
    cases h
    refine ⟨fun iopsType => ?_, rfl⟩
    cases iopsType with
    | read => exact hread
    | write => exact hwrite
    | total => exact htotal
  · rintro ⟨hnormal, rfl⟩
    have hfun : (fun | .read => normal .read | .write => normal .write | .total => normal .total) =
        normal := by
      funext iopsType
      cases iopsType <;> rfl
    refine ((bind_of_eq_ok (countNormalIops_eq_ok_iff.mpr ⟨hnormal .write, rfl⟩) _).trans ?_)
    refine ((bind_of_eq_ok (countNormalIops_eq_ok_iff.mpr ⟨hnormal .read, rfl⟩) _).trans ?_)
    refine ((bind_of_eq_ok (countNormalIops_eq_ok_iff.mpr ⟨hnormal .total, rfl⟩) _).trans ?_)
    simp only [pure, Except.pure, hfun]
    rfl

theorem countBursts_eq_ok_iff {attrs : Attrs} {normal : IopsType → Int} {emptyTime time : Int}
    {expected : Expected} :
    countBursts attrs normal (expectedOf normal (fun _ => 0) 0 0) =
        .ok ((emptyTime, time), expected) ↔
      ∃ (burst : IopsType → Int) (e₁ f₁ e₂ f₂ : Int),
        burstIops attrs.size attrs.write (normal .write) 0 0 = .ok (burst .write, e₁, f₁) ∧
        burstIops attrs.size attrs.read (normal .read) e₁ f₁ = .ok (burst .read, e₂, f₂) ∧
        burstIops attrs.size attrs.total (normal .total) e₂ f₂ =
          .ok (burst .total, emptyTime, time) ∧
        expectedOf normal burst 0 0 = expected := by
  constructor
  · intro h
    rw [countBursts] at h
    obtain ⟨⟨⟨bw, e₁, f₁⟩, expected₁⟩, hw, h⟩ := ok_of_bind_eq_ok h
    obtain ⟨hwrite, rfl⟩ := countBurstIops_eq_ok_iff.mp hw
    obtain ⟨⟨⟨br, e₂, f₂⟩, expected₂⟩, hr, h⟩ := ok_of_bind_eq_ok h
    obtain ⟨hread, rfl⟩ := countBurstIops_eq_ok_iff.mp hr
    obtain ⟨⟨⟨bt, e₃, f₃⟩, expected₃⟩, ht, h⟩ := ok_of_bind_eq_ok h
    obtain ⟨htotal, rfl⟩ := countBurstIops_eq_ok_iff.mp ht
    cases h
    exact ⟨fun | .read => br | .write => bw | .total => bt, e₁, f₁, e₂, f₂, hwrite, hread,
      htotal, rfl⟩
  · rintro ⟨burst, e₁, f₁, e₂, f₂, hw, hr, ht, rfl⟩
    refine ((bind_of_eq_ok (countBurstIops_eq_ok_iff.mpr ⟨hw, rfl⟩) _).trans ?_)
    refine ((bind_of_eq_ok (countBurstIops_eq_ok_iff.mpr ⟨hr, rfl⟩) _).trans ?_)
    refine ((bind_of_eq_ok (countBurstIops_eq_ok_iff.mpr ⟨ht, rfl⟩) _).trans ?_)
    rfl

theorem recordTimes_eq {normal burst : IopsType → Int} {emptyTime time : Int} :
    recordTimes emptyTime time (expectedOf normal burst 0 0) =
      .ok (expectedAfter normal burst emptyTime time) := by
  rw [recordTimes, expectedAfter]
  split_ifs
  · exact setThrottleExpected_times time emptyTime
  · rfl

theorem Counted.build {attrs : Attrs} {normal burst : IopsType → Int} {emptyTime time : Int}
    (h : Counted attrs normal burst emptyTime time) (throttleRuntime : Option String)
    (tester : Tester) :
    ∃ t, buildDefaultOption attrs throttleRuntime tester = .ok t ∧
      t.expected = expectedAfter normal burst emptyTime time := by
  obtain ⟨e₁, f₁, e₂, f₂, hwrite, hread, htotal⟩ := h.burst_eq
  have hnormals := countNormals_eq_ok_iff.mpr ⟨h.normal_eq, rfl⟩
  have hbursts := countBursts_eq_ok_iff.mpr
    ⟨burst, e₁, f₁, e₂, f₂, hwrite, hread, htotal, rfl⟩
  rw [buildDefaultOption]
  exact ⟨_, (bind_of_eq_ok hnormals _).trans ((bind_of_eq_ok hbursts _).trans
    (bind_of_eq_ok recordTimes_eq _)), rfl⟩

theorem counted_of_build {attrs : Attrs} {throttleRuntime : Option String} {tester t : Tester}
    (h : buildDefaultOption attrs throttleRuntime tester = .ok t) :
    ∃ normal burst emptyTime time, Counted attrs normal burst emptyTime time ∧
      t.expected = expectedAfter normal burst emptyTime time := by
  rw [buildDefaultOption] at h
  obtain ⟨expected₀, hraw, h⟩ := ok_of_bind_eq_ok h
  cases hraw
  obtain ⟨⟨normal, expected₁⟩, hnormals, h⟩ := ok_of_bind_eq_ok h
  obtain ⟨hnormal, rfl⟩ := countNormals_eq_ok_iff.mp hnormals
  obtain ⟨⟨⟨emptyTime, time⟩, expected₂⟩, hbursts, h⟩ := ok_of_bind_eq_ok h
  obtain ⟨burst, e₁, f₁, e₂, f₂, hwrite, hread, htotal, rfl⟩ := countBursts_eq_ok_iff.mp hbursts
  obtain ⟨expected₃, htimes, h⟩ := ok_of_bind_eq_ok h
  rw [recordTimes_eq] at htimes
  cases htimes
  cases h
  exact ⟨normal, burst, emptyTime, time,
    ⟨hnormal, e₁, f₁, e₂, f₂, hwrite, hread, htotal⟩, rfl⟩

/-! ## Divisors -/

/-- The quotient is not too large for a float. -/
def InRange (a b : Int) : Prop := |toDouble (a / b)| < limit

/-- `int(n / iops_size)`, for a quotient in range. -/
def operations (n size : Nat) : Int := truncate (toDouble (n / size))

/-- The lower one of two limits, where 0 is none. -/
def lowest (iops bps : Int) : Int :=
  if iops = 0 then bps else if bps = 0 then iops else min iops bps

/-- The limit in bytes sets the burst: its volume is not larger, or it is the only one. -/
def BytesSet (size : Nat) (b : Buckets) : Prop :=
  (operations (b.bpsMax * b.bpsMaxLength) size ≤ (b.iopsMax * b.iopsMaxLength : Nat) ∧
    operations (b.bpsMax * b.bpsMaxLength) size ≠ 0) ∨
  ((b.iopsMax * b.iopsMaxLength : Nat) : Int) = 0

instance (size : Nat) (b : Buckets) : Decidable (BytesSet size b) :=
  inferInstanceAs (Decidable (_ ∨ _))

/-- The volume of the limit that sets the burst. -/
def burstVolume (size : Nat) (b : Buckets) : Int :=
  if BytesSet size b then operations (b.bpsMax * b.bpsMaxLength) size
  else (b.iopsMax * b.iopsMaxLength : Nat)

/-- The rate of the limit that sets the burst. -/
def burstRate (size : Nat) (b : Buckets) : Int :=
  if BytesSet size b then operations b.bpsMax size else b.iopsMax

/-- The rate of the lowest limit without bursts. -/
def normalRate (size : Nat) (b : Buckets) : Int := lowest b.iops (operations b.bps size)

/-- The limits of a kind of request: if there is a burst, a limit without bursts is one
operation at least, and the limit that sets the burst has another rate than the lowest one
without bursts; and no quotient is too large. -/
structure Divisible (size : Nat) (b : Buckets) : Prop where
  normal : InRange b.bps size
  burst : b.iopsMax ≠ 0 ∨ b.bpsMax ≠ 0 → (b.iops ≠ 0 ∨ operations b.bps size ≠ 0) ∧
    burstRate size b ≠ normalRate size b ∧ InRange (b.bpsMax * b.bpsMaxLength : Nat) size ∧
    (BytesSet size b → InRange b.bpsMax size) ∧ InRange (burstVolume size b) (normalRate size b) ∧
    InRange (burstVolume size b) (burstRate size b - normalRate size b)

section Divisors

variable {size : Nat} {b : Buckets}

theorem wholeOperations_eq_ok_iff {n : Nat} (hsize : size ≠ 0) {z : Int} :
    wholeOperations n size = .ok z ↔ InRange n size ∧ operations n size = z := by
  have hsize' : (size : Int) ≠ 0 := by exact_mod_cast hsize
  constructor
  · intro h
    rw [wholeOperations] at h
    obtain ⟨q, hq, hz⟩ := ok_of_map_eq_ok h
    obtain ⟨⟨-, hrange⟩, rfl⟩ := trueDiv_eq_ok_iff.mp hq
    exact ⟨hrange, hz⟩
  · rintro ⟨hrange, rfl⟩
    rw [wholeOperations, trueDiv_eq_ok_iff.mpr ⟨⟨hsize', hrange⟩, rfl⟩]
    rfl

theorem inRange_zero (b : Int) : InRange 0 b := by
  simp [InRange, toDouble, magnitude_zero, limit]

theorem operations_zero (size : Nat) : operations 0 size = 0 := by
  simp [operations, truncate_toDouble, magnitude_zero]

/-- The two comparisons choose the lower limit. -/
theorem lowest_eq {iops bps : Int} :
    (if (iops ≥ bps ∧ bps ≠ 0) ∨ iops = 0 then bps
      else if (bps ≥ iops ∧ iops ≠ 0) ∨ bps = 0 then iops else 0) = lowest iops bps := by
  rw [lowest]
  split_ifs <;> omega

theorem normalRate_ne_zero_iff :
    normalRate size b ≠ 0 ↔ b.iops ≠ 0 ∨ operations b.bps size ≠ 0 := by
  rw [normalRate, lowest]
  split_ifs <;> omega

theorem normalIops_eq_ok_iff (hsize : size ≠ 0) {v : Int} :
    normalIops size b = .ok v ↔ InRange b.bps size ∧ normalRate size b = v := by
  rw [normalIops]
  split_ifs with hlimit
  · constructor
    · intro h
      obtain ⟨bps, hbps, h⟩ := ok_of_bind_eq_ok h
      obtain ⟨hrange, rfl⟩ := (wholeOperations_eq_ok_iff hsize).mp hbps
      exact ⟨hrange, lowest_eq.symm.trans (Except.ok.inj h)⟩
    · rintro ⟨hrange, rfl⟩
      rw [bind_of_eq_ok ((wholeOperations_eq_ok_iff hsize).mpr ⟨hrange, rfl⟩)]
      exact congrArg Except.ok lowest_eq
  · obtain ⟨hiops, hbps⟩ := not_or.mp hlimit
    simp only [not_not.mp hbps, not_not.mp hiops, normalRate, operations_zero, lowest,
      Nat.cast_zero, if_true, inRange_zero, true_and, pure, Except.pure, Except.ok.injEq]

theorem burstLimit_eq_ok_iff (hsize : size ≠ 0) {r : Int × Int} :
    burstLimit size b = .ok r ↔
      InRange (b.bpsMax * b.bpsMaxLength : Nat) size ∧
        (BytesSet size b → InRange b.bpsMax size) ∧ (burstVolume size b, burstRate size b) = r := by
  by_cases hrange : InRange (b.bpsMax * b.bpsMaxLength : Nat) size
  · rw [burstLimit, bind_of_eq_ok ((wholeOperations_eq_ok_iff hsize).mpr ⟨hrange, rfl⟩),
      burstVolume, burstRate]
    by_cases hset : BytesSet size b
    · simp only [hrange, hset, true_and, true_imp_iff]
      refine (iff_of_eq (congrArg (· = Except.ok r) (if_pos hset))).trans ?_
      constructor
      · intro h
        obtain ⟨rate, hrate, h⟩ := ok_of_bind_eq_ok h
        obtain ⟨hrange', rfl⟩ := (wholeOperations_eq_ok_iff hsize).mp hrate
        exact ⟨hrange', Except.ok.inj h⟩
      · rintro ⟨hrange', rfl⟩
        rw [bind_of_eq_ok ((wholeOperations_eq_ok_iff hsize).mpr ⟨hrange', rfl⟩)]
        rfl
    · simp only [hrange, hset, true_and, false_imp_iff]
      refine (iff_of_eq (congrArg (· = Except.ok r) (if_neg hset))).trans ?_
      rw [if_pos (by rw [BytesSet] at hset; omega)]
      simp [pure, Except.pure]
  · constructor
    · intro h
      rw [burstLimit] at h
      obtain ⟨bps, hbps, -⟩ := ok_of_bind_eq_ok h
      exact absurd ((wholeOperations_eq_ok_iff hsize).mp hbps).1 hrange
    · rintro ⟨hrange', -⟩
      exact absurd hrange' hrange

/-- Without a limit for bursts the times stay as they are. -/
theorem burstIops_of_none (h : ¬(b.iopsMax ≠ 0 ∨ b.bpsMax ≠ 0)) (n e f : Int) :
    burstIops size b n e f = .ok (0, e, f) := by
  rw [burstIops, if_neg h]
  rfl

theorem burstIops_eq_ok_iff (hsize : size ≠ 0) (h : b.iopsMax ≠ 0 ∨ b.bpsMax ≠ 0) {n e f : Int}
    {r : Int × Int × Int} :
    burstIops size b n e f = .ok r ↔
      (n ≠ 0 ∧ burstRate size b - n ≠ 0 ∧ InRange (b.bpsMax * b.bpsMaxLength : Nat) size ∧
        (BytesSet size b → InRange b.bpsMax size) ∧ InRange (burstVolume size b) n ∧
        InRange (burstVolume size b) (burstRate size b - n)) ∧
      (burstRate size b, ⌈max (toDouble (burstVolume size b / n)) e⌉,
        truncate (max (toDouble (burstVolume size b / (burstRate size b - n : Int))) f)) = r := by
  rw [burstIops, if_pos h]
  constructor
  · intro h
    obtain ⟨⟨volume, rate⟩, hlimit, h⟩ := ok_of_bind_eq_ok h
    obtain ⟨hvolume, hrate, hr⟩ := (burstLimit_eq_ok_iff hsize).mp hlimit
    cases hr
    obtain ⟨empty, hempty, h⟩ := ok_of_bind_eq_ok h
    obtain ⟨⟨hn, hrange⟩, rfl⟩ := trueDiv_eq_ok_iff.mp hempty
    obtain ⟨full, hfull, h⟩ := ok_of_bind_eq_ok h
    obtain ⟨⟨hdiff, hrange'⟩, rfl⟩ := trueDiv_eq_ok_iff.mp hfull
    exact ⟨⟨hn, hdiff, hvolume, hrate, hrange, hrange'⟩, Except.ok.inj h⟩
  · rintro ⟨⟨hn, hdiff, hvolume, hrate, hrange, hrange'⟩, rfl⟩
    rw [bind_of_eq_ok ((burstLimit_eq_ok_iff hsize).mpr ⟨hvolume, hrate, rfl⟩)]
    refine (bind_of_eq_ok (trueDiv_eq_ok_iff.mpr ⟨⟨hn, hrange⟩, rfl⟩) _).trans ?_
    exact bind_of_eq_ok (trueDiv_eq_ok_iff.mpr ⟨⟨hdiff, hrange'⟩, rfl⟩) _

/-- One kind of request: nothing is raised exactly if its limits are divisible. -/
theorem exists_burstIops_iff (hsize : size ≠ 0) (e f : Int) :
    InRange b.bps size ∧ (∃ r, burstIops size b (normalRate size b) e f = .ok r) ↔
      Divisible size b := by
  by_cases hburst : b.iopsMax ≠ 0 ∨ b.bpsMax ≠ 0
  · constructor
    · rintro ⟨hnormal, r, hr⟩
      obtain ⟨⟨hn, hdiff, hrest⟩, -⟩ := (burstIops_eq_ok_iff hsize hburst).mp hr
      exact ⟨hnormal, fun _ => ⟨normalRate_ne_zero_iff.mp hn, sub_ne_zero.mp hdiff, hrest⟩⟩
    · intro h
      obtain ⟨hn, hdiff, hrest⟩ := h.burst hburst
      exact ⟨h.normal, _, (burstIops_eq_ok_iff hsize hburst).mpr
        ⟨⟨normalRate_ne_zero_iff.mpr hn, sub_ne_zero.mpr hdiff, hrest⟩, rfl⟩⟩
  · constructor
    · rintro ⟨hnormal, -⟩
      exact ⟨hnormal, fun h => absurd h hburst⟩
    · intro h
      exact ⟨h.normal, _, burstIops_of_none hburst _ e f⟩

theorem truncate_nonneg {x : ℚ} (h : 0 ≤ x) : 0 ≤ truncate x := by
  rw [truncate, if_neg h.not_gt]
  exact Int.floor_nonneg.mpr h

/-- The times do not get below those so far. -/
theorem times_of_burstIops (hsize : size ≠ 0) {n e f : Int} {r : Int × Int × Int}
    (h : burstIops size b n e f = .ok r) (hf : 0 ≤ f) : e ≤ r.2.1 ∧ 0 ≤ r.2.2 := by
  by_cases hburst : b.iopsMax ≠ 0 ∨ b.bpsMax ≠ 0
  · obtain ⟨-, rfl⟩ := (burstIops_eq_ok_iff hsize hburst).mp h
    have hf' : (0 : ℚ) ≤ f := by exact_mod_cast hf
    constructor
    · have hle : (e : ℚ) ≤ ⌈max (toDouble (burstVolume size b / n)) e⌉ :=
        (le_max_right _ _).trans (Int.le_ceil _)
      exact_mod_cast hle
    · exact truncate_nonneg (hf'.trans (le_max_right _ _))
  · rw [burstIops_of_none hburst] at h
    cases h
    exact ⟨le_rfl, hf⟩

end Divisors

theorem Attrs.size_ne_zero (attrs : Attrs) : attrs.size ≠ 0 := by
  rw [Attrs.size]
  split
  · decide
  · assumption

theorem Counted.times_nonneg {attrs : Attrs} {normal burst : IopsType → Int}
    {emptyTime time : Int} (h : Counted attrs normal burst emptyTime time) :
    0 ≤ emptyTime ∧ 0 ≤ time := by
  obtain ⟨e₁, f₁, e₂, f₂, hwrite, hread, htotal⟩ := h.burst_eq
  obtain ⟨he₁, hf₁⟩ := times_of_burstIops attrs.size_ne_zero hwrite le_rfl
  obtain ⟨he₂, hf₂⟩ := times_of_burstIops attrs.size_ne_zero hread hf₁
  obtain ⟨he₃, hf₃⟩ := times_of_burstIops attrs.size_ne_zero htotal hf₂
  exact ⟨he₁.trans (he₂.trans he₃), hf₃⟩

/-- Limits that are divisible for every kind of request are counted. -/
theorem exists_counted_iff {attrs : Attrs} :
    (∃ normal burst emptyTime time, Counted attrs normal burst emptyTime time) ↔
      ∀ iopsType, Divisible attrs.size (attrs.buckets iopsType) := by
  have hsize := attrs.size_ne_zero
  constructor
  · rintro ⟨normal, burst, emptyTime, time, h⟩
    obtain ⟨e₁, f₁, e₂, f₂, hwrite, hread, htotal⟩ := h.burst_eq
    have hnormal := fun iopsType => (normalIops_eq_ok_iff hsize).mp (h.normal_eq iopsType)
    intro iopsType
    cases iopsType with
    | read =>
        rw [← (hnormal .read).2] at hread
        exact (exists_burstIops_iff hsize e₁ f₁).mp ⟨(hnormal .read).1, _, hread⟩
    | write =>
        rw [← (hnormal .write).2] at hwrite
        exact (exists_burstIops_iff hsize 0 0).mp ⟨(hnormal .write).1, _, hwrite⟩
    | total =>
        rw [← (hnormal .total).2] at htotal
        exact (exists_burstIops_iff hsize e₂ f₂).mp ⟨(hnormal .total).1, _, htotal⟩
  · intro h
    have hburst := fun iopsType e f => ((exists_burstIops_iff hsize e f).mpr (h iopsType)).2
    obtain ⟨⟨bw, e₁, f₁⟩, hwrite⟩ := hburst .write 0 0
    obtain ⟨⟨br, e₂, f₂⟩, hread⟩ := hburst .read e₁ f₁
    obtain ⟨⟨bt, e₃, f₃⟩, htotal⟩ := hburst .total e₂ f₂
    refine ⟨fun iopsType => normalRate attrs.size (attrs.buckets iopsType),
      fun | .read => br | .write => bw | .total => bt, e₃, f₃, fun iopsType => ?_,
      e₁, f₁, e₂, f₂, hwrite, hread, htotal⟩
    exact (normalIops_eq_ok_iff hsize).mpr ⟨(h iopsType).normal, rfl⟩

/-- Where nothing is raised, no divisor was 0. -/
theorem divisible_of_build {attrs : Attrs} {throttleRuntime : Option String} {tester t : Tester}
    (h : buildDefaultOption attrs throttleRuntime tester = .ok t) (iopsType : IopsType) :
    Divisible attrs.size (attrs.buckets iopsType) := by
  obtain ⟨normal, burst, emptyTime, time, hcounted, -⟩ := counted_of_build h
  exact exists_counted_iff.mp ⟨normal, burst, emptyTime, time, hcounted⟩ iopsType

/-- Nothing is raised, and the times recorded are not negative. -/
def Completes (r : Except PyError Tester) : Prop :=
  ∃ t burstTime burstEmptyTime, r = .ok t ∧
    recorded t.expected "burst" "burst_time" = some burstTime ∧
    recorded t.expected "burst" "burst_empty_time" = some burstEmptyTime ∧
    0 ≤ burstTime ∧ 0 ≤ burstEmptyTime

/-- The option is built, with times that are not negative, exactly if the limits of every kind
of request are divisible. -/
theorem completes_iff_divisible (attrs : Attrs) (throttleRuntime : Option String)
    (tester : Tester) :
    Completes (buildDefaultOption attrs throttleRuntime tester) ↔
      ∀ iopsType, Divisible attrs.size (attrs.buckets iopsType) := by
  constructor
  · rintro ⟨t, -, -, ht, -⟩
    exact divisible_of_build ht
  · intro hdivisible
    obtain ⟨normal, burst, emptyTime, time, h⟩ := exists_counted_iff.mpr hdivisible
    obtain ⟨t, ht, hexpected⟩ := h.build throttleRuntime tester
    obtain ⟨hempty, htime⟩ := h.times_nonneg
    refine ⟨t, if time ≠ 0 then time else 0, if time ≠ 0 then emptyTime else 0, ht, ?_, ?_, ?_, ?_⟩
    · rw [hexpected, expectedAfter, recorded_burstTime]
    · rw [hexpected, expectedAfter, recorded_burstEmptyTime]
    · split
      · exact htime
      · exact le_rfl
    · split
      · exact hempty
      · exact le_rfl

/-- A bucket that QEMU accepts: a limit for bursts needs a limit without them that is not above
it, and bursts last a second at least. -/
structure AcceptedBucket (avg max maxLength : Nat) : Prop where
  avg_ne_zero : max ≠ 0 → avg ≠ 0
  avg_le : max ≠ 0 → avg ≤ max
  one_le : 1 ≤ maxLength

/-- Limits that QEMU accepts. -/
structure Accepted (b : Buckets) : Prop where
  bps : AcceptedBucket b.bps b.bpsMax b.bpsMaxLength
  iops : AcceptedBucket b.iops b.iopsMax b.iopsMaxLength

def noBuckets : Buckets := ⟨0, 0, 1, 0, 0, 1⟩

/-- 100 reads a second, also in a burst. -/
def evenAttrs : Attrs := ⟨0, { noBuckets with iops := 100, iopsMax := 100 }, noBuckets, noBuckets⟩

/-- QEMU accepts a burst at the normal rate, and the time until it is over has no divisor. -/
theorem burst_at_normal_rate_raises :
    (∀ iopsType, Accepted (evenAttrs.buckets iopsType)) ∧
      ¬Completes (buildDefaultOption evenAttrs none ⟨rawExpected, ""⟩) := by
  constructor
  · intro iopsType
    cases iopsType with
    | read => exact ⟨⟨by decide, by decide, by decide⟩, ⟨by decide, by decide, by decide⟩⟩
    | write => exact ⟨⟨by decide, by decide, by decide⟩, ⟨by decide, by decide, by decide⟩⟩
    | total => exact ⟨⟨by decide, by decide, by decide⟩, ⟨by decide, by decide, by decide⟩⟩
  · rintro ⟨t, -, -, ht, -⟩
    obtain ⟨-, hne, -⟩ := (divisible_of_build ht .read).burst (.inl (by decide))
    refine hne ?_
    simp [evenAttrs, noBuckets, Attrs.buckets, Attrs.size, burstRate, normalRate, BytesSet,
      operations_zero, lowest]

end TpQemu.Throttle
