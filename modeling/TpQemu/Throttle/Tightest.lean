import TpQemu.Throttle.Expected

/-!
# The tightest limits

What the expected results are meant to be: the normal rate is the lowest limit in whole
operations, the burst rate belongs to the limit whose burst is the smaller one, and the time to
wait lets every burst drain at its normal rate. Within the range of values that QEMU accepts all
quotients are exact enough, and the only limits that miss this are those whose burst in bytes
makes no more whole operations than the normal rate.
-/

namespace TpQemu.Throttle

open Double

/-! ## What is meant -/

/-- The limits without bursts, in operations. -/
def limits (size : Nat) (b : Buckets) : List Nat :=
  (if b.iops ≠ 0 then [b.iops] else []) ++ (if b.bps ≠ 0 then [b.bps / size] else [])

/-- The limits for bursts in operations, with their volumes. -/
def bursts (size : Nat) (b : Buckets) : List (Nat × Nat) :=
  (if b.iopsMax ≠ 0 then [(b.iopsMax * b.iopsMaxLength, b.iopsMax)] else []) ++
    (if b.bpsMax ≠ 0 then [(b.bpsMax * b.bpsMaxLength / size, b.bpsMax / size)] else [])

/-- The lowest limit, or 0. -/
def tightest (size : Nat) (b : Buckets) : Nat := (limits size b).min?.getD 0

/-- The burst is one of the smallest volume, at its rate, and drains in the time recorded if
there is one. -/
def SmallestBurst (size : Nat) (b : Buckets) (expected : Expected) (name : String) : Prop :=
  ∃ c ∈ bursts size b, (∀ c' ∈ bursts size b, c.1 ≤ c'.1) ∧
    recorded expected "burst" name = some (c.2 : Int) ∧
    (recorded expected "burst" "burst_time" ≠ some 0 →
      ∃ emptyTime, recorded expected "burst" "burst_empty_time" = some emptyTime ∧
        (c.1 : ℚ) / tightest size b ≤ (emptyTime : Int))

/-- What is expected of one kind of request. -/
structure Tightest (size : Nat) (b : Buckets) (expected : Expected) (name : String) : Prop where
  normal : recorded expected "normal" name = some (tightest size b : Int)
  noBurst : bursts size b = [] → recorded expected "burst" name = some 0
  burst : bursts size b ≠ [] → SmallestBurst size b expected name

/-! ## Limits in question -/

/-- The largest value and the largest volume of a burst that QEMU accepts. -/
def throttleValueMax : Nat := 1000000000000000

/-- Limits that QEMU accepts, with no limit in bytes below one operation and with bursts above
the normal limits. -/
structure Eligible (size : Nat) (b : Buckets) : Prop extends Accepted b where
  bps_le : b.bps ≤ throttleValueMax
  iops_le : b.iops ≤ throttleValueMax
  bpsVolume_le : b.bpsMax * b.bpsMaxLength ≤ throttleValueMax
  iopsVolume_le : b.iopsMax * b.iopsMaxLength ≤ throttleValueMax
  size_le : b.bps ≠ 0 → size ≤ b.bps
  bps_lt : b.bpsMax ≠ 0 → b.bps < b.bpsMax
  iops_lt : b.iopsMax ≠ 0 → b.iops < b.iopsMax

/-- The burst is set by the limit in bytes, and makes no more whole operations than the normal
rate. -/
def Level (size : Nat) (b : Buckets) : Prop :=
  b.bpsMax ≠ 0 ∧
    (b.iopsMax = 0 ∨ b.bpsMax * b.bpsMaxLength / size ≤ b.iopsMax * b.iopsMaxLength) ∧
    b.bpsMax / size = b.bps / size ∧ (b.iops = 0 ∨ b.bps / size ≤ b.iops)

/-- The lowest of the limits. -/
theorem tightest_eq {size : Nat} {b : Buckets} : tightest size b =
    if b.iops = 0 then (if b.bps = 0 then 0 else b.bps / size)
    else if b.bps = 0 then b.iops else min b.iops (b.bps / size) := by
  rw [tightest, limits]
  by_cases hiops : b.iops = 0
  · by_cases hbps : b.bps = 0
    · simp [hiops, hbps]
    · simp [hiops, hbps]
  · by_cases hbps : b.bps = 0
    · simp [hiops, hbps]
    · simp [hiops, hbps, List.min?_cons]

/-! ## Exact quotients -/

theorem operations_eq {n size : Nat} (hsize : size ≠ 0) (hn : n ≤ throttleValueMax) :
    operations n size = (n / size : Nat) := by
  have hnonneg : (0 : ℚ) ≤ n / size := by positivity
  have hn' : n < 0x1FFFFFFFFFFFFF := lt_of_le_of_lt hn (by decide)
  rw [operations, truncate_toDouble, if_neg hnonneg.not_gt,
    floor_magnitude_div (Nat.pos_of_ne_zero hsize) hn']

theorem inRange_of_le {a b : Nat} (hb : b ≠ 0) (ha : a ≤ throttleValueMax) : InRange a b := by
  obtain rfl | hpos := Nat.eq_zero_or_pos a
  · exact inRange_zero b
  have hb' : (1 : ℚ) ≤ b := by exact_mod_cast Nat.one_le_iff_ne_zero.mpr hb
  have hx : (0 : ℚ) < (a : Int) / (b : Int) := by positivity
  have ha' : (a : ℚ) ≤ 1000000000000000 := by exact_mod_cast ha
  have hle : ((a : Int) : ℚ) / (b : Int) ≤ 1000000000000000 := by
    push_cast
    exact (div_le_self (by positivity) hb').trans ha'
  have hlt := magnitude_lt_two_mul hx hle (by norm_num)
  have hlimit := le_limit
  rw [InRange, toDouble_of_nonneg hx.le, abs_of_nonneg (magnitude_nonneg hx.le)]
  linarith

section Eligible

variable {size : Nat} {b : Buckets} (hsize : size ≠ 0) (h : Eligible size b)

include h in
theorem Eligible.bpsMax_le : b.bpsMax ≤ throttleValueMax :=
  (Nat.le_mul_of_pos_right _ h.bps.one_le).trans h.bpsVolume_le

include hsize h

/-- A limit in bytes is one whole operation at least. -/
theorem Eligible.div_pos (hbps : b.bps ≠ 0) : 0 < b.bps / size :=
  Nat.div_pos (h.size_le hbps) (Nat.pos_of_ne_zero hsize)

theorem Eligible.normalRate_eq : normalRate size b = (tightest size b : Int) := by
  have hpos := h.div_pos hsize
  have hzero : b.bps = 0 → b.bps / size = 0 := fun hzero => by rw [hzero, Nat.zero_div]
  rw [normalRate, operations_eq hsize h.bps_le, tightest_eq, lowest]
  split_ifs <;> omega

theorem Eligible.volume_pos (hburst : b.bpsMax ≠ 0) :
    0 < b.bpsMax * b.bpsMaxLength / size := by
  have hle : b.bps ≤ b.bpsMax * b.bpsMaxLength :=
    (h.bps_lt hburst).le.trans (Nat.le_mul_of_pos_right _ h.bps.one_le)
  exact (h.div_pos hsize (h.bps.avg_ne_zero hburst)).trans_le (Nat.div_le_div_right hle)

theorem Eligible.bytesSet_iff :
    BytesSet size b ↔ b.iopsMax = 0 ∨
      (b.bpsMax ≠ 0 ∧ b.bpsMax * b.bpsMaxLength / size ≤ b.iopsMax * b.iopsMaxLength) := by
  have hlength := h.iops.one_le
  have hiops : b.iopsMax * b.iopsMaxLength = 0 ↔ b.iopsMax = 0 := by
    rw [Nat.mul_eq_zero]
    omega
  rw [BytesSet, operations_eq hsize h.bpsVolume_le]
  by_cases hburst : b.bpsMax = 0
  · simp only [hburst, Nat.zero_mul, Nat.zero_div]
    omega
  · have hvolume := h.volume_pos hsize hburst
    omega

/-! ## The limit that sets the burst -/

theorem Eligible.bpsMax_ne_zero (hburst : b.iopsMax ≠ 0 ∨ b.bpsMax ≠ 0)
    (hbytes : BytesSet size b) : b.bpsMax ≠ 0 := by
  rcases (h.bytesSet_iff hsize).mp hbytes with hiops | ⟨hbps, -⟩
  · exact hburst.resolve_left (not_not_intro hiops)
  · exact hbps

/-- Operations set the burst only if there is a limit on them, with the smaller volume. -/
theorem Eligible.volume_lt (hbytes : ¬BytesSet size b) :
    b.iopsMax ≠ 0 ∧ (b.bpsMax ≠ 0 →
      b.iopsMax * b.iopsMaxLength < b.bpsMax * b.bpsMaxLength / size) := by
  rw [h.bytesSet_iff hsize, not_or] at hbytes
  obtain ⟨hiops, hvolume⟩ := hbytes
  exact ⟨hiops, fun hbps => Nat.lt_of_not_le fun hle => hvolume ⟨hbps, hle⟩⟩

omit hsize h in
theorem bursts_eq_nil_iff : bursts size b = [] ↔ ¬(b.iopsMax ≠ 0 ∨ b.bpsMax ≠ 0) := by
  rw [bursts, List.append_eq_nil_iff]
  by_cases hiops : b.iopsMax = 0 <;> by_cases hbps : b.bpsMax = 0 <;> simp [hiops, hbps]

/-- The volume and the rate of the limit that the code takes. -/
def chosen (size : Nat) (b : Buckets) : Nat × Nat :=
  if BytesSet size b then (b.bpsMax * b.bpsMaxLength / size, b.bpsMax / size)
  else (b.iopsMax * b.iopsMaxLength, b.iopsMax)

theorem Eligible.burstVolume_eq : burstVolume size b = ((chosen size b).1 : Int) := by
  rw [burstVolume, chosen, operations_eq hsize h.bpsVolume_le]
  split <;> rfl

theorem Eligible.burstRate_eq : burstRate size b = ((chosen size b).2 : Int) := by
  rw [burstRate, chosen, operations_eq hsize h.bpsMax_le]
  split <;> rfl

theorem Eligible.chosen_mem (hburst : b.iopsMax ≠ 0 ∨ b.bpsMax ≠ 0) :
    chosen size b ∈ bursts size b := by
  rw [chosen, bursts, List.mem_append]
  by_cases hbytes : BytesSet size b
  · rw [if_pos hbytes, if_pos (h.bpsMax_ne_zero hsize hburst hbytes)]
    exact .inr (List.mem_singleton_self _)
  · rw [if_neg hbytes, if_pos (h.volume_lt hsize hbytes).1]
    exact .inl (List.mem_singleton_self _)

theorem Eligible.chosen_le : ∀ c ∈ bursts size b, (chosen size b).1 ≤ c.1 := by
  have hset := h.bytesSet_iff hsize
  intro c hc
  rw [bursts, List.mem_append] at hc
  rw [chosen]
  obtain hc | hc := hc
  · obtain ⟨hiops, rfl⟩ : b.iopsMax ≠ 0 ∧ c = (b.iopsMax * b.iopsMaxLength, b.iopsMax) := by
      simpa using hc
    split
    · exact ((hset.mp ‹_›).resolve_left hiops).2
    · exact le_rfl
  · obtain ⟨hbps, rfl⟩ : b.bpsMax ≠ 0 ∧
        c = (b.bpsMax * b.bpsMaxLength / size, b.bpsMax / size) := by
      simpa using hc
    split
    · exact le_rfl
    · exact ((h.volume_lt hsize ‹_›).2 hbps).le

omit hsize in
theorem Eligible.chosen_volume_le : (chosen size b).1 ≤ throttleValueMax := by
  rw [chosen]
  split
  · exact (Nat.div_le_self _ _).trans h.bpsVolume_le
  · exact h.iopsVolume_le

/-! ## The normal rate below the burst -/

theorem Eligible.tightest_pos (hburst : b.iopsMax ≠ 0 ∨ b.bpsMax ≠ 0) : 0 < tightest size b := by
  have hiops := h.iops.avg_ne_zero
  have hbps := h.bps.avg_ne_zero
  have hpos := h.div_pos hsize
  rw [tightest_eq]
  split_ifs <;> omega

omit hsize in
theorem Eligible.tightest_le_max : tightest size b ≤ throttleValueMax := by
  have hdiv := Nat.div_le_self b.bps size
  have hbps := h.bps_le
  have hiops := h.iops_le
  rw [tightest_eq]
  split_ifs <;> omega

/-- The burst is not below the normal rate, and at it only on one level. -/
theorem Eligible.tightest_lt_iff (hburst : b.iopsMax ≠ 0 ∨ b.bpsMax ≠ 0) :
    tightest size b ≤ (chosen size b).2 ∧
      (tightest size b = (chosen size b).2 ↔ Level size b) := by
  rw [chosen, Level, tightest_eq]
  by_cases hbytes : BytesSet size b
  · have hmax := h.bpsMax_ne_zero hsize hburst hbytes
    have hcond := (h.bytesSet_iff hsize).mp hbytes
    have hle : b.bps / size ≤ b.bpsMax / size := Nat.div_le_div_right (h.bps_lt hmax).le
    have hne := h.bps.avg_ne_zero hmax
    have hpos := h.div_pos hsize hne
    rw [if_pos hbytes]
    simp only [if_neg hne]
    split_ifs with hzero
    · omega
    · omega
  · obtain ⟨hmax, hvolume⟩ := h.volume_lt hsize hbytes
    have hlt := h.iops_lt hmax
    have hne := h.iops.avg_ne_zero hmax
    have hmin := Nat.min_le_left b.iops (b.bps / size)
    rw [if_neg hbytes]
    simp only [if_neg hne]
    constructor
    · split_ifs <;> omega
    · constructor
      · intro heq
        split_ifs at heq <;> omega
      · rintro ⟨hbps, hiops | hle, -⟩
        · exact absurd hiops hmax
        · exact absurd (hvolume hbps) (Nat.not_lt.mpr hle)

/-- Eligible limits are divisible exactly if they are not on one level. -/
theorem Eligible.divisible_iff : Divisible size b ↔ ¬Level size b := by
  constructor
  · intro hdivisible hlevel
    have hburst : b.iopsMax ≠ 0 ∨ b.bpsMax ≠ 0 := .inr hlevel.1
    obtain ⟨-, hne, -⟩ := hdivisible.burst hburst
    rw [h.burstRate_eq hsize, h.normalRate_eq hsize] at hne
    exact hne (congrArg _ ((h.tightest_lt_iff hsize hburst).2.mpr hlevel).symm)
  · intro hlevel
    refine ⟨inRange_of_le hsize h.bps_le, fun hburst => ?_⟩
    obtain ⟨hle, heq⟩ := h.tightest_lt_iff hsize hburst
    have hpos := h.tightest_pos hsize hburst
    have hlt : tightest size b < (chosen size b).2 :=
      lt_of_le_of_ne hle fun h => hlevel (heq.mp h)
    have hnormal : normalRate size b ≠ 0 := by
      rw [h.normalRate_eq hsize]
      omega
    rw [h.burstRate_eq hsize, h.burstVolume_eq hsize, h.normalRate_eq hsize]
    refine ⟨normalRate_ne_zero_iff.mp hnormal, by omega, inRange_of_le hsize h.bpsVolume_le,
      fun _ => inRange_of_le hsize h.bpsMax_le, inRange_of_le hpos.ne' h.chosen_volume_le, ?_⟩
    rw [← Nat.cast_sub hle]
    exact inRange_of_le (Nat.sub_pos_of_lt hlt).ne' h.chosen_volume_le

end Eligible

/-! ## The run -/

/-- The times of one kind of request let its burst drain. -/
theorem Eligible.drains {size : Nat} {b : Buckets} (hsize : size ≠ 0) (h : Eligible size b)
    (hburst : b.iopsMax ≠ 0 ∨ b.bpsMax ≠ 0) {e f : Int} {r : Int × Int × Int}
    (hr : burstIops size b (normalRate size b) e f = .ok r) :
    r.1 = (chosen size b).2 ∧ ((chosen size b).1 : ℚ) / tightest size b ≤ r.2.1 := by
  obtain ⟨-, rfl⟩ := (burstIops_eq_ok_iff hsize hburst).mp hr
  refine ⟨h.burstRate_eq hsize, ?_⟩
  have hpos := h.tightest_pos hsize hburst
  have hsmall : ∀ {n : Nat}, n ≤ throttleValueMax → n < 0x20000000000000 := fun hn =>
    lt_of_le_of_lt hn (by decide)
  have hdrain := div_le_ceil_magnitude hpos (hsmall h.chosen_volume_le) (hsmall h.tightest_le_max)
  have hnonneg : (0 : ℚ) ≤ (chosen size b).1 / tightest size b := by positivity
  rw [h.burstVolume_eq hsize, h.normalRate_eq hsize]
  simp only [Int.cast_natCast]
  refine hdrain.trans (Int.cast_le.mpr (Int.ceil_le_ceil ?_))
  rw [toDouble_of_nonneg hnonneg]
  exact le_max_left _ _

section Run

variable {attrs : Attrs} {normal burst : IopsType → Int} {emptyTime time : Int}

theorem Counted.normalRate_eq (h : Counted attrs normal burst emptyTime time)
    (iopsType : IopsType) : normalRate attrs.size (attrs.buckets iopsType) = normal iopsType :=
  ((normalIops_eq_ok_iff attrs.size_ne_zero).mp (h.normal_eq iopsType)).2

/-- Each kind of request has its turn, and the time is not below the one after its turn. -/
theorem Counted.turn (h : Counted attrs normal burst emptyTime time) (iopsType : IopsType) :
    ∃ e f e' f', burstIops attrs.size (attrs.buckets iopsType)
        (normalRate attrs.size (attrs.buckets iopsType)) e f = .ok (burst iopsType, e', f') ∧
      e' ≤ emptyTime := by
  obtain ⟨e₁, f₁, e₂, f₂, hwrite, hread, htotal⟩ := h.burst_eq
  obtain ⟨-, hf₁⟩ := times_of_burstIops attrs.size_ne_zero hwrite le_rfl
  obtain ⟨he₂, hf₂⟩ := times_of_burstIops attrs.size_ne_zero hread hf₁
  obtain ⟨he₃, -⟩ := times_of_burstIops attrs.size_ne_zero htotal hf₂
  rw [h.normalRate_eq]
  cases iopsType with
  | read => exact ⟨e₁, f₁, e₂, f₂, hread, he₃⟩
  | write => exact ⟨0, 0, e₁, f₁, hwrite, he₂.trans he₃⟩
  | total => exact ⟨e₂, f₂, emptyTime, time, htotal, le_rfl⟩

theorem Counted.tightest (h : Counted attrs normal burst emptyTime time) {iopsType : IopsType}
    (heligible : Eligible attrs.size (attrs.buckets iopsType)) :
    Tightest attrs.size (attrs.buckets iopsType) (expectedAfter normal burst emptyTime time)
      iopsType.name := by
  have hsize := attrs.size_ne_zero
  obtain ⟨e, f, e', f', hturn, he'⟩ := h.turn iopsType
  refine ⟨?_, ?_, ?_⟩
  · rw [expectedAfter, recorded_normal, ← h.normalRate_eq, heligible.normalRate_eq hsize]
  · intro hnil
    rw [burstIops_of_none (bursts_eq_nil_iff.mp hnil)] at hturn
    have hzero : 0 = burst iopsType := congrArg Prod.fst (Except.ok.inj hturn)
    rw [expectedAfter, recorded_burst, ← hzero]
  · intro hne
    have hburst := not_not.mp (mt bursts_eq_nil_iff.mpr hne)
    obtain ⟨hrate, hdrains⟩ := heligible.drains hsize hburst hturn
    refine ⟨chosen attrs.size (attrs.buckets iopsType), heligible.chosen_mem hsize hburst,
      heligible.chosen_le hsize, ?_, ?_⟩
    · rw [expectedAfter, recorded_burst]
      exact congrArg some hrate
    · rw [expectedAfter, recorded_burstTime, recorded_burstEmptyTime]
      intro htime
      have htime : time ≠ 0 := by
        rintro rfl
        exact htime rfl
      refine ⟨emptyTime, by rw [if_pos htime], hdrains.trans ?_⟩
      exact_mod_cast he'

end Run

/-- The expected results are those of the tightest limits exactly if no burst in bytes is on one
level with the normal rate. -/
theorem tightest_iff_not_level (attrs : Attrs) (throttleRuntime : Option String) (tester : Tester)
    (heligible : ∀ iopsType, Eligible attrs.size (attrs.buckets iopsType)) :
    (∃ t, buildDefaultOption attrs throttleRuntime tester = .ok t ∧
      ∀ iopsType, Tightest attrs.size (attrs.buckets iopsType) t.expected iopsType.name) ↔
      ∀ iopsType, ¬Level attrs.size (attrs.buckets iopsType) := by
  have hdivisible : (∀ iopsType, ¬Level attrs.size (attrs.buckets iopsType)) ↔
      ∀ iopsType, Divisible attrs.size (attrs.buckets iopsType) :=
    forall_congr' fun iopsType => ((heligible iopsType).divisible_iff attrs.size_ne_zero).symm
  rw [hdivisible]
  constructor
  · rintro ⟨t, ht, -⟩
    exact divisible_of_build ht
  · intro hall
    obtain ⟨normal, burst, emptyTime, time, h⟩ := exists_counted_iff.mpr hall
    obtain ⟨t, ht, hexpected⟩ := h.build throttleRuntime tester
    refine ⟨t, ht, fun iopsType => ?_⟩
    rw [hexpected]
    exact h.tightest (heligible iopsType)

theorem eligible_noBuckets (size : Nat) : Eligible size noBuckets where
  bps := ⟨by decide, by decide, by decide⟩
  iops := ⟨by decide, by decide, by decide⟩
  bps_le := by decide
  iops_le := by decide
  bpsVolume_le := by decide
  iopsVolume_le := by decide
  size_le := by simp [noBuckets]
  bps_lt := by simp [noBuckets]
  iops_lt := by simp [noBuckets]

/-- Limits of reads only. -/
def readAttrs (b : Buckets) : Attrs := ⟨0, b, noBuckets, noBuckets⟩

theorem eligible_readAttrs {b : Buckets} (h : Eligible 4096 b) (iopsType : IopsType) :
    Eligible (readAttrs b).size ((readAttrs b).buckets iopsType) := by
  cases iopsType with
  | read => exact h
  | write => exact eligible_noBuckets _
  | total => exact eligible_noBuckets _

/-- 10 operations a second in bytes with bursts of 20 for two seconds, and 100 operations with
bursts of 200. -/
theorem tightest_ten_operations :
    ∃ t, buildDefaultOption (readAttrs ⟨40960, 81920, 2, 100, 200, 1⟩) none ⟨rawExpected, ""⟩ =
        .ok t ∧
      ∀ iopsType, Tightest 4096 ((readAttrs ⟨40960, 81920, 2, 100, 200, 1⟩).buckets iopsType)
        t.expected iopsType.name := by
  have heligible : Eligible 4096 ⟨40960, 81920, 2, 100, 200, 1⟩ :=
    ⟨⟨⟨by decide, by decide, by decide⟩, ⟨by decide, by decide, by decide⟩⟩,
      by decide, by decide, by decide, by decide, by decide, by decide, by decide⟩
  refine (tightest_iff_not_level _ none _ (eligible_readAttrs heligible)).mpr ?_
  intro iopsType
  cases iopsType <;> simp [readAttrs, Attrs.buckets, Attrs.size, noBuckets, Level]

/-- One operation a second, and bursts of one byte more. -/
theorem burst_of_one_byte_not_tightest :
    (∀ iopsType, Eligible 4096 ((readAttrs ⟨4096, 4097, 1, 0, 0, 1⟩).buckets iopsType)) ∧
      ¬∃ t, buildDefaultOption (readAttrs ⟨4096, 4097, 1, 0, 0, 1⟩) none ⟨rawExpected, ""⟩ =
          .ok t ∧
        ∀ iopsType, Tightest 4096 ((readAttrs ⟨4096, 4097, 1, 0, 0, 1⟩).buckets iopsType)
          t.expected iopsType.name := by
  have heligible : Eligible 4096 ⟨4096, 4097, 1, 0, 0, 1⟩ :=
    ⟨⟨⟨by decide, by decide, by decide⟩, ⟨by decide, by decide, by decide⟩⟩,
      by decide, by decide, by decide, by decide, by decide, by decide, by decide⟩
  refine ⟨eligible_readAttrs heligible, ?_⟩
  rintro ⟨t, ht, -⟩
  have hdivisible := divisible_of_build ht .read
  exact (heligible.divisible_iff (by decide)).mp hdivisible (by simp [Level])

end TpQemu.Throttle
