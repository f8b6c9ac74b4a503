import TpQemu.Lib.Python
import Mathlib.Algebra.Order.Floor.Ring
import Mathlib.Data.Rat.Floor
import Mathlib.Data.List.Infix
import Mathlib.Tactic.Linarith

/-!
# The memory of KSM guests

The part of `qemu/tests/ksm_overcommit.py` that divides the memory of the host among the guests.
It is modelled over the rational numbers. A reserve is taken off for the host, the rest times the
overcommit ratio is divided among the guests, and where a guest would get too much it is divided
again among more guests, which changes the reserve too.
-/

namespace TpQemu.Ksm

/-- `params["ksm_mode"]` -/
inductive Mode where
  | serial
  | parallel
  | other
  deriving DecidableEq

/-- The memory of the host in kB, and the parameters. A reserve of -1 is the default one. -/
structure Inputs where
  memtotal : Int
  available : Int
  hostReserve : Int
  guestReserve : Int
  maxVms : Int
  overcommit : ℚ
  maxAlloc : Int
  mode : Mode
  vmArchName : List Char
  /-- `uname -i` says i386. -/
  hostI386 : Bool

/-- The variables of the test, memory in MB. -/
structure Sizing where
  hostReserve : ℚ
  /-- `_host_reserve`: `False` and `True` are 0 and 1. -/
  reserved : Int
  hostMem : ℚ
  vmsc : Int
  overcommit : ℚ
  mem : ℚ
  guestReserve : Int
  maxAlloc : Int
  deriving DecidableEq

/-- `int(x)` -/
def trunc (x : ℚ) : Int := if x < 0 then ⌈x⌉ else ⌊x⌋

namespace Inputs

variable (i : Inputs)

def total : ℚ := i.memtotal / 1024

/-- `guest_reserve` before the addition for the memory of the guest. -/
def firstGuestReserve : Int := if i.guestReserve = -1 then 1536 else i.guestReserve

/-- The count of all VMs at first. -/
def firstCount : Int := max (trunc i.overcommit + 1) i.maxVms

/-- `host_reserve` and `_host_reserve`, with 64 MB for each guest in serial mode. -/
def firstHostReserve : ℚ × Int :=
  if i.hostReserve = -1 then
    let reserve := ((i.memtotal : ℚ) - i.available) / 1024 + 128
    if i.mode = .serial then (reserve + i.firstCount * 64, i.firstCount) else (reserve, 1)
  else (i.hostReserve, 0)

/-- The memory left after the initial reserve. -/
def firstHostMem : ℚ := i.total - i.firstHostReserve.1

/-- The variables before the memory of the guests is known. -/
def first : Sizing where
  hostReserve := i.firstHostReserve.1
  reserved := i.firstHostReserve.2
  hostMem := i.firstHostMem
  vmsc := i.firstCount
  overcommit := i.overcommit
  mem := 0
  guestReserve := i.firstGuestReserve
  maxAlloc := if i.mode = .serial then i.firstCount else i.maxAlloc

end Inputs

/-- The sizes in parallel mode. -/
def parallelSizing (i : Inputs) (s : Sizing) : Sizing :=
  let guest := if ¬"64".toList <:+: i.vmArchName ∧ 3100 < s.hostMem then 3100 else s.hostMem
  let mem := if i.hostI386 = true ∧ 3100 - 64 < guest then 3100 - 64 else guest
  { s with vmsc := 1, overcommit := 1, mem := mem }

/-- What is reserved in addition for `vmsc` guests. -/
def Sizing.more (s : Sizing) (vmsc : Int) : ℚ :=
  if s.reserved ≠ 0 then (vmsc - s.reserved) * 64 else 0

/-- The memory is divided among `vmsc` guests. -/
def Sizing.divide (s : Sizing) (vmsc : Int) : Sizing :=
  { s with
    hostReserve := s.hostReserve + s.more vmsc
    hostMem := s.hostMem - s.more vmsc
    reserved := if s.reserved ≠ 0 then vmsc else s.reserved
    vmsc := vmsc
    mem := ⌊(s.hostMem - s.more vmsc) * s.overcommit / vmsc⌋ }

/-- The memory is divided again, so that no guest gets more than `limit`. -/
def resplit (limit : ℚ) (s : Sizing) : Except PyError Sizing :=
  if limit = 0 then .error .zeroDivisionError
  else
    let vmsc := ⌈s.hostMem * s.overcommit / limit⌉
    if vmsc = 0 then .error .zeroDivisionError else .ok (s.divide vmsc)

/-- The first division, with at most 8 GB for a guest. -/
def split (s : Sizing) : Except PyError Sizing :=
  if s.vmsc = 0 then .error .zeroDivisionError
  else .ok { s with mem := min (trunc (s.overcommit * s.hostMem / s.vmsc)) 8192 }

/-- A guest with 32 bits. -/
def adjustGuest (i : Inputs) (s : Sizing) : Except PyError Sizing :=
  if i.vmArchName = "i686".toList ∧ 3100 < s.mem - s.guestReserve - 1 then
    resplit (3100 + s.guestReserve) s
  else .ok s

/-- A host with 32 bits. -/
def adjustHost (i : Inputs) (s : Sizing) : Except PyError Sizing :=
  if i.hostI386 = true ∧ 3100 - 64 < s.mem then resplit (3100 - 64) s else .ok s

/-- The sizes in the other modes. -/
def serialSizing (i : Inputs) (s : Sizing) : Except PyError Sizing := do
  let s ← split s
  let s ← adjustGuest i s
  adjustHost i s

/-- The sizes at the end. A default reserve of the guests grows with their memory. -/
def sizing (i : Inputs) : Except PyError Sizing := do
  let s ← if i.mode = .parallel then .ok (parallelSizing i i.first) else serialSizing i i.first
  if i.guestReserve = -1 then
    return { s with guestReserve := s.guestReserve + ⌈s.mem * (55 / 1000)⌉ }
  else return s

/-! ## What holds between the divisions -/

/-- The reserve makes up the rest of the memory and is for as many guests as there are, which fit
into what the host has. -/
structure Within (total : ℚ) (s : Sizing) : Prop where
  total : s.hostMem + s.hostReserve = total
  count : 0 < s.vmsc
  reserved : s.reserved = 0 ∨ s.reserved = s.vmsc
  fits : s.vmsc * s.mem ≤ s.overcommit * s.hostMem

theorem trunc_of_nonneg {x : ℚ} (h : 0 ≤ x) : trunc x = ⌊x⌋ := if_neg (not_lt.mpr h)

/-- What a guest gets when the memory is divided down. -/
theorem mul_floor_div_le (x : ℚ) {n : Int} (hn : 0 < n) : (n : ℚ) * ⌊x / n⌋ ≤ x := by
  have hpos : (0 : ℚ) < n := by exact_mod_cast hn
  calc (n : ℚ) * ⌊x / n⌋ ≤ n * (x / n) := by
        exact mul_le_mul_of_nonneg_left (Int.floor_le _) hpos.le
    _ = x := mul_div_cancel₀ x hpos.ne'

/-- More guests need no less of a reserve. -/
theorem Within.more_nonneg {total : ℚ} {s : Sizing} (h : Within total s) {vmsc : Int}
    (hgrows : s.vmsc ≤ vmsc) : 0 ≤ s.more vmsc := by
  rw [Sizing.more]
  split
  · rename_i hne
    have hdiff : (s.reserved : ℚ) ≤ vmsc := by
      rw [h.reserved.resolve_left hne]
      exact_mod_cast hgrows
    linarith
  · exact le_rfl

theorem Within.divide {total : ℚ} {s : Sizing} (h : Within total s) {vmsc : Int}
    (hpos : 0 < vmsc) : Within total (s.divide vmsc) := by
  refine ⟨?_, hpos, ?_, ?_⟩
  · have htotal := h.total
    dsimp only [Sizing.divide]
    linarith
  · dsimp only [Sizing.divide]
    split
    · exact .inr rfl
    · rename_i hzero
      exact .inl (not_not.mp hzero)
  · dsimp only [Sizing.divide]
    rw [mul_comm s.overcommit]
    exact mul_floor_div_le _ hpos

/-- A guest that has more than the limit gets at most the limit, there being more guests. -/
theorem resplit_within {total : ℚ} {s : Sizing} (limit : ℚ) (h : Within total s)
    (ho : 0 < s.overcommit) (hlimit : 0 < limit) (hmem : limit < s.mem) :
    ∃ vmsc, resplit limit s = .ok (s.divide vmsc) ∧ Within total (s.divide vmsc) ∧
      (s.divide vmsc).mem ≤ limit := by
  have hcount : (0 : ℚ) < s.vmsc := by exact_mod_cast h.count
  have hmore : (s.vmsc : ℚ) < s.hostMem * s.overcommit / limit := by
    rw [lt_div_iff₀ hlimit]
    calc (s.vmsc : ℚ) * limit < s.vmsc * s.mem := mul_lt_mul_of_pos_left hmem hcount
      _ ≤ s.overcommit * s.hostMem := h.fits
      _ = s.hostMem * s.overcommit := mul_comm _ _
  have hceil := Int.le_ceil (s.hostMem * s.overcommit / limit)
  have hgrows : s.vmsc < ⌈s.hostMem * s.overcommit / limit⌉ := by
    exact_mod_cast hmore.trans_le hceil
  have hpos := h.count.trans hgrows
  refine ⟨_, ?_, h.divide hpos, ?_⟩
  · rw [resplit, if_neg hlimit.ne']
    exact if_neg hpos.ne'
  · refine (Int.floor_le _).trans ?_
    rw [div_le_iff₀ (by exact_mod_cast hpos)]
    rw [div_le_iff₀ hlimit] at hceil
    calc (s.hostMem - _) * s.overcommit ≤ s.hostMem * s.overcommit := by
          exact mul_le_mul_of_nonneg_right (sub_le_self _ (h.more_nonneg hgrows.le)) ho.le
      _ ≤ ⌈s.hostMem * s.overcommit / limit⌉ * limit := hceil
      _ = limit * ⌈s.hostMem * s.overcommit / limit⌉ := mul_comm _ _

/-- The first division in serial mode. -/
theorem split_within {i : Inputs} (hmode : i.mode = .serial) (ho : 0 < i.overcommit)
    (hmax : 1 ≤ i.maxVms) (hmem : 0 ≤ i.firstHostMem) :
    ∃ s, split i.first = .ok s ∧ Within i.total s ∧ s.mem ≤ 8192 ∧
      s.overcommit = i.overcommit ∧ s.guestReserve = i.firstGuestReserve := by
  have hcount : 0 < i.firstCount := lt_of_lt_of_le Int.zero_lt_one (hmax.trans (le_max_right _ _))
  have hcountq : (0 : ℚ) < i.firstCount := by exact_mod_cast hcount
  have hquot : 0 ≤ i.overcommit * i.firstHostMem / i.firstCount :=
    div_nonneg (mul_nonneg ho.le hmem) hcountq.le
  have hfloor := mul_floor_div_le (i.overcommit * i.firstHostMem) hcount
  rw [← trunc_of_nonneg hquot] at hfloor
  refine ⟨_, if_neg hcount.ne', ⟨?_, hcount, ?_, ?_⟩, ?_, rfl, rfl⟩
  · exact sub_add_cancel _ _
  · change i.firstHostReserve.2 = 0 ∨ i.firstHostReserve.2 = i.firstCount
    rw [Inputs.firstHostReserve]
    split
    · exact .inr rfl
    · exact .inl rfl
  · refine le_trans ?_ hfloor
    apply mul_le_mul_of_nonneg_left _ hcountq.le
    exact min_le_left _ _
  · exact min_le_right _ _

section Serial

variable {i : Inputs} {total : ℚ} {s : Sizing} (h : Within total s) (ho : 0 < s.overcommit)

include h ho

/-- The adjustment for a guest with 32 bits. -/
theorem adjustGuest_within (hguest : i.vmArchName = "i686".toList → -3100 < s.guestReserve)
    (hmem : s.mem ≤ 8192) :
    ∃ s', adjustGuest i s = .ok s' ∧ Within total s' ∧ s'.mem ≤ 8192 ∧
      (i.vmArchName = "i686".toList → s'.mem - s.guestReserve ≤ 3101) ∧
      s'.overcommit = s.overcommit ∧ s'.guestReserve = s.guestReserve := by
  rw [adjustGuest]
  split
  · rename_i hbig
    have hreserve : (-3100 : ℚ) < s.guestReserve := by exact_mod_cast hguest hbig.1
    obtain ⟨vmsc, hresplit, hwithin, hlimit⟩ :=
      resplit_within (3100 + s.guestReserve) h ho (by linarith) (by linarith [hbig.2])
    refine ⟨_, hresplit, hwithin, ?_, fun _ => ?_, rfl, rfl⟩
    · linarith [hbig.2]
    · linarith
  · rename_i hsmall
    refine ⟨s, rfl, h, hmem, fun harch => ?_, rfl, rfl⟩
    have hle := not_lt.mp fun hbig => hsmall ⟨harch, hbig⟩
    linarith

/-- The adjustment for a host with 32 bits: no guest gets more than before. -/
theorem adjustHost_within :
    ∃ s', adjustHost i s = .ok s' ∧ Within total s' ∧ s'.mem ≤ s.mem ∧
      (i.hostI386 = true → s'.mem ≤ 3036) ∧ s'.overcommit = s.overcommit := by
  rw [adjustHost]
  split
  · rename_i hbig
    obtain ⟨vmsc, hresplit, hwithin, hlimit⟩ :=
      resplit_within (3100 - 64) h ho (by norm_num) hbig.2
    refine ⟨_, hresplit, hwithin, hlimit.trans hbig.2.le, fun _ => ?_, rfl⟩
    linarith
  · rename_i hsmall
    refine ⟨s, rfl, h, le_rfl, fun hhost => ?_, rfl⟩
    have hle := not_lt.mp fun hbig => hsmall ⟨hhost, hbig⟩
    linarith

end Serial

/-- In serial mode the guests stay within the host, and within the limits of 32 bits. What may be
reserved for the kernel and the allocator of an i686 guest is 3100 MB, so a reserve below zero has
to leave something of it. -/
theorem sizing_within {i : Inputs} (hmode : i.mode = .serial) (ho : 0 < i.overcommit)
    (hmax : 1 ≤ i.maxVms) (hguest : i.vmArchName = "i686".toList → -3100 < i.firstGuestReserve)
    (hmem : 0 ≤ i.firstHostMem) :
    ∃ s, sizing i = .ok s ∧ s.hostMem + s.hostReserve = i.total ∧
      s.vmsc * s.mem ≤ i.overcommit * s.hostMem ∧ s.mem ≤ 8192 ∧
      (i.vmArchName = "i686".toList → s.mem - i.firstGuestReserve ≤ 3101) ∧
      (i.hostI386 = true → s.mem ≤ 3036) := by
  obtain ⟨s, hsplit, hs, hcap, hover, hreserve⟩ := split_within hmode ho hmax hmem
  rw [← hover] at ho
  rw [← hreserve] at hguest
  obtain ⟨s₁, hadjust₁, hs₁, hcap₁, h686, hover₁, -⟩ :=
    adjustGuest_within (i := i) hs ho hguest hcap
  rw [← hover₁] at ho
  obtain ⟨s₂, hadjust₂, hs₂, hle, h386, hover₂⟩ := adjustHost_within (i := i) hs₁ ho
  have hserial : serialSizing i i.first = .ok s₂ := by
    rw [serialSizing, bind_of_eq_ok hsplit, bind_of_eq_ok hadjust₁, hadjust₂]
  have hfits := hs₂.fits
  rw [hover₂, hover₁, hover] at hfits
  rw [hreserve] at h686
  have hbounds : s₂.mem ≤ 8192 ∧
      (i.vmArchName = "i686".toList → s₂.mem - i.firstGuestReserve ≤ 3101) :=
    ⟨hle.trans hcap₁, fun harch => (sub_le_sub_right hle _).trans (h686 harch)⟩
  have hnot : i.mode ≠ .parallel := by
    rw [hmode]
    decide
  rw [sizing, if_neg hnot, bind_of_eq_ok hserial]
  split
  · exact ⟨_, rfl, hs₂.total, hfits, hbounds.1, hbounds.2, h386⟩
  · exact ⟨_, rfl, hs₂.total, hfits, hbounds.1, hbounds.2, h386⟩

/-- A host of 16 GB with 32 bits, and default reserves. -/
def oldHost : Inputs :=
  ⟨16777216, 14680064, -1, -1, 2, 3, 1, .serial, "i686".toList, true⟩

theorem sizing_oldHost :
    ∃ s, sizing oldHost = .ok s ∧ s.hostMem + s.hostReserve = oldHost.total ∧
      s.vmsc * s.mem ≤ oldHost.overcommit * s.hostMem ∧ s.mem ≤ 8192 ∧
      (oldHost.vmArchName = "i686".toList → s.mem - oldHost.firstGuestReserve ≤ 3101) ∧
      (oldHost.hostI386 = true → s.mem ≤ 3036) := by
  refine sizing_within rfl ?_ ?_ ?_ ?_
  · norm_num [oldHost]
  · norm_num [oldHost]
  · norm_num [oldHost, Inputs.firstGuestReserve]
  · norm_num [oldHost, Inputs.firstHostMem, Inputs.total, Inputs.firstHostReserve,
      Inputs.firstCount, trunc]

/-- A host of 16 GB and guests of a reserve below zero. -/
def lackingReserve (guestReserve : Int) : Inputs :=
  ⟨16777216, 14680064, 1024, guestReserve, 2, 2, 1, .serial, "i686".toList, false⟩

/-- With less than -3100 MB the count of the guests becomes negative and their memory exceeds that
of the host; with -3100 MB the memory is divided by zero. -/
theorem exceeds_lackingReserve :
    0 ≤ (lackingReserve (-4000)).firstHostMem ∧
      (∃ s, sizing (lackingReserve (-4000)) = .ok s ∧ s.vmsc = -34 ∧ s.mem = -904 ∧
        (lackingReserve (-4000)).overcommit * s.hostMem < s.vmsc * s.mem) ∧
      0 ≤ (lackingReserve (-3100)).firstHostMem ∧
      sizing (lackingReserve (-3100)) = .error .zeroDivisionError := by
  refine ⟨?_, ⟨⟨1024, 0, 15360, -34, 2, -904, -4000, 3⟩, ?_, rfl, rfl, ?_⟩, ?_, ?_⟩
  all_goals decide +kernel

end TpQemu.Ksm
