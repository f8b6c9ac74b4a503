import Mathlib.Algebra.Order.BigOperators.Group.List
import Mathlib.Algebra.Order.Ring.Int
import Mathlib.Data.List.Chain
import TpQemu.Lib.Loop

/-!
# Copying the extents of an image

`copyif` of `provider/backup_utils.py` reads the extents that `qemu-img map` reports with
the wanted data flag, which makes the target image copy them. An extent that is longer
than one `qemu-io` command can read is split: a `while` loop reads parts of the greatest
length, and its `else` branch reads what is left.
-/

namespace TpQemu.Backup

/-- An item of `qemu-img map --output=json`. -/
structure Extent where
  start : Int
  length : Int
  data : Bool
  deriving DecidableEq

/-- `_qemu_io_read(qemu_io, s, l, img)` -/
structure Read where
  offset : Int
  length : Int
  deriving DecidableEq

/-- The variables of the splitting loop, with the commands it has sent. -/
structure Splitting where
  start : Int
  length : Int
  reads : List Read

/-- A round of the splitting loop; the last one is its `else` branch. -/
def splitRound (maxLen : Int) (s : Splitting) : Splitting ⊕ List Read :=
  if s.length > maxLen then
    .inl ⟨s.start + maxLen, s.length - maxLen, s.reads ++ [⟨s.start, maxLen⟩]⟩
  else if s.length > 0 then .inr (s.reads ++ [⟨s.start, s.length⟩])
  else .inr s.reads

/-- The reads for one item, if the splitting loop is left within the number of rounds. -/
def readItem (maxLen : Int) (state : Bool) (rounds : Nat) (item : Extent) :
    Option (List Read) :=
  if item.data ≠ state then some []
  else loop (splitRound maxLen) rounds ⟨item.start, item.length, []⟩

/-- The loop over the items. Without a bitmap the allocated extents are wanted; a bitmap
is mapped with its dirty extents as those without data. -/
def copyif (maxLen : Int) (bitmap : Option String) (rounds : Nat) (items : List Extent) :
    Option (List Read) :=
  (items.mapM (readItem maxLen bitmap.isNone rounds)).map List.flatten

/-! ## The reads of an extent -/

/-- The reads for an extent: none if it is not wanted, else its parts in order. -/
structure ReadsExtent (maxLen : Int) (state : Bool) (item : Extent) (reads : List Read) :
    Prop where
  sizes : ∀ r ∈ reads, 0 < r.length ∧ r.length ≤ maxLen
  first : ∀ r, reads.head? = some r → r.offset = item.start
  contiguous : reads.IsChain fun r r' => r'.offset = r.offset + r.length
  increasing : reads.Pairwise fun r r' => r.offset < r'.offset
  total : item.data = state → (reads.map Read.length).sum = item.length
  other : item.data ≠ state → reads = []
  empty : item.length = 0 → reads = []

/-- The parts of an extent of the given length. -/
structure Parts (maxLen start length : Int) (reads : List Read) : Prop where
  sizes : ∀ r ∈ reads, 0 < r.length ∧ r.length ≤ maxLen
  first : ∀ r, reads.head? = some r → r.offset = start
  contiguous : reads.IsChain fun r r' => r'.offset = r.offset + r.length
  /-- No part lies before the extent. -/
  behind : ∀ r ∈ reads, start ≤ r.offset
  increasing : reads.Pairwise fun r r' => r.offset < r'.offset
  total : (reads.map Read.length).sum = length

section Parts

variable {maxLen start length : Int}

theorem parts_nil : Parts maxLen start 0 [] where
  sizes _ h := absurd h List.not_mem_nil
  first _ h := by cases h
  contiguous := .nil
  behind _ h := absurd h List.not_mem_nil
  increasing := .nil
  total := rfl

/-- A part in front of the parts of what is left. -/
theorem Parts.cons {n : Int} (hpos : 0 < n) (hmax : n ≤ maxLen) {reads : List Read}
    (h : Parts maxLen (start + n) length reads) :
    Parts maxLen start (n + length) (⟨start, n⟩ :: reads) where
  sizes := by
    rintro r hr
    obtain rfl | hr := List.mem_cons.mp hr
    · exact ⟨hpos, hmax⟩
    · exact h.sizes r hr
  first := by
    intro r hr
    cases hr
    rfl
  contiguous := by
    rw [List.isChain_cons]
    exact ⟨fun r hr => h.first r hr, h.contiguous⟩
  behind := by
    intro r hr
    obtain rfl | hr := List.mem_cons.mp hr
    · exact le_refl start
    · have := h.behind r hr
      omega
  increasing := by
    rw [List.pairwise_cons]
    refine ⟨fun r hr => ?_, h.increasing⟩
    have hbehind := h.behind r hr
    show start < r.offset
    omega
  total := by
    rw [List.map_cons, List.sum_cons, h.total]

end Parts

/-- The splitting loop ends, with the parts of the extent behind what was read before. -/
theorem splitLoop_leaves {maxLen : Int} (hmax : 0 < maxLen) (start : Int) {length : Int}
    (hlength : 0 ≤ length) :
    ∃ reads, Parts maxLen start length reads ∧
      ∀ before, LeavesWith (splitRound maxLen) ⟨start, length, before⟩ (before ++ reads) := by
  -- The length is what the loop takes down.
  induction hn : length.toNat using Nat.strongRecOn generalizing start length with
  | _ n ih =>
      by_cases hlong : length > maxLen
      · obtain ⟨reads, hparts, hleaves⟩ :=
          ih (length - maxLen).toNat (by omega) (start + maxLen) (by omega) rfl
        refine ⟨⟨start, maxLen⟩ :: reads, ?_, fun before => ?_⟩
        · have hall := hparts.cons hmax (le_refl maxLen)
          rwa [show maxLen + (length - maxLen) = length by omega] at hall
        · have hbody : splitRound maxLen ⟨start, length, before⟩ =
              .inl ⟨start + maxLen, length - maxLen, before ++ [⟨start, maxLen⟩]⟩ :=
            if_pos hlong
          have hrest := hleaves (before ++ [⟨start, maxLen⟩])
          rw [← List.append_cons] at hrest
          exact leavesWith_of_inl hbody hrest
      · by_cases hpos : length > 0
        · refine ⟨[⟨start, length⟩], ?_, fun before => leavesWith_of_inr ?_⟩
          · have hall : Parts maxLen start (length + 0) [⟨start, length⟩] :=
              .cons hpos (not_lt.mp hlong) parts_nil
            rwa [add_zero] at hall
          · rw [splitRound, if_neg hlong, if_pos hpos]
        · obtain rfl : length = 0 := by omega
          refine ⟨[], parts_nil, fun before => leavesWith_of_inr ?_⟩
          rw [splitRound, if_neg hlong, if_neg hpos, List.append_nil]

theorem readItem_reads {maxLen : Int} (hmax : 0 < maxLen) (state : Bool) {item : Extent}
    (hlength : 0 ≤ item.length) :
    ∃ reads rounds, ReadsExtent maxLen state item reads ∧
      ∀ m, rounds ≤ m → readItem maxLen state m item = some reads := by
  by_cases hdata : item.data = state
  · obtain ⟨reads, hparts, hleaves⟩ := splitLoop_leaves hmax item.start hlength
    obtain ⟨rounds, hrounds⟩ := hleaves []
    refine ⟨reads, rounds, ?_, fun m hm => ?_⟩
    · refine ⟨hparts.sizes, hparts.first, hparts.contiguous, hparts.increasing,
        fun _ => hparts.total, fun hother => absurd hdata hother, fun hempty => ?_⟩
      -- Parts have positive lengths, so an empty sum has none.
      cases reads with
      | nil => rfl
      | cons r reads =>
          have hpos : ∀ l ∈ (r :: reads).map Read.length, 0 ≤ l := by
            intro l hl
            obtain ⟨r', hr', rfl⟩ := List.mem_map.mp hl
            exact (hparts.sizes r' hr').1.le
          have hr := (hparts.sizes r List.mem_cons_self).1
          have hle := List.single_le_sum hpos r.length (List.mem_map_of_mem List.mem_cons_self)
          rw [hparts.total, hempty] at hle
          omega
    · rw [readItem, if_neg (not_not.mpr hdata)]
      exact loop_eq_of_le hrounds hm
  · refine ⟨[], 0, ?_, fun m _ => if_pos hdata⟩
    refine ⟨fun _ h => absurd h List.not_mem_nil, fun _ h => ?_, .nil, .nil,
      fun h => absurd h hdata, fun _ => rfl, fun _ => rfl⟩
    cases h

/-- Every loop ends, and the reads are those of the wanted extents, in the order of the
items. -/
theorem copyif_reads {maxLen : Int} (hmax : 0 < maxLen) (bitmap : Option String)
    {items : List Extent} (hlength : ∀ item ∈ items, 0 ≤ item.length) :
    ∃ parts rounds, List.Forall₂ (ReadsExtent maxLen bitmap.isNone) items parts ∧
      ∀ m, rounds ≤ m → copyif maxLen bitmap m items = some parts.flatten := by
  suffices h : ∃ parts rounds, List.Forall₂ (ReadsExtent maxLen bitmap.isNone) items parts ∧
      ∀ m, rounds ≤ m → items.mapM (readItem maxLen bitmap.isNone m) = some parts by
    obtain ⟨parts, rounds, hparts, hmap⟩ := h
    refine ⟨parts, rounds, hparts, fun m hm => ?_⟩
    rw [copyif, hmap m hm]
    rfl
  induction items with
  | nil => exact ⟨[], 0, .nil, fun _ _ => rfl⟩
  | cons item items ih =>
      obtain ⟨reads, r₁, hreads, hitem⟩ :=
        readItem_reads hmax bitmap.isNone (hlength item List.mem_cons_self)
      obtain ⟨parts, r₂, hparts, hrest⟩ := ih fun i hi => hlength i (List.mem_cons_of_mem _ hi)
      refine ⟨reads :: parts, max r₁ r₂, .cons hreads hparts, fun m hm => ?_⟩
      rw [List.mapM_cons, hitem m (by omega), hrest m (by omega)]
      rfl

/-- An extent that is split into three reads, one that is not wanted and one that is empty. -/
theorem copyif_reads_split :
    ∃ parts rounds, List.Forall₂ (ReadsExtent 4 true) [⟨0, 9, true⟩, ⟨9, 7, false⟩, ⟨16, 0, true⟩]
        parts ∧
      ∀ m, rounds ≤ m →
        copyif 4 none m [⟨0, 9, true⟩, ⟨9, 7, false⟩, ⟨16, 0, true⟩] = some parts.flatten :=
  copyif_reads (by decide) none (by simp)

end TpQemu.Backup
