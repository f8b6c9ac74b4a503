import Mathlib.Data.List.Chain
import TpQemu.Lib.Numeral
import TpQemu.Lib.Python
import TpQemu.Lib.Slice

/-!
# Sparse ranges

`SparseRange` of `qemu/tests/cgroup.py`: the kernel's notation `0-1,16-17` for a
list of CPUs. The constructor reads it, `strSlice` writes a slice of the list in
it.

The writer keeps one section open and extends it as long as the numbers follow
each other. `Printed` says what the closed sections and the open one stand for;
the reader expands each section again, so that the two are inverse to each other
whenever the writer slices the list the way its caller would. It does not when the
end is left open and the step is negative, since an open end is replaced by the
length of the list.

The reader looks at the first two numbers of a section only.
-/

namespace TpQemu.Cgroup

open Numeral Slice

abbrev Text := List Char

/-- The values; a subclass of `list`. -/
abbrev SparseRange := List Int

/-! ## The reader -/

/-- What one section adds to the list. -/
def sectionValues (sect : Text) : Except PyError (List Int) :=
  let vals := sect.splitOn '-'
  if vals.length = 1 then do
    let v ← orRaise .valueError (int (vals.getD 0 []))
    return [v]
  else do
    let a ← orRaise .valueError (int (vals.getD 0 []))
    let b ← orRaise .valueError (int (vals.getD 1 []))
    return range a (b + 1)

/-- `SparseRange(value)` -/
def sparseRange (value : Text) : Except PyError SparseRange :=
  (value.splitOn ',').foldlM
    (fun self sect => do
      let vs ← sectionValues sect
      return self ++ vs) []

/-! ## The writer -/

/-- `append_section` -/
def appendSection (out : List Text) (sectStart sectStop : Int) : List Text :=
  if sectStart = sectStop then out ++ [str sectStart]
  else out ++ [str sectStart ++ '-' :: str sectStop]

/-- The variables of the loop. -/
structure Open where
  out : List Text
  sectStart : Int
  sectStop : Int

/-- The body of the loop. -/
def Open.next (o : Open) (cur : Int) : Open :=
  if o.sectStop = cur - 1 then { o with sectStop := cur }
  else ⟨appendSection o.out o.sectStart o.sectStop, cur, cur⟩

/-- `self.str_slice(start, stop, step)` -/
def strSlice (self : SparseRange) (start stop : Option Int) (step : Int) : Text :=
  let stop := stop.getD self.length
  match slice self start (some stop) step with
  | [] => []
  | cur :: items =>
      let o := items.foldl Open.next ⟨[], cur, cur⟩
      [','].intercalate (appendSection o.out o.sectStart o.sectStop)

/-! ## Sections -/

/-- A section, from its first number to its last. -/
structure Sect where
  first : Int
  last : Int
  nonneg : 0 ≤ first
  le : first ≤ last

namespace Sect

def text (s : Sect) : Text :=
  if s.first = s.last then str s.first else str s.first ++ '-' :: str s.last

def values (s : Sect) : List Int := range s.first (s.last + 1)

/-- One range does not cover both. -/
def Apart (s t : Sect) : Prop := t.first ≠ s.last + 1

/-- The section of one number. -/
def single (v : Int) (h : 0 ≤ v) : Sect := ⟨v, v, h, le_refl v⟩

/-- The section with one more number. -/
def extend (s : Sect) : Sect := ⟨s.first, s.last + 1, s.nonneg, by have := s.le; omega⟩

end Sect

theorem range_succ {a b : Int} (h : a ≤ b + 1) :
    range a (b + 1 + 1) = range a (b + 1) ++ [b + 1] := by
  have hlen : (b + 1 + 1 - a).toNat = (b + 1 - a).toNat + 1 := by omega
  have hlast : a + ((b + 1 - a).toNat : Int) = b + 1 := by omega
  simp only [range, hlen, List.range_succ, List.map_append, List.map_cons, List.map_nil, hlast]

theorem range_single (a : Int) : range a (a + 1) = [a] := by
  simp [range]

theorem range_eq_cons {a b : Int} (h : a ≤ b) : ∃ rest, range a (b + 1) = a :: rest := by
  obtain ⟨n, hn⟩ : ∃ n, (b + 1 - a).toNat = n + 1 := ⟨(b - a).toNat, by omega⟩
  simp only [range, hn, List.range_succ_eq_map, List.map_cons, List.cons.injEq]
  exact ⟨_, by omega, rfl⟩

theorem range_getLast? {a b : Int} (h : a ≤ b) : (range a (b + 1)).getLast? = some b := by
  obtain ⟨c, rfl⟩ : ∃ c, b = c + 1 := ⟨b - 1, by omega⟩
  rw [range_succ h, List.getLast?_concat]

theorem not_mem_str {z : Int} (hz : 0 ≤ z) {c : Char} (hc : c.isDigit = false) : c ∉ str z := by
  intro hmem
  have hdigit := isDigit_of_mem_str hz hmem
  rw [hc] at hdigit
  cases hdigit

namespace Sect

theorem last_nonneg (s : Sect) : 0 ≤ s.last := le_trans s.nonneg s.le

theorem comma_not_mem_text (s : Sect) : ',' ∉ s.text := by
  have hfirst : ',' ∉ str s.first := not_mem_str s.nonneg (by decide)
  have hlast : ',' ∉ str s.last := not_mem_str s.last_nonneg (by decide)
  rw [text]
  split
  · exact hfirst
  · simp [hfirst, hlast]

/-- The reader expands what the writer wrote. -/
theorem sectionValues_text (s : Sect) : sectionValues s.text = .ok s.values := by
  have hfirst : '-' ∉ str s.first := not_mem_str s.nonneg (by decide)
  have hlast : '-' ∉ str s.last := not_mem_str s.last_nonneg (by decide)
  rw [text]
  split
  · rename_i heq
    have hsplit : (str s.first).splitOn '-' = [str s.first] := List.splitOn_eq_singleton hfirst
    rw [values, ← heq, range_single]
    simp only [sectionValues, hsplit, List.length_singleton, if_true, List.getD_cons_zero,
      int_str s.nonneg]
    rfl
  · have hsplit : (str s.first ++ '-' :: str s.last).splitOn '-' = [str s.first, str s.last] := by
      rw [List.splitOn_append_cons_self_of_not_mem hfirst, List.splitOn_eq_singleton hlast]
    simp only [sectionValues, hsplit, List.getD_cons_zero, List.getD_cons_succ, int_str s.nonneg,
      int_str s.last_nonneg]
    rfl

theorem extend_values (s : Sect) : s.extend.values = s.values ++ [s.last + 1] :=
  range_succ (le_trans s.le (by omega))

theorem Apart.extend {s t : Sect} (h : s.Apart t) : s.Apart t.extend := h

end Sect

theorem splitOn_intercalate_text {sects : List Sect} (hne : sects ≠ []) :
    ([','].intercalate (sects.map Sect.text)).splitOn ',' = sects.map Sect.text := by
  refine List.splitOn_intercalate ',' ?_ (by simpa using hne)
  intro t ht
  obtain ⟨s, -, rfl⟩ := List.mem_map.mp ht
  exact s.comma_not_mem_text

/-- The reader on sections joined by commas. -/
theorem sparseRange_intercalate {sects : List Sect} (hne : sects ≠ []) :
    sparseRange ([','].intercalate (sects.map Sect.text)) = .ok (sects.flatMap Sect.values) := by
  rw [sparseRange, splitOn_intercalate_text hne, List.foldlM_map]
  refine foldlM_append ?_ []
  intro s _ acc
  rw [s.sectionValues_text]
  rfl

/-! ## The loop of the writer -/

/-- The closed sections and the open one stand for the numbers seen so far, and no
two of them next to each other could be one. -/
def Printed (o : Open) (seen : List Int) : Prop :=
  ∃ (closed : List Sect) (cur : Sect),
    o.out = closed.map Sect.text ∧ o.sectStart = cur.first ∧ o.sectStop = cur.last ∧
    (closed ++ [cur]).flatMap Sect.values = seen ∧ (closed ++ [cur]).IsChain Sect.Apart

theorem Printed.init {v : Int} (h : 0 ≤ v) : Printed ⟨[], v, v⟩ [v] := by
  refine ⟨[], .single v h, rfl, rfl, rfl, ?_, List.isChain_singleton _⟩
  simpa [Sect.values, Sect.single] using range_single v

theorem appendSection_text (closed : List Sect) (cur : Sect) :
    appendSection (closed.map Sect.text) cur.first cur.last = (closed ++ [cur]).map Sect.text := by
  rw [appendSection, List.map_append, List.map_singleton, Sect.text]
  split <;> rfl

theorem Printed.next {o : Open} {seen : List Int} (h : Printed o seen) {v : Int} (hv : 0 ≤ v) :
    Printed (o.next v) (seen ++ [v]) := by
  obtain ⟨closed, cur, hout, hstart, hstop, rfl, hchain⟩ := h
  rw [Open.next]
  split
  · -- The number follows the open section, which keeps its first number.
    rename_i hnext
    have hv : v = cur.last + 1 := by omega
    refine ⟨closed, cur.extend, hout, hstart, hv, ?_, ?_⟩
    · simp [cur.extend_values, hv]
    · rw [List.isChain_append] at hchain ⊢
      refine ⟨hchain.1, List.isChain_singleton _, ?_⟩
      intro s hs t ht
      rw [List.head?_cons, Option.mem_some_iff] at ht
      subst ht
      exact (hchain.2.2 s hs cur rfl).extend
  · rename_i hnext
    refine ⟨closed ++ [cur], .single v hv, ?_, rfl, rfl, ?_, ?_⟩
    · rw [hout, hstart, hstop]
      exact appendSection_text closed cur
    · have hvalues : (Sect.single v hv).values = [v] := range_single v
      simp [hvalues]
    · refine List.isChain_append.mpr ⟨hchain, List.isChain_singleton _, ?_⟩
      intro s hs t ht
      rw [List.getLast?_concat, Option.mem_some_iff] at hs
      rw [List.head?_cons, Option.mem_some_iff] at ht
      subst hs ht
      show v ≠ cur.last + 1
      omega

theorem Printed.foldl {o : Open} {seen items : List Int} (h : Printed o seen)
    (hitems : ∀ v ∈ items, 0 ≤ v) : Printed (items.foldl Open.next o) (seen ++ items) := by
  induction items generalizing o seen with
  | nil => simpa using h
  | cons v items ih =>
      have hv : 0 ≤ v := hitems v List.mem_cons_self
      have rest : ∀ w ∈ items, 0 ≤ w := fun w hw => hitems w (List.mem_cons_of_mem v hw)
      have hstep := ih (h.next hv) rest
      rwa [List.append_assoc] at hstep

/-- What the writer produces for a slice with at least one number. -/
theorem strSlice_sections {xs : SparseRange} {start stop : Option Int} {step : Int}
    (hxs : ∀ x ∈ xs, 0 ≤ x)
    (hne : slice xs start (some (stop.getD xs.length)) step ≠ []) :
    ∃ sects : List Sect, sects ≠ [] ∧
      strSlice xs start stop step = [','].intercalate (sects.map Sect.text) ∧
      sects.flatMap Sect.values = slice xs start (some (stop.getD xs.length)) step ∧
      sects.IsChain Sect.Apart := by
  have hsub := slice_subset xs start (some (stop.getD xs.length)) step
  rw [strSlice]
  split
  · rename_i heq
    exact absurd heq hne
  · rename_i cur items heq
    rw [heq] at hsub ⊢
    have hcur : 0 ≤ cur := hxs cur (hsub List.mem_cons_self)
    have hitems : ∀ v ∈ items, 0 ≤ v := fun v hv => hxs v (hsub (List.mem_cons_of_mem cur hv))
    obtain ⟨closed, last, hout, hstart, hstop, hseen, hchain⟩ := (Printed.init hcur).foldl hitems
    refine ⟨closed ++ [last], by simp, ?_, hseen, hchain⟩
    simp only [hout, hstart, hstop, appendSection_text]

/-! ## Round trips -/

/-- One range covers both sections. -/
def Mergeable (s t : Text) : Prop :=
  ∃ vs ws b, sectionValues s = .ok vs ∧ sectionValues t = .ok ws ∧ vs.getLast? = some b ∧
    ws.head? = some (b + 1)

/-- Reading what was written for a slice gives the slice, and no two sections next
to each other could be one. -/
structure RoundTrip (xs : SparseRange) (start stop : Option Int) (step : Int) : Prop where
  values : sparseRange (strSlice xs start stop step) = .ok (slice xs start stop step)
  apart : ((strSlice xs start stop step).splitOn ',').IsChain fun s t => ¬Mergeable s t

theorem not_mergeable_text {s t : Sect} (h : s.Apart t) : ¬Mergeable s.text t.text := by
  rintro ⟨vs, ws, b, hs, ht, hb, hw⟩
  cases s.sectionValues_text.symm.trans hs
  cases t.sectionValues_text.symm.trans ht
  have hlast : s.last = b := Option.some.inj ((range_getLast? s.le).symm.trans hb)
  obtain ⟨rest, hrest⟩ := range_eq_cons t.le
  rw [Sect.values, hrest, List.head?_cons] at hw
  exact h (by rw [Option.some.inj hw, hlast])

theorem sparseRange_nil : sparseRange [] = .error .valueError := by
  decide

/-- The writer and the reader are inverse to each other unless the end of a slice
with a negative step is left open. -/
theorem roundTrip_iff {xs : SparseRange} {start stop : Option Int} {step : Int}
    (hxs : ∀ x ∈ xs, 0 ≤ x) (hstep : step ≠ 0) (hne : slice xs start stop step ≠ []) :
    RoundTrip xs start stop step ↔ stop ≠ none ∨ 0 < step := by
  constructor
  · intro h
    by_contra hcon
    rw [not_or, not_not] at hcon
    obtain ⟨rfl, hpos⟩ := hcon
    have hneg : step < 0 := by omega
    have hempty : strSlice xs start none step = [] := by
      simp only [strSlice, Option.getD_none, slice_length_of_neg hneg]
    have hread := h.values
    rw [hempty, sparseRange_nil] at hread
    cases hread
  · intro h
    have hslice : slice xs start (some (stop.getD xs.length)) step = slice xs start stop step := by
      cases stop with
      | none => exact slice_length (by simpa using h)
      | some b => rfl
    obtain ⟨sects, hsects, htext, hvalues, hchain⟩ :=
      strSlice_sections hxs (hslice.symm ▸ hne)
    refine ⟨?_, ?_⟩
    · rw [htext, sparseRange_intercalate hsects, hvalues, hslice]
    · rw [htext, splitOn_intercalate_text hsects, List.isChain_map]
      exact hchain.imp fun s t hst => not_mergeable_text hst

theorem roundTrip_zigzag :
    RoundTrip [1, 2, 3, 5, 5, 4] (some 5) (some (-7)) (-1) :=
  (roundTrip_iff (by decide) (by decide) (by decide)).mpr (.inl (by decide))

/-- `SparseRange("1-3").str_slice(2, None, -1)` is empty, while the slice is `[3, 2, 1]`. -/
theorem not_roundTrip_backwards :
    slice [1, 2, 3] (some 2) none (-1) = [3, 2, 1] ∧ ¬RoundTrip [1, 2, 3] (some 2) none (-1) := by
  refine ⟨by decide, ?_⟩
  intro h
  exact absurd h.values (by decide)

/-! ## What the reader accepts -/

def IsNumeral (t : Text) : Prop := t ≠ [] ∧ ∀ c ∈ t, c.isDigit

/-- `N` or `N-M` -/
def IsSection (t : Text) : Prop :=
  IsNumeral t ∨ ∃ n m, IsNumeral n ∧ IsNumeral m ∧ t = n ++ '-' :: m

/-- `N-M-`, with anything behind it. -/
def IsOverlong (t : Text) : Prop :=
  ∃ n m rest, IsNumeral n ∧ IsNumeral m ∧ ',' ∉ rest ∧ t = n ++ '-' :: (m ++ '-' :: rest)

/-- A list of sections, joined by commas. -/
def Grammar (s : Text) : Prop :=
  ∃ sects : List Text, sects ≠ [] ∧ (∀ t ∈ sects, IsSection t) ∧ s = [','].intercalate sects

/-- The same, where at least one section goes on behind its second number. -/
def Overlong (s : Text) : Prop :=
  ∃ sects : List Text, (∀ t ∈ sects, IsSection t ∨ IsOverlong t) ∧ (∃ t ∈ sects, IsOverlong t) ∧
    s = [','].intercalate sects

/-- The reader accepts exactly the grammar and answers anything else with a
`ValueError`. -/
structure AcceptsGrammar (s : Text) : Prop where
  accepts : (∃ r, sparseRange s = .ok r) ↔ Grammar s
  rejects : ¬Grammar s → sparseRange s = .error .valueError

theorem IsNumeral.not_mem {t : Text} (h : IsNumeral t) {c : Char} (hc : c.isDigit = false) :
    c ∉ t := by
  intro hmem
  have hdigit := h.2 c hmem
  rw [hc] at hdigit
  cases hdigit

theorem IsSection.comma_not_mem {t : Text} (h : IsSection t) : ',' ∉ t := by
  rcases h with h | ⟨n, m, hn, hm, rfl⟩
  · exact h.not_mem (by decide)
  · simp [hn.not_mem (c := ',') (by decide), hm.not_mem (c := ',') (by decide)]

theorem IsOverlong.comma_not_mem {t : Text} (h : IsOverlong t) : ',' ∉ t := by
  obtain ⟨n, m, rest, hn, hm, hrest, rfl⟩ := h
  simp [hn.not_mem (c := ',') (by decide), hm.not_mem (c := ',') (by decide), hrest]

/-- A section has one dash at most. -/
theorem IsSection.not_overlong {t : Text} (h : IsSection t) : ¬IsOverlong t := by
  rintro ⟨n, m, rest, hn, hm, -, ht⟩
  have hdash : 2 ≤ t.count '-' := by
    rw [ht]
    simp only [List.count_append, List.count_cons_self]
    omega
  have hcount : ∀ {u : Text}, IsNumeral u → u.count '-' = 0 := fun hu =>
    List.count_eq_zero.mpr (hu.not_mem (by decide))
  rcases h with h | ⟨n, m, hn, hm, rfl⟩
  · have := hcount h
    omega
  · rw [List.count_append, List.count_cons_self, hcount hn, hcount hm] at hdash
    omega

theorem int_piece {t : Text} (h : ∀ c ∈ t, c.isDigit) :
    (∃ z, IsNumeral t ∧ int t = some z) ∨ (¬IsNumeral t ∧ int t = none) := by
  rw [int_digits h]
  by_cases ht : t = []
  · exact .inr ⟨fun hn => hn.1 ht, if_pos ht⟩
  · exact .inl ⟨_, ⟨ht, h⟩, if_neg ht⟩

/-- What the reader finds in a text that starts like a section. -/
theorem splitOn_of_starts {t : Text} (h : IsSection t ∨ IsOverlong t) :
    (IsNumeral t ∧ t.splitOn '-' = [t]) ∨
      ∃ n m rest, IsNumeral n ∧ IsNumeral m ∧ t.splitOn '-' = n :: m :: rest := by
  have hdash : ∀ {u : Text}, IsNumeral u → '-' ∉ u := fun hu => hu.not_mem (by decide)
  rcases h with (h | ⟨n, m, hn, hm, rfl⟩) | ⟨n, m, rest, hn, hm, -, rfl⟩
  · exact .inl ⟨h, List.splitOn_eq_singleton (hdash h)⟩
  · refine .inr ⟨n, m, [], hn, hm, ?_⟩
    rw [List.splitOn_append_cons_self_of_not_mem (hdash hn), List.splitOn_eq_singleton (hdash hm)]
  · refine .inr ⟨n, m, rest.splitOn '-', hn, hm, ?_⟩
    rw [List.splitOn_append_cons_self_of_not_mem (hdash hn),
      List.splitOn_append_cons_self_of_not_mem (hdash hm)]

theorem starts_of_splitOn {t n m : Text} {rest : List Text}
    (hsplit : t.splitOn '-' = n :: m :: rest) (hcomma : ',' ∉ t) (hn : IsNumeral n)
    (hm : IsNumeral m) : IsSection t ∨ IsOverlong t := by
  have ht : t = ['-'].intercalate (n :: m :: rest) := by
    rw [← hsplit, List.intercalate_splitOn]
  rw [List.intercalate_cons_cons, List.append_assoc, List.singleton_append] at ht
  cases rest with
  | nil => exact .inl (.inr ⟨n, m, hn, hm, by simpa using ht⟩)
  | cons u rest =>
      rw [List.intercalate_cons_cons, List.append_assoc, List.singleton_append] at ht
      refine .inr ⟨n, m, _, hn, hm, ?_, ht⟩
      intro hmem
      exact hcomma (by simp [ht, hmem])

/-- A section is read when it starts like one of the grammar. -/
theorem sectionValues_cases {t : Text} (h : ∀ c ∈ t, c.isDigit ∨ c = '-') :
    ((∃ vs, sectionValues t = .ok vs) ∧ (IsSection t ∨ IsOverlong t)) ∨
      (sectionValues t = .error .valueError ∧ ¬(IsSection t ∨ IsOverlong t)) := by
  have hcomma : ',' ∉ t := fun hmem => absurd (h ',' hmem) (by decide)
  have hdigits : ∀ u ∈ t.splitOn '-', ∀ c ∈ u, c.isDigit := by
    intro u hu c hc
    obtain ⟨hfree, hsub⟩ := Text.of_mem_splitOn hu
    rcases h c (hsub hc) with hd | rfl
    · exact hd
    · exact absurd hc hfree
  obtain ⟨v, rest, hsplit⟩ := List.exists_cons_of_ne_nil (List.splitOn_ne_nil '-' t)
  rw [hsplit] at hdigits
  have hv := int_piece (hdigits v List.mem_cons_self)
  cases rest with
  | nil =>
      have ht : ['-'].intercalate (t.splitOn '-') = t := List.intercalate_splitOn '-'
      rw [hsplit, List.intercalate_singleton] at ht
      subst ht
      rcases hv with ⟨z, hnum, hint⟩ | ⟨hnum, hint⟩
      · refine .inl ⟨⟨[z], ?_⟩, .inl (.inl hnum)⟩
        simp only [sectionValues, hsplit, List.length_singleton, if_true, List.getD_cons_zero, hint]
        rfl
      · refine .inr ⟨?_, ?_⟩
        · simp only [sectionValues, hsplit, List.length_singleton, if_true, List.getD_cons_zero,
            hint]
          rfl
        · intro hstarts
          rcases splitOn_of_starts hstarts with ⟨ht, -⟩ | ⟨n, m, rest, -, -, hcons⟩
          · exact hnum ht
          · rw [hsplit] at hcons
            cases hcons
  | cons w rest =>
      have hw := int_piece (hdigits w (by simp))
      have hread : sectionValues t = (do
          let a ← orRaise .valueError (int v)
          let b ← orRaise .valueError (int w)
          return range a (b + 1)) := by
        simp [sectionValues, hsplit]
      have hstarts : IsSection t ∨ IsOverlong t → IsNumeral v ∧ IsNumeral w := by
        intro hstarts
        rcases splitOn_of_starts hstarts with ⟨-, hone⟩ | ⟨n, m, rest, hn, hm, hcons⟩
        · rw [hsplit] at hone
          cases hone
        · rw [hsplit] at hcons
          cases hcons
          exact ⟨hn, hm⟩
      rcases hv with ⟨a, hnumv, hintv⟩ | ⟨hnumv, hintv⟩
      · rcases hw with ⟨b, hnumw, hintw⟩ | ⟨hnumw, hintw⟩
        · refine .inl ⟨⟨range a (b + 1), ?_⟩, starts_of_splitOn hsplit hcomma hnumv hnumw⟩
          rw [hread, hintv, hintw]
          rfl
        · refine .inr ⟨?_, fun hst => hnumw (hstarts hst).2⟩
          rw [hread, hintv, hintw]
          rfl
      · refine .inr ⟨?_, fun hst => hnumv (hstarts hst).1⟩
        rw [hread, hintv]
        rfl

/-- The loop over the sections ends with a list, or at the first one it cannot read. -/
theorem foldlM_sections {sects : List Text} (acc : List Int)
    (h : ∀ t ∈ sects, ∀ c ∈ t, c.isDigit ∨ c = '-') :
    let loop := sects.foldlM (fun self sect => do
      let vs ← sectionValues sect
      return self ++ vs) acc
    ((∃ r, loop = .ok r) ∧ ∀ t ∈ sects, IsSection t ∨ IsOverlong t) ∨
      (loop = .error .valueError ∧ ¬∀ t ∈ sects, IsSection t ∨ IsOverlong t) := by
  induction sects generalizing acc with
  | nil => exact .inl ⟨⟨acc, rfl⟩, by simp⟩
  | cons t sects ih =>
      simp only [List.foldlM_cons, List.forall_mem_cons]
      rcases sectionValues_cases (h t List.mem_cons_self) with ⟨⟨vs, hvs⟩, ht⟩ | ⟨herr, ht⟩
      · have rest := ih (acc ++ vs) fun u hu => h u (List.mem_cons_of_mem t hu)
        rw [hvs]
        rcases rest with ⟨hok, hall⟩ | ⟨herr, hnot⟩
        · exact .inl ⟨hok, ht, hall⟩
        · exact .inr ⟨herr, fun hall => hnot hall.2⟩
      · rw [herr]
        exact .inr ⟨rfl, fun hall => ht hall.1⟩

theorem grammar_iff {s : Text} : Grammar s ↔ ∀ t ∈ s.splitOn ',', IsSection t := by
  constructor
  · rintro ⟨sects, hne, hall, rfl⟩
    rwa [List.splitOn_intercalate ',' (fun t ht => (hall t ht).comma_not_mem) hne]
  · intro hall
    exact ⟨_, List.splitOn_ne_nil ',' s, hall, (List.intercalate_splitOn ',').symm⟩

theorem overlong_iff {s : Text} :
    Overlong s ↔ (∀ t ∈ s.splitOn ',', IsSection t ∨ IsOverlong t) ∧
      ∃ t ∈ s.splitOn ',', IsOverlong t := by
  constructor
  · rintro ⟨sects, hall, hex, rfl⟩
    have hcomma : ∀ t ∈ sects, ',' ∉ t := by
      intro t ht
      rcases hall t ht with h | h
      · exact h.comma_not_mem
      · exact h.comma_not_mem
    have hne : sects ≠ [] := by
      obtain ⟨t, ht, -⟩ := hex
      exact List.ne_nil_of_mem ht
    rw [List.splitOn_intercalate ',' hcomma hne]
    exact ⟨hall, hex⟩
  · rintro ⟨hall, hex⟩
    exact ⟨_, hall, hex, (List.intercalate_splitOn ',').symm⟩

/-- Sections that go on behind their second number are read as well, without what
follows it; on every other text the reader accepts exactly the grammar. -/
theorem acceptsGrammar_iff {s : Text} (h : ∀ c ∈ s, c.isDigit ∨ c = ',' ∨ c = '-') :
    AcceptsGrammar s ↔ ¬Overlong s := by
  have hletters : ∀ t ∈ s.splitOn ',', ∀ c ∈ t, c.isDigit ∨ c = '-' := by
    intro t ht c hc
    obtain ⟨hfree, hsub⟩ := Text.of_mem_splitOn ht
    rcases h c (hsub hc) with hd | rfl | hd
    · exact .inl hd
    · exact absurd hc hfree
    · exact .inr hd
  rw [overlong_iff]
  rcases foldlM_sections [] hletters with ⟨hok, hall⟩ | ⟨herr, hnot⟩
  · constructor
    · rintro haccepts ⟨-, t, ht, hlong⟩
      exact (grammar_iff.mp (haccepts.accepts.mp hok) t ht).not_overlong hlong
    · intro hno
      have hgrammar : Grammar s := by
        rw [grammar_iff]
        intro t ht
        exact (hall t ht).resolve_right fun hlong => hno ⟨hall, t, ht, hlong⟩
      exact ⟨⟨fun _ => hgrammar, fun _ => hok⟩, fun hn => absurd hgrammar hn⟩
  · have hgrammar : ¬Grammar s := fun hg => hnot fun t ht => .inl (grammar_iff.mp hg t ht)
    constructor
    · rintro - ⟨hall, -⟩
      exact hnot hall
    · intro _
      refine ⟨⟨?_, fun hg => absurd hg hgrammar⟩, fun _ => herr⟩
      rintro ⟨r, hr⟩
      cases herr.symm.trans hr

theorem acceptsGrammar_pair : AcceptsGrammar "0-1,16-17".toList := by
  refine (acceptsGrammar_iff (by simp)).mpr ?_
  rw [overlong_iff]
  rintro ⟨-, t, ht, n, m, rest, -, -, -, rfl⟩
  have hcount : ∀ u ∈ "0-1,16-17".toList.splitOn ',', u.count '-' ≤ 1 := by decide
  have hdash := hcount _ ht
  simp only [List.count_append, List.count_cons_self] at hdash
  omega

/-- `1-2-3` is not in the grammar and is read as `1-2`. -/
theorem not_acceptsGrammar_two_dashes :
    sparseRange "1-2-3".toList = .ok [1, 2] ∧ ¬AcceptsGrammar "1-2-3".toList := by
  refine ⟨by decide, ?_⟩
  intro h
  have hgrammar := grammar_iff.mp (h.accepts.mp ⟨[1, 2], by decide⟩)
  have hsection := hgrammar "1-2-3".toList (by decide)
  exact hsection.not_overlong ⟨['1'], ['2'], ['3'], by simp [IsNumeral], by simp [IsNumeral],
    by decide, by decide⟩

end TpQemu.Cgroup
