import Mathlib.Tactic.IntervalCases
import TpQemu.Cpuid.Dump
import TpQemu.Cpuid.Kernel

/-!
# What the dump kernel prints

`Prints args format text` says that `printf` writes `text`, whatever its buffer
holds. Its rules follow the format from left to right, so that the text of a
format is assembled from the texts of its pieces. The table loop of `test` prints
the lines of the selected entries only: `kernel_output` gives the complete serial
text as a list of lines.
-/

namespace TpQemu.Cpuid

open CString Text

/-! ## Digits -/

theorem remainderChar_eq {d : Nat} (h : d < 16) : remainderChar d = Nat.digitChar d := by
  interval_cases d <;> decide

/-- The digit loop writes the numeral backwards over as many characters. -/
theorem itoaLoop_append {b : Nat} (hb : 1 < b) (hb16 : b ≤ 16) (rounds ud : Nat)
    (enough : ud < rounds) (l m r : List Char) (hm : m.length = (Nat.toDigits b ud).length) :
    itoaLoop b rounds ud l.length (l ++ m ++ r) =
      some (l.length + m.length, l ++ (Nat.toDigits b ud).reverse ++ r) := by
  induction rounds generalizing ud l m with
  | zero => omega
  | succ rounds ih =>
      have hchar : remainderChar (ud % b) = Nat.digitChar (ud % b) :=
        remainderChar_eq (Nat.lt_of_lt_of_le (Nat.mod_lt ud (by omega)) hb16)
      cases m with
      | nil =>
          have hpos := Nat.length_toDigits_pos (b := b) (n := ud)
          rw [← hm] at hpos
          exact absurd hpos (by decide)
      | cons old m =>
          have hstore : store (l ++ old :: m ++ r) l.length (remainderChar (ud % b)) =
              some (l ++ [Nat.digitChar (ud % b)] ++ m ++ r) := by
            rw [hchar]
            simpa using store_append l (m ++ r) old (Nat.digitChar (ud % b))
          rw [itoaLoop, hstore, Option.bind_eq_bind, Option.bind_some]
          by_cases hlt : ud < b
          · rw [Nat.toDigits_of_lt_base hlt] at hm ⊢
            have hnil : m = [] := by simpa using hm
            rw [if_pos (Nat.div_eq_of_lt hlt), Nat.mod_eq_of_lt hlt]
            simp [hnil]
          · have hle : b ≤ ud := Nat.le_of_not_lt hlt
            have hdiv : ud / b ≠ 0 := Nat.pos_iff_ne_zero.mp (Nat.div_pos hle (by omega))
            have hdec : ud / b < ud := Nat.div_lt_self (by omega) hb
            rw [Nat.toDigits_of_base_le hb hle] at hm ⊢
            have hrec := ih (ud / b) (by omega) (l ++ [Nat.digitChar (ud % b)]) m
              (by simpa using hm)
            have hlen : (l ++ [Nat.digitChar (ud % b)]).length = l.length + 1 := by simp
            rw [hlen] at hrec
            rw [if_neg hdiv, hrec]
            simp only [List.length_cons, List.reverse_append, List.reverse_singleton,
              List.append_assoc, Nat.add_assoc, Nat.add_comm 1]

/-- `itoa` with base `x` leaves the hexadecimal numeral, terminated, in the buffer. -/
theorem itoa_hex (buf : List Char) (d : BitVec 32)
    (room : (Nat.toDigits 16 d.toNat).length < buf.length) :
    ∃ rest, itoa buf 'x' d = some (Nat.toDigits 16 d.toNat ++ nul :: rest) ∧
      (Nat.toDigits 16 d.toNat ++ nul :: rest).length = buf.length := by
  let digits := Nat.toDigits 16 d.toNat
  have hdigits : digits ≠ [] := Nat.toDigits_ne_nil
  have htake : (buf.take digits.length).length = digits.length := by
    rw [List.length_take, Nat.min_eq_left (Nat.le_of_lt room)]
  obtain ⟨old, rest, hdrop⟩ : ∃ old rest, buf.drop digits.length = old :: rest :=
    List.exists_cons_of_ne_nil (by simpa using room)
  have hsplit : buf = [] ++ buf.take digits.length ++ (old :: rest) := by
    rw [List.nil_append, ← hdrop, List.take_append_drop]
  have hloop := itoaLoop_append (b := 16) (by decide) (by decide) (d.toNat + 1) d.toNat
    (Nat.lt_succ_self _) [] (buf.take digits.length) (old :: rest) htake
  rw [← hsplit, htake] at hloop
  have hstore := store_append digits.reverse rest old nul
  rw [List.length_reverse] at hstore
  have hreverse := reverseLoop_append (digits.reverse ++ nul :: rest).length []
    digits.reverse (nul :: rest) (by simpa using hdigits) (by simp)
  refine ⟨rest, ?_, ?_⟩
  · simp only [List.length_nil, List.nil_append, Nat.zero_add, List.length_reverse,
      List.reverse_reverse] at hloop hreverse
    simp only [itoa, Char.reduceEq, false_and, if_false, if_true, Option.pure_def,
      Option.bind_eq_bind, Option.bind_some]
    rw [hloop, Option.bind_some, hstore, Option.bind_some]
    exact hreverse
  · have := congrArg List.length hsplit
    simp only [List.nil_append, List.length_append, List.length_cons, htake] at this ⊢
    exact this.symm

/-! ## Formats -/

/-- The digits of a `%0<width>x` field. -/
def hexField (width : Nat) (d : BitVec 32) : List Char :=
  List.replicate (width - (Nat.toDigits 16 d.toNat).length) '0' ++ Nat.toDigits 16 d.toNat

theorem length_toDigits_le (d : BitVec 32) : (Nat.toDigits 16 d.toNat).length ≤ 8 :=
  (Nat.length_toDigits_le_iff (by decide) (by decide)).mpr d.isLt

theorem isHexDigit_of_mem_hexField {width : Nat} {d : BitVec 32} {c : Char}
    (h : c ∈ hexField width d) : Numeral.isHexDigit c = true := by
  rw [hexField, List.mem_append] at h
  obtain h | h := h
  · rw [List.eq_of_mem_replicate h]
    decide
  · exact Numeral.isHexDigit_of_mem_toDigits h

theorem nul_notMem_of_isHexDigit {s : List Char}
    (h : ∀ c ∈ s, Numeral.isHexDigit c = true) : nul ∉ s := by
  intro hm
  exact absurd (h nul hm) (by decide)

/-- A zero-padded hexadecimal conversion whose width is the one digit in the buffer. -/
theorem formatInt_hex {w : Char} (hw : '1' ≤ w ∧ w ≤ '9') (tail : List Char) (d : BitVec 32)
    (hlen : (w :: tail).length = bufSize) :
    ∃ rest, formatInt (w :: tail) ⟨true, 1⟩ 'x' d =
        some (hexField (w.toNat - '0'.toNat) d ++ nul :: rest) ∧
      (hexField (w.toNat - '0'.toNat) d ++ nul :: rest).length = bufSize := by
  have hdigits := length_toDigits_le d
  have hw9 : w.toNat - '0'.toNat ≤ 9 := by
    have : w.toNat ≤ '9'.toNat := hw.2
    simp only [Char.reduceToNat] at this ⊢
    omega
  have hwidth : readWidth 0 ((w :: tail).take 1) = w.toNat - '0'.toNat := by
    have hdigit : '0' ≤ w ∧ w ≤ '9' := ⟨Char.le_trans (by decide) hw.1, hw.2⟩
    simp [readWidth, hdigit]
  have hroom : (Nat.toDigits 16 d.toNat).length < (w :: tail).length := by
    rw [hlen, bufSize]
    omega
  obtain ⟨rest, hitoa, hrest⟩ := itoa_hex (w :: tail) d hroom
  have hcstr : cstr (Nat.toDigits 16 d.toNat ++ nul :: rest) =
      some (Nat.toDigits 16 d.toNat) :=
    cstr_append (nul_notMem_of_isHexDigit fun _ => Numeral.isHexDigit_of_mem_toDigits) rest
  rw [hlen] at hrest
  rw [formatInt, hwidth, hitoa]
  simp only [Option.bind_eq_bind, Option.bind_some, hcstr, if_true]
  by_cases hpad : (Nat.toDigits 16 d.toNat).length < w.toNat - '0'.toNat
  · rw [if_pos hpad]
    let text := hexField (w.toNat - '0'.toNat) d ++ [nul]
    have htext : text.length ≤ (Nat.toDigits 16 d.toNat ++ nul :: rest).length := by
      rw [hrest]
      simp only [text, hexField, List.length_append, List.length_replicate, List.length_cons,
        List.length_nil, bufSize]
      omega
    have hall := storeAll_zero htext
    refine ⟨(Nat.toDigits 16 d.toNat ++ nul :: rest).drop text.length, ?_, ?_⟩
    · simpa [text, hexField] using hall
    · have hl : (text ++ (Nat.toDigits 16 d.toNat ++ nul :: rest).drop text.length).length =
          (Nat.toDigits 16 d.toNat ++ nul :: rest).length := by
        rw [List.length_append, List.length_drop]
        omega
      rw [hrest] at hl
      simpa [text] using hl
  · rw [if_neg hpad]
    have hfield : hexField (w.toNat - '0'.toNat) d = Nat.toDigits 16 d.toNat := by
      rw [hexField, Nat.sub_eq_zero_of_le (Nat.le_of_not_lt hpad)]
      rfl
    rw [hfield]
    exact ⟨rest, rfl, hrest⟩

/-- The text a format prints, whatever the buffer holds. -/
def Prints (args : List Arg) (format text : List Char) : Prop :=
  ∀ buf : List Char, buf.length = bufSize → printfFrom buf none args format = some text

namespace Prints

variable {args : List Arg} {format text : List Char}

theorem printf_eq (h : Prints args format text) : printf format args = some text :=
  h _ List.length_replicate

theorem nil (args : List Arg) : Prints args [] [] := by
  intro buf _
  rfl

/-- Text outside of a conversion is copied. -/
theorem literal (piece : List Char) (hpiece : '%' ∉ piece) (h : Prints args format text) :
    Prints args (piece ++ format) (piece ++ text) := by
  intro buf hbuf
  induction piece with
  | nil => exact h buf hbuf
  | cons c piece ih =>
      have hc : c ≠ '%' := fun he => hpiece (he ▸ List.mem_cons_self)
      have hrest : '%' ∉ piece := fun hm => hpiece (List.mem_cons_of_mem c hm)
      rw [List.cons_append, printfFrom, if_neg hc, ih hrest]
      rfl

/-- A line without conversions is printed as it is. -/
theorem line {l : List Char} (hl : '%' ∉ l) : printf (l ++ ['\n']) [] = some (l ++ ['\n']) :=
  (literal l hl (literal ['\n'] (by decide) (nil []))).printf_eq

/-- A `%0<digit>x` conversion prints its field. -/
theorem hex {w : Char} (hw : '1' ≤ w ∧ w ≤ '9') (d : BitVec 32) (h : Prints args format text) :
    Prints (.int d :: args) ('%' :: '0' :: w :: 'x' :: format)
      (hexField (w.toNat - '0'.toNat) d ++ text) := by
  intro buf hbuf
  cases buf with
  | nil => simp [bufSize] at hbuf
  | cons old tail =>
      have hlen : (w :: tail).length = bufSize := hbuf
      obtain ⟨rest, hformat, hrest⟩ := formatInt_hex hw tail d hlen
      have hcstr := cstr_append
        (nul_notMem_of_isHexDigit fun _ => isHexDigit_of_mem_hexField) rest
        (s := hexField (w.toNat - '0'.toNat) d)
      have hzero : w ≠ '0' := fun he => absurd (he ▸ hw.1) (by decide)
      have hletter : ¬(w = 'd' ∨ w = 'u' ∨ w = 'x') := by
        rintro (rfl | rfl | rfl) <;> exact absurd hw.2 (by decide)
      have hs : w ≠ 's' := fun he => absurd (he ▸ hw.2) (by decide)
      have hdigit : '0' ≤ w ∧ w ≤ '9' := ⟨Char.le_trans (by decide) hw.1, hw.2⟩
      have hstore : store (old :: tail) 0 w = some (w :: tail) := store_append [] tail old w
      simp only [printfFrom, if_true, if_neg hzero, if_neg hletter, if_neg hs, if_pos hdigit,
        hstore, Option.bind_eq_bind, Option.bind_some, Char.reduceEq, if_false, false_or,
        hformat, hcstr, h _ hrest, Option.map_some]

end Prints

/-! ## Lines -/

/-- The line `print_leaf` writes, without its line feed. -/
def leafLine (cpuid : Oracle) (entry : BitVec 32 × BitVec 32) : List Char :=
  let r := cpuid entry.1 entry.2
  "   0x".toList ++ (hexField 8 entry.1 ++ (" 0x".toList ++ (hexField 2 entry.2 ++
    (": eax=0x".toList ++ (hexField 8 r.eax ++ (" ebx=0x".toList ++ (hexField 8 r.ebx ++
      (" ecx=0x".toList ++ (hexField 8 r.ecx ++ (" edx=0x".toList ++ hexField 8 r.edx))))))))))

/-- The pieces of the format. -/
theorem leafFormat_eq : leafFormat =
    "   0x".toList ++ ("%08x".toList ++ (" 0x".toList ++ ("%02x".toList ++
      (": eax=0x".toList ++ ("%08x".toList ++ (" ebx=0x".toList ++ ("%08x".toList ++
        (" ecx=0x".toList ++ ("%08x".toList ++ (" edx=0x".toList ++ ("%08x".toList ++
          (['\n'] ++ [])))))))))))) := by
  decide

theorem printLeaf_eq (cpuid : Oracle) (leaf idx : BitVec 32) :
    printLeaf cpuid leaf idx =
      some (leafLine cpuid (leaf, idx) ++ ['\n'], (cpuid leaf idx).eax) := by
  have wide {args : List Arg} {format text : List Char} (d : BitVec 32)
      (h : Prints args format text) :
      Prints (.int d :: args) ("%08x".toList ++ format) (hexField 8 d ++ text) :=
    Prints.hex (w := '8') (by decide) d h
  have narrow {args : List Arg} {format text : List Char} (d : BitVec 32)
      (h : Prints args format text) :
      Prints (.int d :: args) ("%02x".toList ++ format) (hexField 2 d ++ text) :=
    Prints.hex (w := '2') (by decide) d h
  let r := cpuid leaf idx
  have text := Prints.literal "   0x".toList (by decide) <|
    wide leaf <| Prints.literal " 0x".toList (by decide) <|
    narrow idx <| Prints.literal ": eax=0x".toList (by decide) <|
    wide r.eax <| Prints.literal " ebx=0x".toList (by decide) <|
    wide r.ebx <| Prints.literal " ecx=0x".toList (by decide) <|
    wide r.ecx <| Prints.literal " edx=0x".toList (by decide) <|
    wide r.edx <| Prints.literal ['\n'] (by decide) <| Prints.nil []
  -- The literals are hidden from the rewriting, which would compute them.
  have assoc (a b c d e f g h i j k l s : List Char) :
      a ++ (b ++ (c ++ (d ++ (e ++ (f ++ (g ++ (h ++ (i ++ (j ++ (k ++ l)))))))))) ++ s =
        a ++ (b ++ (c ++ (d ++ (e ++ (f ++ (g ++ (h ++ (i ++ (j ++ (k ++ (l ++ s))))))))))) := by
    simp only [List.append_assoc]
  have hline : Prints [.int leaf, .int idx, .int r.eax, .int r.ebx, .int r.ecx, .int r.edx]
      leafFormat (leafLine cpuid (leaf, idx) ++ ['\n']) := by
    dsimp only [leafLine]
    rw [assoc, leafFormat_eq]
    exact text
  change (printf leafFormat _).bind (fun text => some (text, r.eax)) = _
  rw [hline.printf_eq]
  rfl

theorem printLeafs_eq (cpuid : Oracle) (leafs : List (BitVec 32)) :
    printLeafs cpuid leafs = some (unlines (leafs.map fun leaf => leafLine cpuid (leaf, 0))) := by
  induction leafs with
  | nil => rfl
  | cons leaf leafs ih => simp [printLeafs, printLeaf_eq, ih]

/-! ## The table loop -/

/-- The leaves below the extended ranges, except the head of the range. -/
def Basic (leaf : BitVec 32) : Prop := 0 < leaf ∧ leaf < 0x40000000

/-- The leaves of the `0x80000000` range, except its head. -/
def Extended (leaf : BitVec 32) : Prop := 0x80000000 < leaf ∧ leaf < 0xC0000000

/-- The leaves of the `0xC0000000` range, except its head. -/
def Centaur (leaf : BitVec 32) : Prop := 0xC0000000 < leaf

instance (leaf : BitVec 32) : Decidable (Basic leaf) := inferInstanceAs (Decidable (_ ∧ _))
instance (leaf : BitVec 32) : Decidable (Extended leaf) := inferInstanceAs (Decidable (_ ∧ _))
instance (leaf : BitVec 32) : Decidable (Centaur leaf) := inferInstanceAs (Decidable (_ < _))

/-- Masking with the top bits rounds down to a multiple of their weight. -/
theorem toNat_highMask_and (e : BitVec 32) (k : Nat) :
    ((BitVec.allOnes 32 <<< k) &&& e).toNat = e.toNat / 2 ^ k * 2 ^ k := by
  have hshift : (BitVec.allOnes 32 <<< k) &&& e = (e >>> k) <<< k := by
    ext i hi
    simp only [BitVec.getElem_and, BitVec.getElem_shiftLeft, BitVec.getElem_ushiftRight,
      BitVec.getElem_allOnes]
    by_cases hik : i < k
    · simp [hik]
    · simp [hik, Nat.add_sub_cancel' (Nat.le_of_not_lt hik), BitVec.getLsbD_eq_getElem hi]
  rw [hshift, BitVec.toNat_shiftLeft, BitVec.toNat_ushiftRight, Nat.shiftRight_eq_div_pow,
    Nat.shiftLeft_eq]
  exact Nat.mod_eq_of_lt (Nat.lt_of_le_of_lt (Nat.div_mul_le_self _ _) e.isLt)

theorem toNat_xmask (e : BitVec 32) :
    (0x80000000 &&& e).toNat = e.toNat / 2147483648 * 2147483648 := toNat_highMask_and e 31

theorem toNat_x2mask (e : BitVec 32) :
    (0xC0000000 &&& e).toNat = e.toNat / 1073741824 * 1073741824 := toNat_highMask_and e 30

/-- Only the three range heads move a threshold. -/
theorem Thresholds.update_of_not_head {leaf : BitVec 32}
    (h : Basic leaf ∨ Extended leaf ∨ Centaur leaf) (t : Thresholds) (eax : BitVec 32) :
    t.update leaf eax = t := by
  have hx := toNat_xmask eax
  have hx2 := toNat_x2mask eax
  have hlt := eax.isLt
  simp only [Basic, Extended, Centaur] at h
  have h0 : leaf ≠ 0 := by
    rintro rfl
    bv_omega
  have h1 : leaf ≠ 0x80000000 &&& eax := by
    rintro rfl
    bv_omega
  have h2 : leaf ≠ 0xC0000000 &&& eax := by
    rintro rfl
    bv_omega
  rw [update, if_neg h0, if_neg h1, if_neg h2]

/-- The text of a part of the table. -/
def tableText (cpuid : Oracle) (entries : List (BitVec 32 × BitVec 32)) : List Char :=
  unlines (entries.map (leafLine cpuid))

@[simp] theorem tableText_nil (cpuid : Oracle) : tableText cpuid [] = [] := rfl

@[simp] theorem tableText_cons (cpuid : Oracle) (e : BitVec 32 × BitVec 32)
    (es : List (BitVec 32 × BitVec 32)) :
    tableText cpuid (e :: es) = leafLine cpuid e ++ '\n' :: tableText cpuid es := by
  simp [tableText]

@[simp] theorem tableText_append (cpuid : Oracle) (es es' : List (BitVec 32 × BitVec 32)) :
    tableText cpuid (es ++ es') = tableText cpuid es ++ tableText cpuid es' := by
  simp [tableText]

variable {cpuid : Oracle} {t : Thresholds}

/-- A leaf that no branch skips is printed, and its `eax` updates the thresholds. -/
theorem testLoop_print {leaf index : BitVec 32} (rest : List (BitVec 32 × BitVec 32))
    (h1 : ¬(leaf > t.level ∧ leaf < 0x80000000))
    (h2 : ¬(leaf > t.xlevel ∧ leaf < 0xC0000000 ∧ leaf > 0x80000000))
    (h3 : ¬(leaf > t.x2level ∧ leaf ≤ 0xFFFFFFFF ∧ leaf > 0xC0000000)) :
    testLoop cpuid ((leaf, index) :: rest) t =
      (testLoop cpuid rest (t.update leaf (cpuid leaf index).eax)).map
        (leafLine cpuid (leaf, index) ++ '\n' :: ·) := by
  rw [testLoop, if_neg h1, if_neg h2, if_neg h3, printLeaf_eq]
  simp

theorem testLoop_basic (es rest : List (BitVec 32 × BitVec 32)) (h : ∀ e ∈ es, Basic e.1) :
    testLoop cpuid (es ++ rest) t =
      (testLoop cpuid rest t).map (tableText cpuid (es.filter (·.1 ≤ t.level)) ++ ·) := by
  induction es with
  | nil => simp
  | cons e es ih =>
      obtain ⟨leaf, index⟩ := e
      have hleaf : Basic leaf := h _ List.mem_cons_self
      have hrange := hleaf
      rw [Basic] at hrange
      have hrest := ih (fun e he => h e (List.mem_cons_of_mem _ he))
      by_cases hle : leaf ≤ t.level
      · rw [List.cons_append, testLoop_print, Thresholds.update_of_not_head (.inl hleaf), hrest]
        · simp [hle, Function.comp_def]
        · intro hc
          exact absurd hle (by simpa using hc.1)
        · intro hc
          bv_omega
        · intro hc
          bv_omega
      · have hskip : leaf > t.level ∧ leaf < 0x80000000 := by
          refine ⟨by simpa using hle, ?_⟩
          bv_omega
        rw [List.cons_append, testLoop, if_pos hskip, hrest]
        simp [hle]

theorem testLoop_extended (es rest : List (BitVec 32 × BitVec 32))
    (h : ∀ e ∈ es, Extended e.1) :
    testLoop cpuid (es ++ rest) t =
      (testLoop cpuid rest t).map (tableText cpuid (es.filter (·.1 ≤ t.xlevel)) ++ ·) := by
  induction es with
  | nil => simp
  | cons e es ih =>
      obtain ⟨leaf, index⟩ := e
      have hleaf : Extended leaf := h _ List.mem_cons_self
      have hrange := hleaf
      rw [Extended] at hrange
      have hrest := ih (fun e he => h e (List.mem_cons_of_mem _ he))
      have hhigh : ¬(leaf > t.level ∧ leaf < 0x80000000) := by
        intro hc
        bv_omega
      by_cases hle : leaf ≤ t.xlevel
      · rw [List.cons_append, testLoop_print,
          Thresholds.update_of_not_head (.inr (.inl hleaf)), hrest]
        · simp [hle, Function.comp_def]
        · exact hhigh
        · intro hc
          exact absurd hle (by simpa using hc.1)
        · intro hc
          bv_omega
      · have hskip : leaf > t.xlevel ∧ leaf < 0xC0000000 ∧ leaf > 0x80000000 :=
          ⟨by simpa using hle, hleaf.2, hleaf.1⟩
        rw [List.cons_append, testLoop, if_neg hhigh, if_pos hskip, hrest]
        simp [hle]

/-- In the last range the loop stops at the first leaf beyond the threshold; the
table is sorted, so nothing after it was due. -/
theorem testLoop_centaur (es : List (BitVec 32 × BitVec 32)) (h : ∀ e ∈ es, Centaur e.1)
    (sorted : es.Pairwise (fun a b => a.1 ≤ b.1)) :
    testLoop cpuid es t = some (tableText cpuid (es.filter (·.1 ≤ t.x2level))) := by
  induction es with
  | nil => simp [testLoop]
  | cons e es ih =>
      obtain ⟨leaf, index⟩ := e
      have hleaf : Centaur leaf := h _ List.mem_cons_self
      have hrange := hleaf
      rw [Centaur] at hrange
      rw [List.pairwise_cons] at sorted
      have hrest := ih (fun e he => h e (List.mem_cons_of_mem _ he)) sorted.2
      have h1 : ¬(leaf > t.level ∧ leaf < 0x80000000) := by
        intro hc
        bv_omega
      have h2 : ¬(leaf > t.xlevel ∧ leaf < 0xC0000000 ∧ leaf > 0x80000000) := by
        intro hc
        bv_omega
      by_cases hle : leaf ≤ t.x2level
      · rw [testLoop_print _ h1 h2, Thresholds.update_of_not_head (.inr (.inr hleaf)), hrest]
        · simp [hle]
        · intro hc
          exact absurd hle (by simpa using hc.1)
      · have hstop : leaf > t.x2level ∧ leaf ≤ 0xFFFFFFFF ∧ leaf > 0xC0000000 := by
          refine ⟨by simpa using hle, ?_, hleaf⟩
          bv_omega
        have hnone : ((leaf, index) :: es).filter (·.1 ≤ t.x2level) = [] := by
          rw [List.filter_eq_nil_iff]
          intro e he
          obtain rfl | he := List.mem_cons.mp he
          · simpa using hle
          · have := sorted.1 e he
            simp only [decide_eq_true_eq]
            exact fun hc => hle (BitVec.le_trans this hc)
        rw [testLoop, if_neg h1, if_neg h2, if_pos hstop, hnone]
        rfl

/-! ## The selected entries -/

/-- The head of the range a leaf belongs to. -/
def rangeHead (leaf : BitVec 32) : BitVec 32 :=
  if leaf < 0x80000000 then 0 else if leaf < 0xC0000000 then 0x80000000 else 0xC0000000

/-- Heads are always due; any other leaf is due up to the `eax` of its head. -/
def Selected (cpuid : Oracle) (entry : BitVec 32 × BitVec 32) : Prop :=
  entry.1 = rangeHead entry.1 ∨ entry.1 ≤ (cpuid (rangeHead entry.1) 0).eax

instance (cpuid : Oracle) (entry : BitVec 32 × BitVec 32) : Decidable (Selected cpuid entry) :=
  inferInstanceAs (Decidable (_ ∨ _))

theorem Basic.selected_iff {e : BitVec 32 × BitVec 32} (h : Basic e.1) :
    Selected cpuid e ↔ e.1 ≤ (cpuid 0 0).eax := by
  rw [Basic] at h
  have hhead : rangeHead e.1 = 0 := by
    rw [rangeHead, if_pos (by bv_omega)]
  rw [Selected, hhead]
  exact or_iff_right (by bv_omega)

theorem Extended.selected_iff {e : BitVec 32 × BitVec 32} (h : Extended e.1) :
    Selected cpuid e ↔ e.1 ≤ (cpuid 0x80000000 0).eax := by
  rw [Extended] at h
  have hhead : rangeHead e.1 = 0x80000000 := by
    rw [rangeHead, if_neg (by bv_omega), if_pos h.2]
  rw [Selected, hhead]
  exact or_iff_right (by bv_omega)

theorem Centaur.selected_iff {e : BitVec 32 × BitVec 32} (h : Centaur e.1) :
    Selected cpuid e ↔ e.1 ≤ (cpuid 0xC0000000 0).eax := by
  rw [Centaur] at h
  have hhead : rangeHead e.1 = 0xC0000000 := by
    rw [rangeHead, if_neg (by bv_omega), if_neg (by bv_omega)]
  rw [Selected, hhead]
  exact or_iff_right (by bv_omega)

/-- The table is three runs behind their heads. -/
theorem levels_eq : levels =
    (0, 0) :: (levels.filter (Basic ·.1) ++
      (0x80000000, 0) :: (levels.filter (Extended ·.1) ++
        (0xC0000000, 0) :: levels.filter (Centaur ·.1))) := by decide

/-- The thresholds when the three ranges are reached. Before its head is read, a
range's threshold is too small to admit any of its leaves. -/
theorem Thresholds.after_heads (e0 e8 eC : BitVec 32) :
    let t1 := Thresholds.update ⟨0, 0, 0⟩ 0 e0
    let t2 := t1.update 0x80000000 e8
    let t3 := t2.update 0xC0000000 eC
    t1.level = e0 ∧ (∀ leaf, Extended leaf → (leaf ≤ t2.xlevel ↔ leaf ≤ e8)) ∧
      (∀ leaf, Centaur leaf → (leaf ≤ t3.x2level ↔ leaf ≤ eC)) := by
  intro t1 t2 t3
  have x0 := toNat_xmask e0
  have x8 := toNat_xmask e8
  have y0 := toNat_x2mask e0
  have y8 := toNat_x2mask e8
  have yC := toNat_x2mask eC
  refine ⟨rfl, ?_, ?_⟩
  · intro leaf h
    rw [Extended] at h
    simp only [t2, t1, Thresholds.update]
    split
    · exact Iff.rfl
    · split <;> bv_omega
  · intro leaf h
    rw [Centaur] at h
    simp only [t3, t2, t1, Thresholds.update]
    split
    · exact Iff.rfl
    · split
      · bv_omega
      · split <;> bv_omega

/-- The table loop prints the lines of the selected entries, in table order. -/
theorem testLoop_levels (cpuid : Oracle) :
    testLoop cpuid levels ⟨0, 0, 0⟩ =
      some (tableText cpuid (levels.filter (Selected cpuid))) := by
  let t1 := Thresholds.update ⟨0, 0, 0⟩ 0 (cpuid 0 0).eax
  let t2 := t1.update 0x80000000 (cpuid 0x80000000 0).eax
  let t3 := t2.update 0xC0000000 (cpuid 0xC0000000 0).eax
  obtain ⟨hlevel, hxlevel, hx2level⟩ := Thresholds.after_heads (cpuid 0 0).eax
    (cpuid 0x80000000 0).eax (cpuid 0xC0000000 0).eax
  have basic : ∀ e ∈ levels.filter (Basic ·.1), Basic e.1 := fun e he => by
    simpa using (List.mem_filter.mp he).2
  have extended : ∀ e ∈ levels.filter (Extended ·.1), Extended e.1 := fun e he => by
    simpa using (List.mem_filter.mp he).2
  have centaur : ∀ e ∈ levels.filter (Centaur ·.1), Centaur e.1 := fun e he => by
    simpa using (List.mem_filter.mp he).2
  have sorted : (levels.filter (Centaur ·.1)).Pairwise (fun a b => a.1 ≤ b.1) := by decide
  have head0 : Selected cpuid (0, 0) := .inl (by decide)
  have head8 : Selected cpuid (0x80000000, 0) := .inl (by decide)
  have headC : Selected cpuid (0xC0000000, 0) := .inl (by decide)
  have selected : levels.filter (Selected cpuid) =
      (0, 0) :: ((levels.filter (Basic ·.1)).filter (·.1 ≤ (cpuid 0 0).eax) ++
        (0x80000000, 0) ::
          ((levels.filter (Extended ·.1)).filter (·.1 ≤ (cpuid 0x80000000 0).eax) ++
          (0xC0000000, 0) ::
            (levels.filter (Centaur ·.1)).filter (·.1 ≤ (cpuid 0xC0000000 0).eax))) := by
    have h := congrArg (List.filter (Selected cpuid)) levels_eq
    rw [h]
    simp only [List.filter_cons, List.filter_append, head0, head8, headC, decide_true, if_true]
    rw [List.filter_congr (fun e he => decide_eq_decide.mpr (basic e he).selected_iff),
      List.filter_congr (fun e he => decide_eq_decide.mpr (extended e he).selected_iff),
      List.filter_congr (fun e he => decide_eq_decide.mpr (centaur e he).selected_iff)]
  have inExtended : (levels.filter (Extended ·.1)).filter (·.1 ≤ t2.xlevel) =
      (levels.filter (Extended ·.1)).filter (·.1 ≤ (cpuid 0x80000000 0).eax) :=
    List.filter_congr fun e he => decide_eq_decide.mpr (hxlevel e.1 (extended e he))
  have inCentaur : (levels.filter (Centaur ·.1)).filter (·.1 ≤ t3.x2level) =
      (levels.filter (Centaur ·.1)).filter (·.1 ≤ (cpuid 0xC0000000 0).eax) :=
    List.filter_congr fun e he => decide_eq_decide.mpr (hx2level e.1 (centaur e he))
  rw [selected]
  conv_lhs => rw [levels_eq]
  rw [testLoop_print _ (by decide) (by decide) (by decide), testLoop_basic _ _ basic,
    testLoop_print _ (by simp) (by simp) (by simp), testLoop_extended _ _ extended,
    testLoop_print _ (by simp) (by simp) (by simp), testLoop_centaur _ centaur sorted]
  rw [inExtended, inCentaur, hlevel]
  simp

/-- Everything the kernel dumps, in the order of its lines. -/
def dumped (cpuid : Oracle) (stale : BitVec 32 → BitVec 32) : List (BitVec 32 × BitVec 32) :=
  levels.filter (Selected cpuid) ++
    (kvmLeafs cpuid (stale KVM_CPUID_SIGNATURE) KVM_CPUID_SIGNATURE ++
      kvmLeafs cpuid (stale KVM_CPUID_SIGNATURE_NEXT) KVM_CPUID_SIGNATURE_NEXT).map (·, 0)


/-- The serial text: the marker lines around the `CPU:` line and the leaf lines. -/
theorem kernel_output (cpuid : Oracle) (stale : BitVec 32 → BitVec 32) :
    cmain cpuid stale = some (unlines ([startMarker, "CPU:".toList] ++
      (dumped cpuid stale).map (leafLine cpuid) ++ [endMarker])) := by
  have hstart : "==START TEST==\n".toList = startMarker ++ ['\n'] := by decide
  have hhead : "CPU:\n".toList = "CPU:".toList ++ ['\n'] := by decide
  have hend : "==END TEST==\n".toList = endMarker ++ ['\n'] := by decide
  rw [cmain, test, hstart, hhead, hend, Prints.line (by decide), Prints.line (by decide),
    Prints.line (by decide), testLoop_levels]
  simp [dumpKvmLeafs, printLeafs_eq, dumped, tableText, Function.comp_def]

end TpQemu.Cpuid
