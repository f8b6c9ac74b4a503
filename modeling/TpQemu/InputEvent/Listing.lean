import TpQemu.InputEvent.Devices

/-!
# The kernel's list of input devices

A device as the kernel describes it and the section of lines that it prints for it. Parsing the
whole list gives back the devices, and the agent opens exactly the pointers and the keyboards.
-/

namespace TpQemu.InputEvent

open Lines Numeral Text

/-- The text of a field is on one line. -/
def OnLine (s : List Char) : Prop := '\n' ∉ s ∧ '\r' ∉ s

/-- A device as the kernel lists it. Some bitmap is the one of the event types. -/
structure Listed where
  bus : Nat
  vendor : Nat
  product : Nat
  version : Nat
  name : List Char
  phys : List Char
  sysfs : List Char
  uniq : List Char
  handlers : List (List Char)
  bitmaps : List (List Char × List Char)
  ev : Nat
  name_onLine : OnLine name
  phys_onLine : OnLine phys
  sysfs_onLine : OnLine sysfs
  uniq_onLine : OnLine uniq
  handlers_word : ∀ h ∈ handlers, h ≠ [] ∧ ∀ c ∈ h, isSpace c = false
  bitmaps_onLine : ∀ b ∈ bitmaps, OnLine b.1 ∧ OnLine b.2 ∧ '=' ∉ b.1
  bitmaps_nodup : (bitmaps.map fun b => lower b.1).Nodup
  ev_mem : ("EV".toList, Nat.toDigits 16 ev) ∈ bitmaps

namespace Listed

variable (d : Listed)

/-- `%04x` -/
def hex4 (n : Nat) : List Char :=
  List.replicate (4 - (Nat.toDigits 16 n).length) '0' ++ Nat.toDigits 16 n

def idFields : List (List Char × Nat) :=
  [("Bus".toList, d.bus), ("Vendor".toList, d.vendor), ("Product".toList, d.product),
    ("Version".toList, d.version)]

/-- A line with its tag. -/
def tagged (tag body : List Char) : List Char := tag ++ ' ' :: body

def field (key value : List Char) : List Char := key ++ '=' :: value

def idBody : List Char :=
  [' '].intercalate (d.idFields.map fun f => field f.1 (hex4 f.2))

/-- The section of the device, with the blank line that closes it. -/
def lines : List (List Char) :=
  [tagged "I:".toList d.idBody,
    tagged "N:".toList (field "Name".toList ('"' :: d.name ++ ['"'])),
    tagged "P:".toList (field "Phys".toList d.phys),
    tagged "S:".toList (field "Sysfs".toList d.sysfs),
    tagged "U:".toList (field "Uniq".toList d.uniq),
    tagged "H:".toList (field "Handlers".toList (d.handlers.flatMap (· ++ [' '])))] ++
  d.bitmaps.map (fun b => tagged "B:".toList (field b.1 b.2)) ++ [[]]

/-- The dictionary that the agent makes of a device. -/
def info : DevInfo where
  id := some (d.idFields.foldl (fun ids f => ids.set (lower f.1) (f.2 : Int)) ∅)
  name := some (stripChars isQuote d.name)
  phys := some (rstrip d.phys)
  sysfs := some (rstrip d.sysfs)
  uniq := some (rstrip d.uniq)
  handlers := some d.handlers
  bitmaps := some (d.bitmaps.foldl (fun bs b => bs.set (lower b.1) (rstrip b.2)) ∅)

/-- The device node. -/
def node : Option (List Char) := (d.handlers.filter ("event".toList <+: ·)).getLast?

/-- A pointer, or a keyboard with all that a keyboard must support. -/
def IsTarget : Prop :=
  (∃ h ∈ d.handlers, "mouse".toList <+: h) ∨
    (∃ h ∈ d.handlers, "kbd".toList <+: h) ∧
      d.ev.testBit 0 ∧ d.ev.testBit 1 ∧ d.ev.testBit 17 ∧ d.ev.testBit 20

end Listed

/-- The contents of `/proc/bus/input/devices`. -/
def listing (ds : List Listed) : List Char :=
  (ds.flatMap Listed.lines).flatMap (· ++ ['\n'])

/-! ## Numbers -/

namespace Listed

theorem isHexDigit_of_mem_hex4 {n : Nat} {c : Char} (h : c ∈ hex4 n) : isHexDigit c = true := by
  rcases List.mem_append.mp h with h | h
  · rw [List.eq_of_mem_replicate h]
    decide
  · exact isHexDigit_of_mem_toDigits h

theorem hex4_ne_nil (n : Nat) : hex4 n ≠ [] :=
  List.append_ne_nil_of_right_ne_nil _ Nat.toDigits_ne_nil

theorem int16_hex4 (n : Nat) : int16 (hex4 n) = some (n : Int) := by
  rw [int16_hexDigits (hex4_ne_nil n) fun c hc => isHexDigit_of_mem_hex4 hc, hex4,
    hexValue_replicate_append, hexValue_toDigits]

theorem notMem_hex4 {c : Char} (hc : isHexDigit c = false) (n : Nat) : c ∉ hex4 n := by
  intro h
  rw [isHexDigit_of_mem_hex4 h] at hc
  cases hc

theorem idPair_field (ids : Dict (List Char) Int) {key : List Char} (hkey : '=' ∉ key) (n : Nat) :
    idPair ids (field key (hex4 n)) = .ok (ids.set (lower key) (n : Int)) := by
  have hsplit : (field key (hex4 n)).splitOn '=' = [key, hex4 n] := by
    rw [field, List.splitOn_append_cons_self_of_not_mem hkey,
      List.splitOn_eq_singleton (notMem_hex4 (by decide) n)]
  rw [idPair, hsplit]
  simp only [int16_hex4]
  rfl

/-! ## Lines -/

theorem rstrip_tagged (tag key value : List Char) :
    rstrip (tagged tag (field key value)) = tagged tag (field key (rstrip value)) := by
  have happend := rstrip_append_cons (c := '=') (by decide) (tag ++ ' ' :: key) value
  simpa [tagged, field] using happend

/-- A line is parsed by its tag. -/
theorem parseLine_tagged {tag body body' : List Char} (htag : tag ≠ [] ∧ ' ' ∉ tag)
    (hbody : rstrip (tagged tag body) = tagged tag body') (s : List DevInfo × DevInfo) :
    parseLine s (tagged tag body) =
      (parseField s.2 tag (some body')).map fun devInfo => (s.1, devInfo) := by
  rw [parseLine, hbody, tagged, cut_append htag.2, if_neg htag.1]
  cases parseField s.2 tag (some body') <;> rfl

theorem parseLine_blank (s : List DevInfo × DevInfo) :
    parseLine s [] = .ok (s.1 ++ [s.2], .empty) := rfl

theorem valueField_field {key : List Char} (hkey : '=' ∉ key) (value : List Char) :
    valueField (some (field key value)) = .ok value := by
  rw [valueField, field, orRaise_some]
  change orRaise _ (cut '=' _).2 = _
  rw [cut_append hkey, orRaise_some]

variable (d : Listed)

theorem rstrip_idBody : rstrip (tagged "I:".toList d.idBody) = tagged "I:".toList d.idBody := by
  -- the line ends with the digits of the version
  obtain ⟨start, hstart⟩ : ∃ start,
      tagged "I:".toList d.idBody = start ++ '=' :: hex4 d.version := by
    refine ⟨"I: ".toList ++ field "Bus".toList (hex4 d.bus) ++
      ' ' :: (field "Vendor".toList (hex4 d.vendor) ++
        ' ' :: (field "Product".toList (hex4 d.product) ++ " Version".toList)), ?_⟩
    simp [tagged, idBody, idFields, field, List.intercalate]
  rw [hstart, rstrip_append_cons (by decide), rstrip_of_notSpace fun c hc =>
    isSpace_of_isHexDigit (isHexDigit_of_mem_hex4 hc)]

theorem key_of_mem_idFields {f : List Char × Nat} (hf : f ∈ d.idFields) :
    ' ' ∉ f.1 ∧ '=' ∉ f.1 ∧ OnLine f.1 := by
  simp only [idFields, List.mem_cons, List.not_mem_nil, or_false] at hf
  rcases hf with rfl | rfl | rfl | rfl <;> dsimp only <;>
    exact ⟨by decide, by decide, by decide, by decide⟩

theorem splitOn_idBody :
    d.idBody.splitOn ' ' = d.idFields.map fun f => field f.1 (hex4 f.2) := by
  refine List.splitOn_intercalate ' ' (fun text htext => ?_) (by simp [idFields])
  obtain ⟨f, hf, rfl⟩ := List.mem_map.mp htext
  intro hmem
  rcases List.mem_append.mp hmem with hmem | hmem
  · exact (d.key_of_mem_idFields hf).1 hmem
  · rcases List.mem_cons.mp hmem with hmem | hmem
    · exact absurd hmem (by decide)
    · exact notMem_hex4 (by decide) _ hmem

theorem foldlM_idPair (ids : Dict (List Char) Int) :
    (d.idFields.map fun f => field f.1 (hex4 f.2)).foldlM idPair ids =
      .ok (d.idFields.foldl (fun ids f => ids.set (lower f.1) (f.2 : Int)) ids) := by
  rw [List.foldlM_map]
  exact foldlM_eq_foldl (fun f hf ids => idPair_field ids (d.key_of_mem_idFields hf).2.1 f.2) ids

theorem parseLine_id (s : List DevInfo × DevInfo) :
    parseLine s (tagged "I:".toList d.idBody) = .ok (s.1, { s.2 with id := d.info.id }) := by
  rw [parseLine_tagged (by decide) d.rstrip_idBody, parseField, if_pos rfl, orRaise_some]
  simp only [bind, Except.bind, splitOn_idBody, foldlM_idPair]
  rfl

theorem parseLine_name (s : List DevInfo × DevInfo) (name : List Char) :
    parseLine s (tagged "N:".toList (field "Name".toList ('"' :: name ++ ['"']))) =
      .ok (s.1, { s.2 with name := some (stripChars isQuote name) }) := by
  have hquote : rstrip ('"' :: name ++ ['"']) = '"' :: name ++ ['"'] :=
    rstrip_append_cons (by decide) ('"' :: name) []
  rw [parseLine_tagged (by decide) (rstrip_tagged _ _ _), hquote, parseField, if_neg (by decide),
    if_pos rfl, valueField_field (by decide)]
  change Except.ok (s.1, { s.2 with name := some (stripChars isQuote ('"' :: name ++ ['"'])) }) = _
  rw [stripChars_between (by decide) (by decide)]

theorem parseLine_phys (s : List DevInfo × DevInfo) (phys : List Char) :
    parseLine s (tagged "P:".toList (field "Phys".toList phys)) =
      .ok (s.1, { s.2 with phys := some (rstrip phys) }) := by
  rw [parseLine_tagged (by decide) (rstrip_tagged _ _ _), parseField, if_neg (by decide),
    if_neg (by decide), if_pos rfl, valueField_field (by decide)]
  rfl

theorem parseLine_sysfs (s : List DevInfo × DevInfo) (sysfs : List Char) :
    parseLine s (tagged "S:".toList (field "Sysfs".toList sysfs)) =
      .ok (s.1, { s.2 with sysfs := some (rstrip sysfs) }) := by
  rw [parseLine_tagged (by decide) (rstrip_tagged _ _ _), parseField, if_neg (by decide),
    if_neg (by decide), if_neg (by decide), if_pos rfl, valueField_field (by decide)]
  rfl

theorem parseLine_uniq (s : List DevInfo × DevInfo) (uniq : List Char) :
    parseLine s (tagged "U:".toList (field "Uniq".toList uniq)) =
      .ok (s.1, { s.2 with uniq := some (rstrip uniq) }) := by
  rw [parseLine_tagged (by decide) (rstrip_tagged _ _ _), parseField, if_neg (by decide),
    if_neg (by decide), if_neg (by decide), if_neg (by decide), if_pos rfl,
    valueField_field (by decide)]
  rfl

theorem words_handlers {handlers : List (List Char)}
    (h : ∀ w ∈ handlers, w ≠ [] ∧ ∀ c ∈ w, isSpace c = false) :
    words (handlers.flatMap (· ++ [' '])) = handlers := by
  induction handlers with
  | nil => rfl
  | cons w ws ih =>
      obtain ⟨hw, hws⟩ := List.forall_mem_cons.mp h
      rw [List.flatMap_cons, List.append_assoc, List.singleton_append,
        words_append_cons hw.1 hw.2 (by decide), ih hws]

theorem parseLine_handlers (s : List DevInfo × DevInfo) :
    parseLine s (tagged "H:".toList (field "Handlers".toList (d.handlers.flatMap (· ++ [' '])))) =
      .ok (s.1, { s.2 with handlers := some d.handlers }) := by
  rw [parseLine_tagged (by decide) (rstrip_tagged _ _ _), parseField, if_neg (by decide),
    if_neg (by decide), if_neg (by decide), if_neg (by decide), if_neg (by decide), if_pos rfl,
    valueField_field (by decide)]
  simp only [bind, Except.bind, words_rstrip, words_handlers d.handlers_word]
  rfl

/-- What a bitmap line adds. -/
def addBitmap (devInfo : DevInfo) (b : List Char × List Char) : DevInfo :=
  { devInfo with bitmaps := some ((devInfo.bitmaps.getD ∅).set (lower b.1) (rstrip b.2)) }

theorem parseLine_bitmap {b : List Char × List Char} (hb : '=' ∉ b.1)
    (s : List DevInfo × DevInfo) :
    parseLine s (tagged "B:".toList (field b.1 b.2)) = .ok (s.1, addBitmap s.2 b) := by
  rw [parseLine_tagged (by decide) (rstrip_tagged _ _ _), parseField, if_neg (by decide),
    if_neg (by decide), if_neg (by decide), if_neg (by decide), if_neg (by decide),
    if_neg (by decide), if_pos rfl, orRaise_some, field]
  simp only [bind, Except.bind, cut_append hb]
  rfl

theorem foldl_addBitmap (bs : List (List Char × List Char)) {i : DevInfo}
    {m : Dict (List Char) (List Char)} (h : i.bitmaps = some m) :
    bs.foldl addBitmap i =
      { i with bitmaps := some (bs.foldl (fun m b => m.set (lower b.1) (rstrip b.2)) m) } := by
  induction bs generalizing i m with
  | nil =>
      rw [List.foldl_nil, List.foldl_nil, ← h]
  | cons b bs ih =>
      have hadd : addBitmap i b = { i with bitmaps := some (m.set (lower b.1) (rstrip b.2)) } := by
        rw [addBitmap, h, Option.getD_some]
      rw [List.foldl_cons, ih (congrArg DevInfo.bitmaps hadd), hadd]
      rfl

theorem foldlM_bitmaps {bs : List (List Char × List Char)} (hbs : ∀ b ∈ bs, '=' ∉ b.1)
    (devs : List DevInfo) (i : DevInfo) :
    (bs.map fun b => tagged "B:".toList (field b.1 b.2)).foldlM parseLine (devs, i) =
      .ok (devs, bs.foldl addBitmap i) := by
  induction bs generalizing i with
  | nil => rfl
  | cons b bs ih =>
      obtain ⟨hb, hbs⟩ := List.forall_mem_cons.mp hbs
      rw [List.map_cons, List.foldlM_cons, bind_of_eq_ok (parseLine_bitmap hb _), ih hbs]
      rfl

/-- The section of a device is parsed to its dictionary. -/
theorem foldlM_lines (devs : List DevInfo) :
    d.lines.foldlM parseLine (devs, .empty) = .ok (devs ++ [d.info], .empty) := by
  have hbitmaps : ∀ i : DevInfo, i.bitmaps = none → d.bitmaps.foldl addBitmap i =
      { i with bitmaps := d.info.bitmaps } := by
    intro i hi
    have hadd (b : List Char × List Char) : addBitmap i b =
        { i with bitmaps := some ((∅ : Dict _ _).set (lower b.1) (rstrip b.2)) } := by
      rw [addBitmap, hi, Option.getD_none]
    cases hd : d.bitmaps with
    | nil => exact absurd (hd ▸ d.ev_mem) List.not_mem_nil
    | cons b bs =>
        rw [List.foldl_cons, foldl_addBitmap bs (congrArg DevInfo.bitmaps (hadd b)), hadd, info, hd]
        rfl
  rw [lines, List.foldlM_append, List.foldlM_append]
  simp only [List.foldlM_cons, List.foldlM_nil, parseLine_id, parseLine_name, parseLine_phys,
    parseLine_sysfs, parseLine_uniq, parseLine_handlers, bind, Except.bind, pure, Except.pure,
    foldlM_bitmaps fun b hb => (d.bitmaps_onLine b hb).2.2, parseLine_blank]
  rw [hbitmaps _ rfl]
  rfl

theorem onLine_append {a b : List Char} : OnLine (a ++ b) ↔ OnLine a ∧ OnLine b := by
  simp only [OnLine, List.mem_append, not_or]
  exact and_and_and_comm

theorem onLine_cons {c : Char} {s : List Char} :
    OnLine (c :: s) ↔ (c ≠ '\n' ∧ c ≠ '\r') ∧ OnLine s := by
  simp only [OnLine, List.mem_cons, not_or, ne_comm (a := c)]
  exact and_and_and_comm

theorem onLine_tagged {tag key value : List Char} (htag : OnLine tag) (hkey : OnLine key)
    (hvalue : OnLine value) : OnLine (tagged tag (field key value)) := by
  rw [tagged, field, onLine_append, onLine_cons, onLine_append, onLine_cons]
  exact ⟨htag, by decide, hkey, by decide, hvalue⟩

theorem onLine_hex4 (n : Nat) : OnLine (hex4 n) :=
  ⟨notMem_hex4 (by decide) n, notMem_hex4 (by decide) n⟩

theorem onLine_idBody : OnLine d.idBody := by
  simp only [idBody, idFields, List.intercalate, List.map_cons, List.map_nil]
  simp [List.intersperse, field, onLine_append, onLine_cons, onLine_hex4]

theorem onLine_handlers : OnLine (d.handlers.flatMap (· ++ [' '])) := by
  constructor
  · intro h
    obtain ⟨w, hw, hmem⟩ := List.mem_flatMap.mp h
    rcases List.mem_append.mp hmem with hmem | hmem
    · exact absurd ((d.handlers_word w hw).2 _ hmem) (by decide)
    · exact absurd (List.mem_singleton.mp hmem) (by decide)
  · intro h
    obtain ⟨w, hw, hmem⟩ := List.mem_flatMap.mp h
    rcases List.mem_append.mp hmem with hmem | hmem
    · exact absurd ((d.handlers_word w hw).2 _ hmem) (by decide)
    · exact absurd (List.mem_singleton.mp hmem) (by decide)

/-- No line of a section contains another line end. -/
theorem onLine_of_mem_lines {l : List Char} (h : l ∈ d.lines) : OnLine l := by
  simp only [lines, List.mem_append, List.mem_cons, List.mem_map, List.not_mem_nil, or_false] at h
  rcases h with ((rfl | rfl | rfl | rfl | rfl | rfl) | ⟨b, hb, rfl⟩) | rfl
  · exact onLine_append.mpr ⟨⟨by decide, by decide⟩, onLine_cons.mpr ⟨by decide, d.onLine_idBody⟩⟩
  · refine onLine_tagged ⟨by decide, by decide⟩ ⟨by decide, by decide⟩ ?_
    exact onLine_append.mpr ⟨onLine_cons.mpr ⟨by decide, d.name_onLine⟩, by decide, by decide⟩
  · exact onLine_tagged ⟨by decide, by decide⟩ ⟨by decide, by decide⟩ d.phys_onLine
  · exact onLine_tagged ⟨by decide, by decide⟩ ⟨by decide, by decide⟩ d.sysfs_onLine
  · exact onLine_tagged ⟨by decide, by decide⟩ ⟨by decide, by decide⟩ d.uniq_onLine
  · exact onLine_tagged ⟨by decide, by decide⟩ ⟨by decide, by decide⟩ d.onLine_handlers
  · obtain ⟨hkey, hvalue, -⟩ := d.bitmaps_onLine b hb
    exact onLine_tagged ⟨by decide, by decide⟩ hkey hvalue
  · exact ⟨List.not_mem_nil, List.not_mem_nil⟩

end Listed

/-- Parsing gives back the devices that were listed. -/
theorem parseProcfsEntry_listing (ds : List Listed) :
    parseProcfsEntry (listing ds) = .ok (ds.map Listed.info) := by
  have hlines : fileLines (listing ds) = ds.flatMap Listed.lines := by
    refine fileLines_flatMap fun l hl => ?_
    obtain ⟨d, -, hl⟩ := List.mem_flatMap.mp hl
    exact d.onLine_of_mem_lines hl
  have hfold : ∀ devs, (ds.flatMap Listed.lines).foldlM parseLine (devs, .empty) =
      .ok (devs ++ ds.map Listed.info, .empty) := by
    clear hlines
    induction ds with
    | nil =>
        intro devs
        rw [List.map_nil, List.append_nil]
        rfl
    | cons d ds ih =>
        intro devs
        rw [List.flatMap_cons, List.foldlM_append, bind_of_eq_ok (d.foldlM_lines devs), ih,
          List.append_assoc]
        rfl
  rw [parseProcfsEntry, hlines, bind_of_eq_ok (hfold [])]
  rfl

/-! ## The devices opened -/

/-- The mask asks for the four kinds of events, and for no other. -/
theorem hasKeyboardBits_iff (ev : Nat) :
    hasKeyboardBits ev = true ↔
      ev.testBit 0 ∧ ev.testBit 1 ∧ ev.testBit 17 ∧ ev.testBit 20 := by
  have hland : Int.land (Int.lnot ev) 0x120003 = (Nat.ldiff 0x120003 ev : Nat) := rfl
  rw [hasKeyboardBits, decide_eq_true_eq, hland, Int.natCast_eq_zero]
  constructor
  · intro hzero
    have hbit (i : Nat) (hi : Nat.testBit 0x120003 i = true) : ev.testBit i = true := by
      have htest := Nat.testBit_ldiff 0x120003 ev i
      rw [hzero, Nat.zero_testBit, hi, Bool.true_and] at htest
      simpa using htest.symm
    exact ⟨hbit 0 rfl, hbit 1 rfl, hbit 17 rfl, hbit 20 rfl⟩
  · rintro ⟨h0, h1, h17, h20⟩
    refine Nat.eq_of_testBit_eq fun i => ?_
    rw [Nat.testBit_ldiff, Nat.zero_testBit]
    cases hi : Nat.testBit 0x120003 i with
    | false => rfl
    | true =>
        have hlt : i < 21 := by
          by_contra hge
          rw [Nat.testBit_lt_two_pow (Nat.lt_of_lt_of_le (by decide : 0x120003 < 2 ^ 21)
            (Nat.pow_le_pow_right (by decide) (Nat.le_of_not_lt hge)))] at hi
          cases hi
        have hmask : i ∈ [0, 1, 17, 20] :=
          (by decide : ∀ i < 21, Nat.testBit 0x120003 i = true → i ∈ [0, 1, 17, 20]) i hlt hi
        have hset : ev.testBit i = true := by
          simp only [List.mem_cons, List.not_mem_nil, or_false] at hmask
          rcases hmask with rfl | rfl | rfl | rfl <;> assumption
        rw [hset]
        rfl

namespace Listed

variable (d : Listed)

theorem get?_foldl_set_of_notMem {α κ ν : Type} [DecidableEq κ] {f : α → κ} {g : α → ν}
    {l : List α} {k : κ} (h : k ∉ l.map f) (m : Dict κ ν) :
    (l.foldl (fun m a => m.set (f a) (g a)) m).get? k = m.get? k := by
  induction l generalizing m with
  | nil => rfl
  | cons a l ih =>
      rw [List.map_cons, List.mem_cons, not_or] at h
      rw [List.foldl_cons, ih h.2, Dict.get?_set_ne _ h.1]

theorem get?_foldl_set {α κ ν : Type} [DecidableEq κ] {f : α → κ} {g : α → ν} {l : List α}
    (hnodup : (l.map f).Nodup) {a : α} (ha : a ∈ l) (m : Dict κ ν) :
    (l.foldl (fun m a => m.set (f a) (g a)) m).get? (f a) = some (g a) := by
  induction l generalizing m with
  | nil => cases ha
  | cons b l ih =>
      rw [List.map_cons, List.nodup_cons] at hnodup
      rw [List.foldl_cons]
      rcases List.mem_cons.mp ha with rfl | ha
      · rw [get?_foldl_set_of_notMem hnodup.1, Dict.get?_set_self]
      · exact ih hnodup.2 ha _

theorem get?_ev : ∃ bitmaps, d.info.bitmaps = some bitmaps ∧
    bitmaps.get? "ev".toList = some (Nat.toDigits 16 d.ev) := by
  have hdigits : rstrip (Nat.toDigits 16 d.ev) = Nat.toDigits 16 d.ev :=
    rstrip_of_notSpace fun c hc => isSpace_of_isHexDigit (isHexDigit_of_mem_toDigits hc)
  have hget := get?_foldl_set (g := fun b => rstrip b.2) d.bitmaps_nodup d.ev_mem ∅
  rw [hdigits] at hget
  exact ⟨_, rfl, hget⟩

theorem not_prefix_of_prefix {b c : Char} {p q h : List Char} (hne : b ≠ c) (hp : b :: p <+: h) :
    ¬c :: q <+: h := by
  rintro ⟨t, rfl⟩
  obtain ⟨u, hu⟩ := hp
  exact hne (List.cons.inj hu).1

theorem scanHandler_kbd {h : List Char} (hevent : ¬"event".toList <+: h)
    (hmouse : ¬"mouse".toList <+: h) (hkbd : "kbd".toList <+: h)
    (s : Option (List Char) × Bool) :
    scanHandler d.info s h = .ok (s.1, s.2 || hasKeyboardBits d.ev) := by
  obtain ⟨bitmaps, hbitmaps, hev⟩ := d.get?_ev
  have hint : int16 ("0x".toList ++ Nat.toDigits 16 d.ev) = some (d.ev : Int) := by
    have hprefixed := int16_prefixed Nat.toDigits_ne_nil
      fun c (hc : c ∈ Nat.toDigits 16 d.ev) => isHexDigit_of_mem_toDigits hc
    rw [hexValue_toDigits] at hprefixed
    exact hprefixed
  rw [scanHandler, if_neg hevent, if_neg hmouse, if_pos hkbd, hbitmaps]
  simp only [orRaise_some, bind, Except.bind, hev, hint]
  rfl

/-- What scanning the handlers finds. -/
theorem foldlM_scanHandler (hs : List (List Char)) (dev : Option (List Char)) (target : Bool) :
    hs.foldlM (scanHandler d.info) (dev, target) =
      .ok ((hs.filter ("event".toList <+: ·)).getLast?.or dev,
        target || hs.any ("mouse".toList <+: ·) ||
          (hs.any ("kbd".toList <+: ·) && hasKeyboardBits d.ev)) := by
  induction hs generalizing dev target with
  | nil => simp [pure, Except.pure]
  | cons h hs ih =>
      rw [List.foldlM_cons, List.any_cons, List.any_cons, List.filter_cons]
      by_cases hevent : "event".toList <+: h
      · have hmouse : ¬"mouse".toList <+: h := not_prefix_of_prefix (by decide) hevent
        have hkbd : ¬"kbd".toList <+: h := not_prefix_of_prefix (by decide) hevent
        have hscan : scanHandler d.info (dev, target) h = .ok (some h, target) := by
          rw [scanHandler, if_pos hevent]
          rfl
        rw [bind_of_eq_ok hscan, ih]
        simp only [hevent, hmouse, hkbd, decide_true, decide_false, Bool.false_or, if_true,
          List.getLast?_cons, Option.or_some, Option.some_or]
      · by_cases hmouse : "mouse".toList <+: h
        · have hkbd : ¬"kbd".toList <+: h := not_prefix_of_prefix (by decide) hmouse
          have hscan : scanHandler d.info (dev, target) h = .ok (dev, true) := by
            rw [scanHandler, if_neg hevent, if_pos hmouse]
            rfl
          rw [bind_of_eq_ok hscan, ih]
          simp only [hevent, hmouse, hkbd, decide_true, decide_false, Bool.false_or, Bool.true_or,
            Bool.or_true, Bool.false_eq_true, if_false]
        · by_cases hkbd : "kbd".toList <+: h
          · rw [bind_of_eq_ok (d.scanHandler_kbd hevent hmouse hkbd _), ih]
            simp only [hevent, hmouse, hkbd, decide_true, decide_false, Bool.false_or, Bool.true_or,
              Bool.true_and, Bool.false_eq_true, if_false]
            cases hasKeyboardBits d.ev <;> simp only [Bool.or_true, Bool.true_or, Bool.or_false,
              Bool.and_false]
          · have hscan : scanHandler d.info (dev, target) h = .ok (dev, target) := by
              rw [scanHandler, if_neg hevent, if_neg hmouse, if_neg hkbd]
              rfl
            rw [bind_of_eq_ok hscan, ih]
            simp only [hevent, hmouse, hkbd, decide_false, Bool.false_or, Bool.false_eq_true,
              if_false]

instance : Decidable d.IsTarget :=
  inferInstanceAs (Decidable ((∃ h ∈ d.handlers, "mouse".toList <+: h) ∨
    (∃ h ∈ d.handlers, "kbd".toList <+: h) ∧
      d.ev.testBit 0 ∧ d.ev.testBit 1 ∧ d.ev.testBit 17 ∧ d.ev.testBit 20))

theorem foldlM_handlers :
    d.handlers.foldlM (scanHandler d.info) (none, false) = .ok (d.node, decide d.IsTarget) := by
  rw [foldlM_scanHandler, Option.or_none, node]
  refine congrArg (fun b => Except.ok (_, b)) (Bool.eq_iff_iff.mpr ?_)
  rw [decide_eq_true_eq, IsTarget, ← hasKeyboardBits_iff, Bool.false_or, Bool.or_eq_true,
    Bool.and_eq_true, List.any_eq_true, List.any_eq_true]
  simp only [decide_eq_true_eq]

/-- What is announced and opened of a target. -/
def found : Option (List Char) × DevInfo := (d.node, d.info)

end Listed

/-- The devices opened so far have the file descriptors given for them, in order. -/
def InOrder (fd : Nat → Nat) (s : Opened) : Prop :=
  s.entries.entries = s.announced.zipIdx.map fun p => (fd p.2, p.1)

theorem inOrder_set {fd : Nat → Nat} (hfd : Function.Injective fd) {s : Opened}
    (hs : InOrder fd s) (e : Option (List Char) × DevInfo) :
    InOrder fd ⟨s.announced ++ [e], s.entries.set (fd s.announced.length) e⟩ := by
  have hfresh : fd s.announced.length ∉ s.entries.keys := by
    rw [Dict.keys, hs, List.map_map]
    intro hmem
    obtain ⟨⟨e', i⟩, hi, heq⟩ := List.mem_map.mp hmem
    have hlt := List.snd_lt_of_mem_zipIdx hi
    have hsame : i = s.announced.length := hfd heq
    omega
  rw [InOrder, Dict.entries_set_of_notMem hfresh, hs, List.zipIdx_append, List.map_append]
  simp

theorem openDev_info {fd : Nat → Nat} (s : Opened) (d : Listed) :
    openDev (fun k => some (fd k)) s d.info =
      .ok (if d.IsTarget then
        ⟨s.announced ++ [d.found], s.entries.set (fd s.announced.length) d.found⟩ else s) := by
  have hhandlers : d.info.handlers = some d.handlers := rfl
  rw [openDev, hhandlers]
  simp only [d.foldlM_handlers]
  by_cases ht : d.IsTarget
  · rw [if_pos ht, decide_eq_true ht]
    rfl
  · rw [if_neg ht, decide_eq_false ht]

/-- The agent opens the pointers and the full keyboards of the list, each under its device node, in
the order of the list, and no other device. -/
theorem getDevs_listing {fd : Nat → Nat} (hfd : Function.Injective fd) (ds : List Listed) :
    ∃ opened, getDevs (fun k => some (fd k)) (listing ds) = .ok opened ∧
      opened.announced = (ds.filter (·.IsTarget)).map Listed.found ∧
      opened.entries.entries = opened.announced.zipIdx.map fun p => (fd p.2, p.1) := by
  have hfold : ∀ s, InOrder fd s → ∃ s', (ds.map Listed.info).foldlM
      (openDev fun k => some (fd k)) s = .ok s' ∧
      s'.announced = s.announced ++ (ds.filter (·.IsTarget)).map Listed.found ∧
      InOrder fd s' := by
    induction ds with
    | nil => exact fun s hs => ⟨s, rfl, (List.append_nil _).symm, hs⟩
    | cons d ds ih =>
        intro s hs
        rw [List.map_cons, List.foldlM_cons, bind_of_eq_ok (openDev_info s d), List.filter_cons]
        by_cases ht : d.IsTarget
        · obtain ⟨s', hrun, hannounced, horder⟩ := ih _ (inOrder_set hfd hs d.found)
          refine ⟨s', ?_, ?_, horder⟩
          · rw [if_pos ht]
            exact hrun
          · rw [hannounced, if_pos (decide_eq_true ht), List.map_cons, List.append_assoc]
            rfl
        · obtain ⟨s', hrun, hannounced, horder⟩ := ih s hs
          refine ⟨s', ?_, ?_, horder⟩
          · rw [if_neg ht]
            exact hrun
          · rw [hannounced, if_neg (by simpa using ht)]
  obtain ⟨opened, hrun, hannounced, horder⟩ := hfold ⟨[], ∅⟩ rfl
  refine ⟨opened, ?_, hannounced, horder⟩
  rw [getDevs, parseProcfsEntry_listing]
  exact hrun

theorem getDevs_listing_mouse : ∃ d : Listed, d.IsTarget ∧
    ∃ opened, getDevs (fun k => some (k + 3)) (listing [d]) = .ok opened ∧
      opened.entries.entries = [(3, (some "event4".toList, d.info))] := by
  refine ⟨{
    bus := 0x11, vendor := 2, product := 6, version := 0
    name := "ImExPS/2 Mouse".toList
    phys := "isa0060/serio1/input0".toList
    sysfs := "/devices/platform/i8042/serio1/input/input4".toList
    uniq := [], handlers := ["mouse0".toList, "event4".toList]
    bitmaps := [("PROP".toList, "1".toList), ("EV".toList, "7".toList)], ev := 7
    name_onLine := ⟨by decide, by decide⟩
    phys_onLine := ⟨by decide, by decide⟩
    sysfs_onLine := ⟨by decide, by decide⟩
    uniq_onLine := ⟨by decide, by decide⟩
    handlers_word := List.forall_mem_cons.mpr
      ⟨⟨List.cons_ne_nil _ _, List.forall_iff_forall_mem.mp (by decide)⟩,
        List.forall_mem_singleton.mpr
          ⟨List.cons_ne_nil _ _, List.forall_iff_forall_mem.mp (by decide)⟩⟩
    bitmaps_onLine := List.forall_mem_cons.mpr
      ⟨⟨⟨by decide, by decide⟩, ⟨by decide, by decide⟩, by decide⟩,
        List.forall_mem_singleton.mpr ⟨⟨by decide, by decide⟩, ⟨by decide, by decide⟩, by decide⟩⟩
    bitmaps_nodup := by decide
    ev_mem := by decide }, .inl ⟨"mouse0".toList, List.mem_cons_self, by decide⟩, ?_⟩
  obtain ⟨opened, hrun, hannounced, hentries⟩ :=
    getDevs_listing (add_left_injective 3) [_]
  refine ⟨opened, hrun, ?_⟩
  rw [hentries, hannounced]
  rfl

end TpQemu.InputEvent
