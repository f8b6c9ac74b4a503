import TpQemu.Lib.Dict
import TpQemu.Lib.Numeral
import TpQemu.Lib.Python
import TpQemu.Lib.Replace

/-!
# The rows of a table of results

`format_result`, `get_sum_result` and the table of `result_sum` in `qemu/tests/performance.py`,
from the order of its categories to the last of them. The row of a category begins as a line of
numbered placeholders. Each result is put into the place of its column, wherever its placeholder
is found.
-/

namespace TpQemu.Performance

open Text

/-- A result. -/
inductive Number (F : Type) where
  | int (z : Int)
  | float (x : F)

/-- What is stored for an item of a category: a result, or the results of a thread. -/
inductive Result (F : Type) where
  | value (v : Number F)
  | thread (results : Dict (List Char) (Number F))

/-- What `result_sum` brings to the table: what it has read, and the parameters. -/
structure Env (F : Type) where
  orderList : List (List Char)
  /-- Without the tag of the threads, which is taken out for the headline. -/
  resultsMatrix : Dict (List Char) (Dict (List Char) (Result F))
  threadTag : Option (List Char)
  /-- The dictionary that has been filled last. -/
  tmpDic : Option (Dict (List Char) (Number F))
  /-- `params.get("matrix_order", "")` -/
  matrixOrder : List Char
  /-- `params.get("sum_marks", "")` -/
  sumMarks : List Char
  /-- `"%.2f" % x` -/
  fixed : F → List Char
  /-- `+` of results -/
  add : Number F → Number F → Number F

/-- The lines written so far, and the variables that a category leaves to the next one. -/
structure Table (F : Type) where
  lines : List (List Char)
  sumMatrix : Dict (List Char) (Number F)
  tmpDic : Option (Dict (List Char) (Number F))

/-- Within a category there is also the line of its own results. -/
structure Rows (F : Type) extends Table F where
  outLoopLine : List Char
  writeOutLoop : Bool

/-- `"%20s" % s` -/
def formatText (s : List Char) : List Char := s.leftpad 20 ' '

section Definitions

variable {F : Type}

/-- `format_result` of a number; `fixed` is `"%.2f"`. -/
def formatResult (fixed : F → List Char) : Number F → List Char
  | .int z => formatText (Numeral.str z)
  | .float x => formatText (fixed x)

/-- `s.rstrip("|")` -/
def rstripBar (s : List Char) : List Char := (s.reverse.dropWhile (· = '|')).reverse

/-- `"DATA%d" % index` -/
def placeholder (index : Nat) : List Char := "DATA".toList ++ Numeral.str index

/-- `order_line` -/
def orderLine (orderList : List (List Char)) : List Char :=
  rstripBar ((List.range orderList.length).flatMap fun index => placeholder index ++ ['|'])

variable (env : Env F)

def headline : List Char :=
  rstripBar ((env.threadTag.elim [] fun tag => formatText tag ++ ['|']) ++
    env.orderList.flatMap fun tag => formatText tag ++ ['|'])

def getSumResult (sumMatrix : Dict (List Char) (Number F)) (value : Number F) (tag : List Char) :
    Dict (List Char) (Number F) :=
  match sumMatrix.get? tag with
  | some sum => sumMatrix.set tag (env.add sum value)
  | none => sumMatrix.set tag value

/-- A field of the line of a thread. -/
def addTag (results : Dict (List Char) (Number F))
    (row : List Char × Dict (List Char) (Number F)) (tag : List Char) :
    Except PyError (List Char × Dict (List Char) (Number F)) := do
  let v ← orRaise .keyError (results.get? tag)
  return (row.1 ++ formatResult env.fixed v ++ ['|'],
    if (words env.sumMarks).contains tag then getSumResult env row.2 v tag else row.2)

/-- Where a result stands alone, `tag` still is the last one of the list, and `tmp_dic` the last
dictionary. -/
def sumLastTag (rows : Rows F) : Except PyError (Rows F) := do
  let tag ← orRaise .unboundLocalError env.orderList.getLast?
  if (words env.sumMarks).contains tag then
    let tmpDic ← orRaise .unboundLocalError rows.tmpDic
    let v ← orRaise .keyError (tmpDic.get? tag)
    return { rows with sumMatrix := getSumResult env rows.sumMatrix v tag }
  else return rows

/-- One round of the loop over the items of a category. A result is a number, so its text has no
character that is special in a replacement. -/
def addItem (rows : Rows F) : List Char × Result F → Except PyError (Rows F)
  | (item, .thread results) => do
      let (line, sumMatrix) ←
        env.orderList.foldlM (addTag env results) (formatText item ++ ['|'], rows.sumMatrix)
      return { rows with
        lines := rows.lines ++ [rstripBar line]
        sumMatrix := sumMatrix
        tmpDic := some results
        writeOutLoop := false }
  | (item, .value v) => do
      let index ← orRaise .valueError (env.orderList.idxOf? item)
      sumLastTag env { rows with
        outLoopLine := replace (placeholder index) (formatResult env.fixed v) rows.outLoopLine }

/-- One round of the loop over the categories. -/
def writeCategory (table : Table F) (category : List Char) : Except PyError (Table F) := do
  let results ← orRaise .keyError (env.resultsMatrix.get? category)
  let rows ← results.entries.foldlM (addItem env)
    ⟨{ table with lines := table.lines ++ [category, headline env] }, orderLine env.orderList, true⟩
  return { rows.toTable with
    lines := if rows.writeOutLoop then rows.lines ++ [rows.outLoopLine] else rows.lines }

/-- `matrix_order`. When it is not given, the keys of the dictionary are sorted in place, which
they are not made for. -/
def chooseOrder : Except PyError (List (List Char)) :=
  match words env.matrixOrder with
  | [] => .error .attributeError
  | order => .ok order

/-- The table as it is before the first category. -/
def Env.table : Table F := ⟨["Category:ALL".toList], ∅, env.tmpDic⟩

/-- The categories of `result_sum`. -/
def resultSum : Except PyError (Table F) := do
  let order ← chooseOrder env
  order.foldlM (writeCategory env) env.table

end Definitions

/-! ## Placeholders -/

/-- No placeholder begins in a text. -/
def Plain (s : List Char) : Prop := 'D' ∉ s

theorem placeholder_ne_nil (index : Nat) : placeholder index ≠ [] := List.cons_ne_nil _ _

theorem notMem_str {c : Char} (hc : c.isDigit = false) (index : Nat) :
    c ∉ Numeral.str index := by
  intro h
  exact Bool.false_ne_true (hc.symm.trans
    (Numeral.isDigit_of_mem_str (Int.natCast_nonneg index) h))

theorem bar_notMem_placeholder (index : Nat) : '|' ∉ placeholder index := by
  rw [placeholder, List.mem_append, not_or]
  exact ⟨by decide, notMem_str (by decide) index⟩

/-- What ends with a text other than bars is not shortened. -/
theorem rstripBar_append {f : List Char} (hne : f ≠ []) (hbar : '|' ∉ f) (s : List Char) :
    rstripBar (s ++ f) = s ++ f := by
  obtain ⟨g, c, rfl⟩ := List.eq_nil_or_concat f |>.resolve_left hne
  have hc : c ≠ '|' := by
    rintro rfl
    exact hbar (by simp)
  rw [rstripBar, List.concat_eq_append, ← List.append_assoc, List.reverse_append,
    List.reverse_singleton, List.singleton_append, List.dropWhile_cons_of_neg (by simpa using hc),
    List.reverse_cons, List.reverse_reverse]

theorem rstripBar_bar (s : List Char) : rstripBar (s ++ ['|']) = rstripBar s := by
  rw [rstripBar, List.reverse_append, List.reverse_singleton, List.singleton_append,
    List.dropWhile_cons_of_pos (by simp)]
  rfl

theorem flatMap_bar {fs : List (List Char)} (hne : fs ≠ []) :
    fs.flatMap (· ++ ['|']) = ['|'].intercalate fs ++ ['|'] := by
  induction fs with
  | nil => exact absurd rfl hne
  | cons f fs ih =>
      cases fs with
      | nil => simp
      | cons g fs =>
          rw [List.flatMap_cons, ih (List.cons_ne_nil _ _), List.intercalate_cons_cons]
          simp

theorem exists_intercalate_append (fs : List (List Char)) (f : List Char) :
    ∃ s, ['|'].intercalate (fs ++ [f]) = s ++ f := by
  induction fs with
  | nil => exact ⟨[], by simp⟩
  | cons g fs ih =>
      obtain ⟨s, hs⟩ := ih
      refine ⟨g ++ '|' :: s, ?_⟩
      rw [List.cons_append, List.intercalate_cons_of_ne_nil (by simp), hs]
      simp

theorem orderLine_eq (orderList : List (List Char)) :
    orderLine orderList = ['|'].intercalate ((List.range orderList.length).map placeholder) := by
  have hflat : ∀ n, (List.range n).flatMap (fun index => placeholder index ++ ['|']) =
      ((List.range n).map placeholder).flatMap (· ++ ['|']) := fun n => by rw [List.flatMap_map]
  rw [orderLine, hflat]
  cases orderList.length with
  | zero => rfl
  | succ n =>
      rw [flatMap_bar (by simp), rstripBar_bar, List.range_succ, List.map_append, List.map_cons,
        List.map_nil]
      obtain ⟨s, hs⟩ := exists_intercalate_append ((List.range n).map placeholder) (placeholder n)
      rw [hs]
      exact rstripBar_append (placeholder_ne_nil n) (bar_notMem_placeholder n) s

theorem replace_plain (i : Nat) (new : List Char) {s : List Char} (h : Plain s) :
    replace (placeholder i) new s = s := by
  apply replace_of_absent (placeholder_ne_nil i)
  intro hin
  exact h (hin.subset List.mem_cons_self)

/-- A placeholder is found in another one exactly if its number is in front of the other's. -/
theorem replace_placeholder (i j : Nat) (new : List Char) :
    replace (placeholder i) new (placeholder j) =
      if Numeral.str i <+: Numeral.str j then new ++ (Numeral.str j).drop (Numeral.str i).length
      else placeholder j := by
  have hD : ¬placeholder i <:+: "ATA".toList ++ Numeral.str j := by
    intro hin
    have hmem := hin.subset (List.mem_cons_self (a := 'D'))
    rw [List.mem_append] at hmem
    exact hmem.elim (by decide) (notMem_str (by decide) j)
  split
  · rename_i hprefix
    obtain ⟨rest, hrest⟩ := hprefix
    have hplain : Plain rest := by
      intro hmem
      exact notMem_str (by decide) j (hrest ▸ List.mem_append_right _ hmem)
    have hj : placeholder j = placeholder i ++ rest := by
      rw [placeholder, placeholder, ← hrest, List.append_assoc]
    rw [hj, replace_append_self (placeholder_ne_nil i), replace_plain i new hplain, ← hrest,
      List.drop_left]
  · rename_i hprefix
    apply replace_of_absent (placeholder_ne_nil i)
    intro hin
    rcases List.infix_cons_iff.mp hin with hpre | hin
    · exact hprefix ((List.prefix_append_right_inj "DATA".toList).mp hpre)
    · exact hD hin

/-! ## Columns -/

/-- The results are put into a line. -/
def fill (cols : List (Nat × List Char)) (line : List Char) : List Char :=
  cols.foldl (fun line col => replace (placeholder col.1) col.2 line) line

theorem fill_intercalate (cols : List (Nat × List Char)) (fields : List (List Char)) :
    fill cols (['|'].intercalate fields) = ['|'].intercalate (fields.map (fill cols)) := by
  induction cols generalizing fields with
  | nil => exact congrArg (['|'].intercalate ·) (List.map_id fields).symm
  | cons col cols ih =>
      rw [fill, List.foldl_cons,
        replace_intercalate (placeholder_ne_nil col.1) (bar_notMem_placeholder col.1)]
      refine (ih _).trans ?_
      rw [List.map_map]
      rfl

theorem fill_plain (cols : List (Nat × List Char)) {s : List Char} (h : Plain s) :
    fill cols s = s := by
  induction cols with
  | nil => rfl
  | cons col cols ih =>
      rw [fill, List.foldl_cons, replace_plain col.1 col.2 h]
      exact ih

/-- A field gets the first result whose number is in front of its own, and keeps the rest of its
number. -/
theorem fill_placeholder {cols : List (Nat × List Char)} (h : ∀ col ∈ cols, Plain col.2)
    {j : Nat} {col : Nat × List Char}
    (hfirst : cols.find? (fun col => Numeral.str col.1 <+: Numeral.str j) = some col) :
    fill cols (placeholder j) =
      col.2 ++ (Numeral.str j).drop (Numeral.str col.1).length := by
  induction cols with
  | nil => cases hfirst
  | cons col' cols ih =>
      obtain ⟨hplain, hrest⟩ := List.forall_mem_cons.mp h
      rw [fill, List.foldl_cons, replace_placeholder]
      by_cases hprefix : Numeral.str col'.1 <+: Numeral.str j
      · rw [List.find?_cons_of_pos (by simpa using hprefix)] at hfirst
        cases hfirst
        rw [if_pos hprefix]
        apply fill_plain
        rw [Plain, List.mem_append, not_or]
        exact ⟨hplain, fun hmem => notMem_str (by decide) j (List.mem_of_mem_drop hmem)⟩
      · rw [List.find?_cons_of_neg (by simpa using hprefix)] at hfirst
        rw [if_neg hprefix]
        exact ih hrest hfirst

/-- A line has only one division into fields. -/
theorem intercalate_inj {fs gs : List (List Char)} (hlen : fs.length = gs.length)
    (hfs : ∀ f ∈ fs, '|' ∉ f) (hgs : ∀ g ∈ gs, '|' ∉ g) :
    ['|'].intercalate fs = ['|'].intercalate gs ↔ fs = gs := by
  refine ⟨fun h => ?_, fun h => by rw [h]⟩
  by_cases hne : fs = []
  · subst hne
    exact (List.length_eq_zero_iff.mp hlen.symm).symm
  · have hne' : gs ≠ [] := by
      rintro rfl
      exact hne (List.length_eq_zero_iff.mp hlen)
    rw [← List.splitOn_intercalate '|' hfs hne, h, List.splitOn_intercalate '|' hgs hne']

section Rows

variable {F : Type} {fixed : F → List Char} {tags : List (List Char)}
  {results : Dict (List Char) (Number F)}

/-- The number of a column, as in its placeholder. -/
def number (tags : List (List Char)) (tag : List Char) : List Char := Numeral.str (tags.idxOf tag)

/-- The results as they are stored. -/
def columns (fixed : F → List Char) (tags : List (List Char))
    (results : Dict (List Char) (Number F)) : List (Nat × List Char) :=
  results.entries.map fun e => (tags.idxOf e.1, formatResult fixed e.2)

theorem idxOf?_eq {tag : List Char} (h : tag ∈ tags) : tags.idxOf? tag = some (tags.idxOf tag) := by
  induction tags with
  | nil => cases h
  | cons t tags ih =>
      rw [List.idxOf?_cons, List.idxOf_cons]
      by_cases heq : t = tag
      · simp [heq]
      · have hmem : tag ∈ tags := (List.mem_cons.mp h).resolve_left fun hsym => heq hsym.symm
        rw [beq_false_of_ne heq, ih hmem]
        rfl

/-! ## What a category needs -/

section Needs

variable {env : Env F} {tmpDic : Option (Dict (List Char) (Number F))} {table table' : Table F}
  {rows rows' : Rows F} {item : List Char × Result F} {category : List Char}

/-- What is summed up behind a result that stands alone is there. -/
def LastTagKnown (env : Env F) (tmpDic : Option (Dict (List Char) (Number F))) : Prop :=
  ∀ tag, env.orderList.getLast? = some tag → (words env.sumMarks).contains tag = true →
    ∃ d, tmpDic = some d ∧ tag ∈ d.keys

/-- An item has the results of all the tags, or is the result of one. -/
def Readable (tags : List (List Char)) : List Char × Result F → Prop
  | (_, .thread results) => ∀ tag ∈ tags, tag ∈ results.keys
  | (item, .value _) => item ∈ tags

instance (tags : List (List Char)) :
    (item : List Char × Result F) → Decidable (Readable tags item)
  | (_, .thread results) => inferInstanceAs (Decidable (∀ tag ∈ tags, tag ∈ results.keys))
  | (item, .value _) => inferInstanceAs (Decidable (item ∈ tags))

def Result.Alone : Result F → Prop
  | .thread _ => False
  | .value _ => True

theorem sumLastTag_eq (h : sumLastTag env rows = .ok rows') :
    ∃ sumMatrix, rows' = { rows with sumMatrix := sumMatrix } := by
  rw [sumLastTag] at h
  obtain ⟨tag, -, h⟩ := ok_of_bind_eq_ok h
  split at h
  · obtain ⟨d, -, h⟩ := ok_of_bind_eq_ok h
    obtain ⟨v, -, h⟩ := ok_of_bind_eq_ok h
    exact ⟨_, (Except.ok.inj h).symm⟩
  · exact ⟨_, (Except.ok.inj h).symm⟩

theorem sumLastTag_ok_iff (hne : env.orderList ≠ []) :
    (∃ rows', sumLastTag env rows = .ok rows') ↔ LastTagKnown env rows.tmpDic := by
  have hlast := List.getLast?_eq_some_getLast hne
  have hread : orRaise .unboundLocalError env.orderList.getLast? = .ok _ :=
    orRaise_eq_ok.mpr hlast
  rw [sumLastTag, bind_of_eq_ok hread]
  constructor
  · rintro ⟨rows', h⟩ tag htag hmark
    cases hlast.symm.trans htag
    rw [if_pos hmark] at h
    obtain ⟨d, hd, h⟩ := ok_of_bind_eq_ok h
    obtain ⟨v, hv, -⟩ := ok_of_bind_eq_ok h
    exact ⟨d, orRaise_eq_ok.mp hd, Dict.mem_keys_iff.mpr ⟨v, orRaise_eq_ok.mp hv⟩⟩
  · intro h
    split
    · rename_i hmark
      obtain ⟨d, hd, htag⟩ := h _ hlast hmark
      obtain ⟨v, hv⟩ := Dict.mem_keys_iff.mp htag
      rw [bind_of_eq_ok (orRaise_eq_ok.mpr hd), bind_of_eq_ok (orRaise_eq_ok.mpr hv)]
      exact ⟨_, rfl⟩
    · exact ⟨rows, rfl⟩

theorem addTag_ok_iff (results : Dict (List Char) (Number F))
    (row : List Char × Dict (List Char) (Number F)) {l : List (List Char)} :
    (∃ row', l.foldlM (addTag env results) row = .ok row') ↔ ∀ tag ∈ l, tag ∈ results.keys := by
  have hstep : ∀ row tag, (∃ row', addTag env results row tag = .ok row') ↔
      tag ∈ results.keys ∧ (False → True) := by
    intro row tag
    rw [Dict.mem_keys_iff, and_iff_left fun h => h.elim]
    constructor
    · rintro ⟨row', h⟩
      obtain ⟨v, hv, -⟩ := ok_of_bind_eq_ok h
      exact ⟨v, orRaise_eq_ok.mp hv⟩
    · rintro ⟨v, hv⟩
      rw [addTag, bind_of_eq_ok (orRaise_eq_ok.mpr hv)]
      exact ⟨_, rfl⟩
  rw [foldlM_ok_iff (fun _ => True) (fun _ => true) hstep (fun _ h => h.elim)
    (fun _ _ _ _ => by simp)]
  exact and_iff_left fun _ _ h => h.elim

/-- A result that stands alone is put into the line of the category. -/
theorem addItem_value {item : List Char} {v : Number F}
    (h : addItem env rows (item, .value v) = .ok rows') :
    ∃ sumMatrix, rows' = { rows with
      outLoopLine := replace (placeholder (env.orderList.idxOf item)) (formatResult env.fixed v)
        rows.outLoopLine
      sumMatrix := sumMatrix } := by
  rw [addItem] at h
  obtain ⟨index, hindex, h⟩ := ok_of_bind_eq_ok h
  rw [orRaise_eq_ok] at hindex
  by_cases hmem : item ∈ env.orderList
  · rw [idxOf?_eq hmem] at hindex
    cases hindex
    exact sumLastTag_eq h
  · rw [List.idxOf?_eq_none_iff.mpr hmem] at hindex
    cases hindex

theorem addItem_ok_iff : (∃ rows', addItem env rows item = .ok rows') ↔
    Readable env.orderList item ∧ (item.2.Alone → LastTagKnown env rows.tmpDic) := by
  obtain ⟨item, v | results⟩ := item
  · rw [Readable, addItem]
    by_cases hmem : item ∈ env.orderList
    · rw [idxOf?_eq hmem, orRaise_some, bind_of_eq_ok rfl,
        sumLastTag_ok_iff (List.ne_nil_of_mem hmem)]
      exact ⟨fun h => ⟨hmem, fun _ => h⟩, fun h => h.2 trivial⟩
    · rw [List.idxOf?_eq_none_iff.mpr hmem]
      refine iff_of_false ?_ fun h => hmem h.1
      rintro ⟨rows', h⟩
      cases h
  · have halone : (Result.thread results).Alone → LastTagKnown env rows.tmpDic := fun h => h.elim
    rw [Readable, and_iff_left halone,
      ← addTag_ok_iff results (formatText item ++ ['|'], rows.sumMatrix)]
    constructor
    · rintro ⟨rows', h⟩
      obtain ⟨row, hrow, -⟩ := ok_of_bind_eq_ok h
      exact ⟨row, hrow⟩
    · rintro ⟨row, hrow⟩
      rw [addItem, bind_of_eq_ok hrow]
      exact ⟨_, rfl⟩

/-- Behind an item the last tag can be summed up. -/
theorem addItem_lastTagKnown (h : addItem env rows item = .ok rows') :
    LastTagKnown env rows'.tmpDic := by
  obtain ⟨hreadable, halone⟩ := addItem_ok_iff.mp ⟨rows', h⟩
  obtain ⟨item, v | results⟩ := item
  · obtain ⟨sumMatrix, rfl⟩ := addItem_value h
    exact halone trivial
  · obtain ⟨row, -, h⟩ := ok_of_bind_eq_ok h
    cases h
    exact fun tag htag _ => ⟨results, rfl, hreadable tag (List.mem_of_getLast? htag)⟩

theorem foldlM_addItem_ok_iff {items : List (List Char × Result F)} :
    (∃ rows', items.foldlM (addItem env) rows = .ok rows') ↔
      (∀ item ∈ items, Readable env.orderList item) ∧
        ∀ item, items.head? = some item → item.2.Alone → LastTagKnown env rows.tmpDic := by
  have hhead : items.find? (fun _ => true) = items.head? := by
    cases items with
    | nil => rfl
    | cons item items => rfl
  have hloop := foldlM_ok_iff (f := addItem env) (fun rows => LastTagKnown env rows.tmpDic)
    (fun _ => true) (fun _ _ => addItem_ok_iff) (fun _ _ => rfl)
    (fun _ _ _ h => iff_of_true (addItem_lastTagKnown h) (.inl rfl)) (l := items) (s := rows)
  rw [hloop, hhead]

def itemsOf (env : Env F) (category : List Char) : List (List Char × Result F) :=
  (env.resultsMatrix.get? category).elim [] Dict.entries

theorem itemsOf_eq {results : Dict (List Char) (Result F)}
    (hfound : env.resultsMatrix.get? category = some results) :
    itemsOf env category = results.entries := by
  rw [itemsOf, hfound]
  rfl

/-- A category that is there, with items that can be written. -/
structure Writable (env : Env F) (category : List Char) : Prop where
  found : category ∈ env.resultsMatrix.keys
  items : ∀ item ∈ itemsOf env category, Readable env.orderList item

/-- The first item of a category is a result that stands alone. -/
def StartsAlone (env : Env F) (category : List Char) : Prop :=
  ∃ item, (itemsOf env category).head? = some item ∧ item.2.Alone

/-- The categories can be written one after the other. -/
structure Passes (env : Env F) (categories : List (List Char)) : Prop where
  writable : ∀ category ∈ categories, Writable env category
  lastTag : ∀ category, categories.find? (fun category => !(itemsOf env category).isEmpty) =
    some category → StartsAlone env category → LastTagKnown env env.tmpDic

theorem writeCategory_of_get? {results : Dict (List Char) (Result F)}
    (hfound : env.resultsMatrix.get? category = some results) :
    (∃ table', writeCategory env table category = .ok table') ↔
      ∃ rows, results.entries.foldlM (addItem env)
        ⟨{ table with lines := table.lines ++ [category, headline env] },
          orderLine env.orderList, true⟩ = .ok rows := by
  rw [writeCategory, hfound, orRaise_some, bind_of_eq_ok rfl]
  constructor
  · rintro ⟨table', h⟩
    obtain ⟨rows, hrows, -⟩ := ok_of_bind_eq_ok h
    exact ⟨rows, hrows⟩
  · rintro ⟨rows, hrows⟩
    rw [bind_of_eq_ok hrows]
    exact ⟨_, rfl⟩

theorem writeCategory_ok_iff : (∃ table', writeCategory env table category = .ok table') ↔
    Writable env category ∧ (StartsAlone env category → LastTagKnown env table.tmpDic) := by
  cases hfound : env.resultsMatrix.get? category with
  | none =>
      refine iff_of_false ?_ fun h => Dict.get?_eq_none_iff.mp hfound h.1.found
      rintro ⟨table', h⟩
      rw [writeCategory, hfound] at h
      cases h
  | some results =>
      have hitems := itemsOf_eq hfound
      have hmem := Dict.mem_keys_iff.mpr ⟨results, hfound⟩
      rw [writeCategory_of_get? hfound, foldlM_addItem_ok_iff, StartsAlone, hitems]
      constructor
      · rintro ⟨hreadable, hhead⟩
        refine ⟨⟨hmem, fun item hitem => hreadable item (hitems ▸ hitem)⟩, ?_⟩
        rintro ⟨item, hitem, halone⟩
        exact hhead item hitem halone
      · rintro ⟨hwritable, hhead⟩
        exact ⟨fun item hitem => hwritable.items item (hitems.symm ▸ hitem),
          fun item hitem halone => hhead ⟨item, hitem, halone⟩⟩

theorem writeCategory_lastTagKnown (h : writeCategory env table category = .ok table') :
    LastTagKnown env table'.tmpDic ↔
      (!(itemsOf env category).isEmpty) = true ∨ LastTagKnown env table.tmpDic := by
  obtain ⟨results, hfound, h⟩ := ok_of_bind_eq_ok h
  obtain ⟨rows, hrows, h⟩ := ok_of_bind_eq_ok h
  cases h
  have hloop := foldlM_gives (fun rows => LastTagKnown env rows.tmpDic) (fun _ => true)
    (fun _ _ _ h => iff_of_true (addItem_lastTagKnown h) (.inl rfl)) hrows
  have hexists : (∃ item ∈ results.entries, true = true) ↔ (!results.entries.isEmpty) = true := by
    cases results.entries with
    | nil => simp
    | cons item items => simp
  rw [itemsOf_eq (orRaise_eq_ok.mp hfound), ← hexists]
  exact hloop

/-- The loop comes through categories exactly if they can be written one after the other. -/
theorem passes_iff {categories : List (List Char)} :
    (∃ table, categories.foldlM (writeCategory env) env.table = .ok table) ↔
      Passes env categories := by
  have hneeds : ∀ category, StartsAlone env category →
      (!(itemsOf env category).isEmpty) = true := by
    rintro category ⟨item, hitem, -⟩
    rw [Bool.not_eq_true', List.isEmpty_eq_false_iff]
    exact List.ne_nil_of_mem (List.mem_of_head? hitem)
  have hloop := foldlM_ok_iff (f := writeCategory env) (fun table => LastTagKnown env table.tmpDic)
    (fun category => !(itemsOf env category).isEmpty) (fun _ _ => writeCategory_ok_iff) hneeds
    (fun _ _ _ => writeCategory_lastTagKnown) (l := categories) (s := env.table)
  rw [hloop]
  exact ⟨fun h => ⟨h.1, h.2⟩, fun h => ⟨h.writable, h.lastTag⟩⟩

end Needs

/-! ## The row of a category -/

theorem map_idxOf (h : tags.Nodup) : tags.map tags.idxOf = List.range tags.length := by
  apply List.ext_getElem
  · simp
  · intro i hi _
    rw [List.getElem_map, List.getElem_range]
    exact h.idxOf_getElem i (by simpa using hi)

/-- The text of the value of a tag. -/
def valueText (fixed : F → List Char) (results : Dict (List Char) (Number F)) (tag : List Char) :
    List Char :=
  (results.get? tag).elim [] (formatResult fixed)

/-- A column whose number begins with that of another one is stored before it, unless its text is
the other's with the rest of the number behind it. -/
def Kept (fixed : F → List Char) (tags : List (List Char))
    (results : Dict (List Char) (Number F)) : Prop :=
  ∀ tag v e, results.get? tag = some v →
    results.entries.find? (fun e => number tags e.1 <+: number tags tag) = some e →
    e.1 = tag ∨
      formatResult fixed v =
        formatResult fixed e.2 ++ (number tags tag).drop (number tags e.1).length

/-- The texts of floating point numbers have neither letters of a placeholder nor bars. -/
def Numeric (fixed : F → List Char) : Prop := ∀ x, ∀ c ∈ fixed x, c ≠ 'D' ∧ c ≠ '|'

theorem Numeric.formatResult (h : Numeric fixed) (v : Number F) :
    ∀ c ∈ formatResult fixed v, c ≠ 'D' ∧ c ≠ '|' := by
  have hpad : ∀ s : List Char, (∀ c ∈ s, c ≠ 'D' ∧ c ≠ '|') →
      ∀ c ∈ formatText s, c ≠ 'D' ∧ c ≠ '|' := by
    intro s hs c hc
    rw [formatText, List.leftpad, List.mem_append] at hc
    rcases hc with hc | hc
    · rw [(List.mem_replicate.mp hc).2]
      decide
    · exact hs c hc
  cases v with
  | int z =>
      apply hpad
      intro c hc
      rw [Numeral.str] at hc
      have hdigits : ∀ c ∈ Nat.toDigits 10 z.natAbs, c ≠ 'D' ∧ c ≠ '|' := by
        intro c hc
        have hdigit := Nat.isDigit_of_mem_toDigits (by decide) (by decide) hc
        constructor <;> rintro rfl <;> exact absurd hdigit (by decide)
      split at hc
      · rcases List.mem_cons.mp hc with rfl | hc
        · decide
        · exact hdigits c hc
      · exact hdigits c hc
  | float x => exact hpad _ (h x)

/-- What the field of a tag gets. -/
theorem fill_column (hnum : Numeric fixed) (tags : List (List Char)) {tag : List Char}
    {v : Number F} (hv : results.get? tag = some v) :
    ∃ e, results.entries.find? (fun e => number tags e.1 <+: number tags tag) = some e ∧
      fill (columns fixed tags results) (placeholder (tags.idxOf tag)) =
        formatResult fixed e.2 ++ (number tags tag).drop (number tags e.1).length := by
  obtain ⟨e, he⟩ : ∃ e, results.entries.find?
      (fun e => number tags e.1 <+: number tags tag) = some e := by
    rw [← Option.isSome_iff_exists, List.find?_isSome]
    exact ⟨(tag, v), Dict.get?_eq_some_iff.mp hv, by simp⟩
  have hfind : (columns fixed tags results).find?
      (fun col => Numeral.str col.1 <+: Numeral.str (tags.idxOf tag)) =
        some (tags.idxOf e.1, formatResult fixed e.2) := by
    rw [columns, List.find?_map]
    exact congrArg (Option.map _) he
  have hplain : ∀ col ∈ columns fixed tags results, Plain col.2 := by
    intro col hcol hD
    obtain ⟨e, -, rfl⟩ := List.mem_map.mp hcol
    exact (hnum.formatResult e.2 'D' hD).1 rfl
  exact ⟨e, he, fill_placeholder hplain hfind⟩

theorem bar_notMem_fill (hnum : Numeric fixed) {tag : List Char} {v : Number F}
    (hv : results.get? tag = some v) :
    '|' ∉ fill (columns fixed tags results) (placeholder (tags.idxOf tag)) := by
  obtain ⟨e, -, hfill⟩ := fill_column hnum tags hv
  rw [hfill, List.mem_append, not_or]
  exact ⟨fun hbar => (hnum.formatResult e.2 '|' hbar).2 rfl,
    fun hbar => notMem_str (by decide) _ (List.mem_of_mem_drop hbar)⟩

/-- The field of a tag is the text of its value exactly if no other column gets there first. -/
theorem fill_eq_iff (hnum : Numeric fixed) {tag : List Char} {v : Number F}
    (hv : results.get? tag = some v) :
    fill (columns fixed tags results) (placeholder (tags.idxOf tag)) = formatResult fixed v ↔
      ∀ e, results.entries.find? (fun e => number tags e.1 <+: number tags tag) = some e →
        e.1 = tag ∨ formatResult fixed v =
          formatResult fixed e.2 ++ (number tags tag).drop (number tags e.1).length := by
  obtain ⟨e, he, hfill⟩ := fill_column hnum tags hv
  rw [hfill]
  constructor
  · intro heq e' he'
    cases he.symm.trans he'
    exact .inr heq.symm
  · intro h
    rcases h e he with heq | heq
    · have hsame : e.2 = v := by
        have hget := Dict.get?_eq_some_iff.mpr (List.mem_of_find?_eq_some he)
        rw [heq, hv] at hget
        exact (Option.some.inj hget).symm
      rw [heq, hsame, List.drop_length, List.append_nil]
    · exact heq.symm

/-- The row has the texts of the values exactly if no column gets into another one. -/
theorem fill_orderLine_eq_iff (hnum : Numeric fixed) (htags : tags.Nodup)
    (hkeys : results.keys.Perm tags) :
    fill (columns fixed tags results) (orderLine tags) =
        ['|'].intercalate (tags.map (valueText fixed results)) ↔ Kept fixed tags results := by
  have hvalue : ∀ tag ∈ tags, ∃ v, results.get? tag = some v :=
    fun tag htag => Dict.mem_keys_iff.mp (hkeys.mem_iff.mpr htag)
  have hrow : fill (columns fixed tags results) (orderLine tags) = ['|'].intercalate
      (tags.map fun tag => fill (columns fixed tags results) (placeholder (tags.idxOf tag))) := by
    rw [orderLine_eq, fill_intercalate, ← map_idxOf htags, List.map_map, List.map_map]
    rfl
  rw [hrow, intercalate_inj (by simp), List.map_inj_left]
  · constructor
    · intro h tag v e hv
      have hfield := h tag (hkeys.mem_iff.mp (Dict.mem_keys_iff.mpr ⟨v, hv⟩))
      rw [valueText, hv] at hfield
      exact (fill_eq_iff hnum hv).mp hfield e
    · intro h tag htag
      obtain ⟨v, hv⟩ := hvalue tag htag
      rw [valueText, hv]
      exact (fill_eq_iff hnum hv).mpr fun e he => h tag v e hv he
  · intro field hfield
    obtain ⟨tag, htag, rfl⟩ := List.mem_map.mp hfield
    obtain ⟨v, hv⟩ := hvalue tag htag
    exact bar_notMem_fill hnum hv
  · intro field hfield
    obtain ⟨tag, htag, rfl⟩ := List.mem_map.mp hfield
    obtain ⟨v, hv⟩ := hvalue tag htag
    rw [valueText, hv]
    exact fun hbar => (hnum.formatResult v '|' hbar).2 rfl

variable {env : Env F} {category : List Char}

/-- The results of a category are put into its line one after the other. -/
theorem foldlM_values {es : List (List Char × Number F)} {rows rows' : Rows F}
    (h : (es.map fun e => (e.1, Result.value e.2)).foldlM (addItem env) rows = .ok rows') :
    ∃ sumMatrix, rows' = { rows with
      outLoopLine := fill (es.map fun e => (env.orderList.idxOf e.1, formatResult env.fixed e.2))
        rows.outLoopLine
      sumMatrix := sumMatrix } := by
  induction es generalizing rows with
  | nil =>
      cases h
      exact ⟨_, rfl⟩
  | cons e es ih =>
      rw [List.map_cons, List.foldlM_cons] at h
      obtain ⟨rows₁, hitem, h⟩ := ok_of_bind_eq_ok h
      obtain ⟨_, rfl⟩ := addItem_value hitem
      exact ih h

/-- A category of results has one row, which the results are put into. -/
theorem writeCategory_lines {table table' : Table F}
    (hfound : env.resultsMatrix.get? category = some (results.map Result.value))
    (h : writeCategory env table category = .ok table') :
    table'.lines = table.lines ++ [category, headline env,
      fill (columns env.fixed env.orderList results) (orderLine env.orderList)] := by
  obtain ⟨items, hitems, h⟩ := ok_of_bind_eq_ok h
  cases (orRaise_eq_ok.mp hitems).symm.trans hfound
  obtain ⟨rows, hrows, h⟩ := ok_of_bind_eq_ok h
  obtain ⟨_, rfl⟩ := foldlM_values hrows
  cases h
  exact List.append_assoc _ _ _

/-- `result_sum` comes to the category and writes its headline and the texts of the values in the
order of the tags. -/
def RowWritten (env : Env F) (category : List Char) (results : Dict (List Char) (Number F)) :
    Prop :=
  ∃ before after table table', chooseOrder env = .ok (before ++ category :: after) ∧
    before.foldlM (writeCategory env) env.table = .ok table ∧
    writeCategory env table category = .ok table' ∧
    table'.lines = table.lines ++ [category, headline env,
      ['|'].intercalate (env.orderList.map (valueText env.fixed results))]

/-- The order is given and names the category, and those before it can be written. -/
def Reached (env : Env F) (category : List Char) : Prop :=
  ∃ before after, words env.matrixOrder = before ++ category :: after ∧
    Passes env (before ++ [category])

theorem chooseOrder_eq_ok_iff {before after : List (List Char)} :
    chooseOrder env = .ok (before ++ category :: after) ↔
      words env.matrixOrder = before ++ category :: after := by
  rw [chooseOrder]
  split
  · rename_i hwords
    rw [hwords]
    refine iff_of_false (fun h => ?_) fun h => ?_
    · cases h
    · exact List.append_ne_nil_of_right_ne_nil before (List.cons_ne_nil category after) h.symm
  · exact Except.ok.injEq _ _ |>.to_iff

theorem rowWritten_iff (hfound : env.resultsMatrix.get? category = some (results.map .value)) :
    RowWritten env category results ↔ Reached env category ∧
      fill (columns env.fixed env.orderList results) (orderLine env.orderList) =
        ['|'].intercalate (env.orderList.map (valueText env.fixed results)) := by
  constructor
  · rintro ⟨before, after, table, table', horder, hbefore, hwrite, hlines⟩
    refine ⟨⟨before, after, chooseOrder_eq_ok_iff.mp horder, passes_iff.mp ⟨table', ?_⟩⟩, ?_⟩
    · rw [List.foldlM_append, bind_of_eq_ok hbefore, List.foldlM_cons, bind_of_eq_ok hwrite]
      rfl
    · rw [writeCategory_lines hfound hwrite, List.append_cancel_left_eq] at hlines
      simpa only [List.cons.injEq, true_and, and_true] using hlines
  · rintro ⟨⟨before, after, horder, hpasses⟩, hrow⟩
    obtain ⟨table', hrun⟩ := passes_iff.mpr hpasses
    rw [List.foldlM_append] at hrun
    obtain ⟨table, hbefore, hrun⟩ := ok_of_bind_eq_ok hrun
    rw [List.foldlM_cons] at hrun
    obtain ⟨table₁, hwrite, -⟩ := ok_of_bind_eq_ok hrun
    refine ⟨before, after, table, table₁, chooseOrder_eq_ok_iff.mpr horder, hbefore, hwrite, ?_⟩
    rw [writeCategory_lines hfound hwrite, hrow]

/-- The row has the texts of the values in the order of the tags exactly if the order is given and
the category reached, and each column whose number begins with another's is stored before it or
has a text that comes out the same. -/
theorem row_kept_iff (hnum : Numeric env.fixed) (htags : env.orderList.Nodup)
    (hfound : env.resultsMatrix.get? category = some (results.map .value))
    (hkeys : results.keys.Perm env.orderList) :
    RowWritten env category results ↔
      Reached env category ∧ Kept env.fixed env.orderList results := by
  rw [rowWritten_iff hfound, fill_orderLine_eq_iff hnum htags hkeys]

/-- With at most ten columns no number begins with another one. -/
theorem kept_of_length_le (hlen : tags.length ≤ 10) (hkeys : ∀ tag ∈ results.keys, tag ∈ tags) :
    Kept fixed tags results := by
  have hdigits : ∀ i < 10, ∀ j < 10, Numeral.str (i : Nat) <+: Numeral.str (j : Nat) → i = j := by
    decide
  intro tag v e hv he
  have htag := hkeys tag (Dict.mem_keys_iff.mpr ⟨v, hv⟩)
  have hother := hkeys e.1 (Dict.mem_keys_of_mem (List.mem_of_find?_eq_some he))
  have hprefix := List.find?_some he
  have hlt : ∀ t ∈ tags, tags.idxOf t < 10 :=
    fun t ht => (List.idxOf_lt_length_iff.mpr ht).trans_le hlen
  have hcol := hdigits _ (hlt e.1 hother) _ (hlt tag htag) (of_decide_eq_true hprefix)
  exact .inl ((List.idxOf_inj hother).mp hcol)

end Rows

/-- A value for each tag, stored in this order. -/
def storedAs (values : List (String × Int)) : Dict (List Char) (Number Empty) :=
  values.foldl (fun d e => d.set e.1.toList (.int e.2)) ∅

/-- `+` of integers -/
def addInts : Number Empty → Number Empty → Number Empty
  | .int a, .int b => .int (a + b)
  | .float x, _ | _, .float x => x.elim

/-- Two columns, the second one stored first, behind a category of a thread. -/
def twoColumns : Env Empty where
  orderList := ["Thro-MBps".toList, "Hostcpu".toList]
  resultsMatrix := ((∅ : Dict (List Char) (Dict (List Char) (Result Empty))).set "write".toList
    ((∅ : Dict (List Char) (Result Empty)).set "4".toList
      (.thread (storedAs [("Thro-MBps", 200), ("Hostcpu", 7)])))).set "read".toList
        ((storedAs [("Hostcpu", 3), ("Thro-MBps", 120)]).map Result.value)
  threadTag := some "thread".toList
  tmpDic := none
  matrixOrder := "write read".toList
  sumMarks := "Hostcpu".toList
  fixed := Empty.elim
  add := addInts

theorem row_kept_two :
    RowWritten twoColumns "read".toList (storedAs [("Hostcpu", 3), ("Thro-MBps", 120)]) := by
  have hkeys : (storedAs [("Hostcpu", 3), ("Thro-MBps", 120)]).keys.Perm twoColumns.orderList :=
    List.Perm.swap _ _ _
  have hnumeric : Numeric twoColumns.fixed := fun x => x.elim
  refine (row_kept_iff hnumeric (by decide) rfl hkeys).mpr ⟨?_, ?_⟩
  · refine ⟨["write".toList], [], by decide, ⟨?_, ?_⟩⟩
    · simp only [List.singleton_append, List.forall_mem_cons]
      exact ⟨⟨by decide, by decide⟩, ⟨by decide, by decide⟩, by simp⟩
    -- the category of the thread is the first one with items
    · rintro category hfirst ⟨item, hitem, halone⟩
      cases hfirst
      cases hitem
      exact halone.elim
  · exact kept_of_length_le (by decide) fun tag => hkeys.mem_iff.mp

/-- Eleven columns, all of them 5. -/
def elevenTags : List String := ["a", "b", "c", "d", "e", "f", "g", "h", "i", "j", "k"]

def elevenColumns : Env Empty where
  orderList := elevenTags.map String.toList
  resultsMatrix := (∅ : Dict (List Char) (Dict (List Char) (Result Empty))).set "mean".toList
    ((storedAs (elevenTags.map fun tag => (tag, 5))).map Result.value)
  threadTag := none
  tmpDic := none
  matrixOrder := "mean".toList
  sumMarks := []
  fixed := Empty.elim
  add := addInts

/-- The column "k" has the value of "b" and a zero behind it. Without an order there is no row. -/
theorem eleventh_column_wrong :
    (elevenColumns.orderList.Nodup ∧
      (storedAs (elevenTags.map fun tag => (tag, 5))).keys = elevenColumns.orderList ∧
      Reached elevenColumns "mean".toList ∧
      ¬RowWritten elevenColumns "mean".toList (storedAs (elevenTags.map fun tag => (tag, 5)))) ∧
      resultSum { elevenColumns with matrixOrder := [] } = .error .attributeError := by
  have hnodup : elevenColumns.orderList.Nodup := by decide
  have hkeys : (storedAs (elevenTags.map fun tag => (tag, 5))).keys = elevenColumns.orderList := by
    decide
  have hnumeric : Numeric elevenColumns.fixed := fun x => x.elim
  refine ⟨⟨hnodup, hkeys, ?_, ?_⟩, rfl⟩
  · refine ⟨[], [], by decide, ⟨?_, ?_⟩⟩
    · simp only [List.nil_append, List.forall_mem_cons]
      exact ⟨⟨by decide, by decide⟩, by simp⟩
    · rintro category - - tag - hmark
      exact absurd hmark Bool.false_ne_true
  · intro h
    have hkept := (fill_orderLine_eq_iff hnumeric hnodup (hkeys ▸ .refl _)).mp
      ((rowWritten_iff rfl).mp h).2
    exact absurd (hkept "k".toList (.int 5) ("b".toList, .int 5) rfl rfl) (by decide)

end TpQemu.Performance
