import TpQemu.Lib.Value
import Mathlib.Data.List.Infix

/-!
# Checks of QMP results

`check_list`, `_check_dict` and `check_result` in `qemu/tests/qmp_command.py`. What is expected is
searched in the dictionaries and lists of a result to any depth.
-/

namespace TpQemu.QmpCommand

variable {F : Type}

/-- What is searched: a key with a value, or an item of its own
(`check_item_in_pair=False`). -/
inductive Query (F : Type) where
  | pair (key : List Char) (val : Value F)
  | item (key : List Char)

/-- `cmd_result_check` -/
inductive ResultCheck where
  | equal
  | contain
  | notContain
  | other
  deriving DecidableEq

section Search

variable (fl : Floats F) (strictMatch : Bool)

/-- The test of an element that is neither a dictionary nor a list. -/
def checkScalar (s : Scalar F) : Query F → Bool
  | .pair _ _ => false
  | .item key =>
      !s.eq fl (.text []) &&
        if strictMatch then (Scalar.text key).eq fl s else decide (key <:+: s.str fl)

/-- The tests of a dictionary itself. -/
def checkKey (es : List (List Char × Value F)) : Query F → Bool
  | .pair key val =>
      match es.lookup key with
      | some v => val.eq fl v
      | none => false
  | .item key => (es.lookup key).isSome

mutual

/-- One round of the loops of both functions. -/
def checkValue (q : Query F) : Value F → Bool
  | .dict es => checkKey fl es q || checkValues q es
  | .list vs => checkList q vs
  | .scalar s => checkScalar fl strictMatch s q

/-- `check_list` -/
def checkList (q : Query F) : List (Value F) → Bool
  | [] => false
  | v :: vs => checkValue q v || checkList q vs

/-- The loop of `_check_dict` over the values. -/
def checkValues (q : Query F) : List (List Char × Value F) → Bool
  | [] => false
  | (_, v) :: es => checkValue q v || checkValues q es

end

end Search

section Result

variable (fl : Floats F) (strictMatch : Bool) (qmpO : List (Value F))

/-- The loop over the items of an expected dictionary, which ends at the first result that is
`stop`. -/
def checkItems (stop : Bool) : List (List Char × Value F) → Option Bool → Option Bool
  | [], result => result
  | (key, val) :: items, _ =>
      let result := checkList fl strictMatch (.pair key val) qmpO
      if result = stop then some result else checkItems stop items (some result)

/-- `result` after an expected object. It is kept where the object is of another type. -/
def expected (stop : Bool) (result : Option Bool) : Value F → Option Bool
  | .dict items => checkItems fl strictMatch qmpO stop items result
  | .scalar (.text cs) => some (checkList fl strictMatch (.item cs) qmpO)
  | _ => result

/-- One round of the loop over what is expected. The test fails with a result other than
`wanted`; `text` is what a message says of an object. -/
def checkExpected (text : Value F → String) (wanted : Bool) (result : Option Bool) (o : Value F) :
    Except PyError (Option Bool) :=
  match expected fl strictMatch qmpO (!wanted) result o with
  | none => .error .unboundLocalError
  | some r =>
      if r = wanted then .ok (some r)
      else if wanted then
        .error (.testFail ("QMP output does not contain the expect value.\n" ++
          "Missed expect value: '" ++ text o ++ "'\n" ++
          "Actual result: '" ++ text (.list qmpO) ++ "'\n"))
      else
        .error (.testFail ("QMP output contain the unexpect result.\n" ++
          "Unexpect result: '" ++ text o ++ "'\n" ++
          "Actual result: '" ++ text (.list qmpO) ++ "'"))

/-- `check_result` -/
def checkResult (text : Value F → String) (resultCheck : ResultCheck) (expectO : List (Value F)) :
    Except PyError Unit :=
  match resultCheck with
  | .equal =>
      if Value.eq fl (.list qmpO) (.list expectO) then .ok ()
      else
        .error (.testFail ("QMP output does not equal to the expect result.\n " ++
          "Expect result: '" ++ text (.list expectO) ++ "'\n" ++
          "Actual result: '" ++ text (.list qmpO) ++ "'"))
  | .contain => do
      let _ ← expectO.foldlM (checkExpected fl strictMatch qmpO text true) none
      return
  | .notContain => do
      let _ ← expectO.foldlM (checkExpected fl strictMatch qmpO text false) none
      return
  | .other => .ok ()

end Result

/-! ## What is nested in a result -/

section Occurs

variable (fl : Floats F) (strictMatch : Bool)

/-- A dictionary has the pair or the key, or a scalar other than the empty text is the item, or
has it in its text. -/
def Hit : Query F → Value F → Prop
  | .pair key val, .dict es => ∃ v, es.lookup key = some v ∧ val.eq fl v = true
  | .item key, .dict es => key ∈ es.map Prod.fst
  | .item key, .scalar s =>
      s ≠ .text [] ∧ if strictMatch then s = .text key else key <:+: s.str fl
  | _, _ => False

/-- What is searched is somewhere in a result. -/
def Occurs (q : Query F) (qmpO : List (Value F)) : Prop :=
  ∃ w, Value.Nested w (.list qmpO) ∧ Hit fl strictMatch q w

theorem checkScalar_iff (q : Query F) (s : Scalar F) :
    checkScalar fl strictMatch s q = true ↔ Hit fl strictMatch q (.scalar s) := by
  cases q with
  | pair key val => exact iff_of_false nofun id
  | item key =>
      have hne : (!s.eq fl (.text [])) = true ↔ s ≠ .text [] := by
        rw [Bool.not_eq_true', ← Bool.not_eq_true, Scalar.eq_text_right_iff]
      rw [checkScalar, Bool.and_eq_true, hne, Hit]
      cases strictMatch with
      | true => simp only [if_true, Scalar.eq_text_iff]
      | false => simp only [Bool.false_eq_true, if_false, decide_eq_true_eq]

theorem checkKey_iff (q : Query F) (es : List (List Char × Value F)) :
    checkKey fl es q = true ↔ Hit fl strictMatch q (.dict es) := by
  cases q with
  | pair key val =>
      rw [checkKey, Hit]
      cases es.lookup key with
      | none => exact iff_of_false nofun nofun
      | some v => simp
  | item key =>
      rw [checkKey, Hit, List.lookup_isSome_iff]
      simp

theorem checkList_eq_any (q : Query F) (vs : List (Value F)) :
    checkList fl strictMatch q vs = vs.any (checkValue fl strictMatch q) := by
  induction vs with
  | nil => rw [checkList, List.any_nil]
  | cons v vs ih => rw [checkList, List.any_cons, ih]

theorem checkValues_eq_any (q : Query F) (es : List (List Char × Value F)) :
    checkValues fl strictMatch q es = es.any fun e => checkValue fl strictMatch q e.2 := by
  induction es with
  | nil => rw [checkValues, List.any_nil]
  | cons e es ih => rw [checkValues, List.any_cons, ih]

/-- The two functions find what is nested. -/
theorem checkValue_iff (q : Query F) (v : Value F) :
    checkValue fl strictMatch q v = true ↔
      ∃ w, Value.Nested w v ∧ Hit fl strictMatch q w := by
  induction v using Value.induct with
  | scalar s => rw [checkValue, checkScalar_iff, Value.exists_nested_scalar]
  | list vs ih =>
      have hlist : ¬Hit fl strictMatch q (.list vs) := by
        cases q <;> exact id
      rw [checkValue, checkList_eq_any, List.any_eq_true, Value.exists_nested_list,
        or_iff_right hlist]
      exact exists_congr fun v => and_congr_right fun hv => ih v hv
  | dict es ih =>
      rw [checkValue, Bool.or_eq_true, checkKey_iff fl strictMatch, checkValues_eq_any,
        List.any_eq_true, Value.exists_nested_dict]
      exact or_congr_right (exists_congr fun e => and_congr_right fun he => ih e he)

theorem checkList_iff (q : Query F) (qmpO : List (Value F)) :
    checkList fl strictMatch q qmpO = true ↔ Occurs fl strictMatch q qmpO := by
  rw [Occurs, ← checkValue_iff, checkValue]

end Occurs

/-! ## What is expected -/

/-- What is searched for an expected object. -/
def queries : Value F → List (Query F)
  | .dict items => items.map fun e => .pair e.1 e.2
  | .scalar (.text cs) => [.item cs]
  | _ => []

/-- A text or a dictionary that is not empty. -/
def Searchable (o : Value F) : Prop :=
  (∃ cs, o = .scalar (.text cs)) ∨ ∃ items, items ≠ [] ∧ o = .dict items

section Expected

variable (fl : Floats F) (strictMatch : Bool) (qmpO : List (Value F))

/-- The loop over the items ends with the wanted result exactly if all of them have it. -/
theorem checkItems_spec (wanted : Bool) {items : List (List Char × Value F)} (hne : items ≠ [])
    (result : Option Bool) :
    ∃ r, checkItems fl strictMatch qmpO (!wanted) items result = some r ∧
      (r = wanted ↔ ∀ e ∈ items, checkList fl strictMatch (.pair e.1 e.2) qmpO = wanted) := by
  induction items generalizing result with
  | nil => exact absurd rfl hne
  | cons e items ih =>
      rw [checkItems]
      by_cases hr : checkList fl strictMatch (.pair e.1 e.2) qmpO = !wanted
      · refine ⟨_, if_pos hr, iff_of_false ?_ fun h => ?_⟩
        · rw [hr]
          exact Bool.not_ne_self wanted
        · exact Bool.not_ne_self wanted (hr.symm.trans (h e List.mem_cons_self))
      · have hwanted : checkList fl strictMatch (.pair e.1 e.2) qmpO = wanted := by
          cases wanted <;> simpa using hr
        simp only [List.forall_mem_cons, hwanted, true_and,
          if_neg (Ne.symm (Bool.not_ne_self wanted))]
        cases items with
        | nil => exact ⟨_, rfl, iff_of_true rfl (List.forall_mem_nil _)⟩
        | cons e' items => exact ih (List.cons_ne_nil _ _) _

theorem expected_spec (wanted : Bool) {o : Value F} (ho : Searchable o) (result : Option Bool) :
    ∃ r, expected fl strictMatch qmpO (!wanted) result o = some r ∧
      (r = wanted ↔ ∀ q ∈ queries o, checkList fl strictMatch q qmpO = wanted) := by
  rcases ho with ⟨cs, rfl⟩ | ⟨items, hne, rfl⟩
  · exact ⟨_, rfl, by simp [queries]⟩
  · obtain ⟨r, hr, hiff⟩ := checkItems_spec fl strictMatch qmpO wanted hne result
    refine ⟨r, hr, ?_⟩
    rw [hiff, queries, List.forall_mem_map]

theorem checkExpected_ok_iff (text : Value F → String) (wanted : Bool) {o : Value F}
    (ho : Searchable o) (result : Option Bool) :
    (∃ r, checkExpected fl strictMatch qmpO text wanted result o = .ok r) ↔
      ∀ q ∈ queries o, checkList fl strictMatch q qmpO = wanted := by
  obtain ⟨r, hr, hiff⟩ := expected_spec fl strictMatch qmpO wanted ho result
  rw [← hiff, checkExpected, hr]
  by_cases hwanted : r = wanted
  · exact iff_of_true ⟨some r, if_pos hwanted⟩ hwanted
  · refine iff_of_false ?_ hwanted
    rintro ⟨r', hr'⟩
    simp only [if_neg hwanted] at hr'
    cases wanted <;> cases hr'

/-- The loop over what is expected passes exactly if every search has the wanted result. -/
theorem foldlM_checkExpected (text : Value F → String) (wanted : Bool) {expectO : List (Value F)}
    (hexpect : ∀ o ∈ expectO, Searchable o) (result : Option Bool) :
    (∃ r, expectO.foldlM (checkExpected fl strictMatch qmpO text wanted) result = .ok r) ↔
      ∀ o ∈ expectO, ∀ q ∈ queries o, checkList fl strictMatch q qmpO = wanted := by
  induction expectO generalizing result with
  | nil => exact iff_of_true ⟨result, rfl⟩ (List.forall_mem_nil _)
  | cons o expectO ih =>
      obtain ⟨ho, hrest⟩ := List.forall_mem_cons.mp hexpect
      rw [List.foldlM_cons, List.forall_mem_cons,
        ← checkExpected_ok_iff fl strictMatch qmpO text wanted ho result]
      constructor
      · rintro ⟨r, hr⟩
        obtain ⟨r', hr', hrun⟩ := ok_of_bind_eq_ok hr
        exact ⟨⟨r', hr'⟩, (ih hrest r').mp ⟨r, hrun⟩⟩
      · rintro ⟨⟨r', hr'⟩, hall⟩
        obtain ⟨r, hrun⟩ := (ih hrest r').mpr hall
        exact ⟨r, (bind_of_eq_ok hr' _).trans hrun⟩

/-- An object is searched whatever else is expected. -/
theorem checkList_of_foldlM (text : Value F → String) {wanted : Bool} {expectO : List (Value F)}
    {result r : Option Bool}
    (h : expectO.foldlM (checkExpected fl strictMatch qmpO text wanted) result = .ok r)
    {o : Value F} (hmem : o ∈ expectO) (ho : Searchable o) :
    ∀ q ∈ queries o, checkList fl strictMatch q qmpO = wanted := by
  induction expectO generalizing result with
  | nil => exact absurd hmem List.not_mem_nil
  | cons o' expectO ih =>
      rw [List.foldlM_cons] at h
      obtain ⟨r', hr', hrun⟩ := ok_of_bind_eq_ok h
      rcases List.mem_cons.mp hmem with rfl | hmem
      · exact (checkExpected_ok_iff fl strictMatch qmpO text wanted ho result).mp ⟨r', hr'⟩
      · exact ih hrun hmem

theorem checkResult_contain_eq_ok {text : Value F → String} {expectO : List (Value F)} :
    checkResult fl strictMatch qmpO text .contain expectO = .ok () ↔
      ∃ r, expectO.foldlM (checkExpected fl strictMatch qmpO text true) none = .ok r := by
  rw [checkResult]
  exact bind_return_eq_ok

theorem checkResult_notContain_eq_ok {text : Value F → String} {expectO : List (Value F)} :
    checkResult fl strictMatch qmpO text .notContain expectO = .ok () ↔
      ∃ r, expectO.foldlM (checkExpected fl strictMatch qmpO text false) none = .ok r := by
  rw [checkResult]
  exact bind_return_eq_ok

/-- The checks pass exactly if all that is expected occurs in the result, or none of it. -/
theorem checkResult_iff (text : Value F → String) {expectO : List (Value F)}
    (hexpect : ∀ o ∈ expectO, Searchable o) :
    (checkResult fl strictMatch qmpO text .contain expectO = .ok () ↔
      ∀ o ∈ expectO, ∀ q ∈ queries o, Occurs fl strictMatch q qmpO) ∧
    (checkResult fl strictMatch qmpO text .notContain expectO = .ok () ↔
      ∀ o ∈ expectO, ∀ q ∈ queries o, ¬Occurs fl strictMatch q qmpO) := by
  constructor
  · rw [checkResult_contain_eq_ok, foldlM_checkExpected fl strictMatch qmpO text true hexpect]
    simp only [checkList_iff]
  · rw [checkResult_notContain_eq_ok, foldlM_checkExpected fl strictMatch qmpO text false hexpect]
    simp only [← Bool.not_eq_true, checkList_iff]

end Expected

/-- A block device with its image. -/
def blockInfo : Value Empty :=
  .dict [("device".toList, .scalar (.text "drive_image1".toList)),
    ("inserted".toList, .list [.dict [("format".toList, .scalar (.text "qcow2".toList))]])]

/-- The format is found in the list. -/
theorem checkResult_blockInfo :
    checkResult Floats.absent true [blockInfo] (fun _ => "") .contain
      [.dict [("format".toList, .scalar (.text "qcow2".toList))],
        .scalar (.text "device".toList)] = .ok () := by
  have hexpect : ∀ o ∈ [(.dict [("format".toList, .scalar (.text "qcow2".toList))] : Value Empty),
      .scalar (.text "device".toList)], Searchable o := by
    intro o ho
    rcases List.mem_cons.mp ho with rfl | ho
    · exact .inr ⟨_, List.cons_ne_nil _ _, rfl⟩
    · exact .inl ⟨_, List.mem_singleton.mp ho⟩
  apply (checkResult_iff Floats.absent true [blockInfo] (fun _ => "") hexpect).1.mpr
  intro o ho q hq
  rw [← checkList_iff]
  rcases List.mem_cons.mp ho with rfl | ho
  · obtain rfl := List.mem_singleton.mp hq
    decide
  · obtain rfl := List.mem_singleton.mp ho
    obtain rfl := List.mem_singleton.mp hq
    decide

end TpQemu.QmpCommand
