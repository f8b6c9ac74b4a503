import TpQemu.Lib.Dict
import TpQemu.QmpCommand.Check

/-!
# The images of `query-block`

What `run` in `qemu/tests/qmp_command.py` expects of `query-block`. One dictionary is made before
the loop over the images, and each round fills it and appends it once more.
-/

namespace TpQemu.QmpCommand

variable {F : Type}

/-- What stands in `expect_o`: a value of `cmd_return_value`, or a reference to `image_info`. -/
inductive Entry (F : Type) where
  | value (v : Value F)
  | imageInfo

/-- The variables of the loop. -/
structure Expectation (F : Type) where
  imageInfo : Dict (List Char) (List Char)
  expectO : List (Entry F)

/-- A dictionary of texts. -/
def textDict (d : Dict (List Char) (List Char)) : Value F :=
  .dict (d.map fun cs => (.scalar (.text cs) : Value F)).entries

/-- What the list holds when it is read. -/
def Expectation.objects (s : Expectation F) : List (Value F) :=
  s.expectO.map fun
    | .value v => v
    | .imageInfo => textDict s.imageInfo

section Build

/- `vm.check_capability(Flags.BLOCKDEV)` and `params.object_params(image).get("image_format")` -/
variable (blockdev : Bool) (imageFormat : List Char → Option (List Char))

def driveKey : List Char := if blockdev then "node-name".toList else "device".toList

def imageDrive (image : List Char) : List Char := "drive_".toList ++ image

/-- The assignments to `image_info`. -/
def setImageInfo (image format : List Char) (d : Dict (List Char) (List Char)) :
    Dict (List Char) (List Char) :=
  ((d.set (driveKey blockdev) (imageDrive image)).set "qdev".toList image).set
    "format".toList format

/-- One round of the loop. -/
def addImage (s : Expectation F) (image : List Char) : Except PyError (Expectation F) := do
  let format ← orRaise .keyError (imageFormat image)
  return ⟨setImageInfo blockdev image format s.imageInfo, s.expectO ++ [.imageInfo]⟩

/-- The branch of `run` for `query-block`, from the `expect_o` of the parameters on. -/
def queryBlock (fl : Floats F) (strictMatch : Bool) (text : Value F → String)
    (resultCheck : ResultCheck) (expectO : List (Value F)) (images : List (List Char))
    (qmpO : List (Value F)) : Except PyError Unit := do
  let s ← images.foldlM (addImage blockdev imageFormat) ⟨∅, expectO.map .value⟩
  checkResult fl strictMatch qmpO text resultCheck s.objects

/-! ## What an image stands for -/

/-- The pairs of an image. -/
def imageQueries (image format : List Char) : List (Query F) :=
  [.pair (driveKey blockdev) (.scalar (.text (imageDrive image))),
    .pair "qdev".toList (.scalar (.text image)), .pair "format".toList (.scalar (.text format))]

/-- A check that passes has found every image. -/
def Covers (fl : Floats F) (strictMatch : Bool) (text : Value F → String)
    (expectO : List (Value F)) (images : List (List Char)) (qmpO : List (Value F)) : Prop :=
  queryBlock blockdev imageFormat fl strictMatch text .contain expectO images qmpO = .ok () →
    ∀ image ∈ images, ∃ format, imageFormat image = some format ∧
      ∀ q ∈ imageQueries blockdev image format, Occurs fl strictMatch q qmpO

/-- There are not two different images, unless one has no format and the loop fails. -/
def OneImage (images : List (List Char)) : Prop :=
  (∀ image ∈ images, ∃ format, imageFormat image = some format) →
    ∀ image ∈ images, ∀ other ∈ images, image = other

theorem mem_queries_textDict {d : Dict (List Char) (List Char)} {q : Query F} :
    q ∈ queries (textDict d) ↔ ∃ k a, d.get? k = some a ∧ q = .pair k (.scalar (.text a)) := by
  simp only [queries, textDict, Dict.map, List.map_map, List.mem_map, Prod.exists,
    Dict.get?_eq_some_iff, Function.comp_apply]
  exact exists_congr fun k => exists_congr fun a => and_congr_right fun _ => eq_comm

theorem searchable_textDict {d : Dict (List Char) (List Char)} {k a : List Char}
    (h : d.get? k = some a) : Searchable (textDict d : Value F) := by
  refine .inr ⟨_, ?_, rfl⟩
  exact List.ne_nil_of_mem (List.mem_map.mpr ⟨_, Dict.get?_eq_some_iff.mp h, rfl⟩)

/-- What occurs in a result that is one dictionary of texts. -/
theorem occurs_textDict_iff (fl : Floats F) (strictMatch : Bool)
    {d : Dict (List Char) (List Char)} {k a : List Char} :
    Occurs fl strictMatch (.pair k (.scalar (.text a))) [textDict d] ↔ d.get? k = some a := by
  -- the values of the dictionary are texts, so that nothing is nested in them
  have hvalues : ¬∃ e ∈ (d.map fun cs => (.scalar (.text cs) : Value F)).entries,
      ∃ w, Value.Nested w e.2 ∧ Hit fl strictMatch (.pair k (.scalar (.text a))) w := by
    rintro ⟨e, he, hw⟩
    obtain ⟨⟨k', cs⟩, -, rfl⟩ := List.mem_map.mp he
    exact Value.exists_nested_scalar.mp hw
  have hlist : Occurs fl strictMatch (.pair k (.scalar (.text a))) [textDict d] ↔
      ∃ w, Value.Nested w (textDict d) ∧ Hit fl strictMatch (.pair k (.scalar (.text a))) w := by
    have hself : ¬Hit fl strictMatch (.pair k (.scalar (.text a))) (.list [textDict d]) := id
    rw [Occurs, Value.exists_nested_list, or_iff_right hself]
    simp only [List.mem_singleton, exists_eq_left]
  rw [hlist, textDict, Value.exists_nested_dict, or_iff_left hvalues, Hit]
  simp only [Value.eq_text_iff, exists_eq_right]
  rw [Dict.lookup_entries, Dict.get?_map, Option.map_eq_some_iff]
  simp

theorem get?_setImageInfo (image format : List Char) (d : Dict (List Char) (List Char)) :
    (setImageInfo blockdev image format d).get? (driveKey blockdev) = some (imageDrive image) ∧
      (setImageInfo blockdev image format d).get? "qdev".toList = some image ∧
      (setImageInfo blockdev image format d).get? "format".toList = some format := by
  have hqdev : driveKey blockdev ≠ "qdev".toList := by
    cases blockdev <;> decide
  have hformat : driveKey blockdev ≠ "format".toList := by
    cases blockdev <;> decide
  refine ⟨?_, ?_, Dict.get?_set_self _ _ _⟩
  · rw [setImageInfo, Dict.get?_set_ne _ hformat, Dict.get?_set_ne _ hqdev, Dict.get?_set_self]
  · rw [setImageInfo, Dict.get?_set_ne _ (by decide), Dict.get?_set_self]

theorem imageQueries_subset (image format : List Char) (d : Dict (List Char) (List Char)) :
    ∀ q ∈ imageQueries (F := F) blockdev image format,
      q ∈ queries (textDict (setImageInfo blockdev image format d)) := by
  obtain ⟨hdrive, hqdev, hformat⟩ := get?_setImageInfo blockdev image format d
  simp only [imageQueries, List.forall_mem_cons, mem_queries_textDict]
  exact ⟨⟨_, _, hdrive, rfl⟩, ⟨_, _, hqdev, rfl⟩, ⟨_, _, hformat, rfl⟩,
    List.forall_mem_nil _⟩

/-! ## The loop over the images -/

theorem addImage_eq_ok {s t : Expectation F} {image : List Char}
    (h : addImage blockdev imageFormat s image = .ok t) :
    ∃ format, imageFormat image = some format ∧
      t = ⟨setImageInfo blockdev image format s.imageInfo, s.expectO ++ [.imageInfo]⟩ := by
  obtain ⟨format, hformat, ht⟩ := ok_of_bind_eq_ok h
  exact ⟨format, orRaise_eq_ok.mp hformat, (Except.ok.inj ht).symm⟩

theorem addImages_ok {images : List (List Char)}
    (h : ∀ image ∈ images, ∃ format, imageFormat image = some format) (s : Expectation F) :
    ∃ t, images.foldlM (addImage blockdev imageFormat) s = .ok t := by
  induction images generalizing s with
  | nil => exact ⟨s, rfl⟩
  | cons image images ih =>
      obtain ⟨⟨format, hformat⟩, hrest⟩ := List.forall_mem_cons.mp h
      rw [List.foldlM_cons, addImage, hformat]
      exact ih hrest _

/-- Every image has a format, and each round has appended the same dictionary. -/
theorem addImages_spec {images : List (List Char)} {s t : Expectation F}
    (h : images.foldlM (addImage blockdev imageFormat) s = .ok t) :
    (∀ image ∈ images, ∃ format, imageFormat image = some format) ∧
      t.expectO = s.expectO ++ List.replicate images.length .imageInfo := by
  induction images generalizing s with
  | nil =>
      cases h
      exact ⟨List.forall_mem_nil _, (List.append_nil _).symm⟩
  | cons image images ih =>
      rw [List.foldlM_cons] at h
      obtain ⟨s', hs', hrun⟩ := ok_of_bind_eq_ok h
      obtain ⟨format, hformat, rfl⟩ := addImage_eq_ok blockdev imageFormat hs'
      obtain ⟨hall, hexpect⟩ := ih hrun
      refine ⟨List.forall_mem_cons.mpr ⟨⟨format, hformat⟩, hall⟩, ?_⟩
      rw [hexpect, List.append_assoc, List.length_cons, List.replicate_succ]
      rfl

/-- What the list holds is the last state of the dictionary, once for each image. -/
theorem objects_of_addImages {images : List (List Char)} {expectO : List (Value F)}
    {t : Expectation F}
    (h : images.foldlM (addImage blockdev imageFormat) ⟨∅, expectO.map .value⟩ = .ok t) :
    t.objects = expectO ++ List.replicate images.length (textDict t.imageInfo) := by
  rw [Expectation.objects, (addImages_spec blockdev imageFormat h).2, List.map_append,
    List.map_map, List.map_replicate]
  exact congrArg (· ++ _) (List.map_id _)

/-- The dictionary is that of the last image. -/
theorem imageInfo_of_addImages {images : List (List Char)} {last : List Char}
    {s t : Expectation F}
    (h : (images ++ [last]).foldlM (addImage blockdev imageFormat) s = .ok t) :
    ∃ format d, imageFormat last = some format ∧
      t.imageInfo = setImageInfo blockdev last format d := by
  rw [List.foldlM_append] at h
  obtain ⟨s', -, hlast⟩ := ok_of_bind_eq_ok h
  rw [List.foldlM_cons] at hlast
  obtain ⟨t', ht', hnil⟩ := ok_of_bind_eq_ok hlast
  obtain ⟨format, hformat, rfl⟩ := addImage_eq_ok blockdev imageFormat ht'
  cases hnil
  exact ⟨format, s'.imageInfo, hformat, rfl⟩

end Build

/-! ## Which images are found -/

section Covers

variable (fl : Floats F) (strictMatch : Bool) (text : Value F → String) (blockdev : Bool)
  (imageFormat : List Char → Option (List Char))

/-- A check that passes has found the last image. -/
theorem occurs_last {images : List (List Char)} {last : List Char}
    {expectO qmpO : List (Value F)}
    (h : queryBlock blockdev imageFormat fl strictMatch text .contain expectO (images ++ [last])
      qmpO = .ok ()) :
    ∃ format, imageFormat last = some format ∧
      ∀ q ∈ imageQueries blockdev last format, Occurs fl strictMatch q qmpO := by
  obtain ⟨t, hrun, hcheck⟩ := ok_of_bind_eq_ok h
  obtain ⟨format, d, hformat, hinfo⟩ := imageInfo_of_addImages blockdev imageFormat hrun
  refine ⟨format, hformat, fun q hq => ?_⟩
  obtain ⟨r, hr⟩ := (checkResult_contain_eq_ok fl strictMatch qmpO).mp hcheck
  have hmem : textDict (setImageInfo blockdev last format d) ∈ t.objects := by
    rw [objects_of_addImages blockdev imageFormat hrun, hinfo, List.length_append]
    exact List.mem_append_right _ (List.mem_replicate.mpr ⟨Nat.succ_ne_zero _, rfl⟩)
  rw [← checkList_iff]
  exact checkList_of_foldlM fl strictMatch qmpO text hr hmem
    (searchable_textDict (get?_setImageInfo blockdev last format d).1) q
    (imageQueries_subset blockdev last format d q hq)

/-- A result that is the dictionary of the loop passes. -/
theorem queryBlock_self {images : List (List Char)} {last : List Char} {t : Expectation F}
    (h : (images ++ [last]).foldlM (addImage blockdev imageFormat) ⟨∅, []⟩ = .ok t) :
    queryBlock blockdev imageFormat fl strictMatch text .contain [] (images ++ [last])
      [textDict t.imageInfo] = .ok () := by
  obtain ⟨format, d, -, hinfo⟩ := imageInfo_of_addImages blockdev imageFormat h
  have hobjects : ∀ o ∈ t.objects, o = textDict t.imageInfo := by
    intro o ho
    rw [@objects_of_addImages F blockdev imageFormat _ [] _ h, List.nil_append] at ho
    exact List.eq_of_mem_replicate ho
  rw [queryBlock]
  refine (bind_of_eq_ok h _).trans ?_
  rw [checkResult_contain_eq_ok, foldlM_checkExpected fl strictMatch _ text true]
  · intro o ho q hq
    rw [hobjects o ho, mem_queries_textDict] at hq
    obtain ⟨k, a, hget, rfl⟩ := hq
    rw [checkList_iff, occurs_textDict_iff]
    exact hget
  · intro o ho
    rw [hobjects o ho, hinfo]
    exact searchable_textDict (get?_setImageInfo blockdev last format d).1

theorem OneImage.covers {images : List (List Char)} (h : OneImage imageFormat images)
    (expectO qmpO : List (Value F)) :
    Covers blockdev imageFormat fl strictMatch text expectO images qmpO := by
  intro hpass image himage
  obtain ⟨t, hrun, -⟩ := ok_of_bind_eq_ok hpass
  have hsame := h (addImages_spec blockdev imageFormat hrun).1
  rcases List.eq_nil_or_concat' images with rfl | ⟨init, last, rfl⟩
  · exact absurd himage List.not_mem_nil
  · rw [hsame image himage last List.mem_concat_self]
    exact occurs_last fl strictMatch text blockdev imageFormat hpass

/-- The dictionary that the loop leaves is an output without the other images. -/
theorem oneImage_of_covers {images : List (List Char)}
    (h : ∀ qmpO, Covers blockdev imageFormat fl strictMatch text [] images qmpO) :
    OneImage imageFormat images := by
  intro hformats
  rcases List.eq_nil_or_concat' images with rfl | ⟨init, last, rfl⟩
  · exact List.forall_mem_nil _
  · obtain ⟨t, hrun⟩ := addImages_ok blockdev imageFormat hformats ⟨∅, []⟩
    have hpass := queryBlock_self fl strictMatch text blockdev imageFormat hrun
    obtain ⟨format, d, -, hinfo⟩ := imageInfo_of_addImages blockdev imageFormat hrun
    have hlast : ∀ image ∈ init ++ [last], image = last := by
      intro image himage
      obtain ⟨format', -, hoccurs⟩ := h _ hpass image himage
      have hqdev := hoccurs (.pair "qdev".toList (.scalar (.text image))) (by simp [imageQueries])
      rw [occurs_textDict_iff, hinfo, (get?_setImageInfo blockdev last format d).2.1] at hqdev
      exact (Option.some.inj hqdev).symm
    intro image himage other hother
    rw [hlast image himage, hlast other hother]

/-- The check finds every image exactly if there are not two different ones, whatever else is
expected. -/
theorem queryBlock_covers_iff (images : List (List Char)) :
    ((∀ qmpO, Covers blockdev imageFormat fl strictMatch text [] images qmpO) ↔
      OneImage imageFormat images) ∧
    (OneImage imageFormat images →
      ∀ expectO qmpO, Covers blockdev imageFormat fl strictMatch text expectO images qmpO) := by
  refine ⟨⟨?_, ?_⟩, ?_⟩
  · exact oneImage_of_covers fl strictMatch text blockdev imageFormat
  · intro hone qmpO
    exact hone.covers fl strictMatch text blockdev imageFormat [] qmpO
  · intro hone expectO qmpO
    exact hone.covers fl strictMatch text blockdev imageFormat expectO qmpO

end Covers

/-- A block device with the image `stg`. -/
def stgBlock : Value Empty :=
  .dict [("qdev".toList, .scalar (.text "stg".toList)),
    ("inserted".toList, .dict [("node-name".toList, .scalar (.text "drive_stg".toList)),
      ("format".toList, .scalar (.text "qcow2".toList))])]

/-- The check passes with two images where only the last one is in the output. -/
theorem queryBlock_misses_image1 :
    ¬Covers true (fun _ => some "qcow2".toList) Floats.absent true (fun _ => "") []
      ["image1".toList, "stg".toList] [stgBlock] := by
  intro hcovers
  have hpass : queryBlock true (fun _ => some "qcow2".toList) Floats.absent true (fun _ => "")
      .contain [] ["image1".toList, "stg".toList] [stgBlock] = .ok () := by
    rfl
  obtain ⟨format, -, hoccurs⟩ := hcovers hpass "image1".toList List.mem_cons_self
  have hqdev := hoccurs (.pair "qdev".toList (.scalar (.text "image1".toList)))
    (by simp [imageQueries])
  rw [← checkList_iff] at hqdev
  revert hqdev
  decide

end TpQemu.QmpCommand
