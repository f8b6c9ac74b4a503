import TpQemu.Lib.Replace
import TpQemu.Lib.Text

/-!
# The images of the clone machine

`prepare_clone_vm` of the backup and of the snapshot base tests starts a clone of the main
machine in which the source images are exchanged for their targets. The `images` parameter
is one text with the tags in it, and the exchange is a sequence of `str.replace` on this
text, which does not know where a tag begins or ends.

A tag has no blank, so each replacement works on every tag separately (`tags_backupImages`).
What it does inside a tag that merely contains the source is the defect. Several replacements
inside one tag may still come out right: in the tag `stg10` the source `stg1` is exchanged for
`dst1`, which gives `dst10`.
-/

namespace TpQemu.Backup

open Text

abbrev Tag := List Char

/-- The `images` parameter in `BlockdevBackupBaseTest.prepare_clone_vm`, with the source and
the target disks side by side. -/
def backupImages (disks : List (Tag × Tag)) (images : List Char) : List Char :=
  disks.foldl (fun images disk => replace disk.1 disk.2 images) images

/-- The `images` parameter in `BlockDevSnapshotTest.prepare_clone_vm`. -/
def snapshotImages (baseTag snapshotTag : Tag) (images : List Char) : List Char :=
  replace baseTag snapshotTag images

/-! ## Tags -/

/-- The tags of an `images` parameter. -/
def tags (images : List Char) : List Tag := (images.splitOn ' ').filter fun t => t ≠ []

structure IsTag (t : Tag) : Prop where
  ne_nil : t ≠ []
  no_blank : ' ' ∉ t

/-- The tag that takes the place of a tag. -/
def substitute (disks : List (Tag × Tag)) (t : Tag) : Tag :=
  ((disks.find? fun disk => disk.1 = t).map Prod.snd).getD t

/-- The clone has the tags of the machine, with every source exchanged for its target. -/
def Substituted (disks : List (Tag × Tag)) (images clone : List Char) : Prop :=
  tags clone = (tags images).map (substitute disks)

/-- The pairs that change something. -/
def changing (disks : List (Tag × Tag)) : List (Tag × Tag) :=
  disks.filter fun disk => disk.1 ≠ disk.2

/-- No source that is exchanged for something else lies inside a tag that is no source, inside a
later source, or inside the target of an earlier one. -/
structure Clean (disks : List (Tag × Tag)) (ts : List Tag) : Prop where
  tags : ∀ disk ∈ changing disks, ∀ t ∈ ts, t ∉ (changing disks).map Prod.fst → ¬disk.1 <:+: t
  sources : (changing disks).Pairwise fun disk later => ¬disk.1 <:+: later.1
  targets : (changing disks).Pairwise fun disk later => ¬later.1 <:+: disk.2

theorem isTag_of_mem_tags {images : List Char} {t : Tag} (h : t ∈ tags images) : IsTag t := by
  obtain ⟨hpiece, hne⟩ := List.mem_filter.mp h
  exact ⟨of_decide_eq_true hne, (of_mem_splitOn hpiece).1⟩

/-- A replacement works on every tag separately. -/
theorem tags_replace {old new : Tag} (hold : IsTag old) (hnew : IsTag new)
    (images : List Char) : tags (replace old new images) = (tags images).map (replace old new) := by
  rw [tags, tags, splitOn_replace hold.ne_nil hold.no_blank hnew.no_blank, List.filter_map]
  congr 1
  refine List.filter_congr fun t _ => ?_
  simp only [Function.comp_apply, ne_eq, replace_eq_nil_iff hold.ne_nil hnew.ne_nil]

theorem tags_backupImages {disks : List (Tag × Tag)}
    (hdisks : ∀ disk ∈ disks, IsTag disk.1 ∧ IsTag disk.2) (images : List Char) :
    tags (backupImages disks images) = (tags images).map (backupImages disks) := by
  induction disks generalizing images with
  | nil => exact (List.map_id _).symm
  | cons disk disks ih =>
      obtain ⟨hsource, htarget⟩ := hdisks disk List.mem_cons_self
      have hrest := ih (fun d hd => hdisks d (List.mem_cons_of_mem _ hd))
        (replace disk.1 disk.2 images)
      rw [tags_replace hsource htarget, List.map_map] at hrest
      exact hrest

/-! ## When the tags are exchanged -/

theorem substitute_cons_self (source target : Tag) (disks : List (Tag × Tag)) :
    substitute ((source, target) :: disks) source = target := by
  simp [substitute]

theorem substitute_cons_ne {source t : Tag} (h : t ≠ source) (target : Tag)
    (disks : List (Tag × Tag)) :
    substitute ((source, target) :: disks) t = substitute disks t := by
  simp [substitute, h.symm]

/-- A text without the sources is left alone. -/
theorem backupImages_of_absent {disks : List (Tag × Tag)} (hne : ∀ disk ∈ disks, disk.1 ≠ [])
    {t : Tag} (h : ∀ disk ∈ disks, ¬disk.1 <:+: t) : backupImages disks t = t := by
  induction disks with
  | nil => rfl
  | cons disk disks ih =>
      have hfirst : replace disk.1 disk.2 t = t :=
        replace_of_absent (hne disk List.mem_cons_self) (h disk List.mem_cons_self)
      rw [backupImages, List.foldl_cons, hfirst]
      exact ih (fun d hd => hne d (List.mem_cons_of_mem _ hd))
        fun d hd => h d (List.mem_cons_of_mem _ hd)

/-- A source is exchanged for its target, and what comes before or after leaves it alone. -/
theorem backupImages_of_mem {disks : List (Tag × Tag)} (hne : ∀ disk ∈ disks, disk.1 ≠ [])
    (hsources : disks.Pairwise fun disk later => ¬disk.1 <:+: later.1)
    (htargets : disks.Pairwise fun disk later => ¬later.1 <:+: disk.2) {t : Tag}
    (ht : t ∈ disks.map Prod.fst) : backupImages disks t = substitute disks t := by
  induction disks with
  | nil => cases ht
  | cons disk disks ih =>
      obtain ⟨source, target⟩ := disk
      obtain ⟨hlater, hsources⟩ := List.pairwise_cons.mp hsources
      obtain ⟨hafter, htargets⟩ := List.pairwise_cons.mp htargets
      have hne' : ∀ disk ∈ disks, disk.1 ≠ [] := fun d hd => hne d (List.mem_cons_of_mem _ hd)
      have hsource : source ≠ [] := hne _ List.mem_cons_self
      rw [backupImages, List.foldl_cons]
      by_cases htag : t = source
      · subst htag
        rw [replace_self hsource, substitute_cons_self]
        exact backupImages_of_absent hne' hafter
      · have hrest : t ∈ disks.map Prod.fst := (List.mem_cons.mp ht).resolve_left htag
        have hnot : ¬source <:+: t := by
          obtain ⟨later, hmem, rfl⟩ := List.mem_map.mp hrest
          exact hlater later hmem
        rw [replace_of_absent hsource hnot, substitute_cons_ne htag]
        exact ih hne' hsources htargets hrest

theorem substitute_of_notMem {disks : List (Tag × Tag)} {t : Tag}
    (h : t ∉ disks.map Prod.fst) : substitute disks t = t := by
  have hnone : disks.find? (fun disk => disk.1 = t) = none := by
    rw [List.find?_eq_none]
    intro disk hd heq
    exact h (List.mem_map.mpr ⟨disk, hd, of_decide_eq_true heq⟩)
  rw [substitute, hnone]
  rfl

/-! ### The pairs that change nothing -/

theorem backupImages_changing {disks : List (Tag × Tag)} (hne : ∀ disk ∈ disks, disk.1 ≠ [])
    (t : List Char) : backupImages (changing disks) t = backupImages disks t := by
  induction disks generalizing t with
  | nil => rfl
  | cons disk disks ih =>
      have hrest := ih (fun d hd => hne d (List.mem_cons_of_mem _ hd))
      by_cases heq : disk.1 = disk.2
      · have hself : replace disk.1 disk.2 t = t :=
          (replace_eq_self_iff (hne disk List.mem_cons_self)).mpr (.inl heq.symm)
        have hdrop : changing (disk :: disks) = changing disks :=
          List.filter_cons_of_neg (by simpa using heq)
        rw [hdrop, hrest, backupImages, backupImages, List.foldl_cons, hself]
      · have hkeep : changing (disk :: disks) = disk :: changing disks :=
          List.filter_cons_of_pos (by simpa using heq)
        rw [hkeep, backupImages, List.foldl_cons]
        exact hrest _

theorem substitute_changing {disks : List (Tag × Tag)} (hdistinct : (disks.map Prod.fst).Nodup)
    (t : Tag) : substitute (changing disks) t = substitute disks t := by
  induction disks with
  | nil => rfl
  | cons disk disks ih =>
      obtain ⟨source, target⟩ := disk
      obtain ⟨hnot, hdistinct⟩ := List.nodup_cons.mp hdistinct
      by_cases heq : source = target
      · have hdrop : changing ((source, target) :: disks) = changing disks :=
          List.filter_cons_of_neg (by simpa using heq)
        rw [hdrop, ih hdistinct]
        by_cases htag : t = source
        · rw [htag, substitute_of_notMem hnot, substitute_cons_self]
          exact heq
        · rw [substitute_cons_ne htag]
      · have hkeep : changing ((source, target) :: disks) = (source, target) :: changing disks :=
          List.filter_cons_of_pos (by simpa using heq)
        rw [hkeep]
        by_cases htag : t = source
        · rw [htag, substitute_cons_self, substitute_cons_self]
        · rw [substitute_cons_ne htag, substitute_cons_ne htag, ih hdistinct]

theorem backupImages_of_clean {disks : List (Tag × Tag)}
    (hdistinct : (disks.map Prod.fst).Nodup) (hne : ∀ disk ∈ disks, disk.1 ≠ []) {ts : List Tag}
    (h : Clean disks ts) {t : Tag} (ht : t ∈ ts) : backupImages disks t = substitute disks t := by
  have hne' : ∀ disk ∈ changing disks, disk.1 ≠ [] := fun d hd => hne d (List.mem_of_mem_filter hd)
  rw [← backupImages_changing hne, ← substitute_changing hdistinct]
  by_cases hsource : t ∈ (changing disks).map Prod.fst
  · exact backupImages_of_mem hne' h.sources h.targets hsource
  · rw [substitute_of_notMem hsource]
    exact backupImages_of_absent hne' fun disk hd => h.tags disk hd t ht hsource

theorem substituted_iff_tags {images : List Char} {disks : List (Tag × Tag)}
    (hdisks : ∀ disk ∈ disks, IsTag disk.1 ∧ IsTag disk.2) :
    Substituted disks images (backupImages disks images) ↔
      ∀ t ∈ tags images, backupImages disks t = substitute disks t := by
  rw [Substituted, tags_backupImages hdisks]
  exact List.map_inj_left

/-- One pair is clean if its source lies in no other tag, or is its own target. -/
theorem clean_singleton_iff {source target : Tag} {ts : List Tag} :
    Clean [(source, target)] ts ↔ source = target ∨ ∀ t ∈ ts, source <:+: t → t = source := by
  by_cases heq : source = target
  · have hnone : changing [(source, target)] = [] := List.filter_cons_of_neg (by simpa using heq)
    refine iff_of_true ⟨?_, ?_, ?_⟩ (.inl heq)
    · rw [hnone]
      exact fun _ hd => absurd hd List.not_mem_nil
    · rw [hnone]
      exact List.Pairwise.nil
    · rw [hnone]
      exact List.Pairwise.nil
  · have hone : changing [(source, target)] = [(source, target)] :=
      List.filter_cons_of_pos (by simpa using heq)
    constructor
    · intro h
      refine .inr fun t ht hin => Classical.byContradiction fun hne => ?_
      refine h.tags (source, target) ?_ t ht ?_ hin
      · rw [hone]
        exact List.mem_cons_self
      · rw [hone]
        simpa using hne
    · intro h
      have hparts := h.resolve_left heq
      refine ⟨?_, ?_, ?_⟩
      · rw [hone]
        intro disk hd t ht hnot hin
        rw [List.mem_singleton.mp hd] at hin
        exact hnot (by simp [hparts t ht hin])
      · rw [hone]
        exact List.pairwise_singleton _ _
      · rw [hone]
        exact List.pairwise_singleton _ _

/-- One pair exchanges a tag exactly if its source is this tag, or does not lie inside it, or is its
own target. -/
theorem backupImages_singleton_iff {source target : Tag} (hne : source ≠ []) {t : Tag} :
    backupImages [(source, target)] t = substitute [(source, target)] t ↔
      source = target ∨ (source <:+: t → t = source) := by
  by_cases ht : t = source
  · subst ht
    rw [substitute_cons_self]
    exact iff_of_true (replace_self hne) (.inr fun _ => rfl)
  · rw [substitute_cons_ne ht]
    show replace source target t = t ↔ _
    rw [replace_eq_self_iff hne, imp_iff_not ht, eq_comm]

/-- The snapshot test exchanges its tag exactly if the one pair is clean. -/
theorem substituted_snapshotImages_iff {images : List Char} {baseTag snapshotTag : Tag}
    (hbase : baseTag ∈ tags images) (hsnapshot : IsTag snapshotTag) :
    Substituted [(baseTag, snapshotTag)] images (snapshotImages baseTag snapshotTag images) ↔
      Clean [(baseTag, snapshotTag)] (tags images) := by
  have hbaseTag := isTag_of_mem_tags hbase
  have hpair : ∀ disk ∈ [(baseTag, snapshotTag)], IsTag disk.1 ∧ IsTag disk.2 := fun disk hd => by
    rw [List.mem_singleton.mp hd]
    exact ⟨hbaseTag, hsnapshot⟩
  have hstep : snapshotImages baseTag snapshotTag images =
      backupImages [(baseTag, snapshotTag)] images := rfl
  rw [hstep, substituted_iff_tags hpair, clean_singleton_iff]
  simp only [backupImages_singleton_iff hbaseTag.ne_nil]
  constructor
  · intro h
    by_cases heq : baseTag = snapshotTag
    · exact .inl heq
    · exact .inr fun t ht => (h t ht).resolve_left heq
  · rintro (heq | h) t ht
    · exact .inl heq
    · exact .inr (h t ht)

/-- The replacements exchange the tags when no source lies inside a tag that is no source, inside
a later source, or inside an earlier target. With one pair, as in the snapshot test, nothing else
will do. -/
theorem substituted_of_clean {images : List Char} {disks : List (Tag × Tag)}
    (hdistinct : (disks.map Prod.fst).Nodup) (hsource : ∀ disk ∈ disks, disk.1 ∈ tags images)
    (htarget : ∀ disk ∈ disks, IsTag disk.2) :
    (Clean disks (tags images) → Substituted disks images (backupImages disks images)) ∧
    ∀ baseTag ∈ tags images, ∀ snapshotTag, IsTag snapshotTag →
      (Substituted [(baseTag, snapshotTag)] images (snapshotImages baseTag snapshotTag images) ↔
        Clean [(baseTag, snapshotTag)] (tags images)) := by
  have hdisks : ∀ disk ∈ disks, IsTag disk.1 ∧ IsTag disk.2 := fun disk hd =>
    ⟨isTag_of_mem_tags (hsource disk hd), htarget disk hd⟩
  refine ⟨fun h => (substituted_iff_tags hdisks).mpr fun t ht => ?_,
    fun baseTag hbase snapshotTag hsnapshot => ?_⟩
  · exact backupImages_of_clean hdistinct (fun disk hd => (hdisks disk hd).1.ne_nil) h ht
  · exact substituted_snapshotImages_iff hbase hsnapshot

/-- Two sources of which the second one lies inside the first one, and inside no other tag. -/
theorem substituted_two_disks :
    Substituted [("stg10".toList, "dst10".toList), ("stg1".toList, "dst1".toList)]
      "image1 stg1 stg10".toList
      (backupImages [("stg10".toList, "dst10".toList), ("stg1".toList, "dst1".toList)]
        "image1 stg1 stg10".toList) :=
  (substituted_of_clean (by decide) (by decide) (by
    intro disk hd
    simp only [List.mem_cons, List.not_mem_nil, or_false] at hd
    obtain rfl | rfl := hd <;> exact ⟨by decide, by decide⟩)).1 ⟨by decide, by decide, by decide⟩

/-- With the pairs the other way round the second one finds nothing left to do, by chance. -/
example : Substituted [("stg1".toList, "dst1".toList), ("stg10".toList, "dst10".toList)]
    "image1 stg1 stg10".toList
    (backupImages [("stg1".toList, "dst1".toList), ("stg10".toList, "dst10".toList)]
      "image1 stg1 stg10".toList) := by
  unfold Substituted
  decide

/-- The target of `stg1` shows up in the tag of the tenth disk. -/
theorem not_substituted_tenth_disk :
    (tags "image1 stg1 stg10".toList).Nodup ∧ "stg1".toList ∈ tags "image1 stg1 stg10".toList ∧
      "dst1".toList ∉ tags "image1 stg1 stg10".toList ∧
      ¬Substituted [("stg1".toList, "dst1".toList)] "image1 stg1 stg10".toList
        (backupImages [("stg1".toList, "dst1".toList)] "image1 stg1 stg10".toList) := by
  refine ⟨by decide, by decide, by decide, ?_⟩
  unfold Substituted
  decide

end TpQemu.Backup
