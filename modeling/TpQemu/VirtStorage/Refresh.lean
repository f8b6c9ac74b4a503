import TpQemu.Lib.Dict
import TpQemu.Lib.Effects
import TpQemu.Lib.Python

/-!
# Refreshing a pool

`DirectoryPool.refresh` and `RBDPool.refresh` in `provider/virt_storage/backend`. Both return
`map(create_volume, filter(predicate, sources))`, which does nothing before somebody draws
from it. The predicate `not self.find_volume_by_path` reads an attribute that no pool has,
unless an option of that name has set it to a text.
-/

namespace TpQemu.VirtStorage

inductive PoolType where
  | directory
  | rbd

/-- What a refresh sets of a volume. -/
structure BackendVolume where
  name : Option String
  url : Option String
  path : Option String
  capacity : Int
  isAllocated : Bool

structure BackendPool where
  type : PoolType
  volumes : List BackendVolume
  /-- The attributes that `set_special_opts_by_params` has set. -/
  options : Dict String String
  /-- The regular expression of an option asks for at least one character. -/
  option_ne : ∀ key value, options.get? key = some value → value ≠ ""

/-- The helper of a directory pool. -/
structure FsCli where
  getSize : String → Int
  pathToUrl : String → String

section Definitions

variable (helper : FsCli)

/-- The constructor of a volume adds it to its pool, in which no volume is still blank. -/
def BackendPool.addVolume (pool : BackendPool) (v : BackendVolume) : BackendPool :=
  { pool with volumes := pool.volumes ++ [v] }

/-- `create_volume_from_local` -/
def createVolumeFromLocal (path : String) : EStateM PyError BackendPool BackendVolume := fun pool =>
  let v : BackendVolume :=
    ⟨none, some (helper.pathToUrl path), some path, helper.getSize path, true⟩
  .ok v (pool.addVolume v)

/-- `create_volume_on_rbd`, whose helper has no `get_size`. -/
def createVolumeOnRbd (path : String) : EStateM PyError BackendPool BackendVolume := fun pool =>
  .error .attributeError (pool.addVolume ⟨none, none, some path, 0, false⟩)

/-- The function that `refresh` maps over the files. -/
def createVolumeFor (path : String) : EStateM PyError BackendPool BackendVolume := fun pool =>
  match pool.type with
  | .directory => createVolumeFromLocal helper path pool
  | .rbd => createVolumeOnRbd path pool

/-- `lambda x: not self.find_volume_by_path` -/
def isNew (pool : BackendPool) : Except PyError Bool :=
  match pool.options.get? "find_volume_by_path" with
  | none => .error .attributeError
  | some value => .ok (value = "")

/-- The iterator that `refresh` returns: the sources that have not been looked at. -/
abbrev Refreshed := List String

/-- `refresh`, where `sources` is what `find_sources` gives or raises. -/
def refreshSources (sources : Except PyError (List String)) :
    EStateM PyError BackendPool Refreshed := liftExcept sources

/-- `next` on the iterator; an exception leaves it behind the file that raised it. -/
def draw : Refreshed → BackendPool → Refreshed × BackendPool
  | [], pool => ([], pool)
  | path :: files, pool =>
      match isNew pool with
      | .error _ => (files, pool)
      | .ok false => draw files pool
      | .ok true => (files, after (createVolumeFor helper path pool))

/-- The pool after so many draws. -/
def drawn : Nat → Refreshed → BackendPool → BackendPool
  | 0, _, pool => pool
  | n + 1, files, pool =>
      let r := draw helper files pool
      drawn n r.1 r.2

/-- The pool after a refresh and so many draws from its result. -/
def refreshed (files : List String) (draws : Nat) (pool : BackendPool) : BackendPool :=
  match refreshSources (.ok files) pool with
  | .ok it pool => drawn helper draws it pool
  | .error _ pool => pool

end Definitions

/-! ## What a refresh does -/

/-- There is one volume for each file, the volumes there were have stayed, and a second refresh
changes nothing. -/
structure Synchronised (files : List String) (before after again : BackendPool) : Prop where
  one : ∀ f ∈ files, (after.volumes.filter fun v => v.path = some f).length = 1
  kept : before.volumes.Sublist after.volumes
  idem : again = after

variable {helper : FsCli}

/-- No file is ever taken for new. -/
theorem isNew_ne_true (pool : BackendPool) : isNew pool ≠ .ok true := by
  rw [isNew]
  split
  · exact fun h => nomatch h
  · rename_i value hvalue
    intro h
    exact pool.option_ne _ _ hvalue (by simpa using h)

theorem draw_pool (files : Refreshed) (pool : BackendPool) : (draw helper files pool).2 = pool := by
  induction files with
  | nil => rfl
  | cons path files ih =>
      rw [draw]
      split
      · rfl
      · exact ih
      · rename_i htrue
        exact absurd htrue (isNew_ne_true pool)

theorem drawn_eq (n : Nat) (files : Refreshed) (pool : BackendPool) :
    drawn helper n files pool = pool := by
  induction n generalizing files pool with
  | zero => rfl
  | succ n ih => rw [drawn, ih, draw_pool]

theorem refreshed_eq (files : List String) (draws : Nat) (pool : BackendPool) :
    refreshed helper files draws pool = pool := drawn_eq draws files pool

/-- However much of its result is used, a refresh synchronises only a pool that has one volume
for each file already. -/
theorem synchronised_iff (files : List String) (draws draws' : Nat) (pool : BackendPool) :
    Synchronised files pool (refreshed helper files draws pool)
        (refreshed helper files draws' (refreshed helper files draws pool)) ↔
      ∀ f ∈ files, (pool.volumes.filter fun v => v.path = some f).length = 1 := by
  simp only [refreshed_eq]
  constructor
  · intro h
    exact h.one
  · intro h
    exact ⟨h, List.Sublist.refl _, rfl⟩

/-- A file that has no volume yet. -/
theorem new_file_gets_no_volume :
    ¬∀ (helper : FsCli) (files : List String) (draws draws' : Nat) (pool : BackendPool),
      files.Nodup → Synchronised files pool (refreshed helper files draws pool)
        (refreshed helper files draws' (refreshed helper files draws pool)) := by
  intro h
  have hsync := h ⟨fun _ => 104857600, fun path => "file://" ++ path⟩ ["/tmp/pool/sn1.qcow2"] 0 0
    ⟨.directory, [], ∅, fun _ _ hvalue => nomatch hvalue⟩ (List.nodup_singleton _)
  exact absurd (hsync.one "/tmp/pool/sn1.qcow2" List.mem_cons_self) (by decide)

end TpQemu.VirtStorage
