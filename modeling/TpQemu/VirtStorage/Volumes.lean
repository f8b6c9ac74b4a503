import TpQemu.Lib.Dict
import TpQemu.Lib.Effects
import TpQemu.Lib.HashSet
import TpQemu.Lib.Steps
import Mathlib.Logic.Function.Basic

/-!
# Volumes and directory pools

`StorageVolume` in `provider/virt_storage/storage_volume.py`, `BaseStoragePool` and
`DirectoryPool` in `provider/virt_storage/backend`, and `StoragePoolAdmin` in
`provider/virt_storage/storage_admin.py`.

Volumes are objects, named here by numbers. A volume is hashed and compared by its `info`,
which changes while it is defined. Only the cache behind `key` can be observed: a name
does not change, so neither does the url, and `name` and `path` are assigned right behind
the constructor. The block nodes of a volume are left out; making them may raise.
-/

namespace TpQemu.VirtStorage

inductive Error where
  | recursionError
  | typeError
  | attributeError
  /-- An exception of the code outside the repository. -/
  | raised
  deriving DecidableEq

/-- What `StorageVolume.info()` returns. -/
structure Info where
  name : Option String
  pool : String
  url : Option String
  path : Option String
  key : Option String
  format : Option String
  auth : String
  capacity : Int
  preallocation : Option String
  backing : String
  deriving DecidableEq

/-- The test parameters, of type `P`, and what else is outside the repository. -/
structure Env (P : Type) where
  objectParams : P → String → P
  get : P → String → Option String
  truthy : P → Bool
  realpath : String → String
  /-- `int(float(normalize_data_size(size, "B", "1024")))` -/
  normalizeDataSize : String → Except Error Int
  /-- The version of QEMU, which `refresh_with_params` asks for a raw image. -/
  qemuVersion : P → Except Error Unit
  /-- `refresh_protocol_by_params` and `refresh_format_by_params`. -/
  refreshNodes : P → Except Error Unit
  /-- The directory of a new pool and the text of its authorization. -/
  poolDefine : P → Except Error (String × String)
  /-- `hash(str(info))` -/
  hash : Info → Int

structure Volume (P : Type) where
  name : String
  /-- The name of the pool. -/
  pool : String
  path : String
  /-- The cache of the property `key`. -/
  key : Option String
  /-- Set to 0 when the constructor hashes the volume. -/
  capacity : Int
  params : Option P
  isAllocated : Bool
  preallocation : Option String
  backing : Option Nat

structure Pool where
  /-- `target.path` -/
  dir : String
  auth : String
  volumes : List (Entry Nat)

structure State (P : Type) where
  pools : Dict String Pool
  volume : Nat → Volume P
  /-- The number of volumes constructed so far. -/
  count : Nat
  files : List String
  /-- The files `create_volume` has created, in this order. -/
  created : List String

/-- `os.path.join` -/
def join (a b : String) : String :=
  if b.toList.head? = some '/' then b
  else if a.toList.getLast?.all (· = '/') then a ++ b
  else a ++ "/" ++ b

variable {P : Type}

/-- The property `key` of a volume in a directory pool. -/
def Volume.keyOf (v : Volume P) : String := v.key.getD v.path

namespace State

variable (s : State P)

/-- The pool of this name; the pool of a volume is defined before the volume. -/
def pool (n : String) : Pool := (s.pools.get? n).getD ⟨"", "", []⟩

def setVolume (v : Nat) (f : Volume P → Volume P) : State P :=
  { s with volume := Function.update s.volume v (f (s.volume v)) }

def setVolumes (n : String) (es : List (Entry Nat)) : State P :=
  { s with pools := s.pools.set n { s.pool n with volumes := es } }

/-- The file `create_volume` makes for a volume. -/
def fileOf (v : Nat) : String := (s.volume v).keyOf

def readKey (v : Nat) : State P := s.setVolume v fun x => { x with key := some x.keyOf }

/-- `info()` reads the keys of the volume and of its backing. -/
def touch (v : Nat) : State P :=
  match (s.volume v).backing with
  | none => s.readKey v
  | some b => (s.readKey v).readKey b

end State

section Definitions

variable (env : Env P)

/-- The property `url`. -/
def url (dir name : String) : Option String :=
  if name = "" then none
  else some ("file://" ++ env.realpath (env.realpath (join dir name)))

/-- `str(volume)` -/
def volumeStr (s : State P) (v : Nat) : String :=
  "StorageVolume-" ++ (s.volume v).name ++ "(" ++ s.fileOf v ++ ")"

def poolStr (n : String) : String := "DirectoryPool:" ++ n

def info (s : State P) (v : Nat) : Info where
  name := some (s.volume v).name
  pool := poolStr (s.volume v).pool
  url := url env (s.pool (s.volume v).pool).dir (s.volume v).name
  path := some (s.volume v).path
  key := some (s.fileOf v)
  format := (s.volume v).params.bind fun p =>
    if env.truthy p then some ((env.get p "image_format").getD "qcow2") else none
  auth := (s.pool (s.volume v).pool).auth
  capacity := (s.volume v).capacity
  preallocation := (s.volume v).preallocation
  backing := ((s.volume v).backing.map (volumeStr s)).getD "None"

/-- The info of a volume inside its constructor. -/
def blankInfo (n auth : String) : Info where
  name := none
  pool := poolStr n
  url := none
  path := none
  key := none
  format := none
  auth := auth
  capacity := 0
  preallocation := none
  backing := "None"

/-! ## Pools -/

def getVolumePathByParam (s : State P) (n : String) (params : P) : String :=
  let imageName := (env.get params "image_name").getD n
  let imageFormat := (env.get params "image_format").getD "qcow2"
  join (s.pool n).dir (imageName ++ "." ++ imageFormat)

/-- `get_volumes()`, as an iteration meets them. -/
def getVolumes (s : State P) (n : String) : List Nat := (s.pool n).volumes.map Entry.elem

def getVolumeByPath (s : State P) (n path : String) : Option Nat :=
  (getVolumes s n).find? fun v => (s.volume v).path = path

def getVolumeByName (s : State P) (n name : String) : Option Nat :=
  (getVolumes s n).find? fun v => (s.volume v).name = name

/-- The constructor, which files the volume under its info of the time, and the first
assignments of `get_volume_by_params`. -/
def newVolume (n name path : String) : EStateM Error (State P) Nat := fun s =>
  let v := s.count
  let blank := blankInfo n (s.pool n).auth
  let same := fun w => w = v || info env s w = blank
  let es := (s.pool n).volumes
  let t := (HashSet.compared (env.hash blank) same es).foldl State.touch s
  .ok v { t.setVolumes n (HashSet.add (env.hash blank) same v es) with
    volume := Function.update t.volume v
      { name := name, pool := n, path := path, key := none, capacity := 0, params := none
        isAllocated := false, preallocation := none, backing := none }
    count := v + 1 }

def refreshWithParams (v : Nat) (params : P) : EStateM Error (State P) Unit := do
  if env.get params "image_format" = some "raw" then
    liftExcept (env.qemuVersion params)
  modify fun s => s.setVolume v fun x => { x with params := some params }
  let size ← liftExcept (env.normalizeDataSize ((env.get params "image_size").getD "100M"))
  modify fun s => s.setVolume v fun x => { x with
    capacity := size
    preallocation := some ((env.get params "preallocation").getD "off") }
  liftExcept (env.refreshNodes params)
  modify fun s => s.setVolume v fun x => { x with
    path := getVolumePathByParam env s x.pool (env.objectParams params x.name) }

def getVolumeByParams (n : String) (params : P) (name : String) :
    EStateM Error (State P) Nat := do
  let volumeParams := env.objectParams params name
  let s ← get
  let path := getVolumePathByParam env s n volumeParams
  match getVolumeByPath s n path with
  | some v => return v
  | none =>
      let v ← newVolume env n name path
      refreshWithParams env v volumeParams
      return v

/-- `DirectoryPool.refresh` makes a lazy iterator that nobody runs. -/
def refresh : EStateM Error (State P) Unit := pure ()

/-- `qemu-img create` on the key of the volume, and the flag. Here `ok` says if the command
succeeds and `left` if it leaves a file behind when it fails. -/
def runQemuImg (ok left : Bool) (v : Nat) : EStateM Error (State P) Unit := do
  modify fun s => s.readKey v
  if ok then
    modify fun s => { s with
      files := s.fileOf v :: s.files, created := s.created ++ [s.fileOf v] }
    modify fun s => s.setVolume v fun x => { x with isAllocated := true }
  else
    if left then
      modify fun s => { s with files := s.fileOf v :: s.files }
    throw .raised

/-- `DirectoryPool.create_volume` -/
def createVolume (ok left : Bool) (v : Nat) : EStateM Error (State P) Unit := do
  let s ← get
  match (s.volume v).params with
  -- `generate_qemu_img_options`
  | none => throw .attributeError
  | some params =>
      if (env.get params "image_format").getD "qcow2" = "qcow2" then
        match (s.volume v).backing with
        | some b => modify fun s => s.readKey b
        | none => pure ()
      runQemuImg ok left v

/-- `BaseStoragePool.acquire_volume` -/
def poolAcquireVolume (ok left : Bool) (v : Nat) : EStateM Error (State P) Unit := do
  let s ← get
  if (s.volume v).isAllocated then
    return
  createVolume env ok left v
  refresh

/-- `DirectoryPool.remove_volume` -/
def removeVolume (v : Nat) : EStateM Error (State P) Unit := modify fun s =>
  let n := (s.volume v).pool
  let h := env.hash (info env s v)
  let same := fun w => w = v || info env s w = info env s v
  let es := (s.pool n).volumes
  let t := (HashSet.compared h same es).foldl State.touch (s.touch v)
  { t.setVolumes n (HashSet.discard h same es) with
    files := s.files.filter fun f => f ≠ (s.volume v).path }

end Definitions

/-! ## Assignments -/

namespace State

variable (s : State P)

theorem volume_setVolume (v w : Nat) (f : Volume P → Volume P) :
    (s.setVolume v f).volume w = if w = v then f (s.volume v) else s.volume w :=
  Function.update_apply _ _ _ _

@[simp] theorem pool_setVolumes_self (n : String) (es : List (Entry Nat)) :
    (s.setVolumes n es).pool n = { s.pool n with volumes := es } := by
  simp [pool, setVolumes]

theorem pool_setVolumes_ne {n m : String} (h : m ≠ n) (es : List (Entry Nat)) :
    (s.setVolumes n es).pool m = s.pool m := by
  simp [pool, setVolumes, Dict.get?_set_ne _ h]

end State

/-! ## What reading a key changes -/

/-- Some caches behind `key` are filled, and nothing else changes. -/
structure Reads (s s' : State P) : Prop where
  pools : s'.pools = s.pools
  count : s'.count = s.count
  files : s'.files = s.files
  created : s'.created = s.created
  volume : ∀ v, s'.volume v = s.volume v ∨
    s'.volume v = { s.volume v with key := some (s.volume v).keyOf }

namespace Reads

theorem refl (s : State P) : Reads s s := ⟨rfl, rfl, rfl, rfl, fun _ => .inl rfl⟩

theorem trans {s t u : State P} (h₁ : Reads s t) (h₂ : Reads t u) : Reads s u where
  pools := h₂.pools.trans h₁.pools
  count := h₂.count.trans h₁.count
  files := h₂.files.trans h₁.files
  created := h₂.created.trans h₁.created
  volume := by
    intro v
    rcases h₂.volume v with h | h
    · rw [h]
      exact h₁.volume v
    · right
      rw [h]
      rcases h₁.volume v with h' | h'
      · rw [h']
      · rw [h']
        rfl

theorem fileOf {s s' : State P} (h : Reads s s') (v : Nat) : s'.fileOf v = s.fileOf v := by
  rcases h.volume v with h | h
  · rw [State.fileOf, h, State.fileOf]
  · rw [State.fileOf, h]
    rfl

theorem pool {s s' : State P} (h : Reads s s') (v : Nat) :
    (s'.volume v).pool = (s.volume v).pool := by
  rcases h.volume v with h | h <;> rw [h]

theorem isAllocated {s s' : State P} (h : Reads s s') (v : Nat) :
    (s'.volume v).isAllocated = (s.volume v).isAllocated := by
  rcases h.volume v with h | h <;> rw [h]

end Reads

theorem reads_readKey (s : State P) (v : Nat) : Reads s (s.readKey v) where
  pools := rfl
  count := rfl
  files := rfl
  created := rfl
  volume := by
    intro w
    rw [State.readKey, State.volume_setVolume]
    split
    · rename_i h
      rw [h]
      exact .inr rfl
    · exact .inl rfl

theorem reads_touch (s : State P) (v : Nat) : Reads s (s.touch v) := by
  rw [State.touch]
  split
  · exact reads_readKey s v
  · rename_i b _
    exact (reads_readKey s v).trans (reads_readKey _ b)

theorem reads_foldl_touch (vs : List Nat) (s : State P) : Reads s (vs.foldl State.touch s) := by
  induction vs generalizing s with
  | nil => exact Reads.refl s
  | cons v vs ih => exact (reads_touch s v).trans (ih _)

end TpQemu.VirtStorage
