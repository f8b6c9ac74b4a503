import TpQemu.Lib.Walk
import TpQemu.VirtStorage.Removal

/-!
# Defining a volume

`volume_define_by_params` step by step. A volume is looked up by its path in one pool, the
volume of a backing image by its name in all pools. A call looks up the volume of its image
or makes a new one, gives it its backing, by a recursive call if there is no volume of that
name, and refreshes it.
-/

namespace TpQemu.VirtStorage

variable {P : Type}

section Definitions

variable (env : Env P) (params : P)

/-- The name of the pool of an image. -/
def poolOf (name : String) : Option String :=
  env.get (env.objectParams params name) "storage_pool"

/-- The backing of a qcow2 image. -/
def backingOf (name : String) : Option String :=
  let volumeParams := env.objectParams params name
  if (env.get volumeParams "image_format").getD "qcow2" = "qcow2" then
    (env.get volumeParams "backing").filter (· ≠ "")
  else none

/-- The directory of a pool, which may still have to be defined. -/
def dirOf (s : State P) (n : String) : String :=
  match s.pools.get? n with
  | some pool => pool.dir
  | none =>
      match env.poolDefine (env.objectParams params n) with
      | .ok target => target.1
      | .error _ => ""

/-- The path of an image in a pool. -/
def imagePath (s : State P) (n name : String) : String :=
  let volumeParams := env.objectParams params name
  join (dirOf env params s n) ((env.get volumeParams "image_name").getD n ++ "." ++
    (env.get volumeParams "image_format").getD "qcow2")

/-- The part of `volume_define_by_params` that gives a volume its backing. -/
def attachBacking (define : String → EStateM Error (State P) Nat) (name : String) (v : Nat) :
    EStateM Error (State P) Unit := do
  match backingOf env params name with
  | none => pure ()
  | some backingName =>
      let s ← get
      match adminGetVolumeByName s backingName with
      | some b => modify (setBacking v b)
      | none =>
          let b ← define backingName
          modify (setBacking v b)

/-- The part of `volume_define_by_params` behind the look-up of the volume. -/
def finish (define : String → EStateM Error (State P) Nat) (name : String) (v : Nat) :
    EStateM Error (State P) Nat := do
  attachBacking env params define name v
  refreshWithParams env v (env.objectParams params name)
  return v

/-- The image can be defined: nothing outside the repository raises, and taking the
parameters of an image twice is the same as taking them once. -/
structure Complete (name : String) : Prop where
  pool : ∃ n target, poolOf env params name = some n ∧
    env.poolDefine (env.objectParams params n) = .ok target
  version : env.get (env.objectParams params name) "image_format" = some "raw" →
    env.qemuVersion (env.objectParams params name) = .ok ()
  size : ∃ size, env.normalizeDataSize
    ((env.get (env.objectParams params name) "image_size").getD "100M") = .ok size
  nodes : env.refreshNodes (env.objectParams params name) = .ok ()
  again : ∀ key, env.get (env.objectParams (env.objectParams params name) name) key =
    env.get (env.objectParams params name) key

/-- Some volume has this name. -/
def Known (s : State P) (name : String) : Prop :=
  ∃ v ∈ listVolumes s, (s.volume v).name = name

/-- Some volume of its pool has the path of the image. -/
def PathTaken (s : State P) (name : String) : Prop :=
  ∃ n, poolOf env params name = some n ∧
    ∃ v ∈ getVolumes s n, (s.volume v).path = imagePath env params s n name

end Definitions

variable {env : Env P} {params : P}

/-! ## Volumes of all pools -/

theorem mem_listVolumes {s : State P} {v : Nat} :
    v ∈ listVolumes s ↔ ∃ n, v ∈ getVolumes s n := by
  rw [listVolumes, List.mem_flatMap]
  constructor
  · rintro ⟨n, -, hv⟩
    exact ⟨n, hv⟩
  · rintro ⟨n, hv⟩
    refine ⟨n, ?_, hv⟩
    by_contra hn
    rw [getVolumes, State.pool, Dict.get?_eq_none_iff.mpr hn] at hv
    cases hv

/-- The same volumes are found at the same paths. -/
structure SameVolumes (env : Env P) (params : P) (s t : State P) : Prop where
  volume : t.volume = s.volume
  count : t.count = s.count
  volumes : ∀ n, getVolumes t n = getVolumes s n
  dir : ∀ n, dirOf env params t n = dirOf env params s n

/-- A volume has been added to a pool. -/
structure Registers (env : Env P) (params : P) (s t : State P) (n name path : String) :
    Prop where
  filed : Filed env t
  count : t.count = s.count + 1
  volumes : ∀ m, getVolumes t m = if m = n then getVolumes s m ++ [s.count] else getVolumes s m
  dir : ∀ m, dirOf env params t m = dirOf env params s m
  kept : ∀ v, v ≠ s.count → (t.volume v).name = (s.volume v).name ∧
    (t.volume v).path = (s.volume v).path ∧ (t.volume v).backing = (s.volume v).backing
  pool : (t.volume s.count).pool = n
  named : (t.volume s.count).name = name
  placed : (t.volume s.count).path = path

theorem Registers.refresh {s t : State P} {n name path : String} {f : Volume P → Volume P}
    (h : Registers env params s t n name path) (hname : ∀ x, (f x).name = x.name)
    (hpool : ∀ x, (f x).pool = x.pool) (hpath : (f (t.volume s.count)).path = path) :
    Registers env params s (t.setVolume s.count f) n name path where
  filed := h.filed.of_eq rfl rfl
  count := h.count
  volumes := h.volumes
  dir := h.dir
  kept := by
    intro v hv
    rw [State.volume_setVolume, if_neg hv]
    exact h.kept v hv
  pool := by rw [State.volume_setVolume, if_pos rfl, hpool, h.pool]
  named := by rw [State.volume_setVolume, if_pos rfl, hname, h.named]
  placed := by rw [State.volume_setVolume, if_pos rfl, hpath]

/-! ## The volume of an image -/

theorem imagePath_congr {s t : State P} {n : String}
    (h : dirOf env params t n = dirOf env params s n) (name : String) :
    imagePath env params t n name = imagePath env params s n name := by
  rw [imagePath, h, imagePath]

theorem pathTaken_congr {s t : State P} (h : SameVolumes env params s t) (name : String) :
    PathTaken env params t name ↔ PathTaken env params s name := by
  simp only [PathTaken, h.volumes, h.volume, imagePath_congr (h.dir _)]

theorem Registers.of_same {s u t : State P} {n name path : String}
    (hsame : SameVolumes env params s u) (h : Registers env params u t n name path) :
    Registers env params s t n name path where
  filed := h.filed
  count := by rw [h.count, hsame.count]
  volumes := by
    intro m
    rw [h.volumes, hsame.volumes, hsame.count]
  dir := by
    intro m
    rw [h.dir, hsame.dir]
  kept := by
    intro v hv
    rw [← hsame.volume]
    exact h.kept v (hsame.count ▸ hv)
  pool := hsame.count ▸ h.pool
  named := hsame.count ▸ h.named
  placed := hsame.count ▸ h.placed

theorem name_setVolume {f : Volume P → Volume P} (hf : ∀ x, (f x).name = x.name) (s : State P)
    (v w : Nat) : ((s.setVolume v f).volume w).name = (s.volume w).name := by
  rw [State.volume_setVolume]
  split
  · rename_i h
    rw [hf, h]
  · rfl

/-! ## Behind the look-up -/

section Finish

variable {define : String → EStateM Error (State P) Nat} {name b : String} {s t : State P}
  {v w : Nat}

theorem Filed.lt_count {n : String} (h : Filed env s) (hv : v ∈ getVolumes s n) :
    v < s.count := by
  obtain ⟨e, he, rfl⟩ := List.mem_map.mp hv
  exact h.elem n e he

/-- The volumes of a pool when a volume has been added. -/
theorem Registers.mem_getVolumes {n m path : String} (h : Registers env params s t n name path) :
    v ∈ getVolumes t m ↔ v ∈ getVolumes s m ∨ m = n ∧ v = s.count := by
  rw [h.volumes]
  split
  · rename_i hm
    simp [hm]
  · rename_i hm
    simp [hm]

/-- The names known when a volume has been added. -/
theorem Registers.known_iff {n path : String} (h : Registers env params s t n name path)
    (hfiled : Filed env s) (x : String) : Known t x ↔ Known s x ∨ x = name := by
  have hkept : ∀ v m, v ∈ getVolumes s m → (t.volume v).name = (s.volume v).name :=
    fun v m hv => (h.kept v (Nat.ne_of_lt (hfiled.lt_count hv))).1
  simp only [Known, mem_listVolumes]
  constructor
  · rintro ⟨v, ⟨m, hv⟩, hx⟩
    rcases h.mem_getVolumes.mp hv with hv | ⟨rfl, rfl⟩
    · exact .inl ⟨v, ⟨m, hv⟩, hkept v m hv ▸ hx⟩
    · exact .inr (hx.symm.trans h.named)
  · rintro (⟨v, ⟨m, hv⟩, hx⟩ | rfl)
    · exact ⟨v, ⟨m, h.mem_getVolumes.mpr (.inl hv)⟩, (hkept v m hv).trans hx⟩
    · exact ⟨s.count, ⟨n, h.mem_getVolumes.mpr (.inr ⟨rfl, rfl⟩)⟩, h.named⟩

end Finish

end TpQemu.VirtStorage
