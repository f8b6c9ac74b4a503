import TpQemu.VirtStorage.Volumes

/-!
# The storage pool admin

Operations of `StoragePoolAdmin`. Definition and acquisition recurse along the backing of
a volume, as deep as Python allows. What the operations do to the flags, the keys and the
files is stated once, as a relation between the states before and after.
-/

namespace TpQemu.VirtStorage

variable {P : Type}

section Definitions

variable (env : Env P)

def poolDefineByParams (name : String) (params : P) : EStateM Error (State P) Unit := do
  let s ← get
  if name ∈ s.pools.keys then
    return
  let target ← liftExcept (env.poolDefine params)
  modify fun s => { s with pools := s.pools.set name ⟨target.1, target.2, []⟩ }

/-- The volumes of all pools; those of different pools are never equal. -/
def listVolumes (s : State P) : List Nat := s.pools.keys.flatMap (getVolumes s)

def adminGetVolumeByName (s : State P) (name : String) : Option Nat :=
  (listVolumes s).find? fun v => (s.volume v).name = name

def setBacking (v b : Nat) (s : State P) : State P :=
  s.setVolume v fun x => { x with backing := some b }

/-- `volume_define_by_params`, with the depth of recursion Python allows. -/
def volumeDefineByParams : Nat → String → P → EStateM Error (State P) Nat
  | 0, _, _ => throw .recursionError
  | limit + 1, name, params => do
      let volumeParams := env.objectParams params name
      match env.get volumeParams "storage_pool" with
      | none => throw .typeError
      | some poolName =>
          poolDefineByParams env poolName (env.objectParams params poolName)
          let v ← getVolumeByParams env poolName params name
          if (env.get volumeParams "image_format").getD "qcow2" = "qcow2" then
            match env.get volumeParams "backing" with
            | none => pure ()
            | some backingName =>
                if backingName ≠ "" then
                  let s ← get
                  match adminGetVolumeByName s backingName with
                  | some b => modify (setBacking v b)
                  | none =>
                      let b ← volumeDefineByParams limit backingName params
                      modify (setBacking v b)
          refreshWithParams env v volumeParams
          return v

/-- `acquire_volume`; `ok` and `left` say how `qemu-img` ends for each volume. -/
def acquireVolume (ok left : Nat → Bool) : Nat → Nat → EStateM Error (State P) Unit
  | 0, _ => throw .recursionError
  | limit + 1, v => do
      let s ← get
      if (s.volume v).isAllocated then
        return
      match (s.volume v).backing with
      | some b => acquireVolume ok left limit b
      | none => pure ()
      poolAcquireVolume env (ok v) (left v) v

/-! ## Runs -/

inductive Label (P : Type) where
  | define (limit : Nat) (name : String) (params : P)
  /-- `get_volume_by_params` of a pool. -/
  | lookUp (pool : String) (params : P) (name : String)
  | refresh
  | acquire (ok left : Nat → Bool) (limit v : Nat)
  | remove (v : Nat)

/-- An operation, whether it returns or raises. -/
def step (s : State P) : Label P → Option (State P)
  | .define limit name params => some (after (volumeDefineByParams env limit name params s))
  | .lookUp pool params name =>
      if pool ∈ s.pools.keys then some (after (getVolumeByParams env pool params name s))
      else none
  | .refresh => some (after (refresh s))
  | .acquire ok left limit v =>
      if v < s.count then some (after (acquireVolume env ok left limit v s)) else none
  | .remove v => if v < s.count then some (after (removeVolume env v s)) else none

/-- No pool has been defined; the volumes not constructed yet are arbitrary. -/
def initial (files : List String) : State P where
  pools := ∅
  volume := fun _ =>
    { name := "", pool := "", path := "", key := none, capacity := 0, params := none
      isAllocated := false, preallocation := none, backing := none }
  count := 0
  files := files
  created := []

end Definitions

/-! ## Definitions -/

/-- A relation that every assignment of a definition respects. -/
structure DefineClosed (env : Env P) (R : State P → State P → Prop) : Prop where
  refl : ∀ s, R s s
  trans : ∀ s t u, R s t → R t u → R s u
  /-- A definition assigns neither to the cache of the key nor to the flag. -/
  assign : ∀ s v f, (∀ x, (f x).key = x.key ∧ (f x).isAllocated = x.isAllocated) →
    R s (s.setVolume v f)
  newVolume : ∀ n name path, Moves R (newVolume env n name path)
  newPool : ∀ s name dir auth, name ∉ s.pools.keys →
    R s { s with pools := s.pools.set name ⟨dir, auth, []⟩ }

section Define

variable {env : Env P} {R : State P → State P → Prop}

theorem moves_assign (h : DefineClosed env R) (v : Nat) (f : State P → Volume P → Volume P)
    (hf : ∀ s x, (f s x).key = x.key ∧ (f s x).isAllocated = x.isAllocated) :
    Moves R (modify fun s => s.setVolume v (f s) : EStateM Error (State P) PUnit) :=
  moves_modify fun s => h.assign s v (f s) (hf s)

theorem moves_refreshWithParams (h : DefineClosed env R) (v : Nat) (params : P) :
    Moves R (refreshWithParams env v params) := by
  have hrest : Moves R (do
      modify fun s => s.setVolume v fun x => { x with params := some params }
      let size ← liftExcept (env.normalizeDataSize ((env.get params "image_size").getD "100M"))
      modify fun s => s.setVolume v fun x => { x with
        capacity := size
        preallocation := some ((env.get params "preallocation").getD "off") }
      liftExcept (env.refreshNodes params)
      modify fun s => s.setVolume v fun x => { x with
        path := getVolumePathByParam env s x.pool (env.objectParams params x.name) }) := by
    apply moves_bind h.trans (moves_assign h v (fun _ x => { x with params := some params })
      fun _ _ => ⟨rfl, rfl⟩)
    intro _
    apply moves_bind h.trans (moves_liftExcept h.refl _)
    intro size
    apply moves_bind h.trans (moves_assign h v (fun _ x => { x with
      capacity := size, preallocation := some ((env.get params "preallocation").getD "off") })
      fun _ _ => ⟨rfl, rfl⟩)
    intro _
    apply moves_bind h.trans (moves_liftExcept h.refl _)
    intro _
    exact moves_assign h v (fun s x => { x with
      path := getVolumePathByParam env s x.pool (env.objectParams params x.name) })
      fun _ _ => ⟨rfl, rfl⟩
  unfold refreshWithParams
  split
  · exact moves_bind h.trans (moves_liftExcept h.refl _) fun _ => hrest
  · exact hrest

theorem moves_getVolumeByParams (h : DefineClosed env R) (n : String) (params : P)
    (name : String) : Moves R (getVolumeByParams env n params name) := by
  apply moves_bind h.trans (moves_get h.refl)
  intro s
  dsimp only
  split
  · exact moves_pure h.refl _
  · apply moves_bind h.trans (h.newVolume _ _ _)
    intro v
    apply moves_bind h.trans (moves_refreshWithParams h v _)
    intro _
    exact moves_pure h.refl v

theorem moves_poolDefineByParams (h : DefineClosed env R) (name : String) (params : P) :
    Moves R (poolDefineByParams env name params) := by
  apply moves_get_bind
  intro s
  by_cases hmem : name ∈ s.pools.keys
  · rw [if_pos hmem]
    exact h.refl s
  · rw [if_neg hmem]
    cases env.poolDefine params with
    | ok target => exact h.newPool s name _ _ hmem
    | error e => exact h.refl s

theorem moves_volumeDefineByParams (h : DefineClosed env R) (limit : Nat) (name : String)
    (params : P) : Moves R (volumeDefineByParams env limit name params) := by
  induction limit generalizing name with
  | zero => exact moves_throw h.refl _
  | succ limit ih =>
      have hback : ∀ v b, Moves R (modify (setBacking v b) : EStateM Error (State P) PUnit) :=
        fun v b => moves_assign h v (fun _ x => { x with backing := some b }) fun _ _ => ⟨rfl, rfl⟩
      have hend : ∀ v, Moves R (do
          refreshWithParams env v (env.objectParams params name)
          return v) :=
        fun v => moves_bind h.trans (moves_refreshWithParams h v _) fun _ => moves_pure h.refl v
      unfold volumeDefineByParams
      dsimp only
      split
      · exact moves_throw h.refl _
      · apply moves_bind h.trans (moves_poolDefineByParams h _ _)
        intro _
        apply moves_bind h.trans (moves_getVolumeByParams h _ _ _)
        intro v
        split
        · split
          · exact hend v
          · split
            · apply moves_bind h.trans (moves_get h.refl)
              intro s
              split
              · exact moves_bind h.trans (hback v _) fun _ => hend v
              · apply moves_bind h.trans (ih _)
                intro b
                exact moves_bind h.trans (hback v b) fun _ => hend v
            · exact hend v
        · exact hend v

end Define

/-! ## Acquisition -/

/-- Keys are read, files are created and flags are set. -/
structure Grows (s s' : State P) : Prop where
  pools : s'.pools = s.pools
  count : s'.count = s.count
  files : ∀ f ∈ s.files, f ∈ s'.files
  volume : ∀ v, s'.volume v = { s.volume v with
    key := (s'.volume v).key, isAllocated := (s'.volume v).isAllocated }
  fileOf : ∀ v, s'.fileOf v = s.fileOf v
  key : ∀ v k, (s.volume v).key = some k → (s'.volume v).key = some k
  allocated : ∀ v, (s.volume v).isAllocated = true → (s'.volume v).isAllocated = true

namespace Grows

theorem refl (s : State P) : Grows s s :=
  ⟨rfl, rfl, fun _ h => h, fun _ => rfl, fun _ => rfl, fun _ _ h => h, fun _ h => h⟩

theorem trans {s t u : State P} (h₁ : Grows s t) (h₂ : Grows t u) : Grows s u where
  pools := h₂.pools.trans h₁.pools
  count := h₂.count.trans h₁.count
  files := fun f hf => h₂.files f (h₁.files f hf)
  volume := by
    intro v
    rw [h₂.volume v, h₁.volume v]
  fileOf := fun v => (h₂.fileOf v).trans (h₁.fileOf v)
  key := fun v k hk => h₂.key v k (h₁.key v k hk)
  allocated := fun v hv => h₂.allocated v (h₁.allocated v hv)

theorem backing {s s' : State P} (h : Grows s s') (v : Nat) :
    (s'.volume v).backing = (s.volume v).backing := by rw [h.volume v]

theorem params {s s' : State P} (h : Grows s s') (v : Nat) :
    (s'.volume v).params = (s.volume v).params := by rw [h.volume v]

end Grows

theorem Reads.grows {s s' : State P} (h : Reads s s') : Grows s s' where
  pools := h.pools
  count := h.count
  files := fun f hf => h.files ▸ hf
  volume := by
    intro v
    rcases h.volume v with h | h <;> rw [h]
  fileOf := h.fileOf
  key := by
    intro v k hk
    rcases h.volume v with h | h
    · rw [h, hk]
    · rw [h, Volume.keyOf, hk, Option.getD_some]
  allocated := by
    intro v hv
    rcases h.volume v with h | h <;> rw [h] <;> exact hv

/-- The part of the state behind a created file. -/
theorem grows_createFile (s : State P) (f : String) (created : List String) :
    Grows s { s with files := f :: s.files, created := created } :=
  ⟨rfl, rfl, fun _ h => List.mem_cons_of_mem f h, fun _ => rfl, fun _ => rfl, fun _ _ h => h,
    fun _ h => h⟩

theorem grows_allocate (s : State P) (v : Nat) :
    Grows s (s.setVolume v fun x => { x with isAllocated := true }) where
  pools := rfl
  count := rfl
  files := fun _ h => h
  volume := by
    intro w
    rw [State.volume_setVolume]
    split
    · rename_i h
      rw [h]
    · rfl
  fileOf := by
    intro w
    rw [State.fileOf, State.volume_setVolume]
    split
    · rename_i h
      rw [h]
      rfl
    · rfl
  key := by
    intro w k hk
    rw [State.volume_setVolume]
    split
    · rename_i h
      rw [← h]
      exact hk
    · exact hk
  allocated := by
    intro w hw
    rw [State.volume_setVolume]
    split
    · rfl
    · exact hw

section Acquire

variable {env : Env P}

theorem moves_runQemuImg (ok left : Bool) (v : Nat) :
    Moves (Grows (P := P)) (runQemuImg ok left v) := by
  have htrans : ∀ s t u : State P, Grows s t → Grows t u → Grows s u := fun _ _ _ => Grows.trans
  apply moves_bind htrans (moves_modify fun s => (reads_readKey s v).grows)
  intro _
  cases ok with
  | true =>
      apply moves_bind htrans (moves_modify fun s => grows_createFile s _ _)
      intro _
      exact moves_modify fun s => grows_allocate s v
  | false =>
      cases left with
      | true =>
          apply moves_bind htrans (moves_modify fun s => grows_createFile s _ _)
          intro _
          exact moves_throw Grows.refl _
      | false => exact moves_throw Grows.refl _

theorem moves_createVolume (ok left : Bool) (v : Nat) :
    Moves (Grows (P := P)) (createVolume env ok left v) := by
  have hrefl := Grows.refl (P := P)
  have htrans : ∀ s t u : State P, Grows s t → Grows t u → Grows s u := fun _ _ _ => Grows.trans
  apply moves_bind htrans (moves_get hrefl)
  intro s
  split
  · exact moves_throw hrefl _
  · dsimp only
    split
    · split
      · apply moves_bind htrans (moves_modify fun s => (reads_readKey s _).grows)
        intro _
        exact moves_runQemuImg ok left v
      · exact moves_runQemuImg ok left v
    · exact moves_runQemuImg ok left v

theorem moves_acquireVolume (env : Env P) (ok left : Nat → Bool) (limit v : Nat) :
    Moves (Grows (P := P)) (acquireVolume env ok left limit v) := by
  have hrefl := Grows.refl (P := P)
  have htrans : ∀ s t u : State P, Grows s t → Grows t u → Grows s u := fun _ _ _ => Grows.trans
  have hpool : ∀ w, Moves Grows (poolAcquireVolume env (ok w) (left w) w) := by
    intro w
    apply moves_bind htrans (moves_get hrefl)
    intro s
    split
    · exact moves_pure hrefl _
    · exact moves_bind htrans (moves_createVolume _ _ w) fun _ => moves_pure hrefl _
  induction limit generalizing v with
  | zero => exact moves_throw hrefl _
  | succ limit ih =>
      apply moves_bind htrans (moves_get hrefl)
      intro s
      dsimp only
      split
      · exact moves_pure hrefl _
      · split
        · exact moves_bind htrans (ih _) fun _ => hpool v
        · exact hpool v

end Acquire

end TpQemu.VirtStorage
