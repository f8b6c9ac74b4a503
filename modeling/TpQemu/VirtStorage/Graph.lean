import TpQemu.VirtStorage.Definition

/-!
# The graph of backing images

`volume_define_by_params` follows the parameter `backing` from image to image. The recursion
ends at an image that has a volume, be it under construction, so it ends whatever the backing
relation is; what is behind such an image is taken to be there.
-/

namespace TpQemu.VirtStorage

variable {P : Type} {env : Env P} {params : P}

/-! ## The definitions of a walk -/

/-- The backing of a volume is the volume of the backing image of the image `name`. -/
def Backed (env : Env P) (params : P) (s : State P) (name : String) (v : Nat) : Prop :=
  ∀ b, backingOf env params name = some b →
    ∃ w ∈ listVolumes s, (s.volume v).backing = some w ∧ (s.volume w).name = b

/-- What definitions add: a volume for each image of the list, in this order. -/
structure Adds (env : Env P) (params : P) (s t : State P) (l : List String) : Prop where
  count : t.count = s.count + l.length
  volumes : ∀ n w, w ∈ getVolumes t n ↔ w ∈ getVolumes s n ∨
    ∃ i m, l[i]? = some m ∧ w = s.count + i ∧ poolOf env params m = some n
  kept : ∀ w < s.count, (t.volume w).name = (s.volume w).name
  named : ∀ i m, l[i]? = some m → (t.volume (s.count + i)).name = m
  backed : ∀ i m, l[i]? = some m → Backed env params t m (s.count + i)

/-- Assigning to an old volume does not touch what has been added. -/
theorem Adds.setVolume {s t : State P} {l : List String} {v : Nat} {f : Volume P → Volume P}
    (h : Adds env params s t l) (hv : v < s.count) (hf : ∀ x, (f x).name = x.name) :
    Adds env params s (t.setVolume v f) l where
  count := h.count
  volumes := h.volumes
  kept := by
    intro w hw
    rw [name_setVolume hf, h.kept w hw]
  named := by
    intro i m hm
    rw [name_setVolume hf, h.named i m hm]
  backed := by
    intro i m hm b hb
    obtain ⟨w, hw, hback, hname⟩ := h.backed i m hm b hb
    refine ⟨w, hw, ?_, ?_⟩
    · rw [State.volume_setVolume, if_neg (by omega)]
      exact hback
    · rw [name_setVolume hf, hname]

/-- One volume has been added, and then others. -/
theorem Adds.cons {s t u : State P} {n b path : String} {l : List String}
    (hn : poolOf env params b = some n) (hregisters : Registers env params s t n b path)
    (h : Adds env params t u l) (hbacked : Backed env params u b s.count) :
    Adds env params s u (b :: l) where
  count := by
    rw [h.count, hregisters.count, List.length_cons]
    omega
  volumes := by
    intro m w
    rw [h.volumes, hregisters.mem_getVolumes, hregisters.count]
    constructor
    · rintro ((hw | ⟨rfl, rfl⟩) | ⟨i, m', hm', rfl, hpool⟩)
      · exact .inl hw
      · exact .inr ⟨0, b, rfl, rfl, hn⟩
      · exact .inr ⟨i + 1, m', hm', by omega, hpool⟩
    · rintro (hw | ⟨i, m', hm', rfl, hpool⟩)
      · exact .inl (.inl hw)
      · cases i with
        | zero =>
            cases hm'
            rw [hn] at hpool
            cases hpool
            exact .inl (.inr ⟨rfl, rfl⟩)
        | succ i => exact .inr ⟨i, m', hm', by omega, hpool⟩
  kept := by
    intro w hw
    rw [h.kept w (by rw [hregisters.count]; omega), (hregisters.kept w (by omega)).1]
  named := by
    intro i m hm
    cases i with
    | zero =>
        cases hm
        rw [Nat.add_zero, h.kept _ (by rw [hregisters.count]; omega), hregisters.named]
    | succ i =>
        have hnamed := h.named i m hm
        rw [hregisters.count, Nat.add_right_comm] at hnamed
        exact hnamed
  backed := by
    intro i m hm
    cases i with
    | zero =>
        cases hm
        exact hbacked
    | succ i =>
        have hbacked' := h.backed i m hm
        rw [hregisters.count, Nat.add_right_comm] at hbacked'
        exact hbacked'

section Finish

variable {define : String → EStateM Error (State P) Nat} {name b : String} {s t : State P}
  {v w : Nat}

end Finish

/-- The paths of these images are free, and those of one pool are different. -/
structure Clear (env : Env P) (params : P) (s : State P) (l : List String) : Prop where
  free : ∀ m ∈ l, ¬PathTaken env params s m
  apart : ∀ n, ∀ m ∈ l, ∀ m' ∈ l, poolOf env params m = some n → poolOf env params m' = some n →
    imagePath env params s n m = imagePath env params s n m' → m = m'

theorem Clear.of_same {s t : State P} {l : List String} (h : Clear env params s l)
    (hsame : SameVolumes env params s t) : Clear env params t l where
  free := by
    intro m hm htaken
    exact h.free m hm ((pathTaken_congr hsame m).mp htaken)
  apart := by
    intro n
    simp only [imagePath_congr (hsame.dir n)]
    exact h.apart n

section Graph

variable (env params)

/-- The volumes there are fit the parameters. -/
structure Fits (name : String) (s : State P) : Prop where
  /-- No two volumes have the name of the same image. -/
  unique : ∀ m, Reaches (backingOf env params) name m → ∀ v ∈ listVolumes s,
    ∀ w ∈ listVolumes s, (s.volume v).name = m → (s.volume w).name = m → v = w
  /-- The path of an image without a volume is free. -/
  free : ∀ m, Reaches (backingOf env params) name m → PathTaken env params s m → Known s m
  /-- If the image that is defined has a volume, there is one at its path. -/
  start : Known s name → PathTaken env params s name
  /-- Behind an image with a volume there are only images with a volume, or images that are
  also met on the way. -/
  closed : ∀ m, Reaches (backingOf env params) name m →
    Known s m ∨ Meets (backingOf env params) (Known s) name m

variable {env params}

theorem Adds.of_same {s t u : State P} {l : List String} (hsame : SameVolumes env params s t)
    (h : Adds env params t u l) : Adds env params s u l where
  count := by rw [h.count, hsame.count]
  volumes := by
    intro n w
    rw [h.volumes, hsame.volumes, hsame.count]
  kept := by
    intro w hw
    rw [h.kept w (by rw [hsame.count]; exact hw), hsame.volume]
  named := hsame.count ▸ h.named
  backed := hsame.count ▸ h.backed

/-- The volumes there were are kept, and every new one is that of an image that is met and
whose path was free. -/
structure Grown (env : Env P) (params : P) (name : String) (s t : State P) : Prop where
  old : ∀ n v, v < s.count → (v ∈ getVolumes t n ↔ v ∈ getVolumes s n)
  kept : ∀ v < s.count, (t.volume v).name = (s.volume v).name
  new : ∀ n v, v ∈ getVolumes t n → s.count ≤ v →
    Meets (backingOf env params) (Known s) name (t.volume v).name ∧
      ¬PathTaken env params s (t.volume v).name

/-- On the way down the paths have not changed yet. -/
structure Descends (env : Env P) (params : P) (name : String) (s t : State P) : Prop
    extends Grown env params name s t where
  filed : Filed env t
  count : s.count ≤ t.count
  path : ∀ v < s.count, (t.volume v).path = (s.volume v).path
  dir : ∀ n, dirOf env params t n = dirOf env params s n

section Runs

variable {name : String} {s t u : State P}

theorem Grown.setVolume (h : Grown env params name s t) {v : Nat} {f : Volume P → Volume P}
    (hf : ∀ x, (f x).name = x.name) : Grown env params name s (t.setVolume v f) where
  old := h.old
  kept := by
    intro w hw
    rw [name_setVolume hf, h.kept w hw]
  new := by
    intro n w hw hle
    rw [name_setVolume hf]
    exact h.new n w hw hle

theorem Descends.of_same (h : Descends env params name s t) (hu : Filed env u)
    (hsame : SameVolumes env params t u) : Descends env params name s u where
  old := by
    intro n v hv
    rw [hsame.volumes, h.old n v hv]
  kept := by
    rw [hsame.volume]
    exact h.kept
  new := by
    intro n v hv
    rw [hsame.volumes] at hv
    rw [hsame.volume]
    exact h.new n v hv
  filed := hu
  count := hsame.count ▸ h.count
  path := by
    rw [hsame.volume]
    exact h.path
  dir := by
    intro n
    rw [hsame.dir, h.dir]

/-- A volume that was there is still there, under its name. -/
theorem Grown.listed (h : Grown env params name s t) (hfiled : Filed env s) {v : Nat}
    (hv : v ∈ listVolumes s) :
    v < s.count ∧ v ∈ listVolumes t ∧ (t.volume v).name = (s.volume v).name := by
  obtain ⟨n, hv⟩ := mem_listVolumes.mp hv
  have hlt := hfiled.lt_count hv
  exact ⟨hlt, mem_listVolumes.mpr ⟨n, (h.old n v hlt).mpr hv⟩, h.kept v hlt⟩

theorem Grown.known (h : Grown env params name s t) (hfiled : Filed env s) {m : String}
    (hm : Known s m) : Known t m := by
  obtain ⟨v, hv, hname⟩ := hm
  obtain ⟨-, hv', hkept⟩ := h.listed hfiled hv
  exact ⟨v, hv', hkept.trans hname⟩

end Runs

end Graph

/-! ## Two graphs -/

def valueOf (es : List (String × String × String)) (key object : String) : Option String :=
  (es.find? fun e => e.1 = object && e.2.1 = key).map fun e => e.2.2

end TpQemu.VirtStorage
