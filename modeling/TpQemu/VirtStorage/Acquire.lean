import TpQemu.VirtStorage.Removal

/-!
# Acquiring a volume

`acquire_volume` walks down the backing chain to the first volume whose `is_allocated` flag
is set and creates the files of the volumes above it, the deepest first. The flag is never
reset: what is at and below the first flagged volume is there only if nobody has removed it
and no definition has given a flagged volume another backing since.
-/

namespace TpQemu.VirtStorage

variable {P : Type} {env : Env P}

/-! ## Chains -/

/-- The backing chain of a volume. -/
inductive Chain (s : State P) : Nat → List Nat → Prop where
  | last {v : Nat} : (s.volume v).backing = none → Chain s v [v]
  | cons {v b : Nat} {c : List Nat} :
      (s.volume v).backing = some b → Chain s b c → Chain s v (v :: c)

/-- The volumes above the first allocated one. -/
def unallocated (s : State P) (c : List Nat) : List Nat :=
  c.takeWhile fun w => !(s.volume w).isAllocated

/-- The first allocated volume and those below it. -/
def allocatedOn (s : State P) (c : List Nat) : List Nat :=
  c.dropWhile fun w => !(s.volume w).isAllocated

/-- The files the volumes of a chain had before a call are there after it, and the missing
ones have been created, each once and after that of its backing. -/
structure Established (s s' : State P) (c : List Nat) : Prop where
  exist : ∀ w ∈ c, s.fileOf w ∈ s'.files
  once : ∀ w ∈ c, s.fileOf w ∉ s.files →
    (s'.created.drop s.created.length).count (s.fileOf w) = 1
  order : ∀ w ∈ c, ∀ b, (s.volume w).backing = some b → s.fileOf w ∉ s.files →
    s.fileOf b ∉ s.files →
    [s.fileOf b, s.fileOf w].Sublist (s'.created.drop s.created.length)

theorem Chain.sublist_backing {s : State P} {v w b : Nat} {c : List Nat} (h : Chain s v c)
    (hw : w ∈ c) (hb : (s.volume w).backing = some b) : [w, b].Sublist c := by
  induction h with
  | last hnone =>
      rw [List.mem_singleton.mp hw, hnone] at hb
      cases hb
  | @cons v b' c hback hchain ih =>
      rcases List.mem_cons.mp hw with rfl | hw
      · rw [hback] at hb
        cases hb
        apply List.Sublist.cons_cons
        apply List.singleton_sublist.mpr
        cases hchain with
        | last _ => exact List.mem_cons_self
        | cons _ _ => exact List.mem_cons_self
      · exact (ih hw).cons v

/-! ## Creating one file -/

/-- The file of the volume has been created and its flag is set. -/
structure Created (s s' : State P) (v : Nat) : Prop where
  grows : Grows s s'
  files : s'.files = s.fileOf v :: s.files
  created : s'.created = s.created ++ [s.fileOf v]
  key : (s'.volume v).key = some (s.fileOf v)
  allocated : ∀ w, (s'.volume w).isAllocated = (decide (w = v) || (s.volume w).isAllocated)

/-- An attempt that has set no flag. -/
structure Attempted (s s' : State P) : Prop where
  grows : Grows s s'
  allocated : ∀ w, (s'.volume w).isAllocated = (s.volume w).isAllocated

theorem Created.of_reads {s t u : State P} {v : Nat} (h : Reads s t) (hu : Created t u v) :
    Created s u v where
  grows := h.grows.trans hu.grows
  files := by rw [hu.files, h.fileOf, h.files]
  created := by rw [hu.created, h.fileOf, h.created]
  key := by rw [hu.key, h.fileOf]
  allocated := by
    intro w
    rw [hu.allocated, h.isAllocated]

theorem Attempted.of_reads {s t u : State P} (h : Reads s t) (hu : Attempted t u) :
    Attempted s u where
  grows := h.grows.trans hu.grows
  allocated := by
    intro w
    rw [hu.allocated, h.isAllocated]

/-- Either the file has been created or the code has raised. -/
def CreatedOrRaised (s : State P) (v : Nat) (r : EStateM.Result Error (State P) Unit) : Prop :=
  (∃ s', r = .ok () s' ∧ Created s s' v) ∨ ∃ e s', r = .error e s' ∧ Attempted s s'

theorem CreatedOrRaised.of_reads {s t : State P} {v : Nat}
    {r : EStateM.Result Error (State P) Unit} (h : Reads s t) (hr : CreatedOrRaised t v r) :
    CreatedOrRaised s v r := by
  obtain ⟨u, hok, hu⟩ | ⟨e, u, herror, hu⟩ := hr
  · exact .inl ⟨u, hok, hu.of_reads h⟩
  · exact .inr ⟨e, u, herror, hu.of_reads h⟩

theorem runQemuImg_cases (ok left : Bool) (v : Nat) (s : State P) :
    CreatedOrRaised s v (runQemuImg ok left v s) := by
  have hreads := reads_readKey s v
  cases ok with
  | true =>
      refine .inl ⟨_, rfl, ?_⟩
      refine ⟨?_, ?_, ?_, ?_, ?_⟩
      · exact hreads.grows.trans ((grows_createFile _ _ _).trans (grows_allocate _ v))
      · exact congrArg (· :: s.files) (hreads.fileOf v)
      · exact congrArg (s.created ++ [·]) (hreads.fileOf v)
      · rw [State.volume_setVolume, if_pos rfl]
        change ((s.readKey v).volume v).key = _
        rw [State.readKey, State.volume_setVolume, if_pos rfl]
        rfl
      · intro w
        rw [State.volume_setVolume]
        by_cases hw : w = v
        · simp [hw]
        · simp only [if_neg hw, decide_eq_false hw, Bool.false_or]
          exact hreads.isAllocated w
  | false =>
      cases left with
      | true =>
          refine .inr ⟨_, _, rfl, ?_, hreads.isAllocated⟩
          exact hreads.grows.trans (grows_createFile _ _ _)
      | false => exact .inr ⟨_, _, rfl, hreads.grows, hreads.isAllocated⟩

theorem createVolume_cases (env : Env P) (ok left : Bool) (v : Nat) (s : State P) :
    CreatedOrRaised s v (createVolume env ok left v s) := by
  unfold createVolume
  rw [bind_of_ok (rfl : (get : EStateM Error (State P) (State P)) s = .ok s s)]
  cases (s.volume v).params with
  | none => exact .inr ⟨_, s, rfl, Grows.refl s, fun _ => rfl⟩
  | some params =>
      dsimp only
      split
      · cases (s.volume v).backing with
        | none => exact runQemuImg_cases ok left v s
        | some b => exact (runQemuImg_cases ok left v (s.readKey b)).of_reads (reads_readKey s b)
      · exact runQemuImg_cases ok left v s

/-- `BaseStoragePool.acquire_volume` of a volume that is not allocated. -/
theorem poolAcquireVolume_cases (env : Env P) (ok left : Bool) {v : Nat} {s : State P}
    (hv : (s.volume v).isAllocated = false) :
    CreatedOrRaised s v (poolAcquireVolume env ok left v s) := by
  unfold poolAcquireVolume
  rw [bind_of_ok (rfl : (get : EStateM Error (State P) (State P)) s = .ok s s)]
  simp only [hv, Bool.false_eq_true, if_false]
  obtain ⟨s', hok, hcreated⟩ | ⟨e, s', herror, hattempted⟩ := createVolume_cases env ok left v s
  · rw [bind_of_ok hok]
    exact .inl ⟨s', rfl, hcreated⟩
  · rw [bind_of_error herror]
    exact .inr ⟨e, s', rfl, hattempted⟩

theorem poolAcquireVolume_of_allocated (env : Env P) (ok left : Bool) {v : Nat} {s : State P}
    (hv : (s.volume v).isAllocated = true) :
    poolAcquireVolume env ok left v s = .ok () s := by
  unfold poolAcquireVolume
  rw [bind_of_ok (rfl : (get : EStateM Error (State P) (State P)) s = .ok s s), if_pos hv]
  rfl

/-! ## The walk down the chain -/

section Walk

variable {ok left : Nat → Bool} {limit v : Nat} {s s' : State P}

theorem acquireVolume_of_allocated (hv : (s.volume v).isAllocated = true) :
    acquireVolume env ok left (limit + 1) v s = .ok () s := by
  unfold acquireVolume
  rw [bind_of_ok (rfl : (get : EStateM Error (State P) (State P)) s = .ok s s), if_pos hv]
  rfl

theorem acquireVolume_of_last (hv : (s.volume v).isAllocated = false)
    (hback : (s.volume v).backing = none) :
    acquireVolume env ok left (limit + 1) v s = poolAcquireVolume env (ok v) (left v) v s := by
  rw [acquireVolume, bind_of_ok (rfl : (get : EStateM Error (State P) (State P)) s = .ok s s)]
  simp only [hv, hback, Bool.false_eq_true, if_false]

theorem acquireVolume_of_backing {b : Nat} (hv : (s.volume v).isAllocated = false)
    (hback : (s.volume v).backing = some b) :
    acquireVolume env ok left (limit + 1) v s =
      (acquireVolume env ok left limit b >>= fun _ =>
        poolAcquireVolume env (ok v) (left v) v) s := by
  rw [acquireVolume, bind_of_ok (rfl : (get : EStateM Error (State P) (State P)) s = .ok s s)]
  simp only [hv, hback, Bool.false_eq_true, if_false]

/-- What an acquisition that returns has done to the files and the flags. -/
structure Acquired (s s' : State P) (c : List Nat) : Prop where
  grows : Grows s s'
  created : s'.created = s.created ++ (unallocated s c).reverse.map s.fileOf
  files : ∀ f, f ∈ s'.files ↔ f ∈ s.files ∨ f ∈ (unallocated s c).map s.fileOf
  allocated : ∀ w, (s'.volume w).isAllocated = true ↔
    (s.volume w).isAllocated = true ∨ w ∈ unallocated s c

theorem acquired_cons {t : State P} {c : List Nat} (hv : (s.volume v).isAllocated = false)
    (ht : Acquired s t c) (hs' : Created t s' v) : Acquired s s' (v :: c) := by
  have htodo : unallocated s (v :: c) = v :: unallocated s c := by
    simp [unallocated, hv]
  refine ⟨ht.grows.trans hs'.grows, ?_, fun f => ?_, fun w => ?_⟩
  · rw [hs'.created, ht.created, htodo, List.reverse_cons, List.map_append, List.append_assoc,
      ht.grows.fileOf]
    rfl
  · rw [hs'.files, htodo, List.map_cons, List.mem_cons, List.mem_cons, ht.files, ht.grows.fileOf]
    exact or_left_comm
  · rw [hs'.allocated, htodo, List.mem_cons, Bool.or_eq_true, ht.allocated, decide_eq_true_iff]
    exact or_left_comm

theorem acquired_refl {c : List Nat} (h : unallocated s c = []) : Acquired s s c where
  grows := Grows.refl s
  created := by simp [h]
  files := by simp [h]
  allocated := by simp [h]

/-- The file of a volume that was not allocated is created if the call returns. -/
theorem created_of_ok {ok left : Bool} (hv : (s.volume v).isAllocated = false)
    (h : poolAcquireVolume env ok left v s = .ok () s') : Created s s' v := by
  obtain ⟨t, hok, hcreated⟩ | ⟨e, t, herror, -⟩ := poolAcquireVolume_cases env ok left hv
  · rw [hok] at h
    cases h
    exact hcreated
  · rw [herror] at h
    cases h

theorem acquired_of_ok {c : List Nat} (hchain : Chain s v c) (hfiles : (c.map s.fileOf).Nodup)
    (h : acquireVolume env ok left limit v s = .ok () s') : Acquired s s' c := by
  induction limit generalizing v c s' with
  | zero => cases h
  | succ limit ih =>
      cases hv : (s.volume v).isAllocated with
      | true =>
          rw [acquireVolume_of_allocated hv] at h
          cases h
          apply acquired_refl
          cases hchain with
          | last _ => simp [unallocated, hv]
          | cons _ _ => simp [unallocated, hv]
      | false =>
          cases hchain with
          | last hback =>
              rw [acquireVolume_of_last hv hback] at h
              exact acquired_cons hv (acquired_refl rfl) (created_of_ok hv h)
          | @cons _ b c hback hchain =>
              rw [acquireVolume_of_backing hv hback] at h
              obtain ⟨_, t, hb, h⟩ := ok_of_bind h
              rw [List.map_cons, List.nodup_cons] at hfiles
              have ht : Acquired s t c := ih hchain hfiles.2 hb
              have hvt : (t.volume v).isAllocated = false := by
                rw [Bool.eq_false_iff]
                intro halloc
                rcases (ht.allocated v).mp halloc with hold | hmem
                · rw [hv] at hold
                  cases hold
                · exact hfiles.1 (List.mem_map_of_mem ((List.takeWhile_prefix _).subset hmem))
              exact acquired_cons hv ht (created_of_ok hvt h)

end Walk

theorem pair_sublist_left {w b : Nat} {l₁ l₂ : List Nat} (h : [w, b].Sublist (l₁ ++ l₂))
    (hb : b ∉ l₂) : [w, b].Sublist l₁ := by
  obtain ⟨m₁, m₂, heq, h₁, h₂⟩ := List.sublist_append_iff.mp h
  have hnot : b ∉ m₂ := fun hmem => hb (h₂.subset hmem)
  rcases m₂.eq_nil_or_concat with rfl | ⟨m, x, rfl⟩
  · rw [List.append_nil] at heq
    rw [heq]
    exact h₁
  · rw [List.concat_eq_append, ← List.append_assoc] at heq
    have hx : b = x := by simpa using congrArg List.getLast? heq
    simp [hx] at hnot

/-- An acquisition that returns has established the chain if and only if the files at and
below the first allocated volume were there. -/
theorem established_iff {ok left : Nat → Bool} {limit v : Nat} {s s' : State P} {c : List Nat}
    (hchain : Chain s v c) (hfiles : (c.map s.fileOf).Nodup)
    (h : acquireVolume env ok left limit v s = .ok () s') :
    Established s s' c ↔ ∀ w ∈ allocatedOn s c, s.fileOf w ∈ s.files := by
  have hacq := acquired_of_ok hchain hfiles h
  have hsplit : unallocated s c ++ allocatedOn s c = c := List.takeWhile_append_dropWhile
  rw [← hsplit, List.map_append, List.nodup_append'] at hfiles
  obtain ⟨hnodup, -, hdisjoint⟩ := hfiles
  have hnew : s'.created.drop s.created.length = (unallocated s c).reverse.map s.fileOf := by
    rw [hacq.created, List.drop_left]
  constructor
  · intro hest w hw
    have hmem : w ∈ c := hsplit ▸ List.mem_append_right _ hw
    rcases (hacq.files _).mp (hest.exist w hmem) with hold | hmade
    · exact hold
    · exact absurd (List.mem_map_of_mem hw) (hdisjoint hmade)
  · intro hall
    -- A volume whose file is missing stands above the first allocated one.
    have habove : ∀ w ∈ c, s.fileOf w ∉ s.files → w ∈ unallocated s c := by
      intro w hw hmissing
      rw [← hsplit] at hw
      rcases List.mem_append.mp hw with hw | hw
      · exact hw
      · exact absurd (hall w hw) hmissing
    refine ⟨fun w hw => ?_, fun w hw hmissing => ?_, fun w hw b hb hmissing hbmissing => ?_⟩
    · rw [hacq.files]
      by_cases hold : s.fileOf w ∈ s.files
      · exact .inl hold
      · exact .inr (List.mem_map_of_mem (habove w hw hold))
    · rw [hnew, List.map_reverse]
      apply List.count_eq_one_of_mem
      · exact List.nodup_reverse.mpr hnodup
      · exact List.mem_reverse.mpr (List.mem_map_of_mem (habove w hw hmissing))
    · have hpair : [w, b].Sublist (unallocated s c) := by
        have hc := hchain.sublist_backing hw hb
        rw [← hsplit] at hc
        exact pair_sublist_left hc fun hmem => hbmissing (hall b hmem)
      rw [hnew]
      exact hpair.reverse.map s.fileOf

/-! ## Runs in which the flags stay true -/

/-- A flag says that the file of the volume and those of its chain are there. -/
structure Truthful (s : State P) : Prop where
  file : ∀ v, (s.volume v).isAllocated = true → ∃ k ∈ s.files, (s.volume v).key = some k
  backing : ∀ v b, (s.volume v).isAllocated = true → (s.volume v).backing = some b →
    (s.volume b).isAllocated = true

theorem Truthful.fileOf {s : State P} (h : Truthful s) {v : Nat}
    (hv : (s.volume v).isAllocated = true) : s.fileOf v ∈ s.files := by
  obtain ⟨k, hk, hkey⟩ := h.file v hv
  rw [State.fileOf, Volume.keyOf, hkey]
  exact hk

/-- No file of an allocated volume is removed, and no definition leaves an allocated volume
with a backing that is not. -/
def KeepsFlags (env : Env P) (s : State P) (l : Label P) : Prop :=
  match l with
  | .remove v => ∀ w, (s.volume w).isAllocated = true → s.fileOf w ≠ (s.volume v).path
  | .define _ _ _ | .lookUp _ _ _ => ∀ s', step env s l = some s' →
      ∀ w b, (s'.volume w).isAllocated = true → (s'.volume w).backing = some b →
        (s'.volume b).isAllocated = true
  | _ => True

theorem Chain.all_allocated {s : State P} (h : Truthful s) {v : Nat} {c : List Nat}
    (hchain : Chain s v c) (hv : (s.volume v).isAllocated = true) :
    ∀ w ∈ c, (s.volume w).isAllocated = true := by
  induction hchain with
  | last _ =>
      intro w hw
      rw [List.mem_singleton.mp hw]
      exact hv
  | cons hback _ ih =>
      intro w hw
      rcases List.mem_cons.mp hw with rfl | hw
      · exact hv
      · exact ih (h.backing _ _ hv hback) w hw

/-- In a truthful state everything below an allocated volume is allocated. -/
theorem Chain.allocatedOn_allocated {s : State P} (h : Truthful s) {v : Nat} {c : List Nat}
    (hchain : Chain s v c) : ∀ w ∈ allocatedOn s c, (s.volume w).isAllocated = true := by
  induction hchain with
  | @last v hback =>
      intro w hw
      cases hv : (s.volume v).isAllocated with
      | true => exact (Chain.last hback).all_allocated h hv w ((List.dropWhile_suffix _).subset hw)
      | false => simp [allocatedOn, hv] at hw
  | @cons v b c hback hchain ih =>
      intro w hw
      cases hv : (s.volume v).isAllocated with
      | true =>
          exact (Chain.cons hback hchain).all_allocated h hv w ((List.dropWhile_suffix _).subset hw)
      | false =>
          apply ih w
          simpa [allocatedOn, hv] using hw

theorem Truthful.of_attempted {s s' : State P} (h : Truthful s) (ha : Attempted s s') :
    Truthful s' where
  file := by
    intro v hv
    rw [ha.allocated] at hv
    obtain ⟨k, hk, hkey⟩ := h.file v hv
    exact ⟨k, ha.grows.files k hk, ha.grows.key v k hkey⟩
  backing := by
    intro v b hv hb
    rw [ha.allocated] at hv ⊢
    rw [ha.grows.backing] at hb
    exact h.backing v b hv hb

theorem Truthful.of_created {s s' : State P} {v : Nat} (h : Truthful s) (hc : Created s s' v)
    (hback : ∀ b, (s.volume v).backing = some b → (s.volume b).isAllocated = true) :
    Truthful s' where
  file := by
    intro w hw
    by_cases hwv : w = v
    · subst hwv
      exact ⟨s.fileOf w, hc.files ▸ List.mem_cons_self, hc.key⟩
    · rw [hc.allocated, decide_eq_false hwv, Bool.false_or] at hw
      obtain ⟨k, hk, hkey⟩ := h.file w hw
      exact ⟨k, hc.grows.files k hk, hc.grows.key w k hkey⟩
  backing := by
    intro w b hw hb
    rw [hc.grows.backing] at hb
    by_cases hwv : w = v
    · subst hwv
      exact hc.grows.allocated b (hback b hb)
    · rw [hc.allocated, decide_eq_false hwv, Bool.false_or] at hw
      exact hc.grows.allocated b (h.backing w b hw hb)

theorem truthful_poolAcquireVolume {ok left : Bool} {v : Nat} {s : State P} (h : Truthful s)
    (hback : ∀ b, (s.volume v).backing = some b → (s.volume b).isAllocated = true) :
    Truthful (after (poolAcquireVolume env ok left v s)) ∧
      ∀ s', poolAcquireVolume env ok left v s = .ok () s' →
        (s'.volume v).isAllocated = true := by
  cases hv : (s.volume v).isAllocated with
  | true =>
      rw [poolAcquireVolume_of_allocated env ok left hv]
      refine ⟨h, fun s' hs' => ?_⟩
      cases hs'
      exact hv
  | false =>
      obtain ⟨t, hok, hcreated⟩ | ⟨e, t, herror, hattempted⟩ :=
        poolAcquireVolume_cases env ok left hv
      · rw [hok]
        refine ⟨h.of_created hcreated hback, fun s' hs' => ?_⟩
        cases hs'
        rw [hcreated.allocated, decide_eq_true rfl, Bool.true_or]
      · rw [herror]
        exact ⟨h.of_attempted hattempted, fun s' hs' => nomatch hs'⟩

/-- An acquisition keeps the flags true, whether it returns or raises. -/
theorem truthful_acquireVolume {ok left : Nat → Bool} (limit v : Nat) {s : State P}
    (h : Truthful s) :
    Truthful (after (acquireVolume env ok left limit v s)) ∧
      ∀ s', acquireVolume env ok left limit v s = .ok () s' →
        (s'.volume v).isAllocated = true := by
  induction limit generalizing v s with
  | zero => exact ⟨h, fun s' hs' => nomatch hs'⟩
  | succ limit ih =>
      cases hv : (s.volume v).isAllocated with
      | true =>
          rw [acquireVolume_of_allocated hv]
          refine ⟨h, fun s' hs' => ?_⟩
          cases hs'
          exact hv
      | false =>
          cases hback : (s.volume v).backing with
          | none =>
              rw [acquireVolume_of_last hv hback]
              exact truthful_poolAcquireVolume h fun b hb => nomatch hback.symm.trans hb
          | some b =>
              rw [acquireVolume_of_backing hv hback]
              obtain ⟨ht, hb⟩ := ih b h
              have hgrows := moves_acquireVolume env ok left limit b s
              cases hres : acquireVolume env ok left limit b s with
              | error e t =>
                  rw [bind_of_error hres]
                  rw [hres] at ht
                  exact ⟨ht, fun s' hs' => nomatch hs'⟩
              | ok _ t =>
                  rw [bind_of_ok hres]
                  rw [hres, after_ok] at ht hgrows
                  apply truthful_poolAcquireVolume ht
                  intro b' hb'
                  rw [hgrows.backing, hback] at hb'
                  cases hb'
                  exact hb t hres

/-- A definition changes no file, and no flag or filled key of an old volume. -/
structure KeepsFiles (s s' : State P) : Prop where
  files : s'.files = s.files
  key : ∀ v, (s'.volume v).isAllocated = true →
    (s.volume v).isAllocated = true ∧ ∀ k, (s.volume v).key = some k → (s'.volume v).key = some k

theorem KeepsFiles.of_reads {s s' : State P} (h : Reads s s') : KeepsFiles s s' :=
  ⟨h.files, fun v hv => ⟨h.isAllocated v ▸ hv, h.grows.key v⟩⟩

theorem KeepsFiles.trans {s t u : State P} (h₁ : KeepsFiles s t) (h₂ : KeepsFiles t u) :
    KeepsFiles s u where
  files := h₂.files.trans h₁.files
  key := by
    intro v hv
    obtain ⟨ht, hk₂⟩ := h₂.key v hv
    obtain ⟨hs, hk₁⟩ := h₁.key v ht
    exact ⟨hs, fun k hk => hk₂ k (hk₁ k hk)⟩

theorem keepsFiles_newVolume (n name path : String) (s : State P) :
    KeepsFiles s (after (newVolume env n name path s)) := by
  have hreads := reads_foldl_touch (HashSet.compared (env.hash (blankInfo n (s.pool n).auth))
    (fun w => w = s.count || info env s w = blankInfo n (s.pool n).auth) (s.pool n).volumes) s
  apply (KeepsFiles.of_reads hreads).trans
  refine ⟨rfl, fun v hv => ?_⟩
  by_cases hnew : v = s.count
  · subst hnew
    simp [newVolume] at hv
  · simp only [newVolume, after_ok, Function.update_of_ne hnew] at hv ⊢
    exact ⟨hv, fun k hk => hk⟩

theorem defineClosed_keepsFiles : DefineClosed env KeepsFiles where
  refl := fun s => KeepsFiles.of_reads (Reads.refl s)
  trans := fun _ _ _ => KeepsFiles.trans
  assign := by
    intro s v f hf
    refine ⟨rfl, fun w hw => ?_⟩
    rw [State.volume_setVolume] at hw ⊢
    split at hw
    · rename_i hwv
      subst hwv
      rw [(hf _).2] at hw
      rw [if_pos rfl, (hf _).1]
      exact ⟨hw, fun k hk => hk⟩
    · rename_i hwv
      rw [if_neg hwv]
      exact ⟨hw, fun k hk => hk⟩
  newVolume := fun n name path s => keepsFiles_newVolume n name path s
  newPool := fun s _ _ _ _ => ⟨rfl, fun _ hv => ⟨hv, fun _ hk => hk⟩⟩

theorem Truthful.of_keepsFiles {s s' : State P} (h : Truthful s) (hk : KeepsFiles s s')
    (hback : ∀ w b, (s'.volume w).isAllocated = true → (s'.volume w).backing = some b →
      (s'.volume b).isAllocated = true) : Truthful s' where
  file := by
    intro v hv
    obtain ⟨hold, hkey⟩ := hk.key v hv
    obtain ⟨k, hmem, hfilled⟩ := h.file v hold
    exact ⟨k, hk.files ▸ hmem, hkey k hfilled⟩
  backing := hback

theorem truthful_removeVolume {s : State P} {v : Nat} (h : Truthful s)
    (hkeep : ∀ w, (s.volume w).isAllocated = true → s.fileOf w ≠ (s.volume v).path) :
    Truthful (after (removeVolume env v s)) := by
  obtain ⟨t, hreads, hafter⟩ := removeVolume_spec env s v
  have htruthful := h.of_attempted ⟨hreads.grows, hreads.isAllocated⟩
  rw [hafter]
  refine ⟨fun w hw => ?_, htruthful.backing⟩
  have hold : (s.volume w).isAllocated = true := hreads.isAllocated w ▸ hw
  obtain ⟨k, hk, hkey⟩ := h.file w hold
  refine ⟨k, List.mem_filter.mpr ⟨hk, decide_eq_true ?_⟩, hreads.grows.key w k hkey⟩
  have hne := hkeep w hold
  rw [State.fileOf, Volume.keyOf, hkey] at hne
  exact hne

theorem truthful_step (s : State P) (l : Label P) (s' : State P) (h : Truthful s)
    (hkeep : KeepsFlags env s l) (hstep : step env s l = some s') : Truthful s' := by
  cases l with
  | define limit name params =>
      have hback := hkeep s' hstep
      cases hstep
      exact h.of_keepsFiles
        (moves_volumeDefineByParams defineClosed_keepsFiles limit name params s) hback
  | lookUp pool params name =>
      have hback := hkeep s' hstep
      obtain ⟨-, hs'⟩ := Option.ite_none_right_eq_some.mp hstep
      cases hs'
      exact h.of_keepsFiles
        (moves_getVolumeByParams defineClosed_keepsFiles pool params name s) hback
  | refresh =>
      cases hstep
      exact h
  | acquire ok left limit v =>
      obtain ⟨-, hs'⟩ := Option.ite_none_right_eq_some.mp hstep
      cases hs'
      exact (truthful_acquireVolume limit v h).1
  | remove v =>
      obtain ⟨-, hs'⟩ := Option.ite_none_right_eq_some.mp hstep
      cases hs'
      exact truthful_removeVolume h hkeep

theorem truthful_initial (files : List String) : Truthful (initial files : State P) where
  file := fun _ hv => nomatch hv
  backing := fun _ _ hv => nomatch hv

/-- In every state, an acquisition that returns has established the chain exactly if the
files at and below the first allocated volume were there; and they are there in every run
in which no file of an allocated volume is removed and no definition leaves an allocated
volume with a backing that is not. -/
theorem acquire_establishes_chain (env : Env P) :
    (∀ s v c ok left limit s', Chain s v c → (c.map s.fileOf).Nodup →
      acquireVolume env ok left limit v s = .ok () s' →
      (Established s s' c ↔ ∀ w ∈ allocatedOn s c, s.fileOf w ∈ s.files)) ∧
    ∀ files ls s, AllSteps (step env) (KeepsFlags env) (initial files) ls →
      runSteps (step env) (initial files) ls = some s →
      ∀ v c ok left limit s', Chain s v c → (c.map s.fileOf).Nodup →
        acquireVolume env ok left limit v s = .ok () s' → Established s s' c := by
  constructor
  · intro s v c ok left limit s' hchain hfiles h
    exact established_iff hchain hfiles h
  · intro files ls s hkeep hrun v c ok left limit s' hchain hfiles h
    have htruthful := runSteps_invariant_of truthful_step (truthful_initial files) hkeep hrun
    apply (established_iff hchain hfiles h).mpr
    intro w hw
    exact htruthful.fileOf (hchain.allocatedOn_allocated htruthful w hw)

/-- A volume is acquired, removed and acquired again. -/
theorem acquired_again_without_file :
    ¬∀ (env : Env (List (String × String))) files ls s v c ok left limit s',
      runSteps (step env) (initial files) ls = some s → Chain s v c →
      (c.map s.fileOf).Nodup → acquireVolume env ok left limit v s = .ok () s' →
      Established s s' c := by
  intro h
  let define : Label (List (String × String)) := .define 10 "sn1"
    [("storage_pool", "default"), ("image_name", "sn1"), ("image_size", "100M")]
  let create : Label (List (String × String)) := .acquire (fun _ => true) (fun _ => false) 10 0
  let s := after (removeVolume plainEnv 0
    (after (acquireVolume plainEnv (fun _ => true) (fun _ => false) 10 0 plainState)))
  have hrun : runSteps (step plainEnv) (initial []) [define, create, .remove 0] = some s := rfl
  have hest := h plainEnv [] _ s 0 [0] (fun _ => true) (fun _ => false) 10 s hrun (.last rfl)
    (List.nodup_singleton _) rfl
  have hexists : s.fileOf 0 ∈ s.files := hest.exist 0 (List.mem_singleton.mpr rfl)
  have hnone : s.files = [] := rfl
  rw [hnone] at hexists
  cases hexists

end TpQemu.VirtStorage
