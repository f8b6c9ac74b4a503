import TpQemu.VirtStorage.Admin

/-!
# Removed volumes

The constructor of a volume files it in the set of its pool while all its fields are blank,
and `remove_volume` discards it under the hash of the fields it has by then. So in every
run all volumes of a pool are filed under one and the same hash, that of the blank info, and
a volume is discarded only if its own info happens to have this hash.
-/

namespace TpQemu.VirtStorage

variable {P : Type} {env : Env P}

/-! ## Volumes are filed under the hash of the blank info -/

/-- Every volume is filed under the hash it had in its constructor, and only once. -/
structure Filed (env : Env P) (s : State P) : Prop where
  hash : ∀ n, ∀ e ∈ (s.pool n).volumes, e.hash = env.hash (blankInfo n (s.pool n).auth)
  elem : ∀ n, ∀ e ∈ (s.pool n).volumes, e.elem < s.count
  nodup : ∀ n, (getVolumes s n).Nodup

theorem Filed.of_eq {s s' : State P} (h : Filed env s) (hpools : s'.pools = s.pools)
    (hcount : s'.count = s.count) : Filed env s' := by
  have hpool : ∀ n, s'.pool n = s.pool n := fun n => by rw [State.pool, hpools, State.pool]
  refine ⟨fun n => ?_, fun n => ?_, fun n => ?_⟩
  · rw [hpool]
    exact h.hash n
  · rw [hpool, hcount]
    exact h.elem n
  · rw [getVolumes, hpool]
    exact h.nodup n

theorem Filed.setVolumes {s : State P} {n : String} {es : List (Entry Nat)} (h : Filed env s)
    (hhash : ∀ e ∈ es, e.hash = env.hash (blankInfo n (s.pool n).auth))
    (helem : ∀ e ∈ es, e.elem < s.count) (hnodup : (es.map Entry.elem).Nodup) :
    Filed env (s.setVolumes n es) := by
  refine ⟨fun m => ?_, fun m => ?_, fun m => ?_⟩
  · by_cases hm : m = n
    · subst hm
      rw [State.pool_setVolumes_self]
      exact hhash
    · rw [State.pool_setVolumes_ne s hm]
      exact h.hash m
  · by_cases hm : m = n
    · subst hm
      rw [State.pool_setVolumes_self]
      exact helem
    · rw [State.pool_setVolumes_ne s hm]
      exact h.elem m
  · by_cases hm : m = n
    · subst hm
      rw [getVolumes, State.pool_setVolumes_self]
      exact hnodup
    · rw [getVolumes, State.pool_setVolumes_ne s hm]
      exact h.nodup m

/-- The constructor files a volume that no pool has yet. -/
theorem filed_newVolume {s : State P} (h : Filed env s) (n name path : String) :
    Filed env (after (newVolume env n name path s)) := by
  let blank := blankInfo n (s.pool n).auth
  let same := fun w => w = s.count || info env s w = blank
  let es := (s.pool n).volumes
  have hreads := reads_foldl_touch (HashSet.compared (env.hash blank) same es) s
  let t := (HashSet.compared (env.hash blank) same es).foldl State.touch s
  have hpool : t.pool n = s.pool n := by rw [State.pool, hreads.pools, State.pool]
  -- The constructor is seen as if the number were taken first.
  have ht : Filed env { t with count := s.count + 1 } := by
    refine ⟨(h.of_eq hreads.pools hreads.count).hash, fun m e he => ?_,
      (h.of_eq hreads.pools hreads.count).nodup⟩
    have hlt := (h.of_eq hreads.pools hreads.count).elem m e he
    rw [hreads.count] at hlt
    exact Nat.lt_succ_of_lt hlt
  have hadded : Filed env (State.setVolumes { t with count := s.count + 1 } n
      (HashSet.add (env.hash blank) same s.count es)) := by
    apply ht.setVolumes
    · intro e he
      change e.hash = env.hash (blankInfo n (t.pool n).auth)
      rw [hpool]
      rcases HashSet.mem_add he with he | rfl
      · exact h.hash n e he
      · rfl
    · intro e he
      rcases HashSet.mem_add he with he | rfl
      · exact Nat.lt_succ_of_lt (h.elem n e he)
      · exact Nat.lt_succ_self _
    · exact HashSet.nodup_add (h.nodup n) fun e he => Nat.ne_of_lt (h.elem n e he)
  exact hadded.of_eq rfl rfl

theorem filed_newPool {s : State P} {name : String} (h : Filed env s) (dir auth : String) :
    Filed env { s with pools := s.pools.set name ⟨dir, auth, []⟩ } := by
  have hpool : ∀ m, State.pool { s with pools := s.pools.set name ⟨dir, auth, []⟩ } m =
      if m = name then ⟨dir, auth, []⟩ else s.pool m := by
    intro m
    rw [State.pool, Dict.get?_set]
    split
    · rfl
    · rfl
  refine ⟨fun m => ?_, fun m => ?_, fun m => ?_⟩
  · rw [hpool]
    split
    · intro e he
      cases he
    · exact h.hash m
  · rw [hpool]
    split
    · intro e he
      cases he
    · exact h.elem m
  · rw [getVolumes, hpool]
    split
    · exact List.nodup_nil
    · exact h.nodup m

theorem defineClosed_filed : DefineClosed env fun s s' => Filed env s → Filed env s' where
  refl := fun _ h => h
  trans := fun _ _ _ h₁ h₂ h => h₂ (h₁ h)
  assign := fun _ _ _ _ h => h.of_eq rfl rfl
  newVolume := fun n name path _ h => filed_newVolume h n name path
  newPool := fun _ _ dir auth _ h => filed_newPool h dir auth

/-- The entries `remove_volume` leaves in the set. -/
def leftVolumes (env : Env P) (s : State P) (v : Nat) : List (Entry Nat) :=
  HashSet.discard (env.hash (info env s v)) (fun w => w = v || info env s w = info env s v)
    (s.pool (s.volume v).pool).volumes

/-- A removal reads keys, deletes one file and changes one set. -/
theorem removeVolume_spec (env : Env P) (s : State P) (v : Nat) :
    ∃ t, Reads s t ∧ after (removeVolume env v s) =
      { t.setVolumes (s.volume v).pool (leftVolumes env s v) with
        files := s.files.filter fun f => f ≠ (s.volume v).path } :=
  ⟨_, (reads_touch s v).trans (reads_foldl_touch _ _), rfl⟩

theorem filed_removeVolume {s : State P} (h : Filed env s) (v : Nat) :
    Filed env (after (removeVolume env v s)) := by
  obtain ⟨t, hreads, hafter⟩ := removeVolume_spec env s v
  have hpool : ∀ n, t.pool n = s.pool n := fun n => by rw [State.pool, hreads.pools, State.pool]
  have hdiscarded : Filed env (t.setVolumes (s.volume v).pool (leftVolumes env s v)) := by
    apply (h.of_eq hreads.pools hreads.count).setVolumes
    · intro e he
      rw [hpool]
      exact h.hash _ e (HashSet.mem_of_mem_discard he)
    · intro e he
      rw [hreads.count]
      exact h.elem _ e (HashSet.mem_of_mem_discard he)
    · exact HashSet.nodup_discard (h.nodup _)
  rw [hafter]
  exact hdiscarded.of_eq rfl rfl

theorem filed_step (s : State P) (l : Label P) (s' : State P) (h : Filed env s)
    (hstep : step env s l = some s') : Filed env s' := by
  cases l with
  | define limit name params =>
      cases hstep
      exact moves_volumeDefineByParams defineClosed_filed limit name params s h
  | lookUp pool params name =>
      obtain ⟨-, hs'⟩ := Option.ite_none_right_eq_some.mp hstep
      cases hs'
      exact moves_getVolumeByParams defineClosed_filed pool params name s h
  | refresh =>
      cases hstep
      exact h
  | acquire ok left limit v =>
      obtain ⟨-, hs'⟩ := Option.ite_none_right_eq_some.mp hstep
      cases hs'
      have hgrows := moves_acquireVolume env ok left limit v s
      exact h.of_eq hgrows.pools hgrows.count
  | remove v =>
      obtain ⟨-, hs'⟩ := Option.ite_none_right_eq_some.mp hstep
      cases hs'
      exact filed_removeVolume h v

theorem filed_initial (files : List String) : Filed env (initial files) where
  hash := fun _ _ he => nomatch he
  elem := fun _ _ he => nomatch he
  nodup := fun _ => List.nodup_nil

theorem filed_of_run {files : List String} {ls : List (Label P)} {s : State P}
    (hrun : runSteps (step env) (initial files) ls = some s) : Filed env s :=
  runSteps_invariant filed_step (filed_initial files) hrun

/-! ## When a removed volume is gone -/

/-- Neither an iteration nor a look-up meets the volume. -/
structure Gone (env : Env P) (s : State P) (v : Nat) : Prop where
  volumes : v ∉ getVolumes s (s.volume v).pool
  path : getVolumeByPath s (s.volume v).pool (s.volume v).path ≠ some v
  name : getVolumeByName s (s.volume v).pool (s.volume v).name ≠ some v
  params : ∀ params name t,
    getVolumeByParams env (s.volume v).pool params name s ≠ .ok v t

/-- A look-up returns a volume of the pool or a new one. -/
theorem getVolumeByParams_ok {n name : String} {params : P} {s t : State P} {v : Nat}
    (h : getVolumeByParams env n params name s = .ok v t) :
    v ∈ getVolumes s n ∨ v = s.count := by
  obtain ⟨s₁, s₂, hget, h⟩ := ok_of_bind h
  cases hget
  dsimp only at h
  generalize hfound : getVolumeByPath s n _ = found at h
  cases found with
  | some w =>
      cases h
      exact .inl (List.mem_of_find?_eq_some hfound)
  | none =>
      obtain ⟨w, s₂, hnew, h⟩ := ok_of_bind h
      cases hnew
      obtain ⟨u, s₃, -, h⟩ := ok_of_bind h
      cases h
      exact .inr rfl

/-- All look-ups find volumes of the pool. -/
theorem gone_iff {s : State P} {v : Nat} (hv : v < s.count) :
    Gone env s v ↔ v ∉ getVolumes s (s.volume v).pool := by
  refine ⟨fun h => h.volumes, fun h => ⟨h, ?_, ?_, ?_⟩⟩
  · intro hfound
    exact h (List.mem_of_find?_eq_some hfound)
  · intro hfound
    exact h (List.mem_of_find?_eq_some hfound)
  · intro params name t hok
    rcases getVolumeByParams_ok hok with hmem | hnew
    · exact h hmem
    · exact Nat.ne_of_lt hv hnew

/-- A removal discards the volume if the look-up stops at it. -/
theorem notMem_leftVolumes_iff {s : State P} {v : Nat} (h : Filed env s)
    (hv : v ∈ getVolumes s (s.volume v).pool) :
    v ∉ (leftVolumes env s v).map Entry.elem ↔
      env.hash (info env s v) =
          env.hash (blankInfo (s.volume v).pool (s.pool (s.volume v).pool).auth) ∧
        (getVolumes s (s.volume v).pool).find? (fun w => info env s w = info env s v) =
          some v := by
  have hsame : (fun w => w = v || info env s w = info env s v : Nat → Bool) =
      fun w => decide (info env s w = info env s v) := by
    funext w
    by_cases hw : w = v
    · simp [hw]
    · simp [hw]
  obtain ⟨e, he, helem⟩ := List.mem_map.mp hv
  have hmem : v ∉ (leftVolumes env s v).map Entry.elem ↔ e ∉ leftVolumes env s v := by
    refine ⟨fun hnot hmem => hnot (List.mem_map.mpr ⟨e, hmem, helem⟩), fun hnot hmem => ?_⟩
    obtain ⟨d, hd, hde⟩ := List.mem_map.mp hmem
    rw [List.inj_on_of_nodup_map (h.nodup _) (HashSet.mem_of_mem_discard hd) he
      (hde.trans helem.symm)] at hd
    exact hnot hd
  rw [hmem, leftVolumes, HashSet.notMem_discard_iff (h.nodup _) he,
    HashSet.find?_hit_iff (h.hash _) (h.nodup _) he, helem, hsame, getVolumes]

/-- In every run, `remove_volume` lets a volume of a pool go only if the hash of its info is
that of the blank info and no volume before it in the set has the same info. -/
theorem gone_after_remove_iff {files : List String} {ls : List (Label P)} {s : State P} {v : Nat}
    (hrun : runSteps (step env) (initial files) ls = some s) (hv : v < s.count) :
    Gone env (after (removeVolume env v s)) v ↔
      v ∉ getVolumes s (s.volume v).pool ∨
        env.hash (info env s v) =
            env.hash (blankInfo (s.volume v).pool (s.pool (s.volume v).pool).auth) ∧
          (getVolumes s (s.volume v).pool).find? (fun w => info env s w = info env s v) =
            some v := by
  obtain ⟨t, hreads, hafter⟩ := removeVolume_spec env s v
  have hcount : v < (after (removeVolume env v s)).count := by
    rw [hafter]
    exact hreads.count ▸ hv
  have hpool : ((after (removeVolume env v s)).volume v).pool = (s.volume v).pool := by
    rw [hafter]
    exact hreads.pool v
  have hvolumes : getVolumes (after (removeVolume env v s)) (s.volume v).pool =
      (leftVolumes env s v).map Entry.elem := by
    rw [hafter]
    exact congrArg (fun p => p.volumes.map Entry.elem) (t.pool_setVolumes_self _ _)
  rw [gone_iff hcount, hpool, hvolumes]
  by_cases hmem : v ∈ getVolumes s (s.volume v).pool
  · rw [notMem_leftVolumes_iff (filed_of_run hrun) hmem]
    exact ⟨.inr, fun h => h.resolve_left (not_not_intro hmem)⟩
  · refine ⟨fun _ => .inl hmem, fun _ hleft => hmem ?_⟩
    obtain ⟨d, hd, hde⟩ := List.mem_map.mp hleft
    exact List.mem_map.mpr ⟨d, HashSet.mem_of_mem_discard hd, hde⟩

/-! ## A removed volume that is still found -/

/-- Parameters without object suffixes. -/
def plainEnv : Env (List (String × String)) where
  objectParams := fun params _ => params
  get := fun params key => params.lookup key
  truthy := fun params => !params.isEmpty
  realpath := fun path => path
  normalizeDataSize := fun _ => .ok 104857600
  qemuVersion := fun _ => .ok ()
  refreshNodes := fun _ => .ok ()
  poolDefine := fun _ => .ok ("/tmp/pool", "None")
  hash := fun i => (i.name.map fun name => (name.length : Int)).getD 0

/-- The state after the definition of one volume. -/
def plainState : State (List (String × String)) :=
  after (volumeDefineByParams plainEnv 10 "sn1"
    [("storage_pool", "default"), ("image_name", "sn1"), ("image_size", "100M")] (initial []))

theorem run_plainState : runSteps (step plainEnv) (initial [])
    [.define 10 "sn1" [("storage_pool", "default"), ("image_name", "sn1"), ("image_size", "100M")]]
    = some plainState := rfl

theorem gone_after_remove_iff_plain :
    ¬Gone plainEnv (after (removeVolume plainEnv 0 plainState)) 0 := by
  rw [gone_after_remove_iff run_plainState (by decide)]
  decide

theorem removed_volume_is_found :
    ¬∀ (env : Env (List (String × String))) files ls s v,
      runSteps (step env) (initial files) ls = some s → v < s.count →
      Gone env (after (removeVolume env v s)) v := by
  intro h
  have hgone := h plainEnv [] _ plainState 0 run_plainState (by decide)
  have hfound : getVolumeByPath (after (removeVolume plainEnv 0 plainState)) "default"
      "/tmp/pool/sn1.qcow2" = some 0 := rfl
  exact hgone.path hfound

end TpQemu.VirtStorage
