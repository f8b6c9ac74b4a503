import TpQemu.BlockPlug.Outcomes

/-!
# What an unplug operation guarantees

An unplug operation that returns has found, at one poll, the deletion events of all
keys of `_unplugged_devs` of the object it was called on. A serial operation fills
that dictionary with the requested images. A threaded operation fills the
dictionaries of its threads' objects instead, and waits for whatever an earlier
operation left in its own: nothing at all, on a new object.
-/

namespace TpQemu.BlockPlug

/-! ## The images an operation waits for -/

/-- The keys of the dictionary the operation waits for. -/
def KeysAre (K : List String) (s : State) : Prop :=
  ∀ k, k ∈ s.main.plug.unpluggedDevs.keys ↔ k ∈ K

/-- An unplug operation that will wait for, or has waited for, the images `K`. -/
def Awaits (K : List String) (s : State) : Prop :=
  s.main.action = .unplug ∧
    match s.phase with
    | .working => (s.main.status = .ready ∧ s.main.images = K) ∨
        ((∃ todo, s.main.status = .plugging todo) ∧ KeysAre K s)
    | .joining _ | .checking | .waiting => KeysAre K s
    | .returned => ∀ k ∈ K, k ∈ s.observed
    | .raised _ => True

/-- The phase of the operation after the step of its worker. -/
theorem awaits_workPhase {K : List String} {s : State} {todo : List Device}
    (haction : s.main.action = .unplug) (hstatus : s.main.status = .plugging todo)
    (hkeys : KeysAre K s) (hphase : s.phase = workPhase (.plugging todo)) : Awaits K s := by
  refine ⟨haction, ?_⟩
  rw [hphase]
  cases todo with
  | nil => exact hkeys
  | cons dev todo => exact .inr ⟨⟨_, hstatus⟩, hkeys⟩

theorem Awaits.work {K : List String} {s : State} {act : WorkAct}
    {r : Worker × Shared × Option (String × Output)} (hs : Awaits K s)
    (hphase : s.phase = .working) (hr : s.main.step s.shared act = some r) :
    Awaits K { s with
      main := r.1, shared := r.2.1, phase := workPhase r.1.status
      reports := addReport s.reports s.op r.2.2 } := by
  obtain ⟨haction, hready⟩ := hs
  rw [hphase] at hready
  cases act with
  | select vm =>
      simp only [Worker.step] at hr
      split at hr
      · rename_i hstatus
        obtain ⟨-, himages⟩ | ⟨⟨todo, hplugging⟩, -⟩ := hready
        · cases hr
          simp only [Worker.select, haction]
          rw [himages]
          generalize hcollect : collectDevices vm K s.shared.hbas = result
          obtain ⟨d, hbas, e⟩ := result
          cases e with
          | none => exact awaits_workPhase rfl rfl (mem_keys_collectDevices hcollect) rfl
          | some e => exact ⟨rfl, trivial⟩
        · rw [hplugging] at hstatus
          cases hstatus
      · cases hr
  | plug result =>
      obtain ⟨hstatus, -⟩ | ⟨⟨todo, hplugging⟩, hkeys⟩ := hready
      · simp [Worker.step, hstatus] at hr
      · simp only [Worker.step, hplugging] at hr
        split at hr
        · cases hr
          exact awaits_workPhase haction rfl hkeys rfl
        · cases hr
          exact ⟨haction, trivial⟩
        · cases hr

theorem Awaits.poll {K : List String} {s : State} (hs : Awaits K s) (hphase : s.phase = .waiting) :
    Awaits K { s with
      main := { s.main with plug := (getEventsDeleted (s.main.plug, s.shared.log)).2.1 }
      shared := { s.shared with log := (getEventsDeleted (s.main.plug, s.shared.log)).2.2 }
      phase := if (getEventsDeleted (s.main.plug, s.shared.log)).1 then .returned else .waiting
      observed := s.observed ++ s.shared.log.filterMap Event.deleted } := by
  obtain ⟨haction, hkeys⟩ := hs
  rw [hphase] at hkeys
  refine ⟨haction, ?_⟩
  by_cases hpoll : (getEventsDeleted (s.main.plug, s.shared.log)).1 = true
  · rw [if_pos hpoll]
    intro k hk
    obtain ⟨e, he, hdeleted⟩ := (getEventsDeleted_iff _).mp hpoll k ((hkeys k).mpr hk)
    exact List.mem_append_right _ (List.mem_filterMap.mpr ⟨e, he, hdeleted⟩)
  · rw [if_neg hpoll]
    exact hkeys

theorem Awaits.step {K : List String} {s s' : State} {l : Label} (hs : Awaits K s)
    (hcall : ∀ c, l ≠ .call c) (h : s.step l = some s') : Awaits K s' := by
  cases l with
  | call c => exact absurd rfl (hcall c)
  | arrive e =>
      cases h
      exact hs
  | work act =>
      obtain ⟨hphase, r, hr, rfl⟩ := step_work h
      exact hs.work hphase hr
  | thread i act =>
      obtain ⟨t, r, -, -, rfl⟩ := step_thread h
      exact hs
  | join =>
      obtain ⟨haction, hkeys⟩ := hs
      obtain ⟨n, hphase, rfl⟩ | ⟨hphase, ⟨e, -, rfl⟩ | ⟨-, rfl⟩⟩ := step_join h
      · rw [hphase] at hkeys
        exact ⟨haction, hkeys⟩
      · exact ⟨haction, trivial⟩
      · rw [hphase] at hkeys
        exact ⟨haction, hkeys⟩
  | check =>
      obtain ⟨haction, hkeys⟩ := hs
      obtain ⟨hphase, rfl⟩ := step_check h
      rw [hphase] at hkeys
      refine ⟨haction, ?_⟩
      rw [haction]
      cases (checkQmpOutputs .unplug s.shared.outputs).2 with
      | none => exact hkeys
      | some e => trivial
  | poll =>
      obtain ⟨hphase, rfl⟩ := step_poll h
      exact hs.poll hphase
  | timeout =>
      obtain ⟨-, e, rfl⟩ := step_timeout h
      exact ⟨hs.1, trivial⟩

/-- Calls with the given images that return have seen the events of all requested images. -/
def Guarantees (c : Call) : Prop :=
  ∀ (s s' : State) (ls : List Label), s.phase.idle = true → (∀ l ∈ ls, ∀ c, l ≠ .call c) →
    runSteps State.step s (.call c :: ls) = some s' → s'.phase = .returned →
    ∀ img ∈ c.requested, img ∈ s'.observed

/-- The guarantee of a call, from the images its start will wait for. -/
theorem guarantees_of_awaits {c : Call} {K : List String}
    (hstart : ∀ s : State, Awaits K (s.start c)) (hsub : ∀ img ∈ c.requested, img ∈ K) :
    Guarantees c := by
  intro s s' ls hidle hcalls hrun hreturned img himg
  have hcall : s.step (.call c) = some (s.start c) := if_pos hidle
  rw [runSteps_cons hcall] at hrun
  have hs' : Awaits K s' := runSteps_invariant_of
    (fun _ _ _ hs hl h => Awaits.step hs hl h) (hstart s) (allSteps_of_forall hcalls _) hrun
  have hseen := hs'.2
  rw [hreturned] at hseen
  exact hseen img (hsub img himg)

theorem guarantees_serial {c : Call} (hmode : c.mode = .serial) (haction : c.action = .unplug) :
    Guarantees c := by
  refine guarantees_of_awaits (K := c.requested) (fun s => ⟨haction, ?_⟩) fun _ h => h
  have hphase : (s.start c).phase = .working := by simp only [State.start, hmode]
  rw [hphase]
  exact .inl ⟨rfl, rfl⟩

theorem guarantees_threaded {c : Call} (hmode : c.mode = .threaded)
    (haction : c.action = .unplug)
    (hsub : ∀ img ∈ c.requested, img ∈ c.plug.unpluggedDevs.keys) : Guarantees c := by
  refine guarantees_of_awaits (fun s => ⟨haction, ?_⟩) hsub
  have hphase : (s.start c).phase = .joining c.threads.length := by
    simp only [State.start, hmode]
  rw [hphase]
  exact fun _ => Iff.rfl

/-! ## A threaded operation that observes nothing -/

/-- A device of its own, on no bus. -/
def plainDevice (img : String) : Device := ⟨img, .qDevice, none, none⟩

/-- A machine with one such device for every image. -/
def machineWith (imgs : List String) : Vm where
  devices := imgs.map plainDevice
  created _ := []
  buses _ := []

theorem collectImage_found {img : String} {devs : List Device}
    (h : ∃ dev ∈ devs, dev.qid = img) (found : List Device) :
    (collectImage img devs found).2 = true ∧
      ∃ dev ∈ (collectImage img devs found).1, dev.qid = img := by
  induction devs generalizing found with
  | nil =>
      obtain ⟨dev, hdev, -⟩ := h
      cases hdev
  | cons dev devs ih =>
      rw [collectImage]
      by_cases hqid : dev.qid = img
      · rw [if_pos hqid]
        exact ⟨rfl, dev, List.mem_cons_self, hqid⟩
      · have htail : ∃ dev ∈ devs, dev.qid = img := by
          obtain ⟨d, hd, hd'⟩ := h
          obtain rfl | hd := List.mem_cons.mp hd
          · exact absurd hd' hqid
          · exact ⟨d, hd, hd'⟩
        rw [if_neg hqid]
        split
        · exact ih htail _
        · exact ih htail _

theorem collectImage_subset {img : String} {devs found : List Device} {dev : Device}
    (h : dev ∈ (collectImage img devs found).1) : dev ∈ devs ∨ dev ∈ found := by
  induction devs generalizing found with
  | nil => exact .inr h
  | cons d devs ih =>
      rw [collectImage] at h
      split at h
      · obtain rfl | h := List.mem_cons.mp h
        · exact .inl List.mem_cons_self
        · exact .inr h
      · split at h
        · obtain h | h := ih h
          · exact .inl (List.mem_cons_of_mem d h)
          · obtain rfl | h := List.mem_cons.mp h
            · exact .inl List.mem_cons_self
            · exact .inr h
        · exact (ih h).imp_left (List.mem_cons_of_mem d)

/-- Every image has the device of its name among its devices, and none of these is on
a bus. -/
def Plain (d : Dict String (List Device)) : Prop :=
  ∀ img devs, d.get? img = some devs →
    (∃ dev ∈ devs, dev.qid = img) ∧ ∀ dev ∈ devs, dev.bus = none

theorem collectImages_plain {imgs images : List String} (hsub : ∀ img ∈ images, img ∈ imgs)
    {d : Dict String (List Device)} (hd : Plain d) :
    ∃ d', collectImages (imgs.map plainDevice) images d = (d', none) ∧ Plain d' := by
  induction images generalizing d with
  | nil => exact ⟨d, rfl, hd⟩
  | cons img images ih =>
      have himg : ∃ dev ∈ imgs.map plainDevice, dev.qid = img :=
        ⟨plainDevice img, List.mem_map_of_mem (hsub img List.mem_cons_self), rfl⟩
      obtain ⟨hbroke, hfound⟩ := collectImage_found himg []
      rw [collectImages, if_pos hbroke]
      refine ih (fun i hi => hsub i (List.mem_cons_of_mem img hi)) fun k devs hk => ?_
      obtain ⟨rfl, rfl⟩ | ⟨-, hk⟩ := Dict.get?_set_cases hk
      · refine ⟨hfound, fun dev hdev => ?_⟩
        obtain hdev | hdev := collectImage_subset hdev
        · obtain ⟨i, -, rfl⟩ := List.mem_map.mp hdev
          rfl
        · cases hdev
      · exact hd k devs hk

theorem searchHbas_plain {vm : Vm} {d : Dict String (List Device)} (hd : Plain d)
    {imgs : List String} (hsub : ∀ img ∈ imgs, img ∈ d.keys) (hbas : Hbas) :
    searchHbas vm imgs d hbas = (d, hbas, none) := by
  induction imgs with
  | nil => rfl
  | cons img imgs ih =>
      obtain ⟨devs, hdevs⟩ := Dict.mem_keys_iff.mp (hsub img List.mem_cons_self)
      obtain ⟨⟨dev, hdev, hqid⟩, hbus⟩ := hd img devs hdevs
      obtain ⟨dev', hfind⟩ := Option.isSome_iff_exists.mp
        (List.find?_isSome.mpr ⟨dev, hdev, decide_eq_true hqid⟩ :
          (devs.find? fun dev => dev.qid = img).isSome = true)
      have hnone : dev'.bus = none := hbus dev' (List.mem_of_find?_eq_some hfind)
      simp only [searchHbas, hdevs, hfind, hnone]
      exact ih fun i hi => hsub i (List.mem_cons_of_mem img hi)

/-- On such a machine the selection for any of its images succeeds. -/
theorem collectDevices_machineWith {imgs images : List String}
    (hsub : ∀ img ∈ images, img ∈ imgs) (hbas : Hbas) :
    ∃ d, collectDevices (machineWith imgs) images hbas = (d, hbas, none) := by
  have hfilter : (machineWith imgs).devices.filter
      (fun dev => decide (dev.cls = .qDevice ∨ dev.cls = .qObject)) = imgs.map plainDevice := by
    refine List.filter_eq_self.mpr fun dev hdev => ?_
    obtain ⟨img, -, rfl⟩ := List.mem_map.mp hdev
    rfl
  have hempty : Plain ∅ := fun img devs h => by
    rw [Dict.get?_empty] at h
    cases h
  obtain ⟨d, hcollect, hplain⟩ := collectImages_plain hsub hempty
  refine ⟨d, ?_⟩
  simp only [collectDevices, hfilter, hcollect]
  exact searchHbas_plain hplain (fun _ h => h) hbas

/-- A worker on its own. -/
def workStep (s : Worker × Shared) (act : WorkAct) : Option (Worker × Shared) :=
  (s.1.step s.2 act).map fun r => (r.1, r.2.1)

theorem not_failing_set {q : Outputs} {qid : String} {output : Output} (hq : ¬Failing q)
    (h : output.verOut ≠ .refuted) : ¬Failing (q.set qid output) := by
  rw [failing_set_iff h fun o ho href => hq ⟨qid, o, ho, href⟩]
  exact hq

/-- Every command of a worker may succeed. -/
theorem plugging_finishes {todo : List Device} (w : Worker) (sh : Shared)
    (hstatus : w.status = .plugging todo) (hclean : ¬Failing sh.outputs) :
    ∃ acts w' sh', runSteps workStep (w, sh) acts = some (w', sh') ∧
      w'.status = .plugging [] ∧ ¬Failing sh'.outputs ∧ sh'.log = sh.log := by
  induction todo generalizing w sh with
  | nil => exact ⟨[], w, sh, rfl, hstatus, hclean, rfl⟩
  | cons dev todo ih =>
      let output : Output := ⟨"", .verified⟩
      have hstep : workStep (w, sh) (.plug (.ok output)) =
          some ({ w with status := .plugging todo },
            { sh with outputs := sh.outputs.set dev.qid output }) := by
        simp only [workStep, Worker.step, hstatus, Option.map_some]
      obtain ⟨acts, w', sh', hrun, hdone, hclean', hlog⟩ :=
        ih { w with status := .plugging todo }
          { sh with outputs := sh.outputs.set dev.qid output } rfl
          (not_failing_set hclean (by decide))
      exact ⟨.plug (.ok output) :: acts, w', sh', by rw [runSteps_cons hstep, hrun], hdone,
        hclean', hlog⟩

theorem worker_finishes {imgs : List String} {w : Worker} {sh : Shared}
    (hready : w.status = .ready) (haction : w.action = .unplug)
    (hsub : ∀ img ∈ w.images, img ∈ imgs) (hclean : ¬Failing sh.outputs) :
    ∃ acts w' sh', runSteps workStep (w, sh) acts = some (w', sh') ∧
      w'.status = .plugging [] ∧ ¬Failing sh'.outputs ∧ sh'.log = sh.log := by
  obtain ⟨d, hcollect⟩ := collectDevices_machineWith hsub sh.hbas
  let w₁ : Worker := { w with
    plug := { w.plug with unpluggedDevs := d }, status := .plugging (allDevices d) }
  have hstep : workStep (w, sh) (.select (machineWith imgs)) = some (w₁, sh) := by
    simp only [workStep, Worker.step, hready, Worker.select, haction, hcollect, Option.map_some, w₁]
  obtain ⟨acts, w', sh', hrun, hdone, hclean', hlog⟩ :=
    plugging_finishes w₁ sh rfl hclean
  exact ⟨.select (machineWith imgs) :: acts, w', sh', by rw [runSteps_cons hstep, hrun], hdone,
    hclean', hlog⟩

/-- The steps of a worker are steps of the thread it is. -/
theorem runSteps_thread {acts : List WorkAct} {s : State} {i op : Nat} {w w' : Worker}
    {sh' : Shared} (hi : s.threads[i]? = some (op, w))
    (hrun : runSteps workStep (w, s.shared) acts = some (w', sh')) :
    ∃ reports, runSteps State.step s (acts.map (.thread i)) =
      some { s with
        threads := s.threads.set i (op, w'), shared := sh', reports := reports } := by
  induction acts generalizing s w with
  | nil =>
      cases hrun
      obtain ⟨hlt, hget⟩ := List.getElem?_eq_some_iff.mp hi
      refine ⟨s.reports, ?_⟩
      rw [List.map_nil, runSteps, ← hget, List.set_getElem_self]
  | cons act acts ih =>
      obtain ⟨_, hact, hrest⟩ := Option.bind_eq_some_iff.mp hrun
      obtain ⟨⟨w₁, sh₁, r⟩, hwork, rfl⟩ := Option.map_eq_some_iff.mp hact
      let s₁ : State := { s with
        threads := s.threads.set i (op, w₁), shared := sh₁
        reports := addReport s.reports op r }
      have hstep : s.step (.thread i act) = some s₁ := by
        simp only [State.step, hi, hwork, Option.map_some, s₁]
      have hlt : i < s.threads.length := (List.getElem?_eq_some_iff.mp hi).1
      obtain ⟨reports, hih⟩ := ih (s := s₁) (w := w₁) (by simp [s₁, hlt]) hrest
      refine ⟨reports, ?_⟩
      rw [List.map_cons, runSteps_cons hstep, hih]
      simp [s₁]

/-- A thread that has plugged all its devices. -/
def Finished (t : Nat × Worker) : Prop := t.2.status = .plugging []

/-- All threads may finish, one after the other, without a failure and without the
monitor receiving anything. -/
theorem threads_finish {imgs : List String} (todo : List (Nat × Worker))
    (hready : ∀ t ∈ todo, t.2.status = .ready ∧ t.2.action = .unplug ∧
      ∀ img ∈ t.2.images, img ∈ imgs)
    (s : State) (done : List (Nat × Worker)) (hthreads : s.threads = done ++ todo)
    (hdone : ∀ t ∈ done, Finished t) (hclean : ¬Failing s.shared.outputs) :
    ∃ ls threads shared reports, (∀ l ∈ ls, ∀ c, l ≠ .call c) ∧
      runSteps State.step s ls =
        some { s with threads := threads, shared := shared, reports := reports } ∧
      (∀ t ∈ threads, Finished t) ∧ ¬Failing shared.outputs ∧ shared.log = s.shared.log := by
  induction todo generalizing s done with
  | nil =>
      refine ⟨[], s.threads, s.shared, s.reports, by simp, rfl, ?_, hclean, rfl⟩
      rw [hthreads, List.append_nil]
      exact hdone
  | cons t todo ih =>
      obtain ⟨op, w⟩ := t
      obtain ⟨hstatus, haction, himages⟩ := hready (op, w) List.mem_cons_self
      obtain ⟨acts, w', sh', hrun, hfinished, hclean', hlog⟩ :=
        worker_finishes hstatus haction himages hclean
      have hi : s.threads[done.length]? = some (op, w) := by simp [hthreads]
      obtain ⟨reports, hthread⟩ := runSteps_thread hi hrun
      have hset : s.threads.set done.length (op, w') = (done ++ [(op, w')]) ++ todo := by
        simp [hthreads]
      have hdone' : ∀ t ∈ done ++ [(op, w')], Finished t := fun t ht => by
        obtain ht | ht := List.mem_append.mp ht
        · exact hdone t ht
        · obtain rfl := List.mem_singleton.mp ht
          exact hfinished
      obtain ⟨ls, threads, shared, reports', hcalls, hrest, hall, hclean'', hlog'⟩ :=
        ih (fun t ht => hready t (List.mem_cons_of_mem _ ht))
          { s with
            threads := s.threads.set done.length (op, w'), shared := sh', reports := reports }
          (done ++ [(op, w')]) hset hdone' hclean'
      refine ⟨acts.map (.thread done.length) ++ ls, threads, shared, reports', ?_, ?_, hall,
        hclean'', hlog'.trans hlog⟩
      · intro l hl c
        obtain hl | hl := List.mem_append.mp hl
        · obtain ⟨act, -, rfl⟩ := List.mem_map.mp hl
          exact Label.noConfusion
        · exact hcalls l hl c
      · rw [runSteps_append, hthread, Option.bind_some, hrest]

theorem runSteps_join (s : State) (n : Nat) (hphase : s.phase = .joining n) :
    runSteps State.step s (List.replicate n .join) = some { s with phase := .joining 0 } := by
  induction n generalizing s with
  | zero =>
      rw [List.replicate_zero, runSteps, ← hphase]
  | succ n ih =>
      have hstep : s.step .join = some { s with phase := .joining n } := by
        simp only [State.step, hphase]
      rw [List.replicate_succ, runSteps_cons hstep, ih _ rfl]

theorem runSteps_arrive (s : State) (events : List Event) :
    runSteps State.step s (events.map .arrive) =
      some { s with shared := { s.shared with log := s.shared.log ++ events } } := by
  induction events generalizing s with
  | nil => simp [runSteps]
  | cons e events ih =>
      have hstep : s.step (.arrive e) =
          some { s with shared := { s.shared with log := s.shared.log ++ [e] } } := rfl
      rw [List.map_cons, runSteps_cons hstep, ih, List.append_assoc]
      rfl

theorem firstRaised_finished (op : Nat) {threads : List (Nat × Worker)}
    (h : ∀ t ∈ threads, Finished t) : firstRaised op threads = none := by
  refine List.findSome?_eq_none_iff.mpr fun t ht => ?_
  have hstatus : t.2.status = .plugging [] := h t ht
  rw [hstatus]

/-- The deletion event of an image. -/
def deletion (img : String) : Event := ⟨deletedEvent, some img⟩

theorem deleted_deletion (img : String) : (deletion img).deleted = some img := by
  rw [deletion, Event.deleted, if_pos List.infix_rfl]

/-- Behind the threads, the operation returns once the events of its own object's
images are there. -/
theorem operation_returns (s : State) (n : Nat) (hphase : s.phase = .joining n)
    (haction : s.main.action = .unplug) (hfinished : ∀ t ∈ s.threads, Finished t)
    (hclean : ¬Failing s.shared.outputs) (hlog : s.shared.log = []) (hseen : s.observed = []) :
    ∃ ls s', (∀ l ∈ ls, ∀ c, l ≠ .call c) ∧ runSteps State.step s ls = some s' ∧
      s'.phase = .returned ∧ s'.threads = s.threads ∧
      s'.observed = s.main.plug.unpluggedDevs.keys := by
  let keys := s.main.plug.unpluggedDevs.keys
  let s₁ : State := { s with phase := .joining 0 }
  let s₂ : State := { s with phase := .checking }
  let outputs := (checkQmpOutputs .unplug s.shared.outputs).1
  let s₃ : State := { s with phase := .waiting, shared := { s.shared with outputs := outputs } }
  let s₄ : State := { s₃ with shared := { s₃.shared with log := keys.map deletion } }
  have hjoin : s₁.step .join = some s₂ := by
    simp only [State.step, s₁, s₂, firstRaised_finished s.op hfinished]
  have hnone : (checkQmpOutputs .unplug s.shared.outputs).2 = none := by
    by_contra hne
    exact hclean ((checkQmpOutputs_raises_iff _ _).mp hne)
  have hcheck : s₂.step .check = some s₃ := by
    simp only [State.step, s₂, s₃, if_true, haction, hnone, outputs]
  have harrive : runSteps State.step s₃ ((keys.map deletion).map .arrive) = some s₄ := by
    rw [runSteps_arrive]
    simp only [s₃, s₄, hlog, List.nil_append]
  have hpoll : (getEventsDeleted (s₄.main.plug, s₄.shared.log)).1 = true := by
    refine (getEventsDeleted_iff _).mpr fun img himg => ⟨deletion img, ?_, deleted_deletion img⟩
    exact List.mem_map_of_mem himg
  let s₅ : State := { s₄ with
    main := { s.main with plug := (getEventsDeleted (s.main.plug, keys.map deletion)).2.1 }
    shared := { s₄.shared with
      log := (getEventsDeleted (s.main.plug, keys.map deletion)).2.2 }
    phase := .returned
    observed := s.observed ++ (keys.map deletion).filterMap Event.deleted }
  have hs₅ : s₄.step .poll = some s₅ := by
    have hreturn : (if (getEventsDeleted (s₄.main.plug, s₄.shared.log)).1 = true
        then Phase.returned else .waiting) = .returned := if_pos hpoll
    simp only [State.step, hreturn]
    rfl
  have hobserved : s₅.observed = keys := by
    have hmap : (keys.map deletion).filterMap Event.deleted = keys := by
      rw [List.filterMap_map]
      exact (List.filterMap_congr fun img _ => deleted_deletion img).trans List.filterMap_some
    simp only [s₅, hseen, hmap, List.nil_append]
  refine ⟨List.replicate n Label.join ++ ([Label.join, Label.check] ++
    ((keys.map deletion).map Label.arrive ++ [Label.poll])), s₅, ?_, ?_, rfl, rfl, hobserved⟩
  · intro l hl c
    simp only [List.mem_append, List.mem_replicate, List.mem_cons, List.mem_map,
      List.not_mem_nil, or_false] at hl
    obtain ⟨-, rfl⟩ | (rfl | rfl) | ⟨e, -, rfl⟩ | rfl := hl <;> exact Label.noConfusion
  · rw [runSteps_append, runSteps_join s n hphase, Option.bind_some, List.cons_append,
      runSteps_cons hjoin, List.cons_append, runSteps_cons hcheck, List.nil_append,
      runSteps_append, harrive, Option.bind_some, runSteps_cons hs₅]
    rfl

theorem mem_of_mem_everyNth {imgs : List String} {i n : Nat} {img : String}
    (h : img ∈ everyNth imgs i n) : img ∈ imgs := by
  obtain ⟨p, hp, rfl⟩ := List.mem_map.mp h
  have hzip : p.1 ∈ imgs.zipIdx.map Prod.fst := List.mem_map_of_mem (List.mem_filter.mp hp).1
  rwa [List.zipIdx_map_fst] at hzip

/-- A threaded unplug that returns with all its threads finished, having waited for the
keys of its own object only. -/
theorem exists_threaded_run {c : Call} (hmode : c.mode = .threaded)
    (haction : c.action = .unplug) :
    ∃ s' ls, (∀ l ∈ ls, ∀ c, l ≠ .call c) ∧
      runSteps State.step (State.initial c.plug) (.call c :: ls) = some s' ∧
      s'.phase = .returned ∧ (∀ t ∈ s'.threads, Finished t) ∧
      s'.observed = c.plug.unpluggedDevs.keys := by
  let s := (State.initial c.plug).start c
  have hcall : (State.initial c.plug).step (.call c) = some s := rfl
  have hphase : s.phase = .joining c.threads.length := by
    simp only [s, State.start, hmode]
  have hthreads : s.threads = [] ++ c.threads.map fun w => (1, w) := by
    simp only [s, State.start, hmode]
    rfl
  have hready : ∀ t ∈ c.threads.map (fun w => (1, w)), t.2.status = .ready ∧
      t.2.action = .unplug ∧ ∀ img ∈ t.2.images, img ∈ c.requested := fun t ht => by
    obtain ⟨w, hw, rfl⟩ := List.mem_map.mp ht
    obtain ⟨i, -, rfl⟩ := List.mem_map.mp hw
    exact ⟨rfl, haction, fun img himg => mem_of_mem_everyNth himg⟩
  have hclean : ¬Failing s.shared.outputs := by
    rintro ⟨d, o, hd, -⟩
    cases hd
  obtain ⟨ls, threads, shared, reports, hcalls, hrun, hfinished, hclean', hlog⟩ :=
    threads_finish _ hready s [] hthreads (fun _ h => absurd h List.not_mem_nil) hclean
  obtain ⟨ms, s', hcalls', hrun', hreturned, hsame, hobserved⟩ :=
    operation_returns { s with threads := threads, shared := shared, reports := reports } _
      hphase haction hfinished hclean' hlog rfl
  refine ⟨s', ls ++ ms, ?_, ?_, hreturned, ?_, hobserved⟩
  · intro l hl
    obtain hl | hl := List.mem_append.mp hl
    · exact hcalls l hl
    · exact hcalls' l hl
  · rw [runSteps_cons hcall, runSteps_append, hrun, Option.bind_some, hrun']
  · rw [hsame]
    exact hfinished

/-- The call of `unplug_devs_serial` or `unplug_devs_threaded`. -/
def unplugCall (mode : Mode) (plug : Plug) (images : Option (List String))
    (vmImages : List String) (cpuCount : Nat) : Call :=
  ⟨mode, .unplug, plug, images, vmImages, cpuCount⟩

/-- A serial unplug that returns has observed a deletion event for every requested image.
A threaded unplug guarantees this exactly when the requested images are keys of the
dictionary that its object had before the call. -/
theorem unplug_guarantees_iff (plug : Plug) (images : Option (List String))
    (vmImages : List String) (cpuCount : Nat) :
    Guarantees (unplugCall .serial plug images vmImages cpuCount) ∧
      (Guarantees (unplugCall .threaded plug images vmImages cpuCount) ↔
        ∀ img ∈ images.getD plug.imgs, img ∈ plug.unpluggedDevs.keys) := by
  refine ⟨guarantees_serial rfl rfl, fun hguarantee img himg => ?_, fun hsub => ?_⟩
  · obtain ⟨s', ls, hcalls, hrun, hreturned, -, hobserved⟩ :=
      exists_threaded_run (c := unplugCall .threaded plug images vmImages cpuCount) rfl rfl
    have hseen := hguarantee _ s' ls rfl hcalls hrun hreturned img himg
    rwa [hobserved] at hseen
  · exact guarantees_threaded (c := unplugCall .threaded plug images vmImages cpuCount) rfl rfl hsub

/-- Unplugging one image by threads on a new object: the only thread finishes, no event
arrives, and the operation returns. -/
theorem threaded_unplug_observes_nothing :
    ¬∀ c : Call, c.action = .unplug → Guarantees c := by
  intro h
  let c := unplugCall .threaded (newPlug []) (some ["stg0"]) [] 1
  have hseen := h c rfl (State.initial (newPlug [])) _
    [.thread 0 (.select (machineWith ["stg0"])), .thread 0 (.plug (.ok ⟨"", .verified⟩)), .join,
      .join, .check, .poll] rfl (by simp) rfl rfl "stg0" (by decide)
  cases hseen

end TpQemu.BlockPlug
