import TpQemu.BlockPlug.System

/-!
# The outcome check

`_check_qmp_outputs` raises exactly when the module dictionary holds a failure. The
dictionary outlives an operation: a check that raises leaves the outputs behind the
first failure, and an exception in the middle of an operation leaves all of them. So
the verdict on an operation is its own only while every operation starts without a
stored failure, no thread of an earlier operation still stores outputs, and no
failure is overwritten before the check.
-/

namespace TpQemu.BlockPlug

/-! ## The check -/

theorem failing_erase {q : Outputs} {devId : String} {output : Output}
    (hget : q.get? devId = some output) (hok : output.verOut ≠ .refuted) :
    Failing (q.erase devId) ↔ Failing q := by
  constructor
  · rintro ⟨d, o, hd, ho⟩
    obtain rfl | hne := eq_or_ne d devId
    · rw [Dict.get?_erase_self] at hd
      cases hd
    · exact ⟨d, o, by rwa [Dict.get?_erase_ne q hne] at hd, ho⟩
  · rintro ⟨d, o, hd, ho⟩
    refine ⟨d, o, ?_, ho⟩
    rw [Dict.get?_erase_ne, hd]
    rintro rfl
    rw [hget] at hd
    cases hd
    exact hok ho

theorem mem_keys_erase_of_cons {q : Outputs} {devId : String} {devIds : List String}
    (hnodup : (devId :: devIds).Nodup) (hkeys : ∀ k, k ∈ q.keys ↔ k ∈ devId :: devIds)
    (k : String) : k ∈ (q.erase devId).keys ↔ k ∈ devIds := by
  have hnotMem : devId ∉ devIds := (List.nodup_cons.mp hnodup).1
  rw [Dict.mem_keys_iff]
  obtain rfl | hne := eq_or_ne k devId
  · rw [Dict.get?_erase_self]
    simp [hnotMem]
  · rw [Dict.get?_erase_ne q hne, ← Dict.mem_keys_iff, hkeys, List.mem_cons, or_iff_right hne]

/-- The loop raises when it meets a failure, and empties the dictionary otherwise. -/
theorem popOutputs_spec (action : Action) {devIds : List String} {q : Outputs}
    (hnodup : devIds.Nodup) (hkeys : ∀ k, k ∈ q.keys ↔ k ∈ devIds) :
    ((popOutputs action devIds q).2 ≠ none ↔ Failing q) ∧
      (¬Failing q → (popOutputs action devIds q).1.keys = []) := by
  induction devIds generalizing q with
  | nil =>
      have hempty : q.keys = [] := List.eq_nil_iff_forall_not_mem.mpr fun k hk => by
        simpa using (hkeys k).mp hk
      refine ⟨⟨fun h => absurd rfl h, ?_⟩, fun _ => hempty⟩
      rintro ⟨d, o, hd, -⟩
      have hmem : d ∈ q.keys := Dict.mem_keys_iff.mpr ⟨o, hd⟩
      rw [hempty] at hmem
      cases hmem
  | cons devId devIds ih =>
      obtain ⟨output, hget⟩ := Dict.mem_keys_iff.mp ((hkeys devId).mpr List.mem_cons_self)
      simp only [popOutputs, hget]
      by_cases href : output.verOut = .refuted
      · rw [if_pos href]
        have hfail : Failing q := ⟨devId, output, hget, href⟩
        exact ⟨⟨fun _ => hfail, fun _ => by simp⟩, fun h => absurd hfail h⟩
      · rw [if_neg href, ← failing_erase hget href]
        exact ih hnodup.of_cons (mem_keys_erase_of_cons hnodup hkeys)

theorem checkQmpOutputs_raises_iff (action : Action) (q : Outputs) :
    (checkQmpOutputs action q).2 ≠ none ↔ Failing q :=
  (popOutputs_spec action q.nodup_keys fun _ => Iff.rfl).1

/-! ## Reports -/

theorem failing_set_refuted (q : Outputs) {qid : String} {output : Output}
    (h : output.verOut = .refuted) : Failing (q.set qid output) :=
  ⟨qid, output, Dict.get?_set_self q qid output, h⟩

/-- Storing an output that is no failure changes nothing, unless it hides a failure. -/
theorem failing_set_iff {q : Outputs} {qid : String} {output : Output}
    (h : output.verOut ≠ .refuted)
    (hold : ∀ o, q.get? qid = some o → o.verOut ≠ .refuted) :
    Failing (q.set qid output) ↔ Failing q := by
  constructor
  · rintro ⟨d, o, hd, ho⟩
    obtain ⟨-, rfl⟩ | ⟨-, hd⟩ := Dict.get?_set_cases hd
    · exact absurd ho h
    · exact ⟨d, o, hd, ho⟩
  · rintro ⟨d, o, hd, ho⟩
    refine ⟨d, o, ?_, ho⟩
    rw [Dict.get?_set_ne, hd]
    rintro rfl
    exact hold o hd ho

/-- A step of a worker either stores one output or leaves the outputs alone. -/
theorem Worker.step_outputs {w w' : Worker} {sh sh' : Shared} {act : WorkAct}
    {r : Option (String × Output)} (h : w.step sh act = some (w', sh', r)) :
    (r = none ∧ sh'.outputs = sh.outputs) ∨
      ∃ qid output, r = some (qid, output) ∧ sh'.outputs = sh.outputs.set qid output := by
  cases act with
  | select vm =>
      rw [Worker.step] at h
      split at h
      · cases h
        refine .inl ⟨rfl, ?_⟩
        rw [Worker.select]
        split <;> rfl
      · cases h
  | plug result =>
      simp only [Worker.step] at h
      split at h
      · cases h
        exact .inr ⟨_, _, rfl, rfl⟩
      · cases h
        exact .inl ⟨rfl, rfl⟩
      · cases h

/-- The output a step of the system stores, with the operation it belongs to. -/
def State.report (s : State) : Label → Option (Nat × String × Output)
  | .work act => (s.main.step s.shared act).bind fun r => r.2.2.map fun o => (s.op, o)
  | .thread i act =>
      s.threads[i]?.bind fun t => (t.2.step s.shared act).bind fun r => r.2.2.map fun o => (t.1, o)
  | _ => none

/-- A call starts without a stored failure; an output is stored by the current
operation, and a failure is not overwritten by an output that is none. -/
def Separate (s : State) (l : Label) : Prop :=
  (∀ c, l = .call c → ¬Failing s.shared.outputs) ∧
    ∀ op qid output, s.report l = some (op, qid, output) →
      op = s.op ∧ (output.verOut ≠ .refuted →
        ∀ o, s.shared.outputs.get? qid = some o → o.verOut ≠ .refuted)

/-- The operation has not been checked yet. -/
def Phase.unchecked : Phase → Bool
  | .working | .joining _ | .checking => true
  | _ => false

/-- Some device of the current operation reported a failure. -/
def State.Refuted (s : State) : Prop := ∃ r ∈ s.reports, r.1 = s.op ∧ r.2.2.verOut = .refuted

/-- The stored failures of an unchecked operation are its own. -/
structure OwnOutputs (s : State) : Prop where
  reports_le : ∀ r ∈ s.reports, r.1 ≤ s.op
  failing_iff : s.phase.unchecked = true → (Failing s.shared.outputs ↔ s.Refuted)

/-- What a step does to the outputs and the reports when it is no call and no check. -/
theorem OwnOutputs.of_report {s s' : State} (hs : OwnOutputs s) {r : Option (String × Output)}
    (hop : s'.op = s.op) (hreports : s'.reports = addReport s.reports s.op r)
    (houtputs : (r = none ∧ s'.shared.outputs = s.shared.outputs) ∨
      ∃ qid output, r = some (qid, output) ∧
        s'.shared.outputs = s.shared.outputs.set qid output ∧
        (output.verOut ≠ .refuted →
          ∀ o, s.shared.outputs.get? qid = some o → o.verOut ≠ .refuted))
    (hphase : s'.phase.unchecked = true → s.phase.unchecked = true) : OwnOutputs s' := by
  obtain ⟨rfl, hsame⟩ | ⟨qid, output, rfl, hset, hkeep⟩ := houtputs
  · refine ⟨?_, fun hun => ?_⟩
    · rw [hop, hreports]
      exact hs.reports_le
    · rw [hsame, hs.failing_iff (hphase hun), State.Refuted, State.Refuted, hop, hreports]
      rfl
  · have hmem (x : Nat × String × Output) : x ∈ s'.reports ↔
        x ∈ s.reports ∨ x = (s.op, qid, output) := by
      rw [hreports, addReport, List.mem_append, List.mem_singleton]
    refine ⟨?_, fun hun => ?_⟩
    · intro x hx
      rw [hop]
      obtain hx | rfl := (hmem x).mp hx
      · exact hs.reports_le x hx
      · exact Nat.le_refl _
    · have hrefuted : s'.Refuted ↔ s.Refuted ∨ output.verOut = .refuted := by
        simp only [State.Refuted, hmem, hop]
        constructor
        · rintro ⟨x, hx | rfl, hown, href⟩
          · exact .inl ⟨x, hx, hown, href⟩
          · exact .inr href
        · rintro (⟨x, hx, hown, href⟩ | href)
          · exact ⟨x, .inl hx, hown, href⟩
          · exact ⟨_, .inr rfl, rfl, href⟩
      rw [hset, hrefuted]
      by_cases href : output.verOut = .refuted
      · exact iff_of_true (failing_set_refuted _ href) (.inr href)
      · rw [failing_set_iff href (hkeep href), hs.failing_iff (hphase hun), or_iff_left href]

/-- Steps that store nothing and do not return to an unchecked phase. -/
theorem OwnOutputs.of_same {s s' : State} (hs : OwnOutputs s) (hop : s'.op = s.op)
    (hreports : s'.reports = s.reports) (houtputs : s'.shared.outputs = s.shared.outputs)
    (hphase : s'.phase.unchecked = true → s.phase.unchecked = true) : OwnOutputs s' :=
  hs.of_report (r := none) hop hreports (.inl ⟨rfl, houtputs⟩) hphase

/-- Past the check nothing is promised about the outputs. -/
theorem OwnOutputs.of_checked {s s' : State} (hs : OwnOutputs s) (hop : s'.op = s.op)
    (hreports : s'.reports = s.reports) (hphase : s'.phase.unchecked = false) :
    OwnOutputs s' where
  reports_le := by
    rw [hop, hreports]
    exact hs.reports_le
  failing_iff hun := by
    rw [hphase] at hun
    cases hun

theorem OwnOutputs.start {s : State} (hs : OwnOutputs s) (c : Call)
    (hclean : ¬Failing s.shared.outputs) : OwnOutputs (s.start c) where
  reports_le r hr := Nat.le_succ_of_le (hs.reports_le r hr)
  failing_iff _ := by
    refine iff_of_false hclean ?_
    rintro ⟨r, hr, hop, -⟩
    have hle : r.1 ≤ s.op := hs.reports_le r hr
    have hnew : r.1 = s.op + 1 := hop
    omega

theorem OwnOutputs.step {s s' : State} {l : Label} (hs : OwnOutputs s) (hsep : Separate s l)
    (h : s.step l = some s') : OwnOutputs s' := by
  cases l with
  | call c =>
      obtain ⟨-, rfl⟩ := step_call h
      exact hs.start c (hsep.1 c rfl)
  | arrive e =>
      cases h
      exact hs.of_same rfl rfl rfl id
  | work act =>
      obtain ⟨hphase, ⟨w, sh, r⟩, hr, rfl⟩ := step_work h
      refine hs.of_report rfl rfl ?_ fun _ => by rw [hphase]; rfl
      obtain ⟨rfl, hsame⟩ | ⟨qid, output, rfl, hset⟩ := Worker.step_outputs hr
      · exact .inl ⟨rfl, hsame⟩
      · have hkeep := (hsep.2 s.op qid output (by rw [State.report, hr]; rfl)).2
        exact .inr ⟨qid, output, rfl, hset, hkeep⟩
  | thread i act =>
      obtain ⟨t, ⟨w, sh, r⟩, ht, hr, rfl⟩ := step_thread h
      obtain ⟨rfl, hsame⟩ | ⟨qid, output, rfl, hset⟩ := Worker.step_outputs hr
      · exact hs.of_same rfl rfl hsame id
      · obtain ⟨hown, hkeep⟩ := hsep.2 t.1 qid output (by
          rw [State.report, ht, Option.bind_some, hr]; rfl)
        exact hs.of_report rfl (by rw [← hown]) (.inr ⟨qid, output, rfl, hset, hkeep⟩) id
  | join =>
      obtain ⟨n, hphase, rfl⟩ | ⟨hphase, ⟨e, -, rfl⟩ | ⟨-, rfl⟩⟩ := step_join h
      · exact hs.of_same rfl rfl rfl fun _ => by rw [hphase]; rfl
      · exact hs.of_checked rfl rfl rfl
      · exact hs.of_same rfl rfl rfl fun _ => by rw [hphase]; rfl
  | check =>
      obtain ⟨-, rfl⟩ := step_check h
      refine hs.of_checked rfl rfl ?_
      dsimp only
      split <;> rfl
  | poll =>
      obtain ⟨-, rfl⟩ := step_poll h
      refine hs.of_checked rfl rfl ?_
      dsimp only
      split <;> rfl
  | timeout =>
      obtain ⟨-, e, rfl⟩ := step_timeout h
      exact hs.of_checked rfl rfl rfl

/-- Before the first operation. -/
def State.initial (plug : Plug) : State where
  shared := ⟨∅, ∅, []⟩
  op := 0
  main := ⟨plug, .hotplug, [], .ready⟩
  phase := .returned
  threads := []
  reports := []
  observed := []

theorem ownOutputs_initial (plug : Plug) : OwnOutputs (State.initial plug) where
  reports_le _ hr := absurd hr List.not_mem_nil
  failing_iff h := by cases h

/-- In a run whose operations are separate, the check of an operation raises exactly when
a device of that operation reported a failure. -/
theorem check_raises_iff_refuted (plug : Plug) (ls : List Label) (s : State)
    (hrun : runSteps State.step (State.initial plug) ls = some s)
    (hsep : AllSteps State.step Separate (State.initial plug) ls) (hphase : s.phase = .checking) :
    (checkQmpOutputs s.main.action s.shared.outputs).2 ≠ none ↔ s.Refuted := by
  have hinv : OwnOutputs s := runSteps_invariant_of
    (fun _ _ _ hs hsep h => OwnOutputs.step hs hsep h) (ownOutputs_initial plug) hsep hrun
  rw [checkQmpOutputs_raises_iff]
  exact hinv.failing_iff (by rw [hphase]; rfl)

/-- A machine that defines one device, named after the image, for every image. -/
def plainVm : Vm where
  devices := []
  created img := [⟨img, .qDevice, none, none⟩]
  buses _ := []

/-- A serial hot plug of the given images on a new object. -/
def hotplugCall (images : List String) : Call :=
  ⟨.serial, .hotplug, newPlug [], some images, [], 1⟩

/-- An operation whose only device fails. -/
def oneFailure : List Label :=
  [.call (hotplugCall ["stg0"]), .work (.select plainVm),
    .work (.plug (.ok ⟨"no slot", .refuted⟩))]

theorem check_raises_iff_refuted_one_image :
    ∃ s, runSteps State.step (State.initial (newPlug [])) oneFailure = some s ∧ s.Refuted ∧
      ((checkQmpOutputs s.main.action s.shared.outputs).2 ≠ none ↔ s.Refuted) := by
  refine ⟨_, rfl, ⟨(1, "stg0", ⟨"no slot", .refuted⟩), by decide, rfl, rfl⟩, ?_⟩
  refine check_raises_iff_refuted (newPlug []) oneFailure _ rfl ?_ rfl
  refine ⟨⟨?_, ?_⟩, fun s₁ h₁ => ?_⟩
  · rintro _ - ⟨d, o, hd, -⟩
    cases hd
  · rintro _ _ _ h
    cases h
  obtain rfl := Option.some.inj h₁
  refine ⟨⟨fun _ h => (by cases h), fun _ _ _ h => (by cases h)⟩, fun s₂ h₂ => ?_⟩
  obtain rfl := Option.some.inj h₂
  refine ⟨⟨fun _ h => (by cases h), fun _ _ _ h => ?_⟩, fun _ _ => trivial⟩
  obtain ⟨rfl, rfl, rfl⟩ := Option.some.inj h
  exact ⟨rfl, fun hne => absurd rfl hne⟩

/-- Two devices fail in a first operation, whose check stops at the first of them. The
check of a second operation then raises although its only device is plugged. -/
theorem leftover_failure_blamed :
    ¬∀ (plug : Plug) (ls : List Label) (s : State),
      runSteps State.step (State.initial plug) ls = some s → s.phase = .checking →
      ((checkQmpOutputs s.main.action s.shared.outputs).2 ≠ none ↔ s.Refuted) := by
  intro h
  let failure : Output := ⟨"no slot", .refuted⟩
  have hiff := h (newPlug []) [.call (hotplugCall ["stg0", "stg1"]), .work (.select plainVm),
    .work (.plug (.ok failure)), .work (.plug (.ok failure)), .check,
    .call (hotplugCall ["stg2"]), .work (.select plainVm),
    .work (.plug (.ok ⟨"", .verified⟩))] _ rfl rfl
  obtain ⟨r, hr, hop, href⟩ := hiff.mp (by decide)
  have hown : ∀ r ∈ [(1, "stg0", failure), (1, "stg1", failure), (2, "stg2", ⟨"", .verified⟩)],
      r.1 = 2 → r.2.2.verOut ≠ .refuted := by decide
  exact hown r hr hop href

end TpQemu.BlockPlug
