import TpQemu.Lib.Dict
import TpQemu.Lib.Effects
import TpQemu.Lib.Python

/-!
# The offload settings of a network device

`generic/tests/ethtool.py` switches the offload features of a network device on
and off while it transfers files, and restores the settings it found in a `finally`
block. A report of `ethtool -k` has a line for some of the seven features; a
feature whose line says `[fixed]` cannot be changed. `ethtool -K` sets the flags it
names or fails and changes nothing. How each command and each callback ends is the
environment's choice.

The saved settings have `None` for a feature without a line, and the command that
restores them is built from all of them: joining a name and `None` raises, before
the command is sent, and the block that restores swallows the exception.
-/

namespace TpQemu.Ethtool

/-- The keys of `feature_pattern` and `test_matrix`. -/
inductive Feature where
  | tx
  | rx
  | sg
  | tso
  | gso
  | gro
  | lro
  deriving DecidableEq

namespace Feature

/-- The keys of `feature_pattern`, in order. -/
def all : List Feature := [tx, rx, sg, tso, gso, gro, lro]

def name : Feature → String
  | tx => "tx"
  | rx => "rx"
  | sg => "sg"
  | tso => "tso"
  | gso => "gso"
  | gro => "gro"
  | lro => "lro"

def ofName? (s : String) : Option Feature := all.find? fun f => f.name = s

theorem mem_all (f : Feature) : f ∈ all := by
  cases f <;> decide

theorem nodup_all : all.Nodup := by
  decide

end Feature

inductive Switch where
  | on
  | off
  deriving DecidableEq

/-- What a line of the report says of a feature. -/
structure Line where
  value : Switch
  /-- `[fixed]` -/
  fixed : Bool
  deriving DecidableEq

/-- The report of `ethtool -k`, which is what the device's settings are. -/
abbrev Report := Feature → Option Line

/-- `status`: a feature without a line has `None`, a fixed one has no entry. -/
abbrev Status := Dict Feature (Option Switch)

/-- `d == e` for dictionaries. -/
def Same (d e : Status) : Prop := ∀ f ∈ Feature.all, d.get? f = e.get? f

instance (d e : Status) : Decidable (Same d e) :=
  inferInstanceAs (Decidable (∀ f ∈ Feature.all, d.get? f = e.get? f))

/-! ## The commands -/

/-- How a command ends; `aexpect.ShellCmdError` and the other exceptions of a session. -/
inductive CmdOutcome where
  | ok
  | shellCmdError
  | sessionError
  deriving DecidableEq

/-- The exceptions of the test. -/
inductive Raised where
  | keyError
  | typeError
  | shellCmdError
  | sessionError
  /-- Raised in a callback. -/
  | callback
  /-- `test.fail("Failed tests: %s" % failed_tests)` -/
  | testFail (failedTests : List String)

/-- The settings of the device and `failed_tests`. -/
structure State where
  dev : Report
  failedTests : List String

abbrev Test := EStateM Raised State

/-- Ends a command of a session that is not guarded. -/
def expectOk : CmdOutcome → Test Unit
  | .ok => pure ()
  | .shellCmdError => throw .shellCmdError
  | .sessionError => throw .sessionError

/-- One feature of the loop of `ethtool_get`. -/
def readFeature (dev : Report) (status : Status) (f : Feature) : Status :=
  match dev f with
  | none => status.set f none
  | some line => if line.fixed then status else status.set f (some line.value)

/-- The status read from a report. -/
def statusOf (dev : Report) : Status := Feature.all.foldl (readFeature dev) ∅

/-- `ethtool_get(session)` -/
def ethtoolGet (outcome : CmdOutcome) : Test Status := do
  expectOk outcome
  let s ← get
  return statusOf s.dev

/-- `[o + " " + s for o, s in status.items()]` -/
def flags (entries : List (Feature × Option Switch)) : Except Raised (List (Feature × Switch)) :=
  entries.mapM fun p =>
    match p.2 with
    | some v => .ok (p.1, v)
    | none => .error .typeError

/-- The device has, or can be given, the settings named. -/
def applicable (dev : Report) (fs : List (Feature × Switch)) : Bool :=
  fs.all fun p => (dev p.1).any fun line => !line.fixed || line.value = p.2

/-- A setting of one feature. -/
def setFlag (dev : Report) (p : Feature × Switch) : Report := fun f =>
  if f = p.1 then (dev f).map fun line => { line with value := p.2 } else dev f

/-- `ethtool -K`: the device behind it and how it ends. -/
def ethtoolK (dev : Report) (fs : List (Feature × Switch)) : CmdOutcome → Report × CmdOutcome
  | .ok => if applicable dev fs then (fs.foldl setFlag dev, .ok) else (dev, .shellCmdError)
  | e => (dev, e)

/-- How the two commands of an `ethtool_set` end. -/
structure SetEnv where
  set : CmdOutcome
  get : CmdOutcome

/-- `ethtool_set` behind the command: the features named have the settings named. -/
def checkStatus (status : Status) (getOutcome : CmdOutcome) : CmdOutcome → Test Bool
  | .shellCmdError => return false
  | .sessionError => throw .sessionError
  | .ok => do
      let currStatus ← ethtoolGet getOutcome
      return decide (∀ f ∈ status.keys, currStatus.get? f = status.get? f)

/-- `ethtool_set(session, status)` -/
def ethtoolSet (status : Status) (env : SetEnv) : Test Bool := do
  let fs ← liftExcept (flags status.entries)
  let s ← get
  let r := ethtoolK s.dev fs env.set
  set { s with dev := r.1 }
  checkStatus status env.get r.2

/-! ## The test -/

inductive Callback where
  | txCallback
  | rxCallback
  | soCallback
  | roCallback
  deriving DecidableEq

/-- A row of `test_matrix`. -/
structure Row where
  callback : Callback
  dependence : List Feature
  exclude : List Feature

def testMatrix : Feature → Row
  | .tx => ⟨.txCallback, [], []⟩
  | .rx => ⟨.rxCallback, [], []⟩
  | .sg => ⟨.txCallback, [.tx], []⟩
  | .tso => ⟨.soCallback, [.tx, .sg], [.gso]⟩
  | .gso => ⟨.soCallback, [], [.tso]⟩
  | .gro => ⟨.roCallback, [.rx], [.lro]⟩
  | .lro => ⟨.rxCallback, [], [.gro]⟩

/-- `status.update(dict.fromkeys(fs, v))` -/
def updateAll (status : Status) (fs : List Feature) (v : Switch) : Status :=
  fs.foldl (fun status f => status.set f (some v)) status

/-- `offload_stat` -/
def offloadStat (nicModel : String) (f : Feature) : Status :=
  let status := updateAll ((∅ : Status).set f (some .on)) (testMatrix f).dependence .on
  if f = .gro ∧ (nicModel = "e1000e" ∨ nicModel = "e1000") then status
  else updateAll status (testMatrix f).exclude .off

inductive CallOutcome where
  | passed
  | failed
  | raised
  deriving DecidableEq

/-- `callback(status=...)` -/
def runCallback : CallOutcome → Test Bool
  | .passed => return true
  | .failed => return false
  | .raised => throw .callback

/-- What the environment does in one round. -/
structure RoundEnv where
  enable : SetEnv
  disable : SetEnv
  callback : Callback → Switch → CallOutcome

/-- `if not ok: failed_tests.append(e_msg)` -/
def check (ok : Bool) (msg : String) : Test Unit :=
  modify fun s => if ok then s else { s with failedTests := s.failedTests ++ [msg] }

/-- One feature of the loop. -/
def testFeature (nicModel : String) (env : RoundEnv) (fType : String) : Test Unit := do
  let f ← liftExcept (match Feature.ofName? fType with
    | some f => .ok f
    | none => .error .keyError)
  let callback := (testMatrix f).callback
  let enabled ← ethtoolSet (offloadStat nicModel f) env.enable
  check enabled "Failed to set offload status"
  let passed ← runCallback (env.callback callback .on)
  check (passed || f = .gso) ("Callback failed after enabling " ++ fType)
  let disabled ← ethtoolSet ((∅ : Status).set f (some .off)) env.disable
  check disabled ("Failed to disable " ++ fType)
  let passed ← runCallback (env.callback callback .off)
  check passed ("Callback failed after disabling " ++ fType)

/-- What the environment does in the whole test. -/
structure Env where
  nicModel : String
  round : Nat → RoundEnv
  /-- The commands of the `finally` block. -/
  restore : SetEnv
  restoreGet : CmdOutcome

/-- The `try` block. -/
def tryBlock (env : Env) (supportedFeatures : List String) : Test Unit := do
  supportedFeatures.zipIdx.forM fun p => testFeature env.nicModel (env.round p.2) p.1
  let s ← get
  if s.failedTests ≠ [] then throw (.testFail s.failedTests)

/-- `ethtool_restore_params(session, status)` -/
def ethtoolRestoreParams (status : Status) (env : Env) : Test Unit := do
  let curStat ← ethtoolGet env.restoreGet
  if ¬Same curStat status then
    let _ ← ethtoolSet status env.restore

/-- The test from the point where the settings are saved. What the `finally` block
raises is swallowed. -/
def run (env : Env) (supportedFeatures : List String) : Test Unit := fun s =>
  let pretestStatus := statusOf s.dev
  match tryBlock env supportedFeatures s with
  | .ok _ s => .ok () (after (ethtoolRestoreParams pretestStatus env s))
  | .error e s => .error e (after (ethtoolRestoreParams pretestStatus env s))

/-! ## Reports and settings -/

theorem readFeature_other {dev : Report} {status : Status} {f g : Feature} (h : g ≠ f) :
    (readFeature dev status f).get? g = status.get? g := by
  rw [readFeature]
  split
  · exact Dict.get?_set_ne _ h _
  · split
    · rfl
    · exact Dict.get?_set_ne _ h _

/-- The entry of a feature. -/
def entryOf (dev : Report) (f : Feature) : Option (Option Switch) :=
  match dev f with
  | none => some none
  | some line => if line.fixed then none else some (some line.value)

theorem readFeature_self {dev : Report} {status : Status} {f : Feature}
    (h : status.get? f = none) : (readFeature dev status f).get? f = entryOf dev f := by
  rw [readFeature, entryOf]
  split
  · exact Dict.get?_set_self _ _ _
  · split
    · exact h
    · exact Dict.get?_set_self _ _ _

theorem foldl_readFeature_other {dev : Report} {fs : List Feature} {f : Feature} (h : f ∉ fs)
    (status : Status) : (fs.foldl (readFeature dev) status).get? f = status.get? f := by
  induction fs generalizing status with
  | nil => rfl
  | cons g fs ih =>
      rw [List.mem_cons, not_or] at h
      rw [List.foldl_cons, ih h.2, readFeature_other h.1]

/-- The loop comes to each feature once. -/
theorem foldl_readFeature {dev : Report} {fs : List Feature} (nodup : fs.Nodup) {f : Feature}
    (h : f ∈ fs) {status : Status} (hnone : status.get? f = none) :
    (fs.foldl (readFeature dev) status).get? f = entryOf dev f := by
  induction fs generalizing status with
  | nil => cases h
  | cons g fs ih =>
      obtain ⟨hnot, nodup⟩ := List.nodup_cons.mp nodup
      rw [List.foldl_cons]
      rcases List.mem_cons.mp h with heq | hmem
      · subst heq
        rw [foldl_readFeature_other hnot, readFeature_self hnone]
      · have hne : f ≠ g := by
          rintro rfl
          exact hnot hmem
        exact ih nodup hmem (by rw [readFeature_other hne, hnone])

theorem get?_statusOf (dev : Report) (f : Feature) : (statusOf dev).get? f = entryOf dev f :=
  foldl_readFeature Feature.nodup_all f.mem_all rfl

/-- The settings of the features that are not fixed are those of the first report. -/
def Restored (dev dev' : Report) : Prop :=
  ∀ f line, dev f = some line → line.fixed = false →
    ∃ line', dev' f = some line' ∧ line'.value = line.value

/-- Both reports have the same lines and the same fixed features. -/
def SameShape (dev dev' : Report) : Prop :=
  ∀ f, (dev' f).map Line.fixed = (dev f).map Line.fixed

theorem same_statusOf_iff {dev dev' : Report} (h : SameShape dev dev') :
    Same (statusOf dev') (statusOf dev) ↔ Restored dev dev' := by
  have hentry : ∀ f, entryOf dev' f = entryOf dev f ↔ ∀ line, dev f = some line →
      line.fixed = false → ∃ line', dev' f = some line' ∧ line'.value = line.value := by
    intro f
    have hf := h f
    rw [entryOf, entryOf]
    cases hline : dev f with
    | none =>
        have hnone : dev' f = none := by simpa [hline] using hf
        simp [hnone]
    | some line =>
        obtain ⟨line', hline', hfixed⟩ :
            ∃ line', dev' f = some line' ∧ line'.fixed = line.fixed := by
          simpa [hline] using hf
        cases hfix : line.fixed <;> simp [hline', hfixed, hfix]
  simp only [Same, Restored, get?_statusOf, hentry]
  exact ⟨fun hall f => hall f f.mem_all, fun hall f _ => hall f⟩

/-! ## The commands keep the shape of the report -/

theorem SameShape.refl (dev : Report) : SameShape dev dev := fun _ => rfl

theorem SameShape.trans {a b c : Report} (hab : SameShape a b) (hbc : SameShape b c) :
    SameShape a c := fun f => (hbc f).trans (hab f)

theorem sameShape_setFlag (dev : Report) (p : Feature × Switch) :
    SameShape dev (setFlag dev p) := by
  intro f
  rw [setFlag]
  split
  · cases dev f <;> rfl
  · rfl

theorem sameShape_foldl (fs : List (Feature × Switch)) (dev : Report) :
    SameShape dev (fs.foldl setFlag dev) := by
  induction fs generalizing dev with
  | nil => exact .refl dev
  | cons p fs ih => exact (sameShape_setFlag dev p).trans (ih (setFlag dev p))

theorem sameShape_ethtoolK (dev : Report) (fs : List (Feature × Switch)) (outcome : CmdOutcome) :
    SameShape dev (ethtoolK dev fs outcome).1 := by
  cases outcome with
  | ok =>
      rw [ethtoolK]
      split
      · exact sameShape_foldl fs dev
      · exact .refl dev
  | shellCmdError => exact .refl dev
  | sessionError => exact .refl dev

/-- Reading the settings back changes nothing. -/
theorem after_checkStatus (status : Status) (getOutcome outcome : CmdOutcome) (s : State) :
    after (checkStatus status getOutcome outcome s) = s := by
  cases outcome with
  | ok => cases getOutcome <;> rfl
  | shellCmdError => rfl
  | sessionError => rfl

/-- Code that keeps the lines of the report and the fixed features. -/
def KeepsShape {α : Type} (m : Test α) : Prop := Moves (fun s s' => SameShape s.dev s'.dev) m

section KeepsShape

variable {α β : Type}

theorem shape_refl (s : State) : SameShape s.dev s.dev := .refl s.dev

theorem shape_trans (a b c : State) (hab : SameShape a.dev b.dev) (hbc : SameShape b.dev c.dev) :
    SameShape a.dev c.dev := hab.trans hbc

theorem keepsShape_bind {m : Test α} {f : α → Test β} (hm : KeepsShape m)
    (hf : ∀ a, KeepsShape (f a)) : KeepsShape (m >>= f) :=
  moves_bind shape_trans hm hf

theorem keepsShape_check (ok : Bool) (msg : String) : KeepsShape (check ok msg) := by
  refine moves_modify fun s => ?_
  cases ok <;> exact .refl _

theorem keepsShape_runCallback (outcome : CallOutcome) : KeepsShape (runCallback outcome) := by
  cases outcome with
  | passed => exact moves_pure shape_refl true
  | failed => exact moves_pure shape_refl false
  | raised => exact moves_throw shape_refl _

theorem keepsShape_ethtoolSet (status : Status) (env : SetEnv) :
    KeepsShape (ethtoolSet status env) := by
  refine keepsShape_bind (moves_liftExcept shape_refl _) fun fs => moves_get_bind fun s => ?_
  have hcheck := after_checkStatus status env.get (ethtoolK s.dev fs env.set).2
    { s with dev := (ethtoolK s.dev fs env.set).1 }
  show SameShape s.dev (after (checkStatus status env.get (ethtoolK s.dev fs env.set).2
    { s with dev := (ethtoolK s.dev fs env.set).1 })).dev
  rw [hcheck]
  exact sameShape_ethtoolK s.dev fs env.set

theorem keepsShape_testFeature (nicModel : String) (env : RoundEnv) (fType : String) :
    KeepsShape (testFeature nicModel env fType) := by
  refine keepsShape_bind (moves_liftExcept shape_refl _) fun f => ?_
  refine keepsShape_bind (keepsShape_ethtoolSet _ _) fun _ => ?_
  refine keepsShape_bind (keepsShape_check _ _) fun _ => ?_
  refine keepsShape_bind (keepsShape_runCallback _) fun _ => ?_
  refine keepsShape_bind (keepsShape_check _ _) fun _ => ?_
  refine keepsShape_bind (keepsShape_ethtoolSet _ _) fun _ => ?_
  refine keepsShape_bind (keepsShape_check _ _) fun _ => ?_
  exact keepsShape_bind (keepsShape_runCallback _) fun _ => keepsShape_check _ _

theorem keepsShape_tryBlock (env : Env) (supportedFeatures : List String) :
    KeepsShape (tryBlock env supportedFeatures) := by
  have hloop : KeepsShape (supportedFeatures.zipIdx.forM fun p =>
      testFeature env.nicModel (env.round p.2) p.1) :=
    moves_forM shape_refl shape_trans fun p => keepsShape_testFeature _ _ p.1
  refine keepsShape_bind hloop fun _ => ?_
  refine keepsShape_bind (moves_get shape_refl) fun _ => ?_
  exact moves_ite (moves_throw shape_refl _) (moves_pure shape_refl ())

end KeepsShape

/-! ## Restoring -/

/-- The command is built when every setting is known. -/
theorem flags_cases (entries : List (Feature × Option Switch)) :
    (∃ fs, flags entries = .ok fs ∧ entries = fs.map fun p => (p.1, some p.2)) ∨
      ((∃ p ∈ entries, p.2 = none) ∧ flags entries = .error .typeError) := by
  induction entries with
  | nil => exact .inl ⟨[], rfl, rfl⟩
  | cons p entries ih =>
      obtain ⟨f, v⟩ := p
      rw [flags, List.mapM_cons]
      cases v with
      | none => exact .inr ⟨⟨(f, none), List.mem_cons_self, rfl⟩, rfl⟩
      | some v =>
          rcases ih with ⟨fs, hfs, rfl⟩ | ⟨⟨p, hp, hnone⟩, herr⟩
          · refine .inl ⟨(f, v) :: fs, ?_, rfl⟩
            exact bind_of_eq_ok hfs _
          · refine .inr ⟨⟨p, List.mem_cons_of_mem _ hp, hnone⟩, ?_⟩
            rw [flags] at herr
            rw [herr]
            rfl

theorem entryOf_eq_none_iff {dev : Report} {f : Feature} :
    entryOf dev f = some none ↔ dev f = none := by
  rw [entryOf]
  cases dev f with
  | none => simp
  | some line => cases line.fixed <;> simp

/-- A feature without a line makes the saved settings unusable. -/
theorem flags_statusOf_error {dev : Report} {f : Feature} (h : dev f = none) :
    flags (statusOf dev).entries = .error .typeError := by
  have hmem : (f, none) ∈ (statusOf dev).entries := by
    rw [← Dict.get?_eq_some_iff, get?_statusOf, entryOf_eq_none_iff.mpr h]
  rcases flags_cases (statusOf dev).entries with ⟨fs, -, hentries⟩ | ⟨-, herr⟩
  · rw [hentries] at hmem
    obtain ⟨p, -, hp⟩ := List.mem_map.mp hmem
    cases hp
  · exact herr

/-- With a line for every feature, the command names the features that are not fixed,
with their settings. -/
theorem flags_statusOf_ok {dev : Report} (h : ∀ f, (dev f).isSome) :
    ∃ fs, flags (statusOf dev).entries = .ok fs ∧ (fs.map Prod.fst).Nodup ∧
      ∀ f v, (f, v) ∈ fs ↔ ∃ line, dev f = some line ∧ line.fixed = false ∧ line.value = v := by
  rcases flags_cases (statusOf dev).entries with ⟨fs, hfs, hentries⟩ | ⟨⟨⟨f, v⟩, hmem, hnone⟩, -⟩
  · refine ⟨fs, hfs, ?_, ?_⟩
    · have hkeys : fs.map Prod.fst = (statusOf dev).keys := by
        rw [Dict.keys, hentries, List.map_map]
        rfl
      rw [hkeys]
      exact Dict.nodup_keys _
    · intro f v
      have hiff : (f, v) ∈ fs ↔ (statusOf dev).get? f = some (some v) := by
        rw [Dict.get?_eq_some_iff, hentries, List.mem_map]
        simp
      rw [hiff, get?_statusOf, entryOf]
      cases hline : dev f with
      | none => simp
      | some line => cases hfix : line.fixed <;> simp [hfix]
  · cases hnone
    rw [← Dict.get?_eq_some_iff, get?_statusOf, entryOf_eq_none_iff] at hmem
    have hf := h f
    rw [hmem] at hf
    cases hf

theorem foldl_setFlag_other {fs : List (Feature × Switch)} {f : Feature}
    (h : f ∉ fs.map Prod.fst) (dev : Report) : fs.foldl setFlag dev f = dev f := by
  induction fs generalizing dev with
  | nil => rfl
  | cons p fs ih =>
      rw [List.map_cons, List.mem_cons, not_or] at h
      rw [List.foldl_cons, ih h.2, setFlag, if_neg h.1]

theorem foldl_setFlag {fs : List (Feature × Switch)} (nodup : (fs.map Prod.fst).Nodup)
    {f : Feature} {v : Switch} (h : (f, v) ∈ fs) (dev : Report) :
    fs.foldl setFlag dev f = (dev f).map fun line => { line with value := v } := by
  induction fs generalizing dev with
  | nil => cases h
  | cons p fs ih =>
      rw [List.map_cons, List.nodup_cons] at nodup
      rw [List.foldl_cons]
      rcases List.mem_cons.mp h with rfl | h
      · rw [foldl_setFlag_other nodup.1, setFlag, if_pos rfl]
      · have hne : f ≠ p.1 := by
          rintro rfl
          exact nodup.1 (List.mem_map.mpr ⟨_, h, rfl⟩)
        rw [ih nodup.2 h, setFlag, if_neg hne]

/-- The command that restores the settings, sent to a device that has the lines of the
first report. -/
theorem restored_foldl {dev dev' : Report} (h : SameShape dev dev') {fs : List (Feature × Switch)}
    (nodup : (fs.map Prod.fst).Nodup)
    (hfs : ∀ f v, (f, v) ∈ fs ↔ ∃ line, dev f = some line ∧ line.fixed = false ∧ line.value = v) :
    applicable dev' fs = true ∧ Restored dev (fs.foldl setFlag dev') := by
  have hline : ∀ f line, dev f = some line → ∃ line', dev' f = some line' ∧
      line'.fixed = line.fixed := by
    intro f line hf
    simpa [hf] using h f
  refine ⟨?_, ?_⟩
  · rw [applicable, List.all_eq_true]
    rintro ⟨f, v⟩ hp
    obtain ⟨line, hf, hfixed, -⟩ := (hfs f v).mp hp
    obtain ⟨line', hf', hfixed'⟩ := hline f line hf
    simp [hf', hfixed', hfixed]
  · intro f line hf hfixed
    obtain ⟨line', hf', -⟩ := hline f line hf
    rw [foldl_setFlag nodup ((hfs f line.value).mpr ⟨line, hf, hfixed, rfl⟩), hf']
    exact ⟨_, rfl, rfl⟩

theorem ethtoolSet_flags_error {status : Status} {env : SetEnv}
    (h : flags status.entries = .error .typeError) (s : State) :
    after (ethtoolSet status env s) = s := by
  have hflags : (liftExcept (flags status.entries) : Test _) s = .error .typeError s := by
    rw [h]
    rfl
  rw [ethtoolSet, bind_of_error hflags]
  rfl

/-- The device is as the command left it. -/
theorem dev_ethtoolSet {status : Status} {env : SetEnv} {fs : List (Feature × Switch)}
    (h : flags status.entries = .ok fs) (s : State) :
    (after (ethtoolSet status env s)).dev = (ethtoolK s.dev fs env.set).1 := by
  have hflags : (liftExcept (flags status.entries) : Test _) s = .ok fs s := by
    rw [h]
    rfl
  rw [ethtoolSet, bind_of_ok hflags]
  have hcheck := after_checkStatus status env.get (ethtoolK s.dev fs env.set).2
    { s with dev := (ethtoolK s.dev fs env.set).1 }
  exact congrArg State.dev hcheck

/-- The restoring call on a device whose settings have changed. -/
theorem restored_ethtoolSet_iff {dev : Report} {s : State} (env : SetEnv)
    (hshape : SameShape dev s.dev) (hchanged : ¬Restored dev s.dev) :
    Restored dev (after (ethtoolSet (statusOf dev) env s)).dev ↔
      (∀ f, (dev f).isSome) ∧ env.set = .ok := by
  by_cases hall : ∀ f, (dev f).isSome
  · obtain ⟨fs, hflags, nodup, hfs⟩ := flags_statusOf_ok hall
    obtain ⟨happ, hrestored⟩ := restored_foldl hshape nodup hfs
    rw [dev_ethtoolSet hflags]
    cases hset : env.set with
    | ok => simpa [ethtoolK, happ, hall] using hrestored
    | shellCmdError => simpa [ethtoolK] using hchanged
    | sessionError => simpa [ethtoolK] using hchanged
  · have habsent : ∃ f, dev f = none := by simpa using hall
    obtain ⟨f, hf⟩ := habsent
    rw [ethtoolSet_flags_error (flags_statusOf_error hf)]
    simp [hchanged, hall]

theorem after_run (env : Env) (supportedFeatures : List String) (s : State) :
    after (run env supportedFeatures s) =
      after (ethtoolRestoreParams (statusOf s.dev) env
        (after (tryBlock env supportedFeatures s))) := by
  rw [run]
  cases tryBlock env supportedFeatures s <;> rfl

/-- The settings cannot be read. -/
theorem after_restoreParams_raised {status : Status} {env : Env} (h : env.restoreGet ≠ .ok)
    (s : State) : after (ethtoolRestoreParams status env s) = s := by
  rw [ethtoolRestoreParams]
  cases hget : env.restoreGet with
  | ok => exact absurd hget h
  | shellCmdError => rfl
  | sessionError => rfl

theorem after_restoreParams_same {status : Status} {env : Env} {s : State}
    (hget : env.restoreGet = .ok) (h : Same (statusOf s.dev) status) :
    after (ethtoolRestoreParams status env s) = s := by
  have hread : ethtoolGet env.restoreGet s = .ok (statusOf s.dev) s := by
    rw [hget]
    rfl
  rw [ethtoolRestoreParams, bind_of_ok hread, if_neg (not_not.mpr h)]
  rfl

theorem after_restoreParams_changed {status : Status} {env : Env} {s : State}
    (hget : env.restoreGet = .ok) (h : ¬Same (statusOf s.dev) status) :
    after (ethtoolRestoreParams status env s) = after (ethtoolSet status env.restore s) := by
  have hread : ethtoolGet env.restoreGet s = .ok (statusOf s.dev) s := by
    rw [hget]
    rfl
  rw [ethtoolRestoreParams, bind_of_ok hread, if_pos h]
  exact after_bind_pure _ _ _

theorem restored_restoreParams_iff {dev : Report} {s : State} (env : Env)
    (hshape : SameShape dev s.dev) :
    Restored dev (after (ethtoolRestoreParams (statusOf dev) env s)).dev ↔
      Restored dev s.dev ∨
        ((∀ f, (dev f).isSome) ∧ env.restoreGet = .ok ∧ env.restore.set = .ok) := by
  by_cases hget : env.restoreGet = .ok
  · by_cases hsame : Same (statusOf s.dev) (statusOf dev)
    · have hrestored := (same_statusOf_iff hshape).mp hsame
      rw [after_restoreParams_same hget hsame]
      exact iff_of_true hrestored (.inl hrestored)
    · have hchanged : ¬Restored dev s.dev := fun h => hsame ((same_statusOf_iff hshape).mpr h)
      rw [after_restoreParams_changed hget hsame,
        restored_ethtoolSet_iff env.restore hshape hchanged]
      simp [hchanged, hget]
  · rw [after_restoreParams_raised hget]
    simp [hget]

/-- The settings are restored when there is nothing to restore, or when the report has a
line for each feature and the commands of the `finally` block succeed. -/
theorem restored_run_iff (env : Env) (supportedFeatures : List String) (dev : Report) :
    Restored dev (after (run env supportedFeatures ⟨dev, []⟩)).dev ↔
      Restored dev (after (tryBlock env supportedFeatures ⟨dev, []⟩)).dev ∨
        ((∀ f, (dev f).isSome) ∧ env.restoreGet = .ok ∧ env.restore.set = .ok) := by
  have hshape : SameShape dev (after (tryBlock env supportedFeatures ⟨dev, []⟩)).dev :=
    keepsShape_tryBlock env supportedFeatures ⟨dev, []⟩
  rw [after_run]
  exact restored_restoreParams_iff env hshape

/-- Every command and every callback succeeds. -/
def quiet : Env where
  nicModel := "virtio"
  round := fun _ => ⟨⟨.ok, .ok⟩, ⟨.ok, .ok⟩, fun _ _ => .passed⟩
  restore := ⟨.ok, .ok⟩
  restoreGet := .ok

/-- Every feature but `lro` has a line, and is on. -/
def withoutLro : Report := fun f => if f = .lro then none else some ⟨.on, false⟩

/-- Nothing fails in the test of `tx`, which is left switched off. -/
theorem not_restored_without_lro :
    ¬Restored withoutLro (after (run quiet ["tx"] ⟨withoutLro, []⟩)).dev := by
  intro h
  obtain ⟨line, hline, hvalue⟩ := h .tx ⟨.on, false⟩ (by decide) (by decide)
  have htx : (after (run quiet ["tx"] ⟨withoutLro, []⟩)).dev .tx = some ⟨.off, false⟩ := by
    decide
  cases htx.symm.trans hline
  cases hvalue

end TpQemu.Ethtool
