import Mathlib.Algebra.Order.Group.Unbundled.Abs
import Mathlib.Data.List.Perm.Basic
import TpQemu.Lib.Effects
import TpQemu.Throttle.Expected
import TpQemu.Throttle.Output

/-!
# The test of throttle groups

`run_fio`, `check_output`, `start_one_image_test`, `start_all_images_test` and `start` of
`ThrottleTester`, and `ThrottleGroupsTester.start`. The threads of the second part end in any
order. Nobody asks for their results, so where `run_fio` raises in a thread, the output of the
image stays the one it had before. `wait_empty_burst` between the two parts only sleeps.
-/

namespace TpQemu.Throttle

open Double

/-- What a guest does: the login gives a session, and the session the text of a command. -/
abbrev Guest := Except PyError (String → Except PyError (List Char))

/-- What is kept of an image. -/
structure ImageData (J : Type) where
  fioOption : String
  output : Dict Nat J

abbrev Images (J : Type) := Dict String (ImageData J)

/-- What the tests of a group have in common. -/
structure Setup (J : Type) where
  /-- The path of the fio that is set. -/
  fioPath : Option String
  expected : Expected
  loads : List Char → Except PyError J
  /-- `["jobs"][0]["read"]["iops"]` of a document. -/
  readIops : J → Except PyError ℚ
  writeIops : J → Except PyError ℚ

/-- One start: the guest for the first image alone, the guest for each image in the second part,
and the order in which the threads end. -/
structure Round where
  alone : Guest
  together : String → Guest
  finished : List String

/-- `_margin` -/
def margin : ℚ := toDouble (3 / 10)

/-- `abs(expected - measured) <= expected * self._margin` -/
def WithinMargin (expected : Int) (measured : ℚ) : Prop :=
  |toDouble (toDouble expected - measured)| ≤ toDouble (toDouble expected * margin)

instance (expected : Int) (measured : ℚ) : Decidable (WithinMargin expected measured) :=
  inferInstanceAs (Decidable (_ ≤ _))

namespace Setup

variable {J : Type} (c : Setup J)

/-- The expected rates of a table in sum. -/
def expectedTotal (key : String) : Except PyError Int := do
  let read ← orRaise .keyError (recorded c.expected key "read")
  let write ← orRaise .keyError (recorded c.expected key "write")
  let total ← orRaise .keyError (recorded c.expected key "total")
  return read + write + total

/-- `run_fio`; the output is recorded by the callers. -/
def runFio (guest : Guest) (fioOption : String) : Except PyError (Dict Nat J) := do
  let fioPath ← orRaise (.testError "Please set fio first") c.fioPath
  let session ← guest
  let cmd := fioPath ++ " " ++ fioOption
  let expectedBurst ← c.expectedTotal "burst"
  let out ← session (if expectedBurst ≠ 0 then cmd ++ " && " ++ cmd else cmd)
  generateOutputByJson c.loads out

/-- The rate of sample `n` in both directions. -/
def totalIops (output : Dict Nat J) (n : Nat) : Except PyError ℚ := do
  let sample ← orRaise .keyError (output.get? n)
  let read ← c.readIops sample
  let write ← c.writeIops sample
  return toDouble (read + write)

/-- The check of the number of samples. -/
def needSamples (numSamples n : Nat) : Except PyError Unit :=
  if numSamples < n then
    .error (.testError
      ("At lease " ++ Numeral.decimal n ++ " Data samples:" ++ Numeral.decimal numSamples))
  else .ok ()

/-- One round of the loop of `check_output`, with the sums of the bursts and of the rest. -/
def addOutput (expectedBurst : Int) (images : Images J) (sums : ℚ × ℚ) (image : String) :
    Except PyError (ℚ × ℚ) := do
  let imageInfo ← orRaise .keyError (images.get? image)
  let output := imageInfo.output
  let numSamples := output.entries.length
  if expectedBurst ≠ 0 then do
    needSamples numSamples 2
    let burst ← c.totalIops output 1
    let normal ← c.totalIops output numSamples
    return (toDouble (sums.1 + burst), toDouble (sums.2 + normal))
  else do
    needSamples numSamples 1
    let normal ← c.totalIops output numSamples
    return (sums.1, toDouble (sums.2 + normal))

/-- `check_output` -/
def checkOutput (names : List String) (images : Images J) : Except PyError Bool := do
  let expectedBurst ← c.expectedTotal "burst"
  let expectedNormal ← c.expectedTotal "normal"
  if expectedNormal = 0 then return true
  else do
    let (sumBurst, sumNormal) ← names.foldlM (c.addOutput expectedBurst images) (0, 0)
    if expectedBurst ≠ 0 ∧ ¬WithinMargin expectedBurst sumBurst then
      -- `Test.fail` takes one message, not a format with its values
      .error .typeError
    else if WithinMargin expectedNormal sumNormal then return true
    else .error (.testFail ("Failed normal " ++ Numeral.decimal expectedNormal ++ " " ++
      Numeral.decimal (truncate sumNormal)))

/-- `start_one_image_test` -/
def startOneImageTest (guest : Guest) (image : String) : EStateM PyError (Images J) Bool := do
  let imageInfo ← liftExcept (orRaise .keyError ((← get).get? image))
  let output ← liftExcept (c.runFio guest imageInfo.fioOption)
  modify fun images => images.set image { imageInfo with output }
  liftExcept (c.checkOutput [image] (← get))

/-- The thread of an image ends. -/
def finish (together : String → Guest) (images : Images J) (image : String) : Images J :=
  match images.get? image with
  | none => images
  | some imageInfo =>
      match c.runFio (together image) imageInfo.fioOption with
      | .ok output => images.set image { imageInfo with output }
      | .error _ => images

/-- `start_all_images_test` -/
def startAllImagesTest (names : List String) (round : Round) :
    EStateM PyError (Images J) Bool := do
  let images ← get
  liftExcept (names.forM fun image => do
    let _ ← orRaise .keyError (images.get? image))
  modify fun images => round.finished.foldl (c.finish round.together) images
  liftExcept (c.checkOutput names (← get))

/-- `start` -/
def start (names : List String) (round : Round) : EStateM PyError (Images J) Bool :=
  match names with
  | [] => pure false
  | image :: _ => do
      let ret ← c.startOneImageTest round.alone image
      if ret ∧ 1 < names.length then c.startAllImagesTest names round else pure ret

/-- The same tester is started again and again, until a start raises. -/
def repeatTest (names : List String) (rounds : List Round) : EStateM PyError (Images J) Unit :=
  rounds.forM fun round => do
    let _ ← c.start names round

end Setup

inductive GroupsError where
  /-- A `ThreadPool` has at least one thread. -/
  | valueError
  /-- `Throttle testing failed,please check log.` -/
  | throttleError

/-- `ThrottleGroupsTester.start`, with the group of each tester and the outcome of its `start`. -/
def startGroups (testers : List (String × Except PyError Bool)) : Except GroupsError Unit :=
  if testers = [] then .error .valueError
  else
    let results : Dict String (Except PyError Bool) :=
      testers.foldl (fun results tester => results.set tester.1 tester.2) ∅
    let success := results.entries.foldl
      (fun success result => if result.2.isOk then success else false) true
    if success then .ok () else .error .throttleError

/-! ## What is checked -/

section Check

variable {J : Type} {c : Setup J}

/-- Rates summed up one after the other. -/
def total (rates : List ℚ) : ℚ := rates.foldl (fun sum rate => toDouble (sum + rate)) 0

/-- The images reach the expected rates, those of the first samples too if a burst is expected. -/
def Setup.Reaches (c : Setup J) (burst normal : Int) (outputs : List (Dict Nat J)) : Prop :=
  if burst = 0 then
    ∃ rates, List.Forall₂ (fun output rate => 1 ≤ output.entries.length ∧
        c.totalIops output output.entries.length = .ok rate) outputs rates ∧
      WithinMargin normal (total rates)
  else
    ∃ rates : List (ℚ × ℚ), List.Forall₂ (fun output rate => 2 ≤ output.entries.length ∧
        c.totalIops output 1 = .ok rate.1 ∧
        c.totalIops output output.entries.length = .ok rate.2) outputs rates ∧
      WithinMargin burst (total (rates.map Prod.fst)) ∧
      WithinMargin normal (total (rates.map Prod.snd))

/-- The outputs agree with what is expected of the group. -/
def Setup.Agrees (c : Setup J) (outputs : List (Dict Nat J)) : Prop :=
  ∃ burst normal, c.expectedTotal "burst" = .ok burst ∧ c.expectedTotal "normal" = .ok normal ∧
    (normal = 0 ∨ c.Reaches burst normal outputs)

/-- The images have these options and outputs. -/
def Holds (names : List String) (options : String → String) (outputs : String → Dict Nat J)
    (images : Images J) : Prop :=
  ∀ image ∈ names, images.get? image = some ⟨options image, outputs image⟩

theorem needSamples_eq_ok_iff {numSamples n : Nat} :
    Setup.needSamples numSamples n = .ok () ↔ n ≤ numSamples := by
  rw [Setup.needSamples]
  split
  · exact iff_of_false nofun (by omega)
  · exact iff_of_true rfl (by omega)

theorem foldl_pair (rates : List (ℚ × ℚ)) (sums : ℚ × ℚ) :
    rates.foldl (fun sums rate => (toDouble (sums.1 + rate.1), toDouble (sums.2 + rate.2))) sums =
      ((rates.map Prod.fst).foldl (fun sum rate => toDouble (sum + rate)) sums.1,
        (rates.map Prod.snd).foldl (fun sum rate => toDouble (sum + rate)) sums.2) := by
  induction rates generalizing sums with
  | nil => rfl
  | cons rate rates ih => exact ih _

theorem foldl_snd (rates : List ℚ) (sums : ℚ × ℚ) :
    rates.foldl (fun sums rate => (sums.1, toDouble (sums.2 + rate))) sums =
      (sums.1, rates.foldl (fun sum rate => toDouble (sum + rate)) sums.2) := by
  induction rates generalizing sums with
  | nil => rfl
  | cons rate rates ih => exact ih _

section Sums

variable {names : List String} {options : String → String} {outputs : String → Dict Nat J}
  {images : Images J} {image : String} {burst : Int} {sums sums' : ℚ × ℚ}

theorem addOutput_of_burst (hburst : burst ≠ 0)
    (himage : images.get? image = some ⟨options image, outputs image⟩) :
    c.addOutput burst images sums image = .ok sums' ↔
      ∃ rate : ℚ × ℚ, (2 ≤ (outputs image).entries.length ∧
          c.totalIops (outputs image) 1 = .ok rate.1 ∧
          c.totalIops (outputs image) (outputs image).entries.length = .ok rate.2) ∧
        sums' = (toDouble (sums.1 + rate.1), toDouble (sums.2 + rate.2)) := by
  rw [Setup.addOutput, himage, orRaise_some, bind_of_eq_ok rfl, if_pos hburst]
  constructor
  · intro h
    obtain ⟨_, hsamples, h⟩ := ok_of_bind_eq_ok h
    obtain ⟨first, hfirst, h⟩ := ok_of_bind_eq_ok h
    obtain ⟨normal, hnormal, h⟩ := ok_of_bind_eq_ok h
    exact ⟨(first, normal), ⟨needSamples_eq_ok_iff.mp hsamples, hfirst, hnormal⟩,
      (Except.ok.inj h).symm⟩
  · rintro ⟨rate, ⟨hsamples, hfirst, hnormal⟩, rfl⟩
    rw [bind_of_eq_ok (needSamples_eq_ok_iff.mpr hsamples), bind_of_eq_ok hfirst,
      bind_of_eq_ok hnormal]
    rfl

theorem addOutput_of_no_burst
    (himage : images.get? image = some ⟨options image, outputs image⟩) :
    c.addOutput 0 images sums image = .ok sums' ↔
      ∃ rate : ℚ, (1 ≤ (outputs image).entries.length ∧
          c.totalIops (outputs image) (outputs image).entries.length = .ok rate) ∧
        sums' = (sums.1, toDouble (sums.2 + rate)) := by
  rw [Setup.addOutput, himage, orRaise_some, bind_of_eq_ok rfl, if_neg (not_not_intro rfl)]
  constructor
  · intro h
    obtain ⟨_, hsamples, h⟩ := ok_of_bind_eq_ok h
    obtain ⟨normal, hnormal, h⟩ := ok_of_bind_eq_ok h
    exact ⟨normal, ⟨needSamples_eq_ok_iff.mp hsamples, hnormal⟩, (Except.ok.inj h).symm⟩
  · rintro ⟨rate, ⟨hsamples, hnormal⟩, rfl⟩
    rw [bind_of_eq_ok (needSamples_eq_ok_iff.mpr hsamples), bind_of_eq_ok hnormal]
    rfl

theorem foldlM_addOutput_of_burst (hburst : burst ≠ 0)
    (himages : Holds names options outputs images) :
    names.foldlM (c.addOutput burst images) (0, 0) = .ok sums ↔
      ∃ rates : List (ℚ × ℚ), List.Forall₂ (fun output rate => 2 ≤ output.entries.length ∧
          c.totalIops output 1 = .ok rate.1 ∧
          c.totalIops output output.entries.length = .ok rate.2) (names.map outputs) rates ∧
        sums = (total (rates.map Prod.fst), total (rates.map Prod.snd)) := by
  rw [foldlM_eq_ok_iff fun image hmem sums sums' =>
    (addOutput_of_burst hburst (himages image hmem) :
      c.addOutput burst images sums image = .ok sums' ↔ _)]
  simp only [List.forall₂_map_left_iff, foldl_pair, total]

theorem foldlM_addOutput_of_no_burst (himages : Holds names options outputs images) :
    names.foldlM (c.addOutput 0 images) (0, 0) = .ok sums ↔
      ∃ rates, List.Forall₂ (fun output rate => 1 ≤ output.entries.length ∧
          c.totalIops output output.entries.length = .ok rate) (names.map outputs) rates ∧
        sums = (0, total rates) := by
  rw [foldlM_eq_ok_iff fun image hmem sums sums' =>
    (addOutput_of_no_burst (himages image hmem) :
      c.addOutput 0 images sums image = .ok sums' ↔ _)]
  simp only [List.forall₂_map_left_iff, foldl_snd, total]

/-- The loop of `check_output` goes through with two sums. -/
theorem reaches_iff {normal : Int} (himages : Holds names options outputs images) :
    c.Reaches burst normal (names.map outputs) ↔
      ∃ sums, names.foldlM (c.addOutput burst images) (0, 0) = .ok sums ∧
        ¬(burst ≠ 0 ∧ ¬WithinMargin burst sums.1) ∧ WithinMargin normal sums.2 := by
  rw [Setup.Reaches]
  by_cases hburst : burst = 0
  · subst hburst
    rw [if_pos rfl]
    simp only [foldlM_addOutput_of_no_burst himages]
    constructor
    · rintro ⟨rates, hrates, hnormal⟩
      exact ⟨_, ⟨rates, hrates, rfl⟩, fun h => h.1 rfl, hnormal⟩
    · rintro ⟨_, ⟨rates, hrates, rfl⟩, -, hnormal⟩
      exact ⟨rates, hrates, hnormal⟩
  · rw [if_neg hburst]
    simp only [foldlM_addOutput_of_burst hburst himages]
    constructor
    · rintro ⟨rates, hrates, hfirst, hnormal⟩
      exact ⟨_, ⟨rates, hrates, rfl⟩, fun h => h.2 hfirst, hnormal⟩
    · rintro ⟨_, ⟨rates, hrates, rfl⟩, hfirst, hnormal⟩
      exact ⟨rates, hrates, not_not.mp fun hnot => hfirst ⟨hburst, hnot⟩, hnormal⟩

theorem checkOutput_eq_ok_iff (himages : Holds names options outputs images) {b : Bool} :
    c.checkOutput names images = .ok b ↔ b = true ∧ c.Agrees (names.map outputs) := by
  rw [Setup.checkOutput]
  constructor
  · intro h
    obtain ⟨burst, hburst, h⟩ := ok_of_bind_eq_ok h
    obtain ⟨normal, hnormal, h⟩ := ok_of_bind_eq_ok h
    suffices b = true ∧ (normal = 0 ∨ c.Reaches burst normal (names.map outputs)) from
      ⟨this.1, burst, normal, hburst, hnormal, this.2⟩
    split at h
    · exact ⟨(Except.ok.inj h).symm, .inl ‹_›⟩
    · obtain ⟨⟨sumBurst, sumNormal⟩, hrun, h⟩ := ok_of_bind_eq_ok h
      dsimp only at h
      split at h
      · cases h
      · split at h
        · exact ⟨(Except.ok.inj h).symm, .inr ((reaches_iff himages).mpr ⟨_, hrun, ‹_›, ‹_›⟩)⟩
        · cases h
  · rintro ⟨rfl, burst, normal, hburst, hnormal, hreaches⟩
    rw [bind_of_eq_ok hburst, bind_of_eq_ok hnormal]
    by_cases hzero : normal = 0
    · rw [if_pos hzero]
      rfl
    · obtain ⟨⟨sumBurst, sumNormal⟩, hrun, hfirst, hrest⟩ :=
        (reaches_iff himages).mp (hreaches.resolve_left hzero)
      rw [if_neg hzero, bind_of_eq_ok hrun]
      dsimp only
      rw [if_neg hfirst, if_pos hrest]
      rfl

end Sums

end Check

/-! ## One start -/

section Start

variable {J : Type} {c : Setup J} {options : String → String} {outputs : String → Dict Nat J}
  {images images' : Images J} {round : Round}

/-- What is kept of an image after a thread of it. -/
def latest (run : Except PyError (Dict Nat J)) (output : Dict Nat J) : Dict Nat J :=
  match run with
  | .ok output => output
  | .error _ => output

/-- The outputs after a start that passes: those of the first image alone, and then, if there are
others, those of the threads. -/
def Setup.after (c : Setup J) (options : String → String) (first : String) (rest : List String)
    (outputs : String → Dict Nat J) (round : Round) : String → Dict Nat J :=
  let outputs := Function.update outputs first
    (latest (c.runFio round.alone (options first)) (outputs first))
  if rest = [] then outputs
  else fun image => latest (c.runFio (round.together image) (options image)) (outputs image)

/-- What it takes for a start to pass. -/
structure Setup.Passes (c : Setup J) (options : String → String) (first : String)
    (rest : List String) (outputs : String → Dict Nat J) (round : Round) : Prop where
  alone : ∃ output, c.runFio round.alone (options first) = .ok output ∧ c.Agrees [output]
  together : rest ≠ [] → c.Agrees ((first :: rest).map (c.after options first rest outputs round))

theorem finish_get?_self {together : String → Guest} {image : String}
    (himage : images.get? image = some ⟨options image, outputs image⟩) :
    (c.finish together images image).get? image = some ⟨options image,
      latest (c.runFio (together image) (options image)) (outputs image)⟩ := by
  rw [Setup.finish, himage]
  cases hrun : c.runFio (together image) (options image) with
  | ok output =>
      simp only [hrun]
      exact Dict.get?_set_self _ _ _
  | error e =>
      simp only [hrun]
      exact himage

theorem finish_get?_ne {together : String → Guest} {image other : String} (hne : other ≠ image) :
    (c.finish together images image).get? other = images.get? other := by
  rw [Setup.finish]
  split
  · rfl
  · split
    · exact Dict.get?_set_ne _ hne _
    · rfl

/-- Every thread has ended, in whatever order. -/
theorem foldl_finish_get? {together : String → Guest} {finished : List String}
    (hnodup : finished.Nodup) {image : String} (hmem : image ∈ finished)
    (himage : images.get? image = some ⟨options image, outputs image⟩) :
    (finished.foldl (c.finish together) images).get? image = some ⟨options image,
      latest (c.runFio (together image) (options image)) (outputs image)⟩ := by
  have hother : ∀ (finished : List String) (images : Images J), image ∉ finished →
      (finished.foldl (c.finish together) images).get? image = images.get? image := by
    intro finished
    induction finished with
    | nil => exact fun images _ => rfl
    | cons other finished ih =>
        intro images hnot
        obtain ⟨hne, hnot⟩ := List.ne_and_not_mem_of_not_mem_cons hnot
        rw [List.foldl_cons, ih _ hnot, finish_get?_ne hne]
  induction finished generalizing images with
  | nil => cases hmem
  | cons other finished ih =>
      obtain ⟨hnot, hnodup⟩ := List.nodup_cons.mp hnodup
      rw [List.foldl_cons]
      by_cases heq : image = other
      · subst heq
        rw [hother _ _ hnot, finish_get?_self himage]
      · exact ih hnodup ((List.mem_cons.mp hmem).resolve_left heq)
          (by rw [finish_get?_ne heq, himage])

section Parts

variable {names : List String} {first : String} {rest : List String} {b : Bool}

theorem startOneImageTest_eq_ok_iff (hnames : first ∈ names)
    (himages : Holds names options outputs images) :
    c.startOneImageTest round.alone first images = .ok b images' ↔
      b = true ∧ ∃ output, c.runFio round.alone (options first) = .ok output ∧
        images' = images.set first ⟨options first, output⟩ ∧ c.Agrees [output] := by
  have hfirst := himages first hnames
  have hsingle (output : Dict Nat J) : Holds [first] options (fun _ => output)
      (images.set first ⟨options first, output⟩) := by
    intro image hmem
    obtain rfl := List.mem_singleton.mp hmem
    exact Dict.get?_set_self _ _ _
  rw [Setup.startOneImageTest, get_bind, liftExcept_bind_eq_ok_iff]
  simp only [liftExcept_bind_eq_ok_iff, modify_bind, get_bind, liftExcept_eq_ok_iff, orRaise_eq_ok]
  constructor
  · rintro ⟨imageInfo, hinfo, output, hrun, hcheck, rfl⟩
    rw [hfirst] at hinfo
    cases hinfo
    obtain ⟨rfl, hagrees⟩ := (checkOutput_eq_ok_iff (hsingle output)).mp hcheck
    exact ⟨rfl, output, hrun, rfl, hagrees⟩
  · rintro ⟨rfl, output, hrun, rfl, hagrees⟩
    exact ⟨_, hfirst, output, hrun,
      (checkOutput_eq_ok_iff (hsingle output)).mpr ⟨rfl, hagrees⟩, rfl⟩

/-- Every image is found when its thread is started. -/
theorem forM_get?_eq_ok (himages : Holds names options outputs images) :
    (names.forM fun image => do
      let _ ← orRaise .keyError (images.get? image)) = (.ok () : Except PyError Unit) := by
  induction names with
  | nil => rfl
  | cons image names ih =>
      obtain ⟨himage, himages⟩ := List.forall_mem_cons.mp himages
      exact (bind_of_eq_ok (bind_return_eq_ok.mpr ⟨_, orRaise_eq_ok.mpr himage⟩) _).trans
        (ih himages)

theorem startAllImagesTest_eq_ok_iff (hnodup : names.Nodup) (horder : round.finished.Perm names)
    (himages : Holds names options outputs images) :
    c.startAllImagesTest names round images = .ok b images' ↔
      b = true ∧ images' = round.finished.foldl (c.finish round.together) images ∧
        c.Agrees (names.map fun image =>
          latest (c.runFio (round.together image) (options image)) (outputs image)) := by
  have hended : Holds names options
      (fun image => latest (c.runFio (round.together image) (options image)) (outputs image))
      (round.finished.foldl (c.finish round.together) images) := fun image hmem =>
    foldl_finish_get? (horder.nodup_iff.mpr hnodup) (horder.mem_iff.mpr hmem) (himages image hmem)
  rw [Setup.startAllImagesTest, get_bind, liftExcept_bind_eq_ok_iff]
  simp only [modify_bind, get_bind, liftExcept_eq_ok_iff, checkOutput_eq_ok_iff hended]
  constructor
  · rintro ⟨-, -, ⟨rfl, hagrees⟩, rfl⟩
    exact ⟨rfl, rfl, hagrees⟩
  · rintro ⟨rfl, rfl, hagrees⟩
    exact ⟨(), forM_get?_eq_ok himages, ⟨rfl, hagrees⟩, rfl⟩

theorem holds_set (himages : Holds names options outputs images) (first : String)
    (output : Dict Nat J) :
    Holds names options (Function.update outputs first output)
      (images.set first ⟨options first, output⟩) := by
  intro image hmem
  by_cases heq : image = first
  · subst heq
    rw [Dict.get?_set_self, Function.update_self]
  · rw [Dict.get?_set_ne _ heq, Function.update_of_ne heq, himages image hmem]

theorem after_of_ok {output : Dict Nat J}
    (hrun : c.runFio round.alone (options first) = .ok output) :
    c.after options first rest outputs round =
      if rest = [] then Function.update outputs first output
      else fun image => latest (c.runFio (round.together image) (options image))
        (Function.update outputs first output image) := by
  rw [Setup.after, hrun]
  rfl

theorem start_of_ok (hone : c.startOneImageTest round.alone first images = .ok true images') :
    c.start (first :: rest) round images =
      if rest = [] then .ok true images'
      else c.startAllImagesTest (first :: rest) round images' := by
  refine (bind_of_ok hone _).trans ?_
  cases rest with
  | nil => rfl
  | cons second rest => rfl

section Whole

variable (hnodup : (first :: rest).Nodup) (horder : round.finished.Perm (first :: rest))
  (himages : Holds (first :: rest) options outputs images)

include hnodup horder himages

/-- A start that returns has passed, and the outputs are those of the images that ran. -/
theorem start_eq_ok (h : c.start (first :: rest) round images = .ok b images') :
    c.Passes options first rest outputs round ∧
      Holds (first :: rest) options (c.after options first rest outputs round) images' := by
  obtain ⟨ret, _, hone, -⟩ := ok_of_bind h
  obtain ⟨rfl, output, hrun, rfl, hagrees⟩ :=
    (startOneImageTest_eq_ok_iff List.mem_cons_self himages).mp hone
  rw [start_of_ok hone] at h
  have hset := holds_set himages first output
  rw [after_of_ok hrun]
  by_cases hrest : rest = []
  · rw [if_pos hrest] at h ⊢
    cases h
    exact ⟨⟨⟨output, hrun, hagrees⟩, fun hne => absurd hrest hne⟩, hset⟩
  · rw [if_neg hrest] at h ⊢
    obtain ⟨-, rfl, htogether⟩ := (startAllImagesTest_eq_ok_iff hnodup horder hset).mp h
    refine ⟨⟨⟨output, hrun, hagrees⟩, fun _ => ?_⟩, fun image hmem => ?_⟩
    · rw [after_of_ok hrun, if_neg hrest]
      exact htogether
    · exact foldl_finish_get? (horder.nodup_iff.mpr hnodup) (horder.mem_iff.mpr hmem)
        (hset image hmem)

theorem exists_start_eq_ok (h : c.Passes options first rest outputs round) :
    ∃ images', c.start (first :: rest) round images = .ok true images' := by
  obtain ⟨output, hrun, hagrees⟩ := h.alone
  have hone := (startOneImageTest_eq_ok_iff List.mem_cons_self himages).mpr
    ⟨rfl, output, hrun, rfl, hagrees⟩
  have hset := holds_set himages first output
  rw [start_of_ok hone]
  by_cases hrest : rest = []
  · exact ⟨_, if_pos hrest⟩
  · have htogether := h.together hrest
    rw [after_of_ok hrun, if_neg hrest] at htogether
    rw [if_neg hrest]
    exact ⟨_, (startAllImagesTest_eq_ok_iff hnodup horder hset).mpr ⟨rfl, rfl, htogether⟩⟩

end Whole

end Parts

end Start

/-! ## Starts one after the other -/

section Repeated

variable {J : Type} {c : Setup J} {options : String → String} {first : String}
  {rest : List String}

/-- The outputs after some starts. -/
def Setup.afterAll (c : Setup J) (options : String → String) (first : String)
    (rest : List String) (outputs : String → Dict Nat J) (rounds : List Round) :
    String → Dict Nat J :=
  rounds.foldl (c.after options first rest) outputs

theorem repeatTest_of_ok {names : List String} {round : Round} {images images' : Images J}
    {b : Bool} (h : c.start names round images = .ok b images') (rounds : List Round) :
    c.repeatTest names (round :: rounds) images = c.repeatTest names rounds images' := by
  have hround : (c.start names round >>= fun _ => (pure () : EStateM PyError (Images J) Unit))
      images = .ok () images' := by
    rw [bind_of_ok h]
    rfl
  exact bind_of_ok hround _

/-- A tester that is started several times passes exactly if in each of the starts the first image
passes alone, and the outputs of all images pass, where an image that did not run to its end in
this start counts with its output from the latest time it did. It does not matter in what order
the threads end. -/
theorem repeatTest_passes_iff (hnodup : (first :: rest).Nodup) {rounds : List Round}
    (horder : ∀ round ∈ rounds, round.finished.Perm (first :: rest))
    {outputs : String → Dict Nat J} {images : Images J}
    (himages : Holds (first :: rest) options outputs images) :
    (∃ images', c.repeatTest (first :: rest) rounds images = .ok () images') ↔
      ∀ k (hk : k < rounds.length), c.Passes options first rest
        (c.afterAll options first rest outputs (rounds.take k)) rounds[k] := by
  induction rounds generalizing outputs images with
  | nil => exact iff_of_true ⟨images, rfl⟩ fun k hk => absurd hk (Nat.not_lt_zero k)
  | cons round rounds ih =>
      obtain ⟨hround, hrounds⟩ := List.forall_mem_cons.mp horder
      constructor
      · rintro ⟨images', h⟩
        obtain ⟨_, s, hstart, h⟩ := ok_of_bind h
        obtain ⟨b, s, hstart, hret⟩ := ok_of_bind hstart
        cases hret
        obtain ⟨hpasses, hholds⟩ := start_eq_ok hnodup hround himages hstart
        intro k hk
        cases k with
        | zero => exact hpasses
        | succ k =>
            exact (ih hrounds hholds).mp ⟨images', h⟩ k (Nat.lt_of_succ_lt_succ hk)
      · intro h
        obtain ⟨s, hstart⟩ := exists_start_eq_ok hnodup hround himages (h 0 (Nat.succ_pos _))
        have hholds := (start_eq_ok hnodup hround himages hstart).2
        obtain ⟨images', hrest⟩ := (ih hrounds hholds).mpr fun k hk =>
          h (k + 1) (Nat.succ_lt_succ hk)
        exact ⟨images', (repeatTest_of_ok hstart rounds).trans hrest⟩

end Repeated

/-- What fio prints for one job that only reads. -/
def printed (iops : String) : List Char :=
  ("\x7b\n\"jobs\": [\x7b\"read\": \x7b\"iops\": " ++ iops ++
    "\x7d, \"write\": \x7b\"iops\": 0.0\x7d\x7d]\n\x7d\n").toList

/-- A group for 100 operations, with the two rates for a document. -/
def hundred : Setup (ℚ × ℚ) where
  fioPath := some "/usr/bin/fio"
  expected := expectedOf (fun | .total => 100 | _ => 0) (fun _ => 0) 0 0
  loads text :=
    if text = printed "100.0" then .ok (100, 0)
    else if text = printed "50.0" then .ok (50, 0)
    else .error .valueError
  readIops rates := .ok rates.1
  writeIops rates := .ok rates.2

/-- A guest whose fio prints this. -/
def prints (iops : String) : Guest := .ok fun _ => .ok (printed iops)

theorem hundred_agrees : hundred.Agrees [Dict.empty.set 1 (100, 0)] := by
  refine ⟨0, 100, rfl, rfl, .inr ?_⟩
  rw [Setup.Reaches, if_pos rfl]
  exact ⟨[toDouble (100 + 0)], .cons ⟨by decide, rfl⟩ .nil, by decide +kernel⟩

/-- The fio of `stg2` fails in the second start, and the output of the first one counts again. -/
theorem repeatTest_passes_stale :
    ∃ images', hundred.repeatTest ["stg1", "stg2"]
      [⟨prints "100.0", fun _ => prints "50.0", ["stg2", "stg1"]⟩,
        ⟨prints "100.0",
          fun image => if image = "stg2" then .error .runtimeError else prints "50.0",
          ["stg1", "stg2"]⟩]
      ((Dict.empty.set "stg1" ⟨"", ∅⟩).set "stg2" ⟨"", ∅⟩) = .ok () images' := by
  have htogether : hundred.Agrees [Dict.empty.set 1 (50, 0), Dict.empty.set 1 (50, 0)] := by
    refine ⟨0, 100, rfl, rfl, .inr ?_⟩
    rw [Setup.Reaches, if_pos rfl]
    exact ⟨[toDouble (50 + 0), toDouble (50 + 0)], .cons ⟨by decide, rfl⟩
      (.cons ⟨by decide, rfl⟩ .nil), by decide +kernel⟩
  have himages : Holds ["stg1", "stg2"] (fun _ => "") (fun _ => (∅ : Dict Nat (ℚ × ℚ)))
      ((Dict.empty.set "stg1" ⟨"", ∅⟩).set "stg2" ⟨"", ∅⟩) :=
    List.forall_mem_cons.mpr ⟨rfl, List.forall_mem_singleton.mpr rfl⟩
  refine (repeatTest_passes_iff (by decide) ?_ himages).mpr fun k hk => ?_
  · exact List.forall_mem_cons.mpr ⟨by decide, List.forall_mem_singleton.mpr (by decide)⟩
  · match k, hk with
    | 0, _ => exact ⟨⟨_, rfl, hundred_agrees⟩, fun _ => htogether⟩
    | 1, _ => exact ⟨⟨_, rfl, hundred_agrees⟩, fun _ => htogether⟩

/-! ## Groups -/

section Groups

variable {testers : List (String × Except PyError Bool)}

/-- The result of a group is that of its last tester, or the one from before. -/
theorem get?_results {group : String} {result : Except PyError Bool}
    (results : Dict String (Except PyError Bool)) :
    (testers.foldl (fun results tester => results.set tester.1 tester.2) results).get? group =
        some result ↔
      (∃ before after, testers = before ++ (group, result) :: after ∧
        group ∉ after.map Prod.fst) ∨
      group ∉ testers.map Prod.fst ∧ results.get? group = some result := by
  induction testers generalizing results with
  | nil => simp
  | cons tester testers ih =>
      rw [List.foldl_cons, ih]
      constructor
      · rintro (⟨before, after, rfl, hnot⟩ | ⟨hnot, hget⟩)
        · exact .inl ⟨tester :: before, after, rfl, hnot⟩
        · obtain ⟨rfl, rfl⟩ | ⟨hne, hget⟩ := Dict.get?_set_cases hget
          · exact .inl ⟨[], testers, rfl, hnot⟩
          · exact .inr ⟨List.not_mem_cons_of_ne_of_not_mem hne hnot, hget⟩
      · rintro (⟨before, after, h, hnot⟩ | ⟨hnot, hget⟩)
        · cases before with
          | nil =>
              cases h
              exact .inr ⟨hnot, Dict.get?_set_self _ _ _⟩
          | cons first before =>
              cases h
              exact .inl ⟨before, after, rfl, hnot⟩
        · obtain ⟨hne, hnot⟩ := List.ne_and_not_mem_of_not_mem_cons hnot
          exact .inr ⟨hnot, by rw [Dict.get?_set_ne _ hne, hget]⟩

theorem isOk_iff {result : Except PyError Bool} : result.isOk = true ↔ ∃ b, result = .ok b := by
  cases result with
  | error e => exact iff_of_false nofun nofun
  | ok b => exact iff_of_true rfl ⟨b, rfl⟩

theorem foldl_success (results : List (String × Except PyError Bool)) :
    results.foldl (fun success result => if result.2.isOk then success else false) true =
      results.all (·.2.isOk) := by
  have hfalse : ∀ results : List (String × Except PyError Bool),
      results.foldl (fun success result => if result.2.isOk then success else false) false =
        false := by
    intro results
    induction results with
    | nil => rfl
    | cons result results ih => rw [List.foldl_cons, ite_self, ih]
  induction results with
  | nil => rfl
  | cons result results ih =>
      rw [List.foldl_cons, List.all_cons]
      cases result.2.isOk with
      | true => exact ih
      | false => exact hfalse results

/-- The last tester of each group does not raise. -/
theorem startGroups_eq_ok_iff :
    startGroups testers = .ok () ↔ testers ≠ [] ∧
      ∀ before group result after, testers = before ++ (group, result) :: after →
        group ∉ after.map Prod.fst → ∃ b, result = .ok b := by
  rw [startGroups]
  by_cases hnil : testers = []
  · rw [if_pos hnil]
    exact iff_of_false nofun fun h => h.1 hnil
  · rw [if_neg hnil]
    dsimp only
    rw [foldl_success]
    have hsuccess : ((testers.foldl (fun results tester => results.set tester.1 tester.2)
        (∅ : Dict String (Except PyError Bool))).entries.all (·.2.isOk)) = true ↔
        ∀ before group result after, testers = before ++ (group, result) :: after →
          group ∉ after.map Prod.fst → ∃ b, result = .ok b := by
      rw [List.all_eq_true]
      constructor
      · intro h before group result after hsplit hnot
        have hget := (get?_results ∅).mpr (.inl ⟨before, after, hsplit, hnot⟩)
        exact isOk_iff.mp (h _ (Dict.get?_eq_some_iff.mp hget))
      · rintro h ⟨group, result⟩ hmem
        obtain ⟨before, after, hsplit, hnot⟩ | ⟨-, hnone⟩ :=
          (get?_results ∅).mp (Dict.get?_eq_some_iff.mpr hmem)
        · exact isOk_iff.mpr (h before group result after hsplit hnot)
        · cases hnone
    rw [← hsuccess]
    split
    · exact iff_of_true rfl ⟨hnil, ‹_›⟩
    · exact iff_of_false nofun fun h => absurd h.2 ‹_›

end Groups

/-- A tester of a group with its images as they are, and what its start meets. -/
structure GroupTester (J : Type) where
  group : String
  setup : Setup J
  names : List String
  options : String → String
  outputs : String → Dict Nat J
  images : Images J
  round : Round
  nodup : names.Nodup
  order : round.finished.Perm names
  holds : Holds names options outputs images

namespace GroupTester

variable {J : Type}

/-- The outcome of `start`. -/
def result (t : GroupTester J) : Except PyError Bool :=
  match t.setup.start t.names t.round t.images with
  | .ok b _ => .ok b
  | .error e _ => .error e

/-- A tester without images has nothing to fail with. -/
def Passes (t : GroupTester J) : Prop :=
  ∀ first rest, t.names = first :: rest → t.setup.Passes t.options first rest t.outputs t.round

theorem exists_result_iff (t : GroupTester J) : (∃ b, t.result = .ok b) ↔ t.Passes := by
  obtain ⟨group, c, names, options, outputs, images, round, hnodup, horder, hholds⟩ := t
  rw [result, Passes]
  dsimp only
  cases names with
  | nil =>
      refine iff_of_true ⟨false, rfl⟩ fun first rest h => ?_
      cases h
  | cons first rest =>
      constructor
      · rintro ⟨b, h⟩ _ _ heq
        cases heq
        split at h
        · exact (start_eq_ok hnodup horder hholds ‹_›).1
        · cases h
      · intro h
        obtain ⟨images', hstart⟩ := exists_start_eq_ok hnodup horder hholds (h first rest rfl)
        exact ⟨true, by rw [hstart]⟩

/-- The test of several groups passes exactly if the last tester of each group passes. What the
other testers of the group find is lost. -/
theorem startGroups_passes_iff (testers : List (GroupTester J)) :
    startGroups (testers.map fun t => (t.group, t.result)) = .ok () ↔ testers ≠ [] ∧
      ∀ before t after, testers = before ++ t :: after → t.group ∉ after.map group → t.Passes := by
  rw [startGroups_eq_ok_iff, Ne, List.map_eq_nil_iff]
  refine and_congr_right fun _ => ?_
  constructor
  · rintro h before t after rfl hnot
    refine t.exists_result_iff.mp (h _ _ _ _ List.map_append ?_)
    simpa using hnot
  · intro h before' g result after' hsplit hnot
    obtain ⟨before, last, rfl, rfl, hlast⟩ := List.map_eq_append_iff.mp hsplit
    obtain ⟨t, after, rfl, ht, rfl⟩ := List.map_eq_cons_iff.mp hlast
    cases ht
    exact t.exists_result_iff.mpr (h before t after rfl (by simpa using hnot))

/-- A tester of one image. -/
def single (guest : Guest) : GroupTester (ℚ × ℚ) where
  group := "group1"
  setup := hundred
  names := ["stg1"]
  options _ := ""
  outputs _ := ∅
  images := Dict.empty.set "stg1" ⟨"", ∅⟩
  round := ⟨guest, fun _ => guest, ["stg1"]⟩
  nodup := List.nodup_singleton "stg1"
  order := .refl _
  holds := List.forall_mem_singleton.mpr rfl

/-- Two testers of a group, of which one cannot log in: only the second one counts. -/
theorem startGroups_passes_last :
    startGroups ([single (.error .runtimeError), single (prints "100.0")].map
        fun t => (t.group, t.result)) = .ok () ∧
      startGroups ([single (prints "100.0"), single (.error .runtimeError)].map
        fun t => (t.group, t.result)) ≠ .ok () := by
  constructor
  · refine (startGroups_passes_iff _).mpr ⟨List.cons_ne_nil _ _, ?_⟩
    intro before t after hsplit hnot
    rcases before with - | ⟨earlier, - | ⟨earlier', before⟩⟩
    · cases hsplit
      exact absurd List.mem_cons_self hnot
    · cases hsplit
      intro first rest hnames
      cases hnames
      exact ⟨⟨_, rfl, hundred_agrees⟩, fun hrest => absurd rfl hrest⟩
    · simp at hsplit
  · intro h
    have hlast := ((startGroups_passes_iff _).mp h).2 [_] _ [] rfl List.not_mem_nil
    obtain ⟨output, hrun, -⟩ := (hlast "stg1" [] rfl).alone
    cases hrun

end GroupTester

end TpQemu.Throttle
