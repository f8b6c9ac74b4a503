import TpQemu.Lib.Python
import TpQemu.Lib.Scan

/-!
# File transfer over a virtio serial port

`_transfer_data`, `transfer_data_exec` and `transfer_data` in
`qemu/tests/virtio_serial_file_transfer.py`, and `vioser_test` in
`provider/win_driver_installer_test.py`. A script on the host and one in the guest pass a file to
each other and print its MD5 sum. A transfer both ways is two of these runs.
-/

namespace TpQemu.VirtioSerial

open Scan

/-- Who sends the file. -/
inductive Sender where
  | host
  | guest
  | both
  deriving DecidableEq

/-- What the functions return: `True`, or a pair of a truth value and a message. -/
inductive Outcome where
  | true
  | pair (b : Bool) (err : List Char)
  deriving DecidableEq

/-- The truth value of what is returned. A pair is never empty. -/
def Outcome.truthy : Outcome → Bool
  | .true => Bool.true
  | .pair _ _ => Bool.true

/-- What the scripts print in a run. -/
structure Outputs where
  host : List Char
  guest : List Char

def md5Marker : List Char := "md5_sum = ".toList

section Definitions

variable (isWord : Char → Bool)

/-- `md5_sum = (\w{32})` at the beginning of a text; `isWord` is `\w`. -/
def matchMd5 (s : List Char) : Option (List Char) := do
  let rest ← literal md5Marker s
  if (rest.take 32).length = 32 ∧ (rest.take 32).all isWord then some (rest.take 32) else none

/-- The first match of `re.findall`. -/
def firstMd5 : List Char → Option (List Char)
  | [] => none
  | c :: s =>
      match matchMd5 isWord (c :: s) with
      | some md5 => some md5
      | none => firstMd5 s

/-- `check_output` -/
def checkOutput (output : List Char) : Bool × List Char :=
  if output = [] then
    (false, "The script output is empty, not terminate as expected".toList)
  else
    match firstMd5 isWord output with
    | some md5 => (true, md5)
    | none =>
        (false, "Fail to get md5, script may fail. Script output:\n".toList ++ output)

/-- `_transfer_data` with what the scripts print. What is returned in the `finally` clause takes the
place of what was returned before. -/
def transferRun (out : Outputs) : Outcome :=
  let guest := checkOutput isWord out.guest
  let md5Guest := if guest.1 = false then "2".toList else guest.2
  let returned := if guest.1 = false then Outcome.pair guest.1 guest.2 else .true
  let host := checkOutput isWord out.host
  if host.1 = false then .pair host.1 host.2
  else if host.2 ≠ md5Guest then
    .pair false ("Data lost during file transfer. Md5 miss match. Guest script output:\n ".toList ++
      out.guest ++ " Host script output:\n".toList ++ out.host)
  else returned

end Definitions

/-- `get_command_options`: the sizes of the files and the actions of the scripts. -/
def getCommandOptions (sender : Sender) (fileSize : Nat) :
    Nat × Nat × List Char × List Char :=
  match sender with
  | .host => (fileSize, 0, "send".toList, "receive".toList)
  | .guest => (0, fileSize, "receive".toList, "send".toList)
  | .both => (fileSize, fileSize, "both".toList, "both".toList)

/-- What the commands are made from, and what the scripts print when they are run. -/
structure Channel where
  hostPython : List Char
  hostScript : List Char
  portType : List Char
  portPath : List Char
  hostFileName : List Char
  guestPython : List Char
  guestScript : List Char
  portName : List Char
  guestFileName : List Char
  fileSize : Nat
  isWord : Char → Bool
  run : List Char → List Char → Outputs

namespace Channel

variable (ch : Channel)

def hostCmd (action : List Char) : List Char :=
  ch.hostPython ++ ' ' :: ch.hostScript ++ " -t ".toList ++ ch.portType ++ " -s ".toList ++
    ch.portPath ++ " -f ".toList ++ ch.hostFileName ++ " -a ".toList ++ action

def guestCmd (action : List Char) : List Char :=
  ch.guestPython ++ ' ' :: ch.guestScript ++ " -d ".toList ++ ch.portName ++ " -f ".toList ++
    ch.guestFileName ++ " -a ".toList ++ action

/-- What the scripts print when one of the two sends. -/
def outputs (sender : Sender) : Outputs :=
  let (_, _, hostAction, guestAction) := getCommandOptions sender ch.fileSize
  ch.run (ch.hostCmd hostAction) (ch.guestCmd guestAction)

/-- `transfer_data_exec` -/
def transferDataExec (sender : Sender) : Outcome := transferRun ch.isWord (ch.outputs sender)

/-- `transfer_data` -/
def transferData (sender : Sender) : Outcome :=
  if sender ≠ .both then ch.transferDataExec sender
  else
    let hostRes := ch.transferDataExec .host
    if hostRes.truthy = false then hostRes else ch.transferDataExec .guest

/-- `vioser_test`, and what `run` does for `both`. -/
def vioserTest : Except PyError Unit :=
  match ch.transferData .both with
  | .true => .ok ()
  | .pair _ err => .error (.testFail ("Test failed. " ++ String.ofList err))

end Channel

/-! ## The sums -/

section Md5

variable {isWord : Char → Bool}

/-- A text begins with a sum. -/
def BeginsWith (isWord : Char → Bool) (s md5 : List Char) : Prop :=
  md5.length = 32 ∧ md5.all isWord ∧ md5Marker ++ md5 <+: s

/-- The first sum in a text. -/
def First (isWord : Char → Bool) (s md5 : List Char) : Prop :=
  ∃ before rest, s = before ++ rest ∧ BeginsWith isWord rest md5 ∧
    ∀ before' rest' md5', s = before' ++ rest' → BeginsWith isWord rest' md5' →
      before.length ≤ before'.length

theorem matchMd5_eq_some_iff {s md5 : List Char} :
    matchMd5 isWord s = some md5 ↔ BeginsWith isWord s md5 := by
  constructor
  · intro hmatch
    obtain ⟨rest, hrest, h⟩ := Option.bind_eq_some_iff.mp hmatch
    rw [literal] at hrest
    split at hrest
    · rename_i hmarker
      obtain ⟨t, rfl⟩ := hmarker
      rw [List.drop_left] at hrest
      cases hrest
      split at h
      · rename_i hword
        cases h
        exact ⟨hword.1, hword.2, (List.prefix_append_right_inj _).mpr (List.take_prefix _ _)⟩
      · cases h
    · cases hrest
  · rintro ⟨hlen, hword, t, rfl⟩
    have htake : (md5 ++ t).take 32 = md5 := by rw [← hlen, List.take_left]
    rw [matchMd5, List.append_assoc, literal_append]
    exact (congrArg (fun w => if w.length = 32 ∧ w.all isWord then some w else none) htake).trans
      (if_pos ⟨hlen, hword⟩)

theorem not_beginsWith_nil (md5 : List Char) : ¬BeginsWith isWord [] md5 := by
  rintro ⟨-, -, hprefix⟩
  cases List.prefix_nil.mp hprefix

/-- Where no sum begins, the first one is that of the rest. -/
theorem first_cons_iff {c : Char} {s md5 : List Char} (h : matchMd5 isWord (c :: s) = none) :
    First isWord (c :: s) md5 ↔ First isWord s md5 := by
  have hnot : ∀ md5, ¬BeginsWith isWord (c :: s) md5 := by
    intro md5 hbegins
    rw [matchMd5_eq_some_iff.mpr hbegins] at h
    cases h
  constructor
  · rintro ⟨before, rest, heq, hbegins, hleast⟩
    cases before with
    | nil =>
        rw [List.nil_append] at heq
        exact absurd (heq ▸ hbegins) (hnot md5)
    | cons c' before =>
        obtain ⟨rfl, rfl⟩ := List.cons_eq_cons.mp heq
        refine ⟨before, rest, rfl, hbegins, fun before' rest' md5' heq' hbegins' => ?_⟩
        have hle := hleast (c :: before') rest' md5' (by rw [heq', List.cons_append]) hbegins'
        exact Nat.le_of_succ_le_succ hle
  · rintro ⟨before, rest, rfl, hbegins, hleast⟩
    refine ⟨c :: before, rest, rfl, hbegins, fun before' rest' md5' heq' hbegins' => ?_⟩
    cases before' with
    | nil =>
        rw [List.nil_append] at heq'
        exact absurd (heq' ▸ hbegins') (hnot md5')
    | cons c' before' =>
        obtain ⟨-, heq'⟩ := List.cons_eq_cons.mp heq'
        exact Nat.succ_le_succ (hleast before' rest' md5' heq' hbegins')

theorem firstMd5_eq_some_iff {s md5 : List Char} :
    firstMd5 isWord s = some md5 ↔ First isWord s md5 := by
  induction s with
  | nil =>
      refine iff_of_false nofun ?_
      rintro ⟨before, rest, heq, hbegins, -⟩
      rw [(List.append_eq_nil_iff.mp heq.symm).2] at hbegins
      exact not_beginsWith_nil md5 hbegins
  | cons c s ih =>
      rw [firstMd5]
      cases hmatch : matchMd5 isWord (c :: s) with
      | none => rw [first_cons_iff hmatch, ← ih]
      | some first =>
          have hbegins := matchMd5_eq_some_iff.mp hmatch
          constructor
          · intro h
            cases h
            exact ⟨[], c :: s, rfl, hbegins, fun _ _ _ _ _ => Nat.zero_le _⟩
          · rintro ⟨before, rest, heq, hbegins', hleast⟩
            have hnil := hleast [] (c :: s) first rfl hbegins
            rw [List.length_nil, Nat.le_zero, List.length_eq_zero_iff] at hnil
            rw [hnil, List.nil_append] at heq
            rw [← matchMd5_eq_some_iff, ← heq, hmatch] at hbegins'
            exact hbegins'

end Md5

/-! ## Runs -/

/-- Both scripts print a sum, and the first sums are the same. -/
def Fine (isWord : Char → Bool) (out : Outputs) : Prop :=
  ∃ md5, First isWord out.host md5 ∧ First isWord out.guest md5

section Runs

variable {isWord : Char → Bool}

theorem checkOutput_cases (isWord : Char → Bool) (output : List Char) :
    (∃ md5, First isWord output md5 ∧ checkOutput isWord output = (true, md5)) ∨
      ((∀ md5, ¬First isWord output md5) ∧ ∃ err, checkOutput isWord output = (false, err)) := by
  cases h : firstMd5 isWord output with
  | none =>
      refine .inr ⟨fun md5 hfirst => ?_, ?_⟩
      · rw [firstMd5_eq_some_iff.mpr hfirst] at h
        cases h
      · rw [checkOutput, h]
        split
        · exact ⟨_, rfl⟩
        · exact ⟨_, rfl⟩
  | some md5 =>
      refine .inl ⟨md5, firstMd5_eq_some_iff.mp h, ?_⟩
      have hne : output ≠ [] := by
        rintro rfl
        cases h
      rw [checkOutput, if_neg hne, h]

theorem First.unique {s md5 md5' : List Char} (h : First isWord s md5) (h' : First isWord s md5') :
    md5 = md5' :=
  Option.some.inj ((firstMd5_eq_some_iff.mpr h).symm.trans (firstMd5_eq_some_iff.mpr h'))

theorem First.length_eq {s md5 : List Char} (h : First isWord s md5) : md5.length = 32 := by
  obtain ⟨before, rest, -, hbegins, -⟩ := h
  exact hbegins.1

/-- A run returns `True` if it is fine, and otherwise a pair with `False`. -/
theorem transferRun_cases (isWord : Char → Bool) (out : Outputs) :
    (Fine isWord out ∧ transferRun isWord out = .true) ∨
      (¬Fine isWord out ∧ ∃ err, transferRun isWord out = .pair false err) := by
  rcases checkOutput_cases isWord out.host with ⟨host, hhost, hcheck⟩ | ⟨hhost, err, hcheck⟩
  · rcases checkOutput_cases isWord out.guest with ⟨guest, hguest, hcheck'⟩ | ⟨hguest, err, hcheck'⟩
    · by_cases heq : host = guest
      · subst heq
        refine .inl ⟨⟨host, hhost, hguest⟩, ?_⟩
        rw [transferRun, hcheck, hcheck']
        exact (if_neg nofun).trans (if_neg (not_not.mpr rfl))
      · refine .inr ⟨?_, ?_⟩
        · rintro ⟨md5, hmd5, hmd5'⟩
          exact heq ((hhost.unique hmd5).trans (hmd5'.unique hguest))
        · rw [transferRun, hcheck, hcheck']
          exact ⟨_, (if_neg nofun).trans (if_pos heq)⟩
    · -- the dummy sum of the guest is shorter than that of the host
      have hne : host ≠ "2".toList := by
        rintro rfl
        exact absurd hhost.length_eq (by decide)
      refine .inr ⟨fun ⟨md5, _, hmd5⟩ => hguest md5 hmd5, ?_⟩
      rw [transferRun, hcheck, hcheck']
      exact ⟨_, (if_neg nofun).trans (if_pos hne)⟩
  · refine .inr ⟨fun ⟨md5, hmd5, _⟩ => hhost md5 hmd5, err, ?_⟩
    rw [transferRun, hcheck]
    exact if_pos rfl

end Runs

/-- What `transfer_data` returns for a transfer both ways is the result of the second run. -/
theorem Channel.transferData_both (ch : Channel) :
    ch.transferData .both = ch.transferDataExec .guest := by
  have htruthy : (ch.transferDataExec .host).truthy ≠ false := by
    cases ch.transferDataExec .host <;> exact Bool.noConfusion
  rw [transferData, if_neg (not_not.mpr rfl)]
  exact if_neg htruthy

/-- A transfer both ways reports what it should exactly if the transfer from the host is fine or
the one from the guest is not. -/
theorem transferData_reports_iff (ch : Channel) :
    ((ch.transferData .both = .true ↔
        Fine ch.isWord (ch.outputs .host) ∧ Fine ch.isWord (ch.outputs .guest)) ∧
      (¬(Fine ch.isWord (ch.outputs .host) ∧ Fine ch.isWord (ch.outputs .guest)) →
        ∃ err, ch.transferData .both = .pair false err)) ↔
      Fine ch.isWord (ch.outputs .host) ∨ ¬Fine ch.isWord (ch.outputs .guest) := by
  rw [ch.transferData_both]
  rcases transferRun_cases ch.isWord (ch.outputs .guest) with ⟨hguest, heq⟩ | ⟨hguest, err, heq⟩
  · rw [Channel.transferDataExec, heq]
    constructor
    · rintro ⟨hiff, -⟩
      exact .inl (hiff.mp rfl).1
    · intro h
      have hhost := h.resolve_right (not_not.mpr hguest)
      exact ⟨iff_of_true rfl ⟨hhost, hguest⟩, fun hnot => absurd ⟨hhost, hguest⟩ hnot⟩
  · rw [Channel.transferDataExec, heq]
    refine iff_of_true ⟨iff_of_false nofun fun h => hguest h.2, fun _ => ⟨err, rfl⟩⟩ (.inr hguest)

/-- The driver test sees the transfer from the guest only. -/
theorem Channel.vioserTest_ok_iff (ch : Channel) :
    ch.vioserTest = .ok () ↔ Fine ch.isWord (ch.outputs .guest) := by
  rw [vioserTest, ch.transferData_both, transferDataExec]
  rcases transferRun_cases ch.isWord (ch.outputs .guest) with ⟨hguest, heq⟩ | ⟨hguest, err, heq⟩
  · rw [heq]
    exact iff_of_true rfl hguest
  · rw [heq]
    exact iff_of_false nofun hguest

/-- The script on the host prints nothing when it sends. -/
def silentHost : Channel where
  hostPython := "python".toList
  hostScript := "serial_host_send_receive.py".toList
  portType := "unix_socket".toList
  portPath := "/var/tmp/port".toList
  hostFileName := "/var/tmp/tmp-1".toList
  guestPython := "python".toList
  guestScript := "guest.py".toList
  portName := "port".toList
  guestFileName := "/var/tmp/tmp-2".toList
  fileSize := 10
  isWord c := c.isAlphanum || c == '_'
  run hostCmd _ :=
    let text := "md5_sum = 0123456789abcdef0123456789abcdef".toList
    if "send".toList <:+ hostCmd then ⟨[], text⟩ else ⟨text, text⟩

/-- The transfer from the host fails, and the transfer both ways returns `True`. -/
theorem silentHost_lost :
    ¬∀ ch : Channel,
      (ch.transferData .both = .true ↔
        Fine ch.isWord (ch.outputs .host) ∧ Fine ch.isWord (ch.outputs .guest)) ∧
      (¬(Fine ch.isWord (ch.outputs .host) ∧ Fine ch.isWord (ch.outputs .guest)) →
        ∃ err, ch.transferData .both = .pair false err) := by
  intro h
  have htrue : silentHost.transferData .both = .true := by decide
  obtain ⟨⟨md5, hfirst, -⟩, -⟩ := (h silentHost).1.mp htrue
  have hnone : firstMd5 silentHost.isWord (silentHost.outputs .host).host = none := by decide
  rw [firstMd5_eq_some_iff.mpr hfirst] at hnone
  cases hnone

end TpQemu.VirtioSerial
