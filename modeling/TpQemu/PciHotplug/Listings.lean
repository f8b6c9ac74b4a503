import TpQemu.Lib.Tokens

/-!
# Devices in guest listings

`find_new_device` and `find_del_device` in `qemu/tests/pci_hotplug_check.py`. Both take the device
names out of one listing and look for each of them in the text of the other.
-/

namespace TpQemu.PciHotplug

open Text
open Numeral (strip)

/-- A listing as the guest prints it. -/
abbrev Listing := List Char

section Definitions

variable (checkCmd : List Char)

/-- The item at `idx` of a split line. -/
def pick (pieces : List (List Char)) : List Char :=
  if "wmic".toList <:+: checkCmd then pieces.headD [] else pieces.getLastD []

/-- `re.split(r"\s+", line.strip())[idx]` for each line of `re.split("\n+", text.strip())`. -/
def devNames (text : Listing) : List (List Char) :=
  (splitRuns (fun c => decide (c = '\n')) (strip text)).map fun line =>
    pick checkCmd (splitRuns isSpace (strip line))

/-- `find_new_device`: the first poll that shows a name which the earlier text lacks. -/
def findNewDevice (deviceString : Listing) (polls : List Listing) : Option (List Char) :=
  polls.findSome? fun newLine =>
    (devNames checkCmd newLine).find? fun devName => ¬ devName <:+: deviceString

/-- `find_del_device`: the first poll whose text lacks an earlier name. -/
def findDelDevice (deviceString : Listing) (polls : List Listing) : Option (List Char) :=
  polls.findSome? fun newLine =>
    (devNames checkCmd deviceString).find? fun devName => ¬ devName <:+: newLine

end Definitions

/-! ## The devices of a listing -/

section Names

variable (checkCmd : List Char)

/-- The device of a line: its first word for `wmic`, its last word otherwise. -/
def deviceOf (line : List Char) : Option (List Char) :=
  if "wmic".toList <:+: checkCmd then (words line).head? else (words line).getLast?

/-- The devices of a listing, line by line. A blank line has none. -/
def deviceNames (text : Listing) : List (List Char) :=
  (text.splitOn '\n').filterMap (deviceOf checkCmd)

/-- The first name that is not among the others. -/
def firstAbsent {α : Type*} [DecidableEq α] (names others : List α) : Option α :=
  names.find? fun name => name ∉ others

/-- The first name that is not among the devices of a listing is nowhere in its text. -/
def Visible (names : List (List Char)) (text : Listing) : Prop :=
  ∀ name, firstAbsent names (deviceNames checkCmd text) = some name → ¬ name <:+: text

theorem deviceOf_nil : deviceOf checkCmd [] = none := by
  rw [deviceOf]
  split_ifs <;> rfl

theorem pick_eq_getD (line : List Char) :
    pick checkCmd (splitRuns isSpace (strip line)) = (deviceOf checkCmd line).getD [] := by
  rw [splitRuns_strip, pick, deviceOf]
  cases words line with
  | nil => split_ifs <;> rfl
  | cons w ws =>
      rw [if_neg (List.cons_ne_nil _ _)]
      split_ifs with hwmic
      · rfl
      · rw [List.getLastD_eq_getLast?]

theorem deviceOf_cons_space {c : Char} (hc : isSpace c = true) (line : List Char) :
    deviceOf checkCmd (c :: line) = deviceOf checkCmd line := by
  rw [deviceOf, deviceOf, words_cons_space hc]

theorem deviceOf_append_space {c : Char} (hc : isSpace c = true) (line : List Char) :
    deviceOf checkCmd (line ++ [c]) = deviceOf checkCmd line := by
  have hwords : words (line ++ [c]) = words line := wordsFrom_append_space hc [] line
  rw [deviceOf, deviceOf, hwords]

/-- Stripping the text and splitting it at runs of line ends leaves out blank lines only. -/
theorem filterMap_lines (text : Listing) :
    (splitRuns (fun c => decide (c = '\n')) (strip text)).filterMap (deviceOf checkCmd) =
      deviceNames checkCmd text := by
  have hsplit := filterMap_splitRunsFrom (deviceOf_nil checkCmd) '\n' (some []) text
  rw [strip, filterMap_splitRuns_rdropWhile (deviceOf_nil checkCmd)
      fun _ line hc => deviceOf_append_space checkCmd hc line,
    filterMap_splitRuns_dropWhile (deviceOf_nil checkCmd)
      fun _ line hc => deviceOf_cons_space checkCmd hc line,
    splitRuns, hsplit, deviceNames]
  cases text.splitOn '\n' <;> rfl

variable {checkCmd}

theorem infix_of_mem_deviceNames {text : Listing} {name : List Char}
    (h : name ∈ deviceNames checkCmd text) : name <:+: text := by
  rw [← filterMap_lines, List.mem_filterMap] at h
  obtain ⟨line, hline, hname⟩ := h
  have hword : name ∈ words line := by
    rw [deviceOf] at hname
    split_ifs at hname with hwmic
    · exact List.mem_of_head? hname
    · exact List.mem_of_getLast? hname
  exact (infix_of_mem_words hword).trans ((infix_of_mem_splitRuns hline).trans (isInfix_strip text))

end Names

/-! ## Searches -/

section Search

variable {α β : Type}

/-- A default that is never found may stand for what is left out. -/
theorem find?_map_getD {f : α → Option β} {d : β} {q : β → Bool} (hd : q d = false) (l : List α) :
    (l.map fun a => (f a).getD d).find? q = (l.filterMap f).find? q := by
  induction l with
  | nil => rfl
  | cons a l ih =>
      cases hf : f a with
      | none => simp [hf, hd, ih]
      | some b => simp [hf, ih, List.find?_cons]

/-- A search with a stronger test has the same result exactly if that result passes it. -/
theorem find?_eq_find?_iff {q p : β → Bool} {l : List β}
    (h : ∀ b ∈ l, q b = true → p b = true) :
    l.find? q = l.find? p ↔ ∀ b, l.find? p = some b → q b = true := by
  refine ⟨fun heq b hb => List.find?_some (heq.trans hb), fun hfound => ?_⟩
  cases hp : l.find? p with
  | none =>
      refine List.find?_eq_none.mpr fun b hb hq => ?_
      exact List.find?_eq_none.mp hp b hb (h b hb hq)
  | some b =>
      obtain ⟨-, before, after, rfl, hbefore⟩ := List.find?_eq_some_iff_append.mp hp
      refine List.find?_eq_some_iff_append.mpr ⟨hfound b hp, before, after, rfl, fun a ha => ?_⟩
      have hno : p a = false := by
        have hnot := hbefore a ha
        rwa [Bool.not_eq_true'] at hnot
      rw [Bool.not_eq_true', ← Bool.not_eq_true]
      intro hq
      rw [h a (List.mem_append_left _ ha) hq] at hno
      cases hno

theorem findSome?_congr {f g : α → Option β} {l : List α} (h : ∀ a ∈ l, f a = g a) :
    l.findSome? f = l.findSome? g := by
  induction l with
  | nil => rfl
  | cons a l ih =>
      obtain ⟨ha, hl⟩ := List.forall_mem_cons.mp h
      rw [List.findSome?_cons, List.findSome?_cons, ha, ih hl]

end Search

section Polls

variable {checkCmd : List Char}

/-- The search at one poll. -/
theorem find?_devNames_iff (listing text : Listing) :
    (devNames checkCmd listing).find? (fun devName => ¬ devName <:+: text) =
        firstAbsent (deviceNames checkCmd listing) (deviceNames checkCmd text) ↔
      Visible checkCmd (deviceNames checkCmd listing) text := by
  have hnames : (devNames checkCmd listing).find? (fun devName => ¬ devName <:+: text) =
      (deviceNames checkCmd listing).find? fun devName => ¬ devName <:+: text := by
    rw [← filterMap_lines, ← find?_map_getD (d := []) (by simp), devNames]
    simp only [pick_eq_getD]
  rw [hnames, firstAbsent, find?_eq_find?_iff]
  · simp only [Visible, firstAbsent, decide_eq_true_eq]
  · intro name _ hname
    simp only [decide_eq_true_eq] at hname ⊢
    exact fun hmem => hname (infix_of_mem_deviceNames hmem)

/-- A run of polls. -/
theorem findNewDevice_of_visible {before : Listing} {polls : List Listing}
    (h : ∀ after ∈ polls, Visible checkCmd (deviceNames checkCmd after) before) :
    findNewDevice checkCmd before polls = polls.findSome? fun after =>
      firstAbsent (deviceNames checkCmd after) (deviceNames checkCmd before) := by
  rw [findNewDevice]
  exact findSome?_congr fun after hafter => (find?_devNames_iff after before).mpr (h after hafter)

theorem findDelDevice_of_visible {before : Listing} {polls : List Listing}
    (h : ∀ after ∈ polls, Visible checkCmd (deviceNames checkCmd before) after) :
    findDelDevice checkCmd before polls = polls.findSome? fun after =>
      firstAbsent (deviceNames checkCmd before) (deviceNames checkCmd after) := by
  rw [findDelDevice]
  exact findSome?_congr fun after hafter => (find?_devNames_iff before after).mpr (h after hafter)

end Polls

section Results

/-- A change of the listing is detected exactly if the first name that comes or goes is nowhere in
the text of the listing without it. -/
theorem detects_iff_visible (checkCmd : List Char) (before after : Listing) :
    (findNewDevice checkCmd before [after] =
        firstAbsent (deviceNames checkCmd after) (deviceNames checkCmd before) ↔
      Visible checkCmd (deviceNames checkCmd after) before) ∧
    (findDelDevice checkCmd before [after] =
        firstAbsent (deviceNames checkCmd before) (deviceNames checkCmd after) ↔
      Visible checkCmd (deviceNames checkCmd before) after) := by
  rw [findNewDevice, findDelDevice, List.findSome?_singleton,
    List.findSome?_singleton]
  exact ⟨find?_devNames_iff after before, find?_devNames_iff before after⟩

/-- A listing with disks 1 and 10. -/
def twoDisks : Listing := "1 VirtIO Disk\n10 VirtIO Disk\n".toList

def lastDisk : Listing := "10 VirtIO Disk\n".toList

/-- The first disk goes and comes back, and neither is seen. -/
theorem firstDisk_hidden :
    firstAbsent (deviceNames "wmic".toList twoDisks) (deviceNames "wmic".toList lastDisk) =
        some ['1'] ∧
      findDelDevice "wmic".toList twoDisks [lastDisk] = none ∧
      findNewDevice "wmic".toList lastDisk [twoDisks] = none := by
  decide

end Results

end TpQemu.PciHotplug
