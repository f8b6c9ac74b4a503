import Mathlib.Data.Int.Bitwise
import TpQemu.Lib.Dict
import TpQemu.Lib.Lines
import TpQemu.Lib.Python

/-!
# The devices that the agent listens to

`parse_procfs_entry` of `deps/input_event/input_event_linux.py` reads the kernel's list of input
devices, a section of lines for each one, and `get_devs` opens those that are pointers or keyboards.
A section is what the blank line behind it closes.
-/

namespace TpQemu.InputEvent

open Lines Numeral Text

/-- One `dev_info`; a key that is not there has no value. -/
structure DevInfo where
  id : Option (Dict (List Char) Int)
  name : Option (List Char)
  phys : Option (List Char)
  sysfs : Option (List Char)
  uniq : Option (List Char)
  handlers : Option (List (List Char))
  bitmaps : Option (Dict (List Char) (List Char))

/-- `{}` -/
def DevInfo.empty : DevInfo where
  id := none
  name := none
  phys := none
  sysfs := none
  uniq := none
  handlers := none
  bitmaps := none

/-- `str.lower()`, on ASCII. -/
def lower (s : List Char) : List Char := s.map Char.toLower

def isQuote (c : Char) : Bool := c = '\'' || c = '"'

/-- `item[1].split("=", 1)[1]` -/
def valueField (item1 : Option (List Char)) : Except PyError (List Char) := do
  let body ← orRaise .indexError item1
  orRaise .indexError (cut '=' body).2

/-- One `key=value` of the id line. -/
def idPair (ids : Dict (List Char) Int) (keyPair : List Char) :
    Except PyError (Dict (List Char) Int) :=
  match keyPair.splitOn '=' with
  | [key, val] => do return ids.set (lower key) (← orRaise .valueError (int16 val))
  | _ => .error .valueError

/-- A line that belongs to the section of a device. -/
def parseField (devInfo : DevInfo) (tag : List Char) (item1 : Option (List Char)) :
    Except PyError DevInfo :=
  if tag = "I:".toList then do
    let body ← orRaise .indexError item1
    let ids ← (body.splitOn ' ').foldlM idPair ∅
    return { devInfo with id := some ids }
  else if tag = "N:".toList then do
    let val ← valueField item1
    return { devInfo with name := some (stripChars isQuote val) }
  else if tag = "P:".toList then do return { devInfo with phys := some (← valueField item1) }
  else if tag = "S:".toList then do return { devInfo with sysfs := some (← valueField item1) }
  else if tag = "U:".toList then do return { devInfo with uniq := some (← valueField item1) }
  else if tag = "H:".toList then do
    let val ← valueField item1
    return { devInfo with handlers := some (words val) }
  else if tag = "B:".toList then do
    let body ← orRaise .indexError item1
    match cut '=' body with
    | (_, none) => .error .valueError
    | (key, some val) =>
        let bitmaps := devInfo.bitmaps.getD ∅
        return { devInfo with bitmaps := some (bitmaps.set (lower key) val) }
  else return devInfo

/-- One line, with the sections that are closed and the one that is open. -/
def parseLine (s : List DevInfo × DevInfo) (line : List Char) :
    Except PyError (List DevInfo × DevInfo) :=
  let item := cut ' ' (rstrip line)
  if item.1 = [] then return (s.1 ++ [s.2], .empty)
  else do return (s.1, ← parseField s.2 item.1 item.2)

/-- `parse_procfs_entry`, on the contents of the file. -/
def parseProcfsEntry (contents : List Char) : Except PyError (List DevInfo) := do
  let s ← (fileLines contents).foldlM parseLine ([], .empty)
  return s.1

/-- `(~flags & 0x120003) == 0` -/
def hasKeyboardBits (flags : Int) : Bool := Int.land (Int.lnot flags) 0x120003 = 0

/-- One handler: the device node found so far and whether the device is a target. -/
def scanHandler (info : DevInfo) (s : Option (List Char) × Bool) (handler : List Char) :
    Except PyError (Option (List Char) × Bool) :=
  if "event".toList <+: handler then return (some handler, s.2)
  else if "mouse".toList <+: handler then return (s.1, true)
  else if "kbd".toList <+: handler then do
    let bitmaps ← orRaise .keyError info.bitmaps
    let ev ← orRaise .keyError (bitmaps.get? "ev".toList)
    let flags ← orRaise .valueError (int16 ("0x".toList ++ ev))
    return (s.1, s.2 || hasKeyboardBits flags)
  else return s

/-- An exception, or the end of the agent when a device cannot be opened. -/
inductive GetDevsError where
  | raised (e : PyError)
  | exited

/-- What `get_devs` has announced and opened. -/
structure Opened where
  announced : List (Option (List Char) × DevInfo)
  entries : Dict Nat (Option (List Char) × DevInfo)

/-- One round of `get_devs`. `os.open` gives a file descriptor or fails, for each call anew. -/
def openDev (osOpen : Nat → Option Nat) (s : Opened) (info : DevInfo) :
    Except GetDevsError Opened :=
  match info.handlers with
  | none => .error (.raised .keyError)
  | some handlers =>
      match handlers.foldlM (scanHandler info) (none, false) with
      | .error e => .error (.raised e)
      | .ok (_, false) => .ok s
      | .ok (dev, true) =>
          match osOpen s.announced.length with
          | none => .error .exited
          | some fd => .ok ⟨s.announced ++ [(dev, info)], s.entries.set fd (dev, info)⟩

/-- `get_devs` -/
def getDevs (osOpen : Nat → Option Nat) (contents : List Char) : Except GetDevsError Opened :=
  match parseProcfsEntry contents with
  | .error e => .error (.raised e)
  | .ok infos => infos.foldlM (openDev osOpen) ⟨[], ∅⟩

end TpQemu.InputEvent
