import Mathlib.Data.List.Basic
import TpQemu.Lib.Dict
import TpQemu.Lib.Python
import TpQemu.Lib.Scan
import TpQemu.Lib.Text

/-!
# The two readers of `stg_params`

The string is a list of `name:values` tokens separated by blanks, and the values
of a token are separated by commas; a backslash before a separator escapes it.
`multiDisk` is the reader of `qemu/tests/multi_disk.py`, up to the point where the
number of images is substituted in ranges, and `createParamsMatrix` the one of
`qemu/tests/multi_disk_random_hotplug.py`.

Both join an escaped piece with the one behind it and pop the latter from the list
they are walking over. The first reader compares its index with the length of the
list before each round; it never comes back to a piece, so it is written as a
recursion over the pieces not visited yet. The second reader counts up to the
length the list had before the loop, so its index is kept explicit.
-/

namespace TpQemu.StgParams

open Scan

abbrev Text := List Char

/-! ## Text -/

/-- `not tok.strip()`. -/
def blank (tok : Text) : Bool := tok.all TpQemu.Text.isSpace

/-- The zeros of the Unicode decimal digits; nine digits follow each of them. -/
def decimalZeros : List Nat :=
  [0x30, 0x660, 0x6f0, 0x7c0, 0x966, 0x9e6, 0xa66, 0xae6, 0xb66, 0xbe6, 0xc66, 0xce6, 0xd66,
    0xde6, 0xe50, 0xed0, 0xf20, 0x1040, 0x1090, 0x17e0, 0x1810, 0x1946, 0x19d0, 0x1a80, 0x1a90,
    0x1b50, 0x1bb0, 0x1c40, 0x1c50, 0xa620, 0xa8d0, 0xa900, 0xa9d0, 0xa9f0, 0xaa50, 0xabf0, 0xff10,
    0x104a0, 0x10d30, 0x11066, 0x110f0, 0x11136, 0x111d0, 0x112f0, 0x11450, 0x114d0, 0x11650,
    0x116c0, 0x11730, 0x118e0, 0x11950, 0x11c50, 0x11d50, 0x11da0, 0x16a60, 0x16ac0, 0x16b50,
    0x1d7ce, 0x1d7d8, 0x1d7e2, 0x1d7ec, 0x1d7f6, 0x1e140, 0x1e2f0, 0x1e950, 0x1fbf0]

/-- The value of a decimal digit. -/
def digitValue (c : Char) : Option Nat :=
  (decimalZeros.find? fun z => z ≤ c.toNat ∧ c.toNat ≤ z + 9).map (c.toNat - ·)

/-- `\d`. -/
def isDigit (c : Char) : Bool := (digitValue c).isSome

/-- `int(digits)`. -/
def natOf (digits : Text) : Nat :=
  digits.foldl (fun n c => n * 10 + (digitValue c).getD 0) 0

/-- `tok.split(":", 1)`, unpacked into two names. -/
def splitColon (tok : Text) : Except PyError (Text × Text) :=
  match tok.dropWhile (· ≠ ':') with
  | [] => .error .valueError
  | _ :: rest => .ok (tok.takeWhile (· ≠ ':'), rest)

/-! ## Ranges -/

/-- An argument of a range: a number, or the number of images. -/
inductive Arg where
  | num (z : Int)
  | n
  deriving DecidableEq

/-- `[-]?\d+|n`, with the text behind it. -/
def arg : Text → Option (Arg × Text)
  | 'n' :: s => some (.n, s)
  | '-' :: s => (run1 isDigit s).map fun r => (.num (-natOf r.1), r.2)
  | s => (run1 isDigit s).map fun r => (.num (natOf r.1), r.2)

/-- `_RE_RANGE1.match(buf)`, reduced to its group. A dot does not match a newline. -/
def range1 (buf : Text) : Option Arg := do
  let s ← literal "range(".toList buf
  let (a, s) ← arg (s.dropWhile (· = ' '))
  if ')' ∈ s.takeWhile (· ≠ '\n') then pure a else none

/-- `_RE_RANGE2.findall(buf)`. -/
def range2 : Text → List Arg
  | [] => []
  | c :: s =>
      let found := if c = ',' then (arg (s.dropWhile (· = ' '))).map Prod.fst else none
      found.toList ++ range2 s

/-- The values of `range(a, b, c)`. -/
def pyRange (a b c : Int) : Except PyError (List Int) :=
  if c = 0 then .error .valueError
  else
    let count := if 0 < c then (b - a + c - 1) / c else (a - b - c - 1) / (-c)
    .ok ((List.range count.toNat).map fun i => a + c * i)

/-- A value of the parameter matrix. -/
inductive Param where
  | values (vs : List Text)
  | numbers (zs : List Int)
  | text (cs : Text)

/-- `len(parm)`. -/
def Param.len : Param → Nat
  | .values vs => vs.length
  | .numbers zs => zs.length
  | .text cs => cs.length

/-- The arguments as numbers, if none of them is the number of images. -/
def numbersOf : List Arg → Option (List Int)
  | [] => some []
  | .n :: _ => none
  | .num z :: as => (numbersOf as).map (z :: ·)

/-- `_range(buf)` on a text that matches, without the number of images. -/
def range (buf : Text) (first : Arg) : Except PyError Param :=
  match numbersOf (first :: range2 buf) with
  | none => .ok (.text buf)
  | some [a] => .numbers <$> pyRange 0 a 1
  | some [a, b] => .numbers <$> pyRange a b 1
  | some [a, b, c] => .numbers <$> pyRange a b c
  | some [a, b, c, times] =>
      (fun zs => .numbers (zs.flatMap (List.replicate times.toNat))) <$> pyRange a b c
  | some _ => .error .valueError

/-! ## `multi_disk` -/

/-- The loop that joins escaped blanks. -/
def mergeTokens : List Text → List Text
  | [] => []
  | [t] => [t]
  | t :: u :: rest =>
      if blank t then t :: mergeTokens (u :: rest)
      else if t.getLast? = some '\\' then (t.dropLast ++ ' ' :: u) :: mergeTokens rest
      else t :: mergeTokens (u :: rest)

/-- The loop that joins escaped commas; an empty piece has no last character. -/
def mergePieces : List Text → Except PyError (List Text)
  | [] => .ok []
  | [p] => .ok [p]
  | p :: q :: rest =>
      match p.getLast? with
      | none => .error .indexError
      | some c =>
          if c = '\\' then ((p.dropLast ++ ',' :: q) :: ·) <$> mergePieces rest
          else (p :: ·) <$> mergePieces (q :: rest)

/-- What the reader has gathered. -/
structure Gathered where
  paramMatrix : Dict Text Param
  rerange : List Text
  hasName : Bool
  stgImageNum : Nat

/-- `param_matrix[cmd] = parm`, and the number of images it makes. -/
def Gathered.store (g : Gathered) (cmd : Text) (parm : Param) : Gathered :=
  { g with
    paramMatrix := g.paramMatrix.set cmd parm
    stgImageNum := max g.stgImageNum parm.len }

/-- The body of the loop over the tokens. -/
def multiDiskStep (g : Gathered) (tok : Text) : Except PyError Gathered :=
  if blank tok then .ok g
  else do
    let (cmd, parm) ← splitColon tok
    let g := { g with hasName := g.hasName || cmd = "image_name".toList }
    match range1 parm with
    | some first =>
        match ← range parm first with
        | .text buf =>
            return { g with
              paramMatrix := g.paramMatrix.set cmd (.text buf), rerange := g.rerange ++ [cmd] }
        | parm => return g.store cmd parm
    | none => return g.store cmd (.values (← mergePieces (parm.splitOn ',')))

def multiDisk (stgParams : Text) : Except PyError Gathered :=
  (mergeTokens (stgParams.splitOn ' ')).foldlM multiDiskStep ⟨∅, [], false, 0⟩

/-! ## `multi_disk_random_hotplug` -/

/-- `xs[i] = "%s<sep>%s" % (xs[i][:-1], xs.pop(i + 1))`. -/
def popNext (sep : Char) (xs : List Text) (i : Nat) (x : Text) : Except PyError (List Text) := do
  let next ← orRaise .indexError xs[i + 1]?
  return (xs.set i (x.dropLast ++ sep :: next)).eraseIdx (i + 1)

/-- One round of the loop over the pieces of a value. -/
def pieceStep (parm : List Text) (j : Nat) : Except PyError (List Text) := do
  let p ← orRaise .indexError parm[j]?
  let last ← orRaise .indexError p.getLast?
  if last = '\\' then popNext ',' parm j p else return parm

/-- `for j in range(len(parm))`. -/
def splitValues (parm : List Text) : Except PyError (List Text) :=
  (List.range parm.length).foldlM pieceStep parm

/-- The body of the loop over the tokens, behind the joining of an escaped blank. -/
def storeToken (st : List Text × Dict Text Param) (tok : Text) :
    Except PyError (List Text × Dict Text Param) :=
  if blank tok then .ok st
  else do
    let (cmd, parm) ← splitColon tok
    let values ← splitValues (parm.splitOn ',')
    return (st.1, st.2.set cmd (.values values))

/-- One round of the loop over the tokens. -/
def hotplugStep (st : List Text × Dict Text Param) (i : Nat) :
    Except PyError (List Text × Dict Text Param) := do
  let tok ← orRaise .indexError st.1[i]?
  if blank tok then return st
  if tok.getLast? = some '\\' then
    let toks ← popNext ' ' st.1 i tok
    storeToken (toks, st.2) (← orRaise .indexError toks[i]?)
  else storeToken st tok

/-- The key under which the name of the image is stored. -/
def imageKey : Text := "stg_image_name".toList

/-- The name of the image, in the data directory unless it is absolute. -/
def imagePath (dataDir name : Text) : Except PyError Text := do
  let first ← orRaise .indexError name.head?
  if first = '/' then return name else return dataDir ++ '/' :: name

/-- `_create_params_matrix()`. -/
def createParamsMatrix (dataDir stgImageName stgParams : Text) :
    Except PyError (Dict Text Param) := do
  let path ← imagePath dataDir stgImageName
  let toks := stgParams.splitOn ' '
  let st ← (List.range toks.length).foldlM hotplugStep
    (toks, (∅ : Dict Text Param).set imageKey (.text path))
  return st.2

end TpQemu.StgParams
