import TpQemu.Lib.Dict
import TpQemu.Lib.Python

/-!
# The documents in the output of fio

`ThrottleTester._generate_output_by_json` in `provider/throttle_utils.py`. The output goes
through a temporary text file, which ends a line at a line feed, at a carriage return or at both
together and gives each end as a line feed. A document goes from a line with an opening brace
alone to the next line with a closing brace alone.
-/

namespace TpQemu.Throttle

/-! ## The lines of a text file -/

/-- What a text file gives for the text written to it. -/
def universalNewlines : List Char → List Char
  | [] => []
  | '\r' :: '\n' :: s => '\n' :: universalNewlines s
  | '\r' :: s => '\n' :: universalNewlines s
  | c :: s => c :: universalNewlines s

/-- What `readline` gives one after the other, behind the characters of an open line. -/
def linesFrom (line : List Char) : List Char → List (List Char)
  | [] => if line = [] then [] else [line]
  | c :: s =>
      if c = '\n' then (line ++ [c]) :: linesFrom [] s
      else linesFrom (line ++ [c]) s

/-- The lines of a text file with this text. -/
def fileLines (output : List Char) : List (List Char) := linesFrom [] (universalNewlines output)

theorem universalNewlines_cons {c : Char} (hc : c ≠ '\r') (s : List Char) :
    universalNewlines (c :: s) = c :: universalNewlines s := by
  rw [universalNewlines]
  · rintro s rfl
    exact absurd rfl hc
  · rintro rfl
    exact absurd rfl hc

theorem universalNewlines_append {l : List Char} (hl : '\r' ∉ l) (s : List Char) :
    universalNewlines (l ++ s) = l ++ universalNewlines s := by
  induction l with
  | nil => rfl
  | cons c l ih =>
      obtain ⟨hc, hl⟩ := not_or.mp (mt List.mem_cons.mpr hl)
      rw [List.cons_append, universalNewlines_cons (Ne.symm hc), ih hl, List.cons_append]

theorem linesFrom_append {l : List Char} (hl : '\n' ∉ l) (line s : List Char) :
    linesFrom line (l ++ s) = linesFrom (line ++ l) s := by
  induction l generalizing line with
  | nil => rw [List.append_nil, List.nil_append]
  | cons c l ih =>
      obtain ⟨hc, hl⟩ := not_or.mp (mt List.mem_cons.mpr hl)
      rw [List.cons_append, linesFrom, if_neg (Ne.symm hc), ih hl, List.append_assoc,
        List.singleton_append]

/-- Lines that hold no end of a line, each ended by a line feed. -/
theorem fileLines_flatMap {ls : List (List Char)} (hls : ∀ l ∈ ls, '\n' ∉ l ∧ '\r' ∉ l) :
    fileLines (ls.flatMap (· ++ ['\n'])) = ls.map (· ++ ['\n']) := by
  induction ls with
  | nil => rfl
  | cons l ls ih =>
      obtain ⟨⟨hlf, hcr⟩, hls⟩ := List.forall_mem_cons.mp hls
      rw [List.flatMap_cons, fileLines, List.append_assoc, universalNewlines_append hcr,
        List.singleton_append, universalNewlines_cons (by decide), linesFrom_append hlf,
        List.nil_append, linesFrom, if_pos rfl, List.map_cons, ← ih hls]
      rfl

/-! ## The framer -/

/-- A line with an opening brace alone. -/
def opening : List Char := ['\x7b', '\n']

/-- A line with a closing brace alone. -/
def closing : List Char := ['\x7d', '\n']

/-- The variables of the loop. -/
structure Frame (J : Type) where
  beginFlag : Bool
  blockIndex : Nat
  block : Dict Nat J
  data : List Char

section Framer

-- `json.loads`
variable {J : Type} (loads : List Char → Except PyError J)

/-- The end of a document: it is loaded and gets the next number. -/
def endBlock (f : Frame J) : Except PyError (Frame J) := do
  let document ← loads f.data
  return { beginFlag := false, blockIndex := f.blockIndex + 1,
           block := f.block.set f.blockIndex document, data := [] }

/-- The loop over the lines; where it leaves with `break`, the rest is not read. -/
def readBlocks : List (List Char) → Frame J → Except PyError (Frame J)
  | [], f => .ok f
  | line :: lines, f =>
      if line = opening ∧ f.beginFlag then .ok f
      else
        let f := if line = opening then { f with beginFlag := true } else f
        let f := if f.beginFlag then { f with data := f.data ++ line } else f
        if line = closing then
          if f.beginFlag then do
            let f ← endBlock loads f
            readBlocks lines f
          else .ok f
        else readBlocks lines f

/-- `_generate_output_by_json` -/
def generateOutputByJson (output : List Char) : Except PyError (Dict Nat J) := do
  let f ← readBlocks loads (fileLines output) ⟨false, 1, ∅, []⟩
  return if f.beginFlag then ∅ else f.block

end Framer

/-! ## Documents among other lines -/

/-- A line that neither opens nor closes a document. -/
def Plain (line : List Char) : Prop := line ≠ opening ∧ line ≠ closing

instance (line : List Char) : Decidable (Plain line) :=
  inferInstanceAs (Decidable (line ≠ opening ∧ line ≠ closing))

/-- A document, with the lines between its braces. -/
structure Document (J : Type) where
  value : J
  inner : List (List Char)

def Document.lines {J : Type} (d : Document J) : List (List Char) :=
  opening :: d.inner ++ [closing]

section Documents

variable {J : Type} {loads : List Char → Except PyError J}

/-- The lines are a text of the document, with braces alone at its ends only. -/
structure Document.Printed (loads : List Char → Except PyError J) (d : Document J) : Prop where
  inner : ∀ line ∈ d.inner, Plain line
  loads : loads d.lines.flatten = .ok d.value

/-- Between two documents nothing is recorded. -/
theorem readBlocks_between {lines : List (List Char)} (hlines : ∀ line ∈ lines, Plain line)
    {f : Frame J} (hf : f.beginFlag = false) (rest : List (List Char)) :
    readBlocks loads (lines ++ rest) f = readBlocks loads rest f := by
  induction lines with
  | nil => rfl
  | cons line lines ih =>
      obtain ⟨⟨hopening, hclosing⟩, hlines⟩ := List.forall_mem_cons.mp hlines
      rw [List.cons_append, readBlocks]
      simp only [hopening, hclosing, hf, false_and, if_false, Bool.false_eq_true]
      exact ih hlines

/-- Inside of a document all lines are collected. -/
theorem readBlocks_inside {lines : List (List Char)} (hlines : ∀ line ∈ lines, Plain line)
    {f : Frame J} (hf : f.beginFlag = true) (rest : List (List Char)) :
    readBlocks loads (lines ++ rest) f =
      readBlocks loads rest { f with data := f.data ++ lines.flatten } := by
  induction lines generalizing f with
  | nil => simp
  | cons line lines ih =>
      obtain ⟨⟨hopening, hclosing⟩, hlines⟩ := List.forall_mem_cons.mp hlines
      rw [List.cons_append, readBlocks]
      simp only [hopening, hclosing, hf, false_and, if_false, if_true]
      rw [ih hlines rfl, List.flatten_cons, ← List.append_assoc]

/-- The first line of a document. -/
theorem readBlocks_opening {f : Frame J} (hf : f.beginFlag = false) (hdata : f.data = [])
    (rest : List (List Char)) :
    readBlocks loads (opening :: rest) f =
      readBlocks loads rest { f with beginFlag := true, data := opening } := by
  have hne : opening ≠ closing := by decide
  rw [readBlocks]
  simp [hf, hdata, hne]

/-- A whole document gets the next number. -/
theorem readBlocks_document {d : Document J} (hd : d.Printed loads) {f : Frame J}
    (hf : f.beginFlag = false) (hdata : f.data = []) (rest : List (List Char)) :
    readBlocks loads (d.lines ++ rest) f = readBlocks loads rest
      { beginFlag := false, blockIndex := f.blockIndex + 1,
        block := f.block.set f.blockIndex d.value, data := [] } := by
  have hne : closing ≠ opening := by decide
  have hloads := hd.loads
  rw [Document.lines, List.flatten_append, List.flatten_cons, List.flatten_singleton] at hloads
  rw [Document.lines, List.append_assoc, List.cons_append, readBlocks_opening hf hdata,
    readBlocks_inside hd.inner rfl, List.singleton_append, readBlocks]
  simp only [hne, false_and, if_false, if_true]
  rw [endBlock, bind_of_eq_ok (a := d.value)]
  · rfl
  · simpa using hloads

/-- The documents with their numbers, from this one on. -/
def numbered (n : Nat) : List J → List (Nat × J)
  | [] => []
  | document :: documents => (n, document) :: numbered (n + 1) documents

/-- Documents, each with other lines behind it, are recorded in order. -/
theorem readBlocks_documents {parts : List (Document J × List (List Char))}
    (hdocuments : ∀ part ∈ parts, part.1.Printed loads)
    (hlines : ∀ part ∈ parts, ∀ line ∈ part.2, Plain line) {f : Frame J}
    (hf : f.beginFlag = false) (hdata : f.data = []) (hindex : ∀ k ∈ f.block.keys, k < f.blockIndex)
    (rest : List (List Char)) :
    ∃ f', readBlocks loads (parts.flatMap (fun part => part.1.lines ++ part.2) ++ rest) f =
        readBlocks loads rest f' ∧
      f'.beginFlag = false ∧ f'.data = [] ∧
      f'.block.entries =
        f.block.entries ++ numbered f.blockIndex (parts.map fun part => part.1.value) := by
  induction parts generalizing f with
  | nil => exact ⟨f, rfl, hf, hdata, by simp [numbered]⟩
  | cons part parts ih =>
      obtain ⟨hpart, hdocuments⟩ := List.forall_mem_cons.mp hdocuments
      obtain ⟨hline, hlines⟩ := List.forall_mem_cons.mp hlines
      have hnew : f.blockIndex ∉ f.block.keys := fun h => Nat.lt_irrefl _ (hindex _ h)
      have hindex' : ∀ k ∈ (f.block.set f.blockIndex part.1.value).keys, k < f.blockIndex + 1 := by
        intro k hk
        obtain rfl | hk := Dict.mem_keys_set.mp hk
        · exact Nat.lt_succ_self _
        · exact Nat.lt_succ_of_lt (hindex k hk)
      obtain ⟨f', hf', hflag, hdata', hentries⟩ := ih hdocuments hlines (f :=
        { beginFlag := false, blockIndex := f.blockIndex + 1,
          block := f.block.set f.blockIndex part.1.value, data := [] }) rfl rfl hindex'
      refine ⟨f', ?_, hflag, hdata', ?_⟩
      · rw [List.flatMap_cons, List.append_assoc, List.append_assoc,
          readBlocks_document hpart hf hdata, readBlocks_between hline rfl, hf']
      · rw [hentries, Dict.entries_set_of_notMem hnew, List.append_assoc, List.map_cons, numbered,
          List.singleton_append]

end Documents

/-- From output whose lines are documents among other lines, the documents are returned with the
numbers from 1 on; from output that ends inside of a document nothing is. -/
theorem generateOutputByJson_documents {J : Type} (loads : List Char → Except PyError J)
    (before : List (List Char)) (parts : List (Document J × List (List Char)))
    (hbefore : ∀ line ∈ before, Plain line)
    (hdocuments : ∀ part ∈ parts, part.1.Printed loads)
    (hlines : ∀ part ∈ parts, ∀ line ∈ part.2, Plain line) (output : List Char) :
    (fileLines output = before ++ parts.flatMap (fun part => part.1.lines ++ part.2) →
      ∃ block, generateOutputByJson loads output = .ok block ∧
        block.entries = numbered 1 (parts.map fun part => part.1.value)) ∧
    ∀ inner, (∀ line ∈ inner, Plain line) →
      fileLines output =
        before ++ parts.flatMap (fun part => part.1.lines ++ part.2) ++ opening :: inner →
      generateOutputByJson loads output = .ok ∅ := by
  have hread : ∀ rest, ∃ f, readBlocks loads
      (before ++ (parts.flatMap (fun part => part.1.lines ++ part.2) ++ rest)) ⟨false, 1, ∅, []⟩ =
        readBlocks loads rest f ∧ f.beginFlag = false ∧ f.data = [] ∧
      f.block.entries = numbered 1 (parts.map fun part => part.1.value) := by
    intro rest
    obtain ⟨f, hf, hflag, hdata, hentries⟩ := readBlocks_documents hdocuments hlines
      (f := ⟨false, 1, ∅, []⟩) rfl rfl (by simp) rest
    exact ⟨f, (readBlocks_between hbefore rfl _).trans hf, hflag, hdata, hentries⟩
  constructor
  · intro houtput
    obtain ⟨f, hf, hflag, -, hentries⟩ := hread []
    refine ⟨f.block, ?_, hentries⟩
    rw [List.append_nil, ← houtput] at hf
    rw [generateOutputByJson, bind_of_eq_ok hf, hflag]
    rfl
  · intro inner hinner houtput
    obtain ⟨f, hf, hflag, hdata, -⟩ := hread (opening :: inner)
    rw [← List.append_assoc, ← houtput, readBlocks_opening hflag hdata, ← List.append_nil inner,
      readBlocks_inside hinner rfl] at hf
    rw [generateOutputByJson, bind_of_eq_ok hf]
    rfl

/-- What `json.loads` gives for a document with a number of jobs. -/
def loadsJobs (text : List Char) : Except PyError (Dict String Nat) :=
  if text = "\x7b\n\"jobs\": 1\n\x7d\n".toList then .ok (Dict.empty.set "jobs" 1)
  else if text = "\x7b\n\"jobs\": 2\n\x7d\n".toList then .ok (Dict.empty.set "jobs" 2)
  else .error .valueError

def jobs (n : Nat) (digit : Char) : Document (Dict String Nat) :=
  ⟨Dict.empty.set "jobs" n, [['"', 'j', 'o', 'b', 's', '"', ':', ' ', digit, '\n']]⟩

/-- Two documents with a line before them and a line between them, and the same output cut off
inside of the second one. -/
theorem generateOutputByJson_jobs :
    (∃ block, generateOutputByJson loadsJobs
        ("fio\n\x7b\n\"jobs\": 1\n\x7d\nwarning\n\x7b\n\"jobs\": 2\n\x7d\n").toList = .ok block ∧
      block.entries = [(1, Dict.empty.set "jobs" 1), (2, Dict.empty.set "jobs" 2)]) ∧
    generateOutputByJson loadsJobs
      ("fio\n\x7b\n\"jobs\": 1\n\x7d\nwarning\n\x7b\n\"jobs\": 2\n").toList = .ok ∅ := by
  have hbefore : ∀ line ∈ ["fio\n".toList], Plain line := by decide
  have hjobs : (jobs 1 '1').Printed loadsJobs ∧ (jobs 2 '2').Printed loadsJobs := by
    refine ⟨⟨by decide, rfl⟩, ⟨by decide, rfl⟩⟩
  constructor
  · refine (generateOutputByJson_documents loadsJobs ["fio\n".toList]
      [(jobs 1 '1', ["warning\n".toList]), (jobs 2 '2', [])] hbefore ?_ ?_ _).1 (by decide)
    · simp [hjobs]
    · decide
  · refine (generateOutputByJson_documents loadsJobs ["fio\n".toList]
      [(jobs 1 '1', ["warning\n".toList])] hbefore ?_ ?_ _).2 (jobs 2 '2').inner ?_ (by decide)
    · simp [hjobs]
    · decide
    · exact hjobs.2.inner

end TpQemu.Throttle
