import Mathlib.Data.List.Nodup
import TpQemu.Lib.Numeral
import TpQemu.Lib.Python
import TpQemu.Lib.Replace

/-!
# Loopback scenarios

The parser of `test_loopback` in `qemu/tests/virtio_console.py`, which turns each scenario of
`virtio_console_params` into ports and buffer lengths, against the grammar of its docstring.
-/

namespace TpQemu.VirtioConsole

open Text Numeral

inductive Kind where
  | console
  | serialport
  deriving DecidableEq

/-- The name of a kind in a scenario. -/
def Kind.text : Kind → List Char
  | .console => ['c', 'o', 'n', 's', 'o', 'l', 'e']
  | .serialport => ['s', 'e', 'r', 'i', 'a', 'l', 'p', 'o', 'r', 't']

section Definitions

variable {Port : Type}

/-- The ports of a scenario with their buffer lengths, the one of the loopback last. -/
structure Setup (Port : Type) where
  sendPt : Port
  recvPts : List Port
  bufLen : List Int

/-- `idx_console`, `idx_serialport` and `buf_len`. -/
structure Locals where
  idxConsole : Nat
  idxSerialport : Nat
  bufLen : List Int

/-- The number of ports of each kind that the scenarios need at once. -/
def countPorts (kind : Kind) (testParams : List Char) : Nat :=
  (testParams.splitOn ';').foldl (fun n param => max n (occurrences kind.text param)) 0

/-- `parm.isdigit()`, on the ASCII digits. -/
def isdigit (parm : List Char) : Bool := !parm.isEmpty && parm.all Char.isDigit

/-- `int(text.split("@")[1])` if there are two parts, and 1024 otherwise. -/
def lengthOf (text : List Char) : Except PyError Int :=
  match text.splitOn '@' with
  | [_, len] => orRaise .valueError (int len)
  | _ => .ok 1024

variable (consoles serialports : List Port)

/-- The next port of the kind that a piece begins with. -/
def nextPort (parm : List Char) (s : Locals) : Except PyError (Port × Locals) :=
  if Kind.console.text <+: parm then do
    let port ← orRaise .indexError consoles[s.idxConsole]?
    return (port, { s with idxConsole := s.idxConsole + 1 })
  else do
    let port ← orRaise .indexError serialports[s.idxSerialport]?
    return (port, { s with idxSerialport := s.idxSerialport + 1 })

/-- The loop over the pieces behind the source. -/
def receivers : List (List Char) → Locals → Except PyError (List Port × Locals)
  | [], s => .ok ([], s)
  | parm :: parms, s =>
      if isdigit parm then do
        let len ← orRaise .valueError (int parm)
        return ([], { s with bufLen := s.bufLen ++ [len] })
      else do
        let (port, s) ← nextPort consoles serialports parm s
        -- the length is looked for in the first character of the piece
        let first ← orRaise .indexError parm.head?
        let len ← lengthOf [first]
        let (recvPts, s) ← receivers parms { s with bufLen := s.bufLen ++ [len] }
        return (port :: recvPts, s)

/-- One scenario. -/
def parseScenario (param : List Char) : Except PyError (Setup Port) := do
  let parms := param.splitOn ':'
  let (sendPt, s) ← nextPort consoles serialports (parms.headD []) ⟨0, 0, []⟩
  let len ← lengthOf (parms.headD [])
  let (recvPts, s) ← receivers consoles serialports parms.tail { s with bufLen := [len] }
  let bufLen :=
    if s.bufLen.length = s.idxConsole + s.idxSerialport then s.bufLen ++ [1024] else s.bufLen
  if recvPts.isEmpty then
    throw (.testFail "test_loopback: incorrect recv consoles definition")
  return { sendPt, recvPts, bufLen }

end Definitions

/-- What is used of `virttest`: a machine has the ports that were asked for, and they are
distinct. -/
structure Virttest (Port : Type) where
  /-- The consoles and serial ports for a number of either. -/
  getVirtioPorts : Nat → Nat → List Port × List Port
  enough : ∀ c s, c ≤ (getVirtioPorts c s).1.length ∧ s ≤ (getVirtioPorts c s).2.length
  nodup : ∀ c s, ((getVirtioPorts c s).1 ++ (getVirtioPorts c s).2).Nodup

/-- The setups of `test_loopback`. -/
def testLoopback {Port : Type} (v : Virttest Port) (testParams : List Char) :
    Except PyError (List (Setup Port)) :=
  let (consoles, serialports) :=
    v.getVirtioPorts (countPorts .console testParams) (countPorts .serialport testParams)
  ((testParams.splitOn ';').filter fun param => !param.isEmpty).mapM
    (parseScenario consoles serialports)

/-! ## The grammar -/

section Grammar

/-- A buffer length in digits. -/
structure Length where
  digits : List Char
  ne_nil : digits ≠ []
  isDigit : ∀ c ∈ digits, c.isDigit

/-- A source or destination. -/
structure End where
  kind : Kind
  len : Option Length

structure Scenario where
  source : End
  dests : List End
  dests_ne_nil : dests ≠ []
  loopback : Option Length

def Length.value (l : Length) : Int := Nat.ofDigitChars 10 l.digits 0

/-- A length that is left out is 1024. -/
def lengthValue (len : Option Length) : Int := len.elim 1024 Length.value

def End.render (e : End) : List Char := e.kind.text ++ e.len.elim [] ('@' :: ·.digits)

def Scenario.pieces (sc : Scenario) : List (List Char) :=
  sc.source.render :: sc.dests.map End.render ++ sc.loopback.toList.map Length.digits

def Scenario.render (sc : Scenario) : List Char := [':'].intercalate sc.pieces

def render (scs : List Scenario) : List Char := [';'].intercalate (scs.map Scenario.render)

/-- The kinds of the source and the destinations. -/
def Scenario.kinds (sc : Scenario) : List Kind := sc.source.kind :: sc.dests.map End.kind

/-- The lengths for the sender, the receivers and the loopback. -/
def Scenario.lengths (sc : Scenario) : List Int :=
  lengthValue sc.source.len :: sc.dests.map (lengthValue ·.len) ++ [lengthValue sc.loopback]

end Grammar

/-! ## What a document is to give -/

section Spec

variable {Port : Type}

/-- The ports for the kinds of some ends, behind ends of earlier kinds: each gets the next one of
its kind. -/
def portsFor (ports : Kind → List Port) : List Kind → List Kind → List (Option Port)
  | _, [] => []
  | earlier, kind :: kinds =>
      (ports kind)[earlier.count kind]? :: portsFor ports (earlier ++ [kind]) kinds

/-- The consoles and serial ports that are asked for. -/
def Virttest.ports (v : Virttest Port) (testParams : List Char) (kind : Kind) : List Port :=
  let (consoles, serialports) :=
    v.getVirtioPorts (countPorts .console testParams) (countPorts .serialport testParams)
  match kind with
  | .console => consoles
  | .serialport => serialports

/-- A setup has distinct ports of the kinds that a scenario names, in order, and its lengths. -/
structure Matches (ports : Kind → List Port) (sc : Scenario) (setup : Setup Port) : Prop where
  ports_eq : (setup.sendPt :: setup.recvPts).map some = portsFor ports [] sc.kinds
  nodup : (setup.sendPt :: setup.recvPts).Nodup
  lengths_eq : setup.bufLen = sc.lengths

/-- The document asks for enough ports and gives the setups of its scenarios. -/
def Follows (v : Virttest Port) (scs : List Scenario) : Prop :=
  (∀ sc ∈ scs, ∀ kind, sc.kinds.count kind ≤ countPorts kind (render scs)) ∧
    ∃ setups, testLoopback v (render scs) = .ok setups ∧
      List.Forall₂ (Matches (v.ports (render scs))) scs setups

end Spec

/-! ## Pieces -/

section Pieces

theorem Length.int_digits (l : Length) : int l.digits = some l.value := by
  rw [Numeral.int_digits l.isDigit, if_neg l.ne_nil]
  rfl

theorem Length.isdigit_digits (l : Length) : isdigit l.digits = true := by
  simpa [isdigit, l.ne_nil] using l.isDigit

variable (e : End)

/-- What stands behind the name of the kind. -/
theorem End.notMem_length {c : Char} (hat : c ≠ '@') (hdigit : c.isDigit = false) :
    c ∉ e.len.elim [] ('@' :: ·.digits) := by
  cases e.len with
  | none => exact List.not_mem_nil
  | some l =>
      intro h
      rcases List.mem_cons.mp h with h | h
      · exact hat h
      · rw [l.isDigit c h] at hdigit
        cases hdigit

theorem End.notMem_render {c : Char} (hkind : ∀ kind : Kind, c ∉ kind.text) (hat : c ≠ '@')
    (hdigit : c.isDigit = false) : c ∉ e.render := by
  rw [End.render, List.mem_append, not_or]
  exact ⟨hkind e.kind, e.notMem_length hat hdigit⟩

theorem End.head?_render : e.render.head? = e.kind.text.head? := by
  rw [End.render]
  cases e.kind <;> rfl

theorem End.isdigit_render : isdigit e.render = false := by
  rw [End.render]
  cases e.kind <;> simp [isdigit, Kind.text]

theorem End.console_prefix_render : Kind.console.text <+: e.render ↔ e.kind = .console := by
  rw [End.render]
  cases e.kind with
  | console => simp [Kind.text]
  | serialport => simp [Kind.text]

theorem End.lengthOf_render : lengthOf e.render = .ok (lengthValue e.len) := by
  have hkind : '@' ∉ e.kind.text := by cases e.kind <;> decide
  rw [lengthOf, End.render]
  cases e.len with
  | none =>
      rw [Option.elim_none, List.append_nil, List.splitOn_eq_singleton hkind]
      rfl
  | some l =>
      have hdigits : '@' ∉ l.digits := fun h => absurd (l.isDigit '@' h) (by decide)
      rw [Option.elim_some, List.splitOn_append_cons_self_of_not_mem hkind,
        List.splitOn_eq_singleton hdigits]
      simp only [l.int_digits]
      rfl

/-- The first character of an end has no length in it. -/
theorem End.lengthOf_first : ∃ c, e.render.head? = some c ∧ lengthOf [c] = .ok 1024 := by
  rw [e.head?_render]
  cases e.kind with
  | console => exact ⟨'c', rfl, rfl⟩
  | serialport => exact ⟨'s', rfl, rfl⟩

theorem occurrences_of_notMem {pat s : List Char} {c : Char} (hpat : c ∈ pat) (hs : c ∉ s) :
    occurrences pat s = 0 :=
  occurrences_of_absent (List.ne_nil_of_mem hpat) fun h => hs (h.subset hpat)

/-- How often the name of a kind occurs. -/
theorem End.occurrences_render (kind : Kind) :
    occurrences kind.text e.render = if e.kind = kind then 1 else 0 := by
  have hsame : ∀ c ∈ kind.text, c ≠ '@' → c.isDigit = false → e.kind = kind →
      occurrences kind.text e.render = 1 := by
    intro c hc hat hdigit heq
    rw [End.render, heq, occurrences_append_self (List.ne_nil_of_mem hc),
      occurrences_of_notMem hc (e.notMem_length hat hdigit)]
  split_ifs with heq
  · cases kind with
    | console => exact hsame 'c' (by decide) (by decide) (by decide) heq
    | serialport => exact hsame 's' (by decide) (by decide) (by decide) heq
  · -- each name has a letter that the other one lacks
    have hother : ∀ c ∈ kind.text, c ∉ e.kind.text → c ≠ '@' → c.isDigit = false →
        occurrences kind.text e.render = 0 := by
      intro c hc hkind hat hdigit
      refine occurrences_of_notMem hc ?_
      rw [End.render, List.mem_append, not_or]
      exact ⟨hkind, e.notMem_length hat hdigit⟩
    cases kind with
    | console =>
        cases hkind : e.kind with
        | console => exact absurd hkind heq
        | serialport => exact hother 'c' (by decide) (by rw [hkind]; decide) (by decide) (by decide)
    | serialport =>
        cases hkind : e.kind with
        | console => exact hother 'r' (by decide) (by rw [hkind]; decide) (by decide) (by decide)
        | serialport => exact absurd hkind heq

end Pieces

section Documents

variable (sc : Scenario)

theorem notMem_intercalate {c sep : Char} (hsep : c ≠ sep) {parts : List (List Char)}
    (h : ∀ part ∈ parts, c ∉ part) : c ∉ [sep].intercalate parts := by
  induction parts with
  | nil => exact List.not_mem_nil
  | cons a parts ih =>
      obtain ⟨ha, hparts⟩ := List.forall_mem_cons.mp h
      cases parts with
      | nil =>
          rw [List.intercalate_singleton]
          exact ha
      | cons b parts =>
          rw [List.intercalate_cons_cons, List.mem_append, List.mem_append, List.mem_singleton]
          exact not_or.mpr ⟨not_or.mpr ⟨ha, hsep⟩, ih hparts⟩

theorem Scenario.notMem_piece {c : Char} (hkind : ∀ kind : Kind, c ∉ kind.text) (hat : c ≠ '@')
    (hdigit : c.isDigit = false) : ∀ piece ∈ sc.pieces, c ∉ piece := by
  intro piece hpiece
  rcases List.mem_append.mp hpiece with hend | hloopback
  · rw [← List.map_cons (f := End.render), List.mem_map] at hend
    obtain ⟨e, -, rfl⟩ := hend
    exact e.notMem_render hkind hat hdigit
  · obtain ⟨l, -, rfl⟩ := List.mem_map.mp hloopback
    intro hc
    rw [l.isDigit c hc] at hdigit
    cases hdigit

theorem Scenario.splitOn_render : sc.render.splitOn ':' = sc.pieces := by
  refine List.splitOn_intercalate ':' (sc.notMem_piece ?_ (by decide) (by decide))
    (List.cons_ne_nil _ _)
  rintro (_ | _) <;> decide

theorem splitOn_render {scs : List Scenario} (hne : scs ≠ []) :
    (render scs).splitOn ';' = scs.map Scenario.render := by
  refine List.splitOn_intercalate ';' (fun text htext => ?_) (by simpa using hne)
  obtain ⟨sc, -, rfl⟩ := List.mem_map.mp htext
  refine notMem_intercalate (by decide) (sc.notMem_piece ?_ (by decide) (by decide))
  rintro (_ | _) <;> decide

theorem Scenario.render_ne_nil : sc.render ≠ [] := by
  intro hnil
  have hpieces := sc.splitOn_render
  rw [hnil, List.splitOn_nil, Scenario.pieces, List.cons_append] at hpieces
  have hhead := sc.source.head?_render
  rw [← (List.cons.inj hpieces).1] at hhead
  cases hkind : sc.source.kind with
  | console =>
      rw [hkind] at hhead
      cases hhead
  | serialport =>
      rw [hkind] at hhead
      cases hhead

theorem sum_map_ite (kind : Kind) (es : List End) :
    (es.map fun e => if e.kind = kind then 1 else 0).sum = (es.map End.kind).count kind := by
  induction es with
  | nil => rfl
  | cons e es ih =>
      rw [List.map_cons, List.sum_cons, ih, List.map_cons, List.count_cons, Nat.add_comm]
      simp only [beq_iff_eq]

theorem Scenario.occurrences_render (kind : Kind) :
    occurrences kind.text sc.render = sc.kinds.count kind := by
  have hne : kind.text ≠ [] := by cases kind <;> decide
  have hsep : ':' ∉ kind.text := by cases kind <;> decide
  have hloopback : ∀ l : Length, occurrences kind.text l.digits = 0 := by
    intro l
    refine occurrences_of_notMem (c := 'o') (by cases kind <;> decide) fun h => ?_
    exact absurd (l.isDigit 'o' h) (by decide)
  have hends : sc.pieces.map (occurrences kind.text) =
      (sc.source :: sc.dests).map (fun e => if e.kind = kind then 1 else 0) ++
        sc.loopback.toList.map fun _ => 0 := by
    simp [Scenario.pieces, End.occurrences_render, hloopback, Function.comp_def]
  rw [Scenario.render, occurrences_intercalate hne hsep, hends, List.sum_append, sum_map_ite]
  simp [Scenario.kinds]

theorem le_foldl_max {α : Type} (f : α → Nat) (l : List α) (n : Nat) :
    n ≤ l.foldl (fun n a => max n (f a)) n ∧ ∀ a ∈ l, f a ≤ l.foldl (fun n a => max n (f a)) n := by
  induction l generalizing n with
  | nil => exact ⟨le_rfl, List.forall_mem_nil _⟩
  | cons a l ih =>
      obtain ⟨hstart, hall⟩ := ih (max n (f a))
      rw [List.foldl_cons]
      refine ⟨(le_max_left _ _).trans hstart, List.forall_mem_cons.mpr ⟨?_, hall⟩⟩
      exact (le_max_right _ _).trans hstart

/-- The ports that are asked for are enough for every scenario. -/
theorem count_le_countPorts {scs : List Scenario} {sc : Scenario} (hsc : sc ∈ scs) (kind : Kind) :
    sc.kinds.count kind ≤ countPorts kind (render scs) := by
  rw [← sc.occurrences_render, countPorts, splitOn_render (List.ne_nil_of_mem hsc)]
  exact (le_foldl_max _ _ 0).2 _ (List.mem_map.mpr ⟨sc, hsc, rfl⟩)

end Documents

/-! ## Ports -/

section Ports

variable {Port : Type} {ports : Kind → List Port}

theorem exists_of_mem_portsFor {earlier kinds : List Kind} {o : Option Port}
    (h : o ∈ portsFor ports earlier kinds) :
    ∃ kind i, earlier.count kind ≤ i ∧ o = (ports kind)[i]? := by
  induction kinds generalizing earlier with
  | nil => exact absurd h List.not_mem_nil
  | cons kind kinds ih =>
      rw [portsFor] at h
      rcases List.mem_cons.mp h with rfl | h
      · exact ⟨kind, earlier.count kind, le_rfl, rfl⟩
      · obtain ⟨kind', i, hi, ho⟩ := ih h
        refine ⟨kind', i, ?_, ho⟩
        rw [List.count_append] at hi
        omega

theorem port_unique (hnodup : (ports .console ++ ports .serialport).Nodup) {kind kind' : Kind}
    {i i' : Nat} {p : Port} (h : (ports kind)[i]? = some p) (h' : (ports kind')[i']? = some p) :
    kind = kind' ∧ i = i' := by
  obtain ⟨hconsole, hserialport, hdisjoint⟩ := List.nodup_append.mp hnodup
  have hmem := List.mem_of_getElem? h
  have hmem' := List.mem_of_getElem? h'
  have hlt : i < (ports kind).length := (List.getElem?_eq_some_iff.mp h).1
  cases kind with
  | console =>
      cases kind' with
      | console => exact ⟨rfl, (List.getElem?_inj hlt hconsole).mp (h.trans h'.symm)⟩
      | serialport => exact absurd rfl (hdisjoint p hmem p hmem')
  | serialport =>
      cases kind' with
      | console => exact absurd rfl (hdisjoint p hmem' p hmem)
      | serialport => exact ⟨rfl, (List.getElem?_inj hlt hserialport).mp (h.trans h'.symm)⟩

/-- The ports for some ends are distinct. -/
theorem nodup_of_portsFor (hnodup : (ports .console ++ ports .serialport).Nodup)
    {earlier kinds : List Kind} {ps : List Port} (h : ps.map some = portsFor ports earlier kinds) :
    ps.Nodup := by
  induction kinds generalizing earlier ps with
  | nil =>
      rw [portsFor, List.map_eq_nil_iff] at h
      rw [h]
      exact List.nodup_nil
  | cons kind kinds ih =>
      cases ps with
      | nil => cases h
      | cons p ps =>
          rw [portsFor, List.map_cons] at h
          obtain ⟨hp, hps⟩ := List.cons.inj h
          refine List.nodup_cons.mpr ⟨fun hmem => ?_, ih hps⟩
          have hlater : some p ∈ portsFor ports (earlier ++ [kind]) kinds := by
            rw [← hps]
            exact List.mem_map_of_mem hmem
          obtain ⟨kind', i, hi, hp'⟩ := exists_of_mem_portsFor hlater
          obtain ⟨rfl, rfl⟩ := port_unique hnodup hp.symm hp'.symm
          rw [List.count_append, List.count_singleton_self] at hi
          omega

end Ports

/-! ## The parser on rendered scenarios -/

section Parser

variable {Port : Type} {ports : Kind → List Port}

/-- The counters are those for ends of some kinds. -/
def Locals.Counts (s : Locals) (kinds : List Kind) : Prop :=
  s.idxConsole = kinds.count .console ∧ s.idxSerialport = kinds.count .serialport

theorem length_eq_count_add (kinds : List Kind) :
    kinds.length = kinds.count .console + kinds.count .serialport := by
  induction kinds with
  | nil => rfl
  | cons kind kinds ih =>
      cases kind with
      | console =>
          rw [List.length_cons, List.count_cons_self, List.count_cons_of_ne (by decide), ih]
          omega
      | serialport =>
          rw [List.length_cons, List.count_cons_self, List.count_cons_of_ne (by decide), ih]
          omega

/-- An end takes the next port of its kind. -/
theorem nextPort_render {e : End} {s : Locals} {kinds : List Kind} {port : Port}
    (hs : s.Counts kinds) (hport : (ports e.kind)[kinds.count e.kind]? = some port) :
    ∃ s', nextPort (ports .console) (ports .serialport) e.render s = .ok (port, s') ∧
      s'.Counts (kinds ++ [e.kind]) ∧ s'.bufLen = s.bufLen := by
  obtain ⟨hconsole, hserialport⟩ := hs
  rw [nextPort]
  cases hkind : e.kind with
  | console =>
      rw [hkind, ← hconsole] at hport
      rw [if_pos (e.console_prefix_render.mpr hkind), hport]
      refine ⟨_, rfl, ⟨?_, ?_⟩, rfl⟩
      · simp [List.count_append, hconsole]
      · simp [List.count_append, hserialport]
  | serialport =>
      rw [hkind, ← hserialport] at hport
      rw [if_neg (by rw [e.console_prefix_render, hkind]; decide), hport]
      refine ⟨_, rfl, ⟨?_, ?_⟩, rfl⟩
      · simp [List.count_append, hconsole]
      · simp [List.count_append, hserialport]

/-- The loop over the destinations. Their lengths are not read. -/
theorem receivers_render {dests : List End} (loopback : Option Length) {s : Locals}
    {kinds : List Kind} (hs : s.Counts kinds)
    (henough : ∀ kind, (kinds ++ dests.map End.kind).count kind ≤ (ports kind).length) :
    ∃ recvPts s', receivers (ports .console) (ports .serialport)
        (dests.map End.render ++ loopback.toList.map Length.digits) s = .ok (recvPts, s') ∧
      recvPts.map some = portsFor ports kinds (dests.map End.kind) ∧
      s'.Counts (kinds ++ dests.map End.kind) ∧
      s'.bufLen = s.bufLen ++ dests.map (fun _ => 1024) ++ loopback.toList.map Length.value := by
  induction dests generalizing s kinds with
  | nil =>
      cases loopback with
      | none => exact ⟨[], s, rfl, rfl, by simpa using hs, by simp⟩
      | some l =>
          refine ⟨[], { s with bufLen := s.bufLen ++ [l.value] }, ?_, rfl, ?_, by simp⟩
          · change receivers _ _ [l.digits] s = _
            rw [receivers, if_pos l.isdigit_digits, l.int_digits]
            rfl
          · rw [List.map_nil, List.append_nil]
            exact hs
  | cons e dests ih =>
      have hlt : kinds.count e.kind < (ports e.kind).length := by
        have hkind := henough e.kind
        rw [List.map_cons, List.count_append, List.count_cons_self] at hkind
        omega
      obtain ⟨s₁, hnext, hs₁, hbuf₁⟩ := nextPort_render hs (List.getElem?_eq_getElem hlt)
      obtain ⟨c, hc, hlen⟩ := e.lengthOf_first
      have hs₂ : Locals.Counts { s₁ with bufLen := s₁.bufLen ++ [1024] } (kinds ++ [e.kind]) := hs₁
      obtain ⟨recvPts, s', hrest, hports, hcounts, hbuf⟩ := ih hs₂ (by simpa using henough)
      refine ⟨(ports e.kind)[kinds.count e.kind] :: recvPts, s', ?_, ?_, by simpa using hcounts, ?_⟩
      · rw [List.map_cons, List.cons_append, receivers, if_neg (by simp [e.isdigit_render]),
          bind_of_eq_ok hnext]
        dsimp only
        rw [hc, orRaise_some, bind_of_eq_ok rfl, bind_of_eq_ok hlen, bind_of_eq_ok hrest]
        rfl
      · rw [List.map_cons, List.map_cons, portsFor, hports, List.getElem?_eq_getElem hlt]
      · rw [hbuf, hbuf₁]
        simp

/-- The lengths that a scenario is read to have. -/
def Scenario.readLengths (sc : Scenario) : List Int :=
  lengthValue sc.source.len :: sc.dests.map (fun _ => 1024) ++ [lengthValue sc.loopback]

theorem Scenario.readLengths_eq_iff (sc : Scenario) :
    sc.readLengths = sc.lengths ↔ ∀ e ∈ sc.dests, lengthValue e.len = 1024 := by
  simp only [Scenario.readLengths, Scenario.lengths, List.cons_append, List.cons.injEq, true_and,
    List.append_cancel_right_eq, List.map_inj_left]
  exact forall₂_congr fun _ _ => eq_comm

theorem parseScenario_render (sc : Scenario)
    (henough : ∀ kind, sc.kinds.count kind ≤ (ports kind).length) :
    ∃ setup, parseScenario (ports .console) (ports .serialport) sc.render = .ok setup ∧
      (setup.sendPt :: setup.recvPts).map some = portsFor ports [] sc.kinds ∧
      setup.bufLen = sc.readLengths := by
  have hlt : 0 < (ports sc.source.kind).length := by
    have hkind := henough sc.source.kind
    rw [Scenario.kinds, List.count_cons_self] at hkind
    omega
  have hstart : Locals.Counts ⟨0, 0, []⟩ [] := ⟨rfl, rfl⟩
  obtain ⟨s₁, hnext, hs₁, -⟩ := nextPort_render hstart (List.getElem?_eq_getElem hlt)
  have hs₂ : Locals.Counts { s₁ with bufLen := [lengthValue sc.source.len] }
    ([] ++ [sc.source.kind]) := hs₁
  obtain ⟨recvPts, s', hrest, hports, hcounts, hbuf⟩ :=
    receivers_render sc.loopback hs₂ henough
  have hlength : s'.idxConsole + s'.idxSerialport = sc.dests.length + 1 := by
    rw [hcounts.1, hcounts.2, ← length_eq_count_add]
    simp
  have hrecv : recvPts ≠ [] := by
    rintro rfl
    obtain ⟨e, dests, hdests⟩ := List.exists_cons_of_ne_nil sc.dests_ne_nil
    rw [hdests] at hports
    cases hports
  have hread : (if s'.bufLen.length = s'.idxConsole + s'.idxSerialport then s'.bufLen ++ [1024]
      else s'.bufLen) = sc.readLengths := by
    rw [hbuf, hlength, Scenario.readLengths]
    cases sc.loopback with
    | none => simp [lengthValue]
    | some l => simp [lengthValue]
  refine ⟨⟨(ports sc.source.kind)[0], recvPts, sc.readLengths⟩, ?_, ?_, rfl⟩
  · rw [parseScenario, sc.splitOn_render, Scenario.pieces]
    simp only [List.cons_append, List.headD_cons, List.tail_cons]
    rw [bind_of_eq_ok hnext]
    dsimp only
    rw [bind_of_eq_ok sc.source.lengthOf_render, bind_of_eq_ok hrest]
    dsimp only
    rw [hread, if_neg (by simpa using hrecv)]
    rfl
  · rw [List.map_cons, hports, Scenario.kinds, portsFor, List.count_nil,
      List.getElem?_eq_getElem hlt]

end Parser

section Results

variable {Port : Type} (v : Virttest Port) (scs : List Scenario)

theorem testLoopback_render :
    testLoopback v (render scs) = (scs.map Scenario.render).mapM
      (parseScenario (v.ports (render scs) .console) (v.ports (render scs) .serialport)) := by
  have hparams : ((render scs).splitOn ';').filter (fun param => !param.isEmpty) =
      scs.map Scenario.render := by
    by_cases hne : scs = []
    · rw [hne]
      rfl
    · rw [splitOn_render hne, List.filter_eq_self]
      intro param hparam
      obtain ⟨sc, -, rfl⟩ := List.mem_map.mp hparam
      simpa using sc.render_ne_nil
  rw [testLoopback, hparams]
  rfl

variable {scs}

theorem Virttest.count_le_ports {sc : Scenario} (hsc : sc ∈ scs) (kind : Kind) :
    sc.kinds.count kind ≤ (v.ports (render scs) kind).length := by
  have hcount := count_le_countPorts hsc kind
  obtain ⟨hconsole, hserialport⟩ :=
    v.enough (countPorts .console (render scs)) (countPorts .serialport (render scs))
  cases kind with
  | console => exact hcount.trans hconsole
  | serialport => exact hcount.trans hserialport

theorem forall₂_of_mapM {α β γ : Type} {f : β → Except PyError γ} {g : α → β} {R : α → γ → Prop}
    {l : List α} (h : ∀ a ∈ l, ∃ c, f (g a) = .ok c ∧ R a c) :
    ∃ cs, (l.map g).mapM f = .ok cs ∧ List.Forall₂ R l cs := by
  induction l with
  | nil => exact ⟨[], rfl, .nil⟩
  | cons a l ih =>
      obtain ⟨⟨c, hc, hR⟩, hl⟩ := List.forall_mem_cons.mp h
      obtain ⟨cs, hcs, hRs⟩ := ih hl
      refine ⟨c :: cs, ?_, .cons hR hRs⟩
      rw [List.map_cons, List.mapM_cons, bind_of_eq_ok hc, bind_of_eq_ok hcs]
      rfl

theorem exists_of_forall₂ {α β : Type} {R S : α → β → Prop} {l : List α} {l' : List β}
    (hR : List.Forall₂ R l l') (hS : List.Forall₂ S l l') : ∀ a ∈ l, ∃ b, R a b ∧ S a b := by
  induction hR with
  | nil => exact List.forall_mem_nil _
  | cons hab _ ih =>
      cases hS with
      | cons hab' hS => exact List.forall_mem_cons.mpr ⟨⟨_, hab, hab'⟩, ih hS⟩

/-- All but the lengths is as in the grammar. -/
theorem exists_setups (scs : List Scenario) :
    ∃ setups, testLoopback v (render scs) = .ok setups ∧
      List.Forall₂ (fun sc (setup : Setup Port) =>
        (setup.sendPt :: setup.recvPts).map some = portsFor (v.ports (render scs)) [] sc.kinds ∧
          setup.bufLen = sc.readLengths) scs setups := by
  rw [testLoopback_render]
  exact forall₂_of_mapM fun sc hsc => parseScenario_render sc (v.count_le_ports hsc)

theorem readLengths_of_follows (h : Follows v scs) : ∀ sc ∈ scs, sc.readLengths = sc.lengths := by
  obtain ⟨setups, hsetups, hread⟩ := exists_setups v scs
  obtain ⟨-, setups', hsetups', hmatches⟩ := h
  cases hsetups.symm.trans hsetups'
  intro sc hsc
  obtain ⟨setup, ⟨-, hlen⟩, hmatch⟩ := exists_of_forall₂ hread hmatches sc hsc
  exact hlen.symm.trans hmatch.lengths_eq

/-- The parser follows the grammar exactly if the lengths given for destinations are the default. -/
theorem follows_iff (scs : List Scenario) :
    Follows v scs ↔ ∀ sc ∈ scs, ∀ e ∈ sc.dests, ∀ l, e.len = some l → l.value = 1024 := by
  have hlengths : (∀ sc ∈ scs, ∀ e ∈ sc.dests, ∀ l, e.len = some l → l.value = 1024) ↔
      ∀ sc ∈ scs, sc.readLengths = sc.lengths := by
    refine forall₂_congr fun sc _ => ?_
    rw [sc.readLengths_eq_iff]
    refine forall₂_congr fun e _ => ?_
    cases e.len with
    | none => simp [lengthValue]
    | some l => simp [lengthValue]
  rw [hlengths]
  constructor
  · exact readLengths_of_follows v
  · intro hlen
    refine ⟨fun sc hsc => count_le_countPorts hsc, ?_⟩
    rw [testLoopback_render]
    refine forall₂_of_mapM fun sc hsc => ?_
    obtain ⟨setup, hsetup, hports, hbuf⟩ := parseScenario_render sc (v.count_le_ports hsc)
    exact ⟨setup, hsetup, hports, nodup_of_portsFor (v.nodup _ _) hports, hbuf.trans (hlen sc hsc)⟩

/-- Ports that are numbered. -/
def numberedPorts : Virttest (Kind × Nat) where
  getVirtioPorts c s := ((List.range c).map (.console, ·), (List.range s).map (.serialport, ·))
  enough c s := by simp
  nodup c s := by
    refine List.nodup_append.mpr ⟨?_, ?_, ?_⟩
    · exact List.Nodup.map (Prod.mk_right_injective _) List.nodup_range
    · exact List.Nodup.map (Prod.mk_right_injective _) List.nodup_range
    · simp

def Length.ofNat (n : Nat) : Length where
  digits := Nat.toDigits 10 n
  ne_nil := Nat.toDigits_ne_nil
  isDigit _ := Nat.isDigit_of_mem_toDigits (by decide) (by decide)

def shortPort (len : Nat) : End := { kind := .serialport, len := some (.ofNat len) }

/-- The scenario with small buffers in the configuration of the test. -/
def smallBuffers : Scenario where
  source := shortPort 4
  dests := [shortPort 2, shortPort 4, shortPort 8]
  dests_ne_nil := List.cons_ne_nil _ _
  loopback := some (.ofNat 8)

/-- The receivers are to have the lengths 2, 4 and 8 and have 1024. -/
theorem smallBuffers_not_follows :
    smallBuffers.render = "serialport@4:serialport@2:serialport@4:serialport@8:8".toList ∧
      smallBuffers.lengths = [4, 2, 4, 8, 8] ∧
      (∃ setup, testLoopback numberedPorts (render [smallBuffers]) = .ok [setup] ∧
        setup.bufLen = [4, 1024, 1024, 1024, 8]) ∧
      ¬ Follows numberedPorts [smallBuffers] := by
  refine ⟨by decide, by decide, ?_, fun h => ?_⟩
  · obtain ⟨setups, hsetups, hread⟩ := exists_setups numberedPorts [smallBuffers]
    cases hread with
    | cons hsetup hrest =>
        cases hrest
        exact ⟨_, hsetups, hsetup.2⟩
  · exact absurd (readLengths_of_follows _ h smallBuffers List.mem_cons_self) (by decide)

end Results

end TpQemu.VirtioConsole
