import TpQemu.Lib.Slice
import TpQemu.WinSerial.Channel

/-!
# Buffered reads on Windows

`WinBufferedReadFile.read` of `windows_support.py` assembles the bytes asked for from
the chunks `ReadFile` delivers, which it keeps in a list of fragments. What is left of
the last fragment is put at the end of that list, not back in front.

The order of the bytes is kept nevertheless, since the loop stops reading as soon as
there are enough bytes: every fragment but the last one is then used up, and what is
left is the only fragment (`Buffered`).
-/

namespace TpQemu.WinSerial

open Words

/-- How a `ReadFile` ends. -/
inductive ReadResult where
  /-- A buffer and the number of bytes that were read into it. -/
  | done (b : Bytes) (nr : Nat)
  | raised

/-- The bytes that were read are in the buffer, which has the size asked for. -/
def ReadResult.Valid : ReadResult → Prop
  | .done b nr => nr ≤ b.length ∧ b.length ≤ 4096
  | .raised => True

/-- The part of the stream a `ReadFile` consumes. -/
def ReadResult.bytes : ReadResult → Bytes
  | .done b nr => b.take nr
  | .raised => []

/-- The fields of a `WinBufferedReadFile`. -/
structure WinFile where
  bufs : List Bytes
  n : Int

/-- The file and the results of the `ReadFile` calls to come. -/
structure WinPort where
  file : WinFile
  pending : List ReadResult

/-- A file that has just been opened. -/
def WinFile.opened : WinFile := ⟨[], 0⟩

/-- `while aux < n: frags.append(self._bufs.pop(0)); aux += len(frags[-1])` -/
def popFrags (n : Int) : List Bytes → List Bytes → Int → Except Stop (List Bytes × List Bytes)
  | [], frags, aux => if aux < n then .error .indexError else .ok (frags, [])
  | buf :: bufs, frags, aux =>
      if aux < n then popFrags n bufs (frags ++ [buf]) (aux + buf.length)
      else .ok (frags, buf :: bufs)

/-- The branch of `read` with enough bytes. -/
def WinFile.give (file : WinFile) (n : Int) : Except Stop (Bytes × WinFile) := do
  let (frags, bufs) ← popFrags n file.bufs [] 0
  let whole := frags.flatten
  let ret := Slice.slice whole none (some n) 1
  let rest := Slice.slice whole (some n) none 1
  return (ret, ⟨if 0 < rest.length then bufs ++ [rest] else bufs, file.n - n⟩)

/-- The branch of `read` that reads a chunk. -/
def WinFile.add (file : WinFile) : ReadResult → WinFile
  | .done b nr => if 0 < nr then ⟨file.bufs ++ [b.take nr], file.n + nr⟩ else file
  | .raised => file

/-- The rest of a call with enough bytes. -/
def WinFile.finish (file : WinFile) (n : Int) (pending : List ReadResult) :
    EStateM.Result Stop WinPort Bytes :=
  match file.give n with
  | .ok (ret, file') => .ok ret ⟨file', pending⟩
  | .error e => .error e ⟨file, pending⟩

/-- The loop of `read`. -/
def winLoop (n : Int) : List ReadResult → WinFile → EStateM.Result Stop WinPort Bytes
  | [], file => if n ≤ file.n then file.finish n [] else .error .waiting ⟨file, []⟩
  | r :: pending, file =>
      if n ≤ file.n then file.finish n (r :: pending) else winLoop n pending (file.add r)

/-- `WinBufferedReadFile.read(n)` -/
def winRead : Vport WinPort := fun n port => winLoop n port.pending port.file

/-! ## Fragments -/

/-- The state between two calls: `_n` counts the bytes, which are in one fragment. -/
structure Buffered (file : WinFile) : Prop where
  count : file.n = file.bufs.flatten.length
  one : file.bufs.length ≤ 1

/-- The state inside a call for `n` bytes: the fragments before the last one are too
few. -/
structure Filling (n : Nat) (file : WinFile) : Prop where
  count : file.n = file.bufs.flatten.length
  short : file.bufs.length ≤ 1 ∨ file.bufs.dropLast.flatten.length < n

theorem Buffered.filling {file : WinFile} (h : Buffered file) (n : Nat) : Filling n file :=
  ⟨h.count, .inl h.one⟩

theorem Filling.add {n : Nat} {file : WinFile} (h : Filling n file) {r : ReadResult}
    (hr : r.Valid) (hn : file.n < n) : Filling n (file.add r) ∧
      (file.add r).bufs.flatten = file.bufs.flatten ++ r.bytes := by
  cases r with
  | raised => exact ⟨h, (List.append_nil _).symm⟩
  | done b nr =>
      rw [WinFile.add]
      split
      · refine ⟨⟨?_, .inr ?_⟩, by simp [ReadResult.bytes]⟩
        · have hlen : (b.take nr).length = nr := by
            rw [List.length_take, Nat.min_eq_left hr.1]
          simp only [List.flatten_append, List.flatten_singleton, List.length_append, hlen, h.count]
          omega
        · rw [List.dropLast_concat]
          have := h.count
          omega
      · rename_i hnr
        obtain rfl : nr = 0 := by omega
        exact ⟨h, by simp [ReadResult.bytes]⟩

/-- All fragments are popped when those before the last one are too few. -/
theorem popFrags_all {n : Nat} {init : List Bytes} {last : Bytes} {frags : List Bytes} {aux : Nat}
    (hshort : aux + init.flatten.length < n)
    (hlong : n ≤ aux + init.flatten.length + last.length) :
    popFrags n (init ++ [last]) frags aux = .ok (frags ++ init ++ [last], []) := by
  induction init generalizing frags aux with
  | nil =>
      have haux : aux < n := by simpa using hshort
      have henough : n ≤ aux + last.length := by simpa using hlong
      rw [List.nil_append, popFrags, if_pos (by omega), popFrags, if_neg (by omega),
        List.append_nil]
  | cons buf init ih =>
      rw [List.flatten_cons, List.length_append] at hshort hlong
      rw [List.cons_append, popFrags, if_pos (by omega), ← Int.natCast_add,
        ih (by omega) (by omega), List.append_cons frags buf init]

theorem give_of_popFrags {n : Nat} {file : WinFile} {frags bufs : List Bytes}
    (h : popFrags n file.bufs [] 0 = .ok (frags, bufs)) :
    file.give n = .ok (frags.flatten.take n,
      ⟨if 0 < (frags.flatten.drop n).length then bufs ++ [frags.flatten.drop n] else bufs,
        file.n - n⟩) := by
  rw [WinFile.give, h, ← Slice.slice_upTo, ← Slice.slice_from]
  rfl

/-- With enough bytes, the first `n` of them are returned and the rest is one fragment. -/
theorem Filling.give {n : Nat} {file : WinFile} (h : Filling n file) (hn : n ≤ file.n) :
    ∃ file', file.give n = .ok (file.bufs.flatten.take n, file') ∧
      file'.bufs.flatten = file.bufs.flatten.drop n ∧ Buffered file' := by
  obtain ⟨hcount, hshort⟩ := h
  by_cases hzero : n = 0
  · -- Nothing is popped, and the fragment stays.
    subst hzero
    have hone : file.bufs.length ≤ 1 := hshort.resolve_right (Nat.not_lt_zero _)
    have hpop : popFrags ((0 : Nat) : Int) file.bufs [] 0 = .ok ([], file.bufs) := by
      cases file.bufs <;> rfl
    have hgive : file.give ((0 : Nat) : Int) = .ok ([], ⟨file.bufs, file.n - 0⟩) :=
      give_of_popFrags hpop
    refine ⟨_, hgive, rfl, ?_, hone⟩
    simpa using hcount
  · rcases List.eq_nil_or_concat file.bufs with hnil | ⟨init, last, hbufs⟩
    · rw [hnil] at hcount
      simp only [List.flatten_nil, List.length_nil] at hcount
      omega
    · have htotal : file.bufs.flatten.length = init.flatten.length + last.length := by
        rw [hbufs]
        simp
      have hinit : init.flatten.length < n := by
        rcases hshort with hone | hlt
        · have hnil : init = [] := by simpa [hbufs] using hone
          rw [hnil]
          exact Nat.pos_of_ne_zero hzero
        · simpa [hbufs] using hlt
      have hpop : popFrags n file.bufs [] ((0 : Nat) : Int) = .ok (file.bufs, []) := by
        rw [hbufs, List.concat_eq_append]
        exact popFrags_all (by omega) (by omega)
      refine ⟨_, give_of_popFrags hpop, ?_, ?_⟩
      · split
        · simp
        · rename_i hrest
          exact (List.length_eq_zero_iff.mp (by omega)).symm
      · split
        · refine ⟨?_, by simp⟩
          simp only [List.nil_append, List.flatten_singleton, List.length_drop]
          omega
        · rename_i hrest
          rw [List.length_drop] at hrest
          refine ⟨?_, by simp⟩
          simp only [List.flatten_nil, List.length_nil]
          omega

/-- What has arrived and what is still to come. -/
def WinPort.stream (port : WinPort) : Bytes :=
  port.file.bufs.flatten ++ port.pending.flatMap ReadResult.bytes

/-- The results to come are valid and the port is between two calls. -/
structure WinPort.Idle (port : WinPort) : Prop where
  buffered : Buffered port.file
  valid : ∀ r ∈ port.pending, r.Valid

theorem Filling.finish {n : Nat} {file : WinFile} (h : Filling n file) (hn : n ≤ file.n)
    {pending : List ReadResult} (hvalid : ∀ r ∈ pending, r.Valid) :
    ∃ port', file.finish n pending = .ok ((WinPort.stream ⟨file, pending⟩).take n) port' ∧
      port'.stream = (WinPort.stream ⟨file, pending⟩).drop n ∧ port'.Idle := by
  obtain ⟨file', hgive, hrest, hbuffered⟩ := h.give hn
  have hlen : n ≤ file.bufs.flatten.length := by
    have := h.count
    omega
  refine ⟨⟨file', pending⟩, ?_, ?_, hbuffered, hvalid⟩
  · rw [WinFile.finish, hgive, WinPort.stream, List.take_append_of_le_length hlen]
  · rw [WinPort.stream, WinPort.stream, hrest, List.drop_append_of_le_length hlen]

/-- A call returns the next bytes of the stream and leaves the rest of it. -/
theorem winLoop_spec {n : Nat} {pending : List ReadResult} {file : WinFile} (h : Filling n file)
    (hvalid : ∀ r ∈ pending, r.Valid) (hn : n ≤ (WinPort.stream ⟨file, pending⟩).length) :
    ∃ port', winLoop n pending file = .ok ((WinPort.stream ⟨file, pending⟩).take n) port' ∧
      port'.stream = (WinPort.stream ⟨file, pending⟩).drop n ∧ port'.Idle := by
  induction pending generalizing file with
  | nil =>
      have hstream : WinPort.stream ⟨file, []⟩ = file.bufs.flatten := List.append_nil _
      have hlen : (n : Int) ≤ file.n := by
        rw [hstream] at hn
        rw [h.count]
        omega
      rw [winLoop, if_pos hlen]
      exact h.finish hlen hvalid
  | cons r pending ih =>
      rw [winLoop]
      split
      · rename_i hlen
        exact h.finish hlen hvalid
      · rename_i hlen
        obtain ⟨hfilling, hbytes⟩ := h.add (hvalid r List.mem_cons_self) (by omega)
        have hstream : WinPort.stream ⟨file, r :: pending⟩ =
            WinPort.stream ⟨file.add r, pending⟩ := by
          simp [WinPort.stream, hbytes]
        rw [hstream] at hn ⊢
        exact ih hfilling (fun q hq => hvalid q (List.mem_cons_of_mem r hq)) hn

/-- Between two calls, the port hands out the stream. -/
theorem winRead_exact : Exact winRead WinPort.stream WinPort.Idle :=
  fun _ n hport hn => winLoop_spec (hport.buffered.filling n) hport.valid hn

/-! ## Runs -/

theorem winLoop_idle {n : Nat} {pending : List ReadResult} {file : WinFile} (h : Filling n file)
    (hvalid : ∀ r ∈ pending, r.Valid) {ret : Bytes} {port' : WinPort}
    (hrun : winLoop n pending file = .ok ret port') : port'.Idle := by
  have hfinish : ∀ {file : WinFile} {pending : List ReadResult}, Filling n file →
      (∀ r ∈ pending, r.Valid) → n ≤ file.n → file.finish n pending = .ok ret port' →
      port'.Idle := by
    intro file pending h hvalid hlen hrun
    obtain ⟨port₁, hport₁, -, hidle⟩ := h.finish hlen hvalid
    cases hport₁.symm.trans hrun
    exact hidle
  induction pending generalizing file with
  | nil =>
      rw [winLoop] at hrun
      split at hrun
      · rename_i hlen
        exact hfinish h hvalid hlen hrun
      · cases hrun
  | cons r pending ih =>
      rw [winLoop] at hrun
      split at hrun
      · rename_i hlen
        exact hfinish h hvalid hlen hrun
      · obtain ⟨hfilling, -⟩ := h.add (hvalid r List.mem_cons_self) (by omega)
        exact ih hfilling (fun q hq => hvalid q (List.mem_cons_of_mem r hq)) hrun

/-- Calls of `read`, one after the other. -/
def winReads : List Nat → EStateM Stop WinPort (List Bytes)
  | [] => return []
  | n :: ns => do
      let ret ← winRead n
      let rets ← winReads ns
      return ret :: rets

theorem winReads_idle {ns : List Nat} {port port' : WinPort} (h : port.Idle) {rets : List Bytes}
    (hrun : winReads ns port = .ok rets port') : port'.Idle := by
  induction ns generalizing port rets with
  | nil =>
      cases hrun
      exact h
  | cons n ns ih =>
      obtain ⟨ret, port₁, hread, hrun⟩ := ok_of_bind hrun
      obtain ⟨rets₁, port₂, hreads, hrun⟩ := ok_of_bind hrun
      cases hrun
      exact ih (winLoop_idle (h.buffered.filling n) h.valid hread) hreads

theorem idle_opened {results : List ReadResult} (h : ∀ r ∈ results, r.Valid) :
    WinPort.Idle ⟨.opened, results⟩ := ⟨⟨rfl, Nat.zero_le _⟩, h⟩

/-- However the stream is cut into chunks, the payloads are read in order, and between
any two calls of `read` at most one fragment is buffered and `_n` counts its bytes. -/
theorem reads_winRead (o : ByteOrder) (payloads : List Bytes)
    (hpayloads : ∀ p ∈ payloads, p.length < wordLimit - headerLen) :
    ∃ msgs, payloads.mapM (packMessage o) = some msgs ∧
      ∀ results : List ReadResult, (∀ r ∈ results, r.Valid) →
        results.flatMap ReadResult.bytes = msgs.flatten →
        (∃ port', reads o winRead payloads.length ⟨.opened, results⟩ = .ok payloads port' ∧
          Buffered port'.file) ∧
        ∀ (ns : List Nat) (rets : List Bytes) (port' : WinPort),
          winReads ns ⟨.opened, results⟩ = .ok rets port' → Buffered port'.file := by
  have hshort : ∀ p ∈ payloads, headerLen + p.length < wordLimit := by
    intro p hp
    have := hpayloads p hp
    simp only [headerLen, wordLimit] at this ⊢
    omega
  refine ⟨_, mapM_packMessage o hshort, ?_⟩
  intro results hvalid hstream
  have hidle := idle_opened hvalid
  refine ⟨?_, fun ns rets port' hrun => (winReads_idle hidle hrun).buffered⟩
  have hbytes : WinPort.stream ⟨.opened, results⟩ = payloads.flatMap (frame o) ++ [] := by
    rw [List.append_nil, List.flatMap_def, ← hstream]
    rfl
  obtain ⟨port', hreads, -, hport'⟩ := reads_exact winRead_exact hshort hidle hbytes
  exact ⟨port', hreads, hport'.buffered⟩

/-- Two messages in three chunks; the first cut is inside a header. -/
def cutInHeader : List ReadResult :=
  [.done [0, 0, 0, 1, 0] 5, .raised, .done [] 0,
    .done [0, 0, 3, 0, 0, 0, 15, 7, 8, 9, 0, 0] 12, .done [0, 1, 0, 0, 0, 3, 0, 0, 0, 12] 10]

theorem reads_winRead_cutInHeader :
    ∃ port', reads .little winRead 2 ⟨.opened, cutInHeader⟩ = .ok [[7, 8, 9], []] port' := by
  obtain ⟨msgs, hmsgs, hall⟩ := reads_winRead .little [[7, 8, 9], []] (by decide)
  cases hmsgs
  obtain ⟨⟨port', hport', -⟩, -⟩ :=
    hall cutInHeader (by simp [cutInHeader, ReadResult.Valid]) (by decide)
  exact ⟨port', hport'⟩

end TpQemu.WinSerial
