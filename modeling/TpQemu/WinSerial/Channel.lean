import TpQemu.Lib.Effects
import TpQemu.Lib.Words

/-!
# Messages on a serial port

`serial-host-send.py` packs a payload behind a header of three words, the last of
which is the length of the whole message; `VirtIoChannel_guest_recieve.py` reads the
header and then as many bytes as it announces. Both ends use the byte order of their
machine and exchange words in network order.

The port is a parameter of the reader: on Windows it is a `WinBufferedReadFile`, on
Linux a file descriptor. For any port that hands out exactly the bytes asked for
(`Exact`), the reader returns the payloads in order.
-/

namespace TpQemu.WinSerial

open Words

abbrev Bytes := List UInt8

/-- Why a call does not return: it waits for bytes, or it raises. -/
inductive Stop where
  | waiting
  | indexError
  /-- `struct.error` -/
  | structError
  | osError
  deriving DecidableEq

/-- `struct.calcsize("III")` -/
def headerLen : Nat := 12

/-- The three words of a header and the payload behind them. -/
def frame (o : ByteOrder) (arg : Bytes) : Bytes :=
  pack o (htonl o 1) ++ pack o (htonl o 3) ++ pack o (htonl o (headerLen + arg.length)) ++ arg

/-- `pack_message(arg)`; `htonl` raises `OverflowError` for a length that is no word. -/
def packMessage (o : ByteOrder) (arg : Bytes) : Option Bytes :=
  if headerLen + arg.length < wordLimit then some (frame o arg) else none

section Reader

variable {σ : Type}

/-- A port: the read of a number of bytes. -/
abbrev Vport (σ : Type) := Int → EStateM Stop σ Bytes

/-- `socket.ntohl(struct.unpack(READ_HEADER, hdr)[2]) - READ_HEADER_LEN` -/
def messageSize (o : ByteOrder) (hdr : Bytes) : Except Stop Int :=
  if hdr.length = headerLen then .ok ((htonl o (unpack o (hdr.drop 8)) : Int) - headerLen)
  else .error .structError

/-- `_read_header()` -/
def readHeader (o : ByteOrder) (vport : Vport σ) : EStateM Stop σ Int := do
  let hdr ← vport headerLen
  if hdr = [] then return 0
  else liftExcept (messageSize o hdr)

/-- `VirtIoChannel.read()`; unpacking the bytes read as one string gives the bytes. -/
def read (o : ByteOrder) (vport : Vport σ) : EStateM Stop σ Bytes := do
  let size ← readHeader o vport
  vport size

/-- Consecutive calls of `read`. -/
def reads (o : ByteOrder) (vport : Vport σ) : Nat → EStateM Stop σ (List Bytes)
  | 0 => return []
  | k + 1 => do
      let cmd ← read o vport
      let cmds ← reads o vport k
      return cmd :: cmds

end Reader

/-! ## Headers -/

theorem length_frame (o : ByteOrder) (arg : Bytes) :
    (frame o arg).length = headerLen + arg.length := by
  simp only [frame, List.length_append, length_pack, headerLen]

/-- The header of a message is its first twelve bytes. -/
theorem take_frame (o : ByteOrder) (arg rest : Bytes) :
    (frame o arg ++ rest).take headerLen = (frame o arg).take headerLen := by
  rw [List.take_append_of_le_length]
  rw [length_frame]
  omega

theorem drop_frame (o : ByteOrder) (arg rest : Bytes) :
    (frame o arg ++ rest).drop headerLen = arg ++ rest := by
  rw [frame, List.append_assoc, List.drop_append_of_le_length (by simp [headerLen]),
    List.drop_of_length_le (by simp [headerLen])]
  rfl

theorem take_frame_ne_nil (o : ByteOrder) (arg : Bytes) : (frame o arg).take headerLen ≠ [] := by
  intro h
  have hlen := congrArg List.length h
  rw [List.length_take, length_frame, List.length_nil] at hlen
  simp only [headerLen] at hlen
  omega

/-- The header announces the length of the payload. -/
theorem messageSize_frame (o : ByteOrder) {arg : Bytes} (h : headerLen + arg.length < wordLimit) :
    messageSize o ((frame o arg).take headerLen) = .ok arg.length := by
  have hheader : (frame o arg).take headerLen = pack o (htonl o 1) ++ pack o (htonl o 3) ++
      pack o (htonl o (headerLen + arg.length)) := by
    rw [frame, List.take_append_of_le_length (by simp [headerLen]),
      List.take_of_length_le (by simp [headerLen])]
  have hword : ((frame o arg).take headerLen).drop 8 =
      pack o (htonl o (headerLen + arg.length)) := by
    rw [hheader, List.drop_append_of_le_length (by simp), List.drop_of_length_le (by simp)]
    rfl
  have hlen : ((frame o arg).take headerLen).length = headerLen := by
    rw [hheader]
    simp [headerLen]
  have hsize : ((headerLen + arg.length : Nat) : Int) - headerLen = arg.length := by omega
  rw [messageSize, if_pos hlen, hword, htonl_unpack_pack o h, hsize]

/-- The first call returns the first value, and the others the rest. -/
theorem reads_succ_iff {σ : Type} {o : ByteOrder} {vport : Vport σ} {k : Nat} {s : σ} {p : Bytes}
    {ps : List Bytes} :
    (∃ s', reads o vport (k + 1) s = .ok (p :: ps) s') ↔
      ∃ s₁, read o vport s = .ok p s₁ ∧ ∃ s', reads o vport k s₁ = .ok ps s' := by
  constructor
  · rintro ⟨s', hrun⟩
    obtain ⟨cmd, s₁, hread, hrun⟩ := ok_of_bind hrun
    obtain ⟨cmds, s₂, hreads, hrun⟩ := ok_of_bind hrun
    cases hrun
    exact ⟨s₁, hread, _, hreads⟩
  · rintro ⟨s₁, hread, s', hreads⟩
    refine ⟨s', ?_⟩
    rw [reads, bind_of_ok hread, bind_of_ok hreads]
    rfl

/-! ## Exact ports -/

section Exact

variable {σ : Type} {vport : Vport σ} {stream : σ → Bytes} {Inv : σ → Prop} {o : ByteOrder}

/-- In a state with the invariant, the port hands out the next bytes of its stream,
exactly as many as asked for. -/
def Exact (vport : Vport σ) (stream : σ → Bytes) (Inv : σ → Prop) : Prop :=
  ∀ (s : σ) (n : Nat), Inv s → n ≤ (stream s).length →
    ∃ s', vport n s = .ok ((stream s).take n) s' ∧ stream s' = (stream s).drop n ∧ Inv s'

theorem read_exact (hport : Exact vport stream Inv) {s : σ} (hs : Inv s) {arg rest : Bytes}
    (harg : headerLen + arg.length < wordLimit) (hstream : stream s = frame o arg ++ rest) :
    ∃ s', read o vport s = .ok arg s' ∧ stream s' = rest ∧ Inv s' := by
  have hlen : headerLen ≤ (stream s).length := by
    rw [hstream, List.length_append, length_frame]
    omega
  obtain ⟨s₁, hread₁, hstream₁, hs₁⟩ := hport s headerLen hs hlen
  rw [hstream, take_frame] at hread₁
  rw [hstream, drop_frame] at hstream₁
  obtain ⟨s₂, hread₂, hstream₂, hs₂⟩ :=
    hport s₁ arg.length hs₁ (by rw [hstream₁, List.length_append]; omega)
  rw [hstream₁, List.take_left] at hread₂
  rw [hstream₁, List.drop_left] at hstream₂
  have hheader : readHeader o vport s = .ok arg.length s₁ := by
    rw [readHeader, bind_of_ok hread₁, if_neg (take_frame_ne_nil o arg), messageSize_frame o harg]
    rfl
  refine ⟨s₂, ?_, hstream₂, hs₂⟩
  rw [read, bind_of_ok hheader]
  exact hread₂

/-- Consecutive reads return the payloads in order. -/
theorem reads_exact (hport : Exact vport stream Inv) {payloads : List Bytes} {rest : Bytes}
    (hpayloads : ∀ p ∈ payloads, headerLen + p.length < wordLimit) {s : σ} (hs : Inv s)
    (hstream : stream s = payloads.flatMap (frame o) ++ rest) :
    ∃ s', reads o vport payloads.length s = .ok payloads s' ∧ stream s' = rest ∧ Inv s' := by
  induction payloads generalizing s with
  | nil => exact ⟨s, rfl, hstream, hs⟩
  | cons p payloads ih =>
      rw [List.flatMap_cons, List.append_assoc] at hstream
      obtain ⟨s₁, hread, hstream₁, hs₁⟩ :=
        read_exact hport hs (hpayloads p List.mem_cons_self) hstream
      obtain ⟨s₂, hreads, hstream₂, hs₂⟩ :=
        ih (fun q hq => hpayloads q (List.mem_cons_of_mem p hq)) hs₁ hstream₁
      refine ⟨s₂, ?_, hstream₂, hs₂⟩
      rw [List.length_cons, reads, bind_of_ok hread, bind_of_ok hreads]
      rfl

end Exact

/-- Payloads that are short enough are packed. -/
theorem mapM_packMessage (o : ByteOrder) {payloads : List Bytes}
    (h : ∀ p ∈ payloads, headerLen + p.length < wordLimit) :
    payloads.mapM (packMessage o) = some (payloads.map (frame o)) := by
  induction payloads with
  | nil => rfl
  | cons p payloads ih =>
      have hp : packMessage o p = some (frame o p) := if_pos (h p List.mem_cons_self)
      rw [List.mapM_cons, hp, ih fun q hq => h q (List.mem_cons_of_mem p hq)]
      rfl

theorem of_mapM_packMessage {o : ByteOrder} {payloads msgs : List Bytes}
    (h : payloads.mapM (packMessage o) = some msgs) :
    (∀ p ∈ payloads, headerLen + p.length < wordLimit) ∧ msgs = payloads.map (frame o) := by
  have hshort : ∀ p ∈ payloads, headerLen + p.length < wordLimit := by
    induction payloads generalizing msgs with
    | nil => simp
    | cons p payloads ih =>
        simp only [List.mapM_cons, Option.bind_eq_bind, Option.bind_eq_some_iff] at h
        obtain ⟨msg, hmsg, msgs', hmsgs', -⟩ := h
        rw [List.forall_mem_cons]
        refine ⟨?_, ih hmsgs'⟩
        rw [packMessage] at hmsg
        split at hmsg
        · assumption
        · cases hmsg
  refine ⟨hshort, ?_⟩
  rw [mapM_packMessage o hshort] at h
  exact (Option.some.inj h).symm

end TpQemu.WinSerial
