import TpQemu.WinSerial.Buffered

/-!
# Reads on Linux

On Linux the channel reads its port with `os.read`, once for the header and once for
the payload. `os.read` returns what is available, at least one byte and at most the
number asked for, and nothing puts the pieces of a message together: a header that
comes in two pieces raises `struct.error`, a payload that does is returned cut off. The
two platforms agree exactly when every call is given all it asks for.
-/

namespace TpQemu.WinSerial

open Words

/-- How many bytes each call finds available. -/
abbrev Delivery := Nat → { k : Nat // 0 < k }

/-- The bytes not read yet, and the number of calls that were given some. -/
structure LinuxPort where
  stream : Bytes
  calls : Nat

/-- `os.read(fd, n)` -/
def osRead (avail : Delivery) : Vport LinuxPort := fun n port =>
  if n < 0 then .error .osError port
  else if n = 0 then .ok [] port
  else if port.stream = [] then .error .waiting port
  else
    let k := min (avail port.calls).val n.toNat
    .ok (port.stream.take k) ⟨port.stream.drop k, port.calls + 1⟩

/-- From the `i`-th call on, each call for one of these numbers of bytes is given all of
them; a call for nothing does not wait for bytes. -/
def Full (avail : Delivery) : Nat → List Nat → Prop
  | _, [] => True
  | i, n :: ns =>
      if n = 0 then Full avail i ns else n ≤ (avail i).val ∧ Full avail (i + 1) ns

/-- The calls that read messages with these payloads: a header and a payload each. -/
def requests (payloads : List Bytes) : List Nat :=
  payloads.flatMap fun p => [headerLen, p.length]

theorem full_cons_zero {avail : Delivery} {i : Nat} {ns : List Nat} :
    Full avail i (0 :: ns) ↔ Full avail i ns := by
  rw [Full, if_pos rfl]

theorem full_cons_pos {avail : Delivery} {i n : Nat} (h : n ≠ 0) {ns : List Nat} :
    Full avail i (n :: ns) ↔ n ≤ (avail i).val ∧ Full avail (i + 1) ns := by
  rw [Full, if_neg h]

theorem requests_cons (p : Bytes) (payloads : List Bytes) :
    requests (p :: payloads) = headerLen :: p.length :: requests payloads := rfl

theorem osRead_pos {avail : Delivery} {n : Nat} (hn : 0 < n) {port : LinuxPort}
    (hne : port.stream ≠ []) :
    osRead avail n port = .ok (port.stream.take (min (avail port.calls).val n))
      ⟨port.stream.drop (min (avail port.calls).val n), port.calls + 1⟩ := by
  rw [osRead, if_neg (by omega), if_neg (by omega), if_neg hne]
  rfl

section Messages

variable {avail : Delivery} {o : ByteOrder} {p rest : Bytes} {i : Nat}

theorem frame_ne_nil (o : ByteOrder) (p rest : Bytes) : frame o p ++ rest ≠ [] := by
  intro h
  have hlen := congrArg List.length h
  rw [List.length_append, length_frame, List.length_nil] at hlen
  simp only [headerLen] at hlen
  omega

/-- A header that is available as a whole. -/
theorem readHeader_full (hp : headerLen + p.length < wordLimit) (h : headerLen ≤ (avail i).val) :
    readHeader o (osRead avail) ⟨frame o p ++ rest, i⟩ = .ok p.length ⟨p ++ rest, i + 1⟩ := by
  have hread : osRead avail headerLen ⟨frame o p ++ rest, i⟩ =
      .ok ((frame o p).take headerLen) ⟨p ++ rest, i + 1⟩ := by
    rw [osRead_pos (by decide) (frame_ne_nil o p rest), Nat.min_eq_right h, take_frame, drop_frame]
  rw [readHeader, bind_of_ok hread, if_neg (take_frame_ne_nil o p), messageSize_frame o hp]
  rfl

/-- A header in pieces. -/
theorem readHeader_short (h : (avail i).val < headerLen) :
    ∃ port', readHeader o (osRead avail) ⟨frame o p ++ rest, i⟩ = .error .structError port' := by
  have hread : osRead avail headerLen ⟨frame o p ++ rest, i⟩ =
      .ok ((frame o p ++ rest).take (min (avail i).val headerLen))
        ⟨(frame o p ++ rest).drop (min (avail i).val headerLen), i + 1⟩ :=
    osRead_pos (by decide) (frame_ne_nil o p rest)
  have hlen : ((frame o p ++ rest).take (min (avail i).val headerLen)).length = (avail i).val := by
    rw [List.length_take, List.length_append, length_frame]
    omega
  have hne : (frame o p ++ rest).take (min (avail i).val headerLen) ≠ [] := by
    intro hnil
    rw [hnil, List.length_nil] at hlen
    have := (avail i).property
    omega
  have hsize : messageSize o ((frame o p ++ rest).take (min (avail i).val headerLen)) =
      .error .structError := by
    rw [messageSize, if_neg (by omega)]
  refine ⟨⟨(frame o p ++ rest).drop (min (avail i).val headerLen), i + 1⟩, ?_⟩
  rw [readHeader, bind_of_ok hread, if_neg hne, hsize]
  rfl

/-- A payload is returned as far as it is available. -/
theorem read_payload (hp : headerLen + p.length < wordLimit) (h : headerLen ≤ (avail i).val)
    (hne : p ≠ []) :
    read o (osRead avail) ⟨frame o p ++ rest, i⟩ =
      .ok ((p ++ rest).take (min (avail (i + 1)).val p.length))
        ⟨(p ++ rest).drop (min (avail (i + 1)).val p.length), i + 2⟩ := by
  rw [read, bind_of_ok (readHeader_full hp h)]
  exact osRead_pos (List.length_pos_iff.mpr hne) (by simp [hne])

theorem read_empty (h : headerLen ≤ (avail i).val) :
    read o (osRead avail) ⟨frame o [] ++ rest, i⟩ = .ok [] ⟨rest, i + 1⟩ := by
  have hlen : headerLen + ([] : Bytes).length < wordLimit := by decide
  rw [read, bind_of_ok (readHeader_full hlen h)]
  rfl

/-- One message: its payload is returned when both calls are given all they ask for. -/
theorem read_eq_ok_iff (hp : headerLen + p.length < wordLimit) {port' : LinuxPort} :
    read o (osRead avail) ⟨frame o p ++ rest, i⟩ = .ok p port' ↔
      headerLen ≤ (avail i).val ∧
        ((p = [] ∧ port' = ⟨rest, i + 1⟩) ∨
          (p ≠ [] ∧ p.length ≤ (avail (i + 1)).val ∧ port' = ⟨rest, i + 2⟩)) := by
  by_cases hheader : headerLen ≤ (avail i).val
  · by_cases hnil : p = []
    · subst hnil
      rw [read_empty hheader]
      simp [hheader, eq_comm]
    · rw [read_payload hp hheader hnil]
      by_cases hfull : p.length ≤ (avail (i + 1)).val
      · rw [Nat.min_eq_right hfull, List.take_left, List.drop_left]
        simp [hheader, hnil, hfull, eq_comm]
      · constructor
        · intro h
          -- The value returned is shorter than the payload.
          have hvalue : (p ++ rest).take (min (avail (i + 1)).val p.length) = p := by
            injection h
          have hlen := congrArg List.length hvalue
          rw [List.length_take, List.length_append] at hlen
          omega
        · rintro ⟨-, ⟨hp', -⟩ | ⟨-, hfull', -⟩⟩
          · exact absurd hp' hnil
          · exact absurd hfull' hfull
  · obtain ⟨port₁, herr⟩ : ∃ port₁, readHeader o (osRead avail) ⟨frame o p ++ rest, i⟩ =
        .error .structError port₁ := readHeader_short (Nat.lt_of_not_le hheader)
    rw [read, bind_of_error herr]
    simp [hheader]

end Messages

/-- The messages of a run. -/
theorem reads_osRead_iff {avail : Delivery} {o : ByteOrder} {payloads : List Bytes} {i : Nat}
    (hpayloads : ∀ p ∈ payloads, headerLen + p.length < wordLimit) :
    (∃ port', reads o (osRead avail) payloads.length ⟨payloads.flatMap (frame o), i⟩ =
      .ok payloads port') ↔ Full avail i (requests payloads) := by
  induction payloads generalizing i with
  | nil => exact ⟨fun _ => trivial, fun _ => ⟨_, rfl⟩⟩
  | cons p payloads ih =>
      have hp := hpayloads p List.mem_cons_self
      have rest : ∀ q ∈ payloads, headerLen + q.length < wordLimit :=
        fun q hq => hpayloads q (List.mem_cons_of_mem p hq)
      rw [List.length_cons, reads_succ_iff, List.flatMap_cons, requests_cons,
        full_cons_pos (by decide)]
      simp only [read_eq_ok_iff hp]
      by_cases hnil : p = []
      · subst hnil
        rw [List.length_nil, full_cons_zero, ← ih rest]
        simp
      · have hlen : p.length ≠ 0 := by simpa using hnil
        rw [full_cons_pos hlen, ← ih rest]
        simp [hnil, and_assoc]

/-- The values read on the two platforms are the payloads, in order. -/
structure PathsAgree (o : ByteOrder) (payloads msgs : List Bytes) (results : List ReadResult)
    (avail : Delivery) : Prop where
  windows : ∃ port', reads o winRead payloads.length ⟨.opened, results⟩ = .ok payloads port'
  linux : ∃ port', reads o (osRead avail) payloads.length ⟨msgs.flatten, 0⟩ = .ok payloads port'

/-- The platforms agree when no `os.read` is given less than it asks for. -/
theorem pathsAgree_iff {o : ByteOrder} {payloads msgs : List Bytes} {results : List ReadResult}
    {avail : Delivery} (hmsgs : payloads.mapM (packMessage o) = some msgs)
    (hvalid : ∀ r ∈ results, r.Valid) (hresults : results.flatMap ReadResult.bytes = msgs.flatten) :
    PathsAgree o payloads msgs results avail ↔ Full avail 0 (requests payloads) := by
  obtain ⟨hpayloads, rfl⟩ := of_mapM_packMessage hmsgs
  have hwindows : ∃ port', reads o winRead payloads.length ⟨.opened, results⟩ =
      .ok payloads port' := by
    have hstream : WinPort.stream ⟨.opened, results⟩ = payloads.flatMap (frame o) ++ [] := by
      rw [List.append_nil, List.flatMap_def, ← hresults]
      rfl
    obtain ⟨port', hreads, -⟩ := reads_exact winRead_exact hpayloads (idle_opened hvalid) hstream
    exact ⟨port', hreads⟩
  rw [← reads_osRead_iff hpayloads, List.flatMap_def]
  exact ⟨fun h => h.linux, fun h => ⟨hwindows, h⟩⟩

/-- A header and a payload that are available as a whole. -/
theorem pathsAgree_whole :
    PathsAgree .little [[7, 8]] [[0, 0, 0, 1, 0, 0, 0, 3, 0, 0, 0, 14, 7, 8]]
      [.done [0, 0, 0, 1, 0, 0, 0, 3, 0, 0] 10, .done [0, 14, 7, 8] 4] fun _ => ⟨100, by decide⟩ :=
  (pathsAgree_iff (by decide) (by simp [ReadResult.Valid]) (by decide)).mpr
    ((full_cons_pos (by decide)).mpr
      ⟨by decide, (full_cons_pos (by decide)).mpr ⟨by decide, trivial⟩⟩)

/-- The payload arrives after its first byte has been read. -/
theorem not_pathsAgree_piece :
    ¬PathsAgree .little [[7, 8]] [[0, 0, 0, 1, 0, 0, 0, 3, 0, 0, 0, 14, 7, 8]]
      [.done [0, 0, 0, 1, 0, 0, 0, 3, 0, 0, 0, 14, 7] 13, .done [8] 1]
      fun i => if i = 0 then ⟨12, by decide⟩ else ⟨1, by decide⟩ := by
  rintro ⟨-, port', hlinux⟩
  have hcut : reads .little (osRead fun i => if i = 0 then ⟨12, by decide⟩ else ⟨1, by decide⟩) 1
      ⟨[0, 0, 0, 1, 0, 0, 0, 3, 0, 0, 0, 14, 7, 8], 0⟩ = .ok [[7]] ⟨[8], 2⟩ := rfl
  cases hcut.symm.trans hlinux

end TpQemu.WinSerial
