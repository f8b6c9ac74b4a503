import TpQemu.Lib.Dict
import TpQemu.Lib.Python
import TpQemu.Lib.Text
import Mathlib.Order.Lattice

/-!
# The soft-lockup server

`run_server` in `qemu/deps/softlockup/heartbeat_slu.py`. The server reads heartbeats one
after the other. `check_heartbeat` alerts about a heartbeat that comes too late, and
`check_for_timeouts`, which runs from time to time, alerts about hosts that have not been
heard of for twice as long and forgets them.

Of the clock the model needs that subtraction is monotone, which holds of floats too. The
time an alert is printed at is left out.
-/

namespace TpQemu.Heartbeat

/-- The name of a host. -/
abbrev Host := List Char

/-- Clock readings and their differences. -/
structure Clock (T : Type) [LinearOrder T] where
  sub : T → T → T
  zero : T
  /-- `float(text)` -/
  float : List Char → Option T
  sub_le_sub : ∀ a b c, b ≤ c → sub b a ≤ sub c a

structure Config (T : Type) [LinearOrder T] where
  clock : Clock T
  threshold : T
  /-- `threshold * 2` -/
  timeout : T
  checkDrift : Bool
  /-- The threshold is positive. -/
  threshold_le : threshold ≤ timeout

/-- `ALERT, SLU detected on host` -/
inductive Alert (T : Type) where
  /-- `delta %ds` -/
  | late (host : Host) (delta : T)
  /-- `no heartbeat for %ds` -/
  | silent (host : Host) (delta : T)

def Alert.host {T : Type} : Alert T → Host
  | .late host _ => host
  | .silent host _ => host

/-- One round of the loop of `run_server`. -/
structure Beat (T : Type) where
  heartbeat : List Char
  localTimestamp : T
  /-- What `check_for_timeouts` reads from the clock if it runs in this round. -/
  checkTimestamp : T

structure State (T : Type) where
  clientPrevTimestamp : Dict Host T
  clientClockOffset : Dict Host T
  clientPrevDrift : Dict Host T
  prevCheckTimestamp : T
  alerts : List (Alert T)

section Definitions

variable {T : Type} [LinearOrder T] (cfg : Config T)

/-- The host name and the timestamp of a heartbeat. -/
def parseHeartbeat (heartbeat : List Char) : Except PyError (Host × T) :=
  match Text.words heartbeat with
  | [hostname, _, timestamp] =>
      orRaise .valueError ((cfg.clock.float timestamp).map fun t => (hostname, t))
  | _ => .error .valueError

/-! ## The server -/

/-- The alert of `check_heartbeat`. -/
def lateAlert (s : State T) (hostname : Host) (localTimestamp : T) : List (Alert T) :=
  match s.clientPrevTimestamp.get? hostname with
  | none => []
  | some prev =>
      let delta := cfg.clock.sub localTimestamp prev
      if cfg.threshold < delta then [.late hostname delta] else []

/-- The first drift check of a host. -/
def startDrift (s : State T) (hostname : Host) (timestamp localTimestamp : T) : State T :=
  if hostname ∉ s.clientClockOffset.keys then
    { s with
      clientClockOffset :=
        s.clientClockOffset.set hostname (cfg.clock.sub timestamp localTimestamp)
      clientPrevDrift := s.clientPrevDrift.set hostname cfg.clock.zero }
  else s

/-- The drift of the clock of a host and its change, and the dictionaries behind it. -/
def checkDrift (s : State T) (hostname : Host) (timestamp localTimestamp : T) :
    Except PyError ((T × T) × State T) := do
  let s := startDrift cfg s hostname timestamp localTimestamp
  let offset ← orRaise .keyError (s.clientClockOffset.get? hostname)
  let drift := cfg.clock.sub (cfg.clock.sub timestamp localTimestamp) offset
  let prevDrift ← orRaise .keyError (s.clientPrevDrift.get? hostname)
  return ((drift, cfg.clock.sub drift prevDrift),
    { s with clientPrevDrift := s.clientPrevDrift.set hostname drift })

def checkHeartbeat (s : State T) (heartbeat : List Char) (localTimestamp : T) :
    Except PyError (Option (T × T) × State T) := do
  let (hostname, timestamp) ← parseHeartbeat cfg heartbeat
  let s := { s with
    alerts := s.alerts ++ lateAlert cfg s hostname localTimestamp
    clientPrevTimestamp := s.clientPrevTimestamp.set hostname localTimestamp }
  if cfg.checkDrift then
    let (drift, s) ← checkDrift cfg s hostname timestamp localTimestamp
    return (some drift, s)
  else return (none, s)

/-- `del d[key]` -/
def delItem (d : Dict Host T) (key : Host) : Except PyError (Dict Host T) :=
  if key ∈ d.keys then .ok (d.erase key) else .error .keyError

/-- One host of the loop of `check_for_timeouts`. -/
def checkForTimeout (localTimestamp : T) (s : State T) (hostname : Host) :
    Except PyError (State T) := do
  let timestamp ← orRaise .keyError (s.clientPrevTimestamp.get? hostname)
  let delta := cfg.clock.sub localTimestamp timestamp
  if cfg.timeout < delta then
    let prevTimestamp ← delItem s.clientPrevTimestamp hostname
    let s := { s with
      alerts := s.alerts ++ [.silent hostname delta], clientPrevTimestamp := prevTimestamp }
    if cfg.checkDrift then
      let clockOffset ← delItem s.clientClockOffset hostname
      let prevDrift ← delItem s.clientPrevDrift hostname
      return { s with clientClockOffset := clockOffset, clientPrevDrift := prevDrift }
    else return s
  else return s

def checkForTimeouts (s : State T) (localTimestamp : T) : Except PyError (State T) :=
  s.clientPrevTimestamp.keys.foldlM (checkForTimeout cfg localTimestamp) s

/-- The rest of a round behind `check_heartbeat`. -/
def checkIfDue (s : State T) (beat : Beat T) : Except PyError (State T) := do
  if cfg.timeout < cfg.clock.sub beat.localTimestamp s.prevCheckTimestamp then
    let s ← checkForTimeouts cfg s beat.checkTimestamp
    return { s with prevCheckTimestamp := beat.localTimestamp }
  else return s

def round (s : State T) (beat : Beat T) : Except PyError (State T) := do
  let (_, s) ← checkHeartbeat cfg s beat.heartbeat beat.localTimestamp
  checkIfDue cfg s beat

/-- The rounds of `run_server`. -/
def runServer (s : State T) (beats : List (Beat T)) : Except PyError (State T) :=
  beats.foldlM (round cfg) s

/-- The server has been started at this time. -/
def initial (start : T) : State T := ⟨∅, ∅, ∅, start, []⟩

end Definitions

/-! ## The dictionaries -/

section Dictionaries

variable {T : Type} [LinearOrder T] {cfg : Config T} {s s' : State T}

/-- The three dictionaries have the same hosts. -/
def SameHosts (s : State T) : Prop :=
  ∀ h, (h ∈ s.clientClockOffset.keys ↔ h ∈ s.clientPrevTimestamp.keys) ∧
    (h ∈ s.clientPrevDrift.keys ↔ h ∈ s.clientPrevTimestamp.keys)

/-- Only the drift check uses the other two dictionaries. -/
def Consistent (cfg : Config T) (s : State T) : Prop := cfg.checkDrift = true → SameHosts s

/-- A drift check of a host touches its own two entries. -/
structure DriftChecked (hostname : Host) (s s' : State T) : Prop where
  prevTimestamp : s'.clientPrevTimestamp = s.clientPrevTimestamp
  prevCheck : s'.prevCheckTimestamp = s.prevCheckTimestamp
  alerts : s'.alerts = s.alerts
  offset : ∀ h, h ∈ s'.clientClockOffset.keys ↔ h = hostname ∨ h ∈ s.clientClockOffset.keys
  drift : ∀ h, h ∈ s'.clientPrevDrift.keys ↔ h = hostname ∨ h ∈ s.clientPrevDrift.keys

theorem driftChecked_startDrift (cfg : Config T) {hostname : Host} (timestamp localTimestamp : T)
    (hsame : hostname ∈ s.clientPrevDrift.keys ↔ hostname ∈ s.clientClockOffset.keys) :
    DriftChecked hostname s (startDrift cfg s hostname timestamp localTimestamp) := by
  unfold startDrift
  split
  · exact ⟨rfl, rfl, rfl, fun h => Dict.mem_keys_set, fun h => Dict.mem_keys_set⟩
  · rename_i hold
    rw [not_not] at hold
    have hdrift := hsame.mpr hold
    refine ⟨rfl, rfl, rfl, fun h => ?_, fun h => ?_⟩
    · constructor
      · exact Or.inr
      · rintro (rfl | hmem)
        · exact hold
        · exact hmem
    · constructor
      · exact Or.inr
      · rintro (rfl | hmem)
        · exact hdrift
        · exact hmem

/-- The drift check raises no `KeyError`. -/
theorem checkDrift_ok (cfg : Config T) {hostname : Host} (timestamp localTimestamp : T)
    (hsame : hostname ∈ s.clientPrevDrift.keys ↔ hostname ∈ s.clientClockOffset.keys) :
    ∃ drift s', checkDrift cfg s hostname timestamp localTimestamp = .ok (drift, s') ∧
      DriftChecked hostname s s' := by
  have hstart := driftChecked_startDrift cfg timestamp localTimestamp hsame
  generalize ht : startDrift cfg s hostname timestamp localTimestamp = t at hstart
  obtain ⟨offset, hoffset⟩ := Dict.mem_keys_iff.mp ((hstart.offset hostname).mpr (.inl rfl))
  obtain ⟨prev, hprev⟩ := Dict.mem_keys_iff.mp ((hstart.drift hostname).mpr (.inl rfl))
  let drift := cfg.clock.sub (cfg.clock.sub timestamp localTimestamp) offset
  refine ⟨(drift, cfg.clock.sub drift prev),
    { t with clientPrevDrift := t.clientPrevDrift.set hostname drift }, ?_, ?_⟩
  · unfold checkDrift
    simp only [ht, hoffset, orRaise_some, hprev]
    rfl
  · refine { hstart with drift := fun h => ?_ }
    rw [Dict.mem_keys_set, hstart.drift]
    tauto

omit [LinearOrder T] in
theorem SameHosts.of_driftChecked {hostname : Host} {t : State T} (h : SameHosts s)
    (hprev : ∀ h, h ∈ t.clientPrevTimestamp.keys ↔ h = hostname ∨ h ∈ s.clientPrevTimestamp.keys)
    (hoffset : t.clientClockOffset = s.clientClockOffset)
    (hdrift : t.clientPrevDrift = s.clientPrevDrift) (hchecked : DriftChecked hostname t s') :
    SameHosts s' := by
  intro x
  rw [hchecked.offset, hchecked.drift, hchecked.prevTimestamp, hprev, hoffset, hdrift, (h x).1,
    (h x).2]
  exact ⟨Iff.rfl, Iff.rfl⟩

/-- The alert of a heartbeat is about its own host, and no other timestamp changes. -/
theorem checkHeartbeat_ok (hs : Consistent cfg s) {heartbeat : List Char} {hostname : Host}
    {timestamp : T} (hparse : parseHeartbeat cfg heartbeat = .ok (hostname, timestamp))
    (localTimestamp : T) :
    ∃ drift s', checkHeartbeat cfg s heartbeat localTimestamp = .ok (drift, s') ∧
      Consistent cfg s' ∧
      s'.clientPrevTimestamp = s.clientPrevTimestamp.set hostname localTimestamp ∧
      s'.prevCheckTimestamp = s.prevCheckTimestamp ∧
      s'.alerts = s.alerts ++ lateAlert cfg s hostname localTimestamp := by
  let t : State T := { s with
    alerts := s.alerts ++ lateAlert cfg s hostname localTimestamp
    clientPrevTimestamp := s.clientPrevTimestamp.set hostname localTimestamp }
  cases hdrift : cfg.checkDrift with
  | false =>
      refine ⟨none, t, ?_, ?_, rfl, rfl, rfl⟩
      · unfold checkHeartbeat
        rw [bind_of_eq_ok hparse, hdrift]
        rfl
      · intro hcheck
        rw [hdrift] at hcheck
        cases hcheck
  | true =>
      have hsame := hs hdrift
      have hown : hostname ∈ t.clientPrevDrift.keys ↔ hostname ∈ t.clientClockOffset.keys :=
        (hsame hostname).2.trans (hsame hostname).1.symm
      obtain ⟨drift, s', hchecked, hspec⟩ := checkDrift_ok cfg timestamp localTimestamp hown
      refine ⟨some drift, s', ?_, ?_, hspec.prevTimestamp, hspec.prevCheck, hspec.alerts⟩
      · unfold checkHeartbeat
        rw [bind_of_eq_ok hparse, hdrift]
        exact bind_of_eq_ok hchecked _
      · intro _
        exact hsame.of_driftChecked (t := t) (fun h => Dict.mem_keys_set) rfl rfl hspec

/-! ## Timeouts -/

/-- The host has been silent for too long. -/
def Expired (cfg : Config T) (s : State T) (localTimestamp : T) (h : Host) : Prop :=
  ∃ t, s.clientPrevTimestamp.get? h = some t ∧ cfg.timeout < cfg.clock.sub localTimestamp t

omit [LinearOrder T] in
theorem delItem_ok {d : Dict Host T} {key : Host} (h : key ∈ d.keys) :
    delItem d key = .ok (d.erase key) := if_pos h

/-- A host that has expired is forgotten in all dictionaries, with one alert. -/
theorem checkForTimeout_ok (hs : Consistent cfg s) (now : T) {hostname : Host}
    (hmem : hostname ∈ s.clientPrevTimestamp.keys) :
    (¬Expired cfg s now hostname ∧ checkForTimeout cfg now s hostname = .ok s) ∨
      Expired cfg s now hostname ∧ ∃ delta s', checkForTimeout cfg now s hostname = .ok s' ∧
        Consistent cfg s' ∧ s'.clientPrevTimestamp = s.clientPrevTimestamp.erase hostname ∧
        s'.prevCheckTimestamp = s.prevCheckTimestamp ∧
        s'.alerts = s.alerts ++ [Alert.silent hostname delta] := by
  obtain ⟨t, ht⟩ := Dict.mem_keys_iff.mp hmem
  by_cases hexp : cfg.timeout < cfg.clock.sub now t
  · refine .inr ⟨⟨t, ht, hexp⟩, cfg.clock.sub now t, ?_⟩
    let u : State T := { s with
      alerts := s.alerts ++ [Alert.silent hostname (cfg.clock.sub now t)]
      clientPrevTimestamp := s.clientPrevTimestamp.erase hostname }
    cases hdrift : cfg.checkDrift with
    | false =>
        refine ⟨u, ?_, fun hcheck => ?_, rfl, rfl, rfl⟩
        · unfold checkForTimeout
          simp only [ht, orRaise_some, hdrift, Bool.false_eq_true, if_false, delItem_ok hmem]
          exact if_pos hexp
        · rw [hdrift] at hcheck
          cases hcheck
    | true =>
        have hsame := hs hdrift
        refine ⟨{ u with
          clientClockOffset := s.clientClockOffset.erase hostname
          clientPrevDrift := s.clientPrevDrift.erase hostname }, ?_, fun _ x => ?_, rfl, rfl, rfl⟩
        · unfold checkForTimeout
          simp only [ht, orRaise_some, hdrift, if_true, delItem_ok hmem,
            delItem_ok ((hsame hostname).1.mpr hmem), delItem_ok ((hsame hostname).2.mpr hmem)]
          exact if_pos hexp
        · simp only [u, Dict.mem_keys_erase, (hsame x).1, (hsame x).2, and_self]
  · refine .inl ⟨?_, ?_⟩
    · rintro ⟨t', ht', hexp'⟩
      rw [ht] at ht'
      cases ht'
      exact hexp hexp'
    · unfold checkForTimeout
      rw [ht, orRaise_some]
      exact if_neg hexp

end Dictionaries

section Timeouts

variable {T : Type} [LinearOrder T] {cfg : Config T} {s s' : State T}

/-- How many alerts about a host have been printed. -/
def alertsFor (s : State T) (h : Host) : Nat := s.alerts.countP fun a => a.host = h

omit [LinearOrder T] in
theorem alertsFor_of_append {new : List (Alert T)} (h : s'.alerts = s.alerts ++ new) (x : Host) :
    alertsFor s' x = alertsFor s x + new.countP fun a => a.host = x := by
  rw [alertsFor, h, List.countP_append, alertsFor]

/-- Those of the hosts that have expired are forgotten, with one alert each. -/
structure TimedOut (cfg : Config T) (now : T) (hosts : List Host) (s s' : State T) : Prop where
  consistent : Consistent cfg s'
  prevCheck : s'.prevCheckTimestamp = s.prevCheckTimestamp
  kept : ∀ h, h ∉ hosts ∨ ¬Expired cfg s now h →
    s'.clientPrevTimestamp.get? h = s.clientPrevTimestamp.get? h ∧ alertsFor s' h = alertsFor s h
  dropped : ∀ h ∈ hosts, Expired cfg s now h →
    s'.clientPrevTimestamp.get? h = none ∧ alertsFor s' h = alertsFor s h + 1

theorem timedOut_nil (hs : Consistent cfg s) (now : T) : TimedOut cfg now [] s s :=
  ⟨hs, rfl, fun _ _ => ⟨rfl, rfl⟩, fun _ h => nomatch h⟩

/-- A host that has not expired changes nothing. -/
theorem TimedOut.cons_kept {now : T} {hostname : Host} {hosts : List Host}
    (h : TimedOut cfg now hosts s s') (hlive : ¬Expired cfg s now hostname) :
    TimedOut cfg now (hostname :: hosts) s s' where
  consistent := h.consistent
  prevCheck := h.prevCheck
  kept := by
    intro x hx
    apply h.kept
    rcases hx with hx | hx
    · exact .inl fun hmem => hx (List.mem_cons_of_mem _ hmem)
    · exact .inr hx
  dropped := by
    intro x hx hexp
    rcases List.mem_cons.mp hx with rfl | hx
    · exact absurd hexp hlive
    · exact h.dropped x hx hexp

theorem TimedOut.cons_dropped {now delta : T} {t : State T} {hostname : Host} {hosts : List Host}
    (hnot : hostname ∉ hosts) (hexp : Expired cfg s now hostname)
    (hprev : t.clientPrevTimestamp = s.clientPrevTimestamp.erase hostname)
    (hcheck : t.prevCheckTimestamp = s.prevCheckTimestamp)
    (halerts : t.alerts = s.alerts ++ [Alert.silent hostname delta])
    (h : TimedOut cfg now hosts t s') : TimedOut cfg now (hostname :: hosts) s s' := by
  have hother : ∀ x, x ≠ hostname → t.clientPrevTimestamp.get? x = s.clientPrevTimestamp.get? x ∧
      alertsFor t x = alertsFor s x := by
    intro x hx
    refine ⟨by rw [hprev, Dict.get?_erase_ne _ hx], ?_⟩
    rw [alertsFor_of_append halerts]
    simp [Alert.host, Ne.symm hx]
  have hexpired : ∀ x, x ≠ hostname → (Expired cfg t now x ↔ Expired cfg s now x) := by
    intro x hx
    rw [Expired, (hother x hx).1, Expired]
  refine ⟨h.consistent, h.prevCheck.trans hcheck, fun x hx => ?_, fun x hx hx' => ?_⟩
  · have hne : x ≠ hostname := by
      rintro rfl
      rcases hx with hx | hx
      · exact hx List.mem_cons_self
      · exact hx hexp
    obtain ⟨hget, hcount⟩ := h.kept x (by
      rcases hx with hx | hx
      · exact .inl fun hmem => hx (List.mem_cons_of_mem _ hmem)
      · exact .inr fun hmem => hx ((hexpired x hne).mp hmem))
    exact ⟨hget.trans (hother x hne).1, hcount.trans (hother x hne).2⟩
  · rcases List.mem_cons.mp hx with rfl | hx
    · obtain ⟨hget, hcount⟩ := h.kept x (.inl hnot)
      rw [hget, hcount, hprev, Dict.get?_erase_self, alertsFor_of_append halerts]
      exact ⟨rfl, by simp [Alert.host]⟩
    · have hne : x ≠ hostname := fun heq => hnot (heq ▸ hx)
      obtain ⟨hget, hcount⟩ := h.dropped x hx ((hexpired x hne).mpr hx')
      exact ⟨hget, by rw [hcount, (hother x hne).2]⟩

theorem foldlM_checkForTimeout {now : T} {hosts : List Host} (hs : Consistent cfg s)
    (hnodup : hosts.Nodup) (hmem : ∀ h ∈ hosts, h ∈ s.clientPrevTimestamp.keys) :
    ∃ s', hosts.foldlM (checkForTimeout cfg now) s = .ok s' ∧ TimedOut cfg now hosts s s' := by
  induction hosts generalizing s with
  | nil => exact ⟨s, rfl, timedOut_nil hs now⟩
  | cons hostname hosts ih =>
      rw [List.nodup_cons] at hnodup
      obtain ⟨hlive, hok⟩ | ⟨hexp, delta, t, hok, ht, hprev, hcheck, halerts⟩ :=
        checkForTimeout_ok hs now (hmem hostname List.mem_cons_self)
      · obtain ⟨s', hrest, hspec⟩ := ih hs hnodup.2 fun h hh => hmem h (List.mem_cons_of_mem _ hh)
        refine ⟨s', ?_, hspec.cons_kept hlive⟩
        rw [List.foldlM_cons, bind_of_eq_ok hok, hrest]
      · have hrestmem : ∀ h ∈ hosts, h ∈ t.clientPrevTimestamp.keys := by
          intro h hh
          rw [hprev, Dict.mem_keys_erase]
          exact ⟨fun heq => hnodup.1 (heq ▸ hh), hmem h (List.mem_cons_of_mem _ hh)⟩
        obtain ⟨s', hrest, hspec⟩ := ih ht hnodup.2 hrestmem
        refine ⟨s', ?_, TimedOut.cons_dropped hnodup.1 hexp hprev hcheck halerts hspec⟩
        rw [List.foldlM_cons, bind_of_eq_ok hok, hrest]

/-- The check forgets every host that has expired, and raises no `KeyError`. -/
theorem checkForTimeouts_ok (hs : Consistent cfg s) (now : T) :
    ∃ s', checkForTimeouts cfg s now = .ok s' ∧
      TimedOut cfg now s.clientPrevTimestamp.keys s s' :=
  foldlM_checkForTimeout hs s.clientPrevTimestamp.nodup_keys fun _ h => h

end Timeouts

end TpQemu.Heartbeat
