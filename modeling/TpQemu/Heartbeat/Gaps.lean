import TpQemu.Heartbeat.Server
import Mathlib.Data.Int.Order.Basic

/-!
# One alert for each gap

Between two heartbeats of a host the server either still holds the time of the first one
and has not alerted, or it has forgotten the host with one alert. It forgets a host only
when twice the threshold has passed, so the gap is then longer than the threshold too; if
it has not forgotten the host, the second heartbeat decides.
-/

namespace TpQemu.Heartbeat

variable {T : Type} [LinearOrder T] {cfg : Config T} {s s' : State T}

/-! ## Rounds -/

/-- The host a well-formed heartbeat is from. -/
def hostOf (cfg : Config T) (beat : Beat T) : Option Host :=
  match parseHeartbeat cfg beat.heartbeat with
  | .ok (hostname, _) => some hostname
  | .error _ => none

/-- The clock does not go back, beginning with this reading. -/
def NonDecreasing : T → List (Beat T) → Prop
  | _, [] => True
  | now, beat :: beats => now ≤ beat.localTimestamp ∧ beat.localTimestamp ≤ beat.checkTimestamp ∧
      NonDecreasing beat.checkTimestamp beats

theorem parse_of_hostOf {beat : Beat T} {h : Host} (hbeat : hostOf cfg beat = some h) :
    ∃ timestamp, parseHeartbeat cfg beat.heartbeat = .ok (h, timestamp) := by
  unfold hostOf at hbeat
  split at hbeat
  · rename_i hostname timestamp hparse
    cases hbeat
    exact ⟨timestamp, hparse⟩
  · cases hbeat

/-- A host is watched since the time `since`: `n` alerts have been printed, and one more if it
has been forgotten. -/
def Watched (cfg : Config T) (h : Host) (since : T) (n : Nat) (now : T) (s : State T) : Prop :=
  s.clientPrevTimestamp.get? h = some since ∧ alertsFor s h = n ∨
    s.clientPrevTimestamp.get? h = none ∧ alertsFor s h = n + 1 ∧
      cfg.timeout < cfg.clock.sub now since

theorem Watched.mono {h : Host} {since now later : T} {n : Nat} (hw : Watched cfg h since n now s)
    (hle : now ≤ later) : Watched cfg h since n later s := by
  obtain hheld | ⟨hnone, hcount, hexp⟩ := hw
  · exact .inl hheld
  · exact .inr ⟨hnone, hcount, hexp.trans_le (cfg.clock.sub_le_sub since now later hle)⟩

/-- The rest of a round keeps the dictionaries consistent and the watch. -/
theorem checkIfDue_ok (hs : Consistent cfg s) (beat : Beat T) :
    ∃ s', checkIfDue cfg s beat = .ok s' ∧ Consistent cfg s' ∧
      ∀ h since n, Watched cfg h since n beat.checkTimestamp s →
        Watched cfg h since n beat.checkTimestamp s' := by
  unfold checkIfDue
  split
  · obtain ⟨t, hok, ht⟩ := checkForTimeouts_ok hs beat.checkTimestamp
    refine ⟨{ t with prevCheckTimestamp := beat.localTimestamp }, bind_of_eq_ok hok _,
      ht.consistent, fun h since n hw => ?_⟩
    by_cases hexp : Expired cfg s beat.checkTimestamp h
    · -- The host was held, and is forgotten with one alert.
      obtain ⟨prev, hprev, hlong⟩ := hexp
      obtain ⟨hheld, hcount⟩ | ⟨hnone, -⟩ := hw
      · have hmem := Dict.mem_keys_iff.mpr ⟨prev, hprev⟩
        obtain ⟨hget, hcount'⟩ := ht.dropped h hmem ⟨prev, hprev, hlong⟩
        rw [hprev] at hheld
        cases hheld
        exact .inr ⟨hget, hcount'.trans (by rw [hcount]), hlong⟩
      · rw [hprev] at hnone
        cases hnone
    · obtain ⟨hget, hcount⟩ := ht.kept h (.inr hexp)
      obtain ⟨hheld, hn⟩ | ⟨hnone, hn, hlong⟩ := hw
      · exact .inl ⟨hget.trans hheld, hcount.trans hn⟩
      · exact .inr ⟨hget.trans hnone, hcount.trans hn, hlong⟩
  · exact ⟨s, rfl, hs, fun _ _ _ hw => hw⟩

/-- A heartbeat of another host keeps the watch. -/
theorem Watched.of_other {h hostname : Host} {since now localTimestamp : T} {n : Nat}
    (hw : Watched cfg h since n now s) (hne : h ≠ hostname)
    (hprev : s'.clientPrevTimestamp = s.clientPrevTimestamp.set hostname localTimestamp)
    (halerts : s'.alerts = s.alerts ++ lateAlert cfg s hostname localTimestamp) :
    Watched cfg h since n now s' := by
  have hcount : alertsFor s' h = alertsFor s h := by
    rw [alertsFor_of_append halerts, lateAlert]
    split
    · rfl
    · dsimp only
      split
      · simp [Alert.host, Ne.symm hne]
      · rfl
  rw [Watched, hprev, Dict.get?_set_ne _ hne, hcount]
  exact hw

theorem round_ok (hs : Consistent cfg s) {beat : Beat T} (hbeat : (hostOf cfg beat).isSome) :
    ∃ s', round cfg s beat = .ok s' ∧ Consistent cfg s' ∧
      ∀ h since n now, hostOf cfg beat ≠ some h → now ≤ beat.localTimestamp →
        beat.localTimestamp ≤ beat.checkTimestamp → Watched cfg h since n now s →
        Watched cfg h since n beat.checkTimestamp s' := by
  obtain ⟨hostname, hhost⟩ := Option.isSome_iff_exists.mp hbeat
  obtain ⟨timestamp, hparse⟩ := parse_of_hostOf hhost
  obtain ⟨drift, t, hok, ht, hprev, -, halerts⟩ :=
    checkHeartbeat_ok hs hparse beat.localTimestamp
  obtain ⟨s', hdue, hs', hwatch⟩ := checkIfDue_ok ht beat
  refine ⟨s', ?_, hs', fun h since n now hne hle hle' hw => ?_⟩
  · rw [round, bind_of_eq_ok hok]
    exact hdue
  · rw [hhost] at hne
    apply hwatch
    exact (hw.of_other (fun heq => hne (heq ▸ rfl)) hprev halerts).mono (hle.trans hle')

/-- No run of the server on well-formed heartbeats raises. -/
theorem runServer_ok {beats : List (Beat T)} (hs : Consistent cfg s)
    (hwell : ∀ beat ∈ beats, (hostOf cfg beat).isSome) :
    ∃ s', runServer cfg s beats = .ok s' ∧ Consistent cfg s' := by
  induction beats generalizing s with
  | nil => exact ⟨s, rfl, hs⟩
  | cons beat beats ih =>
      obtain ⟨t, hok, ht, -⟩ := round_ok hs (hwell beat List.mem_cons_self)
      obtain ⟨s', hrest, hs'⟩ := ih ht fun b hb => hwell b (List.mem_cons_of_mem _ hb)
      refine ⟨s', ?_, hs'⟩
      rw [runServer, List.foldlM_cons, bind_of_eq_ok hok]
      exact hrest

/-! ## Gaps -/

/-- Rounds that bring no heartbeat of the host keep the watch up to the next round. -/
theorem runServer_watched {mid post : List (Beat T)} {b : Beat T} {h : Host} {since now : T}
    {n : Nat} (hs : Consistent cfg s) (hwell : ∀ beat ∈ mid, (hostOf cfg beat).isSome)
    (hother : ∀ beat ∈ mid, hostOf cfg beat ≠ some h)
    (hclock : NonDecreasing now (mid ++ b :: post)) (hw : Watched cfg h since n now s) :
    ∃ s', runServer cfg s mid = .ok s' ∧ Consistent cfg s' ∧
      Watched cfg h since n b.localTimestamp s' := by
  induction mid generalizing s now with
  | nil => exact ⟨s, rfl, hs, hw.mono hclock.1⟩
  | cons beat mid ih =>
      obtain ⟨hle, hle', hclock⟩ := hclock
      obtain ⟨t, hok, ht, hround⟩ := round_ok hs (hwell beat List.mem_cons_self)
      have hwt := hround h since n now (hother beat List.mem_cons_self) hle hle' hw
      obtain ⟨s', hrest, hs', hw'⟩ := ih ht (fun b hb => hwell b (List.mem_cons_of_mem _ hb))
        (fun b hb => hother b (List.mem_cons_of_mem _ hb)) hclock hwt
      refine ⟨s', ?_, hs', hw'⟩
      rw [runServer, List.foldlM_cons, bind_of_eq_ok hok]
      exact hrest

/-- The heartbeat that ends the gap alerts if the host is still held and it is late. -/
theorem Watched.alertsFor_next {h : Host} {since now : T} {n : Nat}
    (hw : Watched cfg h since n now s) (halerts : s'.alerts = s.alerts ++ lateAlert cfg s h now) :
    alertsFor s' h = n + if cfg.threshold < cfg.clock.sub now since then 1 else 0 := by
  rw [alertsFor_of_append halerts, lateAlert]
  obtain ⟨hheld, hcount⟩ | ⟨hnone, hcount, hexp⟩ := hw
  · rw [hheld, hcount]
    dsimp only
    split
    · simp [Alert.host]
    · rfl
  · rw [hnone, hcount, if_pos (cfg.threshold_le.trans_lt hexp)]
    rfl

/-- The number of alerts about a host printed behind its heartbeat `a` and up to its next
heartbeat `b`, with other rounds between them. -/
def alertsInGap (cfg : Config T) (h : Host) (s : State T) (a : Beat T) (mid : List (Beat T))
    (b : Beat T) : Except PyError Nat := do
  let (_, s₁) ← checkHeartbeat cfg s a.heartbeat a.localTimestamp
  let s₂ ← checkIfDue cfg s₁ a
  let s₃ ← runServer cfg s₂ mid
  let (_, s₄) ← checkHeartbeat cfg s₃ b.heartbeat b.localTimestamp
  return alertsFor s₄ h - alertsFor s₁ h

theorem alertsInGap_eq {h : Host} {a b : Beat T} {mid post : List (Beat T)} {now : T}
    (hs : Consistent cfg s) (ha : hostOf cfg a = some h) (hb : hostOf cfg b = some h)
    (hwell : ∀ beat ∈ mid, (hostOf cfg beat).isSome)
    (hother : ∀ beat ∈ mid, hostOf cfg beat ≠ some h)
    (hclock : NonDecreasing now (a :: (mid ++ b :: post))) :
    alertsInGap cfg h s a mid b =
      .ok (if cfg.threshold < cfg.clock.sub b.localTimestamp a.localTimestamp then 1 else 0) := by
  obtain ⟨-, hle, hclock⟩ := hclock
  obtain ⟨ta, hparsea⟩ := parse_of_hostOf ha
  obtain ⟨tb, hparseb⟩ := parse_of_hostOf hb
  obtain ⟨drift, s₁, h₁, hs₁, hprev₁, -, -⟩ := checkHeartbeat_ok hs hparsea a.localTimestamp
  have hw₁ : Watched cfg h a.localTimestamp (alertsFor s₁ h) a.checkTimestamp s₁ := by
    refine .inl ⟨?_, rfl⟩
    rw [hprev₁, Dict.get?_set_self]
  obtain ⟨s₂, h₂, hs₂, hw₂⟩ := checkIfDue_ok hs₁ a
  obtain ⟨s₃, h₃, hs₃, hw₃⟩ :=
    runServer_watched hs₂ hwell hother hclock (hw₂ h a.localTimestamp _ hw₁)
  obtain ⟨drift', s₄, h₄, -, -, -, halerts⟩ := checkHeartbeat_ok hs₃ hparseb b.localTimestamp
  unfold alertsInGap
  simp only [h₁, h₂, h₃, h₄, hw₃.alertsFor_next halerts, Nat.add_sub_cancel_left, bind, Except.bind,
    pure, Except.pure]

theorem NonDecreasing.of_append {pre post : List (Beat T)} {now : T}
    (h : NonDecreasing now (pre ++ post)) : ∃ later, NonDecreasing later post := by
  induction pre generalizing now with
  | nil => exact ⟨now, h⟩
  | cons beat pre ih => exact ih h.2.2

theorem consistent_initial (cfg : Config T) (start : T) : Consistent cfg (initial start) :=
  fun _ _ => ⟨Iff.rfl, Iff.rfl⟩

/-- The server never raises, the dictionaries have the same hosts after every round, and a
gap between two heartbeats of a host brings one alert if it is longer than the threshold
and none otherwise. -/
theorem one_alert_per_gap {start : T} {beats : List (Beat T)}
    (hwell : ∀ beat ∈ beats, (hostOf cfg beat).isSome) (hclock : NonDecreasing start beats) :
    (∀ pre, pre <+: beats → ∃ s, runServer cfg (initial start) pre = .ok s ∧
      (cfg.checkDrift = true → SameHosts s)) ∧
    ∀ pre a mid b post h, beats = pre ++ a :: (mid ++ b :: post) →
      hostOf cfg a = some h → hostOf cfg b = some h → (∀ m ∈ mid, hostOf cfg m ≠ some h) →
      (runServer cfg (initial start) pre >>= fun s => alertsInGap cfg h s a mid b) =
        .ok (if cfg.threshold < cfg.clock.sub b.localTimestamp a.localTimestamp then 1 else 0) := by
  constructor
  · intro pre hpre
    exact runServer_ok (consistent_initial cfg start) fun beat hbeat =>
      hwell beat (hpre.subset hbeat)
  · intro pre a mid b post h hbeats ha hb hother
    subst hbeats
    have hpre : ∀ beat ∈ pre, (hostOf cfg beat).isSome := fun beat hbeat =>
      hwell beat (List.mem_append_left _ hbeat)
    obtain ⟨s, hok, hs⟩ := runServer_ok (consistent_initial cfg start) hpre
    obtain ⟨now, hgap⟩ := hclock.of_append
    rw [bind_of_eq_ok hok]
    refine alertsInGap_eq hs ha hb (fun beat hbeat => hwell beat ?_) hother hgap
    simp [hbeat]

/-- A clock in whole seconds. -/
def secondsConfig : Config Int where
  clock :=
    { sub := fun a b => a - b
      zero := 0
      float := fun text => some (text.foldl (fun n c => 10 * n + (c.toNat - 48 : Int)) 0)
      sub_le_sub := fun _ _ _ h => Int.sub_le_sub_right h _ }
  threshold := 10
  timeout := 20
  checkDrift := true
  threshold_le := by decide

/-- A gap of 15 seconds. -/
theorem one_alert_in_fifteen_seconds :
    alertsInGap secondsConfig ['v', 'm'] (initial 0) ⟨"vm 000001 100".toList, 5, 5⟩ []
      ⟨"vm 000002 115".toList, 20, 20⟩ = .ok 1 := by
  let a : Beat Int := ⟨"vm 000001 100".toList, 5, 5⟩
  let b : Beat Int := ⟨"vm 000002 115".toList, 20, 20⟩
  have hwell : ∀ beat ∈ [a, b], (hostOf secondsConfig beat).isSome := by decide
  have hclock : NonDecreasing 0 [a, b] := by simp [NonDecreasing, a, b]
  exact (one_alert_per_gap hwell hclock).2 [] a [] b [] _ rfl rfl rfl fun m hm => nomatch hm

end TpQemu.Heartbeat
