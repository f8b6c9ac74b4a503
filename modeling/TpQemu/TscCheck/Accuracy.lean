import Mathlib.Algebra.Group.Nat.Defs
import TpQemu.TscCheck.Check

/-!
# What the check of the counters measures

The slave thread reads its counter between the two readings of the main thread. With counters
that run alike, the difference that `tsc_delta` returns is then the difference of their offsets up
to half of the shortest round trip.
-/

namespace TpQemu.TscCheck

variable {c : Config} {s s' : State} {a b now now' : Nat}

/-- `t1 - t0` of a round. -/
def Best.roundtrip (round : Best) : BitVec 64 := round.t1 - round.t0

/-- The counter of the second CPU was read between the two readings of that of the first. -/
def Timed (c : Config) (a b now : Nat) (round : Best) : Prop :=
  ∃ before between after, before ≤ between ∧ between ≤ after ∧ after ≤ now ∧
    round = ⟨c.tsc a before, c.tsc a after, c.tsc b between⟩

/-- The round trips are those of timed rounds, and the best round has none longer than these. -/
def Shortest (c : Config) (a b now : Nat) (best : Best) (roundtrips : List (BitVec 64)) : Prop :=
  (best = noBest ∨ Timed c a b now best) ∧
    ∀ r ∈ roundtrips, best.roundtrip ≤ r ∧ ∃ round, Timed c a b now round ∧ r = round.roundtrip

/-- What `tsc_delta` returns comes from the best of its rounds, if it made any. -/
def Sound (c : Config) (now : Nat) (o : Outcome) : Prop :=
  o.roundtrips = [] ∧ o.delta = -1 ∨
    o.roundtrips.length = numIters ∧
      ∃ best, Shortest c o.cpuA o.cpuB now best o.roundtrips ∧ o.delta = best.delta

/-- The readings of the current round. -/
def Reading (c : Config) (s : State) : Prop :=
  match s.main with
  | .setDone => ∃ before, before ≤ s.now ∧ s.t0 = c.tsc s.cpuA before
  | .waitDone =>
      ∃ before, before ≤ s.now ∧ s.t0 = c.tsc s.cpuA before ∧
        (s.slaveAt = .setDone ∨ s.slaveAt = .waitReady →
          ∃ between, before ≤ between ∧ between ≤ s.now ∧ s.slaveTsc = c.tsc s.cpuB between)
  | .readEnd =>
      ∃ before between, before ≤ between ∧ between ≤ s.now ∧ s.t0 = c.tsc s.cpuA before ∧
        s.slaveTsc = c.tsc s.cpuB between
  | .accept => Timed c s.cpuA s.cpuB s.now ⟨s.t0, s.t1, s.slaveTsc⟩
  | _ => True

structure Measures (c : Config) (s : State) : Prop where
  reading : Reading c s
  shortest : s.main.measures = true → Shortest c s.cpuA s.cpuB s.now s.best s.roundtrips
  outcomes : ∀ o ∈ s.outcomes, Sound c s.now o

/-- Outside of the loop there are no rounds to speak of. -/
theorem Measures.outside (hreading : Reading c s) (hmain : s.main.measures = false)
    (houtcomes : ∀ o ∈ s.outcomes, Sound c s.now o) : Measures c s := by
  refine ⟨hreading, fun hin => ?_, houtcomes⟩
  rw [hmain] at hin
  cases hin

/-! ## Time goes on -/

theorem Timed.mono {round : Best} (h : Timed c a b now round) (hnow : now ≤ now') :
    Timed c a b now' round := by
  obtain ⟨before, between, after, hfirst, hsecond, hlast, hround⟩ := h
  exact ⟨before, between, after, hfirst, hsecond, Nat.le_trans hlast hnow, hround⟩

theorem Shortest.mono {best : Best} {roundtrips : List (BitVec 64)}
    (h : Shortest c a b now best roundtrips) (hnow : now ≤ now') :
    Shortest c a b now' best roundtrips := by
  refine ⟨h.1.imp id fun hbest => hbest.mono hnow, fun r hr => ?_⟩
  obtain ⟨hshort, round, hround, hlength⟩ := h.2 r hr
  exact ⟨hshort, round, hround.mono hnow, hlength⟩

theorem Sound.mono {o : Outcome} (h : Sound c now o) (hnow : now ≤ now') : Sound c now' o := by
  obtain h | ⟨hlength, best, hbest, hdelta⟩ := h
  · exact .inl h
  · exact .inr ⟨hlength, best, hbest.mono hnow, hdelta⟩

theorem Reading.elapse (h : Reading c s) (elapsed : Nat) :
    Reading c { s with now := s.now + elapsed } := by
  have hnow : s.now ≤ s.now + elapsed := Nat.le_add_right _ _
  unfold Reading at h ⊢
  cases hmain : s.main <;> simp only [hmain] at h ⊢
  case setDone =>
    obtain ⟨before, hbefore, ht0⟩ := h
    exact ⟨before, Nat.le_trans hbefore hnow, ht0⟩
  case waitDone =>
    obtain ⟨before, hbefore, ht0, hslave⟩ := h
    refine ⟨before, Nat.le_trans hbefore hnow, ht0, fun hat => ?_⟩
    obtain ⟨between, hfirst, hsecond, htsc⟩ := hslave hat
    exact ⟨between, hfirst, Nat.le_trans hsecond hnow, htsc⟩
  case readEnd =>
    obtain ⟨before, between, hfirst, hsecond, hreadings⟩ := h
    exact ⟨before, between, hfirst, Nat.le_trans hsecond hnow, hreadings⟩
  case accept => exact h.mono hnow

theorem Measures.elapse (h : Measures c s) (elapsed : Nat) :
    Measures c { s with now := s.now + elapsed } where
  reading := h.reading.elapse elapsed
  shortest := fun hmain => (h.shortest hmain).mono (Nat.le_add_right _ _)
  outcomes := fun o ho => (h.outcomes o ho).mono (Nat.le_add_right _ _)

/-! ## The steps -/

theorem shortest_accept (hround : Timed c s.cpuA s.cpuB s.now ⟨s.t0, s.t1, s.slaveTsc⟩)
    (h : Shortest c s.cpuA s.cpuB s.now s.best s.roundtrips) :
    Shortest c s.cpuA s.cpuB s.now s.accept.best s.accept.roundtrips := by
  have hlast : ∀ r ∈ s.accept.roundtrips, r ∈ s.roundtrips ∨ r = s.t1 - s.t0 := fun r hr => by
    simpa [State.accept] using hr
  by_cases hless : s.t1 - s.t0 < s.best.t1 - s.best.t0
  · have hbest : s.accept.best = ⟨s.t0, s.t1, s.slaveTsc⟩ := if_pos hless
    rw [hbest]
    refine ⟨.inr hround, fun r hr => ?_⟩
    obtain hr | rfl := hlast r hr
    · obtain ⟨hshort, hold⟩ := h.2 r hr
      exact ⟨BitVec.le_trans (BitVec.le_of_lt hless) hshort, hold⟩
    · exact ⟨BitVec.le_refl _, _, hround, rfl⟩
  · have hbest : s.accept.best = s.best := if_neg hless
    rw [hbest]
    refine ⟨h.1, fun r hr => ?_⟩
    obtain hr | rfl := hlast r hr
    · exact h.2 r hr
    · exact ⟨BitVec.not_lt.mp hless, _, hround, rfl⟩

theorem accept_main (s : State) : s.accept.main = .setReady ∨ s.accept.main = .compare := by
  by_cases hmore : s.roundtrips.length + 1 < numIters
  · exact .inl (if_pos hmore)
  · exact .inr (if_neg hmore)

theorem outcomes_record {o : Outcome} (h : ∀ o ∈ s.outcomes, Sound c s.now o)
    (ho : Sound c s.now o) : ∀ o' ∈ (s.record c o).outcomes, Sound c s.now o' := by
  intro o' ho'
  obtain ho' | ho' := List.mem_append.mp ho'
  · exact h o' ho'
  · rwa [List.mem_singleton.mp ho']

theorem measures_main {ok : Bool} (hturns : Turns s) (h : Measures c s)
    (hstep : mainStep c s ok = some s') : Measures c s' := by
  obtain ⟨hreading, hshortest, houtcomes⟩ := h
  have hturn := hturns.turn
  revert hstep
  fun_cases mainStep c s ok <;> intro hstep <;> cases hstep
  case case1.refl hmain hpairs => exact .outside trivial rfl houtcomes
  case case2.refl hmain _ _ _ hpairs => exact .outside trivial rfl houtcomes
  case case3.refl hmain _ => exact .outside trivial rfl houtcomes
  case case4.refl hmain _ =>
    exact .outside trivial rfl (outcomes_record houtcomes (.inl ⟨rfl, rfl⟩))
  case case5.refl hmain =>
    exact ⟨trivial, fun _ => ⟨.inl rfl, fun _ hr => absurd hr List.not_mem_nil⟩, houtcomes⟩
  case case6.refl hmain => exact ⟨trivial, fun _ => hshortest (by rw [hmain]; rfl), houtcomes⟩
  case case7.refl hmain _ => exact ⟨trivial, fun _ => hshortest (by rw [hmain]; rfl), houtcomes⟩
  case case9.refl hmain =>
    exact ⟨⟨s.now, Nat.le_refl _, rfl⟩, fun _ => hshortest (by rw [hmain]; rfl), houtcomes⟩
  case case10.refl hmain =>
    refine ⟨?_, fun _ => hshortest (by rw [hmain]; rfl), houtcomes⟩
    rw [Turn, hmain] at hturn
    rw [Reading, hmain] at hreading
    obtain ⟨before, hbefore, ht0⟩ := hreading
    refine ⟨before, hbefore, ht0, fun hat => ?_⟩
    rw [hturn.1] at hat
    obtain hat | hat := hat <;> cases hat
  case case11.refl hmain hdone =>
    refine ⟨?_, fun _ => hshortest (by rw [hmain]; rfl), houtcomes⟩
    rw [Turn, hmain] at hturn
    rw [Reading, hmain] at hreading
    have hat : s.slaveAt = .waitReady := by grind
    obtain ⟨before, -, ht0, hslave⟩ := hreading
    obtain ⟨between, hfirst, hsecond, htsc⟩ := hslave (.inr hat)
    exact ⟨before, between, hfirst, hsecond, ht0, htsc⟩
  case case13.refl hmain =>
    refine ⟨?_, fun _ => hshortest (by rw [hmain]; rfl), houtcomes⟩
    rw [Reading, hmain] at hreading
    obtain ⟨before, between, hfirst, hsecond, ht0, htsc⟩ := hreading
    refine ⟨before, between, s.now, hfirst, hsecond, Nat.le_refl _, ?_⟩
    rw [ht0, htsc]
  case case14.refl hmain =>
    rw [Reading, hmain] at hreading
    refine ⟨?_, fun _ => shortest_accept hreading (hshortest (by rw [hmain]; rfl)), houtcomes⟩
    obtain hmain' | hmain' := accept_main s
    · rw [Reading, hmain']
      trivial
    · rw [Reading, hmain']
      trivial
  case case15.refl hmain =>
    have hbest := hshortest (by rw [hmain]; rfl)
    refine .outside trivial rfl (outcomes_record houtcomes ?_)
    exact .inr ⟨hturns.rounds hmain, s.best, hbest, rfl⟩
  case case16.refl hmain => exact .outside trivial rfl houtcomes
  case case17.refl hmain _ => exact .outside trivial rfl houtcomes

/-- The slave thread reads its counter while the main thread waits for that. -/
theorem waitDone_of_readTsc (h : Turns s) (hat : s.slaveAt = .readTsc) :
    s.main = .waitDone ∧ s.currentCpu = some s.cpuB := by
  have hmain : s.main = .waitDone := (main_of_slaveAt h).2.2.2.2 (.inl hat)
  refine ⟨hmain, ?_⟩
  rw [h.pinned (by rw [hat]; rfl), h.cpu (by rw [hmain]; rfl)]

/-- The readings stay what they are while the slave thread is not about to report its own. -/
theorem Reading.frame (h : Reading c s) (slaveAt : Slave) (slave : Word) (currentCpu : Option Nat)
    (hat : slaveAt = .setDone ∨ slaveAt = .waitReady →
      s.slaveAt = .setDone ∨ s.slaveAt = .waitReady) :
    Reading c { s with slaveAt := slaveAt, slave := slave, currentCpu := currentCpu } := by
  unfold Reading at h ⊢
  cases hmain : s.main <;> simp only [hmain] at h ⊢
  case waitDone =>
    obtain ⟨before, hbefore, ht0, hslave⟩ := h
    exact ⟨before, hbefore, ht0, fun hat' => hslave (hat hat')⟩
  all_goals exact h

theorem reading_slave {ok : Bool} (hturns : Turns s) (h : Reading c s)
    (hstep : slaveStep c s ok = some s') : Reading c s' := by
  revert hstep
  fun_cases slaveStep c s ok <;> intro hstep <;> cases hstep
  case case10.refl hat =>
    obtain ⟨hmain, hcpu⟩ := waitDone_of_readTsc hturns hat
    rw [Reading, hmain] at h
    obtain ⟨before, hbefore, ht0, -⟩ := h
    unfold Reading
    rw [hmain]
    refine ⟨before, hbefore, ht0, fun _ => ⟨s.now, hbefore, Nat.le_refl _, ?_⟩⟩
    rw [hcpu]
    rfl
  all_goals
    refine h.frame _ _ _ fun hat => ?_
    grind

theorem measures_slave {ok : Bool} (hturns : Turns s) (h : Measures c s)
    (hstep : slaveStep c s ok = some s') : Measures c s' := by
  have hreading := reading_slave hturns h.reading hstep
  revert hstep
  fun_cases slaveStep c s ok <;> intro hstep <;> cases hstep
  all_goals exact ⟨hreading, h.shortest, h.outcomes⟩

theorem measures_step {l : Label} (h : Turns s ∧ Measures c s) (hstep : step c s l = some s') :
    Turns s' ∧ Measures c s' := by
  refine ⟨turns_step h.1 hstep, ?_⟩
  cases l with
  | main elapsed ok => exact measures_main (h.1.elapse elapsed) (h.2.elapse elapsed) hstep
  | slave elapsed ok => exact measures_slave (h.1.elapse elapsed) (h.2.elapse elapsed) hstep

/-- In every run each difference that `tsc_delta` has returned comes from a timed round. -/
theorem measures_run {pairs : List (Nat × Nat)} {run : List Label}
    (hrun : runSteps (step c) (start pairs) run = some s) : Measures c s := by
  have hstart : Turns (start pairs) ∧ Measures c (start pairs) :=
    ⟨turns_start pairs, .outside trivial rfl fun _ ho => absurd ho List.not_mem_nil⟩
  exact (runSteps_invariant (fun _ _ _ h hstep => measures_step h hstep) hstart hrun).2

/-! ## Counters that run alike -/

/-- Each counter is at its offset and the time, none has come to the end of its range, and with the
time of the run no two are half of it apart. -/
structure Alike (c : Config) (offset : Nat → Nat) (now : Nat) : Prop where
  tsc : ∀ cpu t, t ≤ now → c.tsc cpu t = BitVec.ofNat 64 (t + offset cpu)
  range : ∀ cpu, now + offset cpu < 2 ^ 64
  apart : ∀ a b, now + offset a < offset b + 2 ^ 63

/-- The mean of two words is taken without overflow. -/
theorem toNat_mean (x y : BitVec 64) :
    (x / 2 + y / 2 + (x &&& y &&& 1)).toNat = (x.toNat + y.toNat) / 2 := by
  have hx := x.isLt
  have hy := y.isLt
  have hodd : (x &&& y &&& 1).toNat = (x.toNat % 2) * (y.toNat % 2) := by
    have hand : (x &&& y &&& 1).toNat = (x.toNat &&& y.toNat) &&& 1 := rfl
    rw [hand, Nat.and_one_is_mod, ← Nat.pow_one 2, Nat.and_mod_two_pow, Nat.pow_one]
    obtain hx | hx := Nat.mod_two_eq_zero_or_one x.toNat <;>
      obtain hy | hy := Nat.mod_two_eq_zero_or_one y.toNat <;> rw [hx, hy] <;> rfl
  have hsum : (x.toNat % 2) * (y.toNat % 2) = if x.toNat % 2 + y.toNat % 2 = 2 then 1 else 0 := by
    obtain hx | hx := Nat.mod_two_eq_zero_or_one x.toNat <;>
      obtain hy | hy := Nat.mod_two_eq_zero_or_one y.toNat <;> rw [hx, hy] <;> rfl
  have hhalf (w : BitVec 64) : (w / 2).toNat = w.toNat / 2 := rfl
  rw [BitVec.toNat_add, BitVec.toNat_add, hodd, hhalf, hhalf, hsum]
  split <;> omega

theorem delta_toInt {before after between : Nat} (hbefore : before < 2 ^ 64)
    (hafter : after < 2 ^ 64)
    (hahead : (before + after) / 2 < between + 2 ^ 63)
    (hbehind : between ≤ (before + after) / 2 + 2 ^ 63) :
    (Best.mk (BitVec.ofNat 64 before) (BitVec.ofNat 64 after)
      (BitVec.ofNat 64 between)).delta.toInt =
        ((before + after) / 2 : Nat) - (between : Int) := by
  have hmean : BitVec.ofNat 64 before / 2 + BitVec.ofNat 64 after / 2 +
      (BitVec.ofNat 64 before &&& BitVec.ofNat 64 after &&& 1) =
        BitVec.ofNat 64 ((before + after) / 2) := by
    apply BitVec.eq_of_toNat_eq
    rw [toNat_mean, BitVec.toNat_ofNat, BitVec.toNat_ofNat, BitVec.toNat_ofNat]
    omega
  rw [Best.delta]
  dsimp only
  rw [hmean, BitVec.toInt_eq_toNat_cond, BitVec.toNat_sub, BitVec.toNat_ofNat, BitVec.toNat_ofNat]
  split <;> omega

variable {offset : Nat → Nat}

/-- A timed round measures the difference of the offsets up to half of its length. -/
theorem timed_delta {round : Best} (hclock : Alike c offset now)
    (h : Timed c a b now round) :
    round.roundtrip.toNat < 2 ^ 63 ∧
      2 * (round.delta.toInt - ((offset a : Int) - offset b)).natAbs ≤
        round.roundtrip.toNat + 1 := by
  obtain ⟨before, between, after, hfirst, hsecond, hlast, rfl⟩ := h
  have ha := hclock.range a
  have hb := hclock.range b
  have hsame := hclock.apart a a
  have hahead := hclock.apart a b
  have hbehind := hclock.apart b a
  rw [hclock.tsc a before (by omega), hclock.tsc a after hlast, hclock.tsc b between (by omega),
    delta_toInt (by omega) (by omega) (by omega) (by omega)]
  have hroundtrip : (Best.mk (BitVec.ofNat 64 (before + offset a))
      (BitVec.ofNat 64 (after + offset a)) (BitVec.ofNat 64 (between + offset b))).roundtrip.toNat =
        after - before := by
    rw [Best.roundtrip, BitVec.toNat_sub, BitVec.toNat_ofNat, BitVec.toNat_ofNat]
    omega
  rw [hroundtrip]
  omega

/-- With counters that run alike, `tsc_delta` returns the difference of the offsets of the two CPUs
up to half of each of its ten round trips, or it made none and returns `-1`. -/
theorem delta_accuracy {pairs : List (Nat × Nat)} {run : List Label}
    (hrun : runSteps (step c) (start pairs) run = some s) (hclock : Alike c offset s.now) :
    ∀ o ∈ s.outcomes, o.roundtrips = [] ∧ o.delta = -1 ∨
      o.roundtrips.length = numIters ∧ ∀ r ∈ o.roundtrips,
        2 * (o.delta.toInt - ((offset o.cpuA : Int) - offset o.cpuB)).natAbs ≤ r.toNat + 1 := by
  intro o ho
  obtain hnone | ⟨hlength, best, ⟨hbest, hshort⟩, hdelta⟩ := (measures_run hrun).outcomes o ho
  · exact .inl hnone
  · refine .inr ⟨hlength, fun r hr => ?_⟩
    obtain ⟨hle, round, hround, rfl⟩ := hshort r hr
    have hlt := (timed_delta hclock hround).1
    obtain rfl | hbest := hbest
    · -- no round is as long as the one that is there before the first
      have hmost : noBest.roundtrip.toNat ≤ round.roundtrip.toNat := hle
      have hall : noBest.roundtrip.toNat = 2 ^ 64 - 1 := by decide
      omega
    · have hnear := (timed_delta hclock hbest).2
      have hmost : best.roundtrip.toNat ≤ round.roundtrip.toNat := hle
      rw [hdelta]
      omega

/-- The counter of CPU 1 is ahead by 40. -/
def ahead (cpu : Nat) : Nat := if cpu = 1 then 40 else 0

def aheadConfig : Config := ⟨500, fun cpu t => BitVec.ofNat 64 (t + ahead cpu)⟩

/-- The main thread calls the slave thread. -/
def callRun : List Label := [.main 1 true, .slave 0 true, .slave 0 true]

/-- Both threads read their counters. -/
def readRun : List Label :=
  [.slave 0 true, .main 1 true, .main 1 true, .main 1 true, .slave 1 true, .slave 1 true,
    .slave 1 true, .main 1 true, .main 1 true, .main 1 true]

/-- One round of both threads; `pins` in the first one. -/
def roundRun (pins : List Label) : List Label := callRun ++ pins ++ readRun

/-- The pair of CPUs 0 and 1 is measured. -/
def pairRun : List Label :=
  List.replicate 3 (Label.main 0 true) ++ roundRun [.slave 0 true] ++
    (List.replicate 9 (roundRun [])).flatten ++ [Label.main 0 true]

theorem alike_ahead {now : Nat} (hnow : now ≤ 100) : Alike aheadConfig ahead now := by
  have hmost (cpu : Nat) : ahead cpu ≤ 40 := by
    unfold ahead
    split <;> omega
  refine ⟨fun cpu t _ => rfl, fun cpu => ?_, fun a b => ?_⟩
  · have hcpu := hmost cpu
    omega
  · have ha := hmost a
    omega

theorem delta_accuracy_ahead :
    ∃ s, runSteps (step aheadConfig) (start [(0, 1)]) pairRun = some s ∧
      s.outcomes.length = 1 ∧
      ∀ o ∈ s.outcomes, o.roundtrips = [] ∧ o.delta = -1 ∨
        o.roundtrips.length = numIters ∧ ∀ r ∈ o.roundtrips,
          2 * (o.delta.toInt - ((ahead o.cpuA : Int) - ahead o.cpuB)).natAbs ≤ r.toNat + 1 := by
  obtain ⟨s, hrun, hend⟩ := Option.map_eq_some_iff.mp
    (by decide +kernel : (runSteps (step aheadConfig) (start [(0, 1)]) pairRun).map
      (fun s => (s.now, s.outcomes.length)) = some (100, 1))
  obtain ⟨hnow, hlength⟩ := Prod.mk.inj hend
  exact ⟨s, hrun, hlength, delta_accuracy hrun (alike_ahead (Nat.le_of_eq hnow))⟩

end TpQemu.TscCheck
