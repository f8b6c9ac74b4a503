import Mathlib.Algebra.BigOperators.Fin
import TpQemu.MonotonicTime.TimeTest

/-!
# What the time warp test counts

A thread that has stored its second reading owes the loop counter an increment, and one that has
found a warp owes the warp counter an increment and the worst warp a comparison. Together with what
is owed, the shared fields are those of the iterations made one after the other in the order of
their critical sections. So the test loses no warp, and it reports none where no reading of the
clock is behind an earlier one.
-/

namespace TpQemu.MonotonicTime

variable {τ : Type} [DecidableEq τ] [Fintype τ] (threshold : Int)

/-- The increments of `loops` that a thread still has to make. -/
def owedLoops : Loc → Nat
  | .loadLoops _ _ => 1
  | .storeLoops _ _ _ => 1
  | _ => 0

/-- The warp of two readings, if it is one. -/
def warp (t0 t1 : BitVec 64) : Option Int :=
  if isWarp threshold (delta t0 t1) then some (delta t0 t1) else none

/-- The warp that a thread has met and not yet compared with the worst one. -/
def found : Loc → Option Int
  | .loadLoops t0 t1 => warp threshold t0 t1
  | .storeLoops t0 t1 _ => warp threshold t0 t1
  | .leave t0 t1 => warp threshold t0 t1
  | .compare t0 t1 => warp threshold t0 t1
  | .enterWarp d => some d
  | .loadWarps d => some d
  | .storeWarps d _ => some d
  | .loadWorst d => some d
  | .storeWorst d => some d
  | _ => none

/-- The increments of `warps` that a thread still has to make. -/
def owedWarps : Loc → Nat
  | .loadWorst _ => 0
  | .storeWorst _ => 0
  | loc => (found threshold loc).elim 0 fun _ => 1

/-- A bound of the worst warp that a thread leaves behind. -/
def Bounds (x : Int) (loc : Loc) : Prop :=
  ∀ d, found threshold loc = some d → x ≤ d

/-- The shared fields, with what the threads still owe, are these totals. -/
structure Accounts (s : Lock.State τ Loc TestInfo) (total : TestInfo) : Prop where
  last : s.mem.last = total.last
  loops : s.mem.loops + ∑ t, owedLoops (s.loc t) = total.loops
  warps : s.mem.warps + ∑ t, owedWarps threshold (s.loc t) = total.warps
  worst : ∀ x, (x ≤ s.mem.worst ∧ ∀ t, Bounds threshold x (s.loc t)) ↔ x ≤ total.worst

/-- A move makes a number of iterations and meets a warp, and what else it does settles what was
owed before. -/
structure Settles (loc : Loc) (test : TestInfo) (loc' : Loc) (test' : TestInfo) (made : Nat)
    (met : Option Int) : Prop where
  loops : test'.loops + owedLoops loc' = test.loops + owedLoops loc + made
  warps : test'.warps + owedWarps threshold loc' =
    test.warps + owedWarps threshold loc + met.elim 0 fun _ => 1
  worst : ∀ x, (x ≤ test'.worst ∧ Bounds threshold x loc') ↔
    (x ≤ test.worst ∧ Bounds threshold x loc) ∧ ∀ d, met = some d → x ≤ d

/-- The test function as one step makes one iteration and owes nothing. -/
theorem iterate_settles (test : TestInfo) (it : Iteration) :
    Settles threshold .head test .head (iterate threshold test it) 1
      (warp threshold test.last it.t1) where
  loops := rfl
  warps := by
    rw [iterate, warp]
    cases isWarp threshold (delta test.last it.t1) <;> rfl
  worst x := by
    rw [iterate, warp]
    cases isWarp threshold (delta test.last it.t1) with
    | false => simp
    | true =>
        have hbounds : Bounds threshold x .head := fun d hd => by cases hd
        by_cases hd : delta test.last it.t1 < test.worst
        · simp only [hbounds, hd, if_true, and_true, Option.some.injEq, forall_eq']
          omega
        · simp only [hbounds, hd, if_true, if_false, and_true, and_false, Option.some.injEq,
            forall_eq']
          omega

theorem settles_none {loc loc' : Loc} {test test' : TestInfo}
    (hloops : test'.loops + owedLoops loc' = test.loops + owedLoops loc)
    (hwarps : test'.warps + owedWarps threshold loc' = test.warps + owedWarps threshold loc)
    (hworst : ∀ x, (x ≤ test'.worst ∧ Bounds threshold x loc') ↔
      (x ≤ test.worst ∧ Bounds threshold x loc)) :
    Settles threshold loc test loc' test' 0 none where
  loops := hloops
  warps := hwarps
  worst x := by
    rw [hworst]
    exact (and_iff_left fun d hd => by cases hd).symm

theorem bounds_some {x d : Int} {loc : Loc} (h : found threshold loc = some d) :
    Bounds threshold x loc ↔ x ≤ d := by
  rw [Bounds, h]
  simp

theorem bounds_none {x : Int} {loc : Loc} (h : found threshold loc = none) :
    Bounds threshold x loc := by
  intro d hd
  rw [h] at hd
  cases hd

/-- The moves other than the store of the second reading meet no warp. -/
theorem move_settles {loc : Loc} {clock : BitVec 64} {test : TestInfo}
    {move : Lock.Move Loc TestInfo} (h : code threshold loc clock test = some move)
    (hk : knows loc test) (hstore : ∀ t0 t1 t2, loc ≠ .storeLast t0 t1 t2) :
    Settles threshold loc test move.next (move.memory test) 0 none := by
  cases loc <;> cases h
  case storeLast t0 t1 t2 => exact absurd rfl (hstore t0 t1 t2)
  case head => cases test.done <;> exact settles_none threshold rfl rfl fun x => Iff.rfl
  case storeLoops t0 t1 loops =>
    cases hk
    exact settles_none threshold rfl rfl fun x => Iff.rfl
  case compare t0 t1 =>
    -- the warp is found by the comparison, or it is none
    cases hw : isWarp threshold (delta t0 t1) <;>
      refine settles_none threshold ?_ ?_ fun x => ?_ <;>
        simp [Lock.Move.next, Lock.Move.memory, owedLoops, owedWarps, Bounds, found, warp, hw]
  case storeWarps d warps =>
    cases hk
    exact settles_none threshold rfl rfl fun x => Iff.rfl
  case loadWorst d =>
    dsimp only [Lock.Move.next]
    split
    · exact settles_none threshold rfl rfl fun x => Iff.rfl
    · -- the warp is no worse than the worst one
      rename_i hge
      refine settles_none threshold rfl rfl fun x => ?_
      rw [bounds_some threshold (rfl : found threshold (.loadWorst d) = some d)]
      refine ⟨fun hx => ⟨hx.1, ?_⟩, fun hx => ⟨hx.1, bounds_none threshold rfl⟩⟩
      exact hx.1.trans (Int.not_lt.mp hge)
  case storeWorst d =>
    refine settles_none threshold rfl rfl fun x => ?_
    rw [bounds_some threshold (rfl : found threshold (.storeWorst d) = some d)]
    refine ⟨fun hx => ⟨?_, hx.1⟩, fun hx => ⟨hx.2, bounds_none threshold rfl⟩⟩
    exact hx.1.trans (Int.le_of_lt hk)
  all_goals exact settles_none threshold rfl rfl fun x => Iff.rfl

/-- The store of the second reading makes the iteration. -/
theorem store_settles {t0 t1 t2 clock : BitVec 64} {test : TestInfo}
    {move : Lock.Move Loc TestInfo}
    (h : code threshold (.storeLast t0 t1 t2) clock test = some move)
    (hk : knows (.storeLast t0 t1 t2) test) :
    Settles threshold (.storeLast t0 t1 t2) test move.next (move.memory test) 1
      (warp threshold test.last t1) := by
  cases h
  cases hk
  refine ⟨rfl, ?_, fun x => ?_⟩
  · rfl
  · exact and_congr ⟨fun hx => ⟨hx, bounds_none threshold rfl⟩, fun hx => hx.1⟩ Iff.rfl

/-- A move of one thread that settles what is made of the totals. -/
theorem accounts_move {s s' : Lock.State τ Loc TestInfo} {total total' : TestInfo} {t : τ}
    {loc' : Loc} {made : Nat} {met : Option Int} (hs : Accounts threshold s total)
    (hloc : s'.loc = Function.update s.loc t loc')
    (hmove : Settles threshold (s.loc t) s.mem loc' s'.mem made met)
    (htotal : Settles threshold .head total .head total' made met)
    (hlast : s'.mem.last = total'.last) : Accounts threshold s' total' where
  last := hlast
  loops := by
    have hsum := Lock.sum_update owedLoops s.loc t loc'
    have hbefore := hs.loops
    have hthread := hmove.loops
    have hmade := htotal.loops
    rw [hloc]
    omega
  warps := by
    have hsum := Lock.sum_update (owedWarps threshold) s.loc t loc'
    have hbefore := hs.warps
    have hthread := hmove.warps
    have hmade := htotal.warps
    rw [hloc]
    omega
  worst x := by
    have hafter := Function.forall_update_iff s.loc (a := t) (b := loc')
      fun _ l => Bounds threshold x l
    have hbefore := Function.forall_update_iff s.loc (a := t) (b := s.loc t)
      fun _ l => Bounds threshold x l
    rw [Function.update_eq_self] at hbefore
    have hhead : Bounds threshold x .head := bounds_none threshold rfl
    have hmade : x ≤ total'.worst ↔ x ≤ total.worst ∧ ∀ d, met = some d → x ≤ d := by
      simpa only [hhead, and_true] using htotal.worst x
    have htotals := hs.worst x
    rw [hbefore] at htotals
    rw [hloc, hafter, hmade, ← htotals, ← and_assoc, hmove.worst x]
    grind only

/-- The step rule: what is seen of a step is an iteration of the totals. -/
theorem accounts_step {s s' : Lock.State τ Loc TestInfo} {ev : Lock.Event τ (BitVec 64) Unit}
    {total : TestInfo} (hs : Accounts threshold s total) (hk : ∀ t, knows (s.loc t) s.mem)
    (h : Lock.step (system threshold) s ev = some s') :
    Accounts threshold s' ((seeIteration s ev).elim total (iterate threshold total)) := by
  cases ev with
  | outside e =>
      cases h
      exact ⟨hs.last, hs.loops, hs.warps, hs.worst⟩
  | thread t clock =>
      obtain ⟨move, hcode, hmem, hloc⟩ := Lock.step_thread _ h
      change code threshold (s.loc t) clock s.mem = some move at hcode
      by_cases hstore : ∃ t0 t1 t2, s.loc t = .storeLast t0 t1 t2
      · obtain ⟨t0, t1, t2, hat⟩ := hstore
        have hknown := hk t
        rw [hat] at hcode hknown
        have hmove := store_settles threshold hcode hknown
        have hlast : s'.mem.last = t2 := by
          cases hcode
          rw [hmem]
          rfl
        have hsee : seeIteration s (.thread t clock) = some ⟨t1, t2⟩ := by
          rw [seeIteration, hat, madeAt]
        rw [hsee]
        rw [← hat, ← hmem, hs.last] at hmove
        exact accounts_move threshold hs hloc hmove (iterate_settles threshold total ⟨t1, t2⟩)
          hlast
      · have hother : ∀ t0 t1 t2, s.loc t ≠ .storeLast t0 t1 t2 :=
          fun t0 t1 t2 hat => hstore ⟨t0, t1, t2, hat⟩
        have hmove := move_settles threshold hcode (hk t) hother
        have hlast : s'.mem.last = s.mem.last := by
          rw [hmem]
          cases hat : s.loc t <;> rw [hat] at hcode <;> cases hcode <;>
            first | rfl | exact absurd hat (hother _ _ _)
        have hsee : seeIteration s (.thread t clock) = none := by
          rw [seeIteration, madeAt]
          exact hother
        rw [hsee]
        rw [← hmem] at hmove
        exact accounts_move threshold hs hloc hmove
          (settles_none threshold rfl rfl fun x => Iff.rfl) (hlast.trans hs.last)

/-- The invariant: the totals are those of the iterations made, in their order. -/
structure Sound (s : Lock.State τ Loc TestInfo) (its : List Iteration) : Prop where
  exclusive : Lock.Exclusive Inside s
  known : ∀ t, knows (s.loc t) s.mem
  accounts : Accounts threshold s (sequential threshold its)

omit [DecidableEq τ] in
theorem sound_created : Sound threshold (created : Lock.State τ Loc TestInfo) [] where
  exclusive := Lock.exclusive_of_outside rfl fun _ => id
  known _ := trivial
  accounts := by
    refine ⟨rfl, ?_, ?_, fun x => ?_⟩
    · exact Nat.add_eq_left.mpr (Finset.sum_eq_zero fun t _ => rfl)
    · exact Nat.add_eq_left.mpr (Finset.sum_eq_zero fun t _ => rfl)
    · exact and_iff_left fun t => bounds_none threshold rfl

theorem sound_step {s s' : Lock.State τ Loc TestInfo} {ev : Lock.Event τ (BitVec 64) Unit}
    {its : List Iteration} (hs : Sound threshold s its)
    (h : Lock.step (system threshold) s ev = some s') :
    Sound threshold s' (its ++ (seeIteration s ev).toList) where
  exclusive := Lock.exclusive_step (disciplined threshold) hs.exclusive h
  known := Lock.asserts_step (outline threshold) hs.exclusive hs.known h
  accounts := by
    have haccounts := accounts_step threshold hs.accounts hs.known h
    rw [sequential, List.foldl_append]
    cases hsee : seeIteration s ev <;> rw [hsee] at haccounts <;> exact haccounts

/-- The readings that a thread has made in the iteration it is about to make. -/
def pending : Loc → List (BitVec 64)
  | .loadLast t1 => [t1]
  | .readSecond _ t1 => [t1]
  | .storeLast _ t1 t2 => [t1, t2]
  | _ => []

/-- The readings are those of the iterations, two by two, and those of the thread inside. -/
structure Paired (s : Lock.State τ Loc TestInfo) (readings : List (BitVec 64))
    (its : List Iteration) : Prop where
  inside : ∀ t, Inside (s.loc t) →
    readings = its.flatMap Iteration.readings ++ pending (s.loc t)
  idle : (∀ t, ¬Inside (s.loc t)) → readings = its.flatMap Iteration.readings

/-- A reading is pending until the iteration is made. -/
theorem pending_move {loc : Loc} {clock : BitVec 64} {test : TestInfo}
    {move : Lock.Move Loc TestInfo} (h : code threshold loc clock test = some move) :
    (madeAt loc).toList.flatMap Iteration.readings ++ pending move.next =
      pending loc ++ (readAt loc clock).toList := by
  cases loc <;> cases h <;> try rfl
  case head => cases test.done <;> rfl
  case compare t0 t1 => cases isWarp threshold (delta t0 t1) <;> rfl
  case loadWorst d =>
    dsimp only [Lock.Move.next]
    split <;> rfl

theorem pending_outside {loc : Loc} (h : ¬Inside loc) :
    pending loc = [] ∧ madeAt loc = none ∧ ∀ clock, readAt loc clock = none := by
  cases loc <;> first | exact ⟨rfl, rfl, fun _ => rfl⟩ | exact absurd trivial h

omit [Fintype τ] in
theorem paired_step {s s' : Lock.State τ Loc TestInfo} {ev : Lock.Event τ (BitVec 64) Unit}
    {readings : List (BitVec 64)} {its : List Iteration} (hex : Lock.Exclusive Inside s)
    (hs : Paired s readings its) (h : Lock.step (system threshold) s ev = some s') :
    Paired s' (readings ++ (seeReading s ev).toList) (its ++ (seeIteration s ev).toList) := by
  cases ev with
  | outside e =>
      cases h
      rw [seeReading, seeIteration, Option.toList_none, Option.toList_none, List.append_nil,
        List.append_nil]
      exact ⟨hs.inside, hs.idle⟩
  | thread t clock =>
      obtain ⟨move, hcode, -, hloc⟩ := Lock.step_thread _ h
      have hmove := pending_move threshold hcode
      have hself : s'.loc t = move.next := by rw [hloc, Function.update_self]
      have hother : ∀ u, u ≠ t → s'.loc u = s.loc u := by
        intro u hne
        rw [hloc, Function.update_of_ne hne]
      have hex' := Lock.exclusive_step (disciplined threshold) hex h
      rw [← hself] at hmove
      change Paired s' (readings ++ (readAt (s.loc t) clock).toList)
        (its ++ (madeAt (s.loc t)).toList)
      have hmoved : readings = its.flatMap Iteration.readings ++ pending (s.loc t) →
          readings ++ (readAt (s.loc t) clock).toList =
            (its ++ (madeAt (s.loc t)).toList).flatMap Iteration.readings ++ pending (s'.loc t) := by
        intro hbefore
        rw [hbefore, List.flatMap_append, List.append_assoc, List.append_assoc, hmove]
      by_cases hin : Inside (s.loc t)
      · -- the thread is the one inside, and no other gets there
        have hafter := hmoved (hs.inside t hin)
        refine ⟨fun u hu => ?_, fun hnone => ?_⟩
        · by_cases hut : u = t
          · rw [hut]
            exact hafter
          · rw [hother u hut] at hu
            exact absurd (hex.unique u t hu hin) hut
        · rw [hafter, (pending_outside (hnone t)).1, List.append_nil]
      · obtain ⟨hpending, hmade, hread⟩ := pending_outside hin
        by_cases hin' : Inside (s'.loc t)
        · -- the thread gets inside, where there was none
          have hnone : ∀ u, ¬Inside (s.loc u) := by
            intro u hu
            by_cases hut : u = t
            · exact hin (hut ▸ hu)
            · exact hut (hex'.unique u t (by rwa [hother u hut]) hin')
          have hafter := hmoved (by rw [hpending, List.append_nil]; exact hs.idle hnone)
          refine ⟨fun u hu => ?_, fun hall => absurd hin' (hall t)⟩
          rw [hex'.unique u t hu hin']
          exact hafter
        · rw [hmade, hread, Option.toList_none, Option.toList_none, List.append_nil,
            List.append_nil]
          refine ⟨fun u hu => ?_, fun hnone => hs.idle fun u => ?_⟩
          · have hut : u ≠ t := fun hut => hin' (hut ▸ hu)
            rw [hother u hut] at hu ⊢
            exact hs.inside u hu
          · by_cases hut : u = t
            · rw [hut]
              exact hin
            · rw [← hother u hut]
              exact hnone u

/-- The invariant of a run and of the steps made in it. -/
def Recorded (s : Lock.State τ Loc TestInfo)
    (past : List (Lock.State τ Loc TestInfo × Lock.Event τ (BitVec 64) Unit)) : Prop :=
  Sound threshold s (past.filterMap fun p => seeIteration p.1 p.2) ∧
    Paired s (past.filterMap fun p => seeReading p.1 p.2)
      (past.filterMap fun p => seeIteration p.1 p.2)

omit [DecidableEq τ] in
theorem recorded_created : Recorded threshold (created : Lock.State τ Loc TestInfo) [] :=
  ⟨sound_created threshold, fun _ ht => absurd ht id, fun _ => rfl⟩

theorem recorded_step (s : Lock.State τ Loc TestInfo)
    (past : List (Lock.State τ Loc TestInfo × Lock.Event τ (BitVec 64) Unit))
    (ev : Lock.Event τ (BitVec 64) Unit) (s' : Lock.State τ Loc TestInfo)
    (hs : Recorded threshold s past) (h : Lock.step (system threshold) s ev = some s') :
    Recorded threshold s' (past ++ [(s, ev)]) := by
  have hseen := sound_step threshold hs.1 h
  have hread := paired_step threshold hs.1.exclusive hs.2 h
  rw [Recorded, List.filterMap_append, List.filterMap_append]
  cases hi : seeIteration s ev <;> cases hr : seeReading s ev <;> rw [hi] at hseen <;>
    rw [hi, hr] at hread <;>
    simp only [List.filterMap_cons, List.filterMap_nil, hi, hr] <;> exact ⟨hseen, hread⟩

theorem recorded_run {run : List (Lock.Event τ (BitVec 64) Unit)}
    {s : Lock.State τ Loc TestInfo}
    (hrun : runSteps (Lock.step (system threshold)) created run = some s) :
    Recorded threshold s (visited (Lock.step (system threshold)) created run) :=
  visited_invariant (recorded_step threshold) (recorded_created threshold) hrun

end TpQemu.MonotonicTime
