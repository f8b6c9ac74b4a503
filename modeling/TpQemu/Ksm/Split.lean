import Mathlib.Data.Rat.Floor
import TpQemu.Lib.Steps

/-!
# The last phases of the serial KSM test

`split_guest` of `ksm_overcommit.py` fills the memory of one guest after the other. When the host
runs short of memory it destroys the guests before the one being filled, and then verifies the
memory of that guest alone. A label is what the current call does: it returns, or it raises an
exception, with or without having taken effect. A guest can die on its own at any time.
-/

namespace TpQemu.Ksm.Split

/-- The parameters of the test; there is always the first guest. -/
structure Config where
  vmsc : Nat
  pos : 0 < vmsc
  ksmSwap : Bool
  perfRatio : ℚ

inductive Guest where
  | running
  | paused
  | dead
  | destroyed
  deriving DecidableEq

def Guest.isAlive : Guest → Bool
  | .running => true
  | .paused => true
  | _ => false

def Guest.pause : Guest → Guest
  | .running => .paused
  | g => g

def Guest.resume : Guest → Guest
  | .paused => .running
  | g => g

inductive Verdict where
  | passed
  | failed
  | raised
  deriving DecidableEq

/-- The call that `split_guest` is in. `caught` tells the handler of `OSError` from the body of
the `try`. -/
inductive Loc where
  | send (i : Nat)
  | alive (i : Nat)
  | memFree (i : Nat)
  | swapFree (i : Nat) (free : Int)
  | pause (i : Nat) (caught : Bool)
  | destroy (i j : Nat) (caught : Bool)
  | resume (i : Nat) (caught : Bool)
  | read (i : Nat)
  | close (i : Nat)
  | info (i : Nat)
  | drop (i : Nat)
  | verify
  | reply
  | lastInfo
  | die
  | destroyLast
  | ended (v : Verdict)
  deriving DecidableEq

inductive Error where
  | os
  | terminated
  | other
  deriving DecidableEq

inductive Label where
  | returns
  | value (n : Int)
  | output (text : List Char)
  | raises (e : Error) (took : Bool)
  | dies (k : Nat)
  deriving DecidableEq

structure State where
  loc : Loc
  lastVm : Nat
  freeMem : Option Int
  guests : Nat → Guest

namespace State

variable (s : State)

def goto (loc : Loc) : State := { s with loc := loc }

/-- What the current call does to the guests. -/
def effect : State :=
  { s with
    guests :=
      match s.loc with
      | .pause i _ => Function.update s.guests i (s.guests i).pause
      | .destroy _ j _ => Function.update s.guests j .destroyed
      | .resume i _ => Function.update s.guests i (s.guests i).resume
      | .drop i => Function.update s.guests i .destroyed
      | .destroyLast => Function.update s.guests s.lastVm .destroyed
      | _ => s.guests }

end State

/-- `for i in range(last_vm + 1, vmsc)` from the round of `i`. -/
def closing (c : Config) (i : Nat) : Loc := if i < c.vmsc then .close i else .verify

/-- `for j in range(0, i)` from the round of `j`. -/
def destroying (i j : Nat) (caught : Bool) : Loc :=
  if j < i then .destroy i j caught else .resume i caught

/-- The end of a round of the outer loop. -/
def filled (c : Config) (s : State) (i : Nat) : State :=
  s.goto (if s.lastVm = 0 ∧ i + 1 < c.vmsc then .send (i + 1) else closing c (s.lastVm + 1))

/-- We need to keep some memory for python to run. -/
def low (c : Config) (free : Int) : Bool :=
  decide (free < 64000) || (c.ksmSwap && decide ((free : ℚ) < 450000 * c.perfRatio))

/-- What follows the reading of the free memory. -/
def weigh (c : Config) (s : State) (i : Nat) (free : Int) : State :=
  { s with
    loc := if low c free then .pause i false else .read i
    freeMem := some free }

/-- `out.startswith("PASS") or out.startswith("FAIL")` -/
def isReply (out : List Char) : Bool := "PASS".toList.isPrefixOf out || "FAIL".toList.isPrefixOf out

/-- What follows a call that returns nothing the test looks at. -/
def after (c : Config) (s : State) : Option State :=
  match s.loc with
  -- the check before the command does not call `is_alive`
  | .send i => some (s.goto (.alive i))
  | .alive i => some (s.goto (if (s.guests i).isAlive then .memFree i else .ended .failed))
  | .pause i caught => some (s.goto (destroying i 0 caught))
  | .destroy i j caught => some (s.goto (destroying i (j + 1) caught))
  | .resume i false => some { s with loc := .read i, lastVm := i }
  | .resume i true => some (filled c { s with lastVm := i } i)
  | .close i => some (s.goto (if i = c.vmsc - 1 then .info i else .drop i))
  | .info i => some (s.goto (.drop i))
  | .drop i => some (s.goto (closing c (i + 1)))
  | .verify => some (s.goto .reply)
  | .reply => some (s.goto .lastInfo)
  | .lastInfo => some (s.goto .die)
  | .die => some (s.goto .destroyLast)
  | .destroyLast => some (s.goto (.ended .passed))
  | _ => none

/-- The guest whose filling the body of the `try` is about. -/
def Loc.tried : Loc → Option Nat
  | .alive i => some i
  | .memFree i => some i
  | .swapFree i _ => some i
  | .pause i false => some i
  | .destroy i _ false => some i
  | .resume i false => some i
  | .read i => some i
  | _ => none

/-- Where an exception leads. The handler names `free_mem` before anything else. -/
def handler (s : State) (e : Error) : Loc :=
  match s.loc.tried, e with
  | some i, .os => if s.freeMem.isSome then .pause i true else .ended .raised
  | _, _ => .ended (if s.loc = .reply ∧ e = .terminated then .failed else .raised)

def Loc.isEnded : Loc → Bool
  | .ended _ => true
  | _ => false

def step (c : Config) (s : State) : Label → Option State
  | .returns => after c s.effect
  | .value n =>
      match s.loc with
      | .memFree i =>
          some (if c.ksmSwap then { s with loc := .swapFree i n, freeMem := some n }
            else weigh c s i n)
      | .swapFree i free => some (weigh c s i (free + n))
      | _ => none
  | .output text =>
      match s.loc with
      | .read i => some (if isReply text then filled c s i else s.goto (.alive i))
      | _ => none
  | .raises e took =>
      if s.loc.isEnded then none
      else some ((if took then s.effect else s).goto (handler s e))
  | .dies k =>
      if (s.guests k).isAlive then some { s with guests := Function.update s.guests k .dead }
      else none

/-- The first guest is not filled here. -/
def start (c : Config) : State where
  loc := if 1 < c.vmsc then .send 1 else closing c 1
  lastVm := 0
  freeMem := none
  guests := fun _ => .running

/-! ## The guests -/

/-- The test has neither paused nor destroyed it. -/
def Guest.Untouched (g : Guest) : Prop := g = .running ∨ g = .dead

theorem Guest.Untouched.ne_destroyed {g : Guest} (h : g.Untouched) : g ≠ .destroyed := by
  rintro rfl
  cases h <;> contradiction

theorem Guest.pause_ne_destroyed {g : Guest} (h : g ≠ .destroyed) : g.pause ≠ .destroyed := by
  cases g <;> first | exact h | exact Guest.noConfusion

theorem Guest.resume_untouched {g : Guest} (h : g ≠ .destroyed) : g.resume.Untouched := by
  cases g with
  | running => exact .inl rfl
  | paused => exact .inl rfl
  | dead => exact .inr rfl
  | destroyed => exact absurd rfl h

section Holds

variable (c : Config) (lastVm : Nat) (guests : Nat → Guest)

/-- While guest `i` is being filled: no guest was touched, or those before it are gone. -/
def Filling (i : Nat) : Prop :=
  (0 < i ∧ i < c.vmsc) ∧
    ((lastVm = 0 ∧ ∀ k, (guests k).Untouched) ∨
      (lastVm = i ∧ (∀ k < i, guests k = .destroyed) ∧ ∀ k, i ≤ k → (guests k).Untouched))

/-- While memory is being freed for guest `i`: the guests before `j` are gone. -/
structure Freeing (i j : Nat) : Prop where
  bounds : 0 < i ∧ i < c.vmsc
  before : lastVm = 0 ∨ lastVm = i
  gone : ∀ k < j, guests k = .destroyed
  kept : guests i ≠ .destroyed
  beyond : ∀ k, i < k → (guests k).Untouched

/-- Of the guests before `i`, only the last one is left. -/
structure Alone (i : Nat) : Prop where
  lt : lastVm < i
  gone : ∀ k < i, k ≠ lastVm → guests k = .destroyed
  kept : (guests lastVm).Untouched

/-- What holds of the guests at each call. -/
def Holds : Loc → Prop
  | .send i => (0 < i ∧ i < c.vmsc) ∧ lastVm = 0 ∧ ∀ k, (guests k).Untouched
  | .alive i => Filling c lastVm guests i
  | .memFree i => Filling c lastVm guests i
  | .swapFree i _ => Filling c lastVm guests i
  | .read i => Filling c lastVm guests i
  | .pause i _ => Freeing c lastVm guests i 0
  | .destroy i j _ => j < i ∧ Freeing c lastVm guests i j
  | .resume i _ => Freeing c lastVm guests i i
  | .close i => i < c.vmsc ∧ Alone lastVm guests i
  | .info i => i < c.vmsc ∧ Alone lastVm guests i
  | .drop i => i < c.vmsc ∧ Alone lastVm guests i
  | .ended .passed => ∀ k < c.vmsc, guests k = .destroyed
  | .ended _ => True
  | _ => Alone lastVm guests c.vmsc

end Holds

section Updates

variable {c : Config} {lastVm : Nat} {guests : Nat → Guest}

theorem Filling.freeing {i : Nat} (h : Filling c lastVm guests i) :
    Freeing c lastVm guests i 0 := by
  obtain ⟨hi, ⟨hlast, hall⟩ | ⟨hlast, -, hrest⟩⟩ := h
  · exact ⟨hi, .inl hlast, fun k hk => absurd hk (Nat.not_lt_zero k), (hall i).ne_destroyed,
      fun k _ => hall k⟩
  · exact ⟨hi, .inr hlast, fun k hk => absurd hk (Nat.not_lt_zero k),
      (hrest i (Nat.le_refl i)).ne_destroyed, fun k hk => hrest k (Nat.le_of_lt hk)⟩

theorem Freeing.again {i j : Nat} (h : Freeing c lastVm guests i j) :
    Freeing c lastVm guests i 0 :=
  ⟨h.bounds, h.before, fun k hk => absurd hk (Nat.not_lt_zero k), h.kept, h.beyond⟩

/-- Guest `i` is paused or resumed. -/
theorem Freeing.update_self {i j : Nat} (h : Freeing c lastVm guests i j) (hj : j ≤ i) {g : Guest}
    (hg : g ≠ .destroyed) : Freeing c lastVm (Function.update guests i g) i j where
  bounds := h.bounds
  before := h.before
  gone := fun k hk => by rw [Function.update_of_ne (by omega), h.gone k hk]
  kept := by rwa [Function.update_self]
  beyond := fun k hk => by
    rw [Function.update_of_ne (Nat.ne_of_gt hk)]
    exact h.beyond k hk

theorem destroyed_update {m : Nat} (k : Nat) (h : guests m = .destroyed) :
    Function.update guests k .destroyed m = .destroyed := by
  by_cases hk : m = k
  · rw [hk, Function.update_self]
  · rw [Function.update_of_ne hk, h]

/-- Guest `j` is destroyed. -/
theorem Freeing.update_destroyed {i j : Nat} (h : Freeing c lastVm guests i j) (hj : j < i) :
    Freeing c lastVm (Function.update guests j .destroyed) i (j + 1) where
  bounds := h.bounds
  before := h.before
  gone := by
    intro k hk
    rcases Nat.lt_succ_iff_lt_or_eq.mp hk with hk | rfl
    · exact destroyed_update j (h.gone k hk)
    · exact Function.update_self k _ _
  kept := by
    rw [Function.update_of_ne (Nat.ne_of_gt hj)]
    exact h.kept
  beyond := fun k hk => by
    rw [Function.update_of_ne (Nat.ne_of_gt (Nat.lt_trans hj hk))]
    exact h.beyond k hk

/-- With the guests before it gone and itself resumed, guest `i` can be filled further. -/
theorem Freeing.filling {i : Nat} (h : Freeing c lastVm guests i i) :
    Filling c i (Function.update guests i (guests i).resume) i := by
  refine ⟨h.bounds, .inr ⟨rfl, fun k hk => ?_, fun k hk => ?_⟩⟩
  · rw [Function.update_of_ne (Nat.ne_of_lt hk), h.gone k hk]
  · rcases Nat.eq_or_lt_of_le hk with rfl | hk
    · rw [Function.update_self]
      exact Guest.resume_untouched h.kept
    · rw [Function.update_of_ne (Nat.ne_of_gt hk)]
      exact h.beyond k hk

theorem Alone.update_destroyed {i : Nat} (h : Alone lastVm guests i) :
    Alone lastVm (Function.update guests i .destroyed) (i + 1) where
  lt := Nat.lt_succ_of_lt h.lt
  gone := by
    intro k hk hne
    rcases Nat.lt_succ_iff_lt_or_eq.mp hk with hk | rfl
    · exact destroyed_update i (h.gone k hk hne)
    · exact Function.update_self k _ _
  kept := by
    rw [Function.update_of_ne (Nat.ne_of_lt h.lt)]
    exact h.kept

/-- The last guest is destroyed. -/
theorem Alone.all_destroyed {i : Nat} (h : Alone lastVm guests i) :
    ∀ k < i, Function.update guests lastVm .destroyed k = .destroyed := by
  intro k hk
  by_cases hlast : k = lastVm
  · rw [hlast, Function.update_self]
  · exact destroyed_update lastVm (h.gone k hk hlast)

theorem holds_destroying {i j : Nat} (h : Freeing c lastVm guests i j) (hj : j ≤ i)
    (caught : Bool) : Holds c lastVm guests (destroying i j caught) := by
  rw [destroying]
  split
  · exact ⟨‹_›, h⟩
  · rw [Nat.le_antisymm hj (Nat.le_of_not_lt ‹_›)] at h
    exact h

theorem holds_closing {i : Nat} (h : Alone lastVm guests i) (hi : i ≤ c.vmsc) :
    Holds c lastVm guests (closing c i) := by
  rw [closing]
  split
  · exact ⟨‹_›, h⟩
  · rw [Nat.le_antisymm hi (Nat.le_of_not_lt ‹_›)] at h
    exact h

theorem holds_filled {s : State} {i : Nat} (h : Filling c s.lastVm s.guests i) :
    Holds c (filled c s i).lastVm (filled c s i).guests (filled c s i).loc := by
  show Holds c s.lastVm s.guests (ite _ _ _)
  obtain ⟨hi, ⟨hlast, hall⟩ | ⟨hlast, hgone, hrest⟩⟩ := h
  · split
    · rename_i hnext
      exact ⟨⟨Nat.succ_pos i, hnext.2⟩, hlast, hall⟩
    · refine holds_closing ⟨Nat.lt_succ_self _, fun k hk hne => ?_, hall _⟩ ?_ <;> omega
  · rw [if_neg (by omega)]
    refine holds_closing ⟨Nat.lt_succ_self _, fun k hk hne => ?_, ?_⟩ (by omega)
    · exact hgone k (by omega)
    · exact hrest _ (by omega)

end Updates

/-! ## One step -/

/-- What holds of the guests where the test is. -/
def Inv (c : Config) (s : State) : Prop := Holds c s.lastVm s.guests s.loc

section Step

variable {c : Config} {s s' : State}

theorem inv_start (c : Config) : Inv c (start c) := by
  show Holds c 0 (fun _ => .running) (ite _ _ _)
  split
  · exact ⟨⟨Nat.one_pos, ‹_›⟩, rfl, fun _ => .inl rfl⟩
  · refine holds_closing ⟨Nat.one_pos, fun k hk hne => ?_, .inl rfl⟩ c.pos
    exact absurd (Nat.lt_one_iff.mp hk) hne

theorem inv_after (h : Inv c s) (hafter : after c s.effect = some s') : Inv c s' := by
  obtain ⟨loc, lastVm, freeMem, guests⟩ := s
  cases loc with
  | send i =>
      obtain rfl := Option.some.inj hafter
      exact ⟨h.1, .inl h.2⟩
  | alive i =>
      obtain rfl := Option.some.inj hafter
      show Holds c lastVm guests (ite _ _ _)
      split <;> [exact h; trivial]
  | pause i caught =>
      obtain rfl := Option.some.inj hafter
      have hpaused := h.update_self (Nat.zero_le i) (Guest.pause_ne_destroyed h.kept)
      exact holds_destroying hpaused (Nat.zero_le i) caught
  | destroy i j caught =>
      obtain rfl := Option.some.inj hafter
      exact holds_destroying (h.2.update_destroyed h.1) h.1 caught
  | resume i caught =>
      cases caught with
      | false =>
          obtain rfl := Option.some.inj hafter
          exact h.filling
      | true =>
          obtain rfl := Option.some.inj hafter
          exact holds_filled (s := ⟨_, i, freeMem, _⟩) h.filling
  | close i =>
      obtain rfl := Option.some.inj hafter
      show Holds c lastVm guests (ite _ _ _)
      split <;> exact h
  | info i =>
      obtain rfl := Option.some.inj hafter
      exact h
  | drop i =>
      obtain rfl := Option.some.inj hafter
      exact holds_closing h.2.update_destroyed h.1
  | destroyLast =>
      obtain rfl := Option.some.inj hafter
      exact h.all_destroyed
  | verify =>
      obtain rfl := Option.some.inj hafter
      exact h
  | reply =>
      obtain rfl := Option.some.inj hafter
      exact h
  | lastInfo =>
      obtain rfl := Option.some.inj hafter
      exact h
  | die =>
      obtain rfl := Option.some.inj hafter
      exact h
  | memFree i => cases hafter
  | swapFree i free => cases hafter
  | read i => cases hafter
  | ended v => cases hafter

theorem inv_weigh {i : Nat} (h : Filling c s.lastVm s.guests i) (free : Int) :
    Inv c (weigh c s i free) := by
  show Holds c s.lastVm s.guests (ite _ _ _)
  split
  · exact h.freeing
  · exact h

/-- Wherever the body of the `try` is, its handler can free the memory from the start. -/
theorem freeing_of_tried (h : Inv c s) {i : Nat} (htried : s.loc.tried = some i) (took : Bool) :
    Freeing c (if took then s.effect else s).lastVm (if took then s.effect else s).guests i 0 := by
  obtain ⟨loc, lastVm, freeMem, guests⟩ := s
  cases loc with
  | alive i' =>
      cases htried
      cases took <;> exact Filling.freeing h
  | memFree i' =>
      cases htried
      cases took <;> exact Filling.freeing h
  | swapFree i' free =>
      cases htried
      cases took <;> exact Filling.freeing h
  | read i' =>
      cases htried
      cases took <;> exact Filling.freeing h
  | pause i' caught =>
      cases caught <;> cases htried
      cases took with
      | false => exact h
      | true => exact h.update_self (Nat.zero_le i) (Guest.pause_ne_destroyed h.kept)
  | destroy i' j caught =>
      cases caught <;> cases htried
      cases took with
      | false => exact h.2.again
      | true => exact (h.2.update_destroyed h.1).again
  | resume i' caught =>
      cases caught <;> cases htried
      cases took with
      | false => exact h.again
      | true =>
          have hkept := (Guest.resume_untouched h.kept).ne_destroyed
          exact (h.update_self (Nat.le_refl i) hkept).again
  | _ => cases htried

theorem holds_handler {lastVm : Nat} {guests : Nat → Guest}
    (h : ∀ i, s.loc.tried = some i → Freeing c lastVm guests i 0) (e : Error) :
    Holds c lastVm guests (handler s e) := by
  fun_cases handler s e
  case case1 i htried hbound => exact h i htried
  case case2 => trivial
  case case3 => split <;> trivial

/-- A guest that dies was alive, so it is not one of those that are gone. -/
theorem inv_dies (h : Inv c s) {k : Nat} (halive : (s.guests k).isAlive = true) :
    Inv c { s with guests := Function.update s.guests k .dead } := by
  have hgone : ∀ m, s.guests m = .destroyed →
      Function.update s.guests k .dead m = .destroyed := by
    intro m hm
    have hne : m ≠ k := by
      rintro rfl
      rw [hm] at halive
      cases halive
    rw [Function.update_of_ne hne, hm]
  have huntouched : ∀ m, (s.guests m).Untouched →
      (Function.update s.guests k .dead m).Untouched := by
    intro m hm
    by_cases hk : m = k
    · rw [hk, Function.update_self]
      exact .inr rfl
    · rwa [Function.update_of_ne hk]
  have hfilling : ∀ i, Filling c s.lastVm s.guests i →
      Filling c s.lastVm (Function.update s.guests k .dead) i := by
    rintro i ⟨hi, ⟨hlast, hall⟩ | ⟨hlast, hbefore, hrest⟩⟩
    · exact ⟨hi, .inl ⟨hlast, fun m => huntouched m (hall m)⟩⟩
    · exact ⟨hi, .inr ⟨hlast, fun m hm => hgone m (hbefore m hm),
        fun m hm => huntouched m (hrest m hm)⟩⟩
  have hfreeing : ∀ i j, Freeing c s.lastVm s.guests i j →
      Freeing c s.lastVm (Function.update s.guests k .dead) i j := by
    intro i j hi
    refine ⟨hi.bounds, hi.before, fun m hm => hgone m (hi.gone m hm), ?_,
      fun m hm => huntouched m (hi.beyond m hm)⟩
    by_cases hk : i = k
    · rw [hk, Function.update_self]
      exact Guest.noConfusion
    · rw [Function.update_of_ne hk]
      exact hi.kept
  have halone : ∀ i, Alone s.lastVm s.guests i →
      Alone s.lastVm (Function.update s.guests k .dead) i := fun i hi =>
    ⟨hi.lt, fun m hm hne => hgone m (hi.gone m hm hne), huntouched _ hi.kept⟩
  obtain ⟨loc, lastVm, freeMem, guests⟩ := s
  cases loc with
  | send i => exact ⟨h.1, h.2.1, fun m => huntouched m (h.2.2 m)⟩
  | alive i => exact hfilling i h
  | memFree i => exact hfilling i h
  | swapFree i free => exact hfilling i h
  | read i => exact hfilling i h
  | pause i caught => exact hfreeing i 0 h
  | destroy i j caught => exact ⟨h.1, hfreeing i j h.2⟩
  | resume i caught => exact hfreeing i i h
  | close i => exact ⟨h.1, halone i h.2⟩
  | info i => exact ⟨h.1, halone i h.2⟩
  | drop i => exact ⟨h.1, halone i h.2⟩
  | verify => exact halone _ h
  | reply => exact halone _ h
  | lastInfo => exact halone _ h
  | die => exact halone _ h
  | destroyLast => exact halone _ h
  | ended v =>
      cases v with
      | passed => exact fun m hm => hgone m (h m hm)
      | failed => trivial
      | raised => trivial

theorem inv_step {l : Label} (h : Inv c s) (hstep : step c s l = some s') : Inv c s' := by
  revert hstep
  fun_cases step c s l <;> intro hstep
  case case1 => exact inv_after h hstep
  case case2 n i hloc =>
    obtain rfl := Option.some.inj hstep
    rw [Inv, hloc] at h
    split
    · exact h
    · exact inv_weigh h n
  case case3 n i free hloc =>
    obtain rfl := Option.some.inj hstep
    rw [Inv, hloc] at h
    exact inv_weigh h (free + n)
  case case5 text i hloc =>
    obtain rfl := Option.some.inj hstep
    rw [Inv, hloc] at h
    split
    · exact holds_filled h
    · exact h
  case case8 e took _ =>
    obtain rfl := Option.some.inj hstep
    exact holds_handler (fun i htried => freeing_of_tried h htried took) e
  case case9 k halive =>
    obtain rfl := Option.some.inj hstep
    exact inv_dies h halive
  all_goals cases hstep

end Step

theorem inv_run {c : Config} {run : List Label} {s : State}
    (hrun : runSteps (step c) (start c) run = some s) : Inv c s :=
  runSteps_invariant (fun _ _ _ => inv_step) (inv_start c) hrun

/-! ## The commands -/

/-- The guest that a command to fill its memory was sent to. -/
def seeFill (s : State) : Label → Option Nat
  | .returns =>
      match s.loc with
      | .send i => some i
      | _ => none
  | _ => none

/-- The guest that was being filled when the host was found short of memory: too little is free,
or a call of the `try` failed with an `OSError`. -/
def seePressure (c : Config) (s : State) : Label → Option Nat
  | .value n =>
      match s.loc with
      | .memFree i => if !c.ksmSwap && low c n then some i else none
      | .swapFree i free => if low c (free + n) then some i else none
      | _ => none
  | .raises .os _ => s.loc.tried
  | _ => none

def fills (c : Config) (run : List Label) : List Nat := observe (step c) seeFill (start c) run

def pressures (c : Config) (run : List Label) : List Nat :=
  observe (step c) (seePressure c) (start c) run

/-- Memory was short, and only while guest `i` was being filled. -/
def PressedAt (pressed : List Nat) (i : Nat) : Prop := pressed ≠ [] ∧ ∀ k ∈ pressed, k = i

/-- All guests were filled, or those up to the first for which memory was short. -/
def Chosen (c : Config) (lastVm : Nat) (filled pressed : List Nat) : Prop :=
  (lastVm = 0 ∧ pressed = [] ∧ filled = List.range' 1 (c.vmsc - 1)) ∨
    (0 < lastVm ∧ PressedAt pressed lastVm ∧ filled = List.range' 1 lastVm)

/-- What was done when the test is at a call. -/
def Done (c : Config) (lastVm : Nat) (filled pressed : List Nat) : Loc → Prop
  | .send i => filled = List.range' 1 (i - 1) ∧ pressed = []
  | .alive i | .memFree i | .swapFree i _ | .read i =>
      filled = List.range' 1 i ∧
        ((lastVm = 0 ∧ pressed = []) ∨ (lastVm = i ∧ PressedAt pressed i))
  | .pause i _ | .destroy i _ _ | .resume i _ => filled = List.range' 1 i ∧ PressedAt pressed i
  | .ended .failed | .ended .raised => True
  | _ => Chosen c lastVm filled pressed

section Done

variable {c : Config} {s s' : State} {filled pressed : List Nat}

theorem pressedAt_concat {i : Nat} (h : pressed = [] ∨ PressedAt pressed i) :
    PressedAt (pressed ++ [i]) i := by
  refine ⟨by simp, fun k hk => ?_⟩
  rcases List.mem_append.mp hk with hk | hk
  · rcases h with rfl | h
    · cases hk
    · exact h.2 k hk
  · exact List.mem_singleton.mp hk

theorem done_closing {lastVm : Nat} (h : Chosen c lastVm filled pressed) (i : Nat) :
    Done c lastVm filled pressed (closing c i) := by
  rw [closing]
  split <;> exact h

theorem done_destroying {lastVm i : Nat}
    (h : filled = List.range' 1 i ∧ PressedAt pressed i) (j : Nat) (caught : Bool) :
    Done c lastVm filled pressed (destroying i j caught) := by
  rw [destroying]
  split <;> exact h

theorem done_filled {i : Nat} (hi : 0 < i ∧ i < c.vmsc)
    (h : filled = List.range' 1 i ∧
      ((s.lastVm = 0 ∧ pressed = []) ∨ (s.lastVm = i ∧ PressedAt pressed i))) :
    Done c (Split.filled c s i).lastVm filled pressed (Split.filled c s i).loc := by
  show Done c s.lastVm filled pressed (ite _ _ _)
  obtain ⟨hfilled, ⟨hlast, hnone⟩ | ⟨hlast, hpressed⟩⟩ := h
  · split
    · exact ⟨hfilled, hnone⟩
    · have hall : c.vmsc - 1 = i := by omega
      exact done_closing (.inl ⟨hlast, hnone, by rw [hall, hfilled]⟩) _
  · rw [if_neg (by omega)]
    refine done_closing (.inr ⟨by omega, ?_, ?_⟩) _ <;> rw [hlast]
    · exact hpressed
    · exact hfilled

theorem done_start (c : Config) : Done c 0 [] [] (start c).loc := by
  show Done c 0 [] [] (ite _ _ _)
  split
  · exact ⟨rfl, rfl⟩
  · have hone : c.vmsc - 1 = 0 := by omega
    exact done_closing (.inl ⟨rfl, rfl, by rw [hone, List.range'_zero]⟩) 1

theorem done_after (hinv : Inv c s) (h : Done c s.lastVm filled pressed s.loc)
    (hafter : after c s.effect = some s') :
    Done c s'.lastVm (filled ++ (seeFill s .returns).toList) pressed s'.loc := by
  obtain ⟨loc, lastVm, freeMem, guests⟩ := s
  cases loc with
  | send i =>
      obtain rfl := Option.some.inj hafter
      obtain ⟨⟨hpos, -⟩, hlast, -⟩ := hinv
      obtain ⟨rfl, hnone⟩ := h
      refine ⟨?_, .inl ⟨hlast, hnone⟩⟩
      have hsucc : List.range' 1 (i - 1 + 1) = List.range' 1 (i - 1) ++ [1 + (i - 1)] :=
        List.range'_1_concat
      rw [Nat.sub_add_cancel hpos, Nat.add_sub_cancel' hpos] at hsucc
      exact hsucc.symm
  | alive i =>
      obtain rfl := Option.some.inj hafter
      show Done c lastVm (filled ++ []) pressed (ite _ _ _)
      rw [List.append_nil]
      split <;> [exact h; trivial]
  | pause i caught =>
      obtain rfl := Option.some.inj hafter
      show Done c lastVm (filled ++ []) pressed _
      rw [List.append_nil]
      exact done_destroying h 0 caught
  | destroy i j caught =>
      obtain rfl := Option.some.inj hafter
      show Done c lastVm (filled ++ []) pressed _
      rw [List.append_nil]
      exact done_destroying h (j + 1) caught
  | resume i caught =>
      have hdone : filled ++ [] = List.range' 1 i ∧
          ((i = 0 ∧ pressed = []) ∨ (i = i ∧ PressedAt pressed i)) := by
        rw [List.append_nil]
        exact ⟨h.1, .inr ⟨rfl, h.2⟩⟩
      cases caught with
      | false =>
          obtain rfl := Option.some.inj hafter
          exact hdone
      | true =>
          obtain rfl := Option.some.inj hafter
          exact done_filled (s := ⟨_, i, freeMem, _⟩) hinv.bounds hdone
  | close i =>
      obtain rfl := Option.some.inj hafter
      show Done c lastVm (filled ++ []) pressed (ite _ _ _)
      rw [List.append_nil]
      split <;> exact h
  | drop i =>
      obtain rfl := Option.some.inj hafter
      show Done c lastVm (filled ++ []) pressed _
      rw [List.append_nil]
      exact done_closing h (i + 1)
  | info i | verify | reply | lastInfo | die | destroyLast =>
      obtain rfl := Option.some.inj hafter
      show Done c lastVm (filled ++ []) pressed _
      rw [List.append_nil]
      exact h
  | memFree i | swapFree i free | read i | ended v => cases hafter

theorem done_weigh {i : Nat}
    (h : filled = List.range' 1 i ∧
      ((s.lastVm = 0 ∧ pressed = []) ∨ (s.lastVm = i ∧ PressedAt pressed i))) (free : Int) :
    Done c s.lastVm filled (pressed ++ (if low c free then some i else none).toList)
      (weigh c s i free).loc := by
  show Done c s.lastVm filled _ (ite _ _ _)
  split
  · exact ⟨h.1, pressedAt_concat (h.2.imp (fun hnone => hnone.2) fun hsome => hsome.2)⟩
  · rw [Option.toList_none, List.append_nil]
    exact h

/-- Wherever the body of the `try` is, its guest is the last one that was filled. -/
theorem done_of_tried (h : Done c s.lastVm filled pressed s.loc) {i : Nat}
    (htried : s.loc.tried = some i) :
    filled = List.range' 1 i ∧ (pressed = [] ∨ PressedAt pressed i) := by
  obtain ⟨loc, lastVm, freeMem, guests⟩ := s
  cases loc with
  | alive i' | memFree i' | swapFree i' free | read i' =>
      cases htried
      exact ⟨h.1, h.2.imp (fun hnone => hnone.2) fun hsome => hsome.2⟩
  | pause i' caught | destroy i' j caught | resume i' caught =>
      cases caught <;> cases htried
      exact ⟨h.1, .inr h.2⟩
  | _ => cases htried

theorem done_handler {lastVm : Nat} (h : Done c s.lastVm filled pressed s.loc) (e : Error)
    (took : Bool) :
    Done c lastVm filled (pressed ++ (seePressure c s (.raises e took)).toList)
      (handler s e) := by
  fun_cases handler s e
  case case1 i htried hbound =>
    obtain ⟨hfilled, hpressed⟩ := done_of_tried h htried
    have hsee : seePressure c s (.raises .os took) = some i := htried
    rw [hsee]
    exact ⟨hfilled, pressedAt_concat hpressed⟩
  case case2 => trivial
  case case3 => split <;> trivial

theorem done_step (hinv : Inv c s) {l : Label} (h : Done c s.lastVm filled pressed s.loc)
    (hstep : step c s l = some s') :
    Done c s'.lastVm (filled ++ (seeFill s l).toList) (pressed ++ (seePressure c s l).toList)
      s'.loc := by
  revert hstep
  fun_cases step c s l <;> intro hstep
  case case1 =>
    show Done c s'.lastVm _ (pressed ++ []) s'.loc
    rw [List.append_nil]
    exact done_after hinv h hstep
  case case2 n i hloc =>
    obtain rfl := Option.some.inj hstep
    rw [hloc] at h
    simp only [seeFill, seePressure, hloc, Option.toList_none, List.append_nil]
    cases hswap : c.ksmSwap with
    | true =>
        rw [Bool.not_true, Bool.false_and, if_neg Bool.false_ne_true, Option.toList_none,
          List.append_nil]
        exact h
    | false =>
        rw [Bool.not_false, Bool.true_and]
        exact done_weigh h n
  case case3 n i free hloc =>
    obtain rfl := Option.some.inj hstep
    rw [hloc] at h
    simp only [seeFill, seePressure, hloc, Option.toList_none, List.append_nil]
    exact done_weigh h (free + n)
  case case5 text i hloc =>
    obtain rfl := Option.some.inj hstep
    rw [hloc] at h
    rw [Inv, hloc] at hinv
    simp only [seeFill, seePressure, Option.toList_none, List.append_nil]
    split
    · exact done_filled hinv.1 h
    · exact h
  case case8 e took _ =>
    obtain rfl := Option.some.inj hstep
    simp only [seeFill, Option.toList_none, List.append_nil]
    exact done_handler h e took
  case case9 k halive =>
    obtain rfl := Option.some.inj hstep
    simp only [seeFill, seePressure, Option.toList_none, List.append_nil]
    exact h
  all_goals cases hstep

end Done

/-- Both invariants, with the steps made so far. -/
structure Reached (c : Config) (s : State) (past : List (State × Label)) : Prop where
  inv : Inv c s
  done : Done c s.lastVm (past.filterMap fun p => seeFill p.1 p.2)
    (past.filterMap fun p => seePressure c p.1 p.2) s.loc

theorem reached_step (c : Config) (s : State) (past : List (State × Label)) (l : Label)
    (s' : State) (hs : Reached c s past) (hstep : step c s l = some s') :
    Reached c s' (past ++ [(s, l)]) := by
  refine ⟨inv_step hs.inv hstep, ?_⟩
  have hnext := done_step hs.inv hs.done hstep
  simp only [List.filterMap_append, List.filterMap_cons, List.filterMap_nil]
  cases hfill : seeFill s l <;> cases hpressure : seePressure c s l <;>
    simpa [hfill, hpressure] using hnext

theorem done_run {c : Config} {run : List Label} {s : State}
    (hrun : runSteps (step c) (start c) run = some s) :
    Done c s.lastVm (fills c run) (pressures c run) s.loc :=
  have hstart : Reached c (start c) [] := ⟨inv_start c, done_start c⟩
  (visited_invariant (reached_step c) hstart hrun).done

/-! ## Whole runs -/

/-- A call of the verification of the last guest. -/
def Loc.verifies : Loc → Bool
  | .verify | .reply | .lastInfo | .die | .destroyLast => true
  | _ => false

/-- The verification is carried out with one guest left, which is not paused, and all the others
destroyed; when the test has passed, all are destroyed. A command to fill the memory of a guest
is only ever sent while no guest has been paused or destroyed. -/
theorem split_leaves_one (c : Config) {run : List Label} {s : State}
    (hrun : runSteps (step c) (start c) run = some s) :
    (s.loc.verifies = true →
        s.lastVm < c.vmsc ∧ (s.guests s.lastVm).Untouched ∧
          ∀ k < c.vmsc, k ≠ s.lastVm → s.guests k = .destroyed) ∧
      (s.loc = .ended .passed → ∀ k < c.vmsc, s.guests k = .destroyed) ∧
      ∀ i, s.loc = .send i → i < c.vmsc ∧ ∀ k, (s.guests k).Untouched := by
  have hinv := inv_run hrun
  rw [Inv] at hinv
  refine ⟨fun hverifies => ?_, fun hpassed => ?_, fun i hsend => ?_⟩
  · have halone : Alone s.lastVm s.guests c.vmsc := by
      cases hloc : s.loc <;> rw [hloc] at hverifies hinv <;>
        first | exact hinv | cases hverifies
    exact ⟨halone.lt, halone.kept, halone.gone⟩
  · rw [hpassed] at hinv
    exact hinv
  · rw [hsend] at hinv
    exact ⟨hinv.1.2, hinv.2.2⟩

/-- Three guests, and too little memory while the second one is being filled. -/
def threeGuests : Config := ⟨3, by decide, false, 1⟩

/-- The run of `threeGuests` to its end. -/
def pressedRun : List Label :=
  [.returns, .returns, .value 1000, .returns, .returns, .returns, .output "PASS".toList,
    .returns, .returns, .returns, .returns, .returns, .returns, .returns, .returns]

theorem split_leaves_one_pressed : ∃ s,
    runSteps (step threeGuests) (start threeGuests) pressedRun = some s ∧
      ∀ k < 3, s.guests k = .destroyed := by
  have hend : (runSteps (step threeGuests) (start threeGuests) pressedRun).map State.loc =
      some (.ended .passed) := by decide +kernel
  obtain ⟨s, hs, hloc⟩ := Option.map_eq_some_iff.mp hend
  exact ⟨s, hs, (split_leaves_one threeGuests hs).2.1 hloc⟩

/-- The guest that is verified is the one during whose filling the host first ran short of
memory, and no guest after it was filled; if the host never did, all guests were filled and the
first one is verified, which is not filled here. -/
theorem split_verifies_pressed (c : Config) {run : List Label} {s : State}
    (hrun : runSteps (step c) (start c) run = some s)
    (hdone : s.loc.verifies = true ∨ s.loc = .ended .passed) :
    (pressures c run = [] ∧ s.lastVm = 0 ∧ fills c run = List.range' 1 (c.vmsc - 1)) ∨
      (pressures c run ≠ [] ∧ (∀ k ∈ pressures c run, k = s.lastVm) ∧
        fills c run = List.range' 1 s.lastVm) := by
  have hchosen : Chosen c s.lastVm (fills c run) (pressures c run) := by
    have hall := done_run hrun
    rcases hdone with hverifies | hpassed
    · cases hloc : s.loc <;> rw [hloc] at hverifies hall <;>
        first | exact hall | cases hverifies
    · rw [hpassed] at hall
      exact hall
  obtain ⟨hlast, hnone, hfills⟩ | ⟨-, hpressed, hfills⟩ := hchosen
  · exact .inl ⟨hnone, hlast, hfills⟩
  · exact .inr ⟨hpressed.1, hpressed.2, hfills⟩

theorem split_verifies_pressed_second : ∃ s,
    runSteps (step threeGuests) (start threeGuests) pressedRun = some s ∧
      fills threeGuests pressedRun = List.range' 1 s.lastVm := by
  have hend : (runSteps (step threeGuests) (start threeGuests) pressedRun).map State.loc =
      some (.ended .passed) := by decide +kernel
  obtain ⟨s, hs, hloc⟩ := Option.map_eq_some_iff.mp hend
  obtain ⟨hnone, -⟩ | ⟨-, -, hfills⟩ := split_verifies_pressed threeGuests hs (.inr hloc)
  · have hsome : pressures threeGuests pressedRun ≠ [] := by decide +kernel
    exact absurd hnone hsome
  · exact ⟨s, hs, hfills⟩

end TpQemu.Ksm.Split
