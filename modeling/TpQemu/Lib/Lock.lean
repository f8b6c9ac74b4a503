import Mathlib.Algebra.BigOperators.Group.Finset.Basic
import Mathlib.Data.Fintype.Basic
import TpQemu.Lib.Steps

/-!
# Threads with a lock

Threads share a memory and one lock, a bit that is tested and set in one step. The code of a
thread is a function of its local state. `Disciplined` code takes the lock before it is inside
a critical section and gives it back when it leaves. Then at most one thread is inside, and what
a thread inside asserts of the memory cannot be changed by the others.
-/

namespace TpQemu.Lock

variable {τ L M ι ε : Type}

/-- What a thread does next. A thread that waits for the lock tries again. -/
inductive Move (L M : Type) where
  | lock (next : L)
  | unlock (next : L)
  | run (mem : M) (next : L)

/-- Where the thread is after the move. -/
def Move.next : Move L M → L
  | .lock l => l
  | .unlock l => l
  | .run _ l => l

/-- The memory after the move. -/
def Move.memory (m : M) : Move L M → M
  | .run m' _ => m'
  | _ => m

structure State (τ L M : Type) where
  held : Bool
  mem : M
  loc : τ → L

/-- A step of a thread with its input, or of something else than the threads. -/
inductive Event (τ ι ε : Type) where
  | thread (t : τ) (i : ι)
  | outside (e : ε)

/-- The code of the threads, which is undefined where a thread has ended, and what else happens
to the memory. -/
structure System (L M ι ε : Type) where
  code : L → ι → M → Option (Move L M)
  env : ε → M → M

variable (sys : System L M ι ε)

section Step

variable [DecidableEq τ]

/-- A step. A thread that finds the lock set makes none. -/
def step (s : State τ L M) : Event τ ι ε → Option (State τ L M)
  | .thread t i =>
      match sys.code (s.loc t) i s.mem with
      | none => none
      | some (.lock l) =>
          if s.held then none
          else some { s with held := true, loc := Function.update s.loc t l }
      | some (.unlock l) => some { s with held := false, loc := Function.update s.loc t l }
      | some (.run m l) => some { s with mem := m, loc := Function.update s.loc t l }
  | .outside e => some { s with mem := sys.env e s.mem }

/-- What a step can be. -/
theorem step_cases {s s' : State τ L M} {ev : Event τ ι ε} (h : step sys s ev = some s') :
    (∃ t i l, ev = .thread t i ∧ sys.code (s.loc t) i s.mem = some (.lock l) ∧ s.held = false ∧
      s' = { s with held := true, loc := Function.update s.loc t l }) ∨
    (∃ t i l, ev = .thread t i ∧ sys.code (s.loc t) i s.mem = some (.unlock l) ∧
      s' = { s with held := false, loc := Function.update s.loc t l }) ∨
    (∃ t i m l, ev = .thread t i ∧ sys.code (s.loc t) i s.mem = some (.run m l) ∧
      s' = { s with mem := m, loc := Function.update s.loc t l }) ∨
    ∃ e, ev = .outside e ∧ s' = { s with mem := sys.env e s.mem } := by
  cases ev with
  | outside e => exact .inr (.inr (.inr ⟨e, rfl, (Option.some.inj h).symm⟩))
  | thread t i =>
      rw [step] at h
      cases hcode : sys.code (s.loc t) i s.mem with
      | none =>
          rw [hcode] at h
          cases h
      | some move =>
          rw [hcode] at h
          cases move with
          | lock l =>
              dsimp only at h
              split at h
              · cases h
              · rename_i hheld
                exact .inl ⟨t, i, l, rfl, hcode, by simpa using hheld, (Option.some.inj h).symm⟩
          | unlock l => exact .inr (.inl ⟨t, i, l, rfl, hcode, (Option.some.inj h).symm⟩)
          | run m l => exact .inr (.inr (.inl ⟨t, i, m, l, rfl, hcode, (Option.some.inj h).symm⟩))

/-- What a step of a thread does to the memory and to where the threads are. -/
theorem step_thread {s s' : State τ L M} {t : τ} {i : ι}
    (h : step sys s (.thread t i) = some s') :
    ∃ move, sys.code (s.loc t) i s.mem = some move ∧ s'.mem = move.memory s.mem ∧
      s'.loc = Function.update s.loc t move.next := by
  obtain ⟨t', i', l, hev, hcode, -, rfl⟩ | ⟨t', i', l, hev, hcode, rfl⟩ |
    ⟨t', i', m, l, hev, hcode, rfl⟩ | ⟨e, hev, -⟩ := step_cases sys h
  · cases hev
    exact ⟨.lock l, hcode, rfl, rfl⟩
  · cases hev
    exact ⟨.unlock l, hcode, rfl, rfl⟩
  · cases hev
    exact ⟨.run m l, hcode, rfl, rfl⟩
  · cases hev

end Step

/-- The lock is taken when a critical section is entered and given back when it is left. -/
structure Disciplined (Inside : L → Prop) : Prop where
  lock : ∀ l i m l', sys.code l i m = some (.lock l') → ¬Inside l ∧ Inside l'
  unlock : ∀ l i m l', sys.code l i m = some (.unlock l') → Inside l ∧ ¬Inside l'
  run : ∀ l i m m' l', sys.code l i m = some (.run m' l') → (Inside l ↔ Inside l')

/-- At most one thread is inside, and the lock is set exactly if there is one. -/
structure Exclusive (Inside : L → Prop) (s : State τ L M) : Prop where
  held_iff : s.held = true ↔ ∃ t, Inside (s.loc t)
  unique : ∀ t u, Inside (s.loc t) → Inside (s.loc u) → t = u

section Rules

variable {sys} {Inside : L → Prop}

theorem exclusive_of_outside {s : State τ L M} (hheld : s.held = false)
    (hloc : ∀ t, ¬Inside (s.loc t)) : Exclusive Inside s where
  held_iff := by
    rw [hheld]
    exact iff_of_false Bool.false_ne_true fun ⟨t, ht⟩ => hloc t ht
  unique t _ ht := absurd ht (hloc t)

variable [DecidableEq τ]

/-- The step rule for mutual exclusion. -/
theorem exclusive_step (hd : Disciplined sys Inside) {s s' : State τ L M} {ev : Event τ ι ε}
    (hs : Exclusive Inside s) (h : step sys s ev = some s') : Exclusive Inside s' := by
  obtain ⟨t, i, l, -, hcode, hheld, rfl⟩ | ⟨t, i, l, -, hcode, rfl⟩ | ⟨t, i, m, l, -, hcode, rfl⟩ |
    ⟨e, -, rfl⟩ := step_cases sys h
  · -- nobody is inside, and one thread enters
    obtain ⟨-, hin⟩ := hd.lock _ _ _ _ hcode
    have hnone : ∀ u, ¬Inside (s.loc u) := by
      intro u hu
      rw [hs.held_iff.mpr ⟨u, hu⟩] at hheld
      cases hheld
    have honly : ∀ u, Inside (Function.update s.loc t l u) → u = t := by
      intro u hu
      by_contra hne
      rw [Function.update_of_ne hne] at hu
      exact hnone u hu
    have hself : Inside (Function.update s.loc t l t) := by
      rw [Function.update_self]
      exact hin
    exact ⟨iff_of_true rfl ⟨t, hself⟩, fun u v hu hv => (honly u hu).trans (honly v hv).symm⟩
  · -- the only thread inside leaves
    obtain ⟨hin, hout⟩ := hd.unlock _ _ _ _ hcode
    have hothers : ∀ u, u ≠ t → ¬Inside (s.loc u) := fun u hne hu => hne (hs.unique u t hu hin)
    exact exclusive_of_outside rfl
      ((Function.forall_update_iff s.loc fun _ k => ¬Inside k).mpr ⟨hout, hothers⟩)
  · have hsame : ∀ u, Inside (Function.update s.loc t l u) ↔ Inside (s.loc u) :=
      (Function.forall_update_iff s.loc fun u k => Inside k ↔ Inside (s.loc u)).mpr
        ⟨(hd.run _ _ _ _ _ hcode).symm, fun _ _ => Iff.rfl⟩
    refine ⟨?_, fun u v hu hv => hs.unique u v ((hsame u).mp hu) ((hsame v).mp hv)⟩
    simp only [hsame]
    exact hs.held_iff
  · exact ⟨hs.held_iff, hs.unique⟩

/-- What the threads assert of the memory. A thread outside asserts nothing that a step can change,
and moves that are not made inside change nothing that is asserted. -/
structure Outline (sys : System L M ι ε) (Inside : L → Prop) (asserts : L → M → Prop) : Prop where
  outside : ∀ l m m', ¬Inside l → asserts l m → asserts l m'
  move : ∀ l i m move, sys.code l i m = some move → asserts l m →
    asserts move.next (move.memory m)
  frame : ∀ l i m move k, ¬Inside l → sys.code l i m = some move → asserts k m →
    asserts k (move.memory m)
  env : ∀ e m k, asserts k m → asserts k (sys.env e m)

/-- The step rule for assertions. -/
theorem asserts_step {asserts : L → M → Prop} (ho : Outline sys Inside asserts)
    {s s' : State τ L M} {ev : Event τ ι ε} (hs : Exclusive Inside s)
    (hall : ∀ t, asserts (s.loc t) s.mem) (h : step sys s ev = some s') :
    ∀ t, asserts (s'.loc t) s'.mem := by
  cases ev with
  | outside e =>
      cases h
      exact fun u => ho.env _ _ _ (hall u)
  | thread t i =>
      obtain ⟨move, hcode, hmem, hloc⟩ := step_thread sys h
      rw [hmem, hloc]
      refine (Function.forall_update_iff s.loc fun _ k => asserts k (move.memory s.mem)).mpr
        ⟨ho.move _ _ _ _ hcode (hall t), fun u hne => ?_⟩
      -- if the other thread is inside, this one is not
      by_cases hu : Inside (s.loc u)
      · have ht : ¬Inside (s.loc t) := fun ht => hne (hs.unique u t hu ht)
        exact ho.frame _ _ _ _ _ ht hcode (hall u)
      · exact ho.outside _ _ _ hu (hall u)

/-- What the threads have to do together after one of them has moved. -/
theorem sum_update [Fintype τ] (f : L → Nat) (loc : τ → L) (t : τ) (l : L) :
    ∑ u, f (Function.update loc t l u) + f (loc t) = ∑ u, f (loc u) + f l := by
  have hothers : ∑ u ∈ Finset.univ.erase t, f (Function.update loc t l u) =
      ∑ u ∈ Finset.univ.erase t, f (loc u) := by
    refine Finset.sum_congr rfl fun u hu => ?_
    rw [Function.update_of_ne (Finset.ne_of_mem_erase hu)]
  rw [← Finset.sum_erase_add _ _ (Finset.mem_univ t), hothers, Function.update_self,
    ← Finset.sum_erase_add Finset.univ (fun u => f (loc u)) (Finset.mem_univ t)]
  exact Nat.add_right_comm _ _ _

/-- Where threads that have not ended always have a next move, some thread can make it. -/
theorem exists_step (ended : L → Prop) (hd : Disciplined sys Inside) {s : State τ L M}
    (hs : Exclusive Inside s) (hin : ∀ l, Inside l → ¬ended l)
    (htotal : ∀ l m, ¬ended l → ∃ i move, sys.code l i m = some move)
    (hsome : ∃ t, ¬ended (s.loc t)) : ∃ t i s', step sys s (.thread t i) = some s' := by
  -- the thread inside can go on; if there is none, the lock is free
  by_cases hinside : ∃ t, Inside (s.loc t)
  · obtain ⟨t, ht⟩ := hinside
    obtain ⟨i, move, hcode⟩ := htotal _ s.mem (hin _ ht)
    refine ⟨t, i, ?_⟩
    rw [step, hcode]
    cases move with
    | lock l => exact absurd ht (hd.lock _ _ _ _ hcode).1
    | unlock l => exact ⟨_, rfl⟩
    | run m l => exact ⟨_, rfl⟩
  · obtain ⟨t, ht⟩ := hsome
    obtain ⟨i, move, hcode⟩ := htotal _ s.mem ht
    have hfree : s.held = false := by
      by_contra hheld
      exact hinside (hs.held_iff.mp (by simpa using hheld))
    refine ⟨t, i, ?_⟩
    rw [step, hcode]
    cases move with
    | lock l => exact ⟨_, by rw [hfree]; rfl⟩
    | unlock l => exact ⟨_, rfl⟩
    | run m l => exact ⟨_, rfl⟩

end Rules

end TpQemu.Lock
