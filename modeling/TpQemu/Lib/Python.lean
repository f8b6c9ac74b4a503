import Mathlib.Data.List.Forall2

/-!
# Python exceptions

The exceptions a modelled function can leave with. Fallible code returns
`Except PyError`; the outcome of a subscript or of an attribute access is stated
with the constructor Python raises.
-/

namespace TpQemu

inductive PyError where
  | keyError
  | indexError
  | valueError
  | typeError
  | attributeError
  | stopIteration
  | runtimeError
  | zeroDivisionError
  | overflowError
  | unboundLocalError
  /-- `avocado.core.exceptions.TestFail` -/
  | testFail (msg : String)
  /-- `avocado.core.exceptions.TestError` -/
  | testError (msg : String)
  deriving DecidableEq, Repr

/-- The value of an optional reading, or the exception. -/
def orRaise {α : Type} (e : PyError) : Option α → Except PyError α
  | some a => .ok a
  | none => .error e

@[simp] theorem orRaise_some {α : Type} (e : PyError) (a : α) : orRaise e (some a) = .ok a := rfl

@[simp] theorem orRaise_none {α : Type} (e : PyError) :
    orRaise e (none : Option α) = .error e := rfl

theorem orRaise_eq_ok {α : Type} {e : PyError} {o : Option α} {a : α} :
    orRaise e o = .ok a ↔ o = some a := by
  cases o <;> simp

theorem bind_of_eq_ok {ε α β : Type} {x : Except ε α} {a : α} (h : x = .ok a)
    (f : α → Except ε β) : (x >>= f) = f a := by
  rw [h]
  rfl

theorem ok_of_bind_eq_ok {ε α β : Type} {x : Except ε α} {f : α → Except ε β} {b : β}
    (h : (x >>= f) = .ok b) : ∃ a, x = .ok a ∧ f a = .ok b := by
  cases x with
  | error e => cases h
  | ok a => exact ⟨a, rfl, h⟩

theorem ok_of_map_eq_ok {ε α β : Type} {x : Except ε α} {f : α → β} {b : β}
    (h : f <$> x = .ok b) : ∃ a, x = .ok a ∧ f a = b := by
  cases x with
  | error e => cases h
  | ok a => exact ⟨a, rfl, Except.ok.inj h⟩

/-- A computation whose value is not used. -/
theorem bind_return_eq_ok {ε α : Type} {x : Except ε α} :
    (do let _ ← x; return) = (.ok () : Except ε Unit) ↔ ∃ a, x = .ok a := by
  cases x with
  | error e => exact iff_of_false nofun nofun
  | ok a => exact iff_of_true rfl ⟨a, rfl⟩

/-- A loop whose steps all succeed. -/
theorem foldlM_eq_foldl {ε σ α : Type} {f : σ → α → Except ε σ} {g : σ → α → σ} {l : List α}
    (h : ∀ a ∈ l, ∀ s, f s a = .ok (g s a)) (s : σ) : l.foldlM f s = .ok (l.foldl g s) := by
  induction l generalizing s with
  | nil => rfl
  | cons a l ih =>
      rw [List.foldlM_cons, bind_of_eq_ok (h a List.mem_cons_self s), List.foldl_cons]
      exact ih (fun b hb => h b (List.mem_cons_of_mem _ hb)) _

/-- A loop whose steps all succeed and append to the accumulator. -/
theorem foldlM_append {α β : Type} {f : List β → α → Except PyError (List β)} {g : α → List β}
    {l : List α} (h : ∀ a ∈ l, ∀ acc, f acc a = .ok (acc ++ g a)) (acc : List β) :
    l.foldlM f acc = .ok (acc ++ l.flatMap g) := by
  rw [foldlM_eq_foldl h, List.foldl_append_eq_append, List.flatMap_def]

/-- A loop whose steps each read something and then go on with it. -/
theorem foldlM_eq_ok_iff {ε σ α β : Type} {f : σ → α → Except ε σ} {R : α → β → Prop}
    {g : σ → β → σ} {l : List α} (h : ∀ a ∈ l, ∀ s s', f s a = .ok s' ↔ ∃ b, R a b ∧ s' = g s b)
    {s s' : σ} : l.foldlM f s = .ok s' ↔ ∃ bs, List.Forall₂ R l bs ∧ s' = bs.foldl g s := by
  induction l generalizing s with
  | nil =>
      constructor
      · intro hrun
        exact ⟨[], .nil, (Except.ok.inj hrun).symm⟩
      · rintro ⟨bs, hbs, rfl⟩
        cases hbs
        rfl
  | cons a l ih =>
      obtain ⟨ha, hl⟩ := List.forall_mem_cons.mp h
      rw [List.foldlM_cons]
      constructor
      · intro hrun
        obtain ⟨t, hstep, hrun⟩ := ok_of_bind_eq_ok hrun
        obtain ⟨b, hb, rfl⟩ := (ha s t).mp hstep
        obtain ⟨bs, hbs, rfl⟩ := (ih hl).mp hrun
        exact ⟨b :: bs, .cons hb hbs, rfl⟩
      · rintro ⟨bs, hbs, rfl⟩
        cases hbs with
        | cons hb hbs =>
            rw [bind_of_eq_ok ((ha s _).mpr ⟨_, hb, rfl⟩)]
            exact (ih hl).mpr ⟨_, hbs, rfl⟩

/-- Each result of a loop is the result of a step. -/
theorem exists_of_mem_mapM {ε α β : Type} {f : α → Except ε β} {l : List α} {bs : List β}
    (h : l.mapM f = .ok bs) {b : β} (hb : b ∈ bs) : ∃ a ∈ l, f a = .ok b := by
  induction l generalizing bs with
  | nil =>
      cases h
      exact absurd hb List.not_mem_nil
  | cons a l ih =>
      rw [List.mapM_cons] at h
      obtain ⟨b', hfirst, h⟩ := ok_of_bind_eq_ok h
      obtain ⟨bs', hrest, h⟩ := ok_of_bind_eq_ok h
      cases h
      rcases List.mem_cons.mp hb with rfl | hb
      · exact ⟨a, List.mem_cons_self, hfirst⟩
      · obtain ⟨a', ha', hstep⟩ := ih hrest hb
        exact ⟨a', List.mem_cons_of_mem _ ha', hstep⟩

/-- A loop whose steps all have results. -/
theorem mapM_eq_map {ε α β : Type} {f : α → Except ε β} {g : α → β} {l : List α}
    (h : ∀ a ∈ l, f a = .ok (g a)) : l.mapM f = .ok (l.map g) := by
  induction l with
  | nil => rfl
  | cons a l ih =>
      obtain ⟨ha, hl⟩ := List.forall_mem_cons.mp h
      rw [List.mapM_cons, bind_of_eq_ok ha, bind_of_eq_ok (ih hl)]
      rfl

/-! ## Ranges -/

/-- `list(range(lower, upper))` -/
def range (lower upper : Int) : List Int :=
  (List.range (upper - lower).toNat).map fun k : Nat => lower + (k : Int)

theorem mem_range {lower upper z : Int} : z ∈ range lower upper ↔ lower ≤ z ∧ z < upper := by
  simp only [range, List.mem_map, List.mem_range]
  constructor
  · rintro ⟨k, hk, rfl⟩
    omega
  · intro h
    exact ⟨(z - lower).toNat, by omega, by omega⟩

theorem pairwise_range (lower upper : Int) : (range lower upper).Pairwise (· < ·) := by
  rw [range, List.pairwise_map]
  exact List.pairwise_lt_range.imp fun h => by omega

theorem nodup_range (lower upper : Int) : (range lower upper).Nodup :=
  (pairwise_range lower upper).imp Int.ne_of_lt

/-! ## Loops over a variable that a step may need -/

section Needs

variable {ε σ α : Type} {f : σ → α → Except ε σ} (S : σ → Prop) (gives : α → Bool)

/-- What holds after a loop whose steps give it, or keep it as it was. -/
theorem foldlM_gives (hS : ∀ s a s', f s a = .ok s' → (S s' ↔ gives a = true ∨ S s))
    {l : List α} {s s' : σ} (h : l.foldlM f s = .ok s') :
    S s' ↔ (∃ a ∈ l, gives a = true) ∨ S s := by
  induction l generalizing s with
  | nil =>
      cases h
      simp
  | cons a l ih =>
      rw [List.foldlM_cons] at h
      obtain ⟨t, hstep, hrun⟩ := ok_of_bind_eq_ok h
      rw [ih hrun, hS s a t hstep, List.exists_mem_cons_iff, or_left_comm, or_assoc]

/-- A loop succeeds exactly if each of its steps may, and what the first one that gives the
variable needs of it holds before the loop. -/
theorem foldlM_ok_iff {good needs : α → Prop}
    (hstep : ∀ s a, (∃ s', f s a = .ok s') ↔ good a ∧ (needs a → S s))
    (hneeds : ∀ a, needs a → gives a = true)
    (hS : ∀ s a s', f s a = .ok s' → (S s' ↔ gives a = true ∨ S s)) {l : List α} {s : σ} :
    (∃ s', l.foldlM f s = .ok s') ↔
      (∀ a ∈ l, good a) ∧ ∀ a, l.find? gives = some a → needs a → S s := by
  induction l generalizing s with
  | nil => exact iff_of_true ⟨s, rfl⟩ ⟨by simp, by simp⟩
  | cons a l ih =>
      have hcons : (∃ s', (a :: l).foldlM f s = .ok s') ↔
          ∃ t, f s a = .ok t ∧ ∃ s', l.foldlM f t = .ok s' := by
        constructor
        · rintro ⟨s', h⟩
          rw [List.foldlM_cons] at h
          obtain ⟨t, ht, h⟩ := ok_of_bind_eq_ok h
          exact ⟨t, ht, s', h⟩
        · rintro ⟨t, ht, s', h⟩
          exact ⟨s', by rw [List.foldlM_cons, bind_of_eq_ok ht, h]⟩
      rw [hcons, List.forall_mem_cons]
      by_cases hgives : gives a = true
      · rw [List.find?_cons_of_pos hgives]
        constructor
        · rintro ⟨t, ht, hrest⟩
          obtain ⟨hgood, hneed⟩ := (hstep s a).mp ⟨t, ht⟩
          refine ⟨⟨hgood, (ih.mp hrest).1⟩, ?_⟩
          rintro b hb
          cases hb
          exact hneed
        · rintro ⟨⟨hgood, hrest⟩, hneed⟩
          obtain ⟨t, ht⟩ := (hstep s a).mpr ⟨hgood, hneed a rfl⟩
          exact ⟨t, ht, ih.mpr ⟨hrest, fun _ _ _ => (hS s a t ht).mpr (.inl hgives)⟩⟩
      · have hsame : ∀ t, f s a = .ok t → (S t ↔ S s) :=
          fun t ht => (hS s a t ht).trans (or_iff_right hgives)
        rw [List.find?_cons_of_neg hgives]
        constructor
        · rintro ⟨t, ht, hrest⟩
          obtain ⟨hall, hneed⟩ := ih.mp hrest
          refine ⟨⟨((hstep s a).mp ⟨t, ht⟩).1, hall⟩, ?_⟩
          intro b hb hneeds'
          exact (hsame t ht).mp (hneed b hb hneeds')
        · rintro ⟨⟨hgood, hrest⟩, hneed⟩
          obtain ⟨t, ht⟩ := (hstep s a).mpr ⟨hgood, fun h => absurd (hneeds a h) hgives⟩
          refine ⟨t, ht, ih.mpr ⟨hrest, ?_⟩⟩
          intro b hb hneeds'
          exact (hsame t ht).mpr (hneed b hb hneeds')

end Needs

end TpQemu
