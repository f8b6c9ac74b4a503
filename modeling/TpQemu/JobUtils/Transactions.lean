import TpQemu.Lib.Dict
import TpQemu.Lib.Python

/-!
# Actions of a transaction

`make_transaction_action` of `provider/job_utils.py` drops the arguments that are `None` and
takes the prefix `x-` off the others. It does so in the dictionary whose keys it is
iterating over.

An iterator gives the keys in their order as long as they stay the same. When the
dictionary has another size than at the start, the iterator raises. When the size is the
same but the keys are not, the language leaves open what happens: the iterator raises, or
it goes on without promising which keys it still gives. `Iterator` stands for what the
interpreter does then.
-/

namespace TpQemu.JobUtils

abbrev Key := List Char

section Iteration

variable {ν : Type}

/-- The arguments of a command; `None` is a value. -/
abbrev Arguments (ν : Type) := Dict Key (Option ν)

/-- The loop over the keys, between two rounds. -/
structure Iteration (ν : Type) where
  data : Arguments ν
  /-- The keys of the argument that have not been given yet. -/
  rest : List Key
  /-- A key has been replaced by another one. -/
  replaced : Bool

/-- What an iterator does next. -/
inductive Advance where
  | raises
  | stops
  | gives (k : Key)

/-- What an iterator does over keys that have been replaced: it raises, stops or gives one
of the keys that are there. -/
abbrev Iterator (ν : Type) := Iteration ν → Option (Option Nat)

def Iteration.advance (iter : Iterator ν) (size : Nat) (it : Iteration ν) : Advance :=
  if it.data.keys.length ≠ size then .raises
  else if it.replaced then
    match iter it with
    | none => .raises
    | some none => .stops
    | some (some i) =>
        match it.data.keys[i]? with
        | some k => .gives k
        | none => .stops
  else
    match it.rest with
    | [] => .stops
    | k :: _ => .gives k

end Iteration

/-! ## The function -/

def xPrefix : Key := "x-".toList

/-- `k.lstrip("x-")`, which takes off every leading character of the two. -/
def lstrip (k : Key) : Key := k.dropWhile fun c => c ∈ xPrefix

/-- The argument that keeps its name. -/
def keepsName (cmd k : Key) : Bool :=
  cmd = "block-dirty-bitmap-add".toList && k = "x-disabled".toList

section Function

variable {ν : Type} (iter : Iterator ν) (cmd : Key)

/-- A round of the loop. -/
def visit (it : Iteration ν) (k : Key) : Iteration ν :=
  match it.data.get? k with
  | none | some none => { it with data := it.data.erase k, rest := it.rest.tail }
  | some (some v) =>
      if keepsName cmd k then { it with rest := it.rest.tail }
      else if xPrefix <+: k then
        { data := (it.data.erase k).set (lstrip k) (some v), rest := it.rest.tail
          replaced := true }
      else { it with rest := it.rest.tail }

/-- The loop, which gives at most as many keys as there were at the start. -/
def visitAll (size : Nat) : Nat → Iteration ν → Except PyError (Arguments ν)
  | 0, it =>
      match it.advance iter size with
      | .stops => .ok it.data
      | _ => .error .runtimeError
  | n + 1, it =>
      match it.advance iter size with
      | .raises => .error .runtimeError
      | .stops => .ok it.data
      | .gives k => visitAll size n (visit cmd it k)

/-- `{"type": cmd, "data": data}` -/
structure Action (ν : Type) where
  type : Key
  data : Arguments ν

def makeTransactionAction (data : Arguments ν) : Except PyError (Action ν) := do
  let data ← if xPrefix <+: cmd then pure data
    else visitAll iter cmd data.keys.length data.keys.length ⟨data, data.keys, false⟩
  return ⟨cmd, data⟩

end Function

/-! ## Arguments that are kept -/

section Kept

variable {ν : Type}

/-- The key under which an argument is passed on. -/
def actionKey (cmd k : Key) : Key :=
  if keepsName cmd k then k else if xPrefix <+: k then k.drop xPrefix.length else k

/-- Every argument with a value is in the data of the action, and nothing else is. -/
structure KeepsArguments (cmd : Key) (data : Arguments ν) (action : Action ν) : Prop where
  type : action.type = cmd
  unchanged : xPrefix <+: cmd → action.data = data
  entries : ¬xPrefix <+: cmd → ∀ k' v', action.data.get? k' = some v' ↔
    ∃ k v, data.get? k = some (some v) ∧ k' = actionKey cmd k ∧ v' = some v

/-- The loop has nothing to do for the argument. -/
def Settled (cmd k : Key) (v : Option ν) : Prop :=
  v ≠ none ∧ (xPrefix <+: k → keepsName cmd k = true)

variable {iter : Iterator ν} {cmd : Key}

theorem visit_of_settled (it : Iteration ν) {k : Key} {v : Option ν}
    (hget : it.data.get? k = some v) (h : Settled cmd k v) :
    visit cmd it k = { it with rest := it.rest.tail } := by
  obtain ⟨v, rfl⟩ := Option.ne_none_iff_exists'.mp h.1
  simp only [visit, hget]
  split
  · rfl
  · rename_i hname
    rw [if_neg fun hx => hname (h.2 hx)]

/-- Arguments that are all settled come out as they are. -/
theorem visitAll_of_settled {data : Arguments ν} {rest : List Key}
    (h : ∀ k ∈ rest, ∃ v, data.get? k = some v ∧ Settled cmd k v) :
    visitAll iter cmd data.keys.length rest.length ⟨data, rest, false⟩ = .ok data := by
  induction rest with
  | nil => simp [visitAll, Iteration.advance]
  | cons k rest ih =>
      obtain ⟨v, hget, hsettled⟩ := h k List.mem_cons_self
      have hvisit : visit cmd ⟨data, k :: rest, false⟩ k = ⟨data, rest, false⟩ :=
        visit_of_settled ⟨data, k :: rest, false⟩ hget hsettled
      simp only [List.length_cons, visitAll, Iteration.advance, ne_eq, not_true_eq_false,
        Bool.false_eq_true, if_false, hvisit]
      exact ih fun k' hk' => h k' (List.mem_cons_of_mem k hk')

/-- An argument that is not settled is removed or replaced. -/
theorem advance_of_not_settled {data : Arguments ν} (rest : List Key) {k : Key} {v : Option ν}
    (hget : data.get? k = some v) (h : ¬Settled cmd k v) :
    (visit cmd ⟨data, k :: rest, false⟩ k).advance (fun _ => none) data.keys.length =
      .raises := by
  have hmem : k ∈ data.keys := Dict.mem_keys_iff.mpr ⟨v, hget⟩
  cases v with
  | none =>
      have hsize : (data.erase k).keys.length ≠ data.keys.length :=
        Nat.ne_of_lt (Dict.length_keys_erase_lt hmem)
      simp only [visit, hget, Iteration.advance, if_pos hsize]
  | some v =>
      have hx : xPrefix <+: k ∧ keepsName cmd k = false := by
        simpa [Settled] using h
      simp only [visit, hget, hx.2, Bool.false_eq_true, if_false, if_pos hx.1,
        Iteration.advance, if_true]
      split <;> rfl

theorem visitAll_of_not_settled {data : Arguments ν} {rest : List Key}
    (hrest : ∀ k ∈ rest, k ∈ data.keys)
    (h : ∃ k ∈ rest, ∃ v, data.get? k = some v ∧ ¬Settled cmd k v) :
    visitAll (fun _ => none) cmd data.keys.length rest.length ⟨data, rest, false⟩ =
      .error .runtimeError := by
  induction rest with
  | nil =>
      obtain ⟨k, hk, -⟩ := h
      cases hk
  | cons k rest ih =>
      obtain ⟨v, hget⟩ := Dict.mem_keys_iff.mp (hrest k List.mem_cons_self)
      simp only [List.length_cons, visitAll, Iteration.advance, ne_eq, not_true_eq_false,
        Bool.false_eq_true, if_false]
      by_cases hk : Settled cmd k v
      · have hvisit : visit cmd ⟨data, k :: rest, false⟩ k = ⟨data, rest, false⟩ :=
          visit_of_settled ⟨data, k :: rest, false⟩ hget hk
        rw [hvisit]
        apply ih fun k' hk' => hrest k' (List.mem_cons_of_mem k hk')
        obtain ⟨k', hk', v', hget', hnot⟩ := h
        obtain rfl | hk' := List.mem_cons.mp hk'
        · cases hget.symm.trans hget'
          exact absurd hk hnot
        · exact ⟨k', hk', v', hget', hnot⟩
      · have hraises := advance_of_not_settled rest hget hk
        cases rest with
        | nil => simp only [List.length_nil, visitAll, hraises]
        | cons _ _ => simp only [List.length_cons, visitAll, hraises]

theorem actionKey_of_settled {k : Key} {v : Option ν} (h : Settled cmd k v) :
    actionKey cmd k = k := by
  rw [actionKey]
  split
  · rfl
  · rename_i hname
    exact if_neg fun hx => hname (h.2 hx)

end Kept

/-- Whatever the interpreter does, the function keeps the arguments exactly when it has
nothing to do. -/
theorem keepsArguments_iff {ν : Type} (cmd : Key) (data : Arguments ν) :
    (∀ iter, ∃ action, makeTransactionAction iter cmd data = .ok action ∧
      KeepsArguments cmd data action) ↔
    xPrefix <+: cmd ∨ ∀ k v, data.get? k = some v → Settled cmd k v := by
  by_cases hcmd : xPrefix <+: cmd
  · refine iff_of_true (fun iter => ⟨⟨cmd, data⟩, ?_, rfl, fun _ => rfl, fun h => absurd hcmd h⟩)
      (.inl hcmd)
    simp only [makeTransactionAction, if_pos hcmd]
    rfl
  · rw [or_iff_right hcmd]
    simp only [makeTransactionAction, if_neg hcmd]
    constructor
    · intro h k v hget
      by_contra hnot
      obtain ⟨action, haction, -⟩ := h fun _ => none
      rw [visitAll_of_not_settled (fun _ hk => hk)
        ⟨k, Dict.mem_keys_iff.mpr ⟨v, hget⟩, v, hget, hnot⟩] at haction
      cases haction
    · intro h iter
      rw [visitAll_of_settled fun k hk => ?settled]
      case settled =>
        obtain ⟨v, hget⟩ := Dict.mem_keys_iff.mp hk
        exact ⟨v, hget, h k v hget⟩
      refine ⟨⟨cmd, data⟩, rfl, rfl, fun hx => absurd hx hcmd, fun _ k' v' => ?_⟩
      constructor
      · intro hget
        have hsettled := h k' v' hget
        obtain ⟨v, rfl⟩ := Option.ne_none_iff_exists'.mp hsettled.1
        exact ⟨k', v, hget, (actionKey_of_settled hsettled).symm, rfl⟩
      · rintro ⟨k, v, hget, rfl, rfl⟩
        rw [actionKey_of_settled (h k (some v) hget)]
        exact hget

/-- An argument that is `None`: the function raises, whatever the interpreter does. -/
theorem none_argument_raises :
    ¬∃ iter action, makeTransactionAction iter "blockdev-backup".toList
        (((∅ : Arguments Nat).set "device".toList (some 0)).set "speed".toList none) = .ok action ∧
      KeepsArguments "blockdev-backup".toList
        (((∅ : Arguments Nat).set "device".toList (some 0)).set "speed".toList none) action := by
  rintro ⟨iter, action, haction, -⟩
  have herror : makeTransactionAction iter "blockdev-backup".toList
      (((∅ : Arguments Nat).set "device".toList (some 0)).set "speed".toList none) =
        .error .runtimeError := rfl
  rw [herror] at haction
  cases haction

end TpQemu.JobUtils
