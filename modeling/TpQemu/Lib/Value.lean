import TpQemu.Lib.Numeral
import TpQemu.Lib.Python

/-!
# Values of JSON texts

The Python objects that `json.loads` returns, with the equality, the text and the number of an
object. What they are for floating point numbers is a parameter.
-/

namespace TpQemu

inductive Scalar (F : Type) where
  | none
  | bool (b : Bool)
  | int (z : Int)
  | float (x : F)
  | text (cs : List Char)
  deriving DecidableEq

/-- A dictionary is the list of its items. -/
inductive Value (F : Type) where
  | scalar (s : Scalar F)
  | list (vs : List (Value F))
  | dict (es : List (List Char × Value F))

/-- What the language does with floating point numbers. -/
structure Floats (F : Type) where
  eq : F → F → Bool
  eqInt : F → Int → Bool
  str : F → List Char
  int : F → Except PyError Int

/-- Where there are no floating point numbers. -/
def Floats.absent : Floats Empty := ⟨nofun, nofun, nofun, nofun⟩

namespace Scalar

variable {F : Type} (fl : Floats F)

/-- `a == b`: truth values are the numbers 0 and 1. -/
def eq : Scalar F → Scalar F → Bool
  | .none, .none => true
  | .text a, .text b => a = b
  | .float x, .float y => fl.eq x y
  | .float x, .int z => fl.eqInt x z
  | .float x, .bool b => fl.eqInt x b.toInt
  | .int z, .float x => fl.eqInt x z
  | .int z, .int z' => z = z'
  | .int z, .bool b => z = b.toInt
  | .bool b, .float x => fl.eqInt x b.toInt
  | .bool b, .int z => b.toInt = z
  | .bool b, .bool b' => b = b'
  | _, _ => false

/-- `str(a)` -/
def str : Scalar F → List Char
  | .none => "None".toList
  | .bool b => if b then "True".toList else "False".toList
  | .int z => Numeral.str z
  | .float x => fl.str x
  | .text cs => cs

/-- `int(a)` -/
def toInt : Scalar F → Except PyError Int
  | .none => .error .typeError
  | .bool b => .ok b.toInt
  | .int z => .ok z
  | .float x => fl.int x
  | .text cs => orRaise .valueError (Numeral.int cs)

theorem eq_text_iff {cs : List Char} {s : Scalar F} :
    eq fl (.text cs) s = true ↔ s = .text cs := by
  cases s with
  | text cs' =>
      rw [eq, decide_eq_true_eq, Scalar.text.injEq]
      exact eq_comm
  | none => exact iff_of_false nofun nofun
  | bool b => exact iff_of_false nofun nofun
  | int z => exact iff_of_false nofun nofun
  | float x => exact iff_of_false nofun nofun

theorem eq_text_right_iff {cs : List Char} {s : Scalar F} :
    eq fl s (.text cs) = true ↔ s = .text cs := by
  cases s with
  | text cs' => rw [eq, decide_eq_true_eq, Scalar.text.injEq]
  | none => exact iff_of_false nofun nofun
  | bool b => exact iff_of_false nofun nofun
  | int z => exact iff_of_false nofun nofun
  | float x => exact iff_of_false nofun nofun

end Scalar

namespace Value

variable {F : Type} (fl : Floats F)

mutual

/-- `a == b` -/
def eq : Value F → Value F → Bool
  | .scalar s, .scalar t => s.eq fl t
  | .list vs, .list ws => eqList vs ws
  | .dict es, .dict fs => decide (es.length = fs.length) && eqItems es fs
  | _, _ => false

def eqList : List (Value F) → List (Value F) → Bool
  | [], [] => true
  | v :: vs, w :: ws => v.eq w && eqList vs ws
  | _, _ => false

/-- The items of one dictionary are in the other. -/
def eqItems : List (List Char × Value F) → List (List Char × Value F) → Bool
  | [], _ => true
  | (k, v) :: es, fs =>
      match fs.lookup k with
      | some w => v.eq w && eqItems es fs
      | none => false

end

/-- `a[k]` for a text `k`. -/
def item (k : List Char) : Value F → Except PyError (Value F)
  | .dict es => orRaise .keyError (es.lookup k)
  | _ => .error .typeError

/-- What `for x in a` runs over. -/
def iter : Value F → Except PyError (List (Value F))
  | .list vs => .ok vs
  | .dict es => .ok (es.map fun e => .scalar (.text e.1))
  | .scalar (.text cs) => .ok (cs.map fun c => .scalar (.text [c]))
  | .scalar _ => .error .typeError

/-- `int(a)` -/
def toInt : Value F → Except PyError Int
  | .scalar s => s.toInt fl
  | _ => .error .typeError

mutual

/-- Induction over what a value holds. -/
theorem induct {motive : Value F → Prop} (scalar : ∀ s, motive (.scalar s))
    (list : ∀ vs, (∀ v ∈ vs, motive v) → motive (.list vs))
    (dict : ∀ es, (∀ e ∈ es, motive e.2) → motive (.dict es)) : ∀ v, motive v
  | .scalar s => scalar s
  | .list vs => list vs (inductList scalar list dict vs)
  | .dict es => dict es (inductItems scalar list dict es)

theorem inductList {motive : Value F → Prop} (scalar : ∀ s, motive (.scalar s))
    (list : ∀ vs, (∀ v ∈ vs, motive v) → motive (.list vs))
    (dict : ∀ es, (∀ e ∈ es, motive e.2) → motive (.dict es)) :
    ∀ vs : List (Value F), ∀ v ∈ vs, motive v
  | [] => nofun
  | v :: vs =>
      List.forall_mem_cons.mpr ⟨induct scalar list dict v, inductList scalar list dict vs⟩

theorem inductItems {motive : Value F → Prop} (scalar : ∀ s, motive (.scalar s))
    (list : ∀ vs, (∀ v ∈ vs, motive v) → motive (.list vs))
    (dict : ∀ es, (∀ e ∈ es, motive e.2) → motive (.dict es)) :
    ∀ es : List (List Char × Value F), ∀ e ∈ es, motive e.2
  | [] => nofun
  | (_, v) :: es =>
      List.forall_mem_cons.mpr ⟨induct scalar list dict v, inductItems scalar list dict es⟩

end

/-- A value is nested in another one, to any depth. -/
inductive Nested : Value F → Value F → Prop where
  | refl (v : Value F) : Nested v v
  | list {w v : Value F} {vs : List (Value F)} (hv : v ∈ vs) (h : Nested w v) : Nested w (.list vs)
  | dict {w : Value F} {e : List Char × Value F} {es : List (List Char × Value F)} (he : e ∈ es)
      (h : Nested w e.2) : Nested w (.dict es)

theorem exists_nested_scalar {s : Scalar F} {p : Value F → Prop} :
    (∃ w, Nested w (.scalar s) ∧ p w) ↔ p (.scalar s) := by
  constructor
  · rintro ⟨w, hw, hp⟩
    cases hw
    exact hp
  · exact fun hp => ⟨_, .refl _, hp⟩

theorem exists_nested_list {vs : List (Value F)} {p : Value F → Prop} :
    (∃ w, Nested w (.list vs) ∧ p w) ↔ p (.list vs) ∨ ∃ v ∈ vs, ∃ w, Nested w v ∧ p w := by
  constructor
  · rintro ⟨w, hw, hp⟩
    cases hw with
    | refl => exact .inl hp
    | list hv h => exact .inr ⟨_, hv, w, h, hp⟩
  · rintro (hp | ⟨v, hv, w, h, hp⟩)
    · exact ⟨_, .refl _, hp⟩
    · exact ⟨w, .list hv h, hp⟩

theorem exists_nested_dict {es : List (List Char × Value F)} {p : Value F → Prop} :
    (∃ w, Nested w (.dict es) ∧ p w) ↔ p (.dict es) ∨ ∃ e ∈ es, ∃ w, Nested w e.2 ∧ p w := by
  constructor
  · rintro ⟨w, hw, hp⟩
    cases hw with
    | refl => exact .inl hp
    | dict he h => exact .inr ⟨_, he, w, h, hp⟩
  · rintro (hp | ⟨e, he, w, h, hp⟩)
    · exact ⟨_, .refl _, hp⟩
    · exact ⟨w, .dict he h, hp⟩

theorem eq_text_iff {cs : List Char} {v : Value F} :
    eq fl (.scalar (.text cs)) v = true ↔ v = .scalar (.text cs) := by
  cases v with
  | scalar s => rw [eq, Scalar.eq_text_iff, Value.scalar.injEq]
  | list vs => simp [eq]
  | dict es => simp [eq]

/-- A dictionary is never equal to a list. -/
@[simp] theorem eq_dict_list (es : List (List Char × Value F)) (vs : List (Value F)) :
    eq fl (.dict es) (.list vs) = false := by
  simp [eq]

end Value

end TpQemu
