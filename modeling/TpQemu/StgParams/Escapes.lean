import TpQemu.Lib.Text
import TpQemu.StgParams.Parsers

/-!
# Escaped blanks

`_add_param` of `qemu/tests/multi_disk.py` writes a `name:value` token with every blank of the
value escaped. The reader joins an escaped piece with the one behind it and goes on with the
piece behind both, so that the pieces of a value are joined two by two: a value with one blank
is read back, and of a longer one the third piece starts a token of its own. Such a token has to
be blank or to name something, or the reader raises.
-/

namespace TpQemu.StgParams

/-! ## The writer -/

/-- `re.sub(" ", "\\ ", value)` -/
def escapeBlanks (value : Text) : Text :=
  value.flatMap fun c => if c = ' ' then ['\\', ' '] else [c]

/-- `_add_param(name, value)` -/
def addParam (name value : Text) : Text :=
  if value = [] then [] else ' ' :: name ++ ':' :: escapeBlanks value ++ [' ']

/-- The tokens of all pairs. -/
def addParams (pairs : List (Text × Text)) : Text := pairs.flatMap fun p => addParam p.1 p.2

/-! ## Round trips -/

/-- A name and a value that the tokens can hold. -/
structure PlainPair (p : Text × Text) : Prop where
  name : ∀ c ∈ p.1, c ≠ ':' ∧ c ≠ ' ' ∧ c ≠ '\\'
  nonempty : p.2 ≠ []
  value : ∀ c ∈ p.2, c ≠ ',' ∧ c ≠ '\\'
  notRange : range1 p.2 = none

/-- The last pair of its name, with the pairs behind it. -/
def LastPair (pairs : List (Text × Text)) (name value : Text) (after : List (Text × Text)) :
    Prop :=
  ∃ before, pairs = before ++ (name, value) :: after ∧ ∀ p ∈ after, p.1 ≠ name

/-- The reader finds the last value of every name. -/
def RoundTrips (pairs : List (Text × Text)) : Prop :=
  ∃ g, multiDisk (addParams pairs) = .ok g ∧ ∀ name value after,
    LastPair pairs name value after → g.paramMatrix.get? name = some (.values [value])

/-- Pieces joined two by two; the second one of a pair keeps its escape unless it is the last
piece. -/
def joinTwo : List Text → List Text
  | p :: q :: r :: rest => (p ++ ' ' :: q ++ ['\\']) :: joinTwo (r :: rest)
  | [p, q] => [p ++ ' ' :: q]
  | [p] => [p]
  | [] => []

/-- What the pieces of a value behind the second one become. -/
def leftovers (value : Text) : List Text := joinTwo ((value.splitOn ' ').drop 2)

/-- The text behind the name in a token of this name. -/
def named? (name tok : Text) : Option Text :=
  match splitColon tok with
  | .ok (cmd, parm) => if cmd = name then some parm else none
  | .error _ => none

/-- The text behind the name in the last token of this name. -/
def lastNamed? (name : Text) (toks : List Text) : Option Text :=
  toks.reverse.findSome? (named? name)

/-- The last value of every name has at most one blank, and what is left over of the other values
neither lacks a name nor gives the name another value. -/
structure Rejoined (pairs : List (Text × Text)) : Prop where
  named : ∀ p ∈ pairs, ∀ tok ∈ leftovers p.2, blank tok = true ∨ ':' ∈ tok
  short : ∀ name value after, LastPair pairs name value after → value.count ' ' ≤ 1
  kept : ∀ name value after, LastPair pairs name value after → ∀ parm,
    lastNamed? name (after.flatMap fun p => leftovers p.2) = some parm → parm = value

/-! ## Tokens -/

/-- The pieces of a text with escaped blanks. -/
def escapePieces : List Text → List Text
  | p :: q :: rest => (p ++ ['\\']) :: escapePieces (q :: rest)
  | [p] => [p]
  | [] => []

theorem escapePieces_cons (p : Text) {ps : List Text} (h : ps ≠ []) :
    escapePieces (p :: ps) = (p ++ ['\\']) :: escapePieces ps := by
  cases ps with
  | nil => exact absurd rfl h
  | cons q rest => rw [escapePieces]

theorem escapePieces_modifyHead (c : Char) (ps : List Text) :
    escapePieces (ps.modifyHead (c :: ·)) = (escapePieces ps).modifyHead (c :: ·) := by
  cases ps with
  | nil => rfl
  | cons p ps =>
      cases ps with
      | nil => rfl
      | cons q rest => rfl

theorem splitOn_escapeBlanks (s : Text) :
    (escapeBlanks s).splitOn ' ' = escapePieces (s.splitOn ' ') := by
  induction s with
  | nil => rfl
  | cons c s ih =>
      have hcons : escapeBlanks (c :: s) =
          (if c = ' ' then ['\\', ' '] else [c]) ++ escapeBlanks s := List.flatMap_cons
      rw [hcons, List.splitOn_cons_eq_if_modifyHead]
      by_cases hc : c = ' '
      · rw [if_pos hc, if_pos (beq_iff_eq.mpr hc),
          escapePieces_cons _ (List.splitOn_ne_nil _ _), ← ih]
        show (['\\'] ++ ' ' :: escapeBlanks s).splitOn ' ' = _
        rw [List.splitOn_append_cons_self_of_not_mem (by decide)]
        rfl
      · rw [if_neg hc, if_neg (by simpa using hc), escapePieces_modifyHead, ← ih,
          List.singleton_append, List.splitOn_cons_eq_if_modifyHead, if_neg (by simpa using hc)]

theorem escapeBlanks_append (s t : Text) :
    escapeBlanks (s ++ t) = escapeBlanks s ++ escapeBlanks t := List.flatMap_append

theorem escapeBlanks_eq_self {s : Text} (h : ' ' ∉ s) : escapeBlanks s = s := by
  induction s with
  | nil => rfl
  | cons c s ih =>
      have hc : ' ' ≠ c := fun hc => h (hc ▸ List.mem_cons_self)
      have hs : ' ' ∉ s := fun hs => h (List.mem_cons_of_mem c hs)
      have hcons : escapeBlanks (c :: s) =
          (if c = ' ' then ['\\', ' '] else [c]) ++ escapeBlanks s := List.flatMap_cons
      rw [hcons, if_neg (Ne.symm hc), ih hs]
      rfl

/-- A pair makes the pieces of its token with a blank on either side. -/
theorem splitOn_addParam {p : Text × Text} (h : PlainPair p) (rest : Text) :
    (addParam p.1 p.2 ++ rest).splitOn ' ' =
      [] :: escapePieces ((p.1 ++ ':' :: p.2).splitOn ' ') ++ rest.splitOn ' ' := by
  have hname : ' ' ∉ p.1 := fun hc => (h.name ' ' hc).2.1 rfl
  have htoken : escapeBlanks (p.1 ++ ':' :: p.2) = p.1 ++ ':' :: escapeBlanks p.2 := by
    rw [escapeBlanks_append, escapeBlanks_eq_self hname]
    rfl
  have hadd : addParam p.1 p.2 ++ rest =
      ' ' :: (escapeBlanks (p.1 ++ ':' :: p.2) ++ ' ' :: rest) := by
    rw [addParam, if_neg h.nonempty, htoken]
    simp
  rw [hadd, List.splitOn_cons_eq_if_modifyHead, if_pos (by rfl), List.splitOn_append_cons_self,
    splitOn_escapeBlanks]
  rfl

/-! ## Joined tokens -/

theorem mergeTokens_nil_cons (toks : List Text) :
    mergeTokens ([] :: toks) = [] :: mergeTokens toks := by
  cases toks with
  | nil => rfl
  | cons t toks => rfl

theorem mergeTokens_escaped (p q : Text) (toks : List Text) :
    mergeTokens ((p ++ ['\\']) :: q :: toks) = (p ++ ' ' :: q) :: mergeTokens toks := by
  have hblank : blank (p ++ ['\\']) = false := by
    rw [blank, List.all_append]
    exact Bool.and_false _
  rw [mergeTokens, hblank, if_neg Bool.false_ne_true, List.getLast?_concat, if_pos rfl,
    List.dropLast_concat]

theorem mergeTokens_unescaped {p : Text} (h : '\\' ∉ p) {toks : List Text} (hne : toks ≠ []) :
    mergeTokens (p :: toks) = p :: mergeTokens toks := by
  obtain ⟨t, toks, rfl⟩ := List.exists_cons_of_ne_nil hne
  have hlast : p.getLast? ≠ some '\\' := fun hlast => h (List.mem_of_getLast? hlast)
  rw [mergeTokens, if_neg hlast, ite_self]

/-- The reader joins the pieces of a value two by two. -/
theorem mergeTokens_escapePieces {ps : List Text} (h : ∀ p ∈ ps, '\\' ∉ p) {toks : List Text}
    (hne : toks ≠ []) :
    mergeTokens (escapePieces ps ++ toks) = joinTwo ps ++ mergeTokens toks := by
  induction ps using joinTwo.induct with
  | case1 p q r rest ih =>
      have hrest := ih fun p' hp' => h p' (by simp at hp' ⊢; tauto)
      have hq : escapePieces (q :: r :: rest) = (q ++ ['\\']) :: escapePieces (r :: rest) := rfl
      rw [escapePieces, hq, joinTwo, List.cons_append, List.cons_append, mergeTokens_escaped,
        hrest, List.append_cons p ' ']
      simp
  | case2 p q =>
      show mergeTokens ((p ++ ['\\']) :: q :: toks) = _
      rw [mergeTokens_escaped]
      rfl
  | case3 p => exact mergeTokens_unescaped (h p List.mem_cons_self) hne
  | case4 => rfl

/-- The tokens behind the joining. -/
def joinedTokens : List (Text × Text) → List Text
  | [] => [[]]
  | p :: pairs => [] :: joinTwo ((p.1 ++ ':' :: p.2).splitOn ' ') ++ joinedTokens pairs

theorem mergeTokens_addParams {pairs : List (Text × Text)} (h : ∀ p ∈ pairs, PlainPair p) :
    mergeTokens ((addParams pairs).splitOn ' ') = joinedTokens pairs := by
  induction pairs with
  | nil => rfl
  | cons p pairs ih =>
      have hp := h p List.mem_cons_self
      have hpieces : ∀ q ∈ (p.1 ++ ':' :: p.2).splitOn ' ', '\\' ∉ q := by
        intro q hq hmem
        have hmem' := (TpQemu.Text.of_mem_splitOn hq).2 hmem
        rw [List.mem_append, List.mem_cons] at hmem'
        obtain hmem' | hmem' | hmem' := hmem'
        · exact (hp.name _ hmem').2.2 rfl
        · cases hmem'
        · exact (hp.value _ hmem').2 rfl
      have hcons : addParams (p :: pairs) = addParam p.1 p.2 ++ addParams pairs :=
        List.flatMap_cons
      rw [hcons, splitOn_addParam hp, List.cons_append, mergeTokens_nil_cons,
        mergeTokens_escapePieces hpieces (List.splitOn_ne_nil _ _),
        ih fun p' hp' => h p' (List.mem_cons_of_mem p hp')]
      rfl

/-! ## The loop over the tokens -/

/-- What the reader stores for a text without commas. -/
def paramOf (parm : Text) : Param :=
  match range1 parm with
  | none => .values [parm]
  | some .n => .text parm
  | some (.num z) => .numbers ((List.range z.toNat).map (0 + 1 * ·))

theorem range2_of_noComma {buf : Text} (h : ',' ∉ buf) : range2 buf = [] := by
  induction buf with
  | nil => rfl
  | cons c s ih =>
      have hc : c ≠ ',' := fun hc => h (hc ▸ List.mem_cons_self)
      rw [range2, if_neg hc, ih fun hs => h (List.mem_cons_of_mem c hs)]
      rfl

theorem range_n {parm : Text} (h : ',' ∉ parm) : range parm .n = .ok (.text parm) := by
  rw [range, range2_of_noComma h]
  rfl

theorem range_num {parm : Text} (h : ',' ∉ parm) (z : Int) :
    range parm (.num z) = .ok (.numbers ((List.range z.toNat).map (0 + 1 * ·))) := by
  rw [range, range2_of_noComma h]
  simp only [numbersOf, Option.map_some]
  rw [pyRange, if_neg (by decide), if_pos (by decide)]
  simp

theorem paramOf_eq_values_iff {parm v : Text} (hv : range1 v = none) :
    paramOf parm = .values [v] ↔ parm = v := by
  constructor
  · intro h
    rw [paramOf] at h
    split at h
    · cases h
      rfl
    · cases h
    · cases h
  · rintro rfl
    rw [paramOf, hv]

theorem splitColon_append {name : Text} (h : ':' ∉ name) (parm : Text) :
    splitColon (name ++ ':' :: parm) = .ok (name, parm) := by
  have hname : ∀ c ∈ name, decide (c ≠ ':') = true := fun c hc =>
    decide_eq_true fun heq => h (heq ▸ hc)
  rw [splitColon, List.dropWhile_append_of_pos hname, List.takeWhile_append_of_pos hname]
  simp

theorem splitColon_error {tok : Text} (h : ':' ∉ tok) :
    splitColon tok = .error .valueError := by
  rw [splitColon, List.dropWhile_eq_nil_iff.mpr]
  intro c hc
  exact decide_eq_true fun heq => h (heq ▸ hc)

theorem multiDiskStep_blank (g : Gathered) {tok : Text} (h : blank tok = true) :
    multiDiskStep g tok = .ok g := by
  rw [multiDiskStep, if_pos h]

theorem multiDiskStep_unnamed (g : Gathered) {tok : Text} (h : blank tok = false)
    (hcolon : ':' ∉ tok) : multiDiskStep g tok = .error .valueError := by
  rw [multiDiskStep, h, if_neg Bool.false_ne_true, splitColon_error hcolon]
  rfl

theorem not_blank_of_colon {tok : Text} (h : ':' ∈ tok) : blank tok = false := by
  rw [blank, List.all_eq_false]
  exact ⟨':', h, by decide⟩

/-- The reader stores a named token without commas. -/
theorem multiDiskStep_named (g : Gathered) {name parm : Text} (hname : ':' ∉ name)
    (hparm : ',' ∉ parm) :
    ∃ g', multiDiskStep g (name ++ ':' :: parm) = .ok g' ∧
      g'.paramMatrix = g.paramMatrix.set name (paramOf parm) := by
  have hblank : blank (name ++ ':' :: parm) = false :=
    not_blank_of_colon (List.mem_append_right _ List.mem_cons_self)
  rw [multiDiskStep, hblank, if_neg Bool.false_ne_true, splitColon_append hname]
  simp only [bind, Except.bind, pure, Except.pure]
  cases hrange : range1 parm with
  | none =>
      rw [List.splitOn_eq_singleton hparm]
      refine ⟨_, rfl, ?_⟩
      rw [paramOf, hrange]
      rfl
  | some first =>
      cases first with
      | n =>
          simp only [range_n hparm]
          refine ⟨_, rfl, ?_⟩
          rw [paramOf, hrange]
      | num z =>
          simp only [range_num hparm]
          refine ⟨_, rfl, ?_⟩
          rw [paramOf, hrange]
          rfl

/-! ## Runs of the reader -/

theorem lastNamed?_append (name : Text) (toks later : List Text) :
    lastNamed? name (toks ++ later) = (lastNamed? name later).or (lastNamed? name toks) := by
  rw [lastNamed?, lastNamed?, lastNamed?, List.reverse_append, List.findSome?_append]

theorem lastNamed?_cons (name tok : Text) (later : List Text) :
    lastNamed? name (tok :: later) = (lastNamed? name later).or (named? name tok) := by
  rw [← List.singleton_append, lastNamed?_append]
  congr 1
  rw [lastNamed?, List.reverse_singleton, List.findSome?_singleton]

/-- A blank token, or one with a name and no comma behind it. -/
def Readable (tok : Text) : Prop :=
  blank tok = true ∨ ∃ name parm, tok = name ++ ':' :: parm ∧ ':' ∉ name ∧ ',' ∉ parm

theorem named?_of_blank {tok : Text} (h : blank tok = true) (name : Text) :
    named? name tok = none := by
  have hcolon : ':' ∉ tok := fun hmem => by
    rw [not_blank_of_colon hmem] at h
    cases h
  rw [named?, splitColon_error hcolon]

theorem named?_eq {cmd : Text} (h : ':' ∉ cmd) (parm name : Text) :
    named? name (cmd ++ ':' :: parm) = if cmd = name then some parm else none := by
  rw [named?, splitColon_append h]

/-- On readable tokens the reader finds for each name the last token of this name. -/
theorem foldlM_readable {toks : List Text} (h : ∀ tok ∈ toks, Readable tok) (g : Gathered) :
    ∃ g', toks.foldlM multiDiskStep g = .ok g' ∧ ∀ name, g'.paramMatrix.get? name =
      ((lastNamed? name toks).map paramOf).or (g.paramMatrix.get? name) := by
  induction toks generalizing g with
  | nil => exact ⟨g, rfl, fun name => rfl⟩
  | cons tok toks ih =>
      have hrest := ih fun tok' htok' => h tok' (List.mem_cons_of_mem tok htok')
      rw [List.foldlM_cons]
      obtain hblank | ⟨cmd, parm, rfl, hcmd, hparm⟩ := h tok List.mem_cons_self
      · obtain ⟨g', hg', hget⟩ := hrest g
        refine ⟨g', by rw [multiDiskStep_blank g hblank]; exact hg', fun name => ?_⟩
        rw [hget, lastNamed?_cons, named?_of_blank hblank, Option.or_none]
      · obtain ⟨g₁, hstep, hset⟩ := multiDiskStep_named g hcmd hparm
        obtain ⟨g', hg', hget⟩ := hrest g₁
        refine ⟨g', by rw [hstep]; exact hg', fun name => ?_⟩
        rw [hget, lastNamed?_cons, named?_eq hcmd, hset]
        cases lastNamed? name toks with
        | some w => rfl
        | none =>
            by_cases hname : cmd = name
            · rw [hname, Dict.get?_set_self, if_pos rfl]
              rfl
            · rw [Dict.get?_set_ne _ (Ne.symm hname), if_neg hname]
              rfl

/-- A token that is neither blank nor named makes the reader raise. -/
theorem foldlM_unreadable {toks : List Text} {tok : Text} (htok : tok ∈ toks)
    (hblank : blank tok = false) (hcolon : ':' ∉ tok) (g g' : Gathered) :
    toks.foldlM multiDiskStep g ≠ .ok g' := by
  induction toks generalizing g with
  | nil => cases htok
  | cons t toks ih =>
      rw [List.foldlM_cons]
      obtain rfl | htok := List.mem_cons.mp htok
      · rw [multiDiskStep_unnamed g hblank hcolon]
        intro h
        cases h
      · cases multiDiskStep g t with
        | error e =>
            intro h
            cases h
        | ok g₁ => exact ih htok g₁

/-! ## The token of a pair -/

/-- What the first two pieces of a value become. -/
def firstJoin : List Text → Text
  | p :: q :: _ :: _ => p ++ ' ' :: q ++ ['\\']
  | [p, q] => p ++ ' ' :: q
  | [p] => p
  | [] => []

theorem splitOn_append_of_notMem {name : Text} (h : ' ' ∉ name) (s : Text) :
    (name ++ s).splitOn ' ' = (s.splitOn ' ').modifyHead (name ++ ·) := by
  induction name with
  | nil =>
      obtain ⟨p, ps, hps⟩ := List.exists_cons_of_ne_nil (List.splitOn_ne_nil ' ' s)
      rw [List.nil_append, hps]
      rfl
  | cons c name ih =>
      have hc : ¬(c == ' ') = true := fun hc => h (beq_iff_eq.mp hc ▸ List.mem_cons_self)
      rw [List.cons_append, List.splitOn_cons_eq_if_modifyHead, if_neg hc,
        ih fun hmem => h (List.mem_cons_of_mem c hmem), List.modifyHead_modifyHead]
      rfl

/-- A text has one piece, two pieces or more. -/
theorem splitOn_cases (s : Text) :
    (∃ p, s.splitOn ' ' = [p]) ∨ (∃ p q, s.splitOn ' ' = [p, q]) ∨
      ∃ p q r ps, s.splitOn ' ' = p :: q :: r :: ps := by
  obtain ⟨p, ps, hps⟩ := List.exists_cons_of_ne_nil (List.splitOn_ne_nil ' ' s)
  obtain _ | ⟨q, _ | ⟨r, ps⟩⟩ := ps
  · exact .inl ⟨p, hps⟩
  · exact .inr (.inl ⟨p, q, hps⟩)
  · exact .inr (.inr ⟨p, q, r, ps, hps⟩)

theorem joinTwo_token {p : Text × Text} (h : PlainPair p) :
    joinTwo ((p.1 ++ ':' :: p.2).splitOn ' ') =
      (p.1 ++ ':' :: firstJoin (p.2.splitOn ' ')) :: leftovers p.2 := by
  have hname : ' ' ∉ p.1 ++ [':'] := by
    rw [List.mem_append]
    rintro (hmem | hmem)
    · exact (h.name _ hmem).2.1 rfl
    · revert hmem
      decide
  rw [List.append_cons p.1, splitOn_append_of_notMem hname, leftovers]
  obtain ⟨q, hps⟩ | ⟨q, r, hps⟩ | ⟨q, r, r', ps, hps⟩ := splitOn_cases p.2
  · simp [hps, joinTwo, firstJoin]
  · simp [hps, joinTwo, firstJoin]
  · simp [hps, joinTwo, firstJoin]

theorem length_splitOn_blank (s : Text) : (s.splitOn ' ').length = s.count ' ' + 1 := by
  induction s with
  | nil => rfl
  | cons c s ih =>
      rw [List.splitOn_cons_eq_if_modifyHead, List.count_cons]
      split
      · rw [List.length_cons, ih]
      · rw [List.length_modifyHead, ih, Nat.add_zero]

/-- A value with at most one blank is read as it was. -/
theorem of_count_le_one {value : Text} (h : value.count ' ' ≤ 1) :
    leftovers value = [] ∧ firstJoin (value.splitOn ' ') = value := by
  have hlength := length_splitOn_blank value
  have hjoin : [' '].intercalate (value.splitOn ' ') = value := List.intercalate_splitOn ' '
  rw [leftovers]
  obtain ⟨p, hps⟩ | ⟨p, q, hps⟩ | ⟨p, q, r, ps, hps⟩ := splitOn_cases value
  · rw [hps] at hjoin ⊢
    exact ⟨rfl, by simpa [firstJoin] using hjoin⟩
  · rw [hps] at hjoin ⊢
    exact ⟨rfl, by simpa [firstJoin] using hjoin⟩
  · rw [hps] at hlength
    simp only [List.length_cons] at hlength
    omega

/-- Of a value with more blanks the first token keeps an escape. -/
theorem escape_mem_firstJoin {value : Text} (h : ¬value.count ' ' ≤ 1) :
    '\\' ∈ firstJoin (value.splitOn ' ') := by
  have hlength := length_splitOn_blank value
  obtain ⟨p, hps⟩ | ⟨p, q, hps⟩ | ⟨p, q, r, ps, hps⟩ := splitOn_cases value
  · rw [hps, List.length_singleton] at hlength
    omega
  · rw [hps] at hlength
    simp only [List.length_cons, List.length_nil] at hlength
    omega
  · simp [hps, firstJoin]

/-- A joined piece has the letters of its pieces, and one blank at most. -/
theorem of_mem_joinTwo {ps : List Text} (h : ∀ p ∈ ps, ' ' ∉ p) {tok : Text}
    (htok : tok ∈ joinTwo ps) :
    tok.count ' ' ≤ 1 ∧ ∀ c ∈ tok, c = ' ' ∨ c = '\\' ∨ ∃ p ∈ ps, c ∈ p := by
  induction ps using joinTwo.induct with
  | case1 p q r rest ih =>
      rw [joinTwo] at htok
      obtain rfl | htok := List.mem_cons.mp htok
      · have hp := List.count_eq_zero.mpr (h p (by simp))
        have hq := List.count_eq_zero.mpr (h q (by simp))
        constructor
        · simp [List.count_append, hp, hq]
        · intro c hc
          simp at hc ⊢
          tauto
      · obtain ⟨hcount, hmem⟩ := ih (fun p' hp' => h p' (by simp at hp' ⊢; tauto)) htok
        refine ⟨hcount, fun c hc => ?_⟩
        obtain hc | hc | ⟨p', hp', hc⟩ := hmem c hc
        · exact .inl hc
        · exact .inr (.inl hc)
        · exact .inr (.inr ⟨p', by simp at hp' ⊢; tauto, hc⟩)
  | case2 p q =>
      obtain rfl := List.mem_singleton.mp htok
      have hp := List.count_eq_zero.mpr (h p (by simp))
      have hq := List.count_eq_zero.mpr (h q (by simp))
      constructor
      · simp [List.count_append, hp, hq]
      · intro c hc
        simp at hc ⊢
        tauto
  | case3 p =>
      obtain rfl := List.mem_singleton.mp htok
      have hp := List.count_eq_zero.mpr (h tok (by simp))
      exact ⟨by omega, fun c hc => .inr (.inr ⟨tok, List.mem_cons_self, hc⟩)⟩
  | case4 => cases htok

theorem of_mem_leftovers {value tok : Text} (h : tok ∈ leftovers value) :
    tok.count ' ' ≤ 1 ∧ ∀ c ∈ tok, c = ' ' ∨ c = '\\' ∨ c ∈ value := by
  have hpieces {p : Text} (hp : p ∈ (value.splitOn ' ').drop 2) : ' ' ∉ p ∧ p ⊆ value :=
    TpQemu.Text.of_mem_splitOn (List.mem_of_mem_drop hp)
  obtain ⟨hcount, hmem⟩ := of_mem_joinTwo (fun p hp => (hpieces hp).1) h
  refine ⟨hcount, fun c hc => ?_⟩
  obtain hc | hc | ⟨p, hp, hc⟩ := hmem c hc
  · exact .inl hc
  · exact .inr (.inl hc)
  · exact .inr (.inr ((hpieces hp).2 hc))

/-- Every leftover token of a plain value is readable when it is blank or has a colon. -/
theorem readable_leftover {p : Text × Text} (h : PlainPair p) {tok : Text}
    (htok : tok ∈ leftovers p.2) (hnamed : blank tok = true ∨ ':' ∈ tok) : Readable tok := by
  obtain hblank | hcolon := hnamed
  · exact .inl hblank
  · obtain ⟨name, parm, rfl, hname⟩ := List.eq_append_cons_of_mem hcolon
    refine .inr ⟨name, parm, rfl, hname, fun hcomma => ?_⟩
    have hmem : ',' ∈ name ++ ':' :: parm :=
      List.mem_append_right _ (List.mem_cons_of_mem ':' hcomma)
    obtain hc | hc | hc := (of_mem_leftovers htok).2 _ hmem
    · cases hc
    · cases hc
    · exact (h.value _ hc).1 rfl

theorem readable_first {p : Text × Text} (h : PlainPair p) :
    Readable (p.1 ++ ':' :: firstJoin (p.2.splitOn ' ')) := by
  refine .inr ⟨p.1, _, rfl, fun hc => (h.name _ hc).1 rfl, fun hcomma => ?_⟩
  have hpiece {q : Text} (hq : q ∈ p.2.splitOn ' ') (hc : ',' ∈ q) : False :=
    (h.value _ ((TpQemu.Text.of_mem_splitOn hq).2 hc)).1 rfl
  obtain ⟨q, hps⟩ | ⟨q, r, hps⟩ | ⟨q, r, r', ps, hps⟩ := splitOn_cases p.2
  · rw [hps] at hcomma hpiece
    exact hpiece List.mem_cons_self hcomma
  · rw [hps] at hcomma hpiece
    have hq : ',' ∉ q := fun hc => hpiece List.mem_cons_self hc
    have hr : ',' ∉ r := fun hc => hpiece (List.mem_cons_of_mem q List.mem_cons_self) hc
    simp [firstJoin, hq, hr] at hcomma
  · rw [hps] at hcomma hpiece
    have hq : ',' ∉ q := fun hc => hpiece List.mem_cons_self hc
    have hr : ',' ∉ r := fun hc => hpiece (List.mem_cons_of_mem q List.mem_cons_self) hc
    simp [firstJoin, hq, hr] at hcomma

/-! ## All pairs -/

section Pairs

variable {pairs : List (Text × Text)}

theorem joinedTokens_cons {p : Text × Text} (h : PlainPair p) (pairs : List (Text × Text)) :
    joinedTokens (p :: pairs) =
      [] :: (p.1 ++ ':' :: firstJoin (p.2.splitOn ' ')) :: leftovers p.2 ++ joinedTokens pairs := by
  rw [joinedTokens, joinTwo_token h]

theorem readable_joinedTokens (h : ∀ p ∈ pairs, PlainPair p)
    (hnamed : ∀ p ∈ pairs, ∀ tok ∈ leftovers p.2, blank tok = true ∨ ':' ∈ tok) :
    ∀ tok ∈ joinedTokens pairs, Readable tok := by
  induction pairs with
  | nil =>
      intro tok htok
      rw [List.mem_singleton.mp htok]
      exact .inl rfl
  | cons p pairs ih =>
      have hp := h p List.mem_cons_self
      intro tok htok
      rw [joinedTokens_cons hp, List.cons_append, List.cons_append, List.mem_cons, List.mem_cons,
        List.mem_append] at htok
      obtain rfl | rfl | htok | htok := htok
      · exact .inl rfl
      · exact readable_first hp
      · exact readable_leftover hp htok (hnamed p List.mem_cons_self tok htok)
      · exact ih (fun p' hp' => h p' (List.mem_cons_of_mem p hp'))
          (fun p' hp' => hnamed p' (List.mem_cons_of_mem p hp')) tok htok

theorem leftovers_subset_joinedTokens (h : ∀ p ∈ pairs, PlainPair p) {p : Text × Text}
    (hp : p ∈ pairs) : leftovers p.2 ⊆ joinedTokens pairs := by
  induction pairs with
  | nil => cases hp
  | cons q pairs ih =>
      intro tok htok
      rw [joinedTokens_cons (h q List.mem_cons_self), List.cons_append, List.cons_append,
        List.mem_cons, List.mem_cons, List.mem_append]
      obtain rfl | hp := List.mem_cons.mp hp
      · exact .inr (.inr (.inl htok))
      · refine .inr (.inr (.inr (ih (fun p' hp' => ?_) hp htok)))
        exact h p' (List.mem_cons_of_mem q hp')

theorem lastNamed?_joinedTokens_cons {p : Text × Text} (h : PlainPair p) (name : Text)
    (pairs : List (Text × Text)) :
    lastNamed? name (joinedTokens (p :: pairs)) =
      (lastNamed? name (joinedTokens pairs)).or ((lastNamed? name (leftovers p.2)).or
        (if p.1 = name then some (firstJoin (p.2.splitOn ' ')) else none)) := by
  have hcolon : ':' ∉ p.1 := fun hc => (h.name _ hc).1 rfl
  rw [joinedTokens_cons h, lastNamed?_append, lastNamed?_cons, lastNamed?_cons, named?_eq hcolon,
    named?_of_blank rfl, Option.or_none]

/-- Behind the last pair of a name only leftovers can have it. -/
theorem lastNamed?_of_absent (h : ∀ p ∈ pairs, PlainPair p) {name : Text}
    (habsent : ∀ p ∈ pairs, p.1 ≠ name) :
    lastNamed? name (joinedTokens pairs) =
      lastNamed? name (pairs.flatMap fun p => leftovers p.2) := by
  induction pairs with
  | nil =>
      rw [joinedTokens, lastNamed?_cons, named?_of_blank rfl, Option.or_none]
      rfl
  | cons p pairs ih =>
      rw [lastNamed?_joinedTokens_cons (h p List.mem_cons_self),
        ih (fun p' hp' => h p' (List.mem_cons_of_mem p hp'))
          (fun p' hp' => habsent p' (List.mem_cons_of_mem p hp')),
        if_neg (habsent p List.mem_cons_self), Option.or_none, List.flatMap_cons,
        lastNamed?_append]

/-- The pairs before the last one of a name do not matter for it. -/
theorem lastNamed?_joinedTokens_append {before : List (Text × Text)}
    (h : ∀ p ∈ before, PlainPair p) {name parm : Text}
    (hparm : lastNamed? name (joinedTokens pairs) = some parm) :
    lastNamed? name (joinedTokens (before ++ pairs)) = some parm := by
  induction before with
  | nil => exact hparm
  | cons p before ih =>
      rw [List.cons_append, lastNamed?_joinedTokens_cons (h p List.mem_cons_self),
        ih fun p' hp' => h p' (List.mem_cons_of_mem p hp')]
      rfl

theorem eq_of_named? {name tok parm : Text} (h : named? name tok = some parm) :
    tok = name ++ ':' :: parm := by
  by_cases hcolon : ':' ∈ tok
  · obtain ⟨cmd, rest, rfl, hcmd⟩ := List.eq_append_cons_of_mem hcolon
    rw [named?_eq hcmd, Option.ite_none_right_eq_some, Option.some.injEq] at h
    rw [h.1, h.2]
  · rw [named?, splitColon_error hcolon] at h
    cases h

/-- A leftover token never holds a value with two blanks. -/
theorem count_le_of_lastNamed? {toks : List Text} {name parm : Text}
    (h : lastNamed? name toks = some parm) (hcount : ∀ tok ∈ toks, tok.count ' ' ≤ 1) :
    parm.count ' ' ≤ 1 := by
  obtain ⟨tok, htok, hnamed⟩ := List.exists_of_findSome?_eq_some h
  have hle := hcount tok (List.mem_reverse.mp htok)
  rw [eq_of_named? hnamed, List.count_append, List.count_cons] at hle
  omega

/-- What the reader has for a name at the end. -/
theorem lastNamed?_lastPair (h : ∀ p ∈ pairs, PlainPair p) {name value : Text}
    {after : List (Text × Text)} (hlast : LastPair pairs name value after) :
    lastNamed? name (joinedTokens pairs) =
      some (((lastNamed? name (after.flatMap fun p => leftovers p.2)).or
        (lastNamed? name (leftovers value))).getD (firstJoin (value.splitOn ' '))) := by
  obtain ⟨before, rfl, habsent⟩ := hlast
  refine lastNamed?_joinedTokens_append (fun p hp => h p (List.mem_append_left _ hp)) ?_
  have hpair := h (name, value) (List.mem_append_right _ List.mem_cons_self)
  have hafter : ∀ p ∈ after, PlainPair p := fun p hp =>
    h p (List.mem_append_right _ (List.mem_cons_of_mem _ hp))
  rw [lastNamed?_joinedTokens_cons hpair, if_pos rfl, lastNamed?_of_absent hafter habsent,
    ← Option.or_assoc]
  cases (lastNamed? name (after.flatMap fun p => leftovers p.2)).or
      (lastNamed? name (leftovers value)) with
  | none => rfl
  | some parm => rfl

/-- The reader has the value exactly when it has one blank at most and no later leftover token
gives the name another one. -/
theorem lastNamed?_eq_value_iff (h : ∀ p ∈ pairs, PlainPair p) {name value : Text}
    {after : List (Text × Text)} (hlast : LastPair pairs name value after) :
    lastNamed? name (joinedTokens pairs) = some value ↔ value.count ' ' ≤ 1 ∧
      ∀ parm, lastNamed? name (after.flatMap fun p => leftovers p.2) = some parm →
        parm = value := by
  have hvalue : PlainPair (name, value) := by
    obtain ⟨before, rfl, -⟩ := hlast
    exact h _ (List.mem_append_right _ List.mem_cons_self)
  rw [lastNamed?_lastPair h hlast, Option.some.injEq]
  cases hlater : lastNamed? name (after.flatMap fun p => leftovers p.2) with
  | some parm =>
      rw [Option.some_or, Option.getD_some]
      constructor
      · rintro rfl
        refine ⟨count_le_of_lastNamed? hlater fun tok htok => ?_, fun parm' hparm' => ?_⟩
        · obtain ⟨p, -, htok⟩ := List.mem_flatMap.mp htok
          exact (of_mem_leftovers htok).1
        · exact (Option.some.inj hparm').symm
      · rintro ⟨-, hkept⟩
        exact hkept parm rfl
  | none =>
      rw [Option.none_or]
      constructor
      · intro hget
        refine ⟨?_, fun parm hparm => by cases hparm⟩
        cases hown : lastNamed? name (leftovers value) with
        | some parm =>
            rw [hown, Option.getD_some] at hget
            subst hget
            exact count_le_of_lastNamed? hown fun tok htok => (of_mem_leftovers htok).1
        | none =>
            -- The token of the pair itself still has an escape when there were more blanks.
            rw [hown, Option.getD_none] at hget
            by_contra hcount
            have hescape := escape_mem_firstJoin hcount
            rw [hget] at hescape
            exact (hvalue.value _ hescape).2 rfl
      · rintro ⟨hcount, -⟩
        obtain ⟨hleft, hfirst⟩ := of_count_le_one hcount
        rw [hleft]
        exact hfirst

end Pairs

/-- The pairs written by `_add_param` are read back exactly when the last value of every name has
one blank at most, and every token left over of another value is blank or named and does not
replace such a value. -/
theorem roundTrips_iff (pairs : List (Text × Text)) (plain : ∀ p ∈ pairs, PlainPair p) :
    RoundTrips pairs ↔ Rejoined pairs := by
  have hread : multiDisk (addParams pairs) =
      (joinedTokens pairs).foldlM multiDiskStep ⟨∅, [], false, 0⟩ := by
    rw [multiDisk, mergeTokens_addParams plain]
  have hrange {name value : Text} {after : List (Text × Text)}
      (hlast : LastPair pairs name value after) : range1 value = none := by
    obtain ⟨before, rfl, -⟩ := hlast
    exact (plain (name, value) (List.mem_append_right _ List.mem_cons_self)).notRange
  have hstored {g : Gathered} {name value : Text} {after : List (Text × Text)}
      (hlast : LastPair pairs name value after)
      (hget : g.paramMatrix.get? name =
        ((lastNamed? name (joinedTokens pairs)).map paramOf).or ((∅ : Dict Text Param).get? name)) :
      g.paramMatrix.get? name = some (.values [value]) ↔
        lastNamed? name (joinedTokens pairs) = some value := by
    rw [hget, Dict.get?_empty, Option.or_none, Option.map_eq_some_iff]
    constructor
    · rintro ⟨parm, hparm, heq⟩
      rw [hparm, (paramOf_eq_values_iff (hrange hlast)).mp heq]
    · intro hvalue
      exact ⟨value, hvalue, (paramOf_eq_values_iff (hrange hlast)).mpr rfl⟩
  constructor
  · rintro ⟨g, hg, hvalues⟩
    rw [hread] at hg
    have hnamed : ∀ p ∈ pairs, ∀ tok ∈ leftovers p.2, blank tok = true ∨ ':' ∈ tok := by
      intro p hp tok htok
      by_contra hbad
      rw [not_or, Bool.not_eq_true] at hbad
      exact foldlM_unreadable (leftovers_subset_joinedTokens plain hp htok) hbad.1 hbad.2 _ g hg
    obtain ⟨g', hg', hget⟩ := foldlM_readable (readable_joinedTokens plain hnamed) ⟨∅, [], false, 0⟩
    rw [hg] at hg'
    cases hg'
    have hlast {name value : Text} {after : List (Text × Text)}
        (hlast : LastPair pairs name value after) :=
      (lastNamed?_eq_value_iff plain hlast).mp
        ((hstored hlast (hget name)).mp (hvalues name value after hlast))
    exact ⟨hnamed, fun name value after h => (hlast h).1, fun name value after h => (hlast h).2⟩
  · intro h
    obtain ⟨g, hg, hget⟩ :=
      foldlM_readable (readable_joinedTokens plain h.named) ⟨∅, [], false, 0⟩
    refine ⟨g, hread.trans hg, fun name value after hlast => ?_⟩
    refine (hstored hlast (hget name)).mpr ((lastNamed?_eq_value_iff plain hlast).mpr ?_)
    exact ⟨h.short name value after hlast, h.kept name value after hlast⟩

theorem plainPair_of_all {p : Text × Text}
    (name : p.1.all (fun c => c ≠ ':' && (c ≠ ' ' && c ≠ '\\')) = true) (nonempty : p.2 ≠ [])
    (value : p.2.all (fun c => c ≠ ',' && c ≠ '\\') = true) (notRange : range1 p.2 = none) :
    PlainPair p := by
  refine ⟨fun c hc => ?_, nonempty, fun c hc => ?_, notRange⟩
  · simpa using List.all_eq_true.mp name c hc
  · simpa using List.all_eq_true.mp value c hc

/-- A value with one blank. -/
def oneBlank : List (Text × Text) := [("image_name".toList, "my disk".toList)]

theorem plainPair_of_mem_oneBlank : ∀ p ∈ oneBlank, PlainPair p := by
  intro p hp
  rw [List.mem_singleton.mp hp]
  exact plainPair_of_all (by rfl) (by decide) (by rfl) (by rfl)

theorem roundTrips_oneBlank : RoundTrips oneBlank := by
  refine (roundTrips_iff oneBlank plainPair_of_mem_oneBlank).mpr ⟨by decide, ?_, ?_⟩
  · rintro name value after ⟨before, heq, -⟩
    have hmem : (name, value) ∈ oneBlank := heq ▸ List.mem_append_right _ List.mem_cons_self
    cases List.mem_singleton.mp hmem
    decide
  · rintro name value after ⟨before, heq, -⟩ parm hparm
    have hlength := congrArg List.length heq
    rw [List.length_append, List.length_cons] at hlength
    have hone : oneBlank.length = 1 := rfl
    obtain rfl : after = [] := List.eq_nil_of_length_eq_zero (by omega)
    cases hparm

/-- Of a value with two blanks the last piece is read as a token without a name. -/
theorem not_roundTrips_twoBlanks :
    (∀ p ∈ [("image_name".toList, "my new disk".toList)], PlainPair p) ∧
      multiDisk (addParam "image_name".toList "my new disk".toList) = .error .valueError ∧
      ¬RoundTrips [("image_name".toList, "my new disk".toList)] := by
  refine ⟨fun p hp => ?_, by rfl, ?_⟩
  · rw [List.mem_singleton.mp hp]
    exact plainPair_of_all (by rfl) (by decide) (by rfl) (by rfl)
  · rintro ⟨g, hg, -⟩
    cases hg

end TpQemu.StgParams
