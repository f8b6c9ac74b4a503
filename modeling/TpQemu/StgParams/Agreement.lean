import TpQemu.Lib.PopLoop
import TpQemu.StgParams.Parsers

/-!
# When the two readers agree

The reader of `multi_disk_random_hotplug` returns only when it never joins anything:
its loops run to a length fixed before the first join, so that every escape makes a
later round raise, and it looks at the last character of every piece, so that an
empty piece raises as well. On such strings the reader of `multi_disk` joins nothing
either and builds the same matrix. On all others the readers agree only where
`multi_disk` raises too: at an empty piece that stands before another one.
-/

namespace TpQemu.StgParams

/-- A piece of a value without escape at its end. -/
def CleanPiece (p : Text) : Prop := p ≠ [] ∧ p.getLast? ≠ some '\\'

instance (p : Text) : Decidable (CleanPiece p) := inferInstanceAs (Decidable (_ ∧ _))

/-- A blank token, or one with a name and clean pieces, without escape at its end. -/
def Clean (tok : Text) : Prop :=
  blank tok = true ∨ (tok.getLast? ≠ some '\\' ∧
    ∃ cmd parm, splitColon tok = .ok (cmd, parm) ∧ ∀ p ∈ parm.splitOn ',', CleanPiece p)

/-- A piece in front of another one is empty; a piece behind an escaped comma belongs to
the piece before it. -/
def EmptyPiece : List Text → Prop
  | [] => False
  | [_] => False
  | p :: q :: rest =>
      p = [] ∨ if p.getLast? = some '\\' then EmptyPiece rest else EmptyPiece (q :: rest)

/-- The readers agree: both raise, or neither does and the matrices are equal apart from
the name of the image that the second one adds. -/
def Agree : Except PyError Gathered → Except PyError (Dict Text Param) → Prop
  | .ok g, .ok d => ∀ k, k ≠ imageKey ∨ k ∈ g.paramMatrix.keys → d.get? k = g.paramMatrix.get? k
  | .error _, .error _ => True
  | _, _ => False

/-! ## The second reader -/

theorem popNext_ok {sep : Char} {xs ys : List Text} {i : Nat} {x : Text}
    (h : popNext sep xs i x = .ok ys) : ys.length < xs.length ∧ i + 1 < xs.length := by
  rw [popNext] at h
  cases hnext : xs[i + 1]? with
  | none =>
      rw [hnext] at h
      cases h
  | some next =>
      rw [hnext] at h
      cases h
      have hlt : i + 1 < xs.length := (List.getElem?_eq_some_iff.mp hnext).1
      refine ⟨?_, hlt⟩
      rw [List.length_eraseIdx, List.length_set, if_pos hlt]
      omega

theorem pieceStep_none {parm : List Text} {j : Nat} (h : parm[j]? = none) :
    pieceStep parm j = .error .indexError := by
  rw [pieceStep, h]
  rfl

theorem pieceStep_some {parm : List Text} {j : Nat} {p : Text} (h : parm[j]? = some p) :
    pieceStep parm j = match p.getLast? with
      | none => .error .indexError
      | some c => if c = '\\' then popNext ',' parm j p else .ok parm := by
  rw [pieceStep, h]
  cases hlast : p.getLast? with
  | none => simp [hlast, bind, Except.bind]
  | some c => simp [hlast, bind, Except.bind, pure, Except.pure]

/-- A round returns the list as it is for a clean piece, or a shorter list. -/
theorem pieceStep_ok {parm parm' : List Text} {j : Nat} {p : Text} (hp : parm[j]? = some p)
    (h : pieceStep parm j = .ok parm') :
    (CleanPiece p ∧ parm' = parm) ∨
      (¬CleanPiece p ∧ parm'.length < parm.length ∧ j + 1 < parm.length) := by
  rw [pieceStep_some hp] at h
  cases hlast : p.getLast? with
  | none =>
      rw [hlast] at h
      cases h
  | some c =>
      simp only [hlast] at h
      by_cases hc : c = '\\'
      · rw [if_pos hc] at h
        refine .inr ⟨fun hclean => hclean.2 (by rw [hlast, hc]), popNext_ok h⟩
      · rw [if_neg hc] at h
        cases h
        refine .inl ⟨⟨?_, ?_⟩, rfl⟩
        · rintro rfl
          cases hlast
        · rw [hlast]
          simpa using hc

/-- The loop over the pieces of a value. -/
theorem pieceLoop : PopLoop pieceStep (fun parm => parm) CleanPiece (fun parm _ => parm) where
  behind parm j h := by
    rw [pieceStep_none (List.getElem?_eq_none h)]
    exact raises_error _
  shrinks parm j parm' h := by
    cases hp : parm[j]? with
    | none =>
        rw [pieceStep_none hp] at h
        cases h
    | some p =>
        obtain ⟨-, rfl⟩ | ⟨-, hlt, -⟩ := pieceStep_ok hp h
        · exact Nat.le_refl _
        · exact Nat.le_of_lt hlt
  items_upd _ _ := rfl
  clean_step parm j p hp hclean := by
    have hc : p.getLast? = some (p.getLast hclean.1) := List.getLast?_eq_some_getLast hclean.1
    generalize p.getLast hclean.1 = c at hc
    have hne : c ≠ '\\' := by
      rintro rfl
      exact hclean.2 hc
    rw [pieceStep_some hp, hc]
    exact if_neg hne
  pops parm j p parm' hp hclean h := by
    obtain ⟨hclean', -⟩ | ⟨-, hpop⟩ := pieceStep_ok hp h
    · exact absurd hclean' hclean
    · exact hpop

theorem splitValues_clean {parm : List Text} (h : ∀ p ∈ parm, CleanPiece p) :
    splitValues parm = .ok parm := by
  rw [splitValues, (pieceLoop.run parm).1 h, List.foldl_fixed]

theorem splitValues_raises {parm : List Text} (h : ¬∀ p ∈ parm, CleanPiece p) :
    Raises (splitValues parm) := by
  push Not at h
  exact (pieceLoop.run parm).2 h

/-- What a clean token adds to the matrix. -/
def addToken (d : Dict Text Param) (tok : Text) : Dict Text Param :=
  if blank tok then d
  else match splitColon tok with
    | .ok (cmd, parm) => d.set cmd (.values (parm.splitOn ','))
    | .error _ => d

theorem storeToken_clean {tok : Text} (h : Clean tok) (st : List Text × Dict Text Param) :
    storeToken st tok = .ok (st.1, addToken st.2 tok) := by
  by_cases hblank : blank tok = true
  · rw [storeToken, if_pos hblank, addToken, if_pos hblank]
  · obtain hb | ⟨-, cmd, parm, hcolon, hpieces⟩ := h
    · exact absurd hb hblank
    · rw [storeToken, if_neg hblank, hcolon, addToken, if_neg hblank, hcolon]
      change (splitValues (parm.splitOn ',') >>= _) = _
      rw [splitValues_clean hpieces]
      rfl

/-- A token without escape at its end is stored only if it is clean. -/
theorem storeToken_raises {tok : Text} (h : ¬Clean tok) (hlast : tok.getLast? ≠ some '\\')
    (st : List Text × Dict Text Param) : Raises (storeToken st tok) := by
  have hblank : ¬blank tok = true := fun hb => h (.inl hb)
  rw [storeToken, if_neg hblank]
  cases hcolon : splitColon tok with
  | error e => exact raises_error e
  | ok r =>
      obtain ⟨cmd, parm⟩ := r
      have hpieces : ¬∀ p ∈ parm.splitOn ',', CleanPiece p := fun hp =>
        h (.inr ⟨hlast, cmd, parm, hcolon, hp⟩)
      exact raises_bind (splitValues_raises hpieces) _

theorem storeToken_fst {st st' : List Text × Dict Text Param} {tok : Text}
    (h : storeToken st tok = .ok st') : st'.1 = st.1 := by
  rw [storeToken] at h
  split at h
  · cases h
    rfl
  · obtain ⟨⟨cmd, parm⟩, -, h⟩ := ok_of_bind_eq_ok h
    obtain ⟨values, -, h⟩ := ok_of_bind_eq_ok h
    cases h
    rfl

theorem hotplugStep_none {st : List Text × Dict Text Param} {i : Nat} (h : st.1[i]? = none) :
    hotplugStep st i = .error .indexError := by
  rw [hotplugStep, h]
  rfl

theorem hotplugStep_some {st : List Text × Dict Text Param} {i : Nat} {tok : Text}
    (h : st.1[i]? = some tok) :
    hotplugStep st i =
      if blank tok then .ok st
      else if tok.getLast? = some '\\' then do
        let toks ← popNext ' ' st.1 i tok
        storeToken (toks, st.2) (← orRaise .indexError toks[i]?)
      else storeToken st tok := by
  rw [hotplugStep, h]
  rfl

theorem hotplugStep_clean {st : List Text × Dict Text Param} {i : Nat} {tok : Text}
    (h : st.1[i]? = some tok) (hclean : Clean tok) :
    hotplugStep st i = .ok (st.1, addToken st.2 tok) := by
  rw [hotplugStep_some h]
  by_cases hblank : blank tok = true
  · rw [if_pos hblank, addToken, if_pos hblank]
  · obtain hb | ⟨hlast, -⟩ := id hclean
    · exact absurd hb hblank
    · rw [if_neg hblank, if_neg hlast, storeToken_clean hclean]

/-- A round for a token that is not clean pops the next token, if it does not raise. -/
theorem hotplugStep_pops {st st' : List Text × Dict Text Param} {i : Nat} {tok : Text}
    (h : st.1[i]? = some tok) (hclean : ¬Clean tok) (hstep : hotplugStep st i = .ok st') :
    st'.1.length < st.1.length ∧ i + 1 < st.1.length := by
  have hblank : ¬blank tok = true := fun hb => hclean (.inl hb)
  rw [hotplugStep_some h, if_neg hblank] at hstep
  split at hstep
  · obtain ⟨toks, hpop, hstep⟩ := ok_of_bind_eq_ok hstep
    obtain ⟨tok', -, hstep⟩ := ok_of_bind_eq_ok hstep
    rw [storeToken_fst hstep]
    exact popNext_ok hpop
  · rename_i hlast
    have hraise := storeToken_raises hclean hlast st
    rw [hstep] at hraise
    exact absurd hraise (not_raises_ok st')

/-- The loop over the tokens. -/
theorem tokenLoop :
    PopLoop hotplugStep Prod.fst Clean (fun st tok => (st.1, addToken st.2 tok)) where
  behind st i h := by
    rw [hotplugStep_none (List.getElem?_eq_none h)]
    exact raises_error _
  shrinks st i st' h := by
    cases htok : st.1[i]? with
    | none =>
        rw [hotplugStep_none htok] at h
        cases h
    | some tok =>
        by_cases hclean : Clean tok
        · rw [hotplugStep_clean htok hclean] at h
          cases h
          exact Nat.le_refl _
        · exact Nat.le_of_lt (hotplugStep_pops htok hclean h).1
  items_upd _ _ := rfl
  clean_step st i tok := hotplugStep_clean
  pops st i tok st' := hotplugStep_pops

/-- The image's path is there unless its name is empty. -/
theorem imagePath_raises_iff (dataDir name : Text) :
    Raises (imagePath dataDir name) ↔ name = [] := by
  cases name with
  | nil => exact iff_of_true (raises_error _) rfl
  | cons c name =>
      refine iff_of_false ?_ (List.cons_ne_nil c name)
      rw [imagePath]
      change ¬Raises (if c = '/' then _ else _)
      split <;> exact not_raises_ok _

theorem foldl_addToken (toks : List Text) (st : List Text × Dict Text Param) :
    toks.foldl (fun st tok => (st.1, addToken st.2 tok)) st = (st.1, toks.foldl addToken st.2) := by
  induction toks generalizing st with
  | nil => rfl
  | cons tok toks ih => exact ih _

/-- The second reader returns a matrix exactly for clean tokens. -/
theorem createParamsMatrix_clean (dataDir : Text) {name s : Text} (hname : name ≠ [])
    (h : ∀ tok ∈ s.splitOn ' ', Clean tok) :
    ∃ path, createParamsMatrix dataDir name s =
      .ok ((s.splitOn ' ').foldl addToken ((∅ : Dict Text Param).set imageKey (.text path))) := by
  cases hpath : imagePath dataDir name with
  | error e =>
      have hraise : Raises (imagePath dataDir name) := ⟨e, hpath⟩
      exact absurd ((imagePath_raises_iff dataDir name).mp hraise) hname
  | ok path =>
      refine ⟨path, ?_⟩
      rw [createParamsMatrix, hpath]
      refine (bind_of_eq_ok ((tokenLoop.run (s.splitOn ' ', _)).1 h) _).trans ?_
      rw [foldl_addToken]
      rfl

theorem createParamsMatrix_raises (dataDir : Text) {name s : Text}
    (h : ¬(name ≠ [] ∧ ∀ tok ∈ s.splitOn ' ', Clean tok)) :
    Raises (createParamsMatrix dataDir name s) := by
  by_cases hname : name = []
  · exact raises_bind ((imagePath_raises_iff dataDir name).mpr hname) _
  · cases hpath : imagePath dataDir name with
    | error e =>
        rw [createParamsMatrix, hpath]
        exact raises_error e
    | ok path =>
        have hbad : ∃ tok ∈ s.splitOn ' ', ¬Clean tok := by
          by_contra hnone
          push Not at hnone
          exact h ⟨hname, hnone⟩
        rw [createParamsMatrix, hpath]
        exact raises_bind ((tokenLoop.run (s.splitOn ' ', _)).2 hbad) _

/-! ## The first reader -/

/-- The name of a token, in front of its first colon. -/
def nameOf (tok : Text) : Text := tok.takeWhile (· ≠ ':')

/-- The value of a token, behind its first colon. -/
def valueOf (tok : Text) : Text := (tok.dropWhile (· ≠ ':')).drop 1

theorem splitColon_eq {tok : Text} (h : ':' ∈ tok) :
    splitColon tok = .ok (nameOf tok, valueOf tok) := by
  have hne : tok.dropWhile (· ≠ ':') ≠ [] := by
    rw [Ne, List.dropWhile_eq_nil_iff]
    intro hall
    have hcolon := hall ':' h
    simp at hcolon
  rw [splitColon, nameOf, valueOf]
  generalize tok.dropWhile (· ≠ ':') = rest at hne
  cases rest with
  | nil => exact absurd rfl hne
  | cons c rest => rfl

theorem mergePieces_clean {ps : List Text} (h : ∀ p ∈ ps, CleanPiece p) :
    mergePieces ps = .ok ps := by
  induction ps using mergePieces.induct with
  | case1 => rfl
  | case2 p => rfl
  | case3 p q rest hlast => exact absurd (List.getLast?_eq_none_iff.mp hlast) (h p (by simp)).1
  | case4 p q rest hlast => exact absurd hlast (h p (by simp)).2
  | case5 p q rest c hlast hc ih =>
      simp only [mergePieces, hlast, if_neg hc]
      rw [ih fun r hr => h r (List.mem_cons_of_mem p hr)]
      rfl

theorem mergePieces_raises_iff (ps : List Text) : Raises (mergePieces ps) ↔ EmptyPiece ps := by
  induction ps using mergePieces.induct with
  | case1 => exact iff_of_false (not_raises_ok _) id
  | case2 p => exact iff_of_false (not_raises_ok _) id
  | case3 p q rest hlast =>
      simp only [mergePieces, hlast, EmptyPiece]
      exact iff_of_true (raises_error _) (.inl (List.getLast?_eq_none_iff.mp hlast))
  | case4 p q rest hlast ih =>
      have hne : p ≠ [] := by
        rintro rfl
        cases hlast
      simp only [mergePieces, hlast, if_true, EmptyPiece, hne, false_or]
      rw [raises_map_iff, ih]
  | case5 p q rest c hlast hc ih =>
      have hne : p ≠ [] := by
        rintro rfl
        cases hlast
      have hc' : some c ≠ some '\\' := fun h => hc (Option.some.inj h)
      simp only [mergePieces, hlast, if_neg hc, EmptyPiece, hne, false_or, if_neg hc']
      rw [raises_map_iff, ih]

theorem mergeTokens_clean {toks : List Text} (h : ∀ tok ∈ toks, Clean tok) :
    mergeTokens toks = toks := by
  induction toks using mergeTokens.induct with
  | case1 => rfl
  | case2 t => rfl
  | case3 t u rest hblank ih =>
      rw [mergeTokens, if_pos hblank, ih fun r hr => h r (List.mem_cons_of_mem t hr)]
  | case4 t u rest hblank hlast ih =>
      obtain hb | ⟨hlast', -⟩ := h t (by simp)
      · exact absurd hb hblank
      · exact absurd hlast hlast'
  | case5 t u rest hblank hlast ih =>
      rw [mergeTokens, if_neg hblank, if_neg hlast,
        ih fun r hr => h r (List.mem_cons_of_mem t hr)]

/-- A token that is not blank has a colon, and its value is no range. -/
def Plain (tok : Text) : Prop := blank tok = false → ':' ∈ tok ∧ range1 (valueOf tok) = none

instance (tok : Text) : Decidable (Plain tok) := inferInstanceAs (Decidable (_ → _ ∧ _))

/-- A round of the loop over the tokens: nothing is left to go wrong but the joining. -/
theorem multiDiskStep_plain {tok : Text} (h : Plain tok) (hblank : blank tok = false)
    (g : Gathered) :
    multiDiskStep g tok = (fun vs => Gathered.store { g with
      hasName := g.hasName || nameOf tok = "image_name".toList } (nameOf tok) (.values vs)) <$>
        mergePieces ((valueOf tok).splitOn ',') := by
  obtain ⟨hcolon, hrange⟩ := h hblank
  rw [multiDiskStep, if_neg (by simp [hblank]), splitColon_eq hcolon]
  refine (bind_of_eq_ok rfl _).trans ?_
  dsimp only
  rw [hrange]
  cases mergePieces ((valueOf tok).splitOn ',') with
  | error e => rfl
  | ok vs => rfl

theorem multiDiskStep_raises_iff {tok : Text} (h : Plain tok) (g : Gathered) :
    Raises (multiDiskStep g tok) ↔
      blank tok = false ∧ EmptyPiece ((valueOf tok).splitOn ',') := by
  cases hblank : blank tok with
  | true =>
      rw [multiDiskStep, if_pos hblank]
      exact iff_of_false (not_raises_ok g) fun hf => by cases hf.1
  | false =>
      rw [multiDiskStep_plain h hblank, raises_map_iff, mergePieces_raises_iff]
      exact (and_iff_right rfl).symm

theorem multiDiskStep_clean {tok : Text} (hplain : Plain tok) (hclean : Clean tok)
    (g : Gathered) :
    ∃ g', multiDiskStep g tok = .ok g' ∧ g'.paramMatrix = addToken g.paramMatrix tok := by
  cases hblank : blank tok with
  | true =>
      refine ⟨g, ?_, ?_⟩
      · rw [multiDiskStep, if_pos hblank]
      · rw [addToken, if_pos hblank]
  | false =>
      obtain hb | ⟨-, cmd, parm, hcolon, hpieces⟩ := hclean
      · rw [hblank] at hb
        cases hb
      · have hsplit := splitColon_eq (hplain hblank).1
        rw [hsplit] at hcolon
        cases hcolon
        refine ⟨Gathered.store { g with
          hasName := g.hasName || nameOf tok = "image_name".toList } (nameOf tok)
            (.values ((valueOf tok).splitOn ',')), ?_, ?_⟩
        · rw [multiDiskStep_plain hplain hblank, mergePieces_clean hpieces]
          rfl
        · rw [addToken, if_neg (by simp [hblank]), hsplit]
          rfl

theorem foldlM_multiDiskStep_clean {toks : List Text} (hplain : ∀ tok ∈ toks, Plain tok)
    (hclean : ∀ tok ∈ toks, Clean tok) (g : Gathered) :
    ∃ g', toks.foldlM multiDiskStep g = .ok g' ∧
      g'.paramMatrix = toks.foldl addToken g.paramMatrix := by
  induction toks generalizing g with
  | nil => exact ⟨g, rfl, rfl⟩
  | cons tok toks ih =>
      obtain ⟨g₁, hstep, hmatrix⟩ := multiDiskStep_clean (hplain tok List.mem_cons_self)
        (hclean tok List.mem_cons_self) g
      obtain ⟨g', hrest, hmatrix'⟩ := ih (fun t ht => hplain t (List.mem_cons_of_mem tok ht))
        (fun t ht => hclean t (List.mem_cons_of_mem tok ht)) g₁
      refine ⟨g', ?_, ?_⟩
      · rw [List.foldlM_cons, bind_of_eq_ok hstep, hrest]
      · rw [hmatrix', hmatrix, List.foldl_cons]

/-! ## Both -/

/-- Two matrices that differ at most in the path of the image. -/
def Same (a b : Dict Text Param) : Prop :=
  ∀ k, k ≠ imageKey ∨ k ∈ a.keys → b.get? k = a.get? k

theorem Same.set {a b : Dict Text Param} (h : Same a b) (cmd : Text) (parm : Param) :
    Same (a.set cmd parm) (b.set cmd parm) := by
  intro k hk
  obtain rfl | hne := eq_or_ne k cmd
  · rw [Dict.get?_set_self, Dict.get?_set_self]
  · rw [Dict.get?_set_ne _ hne, Dict.get?_set_ne _ hne]
    refine h k (hk.imp_right fun hmem => ?_)
    rw [Dict.mem_keys_set] at hmem
    exact hmem.resolve_left hne

theorem Same.foldl_addToken {a b : Dict Text Param} (h : Same a b) (toks : List Text) :
    Same (toks.foldl addToken a) (toks.foldl addToken b) := by
  induction toks generalizing a b with
  | nil => exact h
  | cons tok toks ih =>
      refine ih ?_
      rw [addToken, addToken]
      split
      · exact h
      · split
        · exact h.set _ _
        · exact h

theorem same_empty (path : Text) :
    Same ∅ ((∅ : Dict Text Param).set imageKey (.text path)) := by
  rintro k (hne | hmem)
  · rw [Dict.get?_set_ne _ hne]
  · simp at hmem

/-- Tokens that are not blank have a colon and no range: then the readers agree exactly
when no token ends in a backslash and no piece of a value is empty or ends in one, or
else when some value has an empty piece in front of another one. -/
theorem readers_agree_iff (dataDir name s : Text)
    (plain : ∀ tok ∈ mergeTokens (s.splitOn ' '), Plain tok) :
    Agree (multiDisk s) (createParamsMatrix dataDir name s) ↔
      (name ≠ [] ∧ ∀ tok ∈ s.splitOn ' ', Clean tok) ∨
        ∃ tok ∈ mergeTokens (s.splitOn ' '),
          blank tok = false ∧ EmptyPiece ((valueOf tok).splitOn ',') := by
  have hraises := foldlM_raises_iff
    (fun tok htok g => multiDiskStep_raises_iff (plain tok htok) g) ⟨∅, [], false, 0⟩
  by_cases hclean : name ≠ [] ∧ ∀ tok ∈ s.splitOn ' ', Clean tok
  · refine iff_of_true ?_ (.inl hclean)
    rw [mergeTokens_clean hclean.2] at plain
    obtain ⟨g, hg, hmatrix⟩ := foldlM_multiDiskStep_clean plain hclean.2 ⟨∅, [], false, 0⟩
    obtain ⟨path, hd⟩ := createParamsMatrix_clean dataDir hclean.1 hclean.2
    rw [multiDisk, mergeTokens_clean hclean.2, hg, hd]
    change Same g.paramMatrix _
    rw [hmatrix]
    exact (same_empty path).foldl_addToken _
  · obtain ⟨e, he⟩ := createParamsMatrix_raises dataDir hclean
    rw [or_iff_right hclean, ← hraises, he]
    change Agree (multiDisk s) (.error e) ↔ Raises (multiDisk s)
    cases multiDisk s with
    | error e' => exact iff_of_true trivial (raises_error e')
    | ok g => exact iff_of_false id (not_raises_ok g)

/-- Two tokens without escapes. -/
def twoTokens : Text := "fmt:ide,scsi size:1G".toList

theorem readers_agree_two_tokens :
    (∀ tok ∈ mergeTokens (twoTokens.splitOn ' '), Plain tok) ∧
      Agree (multiDisk twoTokens)
        (createParamsMatrix "/var".toList "disk%s".toList twoTokens) := by
  have plain : ∀ tok ∈ mergeTokens (twoTokens.splitOn ' '), Plain tok := by decide
  refine ⟨plain, (readers_agree_iff _ _ _ plain).mpr (.inl ⟨by decide, fun tok htok => ?_⟩)⟩
  have htoks : twoTokens.splitOn ' ' = ["fmt:ide,scsi".toList, "size:1G".toList] := by decide
  rw [htoks, List.mem_cons, List.mem_singleton] at htok
  obtain rfl | rfl := htok
  · exact .inr ⟨by decide, "fmt".toList, "ide,scsi".toList, rfl, by decide⟩
  · exact .inr ⟨by decide, "size".toList, "1G".toList, rfl, by decide⟩

/-- An escaped comma: `multi_disk` reads one value with a comma in it, and the other
reader raises. -/
theorem escaped_comma_disagrees :
    ¬∀ dataDir name s : Text, (∀ tok ∈ mergeTokens (s.splitOn ' '), Plain tok) →
      Agree (multiDisk s) (createParamsMatrix dataDir name s) := by
  intro h
  have hagree := h "/var".toList "disk%s".toList "fmt:a\\,b".toList (by decide)
  have hraise : createParamsMatrix "/var".toList "disk%s".toList "fmt:a\\,b".toList =
      .error .indexError := by rfl
  rw [hraise] at hagree
  exact hagree

end TpQemu.StgParams
