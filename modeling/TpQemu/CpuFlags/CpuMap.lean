import TpQemu.Lib.Dict
import TpQemu.Lib.Python
import Mathlib.Data.List.GetD

/-!
# The parser of CPU maps

`ParseCpuFlags` in `qemu/tests/cpuflags.py`. The handlers of the XML parser see a document as a
sequence of starts and ends of elements. A model holds its own features and those of the models
that are referenced in it.

The lists of the models and the dictionaries of the architectures are objects: `last_model` and
`last_arch` are other names for one of them.
-/

namespace TpQemu.CpuFlags

abbrev Attrs := Dict String String

/-- What the handlers are called with. -/
inductive Event where
  | start (name : String) (attrs : Attrs)
  | stop (name : String)

/-- The state of a `ParseCpuFlags`. Objects are their positions in `lists` and in `dicts`. -/
structure Parser where
  lists : List (List String)
  dicts : List (Dict String Nat)
  cpus : Dict String Nat
  lastArch : Option Nat
  lastModel : Option Nat
  subModel : Bool
  allFlags : List String

namespace Parser

/-- `__init__` -/
def init : Parser := ⟨[], [], ∅, none, none, false, []⟩

/-- `start_element` -/
def startElement (p : Parser) (name : String) (attrs : Attrs) : Except PyError Parser :=
  if name = "cpus" then
    .ok { p with cpus := ∅ }
  else if name = "arch" then do
    let n ← orRaise .keyError (attrs.get? "name")
    return { p with
      dicts := p.dicts ++ [∅]
      cpus := p.cpus.set n p.dicts.length
      lastArch := some p.dicts.length }
  else if name = "model" then do
    let n ← orRaise .keyError (attrs.get? "name")
    -- None has no items
    let arch ← orRaise .typeError p.lastArch
    match p.lastModel with
    | none =>
        return { p with
          lists := p.lists ++ [[]]
          dicts := p.dicts.modify arch fun d => d.set n p.lists.length
          lastModel := some p.lists.length }
    | some model => do
        let other ← orRaise .keyError ((p.dicts.getD arch ∅).get? n)
        return { p with
          lists := p.lists.modify model fun l => l ++ p.lists.getD other []
          subModel := true }
  else if name = "feature" then do
    let n ← orRaise .keyError (attrs.get? "name")
    match p.lastModel with
    | some model => return { p with lists := p.lists.modify model fun l => l ++ [n] }
    | none => return { p with allFlags := p.allFlags ++ [n] }
  else
    .ok p

/-- `end_element` -/
def endElement (p : Parser) (name : String) : Parser :=
  if name = "arch" then
    { p with lastArch := none }
  else if name = "model" then
    if p.subModel = false then { p with lastModel := none } else { p with subModel := false }
  else
    p

def handle (p : Parser) : Event → Except PyError Parser
  | .start name attrs => p.startElement name attrs
  | .stop name => .ok (p.endElement name)

/-- The handlers are called for each event. -/
def feed (p : Parser) (events : List Event) : Except PyError Parser := events.foldlM handle p

/-- The models behind a dictionary of the state. -/
def models (lists : List (List String)) (d : Dict String Nat) : Dict String (List String) :=
  d.map fun model => lists.getD model []

/-- `self.cpus`, with the objects in the place of their names. -/
def value (p : Parser) : Dict String (Dict String (List String)) :=
  p.cpus.map fun arch => models p.lists (p.dicts.getD arch ∅)

end Parser

/-! ## Documents -/

/-- The attributes of an element with a name. -/
structure Named where
  attrs : Attrs
  name : String
  named : attrs.get? "name" = some name

/-- The elements that the parser knows. -/
def known : List String := ["cpus", "arch", "model", "feature"]

/-- Other elements, with others in them. -/
inductive Others where
  | nil
  | cons (tag : String) (attrs : Attrs) (other : tag ∉ known) (inner rest : Others)

/-- What a model holds: its features, and references to models. -/
inductive ModelItem where
  | feature (n : Named) (inner : Others)
  | reference (n : Named) (inner : Others)
  | others (elements : Others)

inductive ArchItem where
  | feature (n : Named) (inner : Others)
  | model (n : Named) (items : List ModelItem)
  | others (elements : Others)

inductive RootItem where
  | arch (n : Named) (items : List ArchItem)
  | others (elements : Others)

structure Document where
  attrs : Attrs
  items : List RootItem

/-- The events of an element. -/
def element (tag : String) (attrs : Attrs) (inner : List Event) : List Event :=
  .start tag attrs :: inner ++ [.stop tag]

def Others.events : Others → List Event
  | .nil => []
  | .cons tag attrs _ inner rest => element tag attrs inner.events ++ rest.events

def ModelItem.events : ModelItem → List Event
  | .feature n inner => element "feature" n.attrs inner.events
  | .reference n inner => element "model" n.attrs inner.events
  | .others elements => elements.events

def ArchItem.events : ArchItem → List Event
  | .feature n inner => element "feature" n.attrs inner.events
  | .model n items => element "model" n.attrs (items.flatMap ModelItem.events)
  | .others elements => elements.events

def RootItem.events : RootItem → List Event
  | .arch n items => element "arch" n.attrs (items.flatMap ArchItem.events)
  | .others elements => elements.events

def Document.events (doc : Document) : List Event :=
  element "cpus" doc.attrs (doc.items.flatMap RootItem.events)

/-! ## Their meaning -/

/-- The features of an item, the models that are closed being given. -/
def ModelItem.flags (closed : Dict String (List String)) : ModelItem → List String
  | .feature n _ => [n.name]
  | .reference n _ => (closed.get? n.name).getD []
  | .others _ => []

/-- A model is closed with its own features and those of the models it references. -/
def ArchItem.close (closed : Dict String (List String)) : ArchItem → Dict String (List String)
  | .model n items => closed.set n.name (items.flatMap (ModelItem.flags closed))
  | _ => closed

def archModels (closed : Dict String (List String)) (items : List ArchItem) :
    Dict String (List String) :=
  items.foldl ArchItem.close closed

def RootItem.add (cpus : Dict String (Dict String (List String))) :
    RootItem → Dict String (Dict String (List String))
  | .arch n items => cpus.set n.name (archModels ∅ items)
  | .others _ => cpus

/-- The models of each architecture. -/
def Document.cpus (doc : Document) : Dict String (Dict String (List String)) :=
  doc.items.foldl RootItem.add ∅

/-- A feature that is a child of an architecture. -/
def ArchItem.allFlags : ArchItem → List String
  | .feature n _ => [n.name]
  | _ => []

def RootItem.allFlags : RootItem → List String
  | .arch _ items => items.flatMap ArchItem.allFlags
  | .others _ => []

def Document.allFlags (doc : Document) : List String := doc.items.flatMap RootItem.allFlags

/-- A reference is to a model that has been closed. -/
def ModelItem.Closed (closed : List String) : ModelItem → Prop
  | .reference n _ => n.name ∈ closed
  | _ => True

theorem ModelItem.Closed.mono {closed closed' : List String} {item : ModelItem}
    (h : item.Closed closed) (hsub : closed ⊆ closed') : item.Closed closed' := by
  cases item with
  | feature _ _ => trivial
  | reference n inner => exact hsub h
  | others _ => trivial

/-- All references are to models closed earlier in the architecture. -/
def Closed : List String → List ArchItem → Prop
  | _, [] => True
  | closed, .model n items :: rest =>
      (∀ item ∈ items, item.Closed closed) ∧ Closed (n.name :: closed) rest
  | closed, _ :: rest => Closed closed rest

def RootItem.WellFormed : RootItem → Prop
  | .arch _ items => Closed [] items
  | .others _ => True

def Document.WellFormed (doc : Document) : Prop := ∀ item ∈ doc.items, item.WellFormed

/-- A model that is opened has its name at once, so that a reference to an earlier model of this
name would be to itself. -/
def ModelItem.NotItself (name : String) : ModelItem → Prop
  | .reference n _ => n.name ≠ name
  | _ => True

def ArchItem.NotItself : ArchItem → Prop
  | .model n items => ∀ item ∈ items, item.NotItself n.name
  | _ => True

def RootItem.NotItself : RootItem → Prop
  | .arch _ items => ∀ item ∈ items, item.NotItself
  | .others _ => True

/-- No model references the name that it has. -/
def Document.NotItself (doc : Document) : Prop := ∀ item ∈ doc.items, item.NotItself

/-! ## Elements -/

namespace Parser

variable {p q r : Parser}

theorem feed_append {es es' : List Event} (h : p.feed es = .ok q) :
    p.feed (es ++ es') = q.feed es' := by
  rw [feed, List.foldlM_append]
  exact bind_of_eq_ok h _

/-- An element is its start, what is in it, and its end. -/
theorem feed_element {tag : String} {attrs : Attrs} {inner : List Event}
    (hstart : p.startElement tag attrs = .ok q) (hinner : q.feed inner = .ok r) :
    p.feed (element tag attrs inner) = .ok (r.endElement tag) := by
  rw [element, List.cons_append, feed, List.foldlM_cons]
  refine (bind_of_eq_ok hstart _).trans ?_
  exact feed_append hinner

theorem feed_others (p : Parser) (elements : Others) : p.feed elements.events = .ok p := by
  induction elements with
  | nil => rfl
  | cons tag attrs other inner rest hinner hrest =>
      simp only [known, List.mem_cons, List.not_mem_nil, or_false, not_or] at other
      obtain ⟨hcpus, harch, hmodel, hfeature⟩ := other
      have hstart : p.startElement tag attrs = .ok p := by
        rw [startElement, if_neg hcpus, if_neg harch, if_neg hmodel, if_neg hfeature]
      have hend : p.endElement tag = p := by
        rw [endElement, if_neg harch, if_neg hmodel]
      have helement := feed_element hstart hinner
      rw [hend] at helement
      exact (feed_append helement).trans hrest

theorem startElement_feature (n : Named) : p.startElement "feature" n.attrs =
    .ok (match p.lastModel with
      | some model => { p with lists := p.lists.modify model fun l => l ++ [n.name] }
      | none => { p with allFlags := p.allFlags ++ [n.name] }) := by
  rw [startElement, if_neg (by decide), if_neg (by decide), if_neg (by decide), if_pos rfl, n.named]
  cases p.lastModel <;> rfl

/-- A model of its own begins. -/
theorem startElement_model {arch : Nat} (n : Named) (harch : p.lastArch = some arch)
    (hmodel : p.lastModel = none) : p.startElement "model" n.attrs =
    .ok { p with
      lists := p.lists ++ [[]]
      dicts := p.dicts.modify arch fun d => d.set n.name p.lists.length
      lastModel := some p.lists.length } := by
  rw [startElement, if_neg (by decide), if_neg (by decide), if_pos rfl, n.named, harch, hmodel]
  rfl

/-- In a model, a model is a reference. -/
theorem startElement_reference {arch model other : Nat} (n : Named)
    (harch : p.lastArch = some arch) (hmodel : p.lastModel = some model)
    (hother : (p.dicts.getD arch ∅).get? n.name = some other) :
    p.startElement "model" n.attrs =
      .ok { p with
        lists := p.lists.modify model fun l => l ++ p.lists.getD other []
        subModel := true } := by
  rw [startElement, if_neg (by decide), if_neg (by decide), if_pos rfl, n.named, harch, hmodel]
  refine (bind_of_eq_ok rfl _).trans ((bind_of_eq_ok rfl _).trans ?_)
  exact bind_of_eq_ok (by rw [hother]; rfl) _

theorem startElement_arch (n : Named) : p.startElement "arch" n.attrs =
    .ok { p with
      dicts := p.dicts ++ [∅]
      cpus := p.cpus.set n.name p.dicts.length
      lastArch := some p.dicts.length } := by
  rw [startElement, if_neg (by decide), if_pos rfl, n.named]
  rfl

theorem modify_last {α : Type} (l : List α) (a : α) (f : α → α) :
    (l ++ [a]).modify l.length f = l ++ [f a] := by
  induction l with
  | nil => rfl
  | cons b l ih =>
      rw [List.cons_append, List.length_cons, List.modify_succ_cons, ih]
      rfl

theorem getD_last {α : Type} (l : List α) (a default : α) :
    (l ++ [a]).getD l.length default = a := by
  rw [List.getD_append_right _ _ _ _ (Nat.le_refl _), Nat.sub_self]
  rfl

/-! ## Models -/

/-- In a model, its list is the newest one. -/
def inModel (p : Parser) (lists : List (List String)) (l : List String) : Parser :=
  { p with lists := lists ++ [l], lastModel := some lists.length, subModel := false }

/-- The models that are closed are found in the dictionary, that of the open model apart. -/
def Finds (lists : List (List String)) (d : Dict String Nat) (name : String)
    (closed : Dict String (List String)) : Prop :=
  ∀ k ∈ closed.keys, k ≠ name →
    ∃ i < lists.length, d.get? k = some i ∧ closed.get? k = some (lists.getD i [])

section Models

variable {arch : Nat} {d : Dict String Nat} {lists : List (List String)} {name : String}
  {closed : Dict String (List String)} (harch : p.lastArch = some arch)
  (hd : p.dicts.getD arch ∅ = d) (hfinds : Finds lists d name closed)

include harch hd hfinds

theorem feed_modelItem {item : ModelItem} (hitem : item.Closed closed.keys)
    (hself : item.NotItself name) (l : List String) :
    (p.inModel lists l).feed item.events = .ok (p.inModel lists (l ++ item.flags closed)) := by
  cases item with
  | feature n inner =>
      rw [ModelItem.events, feed_element (startElement_feature n) (feed_others _ inner)]
      simp only [inModel, modify_last]
      rfl
  | reference n inner =>
      obtain ⟨i, hi, hget, hclosed⟩ := hfinds n.name hitem hself
      have hother : ((p.inModel lists l).dicts.getD arch ∅).get? n.name = some i := by
        rw [← hget, ← hd]
        rfl
      have hstart := startElement_reference (p := p.inModel lists l) n harch rfl hother
      rw [ModelItem.events, feed_element hstart (feed_others _ inner)]
      simp only [inModel, modify_last, List.getD_append _ _ _ _ hi, ModelItem.flags, hclosed]
      rfl
  | others elements =>
      rw [ModelItem.events, feed_others, ModelItem.flags, List.append_nil]

theorem feed_modelItems {items : List ModelItem}
    (hitems : ∀ item ∈ items, item.Closed closed.keys)
    (hself : ∀ item ∈ items, item.NotItself name) (l : List String) :
    (p.inModel lists l).feed (items.flatMap ModelItem.events) =
      .ok (p.inModel lists (l ++ items.flatMap (ModelItem.flags closed))) := by
  induction items generalizing l with
  | nil =>
      rw [List.flatMap_nil, List.flatMap_nil, List.append_nil]
      rfl
  | cons item items ih =>
      obtain ⟨hitem, hrest⟩ := List.forall_mem_cons.mp hitems
      obtain ⟨hselfItem, hselfRest⟩ := List.forall_mem_cons.mp hself
      rw [List.flatMap_cons, feed_append (feed_modelItem harch hd hfinds hitem hselfItem l),
        ih hrest hselfRest, List.flatMap_cons, List.append_assoc]

end Models

/-- The whole of a model, as an element of an architecture. -/
theorem feed_model {arch : Nat} {n : Named} {items : List ModelItem}
    {closed : Dict String (List String)} (harch : p.lastArch = some arch)
    (hmodel : p.lastModel = none) (hsub : p.subModel = false)
    (hfinds : Finds p.lists ((p.dicts.modify arch fun d => d.set n.name p.lists.length).getD arch ∅)
      n.name closed)
    (hitems : ∀ item ∈ items, item.Closed closed.keys)
    (hself : ∀ item ∈ items, item.NotItself n.name) :
    p.feed (ArchItem.model n items).events =
      .ok { p with
        lists := p.lists ++ [items.flatMap (ModelItem.flags closed)]
        dicts := p.dicts.modify arch fun d => d.set n.name p.lists.length } := by
  obtain ⟨lists, dicts, cpus, lastArch, lastModel, subModel, allFlags⟩ := p
  subst harch hmodel hsub
  exact feed_element (startElement_model n rfl rfl)
    (feed_modelItems (p := ⟨[], _, cpus, some arch, none, false, allFlags⟩) rfl rfl hfinds
      hitems hself [])

/-! ## Architectures -/

/-- The lists of a dictionary exist. -/
def Bounded (lists : List (List String)) (d : Dict String Nat) : Prop :=
  ∀ e ∈ d.entries, e.2 < lists.length

theorem Bounded.append {lists : List (List String)} {d : Dict String Nat} (h : Bounded lists d)
    (more : List (List String)) : Bounded (lists ++ more) d := by
  intro e he
  rw [List.length_append]
  exact Nat.lt_add_right _ (h e he)

/-- New lists do not change the models there are. -/
theorem models_append {lists : List (List String)} {d : Dict String Nat} (h : Bounded lists d)
    (more : List (List String)) : models (lists ++ more) d = models lists d :=
  Dict.map_congr fun e he => List.getD_append _ _ _ _ (h e he)

/-- A model that is added under a name. -/
theorem Bounded.add {lists : List (List String)} {d : Dict String Nat} (h : Bounded lists d)
    (name : String) (l : List String) : Bounded (lists ++ [l]) (d.set name lists.length) := by
  intro e he
  rw [List.length_append]
  rcases Dict.mem_entries_set he with rfl | he
  · exact Nat.lt_succ_self _
  · exact Nat.lt_succ_of_lt (h e he)

theorem Bounded.models_add {lists : List (List String)} {d : Dict String Nat} (h : Bounded lists d)
    (name : String) (l : List String) :
    models (lists ++ [l]) (d.set name lists.length) = (models lists d).set name l := by
  rw [models, Dict.map_set, getD_last]
  exact congrArg (Dict.set · name l) (models_append h [l])

theorem Bounded.finds {lists : List (List String)} {d : Dict String Nat} (h : Bounded lists d)
    (name : String) (model : Nat) : Finds lists (d.set name model) name (models lists d) := by
  intro k hk hne
  rw [models, Dict.keys_map] at hk
  obtain ⟨i, hi⟩ := Dict.mem_keys_iff.mp hk
  refine ⟨i, h (k, i) (Dict.get?_eq_some_iff.mp hi), ?_, ?_⟩
  · rw [Dict.get?_set_ne _ hne, hi]
  · rw [models, Dict.get?_map, hi]
    rfl

/-- In an architecture, its dictionary is the newest one. -/
def inArch (cpus : Dict String Nat) (dicts : List (Dict String Nat)) (lists : List (List String))
    (d : Dict String Nat) (allFlags : List String) : Parser :=
  ⟨lists, dicts ++ [d], cpus, some dicts.length, none, false, allFlags⟩

section Architectures

variable (cpus : Dict String Nat) (dicts : List (Dict String Nat)) {lists : List (List String)}
  {d : Dict String Nat}

theorem feed_archModel (hd : Bounded lists d) {n : Named} {items : List ModelItem}
    (hitems : ∀ item ∈ items, item.Closed d.keys) (hself : ∀ item ∈ items, item.NotItself n.name)
    {allFlags : List String} :
    (inArch cpus dicts lists d allFlags).feed (ArchItem.model n items).events =
      .ok (inArch cpus dicts (lists ++ [items.flatMap (ModelItem.flags (models lists d))])
        (d.set n.name lists.length) allFlags) := by
  have hdict : ((dicts ++ [d]).modify dicts.length fun d => d.set n.name lists.length) =
      dicts ++ [d.set n.name lists.length] := modify_last _ _ _
  have hfinds : Finds lists (((dicts ++ [d]).modify dicts.length fun d =>
      d.set n.name lists.length).getD dicts.length ∅) n.name (models lists d) := by
    rw [hdict, getD_last]
    exact hd.finds n.name lists.length
  have hitems' : ∀ item ∈ items, item.Closed (models lists d).keys := by
    rw [models, Dict.keys_map]
    exact hitems
  rw [feed_model (p := inArch cpus dicts lists d allFlags) rfl rfl rfl hfinds hitems' hself]
  simp only [inArch, hdict]

theorem feed_archItems (hd : Bounded lists d) {names : List String} (hnames : names ⊆ d.keys)
    {items : List ArchItem} (hclosed : Closed names items)
    (hself : ∀ item ∈ items, item.NotItself) (allFlags : List String) :
    ∃ more d', (inArch cpus dicts lists d allFlags).feed (items.flatMap ArchItem.events) =
        .ok (inArch cpus dicts (lists ++ more) d' (allFlags ++ items.flatMap ArchItem.allFlags)) ∧
      Bounded (lists ++ more) d' ∧
      models (lists ++ more) d' = archModels (models lists d) items := by
  induction items generalizing lists d names allFlags with
  | nil =>
      refine ⟨[], d, ?_, hd.append [], ?_⟩
      · rw [List.append_nil, List.flatMap_nil, List.flatMap_nil, List.append_nil]
        rfl
      · rw [List.append_nil]
        rfl
  | cons item items ih =>
      obtain ⟨hselfItem, hselfRest⟩ := List.forall_mem_cons.mp hself
      cases item with
      | feature n inner =>
          obtain ⟨more, d', hfeed, hbounded, hmodels⟩ :=
            ih hd hnames hclosed hselfRest (allFlags ++ [n.name])
          refine ⟨more, d', ?_, hbounded, hmodels⟩
          rw [List.flatMap_cons, ArchItem.events, feed_append
            (feed_element (startElement_feature n) (feed_others _ inner)), List.flatMap_cons,
            ← List.append_assoc]
          exact hfeed
      | model n body =>
          obtain ⟨hbody, hrest⟩ := hclosed
          have hnames' : n.name :: names ⊆ (d.set n.name lists.length).keys := by
            rintro k (_ | ⟨_, hk⟩)
            · exact Dict.mem_keys_set.mpr (.inl rfl)
            · exact Dict.mem_keys_set.mpr (.inr (hnames hk))
          obtain ⟨more, d', hfeed, hbounded, hmodels⟩ := ih
            (hd.add n.name (body.flatMap (ModelItem.flags (models lists d)))) hnames' hrest
            hselfRest allFlags
          rw [hd.models_add, List.append_assoc] at hmodels
          rw [List.append_assoc] at hfeed hbounded
          refine ⟨_, d', ?_, hbounded, hmodels⟩
          rw [List.flatMap_cons, feed_append (feed_archModel cpus dicts hd (fun item hitem =>
            (hbody item hitem).mono hnames) hselfItem), hfeed]
          rfl
      | others elements =>
          obtain ⟨more, d', hfeed, hbounded, hmodels⟩ := ih hd hnames hclosed hselfRest allFlags
          refine ⟨more, d', ?_, hbounded, hmodels⟩
          rw [List.flatMap_cons, ArchItem.events, feed_append (feed_others _ elements), hfeed]
          rfl

end Architectures

/-! ## The document -/

/-- Between the architectures no model is open, and all objects exist. -/
structure Root (p : Parser) : Prop where
  lastModel : p.lastModel = none
  subModel : p.subModel = false
  exist : ∀ e ∈ p.cpus.entries, e.2 < p.dicts.length
  bounded : ∀ d ∈ p.dicts, Bounded p.lists d

/-- New objects do not change the architectures there are. -/
theorem Root.models_append (h : Root p) {e : String × Nat} (he : e ∈ p.cpus.entries)
    (more : List (List String)) (d : Dict String Nat) :
    models (p.lists ++ more) ((p.dicts ++ [d]).getD e.2 ∅) =
      models p.lists (p.dicts.getD e.2 ∅) := by
  have hlt := h.exist e he
  rw [List.getD_append _ _ _ _ hlt, List.getD_eq_getElem _ _ hlt]
  exact Parser.models_append (h.bounded _ (List.getElem_mem hlt)) more

theorem feed_arch (h : Root p) {n : Named} {items : List ArchItem} (hclosed : Closed [] items)
    (hself : ∀ item ∈ items, item.NotItself) :
    ∃ q, p.feed (RootItem.arch n items).events = .ok q ∧ Root q ∧
      q.value = p.value.set n.name (archModels ∅ items) ∧
      q.allFlags = p.allFlags ++ items.flatMap ArchItem.allFlags := by
  have hstart : p.startElement "arch" n.attrs =
      .ok (inArch (p.cpus.set n.name p.dicts.length) p.dicts p.lists ∅ p.allFlags) := by
    rw [startElement_arch, h.lastModel, h.subModel]
    rfl
  have hempty : Bounded p.lists ∅ := by
    intro e he
    cases he
  obtain ⟨more, d, hfeed, hbounded, hmodels⟩ := feed_archItems (p.cpus.set n.name p.dicts.length)
    p.dicts hempty (List.nil_subset _) hclosed hself p.allFlags
  refine ⟨_, feed_element hstart hfeed, ⟨rfl, rfl, ?_, ?_⟩, ?_, rfl⟩
  · intro e he
    change e.2 < (p.dicts ++ [d]).length
    rw [List.length_append]
    rcases Dict.mem_entries_set he with rfl | he
    · exact Nat.lt_succ_self _
    · exact Nat.lt_succ_of_lt (h.exist e he)
  · intro d' hd'
    rcases List.mem_append.mp hd' with hd' | hd'
    · exact (h.bounded d' hd').append more
    · rw [List.mem_singleton.mp hd']
      exact hbounded
  · change (p.cpus.set n.name p.dicts.length).map (fun a =>
      models (p.lists ++ more) ((p.dicts ++ [d]).getD a ∅)) = _
    rw [Dict.map_set, getD_last, hmodels]
    exact congrArg (Dict.set · n.name _) (Dict.map_congr fun e he => h.models_append he more d)

theorem feed_rootItems (h : Root p) {items : List RootItem}
    (hitems : ∀ item ∈ items, item.WellFormed) (hself : ∀ item ∈ items, item.NotItself) :
    ∃ q, p.feed (items.flatMap RootItem.events) = .ok q ∧
      q.value = items.foldl RootItem.add p.value ∧
      q.allFlags = p.allFlags ++ items.flatMap RootItem.allFlags := by
  induction items generalizing p with
  | nil => exact ⟨p, rfl, rfl, (List.append_nil _).symm⟩
  | cons item items ih =>
      obtain ⟨hitem, hrest⟩ := List.forall_mem_cons.mp hitems
      obtain ⟨hselfItem, hselfRest⟩ := List.forall_mem_cons.mp hself
      cases item with
      | arch n body =>
          obtain ⟨q, hq, hroot, hvalue, hflags⟩ := feed_arch (n := n) h hitem hselfItem
          obtain ⟨r, hr, hvalue', hflags'⟩ := ih hroot hrest hselfRest
          refine ⟨r, (feed_append hq).trans hr, ?_, ?_⟩
          · rw [hvalue', hvalue]
            rfl
          · rw [hflags', hflags, List.flatMap_cons, List.append_assoc]
            rfl
      | others elements =>
          obtain ⟨q, hq, hvalue, hflags⟩ := ih h hrest hselfRest
          exact ⟨q, (feed_append (feed_others p elements)).trans hq, hvalue, hflags⟩

end Parser

/-- The parser gives each model its own features and those of the models it references, in the
order of the document, and keeps the features of the architectures, unless a model references an
earlier one of its own name. -/
theorem parse_document (doc : Document) (h : doc.WellFormed) (hself : doc.NotItself) :
    ∃ p, Parser.init.feed doc.events = .ok p ∧ p.value = doc.cpus ∧ p.allFlags = doc.allFlags := by
  have hroot : Parser.Root Parser.init := by
    refine ⟨rfl, rfl, ?_, ?_⟩
    · intro e he
      cases he
    · intro d hd
      cases hd
  obtain ⟨p, hfeed, hvalue, hflags⟩ := Parser.feed_rootItems hroot h hself
  exact ⟨p, Parser.feed_element rfl hfeed, hvalue, hflags⟩

/-- The attributes of an element that has only a name. -/
def Named.of (name : String) : Named := ⟨(∅ : Dict String String).set "name" name, name, rfl⟩

/-- A model that references another one. -/
def smallMap : Document :=
  ⟨∅, [.arch (.of "x86")
    [.feature (.of "fpu") (.cons "cpuid" ∅ (by decide) .nil .nil),
      .model (.of "486") [.feature (.of "fpu") .nil],
      .model (.of "pentium") [.reference (.of "486") .nil, .feature (.of "tsc") .nil]]]⟩

example : (smallMap.cpus.get? "x86").bind (·.get? "pentium") = some ["fpu", "tsc"] := by decide

theorem parse_smallMap :
    ∃ p, Parser.init.feed smallMap.events = .ok p ∧ p.value = smallMap.cpus ∧
      p.allFlags = smallMap.allFlags :=
  parse_document smallMap
    (by simp [smallMap, Document.WellFormed, RootItem.WellFormed, Closed, ModelItem.Closed,
      Named.of])
    (by simp [smallMap, Document.NotItself, RootItem.NotItself, ArchItem.NotItself,
      ModelItem.NotItself, Named.of])

/-- A model is opened again, and references the earlier one of its name. -/
def reopenedMap : Document :=
  ⟨∅, [.arch (.of "x86")
    [.model (.of "486") [.feature (.of "fpu") .nil],
      .model (.of "486") [.reference (.of "486") .nil, .feature (.of "tsc") .nil]]]⟩

/-- The second model does not get the features of the first one. -/
theorem reopened_model_without_features :
    reopenedMap.WellFormed ∧
      ¬∃ p, Parser.init.feed reopenedMap.events = .ok p ∧ p.value = reopenedMap.cpus ∧
        p.allFlags = reopenedMap.allFlags := by
  refine ⟨by simp [reopenedMap, Document.WellFormed, RootItem.WellFormed, Closed,
    ModelItem.Closed, Named.of], ?_⟩
  rintro ⟨p, hfeed, hvalue, -⟩
  have hparsed : ((Parser.init.feed reopenedMap.events).toOption.bind fun p =>
      (p.value.get? "x86").bind (·.get? "486")) = some ["tsc"] := by decide
  have hmeant : (reopenedMap.cpus.get? "x86").bind (·.get? "486") = some ["fpu", "tsc"] := by decide
  rw [hfeed] at hparsed
  have hsame : (p.value.get? "x86").bind (·.get? "486") = some ["tsc"] := hparsed
  rw [hvalue, hmeant] at hsame
  exact absurd hsame (by decide)

end TpQemu.CpuFlags
