import TpQemu.Qsd.Identities

/-!
# Exports over NBD

An image exported over NBD with a unix socket. What the daemon is started with comes from a
template whose fields are to be replaced, first by values made from the name of the image and
then by those of the parameters. The socket of the template has a text as its path, so that the
test for a missing path never finds one.
-/

namespace TpQemu.Qsd

variable {P V : Type} {env : Env P V}

/-! ## Complete descriptions -/

/-- A value of the template that stands for another one. -/
def Placeholder (v : Json) : Prop := v = .str "tbd" ∨ v = .str ""

/-- No field has the value left that stands for another one in the template. -/
def Filled (raw d : Props) : Prop :=
  ∀ k v, raw.get? k = some v → Placeholder v → d.get? k ≠ some v

/-- The path of the socket, for the path that the parameters give. -/
def nbdPath (self : QsdDaemonDev P) (name : String) (configured : Option Json) : Json :=
  match configured with
  | some p =>
      if p.truthy then p
      else .str (self.basedir ++ "/" ++ self.name ++ "_nbd_" ++ name ++ ".sock")
  | none => .str (self.basedir ++ "/" ++ self.name ++ "_nbd_" ++ name ++ ".sock")

/-- The descriptions put on the command line are complete. -/
structure Complete (daemon : QsdDaemonDev P) (name : String) (configured : Option Json)
    (img : ImageData) : Prop where
  path : img.nbdServerAddr.get? "path" = some (nbdPath daemon name configured)
  protocol : Filled rawImageData.protocol img.protocol
  format : Filled rawImageData.format img.format
  exportProps : Filled rawImageData.exportProps img.exportProps
  nbdServer : Filled rawImageData.unix img.nbdServerAddr

/-! ## Images exported so -/

/-- An image that is exported over NBD with a unix socket, with what the parameters give for it;
the code outside the repository does what it is asked for. -/
structure NbdImage (env : Env P V) (name : String) (params : P) where
  filename : String
  protocol : Props
  format : Props
  filter : Props
  exportProps : Props
  filename_eq : env.getImageFilename params = .ok filename
  protocol_eq : imageProps env params "qsd_image_protocol" = .ok protocol
  format_eq : imageProps env params "qsd_image_format" = .ok format
  filter_eq : imageProps env params "qsd_image_filter" = .ok filter
  exportProps_eq : imageProps env params "qsd_image_export" = .ok exportProps
  type_eq : exportProps.get? "type" = some (.str "nbd")
  unix : ∀ text, env.get params "qsd_image_export_nbd" = some text →
    ∃ addr, env.loads text = .ok addr ∧ addr.get? "type" = some (.str "unix")
  /-- A text without its closing brace is not a JSON text. -/
  malformed : ∃ e, env.loads "\x7b\"type\":\"unix\"" = .error e
  images : ∃ images, env.get params "images" = some images
  qemuImg : env.qemuImg params name = .ok ()
  create : env.create params name = .ok 0

/-- The path that the parameters give. -/
def configuredPath (env : Env P V) (params : P) : Option Json :=
  match env.get params "qsd_image_export_nbd" with
  | none => none
  | some text =>
      match env.loads text with
      | .ok addr => addr.get? "path"
      | .error _ => none

namespace NbdImage

variable {name : String} {params : P} (x : NbdImage env name params)

/-- The node that is exported, unless the parameters give it another name. -/
def exported : Json :=
  if ((x.filter.get? "driver").getD .null).truthy then
    (x.filter.get? "node-name").getD (.str ("flt_" ++ name))
  else (x.format.get? "node-name").getD (.str ("fmt_" ++ name))

/-- The parameters give a path that does not stand for another one, and nowhere else a value
that does. -/
structure Given : Prop where
  path : ∃ p, configuredPath env params = some p ∧ p ≠ .str "tbd"
  protocolName : x.protocol.get? "node-name" ≠ some (.str "tbd")
  filename : (x.protocol.get? "filename").getD (.str x.filename) ≠ .str "tbd"
  formatName : x.format.get? "node-name" ≠ some (.str "tbd")
  formatFile : x.format.get? "file" ≠ some (.str "tbd")
  exportId : x.exportProps.get? "id" ≠ some (.str "")
  exportName : (x.exportProps.get? "node-name").getD x.exported ≠ .str ""

end NbdImage

/-! ## The fields that stand for others -/

theorem filled_iff {raw d : Props} :
    Filled raw d ↔ ∀ p ∈ raw.entries, Placeholder p.2 → d.get? p.1 ≠ some p.2 := by
  constructor
  · rintro h ⟨k, v⟩ hmem
    exact h k v (Dict.get?_eq_some_iff.mpr hmem)
  · intro h k v hget
    exact h (k, v) (Dict.get?_eq_some_iff.mp hget)

section Fields

variable {d : Props}

theorem filled_protocol_iff : Filled rawImageData.protocol d ↔
    d.get? "node-name" ≠ some (.str "tbd") ∧ d.get? "filename" ≠ some (.str "tbd") := by
  rw [filled_iff]
  simp [rawImageData, Dict.set, Dict.setEntries, Placeholder]

theorem filled_format_iff : Filled rawImageData.format d ↔
    d.get? "node-name" ≠ some (.str "tbd") ∧ d.get? "file" ≠ some (.str "tbd") := by
  rw [filled_iff]
  simp [rawImageData, Dict.set, Dict.setEntries, Placeholder]

theorem filled_exportProps_iff : Filled rawImageData.exportProps d ↔
    d.get? "type" ≠ some (.str "") ∧ d.get? "id" ≠ some (.str "") ∧
      d.get? "node-name" ≠ some (.str "") := by
  rw [filled_iff]
  simp [rawImageData, Dict.set, Dict.setEntries, Placeholder]

theorem filled_unix_iff : Filled rawImageData.unix d ↔ d.get? "path" ≠ some (.str "tbd") := by
  rw [filled_iff]
  simp [rawImageData, Dict.set, Dict.setEntries, Placeholder]

/-- A field that has a value, unless the parameters give another one. -/
theorem get?_update_some {base e : Props} {k : String} {v : Json} (h : base.get? k = some v) :
    (base.update e).get? k = some ((e.get? k).getD v) := by
  rw [Dict.get?_update, h]
  cases e.get? k <;> rfl

end Fields

/-- A value that is made from a name does not stand for another one. -/
theorem getD_ne_iff {o : Option Json} {v w : Json} (h : v ≠ w) : o.getD v ≠ w ↔ o ≠ some w := by
  cases o with
  | none => simp [h]
  | some u => simp

/-! ## What the daemon is started with -/

namespace NbdImage

variable {name : String} {params : P} (x : NbdImage env name params)

/-- The block nodes, before the export. -/
structure Nodes (img : ImageData) : Prop where
  protocolName : img.protocol.get? "node-name" =
    some ((x.protocol.get? "node-name").getD (.str ("prot_" ++ name)))
  filename : img.protocol.get? "filename" =
    some ((x.protocol.get? "filename").getD (.str x.filename))
  formatName : img.format.get? "node-name" =
    some ((x.format.get? "node-name").getD (.str ("fmt_" ++ name)))
  formatFile : img.format.get? "file" =
    some ((x.format.get? "file").getD (.str ("prot_" ++ name)))
  filterName : img.filter.get? "node-name" =
    some ((x.filter.get? "node-name").getD (.str ("flt_" ++ name)))
  filterDriver : img.filter.get? "driver" = some ((x.filter.get? "driver").getD .null)
  unix : img.unix = rawImageData.unix
  nbdServerAddr : img.nbdServerAddr = ∅

/-- The export, before the address. -/
structure Exported (img : ImageData) : Prop extends x.Nodes img where
  type : img.exportProps.get? "type" = some (.str "nbd")
  exportId : img.exportProps.get? "id" =
    some ((x.exportProps.get? "id").getD (.str ("id_" ++ name)))
  exportName : img.exportProps.get? "node-name" =
    some ((x.exportProps.get? "node-name").getD x.exported)

theorem exists_nodes : ∃ img, fulfilNodes env name params = .ok img ∧ x.Nodes img := by
  rw [fulfilNodes, bind_of_eq_ok x.filename_eq, bind_of_eq_ok x.protocol_eq,
    bind_of_eq_ok x.format_eq, bind_of_eq_ok x.filter_eq]
  refine ⟨_, rfl, ?_, ?_, ?_, ?_, ?_, ?_, rfl, rfl⟩
  · exact get?_update_some rfl
  · exact get?_update_some rfl
  · exact get?_update_some rfl
  · exact get?_update_some rfl
  · exact get?_update_some rfl
  · exact get?_update_some rfl

variable {x} in
theorem Nodes.exported_eq {img : ImageData} (h : x.Nodes img) :
    valueAt (if (valueAt img.filter "driver").truthy then img.filter else img.format)
      "node-name" = x.exported := by
  rw [valueAt, valueAt, h.filterDriver, exported, Option.getD_some]
  split
  · rw [h.filterName, Option.getD_some]
  · rw [h.formatName, Option.getD_some]

variable {x} in
theorem Nodes.exists_exported {img : ImageData} (h : x.Nodes img) :
    ∃ img', fulfilExport env name params img = .ok img' ∧ x.Exported img' := by
  rw [fulfilExport, bind_of_eq_ok x.exportProps_eq]
  refine ⟨_, rfl, ⟨h.protocolName, h.filename, h.formatName, h.formatFile, h.filterName,
    h.filterDriver, h.unix, h.nbdServerAddr⟩, ?_, ?_, ?_⟩
  · rw [Dict.get?_update, x.type_eq]
    rfl
  · refine get?_update_some ?_
    rw [Dict.get?_set_ne _ (by decide), Dict.get?_set_self]
  · refine get?_update_some ?_
    rw [Dict.get?_set_self, h.exported_eq]

include x in
/-- The default is not a JSON text. -/
theorem fulfilNbd_of_none (hnone : env.get params "qsd_image_export_nbd" = none)
    (self : QsdDaemonDev P) (img : ImageData) :
    ∃ e, fulfilNbd env self name params img = .error e := by
  obtain ⟨e, he⟩ := x.malformed
  refine ⟨e, ?_⟩
  rw [fulfilNbd, hnone, Option.getD_none, he]
  rfl

theorem updateSection_unix (img : ImageData) {addr : Props}
    (htype : addr.get? "type" = some (.str "unix")) :
    img.updateSection addr =
      .ok ({ img with unix := img.unix.update addr }, img.unix.update addr) := by
  rw [ImageData.updateSection, htype]
  rfl

/-- The path that is left: where the parameters give none, that of the template. -/
def leftPath (self : QsdDaemonDev P) (name : String) (configured : Option Json) : Json :=
  match configured with
  | some p => nbdPath self name (some p)
  | none => .str "tbd"

variable {x} in
theorem Exported.fulfilNbd_of_some {img : ImageData} (h : x.Exported img)
    (self : QsdDaemonDev P) {text : String} {addr : Props}
    (htext : env.get params "qsd_image_export_nbd" = some text) (hloads : env.loads text = .ok addr)
    (htype : addr.get? "type" = some (.str "unix")) :
    ∃ img', fulfilNbd env self name params img = .ok img' ∧
      img'.protocol = img.protocol ∧ img'.format = img.format ∧
      (∀ k, k ≠ "name" → img'.exportProps.get? k = img.exportProps.get? k) ∧
      img'.nbdServerAddr.get? "path" = some (leftPath self name (addr.get? "path")) := by
  have hpath : (img.unix.update addr).get? "path" =
      some ((addr.get? "path").getD (.str "tbd")) := by
    rw [h.unix]
    exact get?_update_some rfl
  rw [fulfilNbd, htext, Option.getD_some, bind_of_eq_ok hloads,
    bind_of_eq_ok (updateSection_unix _ htype), htype]
  refine ⟨_, rfl, rfl, rfl, fun k hk => Dict.get?_set_ne _ hk _, ?_⟩
  dsimp only
  rw [h.nbdServerAddr, Dict.get?_update, Dict.get?_empty, Option.or_none, valueAt, hpath,
    Option.getD_some]
  cases hp : addr.get? "path" with
  | none =>
      rw [hp] at hpath
      rw [Option.getD_none, if_pos (by decide)]
      exact hpath
  | some p =>
      rw [hp] at hpath
      rw [Option.getD_some, leftPath, nbdPath]
      split
      · exact hpath
      · exact Dict.get?_set_self _ _ _

/-! ## The whole function -/

include x in
theorem exists_prepareImage : ∃ imageObject, prepareImage env name params = .ok imageObject := by
  obtain ⟨images, himages⟩ := x.images
  rw [prepareImage, himages]
  dsimp only
  split
  · exact ⟨false, rfl⟩
  · rw [bind_of_eq_ok x.qemuImg]
    split
    · rw [bind_of_eq_ok x.create]
      exact ⟨true, rfl⟩
    · exact ⟨true, rfl⟩

include x in
/-- Without an address the function raises. -/
theorem fulfilImageProps_of_none (hnone : env.get params "qsd_image_export_nbd" = none)
    (self : QsdDaemonDev P) :
    ∃ e, self.fulfilImageProps env name params = .error e := by
  obtain ⟨nodes, hnodes, hn⟩ := x.exists_nodes
  obtain ⟨img, himg, himg'⟩ := hn.exists_exported
  obtain ⟨e, he⟩ := x.fulfilNbd_of_none hnone self img
  have htype : valueAt img.exportProps "type" = .str "nbd" := by
    rw [valueAt, himg'.type, Option.getD_some]
  refine ⟨e, ?_⟩
  rw [QsdDaemonDev.fulfilImageProps, bind_of_eq_ok hnodes, bind_of_eq_ok himg, htype]
  dsimp only
  rw [he]
  rfl

/-- With an address it returns, with every field as the parameters and the template say. -/
theorem fulfilImageProps_of_some {text : String} {addr : Props}
    (htext : env.get params "qsd_image_export_nbd" = some text) (hloads : env.loads text = .ok addr)
    (htype : addr.get? "type" = some (.str "unix")) (self : QsdDaemonDev P) :
    ∃ img self', self.fulfilImageProps env name params = .ok (img, self') ∧
      (∃ img₀, x.Exported img₀ ∧ img.protocol = img₀.protocol ∧ img.format = img₀.format ∧
        ∀ k, k ≠ "name" → img.exportProps.get? k = img₀.exportProps.get? k) ∧
      img.nbdServerAddr.get? "path" = some (leftPath self name (addr.get? "path")) := by
  obtain ⟨nodes, hnodes, hn⟩ := x.exists_nodes
  obtain ⟨img₀, himg₀, hexported⟩ := hn.exists_exported
  obtain ⟨img, himg, hprotocol, hformat, hexport, hpath⟩ :=
    hexported.fulfilNbd_of_some self htext hloads htype
  obtain ⟨imageObject, hprepare⟩ := x.exists_prepareImage
  have htype : valueAt img₀.exportProps "type" = .str "nbd" := by
    rw [valueAt, hexported.type, Option.getD_some]
  rw [QsdDaemonDev.fulfilImageProps, bind_of_eq_ok hnodes, bind_of_eq_ok himg₀, htype]
  dsimp only
  rw [bind_of_eq_ok himg, bind_of_eq_ok hprepare]
  exact ⟨_, _, rfl, ⟨img₀, hexported, hprotocol, hformat, hexport⟩, hpath⟩

end NbdImage

/-- The function returns complete descriptions. -/
def Completes (env : Env P V) (self : QsdDaemonDev P) (name : String) (params : P) : Prop :=
  ∃ img self', self.fulfilImageProps env name params = .ok (img, self') ∧
    Complete self name (configuredPath env params) img

/-- A path that is made from names does not stand for another one. -/
theorem sock_ne (s : String) : s ++ ".sock" ≠ "tbd" := by
  intro h
  have hlength := congrArg (fun t : String => t.toList.length) h
  simp at hlength

/-- The path is as it should be exactly if the parameters give one. -/
theorem leftPath_iff (self : QsdDaemonDev P) (name : String) (configured : Option Json) :
    (NbdImage.leftPath self name configured = nbdPath self name configured ∧
      NbdImage.leftPath self name configured ≠ .str "tbd") ↔
      ∃ p, configured = some p ∧ p ≠ .str "tbd" := by
  cases configured with
  | none => simp [NbdImage.leftPath]
  | some p =>
      simp only [NbdImage.leftPath, true_and, Option.some.injEq, exists_eq_left']
      rw [nbdPath]
      constructor
      · rintro h rfl
        exact h rfl
      · intro h
        split
        · exact h
        · exact fun hsock => sock_ne _ (Json.str.inj hsock)

/-- The descriptions made from the fields of an export are complete exactly if the parameters
give what is missing. -/
theorem NbdImage.Exported.complete_iff {name : String} {params : P} {x : NbdImage env name params}
    {img₀ img : ImageData} (h : x.Exported img₀) (hprotocol : img.protocol = img₀.protocol)
    (hformat : img.format = img₀.format)
    (hexport : ∀ k, k ≠ "name" → img.exportProps.get? k = img₀.exportProps.get? k)
    {self : QsdDaemonDev P} (hpath : img.nbdServerAddr.get? "path" =
      some (NbdImage.leftPath self name (configuredPath env params))) :
    Complete self name (configuredPath env params) img ↔ x.Given := by
  have hfmt : Json.str ("fmt_" ++ name) ≠ .str "tbd" := by simp [String.ext_iff]
  have hprot : Json.str ("prot_" ++ name) ≠ .str "tbd" := by simp [String.ext_iff]
  have hid : Json.str ("id_" ++ name) ≠ .str "" := by simp [String.ext_iff]
  have hsome : ∀ {v w : Json}, some v ≠ some w ↔ v ≠ w := fun {v w} => by simp
  have hprotocol' : Filled rawImageData.protocol img.protocol ↔
      x.protocol.get? "node-name" ≠ some (.str "tbd") ∧
        (x.protocol.get? "filename").getD (.str x.filename) ≠ .str "tbd" := by
    rw [filled_protocol_iff, hprotocol, h.protocolName, h.filename, hsome, hsome, getD_ne_iff hprot]
  have hformat' : Filled rawImageData.format img.format ↔
      x.format.get? "node-name" ≠ some (.str "tbd") ∧
        x.format.get? "file" ≠ some (.str "tbd") := by
    rw [filled_format_iff, hformat, h.formatName, h.formatFile, hsome, hsome, getD_ne_iff hfmt,
      getD_ne_iff hprot]
  have hexport' : Filled rawImageData.exportProps img.exportProps ↔
      x.exportProps.get? "id" ≠ some (.str "") ∧
        (x.exportProps.get? "node-name").getD x.exported ≠ .str "" := by
    rw [filled_exportProps_iff, hexport _ (by decide), hexport _ (by decide),
      hexport _ (by decide), h.type, h.exportId, h.exportName, hsome, hsome, hsome,
      getD_ne_iff hid]
    simp
  have hleft := leftPath_iff self name (configuredPath env params)
  constructor
  · intro hc
    obtain ⟨hprotocolName, hfilename⟩ := hprotocol'.mp hc.protocol
    obtain ⟨hformatName, hformatFile⟩ := hformat'.mp hc.format
    obtain ⟨hexportId, hexportName⟩ := hexport'.mp hc.exportProps
    have hne := filled_unix_iff.mp hc.nbdServer
    rw [hpath, hsome] at hne
    have heq := hc.path
    rw [hpath] at heq
    exact ⟨hleft.mp ⟨Option.some.inj heq, hne⟩, hprotocolName, hfilename, hformatName,
      hformatFile, hexportId, hexportName⟩
  · intro hg
    obtain ⟨heq, hne⟩ := hleft.mpr hg.path
    refine ⟨?_, hprotocol'.mpr ⟨hg.protocolName, hg.filename⟩,
      hformat'.mpr ⟨hg.formatName, hg.formatFile⟩, hexport'.mpr ⟨hg.exportId, hg.exportName⟩, ?_⟩
    · rw [hpath, heq]
    · rw [filled_unix_iff, hpath, hsome]
      exact hne

/-- The descriptions of an image exported over NBD with a unix socket are complete exactly if
the parameters give a path, and nowhere a value that stands for another one. -/
theorem completes_iff_given {name : String} {params : P} (x : NbdImage env name params)
    (self : QsdDaemonDev P) : Completes env self name params ↔ x.Given := by
  cases htext : env.get params "qsd_image_export_nbd" with
  | none =>
      have hconfigured : configuredPath env params = none := by rw [configuredPath, htext]
      constructor
      · rintro ⟨img, self', hok, -⟩
        obtain ⟨e, he⟩ := x.fulfilImageProps_of_none htext self
        rw [he] at hok
        cases hok
      · rintro ⟨⟨p, hp, -⟩, -⟩
        rw [hconfigured] at hp
        cases hp
  | some text =>
      obtain ⟨addr, hloads, htype⟩ := x.unix text htext
      have hconfigured : configuredPath env params = addr.get? "path" := by
        simp only [configuredPath, htext, hloads]
      obtain ⟨img, self', hok, ⟨img₀, h, hprotocol, hformat, hexport⟩, hpath⟩ :=
        x.fulfilImageProps_of_some htext hloads htype self
      rw [← hconfigured] at hpath
      rw [← h.complete_iff hprotocol hformat hexport hpath, Completes, hok]
      simp

/-! ## Images with and without a path -/

/-- Parameters are a dictionary; of the JSON texts those in use are known. -/
def smallEnv : Env (Dict String String) Unit where
  objectParams := fun params _ => params
  get := fun params key => params.get? key
  set := fun params key value => params.set key value
  dataDir := "/data"
  loads := fun text =>
    if text = noProps then .ok ∅
    else if text = "\x7b\"type\":\"nbd\"\x7d" then .ok ((∅ : Props).set "type" (.str "nbd"))
    else if text = "\x7b\"type\":\"unix\"\x7d" then .ok ((∅ : Props).set "type" (.str "unix"))
    else if text = "\x7b\"type\":\"unix\",\"path\":\"/tmp/nbd.sock\"\x7d" then
      .ok (((∅ : Props).set "type" (.str "unix")).set "path" (.str "/tmp/nbd.sock"))
    else .error .raised
  getImageFilename := fun _ => .ok "/data/images/stg.raw"
  qemuImg := fun _ _ => .ok ()
  create := fun _ _ => .ok 0
  getByQid := fun _ _ => false
  insert := fun vm _ => vm

def nbdParams : Dict String String :=
  (((∅ : Dict String String).set "images" "stg").set "qsd_image_export"
    "\x7b\"type\":\"nbd\"\x7d")

def pathParams : Dict String String :=
  nbdParams.set "qsd_image_export_nbd" "\x7b\"type\":\"unix\",\"path\":\"/tmp/nbd.sock\"\x7d"

def plainParams : Dict String String :=
  nbdParams.set "qsd_image_export_nbd" "\x7b\"type\":\"unix\"\x7d"

def daemon : QsdDaemonDev (Dict String String) := ⟨"qsd1", "/data/qsd/qsd1", ∅, ∅⟩

/-- An image of which the parameters give the type of the export and the address at most. -/
def nbdImage {params : Dict String String}
    (hprops : ∀ key ∈ ["qsd_image_protocol", "qsd_image_format", "qsd_image_filter"],
      imageProps smallEnv params key = .ok ∅)
    (himages : params.get? "images" = some "stg")
    (hexport : imageProps smallEnv params "qsd_image_export" =
      .ok ((∅ : Props).set "type" (.str "nbd")))
    (hunix : ∀ text, params.get? "qsd_image_export_nbd" = some text →
      ∃ addr, smallEnv.loads text = .ok addr ∧ addr.get? "type" = some (.str "unix")) :
    NbdImage smallEnv "stg" params where
  filename := "/data/images/stg.raw"
  protocol := ∅
  format := ∅
  filter := ∅
  exportProps := (∅ : Props).set "type" (.str "nbd")
  filename_eq := rfl
  protocol_eq := hprops _ (by simp)
  format_eq := hprops _ (by simp)
  filter_eq := hprops _ (by simp)
  exportProps_eq := hexport
  type_eq := rfl
  unix := hunix
  malformed := ⟨_, rfl⟩
  images := ⟨_, himages⟩
  qemuImg := rfl
  create := rfl

def pathImage : NbdImage smallEnv "stg" pathParams :=
  nbdImage (by simp only [List.forall_mem_cons]; exact ⟨rfl, rfl, rfl, by simp⟩) rfl rfl
    (by rintro text ⟨⟩; exact ⟨_, rfl, rfl⟩)

def plainImage : NbdImage smallEnv "stg" plainParams :=
  nbdImage (by simp only [List.forall_mem_cons]; exact ⟨rfl, rfl, rfl, by simp⟩) rfl rfl
    (by rintro text ⟨⟩; exact ⟨_, rfl, rfl⟩)

def absentImage : NbdImage smallEnv "stg" nbdParams :=
  nbdImage (by simp only [List.forall_mem_cons]; exact ⟨rfl, rfl, rfl, by simp⟩) rfl rfl
    (by rintro text ⟨⟩)

/-- With a path the descriptions are complete. -/
theorem completes_with_path : Completes smallEnv daemon "stg" pathParams := by
  refine (completes_iff_given pathImage daemon).mpr ⟨⟨.str "/tmp/nbd.sock", rfl, by simp⟩,
    by simp [pathImage, nbdImage], by simp [pathImage, nbdImage], by simp [pathImage, nbdImage],
    by simp [pathImage, nbdImage], ?_, ?_⟩
  · exact fun h => absurd h (by simp [pathImage, nbdImage, Dict.get?_set])
  · have hname : pathImage.exportProps.get? "node-name" = none := rfl
    have hexported : pathImage.exported = .str "fmt_stg" := rfl
    rw [hname, hexported]
    simp

/-- Without a path that of the template is left. -/
theorem template_path_left : ¬Completes smallEnv daemon "stg" plainParams := by
  rintro ⟨img, self', hok, hcomplete⟩
  have hloads : smallEnv.loads "\x7b\"type\":\"unix\"\x7d" =
      .ok ((∅ : Props).set "type" (.str "unix")) := rfl
  obtain ⟨img', self'', hok', -, hpath⟩ :=
    plainImage.fulfilImageProps_of_some rfl hloads rfl daemon
  obtain ⟨rfl, -⟩ := Prod.mk.inj (Except.ok.inj (hok.symm.trans hok'))
  exact filled_unix_iff.mp hcomplete.nbdServer hpath

/-- Both without a path and without an address the descriptions are not complete. -/
theorem no_path_not_complete :
    (Nonempty (NbdImage smallEnv "stg" plainParams) ∧
      ¬Completes smallEnv daemon "stg" plainParams) ∧
    Nonempty (NbdImage smallEnv "stg" nbdParams) ∧
      ¬Completes smallEnv daemon "stg" nbdParams := by
  refine ⟨⟨⟨plainImage⟩, template_path_left⟩, ⟨absentImage⟩, ?_⟩
  rintro ⟨img, self', hok, -⟩
  obtain ⟨e, he⟩ := absentImage.fulfilImageProps_of_none rfl daemon
  rw [he] at hok
  cases hok

end TpQemu.Qsd
