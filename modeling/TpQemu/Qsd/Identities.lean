import TpQemu.Lib.Python
import TpQemu.Qsd.Images

/-!
# Names and socket paths of the images of one daemon

The VM finds an image of a daemon by the path of its socket, and all devices, block nodes and
exports by their names. The paths always agree and are always different. But the socket
device of the VM is named after the daemon and not after the image.
-/

namespace TpQemu.Qsd

variable {P V : Type} {env : Env P V}

/-! ## Texts -/

theorem ne_empty_of_mem_split {s w : String} (h : w ∈ split s) : w ≠ "" := by
  obtain ⟨cs, hcs, rfl⟩ := List.mem_map.mp h
  intro hempty
  have hnil := congrArg String.toList hempty
  rw [String.toList_ofList] at hnil
  exact Text.ne_nil_of_mem_wordsFrom hcs hnil

/-- Texts that differ at a position of the two prefixes. -/
theorem append_ne_append {a b : String} (n : Nat) (ha : n < a.toList.length)
    (hb : n < b.toList.length) (h : a.toList[n]? ≠ b.toList[n]?) (s t : String) :
    a ++ s ≠ b ++ t := by
  intro heq
  have hat := congrArg (fun r => r.toList[n]?) heq
  simp only [String.toList_append] at hat
  rw [List.getElem?_append_left ha, List.getElem?_append_left hb] at hat
  exact h hat

theorem imgSock_injective {basedir q a b : String} (h : imgSock basedir q a = imgSock basedir q b) :
    a = b := by
  rw [imgSock, imgSock, String.append_left_inj, String.append_right_inj] at h
  exact h

/-! ## The two functions on an exported image -/

/-- The parameters of an image, as the daemon reads them. -/
def imageParams (env : Env P V) (params : P) (q image : String) : P :=
  env.objectParams (QsdDaemonDev.init env q params).qsdParams image

/-- An image that the daemon `q`, and no other one, exports as vhost-user-blk, with what the
daemon and the VM make of it. -/
structure Export (env : Env P V) (params : P) (q : String) where
  image : String
  driveFormat : env.get params ("drive_format_" ++ image) = some "vhost-user-blk-pci"
  namespaces : String
  namespaces_eq : env.get params "qsd_namespaces" = some namespaces
  daemon_mem : q ∈ split namespaces
  image_mem : image ∈ qsdImages env (env.objectParams params q)
  only : ∀ q' ∈ split namespaces, image ∈ qsdImages env (env.objectParams params q') → q' = q
  exportProps : Props
  exportProps_eq :
    imageProps env (imageParams env params q image) "qsd_image_export" = .ok exportProps
  type_eq : exportProps.get? "type" = some (.str "vhost-user-blk")
  /-- The images the daemon has been given before. -/
  images : Dict String ImageData
  data : ImageData
  daemon : QsdDaemonDev P
  fulfilled : QsdDaemonDev.fulfilImageProps env
    { QsdDaemonDev.init env q params with images := images } image
    (imageParams env params q image) = .ok (data, daemon)
  vm : Option V
  bus : Option (Dict String String)
  vmAfter : Option V
  devices : List Device
  created : createVubpDevices env vm image params bus = .ok (vmAfter, devices)

/-- The path of the socket in an export. -/
def ImageData.exportPath (img : ImageData) : Option Json :=
  match img.exportProps.get? "addr" with
  | some (.obj es) => es.lookup "path"
  | _ => none

def ImageData.nodeNames (img : ImageData) : List Json :=
  [valueAt img.protocol "node-name", valueAt img.format "node-name", valueAt img.filter "node-name"]

def ImageData.exportId (img : ImageData) : Json := valueAt img.exportProps "id"

/-- The value at a key, where the parameters may give another one. -/
theorem valueAt_update (d e : Props) (k : String) :
    valueAt (d.update e) k = (e.get? k).getD (valueAt d k) := by
  rw [valueAt, valueAt, Dict.get?_update]
  cases e.get? k <;> rfl

theorem valueAt_set_ne (d : Props) {k k' : String} (h : k' ≠ k) (v : Json) :
    valueAt (d.set k v) k' = valueAt d k' := by
  rw [valueAt, valueAt, Dict.get?_set_ne d h]

/-- The names of the block nodes, where the parameters do not give others. -/
theorem fulfilNodes_spec {name : String} {params : P} {img : ImageData}
    (h : fulfilNodes env name params = .ok img) :
    ∃ protocol format filter, imageProps env params "qsd_image_protocol" = .ok protocol ∧
      imageProps env params "qsd_image_format" = .ok format ∧
      imageProps env params "qsd_image_filter" = .ok filter ∧
      valueAt img.protocol "node-name" =
        (protocol.get? "node-name").getD (.str ("prot_" ++ name)) ∧
      valueAt img.format "node-name" = (format.get? "node-name").getD (.str ("fmt_" ++ name)) ∧
      valueAt img.filter "node-name" = (filter.get? "node-name").getD (.str ("flt_" ++ name)) := by
  obtain ⟨filename, -, h⟩ := ok_of_bind_eq_ok h
  obtain ⟨protocol, hprotocol, h⟩ := ok_of_bind_eq_ok h
  obtain ⟨format, hformat, h⟩ := ok_of_bind_eq_ok h
  obtain ⟨filter, hfilter, h⟩ := ok_of_bind_eq_ok h
  obtain rfl := Except.ok.inj h
  refine ⟨protocol, format, filter, hprotocol, hformat, hfilter, ?_, ?_, ?_⟩
  · rw [valueAt_update]
    rfl
  · rw [valueAt_update]
    rfl
  · rw [valueAt_update]
    rfl

/-- The identifier and the type of the export; the block nodes stay. -/
theorem fulfilExport_spec {name : String} {params : P} {img img' : ImageData} {props : Props}
    (hprops : imageProps env params "qsd_image_export" = .ok props)
    (h : fulfilExport env name params img = .ok img') :
    img'.exportId = (props.get? "id").getD (.str ("id_" ++ name)) ∧
      valueAt img'.exportProps "type" =
        (props.get? "type").getD (valueAt img.exportProps "type") ∧
      img'.nodeNames = img.nodeNames := by
  obtain ⟨props', hprops', h⟩ := ok_of_bind_eq_ok h
  obtain rfl := Except.ok.inj (hprops.symm.trans hprops')
  obtain rfl := Except.ok.inj h
  refine ⟨?_, ?_, rfl⟩
  · rw [ImageData.exportId, valueAt_update, valueAt_set_ne _ (by decide), valueAt,
      Dict.get?_set_self]
    rfl
  · rw [valueAt_update, valueAt_set_ne _ (by decide), valueAt_set_ne _ (by decide)]

namespace Export

variable {params : P} {q : String} (e : Export env params q)

theorem getQsdNameByImage_eq : getQsdNameByImage env e.image params = .ok (some q) := by
  have hfind : (split e.namespaces).find? (fun qsd =>
      e.image ∈ qsdImages env (env.objectParams params qsd)) = some q := by
    cases hfound : (split e.namespaces).find? (fun qsd =>
        e.image ∈ qsdImages env (env.objectParams params qsd)) with
    | none =>
        have hnot := List.find?_eq_none.mp hfound q e.daemon_mem
        exact absurd (decide_eq_true e.image_mem) hnot
    | some q' =>
        have hmem := List.mem_of_find?_eq_some hfound
        have himage := List.find?_some hfound
        rw [e.only q' hmem (of_decide_eq_true himage)]
  rw [getQsdNameByImage, e.driveFormat, if_neg (not_not_intro rfl), e.namespaces_eq]
  simp only [hfind, Option.getD_some]

/-- The path both sides are about. -/
def sock : String := imgSock (qsdBasedir env (env.objectParams params q) q) q e.image

/-- What the parameters say about the device of the VM. -/
def vubpProps : Except Error Props :=
  env.loads ((env.get params ("image_vubp_props_" ++ e.image)).getD noProps)

theorem devices_spec : ∃ props bus, e.vubpProps = .ok props ∧
    e.devices = [charDevice q e.sock, vubpDevice e.image (charDevice q e.sock) props bus] := by
  have h := e.created
  rw [createVubpDevices, bind_of_eq_ok e.getQsdNameByImage_eq] at h
  dsimp only [Option.getD_some] at h
  rw [if_neg (ne_empty_of_mem_split e.daemon_mem)] at h
  obtain ⟨props, hprops, h⟩ := ok_of_bind_eq_ok h
  have hdevices := (Prod.ext_iff.mp (Except.ok.inj h)).2
  exact ⟨props, _, hprops, hdevices.symm⟩

/-- The data of the image: its nodes, its export and the address of its export. -/
theorem data_spec : ∃ nodes exported imageObject,
    fulfilNodes env e.image (imageParams env params q e.image) = .ok nodes ∧
      fulfilExport env e.image (imageParams env params q e.image) nodes = .ok exported ∧
      e.data = { fulfilVhostUser { QsdDaemonDev.init env q params with images := e.images }
        e.image exported with imageObject := imageObject } := by
  obtain ⟨nodes, hnodes, h⟩ := ok_of_bind_eq_ok e.fulfilled
  obtain ⟨exported, hexported, h⟩ := ok_of_bind_eq_ok h
  have htype : valueAt exported.exportProps "type" = .str "vhost-user-blk" := by
    rw [(fulfilExport_spec e.exportProps_eq hexported).2.1, e.type_eq]
    rfl
  rw [htype] at h
  obtain ⟨img, himg, h⟩ := ok_of_bind_eq_ok h
  obtain rfl := Except.ok.inj himg
  obtain ⟨imageObject, -, h⟩ := ok_of_bind_eq_ok h
  have hdata := (Prod.ext_iff.mp (Except.ok.inj h)).1
  exact ⟨nodes, exported, imageObject, hnodes, hexported, hdata.symm⟩

/-- The daemon puts the path into the export. -/
theorem exportPath_eq : e.data.exportPath = some (.str e.sock) := by
  obtain ⟨nodes, exported, imageObject, -, -, hdata⟩ := e.data_spec
  have haddr : e.data.exportProps.get? "addr" = some (.obj
      (exported.unix.set "path" (.str e.sock)).entries) := by
    rw [hdata]
    exact Dict.get?_set_self _ _ _
  rw [ImageData.exportPath, haddr]
  exact Dict.get?_set_self _ _ _

/-- The identifier of the socket device is that of the daemon. -/
theorem charDevice_getQid (path : String) :
    (charDevice q path).getQid = .str ("char_qsd_" ++ q) := by
  rw [Device.getQid, charDevice]
  dsimp only
  rw [Dict.get?_set_ne _ (by decide), Dict.get?_set_ne _ (by decide), Dict.get?_set_self]
  rfl

theorem charDevice_path (path : String) :
    (charDevice q path).params.get? "path" = some (.str path) := by
  rw [charDevice]
  dsimp only
  rw [Dict.get?_set_ne _ (by decide), Dict.get?_set_self]

theorem vubpDevice_getQid (image : String) (char : Device) (props : Props)
    (bus : Dict String String) :
    (vubpDevice image char props bus).getQid =
      (props.get? "id").getD (.str ("vubp_" ++ image)) := by
  rw [Device.getQid, vubpDevice]
  dsimp only
  rw [Dict.get?_update, Dict.get?_set_ne _ (by decide), Dict.get?_set_self]
  cases props.get? "id" <;> rfl

end Export

section Images

variable {params : P} {q : String}

/-- The devices of the VM for the images have different identifiers, each socket device has
the path of the export, and the block nodes and exports of different images differ. -/
structure AgreeAndDiffer (es : List (Export env params q)) : Prop where
  ids : (es.flatMap fun e => e.devices.map Device.getQid).Nodup
  paths : ∀ e ∈ es, ∀ d ∈ e.devices, d.driver = "chardev" →
    ∃ path, d.params.get? "path" = some path ∧ e.data.exportPath = some path
  apart : es.Pairwise fun e f => e.data.nodeNames.Disjoint f.data.nodeNames ∧
    e.data.exportId ≠ f.data.exportId ∧ e.data.exportPath ≠ f.data.exportPath

/-- The parameters do not give the device of the VM the identifier of the socket device. -/
def KeepsId (e : Export env params q) : Prop :=
  ∀ props, e.vubpProps = .ok props → props.get? "id" ≠ some (.str ("char_qsd_" ++ q))

/-- The identifiers of the devices for one image. -/
theorem getQids_eq (e : Export env params q) : ∃ props, e.vubpProps = .ok props ∧
    e.devices.map Device.getQid =
      [.str ("char_qsd_" ++ q), (props.get? "id").getD (.str ("vubp_" ++ e.image))] := by
  obtain ⟨props, bus, hprops, hdevices⟩ := e.devices_spec
  refine ⟨props, hprops, ?_⟩
  rw [hdevices, List.map_cons, List.map_cons, Export.charDevice_getQid, Export.vubpDevice_getQid]
  rfl

theorem nodup_getQids_iff (e : Export env params q) :
    (e.devices.map Device.getQid).Nodup ↔ KeepsId e := by
  obtain ⟨props, hprops, hids⟩ := getQids_eq e
  have hfresh : Json.str ("vubp_" ++ e.image) ≠ .str ("char_qsd_" ++ q) := by
    intro h
    exact append_ne_append 0 (by decide) (by decide) (by decide) _ _ (Json.str.inj h)
  have hkeeps : KeepsId e ↔ props.get? "id" ≠ some (.str ("char_qsd_" ++ q)) := by
    constructor
    · intro h
      exact h props hprops
    · intro h props' hprops'
      rwa [← Except.ok.inj (hprops.symm.trans hprops')]
  rw [hids, hkeeps]
  cases hid : props.get? "id" with
  | none => simp [hfresh.symm]
  | some id => simp [eq_comm]

/-- The paths agree for all images. -/
theorem paths_agree (e : Export env params q) : ∀ d ∈ e.devices, d.driver = "chardev" →
    ∃ path, d.params.get? "path" = some path ∧ e.data.exportPath = some path := by
  obtain ⟨props, bus, -, hdevices⟩ := e.devices_spec
  intro d hd hdriver
  rw [hdevices] at hd
  rcases List.mem_cons.mp hd with rfl | hd
  · exact ⟨_, Export.charDevice_path _, e.exportPath_eq⟩
  · rw [List.mem_singleton.mp hd] at hdriver
    have hsame : "vhost-user-blk-pci" = "chardev" := hdriver
    exact absurd hsame (by decide)

/-- The socket devices of two images have the same identifier. -/
theorem length_le_one_of_nodup {es : List (Export env params q)}
    (h : (es.flatMap fun e => e.devices.map Device.getQid).Nodup) : es.length ≤ 1 := by
  match es with
  | [] => exact Nat.zero_le 1
  | [e] => exact le_refl 1
  | e :: f :: es =>
      obtain ⟨_, -, he⟩ := getQids_eq e
      obtain ⟨_, -, hf⟩ := getQids_eq f
      rw [List.flatMap_cons, List.flatMap_cons, he, hf] at h
      simp at h

/-- The devices, block nodes and exports of a list of images are as they should be if and
only if there is at most one image and its device keeps its identifier. -/
theorem agreeAndDiffer_iff (es : List (Export env params q)) :
    AgreeAndDiffer es ↔ es.length ≤ 1 ∧ ∀ e ∈ es, KeepsId e := by
  constructor
  · intro h
    refine ⟨length_le_one_of_nodup h.ids, fun e he => ?_⟩
    rw [← nodup_getQids_iff]
    exact (List.nodup_flatMap.mp h.ids).1 e he
  · rintro ⟨hlength, hkeeps⟩
    match es with
    | [] => exact ⟨List.nodup_nil, fun e he => (nomatch he), List.Pairwise.nil⟩
    | [e] =>
        refine ⟨?_, fun f _ => paths_agree f, List.pairwise_singleton _ _⟩
        rw [List.flatMap_singleton, nodup_getQids_iff]
        exact hkeeps e List.mem_cons_self
    | e :: f :: es =>
        rw [List.length_cons, List.length_cons] at hlength
        omega

/-! ## Many images -/

/-- The parameters give the nodes and the export of the image no names of their own. -/
structure KeepsNames (e : Export env params q) : Prop where
  nodes : ∀ key ∈ ["qsd_image_protocol", "qsd_image_format", "qsd_image_filter"], ∀ props,
    imageProps env (imageParams env params q e.image) key = .ok props →
      props.get? "node-name" = none
  exportId : e.exportProps.get? "id" = none

theorem names_eq {e : Export env params q} (h : KeepsNames e) :
    e.data.nodeNames = [.str ("prot_" ++ e.image), .str ("fmt_" ++ e.image),
      .str ("flt_" ++ e.image)] ∧ e.data.exportId = .str ("id_" ++ e.image) := by
  obtain ⟨nodes, exported, imageObject, hnodes, hexported, hdata⟩ := e.data_spec
  obtain ⟨protocol, format, filter, hprotocol, hformat, hfilter, hprot, hfmt, hflt⟩ :=
    fulfilNodes_spec hnodes
  obtain ⟨hid, -, hnames⟩ := fulfilExport_spec e.exportProps_eq hexported
  rw [h.nodes _ (by simp) _ hprotocol] at hprot
  rw [h.nodes _ (by simp) _ hformat] at hfmt
  rw [h.nodes _ (by simp) _ hfilter] at hflt
  rw [h.exportId] at hid
  constructor
  · calc e.data.nodeNames = exported.nodeNames := by rw [hdata]; rfl
      _ = nodes.nodeNames := hnames
      _ = _ := by rw [ImageData.nodeNames, hprot, hfmt, hflt]; rfl
  · rw [hdata]
    exact (valueAt_set_ne exported.exportProps (by decide) _).trans hid

/-- All but the socket devices differ for different images that keep their names. -/
theorem apart_of_keepsNames {es : List (Export env params q)}
    (hnodup : (es.map Export.image).Nodup) (hnames : ∀ e ∈ es, KeepsNames e) :
    es.Pairwise fun e f => e.data.nodeNames.Disjoint f.data.nodeNames ∧
      e.data.exportId ≠ f.data.exportId ∧ e.data.exportPath ≠ f.data.exportPath := by
  have hpairs : es.Pairwise fun e f => e.image ≠ f.image := List.pairwise_map.mp hnodup
  refine hpairs.imp_of_mem fun {e f} he hf hne => ?_
  obtain ⟨henodes, heid⟩ := names_eq (hnames e he)
  obtain ⟨hfnodes, hfid⟩ := names_eq (hnames f hf)
  rw [henodes, hfnodes, heid, hfid, e.exportPath_eq, f.exportPath_eq]
  refine ⟨?_, ?_, ?_⟩
  · intro x hx hy
    have hsame {p : String} (h : Json.str (p ++ e.image) = .str (p ++ f.image)) : False :=
      hne ((String.append_right_inj p).mp (Json.str.inj h))
    have hother {a b : String} (n : Nat) (ha : n < a.toList.length) (hb : n < b.toList.length)
        (h : a.toList[n]? ≠ b.toList[n]?) (heq : Json.str (a ++ e.image) = .str (b ++ f.image)) :
        False := append_ne_append n ha hb h _ _ (Json.str.inj heq)
    simp only [List.mem_cons, List.not_mem_nil, or_false] at hx hy
    rcases hx with rfl | rfl | rfl <;> rcases hy with h | h | h
    · exact hsame h
    · exact hother 0 (by decide) (by decide) (by decide) h
    · exact hother 0 (by decide) (by decide) (by decide) h
    · exact hother 0 (by decide) (by decide) (by decide) h
    · exact hsame h
    · exact hother 1 (by decide) (by decide) (by decide) h
    · exact hother 0 (by decide) (by decide) (by decide) h
    · exact hother 1 (by decide) (by decide) (by decide) h
    · exact hsame h
  · intro h
    exact hne ((String.append_right_inj _).mp (Json.str.inj h))
  · intro h
    exact hne (imgSock_injective (Json.str.inj (Option.some.inj h)))

end Images

/-! ## Two images -/

/-- The parameters of a test with one daemon and two images. -/
def twoImages : String → Option String
  | "qsd_namespaces" => some "qsd1"
  | "qsd_images_qsd1" => some "stg1 stg2"
  | "qsd_image_export" => some "\x7b\"type\":\"vhost-user-blk\"\x7d"
  | "drive_format_stg1" => some "vhost-user-blk-pci"
  | "drive_format_stg2" => some "vhost-user-blk-pci"
  | "images" => some "image1"
  | _ => none

/-- The parameters as a function, with their `object_params`; the two JSON texts are read. -/
def plainEnv : Env (String → Option String) Unit where
  objectParams := fun params obj key => (params (key ++ "_" ++ obj)).or (params key)
  get := fun params key => params key
  set := fun params key value => Function.update params key (some value)
  dataDir := "/data"
  loads := fun text =>
    if text = noProps then .ok ∅
    else if text = "\x7b\"type\":\"vhost-user-blk\"\x7d" then
      .ok ((∅ : Props).set "type" (.str "vhost-user-blk"))
    else .error .raised
  getImageFilename := fun _ => .ok "/data/images/stg.qcow2"
  qemuImg := fun _ _ => .ok ()
  create := fun _ _ => .ok 0
  getByQid := fun _ _ => true
  insert := fun vm _ => vm

/-- One of the two images, with what the two functions return for it. -/
def plainExport (image : String)
    (driveFormat : twoImages ("drive_format_" ++ image) = some "vhost-user-blk-pci")
    (image_mem : image ∈ qsdImages plainEnv (plainEnv.objectParams twoImages "qsd1"))
    (exportProps : { props // imageProps plainEnv (imageParams plainEnv twoImages "qsd1" image)
      "qsd_image_export" = .ok props ∧ props.get? "type" = some (.str "vhost-user-blk") })
    (fulfilled : { r // (QsdDaemonDev.init plainEnv "qsd1" twoImages).fulfilImageProps plainEnv
      image (imageParams plainEnv twoImages "qsd1" image) = .ok r })
    (created : { r // createVubpDevices plainEnv none image twoImages none = .ok r }) :
    Export plainEnv twoImages "qsd1" where
  image := image
  driveFormat := driveFormat
  namespaces := "qsd1"
  namespaces_eq := rfl
  daemon_mem := List.mem_cons_self
  image_mem := image_mem
  only := fun _ hq _ => List.mem_singleton.mp hq
  exportProps := exportProps.1
  exportProps_eq := exportProps.2.1
  type_eq := exportProps.2.2
  images := ∅
  data := fulfilled.1.1
  daemon := fulfilled.1.2
  fulfilled := fulfilled.2
  vm := none
  bus := none
  vmAfter := created.1.1
  devices := created.1.2
  created := created.2

/-- Two images of one daemon, whose socket devices have the same identifier. -/
theorem two_images_clash : ∃ es : List (Export plainEnv twoImages "qsd1"),
    es.map Export.image = ["stg1", "stg2"] ∧ ¬AgreeAndDiffer es := by
  refine ⟨[plainExport "stg1" rfl (by decide) ⟨_, rfl, rfl⟩ ⟨_, rfl⟩ ⟨_, rfl⟩,
    plainExport "stg2" rfl (by decide) ⟨_, rfl, rfl⟩ ⟨_, rfl⟩ ⟨_, rfl⟩], rfl, fun h => ?_⟩
  exact absurd (length_le_one_of_nodup h.ids) (by decide)

end TpQemu.Qsd
