import TpQemu.Lib.Dict
import TpQemu.Lib.Text
import Mathlib.Logic.Function.Basic

/-!
# Images of a storage daemon

`create_vubp_devices` and `QsdDaemonDev._fulfil_image_props` in `provider/qsd.py`. The first
builds the devices of a VM for an image, the second what the daemon is started with for it.
Both read the test parameters and format names and socket paths on their own.

The test parameters, the VM and the image files are outside the repository. Of the daemon
only what its images depend on is kept: neither its monitor nor its command line.
-/

namespace TpQemu.Qsd

/-- A value of `json.loads`. -/
inductive Json where
  | null
  | bool (b : Bool)
  | int (z : Int)
  | float (x : Float)
  | str (s : String)
  | arr (vs : List Json)
  | obj (es : List (String × Json))

/-- The truth value of the Python object. -/
def Json.truthy : Json → Bool
  | .null => false
  | .bool b => b
  | .int z => z ≠ 0
  | .float x => x != 0
  | .str s => s ≠ ""
  | .arr vs => !vs.isEmpty
  | .obj es => !es.isEmpty

/-- A JSON object. -/
abbrev Props := Dict String Json

inductive Error where
  /-- `QsdError("Can not find QSD")` -/
  | cannotFindQsd
  /-- `QsdError("Unknown export type %s " % t)` -/
  | unknownExportType (t : Json)
  /-- `QsdError("Failed create image %s " % name)` -/
  | failedCreateImage (name : String)
  | paramNotFound
  | keyError
  | attributeError
  | typeError
  /-- An address that would contain itself. -/
  | cyclic
  /-- An exception of the code outside the repository. -/
  | raised

/-- The virtual daemon that is declared in a VM, with its child bus. -/
structure DaemonDev where
  type : String
  aobject : String
  busid : String
  busAobject : String

/-- What is outside the repository: the test parameters, of type `P`, the devices of a VM, of
type `V`, and the image files. -/
structure Env (P V : Type) where
  objectParams : P → String → P
  get : P → String → Option String
  set : P → String → String → P
  dataDir : String
  /-- The pairs that `dict.update(json.loads(text))` takes over. -/
  loads : String → Except Error Props
  getImageFilename : P → Except Error String
  /-- The constructor of `QemuImg`. -/
  qemuImg : P → String → Except Error Unit
  /-- The exit status of `QemuImg.create`. -/
  create : P → String → Except Error Int
  getByQid : V → String → Bool
  insert : V → DaemonDev → V

/-- `str.split()` -/
def split (s : String) : List String := (Text.words s.toList).map String.ofList

def startsWith (s head : String) : Bool := head.toList.isPrefixOf s.toList

/-- The empty JSON object, the default of all properties. -/
def noProps : String := "\x7b\x7d"

variable {P V : Type} (env : Env P V)

/-- The directory of a daemon, from its parameters. -/
def qsdBasedir (qsdParams : P) (name : String) : String :=
  (env.get qsdParams "qsd_basedir").getD (env.dataDir ++ "/qsd/" ++ name)

/-! ## The devices of the VM -/

structure Device where
  driver : String
  params : Props
  aid : Json
  parentBus : Dict String String

/-- `get_qid` -/
def Device.getQid (d : Device) : Json := (d.params.get? "id").getD (.str "")

def qsdImages (qsdParams : P) : List String := split ((env.get qsdParams "qsd_images").getD "")

/-- `get_qsd_name_by_image` -/
def getQsdNameByImage (imgName : String) (params : P) : Except Error (Option String) :=
  if env.get params ("drive_format_" ++ imgName) ≠ some "vhost-user-blk-pci" then .ok none
  else
    match env.get params "qsd_namespaces" with
    | none => .error .paramNotFound
    | some namespaces =>
        let qsd := (split namespaces).find? fun qsd =>
          imgName ∈ qsdImages env (env.objectParams params qsd)
        .ok (some (qsd.getD ""))

/-- The socket device for the socket of an image. -/
def charDevice (qsdName imgSock : String) : Device where
  driver := "chardev"
  params :=
    let charParams : Props := (((∅ : Props).set "backend" (.str "socket")).set "id"
      (.str ("char_qsd_" ++ qsdName))).set "path" (.str imgSock)
    charParams.set "server" (.str "off")
  aid := .str ("char_qsd_" ++ qsdName)
  parentBus := (∅ : Dict String String).set "busid" imgSock

/-- The device that is connected to the socket device. -/
def vubpDevice (imgName : String) (char : Device) (vubpDriverProps : Props)
    (bus : Dict String String) : Device :=
  let devParams : Props := (((∅ : Props).set "id" (.str ("vubp_" ++ imgName))).set "chardev"
    char.getQid).update vubpDriverProps
  { driver := "vhost-user-blk-pci"
    params := devParams
    aid := (devParams.get? "id").getD .null
    parentBus := bus }

def imgSock (basedir qsdName imgName : String) : String :=
  basedir ++ "/" ++ qsdName ++ "_vhost_user_" ++ imgName ++ ".sock"

/-- `create_vubp_devices`, with the devices of the VM behind it. -/
def createVubpDevices (vm : Option V) (imgName : String) (params : P)
    (bus : Option (Dict String String)) : Except Error (Option V × List Device) := do
  let qsdName := (← getQsdNameByImage env imgName params).getD ""
  if qsdName = "" then throw .cannotFindQsd
  let basedir := qsdBasedir env (env.objectParams params qsdName) qsdName
  let sock := imgSock basedir qsdName imgName
  let vm := vm.map fun vm =>
    if env.getByQid vm ("qsd_" ++ qsdName) then vm
    else env.insert vm ⟨"qsd", qsdName, sock, qsdName⟩
  let machineType := (env.get params "machine_type").getD ""
  let qbusType :=
    if startsWith machineType "q35" || startsWith machineType "arm64" then "PCIE" else "PCI"
  let char := charDevice qsdName sock
  let bus := bus.getD ((∅ : Dict String String).set "type" qbusType)
  let props ← env.loads ((env.get params ("image_vubp_props_" ++ imgName)).getD noProps)
  return (vm, [char, vubpDevice imgName char props bus])

/-! ## The images of the daemon -/

/-- The data of an image; `nbdServerAddr` is `img["nbd-server"]["addr"]`. -/
structure ImageData where
  protocol : Props
  format : Props
  filter : Props
  name : String
  unix : Props
  inet : Props
  nbdServerAddr : Props
  exportProps : Props
  /-- There is an image object. -/
  imageObject : Bool

def rawImageData : ImageData where
  protocol := ((((∅ : Props).set "driver" (.str "file")).set "node-name" (.str "tbd")).set
    "filename" (.str "tbd")).set "auto-read-only" (.bool true) |>.set "discard" (.str "unmap")
  format := ((∅ : Props).set "driver" (.str "raw")).set "node-name" (.str "tbd") |>.set
    "file" (.str "tbd")
  filter := ((∅ : Props).set "driver" .null).set "node-name" (.str "tbd") |>.set
    "file" (.str "tbd")
  name := ""
  unix := ((∅ : Props).set "type" (.str "unix")).set "path" (.str "tbd")
  inet := ((∅ : Props).set "type" (.str "inet")).set "host" (.str "0.0.0.0")
  nbdServerAddr := ∅
  exportProps := (((∅ : Props).set "type" (.str "")).set "id" (.str "")).set
    "node-name" (.str "") |>.set "writable" (.bool true)
  imageObject := false

/-- A daemon with the images it has been started with. -/
structure QsdDaemonDev (P : Type) where
  name : String
  basedir : String
  qsdParams : P
  images : Dict String ImageData

/-- `QsdDaemonDev.__init__` -/
def QsdDaemonDev.init (name : String) (params : P) : QsdDaemonDev P :=
  let qsdParams := env.objectParams params name
  let basedir := qsdBasedir env qsdParams name
  let sockPath := (env.get qsdParams "qsd_sock_path").getD
    (basedir ++ "/" ++ name ++ "_monitor.sock")
  { name := name
    basedir := basedir
    qsdParams := env.set qsdParams "monitor_filename" sockPath
    images := ∅ }

/-- The value at a key that is there. -/
def valueAt (d : Props) (k : String) : Json := (d.get? k).getD .null

/-- The properties of an image that the parameters give. -/
def imageProps (params : P) (key : String) : Except Error Props :=
  env.loads ((env.get params key).getD noProps)

/-- The block nodes of an image. -/
def fulfilNodes (name : String) (params : P) : Except Error ImageData := do
  let filename ← env.getImageFilename params
  let img := rawImageData
  let protocol := (img.protocol.set "node-name" (.str ("prot_" ++ name))).set "filename"
    (.str filename)
  let format := ((img.format.set "node-name" (.str ("fmt_" ++ name))).set "file"
    (valueAt protocol "node-name")).set "driver" ((env.get params "image_format").elim .null .str)
  let filter := (img.filter.set "node-name" (.str ("flt_" ++ name))).set "file"
    (valueAt format "node-name")
  let protocol := protocol.update (← imageProps env params "qsd_image_protocol")
  let format := format.update (← imageProps env params "qsd_image_format")
  let filter := filter.update (← imageProps env params "qsd_image_filter")
  return { img with name := name, protocol := protocol, format := format, filter := filter }

/-- The export of an image, without its address. -/
def fulfilExport (name : String) (params : P) (img : ImageData) : Except Error ImageData := do
  let nodeName := valueAt (if (valueAt img.filter "driver").truthy then img.filter else img.format)
    "node-name"
  let exportProps := (img.exportProps.set "id" (.str ("id_" ++ name))).set "node-name" nodeName
  return { img with exportProps := exportProps.update (← imageProps env params "qsd_image_export") }

/-- `img[addr["type"]].update(addr)`, with what has been updated. -/
def ImageData.updateSection (img : ImageData) (addr : Props) :
    Except Error (ImageData × Props) :=
  match addr.get? "type" with
  | none => .error .keyError
  | some (.str "unix") =>
      let unix := img.unix.update addr
      .ok ({ img with unix := unix }, unix)
  | some (.str "inet") =>
      let inet := img.inet.update addr
      .ok ({ img with inet := inet }, inet)
  | some (.str "protocol") =>
      let protocol := img.protocol.update addr
      .ok ({ img with protocol := protocol }, protocol)
  | some (.str "format") =>
      let format := img.format.update addr
      .ok ({ img with format := format }, format)
  | some (.str "filter") =>
      let filter := img.filter.update addr
      .ok ({ img with filter := filter }, filter)
  | some (.str "export") =>
      let exportProps := img.exportProps.update addr
      .ok ({ img with exportProps := exportProps }, exportProps)
  | some (.str "nbd-server") => .error .cyclic
  | some (.str "name") | some (.str "image_object") => .error .attributeError
  | some (.arr _) | some (.obj _) => .error .typeError
  | some _ => .error .keyError

/-- The address of an NBD server. The default of the source is not a JSON text. -/
def fulfilNbd (self : QsdDaemonDev P) (name : String) (params : P) (img : ImageData) :
    Except Error ImageData := do
  let img := { img with exportProps := img.exportProps.set "name" (.str "") }
  let addr ← env.loads ((env.get params "qsd_image_export_nbd").getD "\x7b\"type\":\"unix\"")
  let (img, updated) ← img.updateSection addr
  match addr.get? "type" with
  | some (.str "unix") =>
      let unix :=
        if (valueAt updated "path").truthy then updated
        else updated.set "path" (.str (self.basedir ++ "/" ++ self.name ++ "_nbd_" ++ name ++
          ".sock"))
      return { img with unix := unix, nbdServerAddr := img.nbdServerAddr.update unix }
  | _ => return { img with nbdServerAddr := img.nbdServerAddr.update updated }

/-- The address of a vhost-user-blk export. -/
def fulfilVhostUser (self : QsdDaemonDev P) (name : String) (img : ImageData) : ImageData :=
  let unix := img.unix.set "path" (.str (imgSock self.basedir self.name name))
  { img with unix := unix, exportProps := img.exportProps.set "addr" (.obj unix.entries) }

/-- The image file, if it is not created for the test anyway; whether it is the daemon's. -/
def prepareImage (name : String) (params : P) : Except Error Bool := do
  let some images := env.get params "images" | throw .attributeError
  if name ∈ split images ∧ (env.get params "force_create_image" = some "yes" ∨
      env.get params "create_image" = some "yes") then
    return false
  env.qemuImg params name
  if (env.get params "qsd_create_image").getD "yes" = "yes" then
    let exitStatus ← env.create params name
    if exitStatus ≠ 0 then throw (.failedCreateImage name)
  return true

/-- `_fulfil_image_props`, with the daemon behind it. -/
def QsdDaemonDev.fulfilImageProps (self : QsdDaemonDev P) (name : String) (params : P) :
    Except Error (ImageData × QsdDaemonDev P) := do
  let img ← fulfilNodes env name params
  let img ← fulfilExport env name params img
  let img ←
    match valueAt img.exportProps "type" with
    | .str "nbd" => fulfilNbd env self name params img
    | .str "vhost-user-blk" => pure (fulfilVhostUser self name img)
    | t => throw (.unknownExportType t)
  let imageObject ← prepareImage env name params
  let img := { img with imageObject := imageObject }
  return (img, { self with images := self.images.set name img })

end TpQemu.Qsd
