import BleGateway.Types
import BleGateway.Lib.Crash

set_option autoImplicit false

/-! # Device records in NVS

The namespace `dev_list` of the flash storage as the device store lays it out
(`device_store_nvs.c`), and the loaders of single records, one for each schema version
(`device_store_migration.c`).

NVS is a typed map from keys to values; a read returns the value, or says why it cannot. The
other errors of the NVS driver are no property of the stored data: a call that ends with one
is a call that did not happen.
-/

namespace BleGateway.DeviceStore

def DEVICE_STORE_SCHEMA_VERSION : UInt8 := 3
def DEVICE_STORE_BLE_ADDR_TYPE_MAX : UInt8 := 3

/-- Buffer for reading the legacy `type_N` field. -/
def DEVICE_TYPE_MAX_LEN_V2 : Nat := 16

inductive StoreResult
  | ok | invalidArg | notFound | duplicateId | duplicateBleIdentity | full | busy | persistence
  | corrupt | schemaTooNew | bufferTooSmall | capacityExceeded | invalidState
  deriving DecidableEq

/-! ## Entries -/

/-- A BLE address in NimBLE byte order, with its type. -/
structure BleIdentity where
  addr : Vector UInt8 6
  addrType : UInt8
  deriving DecidableEq

/-- `device_entry_t`. The address and its type mean nothing while `has_ble_identity` is false:
`identity` is then `none`. -/
structure Entry where
  deviceId : DeviceId := .empty
  name : CharBuf DEVICE_NAME_MAX_LEN := .empty
  identity : Option BleIdentity := none
  deriving DecidableEq

instance : Inhabited Entry := ⟨{}⟩

/-- The strict loaders take the texts of the entry only when they are not empty. -/
def Entry.Named (e : Entry) : Prop := e.deviceId.text ≠ [] ∧ e.name.text ≠ []

/-! ## The flash storage -/

inductive Field
  | id | name | type | addr | atype
  deriving DecidableEq

/-- The keys of the namespace; `field .id 3` is `id_3`. -/
inductive Key
  | schemaVer | count
  | field (f : Field) (index : Nat)
  deriving DecidableEq

inductive NvsValue
  | u8 (v : UInt8)
  | str (s : CString)
  | blob (b : List UInt8)
  deriving DecidableEq

abbrev Nvs := Key → Option NvsValue

/-- Why a read of a key returns no value. -/
inductive NvsErr
  | notFound | typeMismatch | invalidLength
  deriving DecidableEq

def nvsGetU8 (nvs : Nvs) (key : Key) : Except NvsErr UInt8 :=
  match nvs key with
  | none => .error .notFound
  | some (.u8 v) => .ok v
  | some _ => .error .typeMismatch

/-- `nvs_get_str` into a buffer of `size` bytes. -/
def nvsGetStr (nvs : Nvs) (key : Key) (size : Nat) : Except NvsErr (CharBuf size) :=
  match nvs key with
  | none => .error .notFound
  | some (.str s) => if h : s.length < size then .ok ⟨s, h⟩ else .error .invalidLength
  | some _ => .error .typeMismatch

/-- `nvs_get_blob` into a buffer of `size` bytes. -/
def nvsGetBlob (nvs : Nvs) (key : Key) (size : Nat) : Except NvsErr (List UInt8) :=
  match nvs key with
  | none => .error .notFound
  | some (.blob b) => if b.length ≤ size then .ok b else .error .invalidLength
  | some _ => .error .typeMismatch

/-! ## The loaders -/

/-- `classify_key_error`. -/
def classifyKeyError (_ : NvsErr) : StoreResult := .corrupt

/-- `load_required_str_v2`. -/
def loadRequiredStrV2 (nvs : Nvs) (key : Key) (size : Nat) : Except StoreResult (CharBuf size) :=
  match nvsGetStr nvs key size with
  | .ok s => if s.text = [] then .error .corrupt else .ok s
  | .error err => .error (classifyKeyError err)

/-- The address pair of `load_entry_v2` and `load_entry_v3`: both keys or none. -/
def loadIdentity (nvs : Nvs) (index : Nat) : Except StoreResult (Option BleIdentity) :=
  match nvsGetBlob nvs (.field .addr index) 6, nvsGetU8 nvs (.field .atype index) with
  | .ok addr, .ok addrType =>
      if h : addr.length = 6 then .ok (some ⟨⟨addr.toArray, by simpa using h⟩, addrType⟩)
      else .error .corrupt
  | .error .notFound, .error .notFound => .ok none
  | _, _ => .error .corrupt

/-- `load_entry_v3`. -/
def loadEntryV3 (nvs : Nvs) (index : Nat) : Except StoreResult Entry := do
  let deviceId ← loadRequiredStrV2 nvs (.field .id index) DEVICE_ID_MAX_LEN
  let name ← loadRequiredStrV2 nvs (.field .name index) DEVICE_NAME_MAX_LEN
  let identity ← loadIdentity nvs index
  return ⟨deviceId, name, identity⟩

/-- `load_entry_v2`: the type is required and discarded. -/
def loadEntryV2 (nvs : Nvs) (index : Nat) : Except StoreResult Entry := do
  let deviceId ← loadRequiredStrV2 nvs (.field .id index) DEVICE_ID_MAX_LEN
  let name ← loadRequiredStrV2 nvs (.field .name index) DEVICE_NAME_MAX_LEN
  let _ ← loadRequiredStrV2 nvs (.field .type index) DEVICE_TYPE_MAX_LEN_V2
  let identity ← loadIdentity nvs index
  return ⟨deviceId, name, identity⟩

def hexValue (c : UInt8) : Option UInt8 :=
  if 48 ≤ c ∧ c ≤ 57 then some (c - 48)
  else if 97 ≤ c ∧ c ≤ 102 then some (c - 97 + 10)
  else if 65 ≤ c ∧ c ≤ 70 then some (c - 65 + 10)
  else none

/-- The first `n` octets of `device_store_entry_parse_ble_addr`, in display order, with a
separator behind each of them but the last, and what follows them. -/
def parseOctets : (n : Nat) → CString → Option (List UInt8 × CString)
  | 0, text => some ([], text)
  | n + 1, high :: low :: text => do
      let high ← hexValue high
      let low ← hexValue low
      let octet := high <<< 4 ||| low
      if n = 0 then return ([octet], text)
      match text with
      | sep :: text =>
          if sep = 58 ∨ sep = 45 then
            let (octets, rest) ← parseOctets n text
            return (octet :: octets, rest)
          else none
      | [] => none
  | _ + 1, _ => none

/-- `device_store_entry_parse_ble_addr`. -/
def parseBleAddr (text : CString) : Option (Vector UInt8 6) :=
  match parseOctets 6 text with
  | some (octets, []) =>
      if h : octets.reverse.length = 6 then some ⟨octets.reverse.toArray, by simpa using h⟩
      else none
  | _ => none

/-- `load_entry_v1`: the name falls back to the id, and an id that is an address stands for
it. A `type_N` that cannot be read makes no difference. -/
def loadEntryV1 (nvs : Nvs) (index : Nat) : Except StoreResult Entry := do
  let deviceId ← loadRequiredStrV2 nvs (.field .id index) DEVICE_ID_MAX_LEN
  let name := match nvsGetStr nvs (.field .name index) DEVICE_NAME_MAX_LEN with
    | .ok name => name
    | .error _ => strlcpy _ deviceId.text
  let legacy := (parseBleAddr deviceId.text).map fun addr => (⟨addr, 0⟩ : BleIdentity)
  let identity := match nvsGetBlob nvs (.field .addr index) 6 with
    | .ok addr =>
        if h : addr.length = 6 then
          let addrType := match nvsGetU8 nvs (.field .atype index) with
            | .ok addrType => addrType
            | .error _ => 0
          some ⟨⟨addr.toArray, by simpa using h⟩, addrType⟩
        else legacy
    | .error _ => legacy
  return ⟨deviceId, name, identity⟩

/-- `device_store_migration_load_entry`. -/
def loadEntry (nvs : Nvs) (storedSchema : UInt8) (index : Nat) : Except StoreResult Entry :=
  if storedSchema = 1 then loadEntryV1 nvs index
  else if storedSchema = 2 then loadEntryV2 nvs index
  else if storedSchema = DEVICE_STORE_SCHEMA_VERSION then loadEntryV3 nvs index
  else .error .schemaTooNew

/-! ## What the strict loader accepts -/

/-- The value that a record of `e` has under a field; the legacy type is not stored. -/
def Entry.value (e : Entry) : Field → Option NvsValue
  | .id => some (.str e.deviceId.text)
  | .name => some (.str e.name.text)
  | .type => none
  | .addr => e.identity.map fun b => .blob b.addr.toList
  | .atype => e.identity.map fun b => .u8 b.addrType

/-- The fields that make up a record of the current schema. -/
def Field.current (f : Field) : Prop := f ≠ .type

instance (f : Field) : Decidable f.current := inferInstanceAs (Decidable (_ ≠ _))

/-- The entry's record stands at `index`. -/
def Holds (nvs : Nvs) (index : Nat) (e : Entry) : Prop :=
  ∀ f, f.current → nvs (.field f index) = e.value f

end BleGateway.DeviceStore
