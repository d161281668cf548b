import BleGateway.DeviceStore.Record

set_option autoImplicit false

/-! # The device store

`device_store_nvs.c` and the operations of `device_store.c` on the cached list. An operation is
given by the NVS calls it makes, in order, and the list it leaves in the cache when all of them
succeed. The store is initialised and its mutex free.
-/

namespace BleGateway.DeviceStore

/-! ## Calls -/

/-- A call of the NVS interface. `eraseIgnored` is the `nvs_erase_key` of a legacy key whose
result is not looked at. -/
inductive Call
  | openNvs
  | commit
  | setU8 (key : Key) (v : UInt8)
  | setStr (key : Key) (s : CString)
  | setBlob (key : Key) (b : List UInt8)
  | erase (key : Key)
  | eraseIgnored (key : Key)
  deriving DecidableEq

/-- What a call leaves; the erase of a key that is not there changes nothing. -/
def Call.apply (c : Call) (nvs : Nvs) : Nvs :=
  match c with
  | .openNvs | .commit => nvs
  | .setU8 key v => Function.update nvs key (some (.u8 v))
  | .setStr key s => Function.update nvs key (some (.str s))
  | .setBlob key b => Function.update nvs key (some (.blob b))
  | .erase key | .eraseIgnored key => Function.update nvs key none

def Call.ignored : Call → Bool
  | .eraseIgnored _ => true
  | _ => false

/-- NVS as a store of atomic and durable calls. -/
def storage : Crash.Storage Nvs Call where
  apply := Call.apply
  ignored := Call.ignored

/-! ## Writing -/

/-- `save_metadata`. -/
def saveMetadata (count : Nat) : List Call :=
  [.setU8 .count (UInt8.ofNat count), .setU8 .schemaVer DEVICE_STORE_SCHEMA_VERSION]

/-- `save_entry`. -/
def saveEntry (index : Nat) (e : Entry) : List Call :=
  [.setStr (.field .id index) e.deviceId.text, .setStr (.field .name index) e.name.text,
    .eraseIgnored (.field .type index)] ++
  match e.identity with
  | some b =>
      [.setBlob (.field .addr index) b.addr.toList, .setU8 (.field .atype index) b.addrType]
  | none => [.erase (.field .addr index), .erase (.field .atype index)]

/-- `erase_entry`. -/
def eraseEntry (index : Nat) : List Call :=
  [.id, .name, .type, .addr, .atype].map fun f => .erase (.field f index)

/-! ## Loading -/

/-- The loop of `device_store_nvs_load` over the records: corrupt ones are skipped. -/
def loadRecords (nvs : Nvs) (version : UInt8) : List Nat → Except StoreResult (List Entry)
  | [] => .ok []
  | i :: is =>
      match loadEntry nvs version i with
      | .ok e => (loadRecords nvs version is).map (e :: ·)
      | .error .corrupt => loadRecords nvs version is
      | .error err => .error err

/-- The stored schema version; pre-schema stores behave as version 1. -/
def storedVersion (nvs : Nvs) : Except StoreResult UInt8 :=
  match nvsGetU8 nvs .schemaVer with
  | .ok v => .ok v
  | .error .notFound => .ok 1
  | .error _ => .error .corrupt

/-- The stored count; a fresh store has none. -/
def storedCount (nvs : Nvs) : Except StoreResult UInt8 :=
  match nvsGetU8 nvs .count with
  | .ok n => .ok n
  | .error .notFound => .ok 0
  | .error _ => .error .corrupt

/-- The calls that migrate an older schema, or compact away skipped records. -/
def rewrite (version : UInt8) (rawCount : Nat) (entries : List Entry) : List Call :=
  if version ≠ DEVICE_STORE_SCHEMA_VERSION ∨ entries.length ≠ rawCount then
    saveMetadata entries.length ++
      (List.range entries.length).flatMap (fun i => saveEntry i (entries.getD i default)) ++
      (List.range' entries.length (rawCount - entries.length)).flatMap eraseEntry ++
      [.commit]
  else []

/-- `device_store_nvs_load` with room for `DEVICE_STORE_MAX_DEVICES` entries: the list, and the
calls that write to NVS. -/
def nvsLoad (nvs : Nvs) : Except StoreResult (List Entry × List Call) :=
  match storedVersion nvs with
  | .error err => .error err
  | .ok version =>
      -- a store written by newer firmware is never rewritten or downgraded
      if version > DEVICE_STORE_SCHEMA_VERSION then .error .schemaTooNew
      else
        match storedCount nvs with
        | .error err => .error err
        | .ok rawCount =>
            if rawCount.toNat > DEVICE_STORE_MAX_DEVICES then .error .capacityExceeded
            else
              (loadRecords nvs version (List.range rawCount.toNat)).map fun entries =>
                (entries, rewrite version rawCount.toNat entries)

/-- The list that a load gives, if it ends with `ESP_OK` (its own calls succeeding). -/
def loads (nvs : Nvs) : Option (List Entry) :=
  match nvsLoad nvs with
  | .ok r => some r.1
  | .error _ => none

/-! ## Changing -/

/-- `device_store_nvs_append`. -/
def nvsAppend (index newCount : Nat) (e : Entry) : List Call :=
  [.openNvs] ++ saveEntry index e ++ saveMetadata newCount ++ [.commit]

/-- `device_store_nvs_update`. -/
def nvsUpdate (index : Nat) (e : Entry) : List Call :=
  [.openNvs] ++ saveEntry index e ++ [.commit]

/-- `device_store_nvs_delete`. -/
def nvsDelete (index : Nat) (compacted : List Entry) (previousCount : Nat) : List Call :=
  [.openNvs] ++
    (List.range' index (previousCount - 1 - index)).flatMap
      (fun i => saveEntry i (compacted.getD i default)) ++
    eraseEntry (previousCount - 1) ++ saveMetadata (previousCount - 1) ++ [.commit]

/-! ## The operations on the cache -/

/-- What an operation answers without an NVS error, the calls it makes, and the list after it. -/
structure Effect where
  result : StoreResult
  calls : List Call
  after : List Entry

/-- An operation that is refused. -/
def refuse (entries : List Entry) (result : StoreResult) : Effect := ⟨result, [], entries⟩

def findUnlocked (entries : List Entry) (id : CString) : Option Nat :=
  entries.findIdx? fun e => e.deviceId.text = id

/-- `valid_text`. -/
def validText (value : CString) (maxLength : Nat) : Bool :=
  0 < value.length && value.length < maxLength

/-- `device_store_entry_create`. -/
def entryCreate (id name : CString) : Option Entry :=
  if validText id DEVICE_ID_MAX_LEN && validText name DEVICE_NAME_MAX_LEN then
    some ⟨strlcpy _ id, strlcpy _ name, none⟩
  else none

/-- `device_store_entry_edit`. -/
def entryEdit (e : Entry) (newName : CString) : Option Entry :=
  if validText newName DEVICE_NAME_MAX_LEN then some { e with name := strlcpy _ newName }
  else none

/-- `identity_in_use_unlocked`. -/
def identityInUseUnlocked (entries : List Entry) (id : CString) (identity : BleIdentity) : Bool :=
  entries.any fun e => e.deviceId.text ≠ id && decide (e.identity = some identity)

/-- `device_store_add`. -/
def add (entries : List Entry) (id name : CString) : Effect :=
  match entryCreate id name with
  | none => refuse entries .invalidArg
  | some e =>
      match findUnlocked entries id with
      | some _ => refuse entries .duplicateId
      | none =>
          if DEVICE_STORE_MAX_DEVICES ≤ entries.length then refuse entries .full
          else ⟨.ok, nvsAppend entries.length (entries.length + 1) e, entries ++ [e]⟩

/-- `device_store_delete`. -/
def delete (entries : List Entry) (id : CString) : Effect :=
  match findUnlocked entries id with
  | none => refuse entries .notFound
  | some index =>
      let compacted := entries.eraseIdx index
      ⟨.ok, nvsDelete index compacted entries.length, compacted⟩

/-- `device_store_edit`. -/
def edit (entries : List Entry) (id newName : CString) : Effect :=
  match findUnlocked entries id with
  | none => refuse entries .notFound
  | some index =>
      match entryEdit (entries.getD index default) newName with
      | none => refuse entries .invalidArg
      | some updated => ⟨.ok, nvsUpdate index updated, entries.set index updated⟩

/-- `device_store_set_ble_identity`. -/
def setBleIdentity (entries : List Entry) (id : CString) (identity : BleIdentity) : Effect :=
  if identity.addrType > DEVICE_STORE_BLE_ADDR_TYPE_MAX then refuse entries .invalidArg
  else
    match findUnlocked entries id with
    | none => refuse entries .notFound
    | some index =>
        let e := entries.getD index default
        if e.identity = some identity then refuse entries .ok
        else if identityInUseUnlocked entries id identity then
          refuse entries .duplicateBleIdentity
        else
          let updated := { e with identity := some identity }
          ⟨.ok, nvsUpdate index updated, entries.set index updated⟩

/-! ## Stored lists -/

/-- NVS stores the list in the current schema, with nothing left to rewrite: what a successful
load leaves, and every completed operation. -/
structure Stored (nvs : Nvs) (entries : List Entry) : Prop where
  version : nvs .schemaVer = some (.u8 DEVICE_STORE_SCHEMA_VERSION)
  count : nvs .count = some (.u8 (UInt8.ofNat entries.length))
  room : entries.length ≤ DEVICE_STORE_MAX_DEVICES
  records : ∀ i e, entries[i]? = some e → loadEntryV3 nvs i = .ok e

/-- An initialised store: the cached list and the NVS that stores it. -/
structure Store where
  nvs : Nvs
  entries : List Entry
  stored : Stored nvs entries

end BleGateway.DeviceStore
