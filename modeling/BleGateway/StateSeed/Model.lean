import BleGateway.Scheduler.State
import BleGateway.Lib.Directory
import BleGateway.Lib.Machine

set_option autoImplicit false

/-! # State seeding

`device_state_seed.c`: after a schema commit the readable features of a device are read one by
one, each by a background job of the scheduler whose completion starts the next read. The part
of `device_schema` that it reads is the table of committed schemas.

A handler (a commit listener, a completion, a disconnect or a forget) runs to its end before
the next one starts, so the critical sections of one handler follow each other directly and
the session that the first of them looks up is the one the later ones find.
-/

namespace BleGateway.StateSeed

open Scheduler (Job Result nextId)

def STATE_SEED_MAX_RETRIES : Nat := 1
def GW_PROP_NONE : UInt8 := 0

instance : NeZero DEVICE_STORE_MAX_DEVICES := ⟨by decide⟩

/-- An index into the tables of sessions and contexts, and into the schema table. -/
abbrev Ix := Fin DEVICE_STORE_MAX_DEVICES

/-! ## Committed schemas -/

/-- The fields of `device_schema_feature_t` that a feature reference copies. -/
structure Feature where
  featureId : CharBuf DEVICE_FEATURE_ID_MAX_LEN
  propertyId : UInt8
  deriving DecidableEq

def Feature.readable (f : Feature) : Bool := f.propertyId ≠ GW_PROP_NONE

/-- A committed schema: its revision and its `features[]` array. -/
structure Schema where
  revision : UInt32
  features : List Feature
  bounded : features.length ≤ DEVICE_SCHEMA_MAX_FEATURES
  deriving DecidableEq

/-- `schema_record_t`; `committed` is `none` while `has_committed` is false. -/
structure SchemaRecord where
  used : Bool := false
  deviceId : DeviceId := .empty
  committed : Option Schema := none

abbrev SchemaTable := Ix → SchemaRecord

/-- `schema_runtime_find_locked`. -/
def findRecord (schemas : SchemaTable) (id : DeviceId) : Option Ix :=
  Directory.lookup SchemaRecord.used SchemaRecord.deviceId schemas id

/-- The commit of a schema in `handle_end`, into the record that
`schema_runtime_find_or_create_locked` gives. -/
def commitSchema (schemas : SchemaTable) (id : DeviceId) (schema : Schema) :
    Option SchemaTable :=
  match findRecord schemas id with
  | some r =>
      some (Function.update schemas r { schemas r with committed := some schema })
  | none =>
      match Directory.vacant SchemaRecord.used schemas with
      | some r => some (Function.update schemas r ⟨true, id, some schema⟩)
      | none => none

/-- `device_schema_forget`, where the record's erase from NVS succeeds. -/
def forgetSchema (schemas : SchemaTable) (id : DeviceId) : SchemaTable :=
  match findRecord schemas id with
  | some r => Function.update schemas r {}
  | none => schemas

/-- `device_schema_get_feature_at`. -/
def getFeatureAt (schemas : SchemaTable) (id : DeviceId) (expectedRevision : UInt32)
    (index : Nat) : Except EspErr Feature :=
  match (findRecord schemas id).bind fun r => (schemas r).committed with
  | none => .error .notFound
  | some committed =>
      if committed.revision ≠ expectedRevision then .error .invalidState
      else
        match committed.features[index]? with
        | some feature => .ok feature
        | none => .error .notFound

/-! ## Sessions and contexts -/

/-- `state_seed_session_t`; the default value is the one `memset` leaves. -/
structure Session where
  used : Bool := false
  deviceId : DeviceId := .empty
  schemaRevision : UInt32 := 0
  ownerToken : UInt32 := 0
  nextFeatureIndex : Nat := 0
  activeJobId : UInt32 := 0
  retryCount : Nat := 0
  jobActive : Bool := false
  active : Bool := false

/-- `state_seed_context_t`. -/
structure Context where
  inUse : Bool := false
  deviceId : DeviceId := .empty
  ownerToken : UInt32 := 0

/-- The static variables of `device_state_seed.c`. -/
structure Seed where
  sessions : Ix → Session := fun _ => {}
  contexts : Ix → Context := fun _ => {}
  nextOwner : UInt32 := 0

namespace Seed

def setSession (s : Seed) (k : Ix) (session : Session) : Seed :=
  { s with sessions := Function.update s.sessions k session }

def setContext (s : Seed) (i : Ix) (context : Context) : Seed :=
  { s with contexts := Function.update s.contexts i context }

variable (s : Seed) (k i : Ix) (session : Session) (context : Context)

@[simp] theorem setSession_sessions :
    (s.setSession k session).sessions = Function.update s.sessions k session := rfl
@[simp] theorem setSession_contexts : (s.setSession k session).contexts = s.contexts := rfl
@[simp] theorem setSession_nextOwner : (s.setSession k session).nextOwner = s.nextOwner := rfl
@[simp] theorem setContext_sessions : (s.setContext i context).sessions = s.sessions := rfl
@[simp] theorem setContext_contexts :
    (s.setContext i context).contexts = Function.update s.contexts i context := rfl
@[simp] theorem setContext_nextOwner : (s.setContext i context).nextOwner = s.nextOwner := rfl
@[simp] theorem setSession_setSession (session' : Session) :
    (s.setSession k session).setSession k session' = s.setSession k session' := by
  simp [setSession]
@[simp] theorem setSession_setContext_setSession (session' : Session) :
    ((s.setSession k session).setContext i context).setSession k session' =
      (s.setContext i context).setSession k session' := by
  simp [setSession, setContext]

/-- `find_session_locked(device_id, false)`. -/
def findSession (id : DeviceId) : Option Ix :=
  Directory.lookup Session.used Session.deviceId s.sessions id

/-- `find_session_locked(device_id, true)`. -/
def findOrCreateSession (id : DeviceId) : Option (Seed × Ix) :=
  match s.findSession id with
  | some k => some (s, k)
  | none =>
      match Directory.vacant Session.used s.sessions with
      | some k => some (s.setSession k { s.sessions k with used := true, deviceId := id }, k)
      | none => none

/-- `find_context_locked`: the first context that is free or was last used for the device. -/
def findContext (id : DeviceId) : Option Ix :=
  Fin.find? fun i => !(s.contexts i).inUse || decide ((s.contexts i).deviceId = id)

variable {s i} in
theorem findContext_spec {id : DeviceId} (h : s.findContext id = some i) :
    ((s.contexts i).inUse = false ∨ (s.contexts i).deviceId = id) ∧
      ∀ j < i, (s.contexts j).inUse = true ∧ (s.contexts j).deviceId ≠ id := by
  simpa using Fin.find?_eq_some_iff.mp h

theorem findContext_congr {s s' : Seed} (h : s'.contexts = s.contexts) (id : DeviceId) :
    s'.findContext id = s.findContext id := by
  simp only [findContext, h]

variable {s} in
theorem exists_findContext {id : DeviceId} {j : Ix} (h : (s.contexts j).inUse = false) :
    ∃ i ≤ j, s.findContext id = some i := by
  cases hf : s.findContext id with
  | none =>
      have := Fin.find?_eq_none_iff.mp hf j
      simp [h] at this
  | some i =>
      refine ⟨i, ?_, rfl⟩
      by_contra hlt
      have := (findContext_spec hf).2 j (not_le.mp hlt)
      simp [h] at this

attribute [irreducible] findContext

variable {s k session} in
theorem findSession_setSession (hused : session.used = (s.sessions k).used)
    (hid : session.deviceId = (s.sessions k).deviceId) (id : DeviceId) :
    (s.setSession k session).findSession id = s.findSession id :=
  Directory.lookup_update_same hused hid id

end Seed

/-- The job that reads a feature. -/
def seedJob (id : DeviceId) (owner : UInt32) (feature : Feature) : Job where
  priority := .background
  source := .state
  ownerToken := owner
  dedupe := .dropIfExists
  dedupeHash := 0x53544154
  request :=
    { origin := .stateRead
      deviceId := id
      command := strlcpy _ (cstr "read_feature_state")
      hasFeatureId := true
      featureId := feature.featureId
      hasPropertyId := true
      propertyId := feature.propertyId }

/-- A call of `device_control_scheduler_submit` with its answer: the job's id, or an error. -/
structure Submit where
  context : Ix
  job : Job
  answer : Except EspErr UInt32

/-- `state_seed_start_next` with `attempts` rounds of its loop left, where the scheduler
answers `answer` to the submit, if one is made. -/
def startNext (schemas : SchemaTable) (id : DeviceId) (answer : Except EspErr UInt32) :
    (attempts : Nat) → Seed → Seed × Option Submit
  | 0, s => (s, none)
  | attempts + 1, s =>
      match s.findSession id with
      | none => (s, none)
      | some k =>
          let session := s.sessions k
          if !session.active || session.jobActive then (s, none)
          else
            match getFeatureAt schemas id session.schemaRevision session.nextFeatureIndex with
            | .error _ => (s.setSession k { session with active := false }, none)
            | .ok feature =>
                let session := { session with nextFeatureIndex := session.nextFeatureIndex + 1 }
                if !feature.readable then
                  startNext schemas id answer attempts (s.setSession k session)
                else
                  match s.findContext id with
                  | none => (s.setSession k { session with active := false }, none)
                  | some i =>
                      -- "seed context pool exhausted"
                      if (s.contexts i).inUse then
                        (s.setSession k { session with active := false }, none)
                      else
                        let job := seedJob id session.ownerToken feature
                        match answer with
                        | .ok jobId =>
                            ((s.setContext i ⟨true, id, session.ownerToken⟩).setSession k
                              { session with jobActive := true, activeJobId := jobId },
                              some ⟨i, job, answer⟩)
                        | .error _ =>
                            ((s.setContext i ⟨false, id, session.ownerToken⟩).setSession k
                              { session with jobActive := false, active := false },
                              some ⟨i, job, answer⟩)

/-! ## Handlers -/

/-- The result of a read asks for a retry. -/
def wantsRetry (result : Option Result) : Bool :=
  match result with
  | some r => r.terminal = .command && r.commandResult.status ≠ .ok &&
      r.commandResult.status ≠ .notConnected
  | none => false

/-- The critical section of `state_seed_completion` for context `i`. -/
def completionSection (s : Seed) (result : Option Result) (i : Ix) : Seed :=
  let context := s.contexts i
  let s := s.setContext i { context with inUse := false }
  match s.findSession context.deviceId with
  | none => s
  | some k =>
      let session := s.sessions k
      if session.ownerToken = context.ownerToken then
        let session := { session with jobActive := false, activeJobId := 0 }
        if wantsRetry result && decide (session.retryCount < STATE_SEED_MAX_RETRIES) then
          s.setSession k { session with
            retryCount := session.retryCount + 1
            nextFeatureIndex := session.nextFeatureIndex - 1 }
        else s.setSession k { session with retryCount := 0 }
      else s

/-- `state_seed_completion`. -/
def completion (schemas : SchemaTable) (s : Seed) (result : Option Result) (i : Ix)
    (answer : Except EspErr UInt32) : Seed × Option Submit :=
  startNext schemas (s.contexts i).deviceId answer DEVICE_SCHEMA_MAX_FEATURES
    (completionSection s result i)

/-- `state_seed_on_schema_commit`. With a job outstanding it only asks the scheduler to cancel
the job, whose completion is then delivered like any other. -/
def onSchemaCommit (schemas : SchemaTable) (s : Seed) (id : DeviceId) (revision : UInt32)
    (answer : Except EspErr UInt32) : Seed × Option Submit :=
  match s.findOrCreateSession id with
  | none => (s, none)
  | some (s, k) =>
      let session := s.sessions k
      let s := { s with nextOwner := nextId s.nextOwner }
      let s := s.setSession k { session with
        schemaRevision := revision
        ownerToken := s.nextOwner
        nextFeatureIndex := 0
        activeJobId := 0
        retryCount := 0
        active := true }
      if session.jobActive && session.ownerToken ≠ 0 then (s, none)
      else startNext schemas id answer DEVICE_SCHEMA_MAX_FEATURES s

/-- `device_state_seed_forget`. -/
def forget (s : Seed) (id : DeviceId) : Seed :=
  match s.findSession id with
  | some k => s.setSession k {}
  | none => s

/-! ## The system -/

/-- A submitted seed job whose completion has not been delivered. `forgotten` is history: the
session that submitted it has been forgotten since. -/
structure Outstanding where
  context : Ix
  job : Job
  forgotten : Bool
  deriving DecidableEq

def Outstanding.deviceId (o : Outstanding) : DeviceId := o.job.request.deviceId

/-- What a forget of `id` makes of the job. -/
def Outstanding.forget (id : DeviceId) (o : Outstanding) : Outstanding :=
  if o.deviceId = id then { o with forgotten := true } else o

/-- History: what has become of the latest commit of a connected device. -/
structure Watch where
  schema : Schema
  submitted : List Job
  submitFailed : Bool

structure Sys where
  seed : Seed
  schemas : SchemaTable
  outstanding : List Outstanding
  /-- The commit whose features are being read; `none` from a disconnect or a forget on. -/
  latest : DeviceId → Option Watch

/-- Before the first commit. -/
def boot : Sys where
  seed := {}
  schemas := fun _ => {}
  outstanding := []
  latest := fun _ => none

/-- The history of a submit for device `id`. -/
def Watch.record (w : Watch) (submit : Submit) : Watch :=
  match submit.answer with
  | .ok _ => { w with submitted := w.submitted ++ [submit.job] }
  | .error _ => { w with submitFailed := true }

/-- The state after a handler that left `seed` and made the call `submit` for `id`. -/
def Sys.after (σ : Sys) (id : DeviceId) (seed : Seed) (submit : Option Submit) : Sys :=
  match submit with
  | none => { σ with seed := seed }
  | some submit =>
      { σ with
        seed := seed
        outstanding := match submit.answer with
          | .ok _ => σ.outstanding ++ [⟨submit.context, submit.job, false⟩]
          | .error _ => σ.outstanding
        latest := Function.update σ.latest id ((σ.latest id).map (·.record submit)) }

/-- The history of `device_state_seed_forget`. -/
def Sys.forgetSession (σ : Sys) (id : DeviceId) : Sys :=
  { σ with
    seed := forget σ.seed id
    outstanding := σ.outstanding.map (·.forget id)
    latest := Function.update σ.latest id none }

inductive Label
  /-- A schema of the device is committed; the listener runs. -/
  | commit (id : DeviceId) (schema : Schema) (answer : Except EspErr UInt32)
  /-- The scheduler delivers a completion. -/
  | complete (o : Outstanding) (result : Option Result) (answer : Except EspErr UInt32)
  | disconnect (id : DeviceId)
  /-- The device is deleted; when its schema cannot be erased from NVS, nothing is. -/
  | forget (id : DeviceId) (erased : Bool)

def Sys.step (σ : Sys) : Label → Option Sys
  | .commit id schema answer =>
      match commitSchema σ.schemas id schema with
      | none => none
      | some schemas =>
          let r := onSchemaCommit schemas σ.seed id schema.revision answer
          some (Sys.after { σ with
            schemas := schemas
            latest := Function.update σ.latest id (some ⟨schema, [], false⟩) } id r.1 r.2)
  | .complete o result answer =>
      if o ∈ σ.outstanding then
        let r := completion σ.schemas σ.seed result o.context answer
        some (Sys.after { σ with outstanding := σ.outstanding.erase o }
          (σ.seed.contexts o.context).deviceId r.1 r.2)
      else none
  | .disconnect id => some (σ.forgetSession id)
  | .forget id erased =>
      if erased then some (Sys.forgetSession { σ with schemas := forgetSchema σ.schemas id } id)
      else some σ

/-- State seeding as a machine. -/
def machine : Machine Sys Label where
  init σ := σ = boot
  step := Sys.step

end BleGateway.StateSeed
