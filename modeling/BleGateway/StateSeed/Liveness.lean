import BleGateway.StateSeed.Handlers

/-! # The bookkeeping of state seeding

A session's `job_active` flag says whether a read of the session is outstanding, and a session
without one has submitted every readable feature of its schema. Both hold as long as a device's
schema is not committed while its session waits for a completion, and a commit finds a context
that no forgotten session still holds.
-/

namespace BleGateway.StateSeed

/-! ## The properties -/

/-- How many jobs of the session of `id` wait for their completion. -/
def Sys.openJobs (σ : Sys) (id : DeviceId) : Nat :=
  σ.outstanding.countP fun o => decide (o.deviceId = id) && !o.forgotten

/-- The flag of every session says whether it has a job outstanding. -/
def FlagRight (σ : Sys) : Prop :=
  ∀ k, (σ.seed.sessions k).used = true →
    σ.openJobs (σ.seed.sessions k).deviceId =
      if (σ.seed.sessions k).jobActive = true then 1 else 0

/-- Once the completions of a device are delivered, every readable feature of its latest commit
has been submitted, unless the scheduler refused a submit. -/
def AllRead (σ : Sys) : Prop :=
  ∀ id w, σ.latest id = some w → w.submitFailed = false → σ.openJobs id = 0 →
    ∀ f ∈ w.schema.features, f.readable = true → w.Read id f

/-! ## Runs -/

theorem boot_inv : SeedInv boot where
  sessions _ _ h := absurd h (by simp [boot])
  zeroed _ _ := rfl
  schemas _ _ h := absurd h (by simp [boot])
  contexts := ⟨by simp [boot], by simp [boot], by simp [boot]⟩
  views id := by
    refine .gone ?_ rfl (by simp [Sys.view, boot, jobsOf])
    refine Directory.record_of_lookup_none (Directory.lookup_eq_none.mpr fun i hi => ?_)
    exact absurd hi (by simp [boot])

theorem SeedInv.forgetSchema {σ : Sys} (h : SeedInv σ) (id : DeviceId) :
    SeedInvBut id { σ with schemas := StateSeed.forgetSchema σ.schemas id } := by
  rw [StateSeed.forgetSchema]
  cases hr : findRecord σ.schemas id with
  | none => exact h.but id
  | some r =>
      obtain ⟨_, hid⟩ := Directory.lookup_spec hr
      refine ⟨h.sessions, h.zeroed, h.schemas.update fun hu => absurd hu (by simp), h.contexts,
        fun id' hne => ?_⟩
      have hview : schemaOf (Function.update σ.schemas r {}) id' = schemaOf σ.schemas id' := by
        have hold : SchemaRecord.used (σ.schemas r) = true →
            SchemaRecord.deviceId (σ.schemas r) ≠ id' := fun _ he => hne (he.symm.trans hid)
        have hnew : SchemaRecord.used {} = true → SchemaRecord.deviceId {} ≠ id' :=
          fun hu => absurd hu (by simp)
        rw [schemaOf, schemaOf, Directory.record_update_of_ne hold hnew]
      have := h.views id'
      rw [Sys.view] at this ⊢
      rw [hview]
      exact this

/-- **One step keeps the invariant** under the condition. -/
theorem step_inv {σ σ' : Sys} {l : Label} (h : SeedInv σ) (hok : CommitsIdle σ l)
    (hstep : σ.step l = some σ') : SeedInv σ' := by
  cases l with
  | commit id schema answer =>
      rw [Sys.step] at hstep
      cases hc : commitSchema σ.schemas id schema with
      | none =>
          rw [hc] at hstep
          cases hstep
      | some schemas =>
          rw [hc] at hstep
          cases hstep
          exact commit_inv h hok hc
  | complete o result answer =>
      obtain ⟨ho, ⟨⟩⟩ := Option.ite_none_right_eq_some.mp hstep
      exact complete_inv h ho result answer
  | disconnect id =>
      cases hstep
      exact forget_inv (h.but id)
  | forget id erased =>
      rw [Sys.step] at hstep
      split at hstep <;> cases hstep
      · exact forget_inv (h.forgetSchema id)
      · exact h

theorem seed_inv {σ : Sys} (hσ : machine.ReachableWhen CommitsIdle σ) : SeedInv σ :=
  hσ.invariant (fun _ h => h ▸ boot_inv) fun _ _ _ h hok hstep => step_inv h hok hstep

theorem openJobs_eq (σ : Sys) (id : DeviceId) :
    σ.openJobs id = (jobsOf σ.outstanding id).countP fun o => !o.forgotten := by
  rw [Sys.openJobs, jobsOf, List.countP_filter]
  simp only [Bool.and_comm]

theorem SeedInv.flagRight {σ : Sys} (h : SeedInv σ) : FlagRight σ := by
  intro k hk
  rw [openJobs_eq]
  have hsession := Seed.sessionOf_of_find (h.sessions.lookup_eq hk)
  cases h.views (σ.seed.sessions k).deviceId with
  | gone session => cases session.symm.trans hsession
  | live s w session _ live =>
      obtain rfl := Option.some.inj (session.symm.trans hsession)
      exact live.flag

theorem SeedInv.allRead {σ : Sys} (h : SeedInv σ) : AllRead σ := by
  intro id w hw hok hopen
  rw [openJobs_eq] at hopen
  cases h.views id with
  | gone _ watch => cases watch.symm.trans hw
  | live s w' _ watch live settled =>
      obtain rfl := Option.some.inj (watch.symm.trans hw)
      have hidle : s.jobActive = false := by
        have hflag := live.flag
        by_contra hj
        rw [if_pos (by simpa using hj)] at hflag
        cases hflag.symm.trans hopen
      exact (settled hidle).read hok

/-- A device and a schema of one readable feature. -/
def lamp : DeviceId := strlcpy _ [1]

def lampFeature : Feature := ⟨strlcpy _ (cstr "led_main"), 1⟩

def lampSchema (revision : UInt32) : Schema := ⟨revision, [lampFeature], by decide⟩

/-- The read of the lamp's feature under owner token `owner`, through context `0`. -/
def lampJob (owner : UInt32) : Outstanding := ⟨0, seedJob lamp owner lampFeature, false⟩

def cleanRun : List Label :=
  [.commit lamp (lampSchema 1) (.ok 1), .complete (lampJob 1) none (.ok 2),
    .commit lamp (lampSchema 2) (.ok 3)]

/-- The second commit changes the owner token before the first read's completion arrives. -/
def staleRun : List Label :=
  [.commit lamp (lampSchema 1) (.ok 1), .commit lamp (lampSchema 2) (.ok 2),
    .complete (lampJob 1) (some ⟨1, .cancelled, {}⟩) (.ok 3)]

end BleGateway.StateSeed
