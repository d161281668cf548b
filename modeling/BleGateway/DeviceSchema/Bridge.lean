import BleGateway.DeviceSchema.Accounting

/-! # The bridge and the owner

The component and the adapter each serialize the discoveries: the component by its owner, the
adapter by the bridge, which holds the command at the scheduler. A disconnect and a forget release
the owner at once, the completion of the command frees the bridge. So the two agree as long as no
owner is released while its command is out.
-/

namespace BleGateway.DeviceSchema

/-- A discovery has been started and not handed to the adapter, or the adapter has refused it. -/
def Worker.starting : Worker → Bool
  | .submit _ => true
  | .failed _ => true
  | _ => false

/-- The handler of the event releases the owner. -/
def Event.ends (s : Sys) : Event → Bool
  | .disconnect id => (s.find id).any fun i =>
      decide ((s.records i).operationState = .running) && s.owns (s.records i)
  | .completion context _ => (s.find context.deviceId).isNone || s.finishes context
  | _ => false

namespace Sys

variable {s s' : Sys} {l : Label}

/-- A step that releases no owner while a command is at the bridge, and takes the bridge for an
owner only. -/
def keepsBridge (s : Sys) : Label → Bool
  | .forget id => !s.releases id || s.bridge.isNone
  | .worker ok =>
      match s.worker with
      | .idle => s.queue.head?.all fun e => !e.ends s || s.bridge.isNone
      | .submit _ => !ok || s.owner.active
      | _ => true
  | _ => true

/-- The bridge is free when no discovery owns the component, and when one waits for the bridge. -/
structure BridgeFree (s : Sys) : Prop where
  released : s.owner.active = false → s.bridge = none
  starting : s.worker.starting = true → s.bridge = none

/-! ## What moves the bridge -/

/-- The next submission takes the bridge, and the completion of its command gives it back. -/
inductive BridgeStep (s : Sys) : Label → Sys → Prop
  | kept {l : Label} {s' : Sys} (bridge : s'.bridge = s.bridge)
      (starting : s'.worker.starting = true → s.worker.starting = true ∨ s.owner.active = false) :
      BridgeStep s l s'
  | freed {l : Label} {s' : Sys} (bridge : s'.bridge = none) : BridgeStep s l s'
  | taken {s' : Sys} {context : Context} (worker : s.worker = .submit context)
      (idle : s'.worker.starting = false) (owner : s'.owner = s.owner) :
      BridgeStep s (.worker true) s'

/-- A handler starts nothing by itself. -/
theorem handle_starting (s : Sys) (e : Event) (hw : s.worker.starting = false) :
    (s.handle e).worker.starting = false := by
  cases e with
  | refresh id generation => rfl
  | ready id =>
      show (s.handleReady id).worker.starting = false
      unfold handleReady
      grind [Worker.starting]
  | disconnect id =>
      show (s.handleDisconnect id).worker.starting = false
      unfold handleDisconnect setRecord note
      grind [Worker.starting]
  | notify id msg =>
      show (s.handleNotify id msg).worker.starting = false
      unfold handleNotify setRecord
      grind [Worker.starting]
  | completion context result =>
      show (s.handleCompletion context result).worker.starting = false
      unfold handleCompletion setRecord note
      grind [Worker.starting]

theorem workerStep_bridge {ok : Bool} (hs : s.workerStep ok = some s') :
    BridgeStep s (.worker ok) s' := by
  -- a section that leaves the bridge and starts nothing
  have quiet {s' : Sys} (hbridge : s'.bridge = s.bridge) (hw : s'.worker.starting = false) :
      BridgeStep s (.worker ok) s' := by
    refine .kept hbridge ?_
    intro hstarting
    rw [hw] at hstarting
    cases hstarting
  unfold workerStep at hs
  split at hs
  · rename_i hw
    split at hs
    · cases hs
    · rename_i e rest hq
      cases hs
      have hidle : ({ s with queue := rest } : Sys).worker.starting = false := by
        show s.worker.starting = false
        rw [hw]
        rfl
      exact quiet (handle_pending { s with queue := rest } e).1 (handle_starting _ e hidle)
  · cases hs
    unfold startDiscovery
    split
    · exact quiet rfl rfl
    · rename_i s₁ i hfc
      have hbridge : s₁.bridge = s.bridge := by rw [findOrCreate_eq hfc]
      split
      · exact quiet hbridge rfl
      · rename_i hfree
        exact .kept hbridge fun _ => Or.inr (by simpa using hfree)
  · rename_i hw
    cases hs
    unfold submit
    split
    · rename_i haccepted
      obtain ⟨rfl, -⟩ := haccepted
      exact .taken hw rfl rfl
    · exact .kept rfl fun _ => Or.inl (by rw [hw]; rfl)
  · cases hs
    unfold submitFailed
    split <;> exact quiet rfl rfl
  · cases hs
    unfold startNextPending
    split
    · exact quiet rfl rfl
    · dsimp only
      split <;> exact quiet rfl rfl
  · cases hs
    unfold persist
    dsimp only
    split
    · exact quiet rfl rfl
    · split_ifs <;> exact quiet rfl rfl

/-- **What a step does to the bridge.** -/
theorem step_bridge (hs : s.step l = some s') : BridgeStep s l s' := by
  have same {t : Sys} (hg : t.Grows s') (hbridge : t.bridge = s.bridge)
      (hworker : t.worker = s.worker) : BridgeStep s l s' := by
    refine .kept (hg.bridge.trans hbridge) ?_
    intro hstarting
    rw [hg.worker, hworker] at hstarting
    exact Or.inl hstarting
  cases l with
  | worker ok => exact workerStep_bridge hs
  | jobDone result =>
      simp only [Sys.step] at hs
      split at hs
      · cases hs
        exact .freed rfl
      · cases hs
  | post k =>
      simp only [Sys.step] at hs
      split at hs
      · cases hs
        exact same (post_grows { s with done := s.done.eraseIdx k } _) rfl rfl
      · cases hs
  | ready _ | disconnect _ | notify _ _ | refresh _ | forget _ | call _ _ =>
      exact same (step_grows rfl hs) rfl rfl

/-! ## Who releases the owner -/

/-- A step that releases the owner finds the bridge free, or the adapter has refused the owner's
discovery. -/
theorem free_of_released (hc : Change s l s') (hk : s.keepsBridge l = true)
    (hfree : s'.owner.active = false) :
    s.owner.active = false ∨ s.bridge = none ∨ s.worker.starting = true := by
  have kept (howner : s'.owner = s.owner) :
      s.owner.active = false ∨ s.bridge = none ∨ s.worker.starting = true :=
    Or.inl (howner ▸ hfree)
  -- the event at the head of the queue releases the owner, so that the condition applies
  have ended {ok : Bool} {e : Event} {rest : List Event} (hw : s.worker = .idle)
      (hq : s.queue = e :: rest) (hk : s.keepsBridge (.worker ok) = true)
      (he : e.ends s = true) : s.bridge = none := by
    simpa [keepsBridge, hw, hq, he] using hk
  cases hc with
  | same _ howner _ | reserved _ _ _ _ howner _ | rolledBack _ _ _ howner _
  | refused _ _ _ howner _ | cleared _ _ _ howner _ | unqueued _ _ _ _ _ howner _
  | stored _ _ _ _ _ howner _ | broken _ _ _ _ _ howner _ | committed _ _ _ _ _ howner _
  | waits _ _ _ _ howner _ | marked _ _ howner _ => exact kept howner
  | started _ _ _ _ howner _ =>
      rw [howner] at hfree
      cases hfree
  | @abandoned id _ i hfound _ howner _ =>
      split at howner
      · rename_i hrun
        have hreleases : s.releases id = true := by
          simpa [releases, hfound] using hrun
        exact .inr (.inl (by simpa [keepsBridge, hreleases] using hk))
      · exact kept howner
  | dropped hw hq hfound hrunning howns =>
      exact .inr (.inl (ended hw hq hk (by simp [Event.ends, hfound, hrunning, howns])))
  | orphaned hw hq hmissing =>
      exact .inr (.inl (ended hw hq hk (by simp [Event.ends, hmissing])))
  | finished hw hq hfound hactive hdevice hoperation =>
      exact .inr (.inl (ended hw hq hk (by
        simp [Event.ends, finishes, hactive, hdevice, hoperation])))
  | failed hw | failedGone hw =>
      refine .inr (.inr ?_)
      rw [hw]
      rfl

namespace BridgeFree

theorem step (h : s.BridgeFree) (hk : s.keepsBridge l = true) (hs : s.step l = some s') :
    s'.BridgeFree := by
  cases step_bridge hs with
  | freed hbridge => exact ⟨fun _ => hbridge, fun _ => hbridge⟩
  | kept hbridge hstarting =>
      refine ⟨?_, ?_⟩
      · intro hfree
        rw [hbridge]
        rcases free_of_released (step_change hs) hk hfree with hfree | hnone | hstart
        · exact h.released hfree
        · exact hnone
        · exact h.starting hstart
      · intro hstart
        rw [hbridge]
        exact (hstarting hstart).elim h.starting h.released
  | taken hw hidle howner =>
      have hactive : s.owner.active = true := by
        simpa [keepsBridge, hw] using hk
      refine ⟨?_, ?_⟩
      · intro hfree
        rw [howner, hactive] at hfree
        cases hfree
      · intro hstart
        rw [hidle] at hstart
        cases hstart

end BridgeFree

end Sys

/-- **The adapter is free for the next discovery**: without an owner there is no command at the
bridge, and a discovery that is handed to the adapter is not refused for that. -/
theorem bridge_available {s : Sys}
    (h : machine.ReachableWhen (fun s l => s.keepsBridge l = true) s) :
    (s.owner.active = false → s.bridge = none) ∧
      ∀ context, s.worker = .submit context → (s.submit context true).bridge = some context := by
  have hfree : s.BridgeFree := by
    refine Machine.ReachableWhen.invariant (M := machine) (I := Sys.BridgeFree) ?_ ?_ h
    · intro s₀ h0
      rw [h0.rest]
      exact ⟨fun _ => rfl, fun _ => rfl⟩
    · intro s l s' hfree hk hs
      exact hfree.step hk hs
  refine ⟨hfree.released, ?_⟩
  intro context hw
  have hnone : s.bridge = none := hfree.starting (by rw [hw]; rfl)
  rw [Sys.submit, if_pos ⟨rfl, hnone⟩]

/-- The lamp is discovered, and the plug after it. -/
def inTurnRun : List Label :=
  discover lamp ++ [.jobDone .ok, .post 0, .worker true, .worker true, .ready plug] ++
    List.replicate 2 (.worker true)

theorem bridge_available_in_turn : ∃ s : Sys, ∃ context, s.history.started = 2 ∧
    s.worker = .submit context ∧ (s.submit context true).bridge = some context := by
  have hrun : (machine.runWhen (fun s l => s.keepsBridge l = true) {} inTurnRun).map (fun s =>
      decide (s.history.started = 2) && s.worker.starting && !s.worker.looks) = some true := by
    decide +kernel
  obtain ⟨s, hs, hp⟩ := Machine.exists_reachableWhen_of_run initial_boot hrun
  simp only [Bool.and_eq_true, Bool.not_eq_true', decide_eq_true_eq] at hp
  obtain ⟨⟨hstarted, hstarting⟩, hlooks⟩ := hp
  obtain ⟨context, hw⟩ : ∃ context, s.worker = .submit context := by
    cases hw : s.worker <;> simp [hw, Worker.starting, Worker.looks] at hstarting hlooks
    exact ⟨_, rfl⟩
  exact ⟨s, context, hstarted, hw, (bridge_available hs).2 context hw⟩

/-- The lamp disconnects while its command is out. -/
theorem bridge_unavailable :
    ¬ ∀ s, machine.Reachable s → s.owner.active = false → s.bridge = none := by
  intro h
  have hrun : (machine.run {} (discover lamp ++ [.disconnect lamp, .worker true])).map (fun s =>
      !s.owner.active && s.bridge.isSome) = some true := by
    decide +kernel
  obtain ⟨s, hs, hp⟩ := Machine.exists_reachable_of_run initial_boot hrun
  simp only [Bool.and_eq_true, Bool.not_eq_true'] at hp
  rw [h s hs hp.1] at hp
  exact absurd hp.2 (by decide)

end BleGateway.DeviceSchema
