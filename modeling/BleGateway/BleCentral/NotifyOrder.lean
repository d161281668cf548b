import BleGateway.BleCentral.Mapping
import BleGateway.BleCentral.Notify

/-! # Notifications and the end of their connection

A notification waits in the queue under the id of its device alone. If the disconnected callback
runs for the device meanwhile, or the device is forgotten, the worker still hands it over; nothing
else lets a notification through that is stale.
-/

namespace BleGateway.BleCentral

open CborCodec (Qcbor cborCodecDecode)

namespace Notify

/-- The notifications on their way to the application, the first one first. -/
def waiting (n : Notify) : List NotifyEvent := n.worker.toList ++ n.queue

/-- Every notification that the application was given was handed over in time. -/
def Isolated (n : Notify) : Prop := ∀ event ∈ n.handed, event.stale = false

/-- No notification of the device waits that the decoder accepts. -/
def Clear (q : Qcbor) (n : Notify) (id : DeviceId) : Prop :=
  ∀ event ∈ n.waiting, event.deviceId = id → (cborCodecDecode q event.cborBuf).isNone

/-- The disconnected callback and a forget find nothing of the device waiting, and nothing is put
into the queue that is stale. -/
def Prompt (q : Qcbor) (n : Notify) : NotifyLabel → Prop
  | .emit => ∀ id ∈ n.pending.take 1, id.text ≠ [] → n.Clear q id
  | .forget id => n.Clear q id
  | .enqueue => ∀ event ∈ (n.rx.bind n.made).toList, event.stale →
      (cborCodecDecode q event.cborBuf).isNone
  | _ => True

/-- What the worker will hand over is not stale. -/
structure Fresh (q : Qcbor) (n : Notify) : Prop where
  waiting : ∀ event ∈ n.waiting, (cborCodecDecode q event.cborBuf).isSome → event.stale = false
  handed : n.Isolated

variable {q : Qcbor} {n n' : Notify}

/-! ## What the steps do with the notifications -/

theorem bleStep_eq_some {l : Label} (h : n.bleStep l = some n') :
    n'.waiting = n.waiting ∧ n'.handed = n.handed := by
  rw [bleStep] at h
  split at h
  · cases h
  · obtain ⟨s, -, rfl⟩ := Option.map_eq_some_iff.mp h
    exact ⟨rfl, rfl⟩

theorem notifyRx_eq_some {k : CtxIx} {handle : UInt16} {status : Bool} {data : List UInt8}
    {copied : Bool} (h : n.notifyRx k handle status data copied = some n') :
    n'.waiting = n.waiting ∧ n'.handed = n.handed := by
  rw [notifyRx] at h
  split at h
  · cases h
  · split at h
    · cases h
      exact ⟨rfl, rfl⟩
    · split at h <;> cases h <;> exact ⟨rfl, rfl⟩

theorem enqueue_eq_some (h : n.enqueue = some n') :
    n'.waiting = n.waiting ++ (n.rx.bind n.made).toList ∧ n'.handed = n.handed := by
  obtain ⟨rx, hrx, rfl⟩ := Option.map_eq_some_iff.mp h
  rw [hrx]
  exact ⟨(List.append_assoc ..).symm, rfl⟩

theorem waiting_markOver (n : Notify) (id : DeviceId) :
    (n.markOver id).waiting = n.waiting.map (·.mark id) := by
  rw [waiting, waiting, List.map_append, markOver]
  cases n.worker <;> rfl

/-- The disconnected callback runs, unless the device has no id. -/
theorem emit_eq_some (h : n.emit = some n') : n'.handed = n.handed ∧
    ∃ id, n.pending.take 1 = [id] ∧ n'.waiting =
      if id.text = [] then n.waiting else n.waiting.map (·.mark id) := by
  rw [emit] at h
  split at h
  · cases h
  · rename_i id rest hp
    cases h
    refine ⟨by split <;> rfl, id, by rw [hp]; rfl, ?_⟩
    split
    · rfl
    · exact waiting_markOver n id

theorem waiting_forget (n : Notify) (id : DeviceId) :
    (n.forget id).waiting = n.waiting.map (·.mark id) :=
  waiting_markOver n id

theorem receive_eq_some (h : n.receive = some n') :
    n'.waiting = n.waiting ∧ n'.handed = n.handed := by
  rw [receive] at h
  split at h
  · rename_i event queue hw hq
    cases h
    refine ⟨?_, rfl⟩
    rw [waiting, waiting, hw, hq]
    rfl
  · cases h

theorem deliver_eq_some (h : n.deliver q = some n') : ∃ event, n.waiting = event :: n'.waiting ∧
    n'.handed = if (cborCodecDecode q event.cborBuf).isSome then n.handed ++ [event]
      else n.handed := by
  obtain ⟨event, hw, rfl⟩ := Option.map_eq_some_iff.mp h
  refine ⟨event, ?_, ?_⟩
  · rw [waiting, hw]
    split <;> rfl
  · split <;> rename_i hd <;> rw [hd] <;> rfl

theorem mark_eq (id : DeviceId) (event : NotifyEvent) :
    (event.mark id).deviceId = event.deviceId ∧ (event.mark id).cborBuf = event.cborBuf ∧
      (event.mark id).stale = (event.stale || decide (event.deviceId = id)) := by
  rw [NotifyEvent.mark]
  split
  · rename_i hid
    simp [hid]
  · rename_i hid
    simp [hid]

/-! ## In time -/

/-- Marking the notifications of a device of which none waits marks no one that is handed over. -/
theorem fresh_mark {events : List NotifyEvent} {id : DeviceId}
    (hfresh : ∀ event ∈ events, (cborCodecDecode q event.cborBuf).isSome → event.stale = false)
    (hclear : ∀ event ∈ events, event.deviceId = id → (cborCodecDecode q event.cborBuf).isNone) :
    ∀ event ∈ events.map (·.mark id), (cborCodecDecode q event.cborBuf).isSome →
      event.stale = false := by
  intro marked hmarked hdecodes
  obtain ⟨event, hevent, rfl⟩ := List.mem_map.mp hmarked
  obtain ⟨-, hbuf, hstale⟩ := mark_eq id event
  rw [hbuf] at hdecodes
  have hid : event.deviceId ≠ id := by
    intro hid
    have hnone := hclear event hevent hid
    rw [Option.isNone_iff_eq_none] at hnone
    rw [hnone] at hdecodes
    cases hdecodes
  rw [hstale, hfresh event hevent hdecodes, decide_eq_false hid]
  rfl

theorem fresh_step {l : NotifyLabel} (h : n.Fresh q) (hok : n.Prompt q l)
    (hstep : n.step q l = some n') : n'.Fresh q := by
  cases l with
  | ble l =>
      obtain ⟨hwaiting, hhanded⟩ := bleStep_eq_some hstep
      exact ⟨hwaiting ▸ h.waiting, fun e he => h.handed e (hhanded ▸ he)⟩
  | notifyRx k handle status data copied =>
      obtain ⟨hwaiting, hhanded⟩ := notifyRx_eq_some hstep
      exact ⟨hwaiting ▸ h.waiting, fun e he => h.handed e (hhanded ▸ he)⟩
  | enqueue =>
      obtain ⟨hwaiting, hhanded⟩ := enqueue_eq_some hstep
      refine ⟨fun event hevent hdecodes => ?_, fun e he => h.handed e (hhanded ▸ he)⟩
      rw [hwaiting] at hevent
      rcases List.mem_append.mp hevent with hold | hnew
      · exact h.waiting event hold hdecodes
      · by_contra hstale
        have hnone := hok event hnew (by simpa using hstale)
        rw [Option.isNone_iff_eq_none] at hnone
        rw [hnone] at hdecodes
        cases hdecodes
  | emit =>
      obtain ⟨hhanded, id, hid, hwaiting⟩ := emit_eq_some hstep
      refine ⟨?_, fun e he => h.handed e (hhanded ▸ he)⟩
      rw [hwaiting]
      split
      · exact h.waiting
      · rename_i htext
        exact fresh_mark h.waiting (hok id (by rw [hid]; exact List.mem_singleton_self id) htext)
  | forget id =>
      cases hstep
      refine ⟨?_, h.handed⟩
      rw [waiting_forget]
      exact fresh_mark h.waiting hok
  | receive =>
      obtain ⟨hwaiting, hhanded⟩ := receive_eq_some hstep
      exact ⟨hwaiting ▸ h.waiting, fun e he => h.handed e (hhanded ▸ he)⟩
  | deliver =>
      obtain ⟨event, hwaiting, hhanded⟩ := deliver_eq_some hstep
      refine ⟨fun e he => h.waiting e (hwaiting ▸ List.mem_cons_of_mem _ he), fun e he => ?_⟩
      rw [hhanded] at he
      split at he
      · rename_i hdecodes
        rcases List.mem_append.mp he with hold | hnew
        · exact h.handed e hold
        · rw [List.mem_singleton.mp hnew]
          exact h.waiting event (hwaiting ▸ List.mem_cons_self) hdecodes
      · exact h.handed e he

/-! ## Too late -/

/-- The steps of the notify worker. -/
def NotifyLabel.ofWorker : NotifyLabel → Prop
  | .receive | .deliver => True
  | _ => False

/-- The worker alone can hand the notification over next. -/
def HandsOver (q : Qcbor) (n : Notify) (event : NotifyEvent) : Prop :=
  ∃ ls n' es, (∀ l ∈ ls, NotifyLabel.ofWorker l) ∧ (notifyMachine q).run n ls = some n' ∧
    n'.handed = n.handed ++ es ++ [event]

/-- With its hands free the worker takes the next notification out first. -/
theorem exists_taken (hwaits : n.waiting ≠ []) : ∃ ls n', (∀ l ∈ ls, NotifyLabel.ofWorker l) ∧
    (notifyMachine q).run n ls = some n' ∧ n'.waiting = n.waiting ∧ n'.handed = n.handed ∧
      n'.worker.isSome := by
  cases hw : n.worker with
  | some first => exact ⟨[], n, by simp, rfl, rfl, rfl, by rw [hw]; rfl⟩
  | none =>
      cases hq : n.queue with
      | nil => exact absurd (by rw [waiting, hw, hq]; rfl) hwaits
      | cons first rest =>
          have hreceive : n.receive = some { n with queue := rest, worker := some first } := by
            rw [receive, hw, hq]
          obtain ⟨hwaiting, hhanded⟩ := receive_eq_some hreceive
          refine ⟨[.receive], _, by simp [NotifyLabel.ofWorker], ?_, hwaiting, hhanded, rfl⟩
          show (n.receive).bind _ = _
          rw [hreceive]
          rfl

/-- The worker goes on until it has handed the notification over. -/
theorem handsOver_of_waiting {event : NotifyEvent} (hevent : event ∈ n.waiting)
    (hdecodes : (cborCodecDecode q event.cborBuf).isSome) : HandsOver q n event := by
  -- by induction on what the worker has to do before
  induction hlen : n.waiting.length generalizing n with
  | zero =>
      rw [List.length_eq_zero_iff.mp hlen] at hevent
      cases hevent
  | succ len ih =>
      obtain ⟨ls, n₁, hls, hrun, hwaiting, hhanded₁, hfirst⟩ :=
        exists_taken (q := q) (n := n) (List.ne_nil_of_mem hevent)
      obtain ⟨first, hfirst⟩ := Option.isSome_iff_exists.mp hfirst
      obtain ⟨n₂, hdeliver⟩ : ∃ n₂, n₁.deliver q = some n₂ := by
        rw [deliver, hfirst]
        exact ⟨_, rfl⟩
      obtain ⟨e, hcons, hhanded⟩ := deliver_eq_some hdeliver
      rw [hwaiting] at hcons
      rw [hhanded₁] at hhanded
      have hrun₂ : (notifyMachine q).run n (ls ++ [.deliver]) = some n₂ := by
        rw [Machine.run_concat, hrun]
        exact hdeliver
      have hls₂ : ∀ l ∈ ls ++ [.deliver], NotifyLabel.ofWorker l := by
        simpa [or_imp, forall_and, NotifyLabel.ofWorker] using hls
      rw [hcons] at hevent
      rcases List.mem_cons.mp hevent with rfl | hrest
      · rw [if_pos hdecodes] at hhanded
        exact ⟨ls ++ [.deliver], n₂, [], hls₂, hrun₂, by rw [hhanded, List.append_nil]⟩
      · have hlen' : n₂.waiting.length = len := by
          rw [hcons] at hlen
          simpa using hlen
        obtain ⟨ls', n', es, hls', hrun', hhanded'⟩ := ih hrest hlen'
        have hmore : ∃ es', n₂.handed = n.handed ++ es' := by
          rw [hhanded]
          split
          · exact ⟨[e], rfl⟩
          · exact ⟨[], (List.append_nil _).symm⟩
        obtain ⟨es', hmore⟩ := hmore
        refine ⟨ls ++ [.deliver] ++ ls', n', es' ++ es, ?_, ?_, ?_⟩
        · exact fun l hl => (List.mem_append.mp hl).elim (hls₂ l) (hls' l)
        · rw [Machine.run_append, hrun₂]
          exact hrun'
        · rw [hhanded', hmore, List.append_assoc n.handed]

/-- The device whose disconnected callback runs, or which is forgotten. -/
def Silences (n : Notify) : NotifyLabel → DeviceId → Prop
  | .emit, id => id ∈ n.pending.take 1
  | .forget k, id => id = k
  | _, _ => False

/-- A step that does not meet the condition lets a notification of its device wait that is stale. -/
theorem waiting_of_not_prompt {l : NotifyLabel} (hstep : n.step q l = some n')
    (h : ¬ n.Prompt q l) : ∃ event ∈ n'.waiting,
      (∀ id, n.Silences l id → event.deviceId = id) ∧ event.stale = true ∧
        (cborCodecDecode q event.cborBuf).isSome := by
  -- a notification that waits for a device that is marked is stale then
  have hmarked : ∀ id, ¬ n.Clear q id → ∃ event ∈ n.waiting.map (·.mark id),
      (∀ k, k = id → event.deviceId = k) ∧ event.stale = true ∧
        (cborCodecDecode q event.cborBuf).isSome := by
    intro id hnot
    simp only [Clear, not_forall] at hnot
    obtain ⟨event, hevent, hid, hdecodes⟩ := hnot
    obtain ⟨hsame, hbuf, hstale⟩ := mark_eq id event
    refine ⟨event.mark id, List.mem_map_of_mem hevent, fun k hk => ?_, ?_, ?_⟩
    · rw [hsame, hid, hk]
    · rw [hstale, decide_eq_true hid, Bool.or_true]
    · rw [hbuf, Option.isSome_iff_ne_none]
      simpa using hdecodes
  cases l with
  | enqueue =>
      obtain ⟨hwaiting, -⟩ := enqueue_eq_some hstep
      simp only [Prompt, not_forall] at h
      obtain ⟨event, hevent, hstale, hdecodes⟩ := h
      refine ⟨event, ?_, fun _ hid => hid.elim, hstale, ?_⟩
      · rw [hwaiting]
        exact List.mem_append_right _ hevent
      · rw [Option.isSome_iff_ne_none]
        simpa using hdecodes
  | emit =>
      obtain ⟨-, id, hid, hwaiting⟩ := emit_eq_some hstep
      simp only [Prompt, hid, List.mem_singleton, forall_eq, Classical.not_imp] at h
      simp only [Silences, hid, List.mem_singleton]
      rw [hwaiting, if_neg h.1]
      exact hmarked id h.2
  | forget id =>
      cases hstep
      rw [waiting_forget]
      exact hmarked id h
  | ble _ | notifyRx _ _ _ _ _ | receive | deliver => exact absurd trivial h

end Notify

/-- **Stale notifications are kept apart** in every run in which the disconnected callback and the
forgets come when nothing of their device waits: every notification is handed over while its
connection lasts and its device is known. -/
theorem isolated_of_prompt {q : Qcbor} {n : Notify}
    (h : (notifyMachine q).ReachableWhen (Notify.Prompt q) n) : n.Isolated := by
  have hfresh : n.Fresh q := by
    refine h.invariant (fun n h0 => ?_) fun n l n' hn hok hstep => Notify.fresh_step hn hok hstep
    rw [h0.2]
    exact ⟨fun e he => absurd he List.not_mem_nil, fun e he => absurd he List.not_mem_nil⟩
  exact hfresh.handed

/-- The condition leaves out no more than it must: behind a step that does not meet it a
notification of its device waits that is stale, and the worker alone hands it over. -/
theorem late_of_not_prompt {q : Qcbor} {n n' : Notify} {l : NotifyLabel}
    (hstep : n.step q l = some n') (h : ¬ n.Prompt q l) :
    ∃ event ∈ n'.waiting, (∀ id, n.Silences l id → event.deviceId = id) ∧ event.stale = true ∧
      Notify.HandsOver q n' event := by
  obtain ⟨event, hevent, hid, hstale, hdecodes⟩ := Notify.waiting_of_not_prompt hstep h
  exact ⟨event, hevent, hid, hstale, Notify.handsOver_of_waiting hevent hdecodes⟩

/-! ## A notification of the lamp -/

/-- A message that the decoder accepts: version 4, type "state", command "on" with the values 0 and
false, and no device. -/
def lampOn : List UInt8 :=
  [165, 0, 4, 1, 101, 115, 116, 97, 116, 101, 3, 98, 111, 110, 4, 0, 5, 244]

/-- The lamp has a link and a notification of it is put into the queue. -/
def notifiedLamp : List NotifyLabel :=
  connectLamp.map .ble ++ [.notifyRx slotA 7 true lampOn true, .enqueue]

/-- The link is lost, and the disconnected callback runs. -/
def lostNotified : List NotifyLabel :=
  [.ble (.disconnectEvent 0), .ble (.host true 0), .ble (.host true 0), .emit]

def twoDevicesNotify : Notify := { ble := twoDevices }

theorem twoDevicesNotify_initial (q : Qcbor) : (notifyMachine q).init twoDevicesNotify :=
  ⟨twoDevices_initial, rfl⟩

instance (q : Qcbor) (n : Notify) (id : DeviceId) : Decidable (n.Clear q id) :=
  inferInstanceAs (Decidable (∀ event ∈ n.waiting, _ → _))

instance (q : Qcbor) (n : Notify) : (l : NotifyLabel) → Decidable (n.Prompt q l)
  | .emit => inferInstanceAs (Decidable (∀ id ∈ n.pending.take 1, _ → n.Clear q id))
  | .forget id => inferInstanceAs (Decidable (n.Clear q id))
  | .enqueue => inferInstanceAs (Decidable (∀ event ∈ (n.rx.bind n.made).toList, _ → _))
  | .ble _ | .notifyRx _ _ _ _ _ | .receive | .deliver => inferInstanceAs (Decidable True)

set_option maxRecDepth 100000 in
/-- The worker comes before the disconnected callback. -/
theorem isolated_lamp : ∃ n : Notify, n.handed.length = 1 ∧ n.pending = [] ∧ n.ble.links = [] ∧
    n.Isolated := by
  have hrun : ((notifyMachine .shortest).runWhen (Notify.Prompt .shortest) twoDevicesNotify
      (notifiedLamp ++ [.receive, .deliver] ++ lostNotified)).map (fun n =>
        decide (n.handed.length = 1 ∧ n.pending = [] ∧ n.ble.links = [])) = some true := by
    decide +kernel
  obtain ⟨n, hn, hp⟩ :=
    Machine.exists_reachableWhen_of_run (twoDevicesNotify_initial .shortest) hrun
  obtain ⟨hhanded, hpending, hlinks⟩ := of_decide_eq_true hp
  exact ⟨n, hhanded, hpending, hlinks, isolated_of_prompt hn⟩

set_option maxRecDepth 100000 in
/-- The disconnected callback comes before the worker. -/
theorem overtaken_lamp : ∃ n, (notifyMachine .shortest).Reachable n ∧ ¬ n.Isolated := by
  have hrun : ((notifyMachine .shortest).run twoDevicesNotify
      (notifiedLamp ++ lostNotified ++ [.receive, .deliver])).map (fun n =>
        n.handed.any (·.stale)) = some true := by
    decide +kernel
  obtain ⟨n, hn, hp⟩ := Machine.exists_reachable_of_run (twoDevicesNotify_initial .shortest) hrun
  refine ⟨n, hn, fun hisolated => ?_⟩
  obtain ⟨event, hevent, hstale⟩ := List.any_eq_true.mp hp
  rw [hisolated event hevent] at hstale
  cases hstale

set_option maxRecDepth 100000 in
theorem late_of_not_prompt_lamp : ∃ n n' : Notify, n.step .shortest .emit = some n' ∧
    ∃ event ∈ n'.waiting, event.deviceId = lamp ∧ event.stale = true ∧
      n'.HandsOver .shortest event := by
  have hrun : (((notifyMachine .shortest).run twoDevicesNotify
      (notifiedLamp ++ lostNotified.dropLast)).bind fun n => (n.step .shortest .emit).map fun _ =>
        decide (¬ n.Prompt .shortest .emit ∧ lamp ∈ n.pending.take 1)) = some true := by
    decide +kernel
  obtain ⟨n, -, hmap⟩ := Option.bind_eq_some_iff.mp hrun
  obtain ⟨n', hstep, hp⟩ := Option.map_eq_some_iff.mp hmap
  obtain ⟨hnot, hlamp⟩ := of_decide_eq_true hp
  obtain ⟨event, hevent, hid, hlate⟩ := late_of_not_prompt hstep hnot
  exact ⟨n, n', hstep, event, hevent, hid lamp hlamp, hlate⟩

end BleGateway.BleCentral
