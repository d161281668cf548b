import BleGateway.WifiProv.Boot

/-! # CONNECTED means connected

When `wifi_prov_init` sets CONNECTED it goes by a bit that the handler set some time before. If a
disconnect has been handled since, under the rules of BOOT_CONNECTING, or the retries were used up
before the address came, the state is CONNECTED all the same and no later event repairs it.
Otherwise CONNECTED is kept true by the handler for the whole run.
-/

namespace BleGateway.WifiProv.Boot

/-! ## The property -/

/-- The handler is at work on a disconnect. -/
def Act.onDisconnected : Act → Bool
  | .readFlag | .readState _ | .retry | .reconnect | .giveUp | .setFailedBit
  | .runtimeRetry | .setReconnecting _ | .disableRetry | .setFailed => true
  | _ => false

/-- A disconnect is waiting or being handled. -/
def Sys.Unhandled (s : Sys) : Prop :=
  .staDisconnected ∈ s.events ∨ s.handler.any Act.onDisconnected = true

instance (s : Sys) : Decidable s.Unhandled := inferInstanceAs (Decidable (_ ∨ _))

/-- In CONNECTED the station has an address or its disconnect has not been handled. And after a
successful boot connection the loss of an address, once handled, leaves an attempt under way or the
state RECONNECTING or FAILED. -/
def Truthful (s : Sys) : Prop :=
  (s.state = .connected → s.link = .up ∨ s.Unhandled) ∧
    (s.boot = .connected → s.link = .up ∨ s.Unhandled ∨ s.link = .connecting ∨
      s.state = .reconnecting ∨ s.state = .failed)

instance (s : Sys) : Decidable (Truthful s) := inferInstanceAs (Decidable (_ ∧ _))

/-- When the boot task sets CONNECTED, retries are enabled, and the last address is not one whose
disconnect the handler has judged by an earlier state. -/
def Sys.MayConnect (s : Sys) : Prop :=
  s.retryEnabled = true ∧
    (s.hasIp = true ∨ s.handler = some .readFlag ∨ s.handler = some (.readState true))

instance (s : Sys) : Decidable s.MayConnect := inferInstanceAs (Decidable (_ ∧ _))

/-- The steps that keep the property. -/
def Timely (s : Sys) : Label → Prop
  | .work _ => s.boot = .setConnected → s.MayConnect
  | _ => True

instance (s : Sys) (l : Label) : Decidable (Timely s l) := by
  cases l <;> unfold Timely <;> infer_instance

/-! ## The invariant -/

/-- What the handler rests on: a disconnect that it took up has taken the address and, judged by
BOOT_CONNECTING, came before the boot task was connected; an event that brought the address leaves
it in place. -/
def Sys.Bears (s : Sys) : Act → Prop
  | .connect | .reconnect => True
  | .readFlag | .readState _ => s.hasIp = false
  | .retry | .giveUp | .setFailedBit => s.hasIp = false ∧ s.boot ≠ .connected
  | .runtimeRetry | .setReconnecting _ => s.state = .connected ∨ s.state = .reconnecting
  | .disableRetry | .setFailed => s.state = .reconnecting
  | .resetRetry | .setGotIpBit | .setConnected => s.hasIp = true

/-- The handler has yet to set RECONNECTING for a disconnect that it took up. -/
def Act.turning : Act → Bool
  | .readFlag | .readState true | .runtimeRetry | .setReconnecting _ => true
  | _ => false

/-- The station has each address that waits still, or a disconnect waits behind it. -/
def Answered (link : Link) : List Event → Prop
  | [] => True
  | .staGotIp :: events => (link = .up ∨ .staDisconnected ∈ events) ∧ Answered link events
  | _ :: events => Answered link events

/-- The handler has been unregistered, and what it set is being cleared. -/
def Point.clears : Point → Bool
  | .clearRetry | .clearIp => true
  | _ => false

structure Inv (s : Sys) : Prop where
  answered : Answered s.link s.events
  hasIp : s.hasIp = true → s.link = .up ∨ .staDisconnected ∈ s.events
  bears : ∀ a, s.handler = some a → s.Bears a
  connected : s.state = .connected → s.retryEnabled = true ∧
    (s.hasIp = true ∨ s.handler.any Act.turning = true)
  reconnecting : s.state = .reconnecting → s.retryEnabled = true ∨ s.handler = some .setFailed
  only : s.state = .connected ∨ s.state = .reconnecting → s.boot = .connected
  booted : s.boot = .connected →
    s.state = .connected ∨ s.state = .reconnecting ∨ s.state = .failed
  cleanup : s.boot.clears = true → s.handler = none ∧ s.registered = false

variable {a : Act} {s : Sys} {events : List Event}

theorem Act.turning_onDisconnected (h : a.turning = true) : a.onDisconnected = true := by
  cases a <;> simp_all [Act.turning, Act.onDisconnected]

/-- Only the address, the state that a disconnect is judged by at runtime and the end of the boot
task matter. -/
theorem Sys.Bears.mono {t : Sys} (h : s.Bears a) (hip : t.hasIp = s.hasIp)
    (hstate : s.state = .connected ∨ s.state = .reconnecting → t.state = s.state)
    (hboot : s.boot ≠ .connected → t.boot ≠ .connected) : t.Bears a := by
  cases a with
  | connect | reconnect => trivial
  | readFlag | readState => exact hip.trans h
  | retry | giveUp | setFailedBit => exact ⟨hip.trans h.1, hboot h.2⟩
  | runtimeRetry | setReconnecting =>
      show t.state = .connected ∨ t.state = .reconnecting
      rw [hstate h]
      exact h
  | disableRetry | setFailed => exact (hstate (Or.inr h)).trans h
  | resetRetry | setGotIpBit | setConnected => exact hip.trans h

/-- **The invariant suffices.** -/
theorem Inv.truthful (h : Inv s) : Truthful s := by
  have hconn : s.state = .connected → s.link = .up ∨ s.Unhandled := by
    intro hs
    rcases (h.connected hs).2 with hip | hturn
    · rcases h.hasIp hip with hup | hwait
      · exact Or.inl hup
      · exact Or.inr (Or.inl hwait)
    · obtain ⟨a, ha, hta⟩ := (Option.any_eq_true _ _).mp hturn
      refine Or.inr (Or.inr ?_)
      rw [ha]
      exact Act.turning_onDisconnected hta
  refine ⟨hconn, fun hb => ?_⟩
  rcases h.booted hb with hs | hs | hs
  · rcases hconn hs with hup | hun
    · exact Or.inl hup
    · exact Or.inr (Or.inl hun)
  · exact Or.inr (Or.inr (Or.inr (Or.inl hs)))
  · exact Or.inr (Or.inr (Or.inr (Or.inr hs)))

theorem Inv.init : Inv {} where
  answered := trivial
  hasIp h := by simp at h
  bears a h := by simp at h
  connected h := by simp at h
  reconnecting h := by simp at h
  only h := by simp at h
  booted h := by simp at h
  cleanup h := by simp [Point.clears] at h

/-! ## The driver -/

/-- A change of the driver that keeps what the handler and the boot task go by. -/
theorem Inv.driver {s : Sys} (h : Inv s) {link : Link} {events : List Event}
    (ha : Answered link events)
    (hi : s.hasIp = true → link = .up ∨ .staDisconnected ∈ events) :
    Inv { s with link := link, events := events } :=
  { h with answered := ha, hasIp := hi }

theorem answered_up (events : List Event) : Answered .up events := by
  induction events with
  | nil => trivial
  | cons e events ih =>
      cases e with
      | staGotIp => exact ⟨Or.inl rfl, ih⟩
      | staStart | staDisconnected => exact ih

/-- With a disconnect at the end, every address is answered. -/
theorem answered_disconnect (link : Link) (events : List Event) :
    Answered link (events ++ [.staDisconnected]) := by
  induction events with
  | nil => trivial
  | cons e events ih =>
      cases e with
      | staGotIp => exact ⟨Or.inr (by simp), ih⟩
      | staStart | staDisconnected => exact ih

variable {link : Link} {retryEnabled : Bool}

theorem answered_start (h : Answered link events) :
    Answered link (events ++ [.staStart]) := by
  induction events with
  | nil => trivial
  | cons e events ih =>
      cases e with
      | staGotIp => exact ⟨h.1.imp_right (List.mem_append_left _), ih h.2⟩
      | staStart | staDisconnected => exact ih h

/-- Without a link that is up, whether addresses are answered depends on the events alone. -/
theorem Answered.down {link' : Link} (h : Answered link events) (hno : link ≠ .up) :
    Answered link' events := by
  induction events with
  | nil => trivial
  | cons e events ih =>
      cases e with
      | staGotIp => exact ⟨Or.inr (h.1.resolve_left hno), ih h.2⟩
      | staStart | staDisconnected => exact ih h

theorem Answered.tail {e : Event} (h : Answered link (e :: events)) :
    Answered link events := by
  cases e with
  | staGotIp => exact h.2
  | staStart => exact h
  | staDisconnected => exact h

theorem Inv.connect (h : Inv s) (ok : Bool) : Inv (s.connect ok) := by
  unfold Sys.connect
  split
  · rename_i hidle
    have hno : s.link ≠ .up := by simp [hidle.2]
    exact @Inv.driver s h .connecting s.events (h.answered.down hno) fun hip =>
      Or.inr ((h.hasIp hip).resolve_left hno)
  · exact h

theorem Inv.drop (h : Inv s) :
    Inv { s with link := .idle, events := s.events ++ [.staDisconnected] } :=
  h.driver (answered_disconnect _ _) fun _ => Or.inr (by simp)

theorem Inv.disconnect (h : Inv s) : Inv s.disconnect := by
  unfold Sys.disconnect
  split
  · exact h
  · exact h.drop

/-! ## The boot task -/

/-- A step of the boot task that leaves the handler, the driver and the state as they are, before
the state is CONNECTED. -/
theorem Inv.task (h : Inv s) (hb : s.boot ≠ .connected) {boot : Point} {gotIp failed : Bool}
    {retryCount : Nat} (hboot : boot ≠ .connected)
    (hclean : boot.clears = true → s.handler = none ∧ s.registered = false) :
    Inv { s with
      boot := boot
      gotIp := gotIp
      failed := failed
      retryEnabled := retryEnabled
      retryCount := retryCount } where
  answered := h.answered
  hasIp := h.hasIp
  bears a ha := (h.bears a ha).mono rfl (fun _ => rfl) fun _ => hboot
  connected hs := absurd (h.only (Or.inl hs)) hb
  reconnecting hs := absurd (h.only (Or.inr hs)) hb
  only hs := absurd (h.only hs) hb
  booted hs := absurd hs hboot
  cleanup := hclean

/-- A step of the boot task to another state than CONNECTED. -/
theorem Inv.setState (h : Inv s) (hb : s.boot ≠ .connected) {boot : Point} {state : ProvState}
    (hboot : boot ≠ .connected) (hclean : boot.clears = false)
    (hstate : ¬(state = .connected ∨ state = .reconnecting)) :
    Inv { s with boot := boot, state := state } where
  answered := h.answered
  hasIp := h.hasIp
  bears a ha := (h.bears a ha).mono rfl (fun hs => absurd (h.only hs) hb) fun _ => hboot
  connected hs := absurd (Or.inl hs) hstate
  reconnecting hs := absurd (Or.inr hs) hstate
  only hs := absurd hs hstate
  booted hs := absurd hs hboot
  cleanup hc := absurd (hclean.symm.trans hc) (by simp)

/-- `set_state(CONNECTED)` of `wifi_prov_init`. -/
theorem Inv.setConnected (h : Inv s) (hb : s.boot = .setConnected) (hmay : s.MayConnect) :
    Inv { s with state := .connected, boot := .connected } where
  answered := h.answered
  hasIp := h.hasIp
  bears a (ha : s.handler = some a) := by
    have hbears := h.bears a ha
    have hip : s.hasIp = true ∨ a = .readFlag ∨ a = .readState true := by simpa [ha] using hmay.2
    cases a with
    | connect | reconnect => trivial
    | readFlag | readState | resetRetry | setGotIpBit | setConnected => exact hbears
    | retry | giveUp | setFailedBit =>
        -- what has judged by BOOT_CONNECTING has forgotten the address
        simp [hbears.1] at hip
    | runtimeRetry | setReconnecting => exact Or.inl rfl
    | disableRetry | setFailed =>
        have hr := h.only (Or.inr hbears)
        simp [hb] at hr
  connected _ := by
    refine ⟨hmay.1, ?_⟩
    rcases hmay.2 with hip | ha | ha
    · exact Or.inl hip
    · exact Or.inr (by simp [ha, Act.turning])
    · exact Or.inr (by simp [ha, Act.turning])
  reconnecting hs := by simp at hs
  only _ := rfl
  booted _ := Or.inl rfl
  cleanup hc := by simp [Point.clears] at hc

/-- The address is forgotten when no event is being handled. -/
theorem Inv.clearIp (h : Inv s) (hb : s.boot ≠ .connected) (hn : s.handler = none) :
    Inv { s with hasIp := false, boot := .toUninit } where
  answered := h.answered
  hasIp hip := by simp at hip
  bears a ha := absurd (hn.symm.trans ha) (by simp)
  connected hs := absurd (h.only (Or.inl hs)) hb
  reconnecting hs := absurd (h.only (Or.inr hs)) hb
  only hs := absurd (h.only hs) hb
  booted hs := by simp at hs
  cleanup hc := by simp [Point.clears] at hc

/-- The handler is unregistered when no event is being handled. -/
theorem Inv.unregister (h : Inv s) (hb : s.boot ≠ .connected) (hn : s.handler = none) :
    Inv { s with registered := false, boot := .clearRetry } where
  answered := h.answered
  hasIp := h.hasIp
  bears a ha := absurd (hn.symm.trans ha) (by simp)
  connected hs := absurd (h.only (Or.inl hs)) hb
  reconnecting hs := absurd (h.only (Or.inr hs)) hb
  only hs := absurd (h.only hs) hb
  booted hs := by simp at hs
  cleanup _ := ⟨hn, rfl⟩

theorem Inv.work {s' : Sys} {ok : Bool} (h : Inv s) (ht : Timely s (.work ok))
    (hstep : s.work ok = some s') : Inv s' := by
  have hplain : ∀ {boot : Point}, boot.clears = false →
      boot.clears = true → s.handler = none ∧ s.registered = false :=
    fun hf hc => absurd (hf.symm.trans hc) (by simp)
  cases hb : s.boot <;> simp only [Sys.work, hb] at hstep
  case resolve | startAp | startWifi | configure | enterProvisioning =>
    cases hstep
    refine h.task (by simp [hb]) ?_ (hplain ?_) <;> cases ok <;> simp [Point.clears]
  case clearBits | resetRetry | enableRetry | startFailed | resetAgain | stopRetry =>
    cases hstep
    exact h.task (by simp [hb]) (by simp) (hplain rfl)
  case bootConnecting | setProvisioning | setFailed | toUninit =>
    cases hstep
    exact h.setState (by simp [hb]) (by simp) rfl (by simp)
  case connect =>
    cases hstep
    have hboot : (s.connect ok).boot ≠ .connected := by
      unfold Sys.connect
      split <;> simp [hb]
    refine (h.connect ok).task hboot ?_ (fun hc => ?_)
    · cases ok <;> simp
    · cases ok <;> simp [Point.clears] at hc
  case wait =>
    split at hstep
    · cases hstep
      exact h.task (by simp [hb]) (by simp) (hplain rfl)
    · split at hstep
      · cases hstep
        exact h.task (by simp [hb]) (by simp) (hplain rfl)
      · simp at hstep
  case setConnected =>
    cases hstep
    exact h.setConnected hb (ht hb)
  case stopDisconnect =>
    cases hstep
    have hboot : s.disconnect.boot ≠ .connected := by
      unfold Sys.disconnect
      split <;> simp [hb]
    exact h.disconnect.task hboot (by simp) (fun hc => by simp [Point.clears] at hc)
  case unregister =>
    split at hstep
    · rename_i hnone
      cases hstep
      have hn : s.handler = none := Option.isNone_iff_eq_none.mp hnone
      exact h.unregister (by simp [hb]) hn
    · simp at hstep
  case clearRetry =>
    cases hstep
    exact h.task (by simp [hb]) (by simp) fun _ => h.cleanup (by simp [hb, Point.clears])
  case clearIp =>
    cases hstep
    obtain ⟨hn, hr⟩ := h.cleanup (by simp [hb, Point.clears])
    exact h.clearIp (by simp [hb]) hn
  case connected | portal | failed => simp at hstep

/-! ## The event handler -/

theorem Inv.handle {e : Event} (h : Inv s) (hn : s.handler = none) (hr : s.registered = true)
    (he : s.events = e :: events) :
    Inv ({ s with events := events }.handle e) := by
  have hans : Answered s.link (e :: events) := he ▸ h.answered
  have hclean : s.boot.clears = false := by
    by_contra hc
    have hreg := (h.cleanup (by simpa using hc)).2
    simp [hr] at hreg
  -- no event was being handled, so CONNECTED rests on the address alone
  have hconn : s.state = .connected → s.retryEnabled = true ∧ s.hasIp = true := by
    intro hs
    have hc := h.connected hs
    simpa [hn] using hc
  have hrec : s.state = .reconnecting → s.retryEnabled = true := by
    intro hs
    have hc := h.reconnecting hs
    simpa [hn] using hc
  have hcleanup : ∀ {p : Prop}, s.boot.clears = true → p := fun hc =>
    absurd (hclean.symm.trans hc) (by simp)
  cases e with
  | staStart =>
      exact {
        answered := hans.tail
        hasIp := fun hip => by
          have hw : s.link = .up ∨ .staDisconnected ∈ s.events := h.hasIp hip
          rw [he] at hw
          show s.link = .up ∨ .staDisconnected ∈ events
          simpa using hw
        bears := fun a ha => by
          simp only [Sys.handle] at ha
          split at ha <;> cases ha
          trivial
        connected := fun hs => ⟨(hconn hs).1, Or.inl (hconn hs).2⟩
        reconnecting := fun hs => Or.inl (hrec hs)
        only := h.only
        booted := h.booted
        cleanup := hcleanup }
  | staDisconnected =>
      exact {
        answered := hans.tail
        hasIp := fun hip => by simp [Sys.handle] at hip
        bears := by
          rintro a ⟨⟩
          rfl
        connected := fun hs => ⟨(hconn hs).1, Or.inr rfl⟩
        reconnecting := fun hs => Or.inl (hrec hs)
        only := h.only
        booted := h.booted
        cleanup := hcleanup }
  | staGotIp =>
      exact {
        answered := hans.tail
        hasIp := fun _ => hans.1
        bears := by
          rintro a ⟨⟩
          rfl
        connected := fun hs => ⟨(hconn hs).1, Or.inl rfl⟩
        reconnecting := fun hs => Or.inl (hrec hs)
        only := h.only
        booted := h.booted
        cleanup := hcleanup }

/-- Nothing that was set is being cleared while the handler is at work. -/
theorem Inv.busy {p : Prop} (h : Inv s) (ha : s.handler = some a) (hc : s.boot.clears = true) : p :=
  absurd (ha.symm.trans (h.cleanup hc).1) (by simp)

/-- The handler goes on, and leaves the driver, the address, the state and the retry flag as they
are. -/
theorem Inv.move (h : Inv s) (ha : s.handler = some a) {next : Option Act} {gotIp failed : Bool}
    {retryCount : Nat} (hnext : ∀ b, next = some b → s.Bears b)
    (hturning : s.state = .connected → a.turning = true → next.any Act.turning = true)
    (hsetFailed : a ≠ .setFailed) :
    Inv { s with gotIp := gotIp, failed := failed, retryCount := retryCount, handler := next } where
  answered := h.answered
  hasIp := h.hasIp
  bears b hb := hnext b hb
  connected hs := by
    obtain ⟨hr, hip | hturn⟩ := h.connected hs
    · exact ⟨hr, Or.inl hip⟩
    · rw [ha] at hturn
      exact ⟨hr, Or.inr (hturning hs hturn)⟩
  reconnecting hs := by
    rcases h.reconnecting hs with hr | hf
    · exact Or.inl hr
    · exact absurd (Option.some.inj (ha.symm.trans hf)) hsetFailed
  only := h.only
  booted := h.booted
  cleanup := h.busy ha

/-- The handler has read the retry flag. -/
theorem Inv.readFlag (h : Inv s) (ha : s.handler = some .readFlag) :
    Inv { s with handler := some (.readState s.retryEnabled) } := by
  refine h.move ha ?_ (fun hs _ => ?_) (by simp)
  · rintro b ⟨⟩
    exact h.bears .readFlag ha
  · -- in CONNECTED retries are enabled
    simp [(h.connected hs).1, Act.turning]

/-- What follows a disconnect, by the state. -/
theorem onDisconnect_cases {state : ProvState} {b : Act}
    (h : onDisconnect retryEnabled state = some b) :
    (b = .retry ∧ (state = .bootConnecting ∨ state = .testing)) ∨
      (b = .runtimeRetry ∧ (state = .connected ∨ state = .reconnecting)) := by
  cases state <;> cases retryEnabled <;> simp_all [onDisconnect]

/-- The handler has read the state. -/
theorem Inv.readState (h : Inv s) (ha : s.handler = some (.readState retryEnabled)) :
    Inv { s with handler := onDisconnect retryEnabled s.state } := by
  refine h.move ha (fun b hb => ?_) (fun hs ht => ?_) (by simp)
  · rcases onDisconnect_cases hb with ⟨rfl, hs⟩ | ⟨rfl, hs⟩
    · -- after a successful boot connection no disconnect is judged by BOOT_CONNECTING
      refine ⟨h.bears _ ha, fun hbooted => ?_⟩
      rcases h.booted hbooted with hc | hc | hc <;> simp [hc] at hs
    · exact hs
  · cases retryEnabled with
    | false => simp [Act.turning] at ht
    | true => simp [hs, onDisconnect, Act.turning]

/-- The link is tried again, and the event is done with. -/
theorem Inv.connected_done (h : Inv s) (ha : s.handler = some a) (hturning : a.turning = false)
    (hne : a ≠ .setFailed) (ok : Bool) :
    Inv { s.connect ok with handler := none } := by
  have hhandler : (s.connect ok).handler = some a := by
    unfold Sys.connect
    split <;> exact ha
  exact (h.connect ok).move hhandler (by simp)
    (fun _ ht => absurd (hturning.symm.trans ht) (by simp)) hne

/-- The boot task has not connected, so the state is not CONNECTED or RECONNECTING and the retries
may end. -/
theorem Inv.giveUp (h : Inv s) (ha : s.handler = some .giveUp) :
    Inv { s with retryEnabled := false, handler := some .setFailedBit } where
  answered := h.answered
  hasIp := h.hasIp
  bears := by
    rintro b ⟨⟩
    exact h.bears _ ha
  connected hs := absurd (h.only (Or.inl hs)) (h.bears _ ha).2
  reconnecting hs := absurd (h.only (Or.inr hs)) (h.bears _ ha).2
  only := h.only
  booted := h.booted
  cleanup := h.busy ha

/-- `set_state(RECONNECTING)`, with the retries used up or not. -/
theorem Inv.setReconnecting {exhausted : Bool} (h : Inv s)
    (ha : s.handler = some (.setReconnecting exhausted)) :
    Inv { s with
      state := .reconnecting
      handler := some (if exhausted then .disableRetry else .reconnect) } where
  answered := h.answered
  hasIp := h.hasIp
  bears := by
    rintro b ⟨⟩
    split
    · rfl
    · trivial
  connected hc := by simp at hc
  reconnecting _ := by
    rcases h.bears _ ha with hs | hs
    · exact Or.inl (h.connected hs).1
    · exact Or.inl ((h.reconnecting hs).resolve_right (by simp [ha]))
  only _ := h.only (h.bears _ ha)
  booted _ := Or.inr (Or.inl rfl)
  cleanup := h.busy ha

/-- The retries are used up in RECONNECTING. -/
theorem Inv.disableRetry (h : Inv s) (ha : s.handler = some .disableRetry) :
    Inv { s with retryEnabled := false, handler := some .setFailed } where
  answered := h.answered
  hasIp := h.hasIp
  bears := by
    rintro b ⟨⟩
    exact h.bears _ ha
  connected hc := absurd ((h.bears _ ha).symm.trans hc) (by simp)
  reconnecting _ := Or.inr rfl
  only := h.only
  booted := h.booted
  cleanup := h.busy ha

/-- `set_state(FAILED)` of the handler. -/
theorem Inv.setFailed (h : Inv s) (ha : s.handler = some .setFailed) :
    Inv { s with state := .failed, handler := none } where
  answered := h.answered
  hasIp := h.hasIp
  bears _ hb := by simp at hb
  connected hc := by simp at hc
  reconnecting hc := by simp at hc
  only hc := by simp at hc
  booted _ := Or.inr (Or.inr rfl)
  cleanup := h.busy ha

/-- The station is connected again. -/
theorem Inv.reconnected (h : Inv s) (ha : s.handler = some .setConnected)
    (hs : s.state = .reconnecting) : Inv { s with state := .connected, handler := none } where
  answered := h.answered
  hasIp := h.hasIp
  bears _ hb := by simp at hb
  connected _ := ⟨(h.reconnecting hs).resolve_right (by simp [ha]), Or.inl (h.bears _ ha)⟩
  reconnecting hc := by simp at hc
  only _ := h.only (Or.inr hs)
  booted _ := Or.inl rfl
  cleanup := h.busy ha

theorem Inv.act {retries : Nat} {ok : Bool} (h : Inv s) (ha : s.handler = some a) :
    Inv (s.act retries ok a) := by
  cases a with
  | readFlag => exact h.readFlag ha
  | readState b => exact h.readState ha
  | connect | reconnect => exact h.connected_done ha rfl (by simp) ok
  | retry =>
      refine h.move ha ?_ (fun _ ht => absurd ht (by simp [Act.turning])) (by simp)
      rintro b ⟨⟩
      split
      · exact h.bears .retry ha
      · trivial
  | runtimeRetry =>
      refine h.move ha ?_ (fun _ _ => rfl) (by simp)
      rintro b ⟨⟩
      exact h.bears .runtimeRetry ha
  | resetRetry | setGotIpBit =>
      refine h.move ha ?_ (fun _ ht => absurd ht (by simp [Act.turning])) (by simp)
      have hip : s.hasIp = true := h.bears _ ha
      rintro b ⟨⟩
      exact hip
  | setFailedBit =>
      exact h.move ha (by simp) (fun _ ht => absurd ht (by simp [Act.turning])) (by simp)
  | giveUp => exact h.giveUp ha
  | setReconnecting exhausted => exact h.setReconnecting ha
  | disableRetry => exact h.disableRetry ha
  | setFailed => exact h.setFailed ha
  | setConnected =>
      by_cases hs : s.state = .reconnecting
      · rw [show s.act retries ok .setConnected =
            { s with state := .connected, handler := none } by simp [Sys.act, hs]]
        exact h.reconnected ha hs
      · rw [show s.act retries ok .setConnected = { s with handler := none } by simp [Sys.act, hs]]
        exact h.move ha (by simp) (fun _ ht => absurd ht (by simp [Act.turning])) (by simp)

/-! ## Whole runs -/

variable {retries : Nat}

theorem Inv.step {s' : Sys} {l : Label} (h : Inv s) (ht : Timely s l)
    (hstep : step retries s l = some s') : Inv s' := by
  cases l with
  | work ok => exact h.work ht hstep
  | handle =>
      simp only [Boot.step] at hstep
      split at hstep
      · rename_i e events hn he
        split at hstep
        · rename_i hr
          cases hstep
          exact h.handle hn hr he
        · simp at hstep
      · simp at hstep
  | act ok =>
      obtain ⟨a, ha, rfl⟩ := Option.map_eq_some_iff.mp hstep
      exact h.act ha
  | started =>
      cases hstep
      exact h.driver (answered_start h.answered) fun hip =>
        (h.hasIp hip).imp_right (List.mem_append_left _)
  | obtain =>
      simp only [Boot.step] at hstep
      split at hstep
      · simp at hstep
      · cases hstep
        exact h.driver (answered_up _) fun _ => Or.inl rfl
  | drop =>
      cases hstep
      exact h.drop

/-- The boot connection succeeds, and later the link is lost and found again. -/
def lostRun : List Label :=
  [.work true, .work true, .work true, .work true, .work true, .work true, .work true, .work true,
    .obtain, .handle, .act true, .act true, .act true, .work true, .work true, .work true,
    .drop, .handle, .act true, .act true, .act true, .act true, .act true,
    .obtain, .handle, .act true, .act true, .act true]

/-- The link is lost between the handling of GOT_IP and `set_state(CONNECTED)`: the disconnect is
judged by BOOT_CONNECTING. -/
def overtakenRun : List Label :=
  [.work true, .work true, .work true, .work true, .work true, .work true, .work true, .work true,
    .obtain, .handle, .act true, .act true, .act true, .work true, .work true,
    .drop, .handle, .act true, .act true, .act true, .act true, .work true]

end BleGateway.WifiProv.Boot
