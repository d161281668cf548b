import BleGateway.McpWs.Config

/-! # The bridge configuration across a reboot

Whether the stored endpoint is one that the loader keeps, and the next boot loads what is in RAM.
`mcp_ws_bridge_config_set` makes the loader's test itself; `mcp_ws_bridge_config_update` only looks
at the length and the scheme. So the configuration survives as long as what is given to the latter
would have passed the loader's test too.
-/

namespace BleGateway.McpWs.Config

variable {o : Options}

/-- The stored endpoint is empty or valid, and the next boot loads the configuration in RAM. -/
def Survives (o : Options) (s : State) : Prop :=
  Usable o (storedEndpoint s.nvs) ∧
    (s.initialized = true → load o {} s.nvs = (.ok, s.config))

instance (o : Options) (s : State) : Decidable (Survives o s) := inferInstanceAs (Decidable (_ ∧ _))

/-- The endpoint that a call gives to `mcp_ws_bridge_config_update` is one that the loader keeps. -/
def Call.EndpointUsable (o : Options) : Call → Prop
  | .configUpdate _ _ (some (some e)) => Usable o e
  | _ => True

theorem strlcpy_self {size : Nat} [NeZero size] (b : CharBuf size) : strlcpy size b.text = b :=
  CharBuf.ext (strlcpy_text b.bounded)

variable {s s' : State} {env : CallEnv}

/-- A configuration that was stored survives exactly if the loader keeps its endpoint. -/
theorem survives_written {config : WsConfig} (hnvs : s.nvs = some (written config))
    (hram : s.initialized = true → s.config = config) :
    Survives o s ↔ Usable o config.endpoint.text := by
  constructor
  · intro h
    have hu := h.1
    rwa [hnvs, storedEndpoint_written] at hu
  · intro h
    refine ⟨?_, fun hi => ?_⟩
    · rwa [hnvs, storedEndpoint_written]
    · rw [hnvs, hram hi]
      exact load_written h

/-! ## What one call does -/

theorem survives_init {resources : Bool} (hs : Survives o s)
    (h : init o env resources s = (.ok, s')) : Survives o s' := by
  unfold init at h
  split at h
  · simp at h
  · dsimp only at h
    split at h
    · simp at h
    · rename_i hread
      obtain rfl := (Prod.mk.inj h).2
      refine ⟨hs.1, fun _ => ?_⟩
      have hok : (load o env.faults s.nvs).1 = .ok := by
        by_contra hne
        exact hread (Or.inl hne)
      rw [load_ok hok]
      exact Prod.ext hok rfl

theorem survives_configSet {config : Option ConfigArg} (h : configSet o env config s = (.ok, s')) :
    Survives o s' := by
  cases config with
  | none => simp [configSet] at h
  | some c =>
      simp only [configSet] at h
      split at h
      · rename_i hacc
        split at h
        · rename_i hput
          exact absurd (Prod.mk.inj h).1 hput
        · rename_i hput
          have hstored := store_ok (Prod.ext (not_not.mp hput) rfl)
          -- in both cases `s'` has the configuration in NVS, and in RAM if it has one there
          have hboth : s'.nvs = some (written ⟨c.enabled, ⟨c.endpoint, hacc.1.length⟩⟩) ∧
              (s'.initialized = true →
                s'.config = ⟨c.enabled, ⟨c.endpoint, hacc.1.length⟩⟩) := by
            split at h
            · obtain rfl := (Prod.mk.inj h).2
              exact ⟨hstored, fun _ => rfl⟩
            · rename_i hi
              obtain rfl := (Prod.mk.inj h).2
              exact ⟨hstored, fun hi' => absurd hi' hi⟩
          exact (survives_written hboth.1 hboth.2).mpr hacc.1
      · simp at h

/-- The configuration that an update starts from has an endpoint that the loader keeps. -/
theorem current_usable (hs : Survives o s) (hok : (current o env s).1 = .ok) :
    Usable o (current o env s).2.endpoint.text := by
  cases hi : s.initialized with
  | true =>
      have hend := load_endpoint (hs.2 hi) hs.1
      simp only [current, hi, if_true, hend]
      exact hs.1
  | false =>
      have hcur : current o env s = load o env.faults s.nvs := by simp [current, hi]
      rw [hcur] at hok ⊢
      have hend := load_endpoint (Prod.ext hok rfl) hs.1
      rw [hend]
      exact hs.1

/-- What an update that succeeds leaves: the current configuration with the given parts replaced,
stored and, once the bridge is initialized, in RAM. -/
theorem configUpdate_ok {enabled : Option Bool} {endpoint : Option (Option CString)}
    (h : configUpdate o env enabled endpoint s = (.ok, s')) :
    (∀ e, endpoint.join = some e → updateAccepts e = true) ∧ (current o env s).1 = .ok ∧
      s'.nvs = some (written ((current o env s).2.replace enabled endpoint.join)) ∧
      (s'.initialized = true → s'.config = (current o env s).2.replace enabled endpoint.join) := by
  have hbody : endpoint ≠ some none := by
    rintro rfl
    simp [configUpdate] at h
  unfold configUpdate at h
  split at h
  · exact absurd rfl hbody
  · dsimp only at h
    split at h
    · simp at h
    · rename_i hacc
      split at h
      · rename_i hread
        exact absurd (Prod.mk.inj h).1 hread
      · rename_i hread
        split at h
        · rename_i hput
          exact absurd (Prod.mk.inj h).1 hput
        · rename_i hput
          have hstored := store_ok (Prod.ext (not_not.mp hput) rfl)
          refine ⟨fun e he => ?_, not_not.mp hread, ?_⟩
          · rw [he] at hacc
            simpa using hacc
          · split at h
            · rename_i hi
              obtain rfl := (Prod.mk.inj h).2
              refine ⟨hstored, fun _ => ?_⟩
              -- the parts that were not given are those that RAM had
              have hcur : (current o env s).2 = s.config := by simp [current, hi]
              rw [hcur]
              cases enabled <;> cases hj : endpoint.join <;>
                simp [WsConfig.replace, strlcpy_self]
            · rename_i hi
              obtain rfl := (Prod.mk.inj h).2
              exact ⟨hstored, fun hi' => absurd hi' hi⟩

theorem survives_configUpdate {enabled : Option Bool} {endpoint : Option (Option CString)}
    (hs : Survives o s) (h : configUpdate o env enabled endpoint s = (.ok, s')) :
    Survives o s' ↔ (Call.configUpdate env enabled endpoint).EndpointUsable o := by
  obtain ⟨hacc, hok, hnvs, hram⟩ := configUpdate_ok h
  rw [survives_written hnvs hram]
  cases hj : endpoint.join with
  | none =>
      have hkept := current_usable hs hok
      have husable : (Call.configUpdate env enabled endpoint).EndpointUsable o := by
        cases endpoint with
        | none => trivial
        | some e => cases e with
          | none => trivial
          | some e => simp at hj
      exact ⟨fun _ => husable, fun _ => by simpa [WsConfig.replace] using hkept⟩
  | some e =>
      have hlen : e.length < MCP_WS_ENDPOINT_MAX_LEN := by
        have ha := hacc e hj
        simp only [updateAccepts, Bool.and_eq_true, decide_eq_true_eq] at ha
        exact ha.1
      have he : endpoint = some (some e) := by
        cases endpoint with
        | none => simp at hj
        | some e' => simpa using hj
      simp only [he, Call.EndpointUsable, WsConfig.replace, strlcpy_text hlen]

/-- **One call.** From a configuration that survives, a call that succeeds leaves one that survives
exactly if the endpoint it gives to `mcp_ws_bridge_config_update`, if any, is empty or valid. -/
theorem survives_step {c : Call} (hs : Survives o s) (h : (machine o).step s c = some s') :
    Survives o s' ↔ c.EndpointUsable o := by
  have hok : exec o s c = (.ok, s') := by
    simp only [machine] at h
    split at h
    · rename_i heq
      rw [heq, Option.some.inj h]
    · simp at h
  cases c with
  | init env resources => exact ⟨fun _ => trivial, fun _ => survives_init hs hok⟩
  | configSet env config => exact ⟨fun _ => trivial, fun _ => survives_configSet hok⟩
  | configUpdate env enabled endpoint => exact survives_configUpdate hs hok
  | configClear env =>
      have hset : configSet o env (some ⟨false, []⟩) s = (.ok, s') := hok
      exact ⟨fun _ => trivial, fun _ => survives_configSet hset⟩

/-! ## Sequences of calls -/

/-- **The configuration survives a reboot** after every prefix of a sequence of calls that
succeeded, from a boot with a valid stored configuration, exactly if each endpoint given to
`mcp_ws_bridge_config_update` was empty or valid. -/
theorem survives_reboot_iff {s s' : State} {calls : List Call} (h0 : (machine o).init s)
    (h : (machine o).run s calls = some s') :
    (∀ ks t, ks <+: calls → (machine o).run s ks = some t → Survives o t) ↔
      ∀ c ∈ calls, c.EndpointUsable o := by
  have hs : Survives o s := ⟨h0.2, fun hi => by simp [h0.1] at hi⟩
  rw [Machine.run_holds_iff (fun _ _ _ _ _ => trivial)
    (fun _ _ _ _ hs hstep => survives_step hs hstep) trivial hs h]
  constructor
  · intro hall c hc
    obtain ⟨before, after, rfl⟩ := List.append_of_mem hc
    have hpre : before ++ [c] <+: before ++ c :: after := ⟨after, by simp⟩
    obtain ⟨t, ht⟩ := Machine.run_of_prefix h ((List.prefix_append before [c]).trans hpre)
    exact hall before c t hpre ht
  · intro hall ks c t hks _
    exact hall c (hks.subset (by simp))

/-- An initialized bridge is enabled for another host. -/
def setRun : List Call :=
  [.init {} true, .configUpdate {} (some true) (some (some (cstr "wss://host/mcp")))]

theorem survives_reboot_iff_setRun :
    ((machine {}).init {} ∧ ((machine {}).run {} setRun).isSome) ∧
      ((∀ ks t, ks <+: setRun → (machine {}).run {} ks = some t → Survives {} t) ↔
        ∀ c ∈ setRun, c.EndpointUsable {}) := by
  have h0 : (machine {}).init {} := ⟨rfl, Or.inl rfl⟩
  have hrun : ((machine {}).run {} setRun).isSome = true := by decide
  obtain ⟨s', hs'⟩ := Option.isSome_iff_exists.mp hrun
  exact ⟨⟨h0, hrun⟩, survives_reboot_iff h0 hs'⟩

/-- A plaintext endpoint, which the firmware does not allow: the update takes it, and the next boot
has the bridge disabled and without an endpoint. -/
def plaintextRun : List Call :=
  [.init {} true,
    .configUpdate {} (some true) (some (some (cstr "ws://192.168.1.10/mcp")))]

theorem lost_at_reboot : ∃ s s', (machine {}).init s ∧ (machine {}).run s plaintextRun = some s' ∧
    ¬Usable {} (storedEndpoint s'.nvs) ∧ s'.config.enabled = true ∧
    s'.config.endpoint.text = cstr "ws://192.168.1.10/mcp" ∧
    load {} {} s'.nvs = (.ok, {}) := by
  have h0 : (machine {}).init {} := ⟨rfl, Or.inl rfl⟩
  have hrun : ∃ s', (machine {}).run {} plaintextRun = some s' ∧
      ¬Usable {} (storedEndpoint s'.nvs) ∧ s'.config.enabled = true ∧
      s'.config.endpoint.text = cstr "ws://192.168.1.10/mcp" ∧
      load {} {} s'.nvs = (.ok, {}) := by
    have hall : ((machine {}).run {} plaintextRun).any (fun s' =>
        decide (¬Usable {} (storedEndpoint s'.nvs) ∧ s'.config.enabled = true ∧
          s'.config.endpoint.text = cstr "ws://192.168.1.10/mcp" ∧
          load {} {} s'.nvs = (.ok, {}))) = true := by decide
    obtain ⟨s', hs', hp⟩ := Option.any_eq_true _ _ |>.mp hall
    exact ⟨s', hs', of_decide_eq_true hp⟩
  obtain ⟨s', hs'⟩ := hrun
  exact ⟨{}, s', h0, hs'⟩

end BleGateway.McpWs.Config
