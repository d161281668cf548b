import BleGateway.WifiProv.DnsLifecycle

/-! # One DNS task at a time

A DNS task gives up `s_dns_state` before it sets its last bits, and sets them before it is deleted.
A start in between creates a second task, whose start then reads the bits of the first; a start
whose task gave up while it still waits reads those of the next one. Without such steps only the
task created last can be alive, and what a wait returns with is about it.
-/

namespace BleGateway.WifiProv.DnsLifecycle

open DnsPacket (Ip4Addr)

variable {ι : Type}

/-! ## The invariant of the tasks -/

/-- The states in which a task that is the only one alive may stand at a point. -/
def TaskPc.fits : TaskPc → DnsState → Prop
  | .unborn, state | .leaving _, state | .exiting, state | .deleted, state => state = .stopped
  | .created, state | .bound, state => state = .starting ∨ state = .stopping
  | .publishing, state | .serving, state => state = .running ∨ state = .stopping
  | .cleanup _, state => state = .starting ∨ state = .stopping

namespace Sys

/-- The tasks are numbered, and only the one created last can be alive; it fits the state, and has
set STOPPED if it is set. -/
structure Single (σ : Sys ι) : Prop where
  unborn : ∀ k, σ.created ≤ k → σ.task k = .unborn
  born : ∀ k < σ.created, σ.task k ≠ .unborn
  earlier : ∀ k, k + 1 < σ.created → σ.task k = .deleted
  fits : (σ.task (σ.created - 1)).fits σ.state
  stoppedBit : .stopped ∈ σ.events.bits → (σ.task (σ.created - 1)).finished

variable {k : Nat} {σ σ' : Sys ι} {state : DnsState} {c : ι} {ip : Ip4Addr} {step : TaskStep}

theorem Single.last (h : σ.Single) (hk : (σ.task k).alive) :
    k + 1 = σ.created := by
  by_contra hne
  rcases Nat.lt_or_ge (k + 1) σ.created with hlt | hge
  · rw [h.earlier k hlt] at hk
    cases hk
  · rw [h.unborn k (by omega)] at hk
    cases hk

theorem Single.exclusive (h : σ.Single) {i j : Nat} (hi : (σ.task i).alive)
    (hj : (σ.task j).alive) :
    i = j := by
  have hi' := h.last hi
  have hj' := h.last hj
  omega

theorem Single.fits_of_alive (h : σ.Single) {pc : TaskPc} (hk : σ.task k = pc) (halive : pc.alive) :
    pc.fits σ.state := by
  have hlast := h.last (hk ▸ halive)
  have := h.fits
  rwa [show σ.created - 1 = k by omega, hk] at this

/-- The invariant reads four of the variables. -/
theorem Single.congr (h : σ.Single) (hstate : σ'.state = σ.state)
    (hbits : σ'.events.bits = σ.events.bits) (hcreated : σ'.created = σ.created)
    (htask : σ'.task = σ.task) : σ'.Single := by
  refine ⟨?_, ?_, ?_, ?_, ?_⟩
  · rw [hcreated, htask]
    exact h.unborn
  · rw [hcreated, htask]
    exact h.born
  · rw [hcreated, htask]
    exact h.earlier
  · rw [hcreated, htask, hstate]
    exact h.fits
  · rw [hcreated, htask, hbits]
    exact h.stoppedBit

/-- The task that is alive goes on to a point that fits the state then. -/
theorem Single.move (h : σ.Single) {pc : TaskPc} {events : EventGroup ι DnsEvt}
    (hk : (σ.task k).alive) (hpc : pc ≠ .unborn) (hfits : pc.fits state)
    (hbit : .stopped ∈ events.bits → pc.finished) :
    ({ σ with state, events }.move k pc).Single := by
  have hlast := h.last hk
  have hk' : σ.created - 1 = k := by omega
  have hother : ∀ i, i ≠ k → ({ σ with state, events }.move k pc).task i = σ.task i :=
    fun i hi => task_move_of_ne _ hi _
  have hself : ({ σ with state, events }.move k pc).task k = pc := task_move_self ..
  refine ⟨fun i hi => ?_, fun i hi => ?_, fun i hi => ?_, ?_, fun hb => ?_⟩
  · have hne : i ≠ k := by
      intro he
      rw [he] at hi
      exact absurd hi (by simp only [Sys.move]; omega)
    rw [hother i hne]
    exact h.unborn i hi
  · by_cases hik : i = k
    · rw [hik, hself]
      exact hpc
    · rw [hother i hik]
      exact h.born i hi
  · have hne : i ≠ k := by
      intro he
      rw [he] at hi
      exact absurd hi (by simp only [Sys.move]; omega)
    rw [hother i hne]
    exact h.earlier i hi
  · show (({ σ with state, events }.move k pc).task (σ.created - 1)).fits state
    rw [hk', hself]
    exact hfits
  · show (({ σ with state, events }.move k pc).task (σ.created - 1)).finished
    rw [hk', hself]
    exact hbit hb

/-- STOPPED is not set as long as the task has not finished. -/
theorem Single.not_stoppedBit (h : σ.Single) (hk : (σ.task k).alive)
    (hf : (σ.task k).finished = false) : .stopped ∉ σ.events.bits := by
  intro hb
  have hlast := h.last hk
  have := h.stoppedBit hb
  rw [show σ.created - 1 = k by omega, hf] at this
  cases this

/-! ## Steps keep it -/

/-- A stop request suits any task that has not left the state. -/
theorem TaskPc.fits_stopping {pc : TaskPc} (h : pc.fits state) (hs : state ≠ .stopped) :
    pc.fits .stopping := by
  cases pc <;> simp_all [TaskPc.fits]

theorem Single.requestStop (h : σ.Single) (hs : σ.state ≠ .stopped) :
    { σ with state := .stopping }.Single :=
  ⟨h.unborn, h.born, h.earlier, TaskPc.fits_stopping h.fits hs, h.stoppedBit⟩

section
variable [DecidableEq ι]

theorem Single.goto (h : σ.Single) (c : ι) (pc : Pc) : (σ.goto c pc).Single :=
  h.congr rfl rfl rfl rfl

theorem single_startSection (h : σ.Single) {attempt : Nat} {created : Bool}
    (hok : σ.state = .stopped → created = true → σ.Vacant) :
    (σ.startSection c ip attempt created).Single := by
  rw [startSection]
  split
  · rename_i hrun
    split
    · exact h.goto _ _
    · exact (h.requestStop (by rw [hrun]; decide)).goto _ _
  · exact h.goto _ _
  · exact h.goto _ _
  · rename_i hstopped
    have hcleared : DnsEvt.stopped ∉ (σ.events.clear allBits).bits := by
      simp [allBits]
    dsimp only
    split
    · rename_i hcreated
      have hvacant := hok hstopped hcreated
      refine Single.goto (σ := _) ⟨fun k hk => ?_, fun k hk => ?_, fun k hk => ?_, ?_, ?_⟩ _ _
      · have hne : k ≠ σ.created := by
          dsimp only at hk
          omega
        simp only [Function.update_of_ne hne]
        exact h.unborn k (by dsimp only at hk; omega)
      · by_cases hk' : k = σ.created
        · simp [hk']
        · simp only [Function.update_of_ne hk']
          exact h.born k (by dsimp only at hk; omega)
      -- those created before are born and not alive
      · have hlt : k < σ.created := by
          dsimp only at hk
          omega
        have hne : k ≠ σ.created := by omega
        simp only [Function.update_of_ne hne]
        have hdead := hvacant k hlt
        have hborn := h.born k hlt
        cases hpc : σ.task k <;> simp_all [TaskPc.alive]
      · simp [TaskPc.fits]
      · exact fun hb => absurd hb hcleared
    · have hleft : { σ with redirectIp := ip, events := σ.events.clear allBits }.Single :=
        ⟨h.unborn, h.born, h.earlier, h.fits, fun hb => absurd hb hcleared⟩
      exact hleft.goto _ _

end

/-- A task that has not finished goes on to a point where it has not either. -/
theorem Single.advance (h : σ.Single) {pc next : TaskPc} (hk : σ.task k = pc) (halive : pc.alive)
    (hf : pc.finished = false) (hnext : next ≠ .unborn)
    (hfits : pc.fits σ.state → next.fits state) : ({ σ with state }.move k next).Single := by
  subst hk
  exact h.move halive hnext (hfits (h.fits_of_alive rfl halive))
    fun hb => absurd hb (h.not_stoppedBit halive hf)

/-- Every step of a DNS task is one of the task alive. -/
theorem single_work (h : σ.Single) (hstep : σ.work k step = some σ') : σ'.Single := by
  cases step with
  | bind ok =>
      obtain ⟨hk, ⟨⟩⟩ := Option.ite_none_right_eq_some.mp hstep
      exact h.advance hk rfl rfl (by cases ok <;> decide) (by cases ok <;> exact id)
  | publish =>
      obtain ⟨hk, ⟨⟩⟩ := Option.ite_none_right_eq_some.mp hstep
      split
      · exact h.advance hk rfl rfl (by decide) fun _ => Or.inl rfl
      · exact h.advance hk rfl rfl (by decide) id
  | announce =>
      obtain ⟨hk, ⟨⟩⟩ := Option.ite_none_right_eq_some.mp hstep
      have halive : (σ.task k).alive := by rw [hk]; rfl
      have hfits := h.fits_of_alive hk rfl
      refine h.move halive (by decide) hfits fun hb => ?_
      rw [EventGroup.bits_set, Finset.mem_union, Finset.mem_singleton] at hb
      rcases hb with hb | hb
      · exact absurd hb (h.not_stoppedBit halive (by rw [hk]; rfl))
      · cases hb
  | receive =>
      obtain ⟨hk, ⟨⟩⟩ := Option.ite_none_right_eq_some.mp hstep
      split
      · rename_i hstopping
        exact h.advance hk rfl rfl (by decide) fun _ => Or.inr hstopping
      · exact h
  | close =>
      simp only [work] at hstep
      split at hstep
      · rename_i failed hk
        cases hstep
        exact h.advance hk rfl rfl (by simp) fun _ => rfl
      · cases hstep
  | signal =>
      simp only [work] at hstep
      split at hstep
      · rename_i failed hk
        cases hstep
        have halive : (σ.task k).alive := by rw [hk]; rfl
        have hfits := h.fits_of_alive hk rfl
        have hmove :
            ({ σ with events := σ.events.set (cleanupBits failed) }.move k .exiting).Single :=
          h.move halive (by decide) hfits fun _ => rfl
        exact hmove.congr rfl rfl rfl rfl
      · cases hstep
  | delete =>
      obtain ⟨hk, ⟨⟩⟩ := Option.ite_none_right_eq_some.mp hstep
      have halive : (σ.task k).alive := by rw [hk]; rfl
      have hfits := h.fits_of_alive hk rfl
      exact h.move halive (by decide) hfits fun _ => rfl

/-! ## The invariant of a call -/

end Sys

/-- The call needs the mutex or the event group. -/
def Pc.inside : Pc → Bool
  | .take _ _ | .stopTake | .wait _ => true
  | _ => false

/-- What holds of a call at a point. A start that waits for its own task knows it as the last one
created until it is given its bits. -/
def Pc.Holds (σ : Sys ι) (c : ι) : Pc → Prop
  | .wait (.own ip k) =>
      (σ.events.woken c = false →
        k + 1 = σ.created ∧ (σ.state ≠ .stopped → σ.redirectIp = ip) ∧
          (σ.task k = .publishing → σ.seen c)) ∧
      (.running ∈ σ.events.view c → σ.seen c) ∧
      (.startFailed ∈ σ.events.view c → σ.failed k)
  | .wait .stop => .stopped ∈ σ.events.view c → ∀ k, σ.aliveAt c k → (σ.task k).finished
  | .returned (.start .ok) => σ.seen c
  | .returned (.startFailed k) => σ.failed k
  | .returned (.stop .ok) => ∀ k, σ.aliveAt c k → σ.task k = .deleted
  | _ => True

namespace Sys

/-- The invariant of one call. -/
structure CallInv (σ : Sys ι) (c : ι) : Prop where
  ready : (σ.call c).inside → σ.ready
  parked : σ.events.waiter c ≠ none → ∃ w, σ.call c = .wait w
  born : ∀ k, σ.aliveAt c k → k < σ.created
  holds : (σ.call c).Holds σ c

/-- A step that a call does not notice: it shows it no more bits, and the tasks that are done stay
so. -/
structure Keeps (c : ι) (σ σ' : Sys ι) : Prop where
  call : σ'.call c = σ.call c
  aliveAt : σ'.aliveAt c = σ.aliveAt c
  ready : σ.ready → σ'.ready
  created : σ.created ≤ σ'.created
  parked : σ'.events.waiter c ≠ none → σ.events.waiter c ≠ none ∨ ∃ w, σ.call c = .wait w
  view : ∀ b, b ∈ σ'.events.view c → b ∈ σ.events.view c
  failed : ∀ k, σ.failed k → σ'.failed k
  seen : σ.seen c → σ'.seen c
  task : ∀ k, (σ.task k).finished → σ'.task k = σ.task k ∨ σ'.task k = .deleted
  own : ∀ ip k, σ.call c = .wait (.own ip k) → σ'.events.woken c = false →
    σ.events.woken c = false ∧ σ'.created = σ.created ∧
      (σ'.state ≠ .stopped → σ.state ≠ .stopped ∧ σ'.redirectIp = σ.redirectIp) ∧
      (σ'.task k = .publishing → σ.task k = .publishing ∨ σ'.seen c)

variable {c : ι} {σ σ' : Sys ι} {state : DnsState} {k : Nat} {ip : Ip4Addr} {step : TaskStep}

theorem CallInv.keep (h : σ.CallInv c) (hk : Keeps c σ σ') :
    σ'.CallInv c := by
  have hfinished : ∀ k, (σ.task k).finished → (σ'.task k).finished := by
    intro k hf
    rcases hk.task k hf with heq | heq
    · rw [heq]
      exact hf
    · rw [heq]
      rfl
  refine ⟨fun hin => hk.ready (h.ready (hk.call ▸ hin)), fun hp => ?_, fun k ha => ?_, ?_⟩
  · rw [hk.call]
    rcases hk.parked hp with hp' | hw
    · exact h.parked hp'
    · exact hw
  · rw [hk.aliveAt] at ha
    have := h.born k ha
    have := hk.created
    omega
  · have hholds := h.holds
    rw [hk.call]
    cases hpc : σ.call c with
    | wait w =>
        rw [hpc] at hholds
        cases w with
        | own ip k =>
            obtain ⟨hlast, hrun, hfail⟩ := hholds
            refine ⟨fun hw => ?_, fun hb => hk.seen (hrun (hk.view _ hb)),
              fun hb => hk.failed k (hfail (hk.view _ hb))⟩
            obtain ⟨hw', hcreated, hip, hpub⟩ := hk.own ip k hpc hw
            obtain ⟨hl, hi, hp⟩ := hlast hw'
            refine ⟨by rw [hcreated]; exact hl, fun hs => ?_, fun ht => ?_⟩
            · obtain ⟨hs', hsame⟩ := hip hs
              rw [hsame]
              exact hi hs'
            rcases hpub ht with ht' | hs
            · exact hk.seen (hp ht')
            · exact hs
        | stop =>
            intro hb k ha
            rw [hk.aliveAt] at ha
            exact hfinished k (hholds (hk.view _ hb) k ha)
        | restart | starting | stopping => trivial
    | returned r =>
        rw [hpc] at hholds
        cases r with
        | start error =>
            cases error with
            | ok => exact hk.seen hholds
            | _ => trivial
        | startFailed k => exact hk.failed k hholds
        | stop error =>
            cases error with
            | ok =>
                intro k ha
                rw [hk.aliveAt] at ha
                have hdeleted : σ.task k = .deleted := hholds k ha
                rcases hk.task k (by rw [hdeleted]; rfl) with heq | heq
                · rw [heq, hdeleted]
                · exact heq
            | _ => trivial
    | _ => trivial

variable [DecidableEq ι] in
theorem keeps_goto (σ : Sys ι) {d : ι} (hd : d ≠ c) (pc : Pc) : Keeps d σ (σ.goto c pc) where
  call := call_goto_of_ne σ hd pc
  aliveAt := rfl
  ready := id
  created := le_rfl
  parked := Or.inl
  view _ := id
  failed _ := id
  seen := id
  task _ _ := Or.inl rfl
  own _ _ _ hw := ⟨hw, rfl, fun hs => ⟨hs, rfl⟩, Or.inl⟩

theorem keeps_observe (σ : Sys ι) (c : ι) : Keeps c σ σ.observe where
  call := rfl
  aliveAt := rfl
  ready := id
  created := le_rfl
  parked := Or.inl
  view _ := id
  failed _ := id
  seen h := by simp [observe, h]
  task _ _ := Or.inl rfl
  own _ _ _ hw := ⟨hw, rfl, fun hs => ⟨hs, rfl⟩, Or.inl⟩

/-- The state may change as long as STOPPED is not left. -/
theorem keeps_state (σ : Sys ι) (c : ι) (h : state ≠ .stopped → σ.state ≠ .stopped) :
    Keeps c σ { σ with state } where
  call := rfl
  aliveAt := rfl
  ready := id
  created := le_rfl
  parked := Or.inl
  view _ := id
  failed _ := id
  seen := id
  task _ _ := Or.inl rfl
  own _ _ _ hw := ⟨hw, rfl, fun hs => ⟨h hs, rfl⟩, Or.inl⟩

/-- A task that is not done, or is deleted, goes on to any point but that behind the mutex
section. -/
theorem keeps_move (σ : Sys ι) (c : ι) {pc : TaskPc}
    (hk : (σ.task k).finished = false ∨ pc = .deleted) (hpc : pc ≠ .publishing) :
    Keeps c σ (σ.move k pc) where
  call := rfl
  aliveAt := rfl
  ready := id
  created := le_rfl
  parked := Or.inl
  view _ := id
  failed _ := id
  seen := id
  task i hi := by
    by_cases hik : i = k
    · rcases hk with hk | hk
      · rw [hik, hk] at hi
        cases hi
      · right
        rw [hik, task_move_self, hk]
    · left
      exact task_move_of_ne σ hik pc
  own ip i _ hw := by
    refine ⟨hw, rfl, fun hs => ⟨hs, rfl⟩, fun hi => ?_⟩
    by_cases hik : i = k
    · rw [hik, task_move_self] at hi
      exact absurd hi hpc
    · rw [task_move_of_ne σ hik] at hi
      exact Or.inl hi

/-- A step inside the wait of some call. -/
theorem keeps_quiet {d : ι} {events : EventGroup ι DnsEvt} (h : EventGroup.Quiet c σ.events events)
    (hc : σ.events.waiter c ≠ none ∨ ∃ w, σ.call c = .wait w) :
    Keeps d σ { σ with events } where
  call := rfl
  aliveAt := rfl
  ready := id
  created := le_rfl
  parked hp := by
    by_cases hd : d = c
    · rw [hd]
      exact hc
    · exact Or.inl (h.waiter d hd ▸ hp)
  view b hb := h.view d ▸ hb
  failed _ := id
  seen := id
  task _ _ := Or.inl rfl
  own _ _ _ hw := ⟨h.woken d ▸ hw, rfl, fun hs => ⟨hs, rfl⟩, Or.inl⟩

/-- Setting bits shows a call what its task or the last task has done. -/
theorem CallInv.setBits {s : Finset DnsEvt} (h : σ.CallInv c)
    (hrun : .running ∈ s → σ.task (σ.created - 1) = .publishing)
    (hfail : .startFailed ∈ s → σ.failed (σ.created - 1))
    (hstop : .stopped ∈ s → ∀ k < σ.created, (σ.task k).finished) :
    { σ with events := σ.events.set s }.CallInv c := by
  refine ⟨h.ready, fun hp => h.parked fun hnone => hp ?_, h.born, ?_⟩
  · exact EventGroup.waiter_set_eq_none_iff.mpr hnone
  · have hholds := h.holds
    dsimp only
    cases hpc : σ.call c with
    | wait w =>
        rw [hpc] at hholds
        cases w with
        | own ip k =>
            obtain ⟨hlast, hr, hf⟩ := hholds
            refine ⟨fun hw => hlast (EventGroup.not_woken_of_set hw), fun hb => ?_, fun hb => ?_⟩
            · rcases EventGroup.mem_view_set hb with hb | ⟨hw, hb⟩
              · exact hr hb
              · obtain ⟨hl, _, hp⟩ := hlast hw
                have hk : σ.created - 1 = k := by omega
                exact hp (hk ▸ hrun hb)
            · rcases EventGroup.mem_view_set hb with hb | ⟨hw, hb⟩
              · exact hf hb
              · obtain ⟨hl, _, _⟩ := hlast hw
                have hk : σ.created - 1 = k := by omega
                exact hk ▸ hfail hb
        | stop =>
            intro hb k ha
            rcases EventGroup.mem_view_set hb with hb | ⟨_, hb⟩
            · exact hholds hb k ha
            · exact hstop hb k (h.born k ha)
        | restart | starting | stopping => trivial
    | returned r =>
        rw [hpc] at hholds
        cases r with
        | start error | stop error =>
            cases error with
            | ok => exact hholds
            | _ => trivial
        | startFailed k => exact hholds
    | _ => trivial

/-! ## The invariant of the system -/

/-- The tasks, the calls, and what is noted of the calls. -/
structure Inv (σ : Sys ι) : Prop where
  single : σ.Single
  unready : σ.ready = false → σ.created = 0
  calls : ∀ c, σ.CallInv c
  noted : ∀ c ip, (σ.call c).asked = some ip → σ.serves ip → σ.seen c

theorem inv_initial : ({} : Sys ι).Inv where
  single := ⟨fun _ _ => rfl, fun _ h => absurd h (Nat.not_lt_zero _),
    fun _ h => absurd h (Nat.not_lt_zero _), rfl, fun h => absurd h (Finset.notMem_empty _)⟩
  unready _ := rfl
  calls _ := ⟨fun h => (by cases h), fun h => absurd rfl h, fun _ h => (by cases h), trivial⟩
  noted _ _ h := by cases h

theorem noted_observe (hask : (σ.call c).asked = some ip) (hserves : σ.serves ip) :
    σ.observe.seen c := by
  simp [observe, hask, hserves]

/-- What is observed after a step makes the invariant of its last part. -/
theorem inv_observe (hsingle : σ.Single) (hready : σ.ready = false → σ.created = 0)
    (hcalls : ∀ c, σ.CallInv c) : σ.observe.Inv where
  single := hsingle.congr rfl rfl rfl rfl
  unready := hready
  calls c := (hcalls c).keep (keeps_observe σ c)
  noted _ _ hask hserves := noted_observe hask hserves

variable [DecidableEq ι] in
/-- A call goes on and the others do not notice. -/
theorem calls_goto {pc : Pc} (h : ∀ d, d ≠ c → σ.CallInv d) (hself : (σ.goto c pc).CallInv c)
    (d : ι) : (σ.goto c pc).CallInv d := by
  by_cases hd : d = c
  · rw [hd]
    exact hself
  · exact (h d hd).keep (keeps_goto σ hd pc)

theorem CallInv.not_waiting (h : σ.CallInv c) (hw : ∀ w, σ.call c ≠ .wait w) :
    σ.events.waiter c = none := by
  by_contra hne
  obtain ⟨w, hcw⟩ := h.parked hne
  exact hw w hcw

theorem Single.finished_of_stoppedBit (h : σ.Single) (hb : .stopped ∈ σ.events.bits)
    (hk : k < σ.created) : (σ.task k).finished := by
  rcases Nat.lt_or_ge (k + 1) σ.created with hlt | hge
  · rw [h.earlier k hlt]
    rfl
  · have hlast := h.stoppedBit hb
    rwa [show σ.created - 1 = k by omega] at hlast

theorem Single.deleted_of_not_alive (h : σ.Single) (hk : k < σ.created)
    (hdead : ¬ (σ.task k).alive) :
    σ.task k = .deleted := by
  have hborn := h.born k hk
  cases hpc : σ.task k <;> simp_all [TaskPc.alive]

/-! ## Steps of the calls -/

/-- Clearing the bits for a new start; of the starts that still wait for their own task there must
be none unless the state stays STOPPED. -/
theorem keeps_clear (d : ι) {created : Nat} {task : Nat → TaskPc} (hcreated : σ.created ≤ created)
    (htask : ∀ k, (σ.task k).finished → task k = σ.task k)
    (hown : state = .stopped ∧ created = σ.created ∧ task = σ.task ∨ σ.awaitsOwn d = false) :
    Keeps d σ { σ with
      redirectIp := ip, events := σ.events.clear allBits, state, created, task } where
  call := rfl
  aliveAt := rfl
  ready := id
  created := hcreated
  parked := Or.inl
  view _ hb := EventGroup.mem_view_clear hb
  failed _ := id
  seen := id
  task k hk := Or.inl (htask k hk)
  own ip k hc hw := by
    have hw' : σ.events.woken d = false := hw
    rcases hown with ⟨rfl, rfl, rfl⟩ | hown
    · exact ⟨hw', rfl, fun hs => absurd rfl hs, Or.inl⟩
    · simp [awaitsOwn, hc, hw'] at hown

/-- What a call goes on to with the bits that its wait showed it. -/
theorem holds_after (h : σ.Inv) {w : Wait} (hc : σ.call c = .wait w) (hok : Orderly σ (.resume c))
    {τ : Sys ι} (hseen : τ.seen = σ.seen) (hfailed : τ.failed = σ.failed)
    (haliveAt : τ.aliveAt = σ.aliveAt) (htask : τ.task = σ.task) :
    (w.after (σ.events.view c)).Holds τ c := by
  have hnext : ∀ ip attempt, (nextAttempt ip attempt).Holds τ c := by
    intro ip attempt
    rw [nextAttempt]
    split <;> trivial
  have hholds := (h.calls c).holds
  rw [hc] at hholds
  cases w with
  | restart ip attempt | starting ip attempt => exact hnext ip attempt
  | stopping ip attempt =>
      simp only [Wait.after]
      split
      · exact hnext ip attempt
      · trivial
  | own ip k =>
      obtain ⟨-, hrun, hfail⟩ := hholds
      simp only [Wait.after]
      split
      · rename_i hb
        show τ.seen c = true
        rw [hseen]
        exact hrun hb
      · split
        · rename_i hb
          show τ.failed k = true
          rw [hfailed]
          exact hfail hb
        · trivial
  | stop =>
      simp only [Wait.after]
      split
      · rename_i hb
        intro k ha
        rw [haliveAt] at ha
        rw [htask]
        -- the tasks of that time are done, and none is still on its way out
        have hfinished : (σ.task k).finished := hholds hb k ha
        have hexit : σ.task k ≠ .exiting := hok hc hb k ((h.calls c).born k ha)
        cases hpc : σ.task k <;> simp_all [TaskPc.finished]
      · trivial

section
variable [DecidableEq ι]

/-- A call that goes on to a point where nothing is known of it. -/
theorem CallInv.goto {pc : Pc} (h : σ.CallInv c) (hw : σ.events.waiter c ≠ none → ∃ w, pc = .wait w)
    (hready : pc.inside → σ.ready) (hholds : pc.Holds (σ.goto c pc) c) :
    (σ.goto c pc).CallInv c := by
  refine ⟨fun hin => ?_, fun hp => ?_, h.born, ?_⟩
  · rw [call_goto_self] at hin
    exact hready hin
  · rw [call_goto_self]
    exact hw hp
  · rw [call_goto_self]
    exact hholds

/-- The call begins, and the tasks that are alive are taken down. -/
theorem inv_begin (h : σ.Inv) {pc : Pc} (hstep : σ.begin c pc = some σ')
    (hready : pc.inside → σ.ready)
    (hholds : ∀ τ : Sys ι, (∀ k, τ.aliveAt c k = (σ.task k).alive) → pc.Holds τ c) :
    σ'.observe.Inv := by
  obtain ⟨hrest, ⟨⟩⟩ := Option.ite_none_right_eq_some.mp hstep
  have hidle : σ.events.waiter c = none := by
    refine (h.calls c).not_waiting fun w hcw => ?_
    rw [hcw] at hrest
    cases hrest
  refine inv_observe (h.single.congr rfl rfl rfl rfl) h.unready (calls_goto (fun d hd => ?_) ?_)
  · refine (h.calls d).keep ⟨rfl, ?_, id, le_rfl, Or.inl, fun _ => id, fun _ => id, ?_,
      fun _ _ => Or.inl rfl, fun _ _ _ hw => ⟨hw, rfl, fun hs => ⟨hs, rfl⟩, Or.inl⟩⟩
    · exact Function.update_of_ne hd ..
    · intro hs
      dsimp only
      rwa [Function.update_of_ne hd]
  · refine ⟨fun hin => ?_, fun hp => absurd hidle hp, fun k ha => ?_, ?_⟩
    · rw [call_goto_self] at hin
      exact hready hin
    · have halive : (σ.task k).alive = true := by
        simpa [Sys.goto] using ha
      have := h.single.last halive
      show k < σ.created
      omega
    · rw [call_goto_self]
      exact hholds _ fun k => by simp [Sys.goto]

theorem inv_start (h : σ.Inv) {redirectIp : Option Ip4Addr}
    (hstep : σ.start c redirectIp = some σ') :
    σ'.observe.Inv := by
  cases redirectIp with
  | none => exact inv_begin h hstep (fun hin => by cases hin) fun _ _ => trivial
  | some ip =>
      simp only [Sys.start] at hstep
      split at hstep
      · exact inv_begin h hstep (fun hin => by cases hin) fun _ _ => trivial
      · exact inv_begin h hstep (fun hin => by cases hin) fun _ _ => trivial

/-- Before the primitives are there no task is. -/
theorem inv_stop (h : σ.Inv) (hstep : σ.stop c = some σ') :
    σ'.observe.Inv := by
  rw [Sys.stop] at hstep
  split at hstep
  · rename_i hready
    exact inv_begin h hstep (fun _ => hready) fun _ _ => trivial
  · rename_i hready
    refine inv_begin h hstep (fun hin => by cases hin) fun τ hτ k ha => ?_
    have hzero := h.unready (by simpa using hready)
    rw [hτ k, h.single.unborn k (by omega)] at ha
    cases ha

theorem inv_ensure (h : σ.Inv) (hstep : σ.ensure c = some σ') :
    σ'.observe.Inv := by
  rw [Sys.ensure] at hstep
  split at hstep
  · rename_i ip hc
    cases hstep
    have hidle := (h.calls c).not_waiting fun w hcw => by rw [hc] at hcw; cases hcw
    refine inv_observe (h.single.goto _ _) h.unready (calls_goto (fun d _ => h.calls d) ?_)
    refine (h.calls c).goto (fun hp => absurd hidle hp) (fun hin => ?_) ?_
    · by_cases hready : σ.ready
      · exact hready
      · rw [if_neg hready] at hin
        cases hin
    · split <;> trivial
  · cases hstep

theorem inv_provide (h : σ.Inv) {ok : Bool} (hstep : σ.provide c ok = some σ') :
    σ'.observe.Inv := by
  rw [Sys.provide] at hstep
  split at hstep
  · rename_i ip hc
    have hidle := (h.calls c).not_waiting fun w hcw => by rw [hc] at hcw; cases hcw
    cases hstep
    split
    · have hkeeps : ∀ d, Keeps d σ { σ with ready := true } := fun d =>
        ⟨rfl, rfl, fun _ => rfl, le_rfl, Or.inl, fun _ => id, fun _ => id, id,
          fun _ _ => Or.inl rfl, fun _ _ _ hw => ⟨hw, rfl, fun hs => ⟨hs, rfl⟩, Or.inl⟩⟩
      have hready : { σ with ready := true }.Single := h.single.congr rfl rfl rfl rfl
      refine inv_observe (hready.goto _ _) (fun hr => by cases hr)
        (calls_goto (fun d _ => (h.calls d).keep (hkeeps d)) ?_)
      exact ((h.calls c).keep (hkeeps c)).goto (fun hp => absurd hidle hp) (fun _ => rfl) trivial
    · refine inv_observe (h.single.goto _ _) h.unready (calls_goto (fun d _ => h.calls d) ?_)
      exact (h.calls c).goto (fun hp => absurd hidle hp) (fun hin => by cases hin) trivial
  · cases hstep

theorem ready_startSection (σ : Sys ι) (c : ι) (ip : Ip4Addr) (attempt : Nat) (created : Bool) :
    (σ.startSection c ip attempt created).ready = σ.ready := by
  rw [startSection]
  repeat' split
  all_goals rfl

/-- A start in its mutex section. -/
theorem inv_startSection (h : σ.Inv) {attempt : Nat} {created : Bool}
    (hc : σ.call c = .take ip attempt)
    (hok : σ.state = .stopped → created = true → σ.Vacant ∧ ∀ d, σ.awaitsOwn d = false) :
    (σ.startSection c ip attempt created).observe.Inv := by
  have hsingle : (σ.startSection c ip attempt created).Single :=
    single_startSection h.single fun hs hcr => (hok hs hcr).1
  have hready : σ.ready := (h.calls c).ready (by rw [hc]; rfl)
  have hidle := (h.calls c).not_waiting fun w hcw => by rw [hc] at hcw; cases hcw
  refine inv_observe hsingle (fun hr => ?_) ?_
  · rw [ready_startSection, hready] at hr
    cases hr
  · rw [startSection]
    split
    · rename_i hrun
      split
      · -- the server runs with the address, which has been noted
        rename_i hip
        have hseen : σ.seen c := by
          refine h.noted c ip (by rw [hc]; rfl) ?_
          simp [Sys.serves, hrun, hip]
        refine calls_goto (fun d _ => h.calls d) ((h.calls c).goto (fun hp => absurd hidle hp)
          (fun hin => by cases hin) hseen)
      · have hkeeps : ∀ d, Keeps d σ { σ with state := .stopping } := fun d =>
          keeps_state σ d fun _ => by rw [hrun]; decide
        exact calls_goto (fun d _ => (h.calls d).keep (hkeeps d))
          (((h.calls c).keep (hkeeps c)).goto (fun _ => ⟨_, rfl⟩) (fun _ => hready) trivial)
    · exact calls_goto (fun d _ => h.calls d)
        ((h.calls c).goto (fun _ => ⟨_, rfl⟩) (fun _ => hready) trivial)
    · exact calls_goto (fun d _ => h.calls d)
        ((h.calls c).goto (fun _ => ⟨_, rfl⟩) (fun _ => hready) trivial)
    · rename_i hstopped
      dsimp only
      split
      · rename_i hcreated
        obtain ⟨-, hnone⟩ := hok hstopped hcreated
        have hunborn : σ.task σ.created = .unborn := h.single.unborn _ le_rfl
        have hnew : ∀ k, (σ.task k).finished → k ≠ σ.created := by
          intro k hk he
          rw [he, hunborn] at hk
          cases hk
        have hkeeps : ∀ d, Keeps d σ { σ with
            redirectIp := ip
            events := σ.events.clear allBits
            state := .starting
            created := σ.created + 1
            task := Function.update σ.task σ.created .created } := fun d =>
          keeps_clear d (Nat.le_succ σ.created)
            (fun k hk => Function.update_of_ne (hnew k hk) ..) (Or.inr (hnone d))
        refine calls_goto (fun d _ => (h.calls d).keep (hkeeps d))
          (((h.calls c).keep (hkeeps c)).goto (fun _ => ⟨_, rfl⟩) (fun _ => hready) ?_)
        -- the bits are cleared, and this call is not inside a wait yet
        have hview : (σ.events.clear allBits).view c = σ.events.bits \ allBits :=
          EventGroup.view_of_not_woken (EventGroup.not_woken_of_none hidle)
        refine ⟨fun _ => ⟨rfl, fun _ => rfl, fun ht => ?_⟩, fun hb => ?_, fun hb => ?_⟩
        · simp [Sys.goto] at ht
        · have hb' : DnsEvt.running ∈ σ.events.bits \ allBits := hview ▸ hb
          simp [allBits] at hb'
        · have hb' : DnsEvt.startFailed ∈ σ.events.bits \ allBits := hview ▸ hb
          simp [allBits] at hb'
      · have hkeeps : ∀ d, Keeps d σ { σ with
            redirectIp := ip, events := σ.events.clear allBits } := fun d =>
          keeps_clear d le_rfl (fun _ _ => rfl) (Or.inl ⟨hstopped, rfl, rfl⟩)
        exact calls_goto (fun d _ => (h.calls d).keep (hkeeps d))
          (((h.calls c).keep (hkeeps c)).goto (fun hp => absurd hidle hp) (fun hin => by cases hin)
            trivial)

/-- A stop in its mutex section. -/
theorem inv_stopSection (h : σ.Inv) (hc : σ.call c = .stopTake)
    (hok : σ.state = .stopped → σ.Vacant) : (σ.stopSection c).observe.Inv := by
  have hready : σ.ready := (h.calls c).ready (by rw [hc]; rfl)
  have hidle := (h.calls c).not_waiting fun w hcw => by rw [hc] at hcw; cases hcw
  rw [stopSection]
  split
  · rename_i hs
    refine inv_observe (h.single.goto _ _) h.unready (calls_goto (fun d _ => h.calls d)
      ((h.calls c).goto (fun hp => absurd hidle hp) (fun hin => by cases hin) fun k ha => ?_))
    have hk := (h.calls c).born k ha
    exact h.single.deleted_of_not_alive hk (hok hs k hk)
  · rename_i hs
    have hkeeps : ∀ d, Keeps d σ { σ with state := .stopping } := fun d =>
      keeps_state σ d fun _ => hs
    refine inv_observe ((h.single.requestStop hs).goto _ _) h.unready
      (calls_goto (fun d _ => (h.calls d).keep (hkeeps d)) (((h.calls c).keep (hkeeps c)).goto
        (fun _ => ⟨_, rfl⟩) (fun _ => hready) fun hb k ha => ?_))
    have hview : σ.events.view c = σ.events.bits :=
      EventGroup.view_of_not_woken (EventGroup.not_woken_of_none hidle)
    have hb' : DnsEvt.stopped ∈ σ.events.view c := hb
    rw [hview] at hb'
    exact h.single.finished_of_stoppedBit hb' ((h.calls c).born k ha)

theorem inv_take (h : σ.Inv) {created : Bool} (hok : Orderly σ (.take c created))
    (hstep : σ.take c created = some σ') :
    σ'.observe.Inv := by
  rw [Sys.take] at hstep
  rw [Orderly] at hok
  split at hstep
  · rename_i ip attempt hc
    cases hstep
    refine inv_startSection h hc fun hs => ?_
    have hnot : σ.call c ≠ .stopTake := by simp [hc]
    simpa [hnot] using hok hs
  · rename_i hc
    cases hstep
    exact inv_stopSection h hc fun hs => by simpa [hc] using hok hs
  · cases hstep

/-! ## Steps inside a wait -/

theorem inv_block (h : σ.Inv) (hstep : σ.block c = some σ') :
    σ'.observe.Inv := by
  rw [Sys.block] at hstep
  split at hstep
  · rename_i w hc
    obtain ⟨events, hevents, rfl⟩ := Option.map_eq_some_iff.mp hstep
    have hquiet := EventGroup.block_quiet hevents
    exact inv_observe (h.single.congr rfl hquiet.bits rfl rfl) h.unready fun d =>
      (h.calls d).keep (keeps_quiet hquiet (Or.inr ⟨w, hc⟩))
  · cases hstep

theorem inv_expire (h : σ.Inv) (hstep : σ.expire c = some σ') :
    σ'.observe.Inv := by
  rw [Sys.expire] at hstep
  obtain ⟨events, hevents, rfl⟩ := Option.map_eq_some_iff.mp hstep
  have hquiet := EventGroup.expire_quiet hevents
  have hwaits : σ.events.waiter c ≠ none := by
    intro hnone
    simp [EventGroup.expire, hnone] at hevents
  exact inv_observe (h.single.congr rfl hquiet.bits rfl rfl) h.unready fun d =>
    (h.calls d).keep (keeps_quiet hquiet (Or.inl hwaits))

theorem inv_resume (h : σ.Inv) (hok : Orderly σ (.resume c)) (hstep : σ.resume c = some σ') :
    σ'.observe.Inv := by
  rw [Sys.resume] at hstep
  split at hstep
  · rename_i w hc
    obtain ⟨bits, hread, rfl⟩ := Option.map_eq_some_iff.mp hstep
    have hready : σ.ready := (h.calls c).ready (by rw [hc]; rfl)
    rw [← EventGroup.read_eq_view hread]
    refine inv_observe (h.single.congr rfl rfl rfl rfl) h.unready
      (calls_goto (fun d hd => ?_) ⟨fun _ => hready, fun hp => ?_, (h.calls c).born, ?_⟩)
    · refine (h.calls d).keep ⟨rfl, rfl, id, le_rfl, fun hp => ?_, fun b hb => ?_, fun _ => id, id,
        fun _ _ => Or.inl rfl, fun _ _ _ hw => ⟨?_, rfl, fun hs => ⟨hs, rfl⟩, Or.inl⟩⟩
      · exact Or.inl (EventGroup.waiter_leave_of_ne hd ▸ hp)
      · exact EventGroup.view_leave_of_ne hd ▸ hb
      · exact EventGroup.woken_leave_of_ne hd ▸ hw
    · exact absurd (EventGroup.waiter_leave_self σ.events c) hp
    · rw [call_goto_self]
      exact holds_after h hc hok rfl rfl rfl rfl
  · cases hstep

end

/-! ## Steps of the DNS tasks -/

/-- The server becomes RUNNING: the start that waits for this task is one of those that note it. -/
theorem keeps_publish (h : σ.Inv) (hk : σ.task k = .bound) (hstate : σ.state = .starting) (c : ι) :
    Keeps c σ ({ σ with state := .running }.move k .publishing).observe where
  call := rfl
  aliveAt := rfl
  ready := id
  created := le_rfl
  parked := Or.inl
  view _ := id
  failed _ := id
  seen hs := by simp [observe, move, hs]
  task i hi := by
    have hne : i ≠ k := by
      intro he
      rw [he, hk] at hi
      cases hi
    exact Or.inl (Function.update_of_ne hne ..)
  own ip i hc hw := by
    have hw' : σ.events.woken c = false := hw
    have hholds := (h.calls c).holds
    rw [hc] at hholds
    obtain ⟨-, hip, -⟩ := hholds.1 hw'
    have hip' : σ.redirectIp = ip := hip (by rw [hstate]; decide)
    refine ⟨hw', rfl, fun _ => ⟨by rw [hstate]; decide, rfl⟩, fun _ => Or.inr ?_⟩
    have hserves : ({ σ with state := .running }.move k .publishing).serves ip = true := by
      simp [serves, move, hip']
    have hask : (({ σ with state := .running }.move k .publishing).call c).asked = some ip := by
      show (σ.call c).asked = some ip
      rw [hc]
      rfl
    simp [observe, hask, hserves]

/-- The last bits of a task: it is done then, as are those before it. -/
theorem calls_signal (h : σ.Inv) {failed : Bool} (hk : σ.task k = .leaving failed) (c : ι) :
    ({ σ with
      events := σ.events.set (cleanupBits failed)
      failed := Function.update σ.failed k (σ.failed k || failed) }.move k .exiting).CallInv c := by
  have hlast := h.single.last (k := k) (by rw [hk]; rfl)
  have hlast' : σ.created - 1 = k := by omega
  have hf : (σ.task k).finished = false := by rw [hk]; rfl
  have hmark :
      Keeps c σ { σ with failed := Function.update σ.failed k (σ.failed k || failed) } := by
    refine ⟨rfl, rfl, id, le_rfl, Or.inl, fun _ => id, fun i hi => ?_, id, fun _ _ => Or.inl rfl,
      fun _ _ _ hw => ⟨hw, rfl, fun hs => ⟨hs, rfl⟩, Or.inl⟩⟩
    by_cases hik : i = k
    · rw [hik] at hi
      simp [hik, hi]
    · simpa [Function.update_of_ne hik] using hi
  have hmove :
    Keeps c _ ({ σ with failed := Function.update σ.failed k (σ.failed k || failed) }.move
      k .exiting) := keeps_move _ c (Or.inl hf) (by decide)
  refine (((h.calls c).keep hmark).keep hmove).setBits (fun hb => ?_) (fun hb => ?_)
    (fun _ i hi => ?_)
  · cases failed <;> simp [cleanupBits] at hb
  · have hfailed : failed = true := by
      cases failed
      · simp [cleanupBits] at hb
      · rfl
    show Function.update σ.failed k (σ.failed k || failed) (σ.created - 1) = true
    rw [hlast', Function.update_self, hfailed, Bool.or_true]
  · by_cases hik : i = k
    · rw [hik, task_move_self]
      rfl
    · have hlt : i + 1 < σ.created := by
        have hi' : i < σ.created := hi
        omega
      rw [task_move_of_ne _ hik]
      show (σ.task i).finished = true
      rw [h.single.earlier i hlt]
      rfl

/-- A call does not notice that a task which has not finished goes on. -/
theorem CallInv.advance (h : σ.CallInv c) {pc next : TaskPc} (hk : σ.task k = pc)
    (hf : pc.finished = false) (hnext : next ≠ .publishing) :
    (σ.move k next).observe.CallInv c :=
  (h.keep (keeps_move σ c (Or.inl (hk ▸ hf)) hnext)).keep (keeps_observe _ c)

/-- The bits that a DNS task sets are about itself. -/
theorem calls_work (h : σ.Inv) (hstep : σ.work k step = some σ') (c : ι) :
    σ'.observe.CallInv c := by
  have hc := h.calls c
  cases step with
  | bind ok =>
      obtain ⟨hk, ⟨⟩⟩ := Option.ite_none_right_eq_some.mp hstep
      exact hc.advance hk rfl (by cases ok <;> decide)
  | publish =>
      obtain ⟨hk, ⟨⟩⟩ := Option.ite_none_right_eq_some.mp hstep
      split
      · rename_i hstarting
        exact hc.keep (keeps_publish h hk hstarting c)
      · exact hc.advance hk rfl (by decide)
  | announce =>
      obtain ⟨hk, ⟨⟩⟩ := Option.ite_none_right_eq_some.mp hstep
      have hlast := h.single.last (k := k) (by rw [hk]; rfl)
      have hset : { σ with events := σ.events.set {DnsEvt.running} }.CallInv c :=
        hc.setBits (fun _ => by rw [show σ.created - 1 = k by omega]; exact hk)
          (fun hb => by simp at hb) (fun hb => by simp at hb)
      exact hset.advance hk rfl (by decide)
  | receive =>
      obtain ⟨hk, ⟨⟩⟩ := Option.ite_none_right_eq_some.mp hstep
      split
      · exact hc.advance hk rfl (by decide)
      · exact hc.keep (keeps_observe _ c)
  | close =>
      simp only [work] at hstep
      split at hstep
      · rename_i failed hk
        cases hstep
        have hstate : { σ with state := .stopped }.CallInv c :=
          hc.keep (keeps_state σ c fun hs => absurd rfl hs)
        exact hstate.advance hk rfl (by simp)
      · cases hstep
  | signal =>
      simp only [work] at hstep
      split at hstep
      · rename_i failed hk
        cases hstep
        exact (calls_signal h hk c).keep (keeps_observe _ c)
      · cases hstep
  | delete =>
      obtain ⟨-, ⟨⟩⟩ := Option.ite_none_right_eq_some.mp hstep
      exact (hc.keep (keeps_move σ c (Or.inr rfl) (by decide))).keep (keeps_observe _ c)

theorem work_frame (h : σ.work k step = some σ') :
    σ'.ready = σ.ready ∧ σ'.created = σ.created := by
  cases step <;> simp only [work] at h <;> split at h <;> cases h <;> (try split) <;>
    exact ⟨rfl, rfl⟩

theorem inv_work (h : σ.Inv) (hstep : σ.work k step = some σ') : σ'.observe.Inv where
  single := (single_work h.single hstep).congr rfl rfl rfl rfl
  unready hr := by
    obtain ⟨hready, hcreated⟩ := work_frame hstep
    have hr' : σ'.ready = false := hr
    show σ'.created = 0
    rw [hcreated]
    exact h.unready (hready ▸ hr')
  calls := calls_work h hstep
  noted _ _ hask hserves := noted_observe hask hserves

/-! ## Runs -/

variable [DecidableEq ι] in
theorem inv_step {l : Label ι} (h : σ.Inv) (hok : Orderly σ l)
    (hstep : (machine ι).step σ l = some σ') : σ'.Inv := by
  obtain ⟨τ, hτ, rfl⟩ := Option.map_eq_some_iff.mp hstep
  cases l with
  | start c redirectIp => exact inv_start h hτ
  | stop c => exact inv_stop h hτ
  | ensure c => exact inv_ensure h hτ
  | provide c ok => exact inv_provide h hτ
  | take c created => exact inv_take h hok hτ
  | block c => exact inv_block h hτ
  | expire c => exact inv_expire h hτ
  | resume c => exact inv_resume h hok hτ
  | work k step => exact inv_work h hτ

theorem Inv.clean (h : σ.Inv) : σ.Clean where
  exclusive _ _ hi hj := h.single.exclusive hi hj
  started c hc := by
    have hholds := (h.calls c).holds
    rwa [hc] at hholds
  ownFailure c k hc := by
    have hholds := (h.calls c).holds
    rwa [hc] at hholds
  stopped c hc k ha := by
    have hholds := (h.calls c).holds
    rw [hc] at hholds
    rw [hholds k ha]
    decide

end Sys

variable [DecidableEq ι] in
/-- **The life cycle of the captive name server.** In a run whose steps come in order, at most one
DNS task is alive, a start reports only the server and the task that it asked for, and a stop
reports that the tasks are gone only when they are. -/
theorem clean_of_orderly {σ : Sys ι} (h : (machine ι).ReachableWhen Orderly σ) : σ.Clean := by
  have hinv : σ.Inv := h.invariant (fun _ h0 => h0 ▸ Sys.inv_initial)
    fun _ _ _ hσ hok hstep => Sys.inv_step hσ hok hstep
  exact hinv.clean

/-! ## Runs that come in order, and two that do not -/

def addr (n : UInt8) : Ip4Addr := #v[192, 168, 4, n]

/-- The first start of all, by the task `true`, until it has created its task. -/
def firstStart : List (Label Bool) :=
  [.start true (some (addr 1)), .ensure true, .provide true true, .take true true]

/-- The server is started and stopped, and the stop is told so by the task on its way out. -/
def orderlyRun : List (Label Bool) :=
  firstStart ++ [.block true, .work 0 (.bind true), .work 0 .publish, .work 0 .announce,
    .resume true, .stop false, .take false true, .block false, .work 0 .receive, .work 0 .close,
    .work 0 .signal, .work 0 .delete, .resume false]

theorem clean_of_orderly_run : ∃ σ : Sys Bool, σ.call true = .returned (.start .ok) ∧
    σ.call false = .returned (.stop .ok) ∧ σ.Clean := by
  have hrun : ((machine Bool).runWhen Orderly {} orderlyRun).map (fun σ =>
      σ.call true = .returned (.start .ok) && σ.call false = .returned (.stop .ok)) =
        some true := by
    decide
  obtain ⟨σ, hσ, hp⟩ := Machine.exists_reachableWhen_of_run rfl hrun
  rw [Bool.and_eq_true, decide_eq_true_eq, decide_eq_true_eq] at hp
  exact ⟨σ, hp.1, hp.2, clean_of_orderly hσ⟩

/-- A task that could not bind has given up the state, not yet its bits, when a second start
comes. -/
def overlapRun : List (Label Bool) :=
  firstStart ++ [.work 0 (.bind false), .work 0 .close, .start false (some (addr 2)),
    .ensure false, .take false true]

/-- Two DNS tasks are alive. -/
theorem overlap_not_clean : ∃ σ : Sys Bool, (machine Bool).Reachable σ ∧ ¬ σ.Clean := by
  have hrun : ((machine Bool).run {} overlapRun).map (fun σ =>
      (σ.task 0).alive && (σ.task 1).alive) = some true := by
    decide
  obtain ⟨σ, hσ, hp⟩ := Machine.exists_reachable_of_run rfl hrun
  rw [Bool.and_eq_true] at hp
  refine ⟨σ, hσ, fun hclean => ?_⟩
  have h01 : (0 : Nat) = 1 := hclean.exclusive 0 1 hp.1 hp.2
  cases h01

end BleGateway.WifiProv.DnsLifecycle
