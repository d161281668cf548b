import BleGateway.McpWs.Bridge

/-! # Connections do not disturb each other

Messages, responses and device commands are stamped with the generation, connects and disconnects
with the handle; the handshake timer's event bears neither. The generations are epochs
(`Epoch.Stamped`): the client is given up only together with its generation. So a stamp of the
present generation is the present connection's, and what is left is the reuse of a handle and the
timer.
-/

namespace BleGateway.McpWs

open Epoch

/-! ## What is on its way -/

/-- The generation that an event is checked against. -/
def Event.stamps : Event → List (Stamp Conn)
  | .rxMessage _ generation _ origin => [⟨generation, origin⟩]
  | .txMessage generation _ origin => [⟨generation, origin⟩]
  | .mcpCompletion generation _ origin => [⟨generation, origin⟩]
  | _ => []

/-- The handle that an event is checked against, if that is all. -/
def Event.names : Event → List Client
  | .wsConnected h origin => [⟨h, origin⟩]
  | .wsDisconnected h origin => [⟨h, origin⟩]
  | _ => []

def Point.stamps : Point → List (Stamp Conn)
  | .receive _ generation _ origin => [⟨generation, origin⟩]
  | .respond generation _ _ origin => [⟨generation, origin⟩]
  | .queueTx generation _ _ origin => [⟨generation, origin⟩]
  | .initializeDone generation origin => [⟨generation, origin⟩]
  | .initializedDone generation origin => [⟨generation, origin⟩]
  | .transmit generation _ origin => [⟨generation, origin⟩]
  | .sendFrames generation _ _ origin => [⟨generation, origin⟩]
  | .sendFailed generation _ origin => [⟨generation, origin⟩]
  | _ => []

def Point.names : Point → List Client
  | .connected h origin => [⟨h, origin⟩]
  | .disconnected h origin => [⟨h, origin⟩]
  | _ => []

/-- What is on its way, apart from what the task has in hand. -/
def Sys.laterStamps (s : Sys) : List (Stamp Conn) :=
  (s.queue ++ s.posts).flatMap Event.stamps ++ s.pending

def Sys.laterNames (s : Sys) : List Client := (s.queue ++ s.posts).flatMap Event.names

def Sys.stamps (s : Sys) : List (Stamp Conn) :=
  s.task.toList.flatMap Point.stamps ++ s.laterStamps

def Sys.names (s : Sys) : List Client := s.task.toList.flatMap Point.names ++ s.laterNames

/-- The connection of the present client. -/
def Sys.owner (s : Sys) : Option Conn := s.bridge.client.map Client.conn

variable {p : Point} {t : Sys} {origin : Conn} {ok : Bool} {h : Handle} {generation : Nat}
  {k : Followup} {reply : Mcp.Reply}

/-- The task has the stamps and the names of the event that it takes. -/
theorem Event.point_same {e : Event} (h : e.point = some p) :
    p.stamps = e.stamps ∧ p.names = e.names := by
  cases e with
  | mcpCompletion generation reply origin =>
      cases reply with
      | none => exact absurd h (by simp [Event.point])
      | some reply =>
          cases h
          exact ⟨rfl, rfl⟩
  | _ =>
      cases h
      exact ⟨rfl, rfl⟩

/-! ## The invariant -/

/-- What the task knows at a point. A client is given up only for an event of its own. -/
def PointSound (s : Sys) : Point → Prop
  | .connectInit => s.bridge.client = none
  | .stopReconnectTimer k => k.origin = none
  | .detach (.reconnect (some origin)) => ∀ c, s.bridge.client = some c → c.conn = origin
  | .sendFrames _ client _ origin => client.conn = origin
  | _ => True

/-- The task is destroying the client, which the bridge no longer has. -/
def Point.destroying : Point → Bool
  | .stopHandshakeTimer _ | .freeClient _ => true
  | _ => false

theorem PointSound.congr {s : Sys} (h : PointSound s p)
    (hclient : t.bridge.client = s.bridge.client) : PointSound t p := by
  cases p with
  | connectInit => exact hclient.trans h
  | detach k =>
      cases k with
      | reconnect origin =>
          cases origin with
          | none => trivial
          | some origin => exact fun c hc => h c (hclient ▸ hc)
      | _ => trivial
  | stopReconnectTimer | sendFrames => exact h
  | _ => trivial

structure Sound (s : Sys) : Prop where
  isolated : ∀ x ∈ s.history.effects, x.1 = x.2
  stamped : Stamped s.bridge.generation s.owner s.stamps
  named : ∀ x ∈ s.names, ∀ c, s.bridge.client = some c → c.handle = x.handle → c.conn = x.conn
  attached : if s.task.any Point.destroying then s.bridge.client = none
    else s.bridge.client = s.live.map Live.client
  point : ∀ p, s.task = some p → PointSound s p

/-- **Isolation:** what an event changed was its own connection. -/
def Isolated (s : Sys) : Prop := ∀ x ∈ s.history.effects, x.1 = x.2

/-- What the task's next section may not meet. -/
def PointUndisturbed (s : Sys) (ok : Bool) (h : Handle) : Point → Prop
  | .connectInit => ok = true → ∀ x ∈ s.names, x.handle ≠ h
  | .timedOut origin => s.bridge.state = .handshaking → ∀ c ∈ s.bridge.client, c.conn = origin
  | _ => True

instance (s : Sys) (ok : Bool) (h : Handle) : (p : Point) → Decidable (PointUndisturbed s ok h p)
  | .connectInit => inferInstanceAs (Decidable (_ → _))
  | .timedOut _ => inferInstanceAs (Decidable (_ → _))
  | .connectBegin | .connectStart | .stopReconnectTimer _ | .detach _ | .stopHandshakeTimer _
  | .freeClient _ | .settle _ | .startReconnectTimer | .queueConnect | .connected _ _
  | .startHandshakeTimer _ | .disconnected _ _ | .receive _ _ _ _ | .respond _ _ _ _
  | .queueTx _ _ _ _ | .initializeDone _ _ | .initializedDone _ _ | .transmit _ _ _
  | .sendFrames _ _ _ _ | .sendFailed _ _ _ => isTrue trivial

/-- What the calls of the task's section return. -/
def Label.calls : Label → Option (Bool × Handle)
  | .work ok h => some (ok, h)
  | _ => none

/-- The step does not run into the defect: the generation does not wrap, a new client's handle is
not that of an earlier client whose connects or disconnects are still on their way, and a handshake
timeout that is handled during a handshake is of the connection that shakes hands. -/
def Undisturbed (s : Sys) (l : Label) : Prop :=
  s.bridge.generation + 1 < 2 ^ 32 ∧
    ∀ c ∈ l.calls, ∀ p ∈ s.task, PointUndisturbed s c.1 c.2 p

instance (s : Sys) (l : Label) : Decidable (Undisturbed s l) := inferInstanceAs (Decidable (_ ∧ _))

/-! ## Frames -/

theorem later_stamps (s : Sys) : s.laterStamps ⊆ s.stamps := List.subset_append_right _ _

theorem later_names (s : Sys) : s.laterNames ⊆ s.names := List.subset_append_right _ _

theorem mem_laterStamps {s : Sys} {w : Stamp Conn} :
    w ∈ s.laterStamps ↔
      (∃ e ∈ s.queue, w ∈ e.stamps) ∨ (∃ e ∈ s.posts, w ∈ e.stamps) ∨ w ∈ s.pending := by
  simp only [Sys.laterStamps, List.mem_append, List.mem_flatMap, or_and_right, exists_or, or_assoc]

theorem mem_laterNames {s : Sys} {x : Client} :
    x ∈ s.laterNames ↔ (∃ e ∈ s.queue, x ∈ e.names) ∨ (∃ e ∈ s.posts, x ∈ e.names) := by
  simp only [Sys.laterNames, List.mem_append, List.mem_flatMap, or_and_right, exists_or]

/-- Events without stamps and names may be posted. -/
theorem later_posts {s : Sys} {posts : List Event} (hqueue : t.queue = s.queue)
    (hpending : t.pending = s.pending) (hposts : t.posts = posts ++ s.posts)
    (hnone : ∀ e ∈ posts, e.stamps = [] ∧ e.names = []) :
    t.laterStamps = s.laterStamps ∧ t.laterNames = s.laterNames := by
  have hstamps : posts.flatMap Event.stamps = [] :=
    List.flatMap_eq_nil_iff.mpr fun e he => (hnone e he).1
  have hnames : posts.flatMap Event.names = [] :=
    List.flatMap_eq_nil_iff.mpr fun e he => (hnone e he).2
  constructor
  · simp only [Sys.laterStamps, hqueue, hpending, hposts, List.flatMap_append, hstamps,
      List.nil_append]
  · simp only [Sys.laterNames, hqueue, hposts, List.flatMap_append, hnames, List.nil_append]

theorem point_stamps {s : Sys} (hp : s.task = some p) : p.stamps ⊆ s.stamps := by
  intro w hw
  rw [Sys.stamps, hp]
  exact List.mem_append_left _ (by simpa using hw)

theorem point_names {s : Sys} (hp : s.task = some p) : p.names ⊆ s.names := by
  intro x hx
  rw [Sys.names, hp]
  exact List.mem_append_left _ (by simpa using hx)

section Enqueue
variable (cfg : Cfg) (s : Sys) (e : Event)

@[simp] theorem enqueue_bridge : (s.enqueue cfg e).bridge = s.bridge := by
  unfold Sys.enqueue; split <;> rfl
@[simp] theorem enqueue_task : (s.enqueue cfg e).task = s.task := by
  unfold Sys.enqueue; split <;> rfl
@[simp] theorem enqueue_posts : (s.enqueue cfg e).posts = s.posts := by
  unfold Sys.enqueue; split <;> rfl
@[simp] theorem enqueue_pending : (s.enqueue cfg e).pending = s.pending := by
  unfold Sys.enqueue; split <;> rfl
@[simp] theorem enqueue_live : (s.enqueue cfg e).live = s.live := by
  unfold Sys.enqueue; split <;> rfl
@[simp] theorem enqueue_history : (s.enqueue cfg e).history = s.history := by
  unfold Sys.enqueue; split <;> rfl

end Enqueue

/-- A queued event is on its way. -/
theorem enqueue_later (cfg : Cfg) (s : Sys) (e : Event) :
    (s.enqueue cfg e).laterStamps ⊆ e.stamps ++ s.laterStamps ∧
      (s.enqueue cfg e).laterNames ⊆ e.names ++ s.laterNames := by
  unfold Sys.enqueue
  split
  · constructor
    · intro w hw
      simp only [Sys.laterStamps, List.flatMap_append, List.mem_append, List.flatMap_cons,
        List.flatMap_nil, List.append_nil] at hw ⊢
      tauto
    · intro x hx
      simp only [Sys.laterNames, List.flatMap_append, List.mem_append, List.flatMap_cons,
        List.flatMap_nil, List.append_nil] at hx ⊢
      tauto
  · exact ⟨List.subset_append_right _ _, List.subset_append_right _ _⟩

/-- The task has not begun to destroy the client, or is done with it. -/
def Sys.settled (s : Sys) : Prop := s.task.any Point.destroying = false

theorem Sound.attached_live {s : Sys} (hs : Sound s) (h : s.settled) :
    s.bridge.client = s.live.map Live.client := by
  have := hs.attached
  rwa [h, if_neg (by simp)] at this

/-- `t` has the client and the generation of `s`, and what is on its way in `t` is so in `s`. -/
structure Keeps (s t : Sys) : Prop where
  client : t.bridge.client = s.bridge.client
  generation : t.bridge.generation = s.bridge.generation
  live : t.live.map Live.client = s.live.map Live.client
  stamps : t.laterStamps ⊆ s.stamps
  names : t.laterNames ⊆ s.names

/-- Queue, posts and commands are untouched. -/
theorem Keeps.same {s : Sys} (client : t.bridge.client = s.bridge.client)
    (generation : t.bridge.generation = s.bridge.generation)
    (live : t.live.map Live.client = s.live.map Live.client) (queue : t.queue = s.queue)
    (posts : t.posts = s.posts) (pending : t.pending = s.pending) : Keeps s t := by
  have hstamps : t.laterStamps = s.laterStamps := by
    rw [Sys.laterStamps, Sys.laterStamps, queue, posts, pending]
  have hnames : t.laterNames = s.laterNames := by
    rw [Sys.laterNames, Sys.laterNames, queue, posts]
  exact ⟨client, generation, live, hstamps ▸ later_stamps s, hnames ▸ later_names s⟩

theorem Keeps.refl (s : Sys) : Keeps s s := .same rfl rfl rfl rfl rfl rfl

theorem Keeps.enqueue {s : Sys} (h : Keeps s t) {cfg : Cfg} {e : Event}
    (hstamps : e.stamps ⊆ s.stamps) (hnames : e.names ⊆ s.names) : Keeps s (t.enqueue cfg e) where
  client := by rw [enqueue_bridge, h.client]
  generation := by rw [enqueue_bridge, h.generation]
  live := by rw [enqueue_live, h.live]
  stamps := List.Subset.trans (enqueue_later cfg t e).1
    (List.append_subset.mpr ⟨hstamps, h.stamps⟩)
  names := List.Subset.trans (enqueue_later cfg t e).2 (List.append_subset.mpr ⟨hnames, h.names⟩)

/-- **The frame rule:** a step that keeps the client and the generation and goes on, if at all, with
what was on its way. -/
theorem Sound.moves {s : Sys} (hs : Sound s) (hkeeps : Keeps s t) (hsettled : s.settled)
    (hisolated : Isolated t)
    (hpoint : ∀ p, t.task = some p →
      p.stamps ⊆ s.stamps ∧ p.names ⊆ s.names ∧ p.destroying = false ∧ PointSound t p) :
    Sound t where
  isolated := hisolated
  stamped := by
    have hsub : t.stamps ⊆ s.stamps := by
      refine List.append_subset.mpr ⟨fun w hw => ?_, hkeeps.stamps⟩
      obtain ⟨p, hp, hw⟩ := List.mem_flatMap.mp hw
      exact (hpoint p (Option.mem_toList.mp hp)).1 hw
    have howner : t.owner = s.owner := by rw [Sys.owner, Sys.owner, hkeeps.client]
    rw [hkeeps.generation, howner]
    exact hs.stamped.subset hsub
  named := by
    intro x hx c hc
    refine hs.named x ?_ c (hkeeps.client ▸ hc)
    rcases List.mem_append.mp hx with hx | hx
    · obtain ⟨p, hp, hx⟩ := List.mem_flatMap.mp hx
      exact (hpoint p (Option.mem_toList.mp hp)).2.1 hx
    · exact hkeeps.names hx
  attached := by
    have hsettled' : t.settled := by
      rw [Sys.settled]
      cases htask : t.task with
      | none => rfl
      | some p => exact (hpoint p htask).2.2.1
    rw [hsettled', if_neg (by simp), hkeeps.client, hkeeps.live]
    exact hs.attached_live hsettled
  point := fun p hp => (hpoint p hp).2.2.2

theorem Sound.done {s : Sys} (hs : Sound s) (hkeeps : Keeps s t) (hsettled : s.settled)
    (hisolated : Isolated t) : Sound t.done :=
  hs.moves ⟨hkeeps.client, hkeeps.generation, hkeeps.live, hkeeps.stamps, hkeeps.names⟩ hsettled
    hisolated fun p hp => absurd hp (by simp [Sys.done])

theorem Sound.goto {s : Sys} (hs : Sound s) (p : Point) (hkeeps : Keeps s t) (hsettled : s.settled)
    (hisolated : Isolated t) (hstamps : p.stamps ⊆ s.stamps) (hnames : p.names ⊆ s.names)
    (hp : p.destroying = false) (hpoint : PointSound (t.goto p) p) :
    Sound (t.goto p) := by
  refine hs.moves ⟨hkeeps.client, hkeeps.generation, hkeeps.live, hkeeps.stamps, hkeeps.names⟩
    hsettled hisolated fun q hq => ?_
  cases hq
  exact ⟨hstamps, hnames, hp, hpoint⟩

/-- The connection's own event changes it. -/
theorem isolated_affect {s : Sys} (hs : Sound s)
    (h : ∀ c, s.bridge.client = some c → c.conn = origin) : Isolated (s.affect origin) := by
  intro x hx
  rcases List.mem_append.mp hx with hx | hx
  · exact hs.isolated x hx
  · cases hc : s.bridge.client with
    | none => exact absurd hx (by simp [hc])
    | some c =>
        rw [hc] at hx
        obtain rfl := List.mem_singleton.mp hx
        exact (h c hc).symm

/-- A handle that is still the client's. -/
theorem Sound.named_owner {s : Sys} (hs : Sound s) {x : Client} (hx : x ∈ s.names)
    (h : s.bridge.hasClient x.handle = true) : ∀ c, s.bridge.client = some c → c.conn = x.conn := by
  intro c hc
  rw [Bridge.hasClient, hc, Option.any_some, decide_eq_true_eq] at h
  exact hs.named x hx c hc h

/-- A generation that is still the present one. -/
theorem Sound.stamped_owner {s : Sys} (hs : Sound s) {w : Stamp Conn} (hw : w ∈ s.stamps)
    (h : s.bridge.generation = w.epoch) : ∀ c, s.bridge.client = some c → c.conn = w.origin := by
  intro c hc
  have howner := hs.stamped.owned hw h.symm
  rw [Sys.owner, hc] at howner
  exact Option.some.inj howner

/-! ## The task's sections -/

theorem settled_of {s : Sys} (hp : s.task = some p) (h : p.destroying = false) :
    s.settled := by rw [Sys.settled, hp, Option.any_some, h]

/-- The section changes nothing. -/
theorem Sound.rest {s : Sys} (hs : Sound s) (hp : s.task = some p) (h : p.destroying = false) :
    Sound s.done := hs.done (.refl s) (settled_of hp h) hs.isolated

section Sections
variable {cfg : Cfg} {s : Sys} (hs : Sound s)
include hs

theorem sound_connectBegin (hp : s.task = some .connectBegin) : Sound s.connectBegin := by
  have hsettled := settled_of hp rfl
  unfold Sys.connectBegin
  split
  · rename_i h
    have hnone : s.bridge.client = none := by
      rw [Bool.and_eq_true] at h
      exact Option.isNone_iff_eq_none.mp h.2
    exact hs.goto .connectInit (.same rfl rfl rfl rfl rfl rfl) hsettled hs.isolated
      (List.nil_subset _) (List.nil_subset _) rfl hnone
  · exact hs.rest hp rfl

theorem sound_connectInit (hp : s.task = some .connectInit)
    (hfresh : ok = true → ∀ x ∈ s.names, x.handle ≠ h) : Sound (s.connectInit ok h) := by
  have hnone : s.bridge.client = none := hs.point _ hp
  unfold Sys.connectInit
  split
  · rename_i hok
    -- a client is acquired; what is on its way is not of its generation and not of its handle
    refine ⟨hs.isolated, ?_, ?_, rfl, fun p hp => ?_⟩
    · have hstamped := hs.stamped
      rw [Sys.owner, hnone] at hstamped
      exact (hstamped.acquire (some s.conns)).subset (later_stamps s)
    · intro x hx c hc hhandle
      cases hc
      exact absurd hhandle.symm (hfresh hok x (later_names s hx))
    · cases hp
      trivial
  · exact hs.goto (.settle (.reconnect none)) (.refl s) (settled_of hp rfl) hs.isolated
      (List.nil_subset _) (List.nil_subset _) rfl trivial

theorem sound_connectStart (hp : s.task = some .connectStart) (ok : Bool) :
    Sound (s.connectStart ok) := by
  have hsettled := settled_of hp rfl
  unfold Sys.connectStart
  split
  · have hlive : (s.live.map Live.start).map Live.client = s.live.map Live.client := by
      cases s.live <;> rfl
    exact hs.done (.same rfl rfl hlive rfl rfl rfl) hsettled hs.isolated
  · exact hs.goto (.detach (.reconnect none)) (.refl s) hsettled hs.isolated (List.nil_subset _)
      (List.nil_subset _) rfl trivial

omit hs in
/-- A generation that does not wrap. -/
theorem invalidate_generation {b : Bridge} (h : b.generation + 1 < 2 ^ 32) :
    b.invalidate.generation = b.generation + 1 := Nat.mod_eq_of_lt h

/-- **A new generation.** Everything on its way is stale, whatever becomes of the client. -/
theorem sound_advance (hwrap : s.bridge.generation + 1 < 2 ^ 32)
    (hgeneration : t.bridge.generation = s.bridge.invalidate.generation)
    (hclient : t.bridge.client = s.bridge.client ∨ t.bridge.client = none)
    (hstamps : t.stamps ⊆ s.stamps) (hnames : t.names ⊆ s.names) (hisolated : Isolated t)
    (hattached : if t.task.any Point.destroying
      then t.bridge.client = none else t.bridge.client = t.live.map Live.client)
    (hpoint : ∀ p, t.task = some p → PointSound t p) : Sound t where
  isolated := hisolated
  stamped := by
    rw [hgeneration, invalidate_generation hwrap]
    exact (hs.stamped.advance t.owner).subset hstamps
  named := by
    intro x hx c hc
    rcases hclient with h | h
    · exact hs.named x (hnames hx) c (h ▸ hc)
    · cases h.symm.trans hc
  attached := hattached
  point := hpoint

theorem sound_connected (hp : s.task = some (.connected h origin))
    (hwrap : s.bridge.generation + 1 < 2 ^ 32) : Sound (s.connected h origin) := by
  have hsettled := settled_of hp rfl
  unfold Sys.connected
  split
  · rename_i hclient
    have hown := hs.named_owner (point_names hp (List.mem_singleton.mpr rfl)) hclient
    refine sound_advance hs hwrap rfl (.inl rfl) (later_stamps s) (later_names s)
      (isolated_affect hs hown) (hs.attached_live hsettled) fun p hp => ?_
    cases hp
    trivial
  · exact hs.rest hp rfl

theorem sound_detach {k : After} (hp : s.task = some (.detach k))
    (hwrap : s.bridge.generation + 1 < 2 ^ 32) : Sound (s.detach k) := by
  have hisolated : Isolated (k.origin.elim s s.affect) := by
    cases k with
    | reconnect origin =>
        cases origin with
        | none => exact hs.isolated
        | some origin => exact isolated_affect hs (hs.point _ hp)
    | _ => exact hs.isolated
  have hsame : (k.origin.elim s s.affect).bridge = s.bridge ∧
      (k.origin.elim s s.affect).laterStamps = s.laterStamps ∧
      (k.origin.elim s s.affect).laterNames = s.laterNames := by
    cases k.origin <;> exact ⟨rfl, rfl, rfl⟩
  obtain ⟨hbridge, hstamps, hnames⟩ := hsame
  refine sound_advance hs hwrap (congrArg (fun b => b.invalidate.generation) hbridge) (.inr rfl)
    ?_ ?_ hisolated rfl fun p hp => ?_
  · show (k.origin.elim s s.affect).laterStamps ⊆ s.stamps
    exact hstamps ▸ later_stamps s
  · show (k.origin.elim s s.affect).laterNames ⊆ s.names
    exact hnames ▸ later_names s
  · cases hp
    trivial

/-- While the client is destroyed nothing of it is used. -/
theorem sound_destroying {q : Point} (hp : s.task = some p) (hd : p.destroying = true)
    (hbridge : t.bridge = s.bridge) (hstamps : t.laterStamps ⊆ s.stamps) (hisolated : Isolated t)
    (hq : q.stamps = [] ∧ q.names = []) (hpoint : PointSound (t.goto q) q)
    (hlive : q.destroying = true ∨ t.live = none) :
    Sound (t.goto q) := by
  have hnone : s.bridge.client = none := by
    have := hs.attached
    rwa [hp, Option.any_some, hd, if_pos rfl] at this
  refine ⟨hisolated, ?_, fun x hx c hc => ?_, ?_, fun p hp => ?_⟩
  · show Stamped t.bridge.generation (t.bridge.client.map Client.conn) (q.stamps ++ [] ++ _)
    rw [hbridge, hq.1]
    exact hs.stamped.subset hstamps
  · rw [show (t.goto q).bridge = s.bridge from hbridge, hnone] at hc
    cases hc
  · show if q.destroying = true then t.bridge.client = none
      else t.bridge.client = t.live.map Live.client
    rw [hbridge, hnone]
    rcases hlive with h | h
    · rw [if_pos h]
    · rw [h]
      split <;> rfl
  · cases hp
    exact hpoint

theorem sound_settle {k : After} (hp : s.task = some (.settle k)) : Sound (s.settle cfg k) := by
  have hsettled := settled_of hp rfl
  have hdone : ∀ state, Sound ({ s with bridge := { s.bridge with state := state } }.done) :=
    fun state => hs.done (.same rfl rfl rfl rfl rfl rfl) hsettled hs.isolated
  have hgoto : ∀ state p, p.stamps = [] → p.names = [] → p.destroying = false →
      (∀ t, PointSound t p) →
      Sound ({ s with bridge := { s.bridge with state := state } }.goto p) := by
    intro state p hstamps hnames hp hpoint
    exact hs.goto p (.same rfl rfl rfl rfl rfl rfl) hsettled hs.isolated
      (hstamps ▸ List.nil_subset _) (hnames ▸ List.nil_subset _) hp (hpoint _)
  cases k with
  | networkDown | stop => exact hdone _
  | reload =>
      simp only [Sys.settle]
      split
      · split
        · exact hgoto s.bridge.state .queueConnect rfl rfl rfl fun _ => trivial
        · exact hgoto s.bridge.state .startReconnectTimer rfl rfl rfl fun _ => trivial
      · split
        · exact hdone _
        · exact hdone _
  | reconnect origin =>
      simp only [Sys.settle]
      split
      · exact hgoto _ .startReconnectTimer rfl rfl rfl fun _ => trivial
      · exact hdone _

theorem sound_disconnected (hp : s.task = some (.disconnected h origin)) :
    Sound (s.disconnected h origin) := by
  have hsettled := settled_of hp rfl
  unfold Sys.disconnected
  split
  · rename_i hclient
    exact hs.goto (.detach (.reconnect (some origin))) (.refl s) hsettled hs.isolated
      (List.nil_subset _) (List.nil_subset _) rfl
      (hs.named_owner (point_names hp (List.mem_singleton.mpr rfl)) hclient)
  · exact hs.rest hp rfl

theorem sound_timedOut (hp : s.task = some (.timedOut origin))
    (hown : s.bridge.state = .handshaking → ∀ c, s.bridge.client = some c → c.conn = origin) :
    Sound (s.timedOut origin) := by
  have hsettled := settled_of hp rfl
  unfold Sys.timedOut
  split
  · rename_i hstate
    exact hs.goto (.detach (.reconnect (some origin))) (.refl s) hsettled hs.isolated
      (List.nil_subset _) (List.nil_subset _) rfl (hown hstate)
  · exact hs.rest hp rfl

omit hs in
theorem followup_stamps (h : k.point generation origin = some p) :
    p.stamps = [⟨generation, origin⟩] ∧ p.names = [] ∧ p.destroying = false ∧
      ∀ s, PointSound s p := by
  cases k with
  | nothing => exact absurd h (by simp [Followup.point])
  | _ =>
      cases h
      exact ⟨rfl, rfl, rfl, fun _ => trivial⟩

/-- The task goes on with the work that is stamped, if there is more to do. -/
theorem sound_followup (hstamp : (⟨generation, origin⟩ : Stamp Conn) ∈ s.stamps)
    (htask : t.task = k.point generation origin) (hkeeps : Keeps s t) (hsettled : s.settled)
    (hisolated : Isolated t) : Sound t := by
  refine hs.moves hkeeps hsettled hisolated fun p hp => ?_
  obtain ⟨hps, hpn, hpd, hpp⟩ := followup_stamps (htask.symm.trans hp)
  refine ⟨?_, hpn ▸ List.nil_subset _, hpd, hpp t⟩
  rw [hps]
  exact List.cons_subset.mpr ⟨hstamp, List.nil_subset _⟩

theorem sound_receive {payload : Bytes}
    (hp : s.task = some (.receive h generation payload origin)) :
    Sound (s.receive cfg h generation payload origin) := by
  have hsettled := settled_of hp rfl
  unfold Sys.receive
  split
  · rename_i hcurrent
    rw [Bool.and_eq_true, decide_eq_true_eq] at hcurrent
    have hstamp : (⟨generation, origin⟩ : Stamp Conn) ∈ s.stamps :=
      point_stamps hp (List.mem_singleton.mpr rfl)
    have hisolated := isolated_affect hs (hs.stamped_owner hstamp hcurrent.2)
    have hstamps := point_stamps hp
    dsimp only
    split
    · exact hs.goto (.respond generation _ _ origin) (.same rfl rfl rfl rfl rfl rfl) hsettled
        hisolated hstamps (List.nil_subset _) rfl trivial
    · exact sound_followup hs hstamp rfl (.same rfl rfl rfl rfl rfl rfl) hsettled hisolated
    · -- the device command on its way bears the same stamp
      refine sound_followup hs hstamp rfl ⟨rfl, rfl, rfl, ?_, later_names s⟩ hsettled hisolated
      refine List.append_subset.mpr ⟨?_, List.cons_subset.mpr ⟨hstamp, ?_⟩⟩
      · exact List.Subset.trans (List.subset_append_left _ _) (later_stamps s)
      · exact List.Subset.trans (List.subset_append_right _ _) (later_stamps s)
    · exact hs.done (.same rfl rfl rfl rfl rfl rfl) hsettled hisolated
    · exact hs.done (.same rfl rfl rfl rfl rfl rfl) hsettled hisolated
  · exact hs.rest hp rfl

theorem sound_respond (hp : s.task = some (.respond generation reply k origin)) :
    Sound (s.respond cfg generation reply k origin) := by
  have hsettled := settled_of hp rfl
  have hstamps := point_stamps hp
  unfold Sys.respond
  split
  · exact hs.goto (.queueTx generation reply k origin) (.refl s) hsettled hs.isolated
      hstamps (List.nil_subset _) rfl trivial
  · exact hs.rest hp rfl

theorem sound_queueTx (hp : s.task = some (.queueTx generation reply k origin)) :
    Sound (s.queueTx cfg ok generation reply k origin) := by
  have hsettled := settled_of hp rfl
  have hstamps := point_stamps hp
  unfold Sys.queueTx
  split
  · have hkeeps : Keeps s (s.enqueue cfg (.txMessage generation reply origin)) :=
      (Keeps.refl s).enqueue hstamps (List.nil_subset _)
    exact sound_followup hs (hstamps (List.mem_singleton.mpr rfl)) rfl
      ⟨hkeeps.client, hkeeps.generation, hkeeps.live, hkeeps.stamps, hkeeps.names⟩ hsettled
      hs.isolated
  · exact hs.rest hp rfl

theorem sound_initializeDone (hp : s.task = some (.initializeDone generation origin)) :
    Sound (s.initializeDone generation origin) := by
  have hsettled := settled_of hp rfl
  unfold Sys.initializeDone
  split
  · rename_i hcurrent
    have hown := hs.stamped_owner (point_stamps hp (List.mem_singleton.mpr rfl)) hcurrent
    exact hs.done (.same rfl rfl rfl rfl rfl rfl) hsettled (isolated_affect hs hown)
  · exact hs.rest hp rfl

theorem sound_initializedDone (hp : s.task = some (.initializedDone generation origin)) :
    Sound (s.initializedDone generation origin) := by
  have hsettled := settled_of hp rfl
  unfold Sys.initializedDone
  split
  · rename_i hcurrent
    have hown := hs.stamped_owner (point_stamps hp (List.mem_singleton.mpr rfl)) hcurrent.1
    exact hs.done (.same rfl rfl rfl rfl rfl rfl) hsettled (isolated_affect hs hown)
  · exact hs.rest hp rfl

theorem sound_transmit (hp : s.task = some (.transmit generation reply origin)) :
    Sound (s.transmit generation reply origin) := by
  have hsettled := settled_of hp rfl
  unfold Sys.transmit
  split
  · rename_i client hclient
    split
    · rename_i halive
      have hgeneration : s.bridge.generation = generation := by
        rw [Bridge.alive, Bool.and_eq_true, Bool.and_eq_true, decide_eq_true_eq] at halive
        exact halive.1.1
      have hown := hs.stamped_owner (point_stamps hp (List.mem_singleton.mpr rfl)) hgeneration
      have hstamps := point_stamps hp
      exact hs.goto (.sendFrames generation client reply origin) (.refl s) hsettled hs.isolated
        hstamps (List.nil_subset _) rfl (hown client hclient)
    · exact hs.rest hp rfl
  · exact hs.rest hp rfl

theorem sound_sendFrames {client : Client}
    (hp : s.task = some (.sendFrames generation client reply origin)) :
    Sound (s.sendFrames ok generation client origin) := by
  have hsettled := settled_of hp rfl
  have hown : client.conn = origin := hs.point _ hp
  have hisolated : ∀ x ∈ s.history.effects ++ [(origin, client.conn)], x.1 = x.2 := by
    intro x hx
    rcases List.mem_append.mp hx with hx | hx
    · exact hs.isolated x hx
    · obtain rfl := List.mem_singleton.mp hx
      exact hown.symm
  have hstamps := point_stamps hp
  unfold Sys.sendFrames
  dsimp only
  split
  · exact hs.done (.same rfl rfl rfl rfl rfl rfl) hsettled hisolated
  · exact hs.goto (.sendFailed generation client origin) (.same rfl rfl rfl rfl rfl rfl) hsettled
      hisolated hstamps (List.nil_subset _) rfl trivial

theorem sound_sendFailed {client : Client}
    (hp : s.task = some (.sendFailed generation client origin))
    (hwrap : s.bridge.generation + 1 < 2 ^ 32) :
    Sound (s.sendFailed generation client origin) := by
  have hsettled := settled_of hp rfl
  unfold Sys.sendFailed
  split
  · rename_i hcurrent
    have hown := hs.stamped_owner (point_stamps hp (List.mem_singleton.mpr rfl)) hcurrent.1
    refine sound_advance hs hwrap rfl (.inl rfl) (later_stamps s) (later_names s)
      (isolated_affect hs hown) (hs.attached_live hsettled) fun p hp => ?_
    cases hp
    exact hown
  · exact hs.rest hp rfl

/-- **A section of the task.** -/
theorem sound_work (hp : s.task = some p) (hok : Undisturbed s (.work ok h)) :
    Sound (s.work cfg ok h p) := by
  have hwrap := hok.1
  have hpoint := hok.2 _ rfl p hp
  cases p with
  | connectBegin => exact sound_connectBegin hs hp
  | connectInit => exact sound_connectInit hs hp hpoint
  | connectStart => exact sound_connectStart hs hp ok
  | stopReconnectTimer k =>
      refine hs.goto (.detach k) (.same rfl rfl rfl rfl rfl rfl) (settled_of hp rfl) hs.isolated
        (List.nil_subset _) (List.nil_subset _) rfl ?_
      have hk : k.origin = none := hs.point _ hp
      cases k with
      | reconnect origin =>
          cases hk
          trivial
      | _ => trivial
  | detach k => exact sound_detach hs hp hwrap
  | stopHandshakeTimer k =>
      exact sound_destroying hs hp rfl rfl (later_stamps s) hs.isolated ⟨rfl, rfl⟩ trivial
        (.inl rfl)
  | freeClient k =>
      exact sound_destroying hs hp rfl rfl (later_stamps s) hs.isolated ⟨rfl, rfl⟩ trivial
        (.inr rfl)
  | settle k => exact sound_settle hs hp
  | startReconnectTimer | startHandshakeTimer =>
      exact hs.done (.same rfl rfl rfl rfl rfl rfl) (settled_of hp rfl) hs.isolated
  | queueConnect =>
      refine hs.done ((Keeps.refl s).enqueue (List.nil_subset _) (List.nil_subset _))
        (settled_of hp rfl) ?_
      rw [Isolated, enqueue_history]
      exact hs.isolated
  | connected client origin => exact sound_connected hs hp hwrap
  | disconnected client origin => exact sound_disconnected hs hp
  | timedOut origin => exact sound_timedOut hs hp hpoint
  | receive client generation payload origin => exact sound_receive hs hp
  | respond generation reply k origin => exact sound_respond hs hp
  | queueTx generation reply k origin => exact sound_queueTx hs hp
  | initializeDone generation origin => exact sound_initializeDone hs hp
  | initializedDone generation origin => exact sound_initializedDone hs hp
  | transmit generation reply origin => exact sound_transmit hs hp
  | sendFrames generation client reply origin => exact sound_sendFrames hs hp
  | sendFailed generation client origin => exact sound_sendFailed hs hp hwrap

/-! ## The other actors -/

/-- The actor leaves the task, the client and the generation alone. -/
structure Beside (s t : Sys) : Prop where
  client : t.bridge.client = s.bridge.client
  generation : t.bridge.generation = s.bridge.generation
  live : t.live.map Live.client = s.live.map Live.client
  task : t.task = s.task

omit hs in
theorem Beside.enqueue (h : Beside s t) (cfg : Cfg) (e : Event) : Beside s (t.enqueue cfg e) := by
  unfold Sys.enqueue
  split
  · exact ⟨h.client, h.generation, h.live, h.task⟩
  · exact h

/-- An actor that leaves the task where it is, and adds the stamps `ws` and the names `xs` of the
present connection to what is on its way. -/
theorem sound_outside (ws : List (Stamp Conn)) (xs : List Client) (hb : Beside s t)
    (hstamps : t.laterStamps ⊆ ws ++ s.laterStamps) (hnames : t.laterNames ⊆ xs ++ s.laterNames)
    (hws : Stamped s.bridge.generation s.owner ws)
    (hxs : ∀ x ∈ xs, ∀ c, s.bridge.client = some c → c.handle = x.handle → c.conn = x.conn)
    (hisolated : Isolated t) : Sound t where
  isolated := hisolated
  stamped := by
    have howner : t.owner = s.owner := by rw [Sys.owner, Sys.owner, hb.client]
    rw [hb.generation, howner]
    intro w hw
    rw [Sys.stamps, hb.task] at hw
    rcases List.mem_append.mp hw with hw | hw
    · exact hs.stamped w (List.mem_append_left _ hw)
    · rcases List.mem_append.mp (hstamps hw) with hw | hw
      · exact hws w hw
      · exact hs.stamped w (later_stamps s hw)
  named := by
    intro x hx c hc
    rw [hb.client] at hc
    rw [Sys.names, hb.task] at hx
    rcases List.mem_append.mp hx with hx | hx
    · exact hs.named x (List.mem_append_left _ hx) c hc
    · rcases List.mem_append.mp (hnames hx) with hx | hx
      · exact hxs x hx c hc
      · exact hs.named x (later_names s hx) c hc
  attached := by
    rw [hb.task, hb.client, hb.live]
    exact hs.attached
  point := fun p hp => (hs.point p (hb.task ▸ hp)).congr hb.client

/-- An actor that starts a new generation. -/
theorem sound_outside_advance (hwrap : s.bridge.generation + 1 < 2 ^ 32)
    (hgeneration : t.bridge.generation = s.bridge.invalidate.generation)
    (hclient : t.bridge.client = s.bridge.client) (hlive : t.live = s.live)
    (htask : t.task = s.task) (hstamps : t.laterStamps = s.laterStamps)
    (hnames : t.laterNames = s.laterNames) (hisolated : Isolated t) : Sound t := by
  refine sound_advance hs hwrap hgeneration (.inl hclient) ?_ ?_ hisolated ?_ fun p hp => ?_
  · rw [Sys.stamps, Sys.stamps, htask, hstamps]
    exact List.Subset.refl _
  · rw [Sys.names, Sys.names, htask, hnames]
    exact List.Subset.refl _
  · rw [htask, hclient, hlive]
    exact hs.attached
  · exact (hs.point p (htask ▸ hp)).congr hclient

/-- The handle of the client that the library runs is the bridge's client's, if it has one. -/
theorem Sound.live_client {l : Live} (hl : s.live = some l) {c : Client}
    (hc : s.bridge.client = some c) : c = l.client := by
  have h := hs.attached
  split at h
  · cases h.symm.trans hc
  · rw [hl, hc] at h
    exact Option.some.inj h

theorem sound_take {e : Event} {queue : List Event} (htask : s.task = none)
    (hqueue : s.queue = e :: queue) : Sound { s with queue := queue, task := e.point } := by
  have hsettled : s.settled := by rw [Sys.settled, htask]; rfl
  have hstamps : s.laterStamps =
      e.stamps ++ ((queue ++ s.posts).flatMap Event.stamps ++ s.pending) := by
    rw [Sys.laterStamps, hqueue]
    simp
  have hnames : s.laterNames = e.names ++ (queue ++ s.posts).flatMap Event.names := by
    rw [Sys.laterNames, hqueue]
    simp
  refine hs.moves ⟨rfl, rfl, rfl, ?_, ?_⟩ hsettled hs.isolated fun p hp => ?_
  · exact List.Subset.trans (hstamps ▸ List.subset_append_right _ _) (later_stamps s)
  · exact List.Subset.trans (hnames ▸ List.subset_append_right _ _) (later_names s)
  · have hpoint : p.destroying = false ∧
        PointSound { s with queue := queue, task := e.point } p := by
      cases e with
      | mcpCompletion generation reply origin =>
          cases reply with
          | none => exact absurd hp (by simp [Event.point])
          | some reply =>
              cases hp
              exact ⟨rfl, trivial⟩
      | networkDown | reload | stop =>
          cases hp
          exact ⟨rfl, rfl⟩
      | _ =>
          cases hp
          exact ⟨rfl, trivial⟩
    refine ⟨?_, ?_, hpoint⟩
    · rw [(Event.point_same hp).1]
      exact List.Subset.trans (hstamps ▸ List.subset_append_left _ _) (later_stamps s)
    · rw [(Event.point_same hp).2]
      exact List.Subset.trans (hnames ▸ List.subset_append_left _ _) (later_names s)

/-- A connect or disconnect that the client reports. -/
theorem sound_report {l : Live} (hl : s.live = some l) {e : Event} (hb : Beside s t)
    (hstamps : t.laterStamps = s.laterStamps) (hnames : t.laterNames = s.laterNames)
    (hisolated : Isolated t) (hestamps : e.stamps = []) (henames : e.names = [l.client]) :
    Sound (t.enqueue cfg e) := by
  have hlater := enqueue_later cfg t e
  rw [hestamps, henames, hstamps, hnames] at hlater
  refine sound_outside hs [] [l.client] (hb.enqueue cfg e) hlater.1 hlater.2 Stamped.nil ?_ ?_
  · intro x hx c hc _
    obtain rfl := List.mem_singleton.mp hx
    rw [hs.live_client hl hc]
  · rw [Isolated, enqueue_history]
    exact hisolated

theorem sound_clientData {l : Live} (hl : s.live = some l) (e : DataEvent) :
    Sound (s.clientData cfg l e) := by
  unfold Sys.clientData
  dsimp only
  split
  · rename_i hclient
    have hown : ∀ c, s.bridge.client = some c → c.conn = l.client.conn := by
      intro c hc
      rw [hs.live_client hl hc]
    have hisolated := isolated_affect hs hown
    have hquiet : Sound { (s.affect l.client.conn) with
        history := { (s.affect l.client.conn).history with
          received := s.history.received ++ [e] }
        bridge := { s.bridge with rx := (assemble cfg.maxRxMessage s.bridge.rx e).1 } } :=
      sound_outside hs [] [] ⟨rfl, rfl, rfl, rfl⟩ (List.subset_append_right [] _)
        (List.subset_append_right [] _) Stamped.nil (by simp) hisolated
    split
    · rename_i message _
      refine sound_outside hquiet _ _ (.enqueue ⟨rfl, rfl, rfl, rfl⟩ cfg _)
        (enqueue_later cfg _ _).1 (enqueue_later cfg _ _).2 ?_ (by simp [Event.names]) ?_
      · intro w hw
        obtain rfl := List.mem_singleton.mp hw
        refine ⟨Nat.le_refl _, fun _ => ?_⟩
        obtain ⟨c, hc, _⟩ := (Option.any_eq_true _ _).mp hclient
        show s.bridge.client.map Client.conn = some l.client.conn
        rw [hc, Option.map_some, hown c hc]
      · rw [Isolated, enqueue_history]
        exact hisolated
    · exact hquiet
  · exact sound_outside hs [] [] ⟨rfl, rfl, rfl, rfl⟩ (List.subset_append_right [] _)
      (List.subset_append_right [] _) Stamped.nil (by simp) hs.isolated

/-- A post is queued, or dropped. -/
theorem sound_post {i : Nat} {e : Event} (hi : s.posts[i]? = some e) :
    Sound ({ s with posts := s.posts.eraseIdx i }.enqueue cfg e) := by
  have hmem : e ∈ s.posts := List.mem_of_getElem? hi
  have herase : (s.posts.eraseIdx i) ⊆ s.posts := List.eraseIdx_subset
  have hlater := enqueue_later cfg { s with posts := s.posts.eraseIdx i } e
  have hb : Beside s { s with posts := s.posts.eraseIdx i } := ⟨rfl, rfl, rfl, rfl⟩
  refine sound_outside hs [] [] (hb.enqueue cfg e) (List.Subset.trans hlater.1 fun w hw => ?_)
    (List.Subset.trans hlater.2 fun x hx => ?_) Stamped.nil (by simp) ?_
  · refine mem_laterStamps.mpr ?_
    rcases List.mem_append.mp hw with hw | hw
    · exact .inr (.inl ⟨e, hmem, hw⟩)
    · rcases mem_laterStamps.mp hw with hw | ⟨e', he', hw⟩ | hw
      · exact .inl hw
      · exact .inr (.inl ⟨e', herase he', hw⟩)
      · exact .inr (.inr hw)
  · refine mem_laterNames.mpr ?_
    rcases List.mem_append.mp hx with hx | hx
    · exact .inr ⟨e, hmem, hx⟩
    · rcases mem_laterNames.mp hx with hx | ⟨e', he', hx⟩
      · exact .inl hx
      · exact .inr ⟨e', herase he', hx⟩
  · rw [Isolated, enqueue_history]
    exact hs.isolated

/-- A completion bears the stamp of its command. -/
theorem sound_commandDone {i : Nat} {w : Stamp Conn} (hi : s.pending[i]? = some w)
    (reply : Option Mcp.Reply) :
    Sound ({ s with pending := s.pending.eraseIdx i }.commandDone w reply) := by
  have hmem : w ∈ s.pending := List.mem_of_getElem? hi
  have herase : (s.pending.eraseIdx i) ⊆ s.pending := List.eraseIdx_subset
  unfold Sys.commandDone
  split
  · refine sound_outside hs [] [] ⟨rfl, rfl, rfl, rfl⟩ (fun x hx => ?_)
      (fun x hx => ?_) Stamped.nil (by simp) hs.isolated
    · refine mem_laterStamps.mpr ?_
      rcases mem_laterStamps.mp hx with hx | ⟨e, he, hx⟩ | hx
      · exact .inl hx
      · rcases List.mem_cons.mp he with rfl | he
        · obtain rfl := List.mem_singleton.mp hx
          exact .inr (.inr hmem)
        · exact .inr (.inl ⟨e, he, hx⟩)
      · exact .inr (.inr (herase hx))
    · refine mem_laterNames.mpr ?_
      rcases mem_laterNames.mp hx with hx | ⟨e, he, hx⟩
      · exact .inl hx
      · rcases List.mem_cons.mp he with rfl | he
        · exact absurd hx (by simp [Event.names])
        · exact .inr ⟨e, he, hx⟩
  · refine sound_outside hs [] [] ⟨rfl, rfl, rfl, rfl⟩ (fun x hx => ?_)
      (List.Subset.refl _) Stamped.nil (by simp) hs.isolated
    refine mem_laterStamps.mpr ?_
    rcases mem_laterStamps.mp hx with hx | hx | hx
    · exact .inl hx
    · exact .inr (.inl hx)
    · exact .inr (.inr (herase hx))

/-- An actor that posts events without stamps and names, and leaves the client and the generation
alone. -/
theorem sound_posts (posts : List Event) (hb : Beside s t) (hqueue : t.queue = s.queue)
    (hpending : t.pending = s.pending) (hposts : t.posts = posts ++ s.posts)
    (hnone : ∀ e ∈ posts, e.stamps = [] ∧ e.names = []) (hisolated : Isolated t) : Sound t := by
  obtain ⟨hstamps, hnames⟩ := later_posts hqueue hpending hposts hnone
  exact sound_outside hs [] [] hb (by rw [hstamps]; exact List.Subset.refl _)
    (by rw [hnames]; exact List.Subset.refl _) Stamped.nil (by simp) hisolated

/-- Connects that are posted. -/
theorem sound_connects (connect : Bool) (hb : Beside s t) (hqueue : t.queue = s.queue)
    (hpending : t.pending = s.pending)
    (hposts : t.posts = if connect then .connect :: s.posts else s.posts) (hisolated : Isolated t) :
    Sound t := by
  cases connect with
  | true =>
      exact sound_posts hs [.connect] hb hqueue hpending hposts
        (by simp [Event.stamps, Event.names]) hisolated
  | false => exact sound_posts hs [] hb hqueue hpending hposts (by simp) hisolated

/-- An actor that invalidates the connection and posts an event. -/
theorem sound_invalidates {e : Event} (hwrap : s.bridge.generation + 1 < 2 ^ 32)
    (hgeneration : t.bridge.generation = s.bridge.invalidate.generation)
    (hclient : t.bridge.client = s.bridge.client) (hlive : t.live = s.live)
    (htask : t.task = s.task) (hqueue : t.queue = s.queue) (hpending : t.pending = s.pending)
    (hposts : t.posts = [e] ++ s.posts) (hnone : e.stamps = [] ∧ e.names = [])
    (hisolated : Isolated t) : Sound t := by
  obtain ⟨hstamps, hnames⟩ := later_posts hqueue hpending hposts (by simpa using hnone)
  exact sound_outside_advance hs hwrap hgeneration hclient hlive htask hstamps hnames hisolated

end Sections

/-! ## Every step -/

theorem sound_step {cfg : Cfg} {s s' : Sys} {l : Label} (hs : Sound s) (hok : Undisturbed s l)
    (h : step cfg s l = some s') : Sound s' := by
  have hwrap := hok.1
  cases l with
  | take =>
      simp only [step] at h
      split at h
      · rename_i e queue htask hqueue
        cases h
        exact sound_take hs htask hqueue
      · cases h
  | work ok handle =>
      obtain ⟨p, hp, rfl⟩ := Option.map_eq_some_iff.mp h
      exact sound_work hs hp hok
  | clientConnected | clientDisconnected =>
      simp only [step] at h
      split at h
      · rename_i l hl
        obtain ⟨-, ⟨⟩⟩ := Option.ite_none_right_eq_some.mp h
        exact sound_report hs hl ⟨rfl, rfl, by rw [hl]; rfl, rfl⟩ rfl rfl hs.isolated rfl rfl
      · cases h
  | clientData e =>
      simp only [step] at h
      split at h
      · rename_i l hl
        obtain ⟨-, ⟨⟩⟩ := Option.ite_none_right_eq_some.mp h
        exact sound_clientData hs hl e
      · cases h
  | expireReconnect =>
      obtain ⟨-, ⟨⟩⟩ := Option.ite_none_right_eq_some.mp h
      exact sound_connects hs true ⟨rfl, rfl, rfl, rfl⟩ rfl rfl rfl hs.isolated
  | expireHandshake =>
      obtain ⟨origin, _, rfl⟩ := Option.map_eq_some_iff.mp h
      exact sound_posts hs [.handshakeTimeout origin] ⟨rfl, rfl, rfl, rfl⟩ rfl rfl rfl
        (by simp [Event.stamps, Event.names]) hs.isolated
  | post i =>
      obtain ⟨e, he, rfl⟩ := Option.map_eq_some_iff.mp h
      exact sound_post hs he
  | wifiUp | apiStart =>
      cases h
      exact sound_connects hs _ ⟨rfl, rfl, rfl, rfl⟩ rfl rfl rfl hs.isolated
  | wifiDown | apiStop | apiReload | configSet =>
      cases h
      exact sound_invalidates hs hwrap rfl rfl rfl rfl rfl rfl rfl ⟨rfl, rfl⟩ hs.isolated
  | configUpdate enabled endpointSet =>
      cases h
      exact sound_posts hs [] ⟨rfl, rfl, rfl, rfl⟩ rfl rfl rfl (by simp) hs.isolated
  | configReload =>
      obtain ⟨-, ⟨⟩⟩ := Option.ite_none_right_eq_some.mp h
      exact sound_invalidates hs hwrap rfl rfl rfl rfl rfl rfl rfl ⟨rfl, rfl⟩ hs.isolated
  | commandDone i reply =>
      obtain ⟨w, hw, rfl⟩ := Option.map_eq_some_iff.mp h
      exact sound_commandDone hs hw reply

theorem sound_initial (networkUp enabled endpointSet : Bool) :
    Sound (initial networkUp enabled endpointSet) where
  isolated := by
    intro x hx
    exact absurd hx (by simp [initial])
  stamped := Stamped.nil
  named := by
    intro x hx
    exact absurd hx (by simp [initial, Sys.names, Sys.laterNames])
  attached := rfl
  point := fun p hp => absurd hp (by simp [initial])

/-- **Connections are isolated** in every run whose steps do not run into the defect: what an event
of a connection changes is that connection and no later one. -/
theorem connections_isolated {cfg : Cfg} {s : Sys}
    (h : (machine cfg).ReachableWhen Undisturbed s) : Isolated s := by
  have hsound : Sound s := by
    refine h.invariant ?_ fun s l s' hs hok hstep => sound_step hs hok hstep
    rintro s ⟨networkUp, enabled, endpointSet, rfl⟩
    exact sound_initial networkUp enabled endpointSet
  exact hsound.isolated

/-! ## A late timeout -/

/-- A configuration without tools, and a parser for nothing. -/
def plain : Cfg where
  eventQueueDepth := 8
  maxRxMessage := 1024
  maxTxMessage := 1024
  reloadCooldownMs := 500
  env := ⟨true, some, none, fun _ => none, fun _ _ _ _ => .sendNone⟩
  parse := fun _ => none
  printed := fun _ => 1

/-- A message in one chunk. -/
def textEvent (payload : Bytes) : DataEvent := ⟨.text, true, payload.length, 0, payload⟩

/-- The bridge is started and connects with the handle 1. -/
def connectFirst : List Label :=
  [.apiStart, .post 0, .take, .work true 0, .work true 1, .work true 0, .clientConnected, .take,
    .work true 0, .work true 0]

/-- The peer closes the connection and the bridge connects again, with the handle 2; the connect of
the reconnect timer is the latest post. -/
def reconnect : List Label :=
  [.clientDisconnected, .take, .work true 0, .work true 0, .work true 0, .work true 0,
    .work true 0, .work true 0, .expireReconnect, .post 0, .take, .work true 0, .work true 2,
    .work true 0, .clientConnected, .take, .work true 0, .work true 0]

/-- Two connections, one after the other. -/
theorem connections_isolated_two :
    ∃ s, (machine plain).ReachableWhen Undisturbed s ∧ s.history.effects.length = 3 ∧
      Isolated s := by
  have hrun : ∃ s, (machine plain).ReachableWhen Undisturbed s ∧
      decide (s.history.effects.length = 3) = true :=
    exists_runWhen plain Undisturbed (connectFirst ++ reconnect) (by decide)
  obtain ⟨s, hs, hlength⟩ := hrun
  exact ⟨s, hs, of_decide_eq_true hlength, connections_isolated hs⟩

/-- **A late timeout disturbs a later connection.** The handshake timer of the first connection
expires, and its event is queued when the second one shakes hands. -/
theorem connection_disturbed : ¬ ∀ cfg s, (machine cfg).Reachable s → Isolated s := by
  intro h
  have hrun : ∃ s, (machine plain).Reachable s ∧ decide ((0, 1) ∈ s.history.effects) = true :=
    exists_run plain (connectFirst ++ [.expireHandshake] ++ reconnect ++
      [.post 0, .take, .work true 0, .work true 0]) (by decide)
  obtain ⟨s, hs, hmem⟩ := hrun
  exact absurd (h plain s hs _ (of_decide_eq_true hmem)) (by simp)

end BleGateway.McpWs
