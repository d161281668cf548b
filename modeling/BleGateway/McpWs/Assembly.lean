import BleGateway.Types

/-! # Reassembling WebSocket messages

The part of `mcp_ws_websocket_event_handler` that puts text messages together. The client
library reports each frame in one or more chunks; a chunk carries the opcode, the FIN bit and
the length of its frame and its own offset in the frame.

Between two chunks the assembler is described by what has been received of the message: the
frames before, `p`, and the first `k` bytes of the frame `q` that is on its way (`Holds`). One
chunk takes such a state to the next one or completes the message (`store_spec`); chunks of a
frame, frames of a message and messages follow by induction.
-/

namespace BleGateway.McpWs

abbrev Bytes := List UInt8

/-! ## Data events -/

/-- The `WS_TRANSPORT_OPCODES_*` values of a frame. -/
inductive OpCode
  | cont | text | binary | close | ping | pong
  deriving DecidableEq

def OpCode.isControl : OpCode → Bool
  | close | ping | pong => true
  | _ => false

/-- What the handler reads of `esp_websocket_event_data_t` for `WEBSOCKET_EVENT_DATA`. -/
structure DataEvent where
  opCode : OpCode
  fin : Bool
  payloadLen : Nat
  payloadOffset : Nat
  data : Bytes
  deriving DecidableEq

/-- `rx_buffer` up to `rx_length`, `rx_active` and `rx_discard`. -/
structure Rx where
  buffer : Bytes := []
  active : Bool := false
  discard : Bool := false
  deriving DecidableEq

/-- The part of the handler that stores a chunk of a message; a complete message is the second
component. Its copy is allocated and queued. -/
def store (max : Nat) (rx : Rx) (e : DataEvent) : Rx × Option Bytes :=
  let checked :=
    if e.payloadOffset = 0 ∧ 0 < e.payloadLen ∧ max < rx.buffer.length + e.payloadLen then
      { rx with discard := true }
    else rx
  let stored :=
    if checked.discard = false ∧ 0 < e.data.length then
      if max < checked.buffer.length + e.data.length then { checked with discard := true }
      else { checked with buffer := checked.buffer ++ e.data }
    else checked
  if e.payloadLen ≤ e.payloadOffset + e.data.length ∧ e.fin then
    ({}, if stored.discard then none else some stored.buffer)
  else (stored, none)

/-- A data event. A text frame starts a message, a binary frame ends whatever was there, and other
chunks count only inside a message. -/
def assemble (max : Nat) (rx : Rx) (e : DataEvent) : Rx × Option Bytes :=
  if e.opCode.isControl then (rx, none)
  else if e.opCode = .text ∧ e.payloadOffset = 0 then
    store max (if rx.active then { active := true } else { rx with active := true }) e
  else if e.opCode = .binary then ({}, none)
  else if rx.active then store max rx e
  else (rx, none)

/-- The messages that a list of data events completes. -/
def feed (max : Nat) : Rx → List DataEvent → Rx × List Bytes
  | rx, [] => (rx, [])
  | rx, e :: es =>
      let step := assemble max rx e
      let rest := feed max step.1 es
      (rest.1, step.2.toList ++ rest.2)

theorem feed_append (max : Nat) (rx : Rx) (es es' : List DataEvent) :
    feed max rx (es ++ es') =
      let first := feed max rx es
      let second := feed max first.1 es'
      (second.1, first.2 ++ second.2) := by
  induction es generalizing rx with
  | nil => simp [feed]
  | cons e es ih => simp [feed, ih]

/-- Control frames are passed over. -/
theorem feed_filter (max : Nat) (rx : Rx) (es : List DataEvent) :
    feed max rx es = feed max rx (es.filter fun e => !e.opCode.isControl) := by
  induction es generalizing rx with
  | nil => rfl
  | cons e es ih =>
      cases hc : e.opCode.isControl with
      | true => simp [feed, assemble, hc, ih rx]
      | false => simp [feed, hc, ih]

/-! ## Frames and messages -/

/-- A data frame. -/
structure WsFrame where
  opCode : OpCode
  fin : Bool
  payload : Bytes
  deriving DecidableEq

/-- A message as the peer sent it: the payloads of its first frame and of the continuation
frames. -/
structure Message where
  binary : Bool
  first : Bytes
  rest : List Bytes
  deriving DecidableEq

def Message.payload (m : Message) : Bytes := m.first ++ m.rest.flatten

def Message.opCode (m : Message) : OpCode := if m.binary then .binary else .text

/-- Continuation frames; `fin` says whether the last one ends the message. -/
def continuations (fin : Bool) : List Bytes → List WsFrame
  | [] => []
  | p :: ps => ⟨.cont, fin && ps.isEmpty, p⟩ :: continuations fin ps

/-- The frames of a message. With `fin := false` they are those of a message that goes on. -/
def Message.framesWith (m : Message) (fin : Bool) : List WsFrame :=
  ⟨m.opCode, fin && m.rest.isEmpty, m.first⟩ :: continuations fin m.rest

def Message.frames (m : Message) : List WsFrame := m.framesWith true

/-- The data events of the chunks of a frame from `offset` on. -/
def chunkEvents (f : WsFrame) : Nat → List Bytes → List DataEvent
  | _, [] => []
  | offset, c :: cs =>
      ⟨f.opCode, f.fin, f.payload.length, offset, c⟩ :: chunkEvents f (offset + c.length) cs

/-- The chunks `cs` are the payload from `offset` on, and the frame is complete with the last of
them and not before. -/
inductive Chunks (payload : Bytes) : Nat → List Bytes → Prop
  | last {offset : Nat} {c : Bytes} (h : payload.drop offset = c) (hle : offset ≤ payload.length) :
      Chunks payload offset [c]
  | more {offset : Nat} {c : Bytes} {cs : List Bytes} (h : c <+: payload.drop offset)
      (hlt : offset + c.length < payload.length) (hcs : Chunks payload (offset + c.length) cs) :
      Chunks payload offset (c :: cs)

/-- The data events of frames, each in some chunking. -/
inductive Chunked : List WsFrame → List DataEvent → Prop
  | nil : Chunked [] []
  | cons {f : WsFrame} {frames : List WsFrame} {cs : List Bytes} {es : List DataEvent}
      (hcs : Chunks f.payload 0 cs) (h : Chunked frames es) :
      Chunked (f :: frames) (chunkEvents f 0 cs ++ es)

/-- The data events carry the frames in some chunking, with control frames in between. -/
def Carries (frames : List WsFrame) (es : List DataEvent) : Prop :=
  Chunked frames (es.filter fun e => !e.opCode.isControl)

variable {es : List DataEvent} {rx : Rx} {p : Bytes} {max : Nat}

theorem Chunked.split {a b : List WsFrame} (h : Chunked (a ++ b) es) :
    ∃ es₁ es₂, es = es₁ ++ es₂ ∧ Chunked a es₁ ∧ Chunked b es₂ := by
  induction a generalizing es with
  | nil => exact ⟨[], es, rfl, .nil, h⟩
  | cons f a ih =>
      rw [List.cons_append] at h
      cases h with
      | cons hcs h =>
          obtain ⟨es₁, es₂, rfl, ha, hb⟩ := ih h
          exact ⟨_, es₂, (List.append_assoc ..).symm, .cons hcs ha, hb⟩

/-! ## One chunk -/

/-- The state of the assembler inside a message: `p` is what the earlier frames brought and `q` is
the current frame, of which `k` bytes have been stored. -/
structure Holds (max : Nat) (p q : Bytes) (k : Nat) (rx : Rx) : Prop where
  active : rx.active = true
  buffer : rx.discard = false → rx.buffer = p ++ q.take k
  exceeds : rx.discard = true → max < (p ++ q).length
  fits : rx.discard = false → p.length ≤ max ∧ (k ≠ 0 → (p ++ q).length ≤ max)

/-- What a chunk may leave: the message is complete and the assembler is clean, or more is to
come. -/
def Next (max : Nat) (p q : Bytes) (k : Nat) (fin : Bool) (r : Rx × Option Bytes) : Prop :=
  if q.length ≤ k then
    if fin then r = ({}, if (p ++ q).length ≤ max then some (p ++ q) else none)
    else r.2 = none ∧ ∀ q', Holds max (p ++ q) q' 0 r.1
  else r.2 = none ∧ Holds max p q k r.1

variable {k : Nat} {f : WsFrame} {fin : Bool}

/-- **Storing one chunk.** -/
theorem store_spec {q c : Bytes} (h : Holds max p q k rx) (hc : c <+: q.drop k) (hk : k ≤ q.length)
    (opCode : OpCode) (fin : Bool) :
    Next max p q (k + c.length) fin (store max rx ⟨opCode, fin, q.length, k, c⟩) := by
  have hlen : k + c.length ≤ q.length := by
    have := hc.length_le
    rw [List.length_drop] at this
    omega
  have htake : q.take (k + c.length) = q.take k ++ c := by
    rw [List.take_add, List.prefix_iff_eq_take.mp hc, List.length_take, List.length_drop]
    congr 2
    omega
  -- the check at the start of the frame decides, for the whole frame, whether it is stored
  obtain ⟨checked, hchecked, hactive, hbuffer, hover, hfits⟩ : ∃ checked : Rx,
      checked = (if k = 0 ∧ 0 < q.length ∧ max < rx.buffer.length + q.length then
        { rx with discard := true } else rx) ∧
      checked.active = true ∧
      (checked.discard = false → checked.buffer = p ++ q.take k) ∧
      (checked.discard = true → max < (p ++ q).length) ∧
      (checked.discard = false → (p ++ q).length ≤ max) := by
    refine ⟨_, rfl, ?_⟩
    have happend : (p ++ q).length = p.length + q.length := List.length_append
    cases hd : rx.discard with
    | true =>
        have := h.exceeds hd
        split
        · exact ⟨h.active, fun he => absurd he (by simp), fun _ => this,
            fun he => absurd he (by simp)⟩
        · exact ⟨h.active, fun he => absurd (hd.symm.trans he) (by simp), fun _ => this,
            fun he => absurd (hd.symm.trans he) (by simp)⟩
    | false =>
        obtain ⟨hp, hpq⟩ := h.fits hd
        have hbuf := h.buffer hd
        split
        · rename_i hcheck
          obtain ⟨rfl, _, hmax⟩ := hcheck
          rw [hbuf, List.take_zero, List.append_nil] at hmax
          exact ⟨h.active, fun he => absurd he (by simp), fun _ => by omega,
            fun he => absurd he (by simp)⟩
        · rename_i hcheck
          refine ⟨h.active, fun _ => hbuf, fun he => absurd (hd.symm.trans he) (by simp),
            fun _ => ?_⟩
          by_cases hk0 : k = 0
          · subst hk0
            rw [hbuf, List.take_zero, List.append_nil] at hcheck
            by_cases hq : 0 < q.length
            · have : ¬ max < p.length + q.length := fun hlt => hcheck ⟨rfl, hq, hlt⟩
              omega
            · omega
          · exact hpq hk0
  -- so the second check never fires
  obtain ⟨stored, hstored, hactive', hbuffer', hover', hfits'⟩ : ∃ stored : Rx,
      stored = (if checked.discard = false ∧ 0 < c.length then
          if max < checked.buffer.length + c.length then { checked with discard := true }
          else { checked with buffer := checked.buffer ++ c }
        else checked) ∧
      stored.active = true ∧
      (stored.discard = false → stored.buffer = p ++ q.take (k + c.length)) ∧
      (stored.discard = true → max < (p ++ q).length) ∧
      (stored.discard = false → (p ++ q).length ≤ max) := by
    refine ⟨_, rfl, ?_⟩
    split
    · rename_i hnew
      have hroom : ¬ max < checked.buffer.length + c.length := by
        have := hfits hnew.1
        rw [hbuffer hnew.1, List.length_append, List.length_take]
        rw [List.length_append] at this
        omega
      rw [if_neg hroom]
      refine ⟨hactive, fun _ => ?_, hover, hfits⟩
      rw [hbuffer hnew.1, htake, List.append_assoc]
    · rename_i hnone
      refine ⟨hactive, fun hd => ?_, hover, hfits⟩
      have hempty : c = [] := by
        rw [← List.length_eq_zero_iff]
        by_contra hne
        exact hnone ⟨hd, Nat.pos_of_ne_zero hne⟩
      rw [hbuffer hd, hempty, List.length_nil, Nat.add_zero]
  have hstore : store max rx ⟨opCode, fin, q.length, k, c⟩ =
      if q.length ≤ k + c.length ∧ fin = true then
        ({}, if stored.discard then none else some stored.buffer)
      else (stored, none) := by
    rw [hstored, hchecked]
    rfl
  rw [hstore, Next]
  by_cases hdone : q.length ≤ k + c.length
  · have hall : q.take (k + c.length) = q := List.take_of_length_le hdone
    rw [if_pos hdone]
    cases fin with
    | true =>
        have hlast : q.length ≤ k + c.length ∧ true = true := ⟨hdone, rfl⟩
        rw [if_pos hlast, if_pos rfl]
        cases hd : stored.discard with
        | true =>
            have := hover' hd
            rw [if_pos rfl, if_neg (by omega)]
        | false =>
            rw [if_neg (by simp), if_pos (hfits' hd), hbuffer' hd, hall]
    | false =>
        rw [if_neg (by simp), if_neg (by simp)]
        refine ⟨rfl, fun q' => ⟨hactive', fun hd => ?_, fun hd => ?_, fun hd => ?_⟩⟩
        · rw [hbuffer' hd, hall, List.take_zero, List.append_nil]
        · have := hover' hd
          rw [List.length_append]
          omega
        · exact ⟨hfits' hd, fun h0 => absurd rfl h0⟩
  · rw [if_neg hdone, if_neg fun hboth => hdone hboth.1]
    refine ⟨rfl, hactive', hbuffer', hover', fun hd => ?_⟩
    have := hfits' hd
    rw [List.length_append] at this
    exact ⟨by omega, fun _ => hfits' hd⟩

/-! ## Frames -/

/-- One chunk of a continuation frame, or of a text frame, which has no frames before it. -/
theorem assemble_chunk {c : Bytes} (hop : f.opCode = .text ∧ p = [] ∨ f.opCode = .cont)
    (h : Holds max p f.payload k rx) (hc : c <+: f.payload.drop k) (hk : k ≤ f.payload.length) :
    Next max p f.payload (k + c.length) f.fin
      (assemble max rx ⟨f.opCode, f.fin, f.payload.length, k, c⟩) := by
  rcases hop with ⟨htext, rfl⟩ | hcont
  · rw [assemble, if_neg (by simp [htext, OpCode.isControl])]
    by_cases hk0 : k = 0
    · -- a text frame whose first chunk was empty starts once more
      subst hk0
      have hfresh : Holds max [] f.payload 0 { active := true } :=
        ⟨rfl, fun _ => by simp, fun hd => absurd hd (by simp), fun _ => by simp⟩
      rw [if_pos ⟨htext, rfl⟩, h.active, if_pos rfl]
      exact store_spec hfresh hc hk f.opCode f.fin
    · rw [if_neg fun hb => hk0 hb.2, if_neg (by simp [htext]), h.active, if_pos rfl]
      exact store_spec h hc hk f.opCode f.fin
  · rw [assemble, if_neg (by simp [hcont, OpCode.isControl]), if_neg (by simp [hcont]),
      if_neg (by simp [hcont]), h.active, if_pos rfl]
    exact store_spec h hc hk f.opCode f.fin

theorem feed_chunks (hop : f.opCode = .text ∧ p = [] ∨ f.opCode = .cont) {cs : List Bytes}
    (hcs : Chunks f.payload k cs) (h : Holds max p f.payload k rx) :
    ∃ rx' out, feed max rx (chunkEvents f k cs) = (rx', out.toList) ∧
      Next max p f.payload f.payload.length f.fin (rx', out) := by
  induction hcs generalizing rx with
  | @last k c hc hle =>
      have hprefix : c <+: f.payload.drop k := ⟨[], by rw [hc, List.append_nil]⟩
      have hnext := assemble_chunk hop h hprefix hle
      have hend : k + c.length = f.payload.length := by
        rw [← hc, List.length_drop]
        omega
      rw [hend] at hnext
      refine ⟨(assemble max rx ⟨f.opCode, f.fin, f.payload.length, k, c⟩).1,
        (assemble max rx ⟨f.opCode, f.fin, f.payload.length, k, c⟩).2, ?_, hnext⟩
      simp [chunkEvents, feed]
  | @more k c cs hc hlt hcs ih =>
      have hnext := assemble_chunk hop h hc (by omega)
      rw [Next, if_neg (by omega)] at hnext
      obtain ⟨hnone, hholds⟩ := hnext
      obtain ⟨rx', out, hfeed, hdone⟩ := ih hholds
      refine ⟨rx', out, ?_, hdone⟩
      simp only [chunkEvents, feed, hnone, hfeed, Option.toList_none, List.nil_append]

/-- The first chunk of a text frame makes a clean assembler ready for it. -/
theorem feed_first (max : Nat) (hop : f.opCode = .text) {cs : List Bytes}
    (hcs : Chunks f.payload 0 cs) :
    ∃ rx' out, feed max {} (chunkEvents f 0 cs) = (rx', out.toList) ∧
      Next max [] f.payload f.payload.length f.fin (rx', out) := by
  have hready : ∀ c, assemble max {} ⟨f.opCode, f.fin, f.payload.length, 0, c⟩ =
      assemble max { active := true } ⟨f.opCode, f.fin, f.payload.length, 0, c⟩ := by
    intro c
    simp [assemble, hop, OpCode.isControl]
  have hsame : feed max {} (chunkEvents f 0 cs) =
      feed max { active := true } (chunkEvents f 0 cs) := by
    cases hcs <;> simp only [chunkEvents, feed, hready]
  rw [hsame]
  exact feed_chunks (.inl ⟨hop, rfl⟩) hcs
    ⟨rfl, fun _ => by simp, fun hd => absurd hd (by simp), fun _ => by simp⟩

/-- What a text message leaves: it is handed over if it is complete and not too long, and the
assembler is clean again. -/
def Brought (max : Nat) (fin : Bool) (payload : Bytes) (result : Rx × List Bytes) : Prop :=
  result.2 = (if fin ∧ payload.length ≤ max then [payload] else []) ∧
    (fin = true → result.1 = {})

/-- A frame that is not the last one leaves the message to the frames behind it. -/
theorem Brought.of_first {q : Bytes} {ps : List Bytes} {rx' : Rx} {out : Option Bytes}
    {es' : List DataEvent}
    (hfeed : feed max rx es = (rx', out.toList))
    (hnext : Next max p q q.length (fin && ps.isEmpty) (rx', out))
    (hes : Chunked (continuations fin ps) es')
    (hmore : ps ≠ [] → (∀ r, Holds max (p ++ q) r 0 rx') →
      Brought max fin (p ++ q ++ ps.flatten) (feed max rx' es')) :
    Brought max fin (p ++ (q :: ps).flatten) (feed max rx (es ++ es')) := by
  rw [Next, if_pos (Nat.le_refl _)] at hnext
  rw [feed_append, hfeed, List.flatten_cons, ← List.append_assoc]
  cases ps with
  | nil =>
      cases hes
      rw [List.flatten_nil, List.append_nil]
      cases fin with
      | true =>
          simp only [List.isEmpty_nil, Bool.and_true, if_true, Prod.mk.injEq] at hnext
          obtain ⟨rfl, rfl⟩ := hnext
          refine ⟨?_, fun _ => rfl⟩
          simp only [feed, List.append_nil, true_and]
          split <;> rfl
      | false =>
          simp only [Bool.false_and, Bool.false_eq_true, if_false] at hnext
          exact ⟨by simp [feed, hnext.1], fun hf => absurd hf (by simp)⟩
  | cons q' ps =>
      simp only [List.isEmpty_cons, Bool.and_false, Bool.false_eq_true, if_false] at hnext
      obtain ⟨hnone, hholds⟩ := hnext
      obtain ⟨hout, hclean⟩ := hmore (by simp) hholds
      exact ⟨by simp only [hout, hnone, Option.toList_none, List.nil_append], hclean⟩

/-- The continuation frames of a text message whose earlier frames brought `p`. -/
theorem feed_continuations {ps : List Bytes} (hne : ps ≠ [])
    (hes : Chunked (continuations fin ps) es) (h : ∀ q, Holds max p q 0 rx) :
    Brought max fin (p ++ ps.flatten) (feed max rx es) := by
  induction ps generalizing p rx es with
  | nil => exact absurd rfl hne
  | cons q ps ih =>
      rw [continuations] at hes
      cases hes with
      | cons hfirst hrest =>
          obtain ⟨rx', out, hfeed, hnext⟩ := feed_chunks (.inr rfl) hfirst (h q)
          exact .of_first hfeed hnext hrest fun hne hholds => ih hne hrest hholds

/-! ## Messages -/

/-- The frames of a text message. -/
theorem feed_text (max : Nat) {m : Message} (htext : m.binary = false)
    (hes : Chunked (m.framesWith fin) es) :
    Brought max fin m.payload (feed max {} es) := by
  have hop : m.opCode = .text := by rw [Message.opCode, htext]; rfl
  rw [Message.framesWith] at hes
  cases hes with
  | cons hfirst hrest =>
      obtain ⟨rx', out, hfeed, hnext⟩ := feed_first max hop hfirst
      exact .of_first hfeed hnext hrest fun hne hholds => feed_continuations hne hrest hholds

/-- A clean assembler passes over binary and continuation frames. -/
theorem feed_ignored (h : ∀ e ∈ es, e.opCode = .binary ∨ e.opCode = .cont) :
    feed max {} es = ({}, []) := by
  induction es with
  | nil => rfl
  | cons e es ih =>
      have hskip : assemble max {} e = ({}, none) := by
        rcases h e List.mem_cons_self with hop | hop <;> simp [assemble, hop, OpCode.isControl]
      simp only [feed, hskip, ih fun e' he' => h e' (List.mem_cons_of_mem _ he')]
      rfl

theorem chunkEvents_opCode (f : WsFrame) (offset : Nat) (cs : List Bytes) :
    ∀ e ∈ chunkEvents f offset cs, e.opCode = f.opCode := by
  induction cs generalizing offset with
  | nil => intro e he; exact absurd he (by simp [chunkEvents])
  | cons c cs ih =>
      intro e he
      rcases List.mem_cons.mp he with rfl | he
      · rfl
      · exact ih _ e he

theorem Chunked.opCode {frames : List WsFrame} (h : Chunked frames es) :
    ∀ e ∈ es, ∃ f ∈ frames, e.opCode = f.opCode := by
  induction h with
  | nil => intro e he; exact absurd he (by simp)
  | cons hcs _ ih =>
      intro e he
      rcases List.mem_append.mp he with he | he
      · exact ⟨_, List.mem_cons_self, chunkEvents_opCode _ _ _ e he⟩
      · obtain ⟨f, hf, hop⟩ := ih e he
        exact ⟨f, List.mem_cons_of_mem _ hf, hop⟩

theorem continuations_opCode (fin : Bool) (ps : List Bytes) :
    ∀ f ∈ continuations fin ps, f.opCode = .cont := by
  induction ps with
  | nil => intro f hf; exact absurd hf (by simp [continuations])
  | cons p ps ih =>
      intro f hf
      rcases List.mem_cons.mp hf with rfl | hf
      · rfl
      · exact ih f hf

theorem feed_binary {m : Message} (hbinary : m.binary = true)
    (hes : Chunked (m.framesWith fin) es) :
    feed max {} es = ({}, []) := by
  refine feed_ignored fun e he => ?_
  obtain ⟨f, hf, hop⟩ := hes.opCode e he
  rw [hop]
  rcases List.mem_cons.mp hf with rfl | hf
  · exact .inl (by simp [Message.opCode, hbinary])
  · exact .inr (continuations_opCode fin m.rest f hf)

/-- What is handed over of a list of messages: the text messages of at most `max` bytes. -/
def accepted (max : Nat) (messages : List Message) : List Bytes :=
  (messages.filter fun m => !m.binary && decide (m.payload.length ≤ max)).map Message.payload

theorem feed_messages {messages : List Message}
    (hes : Chunked (messages.flatMap Message.frames) es) :
    feed max {} es = ({}, accepted max messages) := by
  induction messages generalizing es with
  | nil =>
      cases hes
      rfl
  | cons m messages ih =>
      rw [List.flatMap_cons] at hes
      obtain ⟨es₁, es₂, rfl, hm, hrest⟩ := hes.split
      rw [feed_append]
      cases hb : m.binary with
      | true =>
          simp only [feed_binary hb hm, ih hrest, List.nil_append]
          simp [accepted, hb]
      | false =>
          obtain ⟨hout, hclean⟩ := feed_text max hb hm
          simp only [hout, hclean rfl, ih hrest, true_and]
          by_cases hle : m.payload.length ≤ max <;> simp [accepted, hb, hle]

end BleGateway.McpWs
