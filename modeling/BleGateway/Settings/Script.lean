import BleGateway.Settings.TxMoves

/-! # The script of a transaction

The commands of a transaction in order, each followed by its acknowledgement, and which of them an
acknowledgement leads to: the one that comes next in the script.
-/

namespace BleGateway.Settings

/-! ## Lists without repetitions -/

/-- Behind an element of a list without repetitions comes its neighbour. -/
theorem prefix_next {α : Type} {l x y t : List α} {a b : α} (hd : l.Nodup)
    (hl : l = x ++ a :: b :: y) (ht : t <+: l) (hlast : t.getLast? = some a) : t ++ [b] <+: l := by
  obtain ⟨front, rfl⟩ := List.getLast?_eq_some_iff.mp hlast
  obtain ⟨rest, hrest⟩ := ht
  rw [List.append_assoc, List.singleton_append] at hrest
  rw [hl] at hrest hd
  -- the element occurs only once
  have hx : front = x := by
    have hsplit := List.append_eq_append_iff.mp hrest
    have hnodup := List.nodup_append.mp hd
    rcases hsplit with ⟨more, rfl, hmore⟩ | ⟨more, rfl, hmore⟩
    · cases more with
      | nil => exact (List.append_nil _).symm
      | cons c more =>
          obtain ⟨rfl, -⟩ := List.cons.inj hmore
          exact absurd rfl (hnodup.2.2 a (List.mem_append_right _ List.mem_cons_self) a
            List.mem_cons_self)
    · cases more with
      | nil => exact List.append_nil _
      | cons c more =>
          obtain ⟨rfl, htail⟩ := List.cons.inj hmore
          refine absurd ?_ (List.nodup_cons.mp hnodup.2.1).1
          rw [htail]
          exact List.mem_append_right _ List.mem_cons_self
  subst hx
  rw [hl, List.append_assoc]
  refine (List.prefix_append_right_inj front).mpr ?_
  exact ⟨y, rfl⟩

variable {i : Nat}

theorem split_of_getElem? {α : Type} {l : List α} {a b : α} (ha : l[i]? = some a)
    (hb : l[i + 1]? = some b) : ∃ x y, l = x ++ a :: b :: y := by
  obtain ⟨hi, rfl⟩ := List.getElem?_eq_some_iff.mp ha
  obtain ⟨hi', rfl⟩ := List.getElem?_eq_some_iff.mp hb
  exact ⟨l.take i, l.drop (i + 2), by
    rw [← List.drop_eq_getElem_cons hi', ← List.drop_eq_getElem_cons hi, List.take_append_drop]⟩

/-! ## The script -/

/-- The commands of a transaction with `m` changes. -/
def commands (m : Nat) : List TxCommand :=
  .begin :: (List.range m).map .set ++ [.commit, .confirm]

/-- What happens to a command: it is submitted, and acknowledged with success. -/
inductive Mark
  | submitted (command : TxCommand)
  | acked (command : TxCommand)
  deriving DecidableEq

/-- All commands of a transaction with their acknowledgements. -/
def script (m : Nat) : List Mark := (commands m).flatMap fun c => [.submitted c, .acked c]

theorem commands_nodup (m : Nat) : (commands m).Nodup := by
  have hsets : ((List.range m).map TxCommand.set).Nodup :=
    List.nodup_range.map fun _ _ h => TxCommand.set.inj h
  rw [commands, List.cons_append, List.nodup_cons]
  refine ⟨by simp, List.nodup_append.mpr ⟨hsets, by decide, ?_⟩⟩
  intro c hc c' hc'
  obtain ⟨i, -, rfl⟩ := List.mem_map.mp hc
  rintro rfl
  simp at hc'

theorem script_nodup (m : Nat) : (script m).Nodup := by
  rw [script, List.nodup_flatMap]
  refine ⟨fun c _ => by simp, (commands_nodup m).imp fun {c c'} hne => ?_⟩
  intro mark hmark hmark'
  simp only [List.mem_cons, List.not_mem_nil, or_false] at hmark hmark'
  rcases hmark with rfl | rfl <;> rcases hmark' with h | h <;> cases h <;> exact hne rfl

theorem script_split {m : Nat} {x y : List TxCommand} {c : TxCommand}
    (h : commands m = x ++ c :: y) :
    script m = x.flatMap (fun c => [Mark.submitted c, .acked c]) ++ .submitted c :: .acked c ::
      y.flatMap fun c => [.submitted c, .acked c] := by
  rw [script, h, List.flatMap_append, List.flatMap_cons]
  rfl

variable {m : Nat} {t : List Mark} {c c' : TxCommand}

/-- A command that was submitted last is acknowledged next. -/
theorem prefix_ack (ht : t <+: script m) (hlast : t.getLast? = some (.submitted c)) :
    t ++ [.acked c] <+: script m := by
  have hmem : Mark.submitted c ∈ script m := ht.subset (List.mem_of_getLast? hlast)
  obtain ⟨c', hc', heq⟩ := List.mem_flatMap.mp hmem
  obtain rfl : c = c' := by simpa using heq
  obtain ⟨x, y, hsplit⟩ := List.append_of_mem hc'
  exact prefix_next (script_nodup m) (script_split hsplit) ht hlast

/-- Behind the acknowledgement of a command comes the next command. -/
theorem prefix_submit (hc : (commands m)[i]? = some c) (hc' : (commands m)[i + 1]? = some c')
    (ht : t <+: script m) (hlast : t.getLast? = some (.acked c)) :
    t ++ [.submitted c'] <+: script m := by
  obtain ⟨x, y, hsplit⟩ := split_of_getElem? hc hc'
  refine prefix_next (x := x.flatMap (fun c => [Mark.submitted c, .acked c]) ++ [.submitted c])
    (y := .acked c' :: y.flatMap fun c => [.submitted c, .acked c]) (script_nodup m) ?_ ht hlast
  rw [script_split hsplit, List.flatMap_cons]
  simp

theorem prefix_begin (m : Nat) : [Mark.submitted .begin] <+: script m := ⟨_, rfl⟩

/-- What was submitted last is not acknowledged yet. -/
theorem not_acked (ht : t <+: script m) (hlast : t.getLast? = some (.submitted c)) :
    .acked c ∉ t := by
  intro hmem
  have hnodup := (prefix_ack ht hlast).sublist.nodup (script_nodup m)
  exact (List.nodup_append.mp hnodup).2.2 _ hmem _ List.mem_cons_self rfl

theorem commands_zero (m : Nat) : (commands m)[0]? = some .begin := rfl

theorem commands_set (hi : i < m) : (commands m)[i + 1]? = some (.set i) := by
  rw [commands, List.cons_append, List.getElem?_cons_succ, List.getElem?_append_left (by simpa)]
  simp [hi]

theorem commands_commit (m : Nat) : (commands m)[m + 1]? = some .commit := by
  rw [commands, List.cons_append, List.getElem?_cons_succ, List.getElem?_append_right (by simp)]
  simp

theorem commands_confirm (m : Nat) : (commands m)[m + 2]? = some .confirm := by
  rw [commands, List.cons_append, List.getElem?_cons_succ, List.getElem?_append_right (by simp)]
  simp

/-! ## Where a transaction stands -/

namespace Transaction

/-- The command that was submitted last. -/
def current (tx : Transaction) : Option TxCommand :=
  match tx.state with
  | .beginSent => some .begin
  | .setSent => some (.set tx.nextChangeIndex)
  | .commitSent => some .commit
  | .confirmSent => some .confirm
  | _ => none

/-- The command that comes next. -/
def nextCommand (tx : Transaction) : TxCommand :=
  match tx.state with
  | .beginSent =>
      if tx.nextChangeIndex < tx.changes.length then .set tx.nextChangeIndex else .commit
  | .setSent =>
      if tx.nextChangeIndex + 1 < tx.changes.length then .set (tx.nextChangeIndex + 1) else .commit
  | .commitSent => .confirm
  | _ => .begin

/-- The index of the next change fits the state. -/
def Placed (tx : Transaction) : Prop :=
  match tx.state with
  | .prevalidating | .beginSent => tx.nextChangeIndex = 0
  | .setSent => tx.nextChangeIndex < tx.changes.length
  | _ => True

variable {tx tx' : Transaction}

/-- The next command follows the current one in the script. -/
theorem follows_current (hplaced : tx.Placed) (hgoes : tx.state.goesOn = true) :
    ∃ i c, tx.current = some c ∧ (commands tx.changes.length)[i]? = some c ∧
      (commands tx.changes.length)[i + 1]? = some tx.nextCommand := by
  have hset {i : Nat} (hi : ¬ i + 1 < tx.changes.length) (hlt : i < tx.changes.length) :
      i + 1 = tx.changes.length := by omega
  cases hstate : tx.state with
  | beginSent =>
      rw [Placed, hstate] at hplaced
      refine ⟨0, .begin, by rw [current, hstate], commands_zero _, ?_⟩
      rw [nextCommand, hstate]
      dsimp only at hplaced ⊢
      rw [hplaced]
      split
      · rename_i hlt
        exact commands_set hlt
      · rename_i hnone
        obtain hzero : tx.changes.length = 0 := by omega
        rw [hzero]
        exact commands_commit 0
  | setSent =>
      rw [Placed, hstate] at hplaced
      refine ⟨tx.nextChangeIndex + 1, .set tx.nextChangeIndex, by rw [current, hstate],
        commands_set hplaced, ?_⟩
      rw [nextCommand, hstate]
      dsimp only
      split
      · rename_i hlt
        exact commands_set hlt
      · rename_i hnone
        rw [hset hnone hplaced]
        exact commands_commit _
  | commitSent =>
      refine ⟨tx.changes.length + 1, .commit, by rw [current, hstate], commands_commit _, ?_⟩
      rw [nextCommand, hstate]
      exact commands_confirm _
  | _ =>
      rw [hstate] at hgoes
      cases hgoes

/-- A transaction that stays has the same current command, or none. -/
theorem Stays.current (h : tx.Stays tx') : tx'.current = tx.current ∨
    (tx'.current = none ∧ tx'.state ≠ .prevalidating) := by
  rcases h with hsame | hover
  · rw [Transaction.current, Transaction.current, hsame.1, hsame.2]
    exact Or.inl rfl
  · refine Or.inr ?_
    rw [Transaction.current]
    cases hstate : tx'.state <;> rw [hstate] at hover <;>
      first | exact absurd hover (by decide) | exact ⟨rfl, by simp⟩

theorem Stays.placed (h : tx.Stays tx') (hsame : tx.Same tx') (hplaced : tx.Placed) :
    tx'.Placed := by
  rcases h with hstays | hover
  · rw [Placed] at hplaced ⊢
    rw [hstays.1, hstays.2, hsame.changes]
    exact hplaced
  · rw [Placed]
    cases hstate : tx'.state <;> rw [hstate] at hover <;>
      first | exact absurd hover (by decide) | trivial

end Transaction

/-! ## A transaction goes on -/

/-- A submitted command. -/
def TxAction.sent? : TxAction → Option (Tx × TxCommand × Bool)
  | .submit k command accepted => some (k, command, accepted)
  | _ => none

/-- The commands that are submitted. -/
def sent (actions : List TxAction) : List (Tx × TxCommand × Bool) :=
  actions.filterMap TxAction.sent?

theorem sent_append (actions more : List TxAction) :
    sent (actions ++ more) = sent actions ++ sent more := List.filterMap_append ..

theorem sent_effects (effects : List TxEffect) : sent (effects.map .effect) = [] := by
  refine List.filterMap_eq_nil_iff.mpr fun a ha => ?_
  obtain ⟨e, -, rfl⟩ := List.mem_map.mp ha
  rfl

namespace Transactions

variable {s : Transactions} {k : Tx} {r : TxStep}

/-- Where it is nobody's turn nothing is submitted. -/
theorem Moves.sent_nil (h : Moves (fun _ => False) s r) : sent r.2 = [] := by
  refine List.filterMap_eq_nil_iff.mpr fun a ha => ?_
  cases a with
  | submit k command accepted => exact (h.turns_of_submit ha).elim
  | _ => rfl

/-- The transaction has ended, or its next command has been submitted. -/
def Forward (k : Tx) (command : TxCommand) (r : TxStep) : Prop :=
  (sent r.2 = [] ∧ (r.1.tx k).active = false) ∨
    ∃ accepted, sent r.2 = [(k, command, accepted)] ∧ ((r.1.tx k).active = true →
      (r.1.tx k).current = some command ∧ (r.1.tx k).Placed)

theorem conclude_slot (s : Transactions) (k : Tx) (state : TxState) (result : TxResult) :
    ((s.conclude k state result).1.tx k).active = false :=
  complete_slot (s.transition k state).1 k result 0

variable {state : TxState} {command : TxCommand}

theorem conclude_sent (s : Transactions) (k : Tx) (hstate : state.working = false)
    (result : TxResult) : sent (s.conclude k state result).2 = [] :=
  (conclude_moves k hstate result).sent_nil

theorem conclude_forward (s : Transactions) (k : Tx) (command : TxCommand)
    (hstate : state.working = false) (result : TxResult) :
    Forward k command (s.conclude k state result) :=
  Or.inl ⟨conclude_sent s k hstate result, conclude_slot s k state result⟩

theorem transition_tx (s : Transactions) (k : Tx) (state : TxState) :
    (s.transition k state).1.tx k = { s.tx k with state } := by
  show (s.setTx k ((s.tx k).transitionTx state).1).tx k = { s.tx k with state }
  rw [setTx_self, transitionTx_fst]

theorem transition_sent (s : Transactions) (k : Tx) (state : TxState) :
    sent (s.transition k state).2 = [] := sent_effects _

/-- What was done before does not matter when nothing was submitted. -/
theorem Forward.after {f : Transactions → TxStep} (hnone : sent r.2 = [])
    (h : Forward k command (f r.1)) : Forward k command (r.next f) := by
  have hsent : sent (r.next f).2 = sent (f r.1).2 := by
    show sent (r.2 ++ (f r.1).2) = _
    rw [sent_append, hnone, List.nil_append]
  rcases h with hended | ⟨accepted, hone, hafter⟩
  · exact Or.inl ⟨hsent.trans hended.1, hended.2⟩
  · exact Or.inr ⟨accepted, hsent.trans hone, hafter⟩

/-- A submission at the end of a step, and what follows when it is refused. -/
theorem submit_forward {f : Transactions → TxStep} (submitted : Bool)
    (hcurrent : (s.tx k).current = some command) (hplaced : (s.tx k).Placed)
    (hended : ((f s).1.tx k).active = false) (hsent : sent (f s).2 = []) :
    Forward k command (TxStep.next (s, [.submit k command submitted]) fun s =>
      if submitted then (s, []) else f s) := by
  cases submitted with
  | true => exact Or.inr ⟨true, rfl, fun _ => ⟨hcurrent, hplaced⟩⟩
  | false =>
      refine Or.inr ⟨false, ?_, fun hactive => ?_⟩
      · show sent ([.submit k command false] ++ (f s).2) = _
        rw [sent_append, hsent]
        rfl
      · rw [show (TxStep.next (s, [.submit k command false]) fun s =>
          if false then (s, []) else f s).1 = (f s).1 from rfl, hended] at hactive
        cases hactive

theorem send_forward (submitted : Bool) (hcurrent : { s.tx k with state }.current = some command)
    (hplaced : { s.tx k with state }.Placed) :
    Forward k command (s.send k state command submitted) := by
  have htx := transition_tx s k state
  refine Forward.after (transition_sent s k state)
    (submit_forward (f := fun s => s.conclude k .failed .internal) submitted ?_ ?_ ?_ ?_)
  · rw [htx]
    exact hcurrent
  · rw [htx]
    exact hplaced
  · exact conclude_slot _ k .failed .internal
  · exact conclude_sent _ k rfl .internal

theorem submitNext_forward (hactive : (s.tx k).active = true) (submitted : Bool)
    (hset : (s.tx k).nextChangeIndex < (s.tx k).changes.length →
      command = .set (s.tx k).nextChangeIndex)
    (hcommit : ¬ (s.tx k).nextChangeIndex < (s.tx k).changes.length → command = .commit) :
    Forward k command (s.submitNext k submitted) := by
  rw [submitNext, hactive]
  simp only [Bool.not_true, Bool.false_eq_true, if_false]
  split
  · exact conclude_forward s k command rfl .internal
  · split
    · rename_i hlt
      rw [hset hlt]
      exact send_forward submitted rfl hlt
    · rename_i hnone
      rw [hcommit hnone]
      exact send_forward submitted rfl trivial

/-- **An acknowledgement** leads to the next command. -/
theorem acknowledged_forward (hactive : (s.tx k).active = true)
    (hgoes : (s.tx k).state.goesOn = true) (result : DeviceCommandResult) (submitted armed : Bool) :
    Forward k (s.tx k).nextCommand (s.acknowledged k result submitted armed) := by
  rw [acknowledged]
  cases hstate : (s.tx k).state with
  | beginSent =>
      refine submitNext_forward hactive submitted (fun hlt => ?_) fun hnone => ?_
      · rw [Transaction.nextCommand, hstate]
        exact if_pos hlt
      · rw [Transaction.nextCommand, hstate]
        exact if_neg hnone
  | setSent =>
      refine Forward.after (sent_effects _) (submitNext_forward ?_ submitted ?_ ?_)
      · rw [setTx_self]
        exact hactive
      · rw [setTx_self, Transaction.nextCommand, hstate]
        exact fun hlt => if_pos hlt
      · rw [setTx_self, Transaction.nextCommand, hstate]
        exact fun hnone => if_neg hnone
  | commitSent =>
      have hnext : (s.tx k).nextCommand = .confirm := by rw [Transaction.nextCommand, hstate]
      rw [hnext]
      refine send_forward submitted ?_ trivial
      rfl
  | _ =>
      rw [hstate] at hgoes
      cases hgoes

/-- **A lease** leads to the first command. -/
theorem actorBegin_forward {id : DeviceId} (hfind : s.table.find id = some k)
    (hindex : (s.tx k).nextChangeIndex = 0) (owner lease : UInt32) (submitted : Bool) :
    Forward k .begin (s.actorBegin id owner lease submitted) := by
  rw [actorBegin, hfind]
  -- the slot as it is when the command is submitted
  have htx (tx : Transaction) : ((s.setTx k tx).transition k .beginSent).1.tx k =
      { tx with state := .beginSent } := by
    rw [transition_tx, setTx_self]
  refine Forward.after rfl (Forward.after (transition_sent _ k .beginSent)
    (submit_forward (f := fun s => s.complete k .internal 0) submitted ?_ ?_ ?_ ?_))
  · dsimp only
    rw [htx]
    rfl
  · dsimp only
    rw [htx]
    exact hindex
  · exact complete_slot _ k .internal 0
  · exact (complete_moves k .internal 0).sent_nil

end Transactions

end BleGateway.Settings
