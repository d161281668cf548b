import BleGateway.WifiProv.DnsPacket

/-! # Replies are messages

What the name server sends is a message of the Domain Name System: its counts are the numbers of
the questions and answers in it. This holds of every packet but the ones whose header alone is
answered although it counts questions: the counts of answers and records are cleared, the one of the
questions is not.
-/

namespace BleGateway.WifiProv.DnsPacket

open Dns (be16 fromBe16 Label Name Question Record Message encodeName)

/-! ## Bits of a byte -/

theorem forall_byte {P : UInt8 → Prop} (h : ∀ n : Fin 256, P (UInt8.ofNat n)) (b : UInt8) :
    P b := by
  have hb := h ⟨b.toNat, b.toNat_lt⟩
  rwa [UInt8.ofNat_toNat] at hb

theorem and_qr (b : UInt8) : b &&& 0x80 = 0 ↔ b.toNat < 128 :=
  forall_byte (P := fun b => b &&& 0x80 = 0 ↔ b.toNat < 128) (by decide +kernel) b

theorem and_opcode (b : UInt8) : b &&& 0x78 = 0 ↔ b.toNat / 8 % 16 = 0 :=
  forall_byte (P := fun b => b &&& 0x78 = 0 ↔ b.toNat / 8 % 16 = 0) (by decide +kernel) b

theorem long_label (b : UInt8) : (b &&& 0xC0 ≠ 0 ∨ b > 63) ↔ b.toNat > 63 :=
  forall_byte (P := fun b => (b &&& 0xC0 ≠ 0 ∨ b > 63) ↔ b.toNat > 63) (by decide +kernel) b

theorem or_rd (b : UInt8) : 0x80 ||| (b &&& 0x01) = UInt8.ofNat (128 + b.toNat % 2) :=
  forall_byte (P := fun b => 0x80 ||| (b &&& 0x01) = UInt8.ofNat (128 + b.toNat % 2))
    (by decide +kernel) b

theorem readU16Be_eq (packet : List UInt8) (offset : Nat) :
    readU16Be packet offset = fromBe16 (byteAt packet offset) (byteAt packet (offset + 1)) := by
  have hhi := (byteAt packet offset).toNat_lt
  have hlo := (byteAt packet (offset + 1)).toNat_lt
  have hshift :
      (byteAt packet offset).toNat <<< 8 % 2 ^ 16 = (byteAt packet offset).toNat <<< 8 := by
    rw [Nat.shiftLeft_eq]
    exact Nat.mod_eq_of_lt (by omega)
  rw [← UInt16.toNat_inj, Dns.toNat_fromBe16, readU16Be, UInt16.toNat_or, UInt16.toNat_shiftLeft,
    UInt8.toNat_toUInt16, UInt8.toNat_toUInt16]
  show (byteAt packet offset).toNat <<< 8 % 2 ^ 16 ||| _ = _
  rw [hshift, ← Nat.shiftLeft_add_eq_or_of_lt hlo, Nat.shiftLeft_eq]

/-! ## Names -/

section Names

variable {packet : List UInt8} {fuel offset : Nat}

theorem byteAt_eq (packet : List UInt8) (offset : Nat) :
    byteAt packet offset = (packet.drop offset).getD 0 0 := by
  rw [byteAt, List.getD_eq_getElem?_getD, List.getD_eq_getElem?_getD, List.getElem?_drop,
    Nat.add_zero]

/-- The bytes behind an offset, as long as it lies in the packet. -/
theorem drop_eq_cons (h : ¬offset ≥ packet.length) :
    packet.drop offset = byteAt packet offset :: packet.drop (offset + 1) := by
  have hlt : offset < packet.length := Nat.lt_of_not_le h
  rw [List.drop_eq_getElem_cons hlt, byteAt, List.getD_eq_getElem?_getD,
    List.getElem?_eq_getElem hlt, Option.getD_some]

theorem badLabel_iff {labelLength : UInt8} : badLabel packet labelLength offset = true ↔
    labelLength.toNat > 63 ∨ offset + labelLength.toNat > packet.length := by
  rw [badLabel, Bool.or_eq_true, decide_eq_true_iff, ← long_label]
  simp only [ne_eq, Bool.or_eq_true, decide_eq_true_eq]

/-- A label that is in order and the bytes behind it. -/
theorem exists_label {labelLength : UInt8} (hpos : labelLength ≠ 0)
    (hgood : ¬badLabel packet labelLength offset = true) :
    ∃ l : Label, l.size = labelLength ∧
      packet.drop offset = l.bytes ++ packet.drop (offset + labelLength.toNat) := by
  rw [badLabel_iff, not_or] at hgood
  have hne : labelLength.toNat ≠ 0 := mt (UInt8.toNat_inj (b := 0)).mp hpos
  have hlen : ((packet.drop offset).take labelLength.toNat).length = labelLength.toNat := by
    rw [List.length_take, List.length_drop]
    omega
  refine ⟨⟨(packet.drop offset).take labelLength.toNat, ?_, ?_⟩, ?_, ?_⟩
  · intro hnil
    rw [hnil] at hlen
    exact hne hlen.symm
  · omega
  · rw [Label.size, hlen, UInt8.ofNat_toNat]
  · rw [← List.drop_drop, List.take_append_drop]

/-- No name begins behind the packet. -/
theorem not_name_behind (hend : offset ≥ packet.length) (n : Name) :
    ¬encodeName n <+: packet.drop offset := by
  rw [List.drop_eq_nil_iff.mpr hend, List.prefix_nil]
  exact List.length_pos_iff.mp (Dns.length_encodeName_pos n)

/-- A name in the packet is the root, or begins with a label that is in order. -/
theorem name_at (hend : ¬offset ≥ packet.length) {n : Name} :
    encodeName n <+: packet.drop offset ↔
      (byteAt packet offset = 0 ∧ n = []) ∨
      (byteAt packet offset ≠ 0 ∧ badLabel packet (byteAt packet offset) (offset + 1) = false ∧
        ∃ (l : Label) (n' : Name), n = l :: n' ∧ l.size = byteAt packet offset ∧
          packet.drop (offset + 1) =
            l.bytes ++ packet.drop (offset + 1 + (byteAt packet offset).toNat) ∧
          encodeName n' <+: packet.drop (offset + 1 + (byteAt packet offset).toNat)) := by
  rw [drop_eq_cons hend]
  cases n with
  | nil =>
      rw [encodeName, List.cons_prefix_cons]
      constructor
      · rintro ⟨hzero, -⟩
        exact Or.inl ⟨hzero.symm, rfl⟩
      · rintro (⟨hzero, -⟩ | ⟨-, -, l, n', hnil, -⟩)
        · exact ⟨hzero.symm, List.nil_prefix⟩
        · cases hnil
  | cons l n =>
      rw [encodeName, List.cons_prefix_cons]
      constructor
      · rintro ⟨hsize, hrest⟩
        have hlen : (byteAt packet offset).toNat = l.bytes.length := by rw [← hsize, l.toNat_size]
        obtain ⟨more, hmore⟩ := hrest
        rw [List.append_assoc] at hmore
        have hroom := congrArg List.length hmore
        rw [List.length_append, List.length_drop] at hroom
        have hpos := l.pos
        have hshort := l.short
        have hdrop :
            packet.drop (offset + 1 + (byteAt packet offset).toNat) = encodeName n ++ more := by
          rw [hlen, ← List.drop_drop, ← hmore, List.drop_left' rfl]
        refine Or.inr ⟨?_, ?_, l, n, rfl, hsize, ?_, ?_⟩
        · intro hzero
          rw [hzero] at hlen
          exact absurd hlen (Nat.ne_of_lt hpos)
        · refine Bool.eq_false_iff.mpr fun hbad => ?_
          rw [badLabel_iff] at hbad
          omega
        · rw [hdrop, hmore]
        · rw [hdrop]
          exact List.prefix_append _ _
      · rintro (⟨-, hnil⟩ | ⟨-, -, l', n', heq, hsize, hdrop, hrest⟩)
        · cases hnil
        · obtain ⟨rfl, rfl⟩ := List.cons.inj heq
          refine ⟨hsize, ?_⟩
          rw [hdrop]
          exact (List.prefix_append_right_inj _).mpr hrest

/-- **The loop over the labels** finds the end of the name that begins at its offset. -/
theorem nameEnd_eq_some_iff {e : Nat} (hfuel : packet.length ≤ offset + fuel) :
    nameEnd packet fuel offset = some e ↔
      ∃ n : Name, encodeName n <+: packet.drop offset ∧ e = offset + (encodeName n).length := by
  induction fuel generalizing offset with
  | zero =>
      constructor
      · intro h
        cases h
      · rintro ⟨n, hn, -⟩
        exact absurd hn (not_name_behind hfuel n)
  | succ fuel ih =>
      rw [nameEnd]
      split
      · rename_i hend
        constructor
        · intro h
          cases h
        · rintro ⟨n, hn, -⟩
          exact absurd hn (not_name_behind hend n)
      rename_i hend
      dsimp only
      split
      · rename_i hzero
        -- the root ends the name
        constructor
        · intro h
          cases h
          exact ⟨[], (name_at hend).mpr (Or.inl ⟨hzero, rfl⟩), rfl⟩
        · rintro ⟨n, hn, rfl⟩
          rcases (name_at hend).mp hn with ⟨-, rfl⟩ | ⟨hne, -⟩
          · rfl
          · exact absurd hzero hne
      rename_i hne
      split
      · rename_i hbad
        constructor
        · intro h
          cases h
        · rintro ⟨n, hn, -⟩
          rcases (name_at hend).mp hn with ⟨hzero, -⟩ | ⟨-, hgood, -⟩
          · exact absurd hzero hne
          · exact absurd (hgood.symm.trans hbad) Bool.false_ne_true
      · rename_i hgood
        have hlt : 0 < (byteAt packet offset).toNat :=
          Nat.pos_of_ne_zero (mt (UInt8.toNat_inj (b := 0)).mp hne)
        rw [ih (by omega)]
        constructor
        · rintro ⟨n, hn, rfl⟩
          obtain ⟨l, hsize, hbytes⟩ := exists_label hne hgood
          refine ⟨l :: n, (name_at hend).mpr (Or.inr ⟨hne, Bool.eq_false_iff.mpr hgood, l, n, rfl,
            hsize, hbytes, hn⟩), ?_⟩
          rw [encodeName, List.length_cons, List.length_append, ← l.toNat_size, hsize]
          omega
        · rintro ⟨n, hn, rfl⟩
          rcases (name_at hend).mp hn with ⟨hzero, -⟩ | ⟨-, -, l, n', rfl, hsize, -, hrest⟩
          · exact absurd hzero hne
          · refine ⟨n', hrest, ?_⟩
            rw [encodeName, List.length_cons, List.length_append, ← l.toNat_size, hsize]
            omega

/-- **A matching label** stands in front of the expected name, up to case, and has no dot. -/
theorem labelMatches_iff {bytes rest : List UInt8} {expected : CString}
    (hdrop : packet.drop offset = bytes ++ rest) (hpos : 0 < bytes.length) :
    labelMatches packet offset bytes.length expected = true ↔
      ∃ front back, expected = front ++ back ∧ front.length = bytes.length ∧ (46 : UInt8) ∉ front ∧
        bytes.map asciiLower = front.map asciiLower := by
  have hbyte : ∀ i, (hi : i < bytes.length) → byteAt packet (offset + i) = bytes[i] := by
    intro i hi
    rw [byteAt_eq, ← List.drop_drop, hdrop, List.drop_append_of_le_length (Nat.le_of_lt hi),
      List.drop_eq_getElem_cons hi]
    rfl
  rw [labelMatches, List.all_eq_true]
  constructor
  · intro h
    have hstep : ∀ i, i < bytes.length → ∃ c, expected[i]? = some c ∧ c ≠ 46 ∧
        asciiLower (byteAt packet (offset + i)) = asciiLower c := by
      intro i hi
      have hi' := h i (List.mem_range.mpr hi)
      split at hi'
      · cases hi'
      · rename_i c hc
        obtain ⟨hdot, hlower⟩ := Bool.and_eq_true_iff.mp hi'
        exact ⟨c, hc, of_decide_eq_true hdot, of_decide_eq_true hlower⟩
    have hlong : bytes.length ≤ expected.length := by
      obtain ⟨c, hc, -⟩ := hstep (bytes.length - 1) (by omega)
      obtain ⟨hlt, -⟩ := List.getElem?_eq_some_iff.mp hc
      omega
    refine ⟨expected.take bytes.length, expected.drop bytes.length,
      (List.take_append_drop _ _).symm, List.length_take_of_le hlong, ?_, ?_⟩
    · intro hmem
      obtain ⟨i, hi, hget⟩ := List.mem_iff_getElem.mp hmem
      rw [List.getElem_take] at hget
      rw [List.length_take_of_le hlong] at hi
      obtain ⟨c, hc, hdot, -⟩ := hstep i hi
      obtain ⟨hlt, heq⟩ := List.getElem?_eq_some_iff.mp hc
      exact hdot (heq.symm.trans hget)
    · refine List.ext_getElem ?_ fun i hi hi' => ?_
      · rw [List.length_map, List.length_map, List.length_take_of_le hlong]
      · rw [List.length_map] at hi
        obtain ⟨c, hc, -, hlower⟩ := hstep i hi
        obtain ⟨hlt, heq⟩ := List.getElem?_eq_some_iff.mp hc
        rw [List.getElem_map, List.getElem_map, List.getElem_take, heq, ← hlower, hbyte i hi]
  · rintro ⟨front, back, rfl, hlen, hdot, hlower⟩ i hi
    have hi := List.mem_range.mp hi
    have hi' : i < front.length := by omega
    have hfront : (front ++ back)[i]? = some front[i] := by
      rw [List.getElem?_append_left hi', List.getElem?_eq_getElem]
    have hsame : asciiLower bytes[i] = asciiLower front[i] := by
      have hget := List.getElem_of_eq hlower (by rw [List.length_map]; exact hi)
      rwa [List.getElem_map, List.getElem_map] at hget
    rw [hfront]
    refine Bool.and_eq_true_iff.mpr ⟨decide_eq_true fun hc => ?_, ?_⟩
    · exact hdot (hc ▸ List.getElem_mem _)
    · rw [hbyte i hi]
      exact decide_eq_true hsame

end Names

/-! ## The blocked names -/

/-- Labels with dots between them. -/
def dotted : List CString → CString
  | [] => []
  | [a] => a
  | a :: b :: labels => a ++ 46 :: dotted (b :: labels)

/-- The name has these labels, up to case. -/
def SameName (n : Name) (labels : List CString) : Prop :=
  n.map (fun l => l.bytes.map asciiLower) = labels.map fun a => a.map asciiLower

/-- The labels are not empty and have no dots. -/
def Plain (labels : List CString) : Prop := ∀ a ∈ labels, a ≠ [] ∧ (46 : UInt8) ∉ a

/-- What follows the first label. -/
def dotTail : List CString → CString
  | [] => []
  | b :: labels => 46 :: dotted (b :: labels)

theorem dotted_cons (a : CString) (labels : List CString) :
    dotted (a :: labels) = a ++ dotTail labels := by
  cases labels with
  | nil => exact (List.append_nil a).symm
  | cons b labels => rfl

theorem dotted_eq_nil {labels : List CString} (h : Plain labels) :
    dotted labels = [] ↔ labels = [] := by
  constructor
  · intro hnil
    cases labels with
    | nil => rfl
    | cons a labels =>
        rw [dotted_cons, List.append_eq_nil_iff] at hnil
        exact absurd hnil.1 (h a List.mem_cons_self).1
  · rintro rfl
    rfl

theorem sameName_cons_cons {l : Label} {n : Name} {a : CString} {labels : List CString} :
    SameName (l :: n) (a :: labels) ↔
      l.bytes.map asciiLower = a.map asciiLower ∧ SameName n labels := by
  rw [SameName, List.map_cons, List.map_cons, List.cons.injEq]
  rfl

theorem not_sameName_nil (l : Label) (n : Name) : ¬SameName (l :: n) [] :=
  List.cons_ne_nil _ _

/-- Labels of the same length. -/
theorem length_of_lower {bytes a : List UInt8} (h : bytes.map asciiLower = a.map asciiLower) :
    bytes.length = a.length := by
  rw [← List.length_map (f := asciiLower), h, List.length_map]

/-- The first dot of a text. -/
theorem first_dot {f g x y : CString} (hf : (46 : UInt8) ∉ f) (hg : (46 : UInt8) ∉ g)
    (h : f ++ 46 :: x = g ++ 46 :: y) : f = g ∧ x = y := by
  induction f generalizing g with
  | nil =>
      cases g with
      | nil => exact ⟨rfl, (List.cons.inj h).2⟩
      | cons c g => exact absurd ((List.cons.inj h).1 ▸ List.mem_cons_self) hg
  | cons b f ih =>
      cases g with
      | nil => exact absurd ((List.cons.inj h).1 ▸ List.mem_cons_self) hf
      | cons c g =>
          obtain ⟨rfl, htail⟩ := List.cons.inj h
          obtain ⟨rfl, rfl⟩ := ih (fun hmem => hf (List.mem_cons_of_mem _ hmem))
            (fun hmem => hg (List.mem_cons_of_mem _ hmem)) htail
          exact ⟨rfl, rfl⟩

/-- **The comparison of names** is one of labels, up to case. -/
theorem nameEquals_iff {packet : List UInt8} {fuel offset : Nat} {n : Name}
    {labels : List CString} (hfuel : packet.length ≤ offset + fuel)
    (hn : encodeName n <+: packet.drop offset) (hplain : Plain labels) :
    nameEquals packet fuel offset (dotted labels) = true ↔ SameName n labels := by
  induction fuel generalizing offset n labels with
  | zero => exact absurd hn (not_name_behind hfuel n)
  | succ fuel ih =>
      rw [nameEquals]
      split
      · rename_i hend
        exact absurd hn (not_name_behind hend n)
      rename_i hend
      dsimp only
      rcases (name_at hend).mp hn with ⟨hzero, rfl⟩ | ⟨hne, hgood, l, n', rfl, hsize, hdrop, hrest⟩
      · rw [if_pos hzero, decide_eq_true_iff, dotted_eq_nil hplain]
        constructor
        · rintro rfl
          rfl
        · intro hsame
          exact List.map_eq_nil_iff.mp hsame.symm
      have hlen : (byteAt packet offset).toNat = l.bytes.length := by rw [← hsize, l.toNat_size]
      have hpos := l.pos
      rw [if_neg hne, if_neg (by rw [hgood]; exact Bool.false_ne_true), hlen]
      rw [hlen] at hdrop hrest
      have hmatches := @labelMatches_iff packet (offset + 1) l.bytes _ (dotted labels) hdrop hpos
      split
      · rename_i hmiss
        constructor
        · intro h
          cases h
        · intro hsame
          cases labels with
          | nil => exact absurd hsame (not_sameName_nil l n')
          | cons a labels =>
              obtain ⟨hlower, -⟩ := sameName_cons_cons.mp hsame
              have hhit := hmatches.mpr ⟨a, dotTail labels, dotted_cons a labels,
                (length_of_lower hlower).symm, (hplain a List.mem_cons_self).2, hlower⟩
              rw [hhit] at hmiss
              cases hmiss
      · rename_i hhit
        have hhit : labelMatches packet (offset + 1) l.bytes.length (dotted labels) = true := by
          simpa using hhit
        obtain ⟨front, back, hexp, hfront, hdot, hlower⟩ := hmatches.mp hhit
        cases labels with
        | nil =>
            -- a label is not empty
            have hnil : front = [] := (List.append_eq_nil_iff.mp hexp.symm).1
            rw [hnil] at hfront
            exact absurd hfront (Nat.ne_of_lt hpos)
        | cons a labels =>
            have hplain' : Plain labels := fun b hb => hplain b (List.mem_cons_of_mem _ hb)
            have hadot := (hplain a List.mem_cons_self).2
            rw [sameName_cons_cons, hexp, List.drop_left' hfront]
            rw [dotted_cons] at hexp
            split
            · -- the expected name ends behind the label
              rename_i hback
              rw [List.append_nil] at hexp
              cases labels with
              | nil =>
                  obtain rfl : a = front := (List.append_nil a).symm.trans hexp
                  have hnext := @ih (offset + 1 + l.bytes.length) n' [] (by omega) hrest hplain'
                  rw [← hnext]
                  exact (and_iff_right hlower).symm
              | cons b labels =>
                  have hmem : (46 : UInt8) ∈ front := by
                    rw [← hexp]
                    exact List.mem_append_right _ List.mem_cons_self
                  exact absurd hmem hdot
            · rename_i c rest hback
              split
              · rename_i hc
                subst hc
                cases labels with
                | nil =>
                    have hmem : (46 : UInt8) ∈ a := by
                      rw [← List.append_nil a]
                      exact hexp ▸ List.mem_append_right _ List.mem_cons_self
                    exact absurd hmem hadot
                | cons b labels =>
                    obtain ⟨rfl, rfl⟩ := first_dot hadot hdot hexp
                    have hnext := @ih (offset + 1 + l.bytes.length) n' (b :: labels) (by omega)
                      hrest hplain'
                    rw [← hnext]
                    exact (and_iff_right hlower).symm
              · -- the expected label is longer or shorter
                rename_i hc
                constructor
                · intro h
                  cases h
                · rintro ⟨hsame, -⟩
                  have hlong : a.length = front.length := by
                    rw [hfront, length_of_lower hsame]
                  obtain ⟨-, htail⟩ := List.append_inj hexp hlong
                  cases labels with
                  | nil => cases htail
                  | cons b labels => exact absurd (List.cons.inj htail).1.symm hc

/-! ## Questions -/

/-- The bytes behind a name. -/
theorem byteAt_behind {packet front rest : List UInt8} {offset : Nat}
    (h : packet.drop offset = front ++ rest) (k : Nat) :
    byteAt packet (offset + front.length + k) = rest.getD k 0 := by
  have hrest : packet.drop (offset + front.length) = rest := by
    rw [← List.drop_drop, h, List.drop_left' rfl]
  rw [byteAt, ← hrest, List.getD_eq_getElem?_getD, List.getD_eq_getElem?_getD, List.getElem?_drop]

theorem readU16Be_behind {packet front rest : List UInt8} {offset : Nat}
    (h : packet.drop offset = front ++ rest) (k : Nat) :
    readU16Be packet (offset + front.length + k) =
      fromBe16 (rest.getD k 0) (rest.getD (k + 1) 0) := by
  rw [readU16Be_eq, byteAt_behind h, Nat.add_assoc, byteAt_behind h]

/-- **The parser** finds the question that the packet begins with. -/
theorem parseQuestion_eq_some_iff {packet : List UInt8} {x : DnsQuestion} :
    parseQuestion packet = some x ↔
      ∃ q : Question, q.encode <+: packet.drop DNS_HEADER_LEN ∧
        x = { qtype := q.qtype, qclass := q.qclass
              questionEnd := DNS_HEADER_LEN + q.encode.length } := by
  have hname := fun e => @nameEnd_eq_some_iff packet packet.length DNS_HEADER_LEN e (by omega)
  rw [parseQuestion]
  constructor
  · intro h
    split at h
    · cases h
    rename_i offset hend
    obtain ⟨n, ⟨more, hmore⟩, rfl⟩ := (hname offset).mp hend
    split at h
    · cases h
    rename_i hroom
    cases h
    -- four bytes follow the name
    have hlen := congrArg List.length hmore
    rw [List.length_append, List.length_drop] at hlen
    obtain ⟨b₀, b₁, b₂, b₃, rest, rfl⟩ :
        ∃ b₀ b₁ b₂ b₃ rest, more = b₀ :: b₁ :: b₂ :: b₃ :: rest := by
      match more, hlen with
      | b₀ :: b₁ :: b₂ :: b₃ :: rest, _ => exact ⟨b₀, b₁, b₂, b₃, rest, rfl⟩
      | [_, _, _], h | [_, _], h | [_], h | [], h => simp at h; omega
    refine ⟨⟨n, fromBe16 b₀ b₁, fromBe16 b₂ b₃⟩, ?_, ?_⟩
    · rw [Question.encode, Dns.be16_fromBe16, Dns.be16_fromBe16, ← hmore, List.append_assoc]
      exact (List.prefix_append_right_inj _).mpr ⟨rest, rfl⟩
    · have htype := readU16Be_behind hmore.symm 0
      rw [Nat.add_zero] at htype
      rw [htype, readU16Be_behind hmore.symm 2, Question.length_encode]
      rfl
  · rintro ⟨q, ⟨more, hmore⟩, rfl⟩
    rw [Question.encode, List.append_assoc, List.append_assoc] at hmore
    have hend := (hname _).mpr ⟨q.name, ⟨_, hmore⟩, rfl⟩
    have hlen := congrArg List.length hmore
    rw [List.length_append, List.length_append, List.length_append, List.length_drop,
      Dns.length_be16, Dns.length_be16] at hlen
    have htype : readU16Be packet (DNS_HEADER_LEN + (encodeName q.name).length) = q.qtype :=
      (readU16Be_behind hmore.symm 0).trans (Dns.fromBe16_be16 q.qtype)
    have hclass : readU16Be packet (DNS_HEADER_LEN + (encodeName q.name).length + 2) =
        q.qclass :=
      (readU16Be_behind hmore.symm 2).trans (Dns.fromBe16_be16 q.qclass)
    have hroom : ¬DNS_HEADER_LEN + (encodeName q.name).length + 4 > packet.length := by
      rw [DNS_HEADER_LEN] at hlen ⊢
      omega
    rw [hend]
    dsimp only
    rw [if_neg hroom, htype, hclass, Question.length_encode]
    rfl

/-! ## What a reply is -/

def queryId (packet : List UInt8) : UInt16 := fromBe16 (byteAt packet 0) (byteAt packet 1)

def opcode (packet : List UInt8) : Nat := (byteAt packet 2).toNat / 8 % 16

def recursionDesired (packet : List UInt8) : Bool := (byteAt packet 2).toNat % 2 = 1

def qdCount (packet : List UInt8) : UInt16 := fromBe16 (byteAt packet 4) (byteAt packet 5)

/-- The header is complete and not the one of a response. -/
def IsQuery (packet : List UInt8) : Prop :=
  DNS_HEADER_LEN ≤ packet.length ∧ (byteAt packet 2).toNat < 128

/-- A query that is not a standard one with a single question. -/
def Unsupported (packet : List UInt8) : Prop :=
  IsQuery packet ∧ (opcode packet ≠ 0 ∨ qdCount packet ≠ 1)

/-- A standard query for `q`. -/
structure Asks (packet : List UInt8) (q : Question) : Prop where
  query : IsQuery packet
  standard : opcode packet = 0
  single : qdCount packet = 1
  question : q.encode <+: packet.drop DNS_HEADER_LEN

def blockedNames : List (List CString) :=
  [[cstr "local", cstr "adguard", cstr "org"], [cstr "local", cstr "adguard", cstr "com"]]

def Blocked (n : Name) : Prop := ∃ labels ∈ blockedNames, SameName n labels

/-- The query is one for an address that is not blocked. -/
def AsksAddress (packet : List UInt8) : Prop :=
  ∃ q, Asks packet q ∧ q.qtype = DNS_TYPE_A ∧ q.qclass = DNS_CLASS_IN ∧ ¬Blocked q.name

/-- The redirect address, for the name that stands behind the header. -/
def addressRecord (redirectIp : Ip4Addr) : Record where
  owner := .pointer 12
  type := DNS_TYPE_A
  cls := DNS_CLASS_IN
  ttl := 30
  rdata := redirectIp.toList
  fits := by rw [Vector.length_toList]; decide

/-- The bytes are the message `m`, and that is a reply to the packet. -/
structure Reply (packet : List UInt8) (redirectIp : Ip4Addr) (out : List UInt8) (m : Message) :
    Prop where
  encoded : out = m.encode
  room : out.length ≤ DNS_MAX_PACKET_LEN
  id : m.id = queryId packet
  flags : m.flags.qr = true ∧ m.flags.opcode = 0 ∧ m.flags.rd = recursionDesired packet
  records : m.authority = [] ∧ m.additional = []
  echoed : m.questions.flatMap Question.encode <+: packet.drop DNS_HEADER_LEN
  answered : AsksAddress packet → m.answers = [addressRecord redirectIp]
  unanswered : ¬AsksAddress packet → m.answers = []
  notimp : (Unsupported packet ∨ ∃ q, Asks packet q ∧ q.qclass ≠ DNS_CLASS_IN) →
    m.flags.rcode = 4
  nxdomain : (∃ q, Asks packet q ∧ q.qclass = DNS_CLASS_IN ∧ Blocked q.name) → m.flags.rcode = 3
  noerror : (∃ q, Asks packet q ∧ q.qclass = DNS_CLASS_IN ∧ ¬Blocked q.name) → m.flags.rcode = 0

/-- The packet is dropped, or what is sent is a reply. -/
def WellAnswered (packet : List UInt8) (redirectIp : Ip4Addr) : Prop :=
  buildResponse packet redirectIp = none ∨
    ∃ out m, buildResponse packet redirectIp = some out ∧ Reply packet redirectIp out m

/-! ## The header -/

section Header

variable {packet : List UInt8}

/-- **The three answers** of the parser of the header. -/
theorem parseHeader_cases (packet : List UInt8) :
    (parseHeader packet = .malformed ∧ ¬IsQuery packet) ∨
    (parseHeader packet = .unsupported ∧ Unsupported packet) ∨
    (parseHeader packet = .ok ∧ IsQuery packet ∧ opcode packet = 0 ∧ qdCount packet = 1) := by
  have hcount : readU16Be packet 4 = qdCount packet := readU16Be_eq packet 4
  rw [parseHeader, hcount]
  by_cases hlen : packet.length < DNS_HEADER_LEN
  · rw [if_pos hlen]
    exact Or.inl ⟨rfl, fun hq => absurd hq.1 (Nat.not_le_of_lt hlen)⟩
  rw [if_neg hlen]
  by_cases hqr : byteAt packet 2 &&& 0x80 = 0
  · have hquery : IsQuery packet := ⟨Nat.le_of_not_lt hlen, (and_qr _).mp hqr⟩
    rw [if_neg (not_not.mpr hqr)]
    by_cases hop : byteAt packet 2 &&& 0x78 = 0
    · have hstandard : opcode packet = 0 := (and_opcode _).mp hop
      rw [if_neg (not_not.mpr hop)]
      by_cases hone : qdCount packet = 1
      · rw [if_neg (not_not.mpr hone)]
        exact Or.inr (Or.inr ⟨rfl, hquery, hstandard, hone⟩)
      · rw [if_pos hone]
        exact Or.inr (Or.inl ⟨rfl, hquery, Or.inr hone⟩)
    · rw [if_pos hop]
      exact Or.inr (Or.inl ⟨rfl, hquery, Or.inl (mt (and_opcode _).mpr hop)⟩)
  · rw [if_pos hqr]
    exact Or.inl ⟨rfl, fun hq => hqr ((and_qr _).mpr hq.2)⟩

/-- The first twelve bytes. -/
theorem header_split (h : DNS_HEADER_LEN ≤ packet.length) :
    packet = byteAt packet 0 :: byteAt packet 1 :: byteAt packet 2 :: byteAt packet 3 ::
      byteAt packet 4 :: byteAt packet 5 :: byteAt packet 6 :: byteAt packet 7 ::
      byteAt packet 8 :: byteAt packet 9 :: byteAt packet 10 :: byteAt packet 11 ::
      packet.drop DNS_HEADER_LEN := by
  rw [DNS_HEADER_LEN] at h
  have hstep : ∀ k, k < 12 → packet.drop k = byteAt packet k :: packet.drop (k + 1) :=
    fun k hk => drop_eq_cons (by omega)
  calc packet = packet.drop 0 := rfl
    _ = _ := by
      rw [hstep 0 (by omega), hstep 1 (by omega), hstep 2 (by omega), hstep 3 (by omega),
        hstep 4 (by omega), hstep 5 (by omega), hstep 6 (by omega), hstep 7 (by omega),
        hstep 8 (by omega), hstep 9 (by omega), hstep 10 (by omega), hstep 11 (by omega)]
      rfl

/-- The header of a response, with its counts of questions and answers. -/
def replyHeader (packet : List UInt8) (rcode : UInt8) (anCount : UInt16) : List UInt8 :=
  be16 (queryId packet) ++ [0x80 ||| (byteAt packet 2 &&& 0x01), rcode] ++ be16 (qdCount packet) ++
    be16 anCount ++ [0, 0, 0, 0]

theorem responseHeader_eq (h : DNS_HEADER_LEN ≤ packet.length) (rcode : UInt8) :
    responseHeader packet rcode =
      replyHeader packet rcode 0 ++ packet.drop DNS_HEADER_LEN := by
  rw [replyHeader, queryId, qdCount, Dns.be16_fromBe16, Dns.be16_fromBe16]
  calc responseHeader packet rcode
      = responseHeader (_ :: _ :: _ :: _ :: _ :: _ :: _ :: _ :: _ :: _ :: _ :: _ :: _) rcode :=
        congrArg (responseHeader · rcode) (header_split h)
    _ = _ := rfl

variable {q : Question}

/-- What is sent in front of an answer. -/
theorem take_reply (h : DNS_HEADER_LEN ≤ packet.length)
    (hq : q.encode <+: packet.drop DNS_HEADER_LEN) (rcode : UInt8) :
    ((responseHeader packet DNS_RCODE_NOERROR).set 3 rcode).take
        (DNS_HEADER_LEN + q.encode.length) = replyHeader packet rcode 0 ++ q.encode := by
  obtain ⟨more, hmore⟩ := hq
  rw [responseHeader_eq h, ← hmore]
  show (replyHeader packet rcode 0 ++ (q.encode ++ more)).take _ = _
  rw [← List.append_assoc]
  exact List.take_left' (by rw [List.length_append]; rfl)

theorem take_answered (h : DNS_HEADER_LEN ≤ packet.length)
    (hq : q.encode <+: packet.drop DNS_HEADER_LEN) :
    (writeU16Be (responseHeader packet DNS_RCODE_NOERROR) 6 1).take
        (DNS_HEADER_LEN + q.encode.length) =
          replyHeader packet DNS_RCODE_NOERROR 1 ++ q.encode := by
  obtain ⟨more, hmore⟩ := hq
  rw [responseHeader_eq h, ← hmore]
  show (replyHeader packet DNS_RCODE_NOERROR 1 ++ (q.encode ++ more)).take _ = _
  rw [← List.append_assoc]
  exact List.take_left' (by rw [List.length_append]; rfl)

/-- The message with the given questions and answers. -/
def replyMessage (packet : List UInt8) (rcode : Fin 16) (questions : List Question)
    (answers : List Record) (hq : questions.length < 65536) (ha : answers.length < 65536) :
    Message where
  id := queryId packet
  flags := { qr := true, opcode := 0, rd := recursionDesired packet, rcode }
  questions := questions
  answers := answers
  counted := ⟨hq, ha, by decide, by decide⟩

/-- Its bytes, when it has as many questions as the query counts. -/
theorem encode_replyMessage {rcode : Fin 16} {questions : List Question} {answers : List Record}
    (hq : questions.length < 65536) (ha : answers.length < 65536)
    (hcount : qdCount packet = UInt16.ofNat questions.length) :
    (replyMessage packet rcode questions answers hq ha).encode =
      replyHeader packet (UInt8.ofNat rcode) (UInt16.ofNat answers.length) ++
        questions.flatMap Question.encode ++ answers.flatMap Record.encode := by
  have hrd : UInt8.ofNat (128 + (recursionDesired packet).toNat) =
      0x80 ||| (byteAt packet 2 &&& 0x01) := by
    rw [or_rd, recursionDesired]
    rcases Nat.mod_two_eq_zero_or_one (byteAt packet 2).toNat with h | h <;> rw [h] <;> rfl
  have hflags : (replyMessage packet rcode questions answers hq ha).flags.encode =
      [UInt8.ofNat (128 + (recursionDesired packet).toNat), UInt8.ofNat rcode] := by
    simp [replyMessage, Dns.Flags.encode]
  rw [Message.encode, Message.header, hflags, hrd, replyHeader, hcount]
  simp only [replyMessage, List.flatMap_nil, List.append_nil, List.append_assoc]
  rfl

end Header

/-! ## The replies -/

section Replies

variable {packet : List UInt8} {redirectIp : Ip4Addr} {q : Question}

/-- The query has one question at most. -/
theorem Asks.unique {q' : Question} (h : Asks packet q) (h' : Asks packet q') : q = q' :=
  Question.eq_of_prefix h.question h'.question

theorem not_unsupported (h : Asks packet q) : ¬Unsupported packet := by
  rintro ⟨-, hop | hone⟩
  · exact hop h.standard
  · exact hone h.single

theorem not_asks (h : Unsupported packet) (q : Question) : ¬Asks packet q :=
  fun hq => not_unsupported hq h

/-- The blocked names are found. -/
theorem isAdguardInjectionDomain_iff (hq : q.encode <+: packet.drop DNS_HEADER_LEN) :
    isAdguardInjectionDomain packet = true ↔ Blocked q.name := by
  have hname : encodeName q.name <+: packet.drop DNS_HEADER_LEN := by
    refine List.IsPrefix.trans ?_ hq
    rw [Question.encode, List.append_assoc]
    exact List.prefix_append _ _
  have hplain : ∀ labels ∈ blockedNames, Plain labels := by
    unfold Plain
    decide
  have hequals : ∀ labels ∈ blockedNames,
      (questionNameEquals packet (dotted labels) = true ↔ SameName q.name labels) :=
    fun labels hmem => nameEquals_iff (by omega) hname (hplain labels hmem)
  have horg := hequals [cstr "local", cstr "adguard", cstr "org"] (by decide)
  have hcom := hequals [cstr "local", cstr "adguard", cstr "com"] (by decide)
  rw [isAdguardInjectionDomain, Bool.or_eq_true]
  show questionNameEquals packet (dotted [cstr "local", cstr "adguard", cstr "org"]) = true ∨
    questionNameEquals packet (dotted [cstr "local", cstr "adguard", cstr "com"]) = true ↔ _
  rw [horg, hcom]
  simp [Blocked, blockedNames]

/-- The edits of the header leave the question. -/
theorem drop_responseHeader (h : DNS_HEADER_LEN ≤ packet.length) (rcode : UInt8) :
    (responseHeader packet rcode).drop DNS_HEADER_LEN = packet.drop DNS_HEADER_LEN := by
  rw [responseHeader_eq h]
  rfl

/-- The name is compared behind the edited header. -/
theorem isAdguardInjectionDomain_response (hasks : Asks packet q) :
    isAdguardInjectionDomain (responseHeader packet DNS_RCODE_NOERROR) = true ↔
      Blocked q.name := by
  refine isAdguardInjectionDomain_iff ?_
  rw [drop_responseHeader hasks.query.1]
  exact hasks.question

theorem length_single (q : Question) : [q].length < 65536 := (by decide : 1 < 65536)

/-- A reply with the question. -/
theorem reply_question {q : Question} {rcode : Fin 16} {answers : List Record}
    (hasks : Asks packet q) (ha : answers.length < 65536)
    (hroom : (replyHeader packet (UInt8.ofNat rcode) (UInt16.ofNat answers.length) ++ q.encode ++
      answers.flatMap Record.encode).length ≤ DNS_MAX_PACKET_LEN)
    (hanswered : AsksAddress packet → answers = [addressRecord redirectIp])
    (hunanswered : ¬AsksAddress packet → answers = [])
    (hnotimp : q.qclass ≠ DNS_CLASS_IN → rcode = 4)
    (hnxdomain : q.qclass = DNS_CLASS_IN → Blocked q.name → rcode = 3)
    (hnoerror : q.qclass = DNS_CLASS_IN → ¬Blocked q.name → rcode = 0) :
    Reply packet redirectIp (replyHeader packet (UInt8.ofNat rcode) (UInt16.ofNat answers.length) ++
      q.encode ++ answers.flatMap Record.encode)
      (replyMessage packet rcode [q] answers (length_single q) ha) where
  encoded := by
    rw [encode_replyMessage (length_single q) ha hasks.single, List.flatMap_singleton]
  room := hroom
  id := rfl
  flags := ⟨rfl, rfl, rfl⟩
  records := ⟨rfl, rfl⟩
  echoed := by
    show [q].flatMap Question.encode <+: _
    rw [List.flatMap_singleton]
    exact hasks.question
  answered := hanswered
  unanswered := hunanswered
  notimp := by
    rintro (hun | ⟨q', hq', hclass⟩)
    · exact absurd hun (not_unsupported hasks)
    · exact hnotimp (hasks.unique hq' ▸ hclass)
  nxdomain := by
    rintro ⟨q', hq', hclass, hblocked⟩
    obtain rfl := hasks.unique hq'
    exact hnxdomain hclass hblocked
  noerror := by
    rintro ⟨q', hq', hclass, hblocked⟩
    obtain rfl := hasks.unique hq'
    exact hnoerror hclass hblocked

/-- The address is asked for just when the one question does so. -/
theorem asksAddress_iff (hasks : Asks packet q) : AsksAddress packet ↔
    q.qtype = DNS_TYPE_A ∧ q.qclass = DNS_CLASS_IN ∧ ¬Blocked q.name := by
  constructor
  · rintro ⟨q', hq', h⟩
    obtain rfl := hasks.unique hq'
    exact h
  · intro h
    exact ⟨q, hasks, h⟩

theorem length_replyHeader (packet : List UInt8) (rcode : UInt8) (anCount : UInt16) :
    (replyHeader packet rcode anCount).length = DNS_HEADER_LEN := rfl

/-- A reply without an answer. -/
theorem exists_reply {q : Question} (rcode : Fin 16) (hasks : Asks packet q)
    (hroom : DNS_HEADER_LEN + q.encode.length ≤ DNS_MAX_PACKET_LEN) (hnot : ¬AsksAddress packet)
    (hnotimp : q.qclass ≠ DNS_CLASS_IN → rcode = 4)
    (hnxdomain : q.qclass = DNS_CLASS_IN → Blocked q.name → rcode = 3)
    (hnoerror : q.qclass = DNS_CLASS_IN → ¬Blocked q.name → rcode = 0) :
    ∃ m, Reply packet redirectIp (replyHeader packet (UInt8.ofNat rcode) 0 ++ q.encode) m := by
  have hreply := @reply_question packet redirectIp q rcode [] hasks (by decide) (by
      rw [List.flatMap_nil, List.append_nil, List.length_append]
      exact hroom)
    (fun h => absurd h hnot) (fun _ => rfl) hnotimp hnxdomain hnoerror
  rw [List.flatMap_nil, List.append_nil] at hreply
  exact ⟨_, hreply⟩

theorem flatMap_addressRecord (redirectIp : Ip4Addr) :
    [addressRecord redirectIp].flatMap Record.encode = answer redirectIp := by
  have hlen : UInt16.ofNat redirectIp.toList.length = 4 := by rw [Vector.length_toList]; rfl
  have hfront : (addressRecord redirectIp).owner.encode ++ be16 DNS_TYPE_A ++ be16 DNS_CLASS_IN ++
      Dns.be32 30 = [0xC0, 0x0C] ++ be16 DNS_TYPE_A ++ be16 DNS_CLASS_IN ++ be16 0 ++
        be16 DNS_ANSWER_TTL_S := by
    show (Dns.Owner.pointer 12).encode ++ _ ++ _ ++ _ = _
    decide
  rw [List.flatMap_singleton, Record.encode]
  show (addressRecord redirectIp).owner.encode ++ be16 DNS_TYPE_A ++ be16 DNS_CLASS_IN ++
    Dns.be32 30 ++ be16 (UInt16.ofNat redirectIp.toList.length) ++ redirectIp.toList = _
  rw [hlen, hfront]
  rfl

theorem length_answer (redirectIp : Ip4Addr) : (answer redirectIp).length = DNS_ANSWER_LEN := by
  rw [answer, List.length_append, Vector.length_toList]
  rfl

/-- **A query with a question** is dropped or answered by a reply. -/
theorem wellAnswered_of_asks (redirectIp : Ip4Addr) (hlen : packet.length ≤ DNS_MAX_PACKET_LEN)
    (hasks : Asks packet q) (hparse : parseHeader packet = .ok)
    (hquestion : parseQuestion packet =
      some ⟨q.qtype, q.qclass, DNS_HEADER_LEN + q.encode.length⟩) :
    WellAnswered packet redirectIp := by
  have hheader := hasks.query.1
  have hroom : DNS_HEADER_LEN + q.encode.length ≤ DNS_MAX_PACKET_LEN := by
    have hle := hasks.question.length_le
    rw [List.length_drop] at hle
    omega
  have hblocked := isAdguardInjectionDomain_response hasks
  have hasked := asksAddress_iff hasks
  rw [WellAnswered, buildResponse, hparse, hquestion]
  dsimp only
  split
  · rename_i hclass
    obtain ⟨m, hm⟩ := @exists_reply packet redirectIp q 4 hasks hroom
      (fun h => hclass (hasked.mp h).2.1) (fun _ => rfl) (fun h => absurd h hclass)
      (fun h => absurd h hclass)
    exact Or.inr ⟨_, m, congrArg some (take_reply hheader hasks.question _), hm⟩
  rename_i hclass
  have hclass : q.qclass = DNS_CLASS_IN := not_not.mp hclass
  split
  · rename_i hname
    have hname := hblocked.mp hname
    obtain ⟨m, hm⟩ := @exists_reply packet redirectIp q 3 hasks hroom
      (fun h => (hasked.mp h).2.2 hname) (fun h => absurd hclass h) (fun _ _ => rfl)
      (fun _ h => absurd hname h)
    exact Or.inr ⟨_, m, congrArg some (take_reply hheader hasks.question _), hm⟩
  rename_i hname
  have hname : ¬Blocked q.name := mt hblocked.mpr hname
  split
  · rename_i htype
    obtain ⟨m, hm⟩ := @exists_reply packet redirectIp q 0 hasks hroom
      (fun h => htype (hasked.mp h).1) (fun h => absurd hclass h) (fun _ h => absurd h hname)
      (fun _ _ => rfl)
    refine Or.inr ⟨_, m, ?_, hm⟩
    have hset : (responseHeader packet DNS_RCODE_NOERROR).set 3 DNS_RCODE_NOERROR =
        responseHeader packet DNS_RCODE_NOERROR := by
      rw [responseHeader_eq hheader]
      rfl
    have htake := take_reply hheader hasks.question DNS_RCODE_NOERROR
    rw [hset] at htake
    exact congrArg some htake
  rename_i htype
  have htype : q.qtype = DNS_TYPE_A := not_not.mp htype
  split
  · exact Or.inl rfl
  · rename_i hfits
    have hbytes : ([addressRecord redirectIp].flatMap Record.encode) = answer redirectIp :=
      flatMap_addressRecord redirectIp
    have hreply := @reply_question packet redirectIp q 0 [addressRecord redirectIp] hasks
      (by decide : 1 < 65536) (by
        rw [hbytes, List.length_append, List.length_append, length_replyHeader, length_answer]
        omega)
      (fun _ => rfl) (fun h => absurd (hasked.mpr ⟨htype, hclass, hname⟩) h)
      (fun h => absurd hclass h) (fun _ h => absurd h hname) (fun _ _ => rfl)
    rw [hbytes] at hreply
    exact Or.inr ⟨_, _, congrArg (fun l => some (l ++ answer redirectIp))
      (take_answered hheader hasks.question), hreply⟩

theorem buildResponse_unsupported (hun : Unsupported packet) (redirectIp : Ip4Addr) :
    buildResponse packet redirectIp = some (replyHeader packet DNS_RCODE_NOTIMP 0) := by
  have hparse : parseHeader packet = .unsupported := by
    rcases parseHeader_cases packet with ⟨-, hnot⟩ | ⟨hparse, -⟩ | ⟨-, -, hop, hone⟩
    · exact absurd hun.1 hnot
    · exact hparse
    · exact absurd hun.2 (by simp [hop, hone])
  rw [buildResponse, hparse, responseHeader_eq hun.1.1]
  rfl

/-- A header alone has no room for the questions that it counts. -/
theorem not_wellAnswered (hun : Unsupported packet) (hcount : qdCount packet ≠ 0) :
    ¬WellAnswered packet redirectIp := by
  have hbuild := buildResponse_unsupported hun redirectIp
  rintro (hnone | ⟨out, m, hout, hreply⟩)
  · rw [hbuild] at hnone
    cases hnone
  · obtain rfl := Option.some.inj (hbuild.symm.trans hout)
    have hnil : m.questions = [] := by
      refine Message.questions_of_length ?_
      rw [← hreply.encoded]
      exact Nat.le_refl _
    have hread := m.questionCount
    rw [← hreply.encoded, hnil] at hread
    exact hcount ((Dns.fromBe16_be16 (qdCount packet)).symm.trans hread)

/-- A header alone that counts no question is a reply. -/
theorem wellAnswered_header (hun : Unsupported packet) (hzero : qdCount packet = 0)
    (redirectIp : Ip4Addr) : WellAnswered packet redirectIp := by
  have hnot : ¬AsksAddress packet := fun ⟨q, hq, _⟩ => not_asks hun q hq
  refine Or.inr ⟨_, replyMessage packet 4 [] [] (by decide) (by decide),
    buildResponse_unsupported hun redirectIp, ?_⟩
  exact {
    encoded := by
      rw [encode_replyMessage (by decide) (by decide) hzero]
      rfl
    room := (by decide : DNS_HEADER_LEN ≤ DNS_MAX_PACKET_LEN)
    id := rfl
    flags := ⟨rfl, rfl, rfl⟩
    records := ⟨rfl, rfl⟩
    echoed := List.nil_prefix
    answered := fun h => absurd h hnot
    unanswered := fun _ => rfl
    notimp := fun _ => rfl
    nxdomain := fun ⟨q, hq, _⟩ => absurd hq (not_asks hun q)
    noerror := fun ⟨q, hq, _⟩ => absurd hq (not_asks hun q) }

/-- **The replies are messages** just when no header alone is sent that counts a question. -/
theorem wellAnswered_iff (hlen : packet.length ≤ DNS_MAX_PACKET_LEN) (redirectIp : Ip4Addr) :
    WellAnswered packet redirectIp ↔ ¬(Unsupported packet ∧ qdCount packet ≠ 0) := by
  constructor
  · rintro hwell ⟨hun, hcount⟩
    exact not_wellAnswered hun hcount hwell
  · intro h
    rcases parseHeader_cases packet with ⟨hparse, -⟩ | ⟨-, hun⟩ | ⟨hparse, hquery, hop, hone⟩
    · refine Or.inl ?_
      rw [buildResponse, hparse]
    · exact wellAnswered_header hun (not_not.mp fun hne => h ⟨hun, hne⟩) redirectIp
    · cases hquestion : parseQuestion packet with
      | none =>
          refine Or.inl ?_
          rw [buildResponse, hparse, hquestion]
      | some x =>
          obtain ⟨q, hq, rfl⟩ := parseQuestion_eq_some_iff.mp hquestion
          exact wellAnswered_of_asks redirectIp hlen ⟨hquery, hop, hone, hq⟩ hparse hquestion

/-- **What is dropped**: no query, a standard query whose question is cut off, and a question that
leaves no room for its answer. -/
theorem buildResponse_eq_none_iff : buildResponse packet redirectIp = none ↔
    ¬IsQuery packet ∨
    (opcode packet = 0 ∧ qdCount packet = 1 ∧ ∀ q, ¬Asks packet q) ∨
    ∃ q, Asks packet q ∧ q.qtype = DNS_TYPE_A ∧ q.qclass = DNS_CLASS_IN ∧ ¬Blocked q.name ∧
      DNS_HEADER_LEN + q.encode.length + DNS_ANSWER_LEN > DNS_MAX_PACKET_LEN := by
  rcases parseHeader_cases packet with ⟨hparse, hnot⟩ | ⟨hparse, hun⟩ | ⟨hparse, hquery, hop, hone⟩
  · rw [buildResponse, hparse]
    exact iff_of_true rfl (Or.inl hnot)
  · rw [buildResponse, hparse]
    refine iff_of_false (by simp) ?_
    rintro (hnot | ⟨hop, hone, -⟩ | ⟨q, hq, -⟩)
    · exact hnot hun.1
    · exact hun.2.elim (fun h => h hop) fun h => h hone
    · exact not_asks hun q hq
  · cases hquestion : parseQuestion packet with
    | none =>
        rw [buildResponse, hparse, hquestion]
        refine iff_of_true rfl (Or.inr (Or.inl ⟨hop, hone, fun q hq => ?_⟩))
        rw [parseQuestion_eq_some_iff.mpr ⟨q, hq.question, rfl⟩] at hquestion
        cases hquestion
    | some x =>
        obtain ⟨q, hq, rfl⟩ := parseQuestion_eq_some_iff.mp hquestion
        have hasks : Asks packet q := ⟨hquery, hop, hone, hq⟩
        have hblocked : isAdguardInjectionDomain (responseHeader packet DNS_RCODE_NOERROR) = true ↔
            Blocked q.name := isAdguardInjectionDomain_response hasks
        have hright : (¬IsQuery packet ∨ (opcode packet = 0 ∧ qdCount packet = 1 ∧
            ∀ q, ¬Asks packet q) ∨ ∃ q, Asks packet q ∧ q.qtype = DNS_TYPE_A ∧
              q.qclass = DNS_CLASS_IN ∧ ¬Blocked q.name ∧
              DNS_HEADER_LEN + q.encode.length + DNS_ANSWER_LEN > DNS_MAX_PACKET_LEN) ↔
            q.qtype = DNS_TYPE_A ∧ q.qclass = DNS_CLASS_IN ∧ ¬Blocked q.name ∧
              DNS_HEADER_LEN + q.encode.length + DNS_ANSWER_LEN > DNS_MAX_PACKET_LEN := by
          constructor
          · rintro (hnot | ⟨-, -, hnone⟩ | ⟨q', hq', h⟩)
            · exact absurd hquery hnot
            · exact absurd hasks (hnone q)
            · obtain rfl := hasks.unique hq'
              exact h
          · intro h
            exact Or.inr (Or.inr ⟨q, hasks, h⟩)
        rw [hright, buildResponse, hparse, hquestion]
        dsimp only
        split
        · rename_i hclass
          exact iff_of_false (by simp) fun h => hclass h.2.1
        split
        · rename_i hname
          exact iff_of_false (by simp) fun h => h.2.2.1 (hblocked.mp hname)
        split
        · rename_i htype
          exact iff_of_false (by simp) fun h => htype h.1
        rename_i hclass hname htype
        split
        · rename_i hfull
          exact iff_of_true rfl ⟨not_not.mp htype, not_not.mp hclass, mt hblocked.mpr hname, hfull⟩
        · rename_i hfits
          exact iff_of_false (by simp) fun h => hfits h.2.2.2

end Replies

/-! ## Two questions -/

def captive : Ip4Addr := #v[192, 168, 4, 1]

/-- The name `a`, type A, class IN. -/
def questionBytes : List UInt8 := [1, 97, 0, 0, 1, 0, 1]

def oneQuestion : List UInt8 := [0, 7, 1, 0, 0, 1, 0, 0, 0, 0, 0, 0] ++ questionBytes

def twoQuestions : List UInt8 :=
  [0, 7, 1, 0, 0, 2, 0, 0, 0, 0, 0, 0] ++ questionBytes ++ questionBytes

theorem wellAnswered_iff_oneQuestion : WellAnswered oneQuestion captive := by
  refine (wellAnswered_iff (by decide) captive).mpr ?_
  rintro ⟨⟨-, hop | hone⟩, -⟩
  · exact hop (by decide)
  · exact hone (by decide)

/-- The reply has no question, and counts two. -/
theorem two_questions_counted :
    ¬∀ (packet : List UInt8) (redirectIp : Ip4Addr), 1 ≤ packet.length →
      packet.length ≤ DNS_MAX_PACKET_LEN → WellAnswered packet redirectIp := by
  intro h
  have hun : Unsupported twoQuestions := ⟨⟨by decide, by decide⟩, Or.inr (by decide)⟩
  exact not_wellAnswered hun (by decide) (h twoQuestions captive (by decide) (by decide))

example : buildResponse twoQuestions captive = some [0, 7, 129, 4, 0, 2, 0, 0, 0, 0, 0, 0] := by
  decide

end BleGateway.WifiProv.DnsPacket
