import Mathlib.Data.List.Basic

set_option autoImplicit false

/-! # Messages of the Domain Name System

The syntax of a message: a header with four counts, questions, and three lists of resource records.
A name is a list of labels, each with its length in front, and ends with an empty label; a record
may refer to a name by its offset. The bytes of a name and of a question end where they end, so
that what follows does not change how they are read.
-/

namespace Dns

/-! ## Numbers -/

/-- Two bytes, the most significant one first. -/
def be16 (v : UInt16) : List UInt8 := [UInt8.ofNat (v.toNat / 256), UInt8.ofNat (v.toNat % 256)]

/-- Four bytes, the most significant one first. -/
def be32 (v : UInt32) : List UInt8 :=
  be16 (UInt16.ofNat (v.toNat / 65536)) ++ be16 (UInt16.ofNat (v.toNat % 65536))

/-- The number in two bytes. -/
def fromBe16 (hi lo : UInt8) : UInt16 := UInt16.ofNat (hi.toNat * 256 + lo.toNat)

theorem toNat_fromBe16 (hi lo : UInt8) : (fromBe16 hi lo).toNat = hi.toNat * 256 + lo.toNat := by
  have hhi := hi.toNat_lt
  have hlo := lo.toNat_lt
  rw [fromBe16, UInt16.toNat_ofNat']
  omega

theorem be16_fromBe16 (hi lo : UInt8) : be16 (fromBe16 hi lo) = [hi, lo] := by
  have hlo := lo.toNat_lt
  have hdiv : (hi.toNat * 256 + lo.toNat) / 256 = hi.toNat := by omega
  have hmod : (hi.toNat * 256 + lo.toNat) % 256 = lo.toNat := by omega
  rw [be16, toNat_fromBe16, hdiv, hmod, UInt8.ofNat_toNat, UInt8.ofNat_toNat]

theorem fromBe16_be16 (v : UInt16) :
    fromBe16 (UInt8.ofNat (v.toNat / 256)) (UInt8.ofNat (v.toNat % 256)) = v := by
  have hv := v.toNat_lt
  rw [← UInt16.toNat_inj, toNat_fromBe16, UInt8.toNat_ofNat', UInt8.toNat_ofNat']
  omega

theorem be16_inj {v w : UInt16} (h : be16 v = be16 w) : v = w := by
  obtain ⟨hhi, hlo⟩ := List.cons.inj h
  rw [← fromBe16_be16 v, hhi, (List.cons.inj hlo).1, fromBe16_be16]

@[simp] theorem length_be16 (v : UInt16) : (be16 v).length = 2 := rfl

/-! ## Names -/

/-- A label, neither empty nor longer than 63 bytes. -/
structure Label where
  bytes : List UInt8
  nonempty : bytes ≠ []
  short : bytes.length ≤ 63
  deriving DecidableEq

theorem Label.ext {l l' : Label} (h : l.bytes = l'.bytes) : l = l' := by
  cases l
  cases l'
  cases h
  rfl

theorem Label.pos (l : Label) : 0 < l.bytes.length := List.length_pos_iff.mpr l.nonempty

/-- The length byte of a label. -/
def Label.size (l : Label) : UInt8 := UInt8.ofNat l.bytes.length

theorem Label.toNat_size (l : Label) : l.size.toNat = l.bytes.length := by
  have hshort := l.short
  rw [size, UInt8.toNat_ofNat']
  omega

abbrev Name := List Label

def encodeName : Name → List UInt8
  | [] => [0]
  | l :: n => l.size :: (l.bytes ++ encodeName n)

theorem length_encodeName_pos (n : Name) : 0 < (encodeName n).length := by
  cases n with
  | nil => exact Nat.zero_lt_one
  | cons l n => exact Nat.zero_lt_succ _

/-- **A name ends where it ends.** -/
theorem encodeName_append_inj {n n' : Name} {r r' : List UInt8}
    (h : encodeName n ++ r = encodeName n' ++ r') : n = n' ∧ r = r' := by
  induction n generalizing n' with
  | nil =>
      cases n' with
      | nil => exact ⟨rfl, (List.cons.inj h).2⟩
      | cons l n' =>
          have hsize := congrArg UInt8.toNat (List.cons.inj h).1
          rw [l.toNat_size] at hsize
          exact absurd hsize.symm (Nat.ne_of_gt l.pos)
  | cons l n ih =>
      cases n' with
      | nil =>
          have hsize := congrArg UInt8.toNat (List.cons.inj h).1
          rw [l.toNat_size] at hsize
          exact absurd hsize (Nat.ne_of_gt l.pos)
      | cons l' n' =>
          rw [encodeName, encodeName, List.cons_append, List.cons_append, List.append_assoc,
            List.append_assoc] at h
          obtain ⟨hsize, hrest⟩ := List.cons.inj h
          have hlen : l.bytes.length = l'.bytes.length := by
            rw [← l.toNat_size, ← l'.toNat_size, hsize]
          obtain ⟨hbytes, htail⟩ := List.append_inj hrest hlen
          obtain ⟨rfl, rfl⟩ := ih htail
          exact ⟨by rw [Label.ext hbytes], rfl⟩

/-! ## Questions -/

structure Question where
  name : Name
  qtype : UInt16
  qclass : UInt16
  deriving DecidableEq

def Question.encode (q : Question) : List UInt8 :=
  encodeName q.name ++ be16 q.qtype ++ be16 q.qclass

theorem Question.length_encode (q : Question) :
    q.encode.length = (encodeName q.name).length + 4 := by
  rw [encode, List.length_append, List.length_append, length_be16, length_be16]

/-- **A question ends where it ends.** -/
theorem Question.encode_append_inj {q q' : Question} {r r' : List UInt8}
    (h : q.encode ++ r = q'.encode ++ r') : q = q' ∧ r = r' := by
  simp only [encode, List.append_assoc] at h
  obtain ⟨hname, htail⟩ := encodeName_append_inj h
  obtain ⟨htype, htail⟩ := List.append_inj htail rfl
  obtain ⟨hclass, hrest⟩ := List.append_inj htail rfl
  cases q
  cases q'
  cases hname
  cases be16_inj htype
  cases be16_inj hclass
  exact ⟨rfl, hrest⟩

theorem Question.eq_of_prefix {q q' : Question} {l : List UInt8} (h : q.encode <+: l)
    (h' : q'.encode <+: l) : q = q' := by
  obtain ⟨r, hr⟩ := h
  obtain ⟨r', hr'⟩ := h'
  exact (encode_append_inj (hr.trans hr'.symm)).1

/-! ## Records -/

/-- The name that a record is about, in full or by its offset in the message. -/
inductive Owner
  | name (n : Name)
  | pointer (offset : Fin 16384)

def Owner.encode : Owner → List UInt8
  | name n => encodeName n
  | pointer offset => be16 (UInt16.ofNat (0xC000 + offset))

structure Record where
  owner : Owner
  type : UInt16
  cls : UInt16
  ttl : UInt32
  rdata : List UInt8
  fits : rdata.length < 65536

def Record.encode (r : Record) : List UInt8 :=
  r.owner.encode ++ be16 r.type ++ be16 r.cls ++ be32 r.ttl ++
    be16 (UInt16.ofNat r.rdata.length) ++ r.rdata

/-! ## Messages -/

/-- The second pair of bytes of a header. -/
structure Flags where
  qr : Bool
  opcode : Fin 16
  aa : Bool := false
  tc : Bool := false
  rd : Bool
  ra : Bool := false
  z : Fin 8 := 0
  rcode : Fin 16
  deriving DecidableEq

def Flags.encode (f : Flags) : List UInt8 :=
  [UInt8.ofNat (128 * f.qr.toNat + 8 * f.opcode + 4 * f.aa.toNat + 2 * f.tc.toNat + f.rd.toNat),
    UInt8.ofNat (128 * f.ra.toNat + 16 * f.z + f.rcode)]

/-- A message; its lists are short enough to be counted. -/
structure Message where
  id : UInt16
  flags : Flags
  questions : List Question
  answers : List Record := []
  authority : List Record := []
  additional : List Record := []
  counted : questions.length < 65536 ∧ answers.length < 65536 ∧ authority.length < 65536 ∧
    additional.length < 65536

/-- The header, whose counts are the lengths of the lists. -/
def Message.header (m : Message) : List UInt8 :=
  be16 m.id ++ m.flags.encode ++ be16 (UInt16.ofNat m.questions.length) ++
    be16 (UInt16.ofNat m.answers.length) ++ be16 (UInt16.ofNat m.authority.length) ++
    be16 (UInt16.ofNat m.additional.length)

def Message.encode (m : Message) : List UInt8 :=
  m.header ++ m.questions.flatMap Question.encode ++ m.answers.flatMap Record.encode ++
    m.authority.flatMap Record.encode ++ m.additional.flatMap Record.encode

theorem Message.length_header (m : Message) : m.header.length = 12 := rfl

/-- A message of a header alone asks nothing. -/
theorem Message.questions_of_length {m : Message} (h : m.encode.length ≤ 12) :
    m.questions = [] := by
  cases hq : m.questions with
  | nil => rfl
  | cons q qs =>
      have hpos : 0 < q.encode.length := by
        rw [q.length_encode]
        omega
      have hlen := m.length_header
      simp only [encode, hq, List.length_append, List.flatMap_cons] at h
      omega

/-- The count of questions, read back from a message. -/
theorem Message.questionCount (m : Message) :
    fromBe16 (m.encode.getD 4 0) (m.encode.getD 5 0) = UInt16.ofNat m.questions.length :=
  fromBe16_be16 (UInt16.ofNat m.questions.length)

end Dns
