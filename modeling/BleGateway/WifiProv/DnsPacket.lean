import BleGateway.Types
import BleGateway.Lib.Dns

set_option autoImplicit false

/-! # Answers of the captive name server

`dns_packet.c`. A packet is the list of its bytes; the source changes it in place and returns how
many bytes to send. The bytes behind the question are written before they are sent, so that the
answer is appended here. Each of the loops has a bound on its steps, the length of the packet, which
it never reaches before the end of the packet.
-/

namespace BleGateway.WifiProv.DnsPacket

open Dns (be16)

def DNS_MAX_PACKET_LEN : Nat := 512
def DNS_HEADER_LEN : Nat := 12
def DNS_ANSWER_LEN : Nat := 16
def DNS_ANSWER_TTL_S : UInt16 := 30

def DNS_RCODE_NOERROR : UInt8 := 0
def DNS_RCODE_NXDOMAIN : UInt8 := 3
def DNS_RCODE_NOTIMP : UInt8 := 4

def DNS_TYPE_A : UInt16 := 1
def DNS_CLASS_IN : UInt16 := 1

/-- `esp_ip4_addr_t`, by its bytes in memory. -/
abbrev Ip4Addr := Vector UInt8 4

/-- The byte of a packet at an offset. -/
def byteAt (packet : List UInt8) (offset : Nat) : UInt8 := packet.getD offset 0

/-- `read_u16_be`. -/
def readU16Be (packet : List UInt8) (offset : Nat) : UInt16 :=
  (byteAt packet offset).toUInt16 <<< 8 ||| (byteAt packet (offset + 1)).toUInt16

/-- `write_u16_be`. -/
def writeU16Be (packet : List UInt8) (offset : Nat) (value : UInt16) : List UInt8 :=
  (packet.set offset (value >>> 8).toUInt8).set (offset + 1) (value &&& 0xFF).toUInt8

/-- `ascii_lower`. -/
def asciiLower (c : UInt8) : UInt8 := if 65 ≤ c ∧ c ≤ 90 then c + 32 else c

/-! ## Parsing -/

inductive DnsParseResult
  | ok | malformed | unsupported
  deriving DecidableEq

/-- `dns_parse_header`. -/
def parseHeader (packet : List UInt8) : DnsParseResult :=
  if packet.length < DNS_HEADER_LEN then .malformed
  else if byteAt packet 2 &&& 0x80 ≠ 0 then .malformed
  else if byteAt packet 2 &&& 0x78 ≠ 0 then .unsupported
  else if readU16Be packet 4 ≠ 1 then .unsupported
  else .ok

/-- The length byte does not stand for a label that lies in the packet behind `offset`. -/
def badLabel (packet : List UInt8) (labelLength : UInt8) (offset : Nat) : Bool :=
  labelLength &&& 0xC0 ≠ 0 || labelLength > 63 || offset + labelLength.toNat > packet.length

/-- The loop of `dns_parse_question` over the labels: where the name ends. -/
def nameEnd (packet : List UInt8) : Nat → Nat → Option Nat
  | 0, _ => none
  | fuel + 1, offset =>
      if offset ≥ packet.length then none
      else
        let labelLength := byteAt packet offset
        if labelLength = 0 then some (offset + 1)
        else if badLabel packet labelLength (offset + 1) then none
        else nameEnd packet fuel (offset + 1 + labelLength.toNat)

/-- `dns_question_t`. -/
structure DnsQuestion where
  qtype : UInt16
  qclass : UInt16
  questionEnd : Nat
  deriving DecidableEq

/-- `dns_parse_question`; `none` is `DNS_PARSE_MALFORMED`. -/
def parseQuestion (packet : List UInt8) : Option DnsQuestion :=
  match nameEnd packet packet.length DNS_HEADER_LEN with
  | none => none
  | some offset =>
      if offset + 4 > packet.length then none
      else
        some
          { qtype := readU16Be packet offset
            qclass := readU16Be packet (offset + 2)
            questionEnd := offset + 4 }

/-- The bytes of a label are those in front of `expected`, and no dot is among these. -/
def labelMatches (packet : List UInt8) (offset labelLength : Nat) (expected : CString) : Bool :=
  (List.range labelLength).all fun i =>
    match expected[i]? with
    | none => false
    | some c => c ≠ 46 && asciiLower (byteAt packet (offset + i)) = asciiLower c

/-- The loop of `question_name_equals`. -/
def nameEquals (packet : List UInt8) : Nat → Nat → CString → Bool
  | 0, _, _ => false
  | fuel + 1, offset, expected =>
      if offset ≥ packet.length then false
      else
        let labelLength := byteAt packet offset
        if labelLength = 0 then expected = []
        else if badLabel packet labelLength (offset + 1) then false
        else if !labelMatches packet (offset + 1) labelLength.toNat expected then false
        else
          match expected.drop labelLength.toNat with
          | [] => nameEquals packet fuel (offset + 1 + labelLength.toNat) []
          | c :: rest =>
              if c = 46 then nameEquals packet fuel (offset + 1 + labelLength.toNat) rest else false

/-- `question_name_equals`. -/
def questionNameEquals (packet : List UInt8) (expectedName : CString) : Bool :=
  nameEquals packet packet.length DNS_HEADER_LEN expectedName

/-- `is_adguard_injection_domain`. -/
def isAdguardInjectionDomain (packet : List UInt8) : Bool :=
  questionNameEquals packet (cstr "local.adguard.org") ||
    questionNameEquals packet (cstr "local.adguard.com")

/-! ## Responses -/

/-- The edits of the header that every response has. -/
def responseHeader (packet : List UInt8) (rcode : UInt8) : List UInt8 :=
  let rd := byteAt packet 2 &&& 0x01
  let packet := (packet.set 2 (0x80 ||| rd)).set 3 rcode
  writeU16Be (writeU16Be (writeU16Be packet 6 0) 8 0) 10 0

/-- The record behind the question. -/
def answer (redirectIp : Ip4Addr) : List UInt8 :=
  [0xC0, 0x0C] ++ be16 DNS_TYPE_A ++ be16 DNS_CLASS_IN ++ be16 0 ++ be16 DNS_ANSWER_TTL_S ++
    be16 4 ++ redirectIp.toList

/-- `dns_build_response`: the bytes to send, or `none` for `-1`. -/
def buildResponse (packet : List UInt8) (redirectIp : Ip4Addr) : Option (List UInt8) :=
  match parseHeader packet with
  | .malformed => none
  | .unsupported => some ((responseHeader packet DNS_RCODE_NOTIMP).take DNS_HEADER_LEN)
  | .ok =>
      match parseQuestion packet with
      | none => none
      | some question =>
          let packet := responseHeader packet DNS_RCODE_NOERROR
          if question.qclass ≠ DNS_CLASS_IN then
            some ((packet.set 3 DNS_RCODE_NOTIMP).take question.questionEnd)
          else if isAdguardInjectionDomain packet then
            some ((packet.set 3 DNS_RCODE_NXDOMAIN).take question.questionEnd)
          else if question.qtype ≠ DNS_TYPE_A then some (packet.take question.questionEnd)
          else if question.questionEnd + DNS_ANSWER_LEN > DNS_MAX_PACKET_LEN then none
          else some ((writeU16Be packet 6 1).take question.questionEnd ++ answer redirectIp)

end BleGateway.WifiProv.DnsPacket
