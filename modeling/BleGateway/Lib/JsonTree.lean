import Mathlib.Data.Rat.Defs

set_option autoImplicit false

/-! # JSON trees

A parsed JSON text as the usual C libraries present it: the members of an object in order, with
whatever keys the text repeats, and a lookup that takes the first member of a key and finds
nothing in a value that is no object. Strings are bytes.
-/

/-- A JSON value. Numbers are the rationals that a floating-point value stands for. -/
inductive Json
  | null
  | bool (b : Bool)
  | number (v : ℚ)
  | string (s : List UInt8)
  | array (items : List Json)
  | object (members : List (List UInt8 × Json))
  deriving Inhabited

namespace Json

/-- The first member whose key passes `test`. -/
def member (test : List UInt8 → Bool) : Json → Option Json
  | object members => (members.find? fun m => test m.1).map Prod.snd
  | _ => none

/-- The first member with the key `key`. -/
def get (j : Json) (key : List UInt8) : Option Json := j.member fun k => k = key

def isNull : Json → Bool
  | null => true
  | _ => false

def isObject : Json → Bool
  | object _ => true
  | _ => false

def isNumber : Json → Bool
  | number _ => true
  | _ => false

def isString : Json → Bool
  | string _ => true
  | _ => false

/-- The bytes of a string. -/
def stringValue : Json → Option (List UInt8)
  | string s => some s
  | _ => none

end Json
