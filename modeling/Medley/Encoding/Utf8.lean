/-!
UTF-8. `next` reads one character at the front of the bytes or says how many bytes
cannot begin one and why; `decode` stops there, `decodeLossy` puts U+FFFD and goes on.
-/
namespace Medley.Encoding

abbrev Bytes := List UInt8

namespace Utf8

def encodeChar (c : Char) : Bytes :=
  let n := c.toNat
  if n < 0x80 then [n.toUInt8]
  else if n < 0x800 then [(0xC0 + n / 0x40).toUInt8, (0x80 + n % 0x40).toUInt8]
  else if n < 0x10000 then
    [(0xE0 + n / 0x1000).toUInt8, (0x80 + n / 0x40 % 0x40).toUInt8, (0x80 + n % 0x40).toUInt8]
  else
    [(0xF0 + n / 0x40000).toUInt8, (0x80 + n / 0x1000 % 0x40).toUInt8,
     (0x80 + n / 0x40 % 0x40).toUInt8, (0x80 + n % 0x40).toUInt8]

def encode (s : List Char) : Bytes := s.flatMap encodeChar

inductive Reason where
  | invalidStart
  | invalidContinuation
  | unexpectedEnd
  deriving DecidableEq, Repr

/-- What stands at the front: a character of `width` bytes, or `width` bytes that
begin none. -/
inductive Step where
  | char (c : Char) (width : Nat)
  | bad (width : Nat) (reason : Reason)
  deriving Repr

def continues (b : Nat) : Bool := 0x80 ≤ b && b < 0xC0

/- The second byte of a long sequence may not make it overlong, a surrogate or too large. -/
def continuesAfter (first second : Nat) : Bool :=
  continues second &&
    !(first == 0xE0 && second < 0xA0) && !(first == 0xED && 0xA0 ≤ second) &&
    !(first == 0xF0 && second < 0x90) && !(first == 0xF4 && 0x90 ≤ second)

/- Continuation bytes after `first`, of which `owed` are still to come; `value` holds the bits so
far and `seen` how many bytes were read. -/
def tail (first : Nat) : Nat → Nat → Nat → List Nat → Step
  | 0, value, seen, _ => .char (Char.ofNat value) seen
  | _ + 1, _, seen, [] => .bad seen .unexpectedEnd
  | owed + 1, value, seen, b :: rest =>
      if (if seen = 1 then continuesAfter first b else continues b) then
        tail first owed (value * 0x40 + (b - 0x80)) (seen + 1) rest
      else .bad seen .invalidContinuation

def next (first : UInt8) (rest : Bytes) : Step :=
  let b := first.toNat
  let rest := (rest.take 3).map UInt8.toNat
  if b < 0x80 then .char (Char.ofNat b) 1
  else if b < 0xC2 then .bad 1 .invalidStart
  else if b < 0xE0 then tail b 1 (b - 0xC0) 1 rest
  else if b < 0xF0 then tail b 2 (b - 0xE0) 1 rest
  else if b < 0xF5 then tail b 3 (b - 0xF0) 1 rest
  else .bad 1 .invalidStart

structure Fault where
  start : Nat
  width : Nat
  first : UInt8
  reason : Reason
  deriving DecidableEq, Repr

/- `skip` bytes belong to the character already read; `at` counts the bytes passed. -/
def decodeFrom (pos : Nat) : Nat → Bytes → Except Fault (List Char)
  | _, [] => .ok []
  | skip + 1, _ :: rest => decodeFrom (pos + 1) skip rest
  | 0, b :: rest => match next b rest with
    | .char c width => (decodeFrom (pos + 1) (width - 1) rest).map (c :: ·)
    | .bad width reason => .error ⟨pos, width, b, reason⟩

def decode (bytes : Bytes) : Except Fault (List Char) := decodeFrom 0 0 bytes

def decodeLossyFrom : Nat → Bytes → List Char
  | _, [] => []
  | skip + 1, _ :: rest => decodeLossyFrom skip rest
  | 0, b :: rest => match next b rest with
    | .char c width => c :: decodeLossyFrom (width - 1) rest
    | .bad width _ => '\uFFFD' :: decodeLossyFrom (width - 1) rest

def decodeLossy (bytes : Bytes) : List Char := decodeLossyFrom 0 bytes

end Utf8
end Medley.Encoding
