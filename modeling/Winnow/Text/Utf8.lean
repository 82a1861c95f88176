namespace Winnow

def utf8Bytes (c : Char) : List Nat :=
  let n := c.toNat
  let later (shift : Nat) : Nat := 0x80 + n / shift % 0x40
  if n < 0x80 then [n]
  else if n < 0x800 then [0xC0 + n / 0x40, later 1]
  else if n < 0x10000 then [0xE0 + n / 0x1000, later 0x40, later 1]
  else [0xF0 + n / 0x40000, later 0x1000, later 0x40, later 1]

/-- What the first byte of a character beyond ASCII says: the bits it gives, the bounds of the byte
after it, and how many bytes follow that one. -/
structure LeadByte where
  bits : Nat
  low : Nat := 0x80
  high : Nat := 0xBF
  more : Nat

def LeadByte.ofByte? (b : Nat) : Option LeadByte :=
  if b < 0xC2 then none
  else if b < 0xE0 then some { bits := b - 0xC0, more := 0 }
  else if b = 0xE0 then some { bits := 0, low := 0xA0, more := 1 }
  else if b = 0xED then some { bits := 0xD, high := 0x9F, more := 1 }
  else if b < 0xF0 then some { bits := b - 0xE0, more := 1 }
  else if b = 0xF0 then some { bits := 0, low := 0x90, more := 2 }
  else if b < 0xF4 then some { bits := b - 0xF0, more := 2 }
  else if b = 0xF4 then some { bits := 4, high := 0x8F, more := 2 }
  else none

def replacementSign : Char := Char.ofNat 0xFFFD

/-- Reads characters. Within one, `n` holds the bits so far, the next byte lies between `low` and
`high`, and `more` bytes follow it. -/
def readUtf8 : Option (Nat × LeadByte) → List Nat → List Char
  | none, [] => []
  | some _, [] => [replacementSign]
  | some (n, lead), b :: bs =>
    if lead.low ≤ b && b ≤ lead.high then
      let n := n * 0x40 + (b - 0x80)
      match lead.more with
      | 0 => Char.ofNat n :: readUtf8 none bs
      | more + 1 => readUtf8 (some (n, { bits := 0, more })) bs
    else if b < 0x80 then replacementSign :: Char.ofNat b :: readUtf8 none bs
    else match LeadByte.ofByte? b with
      | some lead => replacementSign :: readUtf8 (some (lead.bits, lead)) bs
      | none => replacementSign :: replacementSign :: readUtf8 none bs
  | none, b :: bs =>
    if b < 0x80 then Char.ofNat b :: readUtf8 none bs
    else match LeadByte.ofByte? b with
      | some lead => readUtf8 (some (lead.bits, lead)) bs
      | none => replacementSign :: readUtf8 none bs

def ofUtf8 (bytes : List Nat) : List Char := readUtf8 none bytes

end Winnow
