/-!
# Text as bytes

UTF-8 in both directions. Reading goes byte by byte: a lead byte opens a character, each further
byte must lie in the range that the bytes before it leave, and a byte that does not fit ends the run
read so far as undecodable and is looked at afresh.
-/

namespace DirLock.Text

def utf8Encode (text : List Char) : List UInt8 :=
  text.flatMap String.utf8EncodeChar

/-- A character of which some bytes are still missing. -/
structure Unfinished where
  /-- How many bytes are missing. -/
  missing : Nat
  /-- The least value that the next byte may have. -/
  low : Nat
  /-- The greatest value that the next byte may have. -/
  high : Nat
  /-- The bits read so far. -/
  code : Nat
  deriving DecidableEq, Repr

/-- What a byte outside any character opens. A byte that opens nothing is undecodable by itself. -/
def openChar (byte : UInt8) : List (Option Char) × Option Unfinished :=
  let b := byte.toNat
  if b < 0x80 then ([some (Char.ofNat b)], none)
  else if b < 0xc2 then ([none], none)
  else if b < 0xe0 then ([], some ⟨1, 0x80, 0xbf, b - 0xc0⟩)
  else if b = 0xe0 then ([], some ⟨2, 0xa0, 0xbf, 0⟩)
  else if b = 0xed then ([], some ⟨2, 0x80, 0x9f, 0x0d⟩)
  else if b < 0xf0 then ([], some ⟨2, 0x80, 0xbf, b - 0xe0⟩)
  else if b = 0xf0 then ([], some ⟨3, 0x90, 0xbf, 0⟩)
  else if b < 0xf4 then ([], some ⟨3, 0x80, 0xbf, b - 0xf0⟩)
  else if b = 0xf4 then ([], some ⟨3, 0x80, 0x8f, 4⟩)
  else ([none], none)

/-- Take one more byte: what is finished by it, and what stays open after it. -/
def feedByte (state : Option Unfinished) (byte : UInt8) : List (Option Char) × Option Unfinished :=
  match state with
  | none => openChar byte
  | some u =>
    if u.low ≤ byte.toNat ∧ byte.toNat ≤ u.high then
      let code := u.code * 64 + byte.toNat % 64
      if u.missing = 1 then ([some (Char.ofNat code)], none)
      else ([], some ⟨u.missing - 1, 0x80, 0xbf, code⟩)
    else
      let (out, next) := openChar byte
      (none :: out, next)

/-- The characters of the bytes, with `none` for each undecodable run. -/
def utf8Pieces : Option Unfinished → List UInt8 → List (Option Char)
  | none, [] => []
  | some _, [] => [none]
  | state, byte :: rest => (feedByte state byte).1 ++ utf8Pieces (feedByte state byte).2 rest

/-- The text that the bytes are the UTF-8 form of, if they are one. -/
def utf8Decode? (bytes : List UInt8) : Option (List Char) :=
  let pieces := utf8Pieces none bytes
  if pieces.all Option.isSome then some (pieces.filterMap id) else none

/-- The text of the bytes, with U+FFFD for each undecodable run. -/
def utf8DecodeLossy (bytes : List UInt8) : List Char :=
  (utf8Pieces none bytes).map (·.getD '\uFFFD')

def bytesOf (text : String) : List UInt8 :=
  utf8Encode text.toList

/-- The bytes as a string, undecodable runs replaced. -/
def lossyString (bytes : List UInt8) : String :=
  String.ofList (utf8DecodeLossy bytes)

end DirLock.Text
