/-!
# Reading bytes as UTF-8

Bytes are split into `Piece`s: characters, broken sequences and a last sequence that the end
of the bytes cut short.  A broken sequence is as long as it could have been part of a
character, so the byte that breaks it is looked at afresh.

* `decodeLossy` puts the replacement character for every piece that is no character.
* `decodeName` keeps the number of bytes, and gives such pieces a text that no name has.
* `decodeStrict` stops at the first such piece and says where it stands.
-/

namespace InlineCheck.Text

/-- A piece of a sequence of bytes. -/
inductive Piece
  /-- One character. -/
  | scalar (c : Char)
  /-- Bytes that begin no character. -/
  | broken (length : Nat)
  /-- The beginning of a character, cut off by the end of the bytes. -/
  | cut (length : Nat)

/-- A character of which some bytes are known. -/
structure Unfinished where
  /-- The bits gathered so far. -/
  bits : Nat
  /-- How many bytes were taken. -/
  taken : Nat
  /-- How many bytes are missing, less one. -/
  missing : Nat
  /-- The least value that the next byte may have. -/
  low : Nat
  /-- The greatest value that the next byte may have. -/
  high : Nat

/-- What a byte means where a character must begin. -/
inductive Lead
  | alone (c : Char)
  | begins (u : Unfinished)
  | stray

/-- The meaning of a byte where a character must begin.  The bounds on the second byte keep
out overlong forms, surrogates and values above the last code point. -/
def lead (b : Nat) : Lead :=
  if b < 0x80 then .alone (Char.ofNat b)
  else if b < 0xC2 then .stray
  else if b < 0xE0 then .begins ⟨b - 0xC0, 1, 0, 0x80, 0xBF⟩
  else if b = 0xE0 then .begins ⟨0, 1, 1, 0xA0, 0xBF⟩
  else if b = 0xED then .begins ⟨0xD, 1, 1, 0x80, 0x9F⟩
  else if b < 0xF0 then .begins ⟨b - 0xE0, 1, 1, 0x80, 0xBF⟩
  else if b = 0xF0 then .begins ⟨0, 1, 2, 0x90, 0xBF⟩
  else if b < 0xF4 then .begins ⟨b - 0xF0, 1, 2, 0x80, 0xBF⟩
  else if b = 0xF4 then .begins ⟨4, 1, 2, 0x80, 0x8F⟩
  else .stray

/-- The pieces of a sequence of bytes, the first of which may finish `u`. -/
def pieces : Option Unfinished → List UInt8 → List Piece
  | none, [] => []
  | some u, [] => [.cut u.taken]
  | none, b :: bs =>
    match lead b.toNat with
    | .alone c => .scalar c :: pieces none bs
    | .begins u => pieces (some u) bs
    | .stray => .broken 1 :: pieces none bs
  | some u, b :: bs =>
    if u.low ≤ b.toNat ∧ b.toNat ≤ u.high then
      let bits := u.bits * 64 + (b.toNat - 0x80)
      match u.missing with
      | 0 => .scalar (Char.ofNat bits) :: pieces none bs
      | m + 1 => pieces (some ⟨bits, u.taken + 1, m, 0x80, 0xBF⟩) bs
    else
      .broken u.taken ::
        match lead b.toNat with
        | .alone c => .scalar c :: pieces none bs
        | .begins u' => pieces (some u') bs
        | .stray => .broken 1 :: pieces none bs

/-- The character a piece is shown as. -/
def Piece.shown : Piece → Char
  | .scalar c => c
  | .broken _ => '\uFFFD'
  | .cut _ => '\uFFFD'

/-- The text of the bytes, with the replacement character for what is no UTF-8. -/
def decodeLossy (bytes : List UInt8) : String :=
  String.ofList ((pieces none bytes).map Piece.shown)

/-- The characters a piece of a name stands for.  Bytes that are no UTF-8 become zero
characters, which no name of a file holds. -/
def Piece.named : Piece → List Char
  | .scalar c => [c]
  | .broken n => List.replicate n '\x00'
  | .cut n => List.replicate n '\x00'

/-- The name of a file that bytes are, as long as the bytes.  It is the name of no file if they
are no UTF-8. -/
def decodeName (bytes : List UInt8) : String :=
  String.ofList ((pieces none bytes).flatMap Piece.named)

/-- Why bytes are not UTF-8: where the first bad piece starts, and its length unless the end
of the bytes cut it short. -/
structure Utf8Fault where
  start : Nat
  length : Option Nat
deriving DecidableEq, Repr

/-- The characters of the pieces, which start at byte `start`, or the first bad piece. -/
def scalars (start : Nat) : List Piece → Except Utf8Fault (List Char)
  | [] => .ok []
  | .scalar c :: rest => (scalars (start + c.utf8Size) rest).map (c :: ·)
  | .broken n :: _ => .error ⟨start, some n⟩
  | .cut _ :: _ => .error ⟨start, none⟩

/-- The text of the bytes, if all of them are UTF-8. -/
def decodeStrict (bytes : List UInt8) : Except Utf8Fault String :=
  (scalars 0 (pieces none bytes)).map String.ofList

/-- The wording of the fault. -/
def Utf8Fault.message : Utf8Fault → String
  | ⟨start, some n⟩ => s!"invalid utf-8 sequence of {n} bytes from index {start}"
  | ⟨start, none⟩ => s!"incomplete utf-8 byte sequence from index {start}"

/-- The bytes of a text. -/
def encode (text : String) : List UInt8 :=
  text.toUTF8.toList

end InlineCheck.Text
