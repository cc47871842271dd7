/-!
# UTF-8

Bytes are read one by one as a row of `Piece`s: characters, and the longest runs of bytes that
begin a character and cannot be continued. A text with such a run is refused (`decode?`), or gets
the replacement character in the run's place (`decodeLossy`).
-/

namespace WorkspaceAudit.Text.Utf8

/-- What bytes are read as. -/
inductive Piece where
  | char (c : Char)
  | broken
  deriving Repr, DecidableEq

/-- Between characters, or inside one: the bits read so far, how many bytes are missing, and the
range of the next one. -/
inductive State where
  | ready
  | within (bits : Nat) (missing : Nat) (low high : UInt8)
  deriving Repr, DecidableEq

/-- The first byte of a character. The range of the second byte leaves out overlong forms,
surrogates and what lies above the last code point. -/
def begin (b : UInt8) : List Piece × State :=
  if b < 0x80 then ([.char (Char.ofNat b.toNat)], .ready)
  else if b < 0xc2 then ([.broken], .ready)
  else if b < 0xe0 then ([], .within (b.toNat % 32) 1 0x80 0xbf)
  else if b == 0xe0 then ([], .within 0 2 0xa0 0xbf)
  else if b == 0xed then ([], .within 13 2 0x80 0x9f)
  else if b < 0xf0 then ([], .within (b.toNat % 16) 2 0x80 0xbf)
  else if b == 0xf0 then ([], .within 0 3 0x90 0xbf)
  else if b < 0xf4 then ([], .within (b.toNat % 8) 3 0x80 0xbf)
  else if b == 0xf4 then ([], .within 4 3 0x80 0x8f)
  else ([.broken], .ready)

/-- One more byte. A byte that cannot continue a character begins the next one. -/
def step : State → UInt8 → List Piece × State
  | .ready, b => begin b
  | .within bits missing low high, b =>
    if low ≤ b && b ≤ high then
      let bits := bits * 64 + b.toNat % 64
      if missing ≤ 1 then ([.char (Char.ofNat bits)], .ready)
      else ([], .within bits (missing - 1) 0x80 0xbf)
    else (.broken :: (begin b).1, (begin b).2)

/-- The bytes as characters and broken runs, from a state on. -/
def piecesFrom : State → List UInt8 → List Piece
  | .ready, [] => []
  | .within .., [] => [.broken]
  | st, b :: rest => (step st b).1 ++ piecesFrom (step st b).2 rest

/-- The text of the bytes, if they are all characters. -/
def decode? (bytes : List UInt8) : Option (List Char) :=
  (piecesFrom .ready bytes).mapM fun
    | .char c => some c
    | .broken => none

/-- The text of the bytes, with a replacement character for each broken run. -/
def decodeLossy (bytes : List UInt8) : List Char :=
  (piecesFrom .ready bytes).map fun
    | .char c => c
    | .broken => Char.ofNat 0xfffd

/-- The bytes of a character. -/
def encodeChar (c : Char) : List UInt8 :=
  let n := c.toNat
  if n < 0x80 then [n.toUInt8]
  else if n < 0x800 then [(0xc0 + n / 64).toUInt8, (0x80 + n % 64).toUInt8]
  else if n < 0x10000 then
    [(0xe0 + n / 4096).toUInt8, (0x80 + n / 64 % 64).toUInt8, (0x80 + n % 64).toUInt8]
  else
    [(0xf0 + n / 262144).toUInt8, (0x80 + n / 4096 % 64).toUInt8, (0x80 + n / 64 % 64).toUInt8,
      (0x80 + n % 64).toUInt8]

/-- The bytes of a text. -/
def encode (s : List Char) : List UInt8 :=
  s.flatMap encodeChar

end WorkspaceAudit.Text.Utf8
