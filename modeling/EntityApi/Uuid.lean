/-!
Random identifiers: 16 bytes in hexadecimal digits, in groups of 4, 2, 2, 2 and 6 bytes. Six of the
bits are not random and say what kind of identifier it is.
-/

namespace EntityApi.Uuid

def hexDigit (n : Nat) : Char := Nat.digitChar (n % 16)

/-- A byte whose high bits, those from the place value `unit` on, are set to `high`. -/
def marked (unit high : Nat) (b : UInt8) : UInt8 := UInt8.ofNat (high * unit + b.toNat % unit)

/-- The byte at a place, with the marks of a random identifier in the seventh and the ninth. -/
def byteAt (bytes : List UInt8) (i : Nat) : UInt8 :=
  let b := bytes.getD i 0
  if i == 6 then marked 16 4 b else if i == 8 then marked 64 2 b else b

/-- The places of the bytes of each group. -/
def groups : List (List Nat) := [[0, 1, 2, 3], [4, 5], [6, 7], [8, 9], [10, 11, 12, 13, 14, 15]]

def ofRandom (bytes : List UInt8) : String :=
  let hex (i : Nat) : List Char :=
    let n := (byteAt bytes i).toNat
    [hexDigit (n / 16), hexDigit n]
  "-".intercalate (groups.map fun g => String.ofList (g.flatMap hex))

end EntityApi.Uuid
