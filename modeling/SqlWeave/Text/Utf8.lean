/-!
# UTF-8

Octets are decoded to characters one scalar value at a time.  Where no scalar value
starts, a run of octets is malformed: as many as could start one, at least one.
A strict reading stops there and tells where and why; a lenient one puts a
replacement character in the place of the run.
-/

namespace SqlWeave.Text

/-- A malformed run of octets. -/
structure Utf8Fault where
  /-- The first octet of the run. -/
  octet : Nat
  /-- The number of octets of the run. -/
  count : Nat
  reason : String
  deriving DecidableEq, Repr

/-- The octets that may follow a leading one: how many, and the bounds of the first
of them. -/
def continuation? (lead : Nat) : Option (Nat × Nat × Nat) :=
  if 0xC2 ≤ lead && lead ≤ 0xDF then some (1, 0x80, 0xBF)
  else if lead = 0xE0 then some (2, 0xA0, 0xBF)
  else if lead = 0xED then some (2, 0x80, 0x9F)
  else if 0xE1 ≤ lead && lead ≤ 0xEF then some (2, 0x80, 0xBF)
  else if lead = 0xF0 then some (3, 0x90, 0xBF)
  else if lead = 0xF4 then some (3, 0x80, 0x8F)
  else if 0xF1 ≤ lead && lead ≤ 0xF3 then some (3, 0x80, 0xBF)
  else none

/-- Reads `needed` continuation octets onto the number `acc`, after `taken` octets
of the scalar value; the first one lies between `lo` and `hi`. -/
def takeContinuation (lead acc taken lo hi : Nat) :
    Nat → List Nat → Except Utf8Fault (Nat × List Nat)
  | 0, rest => .ok (acc, rest)
  | _ + 1, [] => .error ⟨lead, taken, "unexpected end of data"⟩
  | needed + 1, b :: rest =>
    if lo ≤ b && b ≤ hi then
      takeContinuation lead (acc * 64 + (b - 0x80)) (taken + 1) 0x80 0xBF needed rest
    else .error ⟨lead, taken, "invalid continuation byte"⟩

/-- The scalar value at the start of nonempty octets, and the octets behind it. -/
def cutScalar (lead : Nat) (rest : List Nat) : Except Utf8Fault (Char × List Nat) :=
  if lead < 0x80 then .ok (Char.ofNat lead, rest)
  else
    match continuation? lead with
    | none => .error ⟨lead, 1, "invalid start byte"⟩
    | some (needed, lo, hi) =>
      let bits := if needed = 1 then lead - 0xC0 else if needed = 2 then lead - 0xE0 else lead - 0xF0
      (takeContinuation lead bits 1 lo hi needed rest).map fun r => (Char.ofNat r.1, r.2)

/-- Decodes octets behind `position` others; every step takes at least one. -/
def decodeUtf8From (position : Nat) (octets : List Nat) :
    Nat → Except (Nat × Utf8Fault) (List Char)
  | 0 => .ok []
  | fuel + 1 =>
    match octets with
    | [] => .ok []
    | lead :: rest =>
      match cutScalar lead rest with
      | .error fault => .error (position, fault)
      | .ok (c, tail) => do
        let next := position + (octets.length - tail.length)
        return c :: (← decodeUtf8From next tail fuel)

/-- Decodes octets, or tells the position and kind of the first malformed run. -/
def decodeUtf8 (octets : List Nat) : Except (Nat × Utf8Fault) (List Char) :=
  decodeUtf8From 0 octets octets.length

/-- Decodes octets with a replacement character for every malformed run. -/
def decodeUtf8Lenient (octets : List Nat) : Nat → List Char
  | 0 => []
  | fuel + 1 =>
    match octets with
    | [] => []
    | lead :: rest =>
      match cutScalar lead rest with
      | .error fault =>
        Char.ofNat 0xFFFD :: decodeUtf8Lenient (octets.drop (max fault.count 1)) fuel
      | .ok (c, tail) => c :: decodeUtf8Lenient tail fuel

end SqlWeave.Text
