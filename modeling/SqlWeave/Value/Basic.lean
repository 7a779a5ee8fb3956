import SqlWeave.Calendar
import SqlWeave.Number.Binary64
import SqlWeave.Number.Decimal

/-!
# Values

Query parameters, rows, options and answers are dynamic values.  A mapping is its
entries in insertion order, with keys of any kind; `insertEntry` keeps a repeated
key at its first place with its last value.  Keys are compared as numbers when
they are numbers: `1`, `1.0` and `true` are one key.
-/

namespace SqlWeave

open Number

/-- The flags of one query; `none` is a flag that nobody set. -/
structure QueryConfig where
  /-- Hand out the driver's rows and fields untouched. -/
  nativeQuery : Option Bool := none
  /-- Leave column names as the database spells them. -/
  keepCasing : Option Bool := none
  deriving DecidableEq, Repr

/-- A dynamic value. -/
inductive Value
  | null
  | bool (b : Bool)
  | int (n : Int)
  | str (s : String)
  | float (x : Binary64)
  | decimal (d : Decimal)
  | bytes (octets : List Nat)
  | date (d : Date)
  | datetime (d : Date) (t : Clock)
  | time (t : Clock)
  | duration (d : Duration)
  | list (items : List Value)
  | tuple (items : List Value)
  | set (items : List Value)
  | frozenset (items : List Value)
  | map (entries : List (Value × Value))
  /-- What a statement without rows reports: affected rows, the last insert
  identifier, the number of warnings and the server's message. -/
  | header (affectedRows insertId warningCount info : Value)
  | queryConfig (config : QueryConfig)
  /-- The `k`-th connection pool. -/
  | pool (k : Nat)
  /-- The `k`-th driver connection. -/
  | connection (k : Nat)
  /-- The in-memory backend. -/
  | memoryBackend
  deriving Repr, Inhabited

namespace Value

mutual

/-- Are two values of one kind, with the same parts? -/
def equals : Value → Value → Bool
  | null, null => true
  | bool a, bool b => a == b
  | int m, int n => m == n
  | str s, str t => s == t
  | float x, float y => x == y
  | decimal x, decimal y => x == y
  | bytes xs, bytes ys => xs == ys
  | date d, date e => d == e
  | datetime d t, datetime e u => d == e && t == u
  | time t, time u => t == u
  | duration d, duration e => d == e
  | list xs, list ys => equalItems xs ys
  | tuple xs, tuple ys => equalItems xs ys
  | set xs, set ys => equalItems xs ys
  | frozenset xs, frozenset ys => equalItems xs ys
  | map xs, map ys => equalEntries xs ys
  | header a b c d, header a' b' c' d' => equals a a' && equals b b' && equals c c' && equals d d'
  | queryConfig c, queryConfig d => c == d
  | pool j, pool k => j == k
  | connection j, connection k => j == k
  | memoryBackend, memoryBackend => true
  | _, _ => false

/-- Are two lists of values the same item by item? -/
def equalItems : List Value → List Value → Bool
  | [], [] => true
  | x :: xs, y :: ys => equals x y && equalItems xs ys
  | _, _ => false

/-- Are two lists of entries the same entry by entry? -/
def equalEntries : List (Value × Value) → List (Value × Value) → Bool
  | [], [] => true
  | (j, x) :: xs, (k, y) :: ys => equals j k && equals x y && equalEntries xs ys
  | _, _ => false

end

instance : BEq Value := ⟨equals⟩

/-- The name of the value's type, as messages spell it. -/
def typeName : Value → String
  | null => "NoneType"
  | bool _ => "bool"
  | int _ => "int"
  | str _ => "str"
  | float _ => "float"
  | decimal _ => "Decimal"
  | bytes _ => "bytes"
  | date _ => "date"
  | datetime .. => "datetime"
  | time _ => "time"
  | duration _ => "timedelta"
  | list _ => "list"
  | tuple _ => "tuple"
  | set _ => "set"
  | frozenset _ => "frozenset"
  | map _ => "dict"
  | header .. => "ResultSetHeader"
  | queryConfig _ => "QueryConfig"
  | pool _ => "Pool"
  | connection _ => "Connection"
  | memoryBackend => "MockBackend"

/-- The exact value of a number as a fraction with a positive denominator; truth
values count as zero and one. -/
def ratio? : Value → Option (Int × Nat)
  | bool b => some (if b then 1 else 0, 1)
  | int n => some (n, 1)
  | float (.finite negative m q) =>
    let n : Int := m * power 2 q.toNat
    some (if negative then -n else n, power 2 (-q).toNat)
  | decimal (.finite negative c e) =>
    let n : Int := c * power 10 e.toNat
    some (if negative then -n else n, power 10 (-e).toNat)
  | _ => none

/-- The sign of an infinite number: is it negative? -/
def infinity? : Value → Option Bool
  | float (.infinite negative) => some negative
  | decimal (.infinite negative) => some negative
  | _ => none

/-- A not-a-number, which is no other key and not even itself. -/
def isNaN : Value → Bool
  | float .nan => true
  | decimal (.nan ..) => true
  | _ => false

/-- Are two values other than sequences one key?  Numbers are compared by their value. -/
def sameScalar (x y : Value) : Bool :=
  match ratio? x, ratio? y with
  | some (n, d), some (n', d') => n * d' == n' * d
  | none, none =>
    match infinity? x, infinity? y with
    | some negative, some negative' => negative == negative'
    | none, none => !x.isNaN && x == y
    | _, _ => false
  | _, _ => false

mutual

/-- Are two values one key? -/
def sameKey : Value → Value → Bool
  | tuple xs, tuple ys => sameKeys xs ys
  | frozenset xs, frozenset ys => sameKeys xs ys
  | x, y => sameScalar x y

/-- Are two sequences one key item by item? -/
def sameKeys : List Value → List Value → Bool
  | [], [] => true
  | x :: xs, y :: ys => sameKey x y && sameKeys xs ys
  | _, _ => false

end

/-- The entries with `key` set to `value`: in place when the key is there, else at
the end. -/
def insertEntry (key value : Value) : List (Value × Value) → List (Value × Value)
  | [] => [(key, value)]
  | (k, v) :: rest =>
    if sameKey k key then (k, value) :: rest else (k, v) :: insertEntry key value rest

/-- The mapping with these entries, later ones replacing earlier ones. -/
def ofEntries (entries : List (Value × Value)) : Value :=
  map (entries.foldl (fun acc e => insertEntry e.1 e.2 acc) [])

/-- The value under a text key. -/
def find? (key : String) : List (Value × Value) → Option Value
  | [] => none
  | (str k, v) :: rest => if k == key then some v else find? key rest
  | _ :: rest => find? key rest

/-- A mapping with text keys. -/
def record (fields : List (String × Value)) : Value :=
  map (fields.map fun f => (str f.1, f.2))

/-- A text value of a list of characters. -/
def ofChars (s : List Char) : Value :=
  str (String.ofList s)

/-- Does the value count as true?  Zero of any kind, empty texts and empty
sequences do not; a mapping always does. -/
def isTruthy : Value → Bool
  | null => false
  | bool b => b
  | int n => n != 0
  | str s => s != ""
  | float x => !x.isZero
  | decimal d => !d.isZero
  | bytes octets => !octets.isEmpty
  | duration d => !d.isZero
  | list items => !items.isEmpty
  | tuple items => !items.isEmpty
  | set items => !items.isEmpty
  | frozenset items => !items.isEmpty
  | _ => true

/-- Like `isTruthy`, but an empty mapping does not count as true. -/
def isNonempty : Value → Bool
  | map entries => !entries.isEmpty
  | v => v.isTruthy

end Value
end SqlWeave
