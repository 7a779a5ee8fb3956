import SqlWeave.Text.Utf8
import SqlWeave.Value.Display

/-!
# Result sets

The driver presents one result set for each statement, one after another on a cursor.
A set with a description of its columns holds rows; one without reports what the
statement did.  `Cursor.read` goes through the sets and makes results and fields of them
that stay aligned: one entry for each statement in both, or the single entries themselves
when there is one statement.  Every step of a cursor can fail.
-/

namespace SqlWeave

/-- A result set as the driver presents it. -/
structure ResultSet where
  /-- The columns; an empty or missing description means that there are no rows. -/
  description : Value := .null
  rows : List Value := []
  rowCount : Value := .null
  lastRowId : Value := .null
  /-- What the server's raw answer says besides. -/
  raw : List (String × Value) := []

namespace ResultSet

/-- What a statement without rows affected, which is never negative. -/
def affectedRows (s : ResultSet) : Value :=
  match s.rowCount with
  | .int n => .int (max n 0)
  | _ => .int 0

/-- A value that counts as true, or a substitute. -/
def orElse (substitute : Value) (v : Value) : Value :=
  if v.isNonempty then v else substitute

/-- The server's message; octets are decoded leniently. -/
def info (s : ResultSet) : Value :=
  match orElse (.str "") ((s.raw.lookup "message").getD .null) with
  | .bytes octets => .ofChars (Text.decodeUtf8Lenient octets octets.length)
  | v => .ofChars v.display

/-- The entry of a set in the results. -/
def result (s : ResultSet) : Value :=
  if s.description.isNonempty then .list s.rows
  else
    .header s.affectedRows (orElse .null s.lastRowId)
      (orElse (.int 0) ((s.raw.lookup "warning_count").getD .null)) s.info

/-- The entry of a set in the fields. -/
def field (s : ResultSet) : Value :=
  if s.description.isNonempty then s.description else .null

/-- The set that a statement yields when nothing else is known: one row, `1`. -/
def standard : ResultSet where
  description := .list [.str "1"]
  rows := [.record [("1", .int 1)]]

end ResultSet

/-- A result set on a cursor, with the faults of type `ε` that the cursor meets there. -/
structure Presented (ε : Type) where
  set : ResultSet
  /-- In fetching the rows. -/
  fetching : Option ε := none
  /-- In going on to the next set. -/
  advancing : Option ε := none

/-- A cursor for a statement, with the faults of type `ε` that it meets. -/
structure Cursor (ε : Type) where
  opening : Option ε := none
  executing : Option ε := none
  presented : List (Presented ε)
  closing : Option ε := none

namespace Cursor

variable {ε : Type}

/-- A step that fails if it meets a fault. -/
def attempt : Option ε → Except ε Unit
  | some fault => .error fault
  | none => .ok ()

/-- The entries of the set that the cursor is at.  Rows are fetched only where there is a
description of them. -/
def entries (p : Presented ε) : Except ε (Value × Value) := do
  if p.set.description.isNonempty then attempt p.fetching
  return (p.set.result, p.set.field)

/-- Goes through the sets of a cursor; `results` and `fields` are the entries of those
before. -/
def gather (results fields : List Value) :
    List (Presented ε) → Except ε (List Value × List Value)
  | [] => .ok (results, fields)
  | p :: rest => do
    let (result, field) ← entries p
    attempt p.advancing
    gather (results ++ [result]) (fields ++ [field]) rest

/-- What is handed out of the entries: the single ones, or all of them. -/
def handOut : List Value × List Value → Value × Value
  | ([result], [field]) => (result, field)
  | (results, fields) => (.list results, .list fields)

/-- Runs the statement of a cursor, and closes the cursor in any case; a fault of the
closing goes before one from within. -/
def read (c : Cursor ε) : Except ε (Value × Value) := do
  attempt c.opening
  let gathered := do
    attempt c.executing
    gather [] [] c.presented
  attempt c.closing
  return handOut (← gathered)

end Cursor

/-- Results and fields of one or more statements, whose cursor meets no fault. -/
def ResultSet.collect (sets : List ResultSet) : Value × Value :=
  match ({ presented := sets.map ({ set := · }) } : Cursor Empty).read with
  | .ok gathered => gathered
  | .error fault => nomatch fault

end SqlWeave
