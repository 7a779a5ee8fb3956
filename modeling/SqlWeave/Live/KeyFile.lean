import SqlWeave.Fault
import SqlWeave.Text.Utf8

/-!
# Key files

A key can be kept in a file, which holds UTF-8 text, in which every line end counts as a
line feed.  What the paths lead to is given: `Files` says for each of them which octets
are there, or why they cannot be read.  `inHome` are the files of a home directory, which
a path names by a leading tilde; all other paths lead nowhere there.
-/

namespace SqlWeave

/-- What is found at every path: the octets of a file, or a failure to read them. -/
abbrev Files := String → Except { f : Fault // f.isFailure = true } (List Nat)

namespace KeyFile

/-- The parts of a path; empty ones and dots say nothing. -/
def parts (path : List Char) : List (List Char) :=
  (splitSlashes path).filter fun part => part != [] && part != ['.']
where
  /-- The text between slashes. -/
  splitSlashes : List Char → List (List Char)
    | [] => [[]]
    | c :: rest =>
      if c == '/' then [] :: splitSlashes rest
      else match splitSlashes rest with
        | [] => [[c]]
        | part :: others => (c :: part) :: others

/-- A path as it is shown: without parts that say nothing. -/
def shown (path : List Char) : List Char :=
  let root := if path.head? == some '/' then ['/'] else []
  match root ++ List.intercalate ['/'] (parts path) with
  | [] => ['.']
  | s => s

/-- The text with every line end as a line feed. -/
def unifyLines : List Char → List Char
  | '\r' :: '\n' :: rest => '\n' :: unifyLines rest
  | '\r' :: rest => '\n' :: unifyLines rest
  | c :: rest => c :: unifyLines rest
  | [] => []

/-- The text of a file. -/
def textOf (octets : List Nat) : Result String :=
  match Text.decodeUtf8 octets with
  | .ok s => .ok (String.ofList (unifyLines s))
  | .error (position, fault) =>
    .error (.file (.undecodable fault.octet position (position + fault.count) fault.reason))

/-- Reads the file that a path names. -/
def read (files : Files) (path : String) : Result String :=
  match files path with
  | .ok octets => textOf octets
  | .error f => .error f

/-- A path at which no file can be read. -/
def unreadable (fault : FileFault) : Except { f : Fault // f.isFailure = true } (List Nat) :=
  .error ⟨.file fault, by cases fault <;> rfl⟩

/-- The files of a home directory. -/
def inHome (home : List (String × List Nat)) : Files := fun path =>
  let steps := parts path.toList
  if path.toList.contains '\x00' then unreadable .nulInPath
  else if path.toList.head? == some '/' then
    let fault := if steps == [] then FileFault.isDirectory else FileFault.missing
    unreadable (fault (String.ofList (shown path.toList)))
  else match steps with
    | ['~'] :: [] => unreadable (.isDirectory "~")
    | ['~'] :: names =>
      let name := String.ofList (List.intercalate ['/'] names)
      match home.lookup name with
      | some octets => .ok octets
      | none => unreadable (.missing ("~/" ++ name))
    | ('~' :: _) :: _ => unreadable .unknownHome
    | steps =>
      let fault := if steps.all (· == ['.', '.']) then FileFault.isDirectory else FileFault.missing
      unreadable (fault (String.ofList (shown path.toList)))

end KeyFile

end SqlWeave
