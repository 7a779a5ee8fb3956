import SqlWeave.Live.ResultSet

/-!
# Results and fields of a cursor

A cursor meets its faults in an order of precedence: a cursor that cannot be opened does nothing
else, and a fault of the closing goes before one that comes up while the sets are read.  Reading a
cursor is making the entries of all its sets, unless it meets a fault, in which case the first one
in that order is all that comes of it.

## Main results

* `gather_eq`: the entries of the sets are put behind those of the sets before.
* `read_eq`: what comes of a cursor.
* `read_isAligned`: results and fields have one entry for each set, in order.
-/

namespace SqlWeave

namespace Cursor

variable {α β ε : Type}

/-! ## Faults in order -/

/-- A value, unless there are faults, of which the first one counts. -/
def unlessFault (faults : List ε) (a : α) : Except ε α :=
  match faults with
  | [] => .ok a
  | fault :: _ => .error fault

/-- One thing after another: the faults of the first one go before those of the second one. -/
theorem unlessFault_bind (faults : List ε) (a : α) (next : α → List ε) (f : α → β) :
    (unlessFault faults a >>= fun x => unlessFault (next x) (f x)) =
      unlessFault (faults ++ next a) (f a) := by
  cases faults with
  | nil => rfl
  | cons fault rest => rfl

theorem attempt_eq (fault : Option ε) : attempt fault = unlessFault fault.toList () := by
  cases fault with
  | none => rfl
  | some fault => rfl

/-- The faults in reading a set: rows are fetched only where there is a description. -/
def readingFaults (p : Presented ε) : List ε :=
  if p.set.description.isNonempty then p.fetching.toList else []

/-- The faults with a set. -/
def faultsAt (p : Presented ε) : List ε :=
  readingFaults p ++ p.advancing.toList

/-- The faults that a cursor meets, in the order in which they go before each other. -/
def faults (c : Cursor ε) : List ε :=
  c.opening.toList ++ (c.closing.toList ++ (c.executing.toList ++ c.presented.flatMap faultsAt))

/-- The sets that a cursor presents. -/
def sets (c : Cursor ε) : List ResultSet :=
  c.presented.map Presented.set

/-! ## Reading -/

theorem entries_eq (p : Presented ε) :
    entries p = unlessFault (readingFaults p) (p.set.result, p.set.field) := by
  rw [entries, readingFaults]
  split
  · rw [attempt_eq]
    cases p.fetching with
    | none => rfl
    | some fault => rfl
  · rfl

/-- The entries of the sets are put behind those of the sets before, in results and fields
alike. -/
theorem gather_eq (results fields : List Value) (presented : List (Presented ε)) :
    gather results fields presented = unlessFault (presented.flatMap faultsAt)
      (results ++ presented.map (·.set.result), fields ++ presented.map (·.set.field)) := by
  induction presented generalizing results fields with
  | nil => rw [gather, List.map_nil, List.map_nil, List.append_nil, List.append_nil]; rfl
  | cons p rest ih =>
    have hStep : gather results fields (p :: rest) =
        entries p >>= fun e => attempt p.advancing >>= fun _ =>
          gather (results ++ [e.1]) (fields ++ [e.2]) rest := rfl
    simp only [hStep, entries_eq, attempt_eq, ih, unlessFault_bind, faultsAt, List.flatMap_cons,
      List.map_cons, List.append_assoc, List.singleton_append]

/-- What comes of a cursor: its first fault, or the entries of all its sets. -/
theorem read_eq (c : Cursor ε) : c.read = unlessFault c.faults
    (handOut (c.sets.map ResultSet.result, c.sets.map ResultSet.field)) := by
  have hStep : c.read = attempt c.opening >>= fun _ => attempt c.closing >>= fun _ =>
      (attempt c.executing >>= fun _ => gather [] [] c.presented) >>= fun gathered =>
        unlessFault [] (handOut gathered) := rfl
  simp only [hStep, attempt_eq, gather_eq, unlessFault_bind, faults, sets, List.nil_append,
    List.append_nil, List.map_map, Function.comp_def]

end Cursor

/-! ## Alignment -/

namespace ResultSet

/-- Results and fields of sets whose cursor meets no fault. -/
theorem collect_eq (sets : List ResultSet) :
    collect sets = Cursor.handOut (sets.map result, sets.map field) := by
  have hFaults : ({ presented := sets.map ({ set := · }) } : Cursor Empty).faults = [] := by
    have hAt : ∀ s : ResultSet, Cursor.faultsAt ({ set := s } : Presented Empty) = [] := by
      intro s
      rw [Cursor.faultsAt, Cursor.readingFaults]
      split <;> rfl
    simp [Cursor.faults, hAt]
  have hSets : ({ presented := sets.map ({ set := · }) } : Cursor Empty).sets = sets := by
    simp [Cursor.sets, Function.comp_def]
  rw [collect, Cursor.read_eq, hFaults, hSets]
  rfl

/-- What the entries of a set have to be: the rows with their description, or what was done, with
nothing; how much that affected is never negative. -/
def IsEntry (s : ResultSet) (result field : Value) : Prop :=
  if s.description.isNonempty then result = .list s.rows ∧ field = s.description
  else
    (∃ affected insertId warnings info, 0 ≤ affected ∧
      (∀ n, s.rowCount = .int n → affected = max n 0) ∧
      result = .header (.int affected) insertId warnings info) ∧ field = .null

theorem isEntry (s : ResultSet) : s.IsEntry s.result s.field := by
  rw [IsEntry, result, field]
  split
  · exact ⟨rfl, rfl⟩
  · refine ⟨?_, rfl⟩
    rw [affectedRows]
    split
    · rename_i n hCount
      refine ⟨max n 0, _, _, _, Int.le_max_right n 0, fun m hSame => ?_, rfl⟩
      rw [hCount] at hSame
      cases hSame
      rfl
    · rename_i hCount
      exact ⟨0, _, _, _, Int.le_refl 0, fun n hInt => absurd hInt (hCount n), rfl⟩

/-- Results and fields have one entry for each set, in the order of the sets. -/
structure Aligned (sets : List ResultSet) (results fields : List Value) : Prop where
  lengthResults : results.length = sets.length
  lengthFields : fields.length = sets.length
  entry : ∀ (i : Nat) (s : ResultSet), sets[i]? = some s →
    ∃ result field, results[i]? = some result ∧ fields[i]? = some field ∧ s.IsEntry result field

theorem aligned (sets : List ResultSet) : Aligned sets (sets.map result) (sets.map field) where
  lengthResults := List.length_map _
  lengthFields := List.length_map _
  entry := fun i s hSet => ⟨s.result, s.field, by rw [List.getElem?_map, hSet]; rfl,
    by rw [List.getElem?_map, hSet]; rfl, s.isEntry⟩

end ResultSet

namespace Cursor

variable {ε : Type}

/-- Results and fields stay aligned: if the cursor meets no fault they have one entry for each set
that it presents, in order, which is handed out by itself if it is the only one.  If it meets one
at any step there are no results, but only a fault that it met. -/
theorem read_isAligned (c : Cursor ε) :
    (c.faults = [] → c.read = .ok (ResultSet.collect c.sets)) ∧
      (c.faults ≠ [] → ∃ fault ∈ c.faults, c.read = .error fault) ∧
      ∃ results fields, ResultSet.Aligned c.sets results fields ∧
        ((∃ result field, results = [result] ∧ fields = [field] ∧
            ResultSet.collect c.sets = (result, field)) ∨
          (c.sets.length ≠ 1 ∧ ResultSet.collect c.sets = (.list results, .list fields))) := by
  refine ⟨fun hNone => ?_, fun hSome => ?_, _, _, ResultSet.aligned c.sets, ?_⟩
  · rw [read_eq, hNone, ResultSet.collect_eq]
    rfl
  · obtain ⟨fault, rest, hFaults⟩ := List.exists_cons_of_ne_nil hSome
    refine ⟨fault, hFaults ▸ List.mem_cons_self, ?_⟩
    rw [read_eq, hFaults]
    rfl
  · rw [ResultSet.collect_eq]
    match c.sets with
    | [] => exact .inr ⟨by decide, rfl⟩
    | [s] => exact .inl ⟨s.result, s.field, rfl, rfl, rfl⟩
    | s :: t :: rest => exact .inr ⟨by simp, rfl⟩

/-- A change, a selection and an insertion; the rows of the selection may not come. -/
def mixed (fetching : Option String) : Cursor String where
  presented := [
    { set := { rowCount := .int (-1) } },
    { set := { description := .list [.str "id"], rows := [.record [("id", .int 1)]] }, fetching },
    { set := { rowCount := .int 2, lastRowId := .int 17 } }]

/-- Three statements of both kinds, and the same ones with a fault in the middle. -/
theorem read_isAligned_mixed :
    (mixed none).faults = [] ∧
      (mixed none).read = .ok
        (.list [.header (.int 0) .null (.int 0) (.str ""), .list [.record [("id", .int 1)]],
            .header (.int 2) (.int 17) (.int 0) (.str "")],
          .list [.null, .list [.str "id"], .null]) ∧
      (mixed (some "lost")).read = .error "lost" := by
  refine ⟨rfl, (read_isAligned (mixed none)).1 rfl, ?_⟩
  obtain ⟨fault, hMem, hRead⟩ := (read_isAligned (mixed (some "lost"))).2.1 nofun
  rw [hRead, List.mem_singleton.mp hMem]

end Cursor

end SqlWeave
