import SqlWeave.Proofs.Template.Words
import SqlWeave.Settings.QueryConfig
import SqlWeave.Template.Compiled

/-!
# Faults of queries that are not sent

Before a query is sent, its configuration is checked, its template is prepared and rendered, and
its markers are bound.  Each of these can fail, but never with the fault of a statement: that
one is made only when a statement was sent.  So a fault of a statement tells that something has
reached the database.

## Main results

* `noStatement_format`: formatting never fails with the fault of a statement.
* `noStatement_merged`: nor does the check of a query configuration.
-/

namespace SqlWeave

/-- The result is not the fault of a statement. -/
def NoStatement {α : Type} (r : Result α) : Prop :=
  ∀ f, r = .error f → f.kind ≠ .sql

section

variable {α β : Type}

theorem noStatement_ok (a : α) : NoStatement (.ok a) := nofun

theorem noStatement_error {f : Fault} (h : f.kind ≠ .sql) :
    NoStatement (.error f : Result α) := by
  intro g hg
  cases hg
  exact h

theorem noStatement_ite {c : Prop} [Decidable c] {a : α} {f : Fault} (h : f.kind ≠ .sql) :
    NoStatement (if c then .ok a else .error f) := by
  split
  · exact noStatement_ok a
  · exact noStatement_error h

theorem NoStatement.bind {r : Result α} {f : α → Result β} (h : NoStatement r)
    (hf : ∀ a, NoStatement (f a)) : NoStatement (r >>= f) := by
  cases r with
  | ok a => exact hf a
  | error e => exact noStatement_error (h e rfl)

/-- The faults of another type that are no faults of a statement. -/
theorem noStatement_mapError {ε : Type} {f : ε → Fault} (h : ∀ e, (f e).kind ≠ .sql)
    (r : Except ε α) : NoStatement (r.mapError f) := by
  cases r with
  | ok a => exact noStatement_ok a
  | error e => exact noStatement_error (h e)

theorem noStatement_mapM {f : α → Result β} (h : ∀ a, NoStatement (f a)) (items : List α) :
    NoStatement (items.mapM f) := by
  induction items with
  | nil => exact noStatement_ok []
  | cons a rest ih =>
    rw [List.mapM_cons]
    exact (h a).bind fun b => ih.bind fun bs => noStatement_ok (b :: bs)

end

theorem Value.noStatement_written (v : Value) : NoStatement v.written :=
  noStatement_ite nofun

theorem Value.noStatement_inspected (v : Value) : NoStatement v.inspected :=
  noStatement_ite nofun

/-! ## Literals and markers -/

namespace Sql

namespace Identifier

theorem noStatement_ofScalar (single : Bool) (v : Value) : NoStatement (ofScalar single v) :=
  v.noStatement_written.bind fun _ => noStatement_ok _

mutual

theorem noStatement_ofValue (single : Bool) (v : Value) : NoStatement (ofValue single v) := by
  unfold ofValue
  split
  · exact (noStatement_ofValues single _).bind fun _ => noStatement_ok _
  · exact (noStatement_ofValues single _).bind fun _ => noStatement_ok _
  · exact noStatement_ofScalar single v

theorem noStatement_ofValues (single : Bool) (items : List Value) :
    NoStatement (ofValues single items) := by
  cases items with
  | nil =>
    unfold ofValues
    exact noStatement_ok _
  | cons v rest =>
    unfold ofValues
    exact (noStatement_ofValue single v).bind fun _ =>
      (noStatement_ofValues single rest).bind fun _ => noStatement_ok _

end

end Identifier

theorem noStatement_scalar (v : Value) : NoStatement (Literal.ofScalar v) := by
  have hFloat : ∀ x, NoStatement (Literal.ofFloat x) := by
    intro x
    unfold Literal.ofFloat
    split
    · exact noStatement_ok _
    · exact noStatement_error nofun
  unfold Literal.ofScalar
  split
  case h_3 => exact noStatement_ite nofun
  case h_4 => exact hFloat _
  case h_5 => exact noStatement_ite nofun
  case h_11 => exact v.noStatement_written.bind fun _ => noStatement_ok _
  all_goals exact noStatement_ok _

mutual

theorem noStatement_value (v : Value) : NoStatement (Literal.ofValue v) := by
  unfold Literal.ofValue
  split
  · exact (noStatement_assignments _).bind fun _ => noStatement_ok _
  · exact (noStatement_items _).bind fun _ => noStatement_ok _
  · exact (noStatement_items _).bind fun _ => noStatement_ok _
  · exact (noStatement_items _).bind fun _ => noStatement_ok _
  · exact (noStatement_items _).bind fun _ => noStatement_ok _
  · exact noStatement_scalar _

theorem noStatement_items (items : List Value) : NoStatement (Literal.ofItems items) := by
  cases items with
  | nil =>
    unfold Literal.ofItems
    exact noStatement_ok _
  | cons v rest =>
    unfold Literal.ofItems
    exact (noStatement_item v).bind fun _ => (noStatement_items rest).bind fun _ => noStatement_ok _

theorem noStatement_item (v : Value) : NoStatement (Literal.ofItem v) := by
  unfold Literal.ofItem
  split
  · exact (noStatement_items _).bind fun _ => noStatement_ok _
  · exact (noStatement_items _).bind fun _ => noStatement_ok _
  · exact (noStatement_assignments _).bind fun _ => noStatement_ok _
  · exact (noStatement_items _).bind fun _ => noStatement_ok _
  · exact (noStatement_items _).bind fun _ => noStatement_ok _
  · exact noStatement_scalar _

theorem noStatement_assignments (entries : List (Value × Value)) :
    NoStatement (Literal.assignments entries) := by
  match entries with
  | [] =>
    unfold Literal.assignments
    exact noStatement_ok _
  | (k, v) :: rest =>
    unfold Literal.assignments
    exact (Identifier.noStatement_ofValue false k).bind fun _ => (noStatement_value v).bind fun _ =>
      (noStatement_assignments rest).bind fun _ => noStatement_ok _

end

theorem noStatement_path (d : Dialect) (v : Value) : NoStatement (d.path v) := by
  unfold Dialect.path
  split
  case h_5 => exact v.noStatement_written.bind fun _ => noStatement_ok _
  all_goals exact (Value.noStatement_inspected _).bind fun _ => noStatement_error nofun

theorem noStatement_bindEntries (skeleton : List Char) (params : List (Value × Value)) :
    NoStatement (Dialect.standard.bindEntries skeleton params) := by
  have hExpand : ∀ t, NoStatement (Dialect.standard.expand params t) := by
    intro t
    unfold Dialect.expand
    split
    · split
      · exact noStatement_ok _
      · split
        · exact noStatement_path _ _
        · exact noStatement_value _
    · exact noStatement_ok _
  exact (noStatement_mapM hExpand _).bind fun _ => noStatement_ok _

end Sql

/-! ## Scripts -/

namespace Script

theorem noStatement_step (v : Value) (segment : List Char) : NoStatement (step v segment) := by
  have hIndex : NoStatement (readIndex segment) := by
    unfold readIndex
    dsimp only
    split
    · exact noStatement_error nofun
    · split
      · exact noStatement_error nofun
      · exact noStatement_ok _
  have hItem : ∀ items, NoStatement (stepItem items segment) := by
    intro items
    unfold stepItem
    split
    · exact hIndex.bind fun _ => noStatement_ok _
    · exact noStatement_ok _
  unfold step
  split
  · exact noStatement_ok _
  · exact hItem _
  · exact hItem _
  · exact noStatement_ok _

theorem noStatement_follow (segments : List (List Char)) (v : Value) (rest : List (List Char)) :
    NoStatement (follow segments v rest) := by
  induction rest generalizing v with
  | nil => exact noStatement_ok v
  | cons segment rest ih =>
    refine (noStatement_step v segment).bind fun found => ?_
    cases found with
    | some w => exact ih w
    | none => exact noStatement_error nofun

theorem noStatement_constant (v : Value) : NoStatement (constantValue v) := by
  unfold constantValue
  split
  · exact noStatement_error nofun
  · exact noStatement_ok _

theorem noStatement_eval (env : Env) (t : Term) : NoStatement (t.eval env) := by
  cases t with
  | value v => exact noStatement_constant v
  | «variable» name => exact noStatement_ok _
  | lookup name segments => exact noStatement_follow _ _ _

theorem noStatement_put (env : Env) (helper : Option Template.Helper) (t : Term) :
    NoStatement (t.put Sql.Dialect.standard env helper) := by
  unfold Term.put
  split
  · split
    · exact noStatement_ok _
    · exact (noStatement_constant _).bind fun v => Sql.noStatement_value v
  · exact (noStatement_eval env _).bind fun v => Sql.noStatement_value v
  · rename_i helper
    refine (noStatement_eval env _).bind fun v => ?_
    cases helper with
    | identifier => exact Sql.noStatement_path _ v
    | literal => exact Sql.noStatement_value v

mutual

theorem noStatement_node (texts : List (List Char)) (env : Env) (n : Node) :
    NoStatement (n.run Sql.Dialect.standard texts env) := by
  cases n with
  | text index =>
    unfold Node.run
    exact noStatement_ok _
  | output helper t =>
    unfold Node.run
    exact noStatement_put env helper t
  | choice expected t body other =>
    unfold Node.run
    refine (noStatement_eval env t).bind fun v => ?_
    split
    · exact noStatement_nodes texts env body
    · exact noStatement_nodes texts env other
  | loop names t body other =>
    unfold Node.run
    refine (noStatement_eval env t).bind fun v => ?_
    dsimp only
    split
    · exact noStatement_nodes texts env other
    · exact (noStatement_mapM (fun p => noStatement_nodes texts _ body) _).bind
        fun _ => noStatement_ok _
  | bound name t body =>
    unfold Node.run
    refine (noStatement_eval env t).bind fun v => ?_
    refine NoStatement.bind (noStatement_mapM (fun item => ?_) _) fun _ => noStatement_ok _
    exact (noStatement_nodes texts _ body).bind fun _ => Sql.noStatement_bindEntries _ _

theorem noStatement_nodes (texts : List (List Char)) (env : Env) (nodes : List Node) :
    NoStatement (runAll Sql.Dialect.standard texts env nodes) := by
  cases nodes with
  | nil =>
    unfold runAll
    exact noStatement_ok _
  | cons n rest =>
    unfold runAll
    exact (noStatement_node texts env n).bind fun _ =>
      (noStatement_nodes texts env rest).bind fun _ => noStatement_ok _

end

theorem noStatement_assemble (template : List Char) : NoStatement (assemble template) := by
  have hTemplate : ∀ cause, (Fault.template cause).kind ≠ .sql := fun _ => nofun
  have hRead : ∀ argument, NoStatement (Template.Argument.read argument) := by
    intro argument f hError
    cases Template.Argument.takes_of_read hError with
    | empty => exact nofun
  have hExpr : ∀ (s : State) argument, NoStatement (s.readExpr argument) := fun s argument =>
    (hRead argument).bind fun _ => noStatement_mapError hTemplate _
  have hDirective : ∀ (s : State) d, NoStatement (s.directive d) := by
    intro s d
    cases d with
    | comment => exact noStatement_ok _
    | opens kind argument => exact (hExpr s argument).bind fun _ => noStatement_ok _
    | closes name => exact (noStatement_mapError hTemplate _).bind fun _ => noStatement_ok _
    | otherwise => exact (noStatement_mapError hTemplate _).bind fun _ => noStatement_ok _
    | output helper argument => exact (hExpr s argument).bind fun _ => noStatement_ok _
  have hPiece : ∀ (s : State) p, NoStatement (s.piece p) := by
    intro s p
    cases p with
    | text t =>
      show NoStatement (if t.isEmpty = true then _ else _)
      split
      · exact noStatement_ok _
      · exact noStatement_ok _
    | tag t => exact (noStatement_mapError hTemplate _).bind fun d => hDirective s d
  have hRun : ∀ ps (s : State), NoStatement (s.run ps) := by
    intro ps
    induction ps with
    | nil => exact fun s => noStatement_ok _
    | cons p rest ih =>
      exact fun s => (hPiece s p).bind fun r => (ih r.1).bind fun _ => noStatement_ok _
  refine (hRun _ _).bind fun r => ?_
  dsimp only
  split
  · exact noStatement_error nofun
  · exact noStatement_ok _

theorem noStatement_checkNesting (instructions : List Instruction) :
    NoStatement (checkNesting instructions) := by
  unfold checkNesting
  dsimp only
  split
  · exact noStatement_error nofun
  · split
    · exact noStatement_error nofun
    · exact noStatement_ok _

end Script

/-! ## Queries -/

namespace Template

/-- Formatting never fails with the fault of a statement. -/
theorem noStatement_format (template : String) (params : Value) :
    NoStatement (format .standard template params) := by
  have hToken : ∀ fault, (ofTokenFault template fault).kind ≠ .sql := by
    intro fault
    cases fault <;> exact nofun
  have hPrepare : NoStatement (prepare template) :=
    (Script.noStatement_assemble _).bind fun _ => (noStatement_mapError hToken _).bind fun _ =>
      (Script.noStatement_checkNesting _).bind fun _ => noStatement_ok _
  have hEntries : NoStatement (parameterEntries params) := by
    unfold parameterEntries
    split
    · exact noStatement_ok _
    · exact noStatement_error nofun
  have hCompile : NoStatement (compile .standard template params) :=
    hEntries.bind fun _ => hPrepare.bind fun _ =>
      (Script.noStatement_nodes _ _ _).bind fun _ => noStatement_ok _
  have hBind : ∀ skeleton, NoStatement (Sql.Dialect.standard.bind skeleton params) := by
    intro skeleton
    unfold Sql.Dialect.bind
    split
    · exact Sql.noStatement_bindEntries _ _
    · exact noStatement_error nofun
  unfold format
  split
  · exact noStatement_ok _
  · exact hCompile.bind fun _ => (hBind _).bind fun _ => noStatement_ok _

end Template

/-- The check of a query configuration never fails with the fault of a statement. -/
theorem QueryConfig.noStatement_merged (config : QueryConfig) (override : Value) :
    NoStatement (config.merged override) := by
  have hRun : ∀ options, NoStatement (QueryConfig.ofOptions options) := by
    intro options
    unfold QueryConfig.ofOptions Settings.Check.run
    split
    split
    · exact noStatement_ok _
    · exact noStatement_error nofun
  have hNormalize : NoStatement (Settings.normalizeValue override) := by
    unfold Settings.normalizeValue
    split
    · exact noStatement_ok _
    · exact noStatement_error nofun
  unfold QueryConfig.merged
  split
  · exact noStatement_ok _
  · exact noStatement_ok _
  · exact hNormalize.bind fun options => (hRun options).bind fun _ => noStatement_ok _

end SqlWeave
