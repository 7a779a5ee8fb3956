import SqlWeave.Proofs.Script.Trees

/-!
# Rendering covered trees

A covered tree is rendered under values that are built from scalars, sequences and mappings with
text keys.  What a script gets hold of is built in the same way: an item of a sequence, the value
of an entry, the counters of a loop.  Every such value has a literal, so a covered tree fails with
the fault of a template or with a covered one.

## Main results

* `Sql.hasLiteral_of_isBuilt`: every built value has a literal.
* `Script.yields_eval`: what comes of a covered term.
* `Script.renders_nodes`: what comes of rendering a covered tree.
-/

namespace SqlWeave

/-! ## Built values -/

/-- A value that is built from scalars by sequences and by mappings with text keys.  How many items
there are is a scalar, too. -/
inductive Value.IsBuilt (scalar : Value → Prop) : Value → Prop
  | scalar {v : Value} (h : scalar v) : IsBuilt scalar v
  | list {items : List Value} (hCount : scalar (.int items.length))
      (hItems : ∀ v ∈ items, IsBuilt scalar v) : IsBuilt scalar (.list items)
  | map {entries : List (Value × Value)} (hCount : scalar (.int entries.length))
      (hKeys : ∀ e ∈ entries, ∃ key, e.1 = .str key)
      (hValues : ∀ e ∈ entries, IsBuilt scalar e.2) : IsBuilt scalar (.map entries)

namespace Value.IsBuilt

variable {blame : Fault → Prop} {items : List Value} {entries : List (Value × Value)}

theorem of_mem_list (h : (Value.list items).IsBuilt (IsScalar blame)) :
    ∀ v ∈ items, v.IsBuilt (IsScalar blame) := by
  cases h with
  | scalar h => exact absurd h id
  | list _ hItems => exact hItems

/-- The entries of a built mapping: keys and values are built. -/
theorem of_mem_map (h : (Value.map entries).IsBuilt (IsScalar blame)) :
    ∀ e ∈ entries, e.1.IsBuilt (IsScalar blame) ∧ e.2.IsBuilt (IsScalar blame) := by
  cases h with
  | scalar h => exact absurd h id
  | map _ hKeys hValues =>
    intro e hMem
    obtain ⟨key, hKey⟩ := hKeys e hMem
    rw [hKey]
    exact ⟨.scalar trivial, hValues e hMem⟩

theorem no_tuple (h : (Value.tuple items).IsBuilt (IsScalar blame)) : False := by
  cases h with
  | scalar h => exact h

end Value.IsBuilt

/-! ## Writing -/

/-- The fault of a template, or a covered one. -/
def Fault.IsExplained (blame : Fault → Prop) (f : Fault) : Prop :=
  f.kind = .template ∨ blame f

/-- The result is a text, or its fault is explained. -/
def Renders (blame : Fault → Prop) (r : Result (List Char)) : Prop :=
  Yields (fun _ => True) (Fault.IsExplained blame) r

theorem renders_ite {blame : Fault → Prop} {writable : Bool} {text : List Char} {f : Fault}
    (h : writable = true ∨ blame f) : Renders blame (if writable then .ok text else .error f) := by
  split
  · exact trivial
  · next hNot => exact .inr (h.resolve_left hNot)

namespace Value

variable {blame : Fault → Prop} {v : Value}

theorem allWritable_of_forall {items : List Value} (h : ∀ v ∈ items, v.isWritable = true) :
    allWritable items = true := by
  induction items with
  | nil => rfl
  | cons v rest ih =>
    obtain ⟨hFirst, hRest⟩ := List.forall_mem_cons.mp h
    rw [allWritable, hFirst, ih hRest, Bool.true_and]

theorem entriesWritable_of_forall {entries : List (Value × Value)}
    (hKeys : ∀ e ∈ entries, ∃ key, e.1 = .str key) (h : ∀ e ∈ entries, e.2.isWritable = true) :
    entriesWritable entries = true := by
  induction entries with
  | nil => rfl
  | cons e rest ih =>
    obtain ⟨k, v⟩ := e
    obtain ⟨⟨key, rfl⟩, hOthers⟩ := List.forall_mem_cons.mp hKeys
    obtain ⟨hFirst, hRest⟩ := List.forall_mem_cons.mp h
    rw [entriesWritable, hFirst, ih hOthers hRest]
    rfl

/-- A built value can be written, unless it holds an integer that cannot. -/
theorem IsBuilt.isWritable_or (h : v.IsBuilt (IsScalar blame)) :
    v.isWritable = true ∨ blame .unwritableInteger := by
  by_cases hBlame : blame .unwritableInteger
  · exact .inr hBlame
  · left
    induction h with
    | @scalar v h =>
      cases v with
      | int n => exact h.resolve_right hBlame
      | null | bool | str | float => rfl
      | _ => exact absurd h id
    | list _ _ ih => exact allWritable_of_forall ih
    | map _ hKeys _ ih => exact entriesWritable_of_forall hKeys ih

theorem IsBuilt.renders_written (h : v.IsBuilt (IsScalar blame)) : Renders blame v.written :=
  renders_ite h.isWritable_or

theorem IsBuilt.renders_inspected (h : v.IsBuilt (IsScalar blame)) :
    Renders blame v.inspected :=
  renders_ite h.isWritable_or

end Value

/-! ## Literals -/

namespace Sql

variable {blame : Fault → Prop} {v : Value}

/-- The value has a literal, alone and in a sequence, or the fault is explained. -/
structure HasLiteral (blame : Fault → Prop) (v : Value) : Prop where
  value : Renders blame (Literal.ofValue v)
  item : Renders blame (Literal.ofItem v)

theorem renders_ofScalar (h : v.IsScalar blame) : Renders blame (Literal.ofScalar v) := by
  cases v with
  | null | bool | str => exact trivial
  | int n =>
    rw [Literal.ofScalar]
    exact renders_ite h
  | float x =>
    cases x with
    | finite negative m q => exact trivial
    | _ => exact absurd h id
  | _ => exact absurd h id

theorem hasLiteral_scalar (h : v.IsScalar blame) : HasLiteral blame v := by
  have hScalar := renders_ofScalar h
  cases v with
  | null | bool | int | str | float =>
    exact ⟨by simpa [Literal.ofValue] using hScalar, by simpa [Literal.ofItem] using hScalar⟩
  | _ => exact absurd h id

theorem yields_items {items : List Value} (h : ∀ v ∈ items, HasLiteral blame v) :
    Yields (fun _ => True) (Fault.IsExplained blame) (Literal.ofItems items) := by
  induction items with
  | nil =>
    rw [Literal.ofItems]
    exact trivial
  | cons v rest ih =>
    obtain ⟨hFirst, hRest⟩ := List.forall_mem_cons.mp h
    rw [Literal.ofItems]
    exact hFirst.item.bind fun _ _ => (ih hRest).bind fun _ _ => trivial

theorem yields_assignments {entries : List (Value × Value)}
    (hKeys : ∀ e ∈ entries, ∃ key, e.1 = .str key) (h : ∀ e ∈ entries, HasLiteral blame e.2) :
    Yields (fun _ => True) (Fault.IsExplained blame) (Literal.assignments entries) := by
  induction entries with
  | nil =>
    rw [Literal.assignments]
    exact trivial
  | cons e rest ih =>
    obtain ⟨k, v⟩ := e
    obtain ⟨⟨key, rfl⟩, hOthers⟩ := List.forall_mem_cons.mp hKeys
    obtain ⟨hFirst, hRest⟩ := List.forall_mem_cons.mp h
    rw [Literal.assignments]
    exact hFirst.value.bind fun _ _ => (ih hOthers hRest).bind fun _ _ => trivial

/-- Every built value has a literal, unless it holds an integer that cannot be written. -/
theorem hasLiteral_of_isBuilt (h : v.IsBuilt (Value.IsScalar blame)) : HasLiteral blame v := by
  induction h with
  | scalar h => exact hasLiteral_scalar h
  | list _ _ ih =>
    have hItems := yields_items ih
    constructor
    · rw [Literal.ofValue]
      exact hItems.bind fun _ _ => trivial
    · rw [Literal.ofItem]
      exact hItems.bind fun _ _ => trivial
  | map _ hKeys _ ih =>
    have hEntries := yields_assignments hKeys ih
    constructor
    · rw [Literal.ofValue]
      exact hEntries.bind fun _ _ => trivial
    · rw [Literal.ofItem]
      exact hEntries.bind fun _ _ => trivial

theorem renders_literal (h : v.IsBuilt (Value.IsScalar blame)) :
    Renders blame (Dialect.standard.literal v) :=
  (hasLiteral_of_isBuilt h).value

theorem renders_path (h : v.IsBuilt (Value.IsScalar blame)) :
    Renders blame (Dialect.standard.path v) := by
  unfold Dialect.path
  split
  case h_5 => exact h.renders_written.bind fun _ _ => trivial
  all_goals exact h.renders_inspected.bind fun _ _ => .inl rfl

/-! ## Markers -/

theorem mem_of_find? {key : String} {entries : List (Value × Value)} {v : Value}
    (h : Value.find? key entries = some v) : ∃ k, (k, v) ∈ entries := by
  induction entries with
  | nil => cases h
  | cons e rest ih =>
    have hRest : Value.find? key rest = some v → ∃ k, (k, v) ∈ e :: rest := by
      intro hFind
      obtain ⟨k, hMem⟩ := ih hFind
      exact ⟨k, List.mem_cons_of_mem _ hMem⟩
    unfold Value.find? at h
    split at h
    · cases h
    · next k w tail hCons =>
      obtain ⟨rfl, rfl⟩ := List.cons.inj hCons
      split at h
      · cases h
        exact ⟨_, List.mem_cons_self⟩
      · exact hRest h
    · next hCons =>
      obtain ⟨rfl, rfl⟩ := List.cons.inj hCons
      exact hRest h

theorem renders_bindEntries (skeleton : List Char) {params : List (Value × Value)}
    (h : ∀ e ∈ params, e.2.IsBuilt (Value.IsScalar blame)) :
    Renders blame (Dialect.standard.bindEntries skeleton params) := by
  have hExpand : ∀ t, Renders blame (Dialect.standard.expand params t) := by
    intro t
    unfold Dialect.expand
    split
    · split
      · exact trivial
      · next v hFind =>
        obtain ⟨k, hMem⟩ := mem_of_find? hFind
        split
        · exact renders_path (h _ hMem)
        · exact renders_literal (h _ hMem)
    · exact trivial
  exact (yields_mapM fun t _ => hExpand t).bind fun _ _ => trivial

end Sql

/-! ## Terms -/

namespace Script

open Template

variable {blame : Fault → Prop} {v : Value} {env : Env}

theorem yields_step {segment : List Char} (hBuilt : v.IsBuilt (Value.IsScalar blame))
    (hSegment : ∀ f, SegmentProvokes segment f → blame f) :
    Yields (fun found => ∀ w, found = some w → w.IsBuilt (Value.IsScalar blame))
      (Fault.IsExplained blame) (step v segment) := by
  unfold step
  split
  · intro w hFind
    obtain ⟨k, hMem⟩ := Sql.mem_of_find? hFind
    exact (hBuilt.of_mem_map _ hMem).2
  · next items =>
    unfold stepItem
    split
    · next hIndex =>
      cases hRead : readIndex segment with
      | error f => exact .inr (hSegment f (readIndex_provokes hIndex hRead))
      | ok n => exact fun w hItem => hBuilt.of_mem_list w (List.mem_of_getElem? hItem)
    · exact nofun
  · exact absurd hBuilt.no_tuple id
  · exact nofun

theorem yields_follow (segments : List (List Char)) {rest : List (List Char)}
    (hBuilt : v.IsBuilt (Value.IsScalar blame))
    (hSegments : ∀ s ∈ rest, ∀ f, SegmentProvokes s f → blame f) :
    Yields (Value.IsBuilt (Value.IsScalar blame)) (Fault.IsExplained blame) (follow segments v rest) := by
  induction rest generalizing v with
  | nil => exact hBuilt
  | cons segment rest ih =>
    refine (yields_step hBuilt (hSegments segment List.mem_cons_self)).bind fun found hFound => ?_
    cases found with
    | none => exact .inl rfl
    | some w => exact ih (hFound w rfl) fun s hMem => hSegments s (List.mem_cons_of_mem _ hMem)

/-- All values of the environment are built. -/
def Env.IsBuilt (blame : Fault → Prop) (env : Env) : Prop :=
  ∀ e ∈ env, e.2.IsBuilt (Value.IsScalar blame)

theorem Env.IsBuilt.get (h : env.IsBuilt blame) (name : List Char) :
    (env.get name).IsBuilt (Value.IsScalar blame) := by
  unfold Env.get
  cases hLookup : List.lookup name env with
  | none => exact .scalar trivial
  | some v =>
    obtain ⟨before, behind, rfl, -⟩ := List.lookup_eq_some_iff.mp hLookup
    exact h (name, v) (List.mem_append_right _ List.mem_cons_self)

/-- Names that are bound in front. -/
theorem Env.IsBuilt.bind (h : env.IsBuilt blame) {values : List Value}
    (hValues : ∀ w ∈ values, w.IsBuilt (Value.IsScalar blame)) (names : List (List Char)) :
    Env.IsBuilt blame (names.zip values ++ env) := by
  intro e hMem
  rcases List.mem_append.mp hMem with hMem | hMem
  · exact hValues e.2 (List.of_mem_zip hMem).2
  · exact h e hMem

theorem constantValue_scalar (h : v.IsScalar blame) : constantValue v = .ok v := by
  cases v with
  | float x =>
    cases x with
    | infinite negative => exact absurd h id
    | _ => rfl
  | _ => rfl

theorem yields_constant (h : (Term.value v).IsCovered blame) :
    Yields (Value.IsBuilt (Value.IsScalar blame)) (Fault.IsExplained blame) (constantValue v) := by
  rcases h with hScalar | ⟨⟨negative, rfl⟩, hBlame⟩
  · rw [constantValue_scalar hScalar]
    exact .scalar hScalar
  · exact .inr hBlame

theorem yields_eval (hEnv : env.IsBuilt blame) {t : Term} (h : t.IsCovered blame) :
    Yields (Value.IsBuilt (Value.IsScalar blame)) (Fault.IsExplained blame) (t.eval env) := by
  cases t with
  | value v => exact yields_constant h
  | «variable» name => exact hEnv.get name
  | lookup name segments => exact yields_follow segments (hEnv.get name) h

theorem renders_put (hEnv : env.IsBuilt blame) (helper : Option Helper) {t : Term}
    (h : t.IsCovered blame) : Renders blame (t.put Sql.Dialect.standard env helper) := by
  unfold Term.put
  split
  · split
    · exact trivial
    · exact (yields_constant h).bind fun v hv => Sql.renders_literal hv
  · exact (yields_eval hEnv h).bind fun v hv => Sql.renders_literal hv
  · next helper =>
    refine (yields_eval hEnv h).bind fun v hv => ?_
    cases helper with
    | identifier => exact Sql.renders_path hv
    | literal => exact Sql.renders_literal hv

/-! ## Items -/

theorem isScalar_of_le {m n : Nat} (hLe : m ≤ n) (h : (Value.int n).IsScalar blame) :
    (Value.int m).IsScalar blame :=
  h.imp_left fun hWritable =>
    Number.isWritable_natCast_iff.mpr (hLe.trans_lt (Number.isWritable_natCast_iff.mp hWritable))

theorem isScalar_count (h : v.IsBuilt (Value.IsScalar blame)) :
    (Value.int (keyedItems v).length).IsScalar blame := by
  cases h with
  | scalar h =>
    cases v with
    | null | bool | int | str | float => exact .inl (by decide : Number.isWritable 0 = true)
    | _ => exact absurd h id
  | list hCount =>
    rw [keyedItems, List.length_mapIdx]
    exact hCount
  | map hCount => exact hCount

theorem isBuilt_keyedItems (h : v.IsBuilt (Value.IsScalar blame)) :
    ∀ e ∈ keyedItems v, e.1.IsBuilt (Value.IsScalar blame) ∧ e.2.IsBuilt (Value.IsScalar blame) := by
  unfold keyedItems
  split
  · exact h.of_mem_map
  · next items =>
    have hCount := isScalar_count h
    rw [keyedItems, List.length_mapIdx] at hCount
    intro e hMem
    obtain ⟨i, hIndex, rfl⟩ := List.mem_mapIdx.mp hMem
    exact ⟨.scalar (isScalar_of_le hIndex.le hCount), h.of_mem_list _ (List.getElem_mem hIndex)⟩
  · exact absurd h.no_tuple id
  · exact fun e hMem => absurd hMem List.not_mem_nil

theorem isBuilt_passes (h : v.IsBuilt (Value.IsScalar blame)) :
    ∀ p ∈ passes v, ∀ w ∈ p.values, w.IsBuilt (Value.IsScalar blame) := by
  intro p hMem w hValue
  obtain ⟨i, hIndex, rfl⟩ := List.mem_mapIdx.mp hMem
  obtain ⟨hKey, hItem⟩ := isBuilt_keyedItems h _ (List.getElem_mem hIndex)
  simp only [Pass.values, List.mem_cons, List.not_mem_nil, or_false] at hValue
  rcases hValue with rfl | rfl | rfl | rfl | rfl
  · exact hKey
  · exact hItem
  · exact .scalar (isScalar_of_le hIndex.le (isScalar_count h))
  all_goals exact .scalar trivial

theorem isBuilt_boundItems (h : v.IsBuilt (Value.IsScalar blame)) :
    ∀ item ∈ boundItems v, item.IsBuilt (Value.IsScalar blame) := by
  unfold boundItems
  split
  · exact h.of_mem_list
  · exact absurd h.no_tuple id
  · intro item hMem
    obtain rfl := List.mem_singleton.mp hMem
    exact h

theorem isBuilt_itemParameters (h : v.IsBuilt (Value.IsScalar blame)) :
    ∀ e ∈ itemParameters v, e.2.IsBuilt (Value.IsScalar blame) := by
  unfold itemParameters
  split
  · exact fun e hMem => (h.of_mem_map e hMem).2
  · exact fun e hMem => absurd hMem List.not_mem_nil

/-! ## Nodes -/

mutual

theorem renders_node (texts : List (List Char)) {env : Env} (hEnv : env.IsBuilt blame) {n : Node}
    (h : n.IsCovered blame) : Renders blame (n.run Sql.Dialect.standard texts env) := by
  cases n with
  | text index =>
    unfold Node.run
    exact trivial
  | output helper t =>
    unfold Node.run
    exact renders_put hEnv helper h
  | choice expected t body other =>
    unfold Node.run
    refine (yields_eval hEnv h.1).bind fun v _ => ?_
    split
    · exact renders_nodes texts hEnv h.2.1
    · exact renders_nodes texts hEnv h.2.2
  | loop names t body other =>
    unfold Node.run
    refine (yields_eval hEnv h.1).bind fun v hv => ?_
    dsimp only
    split
    · exact renders_nodes texts hEnv h.2.2
    · have hPass : ∀ p ∈ passes v, Renders blame
          (runAll Sql.Dialect.standard texts (names.zip p.values ++ env) body) := fun p hMem =>
        renders_nodes texts (hEnv.bind (isBuilt_passes hv p hMem) names) h.2.1
      exact (yields_mapM hPass).bind fun _ _ => trivial
  | bound name t body =>
    unfold Node.run
    refine (yields_eval hEnv h.1).bind fun v hv => ?_
    have hItem : ∀ item ∈ boundItems v, Renders blame (do
        Sql.Dialect.standard.bindEntries
          (← runAll Sql.Dialect.standard texts ((name, item) :: env) body)
          (itemParameters item)) := by
      intro item hMem
      have hBuilt := isBuilt_boundItems hv item hMem
      have hInner : Env.IsBuilt blame ((name, item) :: env) :=
        hEnv.bind (fun w hw => List.mem_singleton.mp hw ▸ hBuilt) [name]
      refine (renders_nodes texts hInner h.2).bind fun skeleton _ => ?_
      exact Sql.renders_bindEntries skeleton (isBuilt_itemParameters hBuilt)
    exact (yields_mapM hItem).bind fun _ _ => trivial

theorem renders_nodes (texts : List (List Char)) {env : Env} (hEnv : env.IsBuilt blame)
    {nodes : List Node} (h : AllCovered blame nodes) :
    Renders blame (runAll Sql.Dialect.standard texts env nodes) := by
  cases nodes with
  | nil =>
    unfold runAll
    exact trivial
  | cons n rest =>
    unfold runAll
    exact (renders_node texts hEnv h.1).bind fun _ _ =>
      (renders_nodes texts hEnv h.2).bind fun _ _ => trivial

end

end Script

end SqlWeave
