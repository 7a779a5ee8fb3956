import SqlWeave.Proofs.Latest
import SqlWeave.Proofs.Settings.Precedence

/-!
# Overrides of a query configuration

A configuration is overridden by nothing, by another configuration, or by a mapping of flags.
Whether an override is refused does not depend on the configuration that it is for, and neither
does what it sets.  So a chain of overrides leaves of each flag what was set last, and it does not
matter how the chain is cut.

## Main results

* `ofOptions_eq`: the configuration of a group of options, or all complaints about it.
* `merged_of_isOverride`, `merged_of_not_isOverride`: an override that is taken is put on top, as
  what it sets, and any other one is refused with all that is wrong with it.
* `overridden_isLastSet`: what a chain of overrides leaves.
-/

namespace SqlWeave.QueryConfig

open Settings Check

/-! ## Flags -/

/-- A flag of a configuration. -/
inductive Flag
  | nativeQuery
  | keepCasing
  deriving DecidableEq

namespace Flag

/-- All flags, in the order in which they are checked. -/
def all : List Flag :=
  [nativeQuery, keepCasing]

/-- The name of the flag as an option. -/
def name : Flag → String
  | nativeQuery => "native_query"
  | keepCasing => "keep_original_casing"

/-- What the flag was set to explicitly. -/
def explicit? : Flag → QueryConfig → Option Bool
  | nativeQuery, c => c.nativeQuery
  | keepCasing, c => c.keepCasing

/-- The effective value of the flag. -/
def value : Flag → QueryConfig → Bool
  | nativeQuery, c => c.isNative
  | keepCasing, c => c.keepsCasing

theorem value_eq (f : Flag) (c : QueryConfig) : f.value c = (f.explicit? c).getD false := by
  cases f <;> rfl

@[simp] theorem explicit?_override (f : Flag) (c other : QueryConfig) :
    f.explicit? (c.override other) = (f.explicit? other).or (f.explicit? c) := by
  cases f <;> rfl

end Flag

/-- The configuration with these flags. -/
def ofFlags (set? : Flag → Option Bool) : QueryConfig where
  nativeQuery := set? .nativeQuery
  keepCasing := set? .keepCasing

@[simp] theorem explicit?_ofFlags (f : Flag) (set? : Flag → Option Bool) :
    f.explicit? (ofFlags set?) = set? f := by
  cases f <;> rfl

/-- A configuration is what was set explicitly. -/
theorem eq_of_explicit? {c d : QueryConfig} (h : ∀ f : Flag, f.explicit? c = f.explicit? d) :
    c = d := by
  obtain ⟨native, keeps⟩ := c
  obtain ⟨native', keeps'⟩ := d
  obtain rfl : native = native' := h .nativeQuery
  obtain rfl : keeps = keeps' := h .keepCasing
  rfl

theorem override_empty (c : QueryConfig) : c.override {} = c :=
  eq_of_explicit? fun f => by cases f <;> rfl

/-- Overrides can be put together first. -/
theorem override_override (a b c : QueryConfig) :
    (a.override b).override c = a.override (b.override c) :=
  eq_of_explicit? fun f => by simp [Option.or_assoc]

/-! ## A group of options -/

/-- How a flag is coerced. -/
def coerced : Coercion (Option Bool) := fun v => do return some (← Coercion.truth v)

/-- All complaints about a group of options. -/
def complaints (options : Options) : List Complaint :=
  Flag.all.flatMap (fun f => refusals f.name (options.lookup f.name) coerced) ++
    options.filterMap fun o => strangeKey? (.str o.1)

theorem textOptions_entries (options : Options) : textOptions options.entries = options := by
  rw [textOptions, Options.entries, List.filterMap_map]
  exact List.filterMap_some

/-- The configuration of a group of options, or all complaints about it. -/
theorem ofOptions_eq (options : Options) :
    ofOptions options =
      if (complaints options).isEmpty then
        .ok (ofFlags fun f => taken (options.lookup f.name) none coerced)
      else .error (.invalid "QueryConfig" (complaints options)) := by
  have hKeys : options.entries.filterMap (fun e => strangeKey? e.1) =
      options.filterMap fun o => strangeKey? (.str o.1) := by
    rw [Options.entries, List.filterMap_map]
    rfl
  have hReports : (check options.entries).Reports
      (ofFlags fun f => taken (options.lookup f.name) none coerced) (complaints options) := by
    simp only [check, textOptions_entries, hKeys, complaints, Flag.all, List.flatMap_cons,
      List.flatMap_nil, List.append_nil, List.append_assoc]
    refine (reports_field "native_query" _ none coerced).bind ?_
    refine (reports_field "keep_original_casing" _ none coerced).bind ?_
    have hEnd := (reports_complain (options.filterMap fun o => strangeKey? (.str o.1))).bind
      (f := fun _ => pure (ofFlags fun f => taken (options.lookup f.name) none coerced))
      (reports_pure _)
    rwa [List.append_nil] at hEnd
  exact hReports.run_eq "QueryConfig"

/-! ## What an override sets -/

/-- What a mapping gives for a flag: the last value under a spelling of its name. -/
def Flag.given? (f : Flag) (entries : List (Value × Value)) : Option Value :=
  ((entriesFor f.name entries).filterMap Settings.given?).getLast?

/-- The values that are taken as overrides: nothing, a configuration, and a mapping that gives a
value for nothing but flags, and for each flag one that counts as a truth value. -/
def isOverride : Value → Bool
  | .null => true
  | .queryConfig _ => true
  | .map entries =>
    (entries.all fun e => (Settings.given? e).isNone || fieldNames.contains (optionName e.1)) &&
      Flag.all.all fun f => (f.given? entries).all fun v => (Coercion.truth v).isOk
  | _ => false

/-- What an override sets a flag to. -/
def setting? (f : Flag) : Value → Option Bool
  | .queryConfig other => f.explicit? other
  | .map entries => (f.given? entries).bind fun v => (Coercion.truth v).toOption
  | _ => none

theorem taken_coerced (value : Option Value) :
    taken value none coerced = value.bind fun v => (Coercion.truth v).toOption := by
  cases value with
  | none => rfl
  | some v =>
    show (coerced v).toOption.getD none = (Coercion.truth v).toOption
    unfold coerced
    cases Coercion.truth v <;> rfl

theorem strangeKey?_eq_none_iff {name : String} :
    strangeKey? (.str name) = none ↔ name ∈ fieldNames := by
  simp [strangeKey?]

/-- Some entry gives a value for every option that is left. -/
theorem mem_names_normalize {entries : List (Value × Value)} {name : String} :
    name ∈ (normalize entries).map Prod.fst ↔
      ∃ e ∈ entries, optionName e.1 = name ∧ (Settings.given? e).isSome := by
  have hLookup : name ∈ (normalize entries).map Prod.fst ↔
      ((normalize entries).lookup name).isSome := by
    rw [List.lookup_isSome_iff]
    simp
  rw [hLookup, lookup_normalize, List.getLast?_isSome, Ne,
    List.filterMap_eq_nil_iff]
  simp [entriesFor, Option.isSome_iff_ne_none]

/-- Nothing but flags is left of a mapping. -/
theorem strange_normalize_eq_nil_iff (entries : List (Value × Value)) :
    (normalize entries).filterMap (fun o => strangeKey? (.str o.1)) = [] ↔
      ∀ e ∈ entries, (Settings.given? e).isSome → optionName e.1 ∈ fieldNames := by
  rw [List.filterMap_eq_nil_iff]
  constructor
  · intro h e hMem hGiven
    obtain ⟨o, hLeft, hName⟩ :=
      List.mem_map.mp (mem_names_normalize.mpr ⟨e, hMem, rfl, hGiven⟩)
    rw [← hName]
    exact strangeKey?_eq_none_iff.mp (h o hLeft)
  · intro h o hLeft
    obtain ⟨e, hMem, hName, hGiven⟩ := mem_names_normalize.mp (List.mem_map_of_mem hLeft)
    rw [strangeKey?_eq_none_iff, ← hName]
    exact h e hMem hGiven

theorem coerced_ok_iff {v : Value} : (∃ a, coerced v = .ok a) ↔ (Coercion.truth v).isOk := by
  unfold coerced
  cases hTruth : Coercion.truth v with
  | ok b => exact iff_of_true ⟨some b, rfl⟩ rfl
  | error refusal => exact iff_of_false (by rintro ⟨a, h⟩; cases h) Bool.false_ne_true

/-- There are no complaints about a mapping that is taken as an override. -/
theorem complaints_normalize_eq_nil_iff (entries : List (Value × Value)) :
    complaints (normalize entries) = [] ↔ isOverride (.map entries) = true := by
  have hFlags : Flag.all.flatMap (fun f =>
        refusals f.name ((normalize entries).lookup f.name) coerced) = [] ↔
      ∀ f ∈ Flag.all, ∀ v, f.given? entries = some v → (Coercion.truth v).isOk := by
    rw [List.flatMap_eq_nil_iff]
    refine forall₂_congr fun f _ => ?_
    rw [refusals_eq_nil_iff, lookup_normalize]
    exact forall₂_congr fun v _ => coerced_ok_iff
  rw [complaints, List.append_eq_nil_iff, hFlags, strange_normalize_eq_nil_iff, isOverride,
    Bool.and_eq_true, List.all_eq_true, List.all_eq_true, and_comm]
  refine and_congr (forall₂_congr fun e _ => ?_) (forall₂_congr fun f _ => ?_)
  · cases Settings.given? e <;> simp
  · cases f.given? entries <;> simp

/-! ## Merging -/

/-- An override that is taken is put on top, as what it sets. -/
theorem merged_of_isOverride {v : Value} (h : isOverride v = true) (c : QueryConfig) :
    c.merged v = .ok (c.override (ofFlags fun f => setting? f v)) := by
  cases v with
  | null => rw [merged, show (ofFlags fun f => setting? f .null) = {} from rfl, override_empty]
  | queryConfig other =>
    have hSame : ofFlags (fun f => setting? f (.queryConfig other)) = other :=
      eq_of_explicit? fun f => explicit?_ofFlags f _
    rw [merged, hSame]
  | map entries =>
    have hSettings : (fun f : Flag => taken ((normalize entries).lookup f.name) none coerced) =
        fun f => setting? f (.map entries) := by
      funext f
      rw [taken_coerced, lookup_normalize]
      rfl
    have hNone := (complaints_normalize_eq_nil_iff entries).mpr h
    have hOptions := ofOptions_eq (normalize entries)
    rw [hNone, if_pos List.isEmpty_nil, hSettings] at hOptions
    show (do return c.override (← ofOptions (normalize entries)) : Result QueryConfig) = _
    rw [hOptions]
    rfl
  | _ => cases h

/-- Any other value is refused, and a mapping with all that is wrong with it. -/
theorem merged_of_not_isOverride {v : Value} (h : isOverride v = false) (c : QueryConfig) :
    c.merged v = .error (match v with
      | .map entries => .invalid "QueryConfig" (complaints (normalize entries))
      | _ => .noMember v.typeName "items") := by
  cases v with
  | null => cases h
  | queryConfig other => cases h
  | map entries =>
    have hSome : (complaints (normalize entries)).isEmpty = false := by
      rw [List.isEmpty_eq_false_iff, Ne, complaints_normalize_eq_nil_iff, h]
      exact Bool.false_ne_true
    have hOptions := ofOptions_eq (normalize entries)
    rw [hSome, if_neg Bool.false_ne_true] at hOptions
    show (do return c.override (← ofOptions (normalize entries)) : Result QueryConfig) = _
    rw [hOptions]
    rfl
  | _ => rfl

/-- The configuration after an override, and as it was if that is refused. -/
def attempt (c : QueryConfig) (v : Value) : QueryConfig :=
  match c.merged v with
  | .ok c' => c'
  | .error _ => c

theorem attempt_of_isOverride {v : Value} (h : isOverride v = true) (c : QueryConfig) :
    c.attempt v = c.override (ofFlags fun f => setting? f v) := by
  rw [attempt, merged_of_isOverride h]

theorem attempt_of_not_isOverride {v : Value} (h : isOverride v = false) (c : QueryConfig) :
    c.attempt v = c := by
  rw [attempt, merged_of_not_isOverride h]

/-- The configuration after overrides in turn, without those that are refused. -/
def overridden (base : QueryConfig) (overrides : List Value) : QueryConfig :=
  overrides.foldl attempt base

/-- What the overrides of a chain that are taken set a flag to, in turn. -/
def settings (f : Flag) (overrides : List Value) : List Bool :=
  (overrides.filter isOverride).filterMap (setting? f)

/-- What was set last is left, or what was set before the chain. -/
theorem explicit?_overridden (f : Flag) (base : QueryConfig) (overrides : List Value) :
    f.explicit? (overridden base overrides) =
      (settings f overrides).getLast?.or (f.explicit? base) := by
  rw [settings, List.filterMap_filter]
  refine viewOption_foldl (fun c v => ?_) overrides base
  cases hTaken : isOverride v with
  | true => rw [attempt_of_isOverride hTaken, f.explicit?_override, explicit?_ofFlags, if_pos rfl]
  | false => rw [attempt_of_not_isOverride hTaken, if_neg Bool.false_ne_true, Option.none_or]

/-- A chain with an override that is refused is the chain without it. -/
theorem overridden_of_refused (base : QueryConfig) (before after : List Value) {v : Value}
    (h : isOverride v = false) :
    overridden base (before ++ v :: after) = overridden base (before ++ after) := by
  rw [overridden, overridden, List.foldl_append, List.foldl_append, List.foldl_cons,
    attempt_of_not_isOverride h]

/-- A chain of overrides leaves of each flag what was set last by one that is not refused, or what
it was before; one that is refused leaves everything as it was; and configurations can be merged
in either order. -/
theorem overridden_isLastSet (base : QueryConfig) (overrides : List Value) :
    (∀ f : Flag,
      f.explicit? (overridden base overrides) =
        (settings f overrides).getLast?.or (f.explicit? base) ∧
      f.value (overridden base overrides) =
        (settings f overrides).getLast?.getD (f.value base)) ∧
    (∀ (before after : List Value) (v : Value), overrides = before ++ v :: after →
      if isOverride v then ∃ c, (overridden base before).merged v = .ok c
      else (∃ fault, (overridden base before).merged v = .error fault) ∧
        overridden base overrides = overridden base (before ++ after)) ∧
    ∀ a b c : QueryConfig, ∃ ab bc abc : QueryConfig,
      b.merged (.queryConfig c) = .ok bc ∧ a.merged (.queryConfig bc) = .ok abc ∧
        a.merged (.queryConfig b) = .ok ab ∧ ab.merged (.queryConfig c) = .ok abc := by
  refine ⟨fun f => ?_, ?_, fun a b c => ?_⟩
  · have hExplicit := explicit?_overridden f base overrides
    refine ⟨hExplicit, ?_⟩
    rw [Flag.value_eq, Flag.value_eq, hExplicit]
    cases (settings f overrides).getLast? <;> rfl
  · rintro before after v rfl
    cases hTaken : isOverride v with
    | true => exact ⟨_, merged_of_isOverride hTaken _⟩
    | false =>
      exact ⟨⟨_, merged_of_not_isOverride hTaken _⟩, overridden_of_refused base before after hTaken⟩
  · exact ⟨a.override b, b.override c, a.override (b.override c), rfl, rfl, rfl,
      congrArg Except.ok (override_override a b c)⟩

/-- Two mappings, one of them with a spelling of its own and one without a value for a flag, a
configuration, nothing, and two mappings that are refused. -/
theorem overridden_isLastSet_mixed :
    let base : QueryConfig := { keepCasing := some true }
    let overrides : List Value :=
      [.map [(.str "nativeQuery", .str "yes")], .map [(.str "bogus", .bool true)], .null,
       .map [(.str "native-query", .null), (.str "KEEP_ORIGINAL_CASING", .int 0)],
       .queryConfig { nativeQuery := some false }, .map [(.str "native_query", .int 2)]]
    overridden base overrides = { nativeQuery := some false, keepCasing := some false } ∧
      Flag.nativeQuery.value (overridden base (overrides.take 3)) = true := by
  intro base overrides
  refine ⟨eq_of_explicit? fun f => ?_, ?_⟩
  · rw [((overridden_isLastSet base overrides).1 f).1]
    cases f <;> decide +kernel
  · rw [((overridden_isLastSet base (overrides.take 3)).1 .nativeQuery).2]
    decide +kernel

end SqlWeave.QueryConfig
