import Mathlib.Data.List.Nodup
import SqlWeave.Proofs.Latest
import SqlWeave.Proofs.Results
import SqlWeave.Proofs.Settings.Checks
import SqlWeave.Proofs.Value.Entries

/-!
# Which source an option is taken from

Keyword options are put on top of the configuration under the keys as they are spelled, and only
then are the keys brought to one spelling.  An option that both spell alike takes the place of
the other one, and one that they spell differently goes behind it, where the later one counts, so
that in both cases it is the keyword option that is left.

## Main results

* `lookup_normalize_overlay`: which entry an option is left from.
* `check_takes`: every scalar field of checked settings is taken from the source, or is its default.
* `resolve_precedence`: keyword options go before the configuration, that before the environment,
  and the spelling of the keys does not matter.
-/

namespace SqlWeave.Settings

/-! ## The options of entries -/

theorem Options.lookup_cons (n m : String) (v : Value) (options : Options) :
    List.lookup n ((m, v) :: options) = if m = n then some v else options.lookup n := by
  rw [List.lookup_cons]
  by_cases h : m = n
  · simp [h]
  · rw [if_neg h, beq_eq_false_iff_ne.mpr (Ne.symm h)]

theorem Options.lookup_set (n name : String) (v : Value) (options : Options) :
    (options.set name v).lookup n = if name = n then some v else options.lookup n := by
  induction options with
  | nil => exact lookup_cons n name v []
  | cons o rest ih =>
    obtain ⟨m, w⟩ := o
    rw [set]
    by_cases hm : m = name
    · subst hm
      rw [if_pos rfl, lookup_cons, lookup_cons]
      split <;> rfl
    · rw [if_neg hm, lookup_cons, lookup_cons, ih]
      by_cases hn : m = n
      · simp [hn, show name ≠ n from fun h => hm (hn.trans h.symm)]
      · simp [hn]

theorem Options.lookup_without (n name : String) (options : Options) :
    (options.without name).lookup n = if n = name then none else options.lookup n := by
  induction options with
  | nil => simp [without]
  | cons o rest ih =>
    obtain ⟨m, w⟩ := o
    rw [without] at ih ⊢
    by_cases hm : m = name
    · rw [List.filter_cons_of_neg (by simpa using hm), ih, lookup_cons]
      by_cases hn : n = name
      · simp [hn]
      · simp [hn, show m ≠ n from fun h => hn (h.symm.trans hm)]
    · rw [List.filter_cons_of_pos (by simpa using hm), lookup_cons, lookup_cons, ih]
      by_cases hn : n = name
      · simp [hn, hm]
      · simp [hn]

/-- The value of an entry that has one. -/
def given? (e : Value × Value) : Option Value :=
  match e.2 with
  | .null => none
  | v => some v

/-- The entries for one option. -/
def entriesFor (name : String) (entries : List (Value × Value)) : List (Value × Value) :=
  entries.filter fun e => optionName e.1 == name

/-- The last value that is given for an option is left. -/
theorem lookup_normalize (name : String) (entries : List (Value × Value)) :
    (normalize entries).lookup name = ((entriesFor name entries).filterMap given?).getLast? := by
  rw [entriesFor, List.filterMap_filter, normalize]
  refine (viewOption_foldl (fun options e => ?_) entries []).trans Option.or_none
  obtain ⟨key, v⟩ := e
  by_cases hName : optionName key = name
  · cases v <;> simp [given?, hName, Options.lookup_set]
  · cases v <;> simp [hName, Options.lookup_set]

/-- An entry takes the place of one for the same option, or goes behind those for it. -/
theorem entriesFor_insertEntry (name key : String) (v : Value) (entries : List (Value × Value)) :
    entriesFor name (Value.insertEntry (.str key) v entries) =
      if optionName (.str key) = name then Value.insertEntry (.str key) v (entriesFor name entries)
      else entriesFor name entries := by
  induction entries with
  | nil =>
    by_cases hName : optionName (.str key) = name <;> simp [entriesFor, Value.insertEntry, hName]
  | cons e rest ih =>
    obtain ⟨k, w⟩ := e
    simp only [entriesFor] at ih ⊢
    rw [Value.insertEntry]
    by_cases hSame : Value.sameKey k (.str key) = true
    · obtain rfl := Value.sameKey_str_iff.mp hSame
      by_cases hName : optionName (.str key) = name <;> simp [hName, Value.insertEntry, hSame]
    · rw [if_neg hSame]
      by_cases hName : optionName (.str key) = name <;> by_cases hKey : optionName k = name <;>
        simp [hName, hKey, ih, Value.insertEntry, hSame]

theorem entriesFor_overlay (name : String) (lower : List (Value × Value))
    {upper : List (Value × Value)} (hTexts : ∀ e ∈ upper, ∃ key, e.1 = .str key) :
    entriesFor name (Value.overlay lower upper) =
      Value.overlay (entriesFor name lower) (entriesFor name upper) := by
  induction upper generalizing lower with
  | nil => rfl
  | cons e rest ih =>
    obtain ⟨hKey, hRest⟩ := List.forall_mem_cons.mp hTexts
    obtain ⟨k, w⟩ := e
    obtain ⟨key, rfl⟩ : ∃ key, k = .str key := hKey
    have hTail : Value.overlay lower ((.str key, w) :: rest) =
      Value.overlay (Value.insertEntry (.str key) w lower) rest := rfl
    rw [hTail, ih _ hRest, entriesFor_insertEntry]
    by_cases hName : optionName (.str key) = name
    · rw [if_pos hName, show entriesFor name ((.str key, w) :: rest) =
        (.str key, w) :: entriesFor name rest by simp [entriesFor, hName]]
      rfl
    · rw [if_neg hName, show entriesFor name ((.str key, w) :: rest) = entriesFor name rest by
        simp [entriesFor, hName]]

/-! ## No option given twice -/

/-- No two entries are for one option. -/
def HasDistinctOptions (entries : List (Value × Value)) : Prop :=
  (entries.map fun e => optionName e.1).Nodup

theorem entriesFor_of_mem {name : String} {entries : List (Value × Value)} {e : Value × Value}
    (h : HasDistinctOptions entries) (hMem : e ∈ entries) (hName : optionName e.1 = name) :
    entriesFor name entries = [e] := by
  induction entries with
  | nil => cases hMem
  | cons e' rest ih =>
    obtain ⟨hFirst, hRest⟩ := List.nodup_cons.mp h
    rcases List.mem_cons.mp hMem with rfl | hMem
    · have hNone : rest.filter (fun e' => optionName e'.1 == name) = [] := by
        rw [List.filter_eq_nil_iff]
        intro e' hMem' hSame
        exact hFirst (List.mem_map.mpr ⟨e', hMem', (beq_iff_eq.mp hSame).trans hName.symm⟩)
      rw [entriesFor, List.filter_cons_of_pos (by simpa using hName), hNone]
    · have hOther : optionName e'.1 ≠ name := by
        rintro hSame
        exact hFirst (List.mem_map.mpr ⟨e, hMem, hName.trans hSame.symm⟩)
      rw [entriesFor, List.filter_cons_of_neg (by simpa using hOther)]
      exact ih hRest hMem

theorem entriesFor_eq_nil {name : String} {entries : List (Value × Value)}
    (h : ∀ e ∈ entries, optionName e.1 ≠ name) : entriesFor name entries = [] := by
  rw [entriesFor, List.filter_eq_nil_iff]
  exact fun e hMem => by simpa using h e hMem

/-- At most one entry is for an option. -/
theorem entriesFor_cases {entries : List (Value × Value)} (h : HasDistinctOptions entries)
    (name : String) : entriesFor name entries = [] ∨
      ∃ e ∈ entries, optionName e.1 = name ∧ entriesFor name entries = [e] := by
  by_cases hGiven : ∃ e ∈ entries, optionName e.1 = name
  · obtain ⟨e, hMem, hName⟩ := hGiven
    exact .inr ⟨e, hMem, hName, entriesFor_of_mem h hMem hName⟩
  · exact .inl (entriesFor_eq_nil fun e hMem hName => hGiven ⟨e, hMem, hName⟩)

theorem given?_of_ne {e : Value × Value} (h : e.2 ≠ .null) : given? e = some e.2 := by
  obtain ⟨key, v⟩ := e
  cases v <;> first | rfl | exact absurd rfl h

/-- The keyword option is left, or else what the configuration gives, if it has a value. -/
theorem lookup_normalize_overlay {entries keywords : List (Value × Value)}
    (hEntries : HasDistinctOptions entries) (hKeywords : HasDistinctOptions keywords)
    (hTexts : ∀ e ∈ keywords, ∃ key, e.1 = .str key) (hGiven : ∀ e ∈ keywords, e.2 ≠ .null)
    (name : String) :
    (normalize (Value.overlay entries keywords)).lookup name =
      ((entriesFor name keywords).head?.map Prod.snd).or
        ((entriesFor name entries).head?.bind given?) := by
  rw [lookup_normalize, entriesFor_overlay name entries hTexts]
  rcases entriesFor_cases hKeywords name with hNone | ⟨k, hMem, -, hOne⟩
  · rw [hNone]
    rcases entriesFor_cases hEntries name with hNone' | ⟨e, -, -, hOne'⟩
    · rw [hNone']
      rfl
    · rw [hOne']
      simp only [Value.overlay, List.foldl_nil, List.filterMap_cons, List.filterMap_nil,
        List.head?_nil, Option.map_none, Option.none_or, List.head?_cons, Option.bind_some]
      cases given? e <;> rfl
  · have hValue (key : Value) : given? (key, k.2) = some k.2 := given?_of_ne (hGiven k hMem)
    rw [hOne]
    rcases entriesFor_cases hEntries name with hNone' | ⟨e, -, -, hOne'⟩
    · rw [hNone']
      simp [Value.overlay, Value.insertEntry, hValue]
    · rw [hOne']
      simp only [Value.overlay, List.foldl_cons, List.foldl_nil, Value.insertEntry]
      split <;> cases hE : given? e <;> simp [hValue, hE]

/-! ## The environment -/

theorem Environment.find?_of_mem {environment : Environment} {e : String × String} {name : String}
    (h : (environment.map fun e => foldName e.1).Nodup) (hMem : e ∈ environment)
    (hName : foldName e.1 = name) : environment.find? name = some e.2 := by
  have hFound : (environment.reverse.find? fun e => foldName e.1 = name).isSome = true := by
    rw [List.find?_isSome]
    exact ⟨e, List.mem_reverse.mpr hMem, by simpa using hName⟩
  obtain ⟨e', hE'⟩ := Option.isSome_iff_exists.mp hFound
  have hSame : foldName e'.1 = name := by simpa using List.find?_some hE'
  obtain rfl : e' = e :=
    List.inj_on_of_nodup_map h (List.mem_reverse.mp (List.mem_of_find?_eq_some hE')) hMem
      (hSame.trans hName.symm)
  rw [find?, hE']
  rfl

theorem Environment.find?_eq_none {environment : Environment} {name : String}
    (h : ∀ e ∈ environment, foldName e.1 ≠ name) : environment.find? name = none := by
  rw [find?, Option.map_eq_none_iff, List.find?_eq_none]
  intro e hMem
  simpa using h e (List.mem_reverse.mp hMem)

end SqlWeave.Settings

namespace SqlWeave.DatabaseSettings

open Settings Number Check

/-! ## The scalar fields -/

/-- A field that holds one value: under which name it is given, what stands for it when it is
not, and how what is given is coerced. -/
structure Scalar where
  {α : Type}
  name : String
  get : DatabaseSettings → α
  default : α
  coercion : Coercion α

/-- The scalar fields but for the environment's name, which has variables of its own. -/
def scalars : List Scalar :=
  [⟨"host", host, none, Coercion.optional Coercion.text⟩,
   ⟨"port", port, 3306, Coercion.integer⟩,
   ⟨"database", database, none, Coercion.optional Coercion.text⟩,
   ⟨"user", user, none, Coercion.optional Coercion.text⟩,
   ⟨"password", password, none, Coercion.optional Coercion.text⟩,
   ⟨"connection_limit", connectionLimit, 10, Coercion.integerFrom 1⟩,
   ⟨"multiple_statements", multipleStatements, true, Coercion.truth⟩,
   ⟨"timezone", timezone, "+00:00", Coercion.text⟩,
   ⟨"max_execution_time", maxExecutionTime, 30000, Coercion.integerFrom 0⟩,
   ⟨"group_concat_max_len", groupConcatMaxLen, 16384, Coercion.integer⟩,
   ⟨"connect_timeout", connectTimeout, Binary64.ofInt 10, Coercion.float⟩,
   ⟨"lazy_connect", lazyConnect, true, Coercion.truth⟩,
   ⟨"log_level", logLevel, none, Coercion.optional Coercion.text⟩,
   ⟨"test_mode", testMode, false, Coercion.truth⟩]

/-- Every scalar field of checked settings is taken from the source, or is its default. -/
theorem check_takes (s : Source) (queryConfig : Option Value) {tunnel : Check TunnelSettings}
    (hTunnel : tunnel.Establishes fun _ => True) :
    (check s queryConfig tunnel).Establishes fun settings =>
      ∀ f ∈ scalars, IsTaken (s.find? f.name) f.default f.coercion (f.get settings) := by
  unfold check
  refine (establishes_field "host" _ _ _).bind fun host => ?_
  refine (establishes_field "port" _ _ _).bind fun port => ?_
  refine (establishes_field "database" _ _ _).bind fun database => ?_
  refine (establishes_field "user" _ _ _).bind fun user => ?_
  refine (establishes_field "password" _ _ _).bind fun password => ?_
  refine (establishes_field "connection_limit" _ _ _).bind fun connectionLimit => ?_
  refine (establishes_field "multiple_statements" _ _ _).bind fun multipleStatements => ?_
  refine (establishes_field "timezone" _ _ _).bind fun timezone => ?_
  refine (establishes_field "max_execution_time" _ _ _).bind fun maxExecutionTime => ?_
  refine (establishes_field "group_concat_max_len" _ _ _).bind fun groupConcatMaxLen => ?_
  refine (establishes_field "connect_timeout" _ _ _).bind fun connectTimeout => ?_
  refine (establishes_field "lazy_connect" _ _ _).bind fun lazyConnect => ?_
  refine (establishes_field "log_level" _ _ _).bind fun logLevel => ?_
  refine (establishes_field "test_mode" _ _ _).bind fun testMode => ?_
  refine (establishes_field "environment" _ _ _).bind fun environment => ?_
  refine (establishes_checkQueryConfig _).bind fun query => ?_
  refine hTunnel.bind fun tunnel => establishes_pure ?_
  intro _ _ _ hTestMode hLogLevel hLazyConnect hConnectTimeout hGroupConcatMaxLen hMaxExecutionTime
    hTimezone hMultipleStatements hConnectionLimit hPassword hUser hDatabase hPort hHost
  simp only [scalars, List.forall_mem_cons, List.not_mem_nil, false_imp_iff, implies_true, and_true]
  exact ⟨hHost, hPort, hDatabase, hUser, hPassword, hConnectionLimit, hMultipleStatements,
    hTimezone, hMaxExecutionTime, hGroupConcatMaxLen, hConnectTimeout, hLazyConnect, hLogLevel,
    hTestMode⟩

/-! ## Resolving -/

/-- The query configuration that is given in code, if any. -/
def givenQueryConfig (options : Options) : Result (Option Value) :=
  match options.lookup "query_config" with
  | none => pure none
  | some v => do pure (some (Value.queryConfig (← ({} : QueryConfig).merged v)))

/-- Settings of options whose names are in the database spelling. -/
def settle (options : Options) (environment : Environment) : Result DatabaseSettings := do
  let tunnel ← TunnelSettings.resolve (options.get "ssh_tunnel") environment
  let options := options.without "ssh_tunnel"
  let queryConfig ← givenQueryConfig options
  let fromEnvironment ← structured? environment "query_config"
  let _ ← structured? environment "ssh_tunnel"
  Check.run "DatabaseSettings"
    (check ⟨options, environment, databaseStem⟩ (mergeStructured queryConfig fromEnvironment)
      (pure tunnel))

/-- Keyword options are put on top of the configuration before any name is respelled. -/
theorem resolve_eq_settle {config : Value} {entries keywords : List (Value × Value)}
    {options : Options} (hConfig : configEntries config = .ok entries)
    (hKeywords : keywordOptions keywords = .ok options)
    (hFree : requireFree "resolve_settings()" options = .ok ()) (environment : Environment) :
    resolve config keywords environment =
      settle (normalize (Value.overlay entries options.entries)) environment := by
  have hOverlay : Value.overlay entries options.entries =
      options.foldl (fun acc o => Value.insertEntry (.str o.1) o.2 acc) entries := by
    rw [Value.overlay, Options.entries, List.foldl_map]
  simp only [hOverlay, resolve, hKeywords, hFree, hConfig, ok_bind]
  generalize normalize (options.foldl _ entries) = merged
  unfold settle givenQueryConfig
  cases hQuery : (merged.without "ssh_tunnel").lookup "query_config" with
  | none => simp only [hQuery]
  | some v => simp only [hQuery, bind_assoc]

/-- Keyword options have texts for keys. -/
theorem entries_of_keywordOptions {keywords : List (Value × Value)} {options : Options}
    (h : keywordOptions keywords = .ok options) : options.entries = keywords := by
  fun_induction keywordOptions keywords generalizing options with
  | case1 =>
    cases h
    rfl
  | case2 name v rest ih =>
    obtain ⟨more, hMore, hPure⟩ := ok_of_bind h
    cases hPure
    rw [← ih hMore]
    rfl
  | case3 => cases h

theorem check_congr {options options' : Options}
    (h : ∀ name, options.lookup name = options'.lookup name) (environment : Environment)
    (queryConfig : Option Value) (tunnel : Check TunnelSettings) :
    check ⟨options, environment, databaseStem⟩ queryConfig tunnel =
      check ⟨options', environment, databaseStem⟩ queryConfig tunnel := by
  simp only [check, optionalText, Source.find?, environmentName, h]

/-- Settings depend on options only by what is found under each name. -/
theorem settle_congr {options options' : Options}
    (h : ∀ name, options.lookup name = options'.lookup name) (environment : Environment) :
    settle options environment = settle options' environment := by
  have hWithout : ∀ name, (options.without "ssh_tunnel").lookup name =
      (options'.without "ssh_tunnel").lookup name := by
    intro name
    rw [Options.lookup_without, Options.lookup_without, h]
  simp only [settle, givenQueryConfig, Options.get, h, hWithout, check_congr hWithout]

/-- A scalar field of settled options. -/
theorem settle_takes {options : Options} {environment : Environment} {settings : DatabaseSettings}
    (h : settle options environment = .ok settings) : ∀ f ∈ scalars,
      IsTaken ((options.lookup f.name).or
        ((environment.find? (databaseStem ++ f.name)).map Value.str)) f.default f.coercion
        (f.get settings) := by
  obtain ⟨tunnel, -, h⟩ := ok_of_bind h
  obtain ⟨queryConfig, -, h⟩ := ok_of_bind h
  obtain ⟨fromEnvironment, -, h⟩ := ok_of_bind h
  obtain ⟨-, -, h⟩ := ok_of_bind h
  intro f hMem
  have hTaken := (check_takes _ _ (establishes_pure trivial)).of_run h f hMem
  have hName : f.name ≠ "ssh_tunnel" := by
    revert f
    simp [scalars]
  rwa [Source.find?, Options.lookup_without, if_neg hName] at hTaken

/-- What can be given as a keyword option: a text that is not the name of the configuration. -/
def IsKeyword (v : Value) : Prop :=
  ∃ key, v = .str key ∧ key ≠ "config"

/-- Keyword options are taken as they are. -/
theorem exists_keywordOptions {keywords : List (Value × Value)}
    (h : ∀ e ∈ keywords, IsKeyword e.1) :
    ∃ options, keywordOptions keywords = .ok options ∧
      ∀ callee, requireFree callee options = .ok () := by
  suffices hOptions : ∃ options : Options, keywordOptions keywords = .ok options ∧
      options.lookup "config" = none by
    obtain ⟨options, hOptions, hNone⟩ := hOptions
    exact ⟨options, hOptions, fun callee => by rw [requireFree, hNone]; rfl⟩
  induction keywords with
  | nil => exact ⟨[], rfl, rfl⟩
  | cons e rest ih =>
    obtain ⟨hKey, hRest⟩ := List.forall_mem_cons.mp h
    obtain ⟨k, v⟩ := e
    obtain ⟨key, rfl, hOther⟩ : IsKeyword k := hKey
    obtain ⟨options, hOptions, hNone⟩ := ih hRest
    refine ⟨(key, v) :: options, by rw [keywordOptions, hOptions]; rfl, ?_⟩
    rw [List.lookup_cons, beq_eq_false_iff_ne.mpr (Ne.symm hOther)]
    exact hNone

theorem configEntries_map (entries : List (Value × Value)) :
    configEntries (.map entries) = .ok entries := by
  cases entries <;> rfl

/-- Where the value of a scalar field comes from: the keyword option for it, or else what the
configuration gives for it, or else the variable for it, or else its default. -/
structure Scalar.IsResolved (f : Scalar) (entries keywords : List (Value × Value))
    (env : Environment) (settings : DatabaseSettings) : Prop where
  keyword : ∀ e ∈ keywords, optionName e.1 = f.name → f.coercion e.2 = .ok (f.get settings)
  config : (∀ e ∈ keywords, optionName e.1 ≠ f.name) →
    ∀ e ∈ entries, optionName e.1 = f.name → e.2 ≠ .null → f.coercion e.2 = .ok (f.get settings)
  environment : (∀ e ∈ keywords, optionName e.1 ≠ f.name) →
    (∀ e ∈ entries, optionName e.1 = f.name → e.2 = .null) →
    ∀ e ∈ env, foldName e.1 = databaseStem ++ f.name →
      f.coercion (.str e.2) = .ok (f.get settings)
  default : (∀ e ∈ keywords, optionName e.1 ≠ f.name) →
    (∀ e ∈ entries, optionName e.1 = f.name → e.2 = .null) →
    (∀ e ∈ env, foldName e.1 ≠ databaseStem ++ f.name) → f.get settings = f.default

/-- The same options with the same values, their keys spelled in another way. -/
def IsRespelling (entries entries' : List (Value × Value)) : Prop :=
  entries.map (fun e => (optionName e.1, e.2)) = entries'.map fun e => (optionName e.1, e.2)

theorem IsRespelling.distinct {entries entries' : List (Value × Value)}
    (h : IsRespelling entries entries') (hDistinct : HasDistinctOptions entries) :
    HasDistinctOptions entries' := by
  have hNames := congrArg (List.map Prod.fst) h
  simp only [List.map_map, Function.comp_def] at hNames
  rwa [HasDistinctOptions, ← hNames]

theorem IsRespelling.entriesFor {entries entries' : List (Value × Value)}
    (h : IsRespelling entries entries') (name : String) :
    (entriesFor name entries).map Prod.snd = (entriesFor name entries').map Prod.snd := by
  have hFor (es : List (Value × Value)) : (Settings.entriesFor name es).map Prod.snd =
      ((es.map fun e => (optionName e.1, e.2)).filter (·.1 == name)).map Prod.snd := by
    rw [List.filter_map, List.map_map]
    rfl
  rw [hFor, hFor, h]

/-- An option is found under its name if it is a keyword option, or else if the configuration has
a value for it. -/
theorem lookup_of_respelling {entries keywords entries' keywords' : List (Value × Value)}
    (hEntries : HasDistinctOptions entries) (hKeywords : HasDistinctOptions keywords)
    (hTexts : ∀ e ∈ keywords, ∃ key, e.1 = .str key) (hGiven : ∀ e ∈ keywords, e.2 ≠ .null)
    (hTexts' : ∀ e ∈ keywords', ∃ key, e.1 = .str key) (hSame : IsRespelling entries entries')
    (hSame' : IsRespelling keywords keywords') (name : String) :
    (normalize (Value.overlay entries keywords)).lookup name =
      (normalize (Value.overlay entries' keywords')).lookup name := by
  have hGiven' : ∀ e ∈ keywords', e.2 ≠ .null := by
    intro e hMem
    have hMem' : (optionName e.1, e.2) ∈ keywords.map fun e => (optionName e.1, e.2) := by
      rw [hSame']
      exact List.mem_map_of_mem hMem
    obtain ⟨e', hFrom, hEq⟩ := List.mem_map.mp hMem'
    rw [← (Prod.mk.inj hEq).2]
    exact hGiven e' hFrom
  have hFirst (es : List (Value × Value)) :
      es.head?.bind given? = (es.map Prod.snd).head?.bind fun v => given? (.null, v) := by
    cases es <;> rfl
  rw [lookup_normalize_overlay hEntries hKeywords hTexts hGiven,
    lookup_normalize_overlay (hSame.distinct hEntries) (hSame'.distinct hKeywords) hTexts' hGiven',
    ← List.head?_map, ← List.head?_map, hSame'.entriesFor, hFirst, hFirst, hSame.entriesFor]

/-- Keyword options go before the configuration, what that gives before the environment, and a
variable before the default.  How the keys are spelled does not matter. -/
theorem resolve_precedence {config : Value} {entries keywords : List (Value × Value)}
    {environment : Environment} {settings : DatabaseSettings}
    (hConfig : configEntries config = .ok entries) (hEntries : HasDistinctOptions entries)
    (hKeywords : HasDistinctOptions keywords) (hGiven : ∀ e ∈ keywords, e.2 ≠ .null)
    (hVariables : (environment.map fun e => foldName e.1).Nodup)
    (hResolve : resolve config keywords environment = .ok settings) :
    (∀ f ∈ scalars, f.IsResolved entries keywords environment settings) ∧
      ∀ entries' keywords', IsRespelling entries entries' → IsRespelling keywords keywords' →
        (∀ e ∈ keywords', IsKeyword e.1) →
        resolve (.map entries') keywords' environment = .ok settings := by
  obtain ⟨options, hOptions, hRest⟩ := ok_of_bind hResolve
  obtain ⟨_, hFree, -⟩ := ok_of_bind hRest
  have hTexts : ∀ e ∈ keywords, ∃ key, e.1 = .str key := by
    rw [← entries_of_keywordOptions hOptions, Options.entries, List.forall_mem_map]
    exact fun o _ => ⟨o.1, rfl⟩
  rw [resolve_eq_settle hConfig hOptions hFree, entries_of_keywordOptions hOptions] at hResolve
  constructor
  · intro f hMem
    have hTaken := settle_takes hResolve f hMem
    rw [lookup_normalize_overlay hEntries hKeywords hTexts hGiven] at hTaken
    have hNoConfig : (∀ e ∈ entries, optionName e.1 = f.name → e.2 = .null) →
        (entriesFor f.name entries).head?.bind given? = none := by
      intro hNull
      rcases entriesFor_cases hEntries f.name with hNone | ⟨e, hE, hName, hOne⟩
      · rw [hNone]
        rfl
      · rw [hOne]
        show given? e = none
        rw [given?, hNull e hE hName]
    refine ⟨fun e hE hName => ?_, fun hNone e hE hName hValue => ?_,
      fun hNone hNull e hE hName => ?_, fun hNone hNull hUnset => ?_⟩
    · rw [entriesFor_of_mem hKeywords hE hName] at hTaken
      exact hTaken
    · have hFound : [e].head?.bind given? = some e.2 := given?_of_ne hValue
      rw [entriesFor_eq_nil hNone, entriesFor_of_mem hEntries hE hName, hFound] at hTaken
      exact hTaken
    · rw [entriesFor_eq_nil hNone, hNoConfig hNull,
        Environment.find?_of_mem hVariables hE hName] at hTaken
      exact hTaken
    · rw [entriesFor_eq_nil hNone, hNoConfig hNull, Environment.find?_eq_none hUnset] at hTaken
      exact hTaken
  · intro entries' keywords' hSame hSame' hTexts'
    obtain ⟨options', hOptions', hFree'⟩ := exists_keywordOptions hTexts'
    rw [resolve_eq_settle (configEntries_map entries') hOptions' (hFree' _),
      entries_of_keywordOptions hOptions', ← hResolve]
    exact (settle_congr (lookup_of_respelling hEntries hKeywords hTexts hGiven
      (fun e hMem => (hTexts' e hMem).imp fun _ => And.left) hSame hSame') environment).symm

/-- One field from each source: the keyword option goes before the two other sources, the
configuration before a variable, and what has no value in the configuration is taken from the
environment. -/
theorem resolve_precedence_mixed :
    let entries : List (Value × Value) :=
      [(.str "connectionLimit", .int 5), (.str "host", .null), (.str "log-level", .str "warn")]
    let keywords : List (Value × Value) := [(.str "connection_limit", .str "7")]
    let environment : Environment :=
      [("mysql_Connection_Limit", "9"), ("MYSQL_HOST", "db"), ("MYSQL_LOG_LEVEL", "info")]
    HasDistinctOptions entries ∧ HasDistinctOptions keywords ∧ (∀ e ∈ keywords, e.2 ≠ .null) ∧
      (environment.map fun e => foldName e.1).Nodup ∧
      ∃ settings, resolve (.map entries) keywords environment = .ok settings ∧
        (∀ f ∈ scalars, f.IsResolved entries keywords environment settings) ∧
        settings.connectionLimit = 7 ∧ settings.logLevel = some "warn" ∧
        settings.host = some "db" ∧ settings.port = 3306 := by
  intro entries keywords environment
  have hEntries : HasDistinctOptions entries := by
    unfold HasDistinctOptions
    decide +kernel
  have hKeywords : HasDistinctOptions keywords := by simp [HasDistinctOptions, keywords]
  have hGiven : ∀ e ∈ keywords, e.2 ≠ .null := by simp [keywords]
  have hVariables : (environment.map fun e => foldName e.1).Nodup := by decide +kernel
  have hOk : (match resolve (.map entries) keywords environment with
      | .ok s => decide (s.connectionLimit = 7 ∧ s.logLevel = some "warn" ∧ s.host = some "db" ∧
          s.port = 3306)
      | .error _ => false) = true := by
    decide +kernel
  refine ⟨hEntries, hKeywords, hGiven, hVariables, ?_⟩
  cases hResolve : resolve (.map entries) keywords environment with
  | error fault =>
    rw [hResolve] at hOk
    cases hOk
  | ok settings =>
    rw [hResolve] at hOk
    exact ⟨settings, rfl, (resolve_precedence (configEntries_map entries) hEntries hKeywords hGiven
      hVariables hResolve).1, of_decide_eq_true hOk⟩

end SqlWeave.DatabaseSettings
