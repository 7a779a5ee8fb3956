import Mathlib.Data.List.Dedup
import Mathlib.Data.List.DropRight
import SqlWeave.Template.Cache

/-!
# The cache and its history

What a template compiles to does not depend on what was compiled before, and what is
cached is a matter of the history alone: the templates that were used last, as many as the
limit allows.  A call uses its template if the parameters are a mapping and the template
can be prepared; whether it can be rendered does not matter.

`after` runs a history of calls on an empty cache.  `IsRecent` is what each call preserves.

## Main results

* `rtake_dedup_concat_of_mem` and `rtake_dedup_concat_of_notMem`: what one more use does to
  the last uses, if it is one of them and if it is new.
* `IsRecent.compile_of_isUse`: the step of a history.
* `compile_after`: the outcome of a call and the cached templates behind any history.
-/

namespace SqlWeave.Template.Cache

/-! ## Last uses -/

section LastUses

variable {α : Type}

/-- The last ones, and what stands before them: nothing if there are too few. -/
theorem exists_eq_append_rtake (xs : List α) (n : Nat) :
    ∃ front, xs = front ++ xs.rtake n ∧
      (front = [] ∧ (xs.rtake n).length ≤ n ∨ (xs.rtake n).length = n) := by
  refine ⟨xs.take (xs.length - n), (List.take_append_drop _ xs).symm, ?_⟩
  by_cases hAll : xs.length ≤ n
  · left
    rw [List.rtake, Nat.sub_eq_zero_of_le hAll, List.take_zero, List.drop_zero]
    exact ⟨rfl, hAll⟩
  · right
    rw [List.rtake, List.length_drop]
    omega

/-- The last ones of two lists in a row are the second one if it is long enough. -/
theorem rtake_append_of_length {front back : List α} {n : Nat}
    (h : front = [] ∧ back.length ≤ n ∨ back.length = n) : (front ++ back).rtake n = back := by
  rw [List.rtake, List.length_append]
  rcases h with ⟨rfl, hLe⟩ | rfl
  · rw [List.nil_append, List.length_nil, Nat.zero_add, Nat.sub_eq_zero_of_le hLe, List.drop_zero]
  · rw [Nat.add_sub_cancel, List.drop_left]

/-- If the second list has one too many, they are the rest of it. -/
theorem rtake_append_of_length_succ {front back : List α} {n : Nat} (h : back.length = n + 1) :
    (front ++ back).rtake n = back.tail := by
  have hBehind : front.length + back.length - n = front.length + 1 := by omega
  rw [List.rtake, List.length_append, hBehind, ← List.drop_drop, List.drop_left, List.drop_one]

variable [DecidableEq α]

/-- One more use of `x` makes it the last one. -/
theorem dedup_concat (uses : List α) (x : α) :
    (uses ++ [x]).dedup = uses.dedup.filter (· != x) ++ [x] := by
  induction uses with
  | nil => simp
  | cons y more ih =>
    rw [List.cons_append]
    by_cases hLater : y ∈ more ++ [x]
    · rw [List.dedup_cons_of_mem hLater, ih]
      by_cases hMore : y ∈ more
      · rw [List.dedup_cons_of_mem hMore]
      · have hSame : y = x := by simpa [hMore] using hLater
        rw [List.dedup_cons_of_notMem hMore, List.filter_cons_of_neg (by simpa using hSame)]
    · have hMore : y ∉ more := fun h => hLater (List.mem_append_left _ h)
      have hOther : y ≠ x := fun h => hLater (by simp [h])
      rw [List.dedup_cons_of_notMem hLater, ih, List.dedup_cons_of_notMem hMore,
        List.filter_cons_of_pos (by simpa using hOther), List.cons_append]

theorem filter_ne_of_notMem {xs : List α} {x : α} (h : x ∉ xs) : xs.filter (· != x) = xs := by
  rw [List.filter_eq_self]
  rintro y hy
  simpa using fun hSame : y = x => h (hSame ▸ hy)

/-- One more use of an element that is among the last ones. -/
theorem rtake_dedup_concat_of_mem {uses : List α} {n : Nat} {x : α}
    (h : x ∈ uses.dedup.rtake n) :
    (uses ++ [x]).dedup.rtake n = (uses.dedup.rtake n).filter (· != x) ++ [x] := by
  obtain ⟨front, hSplit, hLength⟩ := exists_eq_append_rtake uses.dedup n
  have hNodup := List.nodup_dedup uses
  rw [dedup_concat]
  generalize uses.dedup.rtake n = back at *
  rw [hSplit] at hNodup ⊢
  obtain ⟨-, hBack, hApart⟩ := List.nodup_append.mp hNodup
  have hFront : x ∉ front := fun hx => hApart x hx x h rfl
  have hSame : (back.filter (· != x) ++ [x]).length = back.length := by
    rw [← hBack.erase_eq_filter, List.length_append, List.length_erase_of_mem h]
    have hPos := List.length_pos_of_mem h
    simp only [List.length_singleton]
    omega
  rw [List.filter_append, filter_ne_of_notMem hFront, List.append_assoc]
  exact rtake_append_of_length (by rwa [hSame])

/-- One more use of an element that is not among the last ones. -/
theorem rtake_dedup_concat_of_notMem {uses : List α} {n : Nat} {x : α}
    (h : x ∉ uses.dedup.rtake n) :
    (uses ++ [x]).dedup.rtake n =
      if n < (uses.dedup.rtake n ++ [x]).length then (uses.dedup.rtake n ++ [x]).tail
      else uses.dedup.rtake n ++ [x] := by
  obtain ⟨front, hSplit, hLength⟩ := exists_eq_append_rtake uses.dedup n
  rw [dedup_concat]
  generalize uses.dedup.rtake n = back at *
  rw [hSplit, List.filter_append, filter_ne_of_notMem h, List.append_assoc]
  have hOne : (back ++ [x]).length = back.length + 1 := by simp
  split
  · rename_i hMany
    have hFull : back.length = n := by
      rcases hLength with ⟨-, hLe⟩ | hEq
      · omega
      · exact hEq
    exact rtake_append_of_length_succ (by rw [hOne, hFull])
  · rename_i hFew
    have hNil : front = [] := by
      rcases hLength with ⟨hNil, -⟩ | hEq
      · exact hNil
      · omega
    rw [hNil]
    exact rtake_append_of_length (.inl ⟨rfl, Nat.not_lt.mp hFew⟩)

end LastUses

/-! ## A history -/

/-- Does a call use its template? -/
def isUse (call : String × Value) : Bool :=
  (parameterEntries call.2).isOk && (Template.prepare call.1).isOk

/-- The templates that were used, in order. -/
def used (calls : List (String × Value)) : List String :=
  (calls.filter isUse).map Prod.fst

/-- The cache behind a history of calls, which begins with an empty cache. -/
def after (d : Sql.Dialect) (limit : Nat) (calls : List (String × Value)) : Cache :=
  calls.foldl (fun c call => (c.compile d call.1 call.2).2) ⟨limit, []⟩

/-- Every cached template is cached as what it prepares to. -/
def IsFaithful (c : Cache) : Prop :=
  ∀ entry ∈ c.entries, Template.prepare entry.1 = .ok entry.2

/-- The templates used last are cached, as many as the limit allows. -/
structure IsRecent (c : Cache) (uses : List String) : Prop where
  faithful : c.IsFaithful
  templates_eq : c.templates = uses.dedup.rtake c.limit

/-! ## One call -/

theorem templates_touch (c : Cache) (template : String) (compiled : Compiled) :
    (c.touch template compiled).templates = c.templates.filter (· != template) ++ [template] := by
  simp [templates, touch, List.filter_map, Function.comp_def]

theorem templates_evict (c : Cache) :
    c.evict.templates =
      if c.limit < c.templates.length then c.templates.tail else c.templates := by
  unfold evict templates
  rw [List.length_map]
  split
  · exact List.map_tail
  · rfl

theorem limit_evict (c : Cache) : c.evict.limit = c.limit := by
  unfold evict
  split <;> rfl

theorem IsFaithful.touch {c : Cache} (h : c.IsFaithful) {template : String} {compiled : Compiled}
    (hPrepared : Template.prepare template = .ok compiled) :
    (c.touch template compiled).IsFaithful := by
  intro entry hMem
  rcases List.mem_append.mp hMem with hOld | hNew
  · exact h entry (List.mem_filter.mp hOld).1
  · rw [List.mem_singleton.mp hNew]
    exact hPrepared

theorem IsFaithful.evict {c : Cache} (h : c.IsFaithful) : c.evict.IsFaithful := by
  unfold Cache.evict
  split
  · exact fun entry hMem => h entry (List.mem_of_mem_tail hMem)
  · exact h

/-- A template is taken from a faithful cache as what it prepares to, and is new if it is not
cached. -/
theorem IsFaithful.lookup {c : Cache} (h : c.IsFaithful) (template : String) :
    (∃ compiled, c.entries.lookup template = some compiled ∧
      Template.prepare template = .ok compiled ∧ template ∈ c.templates) ∨
    (c.entries.lookup template = none ∧ template ∉ c.templates) := by
  cases hLookup : c.entries.lookup template with
  | some compiled =>
    obtain ⟨front, back, hEntries, -⟩ := List.lookup_eq_some_iff.mp hLookup
    have hMem : (template, compiled) ∈ c.entries := by
      rw [hEntries]
      simp
    have hPrepared : Template.prepare template = .ok compiled := h (template, compiled) hMem
    exact .inl ⟨compiled, rfl, hPrepared, List.mem_map.mpr ⟨(template, compiled), hMem, rfl⟩⟩
  | none =>
    refine .inr ⟨rfl, fun hMem => ?_⟩
    obtain ⟨entry, hEntry, rfl⟩ := List.mem_map.mp hMem
    simpa using List.lookup_eq_none_iff.mp hLookup entry hEntry

/-- What is prepared with a faithful cache is what is prepared without one. -/
theorem IsFaithful.prepare {c : Cache} (h : c.IsFaithful) (template : String) :
    (c.prepare template).1 = Template.prepare template := by
  unfold Cache.prepare
  rcases h.lookup template with ⟨compiled, hLookup, hPrepared, -⟩ | ⟨hLookup, -⟩
  · simp only [hLookup, hPrepared]
  · rw [hLookup]
    cases Template.prepare template <;> rfl

/-- A template that cannot be prepared leaves the cache as it is. -/
theorem IsFaithful.prepare_of_error {c : Cache} (h : c.IsFaithful) {template : String} {f : Fault}
    (hFault : Template.prepare template = .error f) : c.prepare template = (.error f, c) := by
  unfold Cache.prepare
  rcases h.lookup template with ⟨compiled, -, hPrepared, -⟩ | ⟨hLookup, -⟩
  · rw [hPrepared] at hFault
    cases hFault
  · simp only [hLookup, hFault]

/-- A template that can be prepared becomes the most recently used one. -/
theorem IsRecent.prepare {c : Cache} {uses : List String} (h : c.IsRecent uses) {template : String}
    {compiled : Compiled} (hPrepared : Template.prepare template = .ok compiled) :
    (c.prepare template).2.IsRecent (uses ++ [template]) ∧
      (c.prepare template).2.limit = c.limit := by
  unfold Cache.prepare
  rcases h.faithful.lookup template with ⟨found, hLookup, hFound, hMem⟩ | ⟨hLookup, hNew⟩
  · simp only [hLookup]
    refine ⟨⟨h.faithful.touch hFound, ?_⟩, rfl⟩
    rw [templates_touch, h.templates_eq]
    rw [h.templates_eq] at hMem
    exact (rtake_dedup_concat_of_mem hMem).symm
  · simp only [hLookup, hPrepared]
    refine ⟨⟨(h.faithful.touch hPrepared).evict, ?_⟩, limit_evict _⟩
    rw [templates_evict, templates_touch, filter_ne_of_notMem hNew, limit_evict, h.templates_eq]
    rw [h.templates_eq] at hNew
    exact (rtake_dedup_concat_of_notMem hNew).symm

/-- What a template compiles to with a faithful cache is what it compiles to without one. -/
theorem IsFaithful.compile {c : Cache} (h : c.IsFaithful) (d : Sql.Dialect) (template : String)
    (params : Value) : (c.compile d template params).1 = Template.compile d template params := by
  unfold Cache.compile Template.compile
  cases parameterEntries params with
  | error fault => rfl
  | ok entries =>
    have hPrepared := h.prepare template
    cases hCached : c.prepare template with
    | mk result rest =>
      rw [hCached] at hPrepared
      change result = _ at hPrepared
      subst hPrepared
      cases hResult : Template.prepare template with
      | error fault => rfl
      | ok compiled =>
        change Except.map _ _ = _
        cases hRender : compiled.render d entries with
        | error fault => simp [hRender, Except.map, bind, Except.bind]
        | ok sql => simp [hRender, Except.map, bind, Except.bind, pure, Except.pure]

/-- A call that does not use its template leaves the cache as it is. -/
theorem IsFaithful.compile_of_not_isUse {c : Cache} (h : c.IsFaithful) (d : Sql.Dialect)
    {template : String} {params : Value} (hUse : isUse (template, params) = false) :
    (c.compile d template params).2 = c := by
  unfold Cache.compile
  cases hParams : parameterEntries params with
  | error fault => rfl
  | ok entries =>
    cases hPrepared : Template.prepare template with
    | ok compiled => simp [isUse, hParams, hPrepared, Except.isOk, Except.toBool] at hUse
    | error fault => simp only [h.prepare_of_error hPrepared]

/-- A call that uses its template makes it the most recently used one. -/
theorem IsRecent.compile_of_isUse {c : Cache} {uses : List String} (h : c.IsRecent uses)
    (d : Sql.Dialect) {template : String} {params : Value}
    (hUse : isUse (template, params) = true) :
    (c.compile d template params).2.IsRecent (uses ++ [template]) ∧
      (c.compile d template params).2.limit = c.limit := by
  unfold Cache.compile
  cases hParams : parameterEntries params with
  | error fault => simp [isUse, hParams, Except.isOk, Except.toBool] at hUse
  | ok entries =>
    cases hPrepared : Template.prepare template with
    | error fault => simp [isUse, hPrepared, Except.isOk, Except.toBool] at hUse
    | ok compiled =>
      have hStep := h.prepare hPrepared
      have hResult := h.faithful.prepare template
      cases hCached : c.prepare template with
      | mk result rest =>
        rw [hCached] at hStep hResult
        rw [hPrepared] at hResult
        change result = _ at hResult
        subst hResult
        exact hStep

/-! ## The run -/

theorem after_concat (d : Sql.Dialect) (limit : Nat) (calls : List (String × Value))
    (call : String × Value) :
    after d limit (calls ++ [call]) = ((after d limit calls).compile d call.1 call.2).2 :=
  List.foldl_concat ..

theorem used_concat (calls : List (String × Value)) (call : String × Value) :
    used (calls ++ [call]) = if isUse call then used calls ++ [call.1] else used calls := by
  unfold used
  split <;> simp_all

/-- Behind every history the templates that were used last are cached. -/
theorem isRecent_after (d : Sql.Dialect) (limit : Nat) (calls : List (String × Value)) :
    (after d limit calls).IsRecent (used calls) ∧ (after d limit calls).limit = limit := by
  induction calls using List.reverseRecOn with
  | nil =>
    have hEmpty : after d limit [] = ⟨limit, []⟩ := rfl
    rw [hEmpty]
    refine ⟨⟨fun _ hMem => absurd hMem List.not_mem_nil, ?_⟩, rfl⟩
    simp [templates, used]
  | append_singleton calls call ih =>
    obtain ⟨hRecent, hLimit⟩ := ih
    rw [after_concat, used_concat]
    by_cases hUse : isUse call = true
    · obtain ⟨hStep, hSame⟩ := hRecent.compile_of_isUse d hUse
      rw [if_pos hUse]
      exact ⟨hStep, hSame.trans hLimit⟩
    · rw [if_neg hUse, hRecent.faithful.compile_of_not_isUse d (Bool.eq_false_iff.mpr hUse)]
      exact ⟨hRecent, hLimit⟩

/-- Behind every history a call has the outcome that it has on an empty cache, and what is
cached are the templates used last, as many distinct ones as the limit allows, in the order
of their last use.  A call that does not use its template leaves the cache as it is. -/
theorem compile_after (d : Sql.Dialect) (limit : Nat) (calls : List (String × Value))
    (template : String) (params : Value) :
    ((after d limit calls).compile d template params).1 =
        ((after d limit []).compile d template params).1 ∧
      (after d limit calls).templates = (used calls).dedup.rtake limit ∧
      (isUse (template, params) = false →
        ((after d limit calls).compile d template params).2 = after d limit calls) := by
  obtain ⟨hRecent, hLimit⟩ := isRecent_after d limit calls
  obtain ⟨hFresh, -⟩ := isRecent_after d limit []
  refine ⟨?_, ?_, hRecent.faithful.compile_of_not_isUse d⟩
  · rw [hRecent.faithful.compile, hFresh.faithful.compile]
  · rw [hRecent.templates_eq, hLimit]

end SqlWeave.Template.Cache
