import SqlWeave.Live.State
import SqlWeave.Proofs.Lists

/-!
# What calls met

The log of a live backend says which calls were made, and the forecast that it started with says
what each of them met: the calls of one kind meet what is forecast for that kind, in order.  So
the log gives the encounters as well, and nothing else has to be put down.

## Main results

* `Forecast.encounters`: the calls of a log with what they met.
* `Forecast.encounters_append`: the calls behind others meet what is forecast behind those.
* `madeOn`: those on a connection.
* `Live.Extends`: what anyone does to the log and the forecast.
-/

namespace SqlWeave

/-- The connection on which a call is made. -/
def Call.onConnection : Call → Option Nat
  | .release connection | .execute connection _ | .begin connection | .commit connection
  | .rollback connection => some connection
  | _ => none

theorem Encounter.result_eq_ok {e e' : Encounter} : e.result = .ok e' ↔ e.fault = none ∧ e = e' := by
  unfold Encounter.result
  split <;> simp [*]

theorem Encounter.result_eq_error {e : Encounter} {f : Fault} :
    e.result = .error f ↔ e.fault = some f := by
  unfold Encounter.result
  split <;> simp [*]

namespace Forecast

/-- Whatever is forecast to fail fails with an exception. -/
def FailsOnly (forecast : Forecast) : Prop :=
  ∀ kind, ∀ e ∈ forecast kind, ∀ f, e.fault = some f → f.isFailure = true

/-- The forecast behind calls that were made. -/
def after (forecast : Forecast) : List Call → Forecast
  | [] => forecast
  | c :: rest => (forecast.drop c.kind).after rest

/-- The calls of a log, with what they met. -/
def encounters (forecast : Forecast) : List Call → List (Call × Encounter)
  | [] => []
  | c :: rest => (c, forecast.next c.kind) :: (forecast.drop c.kind).encounters rest

theorem after_append (forecast : Forecast) (log more : List Call) :
    forecast.after (log ++ more) = (forecast.after log).after more := by
  induction log generalizing forecast with
  | nil => rfl
  | cons c rest ih => exact ih (forecast.drop c.kind)

/-- The calls behind others meet what is forecast behind those. -/
theorem encounters_append (forecast : Forecast) (log more : List Call) :
    forecast.encounters (log ++ more) =
      forecast.encounters log ++ (forecast.after log).encounters more := by
  induction log generalizing forecast with
  | nil => rfl
  | cons c rest ih => exact congrArg (List.cons _) (ih (forecast.drop c.kind))

theorem map_fst_encounters (forecast : Forecast) (log : List Call) :
    (forecast.encounters log).map Prod.fst = log := by
  induction log generalizing forecast with
  | nil => rfl
  | cons c rest ih => exact congrArg (List.cons c) (ih (forecast.drop c.kind))

/-- Nothing is forecast anew when a call was made. -/
theorem mem_of_mem_drop {forecast : Forecast} {kind kind' : CallKind} {e : Encounter}
    (h : e ∈ forecast.drop kind kind') : e ∈ forecast kind' := by
  unfold Forecast.drop at h
  split at h
  · exact List.mem_of_mem_tail h
  · exact h

theorem FailsOnly.drop {forecast : Forecast} (h : forecast.FailsOnly) (kind : CallKind) :
    (forecast.drop kind).FailsOnly :=
  fun kind' e hMem => h kind' e (mem_of_mem_drop hMem)

theorem FailsOnly.after {forecast : Forecast} (h : forecast.FailsOnly) (log : List Call) :
    (forecast.after log).FailsOnly := by
  induction log generalizing forecast with
  | nil => exact h
  | cons c rest ih => exact ih (h.drop c.kind)

/-- What fails next was forecast to fail. -/
theorem exists_of_next {forecast : Forecast} {kind : CallKind} {f : Fault}
    (h : (forecast.next kind).result = .error f) : ∃ e ∈ forecast kind, e.fault = some f := by
  unfold Forecast.next at h
  cases hHead : (forecast kind).head? with
  | none =>
    rw [hHead] at h
    cases h
  | some e =>
    rw [hHead, Option.getD_some, Encounter.result] at h
    cases hOwn : e.fault with
    | none =>
      rw [hOwn] at h
      cases h
    | some g =>
      rw [hOwn] at h
      cases h
      exact ⟨e, List.mem_of_mem_head? hHead, hOwn⟩

/-- What fails next fails with an exception. -/
theorem FailsOnly.next {forecast : Forecast} (h : forecast.FailsOnly) {kind : CallKind} {f : Fault}
    (hFault : (forecast.next kind).result = .error f) : f.isFailure = true := by
  obtain ⟨e, hMem, hOwn⟩ := exists_of_next hFault
  exact h kind e hMem f hOwn

/-- Whatever fails then fails with an exception. -/
theorem FailsOnly.encounters {forecast : Forecast} (h : forecast.FailsOnly) {log : List Call}
    {m : Call × Encounter} {f : Fault} (hMem : m ∈ forecast.encounters log)
    (hFault : m.2.fault = some f) : f.isFailure = true := by
  induction log generalizing forecast with
  | nil => cases hMem
  | cons c rest ih =>
    rcases List.mem_cons.mp hMem with rfl | hRest
    · exact h.next (Encounter.result_eq_error.mpr hFault)
    · exact ih (h.drop c.kind) hRest

end Forecast

/-! ## Calls on a connection -/

/-- The calls on a connection, with what they met. -/
def madeOn (k : Nat) (forecast : Forecast) (log : List Call) : List (Call × Encounter) :=
  (forecast.encounters log).filter fun m => m.1.onConnection == some k

section

variable {k : Nat} {forecast : Forecast}

theorem madeOn_append (log more : List Call) :
    madeOn k forecast (log ++ more) = madeOn k forecast log ++ madeOn k (forecast.after log) more := by
  rw [madeOn, Forecast.encounters_append, List.filter_append]
  rfl

theorem map_fst_madeOn (log : List Call) :
    (madeOn k forecast log).map Prod.fst = log.filter (·.onConnection == some k) := by
  conv => rhs; rw [← forecast.map_fst_encounters log]
  rw [madeOn, List.filter_map]
  rfl

theorem madeOn_eq_nil_iff {log : List Call} :
    madeOn k forecast log = [] ↔ ∀ c ∈ log, c.onConnection ≠ some k := by
  rw [← List.map_eq_nil_iff, map_fst_madeOn, List.filter_eq_nil_iff]
  exact ⟨fun h c hMem hOn => h c hMem (beq_iff_eq.mpr hOn),
    fun h c hMem hOn => h c hMem (beq_iff_eq.mp hOn)⟩

theorem exists_mem_madeOn {log : List Call} {c : Call} (h : c ∈ log) (hOn : c.onConnection = some k) :
    ∃ met, (c, met) ∈ madeOn k forecast log := by
  have hMem : c ∈ (madeOn k forecast log).map Prod.fst := by
    rw [map_fst_madeOn, List.mem_filter, beq_iff_eq]
    exact ⟨h, hOn⟩
  obtain ⟨⟨_, met⟩, hMade, rfl⟩ := List.mem_map.mp hMem
  exact ⟨met, hMade⟩

end

namespace Live

/-- Calls were made, and nothing else was done to the log or the forecast. -/
def Extends (l l' : Live) : Prop :=
  ∃ calls, l'.log = l.log ++ calls ∧ l'.forecast = l.forecast.after calls

theorem Extends.refl (l : Live) : l.Extends l :=
  ⟨[], (List.append_nil _).symm, rfl⟩

theorem Extends.of_eq {l l' : Live} (hLog : l'.log = l.log) (hForecast : l'.forecast = l.forecast) :
    l.Extends l' :=
  ⟨[], hLog.trans (List.append_nil _).symm, hForecast⟩

theorem Extends.trans {l l' l'' : Live} (h : l.Extends l') (h' : l'.Extends l'') :
    l.Extends l'' := by
  obtain ⟨calls, hLog, hForecast⟩ := h
  obtain ⟨calls', hLog', hForecast'⟩ := h'
  refine ⟨calls ++ calls', ?_, ?_⟩
  · rw [hLog', hLog, List.append_assoc]
  · rw [hForecast', hForecast, Forecast.after_append]

theorem extends_note (l : Live) (c : Call) : l.Extends (l.note c) :=
  ⟨[c], rfl, rfl⟩

/-- The forecast is the one that the backend started with, as far as its calls left it. -/
theorem Extends.forecast_eq {forecast : Forecast} {l l' : Live} (h : l.Extends l')
    (hForecast : l.forecast = forecast.after l.log) : l'.forecast = forecast.after l'.log := by
  obtain ⟨calls, hLog, hAfter⟩ := h
  rw [hAfter, hForecast, hLog, Forecast.after_append]

end Live

end SqlWeave
