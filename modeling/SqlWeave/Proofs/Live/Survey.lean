import SqlWeave.Proofs.Live.Attempt
import SqlWeave.Proofs.Live.Traces

/-!
# Surveys of a transition

What a transition sets up and takes down are pools and tunnels, and the calls with which it does
so are made by nobody else: clients make calls on connections and take some from a pool.  So the
log says which of these calls a transition has made since its start, and what each of them met,
whatever clients do meanwhile.  `Surveyed` states this together with the manager and the tunnels
as they are now.

Calls that are to be made one after another are made as far as none of them fails and no wait for
one of them is broken off.  `Runs` relates such a list to the calls that were made, to those of
them that have returned, and to the outcome.

## Main results

* `surveyed_call`, `surveyed_call_aside`: a call of a transition, and any other call.
* `ran_call_bind`: a call and then the calls behind it.
* `Runs.of_ok`, `Runs.of_error`: how calls one after another end.
-/

namespace SqlWeave

open SqlWeave.Action Manager

/-! ## Calls of transitions -/

/-- Calls of these kinds set up or take down a pool or a tunnel. -/
def CallKind.isStructural : CallKind → Bool
  | createPool | poolClose | poolWaitClosed | sshConnect | forward | importKey | listenerClose
  | listenerWaitClosed | sshClose | sshWaitClosed => true
  | _ => false

/-- The calls of a log that set something up or take something down, with what they met. -/
def Forecast.structural (forecast : Forecast) (log : List Call) : Trace :=
  (forecast.encounters log).filter fun x => x.1.kind.isStructural

theorem isStructural_of_isClients {m : Manager} {c : Call} (h : c.IsClients m) :
    c.kind.isStructural = false := by
  rcases h with hOn | ⟨pool, rfl, -⟩
  · cases c with
    | release | execute | «begin» | commit | rollback => rfl
    | _ => cases hOn
  · rfl

namespace Forecast

variable {forecast : Forecast}

theorem structural_append (log more : List Call) :
    forecast.structural (log ++ more) =
      forecast.structural log ++ (forecast.after log).structural more := by
  rw [structural, encounters_append, List.filter_append]
  rfl

theorem structural_singleton (c : Call) : forecast.structural [c] =
    if c.kind.isStructural then [(c, forecast.next c.kind)] else [] := by
  rw [structural, encounters, encounters, List.filter_singleton, Bool.cond_eq_ite]

theorem structural_eq_nil {log : List Call} (h : ∀ c ∈ log, c.kind.isStructural = false) :
    forecast.structural log = [] := by
  refine List.filter_eq_nil_iff.mpr fun x hMem => ?_
  have hCall : x.1 ∈ log := by
    rw [← forecast.map_fst_encounters log]
    exact List.mem_map_of_mem hMem
  simp [h x.1 hCall]

/-- The calls by themselves. -/
theorem map_fst_structural (log : List Call) :
    (forecast.structural log).map Prod.fst = log.filter fun c => c.kind.isStructural := by
  rw [← congrArg (List.filter _) (forecast.map_fst_encounters log), List.filter_map]
  rfl

/-- What closes something and meets an encounter with a fault was forecast to. -/
theorem ClosingFailsOnly.encounters (h : forecast.ClosingFailsOnly) {log : List Call}
    {x : Call × Encounter} (hMem : x ∈ forecast.encounters log)
    (hClosing : x.1.kind.isClosing = true) {f : Fault} (hFault : x.2.fault = some f) :
    f.isFailure = true := by
  induction log generalizing forecast with
  | nil => cases hMem
  | cons c rest ih =>
    rcases List.mem_cons.mp hMem with rfl | hRest
    · exact h.next hClosing (Encounter.result_eq_error.mpr hFault)
    · exact ih (h.drop c.kind) hRest

end Forecast

/-! ## Surveys -/

/-- What a transition has done since its start, and what it has come to: the calls that it has
made, the manager and the tunnels. -/
structure Surveyed (start : Live) (made : Trace) (m : Manager) (ts : List Tunnel) (s : Store) :
    Prop where
  calls : ∃ calls, s.live.log = start.log ++ calls ∧
    s.live.forecast = start.forecast.after calls ∧ start.forecast.structural calls = made
  manager : s.live.manager = m
  tunnels : s.live.tunnels = ts

/-- The contract of a transition since its start: what it has done and come to is as it should be
whenever it waits, clients are at work meanwhile, and its waits may be broken off or not. -/
def survey (start : Live) (R : Trace → Manager → Prop) (mayBreak : Prop) : Contract Store where
  rests s := ∃ made m ts, Surveyed start made m ts s ∧ R made m
  rely := Store.Served
  comes _ r := r = .ok .null ∨ mayBreak ∧ r = .error .cancelled

/-- What holds of a transition whatever it does but for asking for a pool. -/
structure IsLasting (R : Trace → Manager → Prop) : Prop where
  call : ∀ {made m x}, x.1.kind ≠ .createPool → R made m → R (made ++ [x]) m
  manager : ∀ {made m m'}, m'.pending = m.pending → m'.phase = m.phase → R made m → R made m'

theorem IsLasting.append {R : Trace → Manager → Prop} (h : IsLasting R) {made new : Trace}
    {m : Manager} (hNew : ∀ x ∈ new, x.1.kind ≠ .createPool) (hR : R made m) : R (made ++ new) m := by
  induction new generalizing made with
  | nil => exact (List.append_nil made).symm ▸ hR
  | cons x rest ih =>
    obtain ⟨hx, hRest⟩ := List.forall_mem_cons.mp hNew
    rw [List.append_cons]
    exact ih hRest (h.call hx hR)

section

variable {start : Live} {made : Trace} {m : Manager} {ts : List Tunnel} {s s' : Store}
  {R : Trace → Manager → Prop} {mayBreak : Prop}

theorem surveyed_start (s : Store) : Surveyed s.live [] s.live.manager s.live.tunnels s :=
  ⟨⟨[], (List.append_nil _).symm, rfl, rfl⟩, rfl, rfl⟩

namespace Surveyed

/-- A change that makes no call. -/
theorem of_eq (h : Surveyed start made m ts s) (hLog : s'.live.log = s.live.log)
    (hForecast : s'.live.forecast = s.live.forecast) :
    Surveyed start made s'.live.manager s'.live.tunnels s' := by
  obtain ⟨calls, hCalls, hAfter, hMade⟩ := h.calls
  exact ⟨⟨calls, hLog.trans hCalls, hForecast.trans hAfter, hMade⟩, rfl, rfl⟩

/-- Clients at work do none of what a transition does. -/
theorem of_served (h : Surveyed start made m ts s) (hServed : s.Served s') :
    Surveyed start made m ts s' := by
  obtain ⟨calls, hLog, hForecast, hMade⟩ := h.calls
  obtain ⟨more, hLog', hForecast'⟩ := hServed.calls
  have hNone : s.live.forecast.structural more = [] :=
    Forecast.structural_eq_nil fun c hMem =>
      isStructural_of_isClients (hServed.clients more hLog' c hMem)
  refine ⟨⟨calls ++ more, ?_, ?_, ?_⟩, hServed.manager.trans h.manager,
    hServed.tunnels.trans h.tunnels⟩
  · rw [hLog', hLog, List.append_assoc]
  · rw [hForecast', hForecast, Forecast.after_append]
  · rw [Forecast.structural_append, hMade, ← hForecast, hNone, List.append_nil]

/-- Another call is made. -/
theorem note (h : Surveyed start made m ts s) (c : Call) :
    Surveyed start
      (made ++ if c.kind.isStructural then [(c, s.live.forecast.next c.kind)] else []) m ts
      (s.onLive (Live.note c)) := by
  obtain ⟨calls, hLog, hForecast, hMade⟩ := h.calls
  refine ⟨⟨calls ++ [c], ?_, ?_, ?_⟩, h.manager, h.tunnels⟩
  · show s.live.log ++ [c] = _
    rw [hLog, List.append_assoc]
  · show s.live.forecast.drop c.kind = _
    rw [hForecast, Forecast.after_append]
    rfl
  · rw [Forecast.structural_append, hMade, ← hForecast, Forecast.structural_singleton]

/-- What closes something fails with an exception if all that is forecast to fail there does. -/
theorem isFailure (h : Surveyed start made m ts s) (hFails : start.forecast.ClosingFailsOnly)
    {x : Call × Encounter} (hMem : x ∈ made) (hClosing : x.1.kind.isClosing = true) {f : Fault}
    (hFault : x.2.fault = some f) : f.isFailure = true := by
  obtain ⟨calls, -, -, rfl⟩ := h.calls
  exact hFails.encounters (List.mem_of_mem_filter hMem) hClosing hFault

theorem rests (h : Surveyed start made m ts s) (hR : R made m) :
    (survey start R mayBreak).rests s :=
  ⟨made, m, ts, h, hR⟩

end Surveyed

/-! ## Calls one after another -/

theorem Trace.firstFault?_eq_none {made : Trace} (h : ∀ x ∈ made, x.2.fault = none) :
    made.firstFault? = none :=
  List.findSome?_eq_none_iff.mpr h

/-- Calls are made one after another, until one fails or a wait is broken off: the calls that were
made, those that have returned, and the outcome, which is `last` when all have returned. -/
inductive Runs (mayBreak : Prop) (last : Result Unit) :
    List Call → Trace → Trace → Result Unit → Prop
  | done : Runs mayBreak last [] [] [] last
  | broken {calls : List Call} {f : Fault} (h : mayBreak) : Runs mayBreak last calls [] [] (.error f)
  | stopped {c : Call} {rest : List Call} {e : Encounter} {f : Fault}
      (h : e.fault = some f ∨ mayBreak) : Runs mayBreak last (c :: rest) [(c, e)] [] (.error f)
  | next {c : Call} {rest : List Call} {e : Encounter} {made returned : Trace} {r : Result Unit}
      (h : e.fault = none) (hRest : Runs mayBreak last rest made returned r) :
      Runs mayBreak last (c :: rest) ((c, e) :: made) ((c, e) :: returned) r

namespace Runs

variable {last r r' : Result Unit} {calls calls' : List Call}
  {made made' returned returned' : Trace}

/-- Where all is well all calls were made and have returned. -/
theorem of_ok (h : Runs mayBreak last calls made returned r) (hr : r = .ok ()) :
    last = .ok () ∧ returned = made ∧ made.map Prod.fst = calls ∧ ∀ x ∈ made, x.2.fault = none := by
  induction h with
  | done => exact ⟨hr, rfl, rfl, List.forall_mem_nil _⟩
  | broken => cases hr
  | stopped => cases hr
  | next hNone _ ih =>
    obtain ⟨hLast, hReturned, hCalls, hAll⟩ := ih hr
    exact ⟨hLast, congrArg _ hReturned, congrArg _ hCalls, List.forall_mem_cons.mpr ⟨hNone, hAll⟩⟩

/-- Where no wait is broken off, a fault is that of the first call that fails, or of none. -/
theorem of_error {f : Fault} (h : Runs False last calls made returned r) (hr : r = .error f) :
    (∀ x ∈ returned, x.2.fault = none) ∧
      (last = .error f ∧ returned = made ∧ made.map Prod.fst = calls ∨
        ∃ c e, made = returned ++ [(c, e)] ∧ e.fault = some f) := by
  induction h with
  | done => exact ⟨List.forall_mem_nil _, .inl ⟨hr, rfl, rfl⟩⟩
  | broken h => exact h.elim
  | @stopped c _ e g h =>
    cases hr
    exact ⟨List.forall_mem_nil _, .inr ⟨c, e, rfl, h.resolve_right id⟩⟩
  | next hNone _ ih =>
    obtain ⟨hAll, hEnd⟩ := ih hr
    refine ⟨List.forall_mem_cons.mpr ⟨hNone, hAll⟩, hEnd.imp ?_ ?_⟩
    · rintro ⟨hLast, hReturned, hCalls⟩
      exact ⟨hLast, congrArg _ hReturned, congrArg _ hCalls⟩
    · rintro ⟨c, e, rfl, hFault⟩
      exact ⟨c, e, rfl, hFault⟩

/-- Where no wait is broken off, a fault is that of the first call that fails, or comes behind calls
that have all returned. -/
theorem firstFault? {f : Fault} (h : Runs False last calls made returned r) (hr : r = .error f) :
    made.firstFault? = some f ∨ last = .error f ∧ made.firstFault? = none := by
  obtain ⟨hAll, ⟨hLast, rfl, -⟩ | ⟨c, e, rfl, hFault⟩⟩ := h.of_error hr
  · exact .inr ⟨hLast, Trace.firstFault?_eq_none hAll⟩
  · left
    rw [Trace.firstFault?_concat, Trace.firstFault?_eq_none hAll, hFault]
    rfl

/-- Only those calls are made. -/
theorem mem (h : Runs mayBreak last calls made returned r) {x : Call × Encounter}
    (hMem : x ∈ made) : x.1 ∈ calls := by
  induction h with
  | done => cases hMem
  | broken => cases hMem
  | stopped =>
    rw [List.mem_singleton.mp hMem]
    exact List.mem_cons_self
  | next _ _ ih =>
    rcases List.mem_cons.mp hMem with rfl | hRest
    · exact List.mem_cons_self
    · exact List.mem_cons_of_mem _ (ih hRest)

/-- Where no wait is broken off the first call is made. -/
theorem head_mem {c : Call} (h : Runs False last (c :: calls) made returned r) :
    c ∈ made.map Prod.fst := by
  cases h with
  | broken hBreak => exact hBreak.elim
  | stopped => exact List.mem_cons_self
  | next => exact List.mem_cons_self

theorem mem_of_returned (h : Runs mayBreak last calls made returned r) {x : Call × Encounter}
    (hMem : x ∈ returned) : x.1 ∈ calls := by
  induction h with
  | done => cases hMem
  | broken => cases hMem
  | stopped => cases hMem
  | next _ _ ih =>
    rcases List.mem_cons.mp hMem with rfl | hRest
    · exact List.mem_cons_self
    · exact List.mem_cons_of_mem _ (ih hRest)

/-- More calls are made behind others that have returned. -/
theorem append (h : Runs mayBreak (.ok ()) calls made returned r') (hr : r' = .ok ())
    (h' : Runs mayBreak last calls' made' returned' r) :
    Runs mayBreak last (calls ++ calls') (made ++ made') (returned ++ returned') r := by
  induction h with
  | done => exact h'
  | broken => cases hr
  | stopped => cases hr
  | next hNone _ ih => exact .next hNone (ih hr)

/-- Calls behind others are made when those have returned. -/
theorem of_append (h : Runs mayBreak last (calls ++ calls') made returned r) :
    (∃ f, r = .error f ∧ Runs mayBreak (.ok ()) calls made returned (.error f)) ∨
      ∃ made₁ made₂ returned₂, made = made₁ ++ made₂ ∧ returned = made₁ ++ returned₂ ∧
        Runs mayBreak (.ok ()) calls made₁ made₁ (.ok ()) ∧
        Runs mayBreak last calls' made₂ returned₂ r := by
  induction calls generalizing made returned with
  | nil => exact .inr ⟨[], made, returned, rfl, rfl, .done, h⟩
  | cons c rest ih =>
    cases h with
    | broken h => exact .inl ⟨_, rfl, .broken h⟩
    | stopped h => exact .inl ⟨_, rfl, .stopped h⟩
    | next hNone hRest =>
      refine (ih hRest).imp ?_ ?_
      · rintro ⟨f, rfl, hRuns⟩
        exact ⟨f, rfl, .next hNone hRuns⟩
      · rintro ⟨made₁, made₂, returned₂, rfl, rfl, hRuns, hBehind⟩
        exact ⟨_ :: made₁, made₂, returned₂, rfl, rfl, .next hNone hRuns, hBehind⟩

/-- Calls that have all returned can have any outcome behind them. -/
theorem withLast (h : Runs mayBreak (.ok ()) calls made returned r) (hr : r = .ok ()) :
    Runs mayBreak last calls made returned last := by
  have hRuns := h.append hr (.done : Runs mayBreak last [] [] [] last)
  rwa [List.append_nil, List.append_nil, List.append_nil] at hRuns

/-- Calls that have not all returned have the same outcome whatever comes behind them. -/
theorem append_error {f : Fault} (h : Runs mayBreak (.ok ()) calls made returned r)
    (hr : r = .error f) (last : Result Unit) (calls' : List Call) :
    Runs mayBreak last (calls ++ calls') made returned r := by
  induction h with
  | done => cases hr
  | broken h => exact .broken h
  | stopped h => exact .stopped h
  | next hNone _ ih => exact .next hNone (ih hr)

end Runs

/-- The calls were made one after another since the survey, with the tunnels that come of those
that have returned. -/
def Ran (start : Live) (made : Trace) (m : Manager) (mayBreak : Prop) (last : Result Unit)
    (calls : List Call) (fin : Trace → List Tunnel) (r : Result Unit) (s : Store) : Prop :=
  ∃ new returned, Runs mayBreak last calls new returned r ∧
    Surveyed start (made ++ new) m (fin returned) s

/-! ## Calls under a survey -/

/-- A wait leaves everything as it is, and may be broken off. -/
theorem surveyed_wait {on : Awaited} (hOn : ∀ goal, on ≠ .goal goal) (hR : R made m) :
    Meets (survey start R mayBreak) (Surveyed start made m ts) (Action.wait on) fun r s =>
      Surveyed start made m ts s ∧ (r = .ok .null ∨ mayBreak ∧ ∃ f, r = .error f) := by
  refine meets_wait hOn (fun s hs => hs.rests hR) fun s s' r hs hServed hComes => ?_
  exact ⟨hs.of_served hServed, hComes.imp_right fun h => ⟨h.1, _, h.2⟩⟩

/-- Any call, which is among those of the survey if it sets something up or takes something
down. -/
theorem surveyed_call_of {c : Call}
    (hR : ∀ e, R (made ++ if c.kind.isStructural then [(c, e)] else []) m) :
    Meets (survey start R mayBreak) (Surveyed start made m ts) (call c) fun r s => ∃ e,
      Surveyed start (made ++ if c.kind.isStructural then [(c, e)] else []) m ts s ∧
        (r = e.result ∨ mayBreak ∧ ∃ f, r = .error f) := by
  intro s hs
  refine meets_call (P := (· = s))
    (Surveyed start
      (made ++ if c.kind.isStructural then [(c, s.live.forecast.next c.kind)] else []) m ts)
    ?_ (fun _ h => h.rests (hR _)) (fun _ _ h hServed => h.of_served hServed) ?_ ?_ s rfl
  · rintro _ rfl
    exact hs.note c
  · intro f s' _ hs' hComes
    refine ⟨_, hs', .inr ⟨?_, f, rfl⟩⟩
    rcases hComes with hOk | ⟨hBreak, -⟩
    · cases hOk
    · exact hBreak
  · rintro _ s' rfl hs'
    exact ⟨_, hs', .inl rfl⟩

/-- A call that sets something up or takes something down. -/
theorem surveyed_call {c : Call} (hc : c.kind.isStructural = true)
    (hR : ∀ e, R (made ++ [(c, e)]) m) :
    Meets (survey start R mayBreak) (Surveyed start made m ts) (call c) fun r s => ∃ e,
      Surveyed start (made ++ [(c, e)]) m ts s ∧ (r = e.result ∨ mayBreak ∧ ∃ f, r = .error f) := by
  have hCall := @surveyed_call_of start made m ts R mayBreak c
  simp only [hc, if_true] at hCall
  exact hCall hR

/-- Any other call. -/
theorem surveyed_call_aside {c : Call} (hc : c.kind.isStructural = false) (hR : R made m) :
    Meets (survey start R mayBreak) (Surveyed start made m ts) (call c)
      fun _ => Surveyed start made m ts := by
  have hCall := @surveyed_call_of start made m ts R mayBreak c
  simp only [hc, Bool.false_eq_true, if_false, List.append_nil] at hCall
  exact (hCall fun _ => hR).mono (fun _ hs => hs) fun _ _ hs => hs.choose_spec.1

variable {last : Result Unit} {fin : Trace → List Tunnel}

theorem ran_done (hTunnels : fin [] = ts) {s : Store} (hs : Surveyed start made m ts s) :
    Ran start made m mayBreak last [] fin last s :=
  ⟨[], [], .done, by rw [List.append_nil, hTunnels]; exact hs⟩

/-- A call and then the calls behind it. -/
theorem ran_call_bind {c : Call} {rest : List Call} {f : Encounter → Action Store Unit}
    (hc : c.kind.isStructural = true) (hTunnels : fin [] = ts)
    (hR : ∀ e, R (made ++ [(c, e)]) m)
    (hf : ∀ e : Encounter, Meets (survey start R mayBreak)
      (Surveyed start (made ++ [(c, e)]) m ts) (f e)
      (Ran start (made ++ [(c, e)]) m mayBreak last rest fun returned =>
        fin ((c, e) :: returned))) :
    Meets (survey start R mayBreak) (Surveyed start made m ts) (call c >>= f)
      (Ran start made m mayBreak last (c :: rest) fin) := by
  refine meets_bind (surveyed_call hc hR) (fun x => ?_) ?_
  · rintro s ⟨e, hs, hEnd⟩
    have hOk : (.ok x : Result Encounter) = e.result := hEnd.resolve_right (by simp)
    obtain ⟨hNone, rfl⟩ := Encounter.result_eq_ok.mp hOk.symm
    refine (hf e s hs).mono ?_
    rintro r s' ⟨new, returned, hRuns, hs'⟩
    exact ⟨(c, e) :: new, (c, e) :: returned, .next hNone hRuns, by rw [List.append_cons]; exact hs'⟩
  · rintro f s ⟨e, hs, hEnd⟩
    have hStopped : e.fault = some f ∨ mayBreak :=
      hEnd.imp (fun hSame => Encounter.result_eq_error.mp hSame.symm) And.left
    exact ⟨[(c, e)], [], .stopped hStopped, hTunnels ▸ hs⟩

end

end SqlWeave
