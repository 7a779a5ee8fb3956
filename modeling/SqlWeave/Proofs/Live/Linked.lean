import SqlWeave.Proofs.Live.Turns

/-!
# Outcomes on their way

What is to be done for a thread is in the queue: a thread that is ready is to be resumed, and to
one that follows a transition that has ended the outcome is to be passed on.  Until then the
followers of a transition are known.  So a thread that follows a transition and is not cancelled
gets the outcome of just that transition.

## Main results

* `Linked.turn`, `Course.linked`: what is to be done is in the queue, in every run.
* `awaits_of_following`: a thread that follows a transition gets its outcome.
-/

namespace SqlWeave

/-- The thread for which something is to be done. -/
def Handle.thread : Handle → Nat
  | resume t | pass t .. => t

namespace Scheduler

variable {db : Database} {forecast : Forecast} {callers callers' : Callers} {s s' : Scheduler}
  {t u v : Nat}

theorem report?_eq_some {report : Report} :
    s.report? u = some report ↔ s.threads[u]? = some (.finished report) := by
  unfold report?
  split <;> simp_all

theorem report?_eq_none (hNot : ∀ report, s.threads[u]? ≠ some (.finished report)) :
    s.report? u = none := by
  cases h : s.report? u with
  | none => rfl
  | some report => exact absurd (report?_eq_some.mp h) (hNot report)

theorem report?_of_threads (h : s'.threads[u]? = s.threads[u]?) : s'.report? u = s.report? u := by
  rw [report?, report?, h]

/-- What is to be done for the threads is in the queue, except for one thread. -/
structure LinkedBut (except : Option Nat) (s : Scheduler) : Prop where
  ready : ∀ v r go, some v ≠ except → s.threads[v]? = some (.ready r go) → .resume v ∈ s.queue
  following : ∀ v u go, some v ≠ except → s.threads[v]? = some (.following u go) →
    s.report? u = none ∧ v ∈ s.followers ∨
      ∃ report, s.report? u = some report ∧ .pass v u report.outcome ∈ s.queue
  passes : ∀ v u r, .pass v u r ∈ s.queue → ∃ report, s.report? u = some report ∧ r = report.outcome

/-- What is to be done for the threads is in the queue. -/
abbrev Linked : Scheduler → Prop :=
  LinkedBut none

theorem Linked.but (h : s.Linked) (t : Nat) : s.LinkedBut (some t) where
  ready := fun v r go _ => h.ready v r go nofun
  following := fun v u go _ => h.following v u go nofun
  passes := h.passes

/-- A thread that has not ended stands in another place, and what is to be done for it is in the
queue. -/
theorem LinkedBut.settle (h : s.LinkedBut (some t)) {status : ThreadStatus}
    (hReport : s.report? t = none) (hNot : ∀ report, status ≠ .finished report)
    (hThreads : s'.threads = s.threads.set t status) (hQueue : ∀ x ∈ s.queue, x ∈ s'.queue)
    (hPasses : ∀ v u r, .pass v u r ∈ s'.queue → .pass v u r ∈ s.queue)
    (hFollowers : ∀ v, v ≠ t → v ∈ s.followers → v ∈ s'.followers)
    (hReady : ∀ r go, status = .ready r go → .resume t ∈ s'.queue)
    (hFollowing : ∀ u go, status = .following u go → s.report? u = none ∧ t ∈ s'.followers) :
    s'.Linked := by
  have hGet : ∀ {v : Nat} {other : ThreadStatus}, s'.threads[v]? = some other →
      t = v ∧ other = status ∨ t ≠ v ∧ s.threads[v]? = some other := by
    intro v other hOther
    rw [hThreads] at hOther
    exact of_getElem?_set hOther
  have hSame : ∀ u, s'.report? u = s.report? u := by
    intro u
    by_cases hEq : t = u
    · subst hEq
      rw [hReport]
      refine report?_eq_none fun report hFinished => ?_
      rcases hGet hFinished with ⟨-, hStatus⟩ | ⟨hNe, -⟩
      · exact hNot report hStatus.symm
      · exact hNe rfl
    · exact report?_of_threads (by rw [hThreads, List.getElem?_set_ne hEq])
  refine ⟨fun v r go _ hv => ?_, fun v u go _ hv => ?_, fun v u r hMem => ?_⟩
  · rcases hGet hv with ⟨rfl, hStatus⟩ | ⟨hNe, hOld⟩
    · exact hReady r go hStatus.symm
    · exact hQueue _ (h.ready v r go (fun hEq => hNe (Option.some.inj hEq).symm) hOld)
  · rw [hSame]
    rcases hGet hv with ⟨rfl, hStatus⟩ | ⟨hNe, hOld⟩
    · exact .inl (hFollowing u go hStatus.symm)
    · refine (h.following v u go (fun hEq => hNe (Option.some.inj hEq).symm) hOld).imp ?_ ?_
      · exact fun hNone => ⟨hNone.1, hFollowers v (Ne.symm hNe) hNone.2⟩
      · rintro ⟨report, hSome, hMem⟩
        exact ⟨report, hSome, hQueue _ hMem⟩
  · obtain ⟨report, hSome, hEq⟩ := h.passes v u r (hPasses v u r hMem)
    exact ⟨report, (hSame u).trans hSome, hEq⟩

theorem LinkedBut.awaken (h : s.LinkedBut (some t)) (hReport : s.report? t = none)
    (r : Result Value) (go : Continuation) : (s.awaken t r go).Linked := by
  refine h.settle hReport (by rintro _ ⟨⟩) rfl (fun x hMem => List.mem_append_left _ hMem) ?_
    (fun v _ hMem => hMem) (fun _ _ _ => List.mem_append_right _ (List.mem_singleton_self _)) nofun
  intro v u r hMem
  exact (List.mem_append.mp hMem).resolve_right (by simp)

theorem LinkedBut.hang (h : s.LinkedBut (some t)) (hReport : s.report? t = none)
    (go : Continuation) : (s.setStatus t (.hanging go)).Linked :=
  h.settle hReport (by rintro _ ⟨⟩) rfl (fun _ hMem => hMem) (fun _ _ _ hMem => hMem)
    (fun _ _ hMem => hMem) nofun nofun

theorem LinkedBut.follow (h : s.LinkedBut (some t)) (hReport : s.report? t = none)
    (hTarget : s.report? u = none) (go : Continuation) : (s.follow t u go).Linked := by
  refine h.settle hReport (by rintro _ ⟨⟩) rfl (fun _ hMem => hMem) (fun _ _ _ hMem => hMem)
    (fun _ _ hMem => List.mem_append_left _ hMem) nofun ?_
  rintro u' go' hEq
  cases hEq
  exact ⟨hTarget, List.mem_append_right _ (List.mem_singleton_self _)⟩

/-- A thread ends, and its outcome is passed on to its followers. -/
theorem LinkedBut.finish (h : s.LinkedBut (some t)) (hReport : s.report? t = none)
    (hLt : t < s.threads.length) (report : Report) : (s.finish t report).Linked := by
  have hSelf : (s.finish t report).report? t = some report :=
    report?_eq_some.mpr (List.getElem?_set_self hLt)
  have hOther : ∀ u, u ≠ t → (s.finish t report).report? u = s.report? u :=
    fun u hNe => report?_of_threads (List.getElem?_set_ne (Ne.symm hNe))
  have hNe : ∀ {v status}, (∀ report, status ≠ .finished report) →
      (s.finish t report).threads[v]? = some status → v ≠ t := by
    rintro v status hNot hv rfl
    rw [report?_eq_some.mp hSelf] at hv
    exact hNot report (Option.some.inj hv).symm
  have hGet : ∀ {v}, v ≠ t → (s.finish t report).threads[v]? = s.threads[v]? :=
    fun hNe => List.getElem?_set_ne (Ne.symm hNe)
  refine ⟨fun v r go _ hv => ?_, fun v u go _ hv => ?_, fun v u r hMem => ?_⟩
  · have hvt := hNe (by rintro _ ⟨⟩) hv
    rw [hGet hvt] at hv
    exact List.mem_append_left _ (h.ready v r go (by simpa using hvt) hv)
  · have hvt := hNe (by rintro _ ⟨⟩) hv
    rw [hGet hvt] at hv
    have hFollows : s.follows t v = (u == t) := by
      rw [follows, hv]
    have hLinked := h.following v u go (by simpa using hvt) hv
    by_cases hTarget : u = t
    · subst hTarget
      refine .inr ⟨report, hSelf, List.mem_append_right _ (List.mem_map_of_mem ?_)⟩
      rcases hLinked with ⟨-, hMem⟩ | ⟨other, hSome, -⟩
      · exact List.mem_filter.mpr ⟨hMem, hFollows.trans (beq_self_eq_true u)⟩
      · rw [hReport] at hSome
        cases hSome
    · rw [hOther u hTarget]
      refine hLinked.imp ?_ ?_
      · rintro ⟨hNone, hMem⟩
        refine ⟨hNone, List.mem_filter.mpr ⟨hMem, ?_⟩⟩
        rw [hFollows, beq_eq_false_iff_ne.mpr hTarget]
        rfl
      · rintro ⟨other, hSome, hMem⟩
        exact ⟨other, hSome, List.mem_append_left _ hMem⟩
  · rcases List.mem_append.mp hMem with hOld | hNew
    · obtain ⟨other, hSome, hEq⟩ := h.passes v u r hOld
      refine ⟨other, (hOther u ?_).trans hSome, hEq⟩
      rintro rfl
      rw [hReport] at hSome
      cases hSome
    · obtain ⟨w, -, hPass⟩ := List.mem_map.mp hNew
      cases hPass
      exact ⟨report, hSelf, rfl⟩

theorem report?_spawn (routine : Routine Store Report) (u : Nat) :
    (s.spawn routine).2.report? u = s.report? u := by
  by_cases hLt : u < s.threads.length
  · exact report?_of_threads (List.getElem?_append_left hLt)
  · have hNone : s.report? u = none := by
      refine report?_eq_none fun report hFinished => ?_
      exact hLt (List.getElem?_eq_some_iff.mp hFinished).1
    rw [hNone]
    refine report?_eq_none fun report hFinished => ?_
    have hGet : (s.threads ++ [.ready (.ok .null) (starting routine)])[u]? =
      some (.finished report) := hFinished
    by_cases hEq : u = s.threads.length
    · rw [hEq, List.getElem?_concat_length] at hGet
      cases hGet
    · exact hLt (List.getElem?_eq_some_iff.mp (getElem?_of_concat hGet hEq)).1

/-- One more thread is to be resumed. -/
theorem LinkedBut.spawn {except : Option Nat} (h : s.LinkedBut except)
    (routine : Routine Store Report) : (s.spawn routine).2.LinkedBut except := by
  have hOld : ∀ {v status}, (s.spawn routine).2.threads[v]? = some status →
      v ≠ s.threads.length → s.threads[v]? = some status :=
    fun hv hNe => getElem?_of_concat hv hNe
  have hNew : (s.spawn routine).2.threads[s.threads.length]? =
      some (.ready (.ok .null) (starting routine)) :=
    List.getElem?_concat_length
  refine ⟨fun v r go hv hGet => ?_, fun v u go hv hGet => ?_, fun v u r hMem => ?_⟩
  · by_cases hEq : v = s.threads.length
    · exact hEq ▸ List.mem_append_right _ (List.mem_singleton_self _)
    · exact List.mem_append_left _ (h.ready v r go hv (hOld hGet hEq))
  · have hEq : v ≠ s.threads.length := by
      rintro rfl
      rw [hNew] at hGet
      cases hGet
    rw [report?_spawn]
    refine (h.following v u go hv (hOld hGet hEq)).imp_right ?_
    rintro ⟨report, hSome, hMem⟩
    exact ⟨report, hSome, List.mem_append_left _ hMem⟩
  · obtain ⟨report, hSome, hEq⟩ :=
      h.passes v u r ((List.mem_append.mp hMem).resolve_right (by simp))
    exact ⟨report, (report?_spawn routine u).trans hSome, hEq⟩

/-- A thread runs until it waits or is done. -/
theorem LinkedBut.advance (h : s.LinkedBut (some t)) (hReport : s.report? t = none)
    (hLt : t < s.threads.length) (routine : Routine Store Report) :
    (s.advance t routine).Linked := by
  induction routine generalizing s with
  | done report => exact h.finish hReport hLt report
  | step change next ih =>
    exact ih s.store (s := { s with store := change s.store }) ⟨h.ready, h.following, h.passes⟩
      hReport hLt
  | wait on next ih =>
    cases on with
    | turn => exact h.awaken hReport _ _
    | release =>
      rw [Scheduler.advance]
      split
      · exact ih _ h hReport hLt
      · exact h.hang hReport _
    | goal goal =>
      rw [Scheduler.advance, seek]
      cases s.store.live.manager.pursuit goal with
      | reached value => exact ih _ h hReport hLt
      | «begin» transition =>
        have hSpawned := h.spawn (routineOf (transition.action s.database))
        have hNone := (report?_spawn (s := s) (routineOf (transition.action s.database)) t).trans
          hReport
        have hTarget : (s.spawn (routineOf (transition.action s.database))).2.report?
            s.threads.length = none := by
          rw [report?_spawn]
          refine report?_eq_none fun report hFinished => ?_
          exact Nat.lt_irrefl _ (List.getElem?_eq_some_iff.mp hFinished).1
        have hBegun : LinkedBut (some t)
            { (s.spawn (routineOf (transition.action s.database))).2 with
              store := s.store.onManager (Manager.begun transition s.threads.length) } :=
          ⟨hSpawned.ready, hSpawned.following, hSpawned.passes⟩
        exact hBegun.follow hNone hTarget _
      | follow w isFinal =>
        cases hTarget : s.report? w with
        | some report =>
          simp only [hTarget]
          exact ih _ h hReport hLt
        | none =>
          simp only [hTarget]
          exact h.follow hReport hTarget _

/-! ## Turns -/

/-- What is to be done is taken from the queue. -/
theorem LinkedBut.erase (h : s.Linked) {i : Nat} {handle : Handle}
    (hHandle : s.queue[i]? = some handle) :
    LinkedBut (some handle.thread) { s with queue := s.queue.eraseIdx i } := by
  have hKept : ∀ x ∈ s.queue, x.thread ≠ handle.thread → x ∈ s.queue.eraseIdx i := by
    intro x hMem hNe
    obtain ⟨j, hj⟩ := List.mem_iff_getElem?.mp hMem
    refine List.mem_eraseIdx_iff_getElem?.mpr ⟨j, ?_, hj⟩
    rintro rfl
    rw [hHandle] at hj
    exact hNe (congrArg Handle.thread (Option.some.inj hj).symm)
  refine ⟨fun v r go hv hGet => ?_, fun v u go hv hGet => ?_, fun v u r hMem => ?_⟩
  · exact hKept _ (h.ready v r go nofun hGet) fun hEq => hv (congrArg some hEq)
  · refine (h.following v u go nofun hGet).imp_right ?_
    rintro ⟨report, hSome, hMem⟩
    exact ⟨report, hSome, hKept _ hMem fun hEq => hv (congrArg some hEq)⟩
  · exact h.passes v u r (List.mem_of_mem_eraseIdx hMem)

/-- Nothing else was to be done for the thread. -/
theorem LinkedBut.full (h : s.LinkedBut (some t))
    (hReady : ∀ r go, s.threads[t]? = some (.ready r go) → .resume t ∈ s.queue)
    (hFollowing : ∀ u go, s.threads[t]? = some (.following u go) →
      s.report? u = none ∧ t ∈ s.followers ∨
        ∃ report, s.report? u = some report ∧ .pass t u report.outcome ∈ s.queue) :
    s.Linked where
  ready := by
    intro v r go _ hGet
    by_cases hEq : v = t
    · subst hEq
      exact hReady r go hGet
    · exact h.ready v r go (fun hSome => hEq (Option.some.inj hSome)) hGet
  following := by
    intro v u go _ hGet
    by_cases hEq : v = t
    · subst hEq
      exact hFollowing u go hGet
    · exact h.following v u go (fun hSome => hEq (Option.some.inj hSome)) hGet
  passes := h.passes

/-- A thing that is taken from the queue and does not concern what its thread waits for. -/
theorem Linked.skip (h : s.Linked) {i : Nat} {handle : Handle} (hHandle : s.queue[i]? = some handle)
    (hReady : ∀ r go, s.threads[handle.thread]? = some (.ready r go) →
      handle ≠ .resume handle.thread)
    (hFollowing : ∀ u go, s.threads[handle.thread]? = some (.following u go) →
      ∀ r, handle ≠ .pass handle.thread u r) :
    Linked { s with queue := s.queue.eraseIdx i } := by
  have hKept : ∀ x ∈ s.queue, handle ≠ x → x ∈ s.queue.eraseIdx i := by
    intro x hMem hNe
    obtain ⟨j, hj⟩ := List.mem_iff_getElem?.mp hMem
    refine List.mem_eraseIdx_iff_getElem?.mpr ⟨j, ?_, hj⟩
    rintro rfl
    rw [hHandle] at hj
    exact hNe (Option.some.inj hj)
  refine (LinkedBut.erase h hHandle).full (fun r go hGet => ?_) fun u go hGet => ?_
  · exact hKept _ (h.ready _ r go nofun hGet) (hReady r go hGet)
  · refine (h.following _ u go nofun hGet).imp_right ?_
    rintro ⟨report, hSome, hMem⟩
    exact ⟨report, hSome, hKept _ hMem (hFollowing u go hGet _)⟩

theorem Linked.fire (h : s.Linked) (i : Nat) : (s.fire i).Linked := by
  rw [Scheduler.fire]
  split
  · rename_i handle hHandle
    cases handle with
    | resume t =>
      have hRest : LinkedBut (some t) { s with queue := s.queue.eraseIdx i } :=
        LinkedBut.erase h hHandle
      rw [perform]
      split
      · rename_i r go hReady
        have hReport : s.report? t = none := by
          refine report?_eq_none fun report hFinished => ?_
          cases hFinished.symm.trans hReady
        have hLt : t < s.threads.length := (List.getElem?_eq_some_iff.mp hReady).1
        cases go with
        | go next => exact hRest.advance hReport hLt _
        | retry goal next =>
          rw [proceed]
          split
          · exact hRest.advance hReport hLt _
          · exact hRest.advance hReport hLt _
      · rename_i hNot
        refine h.skip hHandle (fun r go hGet => absurd hGet (hNot r go)) fun u go _ r => ?_
        rintro ⟨⟩
    | pass t u r =>
      have hRest : LinkedBut (some t) { s with queue := s.queue.eraseIdx i } :=
        LinkedBut.erase h hHandle
      rw [perform]
      split
      · rename_i target go hFollowing
        split
        · have hReport : s.report? t = none := by
            refine report?_eq_none fun report hFinished => ?_
            cases hFinished.symm.trans hFollowing
          exact hRest.awaken hReport r go
        · rename_i hNe
          refine h.skip hHandle (by rintro r go - ⟨⟩) fun w go' hGet r' hEq => ?_
          have hTarget : s.threads[t]? = some (.following target go) := hFollowing
          have hOther : s.threads[t]? = some (.following w go') := hGet
          rw [hTarget] at hOther
          cases hOther
          cases hEq
          exact hNe rfl
      · rename_i hNot
        exact h.skip hHandle (by rintro r go - ⟨⟩) fun w go hGet => absurd hGet (hNot w go)
  · exact h

theorem Linked.cancel (h : s.Linked) (t : Nat) : (s.cancel t).Linked := by
  have hReport : ∀ {status}, s.threads[t]? = some status →
      (∀ report, status ≠ .finished report) → s.report? t = none := by
    intro status hStatus hNot
    refine report?_eq_none fun report hFinished => ?_
    rw [hStatus] at hFinished
    exact hNot report (Option.some.inj hFinished)
  rw [Scheduler.cancel]
  split
  · rename_i r go hStatus
    refine (h.but t).settle (hReport hStatus (by rintro _ ⟨⟩)) (by rintro _ ⟨⟩) rfl
      (fun _ hMem => hMem) (fun _ _ _ hMem => hMem) (fun _ _ hMem => hMem) ?_ (by rintro _ _ ⟨⟩)
    exact fun _ _ _ => h.ready t r go (by rintro ⟨⟩) hStatus
  · rename_i go hStatus
    exact (h.but t).awaken (hReport hStatus (by rintro _ ⟨⟩)) _ go
  · rename_i u go hStatus
    refine (h.but t).settle (hReport hStatus (by rintro _ ⟨⟩)) (by rintro _ ⟨⟩) rfl
      (fun x hMem => List.mem_append_left _ hMem) (fun v w r hMem => ?_)
      (fun v hNe hMem => (List.mem_erase_of_ne hNe).mpr hMem)
      (fun _ _ _ => List.mem_append_right _ (List.mem_singleton_self _)) (by rintro _ _ ⟨⟩)
    exact (List.mem_append.mp hMem).resolve_right (by simp)
  · exact h

theorem Linked.letGo (h : s.Linked) (t : Nat) : (s.letGo t).Linked := by
  rw [Scheduler.letGo]
  split
  · rename_i go hStatus
    refine (h.but t).awaken (report?_eq_none fun report hFinished => ?_) _ go
    rw [hStatus] at hFinished
    cases hFinished
  · exact h

theorem Linked.release (h : s.Linked) : s.release.Linked :=
  release_of_letGo ⟨h.ready, h.following, h.passes⟩ fun _ t h' => h'.letGo t

/-- What is to be done is in the queue after every turn. -/
theorem Linked.turn (h : s.Linked) (hTurn : Turn db callers s callers' s') : s'.Linked := by
  cases hTurn with
  | call o => exact LinkedBut.spawn h _
  | fire i => exact h.fire i
  | cancel _ => exact h.cancel _
  | release => exact h.release

theorem linked_start {forecast : Forecast} :
    Linked { database := db, store := { live := { forecast } } } where
  ready := nofun
  following := nofun
  passes := nofun

/-- What is to be done is in the queue through every course of turns. -/
theorem Course.linked (h : s.Linked) (hCourse : Course db callers s callers' s') : s'.Linked := by
  induction hCourse with
  | refl => exact h
  | turn _ hTurn ih => exact ih.turn hTurn

/-! ## Followers -/

/-- What can come of a scheduler in any number of turns in which a thread is neither run nor
cancelled. -/
inductive Without (db : Database) (v : Nat) (callers : Callers) (s : Scheduler) :
    Callers → Scheduler → Prop
  | refl : Without db v callers s callers s
  | call {callers' : Callers} {s' : Scheduler} (h : Without db v callers s callers' s')
      (o : Operation) :
      Without db v callers s (Function.update callers' s'.threads.length (some o))
        (s'.spawn (o.routine db)).2
  | fire {callers' : Callers} {s' : Scheduler} (h : Without db v callers s callers' s') (i : Nat)
      (hRunner : s'.runner i ≠ some v) : Without db v callers s callers' (s'.fire i)
  | cancel {callers' : Callers} {s' : Scheduler} (h : Without db v callers s callers' s') {t : Nat}
      (hCaller : (callers' t).isSome = true) (hNe : t ≠ v) :
      Without db v callers s callers' (s'.cancel t)
  | release {callers' : Callers} {s' : Scheduler} (h : Without db v callers s callers' s') :
      Without db v callers s callers' s'.release

/-- A thread follows a transition, which has not ended, or it is to go on with the outcome. -/
def Awaits (v a : Nat) (go : Continuation) (s : Scheduler) : Prop :=
  s.report? a = none ∧ s.threads[v]? = some (.following a go) ∨
    ∃ report, s.report? a = some report ∧
      (s.threads[v]? = some (.following a go) ∧ .pass v a report.outcome ∈ s.queue ∨
        s.threads[v]? = some (.ready report.outcome go) ∧ .resume v ∈ s.queue)

/-- A thread that follows a transition gets its outcome, unless it is cancelled. -/
theorem awaits_of_following {a : Nat} {go : Continuation} (hLinked : s.Linked)
    (hFollowing : s.threads[v]? = some (.following a go))
    (h : Without db v callers s callers' s') : s'.Awaits v a go := by
  have hState : s'.Linked ∧ (s'.threads[v]? = some (.following a go) ∨
      ∃ report, s'.threads[a]? = some (.finished report) ∧
        s'.threads[v]? = some (.ready report.outcome go)) := by
    induction h with
    | refl => exact ⟨hLinked, .inl hFollowing⟩
    | call _ o ih =>
      refine ⟨LinkedBut.spawn ih.1 _, ih.2.imp ?_ ?_⟩
      · intro hStatus
        exact (List.getElem?_append_left (List.getElem?_eq_some_iff.mp hStatus).1).trans hStatus
      · rintro ⟨report, hReport, hStatus⟩
        exact ⟨report,
          (List.getElem?_append_left (List.getElem?_eq_some_iff.mp hReport).1).trans hReport,
          (List.getElem?_append_left (List.getElem?_eq_some_iff.mp hStatus).1).trans hStatus⟩
    | fire _ i hRunner ih =>
      refine ⟨ih.1.fire i, ?_⟩
      rcases ih.2 with hStatus | ⟨report, hReport, hStatus⟩
      · rcases getElem?_fire_of_following hStatus with hSame | ⟨r, hPass, hReady⟩
        · exact .inl hSame
        · obtain ⟨report, hReport, rfl⟩ := ih.1.passes v a r (List.mem_of_getElem? hPass)
          exact .inr ⟨report, report?_fire (report?_eq_some.mp hReport) i, hReady⟩
      · exact .inr ⟨report, report?_fire hReport i, getElem?_fire hRunner hStatus id⟩
    | cancel _ _ hNe ih =>
      refine ⟨ih.1.cancel _, ih.2.imp (getElem?_cancel hNe).trans ?_⟩
      rintro ⟨report, hReport, hStatus⟩
      exact ⟨report, report?_cancel hReport _, (getElem?_cancel hNe).trans hStatus⟩
    | release _ ih =>
      refine ⟨ih.1.release, ih.2.imp (fun hStatus => ?_) ?_⟩
      · exact (getElem?_release hStatus).resolve_right (by rintro ⟨go', ⟨⟩, -⟩)
      · rintro ⟨report, hReport, hStatus⟩
        refine ⟨report, report?_release hReport, ?_⟩
        exact (getElem?_release hStatus).resolve_right (by rintro ⟨go', ⟨⟩, -⟩)
  obtain ⟨hLinked', hStatus | ⟨report, hReport, hStatus⟩⟩ := hState
  · rcases hLinked'.following v a go nofun hStatus with ⟨hNone, -⟩ | ⟨report, hSome, hMem⟩
    · exact .inl ⟨hNone, hStatus⟩
    · exact .inr ⟨report, hSome, .inl ⟨hStatus, hMem⟩⟩
  · exact .inr ⟨report, report?_eq_some.mpr hReport, .inr ⟨hStatus,
      hLinked'.ready v _ go nofun hStatus⟩⟩

/-- When it runs it goes on with the outcome. -/
theorem Awaits.fire {a : Nat} {go : Continuation} (h : s.Awaits v a go) {i : Nat}
    (hRunner : s.runner i = some v) : ∃ report, s.report? a = some report ∧
      s.fire i = proceed v report.outcome { s with queue := s.queue.eraseIdx i } go := by
  obtain ⟨-, r, go', hReady⟩ := runner_eq_some.mp hRunner
  rcases h with ⟨-, hFollowing⟩ | ⟨report, hReport, ⟨hFollowing, -⟩ | ⟨hStatus, -⟩⟩
  · rw [hReady] at hFollowing
    cases hFollowing
  · rw [hReady] at hFollowing
    cases hFollowing
  · exact ⟨report, hReport, fire_of_runner hRunner hStatus⟩

end Scheduler

end SqlWeave
