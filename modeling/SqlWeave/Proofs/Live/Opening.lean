import SqlWeave.Proofs.Live.Safety
import SqlWeave.Proofs.Live.Survey
import SqlWeave.Session.Tunnel

/-!
# Opening a tunnel

To open a tunnel, a key is imported if there is to be one, and then the SSH connection and the
listener are asked for, one after another.  If one of these calls fails, or if the settings do not
say how to log in, the fault decides what is done: after the faults that an SSH client is known to
have the SSH connection is closed again and the fault is reworded, and after any other one nothing
is done.

## Main results

* `ran_closeTunnel`, `ran_setUpTunnel`: the calls with which a tunnel is closed and set up.
* `settled_connect`: what comes of opening a tunnel, for every way in which the calls can end.
* `connect_allOrNothing_iff`: when opening a tunnel is all or nothing.
-/

namespace SqlWeave

open SqlWeave.Action Manager

namespace Tunnel

/-! ## The calls -/

/-- The calls with which a tunnel is closed. -/
def closing (t : Nat) (tunnel : Tunnel) : List Call :=
  (if tunnel.listener.isSome then [.listenerClose t, .listenerWaitClosed t] else []) ++
    if tunnel.hasConnection then [.sshClose t, .sshWaitClosed t] else []

/-- The tunnels once one of them counts as closed. -/
def closedIn (t : Nat) (ts : List Tunnel) : List Tunnel :=
  ts.modify t ({ · with hasConnection := false, listener := none })

/-- The private key, or why it cannot be read. -/
def keyOf (db : Database) : Result (Option String) :=
  match given db.settings.tunnel.ssh.privateKey, given db.settings.tunnel.ssh.privateKeyFile with
  | some key, _ => .ok (some key)
  | none, some path => (KeyFile.read db.files path).map fun text => given (some text)
  | none, none => .ok none

/-- The options for the SSH client beyond the login name, with a key if there is one. -/
def optionsFor (db : Database) : Option String → Settings.Options
  | some key => db.settings.tunnel.client.set "client_keys" (.list [importedKey key])
  | none => db.settings.tunnel.client

/-- The options of the SSH connection, or why the settings give none: the key cannot be read, or an
option is refused. -/
def loginOptions (db : Database) : Result Settings.Options :=
  ((keyOf db).map (optionsFor db)).bind (connectOptions db)

/-- The call with which the key is imported, if there is one. -/
def importing (db : Database) : List Call :=
  match keyOf db with
  | .ok (some key) => [.importKey key db.settings.tunnel.ssh.passphrase]
  | _ => []

theorem kind_of_importing {db : Database} {c : Call} (h : c ∈ importing db) :
    c.kind = .importKey := by
  unfold importing at h
  split at h
  · rw [List.mem_singleton.mp h]
    rfl
  · cases h

/-- The calls with which the SSH connection and the listener are asked for. -/
def asking (db : Database) (t : Nat) (options : Settings.Options) : List Call :=
  let ssh := db.settings.tunnel.ssh
  let server := db.settings.tunnel.server
  let forward := db.settings.tunnel.forward
  [.sshConnect t ssh.host ssh.port options,
    .forward t server.host server.port forward.address forward.port]

/-- The calls with which a tunnel is set up, as far as the settings say how to log in. -/
def opening (db : Database) (t : Nat) : List Call :=
  importing db ++
    match loginOptions db with
    | .ok options => asking db t options
    | .error _ => []

theorem kind_of_opening {db : Database} {t : Nat} {c : Call} (h : c ∈ opening db t) :
    c.kind ≠ .createPool := by
  rcases List.mem_append.mp h with hImport | hAsk
  · rw [kind_of_importing hImport]
    nofun
  · split at hAsk
    · rcases List.mem_pair.mp hAsk with rfl | rfl <;> nofun
    · cases hAsk

/-- The tunnels once a call of the opening has returned. -/
def grow (t : Nat) (ts : List Tunnel) (x : Call × Encounter) : List Tunnel :=
  match x.1 with
  | .sshConnect .. => ts.modify t ({ · with hasConnection := true })
  | .forward .. => ts.modify t ({ · with listener := some x.2.port })
  | _ => ts

/-- The tunnels once calls of the opening have returned. -/
def opened (t : Nat) (ts : List Tunnel) (returned : Trace) : List Tunnel :=
  returned.foldl (grow t) ts

/-- Importing a key does nothing to the tunnels. -/
theorem opened_append_of_importing {t : Nat} {ts : List Tunnel} {imported : Trace}
    (h : ∀ x ∈ imported, x.1.kind = .importKey) (returned : Trace) :
    opened t ts (imported ++ returned) = opened t ts returned := by
  induction imported with
  | nil => rfl
  | cons x rest ih =>
    obtain ⟨hImport, hRest⟩ := List.forall_mem_cons.mp h
    have hSame : grow t ts x = ts := by
      obtain ⟨c, e⟩ := x
      cases c with
      | importKey => rfl
      | _ => cases hImport
    rw [List.cons_append, opened, List.foldl_cons, hSame]
    exact ih hRest

theorem opened_of_importing {t : Nat} {ts : List Tunnel} {imported : Trace}
    (h : ∀ x ∈ imported, x.1.kind = .importKey) : opened t ts imported = ts := by
  have hSame : opened t ts (imported ++ []) = ts := opened_append_of_importing h []
  rwa [List.append_nil] at hSame

end Tunnel

/-! ## Closing -/

section

variable {start : Live} {made : Trace} {m : Manager} {ts : List Tunnel} {s s' : Store}
  {R : Trace → Manager → Prop} {mayBreak : Prop} {db : Database} {t : Nat}
  (hLasting : IsLasting R)

/-- A tunnel is changed. -/
theorem Surveyed.setTunnel (hs : Surveyed start made m ts s) (f : Tunnel → Tunnel) :
    Surveyed start made m (ts.modify t f) (s.onLive (Live.setTunnel t f)) :=
  ⟨hs.calls, hs.manager, congrArg (List.modify · t f) hs.tunnels⟩

include hLasting

/-- The calls of closing a tunnel. -/
theorem ran_closeTunnel (hR : R made m) :
    Meets (survey start R mayBreak) (Surveyed start made m ts) (Tunnel.close t)
      (Ran start made m mayBreak (.ok ()) (Tunnel.closing t (ts[t]?.getD {}))
        fun _ => Tunnel.closedIn t ts) := by
  have hConnection : ∀ (opened : Tunnel) (made : Trace), R made m →
      Meets (survey start R mayBreak) (Surveyed start made m (Tunnel.closedIn t ts))
        (if opened.hasConnection = true then do
          let _ ← call (.sshClose t)
          let _ ← call (.sshWaitClosed t)
          pure ()
        else pure ())
        (Ran start made m mayBreak (.ok ())
          (if opened.hasConnection then [.sshClose t, .sshWaitClosed t] else [])
          fun _ => Tunnel.closedIn t ts) := by
    intro opened made hR
    cases opened.hasConnection with
    | true =>
      refine ran_call_bind rfl rfl (fun _ => hLasting.call nofun hR) fun e => ?_
      refine ran_call_bind rfl rfl
        (fun _ => hLasting.call nofun (hLasting.call nofun hR)) fun e => ?_
      exact meets_pure fun s hs => ran_done rfl hs
    | false => exact meets_pure fun s hs => ran_done rfl hs
  unfold Tunnel.close
  refine meets_onLive_bind
    (R := fun opened s => opened = ts[t]?.getD {} ∧ Surveyed start made m (Tunnel.closedIn t ts) s)
    (fun s hs => ?_) fun opened => ?_
  · exact ⟨congrArg (fun ts : List Tunnel => ts[t]?.getD {}) hs.tunnels, hs.setTunnel _⟩
  · rintro s ⟨rfl, hs⟩
    revert s hs
    show Meets _ _ (if (ts[t]?.getD {}).listener.isSome = true then _ else _) _
    unfold Tunnel.closing
    cases (ts[t]?.getD {}).listener.isSome with
    | true =>
      refine ran_call_bind rfl rfl (fun _ => hLasting.call nofun hR) fun e => ?_
      refine ran_call_bind rfl rfl
        (fun _ => hLasting.call nofun (hLasting.call nofun hR)) fun e' => ?_
      exact hConnection _ _ (hLasting.call nofun (hLasting.call nofun hR))
    | false => exact hConnection _ _ hR

/-! ## Setting up -/

omit hLasting in
/-- The private key is looked up, or its file is read. -/
theorem surveyed_privateKey (hR : R made m) :
    Meets (survey start R mayBreak) (Surveyed start made m ts) (Tunnel.privateKey db) fun r s =>
      Surveyed start made m ts s ∧ (r = Tunnel.keyOf db ∨ mayBreak ∧ ∃ f, r = .error f) := by
  unfold Tunnel.privateKey
  cases hGiven : Tunnel.given db.settings.tunnel.ssh.privateKey with
  | some key =>
    have hKey : Tunnel.keyOf db = .ok (some key) := by
      rw [Tunnel.keyOf, hGiven]
    rw [hKey]
    exact meets_pure fun s hs => ⟨hs, .inl rfl⟩
  | none =>
    cases hFile : Tunnel.given db.settings.tunnel.ssh.privateKeyFile with
    | none =>
      have hKey : Tunnel.keyOf db = .ok none := by
        rw [Tunnel.keyOf, hGiven, hFile]
      rw [hKey]
      exact meets_pure fun s hs => ⟨hs, .inl rfl⟩
    | some path =>
      have hKey : Tunnel.keyOf db =
          (KeyFile.read db.files path).map fun text => Tunnel.given (some text) := by
        rw [Tunnel.keyOf, hGiven, hFile]
      rw [hKey]
      refine meets_bind (surveyed_wait (fun _ => nofun) hR) (fun _ => ?_) fun f s hs =>
        ⟨hs.1, .inr ⟨(hs.2.resolve_left nofun).1, f, rfl⟩⟩
      cases KeyFile.read db.files path with
      | ok text =>
        exact meets_bind_of_ok (meets_ofResult fun s hs => ⟨rfl, hs⟩)
          (meets_pure fun s hs => ⟨hs.1, .inl rfl⟩)
      | error f =>
        exact meets_bind_of_error (meets_ofResult fun s hs => ⟨rfl, hs⟩) fun s hs =>
          ⟨hs.1, .inl rfl⟩

/-- A key is imported if there is one. -/
theorem ran_clientOptions (hR : R made m) :
    Meets (survey start R mayBreak) (Surveyed start made m ts) (Tunnel.clientOptions db) fun r s =>
      ∃ new returned r', Runs mayBreak (.ok ()) (Tunnel.importing db) new returned r' ∧
        Surveyed start (made ++ new) m ts s ∧
        r = r'.bind fun _ => (Tunnel.keyOf db).map (Tunnel.optionsFor db) := by
  refine meets_bind (surveyed_privateKey hR) (fun key => ?_) ?_
  · cases key with
    | none =>
      refine meets_pure fun s hs => ?_
      have hKey : Tunnel.keyOf db = .ok none := (hs.2.resolve_right (by simp)).symm
      rw [Tunnel.importing, hKey]
      exact ⟨[], [], .ok (), .done, (List.append_nil made).symm ▸ hs.1, rfl⟩
    | some key =>
      rintro s ⟨hs, hSome⟩
      have hKey : Tunnel.keyOf db = .ok (some key) := (hSome.resolve_right (by simp)).symm
      rw [Tunnel.importing, hKey]
      have hImport : ∀ e, R (made ++ [(.importKey key db.settings.tunnel.ssh.passphrase, e)]) m :=
        fun e => hLasting.call nofun hR
      refine meets_bind (surveyed_call rfl hImport) (fun x => meets_pure ?_) ?_ s hs
      · rintro s ⟨e, hs, hEnd⟩
        obtain ⟨hNone, -⟩ := Encounter.result_eq_ok.mp (hEnd.resolve_right (by simp)).symm
        exact ⟨[_], [_], .ok (), .next hNone .done, hs, rfl⟩
      · rintro f s ⟨e, hs, hEnd⟩
        have hStopped : e.fault = some f ∨ mayBreak :=
          hEnd.imp (fun hSame => Encounter.result_eq_error.mp hSame.symm) And.left
        exact ⟨[_], [], .error f, .stopped hStopped, hs, rfl⟩
  · rintro f s ⟨hs, hFault | ⟨hBreak, -⟩⟩
    · rw [Tunnel.importing, ← hFault]
      exact ⟨[], [], .ok (), .done, (List.append_nil made).symm ▸ hs, rfl⟩
    · exact ⟨[], [], .error f, .broken hBreak, (List.append_nil made).symm ▸ hs, rfl⟩

/-- The SSH connection and the listener are asked for. -/
theorem ran_asking (options : Settings.Options) (hR : R made m) :
    Meets (survey start R mayBreak) (Surveyed start made m ts) (do
        let ssh := db.settings.tunnel.ssh
        Action.change (Store.onLive ({ · with lastTunnel := some t }))
        let _ ← call (.sshConnect t ssh.host ssh.port options)
        Action.change (Store.onLive (Live.setTunnel t ({ · with hasConnection := true })))
        let server := db.settings.tunnel.server
        let forward := db.settings.tunnel.forward
        let e ← call (.forward t server.host server.port forward.address forward.port)
        Action.change (Store.onLive (Live.setTunnel t ({ · with listener := some e.port }))))
      (Ran start made m mayBreak (.ok ()) (Tunnel.asking db t options) (Tunnel.opened t ts)) := by
  refine meets_change_bind (R := Surveyed start made m ts)
    (fun s hs => ⟨(hs.of_eq rfl rfl).calls, hs.manager, hs.tunnels⟩) ?_
  refine ran_call_bind rfl rfl (fun _ => hLasting.call nofun hR) fun e => ?_
  refine meets_change_bind (fun s hs => hs.setTunnel _) ?_
  refine ran_call_bind rfl rfl (fun _ => hLasting.call nofun (hLasting.call nofun hR)) fun e' => ?_
  exact meets_change fun s hs => ran_done rfl (hs.setTunnel _)

/-- The calls of setting up a tunnel. -/
theorem ran_setUpTunnel (hR : R made m) :
    Meets (survey start R mayBreak) (Surveyed start made m ts) (Tunnel.setUp db t)
      (Ran start made m mayBreak ((Tunnel.loginOptions db).map fun _ => ()) (Tunnel.opening db t)
        (Tunnel.opened t ts)) := by
  have hNone : ∀ {imported returned : Trace} {r : Result Unit},
      Runs mayBreak (.ok ()) (Tunnel.importing db) imported returned r →
      Tunnel.opened t ts returned = ts := by
    intro imported returned r hImported
    exact Tunnel.opened_of_importing fun x hMem =>
      Tunnel.kind_of_importing (hImported.mem_of_returned hMem)
  refine meets_bind (ran_clientOptions hLasting hR) (fun options => ?_) ?_
  · rintro s ⟨imported, returned, r, hImported, hs, hOptions⟩
    cases r with
    | error f => cases hOptions
    | ok _ =>
      have hSome : .ok options = (Tunnel.keyOf db).map (Tunnel.optionsFor db) := hOptions
      have hLogin : Tunnel.loginOptions db = Tunnel.connectOptions db options := by
        rw [Tunnel.loginOptions, ← hSome]
        rfl
      have hStays : R (made ++ imported) m :=
        hLasting.append (fun x hMem => by rw [Tunnel.kind_of_importing (hImported.mem hMem)]; nofun)
          hR
      rw [Tunnel.opening, hLogin]
      cases Tunnel.connectOptions db options with
      | error f =>
        refine meets_bind_of_error (P := Surveyed start (made ++ imported) m ts)
          (meets_ofResult fun s hs => ⟨rfl, hs⟩) (fun s hs => ?_) s hs
        refine ⟨imported ++ [], returned ++ [], hImported.append rfl .done, ?_⟩
        rw [List.append_nil, List.append_nil, hNone hImported]
        exact hs
      | ok options =>
        refine meets_bind_of_ok (meets_ofResult fun s hs => ⟨rfl, hs⟩)
          ((ran_asking hLasting options hStays).mono (fun s hs => hs) ?_) s hs
        rintro r s ⟨new, behind, hRuns, hs⟩
        refine ⟨imported ++ new, returned ++ behind, hImported.append rfl hRuns, ?_⟩
        rw [Tunnel.opened_append_of_importing fun x hMem =>
            Tunnel.kind_of_importing (hImported.mem_of_returned hMem), ← List.append_assoc]
        exact hs
  · rintro f s ⟨imported, returned, r, hImported, hs, hFault⟩
    cases r with
    | error g =>
      cases hFault
      refine ⟨imported, returned, hImported.append_error rfl _ _, ?_⟩
      rw [hNone hImported]
      exact hs
    | ok _ =>
      have hNoKey : .error f = (Tunnel.keyOf db).map (Tunnel.optionsFor db) := hFault
      have hLogin : Tunnel.loginOptions db = .error f := by
        rw [Tunnel.loginOptions, ← hNoKey]
        rfl
      rw [Tunnel.opening, hLogin]
      refine ⟨imported ++ [], returned ++ [], hImported.append rfl .done, ?_⟩
      rw [List.append_nil, List.append_nil, hNone hImported]
      exact hs

/-! ## Opening -/

/-- What comes of opening a tunnel: the calls of setting it up were made, and behind a fault that
an SSH client is known to have those of closing it. -/
inductive Tunnel.Settled (db : Database) (t : Nat) (start : Live) (made : Trace) (m : Manager)
    (ts : List Tunnel) (mayBreak : Prop) : Result Unit → Store → Prop
  | opened {new returned : Trace} {s : Store}
      (hRuns : Runs mayBreak ((loginOptions db).map fun _ => ()) (opening db t) new returned (.ok ()))
      (hs : Surveyed start (made ++ new) m (Tunnel.opened t ts returned) s) :
      Settled db t start made m ts mayBreak (.ok ()) s
  | closed {new returned : Trace} {f : Fault} {r : Result Unit} {s : Store}
      (hRuns : Runs mayBreak ((loginOptions db).map fun _ => ()) (opening db t) new returned
        (.error f))
      (hExpected : isExpected f = true)
      (hClosing : Ran start (made ++ new) m mayBreak
        (.error (.connection (.tunnelFailed (serverAddress db) f.message)))
        (closing t ((Tunnel.opened t ts returned)[t]?.getD {}))
        (fun _ => closedIn t (Tunnel.opened t ts returned)) r s) :
      Settled db t start made m ts mayBreak r s
  | left {new returned : Trace} {f : Fault} {s : Store}
      (hRuns : Runs mayBreak ((loginOptions db).map fun _ => ()) (opening db t) new returned
        (.error f))
      (hNot : isExpected f = false)
      (hs : Surveyed start (made ++ new) m (Tunnel.opened t ts returned) s) :
      Settled db t start made m ts mayBreak (.error f) s

/-- Opening a tunnel.  Behind the closing the fault is reworded, unless the closing fails. -/
theorem settled_connect (hR : R made m) :
    Meets (survey start R mayBreak) (Surveyed start made m ts) (Tunnel.connect db t)
      (Tunnel.Settled db t start made m ts mayBreak) := by
  refine meets_outcome_bind (ran_setUpTunnel hLasting hR) fun r => ?_
  rintro s ⟨new, returned, hRuns, hs⟩
  cases r with
  | ok _ => exact .opened hRuns hs
  | error f =>
    have hStays : R (made ++ new) m :=
      hLasting.append (fun x hMem => Tunnel.kind_of_opening (hRuns.mem hMem)) hR
    show Routine.Keeps _ _ (if Tunnel.isExpected f = true then _ else _) s
    cases hExpected : Tunnel.isExpected f with
    | true =>
      refine meets_bind (ran_closeTunnel hLasting hStays) (fun _ => meets_throw ?_) ?_ s hs
      · rintro s ⟨more, behind, hClosing, hs⟩
        exact .closed hRuns hExpected ⟨more, behind, hClosing.withLast rfl, hs⟩
      · rintro g s ⟨more, behind, hClosing, hs⟩
        have hError := hClosing.append_error rfl
          (.error (.connection (.tunnelFailed (Tunnel.serverAddress db) f.message))) []
        rw [List.append_nil] at hError
        exact .closed hRuns hExpected ⟨more, behind, hError, hs⟩
    | false => exact meets_throw (fun s hs => .left hRuns hExpected hs) s hs

end

/-! ## All or nothing -/

namespace Tunnel

/-- The settings do not say how to log in: why they do not. -/
def settingsFault (db : Database) : Option Fault :=
  match loginOptions db with
  | .ok _ => none
  | .error f => some f

/-- The fault for which a tunnel was not opened, by the calls that were made. -/
def cause (db : Database) (made : Trace) : Option Fault :=
  made.firstFault?.or (settingsFault db)

/-- Opening is all or nothing: an SSH connection and a listener were opened, neither was closed, and
the tunnel has the listener's port in its local address; or the fault is one of the connection,
every SSH connection that was opened was closed after that, and the tunnel has no local address. -/
def AllOrNothing (db : Database) (t : Nat) (made : Trace) (r : Result Unit) (l : Live) : Prop :=
  match r with
  | .ok _ => (l.tunnel t).hasConnection = true ∧
    (∃ x ∈ made, x.1.kind = .sshConnect ∧ x.2.fault = none) ∧
    (∃ x ∈ made, x.1.kind = .forward ∧ x.2.fault = none ∧
      localAddress db l t = .ok (db.settings.tunnel.server.host, x.2.port)) ∧
    ∀ x ∈ made, x.1.kind.isClosing = false
  | .error f => f.isConnection = true ∧
    (∀ before c e after, made = before ++ (c, e) :: after → c.kind = .sshConnect →
      e.fault = none → .sshClose t ∈ after.map Prod.fst) ∧
    localAddress db l t = .error (.connection .tunnelNotOpen)

theorem isExpected_of_isConnection {f : Fault} (h : f.isConnection = true) :
    isExpected f = true := by
  have hSystem : ∀ kind : FaultKind, kind.isConnection = true → kind.isSystem = true := by
    intro kind hKind
    cases kind <;> first | rfl | cases hKind
  rw [isExpected, hSystem f.kind h]
  rfl

theorem isClosing_of_closing {t : Nat} {tunnel : Tunnel} {c : Call} (h : c ∈ closing t tunnel) :
    c.kind.isClosing = true := by
  unfold closing at h
  rcases List.mem_append.mp h with hListener | hConnection
  · split at hListener
    · rcases List.mem_pair.mp hListener with rfl | rfl <;> rfl
    · cases hListener
  · split at hConnection
    · rcases List.mem_pair.mp hConnection with rfl | rfl <;> rfl
    · cases hConnection

section

variable {db : Database} {t : Nat} {ts : List Tunnel} {new returned : Trace}
  {fault : Option Fault}

theorem isClosing_of_opening {c : Call} (h : c ∈ opening db t) : c.kind.isClosing = false := by
  rcases List.mem_append.mp h with hImport | hAsk
  · rw [kind_of_importing hImport]
    rfl
  · split at hAsk
    · rcases List.mem_pair.mp hAsk with rfl | rfl <;> rfl
    · cases hAsk

/-- A tunnel is opened with these calls: a key may have been imported before the SSH connection and
the listener, which listens at a port, were opened. -/
def Opens (db : Database) (t : Nat) (made : Trace) (port : Int) : Prop :=
  ∃ imported connected listening options, made = imported ++ [connected, listening] ∧
    asking db t options = [connected.1, listening.1] ∧ (∀ x ∈ imported, x.1.kind = .importKey) ∧
    (∀ x ∈ made, x.2.fault = none) ∧ listening.2.port = port

/-- A tunnel that was set up was opened. -/
theorem opens_of_ok {mayBreak : Prop}
    (h : Runs mayBreak ((loginOptions db).map fun _ => ()) (opening db t) new returned (.ok ())) :
    returned = new ∧ (∃ port, Opens db t new port) ∧ cause db new = none := by
  obtain ⟨hLast, hReturned, -, hAll⟩ := h.of_ok rfl
  cases hLogin : loginOptions db with
  | error f =>
    rw [hLogin] at hLast
    cases hLast
  | ok options =>
    have hCause : cause db new = none := by
      rw [cause, Trace.firstFault?_eq_none hAll, settingsFault, hLogin]
      rfl
    refine ⟨hReturned, ?_, hCause⟩
    rw [opening, hLogin] at h
    obtain ⟨f, hFault, -⟩ | ⟨imported, asked, behind, rfl, rfl, hImported, hAsked⟩ := h.of_append
    · cases hFault
    · cases hAsked with
      | @next c _ e _ _ _ _ hRest =>
        cases hRest with
        | @next c' _ e' _ _ _ _ hRest =>
          cases hRest
          exact ⟨e'.port, imported, (_, e), (_, e'), options, rfl, rfl,
            fun x hMem => kind_of_importing (hImported.mem hMem), hAll, rfl⟩

theorem Opens.calls {port : Int} (h : Opens db t new port) :
    (∃ x ∈ new, x.1.kind = .sshConnect ∧ x.2.fault = none) ∧
      ∃ x ∈ new, x.1.kind = .forward ∧ x.2.fault = none ∧ x.2.port = port := by
  obtain ⟨imported, connected, listening, options, rfl, hAsking, -, hAll, rfl⟩ := h
  obtain ⟨hConnected, hListens⟩ : connected.1.kind = .sshConnect ∧ listening.1.kind = .forward := by
    rw [← (List.cons.inj hAsking).1, ← (List.cons.inj (List.cons.inj hAsking).2).1]
    exact ⟨rfl, rfl⟩
  have hMem : connected ∈ imported ++ [connected, listening] := by simp
  have hMem' : listening ∈ imported ++ [connected, listening] := by simp
  exact ⟨⟨connected, hMem, hConnected, hAll _ hMem⟩, listening, hMem', hListens, hAll _ hMem', rfl⟩

/-- A tunnel that was opened has an SSH connection, and a listener at the port. -/
theorem Opens.opened {port : Int} (h : Opens db t new port)
    (hShut : ts[t]? = some { transportFault := fault }) :
    (Tunnel.opened t ts new)[t]? =
      some { hasConnection := true, listener := some port, transportFault := fault } := by
  obtain ⟨imported, ⟨_, e⟩, ⟨_, e'⟩, options, rfl, hAsking, hImported, -, rfl⟩ := h
  rw [opened_append_of_importing hImported]
  cases hAsking
  simp [Tunnel.opened, grow, hShut]

/-- The local address of a tunnel that was opened is where its listener is. -/
theorem Opens.localAddress_eq {port : Int} {l : Live} (h : Opens db t new port)
    (hShut : ts[t]? = some { transportFault := fault })
    (hTunnels : l.tunnels = Tunnel.opened t ts new) :
    localAddress db l t = .ok (db.settings.tunnel.server.host, port) := by
  rw [localAddress, Live.tunnel, hTunnels, h.opened hShut, Option.getD_some]

/-- A tunnel that was not set up was not for the fault with which that ended. -/
theorem cause_of_error {f : Fault}
    (h : Runs False ((loginOptions db).map fun _ => ()) (opening db t) new returned (.error f)) :
    cause db new = some f := by
  rw [cause]
  rcases h.firstFault? rfl with hFirst | ⟨hLast, hNone⟩
  · rw [hFirst]
    rfl
  · rw [hNone, settingsFault]
    cases hLogin : loginOptions db with
    | ok options =>
      rw [hLogin] at hLast
      cases hLast
    | error g =>
      rw [hLogin] at hLast
      cases hLast
      rfl

/-- What was asked for if the listener or the SSH connection could not be opened. -/
theorem asking_of_error (ts : List Tunnel) {options : Settings.Options} {f : Fault}
    (h : Runs False (.ok ()) (asking db t options) new returned (.error f)) :
    returned = [] ∧ (∀ x ∈ new, x.2.fault ≠ none) ∨
      (opened t ts returned = ts.modify t ({ · with hasConnection := true })) ∧
        new.firstFault? = some f := by
  have hFirst := (h.firstFault? rfl).resolve_right nofun
  cases h with
  | broken hBreak => exact hBreak.elim
  | @stopped _ _ e _ hStopped =>
    refine .inl ⟨rfl, fun x hMem => ?_⟩
    rw [List.mem_singleton.mp hMem, hStopped.resolve_right id]
    nofun
  | next _ hRest =>
    refine .inr ⟨?_, hFirst⟩
    cases hRest with
    | broken hBreak => exact hBreak.elim
    | stopped _ => rfl
    | next _ hEnd =>
      cases hEnd with
      | broken hBreak => exact hBreak.elim

/-- A tunnel that was not set up has no listener, and it has an SSH connection only if that was
opened before the fault. -/
theorem opened_of_error (hShut : ts[t]? = some { transportFault := fault }) {f : Fault}
    (h : Runs False ((loginOptions db).map fun _ => ()) (opening db t) new returned (.error f)) :
    (opened t ts returned)[t]?.getD {} = { transportFault := fault } ∧
        (∀ x ∈ new, x.1.kind = .sshConnect → x.2.fault ≠ none) ∨
      (opened t ts returned)[t]?.getD {} = { hasConnection := true, transportFault := fault } ∧
        new.firstFault? = some f := by
  have hUnasked : ∀ {imported : Trace}, (∀ x ∈ imported, x.1 ∈ importing db) →
      ∀ x ∈ imported, x.1.kind = .sshConnect → x.2.fault ≠ none := by
    intro imported hImport x hMem hKind
    rw [kind_of_importing (hImport x hMem)] at hKind
    cases hKind
  rcases h.of_append with ⟨_, -, hImported⟩ | ⟨imported, asked, behind, rfl, rfl, hImported, hAsked⟩
  · refine .inl ⟨?_, hUnasked fun x hMem => hImported.mem hMem⟩
    rw [opened_of_importing fun x hMem => kind_of_importing (hImported.mem_of_returned hMem), hShut]
    rfl
  · have hAll := (hImported.of_ok rfl).2.2.2
    rw [opened_append_of_importing fun x hMem => kind_of_importing (hImported.mem hMem)]
    cases hLogin : loginOptions db with
    | error g =>
      rw [hLogin] at hAsked
      have hNone : asked = [] ∧ behind = [] := by
        cases hAsked with
        | done => exact ⟨rfl, rfl⟩
        | broken hBreak => exact hBreak.elim
      obtain ⟨rfl, rfl⟩ := hNone
      rw [List.append_nil, opened, List.foldl_nil, hShut]
      exact .inl ⟨rfl, hUnasked fun x hMem => hImported.mem hMem⟩
    | ok options =>
      rw [hLogin] at hAsked
      rcases asking_of_error ts hAsked with ⟨rfl, hFaults⟩ | ⟨hOpened, hFirst⟩
      · rw [opened, List.foldl_nil, hShut]
        refine .inl ⟨rfl, fun x hMem hKind => ?_⟩
        rcases List.mem_append.mp hMem with hImport | hAsk
        · exact hUnasked (fun x hMem => hImported.mem hMem) x hImport hKind
        · exact hFaults x hAsk
      · rw [hOpened, Trace.firstFault?_append, Trace.firstFault?_eq_none hAll, hFirst]
        exact .inr ⟨by simp [hShut], rfl⟩

/-- What fails in the opening is a fault that an SSH client is known to have, and what fails in the
closing behind it is a fault of the connection. -/
structure FailsAsKnown (db : Database) (made : Trace) : Prop where
  opening : ∀ f, cause db made = some f → isExpected f = true
  closing : ∀ x ∈ made, x.1.kind.isClosing = true → ∀ g, x.2.fault = some g → g.isConnection = true

variable {start : Live} {m : Manager} {s : Store} {f g : Fault}

/-- A tunnel that was opened. -/
theorem allOrNothing_of_opened (hShut : ts[t]? = some { transportFault := fault })
    (hRuns : Runs False ((loginOptions db).map fun _ => ()) (opening db t) new returned (.ok ()))
    (hs : Surveyed start new m (opened t ts returned) s) :
    AllOrNothing db t new (.ok ()) s.live ∧ FailsAsKnown db new := by
  obtain ⟨rfl, ⟨port, hOpens⟩, hCause⟩ := opens_of_ok hRuns
  have hNow : s.live.tunnel t =
      { hasConnection := true, listener := some port, transportFault := fault } := by
    rw [Live.tunnel, hs.tunnels, hOpens.opened hShut, Option.getD_some]
  have hNotClosing : ∀ x ∈ returned, x.1.kind.isClosing = false :=
    fun x hMem => isClosing_of_opening (hRuns.mem hMem)
  obtain ⟨hConnected, x, hMem, hForward, hListens, hPort⟩ := hOpens.calls
  refine ⟨⟨by rw [hNow], hConnected, ⟨x, hMem, hForward, hListens, ?_⟩, hNotClosing⟩,
    fun f hFault => ?_, fun x hMem hClosing => ?_⟩
  · rw [hPort]
    exact hOpens.localAddress_eq hShut hs.tunnels
  · rw [hCause] at hFault
    cases hFault
  · rw [hNotClosing x hMem] at hClosing
    cases hClosing

/-- A tunnel that counts as closed has no local address. -/
theorem localAddress_of_closedIn (hs : Surveyed start new m (closedIn t ts) s) :
    localAddress db s.live t = .error (.connection .tunnelNotOpen) := by
  have hListener : (s.live.tunnel t).listener = none := by
    rw [Live.tunnel, hs.tunnels, closedIn, List.getElem?_modify_eq]
    cases ts[t]? <;> rfl
  rw [localAddress, hListener]

/-- A tunnel of which nothing was opened. -/
theorem allOrNothing_of_unopened
    (hRuns : Runs False ((loginOptions db).map fun _ => ()) (opening db t) new returned (.error f))
    (hFailed : ∀ x ∈ new, x.1.kind = .sshConnect → x.2.fault ≠ none)
    (hExpected : isExpected f = true) (hConnection : g.isConnection = true)
    (hs : Surveyed start new m (closedIn t ts) s) :
    AllOrNothing db t new (.error g) s.live ∧ FailsAsKnown db new := by
  refine ⟨⟨hConnection, ?_, localAddress_of_closedIn hs⟩, fun f' hFault => ?_,
    fun x hMem hClosing => ?_⟩
  · rintro before c e after rfl hKind hNone
    exact absurd hNone (hFailed (c, e) (by simp) hKind)
  · rw [cause_of_error hRuns, Option.some.injEq] at hFault
    exact hFault ▸ hExpected
  · rw [isClosing_of_opening (hRuns.mem hMem)] at hClosing
    cases hClosing

/-- A tunnel whose SSH connection was opened is closed again; that is all or nothing exactly if the
closing does not fail with a fault of another kind. -/
theorem allOrNothing_iff_of_connected {more behind : Trace} {last : Fault}
    (hRuns : Runs False ((loginOptions db).map fun _ => ()) (opening db t) new returned (.error f))
    (hFirst : new.firstFault? = some f) (hExpected : isExpected f = true)
    (hLast : last.isConnection = true)
    (hClosing : Runs False (.error last) [.sshClose t, .sshWaitClosed t] more behind (.error g))
    (hs : Surveyed start (new ++ more) m (closedIn t ts) s) :
    AllOrNothing db t (new ++ more) (.error g) s.live ↔ FailsAsKnown db (new ++ more) := by
  have hKinds : ∀ x ∈ more, x.1.kind.isClosing = true := by
    intro x hMem
    rcases List.mem_pair.mp (hClosing.mem hMem) with hCall | hCall <;> rw [hCall] <;> rfl
  have hClosed : ∀ before c e after, new ++ more = before ++ (c, e) :: after →
      c.kind = .sshConnect → e.fault = none → .sshClose t ∈ after.map Prod.fst := by
    intro before c e after hSplit hKind _
    have hNot : (c, e) ∉ more := fun hMem => by
      have := hKinds _ hMem
      rw [hKind] at this
      cases this
    rcases List.append_eq_append_iff.mp hSplit with ⟨rest, -, rfl⟩ | ⟨rest, -, hRest⟩
    · exact absurd (by simp) hNot
    · cases rest with
      | nil =>
        have hMore : (c, e) :: after = more := hRest
        exact absurd (hMore ▸ List.mem_cons_self) hNot
      | cons y rest =>
        have hAfter : after = rest ++ more := (List.cons.inj hRest).2
        rw [hAfter, List.map_append]
        exact List.mem_append_right _ hClosing.head_mem
  have hCause : cause db (new ++ more) = some f := by
    rw [cause, Trace.firstFault?_append, hFirst]
    rfl
  obtain ⟨hReturned, hEnd⟩ := hClosing.of_error rfl
  constructor
  · rintro ⟨hConnection, -, -⟩
    refine ⟨fun f' hFault => ?_, fun x hMem hKind g' hFault => ?_⟩
    · rw [hCause, Option.some.injEq] at hFault
      exact hFault ▸ hExpected
    · rcases List.mem_append.mp hMem with hNew | hMore
      · rw [isClosing_of_opening (hRuns.mem hNew)] at hKind
        cases hKind
      · rcases hEnd with ⟨-, rfl, -⟩ | ⟨c, e, rfl, hStopped⟩
        · rw [hReturned x hMore] at hFault
          cases hFault
        · rcases List.mem_append.mp hMore with hBehind | hLast
          · rw [hReturned x hBehind] at hFault
            cases hFault
          · rw [List.mem_singleton.mp hLast, hStopped, Option.some.injEq] at hFault
            exact hFault ▸ hConnection
  · intro hKnown
    refine ⟨?_, hClosed, localAddress_of_closedIn hs⟩
    rcases hEnd with ⟨hEq, -, -⟩ | ⟨c, e, rfl, hStopped⟩
    · cases hEq
      exact hLast
    · exact hKnown.closing (c, e) (by simp) (hKinds (c, e) (by simp)) g hStopped

/-- Opening a tunnel that is not open is all or nothing exactly if the fault for which it is not
opened, if there is one, is among those that an SSH client is known to have, and nothing fails in
the closing behind it but with a fault of the connection. -/
theorem connect_allOrNothing_iff (db : Database)
    (hShut : s.live.tunnels[t]? = some { transportFault := fault }) :
    Meets (survey s.live (fun _ _ => True) False) (· = s) (connect db t) fun r s' =>
      ∃ made ts, Surveyed s.live made s.live.manager ts s' ∧
        (AllOrNothing db t made r s'.live ↔ FailsAsKnown db made) := by
  have hLasting : IsLasting fun _ _ => True := ⟨fun _ _ => trivial, fun _ _ _ => trivial⟩
  have hConnect : Meets (survey s.live (fun _ _ => True) False)
      (Surveyed s.live [] s.live.manager s.live.tunnels) (connect db t)
      (Settled db t s.live [] s.live.manager s.live.tunnels False) :=
    settled_connect hLasting trivial
  refine hConnect.mono (fun _ h => h ▸ surveyed_start s) fun r s' hSettled => ?_
  cases hSettled with
  | @opened new returned _ hRuns hs =>
    obtain ⟨hAll, hKnown⟩ := allOrNothing_of_opened hShut hRuns hs
    exact ⟨new, _, hs, iff_of_true hAll hKnown⟩
  | @closed new returned f _ _ hRuns hExpected hClosing =>
    obtain ⟨more, behind, hClosing, hs⟩ := hClosing
    refine ⟨new ++ more, _, hs, ?_⟩
    have hConnection : Fault.isConnection (.connection (.tunnelFailed (serverAddress db) f.message))
        = true := rfl
    obtain ⟨g, rfl⟩ : ∃ g, r = .error g := by
      cases r with
      | ok _ => cases (hClosing.of_ok rfl).1
      | error g => exact ⟨g, rfl⟩
    rcases opened_of_error hShut hRuns with ⟨hTunnel, hFailed⟩ | ⟨hTunnel, hFirst⟩
    · rw [hTunnel] at hClosing
      cases hClosing with
      | done =>
        rw [List.append_nil]
        have h := allOrNothing_of_unopened hRuns hFailed hExpected hConnection
          (List.append_nil new ▸ hs)
        exact iff_of_true h.1 h.2
      | broken hBreak => exact hBreak.elim
    · rw [hTunnel] at hClosing
      exact allOrNothing_iff_of_connected hRuns hFirst hExpected hConnection hClosing hs
  | @left new returned f _ hRuns hNot hs =>
    refine ⟨new, _, hs, iff_of_false (fun hAll => ?_) fun hKnown => ?_⟩
    · have hExpected := isExpected_of_isConnection hAll.1
      rw [hNot] at hExpected
      cases hExpected
    · have hExpected := hKnown.opening f (cause_of_error hRuns)
      rw [hNot] at hExpected
      cases hExpected

/-- The SSH client opens no listener, with a fault of this kind. -/
def listenerFails (kind : FaultKind) : Forecast
  | .forward => [{ fault := some (.raised kind [.str "boom"]) }]
  | _ => []

/-- A tunnel without a listener. -/
theorem connect_allOrNothing_refused :
    let s : Store := { live := { forecast := listenerFails .refused, tunnels := [{}] } }
    s.live.tunnels[0]? = some { transportFault := none } ∧
      Meets (survey s.live (fun _ _ => True) False) (· = s)
        (connect Scheduler.tunneledDatabase 0) fun r s' =>
          ∃ made ts, Surveyed s.live made s.live.manager ts s' ∧
            (AllOrNothing Scheduler.tunneledDatabase 0 made r s'.live ↔
              FailsAsKnown Scheduler.tunneledDatabase made) :=
  ⟨rfl, connect_allOrNothing_iff Scheduler.tunneledDatabase rfl⟩

/-- Behind a fault that an SSH client is not known to have, the SSH connection stays open and the
fault is none of the connection. -/
theorem connect_not_allOrNothing :
    ∃ answer ∈ TunnelCommand.run Scheduler.tunneledDatabase (listenerFails .runtime) [.connect],
      ∃ f, answer.outcome = .error f ∧ f.isConnection = false ∧
        answer.calls.map Call.kind = [.sshConnect, .forward] :=
  ⟨_, List.mem_cons_self, .raised .runtime [.str "boom"], rfl, rfl, rfl⟩

end

end Tunnel

end SqlWeave
