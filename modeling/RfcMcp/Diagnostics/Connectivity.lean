import RfcMcp.Borrowing.Lending
import RfcMcp.Diagnostics.Addressing

namespace RfcMcp

open Framework Framework.Action ConnectionPool SourceReader Diagnostics

/-- The settings of a server whose pool opens connections with `sap`. -/
def pooled (cfg : AppSettings) (sap : SAPConnectionFields) : AppSettings :=
  { cfg with pyrfcKwargs := sap.toPyrfcKwargs }

/-- What `acquire` comes to when the borrowed connection is pinged, and the state it leaves. -/
inductive Pinged (cfg : AppSettings) (w : World) (ping : Conn → Except PyExc Unit) (s : Shared) :
    Except PyExc Unit → Shared → Prop
  | answered {conn n : Conn} (hlent : Lent cfg w s conn) (hping : ping conn = .ok ()) :
      Pinged cfg w ping s (.ok ()) { s with
        idle := conn :: (s.idle.dropWhile w.dead).tail
        closed := s.idle.takeWhile w.dead ++ s.closed
        nextConn := n }
  | raised {conn n : Conn} {exc : PyExc} (hlent : Lent cfg w s conn)
      (hping : ping conn = .error exc) :
      Pinged cfg w ping s (.error exc) { s with
        idle := (s.idle.dropWhile w.dead).tail
        closed := conn :: (s.idle.takeWhile w.dead ++ s.closed)
        nextConn := n }
  | notBorrowed {exc : PyExc} {s' : Shared} (hlent : ∀ conn, ¬Lent cfg w s conn)
      (hborrows : Borrows cfg w s (.error exc) s') : Pinged cfg w ping s (.error exc) s'

section Acquire

variable {cfg : AppSettings} {w : World} {t : ℕ} {ping : Conn → Except PyExc Unit} {s : Shared}

theorem notLent_of_error {exc : PyExc} {s' : Shared} (h : Borrows cfg w s (.error exc) s')
    (conn : Conn) : ¬Lent cfg w s conn := by
  cases h with
  | timeout hnone =>
    intro hlent
    cases hlent <;> omega
  | failed _ _ hlent _ => exact hlent conn

theorem inWorld_acquire_answered {done : Trace Effects} {s₁ : Shared} {conn : Conn}
    (hcheckout : inWorld cfg w t (checkout cfg) [] s = some (.ok conn, done, s₁))
    (hfree : s₁.holder .pool = none) (hping : ping conn = .ok ()) : ∃ done',
      inWorld cfg w t (acquire cfg fun conn => Action.ofExcept (ping conn)) [] s =
        some (.ok (), done', { s₁ with idle := conn :: s₁.idle, permits := s₁.permits + 1 }) := by
  obtain ⟨done', hrelease⟩ := inWorld_release_reusable cfg w t done conn hfree none
  have hping' : inWorld cfg w t (Action.ofExcept (ping conn)) done s₁ =
      some (.ok (), done, s₁) := by
    rw [hping]
    rfl
  refine ⟨done', (evaluate_bind_ok hcheckout).trans ?_⟩
  refine (evaluate_bind_ok (evaluate_tryExcept_ok hping')).trans ?_
  exact evaluate_bind_ok hrelease

theorem inWorld_acquire_raised {done : Trace Effects} {s₁ : Shared} {conn : Conn} {exc : PyExc}
    (hcheckout : inWorld cfg w t (checkout cfg) [] s = some (.ok conn, done, s₁))
    (hping : ping conn = .error exc) : ∃ done',
      inWorld cfg w t (acquire cfg fun conn => Action.ofExcept (ping conn)) [] s =
        some (.error exc, done',
          { s₁ with closed := conn :: s₁.closed, permits := s₁.permits + 1 }) := by
  obtain ⟨done', hrelease⟩ := inWorld_release_discarded cfg w t done conn s₁ none
  have hping' : inWorld cfg w t (Action.ofExcept (ping conn)) done s₁ =
      some (.error exc, done, s₁) := by
    rw [hping]
    rfl
  refine ⟨done', (evaluate_bind_ok hcheckout).trans ?_⟩
  apply evaluate_bind_error
  refine (evaluate_tryExcept_error hping').trans ?_
  exact evaluate_bind_ok hrelease

theorem pinged (hfree : s.holder .pool = none) : ∃ r done s',
    inWorld cfg w t (acquire cfg fun conn => Action.ofExcept (ping conn)) [] s =
      some (r, done, s') ∧ Pinged cfg w ping s r s' := by
  obtain ⟨r, done, s₁, hcheckout, hborrows⟩ := borrows cfg w t s hfree
  cases r with
  | error exc =>
    have hacquire : inWorld cfg w t (acquire cfg fun conn => Action.ofExcept (ping conn)) [] s =
        some (.error exc, done, s₁) := evaluate_bind_error hcheckout
    exact ⟨_, _, _, hacquire, .notBorrowed (notLent_of_error hborrows) hborrows⟩
  | ok conn =>
    cases hborrows with
    | @lent _ n hpermit hlent =>
      have hback : s.permits - 1 + 1 = s.permits := Nat.sub_add_cancel hpermit
      cases hping : ping conn with
      | ok answered =>
        obtain ⟨done', hacquire⟩ := inWorld_acquire_answered hcheckout hfree hping
        have hanswered := Pinged.answered (n := n) hlent hping
        rw [← hback] at hanswered
        exact ⟨_, _, _, hacquire, hanswered⟩
      | error exc =>
        obtain ⟨done', hacquire⟩ := inWorld_acquire_raised hcheckout hping
        have hraised := Pinged.raised (n := n) hlent hping
        rw [← hback] at hraised
        exact ⟨_, _, _, hacquire, hraised⟩

end Acquire

/-- The result of a check of a connection, and the state it leaves. -/
structure Checked (cfg : AppSettings) (w : World) (ping : Conn → Except PyExc Unit) (s : Shared)
    (result : HealthCheckResult) (s' : Shared) : Prop where
  ok_iff : result.ok = true ↔ ∃ conn, Lent cfg w s conn ∧ ping conn = .ok ()
  permits : s'.permits = s.permits
  discarded : ∀ conn exc, Lent cfg w s conn → ping conn = .error exc →
    conn ∈ s'.closed ∧ conn ∉ s'.idle

/-- The connection lent answers its `ping` or raises a `SAPError`, and where a connection has to be
opened, the connection settings can be used. -/
structure Untroubled (cfg : AppSettings) (sap : SAPConnectionFields) (w : World)
    (ping : Conn → Except PyExc Unit) (s : Shared) : Prop where
  pings : ∀ conn exc, Lent (pooled cfg sap) w s conn → ping conn = .error exc →
    isSapError exc = true
  opens : 0 < s.permits → s.idle.find? w.live = none → cfg.pyrfcInstalled = true →
    isGiven sap.ashost = true → sap.sysnr.isSome = true

/-- What the check makes of the outcome of `acquire`. -/
def healthOf (T : PyText) : Except PyExc Unit → Except PyExc HealthCheckResult
  | .ok () => .ok { ok := true, detail := "Connected and ping succeeded." }
  | .error exc =>
    if isSapError exc then
      .ok { ok := false, detail := exc.typeName ++ ": " ++ exc.text T, exc := some exc }
    else .error exc

section Check

variable {cfg : AppSettings} {w : World} {t : ℕ} {ping : Conn → Except PyExc Unit} {s s' : Shared}

theorem Pinged.permits {r : Except PyExc Unit} (h : Pinged cfg w ping s r s') :
    s'.permits = s.permits := by
  cases h with
  | answered _ _ => rfl
  | raised _ _ => rfl
  | notBorrowed _ hborrows =>
    cases hborrows with
    | timeout _ => rfl
    | failed _ _ _ _ => rfl

/-- The connections lent are not idle any more. -/
theorem Lent.notIdle {conn : Conn} (h : Lent cfg w s conn) (hdifferent : s.idle.Nodup)
    (hold : ∀ conn ∈ s.idle, conn < s.nextConn) : conn ∉ (s.idle.dropWhile w.dead).tail := by
  cases h with
  | idle _ hlive =>
    have hhead : (s.idle.dropWhile w.dead).head? = some conn := by
      rw [← hlive]
      exact (List.find?_eq_head?_dropWhile_not w.live s.idle).symm
    obtain ⟨rest, hrest⟩ := List.head?_eq_some_iff.mp hhead
    have hnodup : (s.idle.dropWhile w.dead).Nodup :=
      hdifferent.sublist (List.dropWhile_sublist w.dead)
    rw [hrest] at hnodup ⊢
    exact (List.nodup_cons.mp hnodup).1
  | new _ _ _ _ _ _ =>
    intro hmem
    have hidle := (List.dropWhile_sublist w.dead).subset (List.mem_of_mem_tail hmem)
    exact Nat.lt_irrefl _ (hold _ hidle)

theorem Pinged.discarded {r : Except PyExc Unit} (h : Pinged cfg w ping s r s')
    (hdifferent : s.idle.Nodup) (hold : ∀ conn ∈ s.idle, conn < s.nextConn) {conn : Conn}
    {exc : PyExc} (hlent : Lent cfg w s conn) (hping : ping conn = .error exc) :
    conn ∈ s'.closed ∧ conn ∉ s'.idle := by
  cases h with
  | answered hlent' hping' =>
    rw [hlent.unique hlent', hping'] at hping
    cases hping
  | raised hlent' _ =>
    rw [hlent.unique hlent']
    exact ⟨List.mem_cons_self, hlent'.notIdle hdifferent hold⟩
  | notBorrowed hnone _ => exact absurd hlent (hnone conn)

theorem Pinged.holder {r : Except PyExc Unit} (h : Pinged cfg w ping s r s') :
    s'.holder = s.holder := by
  cases h with
  | answered _ _ => rfl
  | raised _ _ => rfl
  | notBorrowed _ hborrows =>
    cases hborrows with
    | timeout _ => rfl
    | failed _ _ _ _ => rfl

/-- Next to the connection lent, an idle connection is closed on the way to it or stays idle. -/
theorem Lent.others {conn c : Conn} (h : Lent cfg w s conn) (hc : c ∈ s.idle) :
    c ∈ s.idle.takeWhile w.dead ∨ c = conn ∨ c ∈ (s.idle.dropWhile w.dead).tail := by
  rw [← List.takeWhile_append_dropWhile (p := w.dead) (l := s.idle)] at hc
  cases List.mem_append.mp hc with
  | inl hclosed => exact Or.inl hclosed
  | inr hrest =>
    right
    cases h with
    | idle _ hlive =>
      rw [List.find?_eq_head?_dropWhile_not] at hlive
      obtain ⟨rest, hsplit⟩ := List.head?_eq_some_iff.mp hlive
      have hdrop : s.idle.dropWhile w.dead = conn :: rest := hsplit
      rw [hdrop] at hrest ⊢
      exact List.mem_cons.mp hrest
    | new _ hnone _ _ _ _ =>
      rw [List.find?_eq_head?_dropWhile_not] at hnone
      have hdrop : s.idle.dropWhile w.dead = [] := List.head?_eq_none_iff.mp hnone
      rw [hdrop] at hrest
      cases hrest

/-- No connection gets lost. -/
theorem Pinged.kept {r : Except PyExc Unit} (h : Pinged cfg w ping s r s') {conn : Conn}
    (hconn : conn ∈ s.idle ∨ Lent cfg w s conn) : conn ∈ s'.idle ∨ conn ∈ s'.closed := by
  cases h with
  | answered hlent _ =>
    cases hconn with
    | inl hidle =>
      rcases hlent.others hidle with hclosed | rfl | hrest
      · exact Or.inr (List.mem_append_left _ hclosed)
      · exact Or.inl List.mem_cons_self
      · exact Or.inl (List.mem_cons_of_mem _ hrest)
    | inr hlent' =>
      rw [hlent'.unique hlent]
      exact Or.inl List.mem_cons_self
  | raised hlent _ =>
    cases hconn with
    | inl hidle =>
      rcases hlent.others hidle with hclosed | rfl | hrest
      · exact Or.inr (List.mem_cons_of_mem _ (List.mem_append_left _ hclosed))
      · exact Or.inr List.mem_cons_self
      · exact Or.inl hrest
    | inr hlent' =>
      rw [hlent'.unique hlent]
      exact Or.inr List.mem_cons_self
  | notBorrowed hnone hborrows =>
    have hidle : conn ∈ s.idle := hconn.resolve_right (hnone conn)
    cases hborrows with
    | timeout _ => exact Or.inl hidle
    | failed _ _ _ _ => exact Or.inr (List.mem_append_left _ hidle)

theorem inWorld_checkConnectivity (cfg : AppSettings) (w : World) (t : ℕ)
    (ping : Conn → Except PyExc Unit) (hfree : s.holder .pool = none) : ∃ r done s',
    inWorld cfg w t (checkConnectivity cfg.text (connectionPool cfg) ping) [] s =
      some (healthOf cfg.text r, done, s') ∧ Pinged cfg w ping s r s' := by
  obtain ⟨r, done, s', hacquire, hpinged⟩ := pinged (t := t) hfree
  refine ⟨r, done, s', ?_, hpinged⟩
  cases r with
  | ok answered => exact evaluate_tryExcept_ok (evaluate_bind_ok hacquire)
  | error exc =>
    refine (evaluate_tryExcept_error (evaluate_bind_error hacquire)).trans ?_
    unfold healthOf
    cases hsap : isSapError exc with
    | false => simp [hsap, evaluate, Action.raise]
    | true => simp [hsap, evaluate, pure]

end Check

section Settings

variable {cfg : AppSettings} {sap : SAPConnectionSettings cfg.text} {w : World} {t : ℕ}
  {ping : Conn → Except PyExc Unit} {s s' : Shared}

/-- The keyword arguments can be built unless a host comes without a system number. -/
theorem toPyrfcKwargs_ok (h : isGiven sap.ashost = true → sap.sysnr.isSome = true) :
    ∃ kwargs, sap.toPyrfcKwargs = .ok kwargs := by
  cases hashost : isGiven sap.ashost with
  | true =>
    obtain ⟨sysnr, hsysnr⟩ := Option.isSome_iff_exists.mp (h hashost)
    obtain ⟨_, kwargs, hkwargs, _⟩ := usable_direct sap hashost hsysnr
    exact ⟨kwargs, hkwargs⟩
  | false =>
    obtain ⟨_, kwargs, hkwargs, _⟩ := usable_loadBalanced sap hashost
    exact ⟨kwargs, hkwargs⟩

theorem unopened_sap (h : cfg.pyrfcInstalled = true → isGiven sap.ashost = true →
      sap.sysnr.isSome = true) {exc : PyExc}
    (hexc : unopened (pooled cfg sap.toSAPConnectionFields) = some exc) :
    isSapError exc = true := by
  unfold unopened pooled at hexc
  cases hinstalled : cfg.pyrfcInstalled with
  | false =>
    rw [hinstalled] at hexc
    cases hexc
    rfl
  | true =>
    obtain ⟨kwargs, hkwargs⟩ := toPyrfcKwargs_ok (h hinstalled)
    rw [hinstalled] at hexc
    simp only [hkwargs] at hexc
    cases hexc

theorem translated_sap (raw : PyExc) : isSapError (translated cfg raw) = true := by
  obtain ⟨kind, message, key, htranslated⟩ :=
    translatePyrfcException_sap cfg.text cfg.pyrfcInstalled raw
  unfold translated
  rw [htranslated]
  rfl

theorem Untroubled.raises (h : Untroubled cfg sap.toSAPConnectionFields w ping s) {exc : PyExc}
    (hpinged : Pinged (pooled cfg sap.toSAPConnectionFields) w ping s (.error exc) s') :
    isSapError exc = true := by
  cases hpinged with
  | raised hlent hping => exact h.pings _ exc hlent hping
  | notBorrowed _ hborrows =>
    cases hborrows with
    | timeout _ => rfl
    | failed hpermit hnone _ hexc =>
      cases hexc with
      | inl hunopened => exact unopened_sap (h.opens hpermit hnone) hunopened
      | inr hraw =>
        obtain ⟨_, raw, rfl⟩ := hraw
        exact translated_sap raw

/-- Where nothing but a `SAPError` is raised, a check returns. -/
theorem Untroubled.result (h : Untroubled cfg sap.toSAPConnectionFields w ping s)
    {r : Except PyExc Unit}
    (hpinged : Pinged (pooled cfg sap.toSAPConnectionFields) w ping s r s') :
    ∃ result, healthOf cfg.text r = .ok result ∧ (result.ok = true ↔ ∃ conn,
      Lent (pooled cfg sap.toSAPConnectionFields) w s conn ∧ ping conn = .ok ()) := by
  cases r with
  | ok answered =>
    cases hpinged with
    | answered hlent hping => exact ⟨_, rfl, fun _ => ⟨_, hlent, hping⟩, fun _ => rfl⟩
  | error exc =>
    have hsap := h.raises hpinged
    refine ⟨{ ok := false, detail := exc.typeName ++ ": " ++ exc.text cfg.text, exc := some exc },
      if_pos hsap, nofun, ?_⟩
    rintro ⟨conn, hlent, hping⟩
    cases hpinged with
    | raised hlent' hping' =>
      rw [hlent.unique hlent', hping'] at hping
      cases hping
    | notBorrowed hnone _ => exact absurd hlent (hnone conn)

theorem notLent_of_unopened {exc : PyExc} {cfg : AppSettings} (h : unopened cfg = some exc)
    (hnone : s.idle.find? w.live = none) (conn : Conn) : ¬Lent cfg w s conn := by
  intro hlent
  cases hlent with
  | idle _ hlive =>
    rw [hnone] at hlive
    cases hlive
  | new _ _ hopens _ _ _ =>
    rw [h] at hopens
    cases hopens

/-- Where a check returns, nothing but a `SAPError` was raised. -/
theorem untroubled_of_result {r : Except PyExc Unit} {result : HealthCheckResult}
    (hpinged : Pinged (pooled cfg sap.toSAPConnectionFields) w ping s r s')
    (hresult : healthOf cfg.text r = .ok result) :
    Untroubled cfg sap.toSAPConnectionFields w ping s := by
  have hsap : ∀ exc, r = .error exc → isSapError exc = true := by
    intro exc hexc
    rw [hexc] at hresult
    by_contra hother
    simp [healthOf, hother] at hresult
  constructor
  · intro conn exc hlent hping
    cases hpinged with
    | answered hlent' hping' =>
      rw [hlent.unique hlent', hping'] at hping
      cases hping
    | raised hlent' hping' =>
      rw [hlent.unique hlent', hping'] at hping
      cases hping
      exact hsap _ rfl
    | notBorrowed hnone _ => exact absurd hlent (hnone conn)
  · intro hpermit hnone hinstalled hashost
    cases hsysnr : sap.sysnr with
    | some sysnr => rfl
    | none =>
      have hassert : unopened (pooled cfg sap.toSAPConnectionFields) =
          some (.other "AssertionError" "") := by
        unfold unopened pooled
        simp only [hinstalled, toPyrfcKwargs_half hashost hsysnr]
      have hnobody := notLent_of_unopened hassert hnone
      cases hpinged with
      | answered hlent _ => exact absurd hlent (hnobody _)
      | raised hlent _ => exact absurd hlent (hnobody _)
      | notBorrowed _ hborrows =>
        cases hborrows with
        | timeout hzero => omega
        | failed _ _ _ hexc =>
          rw [hassert] at hexc
          have hsame := hexc.resolve_right fun hopens => nomatch hopens.1
          cases hsame
          cases hsap _ rfl

end Settings

section Diagnosed

variable {cfg : AppSettings} {T : PyText} {w : World} {t : ℕ} {ping : Conn → Except PyExc Unit}
  {s s' s'' : Shared} {settings : DiagnosticSettings T} {pool : ConnectionManager}

/-- After a check that returns, the pool is closed and the report is made. -/
theorem inWorld_finish {checks : List DiagnosticCheck} {result : HealthCheckResult}
    {done done' : Trace Effects}
    (hcheck : inWorld cfg w t (checkConnectivity T pool ping) [] s =
      some (.ok result, done, s'))
    (hclose : inWorld cfg w t pool.closeAll done s' = some (.ok (), done', s'')) :
    inWorld cfg w t (finish settings true pool ping checks) [] s =
      some (.ok ⟨settings.backend.value, checks ++ [readPolicyCheck settings] ++
        [⟨"connectivity", if result.ok then .pass else .fail, result.detail⟩]⟩, done', s'') := by
  unfold finish
  rw [if_pos rfl]
  refine (evaluate_bind_ok hcheck).trans ?_
  exact (evaluate_bind_ok hclose).trans rfl

theorem inWorld_demo {checks : List DiagnosticCheck} : ∃ report done s',
    inWorld cfg w t (finish settings true demoConnectionPool (fun _ => .ok ()) checks) [] s =
      some (.ok report, done, s') := by
  have hcheck : inWorld cfg w t (checkConnectivity T demoConnectionPool fun _ => .ok ()) [] s =
      some (.ok { ok := true, detail := "Connected and ping succeeded." },
        [⟨.closeConnection s.nextConn, ()⟩, ⟨.demoConnection, s.nextConn⟩],
        { s with nextConn := s.nextConn + 1, closed := s.nextConn :: s.closed }) := rfl
  have hclose : inWorld cfg w t demoConnectionPool.closeAll
      [⟨.closeConnection s.nextConn, ()⟩, ⟨.demoConnection, s.nextConn⟩]
      { s with nextConn := s.nextConn + 1, closed := s.nextConn :: s.closed } =
        some (.ok (), [⟨.closeConnection s.nextConn, ()⟩, ⟨.demoConnection, s.nextConn⟩],
          { s with nextConn := s.nextConn + 1, closed := s.nextConn :: s.closed }) := rfl
  exact ⟨_, _, _, inWorld_finish hcheck hclose⟩

end Diagnosed

section Connectivity

variable (cfg : AppSettings) (sap : SAPConnectionSettings cfg.text) (w : World) (t : ℕ)
  (ping : Conn → Except PyExc Unit) (s : Shared)

/-- `check_connectivity` returns what it should. -/
def ConnectivityChecked : Prop :=
  ∃ result done s',
    inWorld (pooled cfg sap.toSAPConnectionFields) w t
      (checkConnectivity cfg.text (connectionPool (pooled cfg sap.toSAPConnectionFields)) ping)
      [] s = some (.ok result, done, s') ∧
    Checked (pooled cfg sap.toSAPConnectionFields) w ping s result s'

/-- `run_diagnostics` with `connect=True` makes a report, and closes the pool if it has one. -/
def Diagnosed : Prop :=
  ∀ (settings : DiagnosticSettings cfg.text) (pyrfcProbe : Except PyExc Unit),
    (∀ sap', settings.sapSettings = .ok sap' → sap' = sap) →
    ∃ report done s',
      inWorld (pooled cfg sap.toSAPConnectionFields) w t
        (runDiagnostics settings true pyrfcProbe
          (fun sap' => connectionPool (pooled cfg sap'.toSAPConnectionFields)) ping) [] s =
        some (.ok report, done, s') ∧
      (settings.backend = .sap → settings.sapSettings = .ok sap → pyrfcProbe = .ok () →
        s'.idle = [] ∧ s'.permits = s.permits ∧
        ∀ conn, conn ∈ s.idle ∨ Lent (pooled cfg sap.toSAPConnectionFields) w s conn →
          conn ∈ s'.closed)

section Parts

variable {cfg sap w t ping s}

theorem untroubled_of_checked (hfree : s.holder .pool = none)
    (h : ConnectivityChecked cfg sap w t ping s) :
    Untroubled cfg sap.toSAPConnectionFields w ping s := by
  obtain ⟨result, done', s'', hresult, _⟩ := h
  obtain ⟨r, done, s', hcheck, hpinged⟩ := inWorld_checkConnectivity
    (pooled cfg sap.toSAPConnectionFields) w t ping hfree
  have hsame := hcheck.symm.trans hresult
  injection hsame with hsame
  injection hsame with hresult'
  exact untroubled_of_result hpinged hresult'

theorem diagnosed_of_check {r : Except PyExc Unit} {result : HealthCheckResult}
    {done : Trace Effects} {s' : Shared}
    (hcheck : inWorld (pooled cfg sap.toSAPConnectionFields) w t
      (checkConnectivity cfg.text (connectionPool (pooled cfg sap.toSAPConnectionFields)) ping)
      [] s = some (.ok result, done, s'))
    (hpinged : Pinged (pooled cfg sap.toSAPConnectionFields) w ping s r s')
    (hfree : s.holder .pool = none) : Diagnosed cfg sap w t ping s := by
  intro settings pyrfcProbe hsettings
  have hfree' : s'.holder .pool = none := by
    rw [hpinged.holder]
    exact hfree
  obtain ⟨done', hclose⟩ := inWorld_closeAll (pooled cfg sap.toSAPConnectionFields) w t done hfree'
  have hclosed : ∀ conn, conn ∈ s.idle ∨
      Lent (pooled cfg sap.toSAPConnectionFields) w s conn → conn ∈ s'.idle ++ s'.closed :=
    fun conn hconn => List.mem_append.mpr (hpinged.kept hconn)
  unfold runDiagnostics
  cases hbackend : settings.backend with
  | demo =>
    obtain ⟨report, done, s', hreport⟩ := inWorld_demo
    exact ⟨report, done, s', hreport, nofun⟩
  | sap =>
    cases hsap : settings.sapSettings with
    | error problems => exact ⟨_, _, _, rfl, fun _ h => nomatch h⟩
    | ok sap' =>
      obtain rfl := hsettings sap' hsap
      cases pyrfcProbe with
      | error exc => exact ⟨_, _, _, rfl, fun _ _ h => nomatch h⟩
      | ok loaded =>
        refine ⟨_, _, _, inWorld_finish hcheck hclose, ?_⟩
        intro _ _ _
        exact ⟨rfl, hpinged.permits, hclosed⟩

end Parts

/-- A check never raises, and leaves the pool as it should, exactly where the connection lent does
not raise a raw exception when it is pinged and the settings can be used. -/
theorem connectivity_checked_iff (hfree : s.holder .pool = none) (hdifferent : s.idle.Nodup)
    (hold : ∀ conn ∈ s.idle, conn < s.nextConn) :
    (ConnectivityChecked cfg sap w t ping s ∧ Diagnosed cfg sap w t ping s) ↔
      Untroubled cfg sap.toSAPConnectionFields w ping s := by
  constructor
  · rintro ⟨hchecked, _⟩
    exact untroubled_of_checked hfree hchecked
  · intro h
    obtain ⟨r, done, s', hcheck, hpinged⟩ := inWorld_checkConnectivity
      (pooled cfg sap.toSAPConnectionFields) w t ping hfree
    obtain ⟨result, hresult, hok⟩ := h.result hpinged
    have hhealth : healthOf (pooled cfg sap.toSAPConnectionFields).text r = .ok result := hresult
    rw [hhealth] at hcheck
    refine ⟨⟨result, done, s', hcheck, hok, hpinged.permits, ?_⟩, ?_⟩
    · intro conn exc hlent hping
      exact hpinged.discarded hdifferent hold hlent hping
    · exact diagnosed_of_check hcheck hpinged hfree

end Connectivity

section Examples

def directSettings : SAPConnectionSettings asciiText where
  ashost := some "sap.example.com"
  sysnr := some "00"
  client := "100"
  user := "u"
  passwd := "p"
  sysnr_pattern := by
    intro sysnr h
    cases h
    decide
  client_pattern := isClient_hundred
  addressing := rfl

/-- One live connection is idle. -/
def oneIdle (cfg : AppSettings) : Shared := { Shared.initial cfg with idle := [0], nextConn := 1 }

def healthy : World := ⟨fun _ => .alive, fun _ => .ok ()⟩

/-- The connection drops between the test of the pool and the `ping` of the check. -/
theorem raw_ping_raises : ¬∀ (cfg : AppSettings) (sap : SAPConnectionSettings cfg.text) (w : World)
    (t : ℕ) (ping : Conn → Except PyExc Unit) (s : Shared), s.holder .pool = none →
      s.idle.Nodup → (∀ conn ∈ s.idle, conn < s.nextConn) →
      ConnectivityChecked cfg sap w t ping s ∧ Diagnosed cfg sap w t ping s := by
  intro hall
  obtain ⟨hchecked, _⟩ := hall { text := asciiText } directSettings healthy 0
    (fun _ => .error (.driver .communication "connection reset" none none))
    (oneIdle { text := asciiText }) rfl (by decide) (by decide)
  have huntroubled := untroubled_of_checked rfl hchecked
  have hlent : Lent (pooled { text := asciiText } directSettings.toSAPConnectionFields) healthy
      (oneIdle { text := asciiText }) 0 := .idle (by decide) rfl
  cases huntroubled.pings 0 _ hlent rfl

/-- The connection answers. -/
theorem answered_ping_checked :
    ConnectivityChecked { text := asciiText } directSettings healthy 0 (fun _ => .ok ())
        (oneIdle { text := asciiText }) ∧
      Diagnosed { text := asciiText } directSettings healthy 0 (fun _ => .ok ())
        (oneIdle { text := asciiText }) := by
  apply (connectivity_checked_iff { text := asciiText } directSettings healthy 0 (fun _ => .ok ())
    (oneIdle { text := asciiText }) rfl (by decide) (by decide)).mpr
  constructor
  · intro conn exc _ hping
    cases hping
  · intro _ _ _ _
    rfl

end Examples

end RfcMcp
